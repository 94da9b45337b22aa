import SubqlConcordium.Interaction.Machine
import SubqlConcordium.SubqueryProject

/-!
# The endpoints of a project

A manifest and the overrides of the command line may give one endpoint or several. Loading a
project makes a list of a single one, but only if it is the manifest's, and looks whether there is
an endpoint at all, which an empty list is as well. `ConcordiumApiService.init` pushes the primary
endpoint onto what it takes for a list. The list is the project's own, so each `init` on the project
finds what the ones before have pushed.

## Who owns the list

`init` pushes the primary endpoint onto the array that the project holds. Nothing is wrong with that
as long as a project is initialised once. The commands that run tests make a service for each test
and initialise each on the same project, and then the endpoint is there as often as there were
tests. So the statement is about any number of runs, and one run is a step of a machine.

## Main definitions

* `init`, `initMachine` — `ConcordiumApiService.init`, on the project it works on
* `EndpointField` — the forms of an endpoint field
* `EndpointsKept`, `EndpointInvariant` — what a caller of the two relies on

## Main results

* `endpoint_init`, `endpoint_run` — what one `init` leaves, and what any number of them
* `lookup_run` — they leave the rest of the network as it is
* `endpointInvariant_iff` — when the list is as it should be
-/

namespace SubqlConcordium

open Js Interaction

/-! ### The service -/

/-- `network.endpoint.push(endpoint)`. -/
def pushEndpoint (network : Obj) (endpoint : String) : Except JsError Obj :=
  match network.prop "endpoint" with
  | .arr xs => .ok (network.put "endpoint" (.arr (xs ++ [.str endpoint])))
  | .undefined => .error (typeError "Cannot read properties of undefined (reading 'push')")
  | .null => .error (typeError "Cannot read properties of null (reading 'push')")
  | _ => .error (typeError "network.endpoint.push is not a function")

/-- How `init` ends: the process exits, or the connections are made or not. -/
inductive InitOutcome where
  | exited (error : JsError)
  | connected (result : Except JsError Unit)

/-- `createConnections` of `@subql/node-core`, on a network. -/
abbrev CreateConnections := Obj → Except JsError Unit

/-- `ConcordiumApiService.init`, with `nodeConfig.primaryNetworkEndpoint`, and the project as it is
left. -/
def init (primaryNetworkEndpoint : Option String) (createConnections : CreateConnections)
    (project : SubqueryProject) : InitOutcome × SubqueryProject :=
  match primaryNetworkEndpoint.filter (· ≠ "") with
  | some endpoint =>
    match pushEndpoint project.network endpoint with
    | .ok network => (.connected (createConnections network), { project with network := network })
    | .error _ => (.exited (plainError "Failed to init api"), project)
  | none => (.connected (createConnections project.network), project)

/-- One `init` after the other on one project, each with the connections of its own service. -/
def initMachine (primaryNetworkEndpoint : Option String) :
    Machine SubqueryProject CreateConnections InitOutcome where
  step project createConnections := (init primaryNetworkEndpoint createConnections project).2
  output project createConnections :=
    some (init primaryNetworkEndpoint createConnections project).1

/-! ### Endpoint fields -/

/-- The forms of an endpoint field. -/
inductive EndpointField where
  | absent
  | one (endpoint : String)
  | many (endpoints : List String)

namespace EndpointField

/-- The value of a field of the form. -/
def Describes : EndpointField → Value → Prop
  | absent, v => v = .undefined ∨ v = .null
  | one endpoint, v => v = .str endpoint
  | many endpoints, v => v = .arr (endpoints.map .str)

def endpoints : EndpointField → List String
  | absent => []
  | one endpoint => [endpoint]
  | many endpoints => endpoints

end EndpointField

/-- The endpoints that are asked for: those of the override, or else of the manifest. -/
def sources (manifestField overrideField : EndpointField) : List String :=
  match overrideField with
  | .absent => manifestField.endpoints
  | _ => overrideField.endpoints

/-- A value is a non-empty list of just these endpoints, none of them empty. -/
def Lists (endpoints : List String) (v : Value) : Prop :=
  v = .arr (endpoints.map .str) ∧ endpoints ≠ [] ∧ ∀ endpoint ∈ endpoints, endpoint ≠ ""

/-- **The endpoints of a project are kept** over a number of runs of `init`: they are a list of
those asked for, no run exits, and after each the primary endpoint, if there is one, is there once
besides. -/
structure EndpointsKept (primaryNetworkEndpoint : Option String) (endpoints : List String)
    (runs : List CreateConnections) (project : SubqueryProject) : Prop where
  created : Lists endpoints (project.network.prop "endpoint")
  connects : ∀ before createConnections rest, runs = before ++ createConnections :: rest →
    ∃ result, (initMachine primaryNetworkEndpoint).output
      ((initMachine primaryNetworkEndpoint).run project before) createConnections =
        some (.connected result)
  initialised : ∀ before createConnections rest, runs = before ++ createConnections :: rest →
    Lists (endpoints ++ primaryNetworkEndpoint.toList)
      (((initMachine primaryNetworkEndpoint).run project
        (before ++ [createConnections])).network.prop "endpoint")

/-- Creating a project throws, or its endpoints are kept. -/
def EndpointInvariant (loader : Loader) (manifest : ProjectManifest) (path root : String)
    (networkOverrides : Option Obj) (primaryNetworkEndpoint : Option String)
    (endpoints : List String) (runs : List CreateConnections) : Prop :=
  ∀ project, loadProjectFromManifestBase loader manifest path root networkOverrides = .ok project →
    EndpointsKept primaryNetworkEndpoint endpoints runs project

/-! ### What `init` leaves -/

variable {manifestField overrideField : EndpointField} {manifest : ProjectManifest}
  {networkOverrides : Option Obj} {loader : Loader} {path root : String}
  {primaryNetworkEndpoint : Option String} {createConnections : CreateConnections}
  {project : SubqueryProject} {endpoints : List String}

def pushed (primaryNetworkEndpoint : Option String) : List String :=
  (primaryNetworkEndpoint.filter (· ≠ "")).toList

theorem pushed_some {endpoint : String} (h : endpoint ≠ "") :
    pushed (some endpoint) = [endpoint] := by
  simp [pushed, Option.filter, h]

/-- **What one `init` leaves** of a list. -/
theorem endpoint_init (h : project.network.prop "endpoint" = .arr (endpoints.map .str)) :
    (∃ result, (init primaryNetworkEndpoint createConnections project).1 = .connected result) ∧
      (init primaryNetworkEndpoint createConnections project).2.network.prop "endpoint" =
        .arr ((endpoints ++ pushed primaryNetworkEndpoint).map .str) := by
  rw [init, pushed]
  cases primaryNetworkEndpoint.filter (· ≠ "") with
  | none => exact ⟨⟨_, rfl⟩, by simpa using h⟩
  | some endpoint => simp [pushEndpoint, h]

/-- **What any number of them leaves**: the primary endpoint is there as often. -/
theorem endpoint_run (h : project.network.prop "endpoint" = .arr (endpoints.map .str))
    (runs : List CreateConnections) :
    ((initMachine primaryNetworkEndpoint).run project runs).network.prop "endpoint" =
      .arr ((endpoints ++
        (List.replicate runs.length (pushed primaryNetworkEndpoint)).flatten).map .str) := by
  induction runs generalizing project endpoints with
  | nil => simpa using h
  | cons createConnections runs ih =>
    have hstep : ((initMachine primaryNetworkEndpoint).step project createConnections).network.prop
        "endpoint" = .arr ((endpoints ++ pushed primaryNetworkEndpoint).map .str) :=
      (endpoint_init h).2
    rw [Machine.run_cons, ih hstep, List.length_cons, List.replicate_succ, List.flatten_cons,
      List.append_assoc]

theorem lookup_pushEndpoint {network network' : Obj} {endpoint k : String}
    (h : pushEndpoint network endpoint = .ok network') (hk : k ≠ "endpoint") :
    network'.lookup k = network.lookup k := by
  cases hendpoint : network.prop "endpoint" with
  | arr xs =>
    simp only [pushEndpoint, hendpoint, Except.ok.injEq] at h
    rw [← h, Obj.lookup_put_of_ne _ _ hk]
  | _ => simp [pushEndpoint, hendpoint] at h

theorem lookup_init {k : String} (hk : k ≠ "endpoint") :
    (init primaryNetworkEndpoint createConnections project).2.network.lookup k =
      project.network.lookup k := by
  rw [init]
  cases primaryNetworkEndpoint.filter (· ≠ "") with
  | none => rfl
  | some endpoint =>
    cases hpush : pushEndpoint project.network endpoint with
    | error e => simp [hpush]
    | ok network => simpa [hpush] using lookup_pushEndpoint hpush hk

/-- **Nor does any number of them**: the chain id in particular stays that of the project. -/
theorem lookup_run {k : String} (hk : k ≠ "endpoint") (runs : List CreateConnections) :
    ((initMachine primaryNetworkEndpoint).run project runs).network.lookup k =
      project.network.lookup k :=
  Machine.run_of_invariant
    (I := fun p : SubqueryProject => p.network.lookup k = project.network.lookup k)
    (fun _ _ h => (lookup_init hk).trans h) rfl runs

/-! ### What loading leaves -/

theorem EndpointField.lookup_of_describes {field : EndpointField} {o : Obj}
    (h : field.Describes (o.prop "endpoint")) (hfield : field ≠ .absent) :
    o.lookup "endpoint" = some (o.prop "endpoint") := by
  cases hlookup : o.lookup "endpoint" with
  | some v => rw [Obj.prop_of_lookup hlookup]
  | none =>
    rw [Obj.prop_of_lookup_none (by decide) hlookup] at h
    cases field with
    | absent => exact absurd rfl hfield
    | _ => cases h

theorem prop_listEndpoint (h : manifestField.Describes (manifest.network.prop "endpoint")) :
    (manifest.listEndpoint.network.prop "endpoint").truthy = true →
      manifest.listEndpoint.network.prop "endpoint" = .arr (manifestField.endpoints.map .str) := by
  rw [ProjectManifest.listEndpoint]
  cases manifestField with
  | absent => rcases h with h | h <;> simp [h, Value.typeof, Value.truthy]
  | one endpoint =>
    have h' : manifest.network.prop "endpoint" = .str endpoint := h
    simp [h', Value.typeof, EndpointField.endpoints]
  | many endpoints =>
    have h' : manifest.network.prop "endpoint" = .arr (endpoints.map .str) := h
    simp [h', Value.typeof, EndpointField.endpoints]

theorem prop_mergedNetwork_of_override
    (h : overrideField.Describes ((networkOverrides.getD []).prop "endpoint"))
    (hfield : overrideField ≠ .absent) :
    overrideField.Describes ((mergedNetwork manifest networkOverrides).prop "endpoint") := by
  have hlookup : (mergedNetwork manifest networkOverrides).lookup "endpoint" =
      some ((networkOverrides.getD []).prop "endpoint") := by
    rw [mergedNetwork, Obj.lookup_assign, EndpointField.lookup_of_describes h hfield]
    rfl
  rw [Obj.prop_of_lookup hlookup]
  exact h

/-- The endpoint of the network that is loaded: a list, unless the override is a single one. -/
theorem prop_mergedNetwork (hmanifest : manifestField.Describes (manifest.network.prop "endpoint"))
    (hoverride : overrideField.Describes ((networkOverrides.getD []).prop "endpoint"))
    (hone : ∀ endpoint, overrideField ≠ .one endpoint)
    (htruthy : ((mergedNetwork manifest networkOverrides).prop "endpoint").truthy = true) :
    (mergedNetwork manifest networkOverrides).prop "endpoint" =
      .arr ((sources manifestField overrideField).map .str) := by
  cases overrideField with
  | one endpoint => exact absurd rfl (hone endpoint)
  | many endpoints => exact prop_mergedNetwork_of_override hoverride EndpointField.noConfusion
  | absent =>
    have hlookup := Obj.lookup_assign manifest.listEndpoint.network (networkOverrides.getD [])
      "endpoint"
    cases hnone : (networkOverrides.getD []).lookup "endpoint" with
    | none =>
      have hprop : (mergedNetwork manifest networkOverrides).prop "endpoint" =
          manifest.listEndpoint.network.prop "endpoint" := by
        rw [mergedNetwork, Obj.prop, hlookup, hnone]
        rfl
      rw [hprop] at htruthy ⊢
      exact prop_listEndpoint hmanifest htruthy
    | some v =>
      -- an override without a value is put over the endpoint all the same
      rw [Obj.prop_of_lookup hnone] at hoverride
      rw [mergedNetwork, Obj.prop, hlookup, hnone] at htruthy
      rcases hoverride with rfl | rfl <;> cases htruthy

/-! ### When the list is as it should be -/

/-- The endpoints asked for can be kept: the override is no single endpoint, there are endpoints
and none of them is empty, and a primary endpoint is pushed once, and is not empty. -/
structure Keepable (manifestField overrideField : EndpointField)
    (primaryNetworkEndpoint : Option String) (runs : List CreateConnections) : Prop where
  override : ∀ endpoint, overrideField ≠ .one endpoint
  nonempty : sources manifestField overrideField ≠ []
  endpoints : ∀ endpoint ∈ sources manifestField overrideField, endpoint ≠ ""
  primary : ∀ endpoint ∈ primaryNetworkEndpoint, endpoint ≠ "" ∧ runs.length = 1

theorem map_str_injective : Function.Injective (List.map Value.str) :=
  List.map_injective_iff.mpr fun _ _ => Value.str.inj

theorem keepable_of_kept {runs : List CreateConnections} (hruns : runs ≠ [])
    (hoverride : overrideField.Describes ((networkOverrides.getD []).prop "endpoint"))
    (hload : loadProjectFromManifestBase loader manifest path root networkOverrides = .ok project)
    (hkept : EndpointsKept primaryNetworkEndpoint (sources manifestField overrideField) runs
      project) :
    Keepable manifestField overrideField primaryNetworkEndpoint runs := by
  obtain ⟨hlist, hnonempty, hendpoints⟩ := hkept.created
  refine ⟨fun endpoint hone => ?_, hnonempty, hendpoints, fun endpoint hprimary => ?_⟩
  · subst hone
    have hmerged : (mergedNetwork manifest networkOverrides).prop "endpoint" = .str endpoint :=
      prop_mergedNetwork_of_override hoverride EndpointField.noConfusion
    rw [← endpoint_of_processChainId (network_of_load hload), hlist] at hmerged
    cases hmerged
  · obtain rfl : primaryNetworkEndpoint = some endpoint := hprimary
    obtain ⟨createConnections, rest, rfl⟩ := List.exists_cons_of_ne_nil hruns
    have hfirst := (hkept.initialised [] createConnections rest rfl).2.2 endpoint (by simp)
    refine ⟨hfirst, ?_⟩
    by_contra hlength
    obtain ⟨createConnections', rest', rfl⟩ : ∃ c r, rest = c :: r :=
      List.exists_cons_of_ne_nil fun hnil => hlength (by simp [hnil])
    have hsecond := (hkept.initialised [createConnections] createConnections' rest' rfl).1
    rw [endpoint_run hlist, Value.arr.injEq] at hsecond
    have hlist' := congrArg List.length (map_str_injective hsecond)
    simp [pushed_some hfirst] at hlist'

theorem kept_of_keepable {runs : List CreateConnections}
    (hmanifest : manifestField.Describes (manifest.network.prop "endpoint"))
    (hoverride : overrideField.Describes ((networkOverrides.getD []).prop "endpoint"))
    (hload : loadProjectFromManifestBase loader manifest path root networkOverrides = .ok project)
    (hkeepable : Keepable manifestField overrideField primaryNetworkEndpoint runs) :
    EndpointsKept primaryNetworkEndpoint (sources manifestField overrideField) runs project := by
  have htruthy := (load_returns_iff.mp ⟨project, hload⟩).2.1
  have hlist : project.network.prop "endpoint" =
      .arr ((sources manifestField overrideField).map .str) := by
    rw [endpoint_of_processChainId (network_of_load hload)]
    exact prop_mergedNetwork hmanifest hoverride hkeepable.override htruthy
  refine ⟨⟨hlist, hkeepable.nonempty, hkeepable.endpoints⟩, fun before cc rest hruns => ?_,
    fun before cc rest hruns => ?_⟩
  · obtain ⟨result, hresult⟩ := (endpoint_init (endpoint_run hlist before)).1
    exact ⟨result, congrArg some hresult⟩
  · have hrun : (List.replicate (before ++ [cc]).length (pushed primaryNetworkEndpoint)).flatten =
        primaryNetworkEndpoint.toList := by
      cases primaryNetworkEndpoint with
      | none => simp [pushed]
      | some endpoint =>
        obtain ⟨hendpoint, hlength⟩ := hkeepable.primary endpoint rfl
        have hbefore : before = [] := by
          rw [hruns, List.length_append, List.length_cons] at hlength
          exact List.length_eq_zero_iff.mp (by omega)
        rw [hbefore, pushed_some hendpoint]
        rfl
    have hnonempty := List.append_ne_nil_of_left_ne_nil hkeepable.nonempty
      primaryNetworkEndpoint.toList
    refine ⟨by rw [endpoint_run hlist, hrun], hnonempty, fun endpoint hendpoint => ?_⟩
    rcases List.mem_append.mp hendpoint with hsource | hprimary
    · exact hkeepable.endpoints endpoint hsource
    · exact (hkeepable.primary endpoint (Option.mem_toList.mp hprimary)).1

/-- **When the list is as it should be**, over any number of runs of `init`: whenever the project
is loaded at all, the endpoints can be kept. -/
theorem endpointInvariant_iff (loader : Loader) (manifest : ProjectManifest) (path root : String)
    (networkOverrides : Option Obj) (primaryNetworkEndpoint : Option String)
    (manifestField overrideField : EndpointField)
    (hmanifest : manifestField.Describes (manifest.network.prop "endpoint"))
    (hoverride : overrideField.Describes ((networkOverrides.getD []).prop "endpoint"))
    (runs : List CreateConnections) (hruns : runs ≠ []) :
    EndpointInvariant loader manifest path root networkOverrides primaryNetworkEndpoint
        (sources manifestField overrideField) runs ↔
      (Loads loader manifest root networkOverrides →
        Keepable manifestField overrideField primaryNetworkEndpoint runs) := by
  constructor
  · intro hinvariant hloads
    obtain ⟨project, hload⟩ := load_returns_iff.mpr hloads
    exact keepable_of_kept hruns hoverride hload (hinvariant project hload)
  · intro hkeepable project hload
    exact kept_of_keepable hmanifest hoverride hload
      (hkeepable (load_returns_iff.mp ⟨project, hload⟩))

def localNetwork : Obj := [("chainId", .str "1"), ("endpoint", .str "http://localhost:20000")]

theorem endpointInvariant_primary :
    EndpointInvariant .reference (manifestOf localNetwork) "./" "./" none
      (some "http://localhost:20001") (sources (.one "http://localhost:20000") .absent)
      [fun _ => .ok ()] :=
  (endpointInvariant_iff .reference (manifestOf localNetwork) "./" "./" none
    (some "http://localhost:20001") (.one "http://localhost:20000") .absent rfl (.inl rfl)
    [fun _ => .ok ()] (List.cons_ne_nil _ _)).mpr fun _ =>
      ⟨fun _ => EndpointField.noConfusion, List.cons_ne_nil _ _, by decide, by decide⟩

/-- A second `init` pushes the primary endpoint again, a single endpoint of the overrides is no
list, and an empty list passes for an endpoint. -/
theorem not_endpointInvariant :
    ¬ EndpointInvariant .reference (manifestOf localNetwork) "./" "./" none
        (some "http://localhost:20001") (sources (.one "http://localhost:20000") .absent)
        [fun _ => .ok (), fun _ => .ok ()] ∧
      ¬ EndpointInvariant .reference (manifestOf localNetwork) "./" "./"
        (some [("endpoint", .str "http://localhost:20002")]) none
        (sources (.one "http://localhost:20000") (.one "http://localhost:20002"))
        [fun _ => .ok ()] ∧
      ¬ EndpointInvariant .reference (manifestOf localNetwork) "./" "./"
        (some [("endpoint", .arr [])]) none
        (sources (.one "http://localhost:20000") (.many [])) [fun _ => .ok ()] := by
  refine ⟨fun h => ?_, fun h => ?_, fun h => ?_⟩
  · have hlists := (h _ rfl).initialised [fun _ => .ok ()] (fun _ => .ok ()) [] rfl
    cases hlists.1
  · have hlists := (h _ rfl).created
    cases hlists.1
  · have hlists := (h _ rfl).created
    exact hlists.2.1 rfl

end SubqlConcordium
