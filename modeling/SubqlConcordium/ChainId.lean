import SubqlConcordium.SubqueryProject

/-!
# The chain id of a project and of its deployment

A network gives its chain id as `chainId` or as `genesisHash`. Two pieces of code make one chain
id of these: the classes of the manifest, when a deployment is published, and `processChainId`,
when the project is loaded from its manifest. The first trims what it gets, wherever it comes from.
The second takes over what the class of the network has left, and that class trims `chainId` only.

`@Type` comes before `@Transform`, so the function that settles the chain id of a deployment is
given an instance already, and the manifest is not touched by it.

## Packages

The classes of the manifest extend classes of another package, and class-transformer and
class-validator do the work. What is needed of the base class is `TrimsChainId`: it trims `chainId`
and leaves `genesisHash` and `bypassBlocks` as they are. The whitelist strips whatever has no
decorator. Both are hypotheses, and the examples meet them.

## Main definitions

* `deploymentNetwork` — the network of the deployment of a manifest
* `TrimsChainId`, `Whitelist.Documented` — what other packages are assumed to do, besides
  `PlainToClass.Documented`
* `ChainIdsAgree` — one chain id, and the deployment can be loaded in its turn

## Main results

* `HasIds.deployed`, `HasIds.processed` — the chain ids that the two pieces of code make
* `HasIds.deployment_returns_iff` — when there is a deployment at all
* `chainIdsAgree_iff` — when the chain ids agree
-/

namespace SubqlConcordium

open Js

/-! ### The classes -/

/-- `@Transform(({value}) => value.trim())`. -/
def trimValue : Value → Except JsError Value
  | .str s => .ok (.str (trim s))
  | .undefined => .error (typeError "Cannot read properties of undefined (reading 'trim')")
  | .null => .error (typeError "Cannot read properties of null (reading 'trim')")
  | _ => .error (typeError "value.trim is not a function")

/-- `ProjectNetworkDeploymentV1_0_0`. Its fields are there from the start, without a value. -/
def projectNetworkDeploymentV1_0_0 : TransformedClass where
  fields := [("chainId", .undefined), ("bypassBlocks", .undefined)]
  transforms := [("chainId", trimValue)]

/-- The properties of `ProjectNetworkDeploymentV1_0_0` with a decorator of class-validator. -/
def declaredOfDeployment : List String := ["chainId", "bypassBlocks"]

/-- `ProjectNetworkV1_0_0`, which extends the class of `@subql/common` by a file. -/
def projectNetworkV1_0_0 (commonProjectNetworkV1_0_0 : TransformedClass) : TransformedClass where
  fields := commonProjectNetworkV1_0_0.fields.assign [("chaintypes", .undefined)]
  transforms := commonProjectNetworkV1_0_0.transforms

/-- The `@Transform` of `DeploymentV1_0_0.network`. -/
def transformNetwork (plainToClass : PlainToClass) (value : Obj) : Except JsError Obj :=
  plainToClass projectNetworkDeploymentV1_0_0 (settleChainId value)

/-- What `validateSync(_, {whitelist: true})` leaves of an object of which some properties are
declared. -/
abbrev Whitelist := List String → Obj → Obj

/-- What class-validator is assumed to do: properties without a decorator are stripped. -/
def Whitelist.Documented (whitelist : Whitelist) : Prop :=
  ∀ declared o k, (whitelist declared o).lookup k = if k ∈ declared then o.lookup k else none

/-- The network of a deployment, made of the network of a parsed manifest: by `@Type` first, then
by `@Transform`. Of a deployment only what is declared is left. -/
def deploymentNetwork (plainToClass : PlainToClass) (whitelist : Whitelist) (network : Obj) :
    Except JsError Obj := do
  let value ← plainToClass projectNetworkDeploymentV1_0_0 network
  let deployed ← transformNetwork plainToClass value
  return whitelist declaredOfDeployment deployed

/-- What the class of `@subql/common` is assumed to do: to trim `chainId`, and nothing else of what
`ProjectNetworkDeploymentV1_0_0` may have. -/
structure TrimsChainId (cls : TransformedClass) : Prop where
  chainId : cls.transforms.lookup "chainId" = some trimValue
  bypassBlocks : cls.transforms.lookup "bypassBlocks" = none
  genesisHash : cls.transforms.lookup "genesisHash" = none
  fields_chainId : cls.fields.prop "chainId" = .undefined
  fields_genesisHash : cls.fields.lookup "genesisHash" = none

theorem exists_str_of_trimValue {v w : Value} (h : trimValue v = .ok w) : ∃ s, w = .str s := by
  cases v <;> cases h
  exact ⟨_, rfl⟩

theorem trimsChainId_deployment : TrimsChainId projectNetworkDeploymentV1_0_0 :=
  ⟨rfl, rfl, rfl, rfl, rfl⟩

theorem TrimsChainId.projectNetwork {common : TransformedClass} (h : TrimsChainId common) :
    TrimsChainId (projectNetworkV1_0_0 common) := by
  have hlookup : ∀ k, k ≠ "chaintypes" →
      (common.fields.assign [("chaintypes", .undefined)]).lookup k = common.fields.lookup k := by
    intro k hk
    rw [Obj.lookup_assign, List.lookup_cons, beq_false_of_ne hk]
    rfl
  refine ⟨h.chainId, h.bypassBlocks, h.genesisHash, ?_, ?_⟩
  · rw [projectNetworkV1_0_0, Obj.prop, hlookup "chainId" (by decide)]
    exact h.fields_chainId
  · rw [projectNetworkV1_0_0, hlookup "genesisHash" (by decide)]
    exact h.fields_genesisHash

/-! ### Chain ids in objects -/

/-- A property that may be absent. -/
def idValue : Option String → Value
  | some s => .str s
  | none => .undefined

theorem idValue_injective : Function.Injective idValue := by
  rintro (_ | s) (_ | s') h <;> cases h <;> rfl

theorem idValue_truthy (c : Option String) : (idValue c).truthy = true ↔ c.getD "" ≠ "" := by
  cases c <;> simp [idValue, Value.truthy]

/-- An object gives these as its `chainId` and `genesisHash`. -/
structure HasIds (o : Obj) (chainId genesisHash : Option String) : Prop where
  chainId : o.prop "chainId" = idValue chainId
  genesisHash : o.lookup "genesisHash" = genesisHash.map Value.str

variable {plainToClass : PlainToClass} {cls common : TransformedClass} {whitelist : Whitelist}
  {o o' network deployment : Obj} {chainId genesisHash : Option String}
  {manifest : ProjectManifest} {networkOverrides : Option Obj}

theorem HasIds.prop_genesisHash (h : HasIds o chainId genesisHash) :
    o.prop "genesisHash" = idValue genesisHash := by
  rw [Obj.prop, h.genesisHash]
  cases genesisHash <;> rfl

/-- An instance has the chain id trimmed, and the genesis hash as it was. -/
theorem HasIds.made (h : HasIds o chainId genesisHash) (hplainToClass : plainToClass.Documented)
    (hcls : TrimsChainId cls) (hmade : plainToClass cls o = .ok o') :
    HasIds o' (chainId.map trim) genesisHash := by
  constructor
  · cases hlookup : o.lookup "chainId" with
    | none =>
      have hnone : chainId = none := by
        have hprop := h.chainId
        rw [Obj.prop_of_lookup_none (by decide) hlookup] at hprop
        exact idValue_injective hprop.symm
      rw [Obj.prop, hplainToClass.lookup_of_none hmade hlookup, hnone]
      exact hcls.fields_chainId
    | some v =>
      obtain ⟨w, hw, hmadeLookup⟩ := hplainToClass.lookup_of_some hmade hlookup
      have hv := h.chainId
      rw [Obj.prop_of_lookup hlookup] at hv
      rw [TransformedClass.transform, hcls.chainId, hv] at hw
      cases chainId with
      | none => cases hw
      | some s =>
        cases hw
        exact Obj.prop_of_lookup (hmadeLookup (by simp))
  · cases genesisHash with
    | none =>
      rw [hplainToClass.lookup_of_none hmade h.genesisHash]
      exact hcls.fields_genesisHash
    | some s =>
      obtain ⟨w, hw, hmadeLookup⟩ := hplainToClass.lookup_of_some hmade h.genesisHash
      rw [TransformedClass.transform, hcls.genesisHash] at hw
      cases hw
      exact hmadeLookup (by simp)

theorem HasIds.made_returns_iff (h : HasIds o chainId genesisHash)
    (hplainToClass : plainToClass.Documented) (hcls : TrimsChainId cls)
    (hothers : ∀ k v, o.lookup k = some v → k ≠ "chainId" → cls.transforms.lookup k = none) :
    (∃ made, plainToClass cls o = .ok made) ↔ o.lookup "chainId" = none ∨ chainId ≠ none := by
  rw [hplainToClass.returns_iff]
  constructor
  · intro hreturns
    cases hlookup : o.lookup "chainId" with
    | none => exact .inl rfl
    | some v =>
      obtain ⟨w, hw⟩ := hreturns "chainId" v hlookup
      have hv := h.chainId
      rw [Obj.prop_of_lookup hlookup] at hv
      rw [TransformedClass.transform, hcls.chainId, hv] at hw
      refine .inr fun hnone => ?_
      rw [hnone] at hw
      cases hw
  · intro hchainId k v hlookup
    by_cases hk : k = "chainId"
    · subst hk
      have hv := h.chainId
      rw [Obj.prop_of_lookup hlookup] at hv
      rw [hlookup, or_iff_right (Option.some_ne_none v)] at hchainId
      obtain ⟨s, rfl⟩ := Option.ne_none_iff_exists'.mp hchainId
      rw [TransformedClass.transform, hcls.chainId, hv]
      exact ⟨_, rfl⟩
    · rw [TransformedClass.transform, hothers k v hlookup hk]
      exact ⟨v, rfl⟩

theorem lookup_chainId_of_made (hplainToClass : plainToClass.Documented)
    (hmade : plainToClass projectNetworkDeploymentV1_0_0 o = .ok o') :
    o'.lookup "chainId" ≠ none := by
  cases hlookup : o.lookup "chainId" with
  | none =>
    rw [hplainToClass.lookup_of_none hmade hlookup]
    exact Option.some_ne_none _
  | some v =>
    obtain ⟨w, hw, hmadeLookup⟩ := hplainToClass.lookup_of_some hmade hlookup
    obtain ⟨s, rfl⟩ := exists_str_of_trimValue hw
    rw [hmadeLookup (by simp)]
    exact Option.some_ne_none _

theorem transforms_deployment {k : String} (hk : k ≠ "chainId") :
    projectNetworkDeploymentV1_0_0.transforms.lookup k = none := by
  rw [projectNetworkDeploymentV1_0_0, List.lookup_cons, beq_false_of_ne hk]
  rfl

/-- One chain id out of two: the genesis hash where there is no chain id. -/
def chainIdOf (chainId genesisHash : Option String) : Option String :=
  if genesisHash.getD "" ≠ "" ∧ chainId.getD "" = "" then genesisHash else chainId

/-- Both pieces of code put the genesis hash in place of a chain id that is missing. -/
theorem HasIds.settled (h : HasIds o chainId genesisHash) :
    HasIds (settleChainId o) (chainIdOf chainId genesisHash) genesisHash := by
  have hcond : ((o.prop "genesisHash").truthy && !(o.prop "chainId").truthy) = true ↔
      genesisHash.getD "" ≠ "" ∧ chainId.getD "" = "" := by
    rw [Bool.and_eq_true, Bool.not_eq_true', ← Bool.not_eq_true, h.prop_genesisHash, h.chainId,
      idValue_truthy, idValue_truthy, not_not]
  rw [settleChainId, chainIdOf]
  by_cases hsettle : genesisHash.getD "" ≠ "" ∧ chainId.getD "" = ""
  · rw [if_pos (hcond.mpr hsettle), if_pos hsettle]
    refine ⟨?_, ?_⟩
    · rw [Obj.prop_put_self, h.prop_genesisHash]
    · rw [Obj.lookup_put_of_ne _ _ (by decide), h.genesisHash]
  · rw [if_neg (mt hcond.mp hsettle), if_neg hsettle]
    exact h

/-- **The chain id of a project**, from that of the network with the overrides. -/
theorem HasIds.processed (h : HasIds o chainId genesisHash) (hprocess : processChainId o = .ok o') :
    HasIds o' (chainIdOf chainId genesisHash) none := by
  obtain ⟨-, rfl⟩ := processChainId_eq_ok_iff.mp hprocess
  refine ⟨?_, Obj.lookup_without_self _ _⟩
  rw [Obj.prop, Obj.lookup_without_of_ne (by decide)]
  exact h.settled.chainId

theorem HasIds.processed_returns (h : HasIds o chainId none) :
    ∃ o', processChainId o = .ok o' := by
  refine ⟨_, processChainId_eq_ok_iff.mpr ⟨?_, rfl⟩⟩
  rw [h.prop_genesisHash]
  rintro ⟨-, ⟨⟩⟩

/-- **The chain id of a deployment**, from that of the network of the parsed manifest. -/
theorem HasIds.deployed (h : HasIds network chainId genesisHash)
    (hplainToClass : plainToClass.Documented) (hwhitelist : whitelist.Documented)
    (hdeployment : deploymentNetwork plainToClass whitelist network = .ok deployment) :
    HasIds deployment ((chainIdOf (chainId.map trim) genesisHash).map trim) none := by
  obtain ⟨value, hvalue, hdeployment⟩ := bind_eq_ok_iff.mp hdeployment
  obtain ⟨deployed, hdeployed, hdeployment⟩ := bind_eq_ok_iff.mp hdeployment
  cases hdeployment
  have htyped := h.made hplainToClass trimsChainId_deployment hvalue
  have htransformed := htyped.settled.made hplainToClass trimsChainId_deployment hdeployed
  refine ⟨?_, ?_⟩
  · rw [Obj.prop, hwhitelist, if_pos (by decide)]
    exact htransformed.chainId
  · rw [hwhitelist, if_neg (by decide)]
    rfl

/-- **When there is a deployment**: when a chain id comes out as a string. -/
theorem HasIds.deployment_returns_iff (h : HasIds network chainId genesisHash)
    (hplainToClass : plainToClass.Documented) :
    (∃ deployment, deploymentNetwork plainToClass whitelist network = .ok deployment) ↔
      (network.lookup "chainId" = none ∨ chainId ≠ none) ∧
        chainIdOf (chainId.map trim) genesisHash ≠ none := by
  have hothers : ∀ (o : Obj) k v, o.lookup k = some v → k ≠ "chainId" →
      projectNetworkDeploymentV1_0_0.transforms.lookup k = none :=
    fun _ _ _ _ => transforms_deployment
  rw [← h.made_returns_iff hplainToClass trimsChainId_deployment (hothers network),
    deploymentNetwork, bind_returns_iff]
  rw [← exists_and_right]
  refine exists_congr fun value => and_congr_right fun hvalue => ?_
  have hsettled := (h.made hplainToClass trimsChainId_deployment hvalue).settled
  have hlookup : (settleChainId value).lookup "chainId" ≠ none := by
    rw [settleChainId]
    split_ifs
    · rw [Obj.lookup_put_self]
      exact Option.some_ne_none _
    · exact lookup_chainId_of_made hplainToClass hvalue
  rw [bind_returns_iff, transformNetwork,
    ← or_iff_right hlookup (b := chainIdOf (chainId.map trim) genesisHash ≠ none),
    ← hsettled.made_returns_iff hplainToClass trimsChainId_deployment (hothers _)]
  exact exists_congr fun deployed => and_iff_left ⟨_, rfl⟩

theorem declared_of_deployment (hwhitelist : whitelist.Documented)
    (hdeployment : deploymentNetwork plainToClass whitelist network = .ok deployment) {k : String}
    {v : Value} (hk : deployment.lookup k = some v) : k ∈ declaredOfDeployment := by
  obtain ⟨value, -, hdeployment⟩ := bind_eq_ok_iff.mp hdeployment
  obtain ⟨deployed, -, hdeployment⟩ := bind_eq_ok_iff.mp hdeployment
  cases hdeployment
  rw [hwhitelist] at hk
  by_contra hnot
  rw [if_neg hnot] at hk
  cases hk

/-- The overrides give no chain id. -/
def NoChainId (networkOverrides : Option Obj) : Prop :=
  (networkOverrides.getD []).lookup "chainId" = none ∧
    (networkOverrides.getD []).lookup "genesisHash" = none

theorem HasIds.merged (h : HasIds manifest.network chainId genesisHash)
    (hoverrides : NoChainId networkOverrides) :
    HasIds (mergedNetwork manifest networkOverrides) chainId genesisHash := by
  refine ⟨?_, ?_⟩
  · rw [Obj.prop, lookup_mergedNetwork (by decide) hoverrides.1]
    exact h.chainId
  · rw [lookup_mergedNetwork (by decide) hoverrides.2]
    exact h.genesisHash

/-! ### The two chain ids -/

/-- **The chain ids agree.** The project and the deployment of a manifest have the same chain id,
and the network of the deployment, read as that of a manifest, is processed without complaint and
gives it again. -/
structure ChainIdsAgree (plainToClass : PlainToClass) (common : TransformedClass)
    (deployment : Obj) (project : SubqueryProject) : Prop where
  same : project.network.prop "chainId" = deployment.prop "chainId"
  reads : ∃ network, plainToClass (projectNetworkV1_0_0 common) deployment = .ok network
  processes : ∀ (manifest : ProjectManifest) (networkOverrides : Option Obj),
    plainToClass (projectNetworkV1_0_0 common) deployment = .ok manifest.network →
      NoChainId networkOverrides →
        ∃ network, processChainId (mergedNetwork manifest networkOverrides) = .ok network
  reloads : ∀ (manifest : ProjectManifest) (networkOverrides : Option Obj) (loader : Loader)
    (path root : String) (again : SubqueryProject),
    plainToClass (projectNetworkV1_0_0 common) deployment = .ok manifest.network →
      NoChainId networkOverrides →
        loadProjectFromManifestBase loader manifest path root networkOverrides = .ok again →
          again.network.prop "chainId" = project.network.prop "chainId"

theorem getD_map_trim (c : Option String) : (c.map trim).getD "" = trim (c.getD "") := by
  cases c with
  | none => decide
  | some s => rfl

/-- What is settled is trimmed already if the chain id is there, or else the genesis hash is. -/
theorem map_trim_chainIdOf_iff :
    (chainIdOf (chainId.map trim) genesisHash).map trim = chainIdOf (chainId.map trim) genesisHash ↔
      trim (chainId.getD "") ≠ "" ∨ trim (genesisHash.getD "") = genesisHash.getD "" := by
  rw [chainIdOf, getD_map_trim]
  by_cases hsettle : genesisHash.getD "" ≠ "" ∧ trim (chainId.getD "") = ""
  · rw [if_pos hsettle, or_iff_right (not_not_intro hsettle.2)]
    cases genesisHash with
    | none => exact absurd rfl hsettle.1
    | some s => simp
  · rw [if_neg hsettle, Option.map_map, trim_comp_trim]
    refine iff_of_true rfl ?_
    rcases not_and_or.mp hsettle with hgenesisHash | hchainId
    · rw [not_not] at hgenesisHash
      exact .inr (by rw [hgenesisHash]; decide)
    · exact .inl hchainId

/-- Loading again gives the chain id of the deployment. -/
theorem HasIds.reloaded (h : HasIds deployment chainId none)
    (hplainToClass : plainToClass.Documented) (hcommon : TrimsChainId common)
    (hmanifest : plainToClass (projectNetworkV1_0_0 common) deployment = .ok manifest.network)
    (hoverrides : NoChainId networkOverrides) :
    HasIds (mergedNetwork manifest networkOverrides) (chainId.map trim) none :=
  (h.made hplainToClass hcommon.projectNetwork hmanifest).merged hoverrides

/-- **When the chain ids agree.** The genesis hash must not be in use, or be trimmed already: the
deployment trims it, and the project does not. -/
theorem chainIdsAgree_iff (plainToClass : PlainToClass)
    (hplainToClass : plainToClass.Documented) (common : TransformedClass)
    (hcommon : TrimsChainId common) (whitelist : Whitelist) (hwhitelist : whitelist.Documented)
    (raw : Obj) (chainId genesisHash : Option String) (hraw : HasIds raw chainId genesisHash)
    (manifest : ProjectManifest)
    (hmanifest : plainToClass (projectNetworkV1_0_0 common) raw = .ok manifest.network)
    (deployment : Obj)
    (hdeployment : deploymentNetwork plainToClass whitelist manifest.network = .ok deployment)
    (loader : Loader) (path root : String) (networkOverrides : Option Obj)
    (hoverrides : NoChainId networkOverrides) (project : SubqueryProject)
    (hload : loadProjectFromManifestBase loader manifest path root networkOverrides = .ok project) :
    ChainIdsAgree plainToClass common deployment project ↔
      trim (chainId.getD "") ≠ "" ∨ trim (genesisHash.getD "") = genesisHash.getD "" := by
  have hnetwork := hraw.made hplainToClass hcommon.projectNetwork hmanifest
  have hproject := (hnetwork.merged hoverrides).processed (network_of_load hload)
  have hdeployed := hnetwork.deployed hplainToClass hwhitelist hdeployment
  rw [Option.map_map, trim_comp_trim] at hdeployed
  rw [← map_trim_chainIdOf_iff]
  constructor
  · intro hagree
    have hsame := hagree.same
    rw [hproject.chainId, hdeployed.chainId] at hsame
    exact (idValue_injective hsame).symm
  · intro htrimmed
    rw [htrimmed] at hdeployed
    have hsome := ((hnetwork.deployment_returns_iff hplainToClass).mp ⟨deployment, hdeployment⟩).2
    rw [Option.map_map, trim_comp_trim] at hsome
    refine ⟨by rw [hproject.chainId, hdeployed.chainId],
      (hdeployed.made_returns_iff hplainToClass hcommon.projectNetwork
        fun k v hk hne => ?_).mpr (.inr hsome),
      fun manifest' overrides' hagain hnone => ?_,
      fun manifest' overrides' loader' path' root' again hagain hnone hload' => ?_⟩
    · have hdeclared := declared_of_deployment hwhitelist hdeployment hk
      rw [declaredOfDeployment, List.mem_cons, List.mem_singleton, or_iff_right hne] at hdeclared
      rw [hdeclared]
      exact hcommon.bypassBlocks
    · exact (hdeployed.reloaded hplainToClass hcommon hagain hnone).processed_returns
    · have hreloaded :=
        (hdeployed.reloaded hplainToClass hcommon hagain hnone).processed (network_of_load hload')
      rw [htrimmed] at hreloaded
      rw [hreloaded.chainId, hproject.chainId, chainIdOf, if_neg (by simp)]

/-- A class that trims the chain id and does nothing else. -/
def commonReference : TransformedClass := ⟨[], [("chainId", trimValue)]⟩

def whitelistReference : Whitelist := fun declared o => o.filter fun p => p.1 ∈ declared

theorem whitelistReference_documented : whitelistReference.Documented := by
  intro declared o k
  rw [whitelistReference, lookup_filter_keys (fun key => decide (key ∈ declared))]
  simp

theorem chainIdsAgree_genesisHash :
    ChainIdsAgree .reference commonReference
      [("chainId", .str "9dd9ca4d"), ("bypassBlocks", .undefined)]
      (projectOf [("chaintypes", .undefined), ("endpoint", .arr [.str "http://localhost:20000"]),
        ("chainId", .str "9dd9ca4d")]) := by
  have hraw : HasIds [("genesisHash", .str "9dd9ca4d"), ("endpoint", .str "http://localhost:20000")]
      none (some "9dd9ca4d") := ⟨rfl, rfl⟩
  refine (chainIdsAgree_iff .reference PlainToClass.reference_documented commonReference
    ⟨rfl, rfl, rfl, rfl, rfl⟩ whitelistReference whitelistReference_documented _ _ _ hraw
    (manifestOf [("chaintypes", .undefined), ("genesisHash", .str "9dd9ca4d"),
      ("endpoint", .str "http://localhost:20000")]) rfl _ rfl
    Loader.reference "./" "./" none ⟨rfl, rfl⟩ _ rfl).mpr (.inr (by decide))

/-- A genesis hash with a blank behind it is the chain id of the project, and another one is that of
the deployment. -/
theorem not_chainIdsAgree_padded :
    ∃ manifest deployment project,
      PlainToClass.reference (projectNetworkV1_0_0 commonReference)
          [("genesisHash", .str "9dd9ca4d "), ("endpoint", .str "http://localhost:20000")] =
        .ok (ProjectManifest.network manifest) ∧
      deploymentNetwork .reference whitelistReference manifest.network = .ok deployment ∧
      loadProjectFromManifestBase Loader.reference manifest "./" "./" none = .ok project ∧
      ¬ ChainIdsAgree .reference commonReference deployment project := by
  refine ⟨manifestOf [("chaintypes", .undefined), ("genesisHash", .str "9dd9ca4d "),
    ("endpoint", .str "http://localhost:20000")],
    [("chainId", .str "9dd9ca4d"), ("bypassBlocks", .undefined)],
    projectOf [("chaintypes", .undefined), ("endpoint", .arr [.str "http://localhost:20000"]),
      ("chainId", .str "9dd9ca4d ")], rfl, rfl, rfl, fun hagree => ?_⟩
  have hsame : Value.str "9dd9ca4d " = .str "9dd9ca4d" := hagree.same
  rw [Value.str.injEq] at hsame
  exact absurd hsame (by decide)

end SubqlConcordium
