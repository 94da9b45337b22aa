import SubqlConcordium.Js.ClassValidator
import SubqlConcordium.Manifest

/-!
# Manifest validation

The classes of the manifest, as far as data sources and templates go, and what a manifest that is
accepted is known to satisfy. Their decorators are checked by class-validator, on the deployment
that is made from the manifest. A deployment has the contents of the manifest, so it is the raw
manifest here.

The filter of a transaction, event or special event handler is a nested instance and checked as
one, but its `values` only for being an object, and an array of filters in its place is checked
element by element. The filter of a block handler has a class as well, which nothing asks to be
checked.

## Main definitions

* `Common` — what `@subql/common` declares
* `parseConcordiumProjectManifest` — the parser
* `Validate.Documented` — what validation is assumed to find
* `Established` — what the runtime relies on
* `Unchecked` — the part of it that no decorator checks

## Main results

* `checked_of_parsed` — what validation establishes of a handler
* `established_iff` — when a manifest that is accepted has what the runtime relies on
-/

namespace SubqlConcordium

open Js

namespace Validation

/-- `ConcordiumHandlerKind.Block`. -/
def blockKind : String := "concordium/BlockHandler"

end Validation

/-- The `ConcordiumHandlerKind` of the kind. -/
def ItemKind.handlerKind : ItemKind → String
  | transaction => "concordium/TransactionHandler"
  | transactionEvent => "concordium/TransactionEventHandler"
  | specialEvent => "concordium/SpecialEventHandler"

namespace Validation

/-- The values of `ConcordiumHandlerKind`. -/
def handlerKinds : List String :=
  [blockKind, ItemKind.transaction.handlerKind, ItemKind.transactionEvent.handlerKind,
    ItemKind.specialEvent.handlerKind]

/-- The classes of `@subql/common` that the program extends or nests. -/
structure Common where
  BaseDataSource : DecoratedClass
  BlockFilterImpl : DecoratedClass
  ProcessorImpl : DecoratedClass
  /-- The properties of the deployment that hold no data sources. -/
  deployment : DecoratedClass

/-! ### The classes -/

/-- The properties that the three filters share. -/
def valuesFilter : DecoratedClass :=
  [plain "type" [.isOptional, .isString], plain "values" [.isOptional, .isObject]]

/-- `TransactionFilter`. -/
def transactionFilter : DecoratedClass := valuesFilter

/-- `TransactionEventFilter`. -/
def transactionEventFilter : DecoratedClass := valuesFilter

/-- `SpecialEventFilter`. -/
def specialEventFilter : DecoratedClass := valuesFilter

/-- The properties that the handlers of items share. -/
def itemHandler (kind : String) (filter : DecoratedClass) : DecoratedClass :=
  [⟨"filter", [.isOptional, .validateNested], filter.typed⟩,
    plain "kind" [.isEnum handlerKinds [kind]], plain "handler" [.isString]]

/-- `TransactionHandler`. -/
def transactionHandler : DecoratedClass :=
  itemHandler ItemKind.transaction.handlerKind transactionFilter

/-- `TransactionEventHandler`. -/
def transactionEventHandler : DecoratedClass :=
  itemHandler ItemKind.transactionEvent.handlerKind transactionEventFilter

/-- `SpecialEventHandler`. -/
def specialEventHandler : DecoratedClass :=
  itemHandler ItemKind.specialEvent.handlerKind specialEventFilter

/-- `CustomHandler`. -/
def customHandler : DecoratedClass :=
  [plain "kind" [.isString], plain "handler" [.isString], plain "filter" [.isObject, .isOptional]]

section

variable (common : Common)

/-- `BlockHandler`. The filter is made an instance, but `@ValidateNested` is missing. -/
def blockHandler : DecoratedClass :=
  [⟨"filter", [.isObject, .isOptional], common.BlockFilterImpl.typed⟩,
    plain "kind" [.isEnum handlerKinds [blockKind]], plain "handler" [.isString]]

/-- The switch in the `@Transform` of `ConcordiumMapping`. It throws on any other kind. -/
def handlerClass? : Value → Option DecoratedClass
  | .str kind =>
    if kind = ItemKind.specialEvent.handlerKind then some specialEventHandler
    else if kind = ItemKind.transactionEvent.handlerKind then some transactionEventHandler
    else if kind = ItemKind.transaction.handlerKind then some transactionHandler
    else if kind = blockKind then some (blockHandler common)
    else none
  | _ => none

/-- A handler, made an instance by its kind. -/
def validHandler (handler : Value) : Bool :=
  match handler.member "kind" with
  | .error _ => false
  | .ok kind =>
    match handlerClass? common kind with
    | some cls => cls.typed handler
    | none => false

/-- `ConcordiumMapping`. -/
def concordiumMapping : DecoratedClass :=
  [⟨"handlers", [.isArray, .validateNested], elementwise (validHandler common)⟩,
    plain "file" [.isString]]

/-- `CustomMapping`. -/
def customMapping : DecoratedClass :=
  [⟨"handlers", [.isArray, .validateNested], customHandler.typed⟩, plain "file" [.isString]]

/-- `RuntimeDataSourceBase`, which `ConcordiumRuntimeDataSourceImpl` extends by nothing. -/
def runtimeDataSource : DecoratedClass :=
  common.BaseDataSource ++
    [plain "kind" [.isEnum ["concordium/Runtime"] ["concordium/Runtime"]],
      ⟨"mapping", [.validateNested], (concordiumMapping common).typed⟩,
      plain "assets" [.isOptional]]

/-- `FileReferenceImpl`. -/
def fileReference : DecoratedClass := [plain "file" [.isString]]

/-- `CustomDataSourceBase`, which `ConcordiumCustomDataSourceImpl` extends by nothing. The assets
are a map. -/
def customDataSource : DecoratedClass :=
  common.BaseDataSource ++
    [plain "kind" [.isString], ⟨"mapping", [.validateNested], customMapping.typed⟩,
      plain "startBlock" [.isOptional, .isInt],
      ⟨"assets", [.validateNested], valuewise fileReference.typed⟩,
      ⟨"processor", [.isObject], common.ProcessorImpl.typed⟩]

/-- `RuntimeDatasourceTemplateImpl` and `CustomDatasourceTemplateImpl`. -/
def template (dataSource : DecoratedClass) : DecoratedClass :=
  dataSource ++ [plain "name" [.isString]]

/-- `DeploymentV1_0_0`. -/
def deploymentV1_0_0 : DecoratedClass :=
  common.deployment ++
    [⟨"dataSources", [.isArray, .validateNested],
        elementwise (discriminated "kind" [("concordium/Runtime", runtimeDataSource common)]
          (customDataSource common))⟩,
      ⟨"templates", [.isOptional, .isArray, .validateNested],
        elementwise (discriminated "kind"
          [("concordium/Runtime", template (runtimeDataSource common))]
          (template (customDataSource common)))⟩]

end

/-! ### Parsing -/

/-- `validate` of `ProjectManifestBaseImpl`. -/
abbrev Validate := Value → Except JsError Unit

/-- What `validate` is assumed to find: a manifest is only accepted if its deployment meets all
decorators. -/
def Validate.Documented (validate : Validate) (common : Common) : Prop :=
  ∀ manifest, validate manifest = .ok () → (deploymentV1_0_0 common).validates manifest = true

def parseConcordiumProjectManifest (validate : Validate) (raw : Value) :
    Except JsError Value := do
  let specVersion ← raw.member "specVersion"
  if strictEq specVersion (.str "1.0.0") then do
    validate raw
    return raw
  else throw (plainError "specVersion not supported for project manifest file")

/-! ### What the runtime relies on -/

/-- The data sources and templates of a manifest that `isRuntimeDs` recognises. -/
def runtimeDataSources (manifest : Value) : List Value :=
  ((manifest.field "dataSources").elems ++ (manifest.field "templates").elems).filter fun ds =>
    strictEq (ds.field "kind") (.str "concordium/Runtime")

/-- `ds.mapping.handlers`. -/
def handlers (ds : Value) : List Value := ((ds.field "mapping").field "handlers").elems

/-- The constraints of `BlockFilterImpl`: an optional integer `modulo`. -/
def BlockFilterMet (filter : Value) : Prop :=
  filter.isObject = true ∧
    ((filter.field "modulo").absent = true ∨ ∃ n : ℤ, filter.field "modulo" = .num n)

/-- The declared type of the other filters: an optional string `type`, and optional `values` that
are strings. -/
def ItemFilterMet (filter : Value) : Prop :=
  filter.isObject = true ∧
    ((filter.field "type").absent = true ∨ ∃ s, filter.field "type" = .str s) ∧
      ((filter.field "values").absent = true ∨ (filter.field "values").isObject = true ∧
        ∀ p ∈ (filter.field "values").spread, ∃ s, p.2 = .str s)

/-- A handler of a supported kind, whose filter is absent or as its class and type say. -/
def HandlerMet (handler : Value) : Prop :=
  (handler.field "kind" = .str blockKind ∧
      ((handler.field "filter").absent = true ∨ BlockFilterMet (handler.field "filter"))) ∨
    ∃ kind : ItemKind, handler.field "kind" = .str kind.handlerKind ∧
      ((handler.field "filter").absent = true ∨ ItemFilterMet (handler.field "filter"))

/-- **What the runtime relies on**, of every handler of every runtime data source and template. -/
def Established (manifest : Value) : Prop :=
  ∀ ds ∈ runtimeDataSources manifest, ∀ handler ∈ handlers ds, HandlerMet handler

/-- What no decorator checks of a handler with a filter: that the modulo of a block filter is an
integer, and that any other filter is no array and its values are strings. -/
def Unchecked (handler : Value) : Prop :=
  (handler.field "kind" = .str blockKind →
      ((handler.field "filter").field "modulo").absent = true ∨
        ∃ n : ℤ, (handler.field "filter").field "modulo" = .num n) ∧
    ∀ kind : ItemKind, handler.field "kind" = .str kind.handlerKind →
      (∀ filters, handler.field "filter" ≠ .arr filters) ∧
        ∀ p ∈ ((handler.field "filter").field "values").spread, ∃ s, p.2 = .str s

/-! ### What validation establishes -/

variable {common : Common} {handler ds : Value}

/-- What validation establishes of a filter of items. An array in its place is one of filters. -/
def ItemFilterChecked (filter : Value) : Prop :=
  (∃ filters, filter = .arr filters) ∨ filter.isObject = true ∧
    ((filter.field "type").absent = true ∨ ∃ s, filter.field "type" = .str s) ∧
      ((filter.field "values").absent = true ∨ (filter.field "values").isObject = true)

/-- What validation establishes of a handler: a supported kind, and a filter of its class as far
as decorators are checked. -/
def Checked (handler : Value) : Prop :=
  (handler.field "kind" = .str blockKind ∧
      ((handler.field "filter").absent = true ∨ (handler.field "filter").isObject = true)) ∨
    ∃ kind : ItemKind, handler.field "kind" = .str kind.handlerKind ∧
      ((handler.field "filter").absent = true ∨ ItemFilterChecked (handler.field "filter"))

theorem filter_of_blockHandler (h : (blockHandler common).validates handler = true) :
    (handler.field "filter").absent = true ∨ (handler.field "filter").isObject = true := by
  have hfilter : Property.ok ⟨"filter", [.isObject, .isOptional], common.BlockFilterImpl.typed⟩
      (handler.field "filter") = true :=
    DecoratedClass.ok_of_validates h (List.mem_cons_self ..)
  cases habsent : (handler.field "filter").absent with
  | true => exact .inl rfl
  | false =>
    rw [Property.ok_of_present habsent] at hfilter
    exact .inr (hfilter.1 .isObject (by simp))

theorem itemFilter_of_validates {filter : Value} (h : valuesFilter.validates filter = true) :
    ((filter.field "type").absent = true ∨ ∃ s, filter.field "type" = .str s) ∧
      ((filter.field "values").absent = true ∨ (filter.field "values").isObject = true) := by
  have htype : (plain "type" [.isOptional, .isString]).ok (filter.field "type") = true :=
    DecoratedClass.ok_of_validates h (List.mem_cons_self ..)
  have hvalues : (plain "values" [.isOptional, .isObject]).ok (filter.field "values") = true :=
    DecoratedClass.ok_of_validates h (List.mem_cons_of_mem _ (List.mem_cons_self ..))
  rw [Property.ok_plain_optional, Decorator.isString_holds_iff] at htype
  rw [Property.ok_plain_optional] at hvalues
  exact ⟨htype, hvalues⟩

theorem filter_of_itemHandler {kind : String}
    (h : (itemHandler kind valuesFilter).validates handler = true) :
    (handler.field "filter").absent = true ∨ ItemFilterChecked (handler.field "filter") := by
  have hfilter : Property.ok ⟨"filter", [.isOptional, .validateNested], valuesFilter.typed⟩
      (handler.field "filter") = true :=
    DecoratedClass.ok_of_validates h (List.mem_cons_self ..)
  cases habsent : (handler.field "filter").absent with
  | true => exact .inl rfl
  | false =>
    rw [Property.ok_of_present habsent] at hfilter
    have htyped := DecoratedClass.validates_of_typed (hfilter.2 (by simp)) habsent
    exact .inr (htyped.imp_right fun ⟨hobject, hvalid⟩ =>
      ⟨hobject, itemFilter_of_validates hvalid⟩)

theorem handlerClass?_eq_some {kind : Value} {cls : DecoratedClass}
    (h : handlerClass? common kind = some cls) :
    (kind = .str blockKind ∧ cls = blockHandler common) ∨
      ∃ k : ItemKind, kind = .str k.handlerKind ∧ cls = itemHandler k.handlerKind valuesFilter := by
  cases kind with
  | str s =>
    rw [handlerClass?] at h
    split_ifs at h with hspecial hevent htransaction hblock <;> cases h
    · exact .inr ⟨.specialEvent, by rw [hspecial], rfl⟩
    · exact .inr ⟨.transactionEvent, by rw [hevent], rfl⟩
    · exact .inr ⟨.transaction, by rw [htransaction], rfl⟩
    · exact .inl ⟨by rw [hblock], rfl⟩
  | _ => cases h

/-- **What validation establishes of a handler.** -/
theorem checked_of_validHandler (h : validHandler common handler = true) : Checked handler := by
  rw [validHandler] at h
  cases hkind : handler.member "kind" with
  | error e => simp [hkind] at h
  | ok kind =>
    obtain ⟨-, rfl⟩ := Value.member_eq_ok_iff.mp hkind
    cases hcls : handlerClass? common (handler.field "kind") with
    | none => simp [hkind, hcls] at h
    | some cls =>
      simp only [hkind, hcls] at h
      rcases handlerClass?_eq_some hcls with ⟨hblock, rfl⟩ | ⟨k, hitem, rfl⟩
      · obtain ⟨fields, rfl⟩ := Value.exists_obj_of_field_str hblock
        exact .inl ⟨hblock, filter_of_blockHandler h⟩
      · obtain ⟨fields, rfl⟩ := Value.exists_obj_of_field_str hitem
        exact .inr ⟨k, hitem, filter_of_itemHandler h⟩

theorem checked_of_concordiumMapping (common : Common) {mapping : Value}
    (h : (concordiumMapping common).validates mapping = true)
    (hhandler : handler ∈ (mapping.field "handlers").elems) : Checked handler := by
  have hhandlers : Property.ok
      ⟨"handlers", [.isArray, .validateNested], elementwise (validHandler common)⟩
      (mapping.field "handlers") = true :=
    DecoratedClass.ok_of_validates h (List.mem_cons_self ..)
  rw [Property.ok_of_required (by simp)] at hhandlers
  have hvalid : elementwise (validHandler common) (mapping.field "handlers") = true :=
    hhandlers.2 (by simp)
  obtain ⟨xs, hxs, hmem⟩ := Value.eq_arr_of_mem_elems hhandler
  rw [hxs] at hvalid
  exact checked_of_validHandler (List.all_eq_true.mp hvalid handler hmem)

theorem checked_of_runtimeDataSource (common : Common)
    (h : (runtimeDataSource common).validates ds = true)
    (hhandler : handler ∈ handlers ds) : Checked handler := by
  have hmapping : Property.ok ⟨"mapping", [.validateNested], (concordiumMapping common).typed⟩
      (ds.field "mapping") = true :=
    DecoratedClass.ok_of_validates h (by simp [runtimeDataSource])
  rw [Property.ok_of_required (by simp)] at hmapping
  have htyped : (concordiumMapping common).typed (ds.field "mapping") = true :=
    hmapping.2 (by simp)
  -- a mapping with handlers is an object, and so an instance
  obtain ⟨fields, hfields⟩ := Value.exists_obj_of_mem_elems hhandler
  rw [hfields] at htyped
  refine checked_of_concordiumMapping common htyped ?_
  rw [← hfields]
  exact hhandler

theorem validates_of_elementwise {runtime custom : DecoratedClass} {v : Value}
    (h : elementwise (discriminated "kind" [("concordium/Runtime", runtime)] custom) v = true)
    (hds : ds ∈ v.elems) (hkind : ds.field "kind" = .str "concordium/Runtime") :
    runtime.validates ds = true := by
  obtain ⟨xs, rfl, hmem⟩ := Value.eq_arr_of_mem_elems hds
  obtain ⟨fields, rfl⟩ := Value.exists_obj_of_field_str hkind
  have hvalid := List.all_eq_true.mp h _ hmem
  rw [discriminated_obj hkind] at hvalid
  exact hvalid

/-- **What validation establishes** of an accepted manifest. -/
theorem checked_of_parsed {validate : Validate} (hvalidate : validate.Documented common)
    {raw manifest : Value} (h : parseConcordiumProjectManifest validate raw = .ok manifest)
    (hds : ds ∈ runtimeDataSources manifest) (hhandler : handler ∈ handlers ds) :
    Checked handler := by
  obtain ⟨specVersion, -, h⟩ := bind_eq_ok_iff.mp h
  split_ifs at h
  · obtain ⟨_, hvalid, h⟩ := bind_eq_ok_iff.mp h
    cases h
    have hdeployment := hvalidate raw hvalid
    obtain ⟨hmem, hkind⟩ := List.mem_filter.mp hds
    rw [strictEq_str_iff] at hkind
    refine checked_of_runtimeDataSource common ?_ hhandler
    rcases List.mem_append.mp hmem with hmem | hmem
    · have hsources := DecoratedClass.ok_of_validates hdeployment
        (List.mem_append_right _ (List.mem_cons_self ..))
      rw [Property.ok_of_required (by simp)] at hsources
      exact validates_of_elementwise (hsources.2 (by simp)) hmem hkind
    · have htemplates := DecoratedClass.ok_of_validates hdeployment
        (List.mem_append_right _ (List.mem_cons_of_mem _ (List.mem_cons_self ..)))
      obtain ⟨xs, hxs, -⟩ := Value.eq_arr_of_mem_elems hmem
      have habsent : (raw.field "templates").absent = false := by rw [hxs]; rfl
      rw [Property.ok_of_present habsent] at htemplates
      have htemplate := validates_of_elementwise (htemplates.2 (by simp)) hmem hkind
      rw [template, DecoratedClass.validates, List.all_append, Bool.and_eq_true] at htemplate
      exact htemplate.1

/-! ### What it leaves open -/

theorem handlerKind_ne_blockKind (kind : ItemKind) : kind.handlerKind ≠ blockKind := by
  cases kind <;> decide

theorem unchecked_of_absent (h : (handler.field "filter").absent = true) : Unchecked handler := by
  have hfield := Value.field_of_absent h
  refine ⟨fun _ => .inl (by rw [hfield]; rfl), fun kind _ => ⟨fun filters heq => ?_, ?_⟩⟩
  · rw [heq] at h
    cases h
  · rw [hfield]
    rintro p ⟨⟩

theorem handlerMet_iff (h : Checked handler) : HandlerMet handler ↔ Unchecked handler := by
  constructor
  · rintro (⟨hkind, habsent | ⟨-, hmodulo⟩⟩ | ⟨kind, hkind, habsent | ⟨hobject, -, hvalues⟩⟩)
    · exact unchecked_of_absent habsent
    · refine ⟨fun _ => hmodulo, fun kind hkind' => ?_⟩
      rw [hkind, Value.str.injEq] at hkind'
      exact absurd hkind'.symm (handlerKind_ne_blockKind kind)
    · exact unchecked_of_absent habsent
    · refine ⟨fun hblock => ?_, fun _ _ => ⟨fun filters heq => ?_, ?_⟩⟩
      · rw [hkind, Value.str.injEq] at hblock
        exact absurd hblock (handlerKind_ne_blockKind kind)
      · rw [heq] at hobject
        cases hobject
      · rcases hvalues with habsent | ⟨-, hstrings⟩
        · cases hv : (handler.field "filter").field "values" with
          | undefined => intro p hp; cases hp
          | null => intro p hp; cases hp
          | _ => rw [hv] at habsent; cases habsent
        · exact hstrings
  · rintro ⟨hblock, hitem⟩
    rcases h with ⟨hkind, habsent | hobject⟩ | ⟨kind, hkind, habsent | ⟨filters, harr⟩ |
      ⟨hobject, htype, hvalues⟩⟩
    · exact .inl ⟨hkind, .inl habsent⟩
    · exact .inl ⟨hkind, .inr ⟨hobject, hblock hkind⟩⟩
    · exact .inr ⟨kind, hkind, .inl habsent⟩
    · exact absurd harr ((hitem kind hkind).1 filters)
    · refine .inr ⟨kind, hkind, .inr ⟨hobject, htype, hvalues.imp_right fun hvalues => ?_⟩⟩
      exact ⟨hvalues, (hitem kind hkind).2⟩

/-- **When an accepted manifest has what the runtime relies on.** Validation leaves three things
unchecked: the modulo of a block filter, an array in place of another filter, and the values of
such a filter. -/
theorem established_iff (common : Common) (validate : Validate)
    (hvalidate : validate.Documented common) (raw manifest : Value)
    (h : parseConcordiumProjectManifest validate raw = .ok manifest) :
    Established manifest ↔
      ∀ ds ∈ runtimeDataSources manifest, ∀ handler ∈ handlers ds, Unchecked handler :=
  forall₂_congr fun _ hds => forall₂_congr fun _ hhandler =>
    handlerMet_iff (checked_of_parsed hvalidate h hds hhandler)

/-- The classes of `@subql/common`, without what the program does not rely on. -/
def Common.reference : Common where
  BaseDataSource := [plain "kind" [.isString], plain "startBlock" [.isOptional, .isInt]]
  BlockFilterImpl :=
    [plain "modulo" [.isOptional, .isInt], plain "timestamp" [.isOptional, .isString]]
  ProcessorImpl := [plain "file" [.isString]]
  deployment := [plain "specVersion" [.isString]]

/-- A validation that finds what is assumed, and nothing else. -/
def Validate.reference : Validate := fun manifest =>
  if (deploymentV1_0_0 Common.reference).validates manifest then .ok ()
  else .error (plainError "failed to parse project.yaml")

theorem Validate.reference_documented : Validate.reference.Documented Common.reference := by
  intro manifest h
  rw [reference] at h
  split_ifs at h with hvalid
  exact hvalid

def handlerWith (kind : String) (filter : Obj) : Value :=
  .obj [("handler", .str "handle"), ("kind", .str kind), ("filter", .obj filter)]

def dataSourceWith (handlers : List Value) : Value :=
  .obj [("kind", .str "concordium/Runtime"),
    ("mapping", .obj [("file", .str "./dist/index.js"), ("handlers", .arr handlers)])]

def manifestWith (handlers : List Value) : Value :=
  .obj [("specVersion", .str "1.0.0"), ("name", .str "starter"), ("version", .str "0.0.1"),
    ("runner", .obj [
      ("node", .obj [("name", .str "@subql/node-concordium"), ("version", .str "*")]),
      ("query", .obj [("name", .str "@subql/query"), ("version", .str "*")])]),
    ("schema", .obj [("file", .str "./schema.graphql")]),
    ("network", .obj [("chainId", .str "1"), ("endpoint", .str "http://localhost:20000")]),
    ("dataSources", .arr [dataSourceWith handlers])]

/-- A block handler with a modulo, and an event handler with values. -/
def twoHandlers : List Value :=
  [handlerWith blockKind [("modulo", .num 10)],
    handlerWith ItemKind.transactionEvent.handlerKind
      [("type", .str "Updated"),
        ("values", .obj [("amount", .str "100"), ("address", .str "6536")])]]

theorem established_twoHandlers :
    Established (manifestWith twoHandlers) := by
  refine (established_iff Common.reference Validate.reference Validate.reference_documented
    (manifestWith twoHandlers) _ rfl).mpr ?_
  intro ds hds handler hhandler
  obtain rfl : ds = dataSourceWith _ := List.mem_singleton.mp hds
  rcases List.mem_pair.mp hhandler with rfl | rfl
  · refine ⟨fun _ => .inr ⟨10, rfl⟩, fun kind hkind => ?_⟩
    exact absurd (Value.str.inj hkind).symm (handlerKind_ne_blockKind kind)
  · refine ⟨fun hblock => absurd (Value.str.inj hblock) (by decide), fun _ _ => ⟨?_, ?_⟩⟩
    · rintro filters ⟨⟩
    · intro p hp
      rcases List.mem_pair.mp hp with rfl | rfl
      · exact ⟨"100", rfl⟩
      · exact ⟨"6536", rfl⟩

/-- A modulo that is no number is accepted. -/
theorem not_established_modulo :
    ∃ manifest, parseConcordiumProjectManifest Validate.reference
        (manifestWith [handlerWith blockKind [("modulo", .str "ten")]]) = .ok manifest ∧
      ¬ Established manifest := by
  refine ⟨manifestWith [handlerWith blockKind [("modulo", .str "ten")]], rfl, fun h => ?_⟩
  have hhandler := h (dataSourceWith [handlerWith blockKind [("modulo", .str "ten")]])
    List.mem_cons_self (handlerWith blockKind [("modulo", .str "ten")]) List.mem_cons_self
  rcases hhandler with ⟨-, habsent | ⟨-, habsent | ⟨n, hn⟩⟩⟩ | ⟨kind, hkind, -⟩
  · cases habsent
  · cases habsent
  · cases hn
  · exact handlerKind_ne_blockKind kind (Value.str.inj hkind).symm

end Validation

end SubqlConcordium
