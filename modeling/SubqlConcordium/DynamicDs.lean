import SubqlConcordium.Js.Object
import SubqlConcordium.Validation

/-!
# Dynamic data sources

While blocks are indexed, a handler may have a data source made of a template of the manifest, to
start at some block. `DynamicDsService.getDatasource` makes it: node-core finds the template, a
custom data source gets the arguments as options and is checked by its processor, a runtime data
source is validated as those of the manifest are, and anything else is returned as it is.

By then it is too late to complain about a template. What the manifest was validated for is enough:
a runtime template that was accepted can be instantiated at every block, unless its mapping was an
array, and nothing is returned without having been checked in one of the two ways.

## What the base class checks

The properties of every data source, the start block among them, are declared in `@subql/common`.
That an instance may start anywhere is an assumption about it, `Common.StartsAnywhere`: a decorator
of one property sees that property alone. A check across properties, say that an end block is not
below the start block, is no decorator of one property, and with one there the conclusion would only
hold of the start blocks that pass it.

## Main definitions

* `isCustomDs`, `isRuntimeDs` — what kind of data source a value is
* `DynamicDsPackages` — what the service uses of node-core and of class-validator
* `getDatasource` — the service
* `Loaded` — templates of a manifest, and of the project that is loaded from it

## Main results

* `validates_instance` — instances of an accepted template are valid
* `getDatasource_of_parsed` — what the service returns for an accepted manifest
-/

namespace SubqlConcordium

open Js

namespace Validation

def isRuntimeDs (ds : Value) : Bool := strictEq (ds.field "kind") (.str "concordium/Runtime")

def isCustomDs (ds : Value) : Bool := !isRuntimeDs ds && (ds.field "processor").truthy

structure DatasourceParams where
  templateName : String
  startBlock : ℕ
  /-- `undefined`, or the arguments by name. -/
  args : Value

/-- What the service uses of other packages. -/
structure DynamicDsPackages where
  /-- `getTemplate` of node-core. -/
  getTemplate : String → ℕ → Except JsError Obj
  /-- `validateCustomDs` of node-core, on one data source. -/
  validateCustomDs : Obj → Except JsError Unit
  /-- `plainToClass` to a `ConcordiumRuntimeDataSourceImpl`, and the errors that `validateSync`
  finds in it, as texts. -/
  validateRuntimeDs : Obj → Except JsError (List String)

/-- `dsObj.processor.options = {...dsObj.processor.options, ...params.args}`. -/
def withOptions (args : Value) (dsObj : Obj) : Except JsError Obj :=
  match dsObj.prop "processor" with
  | .obj processor =>
    .ok (dsObj.put "processor"
      (.obj (Obj.put processor "options"
        (.obj ((Obj.prop processor "options").spread.assign args.spread)))))
  -- any other object takes the property as well, where it is no part of its contents
  | .arr _ => .ok dsObj
  | .date _ => .ok dsObj
  | .native _ => .ok dsObj
  | .undefined => .error (typeError "Cannot read properties of undefined (reading 'options')")
  | .null => .error (typeError "Cannot read properties of null (reading 'options')")
  -- in strict mode a primitive does not take it
  | v => .error (typeError s!"Cannot create property 'options' on {v.typeof}")

section

variable (packages : DynamicDsPackages)

/-- What `getDatasource` does with an instance of the template, in its `try` block. -/
def checkDatasource (args : Value) (dsObj : Obj) : Except JsError Obj :=
  if isCustomDs (.obj dsObj) then do
    let dsObj ← withOptions args dsObj
    packages.validateCustomDs dsObj
    return dsObj
  else if isRuntimeDs (.obj dsObj) then do
    let errors ← packages.validateRuntimeDs dsObj
    if errors = [] then return dsObj
    else throw (plainError ("Dynamic ds is invalid\n" ++ "\n".intercalate errors))
  else return dsObj

/-- `DynamicDsService.getDatasource`. -/
def getDatasource (params : DatasourceParams) : Except JsError Obj := do
  let dsObj ← packages.getTemplate params.templateName params.startBlock
  match checkDatasource packages params.args dsObj with
  | .ok ds => return ds
  | .error e => throw (plainError ("Unable to create dynamic datasource.\n " ++ e.message))

end

/-- `{ name, ...template }`, and `{ ...template, startBlock }`. -/
def instanceOf (template : Obj) (startBlock : ℕ) : Obj :=
  (template.without "name").put "startBlock" (.num startBlock)

/-- What is assumed of the packages. The first template of the name is found, and made an instance;
and there are no errors in an instance that is valid, and in no other. -/
structure DynamicDsPackages.Documented (packages : DynamicDsPackages) (common : Common)
    (templates : List Value) : Prop where
  getTemplate_ok : ∀ name startBlock dsObj, packages.getTemplate name startBlock = .ok dsObj ↔
    ∃ template, templates.find? (fun t => strictEq (t.field "name") (.str name)) =
      some (.obj template) ∧ dsObj = instanceOf template startBlock
  validateRuntimeDs_ok : ∀ dsObj, packages.validateRuntimeDs dsObj = .ok [] ↔
    (runtimeDataSource common).validates (.obj dsObj) = true

/-- What is assumed of the data sources of `@subql/common`. They say nothing about names and
mappings, and any block may be a start: as each property is checked by itself, no start block is
turned down for what another property says, such as an end block below it. -/
def Common.StartsAnywhere (common : Common) : Prop :=
  ∀ p ∈ common.BaseDataSource, p.name ≠ "name" ∧ p.name ≠ "mapping" ∧
    (p.name = "startBlock" → ∀ n : ℕ, p.ok (.num n) = true)

/-- `{ ...mapping, entryScript, file }`. -/
def loadedMapping (mapping : Obj) (entryScript file : String) : Obj :=
  (mapping.put "entryScript" (.str entryScript)).put "file" (.str file)

/-- `{ ...template, mapping: { ...template.mapping, entryScript, file } }`. -/
def loadedFields (fields : Obj) (entryScript file : String) : Obj :=
  fields.put "mapping" (.obj (loadedMapping (fields.prop "mapping").spread entryScript file))

/-- How a template of the project comes from one of the manifest. Of a runtime template, the mapping
is spread, and its file is replaced by one that was read. -/
structure Loaded (t t' : Value) : Prop where
  name : t'.field "name" = t.field "name"
  kind : t'.field "kind" = t.field "kind"
  processor : (t.field "processor").isObject = true → (t'.field "processor").isObject = true
  runtime : ∀ fields : Obj, t = .obj fields → isRuntimeDs t = true → ∃ entryScript file,
    t' = .obj (loadedFields fields entryScript file)

variable {common : Common} {packages : DynamicDsPackages} {templates : List Value} {t t' : Value}
  {fields mapping dsObj ds : Obj} {startBlock : ℕ} {params : DatasourceParams}

/-! ### Templates of an accepted manifest -/

/-- An accepted manifest meets the decorators of the deployment. -/
theorem validates_of_parsed {validate : Validate} (hvalidate : validate.Documented common)
    {raw manifest : Value} (h : parseConcordiumProjectManifest validate raw = .ok manifest) :
    (deploymentV1_0_0 common).validates manifest = true := by
  obtain ⟨specVersion, -, h⟩ := bind_eq_ok_iff.mp h
  split_ifs at h
  obtain ⟨_, hvalid, h⟩ := bind_eq_ok_iff.mp h
  cases h
  exact hvalidate raw hvalid

theorem discriminated_of_mem {manifest : Value}
    (h : (deploymentV1_0_0 common).validates manifest = true)
    (ht : t ∈ (manifest.field "templates").elems) :
    discriminated "kind" [("concordium/Runtime", template (runtimeDataSource common))]
      (template (customDataSource common)) t = true := by
  have htemplates := DecoratedClass.ok_of_validates h
    (List.mem_append_right _ (List.mem_cons_of_mem _ (List.mem_cons_self ..)))
  obtain ⟨ts, hts, hmem⟩ := Value.eq_arr_of_mem_elems ht
  have habsent : (manifest.field "templates").absent = false := by rw [hts]; rfl
  rw [Property.ok_of_present habsent] at htemplates
  have hvalid := htemplates.2 (by simp)
  rw [hts] at hvalid
  exact List.all_eq_true.mp hvalid t hmem

theorem validates_of_template {dataSource : DecoratedClass}
    (h : (template dataSource).validates t = true) : dataSource.validates t = true := by
  rw [template, DecoratedClass.validates, List.all_append, Bool.and_eq_true] at h
  exact h.1

theorem validates_of_isRuntimeDs
    (h : discriminated "kind" [("concordium/Runtime", template (runtimeDataSource common))]
      (template (customDataSource common)) (.obj fields) = true)
    (hruntime : isRuntimeDs (.obj fields) = true) :
    (runtimeDataSource common).validates (.obj fields) = true := by
  rw [isRuntimeDs, strictEq_str_iff] at hruntime
  rw [discriminated_obj hruntime] at h
  exact validates_of_template h

theorem isObject_processor
    (h : discriminated "kind" [("concordium/Runtime", template (runtimeDataSource common))]
      (template (customDataSource common)) (.obj fields) = true)
    (hruntime : isRuntimeDs (.obj fields) = false) :
    (Obj.prop fields "processor").isObject = true := by
  have hvalid : (template (customDataSource common)).validates (.obj fields) = true := by
    rw [discriminated, Value.member_obj] at h
    cases hkind : fields.prop "kind" with
    | str name =>
      have hname : (name == "concordium/Runtime") = false := by
        refine beq_false_of_ne fun heq => ?_
        rw [isRuntimeDs, Value.field, hkind, heq] at hruntime
        cases hruntime
      simp only [hkind, List.lookup_cons, hname, List.lookup_nil, Option.getD_none] at h
      exact h
    | _ =>
      rw [hkind] at h
      exact h
  have hprocessor : Property.ok ⟨"processor", [.isObject], common.ProcessorImpl.typed⟩
      (Obj.prop fields "processor") = true :=
    DecoratedClass.ok_of_validates (validates_of_template hvalid) (by simp [customDataSource])
  rw [Property.ok_of_required (by simp)] at hprocessor
  exact hprocessor.1 .isObject (by simp)

theorem truthy_of_isObject {v : Value} (h : v.isObject = true) : v.truthy = true := by
  cases v with
  | obj fields => rfl
  | date ms => rfl
  | native name => rfl
  | _ => cases h

/-! ### Instances -/

theorem prop_without_of_ne {o : Obj} {k k' : String} (hk : k' ≠ k) :
    (o.without k).prop k' = o.prop k' := by
  rw [Obj.prop, Obj.prop, Obj.lookup_without_of_ne hk]

@[simp] theorem prop_instanceOf_startBlock :
    (instanceOf fields startBlock).prop "startBlock" = .num startBlock := Obj.prop_put_self ..

theorem prop_instanceOf_of_ne {k : String} (hname : k ≠ "name") (hstart : k ≠ "startBlock") :
    (instanceOf fields startBlock).prop k = fields.prop k := by
  rw [instanceOf, Obj.prop_put_of_ne _ _ hstart, prop_without_of_ne hname]

theorem prop_loadedFields_of_ne {k entryScript file : String} (hk : k ≠ "mapping") :
    (loadedFields fields entryScript file).prop k = fields.prop k := Obj.prop_put_of_ne _ _ hk

theorem prop_handlers_loadedMapping {entryScript file : String} :
    (loadedMapping mapping entryScript file).prop "handlers" = mapping.prop "handlers" := by
  rw [loadedMapping, Obj.prop_put_of_ne _ _ (by decide), Obj.prop_put_of_ne _ _ (by decide)]

theorem validates_loadedMapping (entryScript file : String)
    (h : (concordiumMapping common).validates (.obj mapping) = true) :
    (concordiumMapping common).validates (.obj (loadedMapping mapping entryScript file)) =
      true := by
  have hhandlers := DecoratedClass.ok_of_validates h (List.mem_cons_self ..)
  refine List.all_eq_true.mpr fun p hp => ?_
  simp only [concordiumMapping, List.mem_cons, List.not_mem_nil, or_false] at hp
  rcases hp with rfl | rfl
  · rw [Value.field, prop_handlers_loadedMapping]
    exact hhandlers
  · rw [Value.field, plain, loadedMapping, Obj.prop_put_self]
    rfl

theorem prop_mapping_instance (hmapping : fields.prop "mapping" = .obj mapping)
    (entryScript file : String) (startBlock : ℕ) :
    (instanceOf (loadedFields fields entryScript file) startBlock).prop "mapping" =
      .obj (loadedMapping mapping entryScript file) := by
  rw [prop_instanceOf_of_ne (by decide) (by decide), loadedFields, Obj.prop_put_self, hmapping]
  rfl

/-- **Instances of an accepted template are valid**, if the mapping is an object. -/
theorem validates_instance (hcommon : common.StartsAnywhere)
    (h : (runtimeDataSource common).validates (.obj fields) = true)
    (hmapping : Obj.prop fields "mapping" = .obj mapping) (entryScript file : String)
    (startBlock : ℕ) :
    (runtimeDataSource common).validates
      (.obj (instanceOf (loadedFields fields entryScript file) startBlock)) = true := by
  have hkept : ∀ p ∈ runtimeDataSource common, p.name ≠ "name" → p.name ≠ "startBlock" →
      p.name ≠ "mapping" →
        p.ok ((Value.obj (instanceOf (loadedFields fields entryScript file) startBlock)).field
          p.name) = true := by
    intro p hp hname hstart hne
    rw [Value.field, prop_instanceOf_of_ne hname hstart, prop_loadedFields_of_ne hne]
    exact DecoratedClass.ok_of_validates h hp
  refine List.all_eq_true.mpr fun p hp => ?_
  rcases List.mem_append.mp hp with hbase | hown
  · obtain ⟨hname, hne, hstarts⟩ := hcommon p hbase
    by_cases hstart : p.name = "startBlock"
    · rw [Value.field, hstart, prop_instanceOf_startBlock]
      exact hstarts hstart startBlock
    · exact hkept p hp hname hstart hne
  · simp only [List.mem_cons, List.not_mem_nil, or_false] at hown
    rcases hown with rfl | rfl | rfl
    · exact hkept _ hp (by decide) (by decide) (by decide)
    · have hvalid := DecoratedClass.ok_of_validates h hp
      rw [Value.field, hmapping, Property.ok_of_required (by simp)] at hvalid
      rw [Value.field, prop_mapping_instance hmapping, Property.ok_of_required (by simp)]
      exact ⟨by simp [Decorator.holds], fun _ =>
        validates_loadedMapping entryScript file (hvalid.2 (by simp))⟩
    · exact hkept _ hp (by decide) (by decide) (by decide)

theorem handlers_instance (hmapping : Obj.prop fields "mapping" = .obj mapping)
    (entryScript file : String) (startBlock : ℕ) :
    handlers (.obj (instanceOf (loadedFields fields entryScript file) startBlock)) =
      handlers (.obj fields) := by
  rw [handlers, handlers, Value.field, prop_mapping_instance hmapping, Value.field, Value.field,
    hmapping]
  exact congrArg Value.elems prop_handlers_loadedMapping

/-! ### The service -/

theorem getDatasource_eq_ok_iff :
    getDatasource packages params = .ok ds ↔
      ∃ dsObj, packages.getTemplate params.templateName params.startBlock = .ok dsObj ∧
        checkDatasource packages params.args dsObj = .ok ds := by
  rw [getDatasource, bind_eq_ok_iff]
  refine exists_congr fun dsObj => and_congr_right fun _ => ?_
  cases checkDatasource packages params.args dsObj <;> simp [pure, Except.pure, throw, throwThe,
    MonadExceptOf.throw]

theorem checkDatasource_of_runtime {args : Value} (hruntime : isRuntimeDs (.obj dsObj) = true) :
    checkDatasource packages args dsObj = .ok ds ↔
      packages.validateRuntimeDs dsObj = .ok [] ∧ dsObj = ds := by
  have hcustom : isCustomDs (.obj dsObj) = false := by simp [isCustomDs, hruntime]
  rw [checkDatasource, hcustom, hruntime]
  simp only [Bool.false_eq_true, if_false, if_true, bind_eq_ok_iff]
  constructor
  · rintro ⟨errors, herrors, h⟩
    split_ifs at h with hnil
    cases h
    exact ⟨hnil ▸ herrors, rfl⟩
  · rintro ⟨herrors, rfl⟩
    exact ⟨[], herrors, rfl⟩

theorem validateCustomDs_of_checkDatasource {args : Value}
    (hcustom : isCustomDs (.obj dsObj) = true)
    (h : checkDatasource packages args dsObj = .ok ds) : packages.validateCustomDs ds = .ok () := by
  rw [checkDatasource, if_pos hcustom] at h
  obtain ⟨dsObj', -, h⟩ := bind_eq_ok_iff.mp h
  obtain ⟨_, hvalid, h⟩ := bind_eq_ok_iff.mp h
  cases h
  exact hvalid

theorem find?_loaded {ts ts' : List Value} (hloaded : List.Forall₂ Loaded ts ts') (name : String) :
    Option.Rel Loaded (ts.find? fun t => strictEq (t.field "name") (.str name))
      (ts'.find? fun t => strictEq (t.field "name") (.str name)) := by
  induction hloaded with
  | nil => exact .none
  | @cons t t' ts ts' ht _ ih =>
    rw [List.find?_cons, List.find?_cons, ht.name]
    split
    · exact .some ht
    · exact ih

theorem exists_obj_of_find? {ts : List Value} {name : String}
    (h : ts.find? (fun t => strictEq (t.field "name") (.str name)) = some t) :
    t ∈ ts ∧ ∃ fields, t = .obj fields := by
  have hname := List.find?_some h
  rw [strictEq_str_iff] at hname
  exact ⟨List.mem_of_find?_eq_some h, Value.exists_obj_of_field_str hname⟩

theorem isRuntimeDs_instance {loaded : Obj} (h : Loaded (.obj fields) (.obj loaded))
    (startBlock : ℕ) :
    isRuntimeDs (.obj (instanceOf loaded startBlock)) = isRuntimeDs (.obj fields) := by
  rw [isRuntimeDs, Value.field, prop_instanceOf_of_ne (by decide) (by decide)]
  exact congrArg (strictEq · _) h.kind

section

variable {manifest : Value} (hmanifest : (deploymentV1_0_0 common).validates manifest = true)
  (hloaded : List.Forall₂ Loaded (manifest.field "templates").elems templates)
  (hpackages : packages.Documented common templates)

include hmanifest hloaded hpackages

/-- What is returned has been checked. -/
theorem checked_of_getDatasource (h : getDatasource packages params = .ok ds) :
    (isRuntimeDs (.obj ds) = true ∧ ∀ handler ∈ handlers (.obj ds), Checked handler) ∨
      packages.validateCustomDs ds = .ok () := by
  obtain ⟨dsObj, htemplate, hcheck⟩ := getDatasource_eq_ok_iff.mp h
  obtain ⟨loaded, hsome, rfl⟩ := (hpackages.getTemplate_ok ..).mp htemplate
  have hfind := find?_loaded hloaded params.templateName
  rw [hsome] at hfind
  generalize htemplate : (manifest.field "templates").elems.find?
    (fun t => strictEq (t.field "name") (.str params.templateName)) = found at hfind
  cases hfind with
  | some ht =>
    obtain ⟨hmem, fields, rfl⟩ := exists_obj_of_find? htemplate
    have hkind := isRuntimeDs_instance ht params.startBlock
    cases hruntime : isRuntimeDs (.obj fields) with
    | true =>
      rw [hruntime] at hkind
      obtain ⟨herrors, rfl⟩ := (checkDatasource_of_runtime hkind).mp hcheck
      exact .inl ⟨hkind, fun handler => checked_of_runtimeDataSource common
        ((hpackages.validateRuntimeDs_ok _).mp herrors)⟩
    | false =>
      -- a template of another kind has a processor, so its instance is not returned as it is
      refine .inr (validateCustomDs_of_checkDatasource ?_ hcheck)
      have hprocessor := ht.processor
        (isObject_processor (discriminated_of_mem hmanifest hmem) hruntime)
      rw [isCustomDs, hkind, hruntime, Value.field, prop_instanceOf_of_ne (by decide) (by decide)]
      exact truthy_of_isObject hprocessor

/-- An accepted runtime template can be instantiated. -/
theorem getDatasource_of_template
    (htemplate : (manifest.field "templates").elems.find?
      (fun t => strictEq (t.field "name") (.str params.templateName)) = some (.obj fields))
    (hruntime : isRuntimeDs (.obj fields) = true)
    (hmapping : Obj.prop fields "mapping" = .obj mapping) (hcommon : common.StartsAnywhere) :
    ∃ ds, getDatasource packages params = .ok ds ∧
      ds.prop "startBlock" = .num params.startBlock ∧
        handlers (.obj ds) = handlers (.obj fields) := by
  have hvalid := validates_of_isRuntimeDs
    (discriminated_of_mem hmanifest (List.mem_of_find?_eq_some htemplate)) hruntime
  have hfind := find?_loaded hloaded params.templateName
  rw [htemplate] at hfind
  generalize hsome : templates.find?
    (fun t => strictEq (t.field "name") (.str params.templateName)) = found at hfind
  cases hfind with
  | some ht =>
    obtain ⟨entryScript, file, rfl⟩ := ht.runtime fields rfl hruntime
    have hkind := isRuntimeDs_instance ht params.startBlock
    rw [hruntime] at hkind
    have hinstance := (hpackages.getTemplate_ok params.templateName params.startBlock _).mpr
      ⟨_, hsome, rfl⟩
    have herrors := (hpackages.validateRuntimeDs_ok _).mpr
      (validates_instance hcommon hvalid hmapping entryScript file params.startBlock)
    exact ⟨_, getDatasource_eq_ok_iff.mpr
      ⟨_, hinstance, (checkDatasource_of_runtime hkind).mpr ⟨herrors, rfl⟩⟩,
      prop_instanceOf_startBlock, handlers_instance hmapping entryScript file params.startBlock⟩

end

/-- **What the service returns for an accepted manifest.** Whatever it returns has been checked: the
handlers of a runtime data source are as those of the manifest, and any other data source has been
accepted by its processor. A runtime template with a mapping that is an object can be instantiated
at every block, with whatever arguments, and the data source has its handlers. -/
theorem getDatasource_of_parsed (common : Common) (hcommon : common.StartsAnywhere)
    (validate : Validate) (hvalidate : validate.Documented common) (raw manifest : Value)
    (h : parseConcordiumProjectManifest validate raw = .ok manifest) (templates : List Value)
    (hloaded : List.Forall₂ Loaded (manifest.field "templates").elems templates)
    (packages : DynamicDsPackages) (hpackages : packages.Documented common templates)
    (params : DatasourceParams) :
    (∀ ds, getDatasource packages params = .ok ds →
        (isRuntimeDs (.obj ds) = true ∧ ∀ handler ∈ handlers (.obj ds), Checked handler) ∨
          packages.validateCustomDs ds = .ok ()) ∧
      ∀ fields mapping,
        (manifest.field "templates").elems.find?
          (fun t => strictEq (t.field "name") (.str params.templateName)) = some (.obj fields) →
        isRuntimeDs (.obj fields) = true → Obj.prop fields "mapping" = .obj mapping →
          ∃ ds, getDatasource packages params = .ok ds ∧
            ds.prop "startBlock" = .num params.startBlock ∧
              handlers (.obj ds) = handlers (.obj fields) := by
  have hmanifest := validates_of_parsed hvalidate h
  refine ⟨fun ds => checked_of_getDatasource hmanifest hloaded hpackages, ?_⟩
  intro fields mapping htemplate hruntime hmapping
  exact getDatasource_of_template hmanifest hloaded hpackages htemplate hruntime hmapping hcommon

def templateFields : Obj :=
  [("kind", .str "concordium/Runtime"), ("name", .str "Contract"),
    ("mapping", .obj [("file", .str "./dist/index.js"),
      ("handlers", .arr [handlerWith "concordium/TransactionHandler"
        [("type", .str "accountTransaction")]])])]

def templateManifest : Value :=
  .obj [("specVersion", .str "1.0.0"), ("dataSources", .arr []),
    ("templates", .arr [.obj templateFields])]

/-- The packages for a project with the template. -/
def DynamicDsPackages.reference : DynamicDsPackages where
  getTemplate name startBlock :=
    if name = "Contract" then
      .ok (instanceOf (loadedFields templateFields "" "/app/dist/index.js") startBlock)
    else .error (plainError "Unable to find matching template in project for name")
  validateCustomDs _ := .ok ()
  validateRuntimeDs dsObj :=
    if (runtimeDataSource Common.reference).validates (.obj dsObj) then .ok []
    else .ok ["An instance of ConcordiumRuntimeDataSourceImpl has failed the validation"]

theorem DynamicDsPackages.reference_documented :
    DynamicDsPackages.reference.Documented Common.reference
      [.obj (loadedFields templateFields "" "/app/dist/index.js")] where
  getTemplate_ok name startBlock dsObj := by
    by_cases hname : name = "Contract"
    · subst hname
      simp only [reference, if_true, Except.ok.injEq]
      constructor
      · rintro rfl
        exact ⟨_, rfl, rfl⟩
      · rintro ⟨fields, hfields, rfl⟩
        cases hfields
        rfl
    · have hne : strictEq ((Value.obj (loadedFields templateFields "" "/app/dist/index.js")).field
          "name") (.str name) = false := by
        rw [Bool.eq_false_iff, ne_eq, strictEq_str_iff]
        rintro ⟨⟩
        exact hname rfl
      simp [reference, hname, hne]
  validateRuntimeDs_ok dsObj := by
    simp only [reference]
    split_ifs with hvalid <;> simp [hvalid]

theorem getDatasource_contract :
    ∃ ds, getDatasource DynamicDsPackages.reference ⟨"Contract", 7, .undefined⟩ = .ok ds ∧
      ds.prop "startBlock" = .num 7 ∧ handlers (.obj ds) = handlers (.obj templateFields) := by
  refine (getDatasource_of_parsed Common.reference ?_ Validate.reference
    Validate.reference_documented templateManifest templateManifest rfl
    [.obj (loadedFields templateFields "" "/app/dist/index.js")] (.cons ?_ .nil)
    DynamicDsPackages.reference DynamicDsPackages.reference_documented
    ⟨"Contract", 7, .undefined⟩).2 templateFields _ rfl rfl rfl
  · intro p hp
    simp only [Common.reference, List.mem_cons, List.not_mem_nil, or_false] at hp
    rcases hp with rfl | rfl
    · exact ⟨by decide, by decide, fun hname => absurd hname (by decide)⟩
    · exact ⟨by decide, by decide, fun _ n => rfl⟩
  · refine ⟨rfl, rfl, id, ?_⟩
    rintro fields ⟨⟩ -
    exact ⟨"", "/app/dist/index.js", rfl⟩

end Validation

end SubqlConcordium
