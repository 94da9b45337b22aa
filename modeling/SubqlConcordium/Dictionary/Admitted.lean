import SubqlConcordium.Dictionary.Handlers

/-!
# The builder on what validation admits

The filter classes make both fields of a filter optional, and an optional field may as well be
`null`; the values of a filter may be any object, and so may the filter of a block handler. This is
`buildDictionaryQueryEntries` on such data, over any scalars. On filters of the declared types it is
the function of `Handlers`.

Only one thing in it throws: `Object.keys(null)`, for a filter whose type is what makes it count.

## From text to values

`Dictionary.Handlers` builds entries from filters whose values are strings, which is what the types
of the manifest say. A manifest is read from a file, though, and what its validation checks is less.
So the builder is given here over any scalars, with the same body, and `build_ofTyped` says that the
two agree wherever the types are right.

## Main definitions

* `Admitted.Filter`, `Admitted.Handler` — what validation admits
* `Admitted.buildDictionaryQueryEntries` — the builder
* `Handler.GivesUp`, `Handler.Throws` — the handlers it stops at

## Main results

* `Admitted.build_ofTyped` — on the declared types it is the typed builder
* `Admitted.build_returns_iff` — when the builder returns
* `Admitted.accepts_null_values` — the runtime filters do not tell `null` from absent
-/

namespace SubqlConcordium

open Js

namespace Admitted

variable {S : Type}

/-- A filter of a transaction, event or special event handler, as validation admits it. -/
structure Filter (S : Type) where
  type : Optional String
  /-- The own properties, if it is an object. -/
  values : Optional (List (String × Json S))

/-- A handler. The filters of block and custom handlers may be any objects. -/
inductive Handler (S : Type) where
  | block (filter : Optional Obj)
  | item (kind : ItemKind) (filter : Optional (Filter S))
  | custom (kind : String) (filter : Optional Obj)

/-- node-core's `DictionaryQueryCondition`, over any scalars. -/
structure Condition (S : Type) where
  field : String
  value : Option (Json S)
  matcher : String

/-- node-core's `DictionaryQueryEntry`, over any scalars. -/
structure Entry (S : Type) where
  entity : String
  conditions : List (Condition S)

/-- `filter.type || filter.values`. An object counts, even an empty one. -/
def Filter.truthy (filter : Filter S) : Bool := filter.type.truthyStr || filter.values.get?.isSome

/-- The scalars that the data of filters is made of, and the functions applied to it:
`setWith` of lodash, and `JSON.stringify`. -/
structure Data (S : Type) where
  string : String → S
  null : S
  setWith : Json S → String → Json S → Json S
  stringify : Json S → String

/-- An optional string as the value of a condition. -/
def conditionValue (data : Data S) : Optional String → Option (Json S)
  | .undefined => none
  | .null => some (.scalar data.null)
  | .value s => some (.scalar (data.string s))

/-- The loop over `Object.keys(filter.values)`. -/
def nestValues (data : Data S) (values : List (String × Json S)) : Json S :=
  values.foldl (fun nested p => data.setWith nested p.1 p.2) (.obj [])

/-- The body that the three translations share. -/
def filterToQueryEntry (data : Data S) (entity : String) (filter : Filter S) :
    Except JsError (Entry S) :=
  let typeCondition : Condition S := ⟨"type", conditionValue data filter.type, "equalTo"⟩
  match filter.values with
  | .undefined => .ok ⟨entity, [typeCondition]⟩
  | .null => .error (typeError "Cannot convert undefined or null to object")
  | .value values =>
    .ok ⟨entity, [typeCondition, ⟨"data", some (nestValues data values), "contains"⟩]⟩

/-- One round of the loop: the entries pushed, or `none` for `return []`. -/
def handlerQueryEntries (data : Data S) : Handler S → Except JsError (Option (List (Entry S)))
  | .block (.value filter) =>
    match filter.prop "modulo" with
    | .undefined => .ok none
    | _ => .ok (some [])
  | .item kind (.value filter) =>
    if filter.truthy then do
      let entry ← filterToQueryEntry data kind.entity filter
      return some [entry]
    else .ok none
  | .custom _ (.value _) => .ok (some [])
  -- no filter, can't use the dictionary
  | _ => .ok none

/-- The loop over the handlers, with the entries so far. -/
def collectQueryEntries (data : Data S) : List (Handler S) → List (Entry S) →
    Except JsError (Option (List (Entry S)))
  | [], queryEntries => .ok (some queryEntries)
  | handler :: handlers, queryEntries => do
    match ← handlerQueryEntries data handler with
    | none => return none
    | some entries => collectQueryEntries data handlers (queryEntries ++ entries)

/-- The text by which entries are told apart: a condition without a value has no such field. -/
def Condition.toJson (data : Data S) (c : Condition S) : Json S :=
  .obj (("field", .scalar (data.string c.field)) ::
    (c.value.toList.map fun v => ("value", v)) ++ [("matcher", .scalar (data.string c.matcher))])

section

variable (lodash : Lodash) (data : Data S)

/-- The key that `uniqBy` compares. -/
def queryKey (item : Entry S) : String :=
  item.entity ++ "|" ++ data.stringify
    (.arr ((lodash.sortBy (·.field) item.conditions).map (Condition.toJson data)))

/-- `buildDictionaryQueryEntries`, given the handlers of each data source. -/
def buildDictionaryQueryEntries (dataSources : List (List (Handler S))) :
    Except JsError (List (Entry S)) := do
  match ← collectQueryEntries data dataSources.flatten [] with
  | none => return []
  | some queryEntries => return lodash.uniqBy (queryKey lodash data) queryEntries

end

/-! ### On the declared types -/

section Typed

variable {lodash : Lodash}

/-- The data of typed filters: strings and `null`, as the typed builder treats them. -/
def Data.text (lodash : Lodash) : Data Text where
  string := .str
  null := .null
  setWith := lodash.setWith
  stringify := Js.stringify

def moduloValue : Optional ℚ → Value
  | .undefined => .undefined
  | .null => .null
  | .value x => .num x

def typedValues : Optional StringMap → Optional (List (String × Json Text))
  | .undefined => .undefined
  | .null => .null
  | .value values => .value (values.entries.map fun p => (p.1, .scalar (.str p.2)))

def optionalFilter {α β : Type} (f : α → β) : Option α → Optional β
  | none => .undefined
  | some a => .value (f a)

def Handler.ofTyped : SubqlHandler → Handler Text
  | .block filter => .block (optionalFilter (fun f => [("modulo", moduloValue f.modulo),
      ("cronSchedule", f.cronSchedule)]) filter)
  | .item kind filter =>
    .item kind (optionalFilter (fun f => ⟨f.type, typedValues f.values⟩) filter)
  | .custom kind filter => .custom kind (optionalFilter id filter)

def Condition.ofTyped (c : DictionaryQueryCondition) : Condition Text :=
  ⟨c.field, c.value, c.matcher⟩

def Entry.ofTyped (e : DictionaryQueryEntry) : Entry Text :=
  ⟨e.entity, e.conditions.map Condition.ofTyped⟩

theorem conditionValue_text (type : Optional String) :
    conditionValue (Data.text lodash) type = SubqlConcordium.conditionValue type := by
  cases type <;> rfl

theorem nestValues_text (values : StringMap) :
    nestValues (Data.text lodash) (values.entries.map fun p => (p.1, .scalar (.str p.2))) =
      SubqlConcordium.nestValues lodash values :=
  List.foldl_map

theorem filterToQueryEntry_ofTyped (entity : String) (filter : ValuesFilter) :
    filterToQueryEntry (Data.text lodash) entity ⟨filter.type, typedValues filter.values⟩ =
      (SubqlConcordium.filterToQueryEntry lodash entity filter).map Entry.ofTyped := by
  obtain ⟨type, values⟩ := filter
  cases values with
  | undefined =>
    simp [filterToQueryEntry, SubqlConcordium.filterToQueryEntry, typedValues, Except.map,
      Entry.ofTyped, Condition.ofTyped, conditionValue_text]
  | null => rfl
  | value values =>
    simp [filterToQueryEntry, SubqlConcordium.filterToQueryEntry, typedValues, Except.map,
      Entry.ofTyped, Condition.ofTyped, conditionValue_text, nestValues_text]

theorem handlerQueryEntries_ofTyped (handler : SubqlHandler) :
    handlerQueryEntries (Data.text lodash) (.ofTyped handler) =
      (SubqlConcordium.handlerQueryEntries lodash handler).map
        (Option.map (List.map Entry.ofTyped)) := by
  rcases handler with (_ | ⟨modulo, _⟩) | ⟨kind, _ | ⟨type, values⟩⟩ | ⟨kind, _ | filter⟩
  · rfl
  · cases modulo <;> rfl
  · rfl
  · have htruthy : (Filter.truthy ⟨type, typedValues values⟩ : Bool) =
        ValuesFilter.truthy ⟨type, values⟩ := by
      cases values <;> rfl
    simp only [Handler.ofTyped, optionalFilter, handlerQueryEntries,
      SubqlConcordium.handlerQueryEntries, htruthy, ItemKind.toQueryEntry_eq]
    split_ifs
    · rw [filterToQueryEntry_ofTyped kind.entity ⟨type, values⟩]
      cases SubqlConcordium.filterToQueryEntry lodash kind.entity ⟨type, values⟩ <;> rfl
    · rfl
  · rfl
  · rfl

theorem collectQueryEntries_ofTyped (lodash : Lodash) (handlers : List SubqlHandler)
    (queryEntries : List DictionaryQueryEntry) :
    collectQueryEntries (Data.text lodash) (handlers.map .ofTyped)
        (queryEntries.map Entry.ofTyped) =
      (SubqlConcordium.collectQueryEntries lodash handlers queryEntries).map
        (Option.map (List.map Entry.ofTyped)) := by
  induction handlers generalizing queryEntries with
  | nil => rfl
  | cons handler handlers ih =>
    rw [List.map_cons, collectQueryEntries, SubqlConcordium.collectQueryEntries,
      handlerQueryEntries_ofTyped]
    rcases SubqlConcordium.handlerQueryEntries lodash handler with e | _ | entries
    · rfl
    · rfl
    · have hrest := ih (queryEntries ++ entries)
      rw [List.map_append] at hrest
      exact hrest

theorem queryKey_ofTyped (hlodash : lodash.Documented) {entry : DictionaryQueryEntry}
    (h : IsTranslation lodash entry) :
    queryKey lodash (Data.text lodash) (Entry.ofTyped entry) =
      SubqlConcordium.queryKey lodash entry := by
  have hascii : ∀ c ∈ entry.conditions, ∀ ch ∈ c.field.toList, ch.toNat < 128 := by
    intro c hc
    rcases h.shape.2 c hc with h | h <;> simp [h]
  have hsorted : lodash.sortBy (·.field) (entry.conditions.map Condition.ofTyped) =
      (lodash.sortBy (·.field) entry.conditions).map Condition.ofTyped := by
    rw [hlodash.sortBy_eq _ _ hascii, hlodash.sortBy_eq _ _ (by simpa [Condition.ofTyped]),
      List.map_mergeSort]
    exact fun a _ b _ => rfl
  have hjson : (Condition.toJson (Data.text lodash) ∘ Condition.ofTyped) =
      DictionaryQueryCondition.toJson := rfl
  rw [queryKey, SubqlConcordium.queryKey, Entry.ofTyped, hsorted, List.map_map, hjson]
  rfl

/-- **On the declared types** this is the typed builder. -/
theorem build_ofTyped (hlodash : lodash.Documented) (dataSources : List ConcordiumDatasource) :
    buildDictionaryQueryEntries lodash (Data.text lodash)
        (dataSources.map fun ds => ds.handlers.map .ofTyped) =
      (SubqlConcordium.buildDictionaryQueryEntries lodash dataSources).map
        (List.map Entry.ofTyped) := by
  have hhandlers : (dataSources.map fun ds => ds.handlers.map Handler.ofTyped).flatten =
      (dataSources.flatMap (·.handlers)).map .ofTyped := by
    rw [List.map_flatMap, List.flatMap_def]
  have hcollect := collectQueryEntries_ofTyped lodash (dataSources.flatMap (·.handlers)) []
  rw [List.map_nil] at hcollect
  rw [buildDictionaryQueryEntries, SubqlConcordium.buildDictionaryQueryEntries, hhandlers, hcollect]
  cases hresult : SubqlConcordium.collectQueryEntries lodash (dataSources.flatMap (·.handlers)) []
    with
  | error e => rfl
  | ok result =>
    cases result with
    | none => rfl
    | some queryEntries =>
      have htranslations := collectQueryEntries_translations hresult (by simp)
      have hkeys : ∀ e ∈ queryEntries, (queryKey lodash (Data.text lodash) ∘ Entry.ofTyped) e =
          SubqlConcordium.queryKey lodash e :=
        fun e he => queryKey_ofTyped hlodash (htranslations e he)
      have huniq := hlodash.uniqBy_map (queryKey lodash (Data.text lodash)) Entry.ofTyped
        queryEntries
      rw [hlodash.uniqBy_congr hkeys] at huniq
      exact congrArg Except.ok huniq

end Typed

/-! ### When the builder returns -/

/-- A handler that makes the builder return the empty list: it has no filter, or a block filter
without a modulo, or one whose type and values both do not count. -/
def Handler.GivesUp : Handler S → Prop
  | .block (.value filter) => filter.prop "modulo" = .undefined
  | .item _ (.value filter) => filter.truthy = false
  | .custom _ (.value _) => False
  | _ => True

/-- A handler that makes the builder throw: its filter has a type that counts, and values that are
`null`. -/
def Handler.Throws : Handler S → Prop
  | .item _ (.value filter) => filter.type.truthyStr = true ∧ filter.values = .null
  | _ => False

variable {data : Data S} {handler : Handler S} {handlers : List (Handler S)}

theorem handlerQueryEntries_item (data : Data S) (kind : ItemKind) (filter : Filter S) :
    ((Handler.item kind (.value filter)).Throws ∧
        ∃ e, handlerQueryEntries data (.item kind (.value filter)) = .error e) ∨
      (¬ (Handler.item kind (.value filter)).Throws ∧
        (Handler.item kind (.value filter)).GivesUp ∧
        handlerQueryEntries data (.item kind (.value filter)) = .ok none) ∨
      ¬ (Handler.item kind (.value filter)).Throws ∧ ¬ (Handler.item kind (.value filter)).GivesUp ∧
        ∃ entries, handlerQueryEntries data (.item kind (.value filter)) = .ok (some entries) := by
  obtain ⟨type, values⟩ := filter
  simp only [Handler.Throws, Handler.GivesUp, handlerQueryEntries, Filter.truthy]
  by_cases htype : type.truthyStr = true <;> cases values <;>
    simp [htype, filterToQueryEntry, Optional.get?, bind, Except.bind, pure, Except.pure]

/-- **One handler**: it makes the builder throw, or give up, or go on. -/
theorem handlerQueryEntries_cases (data : Data S) (handler : Handler S) :
    (handler.Throws ∧ ∃ e, handlerQueryEntries data handler = .error e) ∨
      (¬ handler.Throws ∧ handler.GivesUp ∧ handlerQueryEntries data handler = .ok none) ∨
      ¬ handler.Throws ∧ ¬ handler.GivesUp ∧
        ∃ entries, handlerQueryEntries data handler = .ok (some entries) := by
  rcases handler with (_ | _ | filter) | ⟨kind, _ | _ | filter⟩ | ⟨kind, _ | _ | filter⟩
  · exact .inr (.inl ⟨id, trivial, rfl⟩)
  · exact .inr (.inl ⟨id, trivial, rfl⟩)
  · cases hmodulo : filter.prop "modulo" with
    | undefined => exact .inr (.inl ⟨id, hmodulo, by simp only [handlerQueryEntries, hmodulo]⟩)
    | _ =>
      refine .inr (.inr ⟨id, ?_, [], by simp only [handlerQueryEntries, hmodulo]⟩)
      simp [Handler.GivesUp, hmodulo]
  · exact .inr (.inl ⟨id, trivial, rfl⟩)
  · exact .inr (.inl ⟨id, trivial, rfl⟩)
  · exact handlerQueryEntries_item data kind filter
  · exact .inr (.inl ⟨id, trivial, rfl⟩)
  · exact .inr (.inl ⟨id, trivial, rfl⟩)
  · exact .inr (.inr ⟨id, id, [], rfl⟩)

/-- No handler makes the builder throw before one makes it give up. -/
def Safe (handlers : List (Handler S)) : Prop :=
  ∀ before handler after, handlers = before ++ handler :: after → handler.Throws →
    ∃ earlier ∈ before, earlier.GivesUp

theorem safe_nil : Safe ([] : List (Handler S)) := by
  intro before handler after h
  simp at h

theorem safe_cons_iff : Safe (handler :: handlers) ↔
    ¬ handler.Throws ∧ (handler.GivesUp ∨ Safe handlers) := by
  constructor
  · intro h
    refine ⟨fun hthrows => ?_, or_iff_not_imp_left.mpr fun hgives before h' after heq hthrows => ?_⟩
    · obtain ⟨_, hmem, -⟩ := h [] handler handlers rfl hthrows
      cases hmem
    · obtain ⟨earlier, hmem, hearlier⟩ :=
        h (handler :: before) h' after (by rw [heq, List.cons_append]) hthrows
      rcases List.mem_cons.mp hmem with rfl | hmem
      · exact absurd hearlier hgives
      · exact ⟨earlier, hmem, hearlier⟩
  · rintro ⟨hthrows, hrest⟩ before h' after heq hthrows'
    cases before with
    | nil =>
      cases heq
      exact absurd hthrows' hthrows
    | cons first before =>
      rw [List.cons_append, List.cons.injEq] at heq
      obtain ⟨rfl, heq⟩ := heq
      rcases hrest with hgives | hsafe
      · exact ⟨handler, List.mem_cons_self, hgives⟩
      · obtain ⟨earlier, hmem, hearlier⟩ := hsafe before h' after heq hthrows'
        exact ⟨earlier, List.mem_cons_of_mem _ hmem, hearlier⟩

/-- **The loop returns** where no handler makes it throw first. -/
theorem collectQueryEntries_returns_iff (data : Data S) (queryEntries : List (Entry S)) :
    (∃ result, collectQueryEntries data handlers queryEntries = .ok result) ↔ Safe handlers := by
  induction handlers generalizing queryEntries with
  | nil => exact ⟨fun _ => safe_nil, fun _ => ⟨_, rfl⟩⟩
  | cons handler handlers ih =>
    rw [safe_cons_iff, collectQueryEntries, bind_returns_iff]
    rcases handlerQueryEntries_cases data handler with
      ⟨hthrows, e, he⟩ | ⟨hthrows, hgives, he⟩ | ⟨hthrows, hgives, entries, he⟩
    · simp [he, hthrows]
    · simp [he, hthrows, hgives, pure, Except.pure]
    · simp [he, hthrows, hgives, ih]

/-- A handler of account transactions whose values are `null`. -/
def nullValuesHandler : Handler Text :=
  .item .transaction (.value ⟨.value "accountTransaction", .null⟩)

/-- The runtime filters treat values that are `null` as absent. -/
theorem accepts_null_values (kind : ItemKind) (item : Obj) (type : Optional String) :
    kind.accepts item ⟨type, .null⟩ = kind.accepts item ⟨type, .undefined⟩ := by
  cases kind <;> rfl

end Admitted

end SubqlConcordium
