import SubqlConcordium.Dictionary.Admitted
import SubqlConcordium.Dictionary.Paths

/-!
# How exact the deduplication is

Entries are told apart by their text. Two entries with one text are sent as the same query, so
nothing is lost by keeping one of them. The other direction fails on one point. The conditions are
sorted before they are printed, but the object under `data` is printed as it was built, field by
field in the order of the keys of `values`. So two filters that only list their values in another
order are both kept.

## Equivalence

What an entry asks for does not depend on the order of its conditions, nor on that of the fields of
an object. `Entry.Equivalent` is sameness up to both, at any depth, and an equivalence relation. A
key that respected it would keep one entry of each class. `pairwise_uniqBy_iff` says what is left to
show for the key that is used: equivalent entries have to be sent as one query.

## Main definitions

* `Data.Documented` — what is assumed of `JSON.stringify`
* `Entry.sent`, `Entry.Equivalent` — an entry as it is sent, and the same up to order
* `Exact` — nothing is lost, and nothing is kept twice
* `Filter.Reorders` — filters that differ in the order of their fields alone

## Main results

* `queryKey_eq_iff` — one text, one query
* `exact_iff` — when the deduplication is exact
* `reorders_paths_iff`, `reorders_plain_iff` — the condition on keys that are paths, and on keys
  that are none: the same keys and values, listed in another order
-/

namespace SubqlConcordium

open Js

namespace Admitted

variable {S : Type}

/-- What is assumed of the scalars and of `JSON.stringify`: strings are told apart from each other
and from `null`, and a value is printed in the order of its fields, with some unambiguous text for
the scalars. -/
structure Data.Documented (data : Data S) : Prop where
  string_injective : Function.Injective data.string
  string_ne_null : ∀ s, data.string s ≠ data.null
  stringify_eq : ∃ code, Json.ScalarCode code ∧
    ∀ j, data.stringify j = String.ofList (Json.print code j)

/-- An entry as it is sent to the dictionary: the table, and the conditions as JSON. -/
def Entry.sent (data : Data S) (e : Entry S) : String × List (Json S) :=
  (e.entity, e.conditions.map (Condition.toJson data))

/-- A condition with the fields of its value sorted. -/
def Condition.sorted (c : Condition S) : Condition S :=
  ⟨c.field, c.value.map Json.sorted, c.matcher⟩

/-- **Equivalent entries**: the same table and the same conditions, whatever the order of the
conditions and, at any depth, of the fields of their values. -/
def Entry.Equivalent (e e' : Entry S) : Prop :=
  e.entity = e'.entity ∧
    (e.conditions.map Condition.sorted).Perm (e'.conditions.map Condition.sorted)

theorem Entry.equivalence : Equivalence (Entry.Equivalent (S := S)) where
  refl _ := ⟨rfl, .refl _⟩
  symm h := ⟨h.1.symm, h.2.symm⟩
  trans h h' := ⟨h.1.trans h'.1, h.2.trans h'.2⟩

/-- **Exact deduplication.** Every translated filter has an entry in the result that is sent as
its own is, and no two entries of the result are equivalent. -/
def Exact (data : Data S) (dataSources : List (List (Handler S))) (result : List (Entry S)) :
    Prop :=
  (∀ kind filter, .item kind (.value filter) ∈ dataSources.flatten →
    ∃ entry, filterToQueryEntry data kind.entity filter = .ok entry ∧
      ∃ e ∈ result, e.sent data = entry.sent data) ∧
  result.Pairwise fun e e' => ¬ e.Equivalent e'

/-- The values build the same object, but for the order of fields in it or inside of it. -/
def Filter.Reorders (data : Data S) (filter filter' : Filter S) : Prop :=
  filter.type = filter'.type ∧
    ∃ values values', filter.values = .value values ∧ filter'.values = .value values' ∧
      (nestValues data values).sorted = (nestValues data values').sorted ∧
        nestValues data values ≠ nestValues data values'

/-! ### Translated filters -/

variable {lodash : Lodash} {data : Data S} {kind kind' : ItemKind} {filter filter' : Filter S}
  {handler : Handler S} {handlers : List (Handler S)} {e : Entry S}

/-- The condition on the type. -/
def typeCondition (data : Data S) (type : Optional String) : Condition S :=
  ⟨"type", conditionValue data type, "equalTo"⟩

/-- The condition on the data. -/
def dataCondition (data : Data S) (values : List (String × Json S)) : Condition S :=
  ⟨"data", some (nestValues data values), "contains"⟩

/-- The condition on the data, if the filter has values. -/
def dataConditions (data : Data S) (filter : Filter S) : List (Condition S) :=
  (filter.values.get?.map (dataCondition data)).toList

def translation (data : Data S) (kind : ItemKind) (filter : Filter S) : Entry S :=
  ⟨kind.entity, typeCondition data filter.type :: dataConditions data filter⟩

theorem filterToQueryEntry_eq_ok_iff :
    filterToQueryEntry data kind.entity filter = .ok e ↔
      filter.values ≠ .null ∧ e = translation data kind filter := by
  obtain ⟨type, values⟩ := filter
  cases values <;>
    simp [filterToQueryEntry, translation, typeCondition, dataConditions, dataCondition,
      Optional.get?, eq_comm]

theorem conditionValue_inj (h : data.Documented) {type type' : Optional String} :
    conditionValue data type = conditionValue data type' ↔ type = type' := by
  have hne := h.string_ne_null
  have hne' : ∀ s, data.null ≠ data.string s := fun s => (hne s).symm
  cases type <;> cases type' <;> simp [conditionValue, hne, hne', h.string_injective.eq_iff]

theorem toJson_typeCondition_inj (h : data.Documented) {type type' : Optional String} :
    (typeCondition data type).toJson data = (typeCondition data type').toJson data ↔
      type = type' := by
  rw [← conditionValue_inj h]
  cases hv : conditionValue data type <;> cases hv' : conditionValue data type' <;>
    simp [typeCondition, Condition.toJson, hv, hv']

/-- The object that the values build, if there are any. -/
def Filter.nested? (data : Data S) (filter : Filter S) : Option (Json S) :=
  filter.values.get?.map (nestValues data)

theorem toJson_dataConditions_inj :
    (dataConditions data filter).map (Condition.toJson data) =
        (dataConditions data filter').map (Condition.toJson data) ↔
      filter.nested? data = filter'.nested? data := by
  simp only [dataConditions, Filter.nested?]
  cases filter.values.get? <;> cases filter'.values.get? <;>
    simp [dataCondition, Condition.toJson]

theorem entity_inj : kind.entity = kind'.entity ↔ kind = kind' := by
  cases kind <;> cases kind' <;> decide

/-- **What is sent** determines the kind, the type and the object, and the other way round. -/
theorem sent_translation_inj (h : data.Documented) :
    (translation data kind filter).sent data = (translation data kind' filter').sent data ↔
      kind = kind' ∧ filter.type = filter'.type ∧ filter.nested? data = filter'.nested? data := by
  simp only [Entry.sent, translation, Prod.mk.injEq, List.map_cons, List.cons.injEq,
    toJson_typeCondition_inj h, toJson_dataConditions_inj, entity_inj]

theorem perm_pair_iff {α : Type} {a b a' b' : α} (h : a ≠ b') :
    [a, b].Perm [a', b'] ↔ a = a' ∧ b = b' := by
  constructor
  · intro hperm
    have hmem : a ∈ [a', b'] := hperm.subset List.mem_cons_self
    obtain rfl : a = a' := by simpa [h] using hmem
    simpa using hperm
  · rintro ⟨rfl, rfl⟩
    exact .refl _

/-- Translations are equivalent when they agree in kind and type, and their objects do up to the
order of fields. -/
theorem equivalent_translation_iff (h : data.Documented) :
    (translation data kind filter).Equivalent (translation data kind' filter') ↔
      kind = kind' ∧ filter.type = filter'.type ∧
        (filter.nested? data).map Json.sorted = (filter'.nested? data).map Json.sorted := by
  have htype : ∀ type type' : Optional String,
      (typeCondition data type).sorted = (typeCondition data type').sorted ↔ type = type' := by
    intro type type'
    rw [← conditionValue_inj h]
    cases type <;> cases type' <;>
      simp [typeCondition, Condition.sorted, conditionValue, Json.sorted]
  have hdata : ∀ values values' : List (String × Json S),
      (dataCondition data values).sorted = (dataCondition data values').sorted ↔
        (nestValues data values).sorted = (nestValues data values').sorted := by
    simp [dataCondition, Condition.sorted]
  have hne : ∀ type values, (typeCondition data type).sorted ≠ (dataCondition data values).sorted :=
    by simp [typeCondition, dataCondition, Condition.sorted]
  simp only [Entry.Equivalent, translation, dataConditions, Filter.nested?, List.map_cons,
    entity_inj]
  refine and_congr_right fun _ => ?_
  rw [← htype]
  cases filter.values.get? <;> cases filter'.values.get? <;>
    simp [perm_pair_iff (hne _ _), hdata]

/-! ### One text, one query -/

/-- The sorted conditions of a translation: `data` comes before `type`. -/
theorem sortBy_translation (hlodash : lodash.Documented) :
    lodash.sortBy (·.field) (translation data kind filter).conditions =
      dataConditions data filter ++ [typeCondition data filter.type] := by
  have hascii : ∀ c ∈ (translation data kind filter).conditions,
      ∀ ch ∈ c.field.toList, ch.toNat < 128 := by
    intro c hc
    have hfield : c.field = "type" ∨ c.field = "data" := by
      rcases List.mem_cons.mp hc with rfl | hc
      · exact .inl rfl
      · obtain ⟨values, -, rfl⟩ := Option.map_eq_some_iff.mp (Option.mem_toList.mp hc)
        exact .inr rfl
    rcases hfield with h | h <;> simp [h]
  have horder : ¬ "type" ≤ "data" := by decide
  rw [hlodash.sortBy_eq _ _ hascii, translation, dataConditions]
  cases filter.values.get? <;>
    simp [List.mergeSort, List.MergeSort.Internal.splitInTwo, typeCondition, dataCondition,
      horder]

/-- **One text, one query.** Entries have the same text when they are sent as the same query. -/
theorem queryKey_eq_iff (hlodash : lodash.Documented) (h : data.Documented) :
    queryKey lodash data (translation data kind filter) =
        queryKey lodash data (translation data kind' filter') ↔
      (translation data kind filter).sent data = (translation data kind' filter').sent data := by
  obtain ⟨code, hcode, hstringify⟩ := h.stringify_eq
  have hinj : Function.Injective data.stringify := by
    intro j j' heq
    rw [hstringify, hstringify] at heq
    exact hcode.print_injective (String.ofList_injective heq)
  rw [sent_translation_inj h, ← toJson_dataConditions_inj, ← toJson_typeCondition_inj h, queryKey,
    queryKey, sortBy_translation hlodash, sortBy_translation hlodash, List.map_append,
    List.map_append]
  constructor
  · intro heq
    have htext := congrArg String.toList heq
    simp only [translation, String.toList_append, List.append_assoc] at htext
    obtain ⟨hentity, hjson⟩ := entity_append_inj htext
    have hconditions := Json.arr.inj (hinj (String.toList_injective hjson))
    obtain ⟨hdata, htype⟩ := List.append_inj' hconditions rfl
    exact ⟨entity_inj.mp hentity, by simpa using htype, hdata⟩
  · rintro ⟨rfl, htype, hdata⟩
    rw [hdata, List.map_singleton, htype]
    rfl

/-! ### What is collected -/

theorem values_ne_null (hthrows : ¬ (Handler.item kind (.value filter)).Throws)
    (hgives : ¬ (Handler.item kind (.value filter)).GivesUp) : filter.values ≠ .null := by
  intro hnull
  have htype : filter.type.truthyStr = true := by
    simpa [Handler.GivesUp, Filter.truthy, hnull, Optional.get?] using hgives
  exact hthrows ⟨htype, hnull⟩

theorem handlerQueryEntries_translated (data : Data S) (hthrows : ¬ handler.Throws)
    (hgives : ¬ handler.GivesUp) :
    ∃ entries, handlerQueryEntries data handler = .ok (some entries) ∧
      ∀ e, e ∈ entries ↔ ∃ kind filter, handler = .item kind (.value filter) ∧
        filter.values ≠ .null ∧ e = translation data kind filter := by
  rcases handler with (_ | _ | filter) | ⟨kind, _ | _ | filter⟩ | ⟨kind, _ | _ | filter⟩
  all_goals try exact absurd trivial hgives
  · refine ⟨[], ?_, by simp⟩
    cases hmodulo : filter.prop "modulo" with
    | undefined => exact absurd hmodulo hgives
    | _ => simp only [handlerQueryEntries, hmodulo]
  · have htruthy : filter.truthy = true := by simpa [Handler.GivesUp] using hgives
    have hvalues := values_ne_null hthrows hgives
    refine ⟨[translation data kind filter], ?_, fun e => ?_⟩
    · rw [handlerQueryEntries, if_pos htruthy,
        filterToQueryEntry_eq_ok_iff.mpr ⟨hvalues, rfl⟩]
      rfl
    · rw [List.mem_singleton]
      constructor
      · rintro rfl
        exact ⟨kind, filter, rfl, hvalues, rfl⟩
      · rintro ⟨_, _, ⟨⟩, -, rfl⟩
        rfl
  · exact ⟨[], rfl, by simp⟩

theorem collectQueryEntries_translated (data : Data S)
    (h : ∀ handler ∈ handlers, ¬ handler.Throws ∧ ¬ handler.GivesUp)
    (queryEntries : List (Entry S)) :
    ∃ collected, collectQueryEntries data handlers queryEntries = .ok (some collected) ∧
      ∀ e, e ∈ collected ↔ e ∈ queryEntries ∨ ∃ kind filter,
        .item kind (.value filter) ∈ handlers ∧ filter.values ≠ .null ∧
          e = translation data kind filter := by
  induction handlers generalizing queryEntries with
  | nil => exact ⟨queryEntries, rfl, by simp⟩
  | cons handler handlers ih =>
    obtain ⟨⟨hthrows, hgives⟩, hrest⟩ := List.forall_mem_cons.mp h
    obtain ⟨entries, hentries, hmem⟩ := handlerQueryEntries_translated data hthrows hgives
    obtain ⟨collected, hcollected, hmem'⟩ := ih hrest (queryEntries ++ entries)
    refine ⟨collected, by rw [collectQueryEntries, hentries]; exact hcollected, fun e => ?_⟩
    rw [hmem', List.mem_append, hmem, or_assoc]
    refine or_congr_right ⟨?_, ?_⟩
    · rintro (⟨kind, filter, rfl, hfilter⟩ | ⟨kind, filter, hhandler, hfilter⟩)
      · exact ⟨kind, filter, List.mem_cons_self, hfilter⟩
      · exact ⟨kind, filter, List.mem_cons_of_mem _ hhandler, hfilter⟩
    · rintro ⟨kind, filter, hhandler, hfilter⟩
      rcases List.mem_cons.mp hhandler with heq | hhandler
      · exact .inl ⟨kind, filter, heq.symm, hfilter⟩
      · exact .inr ⟨kind, filter, hhandler, hfilter⟩

/-! ### When the deduplication is exact -/

theorem reorders_iff : filter.Reorders data filter' ↔
    filter.type = filter'.type ∧
      (filter.nested? data).map Json.sorted = (filter'.nested? data).map Json.sorted ∧
        filter.nested? data ≠ filter'.nested? data := by
  rw [Filter.Reorders, Filter.nested?, Filter.nested?]
  cases filter.values <;> cases filter'.values <;> simp [Optional.get?]

/-- What is kept of translated filters has no equivalent entries when equivalent filters are sent as
one query. -/
theorem pairwise_uniqBy_iff (hlodash : lodash.Documented) (h : data.Documented)
    {collected : List (Entry S)}
    (htranslated : ∀ e ∈ collected, ∃ kind filter, e = translation data kind filter) :
    ((lodash.uniqBy (queryKey lodash data) collected).Pairwise fun e e' => ¬ e.Equivalent e') ↔
      ∀ e ∈ collected, ∀ e' ∈ collected, e.Equivalent e' → e.sent data = e'.sent data := by
  have hkey : ∀ e ∈ collected, ∀ e' ∈ collected,
      queryKey lodash data e = queryKey lodash data e' ↔ e.sent data = e'.sent data := by
    intro e he e' he'
    obtain ⟨kind, filter, rfl⟩ := htranslated e he
    obtain ⟨kind', filter', rfl⟩ := htranslated e' he'
    exact queryKey_eq_iff hlodash h
  rw [hlodash.uniqBy_pairwise_iff _ Entry.equivalence]
  · exact forall₂_congr fun e he => forall₂_congr fun e' he' => imp_congr_right fun _ =>
      hkey e he e' he'
  · intro e he e' he' heq
    have hsent := (hkey e he e' he').mp heq
    obtain ⟨kind, filter, rfl⟩ := htranslated e he
    obtain ⟨kind', filter', rfl⟩ := htranslated e' he'
    obtain ⟨hkind, htype, hnested⟩ := (sent_translation_inj h).mp hsent
    exact (equivalent_translation_iff h).mpr ⟨hkind, htype, by rw [hnested]⟩

/-- **When the deduplication is exact.** Where the builder does not give up: unless two filters of
one kind and type have values that build the same object with its fields in another order. -/
theorem exact_iff (lodash : Lodash) (hlodash : lodash.Documented) (data : Data S)
    (hdata : data.Documented) (dataSources : List (List (Handler S)))
    (h : ∀ handler ∈ dataSources.flatten, ¬ handler.Throws ∧ ¬ handler.GivesUp) :
    ∃ result, buildDictionaryQueryEntries lodash data dataSources = .ok result ∧
      (Exact data dataSources result ↔ ∀ kind filter filter',
        .item kind (.value filter) ∈ dataSources.flatten →
          .item kind (.value filter') ∈ dataSources.flatten → ¬ filter.Reorders data filter') := by
  obtain ⟨collected, hcollected, hmem⟩ := collectQueryEntries_translated data h []
  simp only [List.not_mem_nil, false_or] at hmem
  have htranslated : ∀ kind filter, .item kind (.value filter) ∈ dataSources.flatten →
      filter.values ≠ .null ∧ translation data kind filter ∈ collected := by
    intro kind filter hhandler
    have hvalues := values_ne_null (h _ hhandler).1 (h _ hhandler).2
    exact ⟨hvalues, (hmem _).mpr ⟨kind, filter, hhandler, hvalues, rfl⟩⟩
  have htranslation : ∀ e ∈ collected, ∃ kind filter, e = translation data kind filter := by
    intro e he
    obtain ⟨kind, filter, -, -, rfl⟩ := (hmem e).mp he
    exact ⟨kind, filter, rfl⟩
  refine ⟨lodash.uniqBy (queryKey lodash data) collected, ?_, ?_⟩
  · rw [buildDictionaryQueryEntries, hcollected]
    rfl
  -- nothing is lost: an entry is only left out for one with the same text
  have hlossless : ∀ kind filter, .item kind (.value filter) ∈ dataSources.flatten →
      ∃ entry, filterToQueryEntry data kind.entity filter = .ok entry ∧
        ∃ e ∈ lodash.uniqBy (queryKey lodash data) collected, e.sent data = entry.sent data := by
    intro kind filter hhandler
    obtain ⟨hvalues, hcollects⟩ := htranslated kind filter hhandler
    obtain ⟨e, he, hkey⟩ := hlodash.exists_mem_uniqBy (queryKey lodash data) hcollects
    refine ⟨_, filterToQueryEntry_eq_ok_iff.mpr ⟨hvalues, rfl⟩, e, he, ?_⟩
    obtain ⟨kind', filter', rfl⟩ := htranslation e (hlodash.uniqBy_subset _ _ he)
    exact (queryKey_eq_iff hlodash hdata).mp hkey
  rw [Exact, and_iff_right hlossless, pairwise_uniqBy_iff hlodash hdata htranslation]
  constructor
  · intro hone kind filter filter' hfilter hfilter' hreorders
    obtain ⟨htype, hsorted, hne⟩ := reorders_iff.mp hreorders
    have hsent := hone _ (htranslated kind filter hfilter).2 _ (htranslated kind filter' hfilter').2
      ((equivalent_translation_iff hdata).mpr ⟨rfl, htype, hsorted⟩)
    exact hne ((sent_translation_inj hdata).mp hsent).2.2
  · intro hnone e he e' he' hequiv
    obtain ⟨kind, filter, hfilter, -, rfl⟩ := (hmem e).mp he
    obtain ⟨kind', filter', hfilter', -, rfl⟩ := (hmem e').mp he'
    obtain ⟨rfl, htype, hsorted⟩ := (equivalent_translation_iff hdata).mp hequiv
    refine (sent_translation_inj hdata).mpr ⟨rfl, htype, ?_⟩
    by_contra hne
    exact hnone kind filter filter' hfilter hfilter' (reorders_iff.mpr ⟨htype, hsorted, hne⟩)

theorem Data.text_documented (lodash : Lodash) : (Data.text lodash).Documented where
  string_injective _ _ h := Text.str.inj h
  string_ne_null _ := Text.noConfusion
  stringify_eq := ⟨Text.code, Text.scalarCode, fun _ => rfl⟩

def updatedHandler (values : List (String × Json Text)) : Handler Text :=
  .item .transactionEvent (.value ⟨.value "Updated", .value values⟩)

def transactionHandler : Handler Text :=
  .item .transaction (.value ⟨.value "accountTransaction", .undefined⟩)

theorem exact_two_kinds :
    ∃ result, buildDictionaryQueryEntries Lodash.reference (Data.text Lodash.reference)
        [[transactionHandler], [updatedHandler []]] = .ok result ∧
      Exact (Data.text Lodash.reference) [[transactionHandler], [updatedHandler []]] result := by
  obtain ⟨result, hresult, hexact⟩ := exact_iff Lodash.reference Lodash.reference_documented
    (Data.text Lodash.reference) (Data.text_documented _)
    [[transactionHandler], [updatedHandler []]] (by
      simp [transactionHandler, updatedHandler, Handler.Throws, Handler.GivesUp, Filter.truthy,
        Optional.truthyStr])
  refine ⟨result, hresult, hexact.mpr ?_⟩
  intro kind filter filter' hfilter hfilter' hreorders
  obtain ⟨-, -, hne⟩ := reorders_iff.mp hreorders
  have hone : ∀ filter, .item kind (.value filter) ∈ [transactionHandler, updatedHandler []] →
      kind = .transaction ∧ filter = ⟨.value "accountTransaction", .undefined⟩ ∨
        kind = .transactionEvent ∧ filter = ⟨.value "Updated", .value []⟩ := by
    simp [transactionHandler, updatedHandler]
  rcases hone filter hfilter with ⟨rfl, rfl⟩ | ⟨rfl, rfl⟩ <;>
    rcases hone filter' hfilter' with ⟨hkind, rfl⟩ | ⟨hkind, rfl⟩
  all_goals first | exact absurd rfl hne | cases hkind

/-- A filter of updates by two fields, listed in this order. -/
def twoFieldsFilter : Filter Text :=
  ⟨.value "Updated", .value [("a", .scalar (.str "1")), ("b", .scalar (.str "2"))]⟩

/-- The same fields, listed the other way round. -/
def reversedFilter : Filter Text :=
  ⟨.value "Updated", .value [("b", .scalar (.str "2")), ("a", .scalar (.str "1"))]⟩

def reversedHandlers : List (Handler Text) :=
  [.item .transactionEvent (.value twoFieldsFilter),
    .item .transactionEvent (.value reversedFilter)]

/-- The same two values, listed in both orders, are sent as two queries. -/
theorem not_exact_reversed :
    ∃ result, buildDictionaryQueryEntries Lodash.reference (Data.text Lodash.reference)
        [reversedHandlers] = .ok result ∧
      ¬ Exact (Data.text Lodash.reference) [reversedHandlers] result := by
  have hdata := Data.text_documented Lodash.reference
  have hfields : Json.sortFields [("a", .scalar (.str "1")), ("b", .scalar (.str "2"))] =
      Json.sortFields [("b", .scalar (.str "2")), ("a", .scalar (Text.str "1"))] :=
    (Json.sortFields_eq_iff (by decide)).mpr (.swap _ _ _)
  have hsorted : (twoFieldsFilter.nested? (Data.text Lodash.reference)).map Json.sorted =
      (reversedFilter.nested? (Data.text Lodash.reference)).map Json.sorted :=
    congrArg (fun fields => some (Json.obj fields)) hfields
  refine ⟨Lodash.reference.uniqBy (queryKey Lodash.reference (Data.text Lodash.reference))
    [translation _ .transactionEvent twoFieldsFilter,
      translation _ .transactionEvent reversedFilter], rfl, fun hexact => ?_⟩
  have hone := (pairwise_uniqBy_iff Lodash.reference_documented hdata (by simp)).mp hexact.2
    _ List.mem_cons_self _ (List.mem_cons_of_mem _ List.mem_cons_self)
    ((equivalent_translation_iff hdata).mpr ⟨rfl, rfl, hsorted⟩)
  have hnested := ((sent_translation_inj hdata).mp hone).2.2
  exact absurd hnested (by
    simp [Filter.nested?, twoFieldsFilter, reversedFilter, Optional.get?, nestValues, Data.text,
      Lodash.reference])

/-! ### Keys and paths -/

section Paths

variable {toPath : String → List String} {values values' : StringMap}

/-- **Keys as paths.** The filters are those whose texts, assigned at the paths of the keys, make
the same object, but for the order of fields in it or inside of it. -/
theorem reorders_paths_iff (h : lodash.SetsPaths toPath) {type type' : Optional String} :
    Filter.Reorders (Data.text lodash) ⟨type, typedValues (.value values)⟩
        ⟨type', typedValues (.value values')⟩ ↔
      type = type' ∧
        (assignedAt toPath values.entries).sorted = (assignedAt toPath values'.entries).sorted ∧
          assignedAt toPath values.entries ≠ assignedAt toPath values'.entries := by
  simp only [reorders_iff, Filter.nested?, typedValues, Optional.get?, Option.map_some,
    Option.some.injEq, ne_eq, nestValues_text, h.nestValues_eq]

theorem sorted_plainFields (entries : List (String × String)) :
    (Json.obj (plainFields entries)).sorted = .obj (Json.sortFields (plainFields entries)) := by
  have hfields : ∀ entries, Json.sortedFields (plainFields entries) = plainFields entries := by
    intro entries
    induction entries with
    | nil => rfl
    | cons p entries ih => exact congrArg ((p.1, .scalar (.str p.2)) :: ·) ih
  rw [Json.sorted, hfields]

/-- **Plain keys.** Where no key is a path, the filters are those that list the same keys and
values in another order. -/
theorem reorders_plain_iff (h : lodash.SetsPaths toPath)
    (hplain : ∀ p ∈ values.entries, toPath p.1 = [p.1])
    (hplain' : ∀ p ∈ values'.entries, toPath p.1 = [p.1]) {type type' : Optional String} :
    Filter.Reorders (Data.text lodash) ⟨type, typedValues (.value values)⟩
        ⟨type', typedValues (.value values')⟩ ↔
      type = type' ∧ values'.Reorders values ∧ values.entries ≠ values'.entries := by
  have hinj : Function.Injective fun p : String × String =>
      ((p.1, .scalar (.str p.2)) : String × Json Text) := by
    rintro ⟨k, v⟩ ⟨k', v'⟩ heq
    simpa using heq
  have hnodup : ((plainFields values.entries).map Prod.fst).Nodup := by
    rw [plainFields, List.map_map]
    exact values.nodup
  simp only [reorders_paths_iff h, ← h.nestValues_eq, h.nestValues_of_plain hplain,
    h.nestValues_of_plain hplain', sorted_plainFields, Json.obj.injEq, ne_eq,
    Json.sortFields_eq_iff hnodup, StringMap.Reorders]
  rw [plainFields, plainFields, List.map_perm_map_iff hinj, hinj.list_map.eq_iff]

end Paths

end Admitted

end SubqlConcordium
