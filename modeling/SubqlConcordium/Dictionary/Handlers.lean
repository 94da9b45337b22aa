import SubqlConcordium.Dictionary.QueryEntry

/-!
# Which handlers the dictionary covers

`buildDictionaryQueryEntries` walks over all handlers of all data sources. A handler that cannot be
served by a dictionary makes it give up and return the empty list; every other handler is either
translated to an entry, or skipped because its blocks are fetched anyway, by their modulo. A
non-empty result is only right if no handler falls between the two.

Entries are deduplicated by their text, so the text must determine the entry up to the order of
its conditions: `equivalent_of_queryKey_eq`.

## Giving up

An empty list of entries tells the indexer to do without the dictionary, and no result is needed
then: every block is fetched. The builder gives up on a handler without a filter, on a block handler
whose modulo is undefined, and on an item handler whose filter says nothing. A block handler with a
modulo is skipped, on the grounds that the multiples are fetched anyway. But the modulos are
collected elsewhere, by a test of their own, and whether the two tests agree is the question that
`covered_iff` answers.

## Main definitions

* `GetModulos` — node-core's `getModulos`, and what is assumed of it
* `buildDictionaryQueryEntries` — the query entries for a list of data sources
* `Equivalent`, `Covered` — entries met by the same rows, and handlers whose blocks are not missed

## Main results

* `covered_of_item` — every handler of items keeps an equivalent entry
* `covered_iff` — when a non-empty result covers every handler
-/

namespace SubqlConcordium

open Js

/-! ### Modulos -/

/-- node-core's `getModulos`, called for the kind of block handlers. -/
abbrev GetModulos := List ConcordiumDatasource → (ConcordiumDatasource → Bool) → List ℚ

/-- What `getModulos` is assumed to return: every truthy modulo of the block handlers of the data
sources that are not custom. -/
def GetModulos.Documented (getModulos : GetModulos) : Prop :=
  ∀ dataSources isCustom m, m ∈ getModulos dataSources isCustom ↔
    ∃ ds ∈ dataSources, isCustom ds = false ∧ ∃ handler ∈ ds.handlers, handler.modulo? = some m

def FetchService.getModulos (getModulos : GetModulos) (dataSources : List ConcordiumDatasource) :
    List ℚ :=
  getModulos dataSources isCustomDs

/-! ### Building the entries -/

/-- The text by which entries are told apart: a condition without a value has no such field. -/
def DictionaryQueryCondition.toJson (c : DictionaryQueryCondition) : Json Text :=
  .obj (("field", .scalar (.str c.field)) ::
    (c.value.toList.map fun v => ("value", v)) ++ [("matcher", .scalar (.str c.matcher))])

section

variable (lodash : Lodash)

/-- The key that `uniqBy` compares. -/
def queryKey (item : DictionaryQueryEntry) : String :=
  item.entity ++ "|" ++ stringify
    (.arr ((lodash.sortBy (·.field) item.conditions).map DictionaryQueryCondition.toJson))

/-- `filter.type || filter.values`. -/
def ValuesFilter.truthy (filter : ValuesFilter) : Bool :=
  filter.type.truthyStr || filter.values.get?.isSome

/-- One round of the loop: the entries pushed, or `none` for `return []`. -/
def handlerQueryEntries : SubqlHandler → Except JsError (Option (List DictionaryQueryEntry))
  -- no filter, can't use the dictionary
  | .block none => .ok none
  | .item _ none => .ok none
  | .custom _ none => .ok none
  | .block (some filter) =>
    match filter.modulo with
    | .undefined => .ok none
    | _ => .ok (some [])
  | .item kind (some filter) =>
    if filter.truthy then do
      let entry ← kind.toQueryEntry lodash filter
      return some [entry]
    else .ok none
  -- the default branch does nothing
  | .custom _ (some _) => .ok (some [])

/-- The loop over the handlers, with the entries so far. -/
def collectQueryEntries : List SubqlHandler → List DictionaryQueryEntry →
    Except JsError (Option (List DictionaryQueryEntry))
  | [], queryEntries => .ok (some queryEntries)
  | handler :: handlers, queryEntries => do
    match ← handlerQueryEntries lodash handler with
    | none => return none
    | some entries => collectQueryEntries handlers (queryEntries ++ entries)

def buildDictionaryQueryEntries (dataSources : List ConcordiumDatasource) :
    Except JsError (List DictionaryQueryEntry) := do
  match ← collectQueryEntries lodash (dataSources.flatMap (·.handlers)) [] with
  | none => return []
  | some queryEntries => return lodash.uniqBy (queryKey lodash) queryEntries

end

/-! ### Coverage -/

/-- Entries on the same table that are met by the same rows. -/
def DictionaryQueryEntry.Equivalent (e e' : DictionaryQueryEntry) : Prop :=
  e.entity = e'.entity ∧ ∀ row : Row, (∀ c ∈ e.conditions, c.Holds row) ↔
    ∀ c ∈ e'.conditions, c.Holds row

/-- A handler whose items are not missed: the modulo test of a block handler accepts only heights
that are fetched by some modulo, and the filter of any other handler is among the entries. A kind
that is not translated is in no entry. -/
def Covered (lodash : Lodash) (modulos : List ℚ) (entries : List DictionaryQueryEntry) :
    SubqlHandler → Prop
  | .block filter =>
    ∃ m ∈ modulos, ∀ x : ℕ, moduloDiffers x filter = false → ∃ k : ℤ, (x : ℚ) = k * m
  | .item kind filter => ∃ f entry, filter = some f ∧ kind.toQueryEntry lodash f = .ok entry ∧
      ∃ e ∈ entries, e.Equivalent entry
  | .custom _ _ => False

/-! ### Equal text, equivalent entries -/

section

variable {lodash : Lodash} {entry e e' : DictionaryQueryEntry} {kind : ItemKind}
  {filter : ValuesFilter} {handlers : List SubqlHandler} {handler : SubqlHandler}
  {entries queryEntries : List DictionaryQueryEntry}

theorem DictionaryQueryCondition.toJson_injective :
    Function.Injective DictionaryQueryCondition.toJson := by
  rintro ⟨field, value, matcher⟩ ⟨field', value', matcher'⟩ h
  cases value <;> cases value' <;> simp_all [DictionaryQueryCondition.toJson]

/-- The entries that translations produce. -/
def IsTranslation (lodash : Lodash) (entry : DictionaryQueryEntry) : Prop :=
  ∃ kind filter, ItemKind.toQueryEntry lodash kind filter = .ok entry

theorem IsTranslation.shape (h : IsTranslation lodash entry) :
    (∃ kind : ItemKind, entry.entity = kind.entity) ∧
      ∀ c ∈ entry.conditions, c.field = "type" ∨ c.field = "data" := by
  obtain ⟨kind, filter, h⟩ := h
  rw [ItemKind.toQueryEntry_eq] at h
  rw [filterToQueryEntry] at h
  cases hvalues : filter.values with
  | null => simp [hvalues] at h
  | undefined =>
    rw [hvalues] at h
    cases h
    exact ⟨⟨kind, rfl⟩, by simp⟩
  | value values =>
    rw [hvalues] at h
    cases h
    exact ⟨⟨kind, rfl⟩, by simp⟩

/-- The name of a table ends at the first bar. -/
theorem entity_append_inj {kind kind' : ItemKind} {r r' : List Char}
    (h : kind.entity.toList ++ '|' :: r = kind'.entity.toList ++ '|' :: r') :
    kind.entity = kind'.entity ∧ r = r' := by
  have htable : ∀ (kind : ItemKind) (r : List Char),
      (kind.entity.toList ++ '|' :: r).takeWhile (· ≠ '|') = kind.entity.toList := by
    intro kind r
    have hbar : ∀ c ∈ kind.entity.toList, decide (c ≠ '|') = true := by
      cases kind <;> simp [ItemKind.entity]
    rw [List.takeWhile_append_of_pos hbar]
    simp
  have hentity : kind.entity.toList = kind'.entity.toList := by
    rw [← htable kind r, h, htable kind' r']
  rw [hentity] at h
  exact ⟨String.toList_injective hentity, (List.cons.inj (List.append_cancel_left h)).2⟩

/-- **Equal text, equivalent entries.** -/
theorem equivalent_of_queryKey_eq (hlodash : lodash.Documented) (he : IsTranslation lodash e)
    (he' : IsTranslation lodash e') (h : queryKey lodash e = queryKey lodash e') :
    e.Equivalent e' := by
  obtain ⟨⟨kind, hkind⟩, hfields⟩ := he.shape
  obtain ⟨⟨kind', hkind'⟩, hfields'⟩ := he'.shape
  have hperm : ∀ entry : DictionaryQueryEntry,
      (∀ c ∈ entry.conditions, c.field = "type" ∨ c.field = "data") →
        (lodash.sortBy (·.field) entry.conditions).Perm entry.conditions := by
    intro entry hf
    have hascii : ∀ c ∈ entry.conditions, ∀ ch ∈ c.field.toList, ch.toNat < 128 := by
      intro c hc
      rcases hf c hc with h | h <;> simp [h]
    rw [hlodash.sortBy_eq _ _ hascii]
    exact List.mergeSort_perm _ _
  have htext := congrArg String.toList h
  simp only [queryKey, hkind, hkind', String.toList_append, List.append_assoc] at htext
  obtain ⟨hentity, hjson⟩ := entity_append_inj htext
  have hconditions := stringify_injective (String.toList_injective hjson)
  rw [Json.arr.injEq] at hconditions
  have hsorted := DictionaryQueryCondition.toJson_injective.list_map hconditions
  have hmem : ∀ c, c ∈ e.conditions ↔ c ∈ e'.conditions := by
    intro c
    rw [← (hperm e hfields).mem_iff, hsorted, (hperm e' hfields').mem_iff]
  refine ⟨by rw [hkind, hkind', hentity], fun row => ?_⟩
  simp only [hmem]

/-! ### What the loop collects -/

/-- For an item handler the loop pushes the translation of its filter, or gives up. -/
theorem pushed_of_item {itemFilter : Option ValuesFilter}
    (h : handlerQueryEntries lodash (.item kind itemFilter) = .ok (some entries)) :
    ∃ f entry, itemFilter = some f ∧ kind.toQueryEntry lodash f = .ok entry ∧
      entries = [entry] := by
  cases itemFilter with
  | none => cases h
  | some f =>
    rw [handlerQueryEntries] at h
    split_ifs at h
    · obtain ⟨entry, hentry, h⟩ := bind_eq_ok_iff.mp h
      cases h
      exact ⟨f, entry, rfl, hentry, rfl⟩
    · cases h

theorem pushed_of_not_item (hitem : ∀ kind filter, handler ≠ .item kind filter)
    (h : handlerQueryEntries lodash handler = .ok (some entries)) : entries = [] := by
  rcases handler with (_ | f) | ⟨kind, filter⟩ | ⟨kind, _ | filter⟩
  · cases h
  · rw [handlerQueryEntries] at h
    cases hmodulo : f.modulo <;> rw [hmodulo] at h <;> cases h <;> rfl
  · exact absurd rfl (hitem kind filter)
  · cases h
  · cases h
    rfl

theorem isTranslation_of_pushed (h : handlerQueryEntries lodash handler = .ok (some entries)) :
    ∀ e ∈ entries, IsTranslation lodash e := by
  by_cases hitem : ∃ kind filter, handler = .item kind filter
  · obtain ⟨kind, filter, rfl⟩ := hitem
    obtain ⟨f, entry, -, hentry, rfl⟩ := pushed_of_item h
    intro e he
    obtain rfl := List.mem_singleton.mp he
    exact ⟨kind, f, hentry⟩
  · push Not at hitem
    simp [pushed_of_not_item hitem h]

theorem collectQueryEntries_eq_some
    (h : collectQueryEntries lodash handlers queryEntries = .ok (some entries)) :
    queryEntries ⊆ entries ∧ ∀ handler ∈ handlers,
      ∃ pushed, handlerQueryEntries lodash handler = .ok (some pushed) ∧ pushed ⊆ entries := by
  induction handlers generalizing queryEntries with
  | nil =>
    cases h
    exact ⟨List.Subset.refl _, by simp⟩
  | cons handler handlers ih =>
    rw [collectQueryEntries, bind_eq_ok_iff] at h
    obtain ⟨result, hresult, h⟩ := h
    cases result with
    | none => cases h
    | some pushed =>
      obtain ⟨hsub, hrest⟩ := ih h
      rw [List.append_subset] at hsub
      refine ⟨hsub.1, fun handler' hmem => ?_⟩
      rcases List.mem_cons.mp hmem with rfl | hmem
      · exact ⟨pushed, hresult, hsub.2⟩
      · exact hrest handler' hmem

theorem collectQueryEntries_translations
    (h : collectQueryEntries lodash handlers queryEntries = .ok (some entries))
    (hacc : ∀ e ∈ queryEntries, IsTranslation lodash e) :
    ∀ e ∈ entries, IsTranslation lodash e := by
  induction handlers generalizing queryEntries with
  | nil =>
    cases h
    exact hacc
  | cons handler handlers ih =>
    rw [collectQueryEntries, bind_eq_ok_iff] at h
    obtain ⟨result, hresult, h⟩ := h
    cases result with
    | none => cases h
    | some pushed =>
      refine ih h fun e he => ?_
      rcases List.mem_append.mp he with he | he
      · exact hacc e he
      · exact isTranslation_of_pushed hresult e he

/-! ### Coverage -/

variable {dataSources : List ConcordiumDatasource}

/-- A non-empty result is the deduplicated list of what was collected from every handler. -/
theorem collected_of_build (h : buildDictionaryQueryEntries lodash dataSources = .ok entries)
    (hne : entries ≠ []) :
    ∃ collected, entries = lodash.uniqBy (queryKey lodash) collected ∧
      collectQueryEntries lodash (dataSources.flatMap (·.handlers)) [] = .ok (some collected) := by
  obtain ⟨result, hresult, h⟩ := bind_eq_ok_iff.mp h
  cases result with
  | none =>
    cases h
    exact absurd rfl hne
  | some collected =>
    cases h
    exact ⟨collected, rfl, hresult⟩

/-- **Every item handler is covered** by a non-empty result, by its own entry or one deduplicated
into it. -/
theorem covered_of_item (hlodash : lodash.Documented)
    (h : buildDictionaryQueryEntries lodash dataSources = .ok entries) (hne : entries ≠ [])
    {ds : ConcordiumDatasource} (hds : ds ∈ dataSources) {itemFilter : Option ValuesFilter}
    (hhandler : .item kind itemFilter ∈ ds.handlers) (modulos : List ℚ) :
    Covered lodash modulos entries (.item kind itemFilter) := by
  obtain ⟨collected, rfl, hcollected⟩ := collected_of_build h hne
  obtain ⟨pushed, hpushed, hsub⟩ := (collectQueryEntries_eq_some hcollected).2 _
    (List.mem_flatMap.mpr ⟨ds, hds, hhandler⟩)
  obtain ⟨f, entry, rfl, hentry, rfl⟩ := pushed_of_item hpushed
  have htranslations := collectQueryEntries_translations hcollected (by simp)
  have hmem : entry ∈ collected := hsub List.mem_cons_self
  obtain ⟨e, he, hkey⟩ := hlodash.exists_mem_uniqBy (queryKey lodash) hmem
  refine ⟨f, entry, rfl, hentry, e, he, ?_⟩
  exact equivalent_of_queryKey_eq hlodash
    (htranslations e (hlodash.uniqBy_subset _ _ he)) ⟨kind, f, hentry⟩ hkey

/-- The least positive height among those that a modulo test accepts, up to sign. -/
def BlockFilter.period (filter : BlockFilter) : ℤ :=
  match filter.modulo? with
  | some modulo => modulo.num
  | none => 1

/-- The modulo test accepts the multiples of the period. -/
theorem moduloDiffers_eq_false_iff {filter : BlockFilter} {x : ℕ} :
    moduloDiffers x (some filter) = false ↔ filter.period ∣ (x : ℤ) := by
  rw [moduloDiffers, BlockFilter.period]
  cases hmodulo : filter.modulo? with
  | none => simp [hmodulo]
  | some modulo =>
    have hne : modulo ≠ 0 := by
      rw [BlockFilter.modulo?, Option.filter_eq_some_iff] at hmodulo
      simpa using hmodulo.2
    simp [hmodulo, remainder_eq_zero_iff hne, natCast_isMultiple_iff]

/-- A modulo test accepts nothing but multiples of `m` when its period is one. -/
theorem covered_block_iff {f : BlockFilter} {modulos : List ℚ} :
    Covered lodash modulos entries (.block (some f)) ↔ ∃ m ∈ modulos, m.num ∣ f.period := by
  simp only [Covered, moduloDiffers_eq_false_iff, natCast_isMultiple_iff]
  refine exists_congr fun m => and_congr_right fun _ => ⟨fun h => ?_, fun h x hx => h.trans hx⟩
  have hperiod := h f.period.natAbs (Int.dvd_natAbs.mpr dvd_rfl)
  rwa [Int.dvd_natAbs] at hperiod

/-- **When a dictionary query covers every handler.** Where the result is not empty, it does
exactly if no handler has a kind of its own, and the modulo test of each block handler accepts
nothing but multiples of some modulo that a data source which is not custom asks for. -/
theorem covered_iff (lodash : Lodash) (hlodash : lodash.Documented) (getModulos : GetModulos)
    (hmodulos : getModulos.Documented) (dataSources : List ConcordiumDatasource)
    (entries : List DictionaryQueryEntry)
    (h : buildDictionaryQueryEntries lodash dataSources = .ok entries) (hne : entries ≠ []) :
    (∀ ds ∈ dataSources, ∀ handler ∈ ds.handlers,
        Covered lodash (FetchService.getModulos getModulos dataSources) entries handler) ↔
      ∀ ds ∈ dataSources, ∀ handler ∈ ds.handlers,
        (∀ kind filter, handler ≠ .custom kind filter) ∧
          ∀ f, handler = .block (some f) →
            ∃ ds' ∈ dataSources, isCustomDs ds' = false ∧
              ∃ handler' ∈ ds'.handlers, ∃ m, handler'.modulo? = some m ∧ m.num ∣ f.period := by
  have hblock : ∀ f, Covered lodash (FetchService.getModulos getModulos dataSources) entries
      (.block (some f)) ↔ ∃ ds' ∈ dataSources, isCustomDs ds' = false ∧
        ∃ handler' ∈ ds'.handlers, ∃ m, handler'.modulo? = some m ∧ m.num ∣ f.period := by
    intro f
    simp only [covered_block_iff, FetchService.getModulos, hmodulos _ _ _]
    constructor
    · rintro ⟨m, ⟨ds', hds', hcustom, handler', hhandler', hm⟩, hdvd⟩
      exact ⟨ds', hds', hcustom, handler', hhandler', m, hm, hdvd⟩
    · rintro ⟨ds', hds', hcustom, handler', hhandler', m, hm, hdvd⟩
      exact ⟨m, ⟨ds', hds', hcustom, handler', hhandler', hm⟩, hdvd⟩
  refine forall₂_congr fun ds hds => forall₂_congr fun handler hhandler => ?_
  rcases handler with (_ | f) | ⟨kind, filter⟩ | ⟨kind, filter⟩
  · -- a block handler without a filter makes the result empty
    obtain ⟨_, -, hcollected⟩ := collected_of_build h hne
    obtain ⟨_, hpushed, -⟩ := (collectQueryEntries_eq_some hcollected).2 _
      (List.mem_flatMap.mpr ⟨ds, hds, hhandler⟩)
    cases hpushed
  · rw [hblock]
    simp
  · simp [covered_of_item hlodash h hne hds hhandler]
  · simp [Covered]

/-- `getModulos` as it is documented. -/
def GetModulos.reference : GetModulos := fun dataSources isCustom =>
  (dataSources.filter fun ds => !isCustom ds).flatMap fun ds =>
    ds.handlers.filterMap SubqlHandler.modulo?

theorem GetModulos.reference_documented : GetModulos.reference.Documented := by
  intro dataSources isCustom m
  simp [GetModulos.reference, and_assoc]

/-- A data source with a block handler of some modulo and a handler of account transactions. -/
def moduloDatasource (modulo : Optional ℚ) : ConcordiumDatasource where
  kind := "concordium/Runtime"
  processor := none
  handlers := [.block (some ⟨modulo, .undefined⟩),
    .item .transaction (some ⟨.value "accountTransaction", .undefined⟩)]

def accountTransactionEntries : List DictionaryQueryEntry :=
  [⟨"transactions", [⟨"type", some (.scalar (.str "accountTransaction")), "equalTo"⟩]⟩]

theorem covered_modulo_ten :
    accountTransactionEntries ≠ [] ∧
      ∀ ds ∈ [moduloDatasource (.value 10)], ∀ handler ∈ ds.handlers,
        Covered Lodash.reference
          (FetchService.getModulos GetModulos.reference [moduloDatasource (.value 10)])
          accountTransactionEntries handler := by
  have hne : accountTransactionEntries ≠ [] := by simp [accountTransactionEntries]
  refine ⟨hne, (covered_iff Lodash.reference Lodash.reference_documented GetModulos.reference
    GetModulos.reference_documented [moduloDatasource (.value 10)] accountTransactionEntries
    rfl hne).mpr ?_⟩
  intro ds hds handler hhandler
  obtain rfl := List.mem_singleton.mp hds
  rcases List.mem_cons.mp hhandler with rfl | hhandler
  · refine ⟨by simp, ?_⟩
    rintro f ⟨⟩
    exact ⟨_, List.mem_cons_self, rfl, _, List.mem_cons_self, 10, rfl, dvd_rfl⟩
  · obtain rfl := List.mem_singleton.mp hhandler
    exact ⟨by simp, by simp⟩

/-- A block handler with modulo 0 accepts every block, and no block is fetched for it. -/
theorem not_covered_modulo_zero :
    ∃ entries, buildDictionaryQueryEntries Lodash.reference [moduloDatasource (.value 0)] =
        .ok entries ∧ entries ≠ [] ∧
      ¬ ∀ ds ∈ [moduloDatasource (.value 0)], ∀ handler ∈ ds.handlers,
        Covered Lodash.reference
          (FetchService.getModulos GetModulos.reference [moduloDatasource (.value 0)])
          entries handler := by
  refine ⟨accountTransactionEntries, rfl, by simp [accountTransactionEntries], fun h => ?_⟩
  obtain ⟨m, hm, -⟩ := h _ List.mem_cons_self _ List.mem_cons_self
  have hnone :
      FetchService.getModulos GetModulos.reference [moduloDatasource (.value 0)] = [] := rfl
  rw [hnone] at hm
  simp at hm

end

end SubqlConcordium
