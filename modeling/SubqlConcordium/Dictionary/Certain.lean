import SubqlConcordium.Dictionary.Paths

/-!
# Fields that every accepted item holds

A dictionary is trusted with items of any shape: nothing is known of an item but that its filter
accepted it. What can still be said of the item is read off the *certain* fields of the filter,
those that every accepted item is bound to hold as these very texts. For a transaction these are all
the fields that the filter names, since they are compared as texts; for an event, a field of which
may hold an address or a bigint in place of the text, it is the tag alone. A filter *asks for
certain fields* if its query asks for nothing else, and then whatever it accepts meets the query.

## Items and what stands for them

The dictionary has the items as the node returned them, whereas the filters are run on the items as
they were wrapped, with an id and with references put in. `StandsFor` is what the two need to have
in common: the type, and for transactions the fields that are texts.

## Keys and paths

`AsksCertain` compares the nested object of the query with the certain fields, for any lodash at
all. `asksCertain_iff` reads it on the keys: of the keys whose paths start at one name, the last has
to end there, and to give a certain field its text.

## Main definitions

* `ItemKind.certainFields` — the certain fields of a filter
* `AsksCertain` — the query asks for certain fields only
* `StandsFor` — an object that a filter is run on in place of an item

## Main results

* `asksCertain_iff` — the condition on the keys
* `conditions_hold_of_accepts` — what is accepted meets the query
-/

namespace SubqlConcordium

open Js

/-- The fields that an item of type `s` holds as these strings whenever the filter accepts it. An
event may hold an address or a bigint in place of the string. -/
def ItemKind.certainFields (kind : ItemKind) (s : String) (values : StringMap) :
    List (String × String) :=
  (kind.typeKey, s) :: if kind = .transaction then values.entries else []

def textFields (entries : List (String × String)) : List (String × Json Scalar) :=
  entries.map fun p => (p.1, .scalar (.str p.2))

theorem lookup_textFields {entries : List (String × String)} {k : String} :
    (textFields entries).lookup k = (entries.lookup k).map fun v => .scalar (.str v) :=
  lookup_map_values (fun v => Json.scalar (Scalar.str v)) entries k

/-- The query asks for certain fields only. The filter has a type, which an empty one, skipped by
the runtime filter, must also require among its values; and the values either contradict the type,
or their nested object has nothing but certain fields. -/
def AsksCertain (lodash : Lodash) (kind : ItemKind) (filter : ValuesFilter) : Prop :=
  ∃ s, filter.type = .value s ∧ (s = "" → (kind.typeKey, s) ∈ filter.entries) ∧
    ∀ values, filter.values = .value values →
      (∃ t, (kind.typeKey, t) ∈ values.entries ∧ t ≠ s) ∨
        (nestValues lodash values).containedIn Text.sameAs
          (.obj (textFields (kind.certainFields s values))) = true

section

variable {lodash : Lodash} {toPath : String → List String} {kind : ItemKind}
  {filter : ValuesFilter} {entry : DictionaryQueryEntry}

/-! ### The condition on the keys -/

/-- An object is contained in texts if each of its fields is one of them. -/
theorem containedIn_textFields_iff {fields : List (String × Json Text)}
    (hnodup : (fields.map Prod.fst).Nodup) {texts : List (String × String)} :
    (Json.obj fields).containedIn Text.sameAs (.obj (textFields texts)) = true ↔
      ∀ name j, fields.lookup name = some j →
        ∃ s, texts.lookup name = some s ∧ j = .scalar (.str s) := by
  rw [Json.containedIn_obj_iff]
  constructor
  · rintro ⟨_, ⟨⟩, hall⟩ name j hj
    obtain ⟨x, hx, hin⟩ := hall _ ((lookup_eq_some_iff_mem hnodup).mp hj)
    rw [lookup_textFields, Option.map_eq_some_iff] at hx
    obtain ⟨s, hs, rfl⟩ := hx
    obtain ⟨t, rfl, hsame⟩ := Json.containedIn_scalar_iff.mp hin
    refine ⟨s, hs, ?_⟩
    cases t with
    | null => exact absurd (of_decide_eq_true hsame) nofun
    | str s' =>
      cases of_decide_eq_true hsame
      rfl
  · intro hall
    refine ⟨fields, rfl, fun q hq => ?_⟩
    obtain ⟨s, hs, hj⟩ := hall q.1 q.2 ((lookup_eq_some_iff_mem hnodup).mpr hq)
    refine ⟨.scalar (.str s), by rw [lookup_textFields, hs]; rfl, ?_⟩
    rw [hj]
    exact decide_eq_true rfl

/-- What a filter's values ask for is among some texts, read on the keys: the last key under each
name ends there, and gives it its text. -/
theorem Lodash.SetsPaths.nestValues_containedIn_iff (h : lodash.SetsPaths toPath)
    (values : StringMap) (texts : List (String × String)) :
    (nestValues lodash values).containedIn Text.sameAs (.obj (textFields texts)) = true ↔
      ∀ name p, lastUnder toPath values.entries name = some p →
        toPath p.1 = [name] ∧ texts.lookup name = some p.2 := by
  obtain ⟨fields, hnest, hfields⟩ := h.lookup_nestValues values
  obtain ⟨fields', hnest', hnodup, -⟩ := h.exists_nestValues values
  rw [hnest, Json.obj.injEq] at hnest'
  subst hnest'
  rw [hnest, containedIn_textFields_iff hnodup]
  constructor
  · intro hall name p hlast
    obtain ⟨j, hj, hplain, hdeeper⟩ := (hfields name).2 p hlast
    obtain ⟨s, hs, rfl⟩ := hall name j hj
    have hpath : toPath p.1 = [name] := by_contra fun hne => hdeeper hne _ rfl
    cases hplain hpath
    exact ⟨hpath, hs⟩
  · intro hall name j hj
    cases hlast : lastUnder toPath values.entries name with
    | none =>
      rw [(hfields name).1 hlast] at hj
      cases hj
    | some p =>
      obtain ⟨hpath, hs⟩ := hall name p hlast
      obtain ⟨j', hj', hplain, -⟩ := (hfields name).2 p hlast
      rw [hj', Option.some.injEq] at hj
      exact ⟨p.2, hs, by rw [← hj, hplain hpath]⟩

/-- **The condition on the keys.** The filter has a type, required among its values if it is empty;
and the values either give the type key another text, or the last key under each name ends there and
gives a certain field its text. -/
theorem asksCertain_iff (h : lodash.SetsPaths toPath) :
    AsksCertain lodash kind filter ↔
      ∃ s, filter.type = .value s ∧ (s = "" → (kind.typeKey, s) ∈ filter.entries) ∧
        ∀ values, filter.values = .value values →
          (∃ t, (kind.typeKey, t) ∈ values.entries ∧ t ≠ s) ∨
            ∀ name p, lastUnder toPath values.entries name = some p →
              toPath p.1 = [name] ∧ (kind.certainFields s values).lookup name = some p.2 := by
  simp only [AsksCertain, h.nestValues_containedIn_iff]

/-! ### What stands for an item -/

/-- An object that the filter is run on in place of an item: its type is the item's, and where it
holds a string, the item of a transaction filter holds it too. -/
def StandsFor (kind : ItemKind) (o : Obj) (item : Item kind) : Prop :=
  o.prop kind.typeKey = .str item.type ∧
    (kind = .transaction → ∀ k v, o.prop k = .str v → item.fields.lookup k = some (.str v))

theorem type_of_accepts {o : Obj} {item : Item kind} {s : String} (ho : StandsFor kind o item)
    (haccepts : kind.accepts o filter = .ok true) (htype : filter.type = .value s)
    (hempty : s = "" → (kind.typeKey, s) ∈ filter.entries) : item.type = s := by
  obtain ⟨hdiffers, hagrees⟩ := accepts_iff.mp haccepts
  rw [ho.1] at hdiffers
  by_cases hs : s = ""
  · have hkey := hagrees _ (hempty hs)
    rw [ho.1] at hkey
    exact agrees_str_iff.mp hkey
  · simpa using typeDiffers_eq_false_iff.mp hdiffers s htype hs

theorem lookup_of_certain {values : StringMap} {o : Obj} {item : Item kind}
    (ho : StandsFor kind o item) (haccepts : kind.accepts o filter = .ok true)
    (hvalues : filter.values = .value values) {k v : String}
    (h : (k, v) ∈ kind.certainFields item.type values) :
    item.fields.lookup k = some (.str v) := by
  rcases List.mem_cons.mp h with heq | hmem
  · cases heq
    exact item.lookup_type
  · split_ifs at hmem with hkind
    · subst hkind
      rw [← filter.entries_of_values hvalues] at hmem
      exact ho.2 rfl k v ((accepts_iff.mp haccepts).2 (k, v) hmem)
    · simp at hmem

/-- **What is accepted meets the query**, if it asks for certain fields only: the row of an item
meets all conditions if an object that stands for it is accepted. -/
theorem conditions_hold_of_accepts (h : kind.toQueryEntry lodash filter = .ok entry)
    (hcertain : AsksCertain lodash kind filter) {o : Obj} {item : Item kind}
    (ho : StandsFor kind o item) (haccepts : kind.accepts o filter = .ok true) :
    ∀ c ∈ entry.conditions, c.Holds item.row := by
  obtain ⟨s, htype, hempty, hdata⟩ := hcertain
  have hs : item.type = s := type_of_accepts ho haccepts htype hempty
  subst hs
  refine (conditions_hold_iff h).mpr ⟨htype, fun values hvalues => ?_⟩
  rcases hdata values hvalues with ⟨t, ht, hne⟩ | hin
  · -- the values contradict the type, so nothing is accepted
    rw [← filter.entries_of_values hvalues] at ht
    have hkey := (accepts_iff.mp haccepts).2 _ ht
    rw [ho.1] at hkey
    exact absurd (agrees_str_iff.mp hkey).symm hne
  · refine Json.containedIn_obj_of_lookup hin fun k x hx => ?_
    rw [lookup_textFields, Option.map_eq_some_iff] at hx
    obtain ⟨v, hv, rfl⟩ := hx
    obtain ⟨l₁, l₂, hl, -⟩ := List.lookup_eq_some_iff.mp hv
    have hmem : (k, v) ∈ kind.certainFields item.type values := by rw [hl]; simp
    exact Value.lookup_fieldsToJson (lookup_of_certain ho haccepts hvalues hmem) rfl

end

end SubqlConcordium
