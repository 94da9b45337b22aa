import SubqlConcordium.Dictionary.Paths

/-!
# Which filters are translated soundly

The indexer skips every block in which the dictionary finds nothing, so a query entry must be no
stricter than the runtime filter it comes from: an item that the filter accepts has to meet the
query. This module says for which filters that is so.

## The shape of items

Whether a filter is translated soundly depends on what its fields may hold. A text is compared
alike on both sides; an address is not, since the runtime filter unwraps it and the dictionary
stores it as an object; a bigint is for some texts and not for others. So the items are given by a
table: for each type, or tag, which fields an item has and what each may hold. The table comes from
the SDK and is a parameter. A type of the SDK that is a union is several entries of the table, one
for each alternative, and a field that may be missing is one that may hold `undefined`.

## The condition

A value *coerces to* a text if the event filters take it for that text without it being the text.
What goes wrong is always the same: the filter lets an item of some type through, and one of the
fields it names may hold a value that coerces to the given text and is stored as something else. The
only values that coerce to a text and are stored as it are the bigints that print as it. Where no
item of a type can pass, because a key names no field of it or because the type is asked for twice
and differently, nothing can go wrong; and for transactions, whose filter compares texts only,
nothing but the type matters.

## Main definitions

* `FieldType`, `ItemType` — the table of items
* `QuerySound` — an accepted item meets the query
* `Coerces`, `FieldType.Exact` — values that are taken for a text
* `ItemType.MayPass` — the filter lets some item of the type through
* `Translatable` — the condition on the filter

## Main results

* `querySound_iff` — the condition is exact
* `querySound_updated_iff` — what it comes to for filters on updates
* `FieldType.exact_text`, `exact_amount_iff`, `exact_contract_iff`, `exact_account_iff`,
  `exact_taggedContract_iff`, `exact_union_iff` — what it says for the fields of the SDK
-/

namespace SubqlConcordium

open Js

/-! ### The table of items -/

/-- What a field may hold. -/
structure FieldType where
  Holds : Value → Prop
  inhabited : ∃ v, Holds v

/-- An item type of the SDK: its type or tag, and its other fields. -/
structure ItemType (kind : ItemKind) where
  type : String
  fields : List (String × FieldType)
  nodup : (fields.map Prod.fst).Nodup
  names : ∀ p ∈ fields, p.1 ≠ kind.typeKey ∧ IsName p.1

/-- An item of the type: it has no other fields, and each holds what it may. -/
structure ItemType.Allows {kind : ItemKind} (itemType : ItemType kind) (item : Item kind) :
    Prop where
  type_eq : item.type = itemType.type
  declared : ∀ k v, item.fields.lookup k = some v → k = kind.typeKey ∨
    ∃ fieldType, itemType.fields.lookup k = some fieldType ∧ fieldType.Holds v
  present : ∀ k fieldType, itemType.fields.lookup k = some fieldType →
    item.fields.lookup k = none → fieldType.Holds .undefined

/-- **The query is no stricter than the filter.** Every item of the table that the runtime filter
accepts meets all conditions of the query entry. -/
def QuerySound {kind : ItemKind} (itemTypes : Set (ItemType kind)) (filter : ValuesFilter)
    (entry : DictionaryQueryEntry) : Prop :=
  ∀ itemType ∈ itemTypes, ∀ item, itemType.Allows item →
    kind.accepts item.fields filter = .ok true → ∀ c ∈ entry.conditions, c.Holds item.row

/-! ### The condition -/

/-- The event filters take the value for the text: an account by its address, a contract by its
index, wrapped or not, and a bigint by what the text denotes. -/
def Coerces (v : Value) (t : String) : Prop :=
  IsAccount v t ∨ (IsContract v ∧ HasIndex v t) ∨
    (IsTagged v ∧ IsContract (v.field "address") ∧ HasIndex (v.field "address") t) ∨
      ∃ n, stringToBigInt t = some n ∧ v = .bigint n

/-- Some value that the field may hold passes for the text. -/
def FieldType.Meets (fieldType : FieldType) (kind : ItemKind) (t : String) : Prop :=
  ∃ v, fieldType.Holds v ∧ (v = .str t ∨ kind ≠ .transaction ∧ Coerces v t)

/-- Whatever the field may hold that coerces to the text is a bigint that prints as it. -/
def FieldType.Exact (fieldType : FieldType) (t : String) : Prop :=
  ∀ v, fieldType.Holds v → Coerces v t → ∃ n : ℤ, v = .bigint n ∧ toString n = t

/-- The filter lets some item of the type through: it asks for no other type, and each key is the
one of the type, given the type once more, or a field that may hold what passes for the text. -/
def ItemType.MayPass {kind : ItemKind} (itemType : ItemType kind) (filter : ValuesFilter) : Prop :=
  (∀ s, filter.type = .value s → s ≠ "" → itemType.type = s) ∧
    ∀ p ∈ filter.entries, (p.1 = kind.typeKey ∧ p.2 = itemType.type) ∨
      ∃ fieldType, itemType.fields.lookup p.1 = some fieldType ∧ fieldType.Meets kind p.2

/-- The condition for a sound translation: a filter that lets items of some type through has that
very type, and each field of an event that it names holds its text, if anything that passes for
it. -/
def Translatable {kind : ItemKind} (itemTypes : Set (ItemType kind)) (filter : ValuesFilter) :
    Prop :=
  ∀ itemType ∈ itemTypes, itemType.MayPass filter →
    filter.type = .value itemType.type ∧
      (kind ≠ .transaction → ∀ p ∈ filter.entries, ∀ fieldType,
        itemType.fields.lookup p.1 = some fieldType → fieldType.Exact p.2)

/-! ### Values that pass for a text -/

section

variable {v : Value} {t : String} {kind : ItemKind}

theorem equalsValue_eq_true_iff_coerces :
    equalsValue v t = .ok true ↔ v = .str t ∨ Coerces v t := by
  rw [equalsValue_eq_true_iff, ← some_helper_iff, str_strictEq_iff,
    equalsAddressAccount_eq_true_iff, equalsContractAddress_eq_true_iff, equalsAddress_eq_true_iff,
    equalsBigInt_eq_true_iff_stringToBigInt, Coerces]
  constructor
  · rintro (h | ⟨-, h⟩ | ⟨-, h⟩ | ⟨htagged, h | h⟩ | h)
    · exact .inl h
    · exact .inr (.inl h)
    · exact .inr (.inr (.inl h))
    · exact .inr (.inl h)
    · exact .inr (.inr (.inr (.inl ⟨htagged, h⟩)))
    · exact .inr (.inr (.inr (.inr h)))
  · rintro (h | h | h | ⟨htagged, h⟩ | h)
    · exact .inl h
    · exact .inr (.inl ⟨h.defined, h⟩)
    · exact .inr (.inr (.inl ⟨h.1.defined, h⟩))
    · exact .inr (.inr (.inr (.inl ⟨htagged, .inr h⟩)))
    · exact .inr (.inr (.inr (.inr h)))

theorem agrees_iff : kind.Agrees v t ↔ v = .str t ∨ (kind ≠ .transaction ∧ Coerces v t) := by
  cases kind with
  | transaction => simp [ItemKind.Agrees]
  | transactionEvent => simpa [ItemKind.Agrees] using equalsValue_eq_true_iff_coerces
  | specialEvent => simpa [ItemKind.Agrees] using equalsValue_eq_true_iff_coerces

/-- Of the values that coerce to a text, the bigints that print as it are stored as it. -/
theorem toJson_of_coerces (h : Coerces v t) :
    v.toJson = some (.scalar (.str t)) ↔ ∃ n : ℤ, v = .bigint n ∧ toString n = t := by
  have hobj : v.field "type" ≠ .undefined ∨ v.field "index" ≠ .undefined ∨
      ∃ n, v = .bigint n := by
    rcases h with h | ⟨h, -⟩ | ⟨h | h, -⟩ | ⟨n, -, h⟩
    · exact .inl (by simp [h.1])
    · refine .inr (.inl fun hindex => ?_)
      rw [IsContract, hindex] at h
      exact absurd h.1 (by simp [Value.typeof])
    · exact .inl (by simp [h])
    · exact .inl (by simp [h])
    · exact .inr (.inr ⟨n, h⟩)
  cases v <;> simp_all [Value.field, Value.toJson]

end

/-! ### Items that pass -/

section

variable {lodash : Lodash} {kind : ItemKind} {itemTypes : Set (ItemType kind)}
  {itemType : ItemType kind} {item : Item kind} {filter : ValuesFilter}
  {entry : DictionaryQueryEntry} {k t : String}

theorem ItemType.ne_typeKey {fieldType : FieldType}
    (h : itemType.fields.lookup k = some fieldType) : k ≠ kind.typeKey ∧ IsName k :=
  itemType.names _ ((lookup_eq_some_iff_mem itemType.nodup).mp h)

theorem isName_typeKey : IsName kind.typeKey := by
  cases kind <;> exact ⟨by simp [ItemKind.typeKey], by decide⟩

theorem ItemType.Allows.exists_field (hallows : itemType.Allows item)
    (haccepts : kind.accepts item.fields filter = .ok true) (hmem : (k, t) ∈ filter.entries) :
    (k = kind.typeKey ∧ t = item.type) ∨
      ∃ fieldType v, itemType.fields.lookup k = some fieldType ∧ item.fields.lookup k = some v ∧
        fieldType.Holds v ∧ kind.Agrees v t := by
  have hagrees := (accepts_iff.mp haccepts).2 _ hmem
  cases hlookup : item.fields.lookup k with
  | none => exact absurd hagrees (not_agrees_of_missing hlookup)
  | some v =>
    rw [Obj.prop_of_lookup hlookup] at hagrees
    rcases hallows.declared k v hlookup with rfl | ⟨fieldType, hfield, hholds⟩
    · rw [item.lookup_type] at hlookup
      cases hlookup
      exact .inl ⟨rfl, (agrees_str_iff.mp hagrees).symm⟩
    · exact .inr ⟨fieldType, v, hfield, rfl, hholds, hagrees⟩

/-- **A filter that accepts an item of a type lets the type through.** -/
theorem ItemType.Allows.mayPass (hallows : itemType.Allows item)
    (haccepts : kind.accepts item.fields filter = .ok true) : itemType.MayPass filter := by
  refine ⟨fun s hs hne => ?_, fun p hp => ?_⟩
  · have htype := typeDiffers_eq_false_iff.mp (accepts_iff.mp haccepts).1 s hs hne
    rw [Obj.prop_of_lookup item.lookup_type, Value.str.injEq, hallows.type_eq] at htype
    exact htype
  · rcases hallows.exists_field haccepts hp with
      ⟨hkey, hvalue⟩ | ⟨fieldType, v, hfield, -, hv, hagrees⟩
    · exact .inl ⟨hkey, hvalue.trans hallows.type_eq⟩
    · exact .inr ⟨fieldType, hfield, v, hv, agrees_iff.mp hagrees⟩

theorem ItemType.MayPass.isName (h : itemType.MayPass filter) {p : String × String}
    (hp : p ∈ filter.entries) : IsName p.1 := by
  rcases h.2 p hp with ⟨hkey, -⟩ | ⟨fieldType, hfield, -⟩
  · rw [hkey]
    exact isName_typeKey
  · exact (itemType.ne_typeKey hfield).2

/-! ### Rows that meet the query -/

/-- An item contains texts under some keys if its fields there are stored as these texts. -/
theorem plainFields_containedIn_iff {entries : List (String × String)} :
    (Json.obj (plainFields entries)).containedIn Text.sameAs item.row.data = true ↔
      ∀ p ∈ entries, ∃ v, item.fields.lookup p.1 = some v ∧
        v.toJson = some (.scalar (.str p.2)) := by
  have hstored : ∀ k s, (∃ x, (Value.fieldsToJson item.fields).lookup k = some x ∧
      (Json.scalar (Text.str s)).containedIn Text.sameAs x = true) ↔
        ∃ v, item.fields.lookup k = some v ∧ v.toJson = some (.scalar (.str s)) := by
    intro k s
    constructor
    · rintro ⟨x, hx, hin⟩
      obtain ⟨v, hv, hj⟩ := Value.exists_mem_of_lookup_fieldsToJson hx
      refine ⟨v, (lookup_eq_some_iff_mem item.nodup).mpr hv, ?_⟩
      cases x with
      | scalar stored =>
        have hsame : Scalar.str s = stored := of_decide_eq_true hin
        rw [hj, hsame]
      | _ => simp [Json.containedIn] at hin
    · rintro ⟨v, hv, hj⟩
      exact ⟨_, Value.lookup_fieldsToJson hv hj, by simp [Json.containedIn, Text.sameAs,
        Text.toScalar]⟩
  rw [Item.row, Json.containedIn_obj_iff]
  constructor
  · rintro ⟨_, ⟨⟩, hall⟩ p hp
    exact (hstored _ _).mp (hall _ (List.mem_map_of_mem hp))
  · intro hall
    refine ⟨_, rfl, fun q hq => ?_⟩
    obtain ⟨p, hp, rfl⟩ := List.mem_map.mp hq
    exact (hstored _ _).mpr (hall p hp)

/-- A filter that lets a type through asks of a row that the named fields are stored as its
texts. -/
theorem ItemType.MayPass.conditions_hold_iff (hpass : itemType.MayPass filter)
    (hlodash : lodash.SetsFields) (h : kind.toQueryEntry lodash filter = .ok entry) :
    (∀ c ∈ entry.conditions, c.Holds item.row) ↔
      filter.type = .value item.type ∧ ∀ p ∈ filter.entries,
        ∃ v, item.fields.lookup p.1 = some v ∧ v.toJson = some (.scalar (.str p.2)) := by
  rw [SubqlConcordium.conditions_hold_iff h]
  refine and_congr Iff.rfl ?_
  cases hvalues : filter.values with
  | value values =>
    have hentries := filter.entries_of_values hvalues
    rw [hentries]
    simp only [Optional.value.injEq, forall_eq']
    rw [hlodash.nestValues_of_names fun p hp => hpass.isName (hentries ▸ hp),
      plainFields_containedIn_iff]
  | undefined => simp [ValuesFilter.entries, hvalues]
  | null => simp [ValuesFilter.entries, hvalues]

/-- **Soundness**, for a translatable filter. -/
theorem querySound_of_translatable (hlodash : lodash.SetsFields)
    (h : kind.toQueryEntry lodash filter = .ok entry) (htrans : Translatable itemTypes filter) :
    QuerySound itemTypes filter entry := by
  intro itemType hmem item hallows haccepts
  have hpass := hallows.mayPass haccepts
  obtain ⟨htype, hexact⟩ := htrans itemType hmem hpass
  refine (hpass.conditions_hold_iff hlodash h).mpr ⟨by rw [htype, hallows.type_eq], ?_⟩
  rintro ⟨k, t⟩ hp
  rcases hallows.exists_field haccepts hp with
    ⟨rfl, rfl⟩ | ⟨fieldType, v, hfield, hv, hholds, hagrees⟩
  · exact ⟨_, item.lookup_type, rfl⟩
  · refine ⟨v, hv, ?_⟩
    rcases agrees_iff.mp hagrees with rfl | ⟨hkind, hcoerces⟩
    · rfl
    · exact (toJson_of_coerces hcoerces).mpr (hexact hkind _ hp fieldType hfield v hholds hcoerces)

/-! ### Items made for a filter -/

/-- An item of the type, with these values in its fields. -/
def ItemType.make (itemType : ItemType kind) (value : String → Value) : Item kind where
  fields := (kind.typeKey, .str itemType.type) :: itemType.fields.map fun p => (p.1, value p.1)
  nodup := by
    simp only [List.map_cons, List.map_map, List.nodup_cons, Function.comp_def]
    refine ⟨fun hmem => ?_, itemType.nodup⟩
    obtain ⟨p, hp, hkey⟩ := List.mem_map.mp hmem
    exact (itemType.names p hp).1 hkey
  type := itemType.type
  lookup_type := by simp

theorem ItemType.lookup_make {value : String → Value} (hk : k ≠ kind.typeKey) :
    (itemType.make value).fields.lookup k = (itemType.fields.lookup k).map fun _ => value k := by
  rw [ItemType.make, List.lookup_cons, beq_false_of_ne hk]
  induction itemType.fields with
  | nil => rfl
  | cons p fields ih =>
    rw [List.map_cons, List.lookup_cons, List.lookup_cons]
    by_cases hname : k = p.1
    · simp [hname]
    · rw [beq_false_of_ne hname]
      exact ih

theorem ItemType.allows_make {value : String → Value}
    (hholds : ∀ k fieldType, itemType.fields.lookup k = some fieldType →
      fieldType.Holds (value k)) :
    itemType.Allows (itemType.make value) where
  type_eq := rfl
  declared k v hv := by
    by_cases hk : k = kind.typeKey
    · exact .inl hk
    · rw [itemType.lookup_make hk, Option.map_eq_some_iff] at hv
      obtain ⟨fieldType, hfield, rfl⟩ := hv
      exact .inr ⟨fieldType, hfield, hholds k fieldType hfield⟩
  present k fieldType hfield hnone := by
    rw [itemType.lookup_make (itemType.ne_typeKey hfield).1, hfield] at hnone
    cases hnone

theorem ItemType.MayPass.accepts_make (hpass : itemType.MayPass filter) {value : String → Value}
    (hagrees : ∀ k t, (k, t) ∈ filter.entries → (itemType.fields.lookup k).isSome →
      kind.Agrees (value k) t) :
    kind.accepts (itemType.make value).fields filter = .ok true := by
  refine accepts_iff.mpr ⟨?_, ?_⟩
  · rw [Obj.prop_of_lookup (itemType.make value).lookup_type, typeDiffers_eq_false_iff]
    intro s hs hne
    exact congrArg Value.str (hpass.1 s hs hne)
  · rintro ⟨k, t⟩ hp
    rcases hpass.2 _ hp with ⟨rfl, rfl⟩ | ⟨fieldType, hfield, -⟩
    · rw [Obj.prop_of_lookup (itemType.make value).lookup_type]
      exact agrees_str_iff.mpr rfl
    · have hlookup : (itemType.make value).fields.lookup k = _ :=
        itemType.lookup_make (itemType.ne_typeKey hfield).1
      rw [hfield] at hlookup
      rw [Obj.prop_of_lookup hlookup]
      exact hagrees k t hp (by rw [hfield]; rfl)

theorem ItemType.MayPass.exists_values (hpass : itemType.MayPass filter) :
    ∃ value : String → Value, ∀ k fieldType, itemType.fields.lookup k = some fieldType →
      fieldType.Holds (value k) ∧ ∀ t, (k, t) ∈ filter.entries → kind.Agrees (value k) t := by
  have hvalue : ∀ k, ∃ v, ∀ fieldType, itemType.fields.lookup k = some fieldType →
      fieldType.Holds v ∧ ∀ t, (k, t) ∈ filter.entries → kind.Agrees v t := by
    intro k
    cases hfield : itemType.fields.lookup k with
    | none => exact ⟨.undefined, nofun⟩
    | some fieldType =>
      cases hentry : filter.entries.lookup k with
      | none =>
        obtain ⟨v, hv⟩ := fieldType.inhabited
        refine ⟨v, ?_⟩
        rintro _ ⟨⟩
        refine ⟨hv, fun t ht => ?_⟩
        rw [(lookup_eq_some_iff_mem filter.entries_nodup).mpr ht] at hentry
        cases hentry
      | some t =>
        have hmem := (lookup_eq_some_iff_mem filter.entries_nodup).mp hentry
        rcases hpass.2 _ hmem with ⟨hkey, -⟩ | ⟨fieldType', hfield', v, hv, hmeets⟩
        · exact absurd hkey (itemType.ne_typeKey hfield).1
        · rw [hfield, Option.some.injEq] at hfield'
          subst hfield'
          refine ⟨v, ?_⟩
          rintro _ ⟨⟩
          refine ⟨hv, fun t' ht' => ?_⟩
          rw [(lookup_eq_some_iff_mem filter.entries_nodup).mpr ht', Option.some.injEq] at hentry
          rw [hentry]
          exact agrees_iff.mpr hmeets
  choose value hvalue using hvalue
  exact ⟨value, hvalue⟩

theorem QuerySound.made (hsound : QuerySound itemTypes filter entry)
    (hlodash : lodash.SetsFields) (h : kind.toQueryEntry lodash filter = .ok entry)
    (hmem : itemType ∈ itemTypes) (hpass : itemType.MayPass filter) {value : String → Value}
    (hvalue : ∀ k fieldType, itemType.fields.lookup k = some fieldType →
      fieldType.Holds (value k) ∧ ∀ t, (k, t) ∈ filter.entries → kind.Agrees (value k) t) :
    filter.type = .value itemType.type ∧ ∀ k t fieldType, (k, t) ∈ filter.entries →
      itemType.fields.lookup k = some fieldType →
        (value k).toJson = some (.scalar (.str t)) := by
  have haccepts := hpass.accepts_make fun k t hp hsome => by
    obtain ⟨fieldType, hfield⟩ := Option.isSome_iff_exists.mp hsome
    exact (hvalue k fieldType hfield).2 t hp
  obtain ⟨htype, hfields⟩ := (hpass.conditions_hold_iff hlodash h).mp (hsound itemType hmem _
    (itemType.allows_make fun k fieldType hfield => (hvalue k fieldType hfield).1) haccepts)
  refine ⟨htype, fun k t fieldType hp hfield => ?_⟩
  obtain ⟨v, hv, hj⟩ := hfields _ hp
  rw [itemType.lookup_make (itemType.ne_typeKey hfield).1, hfield] at hv
  cases hv
  exact hj

/-- **Which filters are translated soundly.** Exactly those that have the type of the items they let
through, and name no field that may hold something else in place of its text. -/
theorem querySound_iff (lodash : Lodash) (hlodash : lodash.SetsFields) (kind : ItemKind)
    (itemTypes : Set (ItemType kind)) (filter : ValuesFilter) (entry : DictionaryQueryEntry)
    (h : kind.toQueryEntry lodash filter = .ok entry) :
    QuerySound itemTypes filter entry ↔ Translatable itemTypes filter := by
  refine ⟨fun hsound itemType hmem hpass => ?_, querySound_of_translatable hlodash h⟩
  obtain ⟨value, hvalue⟩ := hpass.exists_values
  refine ⟨(hsound.made hlodash h hmem hpass hvalue).1, ?_⟩
  rintro hkind ⟨k, t⟩ hp fieldType hfield v hv hcoerces
  -- the same item, but with the value in question in the field
  have hupdated : ∀ k' fieldType', itemType.fields.lookup k' = some fieldType' →
      fieldType'.Holds (Function.update value k v k') ∧
        ∀ t', (k', t') ∈ filter.entries → kind.Agrees (Function.update value k v k') t' := by
    intro k' fieldType' hfield'
    by_cases hk : k' = k
    · subst hk
      rw [hfield, Option.some.injEq] at hfield'
      subst hfield'
      rw [Function.update_self]
      refine ⟨hv, fun t' ht' => ?_⟩
      have hlookup := (lookup_eq_some_iff_mem filter.entries_nodup).mpr hp
      rw [(lookup_eq_some_iff_mem filter.entries_nodup).mpr ht', Option.some.injEq] at hlookup
      rw [hlookup]
      exact agrees_iff.mpr (.inr ⟨hkind, hcoerces⟩)
    · rw [Function.update_of_ne hk]
      exact hvalue k' fieldType' hfield'
  have hstored := (hsound.made hlodash h hmem hpass hupdated).2 k t fieldType hp hfield
  rw [Function.update_self] at hstored
  exact (toJson_of_coerces hcoerces).mp hstored

/-- Of a filter with a type, only the items of that type matter. -/
theorem translatable_of_type {s : String} (htype : filter.type = .value s) (hne : s ≠ "")
    (hexact : ∀ itemType ∈ itemTypes, itemType.type = s → ∀ p ∈ filter.entries, ∀ fieldType,
      itemType.fields.lookup p.1 = some fieldType → fieldType.Exact p.2) :
    Translatable itemTypes filter := by
  intro itemType hmem hpass
  have hs := hpass.1 s htype hne
  exact ⟨by rw [htype, hs], fun _ => hexact itemType hmem hs⟩

end

/-! ### The fields of the SDK -/

namespace FieldType

variable {t : String}

def text : FieldType := ⟨fun v => ∃ s, v = .str s, _, "", rfl⟩

/-- An amount, or any other bigint that is not negative. -/
def amount : FieldType := ⟨fun v => ∃ n : ℕ, v = .bigint n, _, 0, rfl⟩

/-- A small number. -/
def number : FieldType := ⟨fun v => ∃ x, v = .num x, _, 0, rfl⟩

def list : FieldType := ⟨fun v => ∃ xs, v = .arr xs, _, [], rfl⟩

def contract : FieldType :=
  ⟨fun v => ∃ index subindex : ℕ, v = contractAddress index subindex, _, 0, 0, rfl⟩

/-- A contract address that is tagged as one. -/
def taggedContract : FieldType :=
  ⟨fun v => ∃ index subindex : ℕ,
    v = .obj [("type", .str "AddressContract"), ("address", contractAddress index subindex)],
    _, 0, 0, rfl⟩

/-- An account address that is tagged as one, with an address of some form. -/
def account (IsAddress : String → Prop) (h : ∃ a, IsAddress a) : FieldType :=
  ⟨fun v => ∃ a, IsAddress a ∧ v = accountAddress a, _, h.choose, h.choose_spec, rfl⟩

/-- What is of one of two types. -/
def union (left right : FieldType) : FieldType :=
  ⟨fun v => left.Holds v ∨ right.Holds v, _, .inl left.inhabited.choose_spec⟩

/-- Nothing but objects and bigints coerces to a text. -/
theorem exact_of_opaque {fieldType : FieldType}
    (h : ∀ v, fieldType.Holds v → (∀ k, v.field k = .undefined) ∧ ∀ n, v ≠ .bigint n) :
    fieldType.Exact t := by
  intro v hv hcoerces
  obtain ⟨hfield, hbigint⟩ := h v hv
  rcases hcoerces with hc | ⟨hc, -⟩ | ⟨hc | hc, -⟩ | ⟨n, -, hc⟩
  · simp [IsAccount, hfield] at hc
  · simp [IsContract, hfield, Value.typeof] at hc
  · simp [hfield] at hc
  · simp [hfield] at hc
  · exact absurd hc (hbigint n)

/-- **A text is exact.** -/
theorem exact_text : text.Exact t :=
  exact_of_opaque <| by
    rintro _ ⟨s, rfl⟩
    exact ⟨fun _ => rfl, nofun⟩

theorem exact_number : number.Exact t :=
  exact_of_opaque <| by
    rintro _ ⟨x, rfl⟩
    exact ⟨fun _ => rfl, nofun⟩

theorem exact_list : list.Exact t :=
  exact_of_opaque <| by
    rintro _ ⟨xs, rfl⟩
    exact ⟨fun _ => rfl, nofun⟩

/-- **An amount is exact** for a text that is no numeral, or the one that prints as the amount. -/
theorem exact_amount_iff :
    amount.Exact t ↔ ∀ n : ℕ, stringToBigInt t = some (n : ℤ) → toString n = t := by
  constructor
  · intro h n hn
    obtain ⟨m, hm, hprint⟩ := h (.bigint n) ⟨n, rfl⟩ (.inr (.inr (.inr ⟨n, hn, rfl⟩)))
    cases hm
    exact hprint
  · rintro h _ ⟨n, rfl⟩ hcoerces
    refine ⟨n, rfl, ?_⟩
    rcases hcoerces with hc | ⟨hc, -⟩ | ⟨hc | hc, -⟩ | ⟨m, hm, hc⟩
    · simp [IsAccount, Value.field] at hc
    · simp [IsContract, Value.field, Value.typeof] at hc
    · simp [Value.field] at hc
    · simp [Value.field] at hc
    · cases hc
      exact h n hm

/-- **A contract is exact** for a text that is no index. -/
theorem exact_contract_iff :
    contract.Exact t ↔ ∀ n : ℕ, stringToBigInt t ≠ some (n : ℤ) := by
  constructor
  · intro h n hn
    obtain ⟨m, hm, -⟩ := h _ ⟨n, 0, rfl⟩ (.inr (.inl ⟨⟨rfl, rfl⟩, n, hn, rfl⟩))
    cases hm
  · rintro h _ ⟨index, subindex, rfl⟩ hcoerces
    have htype : (contractAddress index subindex).field "type" = .undefined := rfl
    rcases hcoerces with ⟨hc, -⟩ | ⟨-, n, hn, hc⟩ | ⟨hc | hc, -⟩ | ⟨m, -, hc⟩
    · cases htype.symm.trans hc
    · cases hc
      exact absurd hn (h index)
    · cases htype.symm.trans hc
    · cases htype.symm.trans hc
    · cases hc

/-- **An account is never exact** for an address. -/
theorem exact_account_iff {IsAddress : String → Prop} {h : ∃ a, IsAddress a} :
    (account IsAddress h).Exact t ↔ ¬ IsAddress t := by
  constructor
  · intro hexact ht
    obtain ⟨m, hm, -⟩ := hexact _ ⟨t, ht, rfl⟩ (.inl ⟨rfl, rfl⟩)
    cases hm
  · rintro ht _ ⟨a, ha, rfl⟩ hcoerces
    have hindex : ((accountAddress a).field "index").typeof = "undefined" ∧
        (((accountAddress a).field "address").field "index").typeof = "undefined" := ⟨rfl, rfl⟩
    rcases hcoerces with ⟨-, hc⟩ | ⟨⟨hc, -⟩, -⟩ | ⟨-, ⟨hc, -⟩, -⟩ | ⟨m, -, hc⟩
    · cases hc
      exact absurd ha ht
    · exact absurd (hindex.1.symm.trans hc) (by decide)
    · exact absurd (hindex.2.symm.trans hc) (by decide)
    · cases hc

/-- **A tagged contract is exact** for a text that is no index, either. -/
theorem exact_taggedContract_iff :
    taggedContract.Exact t ↔ ∀ n : ℕ, stringToBigInt t ≠ some (n : ℤ) := by
  constructor
  · intro h n hn
    obtain ⟨m, hm, -⟩ :=
      h _ ⟨n, 0, rfl⟩ (.inr (.inr (.inl ⟨.inl rfl, ⟨rfl, rfl⟩, n, hn, rfl⟩)))
    cases hm
  · rintro h _ ⟨index, subindex, rfl⟩ hcoerces
    rcases hcoerces with ⟨hc, -⟩ | ⟨⟨hc, -⟩, -⟩ | ⟨-, -, n, hn, hc⟩ | ⟨m, -, hc⟩
    · exact absurd (Value.str.inj hc) (by decide)
    · exact absurd (show "undefined" = "bigint" from hc) (by decide)
    · cases hc
      exact absurd hn (h index)
    · cases hc

theorem exact_union_iff {left right : FieldType} :
    (left.union right).Exact t ↔ left.Exact t ∧ right.Exact t :=
  ⟨fun h => ⟨fun v hv => h v (.inl hv), fun v hv => h v (.inr hv)⟩,
    fun h v hv => hv.elim (h.1 v) (h.2 v)⟩

end FieldType

/-! ### Some events of the SDK -/

/-- An address: of an account or of a contract, tagged. Which texts are account addresses does not
matter here. -/
def FieldType.address : FieldType :=
  .union (.account (fun _ => True) ⟨"", trivial⟩) .taggedContract

def transferred : ItemType .transactionEvent where
  type := "Transferred"
  fields := [("from", .address), ("amount", .amount), ("to", .address)]
  nodup := by decide
  names := by decide

def contractInitialized : ItemType .transactionEvent where
  type := "ContractInitialized"
  fields := [("contractVersion", .number), ("ref", .text), ("address", .contract),
    ("amount", .amount), ("initName", .text), ("events", .list)]
  nodup := by decide
  names := by decide

def updated : ItemType .transactionEvent where
  type := "Updated"
  fields := [("contractVersion", .number), ("address", .contract),
    ("instigator", .address), ("amount", .amount), ("message", .text),
    ("receiveName", .text), ("events", .list)]
  nodup := by decide
  names := by decide

/-- A table of three tags, with the fields that the SDK gives them. -/
def contractEvents : Set (ItemType .transactionEvent) :=
  {transferred, contractInitialized, updated}

/-- **Filters on updates.** Such a filter is translated soundly exactly if it gives no instigator,
no address by its index, and no amount but as it prints, or if it lets no update through at all. -/
theorem querySound_updated_iff (hlodash : lodash.SetsFields) {values : StringMap}
    (h : ItemKind.transactionEvent.toQueryEntry lodash ⟨.value "Updated", .value values⟩ =
      .ok entry) :
    QuerySound contractEvents ⟨.value "Updated", .value values⟩ entry ↔
      (updated.MayPass ⟨.value "Updated", .value values⟩ → ∀ p ∈ values.entries,
        p.1 ≠ "instigator" ∧
          (p.1 = "address" → ∀ n : ℕ, stringToBigInt p.2 ≠ some (n : ℤ)) ∧
            (p.1 = "amount" → ∀ n : ℕ, stringToBigInt p.2 = some (n : ℤ) → toString n = p.2)) := by
  rw [querySound_iff lodash hlodash _ _ _ _ h]
  constructor
  · intro htrans hpass p hp
    have hexact := (htrans updated (.inr (.inr rfl)) hpass).2 nofun p hp
    refine ⟨fun hk => ?_, fun hk => ?_, fun hk => ?_⟩
    · have haddress := hexact .address (by rw [hk]; rfl)
      exact FieldType.exact_account_iff.mp (FieldType.exact_union_iff.mp haddress).1 trivial
    · exact FieldType.exact_contract_iff.mp (hexact .contract (by rw [hk]; rfl))
    · exact FieldType.exact_amount_iff.mp (hexact .amount (by rw [hk]; rfl))
  · intro hall itemType hmem hpass
    have htype : itemType.type = "Updated" := hpass.1 _ rfl (by decide)
    obtain rfl : itemType = updated := by
      rcases hmem with rfl | rfl | rfl
      · exact absurd htype (by decide)
      · exact absurd htype (by decide)
      · rfl
    refine ⟨rfl, fun _ p hp fieldType hfield => ?_⟩
    obtain ⟨hinstigator, haddress, hamount⟩ := hall hpass p hp
    have hmem := (lookup_eq_some_iff_mem updated.nodup).mp hfield
    simp only [updated, List.mem_cons, Prod.mk.injEq, List.not_mem_nil, or_false] at hmem
    rcases hmem with ⟨-, rfl⟩ | ⟨hk, rfl⟩ | ⟨hk, -⟩ | ⟨hk, rfl⟩ | ⟨-, rfl⟩ | ⟨-, rfl⟩ | ⟨-, rfl⟩
    · exact FieldType.exact_number
    · exact FieldType.exact_contract_iff.mpr (haddress hk)
    · exact absurd hk hinstigator
    · exact FieldType.exact_amount_iff.mpr (hamount hk)
    · exact FieldType.exact_text
    · exact FieldType.exact_text
    · exact FieldType.exact_list

/-- A transfer is found by its amount, and a contract by the name it was initialized with. -/
theorem querySound_amount_initName :
    QuerySound contractEvents
        ⟨.value "Transferred", .value ⟨[("amount", "100")], by decide⟩⟩
        ⟨"txEvents", [⟨"type", some (.scalar (.str "Transferred")), "equalTo"⟩,
          ⟨"data", some (.obj [("amount", .scalar (.str "100"))]), "contains"⟩]⟩ ∧
      QuerySound contractEvents
        ⟨.value "ContractInitialized", .value ⟨[("initName", "init_tag")], by decide⟩⟩
        ⟨"txEvents", [⟨"type", some (.scalar (.str "ContractInitialized")), "equalTo"⟩,
          ⟨"data", some (.obj [("initName", .scalar (.str "init_tag"))]), "contains"⟩]⟩ := by
  refine ⟨(querySound_iff Lodash.dotted Lodash.dotted_setsPaths.setsFields .transactionEvent
      contractEvents _ _ rfl).mpr (translatable_of_type rfl (by decide) ?_),
    (querySound_iff Lodash.dotted Lodash.dotted_setsPaths.setsFields .transactionEvent
      contractEvents _ _ rfl).mpr (translatable_of_type rfl (by decide) ?_)⟩
  · rintro itemType (rfl | rfl | rfl) htype p hp fieldType hfield
    · obtain rfl := List.mem_singleton.mp hp
      cases hfield
      refine FieldType.exact_amount_iff.mpr fun n hn => ?_
      have hread : stringToBigInt "100" = some 100 := by decide
      rw [hread] at hn
      obtain rfl : n = 100 := by exact_mod_cast (Option.some.inj hn).symm
      decide
    · exact absurd htype (by decide)
    · exact absurd htype (by decide)
  · rintro itemType (rfl | rfl | rfl) htype p hp fieldType hfield
    · exact absurd htype (by decide)
    · obtain rfl := List.mem_singleton.mp hp
      cases hfield
      exact FieldType.exact_text
    · exact absurd htype (by decide)

def instigatorFilter : ValuesFilter where
  type := .value "Updated"
  values := .value ⟨[("instigator", "4AuT5RRm")], by decide⟩

theorem updated_allows_updatedEvent : updated.Allows updatedEvent where
  type_eq := rfl
  declared k v hv := by
    have hmem := (lookup_eq_some_iff_mem updatedEvent.nodup).mp hv
    simp only [updatedEvent, List.mem_cons, Prod.mk.injEq, List.not_mem_nil, or_false] at hmem
    rcases hmem with ⟨rfl, rfl⟩ | ⟨rfl, rfl⟩ | ⟨rfl, rfl⟩ | ⟨rfl, rfl⟩ | ⟨rfl, rfl⟩ | ⟨rfl, rfl⟩ |
      ⟨rfl, rfl⟩ | ⟨rfl, rfl⟩
    · exact .inl rfl
    · exact .inr ⟨_, rfl, 1, rfl⟩
    · exact .inr ⟨_, rfl, 6536, 0, rfl⟩
    · exact .inr ⟨_, rfl, .inl ⟨"4AuT5RRm", trivial, rfl⟩⟩
    · exact .inr ⟨_, rfl, 0, rfl⟩
    · exact .inr ⟨_, rfl, "35000000", rfl⟩
    · exact .inr ⟨_, rfl, "Provenance-tag.update_tag_log", rfl⟩
    · exact .inr ⟨_, rfl, [], rfl⟩
  present k fieldType hfield hnone := by
    have hnames : ∀ name ∈ updated.fields.map Prod.fst,
        (updatedEvent.fields.lookup name).isSome = true := by decide
    have hsome := hnames k (mem_keys_iff.mpr ⟨fieldType, hfield⟩)
    rw [hnone] at hsome
    cases hsome

/-- The runtime filter finds the instigator's address in the event, the query does not find it in
the row. -/
theorem not_querySound_instigator :
    ¬ ∀ entry,
      ItemKind.transactionEvent.toQueryEntry Lodash.dotted instigatorFilter = .ok entry →
        QuerySound contractEvents instigatorFilter entry := by
  intro h
  have htranslate :
      ItemKind.transactionEvent.toQueryEntry Lodash.dotted instigatorFilter = .ok _ := rfl
  have hrow := (conditions_hold_iff htranslate).mp
    (h _ htranslate updated (.inr (.inr rfl)) updatedEvent updated_allows_updatedEvent rfl)
  have hin : (Json.obj (plainFields [("instigator", "4AuT5RRm")])).containedIn Text.sameAs
      updatedEvent.row.data = true := hrow.2 _ rfl
  obtain ⟨v, hv, hstored⟩ := plainFields_containedIn_iff.mp hin _ List.mem_cons_self
  cases hv
  cases hstored

end SubqlConcordium
