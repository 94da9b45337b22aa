import SubqlConcordium.Filter

/-!
# Dictionary query entries

A dictionary is asked for the blocks that contain an item some handler wants. Each filter becomes
a query entry, and the indexer skips every block none of whose rows meets an entry. This module has
the translation, the dictionary service as far as it is documented, and what the runtime filters
accept; how the two compare is the subject of the modules above it.

## Two matchers

The two disagree on purpose-built grounds: the runtime filter knows addresses and bigints and takes
keys literally, the query compares JSON and takes keys as paths. Neither is written with the other
in view, so nothing is shared between the two definitions below but the filter.

## Items without a shape

An `Item` is any object with a type under the key of its kind. Where the shape of an item matters,
that is which fields it has and what they may hold, the results say so.

## Main definitions

* `filterToQueryEntry`, `txFilterToQueryEntry`, `txEventFilterToQueryEntry`,
  `speicalEventFilterToQueryEntry` — the translation of a filter
* `Row`, `DictionaryQueryCondition.Holds` — what the dictionary stores, and when it answers
* `ItemKind`, `Item`, `ItemKind.accepts` — the three kinds of items and their runtime filters

## Main results

* `accepts_iff` — what the runtime filters accept
* `conditions_hold_iff` — when a row meets a translated filter
-/

namespace SubqlConcordium

open Js

/-- node-core's `DictionaryQueryCondition`. A missing value is `undefined`. -/
structure DictionaryQueryCondition where
  field : String
  value : Option (Json Text)
  matcher : String

/-- node-core's `DictionaryQueryEntry`. -/
structure DictionaryQueryEntry where
  entity : String
  conditions : List DictionaryQueryCondition

/-- An optional string as the value of a condition. -/
def conditionValue : Optional String → Option (Json Text)
  | .undefined => none
  | .null => some (.scalar .null)
  | .value s => some (.scalar (.str s))

section

variable (lodash : Lodash)

/-- The loop over `Object.keys(filter.values)`: each key is taken as a path. -/
def nestValues (values : StringMap) : Json Text :=
  values.entries.foldl (fun nested p => lodash.setWith nested p.1 (.scalar (.str p.2))) (.obj [])

/-- The body that the three translations share. -/
def filterToQueryEntry (entity : String) (filter : ValuesFilter) :
    Except JsError DictionaryQueryEntry :=
  let typeCondition : DictionaryQueryCondition :=
    ⟨"type", conditionValue filter.type, "equalTo"⟩
  match filter.values with
  | .undefined => .ok ⟨entity, [typeCondition]⟩
  -- only `undefined` is excluded before `Object.keys`
  | .null => .error (typeError "Cannot convert undefined or null to object")
  | .value values =>
    .ok ⟨entity, [typeCondition, ⟨"data", some (nestValues lodash values), "contains"⟩]⟩

def txFilterToQueryEntry : ValuesFilter → Except JsError DictionaryQueryEntry :=
  filterToQueryEntry lodash "transactions"

def txEventFilterToQueryEntry : ValuesFilter → Except JsError DictionaryQueryEntry :=
  filterToQueryEntry lodash "txEvents"

def speicalEventFilterToQueryEntry : ValuesFilter → Except JsError DictionaryQueryEntry :=
  filterToQueryEntry lodash "specialEvents"

end

/-! ### The dictionary service -/

/-- A stored row: the type of a transaction or the tag of an event, and the item as JSON. -/
structure Row where
  type : String
  data : Json Scalar

/-- The stored field of a name. -/
def Row.get? (row : Row) : String → Option (Json Scalar)
  | "type" => some (.scalar (.str row.type))
  | "data" => some row.data
  | _ => none

/-- When a row meets a condition. A missing value meets nothing. -/
def DictionaryQueryCondition.Holds (c : DictionaryQueryCondition) (row : Row) : Prop :=
  ∃ value stored, c.value = some value ∧ row.get? c.field = some stored ∧
    (c.matcher = "equalTo" ∧ value.map Text.toScalar = stored ∨
      c.matcher = "contains" ∧ value.containedIn Text.sameAs stored = true)

/-! ### Items -/

namespace ItemKind

/-- The field that holds the type. -/
def typeKey : ItemKind → String
  | transaction => "type"
  | _ => "tag"

/-- The runtime filter of the kind. -/
def accepts (kind : ItemKind) (item : Obj) (filter : ValuesFilter) : Except JsError Bool :=
  match kind with
  | transaction => .ok (filterTransactionsProcessor item (some filter))
  | transactionEvent => filterTxEventProcessor item (some filter)
  | specialEvent => filterTxEventProcessor item (some filter)

/-- The translation of a filter of the kind. -/
def toQueryEntry (lodash : Lodash) (kind : ItemKind) :
    ValuesFilter → Except JsError DictionaryQueryEntry :=
  match kind with
  | transaction => txFilterToQueryEntry lodash
  | transactionEvent => txEventFilterToQueryEntry lodash
  | specialEvent => speicalEventFilterToQueryEntry lodash

/-- The table of the kind. -/
def entity : ItemKind → String
  | transaction => "transactions"
  | transactionEvent => "txEvents"
  | specialEvent => "specialEvents"

theorem toQueryEntry_eq (lodash : Lodash) (kind : ItemKind) :
    kind.toQueryEntry lodash = filterToQueryEntry lodash kind.entity := by
  cases kind <;> rfl

/-- When the runtime filter is content with a field. -/
def Agrees (kind : ItemKind) (v : Value) (s : String) : Prop :=
  match kind with
  | transaction => v = .str s
  | _ => equalsValue v s = .ok true

end ItemKind

/-- An item of a kind, with its type. -/
structure Item (kind : ItemKind) where
  fields : Obj
  /-- No property occurs twice. -/
  nodup : (fields.map Prod.fst).Nodup
  type : String
  /-- The type is stored under the key of the kind. -/
  lookup_type : fields.lookup kind.typeKey = some (.str type)

/-- The row the dictionary stores for an item. -/
def Item.row {kind : ItemKind} (item : Item kind) : Row :=
  ⟨item.type, .obj (Value.fieldsToJson item.fields)⟩

/-! ### What the runtime filters accept -/

/-- The keys and values of a filter. -/
def ValuesFilter.entries (filter : ValuesFilter) : List (String × String) :=
  match filter.values with
  | .value values => values.entries
  | _ => []

theorem ValuesFilter.entries_of_values (filter : ValuesFilter) {values : StringMap}
    (h : filter.values = .value values) : filter.entries = values.entries := by
  simp [ValuesFilter.entries, h]

theorem ValuesFilter.entries_nodup (filter : ValuesFilter) :
    (filter.entries.map Prod.fst).Nodup := by
  rw [ValuesFilter.entries]
  cases filter.values with
  | value values => exact values.nodup
  | _ => simp

/-- **Acceptance**: the type does not differ, and every named field agrees. -/
theorem accepts_iff {kind : ItemKind} {item : Obj} {filter : ValuesFilter} :
    kind.accepts item filter = .ok true ↔
      typeDiffers (item.prop kind.typeKey) filter = false ∧
        ∀ p ∈ filter.entries, kind.Agrees (item.prop p.1) p.2 := by
  have hevent : filterTxEventProcessor item (some filter) = .ok true ↔
      typeDiffers (item.prop "tag") filter = false ∧
        ∀ p ∈ filter.entries, equalsValue (item.prop p.1) p.2 = .ok true := by
    cases htype : typeDiffers (item.prop "tag") filter <;> cases hvalues : filter.values <;>
      simp [filterTxEventProcessor, ValuesFilter.entries, htype, hvalues,
        filterValuesLoop_eq_true_iff]
  cases kind with
  | transaction =>
    simp only [ItemKind.accepts, ItemKind.typeKey, ItemKind.Agrees]
    cases htype : typeDiffers (item.prop "type") filter <;> cases hvalues : filter.values <;>
      simp [filterTransactionsProcessor, ValuesFilter.entries, htype, hvalues, str_strictEq_iff]
  | transactionEvent => exact hevent
  | specialEvent => exact hevent

theorem agrees_str_iff {kind : ItemKind} {s t : String} : kind.Agrees (.str s) t ↔ s = t := by
  have hevent : equalsValue (.str s) t = .ok true ↔ s = t := by
    have hbigint : equalsBigInt (.str s) t = false := by
      rw [equalsBigInt]
      cases bigIntOfString t <;> rfl
    have h₁ : equalsAddressAccount (.str s) t = .ok false := rfl
    have h₂ : equalsContractAddress (.str s) t = .ok false := rfl
    have h₃ : equalsAddress (.str s) t = .ok false := rfl
    rw [equalsValue]
    simp only [orM_eq_true_iff, h₁, h₂, h₃, hbigint]
    simp [pure, Except.pure, strictEq, eq_comm]
  cases kind with
  | transaction => simp [ItemKind.Agrees]
  | transactionEvent => exact hevent
  | specialEvent => exact hevent

/-- An account address, as the SDK has it. -/
def accountAddress (address : String) : Value :=
  .obj [("type", .str "AddressAccount"), ("address", .str address)]

/-- A contract address, as the SDK has it. -/
def contractAddress (index subindex : ℕ) : Value :=
  .obj [("index", .bigint index), ("subindex", .bigint subindex)]

/-! ### When a row meets the query -/

section

variable {lodash : Lodash} {kind : ItemKind} {filter : ValuesFilter} {entry : DictionaryQueryEntry}
  {row : Row}

theorem holds_type_iff {o : Optional String} :
    (⟨"type", conditionValue o, "equalTo"⟩ : DictionaryQueryCondition).Holds row ↔
      o = .value row.type := by
  cases o <;>
    simp [DictionaryQueryCondition.Holds, conditionValue, Row.get?, Json.map, Text.toScalar]

theorem holds_data_iff {j : Json Text} :
    (⟨"data", some j, "contains"⟩ : DictionaryQueryCondition).Holds row ↔
      j.containedIn Text.sameAs row.data = true := by
  simp [DictionaryQueryCondition.Holds, Row.get?]

theorem conditions_hold_iff (h : kind.toQueryEntry lodash filter = .ok entry) :
    (∀ c ∈ entry.conditions, c.Holds row) ↔
      filter.type = .value row.type ∧ ∀ values, filter.values = .value values →
        (nestValues lodash values).containedIn Text.sameAs row.data = true := by
  rw [ItemKind.toQueryEntry_eq] at h
  rw [filterToQueryEntry] at h
  cases hvalues : filter.values with
  | undefined =>
    rw [hvalues] at h
    cases h
    simp [holds_type_iff]
  | null => simp [hvalues] at h
  | value values =>
    rw [hvalues] at h
    cases h
    simp [holds_type_iff, holds_data_iff]

/-- An update of a contract, instigated by an account. -/
def updatedEvent : Item .transactionEvent where
  fields := [("tag", .str "Updated"), ("contractVersion", .num 1),
    ("address", .obj [("index", .bigint 6536), ("subindex", .bigint 0)]),
    ("instigator", accountAddress "4AuT5RRm"), ("amount", .bigint 0),
    ("message", .str "35000000"), ("receiveName", .str "Provenance-tag.update_tag_log"),
    ("events", .arr [])]
  nodup := by decide
  type := "Updated"
  lookup_type := rfl

end

end SubqlConcordium
