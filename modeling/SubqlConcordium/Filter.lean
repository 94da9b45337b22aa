import SubqlConcordium.Api
import SubqlConcordium.Manifest

/-!
# The runtime filters

Which blocks, transactions and events a handler is run on. The event filter compares a string with
whatever the field holds, by four helpers tried in turn, and each of them reads properties of a
value of unknown shape.

## Exceptions are results

Reading a property of `undefined` or `null` throws, and so does `BigInt` of a string that is no
numeral. Both can happen while a filter is run, and then neither the handler is called nor the block
indexed. So the filters return in `Except`, the connectives evaluate their second operand only where
JavaScript does, and whether a filter returns at all depends on the order in which its values are
listed. `Comparable` says which single comparisons return; for the whole filter the order has to be
quantified over.

## Main definitions

* `filterBlocksProcessor`, `filterTransactionsProcessor`, `filterTxEventProcessor` — the filters
  as they are run
* `Comparable` — the values a string can be compared with

## Main results

* `equalsValue_returns_iff` — comparing returns exactly on comparable values
* `filtersSafely_iff` — when an event filter returns, in any order of its values
-/

namespace SubqlConcordium

open Js

/-- `filter?.modulo && x % filter.modulo !== 0`, for the height as a number. -/
def moduloDiffers (x : ℕ) (filter : Option BlockFilter) : Bool :=
  match filter.bind BlockFilter.modulo? with
  | some modulo => remainder x modulo ≠ 0
  | none => false

def filterBlocksProcessor (filterBlockTimestamp : ℤ → Option BlockFilter → Bool)
    (block : ConcordiumBlock) (filter : Option BlockFilter) : Bool :=
  if moduloDiffers (toNumber block.blockHeight) filter then false
  else if !filterBlockTimestamp block.blockReceiveTime filter then false
  else true

/-- `filter.type && type !== filter.type`. -/
def typeDiffers (type : Value) (filter : ValuesFilter) : Bool :=
  match filter.type with
  | .value s => s ≠ "" && !strictEq type (.str s)
  | _ => false

def filterTransactionsProcessor (transaction : Obj) (filter : Option ValuesFilter) : Bool :=
  match filter with
  | none => true
  | some filter =>
    if typeDiffers (transaction.prop "type") filter then false
    else
      match filter.values with
      | .value values =>
        values.entries.all fun (key, filterValue) =>
          strictEq (.str filterValue) (transaction.prop key)
      | _ => true

theorem typeDiffers_eq_false_iff {v : Value} {filter : ValuesFilter} :
    typeDiffers v filter = false ↔ ∀ s, filter.type = .value s → s ≠ "" → v = .str s := by
  rw [typeDiffers]
  cases filter.type with
  | value s => rw [← Bool.not_eq_true]; simp [strictEq_str_iff]
  | _ => simp

/-! ### Comparing a string with a field -/

def isAddressAccount (t : Value) : Except JsError Bool := do
  return strictEq (← t.member "type") (.str "AddressAccount")

def equalsAddressAccount (t : Value) (address : String) : Except JsError Bool :=
  isAddressAccount t <&&> do return strictEq (← t.member "address") (.str address)

def isContractAddress (t : Value) : Except JsError Bool :=
  (do return (← t.member "index").typeof = "bigint") <&&>
    do return (← t.member "subindex").typeof = "bigint"

def equalsContractAddress (t : Value) (index : String) : Except JsError Bool :=
  isContractAddress t <&&> do
    let i ← t.member "index"
    return strictEq i (.bigint (← bigIntOfString index))

def isAddress (t : Value) : Except JsError Bool :=
  (do return strictEq (← t.member "type") (.str "AddressContract")) <||> isAddressAccount t

def equalsAddress (t : Value) (addressOrIndex : String) : Except JsError Bool := do
  if !(← isAddress t) then return false
  else
    equalsAddressAccount t addressOrIndex <||> do
      equalsContractAddress (← t.member "address") addressOrIndex

/-- `equalsBigInt`. This helper catches the exception of `BigInt`. -/
def equalsBigInt (a : Value) (b : String) : Bool :=
  match bigIntOfString b with
  | .ok n => strictEq a (.bigint n)
  | .error _ => false

/-- The comparison inside the loop of `filterTxEventProcessor`: `filterValue === eventValue`, or
one of the helpers. -/
def equalsValue (eventValue : Value) (filterValue : String) : Except JsError Bool :=
  pure (strictEq (.str filterValue) eventValue) <||>
    equalsAddressAccount eventValue filterValue <||>
    equalsContractAddress eventValue filterValue <||>
    equalsAddress eventValue filterValue <||>
    pure (equalsBigInt eventValue filterValue)

/-- The loop of `filterTxEventProcessor`. -/
def filterValuesLoop (txEvent : Obj) : List (String × String) → Except JsError Bool
  | [] => .ok true
  | (key, filterValue) :: rest => do
    if ← equalsValue (txEvent.prop key) filterValue then filterValuesLoop txEvent rest
    else return false

def filterTxEventProcessor (txEvent : Obj) (filter : Option ValuesFilter) : Except JsError Bool :=
  match filter with
  | none => .ok true
  | some filter =>
    if typeDiffers (txEvent.prop "tag") filter then .ok false
    else
      match filter.values with
      | .value values => filterValuesLoop txEvent values.entries
      | _ => .ok true

/-! ### What the helpers answer -/

/-- `BigInt(s)` is a bigint. -/
def IsNumeral (s : String) : Prop := ∃ n, stringToBigInt s = some n

/-- An account address, with the given address. -/
def IsAccount (t : Value) (address : String) : Prop :=
  t.field "type" = .str "AddressAccount" ∧ t.field "address" = .str address

/-- A contract address: both its indices are bigints. -/
def IsContract (t : Value) : Prop :=
  (t.field "index").typeof = "bigint" ∧ (t.field "subindex").typeof = "bigint"

/-- The index is the one the string denotes. -/
def HasIndex (t : Value) (index : String) : Prop :=
  ∃ n, stringToBigInt index = some n ∧ t.field "index" = .bigint n

/-- An `Address` of the SDK, by its `type`. -/
def IsTagged (t : Value) : Prop :=
  t.field "type" = .str "AddressContract" ∨ t.field "type" = .str "AddressAccount"

variable {t : Value} {s : String}

theorem bigIntOfString_eq_ok_iff {n : ℤ} :
    bigIntOfString s = .ok n ↔ stringToBigInt s = some n := by
  rw [bigIntOfString]
  cases stringToBigInt s <;> simp

theorem member_test_eq_ok_iff {k : String} {p : Value → Bool} {b : Bool} :
    (do return p (← t.member k) : Except JsError Bool) = .ok b ↔
      t.Defined ∧ p (t.field k) = b := by
  simp only [bind_eq_ok_iff, Value.member_eq_ok_iff]
  constructor
  · rintro ⟨w, ⟨ht, rfl⟩, hb⟩
    exact ⟨ht, Except.ok.inj hb⟩
  · rintro ⟨ht, rfl⟩
    exact ⟨_, ⟨ht, rfl⟩, rfl⟩

theorem isAddressAccount_eq_ok_iff {b : Bool} :
    isAddressAccount t = .ok b ↔
      t.Defined ∧ strictEq (t.field "type") (.str "AddressAccount") = b :=
  member_test_eq_ok_iff

theorem equalsAddressAccount_eq_true_iff :
    equalsAddressAccount t s = .ok true ↔ t.Defined ∧ IsAccount t s := by
  rw [equalsAddressAccount, andM_eq_true_iff, isAddressAccount_eq_ok_iff, member_test_eq_ok_iff,
    strictEq_str_iff, strictEq_str_iff, IsAccount]
  tauto

theorem equalsAddressAccount_eq_false_iff :
    equalsAddressAccount t s = .ok false ↔ t.Defined ∧ ¬ IsAccount t s := by
  rw [equalsAddressAccount, andM_eq_false_iff, isAddressAccount_eq_ok_iff,
    isAddressAccount_eq_ok_iff, member_test_eq_ok_iff, ← Bool.not_eq_true, ← Bool.not_eq_true,
    strictEq_str_iff, strictEq_str_iff, IsAccount]
  tauto

theorem isContractAddress_eq_true_iff :
    isContractAddress t = .ok true ↔ t.Defined ∧ IsContract t := by
  rw [isContractAddress, andM_eq_true_iff, member_test_eq_ok_iff, member_test_eq_ok_iff,
    decide_eq_true_iff, decide_eq_true_iff, IsContract]
  tauto

theorem isContractAddress_eq_false_iff :
    isContractAddress t = .ok false ↔ t.Defined ∧ ¬ IsContract t := by
  rw [isContractAddress, andM_eq_false_iff, member_test_eq_ok_iff, member_test_eq_ok_iff,
    member_test_eq_ok_iff, decide_eq_true_iff, decide_eq_false_iff_not, decide_eq_false_iff_not,
    IsContract]
  tauto

theorem index_test_eq_ok_iff {b : Bool} :
    (do let i ← t.member "index"
        return strictEq i (.bigint (← bigIntOfString s)) : Except JsError Bool) = .ok b ↔
      t.Defined ∧ ∃ n, stringToBigInt s = some n ∧ strictEq (t.field "index") (.bigint n) = b := by
  simp only [bind_eq_ok_iff, Value.member_eq_ok_iff, bigIntOfString_eq_ok_iff]
  constructor
  · rintro ⟨i, ⟨ht, rfl⟩, n, hn, hb⟩
    exact ⟨ht, n, hn, Except.ok.inj hb⟩
  · rintro ⟨ht, n, hn, rfl⟩
    exact ⟨_, ⟨ht, rfl⟩, n, hn, rfl⟩

theorem equalsContractAddress_eq_true_iff :
    equalsContractAddress t s = .ok true ↔ t.Defined ∧ IsContract t ∧ HasIndex t s := by
  rw [equalsContractAddress, andM_eq_true_iff, isContractAddress_eq_true_iff, index_test_eq_ok_iff]
  simp only [strictEq_bigint_iff, HasIndex]
  tauto

theorem equalsContractAddress_eq_false_iff :
    equalsContractAddress t s = .ok false ↔
      t.Defined ∧ (IsContract t → IsNumeral s ∧ ¬ HasIndex t s) := by
  have hindex : (∃ n, stringToBigInt s = some n ∧ strictEq (t.field "index") (.bigint n) = false) ↔
      IsNumeral s ∧ ¬ HasIndex t s := by
    constructor
    · rintro ⟨n, hn, hne⟩
      refine ⟨⟨n, hn⟩, fun ⟨m, hm, heq⟩ => ?_⟩
      rw [hn] at hm
      cases hm
      rw [strictEq_bigint_iff.mpr heq] at hne
      exact absurd hne (by decide)
    · rintro ⟨⟨n, hn⟩, hne⟩
      refine ⟨n, hn, ?_⟩
      rw [← Bool.not_eq_true, strictEq_bigint_iff]
      exact fun heq => hne ⟨n, hn, heq⟩
  rw [equalsContractAddress, andM_eq_false_iff, isContractAddress_eq_false_iff,
    isContractAddress_eq_true_iff, index_test_eq_ok_iff, hindex]
  tauto

/-- `equalsContractAddress` returns unless a contract address meets a string without an index. -/
theorem equalsContractAddress_returns_iff :
    (∃ b, equalsContractAddress t s = .ok b) ↔ t.Defined ∧ (IsContract t → IsNumeral s) := by
  have hnumeral : HasIndex t s → IsNumeral s := fun ⟨n, hn, _⟩ => ⟨n, hn⟩
  rw [Bool.exists_bool, equalsContractAddress_eq_true_iff, equalsContractAddress_eq_false_iff]
  tauto

theorem isAddress_eq_true_iff : isAddress t = .ok true ↔ t.Defined ∧ IsTagged t := by
  rw [isAddress, orM_eq_true_iff, member_test_eq_ok_iff, member_test_eq_ok_iff,
    isAddressAccount_eq_ok_iff, ← Bool.not_eq_true, strictEq_str_iff, strictEq_str_iff, IsTagged]
  tauto

theorem isAddress_eq_false_iff : isAddress t = .ok false ↔ t.Defined ∧ ¬ IsTagged t := by
  have hor : isAddress t = .ok false ↔
      t.Defined ∧ strictEq (t.field "type") (.str "AddressContract") = false ∧
        strictEq (t.field "type") (.str "AddressAccount") = false := by
    rw [isAddress, orM_eq_false_iff, member_test_eq_ok_iff, isAddressAccount_eq_ok_iff]
    tauto
  rw [hor, ← Bool.not_eq_true, ← Bool.not_eq_true, strictEq_str_iff, strictEq_str_iff, IsTagged]
  tauto

/-- `equalsAddress` returns unless an address without an `address`, or one whose contract address
meets a string without an index, has not already been recognised as the account. -/
theorem equalsAddress_returns_iff :
    (∃ b, equalsAddress t s = .ok b) ↔
      t.Defined ∧ (IsTagged t → IsAccount t s ∨
        ((t.field "address").Defined ∧ (IsContract (t.field "address") → IsNumeral s))) := by
  have hrest : (∃ b, (t.member "address" >>= fun a => equalsContractAddress a s) = .ok b) ↔
      t.Defined ∧ (t.field "address").Defined ∧
        (IsContract (t.field "address") → IsNumeral s) := by
    rw [bind_returns_iff]
    simp only [Value.member_eq_ok_iff, equalsContractAddress_returns_iff]
    constructor
    · rintro ⟨w, ⟨ht, rfl⟩, hw⟩
      exact ⟨ht, hw⟩
    · rintro ⟨ht, hw⟩
      exact ⟨_, ⟨ht, rfl⟩, hw⟩
  have hbranch : (∃ b, equalsAddress t s = .ok b) ↔
      isAddress t = .ok false ∨
        (isAddress t = .ok true ∧
          ∃ b, orM (equalsAddressAccount t s)
            (t.member "address" >>= fun a => equalsContractAddress a s) = .ok b) := by
    rw [equalsAddress, bind_returns_iff, Bool.exists_bool]
    simp [pure, Except.pure]
  rw [hbranch, isAddress_eq_false_iff, isAddress_eq_true_iff, orM_returns_iff,
    equalsAddressAccount_eq_true_iff, equalsAddressAccount_eq_false_iff, hrest]
  by_cases htagged : IsTagged t <;> by_cases haccount : IsAccount t s <;>
    simp [htagged, haccount]

/-! ### Comparable values -/

/-- The values that `equalsValue` can compare with a string. The string itself is one, and
otherwise the value must be there; where a contract address comes up before the comparison has
succeeded, the string must be a numeral. -/
def Comparable (eventValue : Value) (filterValue : String) : Prop :=
  eventValue = .str filterValue ∨
    (eventValue.Defined ∧
      (IsAccount eventValue filterValue ∨
        ((IsContract eventValue → IsNumeral filterValue) ∧
          (IsContract eventValue ∧ HasIndex eventValue filterValue ∨
            (IsTagged eventValue →
              (eventValue.field "address").Defined ∧
                (IsContract (eventValue.field "address") → IsNumeral filterValue))))))

/-- **Comparing returns exactly on comparable values.** -/
theorem equalsValue_returns_iff :
    (∃ b, equalsValue t s = .ok b) ↔ Comparable t s := by
  have hsame : ∀ b, (pure (strictEq (.str s) t) : Except JsError Bool) = .ok b ↔
      strictEq (.str s) t = b := fun b => by simp [pure, Except.pure]
  -- `equalsBigInt` always returns, so the last two operands return when `equalsAddress` does
  have hlast : (equalsAddress t s = .ok true ∨
      (equalsAddress t s = .ok false ∧
        ∃ b, (pure (equalsBigInt t s) : Except JsError Bool) = .ok b)) ↔
      ∃ b, equalsAddress t s = .ok b := by
    rw [Bool.exists_bool, or_comm]
    simp [pure, Except.pure]
  have hnumeral : HasIndex t s → IsNumeral s := fun ⟨n, hn, _⟩ => ⟨n, hn⟩
  rw [equalsValue, orM_returns_iff, orM_returns_iff, orM_returns_iff, orM_returns_iff, hlast,
    equalsAddressAccount_eq_true_iff, equalsAddressAccount_eq_false_iff,
    equalsContractAddress_eq_true_iff, equalsContractAddress_eq_false_iff,
    equalsAddress_returns_iff, hsame, hsame, ← Bool.not_eq_true, str_strictEq_iff, Comparable]
  clear hsame hlast
  by_cases haccount : IsAccount t s
  · simp only [haccount, true_or, and_true, not_true, and_false, false_and, or_false]
    tauto
  · by_cases hindex : IsContract t ∧ HasIndex t s
    · simp only [haccount, hindex, hnumeral hindex.2, not_false_iff, and_true, false_or, true_or,
        and_false, imp_true_iff]
      tauto
    · simp only [haccount, false_or, and_false, not_false_iff, and_true]
      grind

/-! ### The event filter -/

variable {txEvent : Obj} {entries : List (String × String)}

theorem filterValuesLoop_eq_true_iff :
    filterValuesLoop txEvent entries = .ok true ↔
      ∀ p ∈ entries, equalsValue (txEvent.prop p.1) p.2 = .ok true := by
  induction entries with
  | nil => simp [filterValuesLoop]
  | cons p entries ih =>
    obtain ⟨k, v⟩ := p
    rw [filterValuesLoop, bind_eq_ok_iff, Bool.exists_bool, List.forall_mem_cons, ← ih]
    simp [pure, Except.pure]

/-- If no comparison throws, the loop is a conjunction. -/
theorem filterValuesLoop_eq_all {q : String × String → Bool}
    (h : ∀ p ∈ entries, equalsValue (txEvent.prop p.1) p.2 = .ok (q p)) :
    filterValuesLoop txEvent entries = .ok (entries.all q) := by
  induction entries with
  | nil => rfl
  | cons p entries ih =>
    have hp := h p List.mem_cons_self
    have hrest := ih fun p' hp' => h p' (List.mem_cons_of_mem p hp')
    obtain ⟨k, v⟩ := p
    simp only [filterValuesLoop, hp, hrest, List.all_cons, bind, Except.bind, pure, Except.pure]
    cases q (k, v) <;> rfl

theorem filterValuesLoop_cons_returns {k v : String}
    (h : ∃ b, filterValuesLoop txEvent ((k, v) :: entries) = .ok b) :
    ∃ b, equalsValue (txEvent.prop k) v = .ok b := by
  rw [filterValuesLoop, bind_returns_iff] at h
  obtain ⟨b, hb, -⟩ := h
  exact ⟨b, hb⟩

/-- If the loop returns in every order of the values, each of them is comparable: a value that is
not would throw in first place. -/
theorem comparable_of_reorders {values : StringMap}
    (h : ∀ values', values.Reorders values' →
      ∃ b, filterValuesLoop txEvent values'.entries = .ok b) :
    ∀ p ∈ values.entries, Comparable (txEvent.prop p.1) p.2 := by
  rintro ⟨k, v⟩ hp
  have hperm : ((k, v) :: values.entries.erase (k, v)).Perm values.entries :=
    (List.perm_cons_erase hp).symm
  have hnodup := ((hperm.map Prod.fst).nodup_iff).mpr values.nodup
  exact equalsValue_returns_iff.mp (filterValuesLoop_cons_returns (h ⟨_, hnodup⟩ hperm))

theorem filterValuesLoop_reorders {values values' : StringMap} (hre : values.Reorders values')
    (h : ∀ p ∈ values.entries, Comparable (txEvent.prop p.1) p.2) :
    ∃ b, filterValuesLoop txEvent values.entries = .ok b ∧
      filterValuesLoop txEvent values'.entries = .ok b := by
  have hall : ∀ p, ∃ b, p ∈ values.entries → equalsValue (txEvent.prop p.1) p.2 = .ok b := by
    intro p
    by_cases hp : p ∈ values.entries
    · obtain ⟨b, hb⟩ := equalsValue_returns_iff.mpr (h p hp)
      exact ⟨b, fun _ => hb⟩
    · exact ⟨true, fun hp' => absurd hp' hp⟩
  choose q hq using hall
  refine ⟨values.entries.all q, filterValuesLoop_eq_all hq, ?_⟩
  rw [filterValuesLoop_eq_all fun p hp => hq p (hre.subset hp), hre.all_eq]

theorem filterTxEventProcessor_of_typeDiffers {f : ValuesFilter}
    (h : typeDiffers (txEvent.prop "tag") f = true) :
    filterTxEventProcessor txEvent (some f) = .ok false := by
  simp only [filterTxEventProcessor, h, if_true]

theorem filterTxEventProcessor_of_values {f : ValuesFilter} {values : StringMap}
    (htype : typeDiffers (txEvent.prop "tag") f = false) (h : f.values = .value values) :
    filterTxEventProcessor txEvent (some f) = filterValuesLoop txEvent values.entries := by
  simp [filterTxEventProcessor, htype, h]

theorem filterTxEventProcessor_of_no_values {f : ValuesFilter} (h : f.values.get? = none) :
    filterTxEventProcessor txEvent (some f) = .ok !typeDiffers (txEvent.prop "tag") f := by
  cases hv : f.values with
  | value values => simp [hv, Optional.get?] at h
  | _ =>
    cases htype : typeDiffers (txEvent.prop "tag") f <;>
      simp [filterTxEventProcessor, htype, hv]

theorem filterTxEventProcessor_reorders {f : ValuesFilter} {values values' : StringMap}
    (hvalues : f.values = .value values) (hre : values.Reorders values')
    (h : typeDiffers (txEvent.prop "tag") f = true ∨
      ∀ p ∈ values.entries, Comparable (txEvent.prop p.1) p.2) :
    ∃ b, filterTxEventProcessor txEvent (some f) = .ok b ∧
      filterTxEventProcessor txEvent (some { f with values := .value values' }) = .ok b := by
  rcases h with htype | hcomparable
  · exact ⟨false, filterTxEventProcessor_of_typeDiffers htype,
      filterTxEventProcessor_of_typeDiffers htype⟩
  · cases htype : typeDiffers (txEvent.prop "tag") f with
    | true =>
      exact ⟨false, filterTxEventProcessor_of_typeDiffers htype,
        filterTxEventProcessor_of_typeDiffers htype⟩
    | false =>
      have htype' : typeDiffers (txEvent.prop "tag") { f with values := .value values' } = false :=
        htype
      rw [filterTxEventProcessor_of_values htype hvalues,
        filterTxEventProcessor_of_values htype' rfl]
      exact filterValuesLoop_reorders hre hcomparable

/-- `filterTxEventProcessor` returns, and does so with the same result whatever the order of the
filter's values. -/
def FiltersSafely (txEvent : Obj) (filter : Option ValuesFilter) : Prop :=
  (∃ b, filterTxEventProcessor txEvent filter = .ok b) ∧
    ∀ f values values', filter = some f → f.values = .value values → values.Reorders values' →
      filterTxEventProcessor txEvent (some { f with values := .value values' }) =
        filterTxEventProcessor txEvent filter

/-- **When an event filter does not throw.** Either it has no values to compare, or its type
already rejects the event, or every field it names is comparable with the given string. -/
theorem filtersSafely_iff (txEvent : Obj) (filter : Option ValuesFilter) :
    FiltersSafely txEvent filter ↔
      ∀ f values, filter = some f → f.values = .value values →
        typeDiffers (txEvent.prop "tag") f = true ∨
          ∀ p ∈ values.entries, Comparable (txEvent.prop p.1) p.2 := by
  constructor
  · rintro ⟨⟨b, hb⟩, hreorder⟩ f values rfl hvalues
    rw [or_iff_not_imp_left, Bool.not_eq_true]
    intro htype
    refine comparable_of_reorders fun values' hre => ⟨b, ?_⟩
    have htype' : typeDiffers (txEvent.prop "tag") { f with values := .value values' } = false :=
      htype
    rw [← filterTxEventProcessor_of_values htype' rfl,
      hreorder f values values' rfl hvalues hre, hb]
  · intro h
    refine ⟨?_, ?_⟩
    · rcases filter with _ | f
      · exact ⟨true, rfl⟩
      rcases hget : f.values.get? with _ | values
      · exact ⟨_, filterTxEventProcessor_of_no_values hget⟩
      · have hvalues := Optional.get?_eq_some_iff.mp hget
        obtain ⟨b, hb, -⟩ := filterTxEventProcessor_reorders hvalues (List.Perm.refl _)
          (h f values rfl hvalues)
        exact ⟨b, hb⟩
    · rintro f values values' rfl hvalues hre
      obtain ⟨b, hb, hb'⟩ := filterTxEventProcessor_reorders hvalues hre (h f values rfl hvalues)
      rw [hb, hb']

/-- A transfer has no instigator, and comparing the absent field throws. -/
theorem not_filtersSafely_missing_field :
    ¬ FiltersSafely [("tag", .str "Transferred"), ("amount", .bigint 100)]
      (some ⟨.undefined, .value ⟨[("instigator", "4AuT5RRm")], by decide⟩⟩) := by
  rintro ⟨⟨b, hb⟩, -⟩
  have hthrow : filterTxEventProcessor [("tag", .str "Transferred"), ("amount", .bigint 100)]
      (some ⟨.undefined, .value ⟨[("instigator", "4AuT5RRm")], by decide⟩⟩) =
        .error (typeError "Cannot read properties of undefined (reading 'type')") := rfl
  rw [hthrow] at hb
  cases hb

end SubqlConcordium
