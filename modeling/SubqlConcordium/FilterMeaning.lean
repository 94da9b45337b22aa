import SubqlConcordium.Filter
import SubqlConcordium.Js.Numeral

/-!
# What the filters mean

The event filter said in its own terms: which values a string stands for. The code comes close.
Where it reads an index or an amount it takes a string of blanks for zero, and it opens account
objects as if they could wrap a contract address; nothing else separates the two.

The transaction filter compares with `===` alone, so the two agree on a set of fields exactly when
no field needs more than that, or when some field matches neither way.

## Said once more

`Means` is not read off the code. It is what somebody who writes a filter may expect: an account
stands for its address, a contract for its index, an amount for its number, and an SDK address for
whichever of the two it wraps. The comparison in the code is then measured against it, and `Slip`
collects, case by case, what succeeds without being meant. Nothing that is meant is missed.

## Main definitions

* `Means` — the values a string stands for
* `Selects` — the meaning of an event filter
* `Slip` — a comparison that succeeds without `Means`

## Main results

* `equalsValue_eq_true_iff` — the comparison succeeds on `Means` and on `Slip`
* `filterTxEventProcessor_selects_iff` — the events on which the filter has its meaning
* `filterProcessors_agree_iff` — the fields on which the two filters agree
-/

namespace SubqlConcordium

open Js

/-! ### The meaning of a value -/

/-- A contract address whose index is the integer that the string denotes. -/
def IsContractAt (t : Value) (s : String) : Prop :=
  IsContract t ∧ ∃ n, Denotes s n ∧ t.field "index" = .bigint n

/-- The values that a filter value stands for: itself, the account with this address, the contract
with this index, as it is or wrapped in an `AddressContract`, and the bigint it denotes. -/
def Means (t : Value) (s : String) : Prop :=
  t = .str s ∨ IsAccount t s ∨ IsContractAt t s ∨
    (t.field "type" = .str "AddressContract" ∧ IsContractAt (t.field "address") s) ∨
    ∃ n, Denotes s n ∧ t = .bigint n

/-- **The meaning of an event filter.** An empty type is as good as none. -/
def Selects (txEvent : Obj) (filter : Option ValuesFilter) : Prop :=
  ∀ f, filter = some f →
    (∀ s, f.type = .value s → s ≠ "" → txEvent.prop "tag" = .str s) ∧
    ∀ values, f.values = .value values → ∀ p ∈ values.entries, Means (txEvent.prop p.1) p.2

/-- A contract address at index zero. -/
def IsContractZero (t : Value) : Prop := IsContract t ∧ t.field "index" = .bigint 0

/-- What the comparison accepts besides: blanks for zero, and an account that wraps a contract
address. -/
def Slip (t : Value) (s : String) : Prop :=
  (Blank s ∧ (t = .bigint 0 ∨ IsContractZero t ∨
      t.field "type" = .str "AddressContract" ∧ IsContractZero (t.field "address"))) ∨
    (t.field "type" = .str "AddressAccount" ∧ IsContract (t.field "address") ∧
      HasIndex (t.field "address") s)

/-! ### The comparison -/

variable {t : Value} {s : String}

theorem Value.defined_of_field {k : String} {w : Value} (h : t.field k = w) (hw : w ≠ .undefined) :
    t.Defined := by
  cases t with
  | obj fields => trivial
  | _ => exact absurd h.symm hw

theorem IsAccount.defined (h : IsAccount t s) : t.Defined :=
  Value.defined_of_field h.1 (by simp)

theorem IsTagged.defined (h : IsTagged t) : t.Defined :=
  h.elim (fun h => Value.defined_of_field h (by simp)) fun h => Value.defined_of_field h (by simp)

theorem IsContract.defined (h : IsContract t) : t.Defined := by
  cases t with
  | obj fields => trivial
  | _ => exact absurd h.1 (by simp [Value.field, Value.typeof])

theorem hasIndex_iff :
    HasIndex t s ↔
      (∃ n, Denotes s n ∧ t.field "index" = .bigint n) ∨
        (Blank s ∧ t.field "index" = .bigint 0) := by
  simp only [HasIndex, stringToBigInt_eq_some_iff]
  constructor
  · rintro ⟨n, h | ⟨hblank, rfl⟩, hindex⟩
    · exact .inl ⟨n, h, hindex⟩
    · exact .inr ⟨hblank, hindex⟩
  · rintro (⟨n, h, hindex⟩ | ⟨hblank, hindex⟩)
    · exact ⟨n, .inl h, hindex⟩
    · exact ⟨0, .inr ⟨hblank, rfl⟩, hindex⟩

theorem contract_hasIndex_iff :
    (IsContract t ∧ HasIndex t s) ↔ IsContractAt t s ∨ (Blank s ∧ IsContractZero t) := by
  rw [hasIndex_iff, IsContractAt, IsContractZero, and_or_left,
    and_left_comm (a := IsContract t) (b := Blank s)]

theorem equalsBigInt_eq_true_iff_stringToBigInt :
    equalsBigInt t s = true ↔ ∃ n, stringToBigInt s = some n ∧ t = .bigint n := by
  rw [equalsBigInt, bigIntOfString]
  cases stringToBigInt s with
  | none => simp
  | some n => simp [strictEq_bigint_iff]

theorem equalsBigInt_eq_true_iff :
    equalsBigInt t s = true ↔
      (∃ n, Denotes s n ∧ t = .bigint n) ∨ (Blank s ∧ t = .bigint 0) := by
  simp only [equalsBigInt_eq_true_iff_stringToBigInt, stringToBigInt_eq_some_iff]
  constructor
  · rintro ⟨n, h | ⟨hblank, rfl⟩, ht⟩
    · exact .inl ⟨n, h, ht⟩
    · exact .inr ⟨hblank, ht⟩
  · rintro (⟨n, h, ht⟩ | ⟨hblank, ht⟩)
    · exact ⟨n, .inl h, ht⟩
    · exact ⟨0, .inr ⟨hblank, rfl⟩, ht⟩

theorem equalsAddress_eq_true_iff :
    equalsAddress t s = .ok true ↔
      IsTagged t ∧ (IsAccount t s ∨
        (IsContract (t.field "address") ∧ HasIndex (t.field "address") s)) := by
  have hrest : (t.member "address" >>= fun a => equalsContractAddress a s) = .ok true ↔
      t.Defined ∧ IsContract (t.field "address") ∧ HasIndex (t.field "address") s := by
    simp only [bind_eq_ok_iff, Value.member_eq_ok_iff, equalsContractAddress_eq_true_iff]
    constructor
    · rintro ⟨w, ⟨ht, rfl⟩, -, hw⟩
      exact ⟨ht, hw⟩
    · rintro ⟨ht, hw⟩
      exact ⟨_, ⟨ht, rfl⟩, hw.1.defined, hw⟩
  have hbranch : equalsAddress t s = .ok true ↔
      isAddress t = .ok true ∧
        orM (equalsAddressAccount t s)
          (t.member "address" >>= fun a => equalsContractAddress a s) = .ok true := by
    rw [equalsAddress, bind_eq_ok_iff, Bool.exists_bool]
    simp [pure, Except.pure]
  rw [hbranch, isAddress_eq_true_iff, orM_eq_true_iff, equalsAddressAccount_eq_true_iff,
    equalsAddressAccount_eq_false_iff, hrest]
  constructor
  · rintro ⟨⟨-, htagged⟩, ⟨-, haccount⟩ | ⟨-, -, hcontract⟩⟩
    · exact ⟨htagged, .inl haccount⟩
    · exact ⟨htagged, .inr hcontract⟩
  · rintro ⟨htagged, hrest⟩
    have ht := htagged.defined
    refine ⟨⟨ht, htagged⟩, ?_⟩
    by_cases haccount : IsAccount t s
    · exact .inl ⟨ht, haccount⟩
    · exact .inr ⟨⟨ht, haccount⟩, ht, hrest.resolve_left haccount⟩

/-- The four helpers, and `===`: whether one of them says yes. -/
theorem some_helper_iff :
    (strictEq (.str s) t = true ∨ equalsAddressAccount t s = .ok true ∨
      equalsContractAddress t s = .ok true ∨ equalsAddress t s = .ok true ∨
      equalsBigInt t s = true) ↔ Means t s ∨ Slip t s := by
  have haccount : equalsAddressAccount t s = .ok true ↔ IsAccount t s := by
    rw [equalsAddressAccount_eq_true_iff]
    exact ⟨And.right, fun h => ⟨h.defined, h⟩⟩
  have hcontract : equalsContractAddress t s = .ok true ↔
      IsContractAt t s ∨ (Blank s ∧ IsContractZero t) := by
    rw [equalsContractAddress_eq_true_iff, contract_hasIndex_iff]
    refine ⟨And.right, fun h => ⟨?_, h⟩⟩
    exact h.elim (fun h => h.1.defined) fun h => h.2.1.defined
  -- a tagged value is a contract wrapper, or an account that wraps one by mistake
  have haddress : equalsAddress t s = .ok true ↔
      (IsTagged t ∧ IsAccount t s) ∨
        (t.field "type" = .str "AddressContract" ∧ (IsContractAt (t.field "address") s ∨
          (Blank s ∧ IsContractZero (t.field "address")))) ∨
        (t.field "type" = .str "AddressAccount" ∧ IsContract (t.field "address") ∧
          HasIndex (t.field "address") s) := by
    rw [equalsAddress_eq_true_iff, and_or_left, ← contract_hasIndex_iff]
    nth_rewrite 2 [IsTagged]
    rw [or_and_right]
  rw [str_strictEq_iff, haccount, hcontract, haddress, equalsBigInt_eq_true_iff, Means, Slip]
  constructor
  · rintro (h | h | (h | h) | (⟨-, h⟩ | ⟨h, h' | h'⟩ | h) | h | h)
    · exact .inl (.inl h)
    · exact .inl (.inr (.inl h))
    · exact .inl (.inr (.inr (.inl h)))
    · exact .inr (.inl ⟨h.1, .inr (.inl h.2)⟩)
    · exact .inl (.inr (.inl h))
    · exact .inl (.inr (.inr (.inr (.inl ⟨h, h'⟩))))
    · exact .inr (.inl ⟨h'.1, .inr (.inr ⟨h, h'.2⟩)⟩)
    · exact .inr (.inr h)
    · exact .inl (.inr (.inr (.inr (.inr h))))
    · exact .inr (.inl ⟨h.1, .inl h.2⟩)
  · rintro ((h | h | h | ⟨h, h'⟩ | h) | ⟨hblank, h | h | ⟨h, h'⟩⟩ | h)
    · exact .inl h
    · exact .inr (.inl h)
    · exact .inr (.inr (.inl (.inl h)))
    · exact .inr (.inr (.inr (.inl (.inr (.inl ⟨h, .inl h'⟩)))))
    · exact .inr (.inr (.inr (.inr (.inl h))))
    · exact .inr (.inr (.inr (.inr (.inr ⟨hblank, h⟩))))
    · exact .inr (.inr (.inl (.inr ⟨hblank, h⟩)))
    · exact .inr (.inr (.inr (.inl (.inr (.inl ⟨h, .inr ⟨hblank, h'⟩⟩)))))
    · exact .inr (.inr (.inr (.inl (.inr (.inr h)))))

theorem isNumeral_of_denotes {n : ℤ} (h : Denotes s n) : IsNumeral s :=
  ⟨n, stringToBigInt_eq_some_iff.mpr (.inl h)⟩

theorem isNumeral_of_blank (h : Blank s) : IsNumeral s :=
  ⟨0, stringToBigInt_eq_some_iff.mpr (.inr ⟨h, rfl⟩)⟩

theorem comparable_of_isNumeral (hs : IsNumeral s) (ht : t.Defined)
    (haddress : IsTagged t → (t.field "address").Defined) : Comparable t s :=
  .inr ⟨ht, .inr ⟨fun _ => hs, .inr fun htagged => ⟨haddress htagged, fun _ => hs⟩⟩⟩

theorem comparable_of_bigint {n : ℤ} (hs : IsNumeral s) (ht : t = .bigint n) : Comparable t s := by
  subst ht
  refine comparable_of_isNumeral hs trivial fun h => ?_
  exact absurd h (by simp [IsTagged, Value.field])

theorem comparable_of_contract (ht : IsContract t) (h : HasIndex t s) : Comparable t s := by
  have hs : IsNumeral s := ⟨_, h.choose_spec.1⟩
  exact .inr ⟨ht.defined, .inr ⟨fun _ => hs, .inl ⟨ht, h⟩⟩⟩

theorem comparable_of_wrapped (hs : IsNumeral s) (ht : IsTagged t)
    (haddress : IsContract (t.field "address")) : Comparable t s :=
  comparable_of_isNumeral hs ht.defined fun _ => haddress.defined

theorem Means.comparable (h : Means t s) : Comparable t s := by
  rcases h with h | h | h | ⟨htype, h⟩ | ⟨n, hn, h⟩
  · exact .inl h
  · exact .inr ⟨h.defined, .inl h⟩
  · exact comparable_of_contract h.1 (hasIndex_iff.mpr (.inl h.2))
  · obtain ⟨hcontract, n, hn, -⟩ := h
    exact comparable_of_wrapped (isNumeral_of_denotes hn) (.inl htype) hcontract
  · exact comparable_of_bigint (isNumeral_of_denotes hn) h

theorem Slip.comparable (h : Slip t s) : Comparable t s := by
  rcases h with ⟨hblank, h | h | ⟨htype, h⟩⟩ | ⟨htype, hcontract, n, hn, -⟩
  · exact comparable_of_bigint (isNumeral_of_blank hblank) h
  · exact comparable_of_contract h.1 (hasIndex_iff.mpr (.inr ⟨hblank, h.2⟩))
  · exact comparable_of_wrapped (isNumeral_of_blank hblank) (.inl htype) h.1
  · exact comparable_of_wrapped ⟨n, hn⟩ (.inr htype) hcontract

/-- **The comparison succeeds on what the string means, and by a slip.** -/
theorem equalsValue_eq_true_iff : equalsValue t s = .ok true ↔ Means t s ∨ Slip t s := by
  constructor
  · intro h
    rw [← some_helper_iff]
    simp only [equalsValue, orM_eq_true_iff, pure, Except.pure, Except.ok.injEq] at h
    tauto
  · intro h
    obtain ⟨b, hb⟩ := equalsValue_returns_iff.mpr (h.elim Means.comparable Slip.comparable)
    cases b with
    | true => exact hb
    | false =>
      rw [← some_helper_iff] at h
      simp only [equalsValue, orM_eq_false_iff, pure, Except.pure, Except.ok.injEq] at hb
      obtain ⟨hsame, haccount, hcontract, haddress, hbigint⟩ := hb
      simp [hsame, haccount, hcontract, haddress, hbigint] at h

/-! ### The event filter -/

/-- Every value compares equal, and one of them by a slip only. -/
def SlipsThrough (txEvent : Obj) (values : StringMap) : Prop :=
  (∀ p ∈ values.entries, Means (txEvent.prop p.1) p.2 ∨ Slip (txEvent.prop p.1) p.2) ∧
    ∃ p ∈ values.entries, ¬ Means (txEvent.prop p.1) p.2

variable {txEvent : Obj}

theorem filterTxEventProcessor_eq_true_iff {f : ValuesFilter} :
    filterTxEventProcessor txEvent (some f) = .ok true ↔
      typeDiffers (txEvent.prop "tag") f = false ∧ ∀ values, f.values = .value values →
        ∀ p ∈ values.entries, Means (txEvent.prop p.1) p.2 ∨ Slip (txEvent.prop p.1) p.2 := by
  cases htype : typeDiffers (txEvent.prop "tag") f with
  | true => simp [filterTxEventProcessor_of_typeDiffers htype]
  | false =>
    rcases hget : f.values.get? with _ | values
    · have hnone : ∀ values, f.values ≠ .value values := by
        intro values hvalues
        simp [hvalues, Optional.get?] at hget
      simp [filterTxEventProcessor_of_no_values hget, htype, hnone]
    · have hvalues := Optional.get?_eq_some_iff.mp hget
      simp [filterTxEventProcessor_of_values htype hvalues, filterValuesLoop_eq_true_iff,
        equalsValue_eq_true_iff, hvalues]

/-- **Where an event filter means what it should.** Wherever it returns its answer is the meaning
of the filter, unless the type lets the event pass and the values all compare equal, one of them by
a slip only. -/
theorem filterTxEventProcessor_selects_iff (txEvent : Obj) (filter : Option ValuesFilter) :
    (∀ b, filterTxEventProcessor txEvent filter = .ok b →
      (b = true ↔ Selects txEvent filter)) ↔
      ∀ f values, filter = some f → f.values = .value values →
        typeDiffers (txEvent.prop "tag") f = true ∨ ¬ SlipsThrough txEvent values := by
  constructor
  · rintro h f values rfl hvalues
    rw [or_iff_not_imp_left, Bool.not_eq_true]
    rintro htype ⟨hall, p, hp, hnot⟩
    have htrue : filterTxEventProcessor txEvent (some f) = .ok true := by
      rw [filterTxEventProcessor_eq_true_iff]
      refine ⟨htype, fun values' hvalues' => ?_⟩
      rw [hvalues] at hvalues'
      cases hvalues'
      exact hall
    have hselects := (h true htrue).mp rfl
    exact hnot ((hselects f rfl).2 values hvalues p hp)
  · intro h b hb
    rcases filter with _ | f
    · cases hb
      simp [Selects]
    have hmeans : filterTxEventProcessor txEvent (some f) = .ok true ↔
        Selects txEvent (some f) := by
      rw [filterTxEventProcessor_eq_true_iff, typeDiffers_eq_false_iff]
      constructor
      · rintro ⟨htype, hall⟩ f' hf'
        cases hf'
        refine ⟨htype, fun values hvalues p hp => ?_⟩
        have hslips := (h f values rfl hvalues).resolve_left
          (by simpa using typeDiffers_eq_false_iff.mpr htype)
        by_contra hnot
        exact hslips ⟨hall values hvalues, p, hp, hnot⟩
      · intro hselects
        obtain ⟨htype, hall⟩ := hselects f rfl
        exact ⟨htype, fun values hvalues p hp => .inl (hall values hvalues p hp)⟩
    rw [← hmeans, hb]
    simp

/-- An empty string is taken for the amount zero. -/
theorem not_selects_of_empty :
    ¬ ∀ b, filterTxEventProcessor [("tag", .str "Transferred"), ("amount", .bigint 0)]
        (some ⟨.undefined, .value ⟨[("amount", "")], by decide⟩⟩) = .ok b →
      (b = true ↔ Selects [("tag", .str "Transferred"), ("amount", .bigint 0)]
        (some ⟨.undefined, .value ⟨[("amount", "")], by decide⟩⟩)) := by
  intro h
  have hselects := (h true rfl).mp rfl
  have hmeans := (hselects _ rfl).2 _ rfl ("amount", "") (by simp)
  have hblank : Blank "" := by simp [Blank]
  rcases hmeans with hm | hm | hm | hm | ⟨n, hn, -⟩
  · cases hm
  · have htype : Value.undefined = .str "AddressAccount" := hm.1
    cases htype
  · obtain ⟨-, n, hn, -⟩ := hm
    exact not_denotes_of_blank hblank hn
  · obtain ⟨-, -, n, hn, -⟩ := hm
    exact not_denotes_of_blank hblank hn
  · exact not_denotes_of_blank hblank hn

/-! ### The two filters -/

/-- The two hold the same value under every key that the filter names. -/
def SameFields (transaction txEvent : Obj) (values : StringMap) : Prop :=
  ∀ p ∈ values.entries, transaction.prop p.1 = txEvent.prop p.1

variable {transaction : Obj}

theorem typeDiffers_of_untyped {v : Value} {f : ValuesFilter} (h : f.type.truthyStr = false) :
    typeDiffers v f = false := by
  rw [typeDiffers_eq_false_iff]
  intro s hs hne
  exact absurd (by simpa [hs, Optional.truthyStr] using h) hne

theorem filterTransactionsProcessor_eq_true_iff (transaction : Obj) {f : ValuesFilter}
    {values : StringMap} (htype : f.type.truthyStr = false) (hvalues : f.values = .value values) :
    filterTransactionsProcessor transaction (some f) = true ↔
      ∀ p ∈ values.entries, transaction.prop p.1 = .str p.2 := by
  simp [filterTransactionsProcessor, typeDiffers_of_untyped htype, hvalues, str_strictEq_iff]

/-- A string is never a bigint, so no value selects a transaction by one. -/
theorem filterTransactionsProcessor_of_bigint {f : ValuesFilter} {values : StringMap}
    (htype : f.type.truthyStr = false) (hvalues : f.values = .value values) {k s : String} {n : ℤ}
    (hmem : (k, s) ∈ values.entries) (hfield : transaction.prop k = .bigint n) :
    filterTransactionsProcessor transaction (some f) = false := by
  rw [← Bool.not_eq_true, filterTransactionsProcessor_eq_true_iff transaction htype hvalues]
  intro hall
  have hstr := hall (k, s) hmem
  rw [hfield] at hstr
  cases hstr

/-- **Where the two filters agree.** On the same fields and without a type, exactly when every
field is the very string given for it, or some field would not even do for the event filter. In
particular a transaction is never selected by a bigint. -/
theorem filterProcessors_agree_iff (transaction txEvent : Obj) (f : ValuesFilter)
    (values : StringMap) (htype : f.type.truthyStr = false) (hvalues : f.values = .value values)
    (hsame : SameFields transaction txEvent values) :
    ((∀ b, filterTxEventProcessor txEvent (some f) = .ok b →
      filterTransactionsProcessor transaction (some f) = b) ↔
      (∀ p ∈ values.entries, transaction.prop p.1 = .str p.2) ∨
        ∃ p ∈ values.entries,
          ¬ (Means (transaction.prop p.1) p.2 ∨ Slip (transaction.prop p.1) p.2)) ∧
    ∀ k s n, (k, s) ∈ values.entries → transaction.prop k = .bigint n →
      filterTransactionsProcessor transaction (some f) = false := by
  have hevent : filterTxEventProcessor txEvent (some f) = .ok true ↔
      ∀ p ∈ values.entries,
        Means (transaction.prop p.1) p.2 ∨ Slip (transaction.prop p.1) p.2 := by
    rw [filterTxEventProcessor_eq_true_iff]
    simp only [typeDiffers_of_untyped htype, hvalues, Optional.value.injEq, true_and, forall_eq']
    exact forall₂_congr fun p hp => by rw [hsame p hp]
  have htransaction := filterTransactionsProcessor_eq_true_iff transaction htype hvalues
  -- what the transaction filter takes, the event filter takes too
  have hweaker : filterTransactionsProcessor transaction (some f) = true →
      filterTxEventProcessor txEvent (some f) = .ok true := by
    intro htrue
    exact hevent.mpr fun p hp => .inl (.inl (htransaction.mp htrue p hp))
  have hreject : (∃ p ∈ values.entries,
      ¬ (Means (transaction.prop p.1) p.2 ∨ Slip (transaction.prop p.1) p.2)) ↔
        filterTxEventProcessor txEvent (some f) ≠ .ok true := by
    rw [Ne, hevent]
    simp only [not_forall, exists_prop]
  refine ⟨?_, fun k s n hmem hfield =>
    filterTransactionsProcessor_of_bigint htype hvalues hmem hfield⟩
  rw [hreject, ← htransaction]
  constructor
  · intro h
    rw [or_iff_not_imp_right, not_not]
    exact h true
  · intro h b hb
    cases b with
    | true => exact h.resolve_right fun hne => hne hb
    | false =>
      rw [← Bool.not_eq_true]
      intro htrue
      rw [hweaker htrue] at hb
      cases hb

theorem filterProcessors_agree_sender :
    filterTxEventProcessor [("tag", .str "Updated"), ("sender", .str "4AuT5RRm")]
        (some ⟨.undefined, .value ⟨[("sender", "4AuT5RRm")], by decide⟩⟩) = .ok true ∧
      filterTransactionsProcessor [("sender", .str "4AuT5RRm")]
        (some ⟨.undefined, .value ⟨[("sender", "4AuT5RRm")], by decide⟩⟩) = true := by
  have hagree := (filterProcessors_agree_iff [("sender", .str "4AuT5RRm")]
    [("tag", .str "Updated"), ("sender", .str "4AuT5RRm")]
    ⟨.undefined, .value ⟨[("sender", "4AuT5RRm")], by decide⟩⟩ _ rfl rfl
    (List.forall_mem_singleton.mpr rfl)).1
  exact ⟨rfl, hagree.mpr (.inl (List.forall_mem_singleton.mpr rfl)) true rfl⟩

/-- A transaction is not selected by the decimal string of its cost, an event is. -/
theorem filterProcessors_disagree_cost :
    filterTransactionsProcessor [("cost", .bigint 14685685)]
        (some ⟨.undefined, .value ⟨[("cost", "14685685")], by decide⟩⟩) = false ∧
      filterTxEventProcessor [("cost", .bigint 14685685)]
        (some ⟨.undefined, .value ⟨[("cost", "14685685")], by decide⟩⟩) = .ok true := by
  refine ⟨rfl, ?_⟩
  decide +kernel

end SubqlConcordium
