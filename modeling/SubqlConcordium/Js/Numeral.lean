import SubqlConcordium.Js.Numeric
import Mathlib.Data.Nat.Digits.Defs
import Mathlib.Data.List.Forall2
import Mathlib.Data.List.TakeWhile
import Mathlib.Tactic.IntervalCases

/-!
# Integer numerals

Which strings denote an integer, said without a scanner: digits from a table, their positional
value, a sign or a base in front, blanks around. `BigInt` reads exactly these and, besides, every
string of blanks, which has no digit at all.

## Against the scanner

`stringToBigInt` is a scanner and goes left to right. It is what a definition should look like that
is to be compared with the language specification, and it is of little help to somebody who wants to
know which addresses and amounts a filter takes for the same. Here the same function is described by
its graph, and the two descriptions are proved equal. Neither mentions filters.

## Main definitions

* `IsDigit`, `Reads` — one digit, and a non-empty string of digits with its value
* `Literal` — an integer literal
* `Denotes` — a string that denotes an integer, blanks allowed around the literal

## Main results

* `digits_eq_some_iff` — the scanner's digits are `Reads`
* `stringToBigInt_eq_some_iff` — what `BigInt` accepts, and as which integer
-/

namespace Js

/-- `c` is the digit `d` in the given base, in either case. -/
def IsDigit (base : ℕ) (c : Char) (d : ℕ) : Prop :=
  d < base ∧ ("0123456789abcdef".toList[d]? = some c ∨ "0123456789ABCDEF".toList[d]? = some c)

/-- A non-empty string of digits, most significant first, and the number it stands for. -/
def Reads (base : ℕ) (cs : List Char) (n : ℕ) : Prop :=
  cs ≠ [] ∧ ∃ ds, List.Forall₂ (IsDigit base) cs ds ∧ n = Nat.ofDigits base ds.reverse

/-- The bases that have a mark, and the marks. -/
def baseMarks : List (ℕ × Char) := [(16, 'x'), (16, 'X'), (8, 'o'), (8, 'O'), (2, 'b'), (2, 'B')]

/-- An integer literal: decimal digits, with or without a sign, or digits after the mark of their
base. -/
inductive Literal : List Char → ℤ → Prop
  | decimal {cs : List Char} {n : ℕ} (h : Reads 10 cs n) : Literal cs n
  | positive {cs : List Char} {n : ℕ} (h : Reads 10 cs n) : Literal ('+' :: cs) n
  | negative {cs : List Char} {n : ℕ} (h : Reads 10 cs n) : Literal ('-' :: cs) (-n)
  | based {base : ℕ} {mark : Char} {cs : List Char} {n : ℕ} (hbase : (base, mark) ∈ baseMarks)
      (h : Reads base cs n) : Literal ('0' :: mark :: cs) n

/-- A string of blanks alone. -/
def Blank (s : String) : Prop := ∀ c ∈ s.toList, isBlank c = true

/-- The string is a literal of the integer, with blanks around it or without. -/
def Denotes (s : String) (n : ℤ) : Prop :=
  ∃ left cs right, s.toList = left ++ (cs ++ right) ∧ (∀ c ∈ left, isBlank c = true) ∧
    (∀ c ∈ right, isBlank c = true) ∧ Literal cs n

/-! ### Digits -/

theorem isDigit_digitValue {c : Char} {d : ℕ} (h : digitValue c = some d) : IsDigit 16 c d := by
  have hchar : c = Char.ofNat c.toNat := (Char.ofNat_toNat c).symm
  have hrange : ∀ {lo hi : Char}, lo ≤ c ∧ c ≤ hi → lo.toNat ≤ c.toNat ∧ c.toNat ≤ hi.toNat :=
    fun hc => hc
  rw [digitValue] at h
  split_ifs at h with hdec hlow hup
  · have hc : 48 ≤ c.toNat ∧ c.toNat ≤ 57 := hrange hdec
    cases h
    rw [hchar]
    generalize c.toNat = n at hc ⊢
    obtain ⟨hlo, hhi⟩ := hc
    interval_cases n <;> simp [IsDigit]
  · have hc : 97 ≤ c.toNat ∧ c.toNat ≤ 102 := hrange hlow
    cases h
    rw [hchar]
    generalize c.toNat = n at hc ⊢
    obtain ⟨hlo, hhi⟩ := hc
    interval_cases n <;> simp [IsDigit]
  · have hc : 65 ≤ c.toNat ∧ c.toNat ≤ 70 := hrange hup
    cases h
    rw [hchar]
    generalize c.toNat = n at hc ⊢
    obtain ⟨hlo, hhi⟩ := hc
    interval_cases n <;> simp [IsDigit]

theorem digitValue_isDigit {base d : ℕ} {c : Char} (hbase : base ≤ 16) (h : IsDigit base c d) :
    digitValue c = some d := by
  obtain ⟨hd, hc⟩ := h
  have hd' : d < 16 := lt_of_lt_of_le hd hbase
  clear hd
  interval_cases d <;> rcases hc with hc | hc <;> cases hc <;> decide

/-- **The scanner's digits are those of the table.** -/
theorem isDigit_iff {base d : ℕ} {c : Char} (hbase : base ≤ 16) :
    IsDigit base c d ↔ digitValue c = some d ∧ d < base := by
  constructor
  · intro h
    exact ⟨digitValue_isDigit hbase h, h.1⟩
  · rintro ⟨hvalue, hd⟩
    exact ⟨hd, (isDigit_digitValue hvalue).2⟩

theorem isBlank_isDigit {base d : ℕ} {c : Char} (hbase : base ≤ 16) (h : IsDigit base c d) :
    isBlank c = false := by
  obtain ⟨hd, hc⟩ := h
  have hd' : d < 16 := lt_of_lt_of_le hd hbase
  clear hd
  interval_cases d <;> rcases hc with hc | hc <;> cases hc <;> decide

/-! ### Strings of digits -/

/-- One more digit in front weighs as much as there are digits behind it. -/
theorem ofDigits_reverse_cons (base d : ℕ) (ds : List ℕ) :
    Nat.ofDigits base (d :: ds).reverse =
      d * base ^ ds.length + Nat.ofDigits base ds.reverse := by
  rw [List.reverse_cons, Nat.ofDigits_append, List.length_reverse, Nat.ofDigits_singleton,
    Nat.add_comm, Nat.mul_comm]

theorem digitsFrom_eq_some_iff {base : ℕ} (hbase : base ≤ 16) {cs : List Char} {acc n : ℕ} :
    digitsFrom base acc cs = some n ↔
      ∃ ds, List.Forall₂ (IsDigit base) cs ds ∧
        n = acc * base ^ cs.length + Nat.ofDigits base ds.reverse := by
  induction cs generalizing acc with
  | nil => simp [digitsFrom, eq_comm]
  | cons c cs ih =>
    have hstep : ∀ (d : ℕ) (ds : List ℕ), List.Forall₂ (IsDigit base) cs ds →
        (acc * base + d) * base ^ cs.length + Nat.ofDigits base ds.reverse =
          acc * base ^ (c :: cs).length + Nat.ofDigits base (d :: ds).reverse := by
      intro d ds hds
      rw [ofDigits_reverse_cons, List.length_cons, hds.length_eq, pow_succ]
      ring
    constructor
    · intro h
      rw [digitsFrom] at h
      split at h
      next d hvalue =>
        split_ifs at h with hd
        obtain ⟨ds, hds, rfl⟩ := ih.mp h
        exact ⟨d :: ds, .cons ((isDigit_iff hbase).mpr ⟨hvalue, hd⟩) hds, hstep d ds hds⟩
      next => cases h
    · rintro ⟨_, _ | @⟨_, d, _, ds, hd, hds⟩, rfl⟩
      obtain ⟨hvalue, hlt⟩ := (isDigit_iff hbase).mp hd
      simp only [digitsFrom, hvalue, hlt, if_true]
      exact ih.mpr ⟨ds, hds, (hstep d ds hds).symm⟩

/-- **The scanner reads the positional value.** -/
theorem digits_eq_some_iff {base : ℕ} (hbase : base ≤ 16) {cs : List Char} {n : ℕ} :
    digits base cs = some n ↔ Reads base cs n := by
  cases cs with
  | nil => simp [digits, Reads]
  | cons c cs =>
    rw [digits, digitsFrom_eq_some_iff hbase, Reads]
    · simp
    · simp

theorem Reads.isBlank_eq_false {base n : ℕ} {cs : List Char} (hbase : base ≤ 16)
    (h : Reads base cs n) : ∀ c ∈ cs, isBlank c = false := by
  obtain ⟨-, ds, hds, -⟩ := h
  clear n
  induction hds with
  | nil => simp
  | cons hd _ ih => exact List.forall_mem_cons.mpr ⟨isBlank_isDigit hbase hd, ih⟩

theorem Reads.head {base n : ℕ} {c : Char} {cs : List Char} (h : Reads base (c :: cs) n) :
    ∃ d, IsDigit base c d := by
  obtain ⟨-, ds, hds, -⟩ := h
  cases hds with
  | cons hd _ => exact ⟨_, hd⟩

/-! ### Blanks -/

theorem dropWhile_blanks {left cs : List Char} (h : ∀ c ∈ left, isBlank c = true) :
    (left ++ cs).dropWhile isBlank = cs.dropWhile isBlank :=
  List.dropWhile_append_of_pos h

theorem dropWhile_of_no_blank {cs : List Char} (right : List Char) (hne : cs ≠ [])
    (h : ∀ c ∈ cs, isBlank c = false) : (cs ++ right).dropWhile isBlank = cs ++ right := by
  cases cs with
  | nil => exact absurd rfl hne
  | cons c cs => simp [h c List.mem_cons_self]

theorem exists_trimBlanks (cs : List Char) :
    ∃ left right, cs = left ++ (trimBlanks cs ++ right) ∧ (∀ c ∈ left, isBlank c = true) ∧
      ∀ c ∈ right, isBlank c = true := by
  set rest := cs.dropWhile isBlank with hrest
  refine ⟨cs.takeWhile isBlank, (rest.reverse.takeWhile isBlank).reverse, ?_, ?_, ?_⟩
  · rw [trimBlanks, ← List.reverse_append, ← hrest, List.takeWhile_append_dropWhile,
      List.reverse_reverse, hrest, List.takeWhile_append_dropWhile]
  · exact fun c hc => List.mem_takeWhile_imp hc
  · intro c hc
    exact List.mem_takeWhile_imp (List.mem_reverse.mp hc)

/-- Between blanks, what holds no blank is what is left. -/
theorem trimBlanks_of_surrounded {left cs right : List Char} (hne : cs ≠ [])
    (hcs : ∀ c ∈ cs, isBlank c = false) (hleft : ∀ c ∈ left, isBlank c = true)
    (hright : ∀ c ∈ right, isBlank c = true) : trimBlanks (left ++ (cs ++ right)) = cs := by
  have hreverse : ∀ c ∈ right.reverse, isBlank c = true :=
    fun c hc => hright c (List.mem_reverse.mp hc)
  have hcs' : ∀ c ∈ cs.reverse, isBlank c = false := fun c hc => hcs c (List.mem_reverse.mp hc)
  have hne' : cs.reverse ≠ [] := by simpa using hne
  have hmiddle := dropWhile_of_no_blank [] hne' hcs'
  rw [List.append_nil] at hmiddle
  rw [trimBlanks, dropWhile_blanks hleft, dropWhile_of_no_blank _ hne hcs, List.reverse_append,
    dropWhile_blanks hreverse, hmiddle, List.reverse_reverse]

theorem trimBlanks_eq_nil_iff {s : String} : trimBlanks s.toList = [] ↔ Blank s := by
  constructor
  · intro h
    obtain ⟨left, right, hs, hleft, hright⟩ := exists_trimBlanks s.toList
    rw [h, List.nil_append] at hs
    intro c hc
    rw [hs] at hc
    exact (List.mem_append.mp hc).elim (hleft c) (hright c)
  · intro h
    have hdrop : s.toList.dropWhile isBlank = [] := by
      rw [List.dropWhile_eq_nil_iff]
      exact h
    rw [trimBlanks, hdrop]
    rfl

/-! ### Literals -/

theorem Literal.ne_nil {cs : List Char} {n : ℤ} (h : Literal cs n) : cs ≠ [] := by
  cases h with
  | decimal h => exact h.1
  | positive h => exact List.cons_ne_nil _ _
  | negative h => exact List.cons_ne_nil _ _
  | based hbase h => exact List.cons_ne_nil _ _

theorem base_le_of_mem {base : ℕ} {mark : Char} (h : (base, mark) ∈ baseMarks) : base ≤ 16 := by
  simp only [baseMarks, List.mem_cons, Prod.mk.injEq, List.not_mem_nil, or_false] at h
  omega

theorem isBlank_of_mark {base : ℕ} {mark : Char} (h : (base, mark) ∈ baseMarks) :
    isBlank mark = false := by
  have hall : ∀ p ∈ baseMarks, isBlank p.2 = false := by decide
  exact hall _ h

theorem Literal.isBlank_eq_false {cs : List Char} {n : ℤ} (h : Literal cs n) :
    ∀ c ∈ cs, isBlank c = false := by
  cases h with
  | decimal h => exact h.isBlank_eq_false (by decide)
  | positive h => exact List.forall_mem_cons.mpr ⟨by decide, h.isBlank_eq_false (by decide)⟩
  | negative h => exact List.forall_mem_cons.mpr ⟨by decide, h.isBlank_eq_false (by decide)⟩
  | based hbase h =>
    exact List.forall_mem_cons.mpr ⟨by decide, List.forall_mem_cons.mpr
      ⟨isBlank_of_mark hbase, h.isBlank_eq_false (base_le_of_mem hbase)⟩⟩

/-- The digits of a numeral, as an integer. -/
theorem digits_toInt_eq_some_iff {base : ℕ} (hbase : base ≤ 16) {cs : List Char} {n : ℤ} :
    ((digits base cs).map (↑·) : Option ℤ) = some n ↔ ∃ k : ℕ, Reads base cs k ∧ n = k := by
  simp only [← digits_eq_some_iff hbase]
  cases digits base cs <;> simp [eq_comm]

/-- The part of `StringToBigInt` after the blanks are stripped, read back: a literal. -/
theorem literal_of_stringToBigInt {s : String} {n : ℤ} (hne : trimBlanks s.toList ≠ [])
    (h : stringToBigInt s = some n) : Literal (trimBlanks s.toList) n := by
  have hbased : ∀ {base : ℕ} {mark : Char} {cs : List Char}, (base, mark) ∈ baseMarks →
      trimBlanks s.toList = '0' :: mark :: cs →
      ((digits base cs).map (↑·) : Option ℤ) = some n → Literal (trimBlanks s.toList) n := by
    intro base mark cs hbase heq hdigits
    obtain ⟨k, hk, rfl⟩ := (digits_toInt_eq_some_iff (base_le_of_mem hbase)).mp hdigits
    exact heq ▸ .based hbase hk
  rw [stringToBigInt] at h
  split at h
  next hnil => exact absurd hnil hne
  next heq => exact hbased (by decide) heq h
  next heq => exact hbased (by decide) heq h
  next heq => exact hbased (by decide) heq h
  next heq => exact hbased (by decide) heq h
  next heq => exact hbased (by decide) heq h
  next heq => exact hbased (by decide) heq h
  next cs heq =>
    obtain ⟨m, hm, rfl⟩ := Option.map_eq_some_iff.mp h
    have hlift : ((digits 10 cs).map (↑·) : Option ℤ) = some m := by simpa using hm
    obtain ⟨k, hk, rfl⟩ := (digits_toInt_eq_some_iff (by decide)).mp hlift
    exact heq ▸ .negative hk
  next heq =>
    obtain ⟨k, hk, rfl⟩ := (digits_toInt_eq_some_iff (by decide)).mp h
    exact heq ▸ .positive hk
  next =>
    obtain ⟨k, hk, rfl⟩ := (digits_toInt_eq_some_iff (by decide)).mp h
    exact .decimal hk

theorem not_isDigit_ten {c : Char} {d : ℕ} (hc : c ∈ ['x', 'X', 'o', 'O', 'b', 'B', '-', '+']) :
    ¬ IsDigit 10 c d := by
  intro h
  obtain ⟨hvalue, hlt⟩ := (isDigit_iff (by decide)).mp h
  have hall : ∀ c ∈ ['x', 'X', 'o', 'O', 'b', 'B', '-', '+'],
      ∀ d ∈ digitValue c, ¬ d < 10 := by simp [digitValue]
  exact hall c hc d hvalue hlt

/-- Decimal digits are not taken for a literal with a base or a sign. -/
theorem not_reads_of_mark {c : Char} {cs : List Char} {n : ℕ}
    (hc : c ∈ ['x', 'X', 'o', 'O', 'b', 'B', '-', '+']) :
    ¬ Reads 10 (c :: cs) n ∧ ∀ c', ¬ Reads 10 (c' :: c :: cs) n := by
  refine ⟨fun h => ?_, fun c' h => ?_⟩
  · obtain ⟨d, hd⟩ := h.head
    exact not_isDigit_ten hc hd
  · obtain ⟨-, ds, hds, -⟩ := h
    cases hds with
    | cons _ hrest =>
      cases hrest with
      | cons hd _ => exact not_isDigit_ten hc hd

/-- The part of `StringToBigInt` after the blanks are stripped reads every literal. -/
theorem stringToBigInt_of_literal {s : String} {n : ℤ} (h : Literal (trimBlanks s.toList) n) :
    stringToBigInt s = some n := by
  rw [stringToBigInt]
  generalize trimBlanks s.toList = cs at h ⊢
  cases h with
  | @decimal _ k h =>
    have hdigits := (digits_eq_some_iff (by decide)).mpr h
    split
    next => exact absurd rfl h.1
    next => exact absurd h ((not_reads_of_mark (by decide)).2 _)
    next => exact absurd h ((not_reads_of_mark (by decide)).2 _)
    next => exact absurd h ((not_reads_of_mark (by decide)).2 _)
    next => exact absurd h ((not_reads_of_mark (by decide)).2 _)
    next => exact absurd h ((not_reads_of_mark (by decide)).2 _)
    next => exact absurd h ((not_reads_of_mark (by decide)).2 _)
    next => exact absurd h (not_reads_of_mark (by decide)).1
    next => exact absurd h (not_reads_of_mark (by decide)).1
    next => exact (digits_toInt_eq_some_iff (by decide)).mpr ⟨k, h, rfl⟩
  | positive h =>
    have hdigits := (digits_eq_some_iff (by decide)).mpr h
    simp [hdigits]
  | negative h =>
    have hdigits := (digits_eq_some_iff (by decide)).mpr h
    simp [hdigits]
  | based hbase h =>
    have hdigits := (digits_eq_some_iff (base_le_of_mem hbase)).mpr h
    simp only [baseMarks, List.mem_cons, Prod.mk.injEq, List.not_mem_nil, or_false] at hbase
    rcases hbase with ⟨rfl, rfl⟩ | ⟨rfl, rfl⟩ | ⟨rfl, rfl⟩ | ⟨rfl, rfl⟩ | ⟨rfl, rfl⟩ | ⟨rfl, rfl⟩
    all_goals simp [hdigits]

theorem denotes_iff {s : String} {n : ℤ} : Denotes s n ↔ Literal (trimBlanks s.toList) n := by
  constructor
  · rintro ⟨left, cs, right, hs, hleft, hright, h⟩
    rwa [hs, trimBlanks_of_surrounded h.ne_nil h.isBlank_eq_false hleft hright]
  · intro h
    obtain ⟨left, right, hs, hleft, hright⟩ := exists_trimBlanks s.toList
    exact ⟨left, _, right, hs, hleft, hright, h⟩

theorem not_denotes_of_blank {s : String} {n : ℤ} (h : Blank s) : ¬ Denotes s n := by
  rw [denotes_iff, trimBlanks_eq_nil_iff.mpr h]
  exact fun hlit => hlit.ne_nil rfl

/-- **What `BigInt` accepts.** The integer a numeral denotes, and zero for blanks. -/
theorem stringToBigInt_eq_some_iff {s : String} {n : ℤ} :
    stringToBigInt s = some n ↔ Denotes s n ∨ (Blank s ∧ n = 0) := by
  rw [denotes_iff, ← trimBlanks_eq_nil_iff]
  constructor
  · intro h
    rcases eq_or_ne (trimBlanks s.toList) [] with hnil | hne
    · rw [stringToBigInt, hnil] at h
      exact .inr ⟨hnil, (Option.some.inj h).symm⟩
    · exact .inl (literal_of_stringToBigInt hne h)
  · rintro (h | ⟨hnil, rfl⟩)
    · exact stringToBigInt_of_literal h
    · rw [stringToBigInt, hnil]

end Js
