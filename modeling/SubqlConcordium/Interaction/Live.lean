import SubqlConcordium.Interaction.Outcome

/-!
# Loops over a list that grows

A loop over an array goes by positions, and looks for the end of the array before each of them. If
what it does with one element adds others to the end of the array, it comes to these as well. So the
array that the loop starts from does not say what it will visit. The array it leaves behind does:
every element of that array is visited, once, in order.

An array has a largest size. It is not there for the sake of realism: without it a loop that adds an
element at every visit would not come to an end, and a process has to. With it there are only so
many positions, and what is left of them is what the recursion is on.

## Main definitions

* `pushUpTo` — adding to the end of a list of at most so many elements
* `Proc.forLive` — visiting each element of a list that visits add to

## Main results

* `steps_forLive` — the rule for such loops, with an invariant of position, list and trace
* `run_forLive` — a loop whose visits add nothing is a plain one
-/

namespace Interaction

variable {Q : Type} {R : Q → Type} {ε α : Type}

/-! ### Lists of at most so many elements -/

/-- Add to the end of a list what there is still room for. -/
def pushUpTo (limit : ℕ) (xs more : List α) : List α := (xs ++ more).take limit

theorem length_pushUpTo_le (limit : ℕ) (xs more : List α) :
    (pushUpTo limit xs more).length ≤ limit :=
  List.length_take_le limit (xs ++ more)

theorem isPrefix_pushUpTo {limit : ℕ} {xs : List α} (h : xs.length ≤ limit) (more : List α) :
    xs <+: pushUpTo limit xs more := by
  rw [pushUpTo, List.take_append, List.take_of_length_le h]
  exact List.prefix_append xs _

@[simp] theorem pushUpTo_nil {limit : ℕ} {xs : List α} (h : xs.length ≤ limit) :
    pushUpTo limit xs [] = xs := by
  rw [pushUpTo, List.append_nil, List.take_of_length_le h]

/-! ### The loop -/

namespace Proc

/-- The loop from a position on, with so many positions left. -/
def liveFrom (limit : ℕ) (visit : α → Proc Q R ε (List α)) :
    ℕ → ℕ → List α → Proc Q R ε (List α)
  | 0, _, xs => ret xs
  | room + 1, i, xs =>
    match xs[i]? with
    | none => ret xs
    | some x => do
      let more ← visit x
      liveFrom limit visit room (i + 1) (pushUpTo limit xs more)

/-- Visit each element of a list, to which a visit may add. What is returned is the list then. -/
def forLive (limit : ℕ) (visit : α → Proc Q R ε (List α)) (xs : List α) : Proc Q R ε (List α) :=
  liveFrom limit visit limit 0 xs

end Proc

open Proc

variable {limit room i : ℕ} {visit : α → Proc Q R ε (List α)} {xs xs' : List α} {x : α}
  {tr : List (Event Q R ε)} {p : Proc Q R ε (List α)}

theorem liveFrom_of_getElem? (h : xs[i]? = some x) :
    liveFrom limit visit (room + 1) i xs =
      (visit x >>= fun more => liveFrom limit visit room (i + 1) (pushUpTo limit xs more)) := by
  rw [liveFrom, h]

theorem liveFrom_of_length_le (h : xs.length ≤ i) : liveFrom limit visit room i xs = ret xs := by
  cases room with
  | zero => rfl
  | succ room => rw [liveFrom, List.getElem?_eq_none h]

/-- A run of the loop that has not returned is in the middle of a visit, with an invariant of what
came before. -/
def InVisit (visit : α → Proc Q R ε (List α)) (inv : ℕ → List α → List (Event Q R ε) → Prop)
    (tr : List (Event Q R ε)) (p : Proc Q R ε (List α)) : Prop :=
  ∃ i xs x tr₁ tr₂ p', xs[i]? = some x ∧ inv i xs tr₁ ∧ tr = tr₁ ++ tr₂ ∧
    Steps (visit x) tr₂ p' ∧ (∀ more, p' ≠ ret more) ∧ ∀ xs, p ≠ ret xs

/-- **The rule for loops over a list that grows**, from any position. -/
theorem steps_liveFrom {inv : ℕ → List α → List (Event Q R ε) → Prop}
    (hvisit : ∀ i xs x tr tr' more, xs.length ≤ limit → xs[i]? = some x → inv i xs tr →
      Steps (visit x) tr' (ret more) → inv (i + 1) (pushUpTo limit xs more) (tr ++ tr'))
    (hroom : limit ≤ i + room) (hi : i ≤ xs.length) (hlength : xs.length ≤ limit)
    {tr₀ : List (Event Q R ε)} (hinv : inv i xs tr₀)
    (h : Steps (liveFrom limit visit room i xs) tr p) :
    (∃ xs', p = ret xs' ∧ inv xs'.length xs' (tr₀ ++ tr)) ∨ InVisit visit inv (tr₀ ++ tr) p := by
  induction room generalizing i xs tr₀ tr with
  | zero =>
    obtain ⟨rfl, rfl⟩ := steps_ret_iff.mp h
    obtain rfl : i = xs.length := by omega
    exact .inl ⟨xs, rfl, by rwa [List.append_nil]⟩
  | succ room ih =>
    rcases Nat.eq_or_lt_of_le hi with rfl | hlt
    · rw [liveFrom_of_length_le (Nat.le_refl _)] at h
      obtain ⟨rfl, rfl⟩ := steps_ret_iff.mp h
      exact .inl ⟨xs, rfl, by rwa [List.append_nil]⟩
    have hx : xs[i]? = some xs[i] := List.getElem?_eq_getElem hlt
    rw [liveFrom_of_getElem? hx] at h
    have hnext : ∀ {tr₁ tr₂ more}, Steps (visit xs[i]) tr₁ (ret more) →
        Steps (liveFrom limit visit room (i + 1) (pushUpTo limit xs more)) tr₂ p →
          (∃ xs', p = ret xs' ∧ inv xs'.length xs' ((tr₀ ++ tr₁) ++ tr₂)) ∨
            InVisit visit inv ((tr₀ ++ tr₁) ++ tr₂) p := by
      intro tr₁ tr₂ more hreturns hrest
      have hgrows := (isPrefix_pushUpTo hlength more).length_le
      exact ih (by omega) (by omega) (length_pushUpTo_le limit xs more)
        (hvisit i xs xs[i] tr₀ tr₁ more hlength hx hinv hreturns) hrest
    rcases steps_bind_iff.mp h with ⟨p', hp, rfl⟩ | ⟨tr₁, more, tr₂, rfl, hreturns, hrest⟩
    · cases p' with
      | ret more =>
        have hdone := hnext hp (.refl _)
        rwa [List.append_nil] at hdone
      | fail e =>
        exact .inr ⟨i, xs, xs[i], tr₀, tr, .fail e, hx, hinv, rfl, hp, by simp, by simp⟩
      | ask q k =>
        exact .inr ⟨i, xs, xs[i], tr₀, tr, .ask q k, hx, hinv, rfl, hp, by simp, by simp⟩
    · rw [← List.append_assoc]
      exact hnext hreturns hrest

/-- **The rule for loops over a list that grows.** An invariant of the position, of the list as it
then is, and of what has been asked, that each visit keeps. A run has returned the list, with the
invariant at its end, or is in the middle of a visit. -/
theorem steps_forLive {inv : ℕ → List α → List (Event Q R ε) → Prop}
    (hvisit : ∀ i xs x tr tr' more, xs.length ≤ limit → xs[i]? = some x → inv i xs tr →
      Steps (visit x) tr' (ret more) → inv (i + 1) (pushUpTo limit xs more) (tr ++ tr'))
    (hlength : xs.length ≤ limit) (hinv : inv 0 xs [])
    (h : Steps (forLive limit visit xs) tr p) :
    (∃ xs', p = ret xs' ∧ inv xs'.length xs' tr) ∨ InVisit visit inv tr p :=
  steps_liveFrom hvisit (by omega) (Nat.zero_le _) hlength hinv h

theorem Proc.Relays.forLive (hvisit : ∀ x, (visit x).Relays) : (forLive limit visit xs).Relays := by
  have hfrom : ∀ room i xs, (liveFrom limit visit room i xs).Relays := by
    intro room
    induction room with
    | zero => exact fun _ _ => trivial
    | succ room ih =>
      intro i xs
      rw [liveFrom]
      split
      · trivial
      · exact (hvisit _).bind fun _ => ih _ _
  exact hfrom limit 0 xs

/-- **A loop whose visits add nothing** visits the list as it was. -/
theorem run_forLive {answer : (q : Q) → Except ε (R q)} (hlength : xs.length ≤ limit)
    (hvisit : ∀ x ∈ xs, (visit x).run answer = .ok []) :
    (forLive limit visit xs).run answer = .ok xs ∧
      (forLive limit visit xs).log answer = xs.flatMap fun x => (visit x).log answer := by
  have hfrom : ∀ room i, limit ≤ i + room →
      (liveFrom limit visit room i xs).run answer = .ok xs ∧
        (liveFrom limit visit room i xs).log answer =
          (xs.drop i).flatMap fun x => (visit x).log answer := by
    intro room
    induction room with
    | zero =>
      intro i hi
      rw [List.drop_eq_nil_of_le (by omega)]
      exact ⟨rfl, rfl⟩
    | succ room ih =>
      intro i hi
      rcases Nat.lt_or_ge i xs.length with hlt | hge
      · have hreturns := hvisit xs[i] (List.getElem_mem hlt)
        obtain ⟨hrun, hlog⟩ := ih (i + 1) (by omega)
        rw [liveFrom_of_getElem? (List.getElem?_eq_getElem hlt), run_bind, log_bind hreturns,
          hreturns, List.drop_eq_getElem_cons hlt, List.flatMap_cons, ← hlog]
        refine ⟨?_, by rw [pushUpTo_nil hlength]⟩
        rw [← hrun]
        exact congrArg (fun l => (liveFrom limit visit room (i + 1) l).run answer)
          (pushUpTo_nil hlength)
      · rw [liveFrom_of_length_le hge, List.drop_eq_nil_of_le hge]
        exact ⟨rfl, rfl⟩
  exact hfrom limit 0 (by omega)

end Interaction
