import SubqlConcordium.Interaction.Process

/-!
# Bounds, postconditions and retrying

`Proc.Within P post n p` is the assertion that `p` makes at most `n` requests, all of them in `P`,
and returns nothing outside `post`, whatever it is answered. Failing is always allowed. There is
one rule for each way of building a process, among them the loop that attempts, and attempts anew
from a refreshed state when an attempt has failed.

## Reading a finished loop

A bound says what a loop cannot do. `RetriesTo` says what a finished one has done: which attempts it
made, from which states, and how each of them ended, with the refreshing between them that failed or
did not. It is the loop with everything but the decisions left out, and laws about decisions are
read off it by induction.

## Main definitions

* `Proc.Within` — which requests, how many, and what is returned
* `Proc.round`, `Proc.retry` — attempt again after the failures that are worth it
* `RetriesTo` — a finished run of such a loop, with the attempts it is made of

## Main results

* `Within.bind`, `Within.attempt`, `Within.retry` — the rules
* `Within.steps` — what the assertion says about a run
* `retry_fail` — a failure that is not worth another attempt is final
* `steps_retry_iff` — the finished runs of the loop are those of `RetriesTo`
-/

namespace Interaction

namespace Proc

variable {Q : Type} {R : Q → Type} {ε α β σ : Type}

/-- At most `n` requests, all in `P`, and a returned value in `post`. -/
def Within (P : Q → Prop) (post : α → Prop) : Proc Q R ε α → ℕ → Prop
  | ret a, _ => post a
  | fail _, _ => True
  | ask _ _, 0 => False
  | ask q k, n + 1 => P q ∧ ∀ r, (k r).Within P post n

/-- Attempt from a state. After a failure that `again` accepts, refresh the state and go on. -/
def round (again : ε → Bool) (refresh : Proc Q R ε σ) (attempt : σ → Proc Q R ε α) (s : σ)
    (next : ε → σ → Proc Q R ε α) : Proc Q R ε α := do
  match ← (attempt s).attempt with
  | .ok a => ret a
  | .error e => if again e then refresh >>= next e else fail e

/-- Up to `more` rounds after the first. The last failure is final, but only once the state is
refreshed. -/
def retry (again : ε → Bool) (refresh : Proc Q R ε σ) (attempt : σ → Proc Q R ε α) :
    ℕ → σ → Proc Q R ε α
  | 0, s => round again refresh attempt s fun e _ => fail e
  | more + 1, s => round again refresh attempt s fun _ s' => retry again refresh attempt more s'

variable {P : Q → Prop} {post : α → Prop} {m n : ℕ} {p : Proc Q R ε α}

namespace Within

@[simp] theorem ret_iff {a : α} : (ret a : Proc Q R ε α).Within P post n ↔ post a := by
  cases n <;> exact Iff.rfl

@[simp] theorem fail {e : ε} : (fail e : Proc Q R ε α).Within P post n := by
  cases n <;> exact trivial

theorem mono (h : p.Within P post m) (hmn : m ≤ n) : p.Within P post n := by
  induction p generalizing m n with
  | ret a => exact ret_iff.mpr (ret_iff.mp h)
  | fail e => exact fail
  | ask q k ih =>
    cases m with
    | zero => exact h.elim
    | succ m =>
      cases n with
      | zero => exact absurd hmn (by omega)
      | succ n => exact ⟨h.1, fun r => ih r (h.2 r) (by omega)⟩

theorem await {q : Q} (hq : P q) : (await q : Proc Q R ε (R q)).Within P (fun _ => True) 1 := by
  refine ⟨hq, fun r => ?_⟩
  cases r with
  | ok a => exact ret_iff.mpr trivial
  | error e => exact fail

theorem bind {mid : α → Prop} {post : β → Prop} {f : α → Proc Q R ε β}
    (h : p.Within P mid m) (hf : ∀ a, mid a → (f a).Within P post n) :
    (p >>= f).Within P post (m + n) := by
  induction p generalizing m with
  | ret a => exact (hf a (ret_iff.mp h)).mono (Nat.le_add_left n m)
  | fail e => exact fail
  | ask q k ih =>
    cases m with
    | zero => exact h.elim
    | succ m =>
      rw [ask_bind, Nat.succ_add]
      exact ⟨h.1, fun r => ih r (h.2 r)⟩

theorem attempt (h : p.Within P post n) :
    p.attempt.Within P (fun x => ∀ a, x = .ok a → post a) n := by
  induction p generalizing n with
  | ret a =>
    refine ret_iff.mpr ?_
    rintro _ ⟨⟩
    exact ret_iff.mp h
  | fail e =>
    refine ret_iff.mpr ?_
    rintro _ ⟨⟩
  | ask q k ih =>
    cases n with
    | zero => exact h.elim
    | succ n => exact ⟨h.1, fun r => ih r (h.2 r)⟩

section Retry

variable {again : ε → Bool} {refresh : Proc Q R ε σ} {attempt : σ → Proc Q R ε α}
  {inv : σ → Prop} {k : ℕ} {s : σ}

/-- A round costs an attempt, a refreshing and what follows. -/
theorem round {next : ε → σ → Proc Q R ε α} (hattempt : (attempt s).Within P post m)
    (hrefresh : refresh.Within P inv n)
    (hnext : ∀ e s', inv s' → (next e s').Within P post k) :
    (round again refresh attempt s next).Within P post (m + (n + k)) := by
  refine hattempt.attempt.bind fun x hx => ?_
  cases x with
  | ok a => exact ret_iff.mpr (hx a rfl)
  | error e =>
    by_cases ha : again e
    · simp only [ha, if_true]
      exact hrefresh.bind (hnext e)
    · simp only [ha]
      exact fail

/-- **The rule for retrying.** An invariant of the states that an attempt relies on and that
refreshing reestablishes. -/
theorem retry (hattempt : ∀ s, inv s → (attempt s).Within P post m)
    (hrefresh : refresh.Within P inv n) (more : ℕ) (hs : inv s) :
    (retry again refresh attempt more s).Within P post ((more + 1) * (m + n)) := by
  induction more generalizing s with
  | zero =>
    rw [Nat.zero_add, Nat.one_mul]
    exact round (k := 0) (hattempt s hs) hrefresh fun _ _ _ => fail
  | succ more ih =>
    refine (round (hattempt s hs) hrefresh fun _ s' hs' => ih hs').mono ?_
    rw [Nat.succ_mul (more + 1)]
    omega

end Retry

/-- **What the assertion says about a run.** -/
theorem steps {tr : List (Event Q R ε)} {p' : Proc Q R ε α} (h : p.Within P post n)
    (hsteps : Steps p tr p') :
    tr.length ≤ n ∧ (∀ ev ∈ tr, P ev.1) ∧ p'.Within P post (n - tr.length) := by
  induction hsteps generalizing n with
  | refl p => exact ⟨Nat.zero_le n, by simp, h⟩
  | ask _ ih =>
    cases n with
    | zero => exact h.elim
    | succ n =>
      obtain ⟨hlen, hP, hrest⟩ := ih (h.2 _)
      refine ⟨Nat.succ_le_succ hlen, ?_, ?_⟩
      · rintro ev (_ | ⟨_, hmem⟩)
        · exact h.1
        · exact hP ev hmem
      · rw [List.length_cons, Nat.succ_sub_succ]
        exact hrest

end Within

section Retry

variable {again : ε → Bool} {refresh : Proc Q R ε σ} {attempt : σ → Proc Q R ε α} {s : σ}

/-- An attempt that fails at once, in a way not worth another attempt, is the last one. -/
theorem retry_fail {more : ℕ} {e : ε} (hattempt : attempt s = .fail e) (hagain : again e = false) :
    retry again refresh attempt more s = .fail e := by
  have hround : ∀ next, round again refresh attempt s next = .fail e := by
    intro next
    simp only [round, hattempt, Proc.attempt, ret_bind, hagain]
    rfl
  cases more with
  | zero => exact hround _
  | succ more => exact hround _

end Retry

end Proc

/-! ### Finished runs -/

open Proc

variable {Q : Type} {R : Q → Type} {ε α β σ : Type} {tr : List (Event Q R ε)}

/-- **Finished runs of a sequence.** The first process has failed, or it has returned and the second
one has finished. -/
theorem finishes_bind_iff {p : Proc Q R ε α} {f : α → Proc Q R ε β} {x : Except ε β} :
    Steps (p >>= f) tr (ofExcept x) ↔
      (∃ e, Steps p tr (fail e) ∧ x = .error e) ∨
        ∃ tr₁ a tr₂, tr = tr₁ ++ tr₂ ∧ Steps p tr₁ (ret a) ∧ Steps (f a) tr₂ (ofExcept x) := by
  rw [steps_bind_iff]
  constructor
  · rintro (⟨p', hp, hx⟩ | h)
    · cases p' with
      | ret a => exact .inr ⟨tr, a, [], by simp, hp, by rw [hx]; exact .refl _⟩
      | fail e =>
        cases x with
        | ok b => cases hx
        | error e' =>
          cases hx
          exact .inl ⟨e, hp, rfl⟩
      | ask q k => cases x <;> cases hx
    · exact .inr h
  · rintro (⟨e, hp, rfl⟩ | h)
    · exact .inl ⟨fail e, hp, rfl⟩
    · exact .inr h

theorem returns_attempt_iff {p : Proc Q R ε α} {x : Except ε α} :
    Steps p.attempt tr (ret x) ↔ Steps p tr (ofExcept x) := by
  induction p generalizing tr with
  | ret a => cases x <;> simp [Proc.attempt, eq_comm]
  | fail e => cases x <;> simp [Proc.attempt, eq_comm]
  | ask q k ih =>
    have hask : ∀ r tr', Steps (k r).attempt tr' (ret x) ↔ Steps (k r) tr' (ofExcept x) :=
      fun r tr' => ih r
    rw [Proc.attempt, steps_ask_iff, steps_ask_iff]
    cases x <;> simp [hask]

theorem not_fails_attempt {p : Proc Q R ε α} {e : ε} : ¬ Steps p.attempt tr (fail e) := by
  induction p generalizing tr with
  | ret a => simp [Proc.attempt]
  | fail e => simp [Proc.attempt]
  | ask q k ih =>
    rw [Proc.attempt, steps_ask_iff]
    rintro (⟨-, hask⟩ | ⟨r, tr', -, h⟩)
    · cases hask
    · exact ih r h

theorem finishes_await_iff {q : Q} {x : Except ε (R q)} :
    Steps (await q : Proc Q R ε (R q)) tr (ofExcept x) ↔ tr = [⟨q, x⟩] := by
  constructor
  · intro h
    rcases steps_ask_iff.mp h with ⟨-, hask⟩ | ⟨r, tr', rfl, hr⟩
    · cases x <;> cases hask
    · cases r with
      | ok a =>
        obtain ⟨rfl, hx⟩ := steps_ret_iff.mp hr
        cases x <;> cases hx
        rfl
      | error e =>
        obtain ⟨rfl, hx⟩ := steps_fail_iff.mp hr
        cases x <;> cases hx
        rfl
  · rintro rfl
    exact .ask (.refl _)

/-- A finished attempt: from which state, what it was answered, and how it ended. -/
structure Attempted (σ Q : Type) (R : Q → Type) (ε α : Type) where
  state : σ
  trace : List (Event Q R ε)
  outcome : Except ε α

section Retry

variable (again : ε → Bool) (refresh : Proc Q R ε σ) (attempt : σ → Proc Q R ε α)

/-- A finished run of the loop with so many rounds left: its trace, its attempts, and its
outcome. -/
inductive RetriesTo :
    ℕ → σ → List (Event Q R ε) → List (Attempted σ Q R ε α) → Except ε α → Prop
  /-- The attempt decides. -/
  | final {more : ℕ} {s : σ} {tr : List (Event Q R ε)} {x : Except ε α}
      (h : Steps (attempt s) tr (ofExcept x)) (hx : ∀ e, x = .error e → again e = false) :
      RetriesTo more s tr [⟨s, tr, x⟩] x
  /-- The attempt is worth another, but the state cannot be refreshed. -/
  | stuck {more : ℕ} {s : σ} {tr tr' : List (Event Q R ε)} {e e' : ε}
      (h : Steps (attempt s) tr (fail e)) (ha : again e = true) (hr : Steps refresh tr' (fail e')) :
      RetriesTo more s (tr ++ tr') [⟨s, tr, .error e⟩] (.error e')
  /-- The attempt is worth another, but was the last one. -/
  | exhausted {s s' : σ} {tr tr' : List (Event Q R ε)} {e : ε}
      (h : Steps (attempt s) tr (fail e)) (ha : again e = true) (hr : Steps refresh tr' (ret s')) :
      RetriesTo 0 s (tr ++ tr') [⟨s, tr, .error e⟩] (.error e)
  /-- The attempt is worth another, and there is one. -/
  | more {more : ℕ} {s s' : σ} {tr tr' tr'' : List (Event Q R ε)} {e : ε}
      {attempts : List (Attempted σ Q R ε α)} {x : Except ε α}
      (h : Steps (attempt s) tr (fail e)) (ha : again e = true) (hr : Steps refresh tr' (ret s'))
      (hrest : RetriesTo more s' tr'' attempts x) :
      RetriesTo (more + 1) s (tr ++ (tr' ++ tr'')) (⟨s, tr, .error e⟩ :: attempts) x

variable {again refresh attempt}

/-- **Who decides.** The outcome is that of an attempt, from a state in the invariant of refreshing,
or the failure of refreshing. -/
theorem RetriesTo.decided {more : ℕ} {s : σ} {attempts : List (Attempted σ Q R ε α)}
    {x : Except ε α} {inv : σ → Prop} (h : RetriesTo again refresh attempt more s tr attempts x)
    (hs : inv s) (hrefresh : ∀ tr s', Steps refresh tr (ret s') → inv s') :
    (∃ s' tr', inv s' ∧ Steps (attempt s') tr' (ofExcept x) ∧ tr' ⊆ tr) ∨
      ∃ e tr', Steps refresh tr' (fail e) ∧ x = .error e ∧ tr' ⊆ tr := by
  induction h with
  | @final more s tr x h hx => exact .inl ⟨s, tr, hs, h, List.Subset.refl tr⟩
  | @stuck more s tr tr' e e' h ha hr =>
    exact .inr ⟨e', tr', hr, rfl, List.subset_append_right tr tr'⟩
  | @exhausted s s' tr tr' e h ha hr =>
    exact .inl ⟨s, tr, hs, h, List.subset_append_left tr tr'⟩
  | @more more s s' tr tr' tr'' e attempts x h ha hr hrest ih =>
    have hsub : tr'' ⊆ tr ++ (tr' ++ tr'') := fun ev hev =>
      List.mem_append_right _ (List.mem_append_right _ hev)
    rcases ih (hrefresh tr' s' hr) with ⟨s₁, tr₁, hs₁, h₁, hsub₁⟩ | ⟨e', tr₁, h₁, hx, hsub₁⟩
    · exact .inl ⟨s₁, tr₁, hs₁, h₁, fun ev hev => hsub (hsub₁ hev)⟩
    · exact .inr ⟨e', tr₁, h₁, hx, fun ev hev => hsub (hsub₁ hev)⟩

/-- **One round, finished.** Its attempt has decided, or has failed in a way worth another. -/
theorem finishes_round_iff {s : σ} {next : ε → σ → Proc Q R ε α} {x : Except ε α} :
    Steps (round again refresh attempt s next) tr (ofExcept x) ↔
      (Steps (attempt s) tr (ofExcept x) ∧ ∀ e, x = .error e → again e = false) ∨
        ∃ tr₁ e tr₂, tr = tr₁ ++ tr₂ ∧ Steps (attempt s) tr₁ (fail e) ∧ again e = true ∧
          Steps (refresh >>= next e) tr₂ (ofExcept x) := by
  rw [Proc.round, finishes_bind_iff]
  constructor
  · rintro (⟨e, hfail, -⟩ | ⟨tr₁, y, tr₂, rfl, hy, hbody⟩)
    · exact absurd hfail not_fails_attempt
    · rw [returns_attempt_iff] at hy
      cases y with
      | ok a =>
        obtain ⟨rfl, hx⟩ := steps_ret_iff.mp hbody
        cases x with
        | ok b =>
          cases hx
          exact .inl ⟨by simpa using hy, by simp⟩
        | error e => cases hx
      | error e =>
        cases ha : again e with
        | true =>
          simp only [ha, if_true] at hbody
          exact .inr ⟨tr₁, e, tr₂, rfl, hy, ha, hbody⟩
        | false =>
          simp only [ha, Bool.false_eq_true, if_false] at hbody
          obtain ⟨rfl, hx⟩ := steps_fail_iff.mp hbody
          cases x with
          | ok b => cases hx
          | error e' =>
            cases hx
            refine .inl ⟨by simpa using hy, ?_⟩
            rintro _ ⟨⟩
            exact ha
  · rintro (⟨h, hx⟩ | ⟨tr₁, e, tr₂, rfl, h, ha, hrest⟩)
    · refine .inr ⟨tr, x, [], by simp, returns_attempt_iff.mpr h, ?_⟩
      cases x with
      | ok a => exact .refl _
      | error e =>
        simp only [hx e rfl]
        exact .refl _
    · refine .inr ⟨tr₁, .error e, tr₂, rfl, returns_attempt_iff.mpr h, ?_⟩
      simp only [ha, if_true]
      exact hrest

/-- **Finished runs of the loop.** -/
theorem steps_retry_iff {more : ℕ} {s : σ} {x : Except ε α} :
    Steps (retry again refresh attempt more s) tr (ofExcept x) ↔
      ∃ attempts, RetriesTo again refresh attempt more s tr attempts x := by
  induction more generalizing s tr with
  | zero =>
    rw [retry, finishes_round_iff]
    constructor
    · rintro (⟨h, hx⟩ | ⟨tr₁, e, tr₂, rfl, h, ha, hrest⟩)
      · exact ⟨_, .final h hx⟩
      · rcases finishes_bind_iff.mp hrest with ⟨e', hr, rfl⟩ | ⟨tr₂, s', tr₃, rfl, hr, hfail⟩
        · exact ⟨_, .stuck h ha hr⟩
        · obtain ⟨rfl, hx⟩ := steps_fail_iff.mp hfail
          cases x with
          | ok a => cases hx
          | error e' =>
            cases hx
            rw [List.append_nil]
            exact ⟨_, .exhausted h ha hr⟩
    · rintro ⟨attempts, h⟩
      cases h with
      | final h hx => exact .inl ⟨h, hx⟩
      | stuck h ha hr => exact .inr ⟨_, _, _, rfl, h, ha, finishes_bind_iff.mpr (.inl ⟨_, hr, rfl⟩)⟩
      | exhausted h ha hr =>
        refine .inr ⟨_, _, _, rfl, h, ha, finishes_bind_iff.mpr (.inr ⟨_, _, [], ?_, hr, .refl _⟩)⟩
        rw [List.append_nil]
  | succ more ih =>
    rw [retry, finishes_round_iff]
    constructor
    · rintro (⟨h, hx⟩ | ⟨tr₁, e, tr₂, rfl, h, ha, hrest⟩)
      · exact ⟨_, .final h hx⟩
      · rcases finishes_bind_iff.mp hrest with ⟨e', hr, rfl⟩ | ⟨tr₂, s', tr₃, rfl, hr, hnext⟩
        · exact ⟨_, .stuck h ha hr⟩
        · obtain ⟨attempts, hattempts⟩ := ih.mp hnext
          exact ⟨_, .more h ha hr hattempts⟩
    · rintro ⟨attempts, h⟩
      cases h with
      | final h hx => exact .inl ⟨h, hx⟩
      | stuck h ha hr => exact .inr ⟨_, _, _, rfl, h, ha, finishes_bind_iff.mpr (.inl ⟨_, hr, rfl⟩)⟩
      | more h ha hr hrest =>
        exact .inr ⟨_, _, _, rfl, h, ha,
          finishes_bind_iff.mpr (.inr ⟨_, _, _, rfl, hr, ih.mpr ⟨_, hrest⟩⟩)⟩

end Retry

end Interaction
