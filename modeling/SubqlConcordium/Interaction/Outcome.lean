import SubqlConcordium.Interaction.Process

/-!
# How processes end

A process that catches nothing ends with the first request that fails. If it throws nothing of its
own either, this is its only way to fail, so an error that comes out of it is one that was put in.
When it makes only so many requests, whatever they are answered, it has also to end.

## Processes that add nothing

Most processes that are made of requests pass on what they are told: if a request fails, so do they,
and with the same error. `Propagates` says that, and `Relays` says besides that they never fail by
themselves. A process that catches an error has neither property. Both are kept by sequencing and by
loops, so a long process has them because its parts do.

## Main definitions

* `Proc.Propagates` — a process that fails as soon as a request does
* `Proc.Relays` — a process that fails then only
* `Proc.AtMost` — a process that makes at most so many requests
* `Proc.Awaits` — the request that a process waits for

## Main results

* `Proc.Propagates.steps`, `Proc.Propagates.requests` — a run of a process that catches nothing
* `Proc.Relays.fails` — an error that comes out of a process that throws nothing
* `Steps.atMost` — the length of a run, and of what may follow
* `awaits_bind_iff` — what a sequence waits for
-/

namespace Interaction

open Proc

variable {Q : Type} {R : Q → Type} {ε α β : Type}

/-! ### Failures -/

/-- A process that fails as soon as one of its requests does. -/
def Proc.Propagates : Proc Q R ε α → Prop
  | ret _ => True
  | fail _ => True
  | ask _ k => (∀ e, k (.error e) = fail e) ∧ ∀ r, (k (.ok r)).Propagates

/-- A process that fails as soon as one of its requests does, and never by itself. -/
def Proc.Relays : Proc Q R ε α → Prop
  | ret _ => True
  | fail _ => False
  | ask _ k => (∀ e, k (.error e) = fail e) ∧ ∀ r, (k (.ok r)).Relays

variable {p p' : Proc Q R ε α} {f : α → Proc Q R ε β} {tr : List (Event Q R ε)} {e : ε}

theorem relays_await (q : Q) : (await q : Proc Q R ε (R q)).Relays :=
  ⟨fun _ => rfl, fun _ => trivial⟩

theorem Proc.Relays.propagates (hp : p.Relays) : p.Propagates := by
  induction p with
  | ret a => trivial
  | fail e => trivial
  | ask q k ih => exact ⟨hp.1, fun r => ih (.ok r) (hp.2 r)⟩

theorem Proc.Relays.bind (hp : p.Relays) (hf : ∀ a, (f a).Relays) : (p >>= f).Relays := by
  induction p with
  | ret a => exact hf a
  | fail e => exact hp
  | ask q k ih => exact ⟨fun e => congrArg (Proc.bind · f) (hp.1 e), fun r => ih (.ok r) (hp.2 r)⟩

theorem Proc.Relays.foldlM {σ : Type} {g : σ → α → Proc Q R ε σ} (hg : ∀ s a, (g s a).Relays)
    (l : List α) (s : σ) : (l.foldlM g s).Relays := by
  induction l generalizing s with
  | nil => trivial
  | cons a l ih =>
    rw [List.foldlM_cons]
    exact (hg s a).bind ih

theorem Proc.Propagates.bind (hp : p.Propagates) (hf : ∀ a, (f a).Propagates) :
    (p >>= f).Propagates := by
  induction p with
  | ret a => exact hf a
  | fail e => trivial
  | ask q k ih => exact ⟨fun e => congrArg (Proc.bind · f) (hp.1 e), fun r => ih (.ok r) (hp.2 r)⟩

/-- **A run of a process that catches nothing.** No request has failed yet, or the last one has,
and the process with it. -/
theorem Proc.Propagates.steps (hp : p.Propagates) (h : Steps p tr p') :
    (∀ ev ∈ tr, ∃ r, ev.2 = .ok r) ∨
      ∃ tr₁ q e, tr = tr₁ ++ [⟨q, .error e⟩] ∧ (∀ ev ∈ tr₁, ∃ r, ev.2 = .ok r) ∧ p' = fail e := by
  induction h with
  | refl => exact .inl (by simp)
  | @ask q k r tr p' h ih =>
    cases r with
    | error e =>
      rw [hp.1 e] at h
      obtain ⟨rfl, rfl⟩ := steps_fail_iff.mp h
      exact .inr ⟨[], q, e, rfl, by simp, rfl⟩
    | ok r =>
      have hfirst : ∃ r', (Except.ok r : Except ε (R q)) = .ok r' := ⟨r, rfl⟩
      rcases ih (hp.2 r) with hok | ⟨tr₁, q', e, rfl, hok, hend⟩
      · exact .inl (List.forall_mem_cons.mpr ⟨hfirst, hok⟩)
      · exact .inr ⟨⟨q, .ok r⟩ :: tr₁, q', e, rfl, List.forall_mem_cons.mpr ⟨hfirst, hok⟩, hend⟩

theorem Proc.Propagates.ok_of_returns {a : α} (hp : p.Propagates) (h : Steps p tr (ret a)) :
    ∀ ev ∈ tr, ∃ r, ev.2 = .ok r := by
  rcases hp.steps h with hok | ⟨_, _, _, _, _, hend⟩
  · exact hok
  · cases hend

/-- **What a process that catches nothing requests**, of whoever answers by a fixed oracle what it
answers at all. It is what it would request of the oracle, as far as it has come. -/
theorem Proc.Propagates.requests (hp : p.Propagates) (h : Steps p tr p') {reply : (q : Q) → R q}
    (hreply : ∀ ev ∈ tr, ∀ r, ev.2 = .ok r → r = reply ev.1) :
    tr.map Sigma.fst <+: (p.log fun q => .ok (reply q)).map Sigma.fst ∧
      ∀ a, p' = ret a → tr.map Sigma.fst = (p.log fun q => .ok (reply q)).map Sigma.fst ∧
        (p.run fun q => .ok (reply q)) = .ok a := by
  induction h with
  | refl p =>
    refine ⟨List.nil_prefix, fun a ha => ?_⟩
    rw [ha]
    exact ⟨rfl, rfl⟩
  | @ask q k r tr p' h ih =>
    rw [List.map_cons, log, List.map_cons]
    cases r with
    | error e =>
      rw [hp.1 e] at h
      obtain ⟨rfl, rfl⟩ := steps_fail_iff.mp h
      exact ⟨(List.prefix_cons_inj q).mpr List.nil_prefix, fun a ha => by cases ha⟩
    | ok r =>
      obtain rfl : r = reply q := hreply ⟨q, .ok r⟩ List.mem_cons_self r rfl
      obtain ⟨hcut, hreturns⟩ := ih (hp.2 _) fun ev hev =>
        hreply ev (List.mem_cons_of_mem _ hev)
      refine ⟨(List.prefix_cons_inj q).mpr hcut, fun a ha => ?_⟩
      exact ⟨congrArg _ (hreturns a ha).1, (hreturns a ha).2⟩

/-- **An error that comes out of a process that throws nothing** is the last reply that it got. -/
theorem Proc.Relays.fails (hp : p.Relays) (h : Steps p tr (fail e)) :
    ∃ tr₁ q, tr = tr₁ ++ [⟨q, .error e⟩] ∧ ∀ ev ∈ tr₁, ∃ r, ev.2 = .ok r := by
  induction p generalizing tr with
  | ret a => cases (steps_ret_iff.mp h).2
  | fail e' => exact hp.elim
  | ask q k ih =>
    rcases steps_ask_iff.mp h with ⟨-, hask⟩ | ⟨r, tr', rfl, h'⟩
    · cases hask
    · cases r with
      | error e' =>
        rw [hp.1 e'] at h'
        obtain ⟨rfl, hfail⟩ := steps_fail_iff.mp h'
        cases hfail
        exact ⟨[], q, rfl, by simp⟩
      | ok r =>
        obtain ⟨tr₁, q', rfl, hok⟩ := ih (.ok r) (hp.2 r) h'
        exact ⟨⟨q, .ok r⟩ :: tr₁, q', rfl, List.forall_mem_cons.mpr ⟨⟨r, rfl⟩, hok⟩⟩

/-! ### The number of requests -/

/-- A process that makes at most `n` requests, whatever they are answered. -/
def Proc.AtMost : ℕ → Proc Q R ε α → Prop
  | _, ret _ => True
  | _, fail _ => True
  | 0, ask _ _ => False
  | n + 1, ask _ k => ∀ r, (k r).AtMost n

variable {m n : ℕ}

theorem atMost_ofExcept (x : Except ε α) : (ofExcept x : Proc Q R ε α).AtMost n := by
  cases x <;> cases n <;> trivial

theorem atMost_await (q : Q) : (await q : Proc Q R ε (R q)).AtMost 1 := fun r => atMost_ofExcept r

theorem Proc.AtMost.mono (hp : p.AtMost m) (h : m ≤ n) : p.AtMost n := by
  induction p generalizing m n with
  | ret a => cases n <;> trivial
  | fail e => cases n <;> trivial
  | ask q k ih =>
    cases m with
    | zero => exact hp.elim
    | succ m =>
      obtain ⟨n, rfl⟩ := Nat.exists_eq_add_one_of_ne_zero (by omega : n ≠ 0)
      exact fun r => ih r (hp r) (Nat.le_of_succ_le_succ h)

theorem Proc.AtMost.bind (hp : p.AtMost m) (hf : ∀ a, (f a).AtMost n) :
    (p >>= f).AtMost (m + n) := by
  induction p generalizing m with
  | ret a => exact (hf a).mono (Nat.le_add_left n m)
  | fail e => cases m + n <;> trivial
  | ask q k ih =>
    cases m with
    | zero => exact hp.elim
    | succ m =>
      rw [Nat.succ_add]
      exact fun r => ih r (hp r)

/-- **The length of a run**, and of what may follow. -/
theorem Steps.atMost (h : Steps p tr p') (hp : p.AtMost n) :
    tr.length ≤ n ∧ p'.AtMost (n - tr.length) := by
  induction h generalizing n with
  | refl => exact ⟨n.zero_le, hp⟩
  | @ask q k r tr p' _ ih =>
    cases n with
    | zero => exact hp.elim
    | succ n =>
      obtain ⟨hlength, hrest⟩ := ih (hp r)
      rw [List.length_cons, Nat.succ_sub_succ]
      exact ⟨Nat.succ_le_succ hlength, hrest⟩

theorem Steps.length_lt {q : Q} {k : Except ε (R q) → Proc Q R ε α} (h : Steps p tr (.ask q k))
    (hp : p.AtMost n) : tr.length < n := by
  obtain ⟨hlength, hrest⟩ := h.atMost hp
  refine Nat.lt_of_le_of_ne hlength fun heq => ?_
  rw [heq, Nat.sub_self] at hrest
  exact hrest

/-! ### What a process waits for -/

/-- After the replies of `tr`, the process waits for `q`. -/
def Proc.Awaits (p : Proc Q R ε α) (tr : List (Event Q R ε)) (q : Q) : Prop :=
  ∃ k, Steps p tr (.ask q k)

variable {q : Q}

theorem awaits_await_iff {q' : Q} :
    (await q' : Proc Q R ε (R q')).Awaits tr q ↔ tr = [] ∧ q = q' := by
  constructor
  · rintro ⟨k, h⟩
    rcases steps_ask_iff.mp h with ⟨rfl, hask⟩ | ⟨r, tr', rfl, h'⟩
    · cases hask
      exact ⟨rfl, rfl⟩
    · cases r with
      | ok a => cases (steps_ret_iff.mp h').2
      | error e => cases (steps_fail_iff.mp h').2
  · rintro ⟨rfl, rfl⟩
    exact ⟨_, .refl _⟩

@[simp] theorem not_awaits_ret {a : α} : ¬ (ret a : Proc Q R ε α).Awaits tr q := by
  rintro ⟨k, h⟩
  cases (steps_ret_iff.mp h).2

theorem not_awaits_ofExcept {x : Except ε α} : ¬ (ofExcept x : Proc Q R ε α).Awaits tr q := by
  rintro ⟨k, h⟩
  cases x with
  | ok a => cases (steps_ret_iff.mp h).2
  | error e => cases (steps_fail_iff.mp h).2

/-- **What a sequence waits for.** -/
theorem awaits_bind_iff :
    (p >>= f).Awaits tr q ↔
      p.Awaits tr q ∨
        ∃ tr₁ a tr₂, tr = tr₁ ++ tr₂ ∧ Steps p tr₁ (ret a) ∧ (f a).Awaits tr₂ q := by
  constructor
  · rintro ⟨k, h⟩
    rcases steps_bind_iff.mp h with ⟨p', hp, hask⟩ | ⟨tr₁, a, tr₂, rfl, h₁, h₂⟩
    · cases p' with
      | ret a => exact .inr ⟨tr, a, [], by simp, hp, k, by rw [hask]; exact .refl _⟩
      | fail e => cases hask
      | ask q' k' =>
        cases hask
        exact .inl ⟨k', hp⟩
    · exact .inr ⟨tr₁, a, tr₂, rfl, h₁, k, h₂⟩
  · rintro (⟨k, h⟩ | ⟨tr₁, a, tr₂, rfl, h₁, k, h₂⟩)
    · exact ⟨_, h.bind f⟩
    · exact ⟨k, steps_bind_iff.mpr (.inr ⟨tr₁, a, tr₂, rfl, h₁, h₂⟩)⟩

theorem Steps.awaits_of_append {r : Except ε (R q)} (h : Steps p (tr ++ [⟨q, r⟩]) p') :
    p.Awaits tr q := by
  induction tr generalizing p with
  | nil =>
    cases h with
    | ask _ => exact ⟨_, .refl _⟩
  | cons ev tr ih =>
    cases h with
    | ask h' =>
      obtain ⟨k, hk⟩ := ih h'
      exact ⟨k, .ask hk⟩

end Interaction
