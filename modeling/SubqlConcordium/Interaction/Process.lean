import Mathlib.Data.List.Basic
import Mathlib.Data.Sigma.Basic

/-!
# Request/response processes

An asynchronous function that talks to a server is a tree: it asks a request, is suspended, and
goes on with whatever was answered. `Proc` is that tree. It carries no scheduler and no server;
those come in from outside, either as a fixed oracle (`Proc.run`), or as an arbitrary sequence of
replies (`Steps`), which is what an interleaving with other processes looks like from inside.

Failure is part of the protocol. A request may be answered with an error, and a process may stop
with one; `attempt` is the `catch` that turns the second into a value.

## Main definitions

* `Proc` — request/response processes, with their monad structure
* `Proc.await`, `Proc.attempt`, `Proc.ofExcept` — one request, a caught failure, a pure failure
* `Steps p tr p'` — answering the requests of `p` as `tr` records leaves `p'`
* `Proc.run` — the outcome against a fixed oracle

## Main results

* `steps_bind_iff` — a partial run of `p >>= f` is a partial run of `p`, or a whole one and then
  one of `f`
* `returns_bind_iff`, `returns_await_iff` — the same for runs that return
* `run_bind`, `log_bind` — running against an oracle is a monad morphism, and what it requests
* `run_eq_ok_iff` — returning against an oracle is a run whose replies are all the oracle's
* `foldlM_congr`, `foldlM_flatMap` — loops
-/

namespace Interaction

/-- A process that asks requests `q : Q`, each answered by `R q` or an error `ε`, and stops with a
value or an error. -/
inductive Proc (Q : Type) (R : Q → Type) (ε α : Type) where
  | ret (a : α)
  | fail (e : ε)
  | ask (q : Q) (k : Except ε (R q) → Proc Q R ε α)

variable {Q : Type} {R : Q → Type} {ε α β : Type}

namespace Proc

/-- Sequencing: the second process starts where the first one returns. -/
def bind : Proc Q R ε α → (α → Proc Q R ε β) → Proc Q R ε β
  | ret a, f => f a
  | fail e, _ => fail e
  | ask q k, f => ask q fun r => (k r).bind f

instance : Monad (Proc Q R ε) where
  pure := ret
  bind := bind

@[simp] theorem pure_eq (a : α) : (pure a : Proc Q R ε α) = ret a := rfl

@[simp] theorem ret_bind (a : α) (f : α → Proc Q R ε β) : (ret a >>= f) = f a := rfl

@[simp] theorem fail_bind (e : ε) (f : α → Proc Q R ε β) : (fail e >>= f) = fail e := rfl

@[simp] theorem ask_bind (q : Q) (k : Except ε (R q) → Proc Q R ε α) (f : α → Proc Q R ε β) :
    (ask q k >>= f) = ask q fun r => k r >>= f := rfl

instance : LawfulMonad (Proc Q R ε) :=
  LawfulMonad.mk' _
    (fun p => by
      induction p with
      | ret a => rfl
      | fail e => rfl
      | ask q k ih => exact congrArg (ask q) (funext ih))
    (fun _ _ => rfl)
    (fun p f g => by
      induction p with
      | ret a => rfl
      | fail e => rfl
      | ask q k ih => exact congrArg (ask q) (funext ih))

/-- A computation that makes no request. -/
def ofExcept : Except ε α → Proc Q R ε α
  | .ok a => ret a
  | .error e => fail e

@[simp] theorem ofExcept_ok (a : α) : (ofExcept (.ok a) : Proc Q R ε α) = ret a := rfl

@[simp] theorem ofExcept_error (e : ε) : (ofExcept (.error e) : Proc Q R ε α) = fail e := rfl

/-- One request. An error reply is the error of the process. -/
def await (q : Q) : Proc Q R ε (R q) := ask q ofExcept

/-- `try p`: the failure of `p` as a value. -/
def attempt : Proc Q R ε α → Proc Q R ε (Except ε α)
  | ret a => ret (.ok a)
  | fail e => ret (.error e)
  | ask q k => ask q fun r => (k r).attempt

/-- The process makes no further request. -/
def Stopped : Proc Q R ε α → Prop
  | ret _ => True
  | fail _ => True
  | ask _ _ => False

/-! ### Running against an oracle -/

/-- The outcome when every request is answered by one fixed oracle. -/
def run (answer : (q : Q) → Except ε (R q)) : Proc Q R ε α → Except ε α
  | ret a => .ok a
  | fail e => .error e
  | ask q k => (k (answer q)).run answer

/-- The requests and replies of `run`, in order. -/
def log (answer : (q : Q) → Except ε (R q)) : Proc Q R ε α → List ((q : Q) × Except ε (R q))
  | ret _ => []
  | fail _ => []
  | ask q k => ⟨q, answer q⟩ :: (k (answer q)).log answer

variable {answer : (q : Q) → Except ε (R q)}

@[simp] theorem run_ret (a : α) : (ret a : Proc Q R ε α).run answer = .ok a := rfl

@[simp] theorem run_fail (e : ε) : (fail e : Proc Q R ε α).run answer = .error e := rfl

@[simp] theorem run_ofExcept (x : Except ε α) :
    (ofExcept x : Proc Q R ε α).run answer = x := by
  cases x <;> rfl

@[simp] theorem run_await (q : Q) : (await q : Proc Q R ε (R q)).run answer = answer q := by
  simp only [await, run]
  exact run_ofExcept _

/-- Running against an oracle is a monad morphism. -/
@[simp] theorem run_bind (p : Proc Q R ε α) (f : α → Proc Q R ε β) :
    (p >>= f).run answer = (p.run answer >>= fun a => (f a).run answer) := by
  induction p with
  | ret a => rfl
  | fail e => rfl
  | ask q k ih => exact ih (answer q)

@[simp] theorem log_await (q : Q) :
    (await q : Proc Q R ε (R q)).log answer = [⟨q, answer q⟩] := by
  simp only [await, log]
  cases answer q <;> rfl

theorem log_bind {p : Proc Q R ε α} {f : α → Proc Q R ε β} {a : α} (h : p.run answer = .ok a) :
    (p >>= f).log answer = p.log answer ++ (f a).log answer := by
  induction p with
  | ret b =>
    cases h
    rfl
  | fail e => cases h
  | ask q k ih => exact congrArg _ (ih (answer q) h)

end Proc

open Proc

/-! ### Runs seen from inside

`Steps` answers requests by whatever the trace records. Nothing is assumed about who wrote it. -/

/-- One request with its reply. -/
abbrev Event (Q : Type) (R : Q → Type) (ε : Type) : Type := (q : Q) × Except ε (R q)

/-- `Steps p tr p'`: after the replies of `tr`, in order, `p` has become `p'`. -/
inductive Steps : Proc Q R ε α → List (Event Q R ε) → Proc Q R ε α → Prop where
  | refl (p : Proc Q R ε α) : Steps p [] p
  | ask {q : Q} {k : Except ε (R q) → Proc Q R ε α} {r : Except ε (R q)}
      {tr : List (Event Q R ε)} {p' : Proc Q R ε α} (h : Steps (k r) tr p') :
      Steps (.ask q k) (⟨q, r⟩ :: tr) p'

variable {tr tr' : List (Event Q R ε)} {p p' p'' : Proc Q R ε α}

@[simp] theorem steps_ret_iff {a : α} : Steps (ret a) tr p' ↔ tr = [] ∧ p' = ret a := by
  constructor
  · rintro ⟨⟩
    exact ⟨rfl, rfl⟩
  · rintro ⟨rfl, rfl⟩
    exact .refl _

@[simp] theorem steps_fail_iff {e : ε} : Steps (fail e) tr p' ↔ tr = [] ∧ p' = fail e := by
  constructor
  · rintro ⟨⟩
    exact ⟨rfl, rfl⟩
  · rintro ⟨rfl, rfl⟩
    exact .refl _

theorem steps_ask_iff {q : Q} {k : Except ε (R q) → Proc Q R ε α} :
    Steps (ask q k) tr p' ↔
      (tr = [] ∧ p' = ask q k) ∨ ∃ r tr', tr = ⟨q, r⟩ :: tr' ∧ Steps (k r) tr' p' := by
  constructor
  · intro h
    cases h with
    | refl => exact Or.inl ⟨rfl, rfl⟩
    | ask h => exact Or.inr ⟨_, _, rfl, h⟩
  · rintro (⟨rfl, rfl⟩ | ⟨r, tr', rfl, h⟩)
    · exact .refl _
    · exact .ask h

theorem Steps.trans (h : Steps p tr p') (h' : Steps p' tr' p'') : Steps p (tr ++ tr') p'' := by
  induction h with
  | refl => exact h'
  | ask _ ih => exact .ask (ih h')

theorem Steps.cut (h : Steps p (tr ++ tr') p'') : ∃ p', Steps p tr p' ∧ Steps p' tr' p'' := by
  induction tr generalizing p with
  | nil => exact ⟨p, .refl _, h⟩
  | cons ev tr ih =>
    cases h with
    | ask h =>
      obtain ⟨p', hfirst, hrest⟩ := ih h
      exact ⟨p', .ask hfirst, hrest⟩

theorem Steps.bind (h : Steps p tr p') (f : α → Proc Q R ε β) :
    Steps (p >>= f) tr (p' >>= f) := by
  induction h with
  | refl => exact .refl _
  | ask _ ih => exact .ask ih

/-- **Runs of a sequence.** Either the first process is still going, or it has returned and the
rest of the trace belongs to the second. -/
theorem steps_bind_iff {f : α → Proc Q R ε β} {t : Proc Q R ε β} :
    Steps (p >>= f) tr t ↔
      (∃ p', Steps p tr p' ∧ t = (p' >>= f)) ∨
        ∃ tr₁ a tr₂, tr = tr₁ ++ tr₂ ∧ Steps p tr₁ (ret a) ∧ Steps (f a) tr₂ t := by
  constructor
  · intro h
    induction p generalizing tr with
    | ret a => exact Or.inr ⟨[], a, tr, rfl, .refl _, h⟩
    | fail e =>
      obtain ⟨rfl, rfl⟩ := steps_fail_iff.mp h
      exact Or.inl ⟨fail e, .refl _, rfl⟩
    | ask q k ih =>
      rcases steps_ask_iff.mp h with ⟨rfl, rfl⟩ | ⟨r, tr', rfl, h'⟩
      · exact Or.inl ⟨ask q k, .refl _, rfl⟩
      · rcases ih r h' with ⟨p', hp, rfl⟩ | ⟨tr₁, a, tr₂, rfl, h₁, h₂⟩
        · exact Or.inl ⟨p', .ask hp, rfl⟩
        · exact Or.inr ⟨⟨q, r⟩ :: tr₁, a, tr₂, rfl, .ask h₁, h₂⟩
  · rintro (⟨p', hp, rfl⟩ | ⟨tr₁, a, tr₂, rfl, h₁, h₂⟩)
    · exact hp.bind f
    · exact (h₁.bind f).trans h₂

theorem bind_eq_ret_iff {f : α → Proc Q R ε β} {b : β} :
    (p >>= f) = ret b ↔ ∃ a, p = ret a ∧ f a = ret b := by
  cases p with
  | ret a => simp
  | fail e => simp
  | ask q k => simp

/-- **Runs of a sequence that return.** -/
theorem returns_bind_iff {f : α → Proc Q R ε β} {b : β} :
    Steps (p >>= f) tr (ret b) ↔
      ∃ tr₁ a tr₂, tr = tr₁ ++ tr₂ ∧ Steps p tr₁ (ret a) ∧ Steps (f a) tr₂ (ret b) := by
  rw [steps_bind_iff]
  constructor
  · rintro (⟨p', hp, hb⟩ | h)
    · obtain ⟨a, rfl, ha⟩ := bind_eq_ret_iff.mp hb.symm
      exact ⟨tr, a, [], by simp, hp, by rw [ha]; exact .refl _⟩
    · exact h
  · exact Or.inr

@[simp] theorem returns_await_iff {q : Q} {a : R q} :
    Steps (await q : Proc Q R ε (R q)) tr (ret a) ↔ tr = [⟨q, .ok a⟩] := by
  constructor
  · intro h
    rcases steps_ask_iff.mp h with ⟨-, hret⟩ | ⟨r, tr', rfl, hk⟩
    · exact absurd hret (by simp)
    · cases r with
      | ok b =>
        obtain ⟨rfl, hb⟩ := steps_ret_iff.mp hk
        cases hb
        rfl
      | error e => exact absurd (steps_fail_iff.mp hk).2 (by simp)
  · rintro rfl
    exact .ask (.refl _)

theorem returns_ofExcept_iff {x : Except ε α} {a : α} :
    Steps (ofExcept x : Proc Q R ε α) tr (ret a) ↔ tr = [] ∧ x = .ok a := by
  cases x with
  | ok b => simp [eq_comm]
  | error e => simp

theorem steps_run (answer : (q : Q) → Except ε (R q)) (p : Proc Q R ε α) :
    Steps p (p.log answer) (ofExcept (p.run answer)) ∧
      ∀ ev ∈ p.log answer, ev.2 = answer ev.1 := by
  induction p with
  | ret a => exact ⟨.refl _, by simp [log]⟩
  | fail e => exact ⟨.refl _, by simp [log]⟩
  | ask q k ih =>
    obtain ⟨hs, hev⟩ := ih (answer q)
    refine ⟨.ask hs, fun ev hmem => ?_⟩
    rcases List.mem_cons.mp hmem with rfl | hmem
    · rfl
    · exact hev ev hmem

/-- A run whose replies are all the oracle's ends as the run against the oracle does. -/
theorem Steps.run_eq {answer : (q : Q) → Except ε (R q)} (h : Steps p tr p')
    (hev : ∀ ev ∈ tr, ev.2 = answer ev.1) : p.run answer = p'.run answer := by
  induction h with
  | refl => rfl
  | @ask q k r tr p' _ ih =>
    have hr : r = answer q := hev ⟨q, r⟩ List.mem_cons_self
    subst hr
    exact ih fun ev hmem => hev ev (List.mem_cons_of_mem _ hmem)

/-- **Returning against an oracle**, in terms of runs. -/
theorem run_eq_ok_iff {answer : (q : Q) → Except ε (R q)} {a : α} :
    p.run answer = .ok a ↔ ∃ tr, Steps p tr (ret a) ∧ ∀ ev ∈ tr, ev.2 = answer ev.1 := by
  constructor
  · intro h
    obtain ⟨hsteps, hev⟩ := steps_run answer p
    rw [h, ofExcept_ok] at hsteps
    exact ⟨_, hsteps, hev⟩
  · rintro ⟨tr, hsteps, hev⟩
    rw [hsteps.run_eq hev, run_ret]

/-! ### Loops -/

theorem foldlM_congr {σ : Type} {l : List α} {f g : σ → α → Proc Q R ε σ}
    (h : ∀ s, ∀ a ∈ l, f s a = g s a) {s : σ} : l.foldlM f s = l.foldlM g s := by
  induction l generalizing s with
  | nil => rfl
  | cons a l ih =>
    rw [List.foldlM_cons, List.foldlM_cons, h s a List.mem_cons_self]
    exact congrArg _ (funext fun s => ih fun s b hb => h s b (List.mem_cons_of_mem a hb))

theorem foldlM_flatMap {γ σ : Type} {g : γ → List α} {f : σ → α → Proc Q R ε σ} {xs : List γ}
    {s : σ} :
    (xs.flatMap g).foldlM f s = xs.foldlM (fun s x => (g x).foldlM f s) s := by
  induction xs generalizing s with
  | nil => rfl
  | cons x xs ih =>
    rw [List.flatMap_cons, List.foldlM_append, List.foldlM_cons]
    exact congrArg _ (funext fun s => ih)

end Interaction
