import SubqlConcordium.Interaction.Retry

/-!
# Carrying out the requests of a process

A process is written against one interface, and carried out over another: each of its requests
becomes a process there, and how that process ends is the reply, a failure included. Whatever the
second interface does, the first one only ever sees a run of its own.

## Why not substitute

A process over another interface could be had by running the first against an oracle, were it not
for the order of things. What carries out a request may itself wait, be interleaved with others, and
be answered differently the next time. So the requests are carried out one by one, each with a trace
of its own, and `CarriedOut` keeps these traces apart. An outcome of the whole is read off them: the
first process has made a run whose replies are how its requests ended.

## Main definitions

* `Proc.implement` — a process over another interface
* `Carried` — a request that was carried out

## Main results

* `steps_implement` — a run over the second interface is a run over the first
-/

namespace Interaction

variable {Q Q' : Type} {R : Q → Type} {R' : Q' → Type} {ε α : Type}

/-- Carry out each request by a process of another interface. -/
def Proc.implement (impl : (q : Q) → Proc Q' R' ε (R q)) : Proc Q R ε α → Proc Q' R' ε α
  | ret a => ret a
  | fail e => fail e
  | ask q k => (impl q).attempt >>= fun r => (k r).implement impl

/-- A request that was carried out: the request with its reply, and what it took. -/
structure Carried (Q : Type) (R : Q → Type) (Q' : Type) (R' : Q' → Type) (ε : Type) where
  event : Event Q R ε
  trace : List (Event Q' R' ε)

open Proc

section

variable (impl : (q : Q) → Proc Q' R' ε (R q)) (p : Proc Q R ε α) (tr : List (Event Q' R' ε))
  (t : Proc Q' R' ε α)

/-- What is left of a run over the second interface when seen from the first: the requests carried
out, each by a finished run of its own, and what the process has become by their replies. A run
that has finished consists of them, and ends as the process does. -/
structure CarriedOut (carried : List (Carried Q R Q' R' ε)) (p' : Proc Q R ε α) : Prop where
  steps : Steps p (carried.map Carried.event) p'
  each : ∀ c ∈ carried, Steps (impl c.event.1) c.trace (ofExcept c.event.2)
  isPrefix : carried.flatMap Carried.trace <+: tr
  finished : ∀ x, t = ofExcept x → carried.flatMap Carried.trace = tr ∧ p' = ofExcept x

end

variable {impl : (q : Q) → Proc Q' R' ε (R q)} {p : Proc Q R ε α} {t : Proc Q' R' ε α}
  {tr tr' : List (Event Q' R' ε)}

theorem carriedOut_stopped (x : Except ε α) :
    CarriedOut impl (ofExcept x) [] (ofExcept x) [] (ofExcept x) := by
  refine ⟨.refl _, by simp, List.prefix_rfl, fun y hy => ⟨rfl, ?_⟩⟩
  cases x <;> cases y <;> cases hy <;> rfl

theorem CarriedOut.ask {q : Q} {k : Except ε (R q) → Proc Q R ε α} {r : Except ε (R q)}
    {carried : List (Carried Q R Q' R' ε)} {p' : Proc Q R ε α}
    (h : Steps (impl q) tr (ofExcept r)) (hrest : CarriedOut impl (k r) tr' t carried p') :
    CarriedOut impl (ask q k) (tr ++ tr') t (⟨⟨q, r⟩, tr⟩ :: carried) p' where
  steps := .ask hrest.steps
  each := List.forall_mem_cons.mpr ⟨h, hrest.each⟩
  isPrefix := (List.prefix_append_right_inj tr).mpr hrest.isPrefix
  finished x hx := by
    obtain ⟨htrace, hp'⟩ := hrest.finished x hx
    exact ⟨by rw [List.flatMap_cons, htrace], hp'⟩

/-- **A run over the second interface is a run over the first.** -/
theorem steps_implement (h : Steps (p.implement impl) tr t) :
    ∃ carried p', CarriedOut impl p tr t carried p' := by
  induction p generalizing tr with
  | ret a =>
    obtain ⟨rfl, rfl⟩ := steps_ret_iff.mp h
    exact ⟨[], _, carriedOut_stopped (.ok a)⟩
  | fail e =>
    obtain ⟨rfl, rfl⟩ := steps_fail_iff.mp h
    exact ⟨[], _, carriedOut_stopped (.error e)⟩
  | ask q k ih =>
    rcases steps_bind_iff.mp h with ⟨mid, hmid, rfl⟩ | ⟨tr₁, r, tr₂, rfl, h₁, h₂⟩
    · cases mid with
      | ret r =>
        obtain ⟨carried, p', hrest⟩ := ih r (.refl _)
        exact ⟨_, p', List.append_nil tr ▸ hrest.ask (returns_attempt_iff.mp hmid)⟩
      | fail e => exact absurd hmid not_fails_attempt
      | ask q' k' =>
        -- the request is still being carried out
        refine ⟨[], Proc.ask q k, .refl _, by simp, List.nil_prefix, fun x hx => ?_⟩
        cases x <;> cases hx
    · obtain ⟨carried, p', hrest⟩ := ih r h₂
      exact ⟨_, p', hrest.ask (returns_attempt_iff.mp h₁)⟩

end Interaction
