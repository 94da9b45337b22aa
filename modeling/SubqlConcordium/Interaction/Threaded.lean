import SubqlConcordium.Interaction.Outcome

/-!
# Threading a state

A process can be carried out on a state: each request takes over the state from the one before, and
hands back its reply and the state then. What carries it out may be processes of another interface,
or functions that may throw. If the first do, request by request, what the second do, then so does
the whole process, and nothing of the interface is left in the outcome.

The same holds of loops over processes and loops over functions. In both, what is known of a whole
trace may be used for each part of it.

## Two levels of one design

The upper level is a computation on a state that has no requests in it. The lower one makes
requests, and its own state may hold things that the upper one knows nothing of. The relation
between the two states is a parameter, and so is what is known of a trace. Refinement is asked for
in one direction: whenever the lower level returns, the upper one returns what corresponds to it.
Nothing is said of a lower level that fails or never ends.

## Main definitions

* `Proc.threaded`, `Proc.runOn` — a process carried out on a state, by processes and by functions

## Main results

* `threaded_refines` — carried out by processes that refine functions
* `foldlM_refines` — a loop that returns, and the loop over functions that it refines
-/

namespace Interaction

open Proc

variable {Q Q' : Type} {R : Q → Type} {R' : Q' → Type} {ε α S T : Type}

/-- Carry out each request on a state, by a process. A request that fails ends it all. -/
def Proc.threaded (body : (q : Q) → S → Proc Q' R' ε (R q × S)) :
    Proc Q R ε α → S → Proc Q' R' ε (α × S)
  | ret a, s => ret (a, s)
  | fail e, _ => fail e
  | ask q k, s => body q s >>= fun done => (k (.ok done.1)).threaded body done.2

/-- Carry out each request on a state, by a function. -/
def Proc.runOn (step : (q : Q) → T → Except ε (R q × T)) : Proc Q R ε α → T → Except ε (α × T)
  | ret a, t => .ok (a, t)
  | fail e, _ => .error e
  | ask q k, t => step q t >>= fun done => (k (.ok done.1)).runOn step done.2

/-- **A process that returns on one state returns on the other**, if each of its requests does, on
related states and along whichever part of the trace. -/
theorem threaded_refines {Rel : S → T → Prop} {body : (q : Q) → S → Proc Q' R' ε (R q × S)}
    {step : (q : Q) → T → Except ε (R q × T)} {p : Proc Q R ε α} {s s' : S} {t : T} {a : α}
    {tr : List (Event Q' R' ε)} (hrel : Rel s t)
    (h : Steps (p.threaded body s) tr (ret (a, s')))
    (hbody : ∀ q s t, Rel s t → ∀ tr' ⊆ tr, ∀ r s', Steps (body q s) tr' (ret (r, s')) →
      ∃ t', step q t = .ok (r, t') ∧ Rel s' t') :
    ∃ t', p.runOn step t = .ok (a, t') ∧ Rel s' t' := by
  induction p generalizing s t tr with
  | ret b =>
    obtain ⟨-, hret⟩ := steps_ret_iff.mp h
    cases hret
    exact ⟨t, rfl, hrel⟩
  | fail e => cases (steps_fail_iff.mp h).2
  | ask q k ih =>
    obtain ⟨tr₁, ⟨r, s₁⟩, tr₂, rfl, h₁, h₂⟩ := returns_bind_iff.mp h
    obtain ⟨t₁, ht₁, hrel₁⟩ := hbody q s t hrel tr₁ (List.subset_append_left _ _) r s₁ h₁
    obtain ⟨t', ht', hrel'⟩ := ih (.ok r) hrel₁ h₂ fun q s t hrel tr' htr' =>
      hbody q s t hrel tr' (List.Subset.trans htr' (List.subset_append_right _ _))
    refine ⟨t', ?_, hrel'⟩
    rw [runOn, ht₁]
    exact ht'

/-- **A loop that returns refines a loop over functions**, if its body does at each element, along
whichever part of the trace. -/
theorem foldlM_refines {Rel : S → T → Prop} {f : S → α → Proc Q R ε S} {g : T → α → Except ε T}
    {l : List α} {s s' : S} {t : T} {tr : List (Event Q R ε)} (hrel : Rel s t)
    (h : Steps (l.foldlM f s) tr (ret s'))
    (hbody : ∀ a ∈ l, ∀ s t, Rel s t → ∀ tr' ⊆ tr, ∀ s', Steps (f s a) tr' (ret s') →
      ∃ t', g t a = .ok t' ∧ Rel s' t') : ∃ t', l.foldlM g t = .ok t' ∧ Rel s' t' := by
  induction l generalizing s t tr with
  | nil =>
    obtain ⟨-, hs⟩ := steps_ret_iff.mp h
    cases hs
    exact ⟨t, rfl, hrel⟩
  | cons a l ih =>
    rw [List.foldlM_cons] at h
    obtain ⟨tr₁, s₁, tr₂, rfl, h₁, h₂⟩ := returns_bind_iff.mp h
    obtain ⟨t₁, ht₁, hrel₁⟩ := hbody a List.mem_cons_self s t hrel tr₁
      (List.subset_append_left _ _) s₁ h₁
    obtain ⟨t', ht', hrel'⟩ := ih hrel₁ h₂ fun b hb s t hrel tr' htr' =>
      hbody b (List.mem_cons_of_mem a hb) s t hrel tr'
        (List.Subset.trans htr' (List.subset_append_right _ _))
    refine ⟨t', ?_, hrel'⟩
    rw [List.foldlM_cons, ht₁]
    exact ht'

end Interaction
