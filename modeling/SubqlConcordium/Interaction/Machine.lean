import Mathlib.Algebra.BigOperators.Group.List.Basic

/-!
# Machines with outputs

A machine reads one input after the other and now and then outputs something. What it has done is
fixed by the inputs read so far, so a property of every run is one of every list of inputs.

A level is a quantity of the state that every step moves by a known amount. Over a run it moves by
the sum of these: for a counter these are the inputs counted, for the last value reported the
differences that were reported.

## Invariants and levels

An invariant is a predicate that every step keeps, whatever its input. It is the means to show that
something never happens. Accounting takes more, since what is reported depends on what has been read
since the report before. A level connects the two: if a quantity moves by what each input adds, and
another by what each output reports, the sums agree wherever the two levels do.

## Main definitions

* `Machine`, `Machine.run`, `Machine.outputs` — machines, and what they do on a list of inputs

## Main results

* `run_of_invariant` — what every step keeps holds after every run
* `run_eq_add_sum_inputs`, `run_eq_add_sum_outputs` — a level along a run, by inputs and by outputs
-/

namespace Interaction

/-- A deterministic machine with states `σ`, inputs `ι` and outputs `ω`. -/
structure Machine (σ ι ω : Type*) where
  step : σ → ι → σ
  /-- What is output on an input, if anything is. -/
  output : σ → ι → Option ω

namespace Machine

variable {σ ι ω M : Type*} (m : Machine σ ι ω)

def run (s : σ) (inputs : List ι) : σ := inputs.foldl m.step s

def outputs : σ → List ι → List ω
  | _, [] => []
  | s, i :: inputs => (m.output s i).toList ++ outputs (m.step s i) inputs

@[simp] theorem run_nil (s : σ) : m.run s [] = s := rfl

@[simp] theorem run_cons (s : σ) (i : ι) (inputs : List ι) :
    m.run s (i :: inputs) = m.run (m.step s i) inputs := rfl

@[simp] theorem outputs_nil (s : σ) : m.outputs s [] = [] := rfl

@[simp] theorem outputs_cons (s : σ) (i : ι) (inputs : List ι) :
    m.outputs s (i :: inputs) = (m.output s i).toList ++ m.outputs (m.step s i) inputs := rfl

theorem run_append (s : σ) (inputs inputs' : List ι) :
    m.run s (inputs ++ inputs') = m.run (m.run s inputs) inputs' :=
  List.foldl_append

theorem outputs_append (s : σ) (inputs inputs' : List ι) :
    m.outputs s (inputs ++ inputs') =
      m.outputs s inputs ++ m.outputs (m.run s inputs) inputs' := by
  induction inputs generalizing s with
  | nil => rfl
  | cons i inputs ih => rw [List.cons_append, outputs_cons, ih, outputs_cons, run_cons,
      List.append_assoc]

variable {m} {I : σ → Prop} {s : σ}

/-- **What every step keeps holds after every run.** -/
theorem run_of_invariant (hstep : ∀ s i, I s → I (m.step s i)) (hs : I s) (inputs : List ι) :
    I (m.run s inputs) := by
  induction inputs generalizing s with
  | nil => exact hs
  | cons i inputs ih => exact ih (hstep s i hs)

section Levels

variable [AddMonoid M] {level : σ → M}

/-- A level that each step moves by a quantity of its input. -/
theorem run_eq_add_sum_inputs {amount : ι → M}
    (hlevel : ∀ s i, level (m.step s i) = level s + amount i) (s : σ) (inputs : List ι) :
    level (m.run s inputs) = level s + (inputs.map amount).sum := by
  induction inputs generalizing s with
  | nil => simp
  | cons i inputs ih =>
    rw [run_cons, ih, hlevel, List.map_cons, List.sum_cons, add_assoc]

/-- **A level that moves by what is output.** If each step of a run moves it by the amount of its
output, or not at all when there is none, then the outputs of the run add up to the difference. -/
theorem run_eq_add_sum_outputs {amount : ω → M} (hstep : ∀ s i, I s → I (m.step s i))
    (hlevel : ∀ s i, I s →
      level (m.step s i) = level s + ((m.output s i).toList.map amount).sum)
    (hs : I s) (inputs : List ι) :
    level (m.run s inputs) = level s + ((m.outputs s inputs).map amount).sum := by
  induction inputs generalizing s with
  | nil => simp
  | cons i inputs ih =>
    rw [run_cons, ih (hstep s i hs), hlevel s i hs, outputs_cons, List.map_append,
      List.sum_append, add_assoc]

end Levels

end Machine

end Interaction
