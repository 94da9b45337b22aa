import SubqlConcordium.Interaction.Process
import Mathlib.Logic.Function.Basic
import Mathlib.Logic.Relation

/-!
# Concurrent processes against a changing server

A pool is a server in some state and a family of processes, each with the trace of what it has
been told. Two things can happen: the server moves on by itself, or the pending request of one
process is answered by the state the server is in at that moment. Nothing else orders the
processes, so a reachable pool is an arbitrary interleaving.

A few facts make such a pool tractable: each process has run by itself on its own trace, and every
reply was given by a state that the server went through, so an invariant of the server bounds it.

## What evolves

The relation `evolve` says how the server may move on by itself, and is a parameter. A relation that
allows everything makes a server that nothing is known of; one that keeps an invariant makes one
whose replies can be reasoned about. The clients have no say in it: answering a request leaves the
server as it is.

## Main results

* `Pool.Reachable.steps` — projection: the history of a process is a run of that process
* `Pool.Reachable.history_between` — every reply was given between the first state and the present
* `Pool.Reachable.history_sound` — every reply was given by a server state in the invariant
* `Pool.Reachable.run_alone` — a run of one process against the server as it stands is reachable
* `Pool.Reachable.around` — a run with a change of the server and another run in its middle
-/

namespace Interaction

open Relation

/-- A server and a family of processes talking to it, each with its own trace so far. -/
structure Pool (σ ι : Type) (Q : Type) (R : Q → Type) (ε α : Type) where
  /-- The state of the server. -/
  server : σ
  /-- What each process has been told. -/
  history : ι → List (Event Q R ε)
  /-- What each process has left to do. -/
  current : ι → Proc Q R ε α

namespace Pool

variable {σ ι Q : Type} {R : Q → Type} {ε α : Type} [DecidableEq ι]

/-- The pool that starts the given processes on the given server. -/
def start (s : σ) (procs : ι → Proc Q R ε α) : Pool σ ι Q R ε α where
  server := s
  history := fun _ => []
  current := procs

section

variable (evolve : σ → σ → Prop) (answer : σ → (q : Q) → Except ε (R q))

/-- One step: the server evolves, or it answers the request that process `i` is waiting on. -/
inductive Step : Pool σ ι Q R ε α → Pool σ ι Q R ε α → Prop where
  | evolve {c : Pool σ ι Q R ε α} {s : σ} (h : evolve c.server s) :
      Step c { c with server := s }
  | answer {c : Pool σ ι Q R ε α} (i : ι) {q : Q} {k : Except ε (R q) → Proc Q R ε α}
      (h : c.current i = .ask q k) :
      Step c
        { c with
          history := Function.update c.history i
            (c.history i ++ [⟨q, answer c.server q⟩])
          current := Function.update c.current i (k (answer c.server q)) }

/-- The pools that some interleaving reaches. -/
def Reachable (c₀ c : Pool σ ι Q R ε α) : Prop :=
  ReflTransGen (Step evolve answer) c₀ c

end

variable {evolve : σ → σ → Prop} {answer : σ → (q : Q) → Except ε (R q)}
  {s : σ} {procs : ι → Proc Q R ε α} {c c' : Pool σ ι Q R ε α}

/-- A step of the pool is at most a step of each process. -/
theorem Step.steps (h : Step evolve answer c c') (i : ι) {p : Proc Q R ε α}
    (hp : Steps p (c.history i) (c.current i)) : Steps p (c'.history i) (c'.current i) := by
  cases h with
  | evolve _ => exact hp
  | answer j hj =>
    rcases eq_or_ne i j with rfl | hij
    · simp only [Function.update_self]
      rw [hj] at hp
      exact hp.trans (.ask (.refl _))
    · simpa only [Function.update_of_ne hij] using hp

/-- **Projection.** Whatever the interleaving, each process has made a run of its own. -/
theorem Reachable.steps (h : Reachable evolve answer (start s procs) c) (i : ι) :
    Steps (procs i) (c.history i) (c.current i) := by
  induction h with
  | refl => exact .refl _
  | tail _ hstep ih => exact hstep.steps i ih

theorem Reachable.evolves (h : Reachable evolve answer (start s procs) c) :
    ReflTransGen evolve s c.server := by
  induction h with
  | refl => exact .refl
  | tail _ hstep ih =>
    cases hstep with
    | evolve he => exact ih.tail he
    | answer => exact ih

/-- **Every reply was given on the way**, by a server state between the first and the present
one. -/
theorem Reachable.history_between (h : Reachable evolve answer (start s procs) c) (i : ι) :
    ∀ ev ∈ c.history i, ∃ s', ReflTransGen evolve s s' ∧ ReflTransGen evolve s' c.server ∧
      ev.2 = answer s' ev.1 := by
  induction h with
  | refl => simp [start]
  | @tail b _ hreach hstep ih =>
    have hb : ReflTransGen evolve s b.server := Reachable.evolves hreach
    cases hstep with
    | evolve he =>
      intro ev hmem
      obtain ⟨s', hs', hserver, hreply⟩ := ih ev hmem
      exact ⟨s', hs', hserver.tail he, hreply⟩
    | @answer j q k hj =>
      intro ev hmem
      rcases eq_or_ne i j with rfl | hij
      · simp only [Function.update_self, List.mem_append, List.mem_singleton] at hmem
        rcases hmem with hmem | rfl
        · exact ih ev hmem
        · exact ⟨b.server, hb, .refl, rfl⟩
      · simp only [Function.update_of_ne hij] at hmem
        exact ih ev hmem

/-- What evolution keeps holds of every later state. -/
theorem inv_of_evolves {Inv : σ → Prop} (hs : Inv s) (hev : ∀ s s', Inv s → evolve s s' → Inv s')
    {s' : σ} (h : ReflTransGen evolve s s') : Inv s' := by
  induction h with
  | refl => exact hs
  | tail _ hstep ih => exact hev _ _ ih hstep

/-- **Every reply came from a server state in the invariant.** -/
theorem Reachable.history_sound {Inv : σ → Prop} (hs : Inv s)
    (hev : ∀ s s', Inv s → evolve s s' → Inv s')
    (h : Reachable evolve answer (start s procs) c) (i : ι) :
    ∀ ev ∈ c.history i, ∃ s', Inv s' ∧ ev.2 = answer s' ev.1 := by
  intro ev hmem
  obtain ⟨s', hs', -, hreply⟩ := Reachable.history_between h i ev hmem
  exact ⟨s', inv_of_evolves hs hev hs', hreply⟩

/-- **A process may run alone.** Whatever a process does against the server as it stands is an
interleaving, which changes nothing else. -/
theorem Reachable.run_alone (i : ι) {tr : List (Event Q R ε)} {p : Proc Q R ε α}
    (hsteps : Steps (c.current i) tr p) (hev : ∀ ev ∈ tr, ev.2 = answer c.server ev.1) :
    Reachable evolve answer c
      { c with
        history := Function.update c.history i (c.history i ++ tr)
        current := Function.update c.current i p } := by
  generalize hcurrent : c.current i = p₀ at hsteps
  induction hsteps generalizing c with
  | refl =>
    rw [List.append_nil, Function.update_eq_self, ← hcurrent, Function.update_eq_self]
    exact .refl
  | @ask q k r tr p' _ ih =>
    have hr : r = answer c.server q := hev ⟨q, r⟩ List.mem_cons_self
    subst hr
    have hstep : Step evolve answer c _ := .answer i hcurrent
    have hrest := @ih
      { c with
        history := Function.update c.history i (c.history i ++ [⟨q, answer c.server q⟩])
        current := Function.update c.current i (k (answer c.server q)) }
      (fun ev hmem => hev ev (List.mem_cons_of_mem _ hmem)) (by simp)
    simp only [Function.update_self, Function.update_idem, List.append_assoc,
      List.singleton_append] at hrest
    exact .head hstep hrest

theorem Reachable.alone_frame (h : Reachable evolve answer (start s procs) c) (i : ι)
    {tr : List (Event Q R ε)} {p : Proc Q R ε α} (hsteps : Steps (c.current i) tr p)
    (hev : ∀ ev ∈ tr, ev.2 = answer c.server ev.1) :
    ∃ c', Reachable evolve answer (start s procs) c' ∧ c'.server = c.server ∧
      c'.history i = c.history i ++ tr ∧ c'.current i = p :=
  ⟨_, h.trans (Reachable.run_alone i hsteps hev), rfl, by simp, by simp⟩

theorem Reachable.alone (h : Reachable evolve answer (start s procs) c) (i : ι)
    {tr : List (Event Q R ε)} {p : Proc Q R ε α} (hsteps : Steps (c.current i) tr p)
    (hev : ∀ ev ∈ tr, ev.2 = answer c.server ev.1) :
    ∃ c', Reachable evolve answer (start s procs) c' ∧ c'.history i = c.history i ++ tr ∧
      c'.current i = p := by
  obtain ⟨c', hreach, -, hhistory, hp⟩ := h.alone_frame i hsteps hev
  exact ⟨c', hreach, hhistory, hp⟩

/-- **One run around another.** In the middle of a run of one process the server changes, and
another process makes a whole run. -/
theorem Reachable.around {i j : ι} (hij : i ≠ j) {s' : σ} {tr₁ tr₂ tr : List (Event Q R ε)}
    {p q : Proc Q R ε α} (hi : Steps (procs i) (tr₁ ++ tr₂) p)
    (hbefore : ∀ ev ∈ tr₁, ev.2 = answer s ev.1) (hevolve : evolve s s')
    (hj : Steps (procs j) tr q) (hbetween : ∀ ev ∈ tr, ev.2 = answer s' ev.1)
    (hafter : ∀ ev ∈ tr₂, ev.2 = answer s' ev.1) :
    ∃ c', Reachable evolve answer (start s procs) c' ∧ c'.server = s' ∧
      (c'.history i = tr₁ ++ tr₂ ∧ c'.current i = p) ∧ c'.history j = tr ∧ c'.current j = q := by
  obtain ⟨p', hfirst, hrest⟩ := hi.cut
  have hstart : Reachable evolve answer (start s procs) _ := run_alone i hfirst hbefore
  have hchanged : Reachable evolve answer (start s procs) _ := hstart.tail (.evolve hevolve)
  have hother : Reachable evolve answer (start s procs) _ :=
    hchanged.trans (run_alone j (by simpa [start, hij.symm] using hj) hbetween)
  have hdone : Reachable evolve answer (start s procs) _ :=
    hother.trans (run_alone i (by simpa [hij] using hrest) hafter)
  exact ⟨_, hdone, rfl, by simp [start, hij], by simp [start, hij.symm]⟩

end Pool

end Interaction
