import Mathlib.Data.List.Forall2
import Mathlib.Logic.Relation

/-!
# Chains of blocks

Blocks refer to their parents, and a parent is one lower. Nothing is said about which blocks there
are, or where the chains begin: any block is the tip of a chain, and two chains that share a block
share everything below it. That is all it takes for an observer who only ever looks at blocks below
a tip to see one and the same chain, however the tip grows in the meantime.

## Walks

A batch is a list of heights, in any order and with repetitions, and the blocks fetched for it are a
list of the same length. `Walk` relates the two: each block is below the tip, at its height. A walk
is determined by the heights and the tip, and by the heights and any higher tip just as well. So two
observers of one chain who ask for the same heights see the same walk, whenever they look.

## Main definitions

* `Ancestry` — parents and heights
* `OnChain tip h b` — the block of a chain at a height
* `Walk` — the blocks of a chain at a list of heights

## Main results

* `OnChain.unique`, `OnChain.mono` — a chain has one block at a height, and keeps it as it grows
* `OnChain.isParent` — blocks of a chain at consecutive heights are parent and child
* `Walk.isChain` — so are all of a walk without gaps
* `Walk.unique` — two walks along chains that grow into each other are the same
-/

namespace Consensus

open Relation

variable {β : Type}

/-- Blocks with parents and heights: no block has two parents, and a parent is one lower. -/
structure Ancestry (parent : β → β → Prop) (height : β → ℕ) : Prop where
  unique : ∀ {p q b}, parent p b → parent q b → p = q
  step : ∀ {p b}, parent p b → height b = height p + 1

/-- `b` is the block at height `h` of the chain that ends in `tip`. -/
def OnChain (parent : β → β → Prop) (height : β → ℕ) (tip : β) (h : ℕ) (b : β) : Prop :=
  ReflTransGen parent b tip ∧ height b = h

/-- The blocks of a chain at the given heights. -/
def Walk (parent : β → β → Prop) (height : β → ℕ) (tip : β) : List ℕ → List β → Prop :=
  List.Forall₂ (OnChain parent height tip)

variable {parent : β → β → Prop} {height : β → ℕ} {a b c tip tip' : β} {h : ℕ}

namespace Ancestry

theorem height_le (hlaw : Ancestry parent height) (hab : ReflTransGen parent a b) :
    height a ≤ height b := by
  induction hab with
  | refl => exact Nat.le_refl _
  | tail _ hstep ih =>
    rw [hlaw.step hstep]
    exact Nat.le_succ_of_le ih

/-- Only a block itself is below it at its own height. -/
theorem eq_of_height_eq (hlaw : Ancestry parent height) (hab : ReflTransGen parent a b)
    (heq : height a = height b) : a = b := by
  rcases ReflTransGen.cases_tail hab with rfl | ⟨c, hac, hcb⟩
  · rfl
  · have hle := hlaw.height_le hac
    have hstep := hlaw.step hcb
    omega

/-- Of two blocks below the same one, one is below the other. -/
theorem total (hlaw : Ancestry parent height) (ha : ReflTransGen parent a c)
    (hb : ReflTransGen parent b c) : ReflTransGen parent a b ∨ ReflTransGen parent b a := by
  have hunique : Relator.RightUnique (Function.swap parent) := fun _ _ _ hp hq => hlaw.unique hp hq
  have htotal := ReflTransGen.total_of_right_unique hunique
    (reflTransGen_swap.mpr ha) (reflTransGen_swap.mpr hb)
  exact htotal.symm.imp reflTransGen_swap.mp reflTransGen_swap.mp

end Ancestry

namespace OnChain

theorem mono (hb : OnChain parent height tip h b) (htip : ReflTransGen parent tip tip') :
    OnChain parent height tip' h b :=
  ⟨hb.1.trans htip, hb.2⟩

/-- **A chain has one block at a height.** -/
theorem unique (hlaw : Ancestry parent height) (ha : OnChain parent height tip h a)
    (hb : OnChain parent height tip h b) : a = b := by
  rcases hlaw.total ha.1 hb.1 with hab | hba
  · exact hlaw.eq_of_height_eq hab (ha.2.trans hb.2.symm)
  · exact (hlaw.eq_of_height_eq hba (hb.2.trans ha.2.symm)).symm

/-- **Blocks at consecutive heights** of a chain are parent and child. -/
theorem isParent (hlaw : Ancestry parent height) (ha : OnChain parent height tip h a)
    (hb : OnChain parent height tip (h + 1) b) : parent a b := by
  rcases hlaw.total hb.1 ha.1 with hba | hab
  · have hle := hlaw.height_le hba
    have hheights := ha.2
    have hheights' := hb.2
    omega
  · rcases ReflTransGen.cases_tail hab with rfl | ⟨p, hap, hpb⟩
    · exact absurd (ha.2.symm.trans hb.2) (Nat.succ_ne_self h).symm
    · have hstep := hlaw.step hpb
      have hheight : height p = h := Nat.succ.inj (hstep.symm.trans hb.2)
      rwa [ha.unique hlaw ⟨hb.1.head hpb, hheight⟩]

end OnChain

theorem Walk.mono {heights : List ℕ} {blocks : List β}
    (hwalk : Walk parent height tip heights blocks) (htip : ReflTransGen parent tip tip') :
    Walk parent height tip' heights blocks :=
  hwalk.imp fun _ _ hb => hb.mono htip

theorem Walk.map_height {heights : List ℕ} {blocks : List β}
    (hwalk : Walk parent height tip heights blocks) : blocks.map height = heights := by
  induction hwalk with
  | nil => rfl
  | cons hb _ ih => rw [List.map_cons, hb.2, ih]

theorem Walk.le_height (hlaw : Ancestry parent height) {heights : List ℕ} {blocks : List β}
    (hwalk : Walk parent height tip heights blocks) {h : ℕ} (hh : h ∈ heights) :
    h ≤ height tip := by
  induction hwalk with
  | nil => cases hh
  | cons hb _ ih =>
    rcases List.mem_cons.mp hh with rfl | hh
    · rw [← hb.2]
      exact hlaw.height_le hb.1
    · exact ih hh

theorem Walk.filter {heights : List ℕ} {blocks : List β}
    (hwalk : Walk parent height tip heights blocks) (keep : ℕ → Bool) :
    Walk parent height tip (heights.filter keep) (blocks.filter fun b => keep (height b)) := by
  induction hwalk with
  | nil => exact .nil
  | @cons h b heights blocks hb _ ih =>
    rw [List.filter_cons, List.filter_cons, hb.2]
    split_ifs
    · exact .cons hb ih
    · exact ih

/-- **A walk without gaps** goes from parent to child. -/
theorem Walk.isChain (hlaw : Ancestry parent height) {heights : List ℕ} {blocks : List β}
    (hwalk : Walk parent height tip heights blocks)
    (hheights : heights.IsChain fun h h' => h' = h + 1) : blocks.IsChain parent := by
  induction hwalk with
  | nil => exact .nil
  | @cons h b heights blocks hb hwalk ih =>
    cases hwalk with
    | nil => exact .singleton b
    | @cons h' b' heights blocks hb' hwalk =>
      obtain ⟨rfl, hheights⟩ := List.isChain_cons_cons.mp hheights
      exact .cons_cons (hb.isParent hlaw hb') (ih hheights)

/-- **Walks at the same heights are the same**, if one of the chains has grown into the other. -/
theorem Walk.unique (hlaw : Ancestry parent height)
    (htips : ReflTransGen parent tip tip' ∨ ReflTransGen parent tip' tip) {heights : List ℕ}
    {blocks blocks' : List β} (hwalk : Walk parent height tip heights blocks)
    (hwalk' : Walk parent height tip' heights blocks') : blocks = blocks' := by
  obtain ⟨top, htop, htop'⟩ : ∃ top, ReflTransGen parent tip top ∧ ReflTransGen parent tip' top :=
    htips.elim (fun hle => ⟨tip', hle, .refl⟩) fun hle => ⟨tip, .refl, hle⟩
  exact List.right_unique_forall₂' (fun _ _ _ ha hb => ha.unique hlaw hb) (hwalk.mono htop)
    (hwalk'.mono htop')

end Consensus
