import SubqlConcordium.Js.Json
import Mathlib.Data.List.Pairwise

/-!
# What the program takes from its packages

The functions of lodash it calls and the constants of the Concordium SDK it compares against are
not part of the repository. They are parameters here, and what their documentation promises is a
predicate on the parameter, so that a result says by a hypothesis which promise it rests on.

## Assumptions that can be met

A predicate on a parameter is worth nothing if nothing satisfies it, so every one of them comes with
an instance. `Lodash.reference` and `Sdk.reference` behave as the packages do, as far as they are
used, and are what the examples run on.

The promises are kept small. `sortBy` is only asked for keys of ASCII characters, since JavaScript
compares strings by code units and Lean by characters. `setWith` is not among them: what its path
argument means is a matter of its own, and a result that needs it says how much of it.

## Main definitions

* `Lodash`, `Lodash.Documented` — the lodash functions and their documented behaviour
* `TransactionKindString`, `Sdk` — the transaction kinds the program names, and their strings
-/

namespace SubqlConcordium

open Js

/-- The lodash functions the program calls. `flatMap` is called without an iteratee and `setWith`
without a customizer. -/
structure Lodash where
  cloneDeep : {α : Type} → α → α
  flatMap : {α : Type} → List (List α) → List α
  sortBy : {α : Type} → (α → String) → List α → List α
  uniqBy : {α : Type} → (α → String) → List α → List α
  setWith : Json Text → String → Json Text → Json Text

/-- What lodash documents about them. -/
structure Lodash.Documented (lodash : Lodash) : Prop where
  /-- A deep copy has the same contents. -/
  cloneDeep_eq : ∀ {α : Type} (a : α), lodash.cloneDeep a = a
  /-- Without an iteratee, `flatMap` flattens one level. -/
  flatMap_eq : ∀ {α : Type} (xss : List (List α)), lodash.flatMap xss = xss.flatten
  /-- `sortBy` is a stable ascending sort. Only ASCII keys are promised, on which the order of
  JavaScript strings is the order of their characters. -/
  sortBy_eq : ∀ {α : Type} (key : α → String) (xs : List α),
    (∀ x ∈ xs, ∀ c ∈ (key x).toList, c.toNat < 128) →
      lodash.sortBy key xs = xs.mergeSort fun a b => key a ≤ key b
  /-- `uniqBy` keeps the first element of each key. -/
  uniqBy_nil : ∀ {α : Type} (key : α → String), lodash.uniqBy key [] = []
  uniqBy_cons : ∀ {α : Type} (key : α → String) (x : α) (xs : List α),
    lodash.uniqBy key (x :: xs) = x :: (lodash.uniqBy key xs).filter fun y => key y ≠ key x

namespace Lodash

variable {α : Type} {lodash : Lodash}

theorem Documented.exists_mem_uniqBy (h : lodash.Documented) (key : α → String) {xs : List α}
    {x : α} (hx : x ∈ xs) : ∃ y ∈ lodash.uniqBy key xs, key y = key x := by
  induction xs with
  | nil => simp at hx
  | cons a xs ih =>
    rw [h.uniqBy_cons]
    by_cases hkey : key x = key a
    · exact ⟨a, by simp, hkey.symm⟩
    · have hmem : x ∈ xs := (List.mem_cons.mp hx).resolve_left fun hxa => hkey (by rw [hxa])
      obtain ⟨y, hy, hyx⟩ := ih hmem
      exact ⟨y, by simp [hy, hyx, hkey], hyx⟩

theorem Documented.uniqBy_subset (h : lodash.Documented) (key : α → String) (xs : List α) :
    lodash.uniqBy key xs ⊆ xs := by
  induction xs with
  | nil => simp [h.uniqBy_nil]
  | cons x xs ih =>
    rw [h.uniqBy_cons]
    exact List.cons_subset_cons x (List.Subset.trans (List.filter_subset_self _) ih)

theorem Documented.uniqBy_pairwise (h : lodash.Documented) (key : α → String) (xs : List α) :
    (lodash.uniqBy key xs).Pairwise fun x y => key x ≠ key y := by
  induction xs with
  | nil => simp [h.uniqBy_nil]
  | cons x xs ih =>
    rw [h.uniqBy_cons, List.pairwise_cons]
    refine ⟨fun y hy => ?_, ih.filter _⟩
    have hne : key y ≠ key x := by simpa using (List.mem_filter.mp hy).2
    exact hne.symm

/-- When no two of the kept elements are related, for an equivalence that elements with one key are
in: related elements must have one key. -/
theorem Documented.uniqBy_pairwise_iff (h : lodash.Documented) (key : α → String) {xs : List α}
    {r : α → α → Prop} (hr : Equivalence r)
    (hkey : ∀ x ∈ xs, ∀ y ∈ xs, key x = key y → r x y) :
    ((lodash.uniqBy key xs).Pairwise fun x y => ¬ r x y) ↔
      ∀ x ∈ xs, ∀ y ∈ xs, r x y → key x = key y := by
  constructor
  · intro hpairwise x hx y hy hxy
    by_contra hne
    obtain ⟨x', hx', hxkey⟩ := h.exists_mem_uniqBy key hx
    obtain ⟨y', hy', hykey⟩ := h.exists_mem_uniqBy key hy
    have hx'y' : r x' y' := hr.trans (hkey x' (h.uniqBy_subset key xs hx') x hx hxkey)
      (hr.trans hxy (hkey y hy y' (h.uniqBy_subset key xs hy') hykey.symm))
    have : Std.Symm fun x y => ¬ r x y := ⟨fun _ _ hab hba => hab (hr.symm hba)⟩
    refine hpairwise.forall hx' hy' (fun heq => ?_) hx'y'
    rw [heq, hykey] at hxkey
    exact hne hxkey.symm
  · intro hone
    exact (h.uniqBy_pairwise key xs).imp_of_mem fun hx hy hne hxy =>
      hne (hone _ (h.uniqBy_subset key xs hx) _ (h.uniqBy_subset key xs hy) hxy)

/-- Only the keys of the elements matter. -/
theorem Documented.uniqBy_congr (h : lodash.Documented) {key key' : α → String} {xs : List α}
    (hkeys : ∀ x ∈ xs, key x = key' x) : lodash.uniqBy key xs = lodash.uniqBy key' xs := by
  induction xs with
  | nil => rw [h.uniqBy_nil, h.uniqBy_nil]
  | cons x xs ih =>
    obtain ⟨hx, hxs⟩ := List.forall_mem_cons.mp hkeys
    rw [h.uniqBy_cons, h.uniqBy_cons, ih hxs]
    refine congrArg (x :: ·) (List.filter_congr fun y hy => ?_)
    rw [hx, hxs y (h.uniqBy_subset _ _ hy)]

theorem Documented.uniqBy_map (h : lodash.Documented) {β : Type} (key : β → String) (f : α → β)
    (xs : List α) : lodash.uniqBy key (xs.map f) = (lodash.uniqBy (key ∘ f) xs).map f := by
  induction xs with
  | nil => rw [List.map_nil, h.uniqBy_nil, h.uniqBy_nil, List.map_nil]
  | cons x xs ih =>
    rw [List.map_cons, h.uniqBy_cons, h.uniqBy_cons, ih, List.map_cons, List.filter_map]
    rfl

/-- The first element of each key. -/
def firstOfEach (key : α → String) : List α → List α
  | [] => []
  | x :: xs => x :: (firstOfEach key xs).filter fun y => key y ≠ key x

/-- An instance of the documented behaviour. Its `setWith` is the one for keys that are plain
names. -/
def reference : Lodash where
  cloneDeep := id
  flatMap := List.flatten
  sortBy := fun key xs => xs.mergeSort fun a b => key a ≤ key b
  uniqBy := firstOfEach
  setWith := fun object path value =>
    match object with
    | .obj fields => .obj (fields.filter (fun p => p.1 ≠ path) ++ [(path, value)])
    | other => other

theorem reference_documented : reference.Documented where
  cloneDeep_eq _ := rfl
  flatMap_eq _ := rfl
  sortBy_eq _ _ _ := rfl
  uniqBy_nil _ := rfl
  uniqBy_cons _ _ _ := rfl

end Lodash

/-! ### The Concordium SDK -/

/-- The members of the SDK's `TransactionKindString` that the program names. -/
inductive TransactionKindString where
  | Transfer
  | TransferWithMemo
  | TransferWithSchedule
  | TransferWithScheduleAndMemo
  | EncryptedAmountTransfer
  | EncryptedAmountTransferWithMemo
  | DeployModule
  | InitContract
  | Update
  | RegisterData
  | TransferToPublic
  | TransferToEncrypted
  | AddBaker
  | RemoveBaker
  | UpdateBakerKeys
  | UpdateBakerStake
  | UpdateBakerRestakeEarnings
  | ConfigureBaker
  | ConfigureDelegation
  | UpdateCredentialKeys
  | UpdateCredentials
  deriving DecidableEq

namespace TransactionKindString

/-- The members, in the order in which the program tests for them. -/
def all : List TransactionKindString :=
  [Transfer, TransferWithMemo, TransferWithSchedule, TransferWithScheduleAndMemo,
    EncryptedAmountTransfer, EncryptedAmountTransferWithMemo, DeployModule, InitContract, Update,
    RegisterData, TransferToPublic, TransferToEncrypted, AddBaker, RemoveBaker, UpdateBakerKeys,
    UpdateBakerStake, UpdateBakerRestakeEarnings, ConfigureBaker, ConfigureDelegation,
    UpdateCredentialKeys, UpdateCredentials]

theorem mem_all (k : TransactionKindString) : k ∈ all := by
  cases k <;> decide

end TransactionKindString

/-- The string constants of the SDK's enumerations. Members of one enumeration are different
strings. -/
structure Sdk where
  /-- `TransactionSummaryType.AccountTransaction`. -/
  accountTransaction : String
  /-- The value of each `TransactionKindString`. -/
  kind : TransactionKindString → String
  kind_injective : Function.Injective kind

namespace Sdk

/-- Which `case` of a switch over `TransactionKindString` a value selects. -/
def case? (sdk : Sdk) (v : Value) : Option TransactionKindString :=
  TransactionKindString.all.find? fun k => strictEq v (.str (sdk.kind k))

theorem case?_eq_some_iff {sdk : Sdk} {v : Value} {k : TransactionKindString} :
    sdk.case? v = some k ↔ v = .str (sdk.kind k) := by
  have hsound : ∀ {k'}, sdk.case? v = some k' → v = .str (sdk.kind k') := fun h =>
    strictEq_str_iff.mp (List.find?_some (p := fun k => strictEq v (.str (sdk.kind k))) h)
  constructor
  · exact hsound
  · rintro rfl
    have hsome : (sdk.case? (.str (sdk.kind k))).isSome := by
      rw [case?, List.find?_isSome]
      exact ⟨k, TransactionKindString.mem_all k, str_strictEq_iff.mpr rfl⟩
    obtain ⟨k', hk'⟩ := Option.isSome_iff_exists.mp hsome
    have heq : sdk.kind k = sdk.kind k' := by simpa using hsound hk'
    rw [hk', sdk.kind_injective heq]

/-- The constants as the SDK has them. -/
def reference : Sdk where
  accountTransaction := "accountTransaction"
  kind
    | .Transfer => "transfer"
    | .TransferWithMemo => "transferWithMemo"
    | .TransferWithSchedule => "transferWithSchedule"
    | .TransferWithScheduleAndMemo => "transferWithScheduleAndMemo"
    | .EncryptedAmountTransfer => "encryptedAmountTransfer"
    | .EncryptedAmountTransferWithMemo => "encryptedAmountTransferWithMemo"
    | .DeployModule => "deployModule"
    | .InitContract => "initContract"
    | .Update => "update"
    | .RegisterData => "registerData"
    | .TransferToPublic => "transferToPublic"
    | .TransferToEncrypted => "transferToEncrypted"
    | .AddBaker => "addBaker"
    | .RemoveBaker => "removeBaker"
    | .UpdateBakerKeys => "updateBakerKeys"
    | .UpdateBakerStake => "updateBakerStake"
    | .UpdateBakerRestakeEarnings => "updateBakerRestakeEarnings"
    | .ConfigureBaker => "configureBaker"
    | .ConfigureDelegation => "configureDelegation"
    | .UpdateCredentialKeys => "updateCredentialKeys"
    | .UpdateCredentials => "updateCredentials"
  kind_injective := by
    intro a b h
    cases a <;> cases b <;> first | rfl | exact absurd h (by decide)

end Sdk

end SubqlConcordium
