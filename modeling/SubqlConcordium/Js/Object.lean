import SubqlConcordium.Js.Numeric
import Mathlib.Data.List.DropRight

/-!
# Objects made of objects

Spreading one object over another, and making an instance of a class from a plain object, as
class-transformer does it: the instance has what its class initialises, and over that the
properties of the plain object, each after the `@Transform` of its name. A property without one
is copied, whether or not the class declares it.

## A package by its promise

`plainToClass` is code of a package, so it is a parameter, and `PlainToClass.Documented` has what
its documentation promises. Nothing is promised of a property that a `@Transform` makes `undefined`:
whether the instance then has it depends on an option. `PlainToClass.reference` is the package with
its options as they are by default, which takes such a property over.

## Main definitions

* `Value.truthy` — whether a value counts as true
* `Obj.assign` — `{...target, ...source}`
* `trim` — `s.trim()`
* `TransformedClass`, `PlainToClass`, `PlainToClass.Documented` — classes with transforms, and how
  instances are made of them

## Main results

* `lookup_assign` — what is found in a copy with another spread over it
* `trim_trim` — trimming again changes nothing
* `PlainToClass.reference_documented` — the promise can be kept
-/

namespace Js

/-! ### Truth -/

/-- Whether a value counts as true. -/
def Value.truthy : Value → Bool
  | undefined => false
  | null => false
  | bool b => b
  | num x => x ≠ 0
  | bigint n => n ≠ 0
  | str s => s ≠ ""
  | _ => true

/-! ### Spreading -/

namespace Obj

/-- `{...target, ...source}`: a property of both keeps its place in the target and has its value
in the source. -/
def assign (target source : Obj) : Obj :=
  target.map (fun p => (p.1, (source.lookup p.1).getD p.2)) ++
    source.filter fun p => (target.lookup p.1).isNone

variable {o : Obj} {k : String}

theorem prop_of_lookup_none (hk : k ∉ objectPrototype) (h : o.lookup k = none) :
    o.prop k = .undefined := by
  simp [prop, h, hk]

theorem lookup_without_self (o : Obj) (k : String) : (o.without k).lookup k = none := by
  rw [without, lookup_filter_keys (fun key => decide (key ≠ k))]
  simp

theorem lookup_without_of_ne {k' : String} (hk : k' ≠ k) : (o.without k).lookup k' = o.lookup k' :=
  lookup_filter_of_ne hk

theorem lookup_overwritten (target source : Obj) (k : String) :
    (target.map fun p => (p.1, (source.lookup p.1).getD p.2)).lookup k =
      (target.lookup k).map fun v => (source.lookup k).getD v := by
  induction target with
  | nil => rfl
  | cons p target ih =>
    obtain ⟨k', v⟩ := p
    by_cases hk : k = k'
    · simp [hk]
    · simpa [List.lookup_cons, beq_false_of_ne hk] using ih

/-- **What is found in a copy with another spread over it.** -/
theorem lookup_assign (target source : Obj) (k : String) :
    (target.assign source).lookup k = (source.lookup k).or (target.lookup k) := by
  rw [assign, List.lookup_append, lookup_overwritten,
    lookup_filter_keys fun key => (target.lookup key).isNone]
  cases target.lookup k <;> cases source.lookup k <;> rfl

end Obj

/-! ### Trimming -/

/-- `s.trim()`, on the characters that `BigInt` strips as well. -/
def trim (s : String) : String := String.ofList (trimBlanks s.toList)

theorem dropWhile_eq_self_of_prefix {p : Char → Bool} {cs cs' : List Char} (hpre : cs <+: cs')
    (h : cs'.dropWhile p = cs') : cs.dropWhile p = cs := by
  cases cs with
  | nil => rfl
  | cons c cs =>
    obtain ⟨rest, rfl⟩ := hpre
    rw [List.dropWhile_eq_self_iff] at h ⊢
    exact fun _ => h (by simp)

theorem trimBlanks_trimBlanks (cs : List Char) : trimBlanks (trimBlanks cs) = trimBlanks cs := by
  have htrim : ∀ cs, trimBlanks cs = (cs.dropWhile isBlank).rdropWhile isBlank := fun _ => rfl
  have hfront : (trimBlanks cs).dropWhile isBlank = trimBlanks cs := by
    rw [htrim]
    exact dropWhile_eq_self_of_prefix (List.rdropWhile_prefix _ _) (List.dropWhile_idempotent ..)
  rw [htrim (trimBlanks cs), hfront, htrim]
  exact List.rdropWhile_idempotent ..

/-- **Trimming again changes nothing.** -/
@[simp] theorem trim_trim (s : String) : trim (trim s) = trim s := by
  rw [trim, trim, String.toList_ofList, trimBlanks_trimBlanks]

theorem trim_comp_trim : trim ∘ trim = trim := funext trim_trim

example : ["  a b ", "a b", " \t "].map trim = ["a b", "a b", ""] := by decide

/-! ### Instances -/

/-- A class, by what a new instance has and by the `@Transform` functions of its properties. -/
structure TransformedClass where
  fields : Obj
  transforms : List (String × (Value → Except JsError Value))

/-- The value of a property in an instance. -/
def TransformedClass.transform (cls : TransformedClass) (k : String) (v : Value) :
    Except JsError Value :=
  match cls.transforms.lookup k with
  | some f => f v
  | none => .ok v

/-- `plainToClass(cls, plain)`. -/
abbrev PlainToClass := TransformedClass → Obj → Except JsError Obj

/-- What class-transformer promises of an instance. -/
structure PlainToClass.Documented (plainToClass : PlainToClass) : Prop where
  /-- A property of the plain object is transformed and taken over. -/
  lookup_of_some : ∀ {cls : TransformedClass} {plain made : Obj} {k : String} {v : Value},
    plainToClass cls plain = .ok made → plain.lookup k = some v →
      ∃ w, cls.transform k v = .ok w ∧ (w ≠ .undefined → made.lookup k = some w)
  /-- A property that the plain object lacks is as the class initialises it. -/
  lookup_of_none : ∀ {cls : TransformedClass} {plain made : Obj} {k : String},
    plainToClass cls plain = .ok made → plain.lookup k = none → made.lookup k = cls.fields.lookup k
  /-- There is an instance if no transform throws on what the plain object has. -/
  returns_iff : ∀ {cls : TransformedClass} {plain : Obj},
    (∃ made, plainToClass cls plain = .ok made) ↔
      ∀ k v, plain.lookup k = some v → ∃ w, cls.transform k v = .ok w

namespace PlainToClass

/-- What an instance takes over from a plain object, key by key. -/
def takenOver (cls : TransformedClass) (plain : Obj) : List String → Except JsError Obj
  | [] => .ok []
  | k :: keys => do
    let w ← cls.transform k (plain.prop k)
    let rest ← takenOver cls plain keys
    return (k, w) :: rest

/-- An instance of the documented behaviour. -/
def reference : PlainToClass := fun cls plain => do
  let taken ← takenOver cls plain (plain.map Prod.fst)
  return cls.fields.assign taken

variable {cls : TransformedClass} {plain taken made : Obj} {keys : List String} {k : String}

theorem takenOver_cons_eq_ok (h : takenOver cls plain (k :: keys) = .ok taken) :
    ∃ w rest, cls.transform k (plain.prop k) = .ok w ∧ takenOver cls plain keys = .ok rest ∧
      taken = (k, w) :: rest := by
  obtain ⟨w, hw, h⟩ := bind_eq_ok_iff.mp h
  obtain ⟨rest, hrest, h⟩ := bind_eq_ok_iff.mp h
  cases h
  exact ⟨w, rest, hw, hrest, rfl⟩

theorem lookup_takenOver_of_not_mem (h : takenOver cls plain keys = .ok taken) (hk : k ∉ keys) :
    taken.lookup k = none := by
  induction keys generalizing taken with
  | nil =>
    cases h
    rfl
  | cons k' keys ih =>
    obtain ⟨w, rest, -, hrest, rfl⟩ := takenOver_cons_eq_ok h
    rw [List.mem_cons, not_or] at hk
    rw [List.lookup_cons, beq_false_of_ne hk.1]
    exact ih hrest hk.2

theorem lookup_takenOver_of_mem (h : takenOver cls plain keys = .ok taken) (hk : k ∈ keys) :
    ∃ w, cls.transform k (plain.prop k) = .ok w ∧ taken.lookup k = some w := by
  induction keys generalizing taken with
  | nil => cases hk
  | cons k' keys ih =>
    obtain ⟨w, rest, hw, hrest, rfl⟩ := takenOver_cons_eq_ok h
    by_cases hne : k = k'
    · subst hne
      exact ⟨w, hw, List.lookup_cons_self⟩
    · rw [List.lookup_cons, beq_false_of_ne hne]
      exact ih hrest ((List.mem_cons.mp hk).resolve_left hne)

theorem takenOver_returns_iff :
    (∃ taken, takenOver cls plain keys = .ok taken) ↔
      ∀ k ∈ keys, ∃ w, cls.transform k (plain.prop k) = .ok w := by
  induction keys with
  | nil => simp [takenOver]
  | cons k keys ih =>
    rw [List.forall_mem_cons, ← ih, takenOver, bind_returns_iff]
    simp only [bind_returns_iff]
    constructor
    · rintro ⟨w, hw, taken, htaken, -⟩
      exact ⟨⟨w, hw⟩, taken, htaken⟩
    · rintro ⟨⟨w, hw⟩, taken, htaken⟩
      exact ⟨w, hw, taken, htaken, _, rfl⟩

/-- **The promise can be kept.** -/
theorem reference_documented : reference.Documented where
  lookup_of_some := by
    intro cls plain made k v h hk
    obtain ⟨taken, htaken, h⟩ := bind_eq_ok_iff.mp h
    cases h
    obtain ⟨w, hw, hlookup⟩ := lookup_takenOver_of_mem htaken (mem_keys_iff.mpr ⟨v, hk⟩)
    rw [Obj.prop_of_lookup hk] at hw
    refine ⟨w, hw, fun _ => ?_⟩
    rw [Obj.lookup_assign, hlookup]
    rfl
  lookup_of_none := by
    intro cls plain made k h hk
    obtain ⟨taken, htaken, h⟩ := bind_eq_ok_iff.mp h
    cases h
    have hnot : k ∉ plain.map Prod.fst := fun hmem => by
      obtain ⟨v, hv⟩ := mem_keys_iff.mp hmem
      rw [hk] at hv
      cases hv
    rw [Obj.lookup_assign, lookup_takenOver_of_not_mem htaken hnot]
    rfl
  returns_iff := by
    intro cls plain
    have htaken : (∃ made, reference cls plain = .ok made) ↔
        ∃ taken, takenOver cls plain (plain.map Prod.fst) = .ok taken := by
      rw [reference, bind_returns_iff]
      exact exists_congr fun taken => and_iff_left ⟨_, rfl⟩
    rw [htaken, takenOver_returns_iff]
    constructor
    · intro h k v hk
      have hw := h k (mem_keys_iff.mpr ⟨v, hk⟩)
      rwa [Obj.prop_of_lookup hk] at hw
    · intro h k hk
      obtain ⟨v, hv⟩ := mem_keys_iff.mp hk
      rw [Obj.prop_of_lookup hv]
      exact h k v hv

end PlainToClass

end Js
