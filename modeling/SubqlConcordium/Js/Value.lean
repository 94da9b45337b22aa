import Mathlib.Data.Rat.Defs
import Mathlib.Data.List.Basic
import Mathlib.Data.List.Forall2

/-!
# JavaScript values

The untyped part of a TypeScript program: what `any` can hold, and the handful of operations that
are total or throwing depending on what they meet. Objects are lists of own properties in
insertion order. There is no heap: a value is its contents, so copying and sharing are the same
thing here, and only code that does not mutate what it has shared may be modelled with it.

Numbers are the finite ones, as rationals; a double is a dyadic rational.

## Undefined behaviour

There is none. Every operation says what it does for every value, if only that it throws, and a
property that an object does not have may still be inherited: `objectPrototype` lists the names that
every object literal answers to. A name from a filter that happens to be one of them reads as a
function, and not as `undefined`.

## Main definitions

* `Value`, `Obj` — values and own-property lists
* `Obj.prop`, `Obj.put`, `Obj.without` — reading, assigning and leaving out a property
* `Value.member` — `t.k`, which throws on `undefined` and `null`
* `strictEq`, `Value.typeof` — `===` and `typeof`
* `Value.spread`, `Value.iterate` — `{...v}` and `[...v]`
* `Optional`, `StringMap` — a field that may be absent or `null`, and a map with string values
-/

namespace Js

/-- A thrown error, as far as anyone looks at it. -/
structure JsError where
  name : String
  message : String
  code : Option String
  deriving DecidableEq

/-- `new TypeError(message)`. -/
def typeError (message : String) : JsError := ⟨"TypeError", message, none⟩

/-- `new Error(message)`. -/
def plainError (message : String) : JsError := ⟨"Error", message, none⟩

/-- What a variable of type `any` may hold. -/
inductive Value where
  | undefined
  | null
  | bool (b : Bool)
  | num (x : ℚ)
  | bigint (n : ℤ)
  | str (s : String)
  /-- A `Date`, in milliseconds since the epoch. -/
  | date (ms : ℤ)
  | arr (xs : List Value)
  | obj (fields : List (String × Value))
  /-- A property inherited from `Object.prototype`. -/
  | native (name : String)

/-- The own properties of an object, in insertion order. -/
abbrev Obj := List (String × Value)

/-- The names every object literal inherits. -/
def objectPrototype : List String :=
  ["constructor", "__proto__", "hasOwnProperty", "isPrototypeOf", "propertyIsEnumerable",
    "toLocaleString", "toString", "valueOf", "__defineGetter__", "__defineSetter__",
    "__lookupGetter__", "__lookupSetter__"]

namespace Obj

/-- `o[k]`: the own property, else the inherited one, else `undefined`. -/
def prop (o : Obj) (k : String) : Value :=
  match o.lookup k with
  | some v => v
  | none => if k ∈ objectPrototype then .native k else .undefined

/-- `o` with own property `k` assigned: in place if it is there, else at the end. -/
def put : Obj → String → Value → Obj
  | [], k, v => [(k, v)]
  | (k', w) :: rest, k, v => if k' = k then (k, v) :: rest else (k', w) :: put rest k v

/-- `o` without own property `k`. -/
def without (o : Obj) (k : String) : Obj := o.filter fun p => p.1 ≠ k

theorem prop_of_lookup {o : Obj} {k : String} {v : Value} (h : o.lookup k = some v) :
    o.prop k = v := by
  simp [prop, h]

theorem lookup_of_prop_str {o : Obj} {k s : String} (h : o.prop k = .str s) :
    o.lookup k = some (.str s) := by
  rw [prop] at h
  cases hk : o.lookup k with
  | some v => simpa [hk] using h
  | none =>
    simp only [hk] at h
    split_ifs at h

theorem lookup_put_self (o : Obj) (k : String) (v : Value) : (o.put k v).lookup k = some v := by
  induction o with
  | nil => simp [put]
  | cons p rest ih =>
    obtain ⟨k', w⟩ := p
    by_cases hk : k' = k
    · simp [put, hk]
    · simpa [put, hk, List.lookup_cons, beq_false_of_ne (Ne.symm hk)] using ih

theorem lookup_put_of_ne (o : Obj) {k k' : String} (v : Value) (h : k' ≠ k) :
    (o.put k v).lookup k' = o.lookup k' := by
  induction o with
  | nil => simp [put, List.lookup_cons, beq_false_of_ne h]
  | cons p rest ih =>
    obtain ⟨j, w⟩ := p
    by_cases hj : j = k
    · subst hj
      simp [put, List.lookup_cons, beq_false_of_ne h]
    · simp only [put, hj, if_false, List.lookup_cons, ih]

/-- **Read after write.** -/
@[simp] theorem prop_put_self (o : Obj) (k : String) (v : Value) : (o.put k v).prop k = v :=
  prop_of_lookup (lookup_put_self o k v)

/-- **Read another property.** -/
theorem prop_put_of_ne (o : Obj) {k k' : String} (v : Value) (h : k' ≠ k) :
    (o.put k v).prop k' = o.prop k' := by
  simp only [prop, lookup_put_of_ne o v h]

@[simp] theorem without_put (o : Obj) (k : String) (v : Value) :
    (o.put k v).without k = o.without k := by
  induction o with
  | nil => simp [put, without]
  | cons p rest ih =>
    obtain ⟨k', w⟩ := p
    by_cases hk : k' = k
    · subst hk
      simp [put, without]
    · simpa [put, hk, without] using ih

end Obj

/-! ### Properties and comparisons -/

namespace Value

/-- The `typeof` operator. `__proto__` is the one inherited property that is not a function. -/
def typeof : Value → String
  | undefined => "undefined"
  | bool _ => "boolean"
  | num _ => "number"
  | bigint _ => "bigint"
  | str _ => "string"
  | native name => if name = "__proto__" then "object" else "function"
  | _ => "object"

/-- `t.k`. Only objects have the properties the code asks for; reading from `undefined` or `null`
throws. -/
def member : Value → String → Except JsError Value
  | undefined, k => .error (typeError s!"Cannot read properties of undefined (reading '{k}')")
  | null, k => .error (typeError s!"Cannot read properties of null (reading '{k}')")
  | obj fields, k => .ok (Obj.prop fields k)
  | _, _ => .ok undefined

/-- The own enumerable properties, which is what `{...v}` copies. -/
def spread : Value → Obj
  | obj fields => fields
  | arr xs => xs.zipIdx.map fun p => (toString p.2, p.1)
  | str s => s.toList.zipIdx.map fun p => (toString p.2, .str (String.singleton p.1))
  | _ => []

/-- The elements `[...v]` runs over. -/
def iterate : Value → Except JsError (List Value)
  | arr xs => .ok xs
  | str s => .ok (s.toList.map fun c => .str (String.singleton c))
  | _ => .error (typeError "Spread syntax requires ...iterable[Symbol.iterator] to be a function")

theorem iterate_eq_error {v : Value} {e : JsError} (h : v.iterate = .error e) :
    e = typeError "Spread syntax requires ...iterable[Symbol.iterator] to be a function" := by
  cases v <;> cases h <;> rfl

@[simp] theorem member_obj (fields : Obj) (k : String) :
    (obj fields).member k = .ok (fields.prop k) := rfl

/-- Neither `undefined` nor `null`. -/
def Defined : Value → Prop
  | undefined => False
  | null => False
  | _ => True

instance : DecidablePred Defined := fun v => by
  cases v <;> simp only [Defined] <;> infer_instance

/-- `t.k` where it does not throw. -/
def field : Value → String → Value
  | obj fields, k => Obj.prop fields k
  | _, _ => undefined

theorem member_eq_ok_iff {t w : Value} {k : String} :
    t.member k = .ok w ↔ t.Defined ∧ t.field k = w := by
  cases t <;> simp [member, field, Defined]

end Value

/-- `a === b`. Two objects are equal when they are the same reference, which a value does not
record; the code modelled here never compares two. -/
def strictEq : Value → Value → Bool
  | .undefined, .undefined => true
  | .null, .null => true
  | .bool a, .bool b => a = b
  | .num a, .num b => a = b
  | .bigint a, .bigint b => a = b
  | .str a, .str b => a = b
  | _, _ => false

theorem str_strictEq_iff {s : String} {v : Value} : strictEq (.str s) v = true ↔ v = .str s := by
  cases v <;> simp [strictEq, eq_comm]

theorem strictEq_str_iff {s : String} {v : Value} : strictEq v (.str s) = true ↔ v = .str s := by
  cases v <;> simp [strictEq]

theorem strictEq_bigint_iff {n : ℤ} {v : Value} :
    strictEq v (.bigint n) = true ↔ v = .bigint n := by
  cases v <;> simp [strictEq]

/-! ### Optional fields and string maps -/

/-- A field that may be absent or `null`. -/
inductive Optional (α : Type) where
  | undefined
  | null
  | value (a : α)
  deriving DecidableEq

namespace Optional

variable {α : Type}

def get? : Optional α → Option α
  | value a => some a
  | _ => none

/-- Whether an optional string counts as true: absent, `null` and `''` do not. -/
def truthyStr : Optional String → Bool
  | value s => s ≠ ""
  | _ => false

theorem get?_eq_some_iff {o : Optional α} {a : α} : o.get? = some a ↔ o = value a := by
  cases o <;> simp [get?]

end Optional

/-- An object whose values are strings, in enumeration order. An object has each key once. -/
structure StringMap where
  /-- The keys and values, in enumeration order. -/
  entries : List (String × String)
  /-- No key occurs twice. -/
  nodup : (entries.map Prod.fst).Nodup

namespace StringMap

/-- The same keys with the same values, enumerated in another order. -/
def Reorders (m m' : StringMap) : Prop := m'.entries.Perm m.entries

end StringMap

theorem lookup_eq_some_iff_mem {α : Type} {l : List (String × α)} {k : String} {v : α}
    (hnodup : (l.map Prod.fst).Nodup) : l.lookup k = some v ↔ (k, v) ∈ l := by
  induction l with
  | nil => simp
  | cons p l ih =>
    obtain ⟨k', v'⟩ := p
    rw [List.map_cons, List.nodup_cons] at hnodup
    rcases eq_or_ne k k' with rfl | hk
    · have hnot : ∀ w, (k, w) ∉ l := fun w hw =>
        hnodup.1 (List.mem_map.mpr ⟨(k, w), hw, rfl⟩)
      simp [hnot, eq_comm]
    · simp [List.lookup_cons, beq_false_of_ne hk, hk, ih hnodup.2]

theorem mem_keys_iff {α : Type} {l : List (String × α)} {k : String} :
    k ∈ l.map Prod.fst ↔ ∃ v, l.lookup k = some v := by
  induction l with
  | nil => simp
  | cons p l ih =>
    obtain ⟨k', v⟩ := p
    by_cases hk : k = k'
    · simp [hk]
    · rw [List.map_cons, List.mem_cons, List.lookup_cons, beq_false_of_ne hk, or_iff_right hk]
      exact ih

theorem lookup_map_values {α β : Type} (f : α → β) (l : List (String × α)) (k : String) :
    (l.map fun p => (p.1, f p.2)).lookup k = (l.lookup k).map f := by
  induction l with
  | nil => rfl
  | cons p l ih =>
    obtain ⟨k', v⟩ := p
    by_cases hk : k = k'
    · simp [hk]
    · simpa [List.lookup_cons, beq_false_of_ne hk] using ih

theorem lookup_filter_keys {α : Type} (keep : String → Bool) (l : List (String × α)) (k : String) :
    (l.filter fun p => keep p.1).lookup k = if keep k then l.lookup k else none := by
  induction l with
  | nil => simp
  | cons p l ih =>
    obtain ⟨k', v⟩ := p
    by_cases hk : k = k'
    · subst hk
      cases hkeep : keep k <;> simp [hkeep, ih]
    · cases hkeep : keep k' <;> simp [hkeep, ih, List.lookup_cons, beq_false_of_ne hk]

theorem lookup_filter_of_ne {α : Type} {l : List (String × α)} {k name : String} (hk : k ≠ name) :
    (l.filter fun p => p.1 ≠ name).lookup k = l.lookup k := by
  rw [lookup_filter_keys (fun key => decide (key ≠ name)), if_pos (decide_eq_true hk)]

/-! ### Blocks of a list -/

/-- Of a flattened list, the blocks being told apart by distinct keys, one block is left by a
filter for its key. -/
theorem filter_flatMap_of_nodup {α β γ : Type} {xs : List α} {f : α → List β} {key : α → γ}
    {p : β → Bool} {x : α} (hnodup : (xs.map key).Nodup) (hx : x ∈ xs)
    (hp : ∀ y ∈ xs, ∀ b ∈ f y, p b = true ↔ key y = key x) : (xs.flatMap f).filter p = f x := by
  induction xs with
  | nil => simp at hx
  | cons y xs ih =>
    rw [List.map_cons, List.nodup_cons] at hnodup
    rw [List.forall_mem_cons] at hp
    rw [List.flatMap_cons, List.filter_append]
    rcases List.mem_cons.mp hx with rfl | hx
    · -- the first block stays, and no other has its key
      have hfirst : (f x).filter p = f x :=
        List.filter_eq_self.mpr fun b hb => (hp.1 b hb).mpr rfl
      have hrest : (xs.flatMap f).filter p = [] := by
        rw [List.filter_eq_nil_iff]
        intro b hb hpb
        obtain ⟨z, hz, hbz⟩ := List.mem_flatMap.mp hb
        exact hnodup.1 (List.mem_map.mpr ⟨z, hz, (hp.2 z hz b hbz).mp hpb⟩)
      rw [hfirst, hrest, List.append_nil]
    · have hfirst : (f y).filter p = [] := by
        rw [List.filter_eq_nil_iff]
        intro b hb hpb
        exact hnodup.1 (List.mem_map.mpr ⟨x, hx, ((hp.1 b hb).mp hpb).symm⟩)
      rw [hfirst, List.nil_append, ih hnodup.2 hx hp.2]

/-! ### Throwing predicates -/

section Except

variable {ε α : Type}

theorem bind_eq_ok_iff {β : Type} {x : Except ε α} {f : α → Except ε β} {b : β} :
    (x >>= f) = .ok b ↔ ∃ a, x = .ok a ∧ f a = .ok b := by
  cases x <;> simp [bind, Except.bind]

theorem bind_returns_iff {β : Type} {x : Except ε α} {f : α → Except ε β} :
    (∃ b, (x >>= f) = .ok b) ↔ ∃ a, x = .ok a ∧ ∃ b, f a = .ok b := by
  cases x <;> simp [bind, Except.bind]

theorem bind_eq_error_iff {β : Type} {x : Except ε α} {f : α → Except ε β} {e : ε} :
    (x >>= f) = .error e ↔ x = .error e ∨ ∃ a, x = .ok a ∧ f a = .error e := by
  cases x <;> simp [bind, Except.bind]

theorem mapM_eq_ok_iff {β : Type} {f : α → Except ε β} {xs : List α} {ys : List β} (d : β) :
    xs.mapM f = .ok ys ↔
      (∀ x ∈ xs, ∃ y, f x = .ok y) ∧ ys = xs.map fun x => (f x).toOption.getD d := by
  induction xs generalizing ys with
  | nil => simp [pure, Except.pure, eq_comm]
  | cons x xs ih =>
    rw [List.mapM_cons, bind_eq_ok_iff]
    simp only [bind_eq_ok_iff, ih, List.forall_mem_cons, List.map_cons]
    constructor
    · rintro ⟨y, hy, _, ⟨hxs, rfl⟩, ⟨⟩⟩
      exact ⟨⟨⟨y, hy⟩, hxs⟩, by simp [hy, Except.toOption]⟩
    · rintro ⟨⟨⟨y, hy⟩, hxs⟩, rfl⟩
      exact ⟨y, hy, _, ⟨hxs, rfl⟩, by simp [hy, Except.toOption, pure, Except.pure]⟩

theorem exists_of_mapM_eq_error {β : Type} {f : α → Except ε β} {xs : List α} {e : ε}
    (h : xs.mapM f = .error e) : ∃ x ∈ xs, f x = .error e := by
  induction xs with
  | nil => cases h
  | cons x xs ih =>
    rw [List.mapM_cons] at h
    rcases bind_eq_error_iff.mp h with hx | ⟨y, -, hrest⟩
    · exact ⟨x, List.mem_cons_self, hx⟩
    · rcases bind_eq_error_iff.mp hrest with hxs | ⟨ys, -, hret⟩
      · obtain ⟨x', hx', herror⟩ := ih hxs
        exact ⟨x', List.mem_cons_of_mem x hx', herror⟩
      · cases hret

theorem orM_eq_true_iff {x y : Except ε Bool} :
    orM x y = .ok true ↔ x = .ok true ∨ (x = .ok false ∧ y = .ok true) := by
  rcases x with e | _ | _ <;> simp [orM, bind, Except.bind, pure, Except.pure, toBool]

theorem orM_eq_false_iff {x y : Except ε Bool} :
    orM x y = .ok false ↔ x = .ok false ∧ y = .ok false := by
  rcases x with e | _ | _ <;> simp [orM, bind, Except.bind, pure, Except.pure, toBool]

/-- `x || y` returns: the second operand is only evaluated if the first is false. -/
theorem orM_returns_iff {x y : Except ε Bool} :
    (∃ b, orM x y = .ok b) ↔ x = .ok true ∨ (x = .ok false ∧ ∃ b, y = .ok b) := by
  rcases x with e | _ | _ <;> simp [orM, bind, Except.bind, pure, Except.pure, toBool]

theorem andM_eq_true_iff {x y : Except ε Bool} :
    andM x y = .ok true ↔ x = .ok true ∧ y = .ok true := by
  rcases x with e | _ | _ <;> simp [andM, bind, Except.bind, pure, Except.pure, toBool]

theorem andM_eq_false_iff {x y : Except ε Bool} :
    andM x y = .ok false ↔ x = .ok false ∨ (x = .ok true ∧ y = .ok false) := by
  rcases x with e | _ | _ <;> simp [andM, bind, Except.bind, pure, Except.pure, toBool]

theorem mapM_flatMap {β γ : Type} {f : β → Except ε γ} {g : α → List β} {xs : List α}
    {zss : List (List γ)} (h : xs.mapM (fun x => (g x).mapM f) = .ok zss) :
    (xs.flatMap g).mapM f = .ok zss.flatten := by
  induction xs generalizing zss with
  | nil =>
    cases h
    rfl
  | cons x xs ih =>
    rw [List.mapM_cons, bind_eq_ok_iff] at h
    obtain ⟨zs, hzs, h⟩ := h
    obtain ⟨rest, hrest, h⟩ := bind_eq_ok_iff.mp h
    cases h
    rw [List.flatMap_cons, List.mapM_append, hzs, ih hrest]
    rfl

/-- **Loops over related lists** yield related lists, if their bodies do so step by step. -/
theorem mapM_rel {β α' β' : Type} {r : α → α' → Prop} {r' : β → β' → Prop} {f : α → Except ε β}
    {f' : α' → Except ε β'} {xs : List α} {xs' : List α'} {ys : List β}
    (hxs : List.Forall₂ r xs xs')
    (hbody : ∀ x x', r x x' → ∀ y, f x = .ok y → ∃ y', f' x' = .ok y' ∧ r' y y')
    (hys : xs.mapM f = .ok ys) : ∃ ys', xs'.mapM f' = .ok ys' ∧ List.Forall₂ r' ys ys' := by
  induction hxs generalizing ys with
  | nil =>
    cases hys
    exact ⟨[], rfl, .nil⟩
  | cons hx _ ih =>
    rw [List.mapM_cons, bind_eq_ok_iff] at hys
    obtain ⟨y, hy, hys⟩ := hys
    obtain ⟨rest, hrest, hys⟩ := bind_eq_ok_iff.mp hys
    cases hys
    obtain ⟨y', hy', hyy'⟩ := hbody _ _ hx y hy
    obtain ⟨rest', hrest', hrests⟩ := ih hrest
    refine ⟨y' :: rest', ?_, .cons hyy' hrests⟩
    rw [List.mapM_cons, hy', hrest']
    rfl

/-- **Skipping what yields nothing.** If a loop returns, and yields nothing on the elements left
out, it yields the same without them. -/
theorem mapM_filter_flatten {β : Type} {f : α → Except ε (List β)} {keep : α → Bool} {xs : List α}
    {yss : List (List β)} (h : xs.mapM f = .ok yss)
    (hskip : ∀ x ∈ xs, keep x = false → ∀ ys, f x = .ok ys → ys = []) :
    ∃ yss', (xs.filter keep).mapM f = .ok yss' ∧ yss'.flatten = yss.flatten := by
  induction xs generalizing yss with
  | nil =>
    cases h
    exact ⟨[], rfl, rfl⟩
  | cons x xs ih =>
    rw [List.mapM_cons, bind_eq_ok_iff] at h
    obtain ⟨ys, hys, h⟩ := h
    obtain ⟨rest, hrest, h⟩ := bind_eq_ok_iff.mp h
    cases h
    rw [List.forall_mem_cons] at hskip
    obtain ⟨yss', hyss', hflatten⟩ := ih hrest hskip.2
    cases hkeep : keep x with
    | false =>
      rw [hskip.1 hkeep ys hys, List.filter_cons_of_neg (by simp [hkeep])]
      exact ⟨yss', hyss', hflatten⟩
    | true =>
      refine ⟨ys :: yss', ?_, by rw [List.flatten_cons, List.flatten_cons, hflatten]⟩
      rw [List.filter_cons_of_pos hkeep, List.mapM_cons, hys, hyss']
      rfl

end Except

/-- `xs.filter(p)` where `p` may throw. -/
def filterE {ε α : Type} (p : α → Except ε Bool) : List α → Except ε (List α)
  | [] => .ok []
  | x :: xs => do
    let keep ← p x
    let rest ← filterE p xs
    return if keep then x :: rest else rest

theorem filterE_congr {ε α : Type} {p q : α → Except ε Bool} {xs : List α}
    (h : ∀ x ∈ xs, p x = q x) : filterE p xs = filterE q xs := by
  induction xs with
  | nil => rfl
  | cons x xs ih =>
    rw [List.forall_mem_cons] at h
    rw [filterE, filterE, h.1, ih h.2]

theorem filterE_sound {ε α : Type} {p : α → Except ε Bool} {xs ys : List α}
    (h : filterE p xs = .ok ys) : ∀ y ∈ ys, y ∈ xs ∧ p y = .ok true := by
  induction xs generalizing ys with
  | nil =>
    cases h
    simp
  | cons x xs ih =>
    rw [filterE, bind_eq_ok_iff] at h
    obtain ⟨keep, hkeep, h⟩ := h
    obtain ⟨rest, hrest, h⟩ := bind_eq_ok_iff.mp h
    have hsound := ih hrest
    intro y hy
    cases keep with
    | false =>
      cases h
      exact (hsound y hy).imp_left (List.mem_cons_of_mem x)
    | true =>
      cases h
      rcases List.mem_cons.mp hy with rfl | hy
      · exact ⟨List.mem_cons_self, hkeep⟩
      · exact (hsound y hy).imp_left (List.mem_cons_of_mem x)

/-- A predicate that does not throw filters as the pure one does. -/
theorem filterE_eq_ok {ε α : Type} {p : α → Except ε Bool} {q : α → Bool} :
    ∀ {xs : List α}, (∀ x ∈ xs, p x = .ok (q x)) → filterE p xs = .ok (xs.filter q)
  | [], _ => rfl
  | x :: xs, h => by
    have hx : p x = .ok (q x) := h x List.mem_cons_self
    have hrest := filterE_eq_ok fun y hy => h y (List.mem_cons_of_mem x hy)
    simp only [filterE, hx, hrest, List.filter_cons]
    rfl

end Js
