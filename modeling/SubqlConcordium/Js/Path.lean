import SubqlConcordium.Js.Numeric
import SubqlConcordium.Js.Json

/-!
# Assigning at a path

A path is a list of property names. Assigning at a path makes what is missing on the way: an array
where the next name is an array index, an object elsewhere. The other direction is to find such a
tree in a value, name by name and element by element.

## Parsing is left out

What a key like `a.b[0]` means as a path is for the library that parses it to say. This module
starts from the list of names. An array index among them is recognised by its digits, as the library
does it, since that decides whether an array or an object is made for a missing part. An array keeps
only its elements here, so a named property that is assigned to one is lost, as it is in its JSON
text.

## Main definitions

* `index?` — a name that is an array index
* `assignAt`, `setPath` — assignment at a path
* `FoundIn` — a tree of strings, found in a value
* `Json.toValue` — the value that is the tree

## Main results

* `setPath_obj_cons` — an assignment changes one field of an object
* `foundIn_toValue` — a tree is found in itself
-/

namespace Js

/-! ### Assignment -/

/-- A name that is an array index: decimal digits without a leading zero. -/
def index? (name : String) : Option ℕ :=
  match name.toList with
  | '0' :: _ :: _ => none
  | cs => digits 10 cs

/-- `xs` with element `i` assigned. What is missing below `i` becomes a hole, printed as `null`. -/
def setElem : List (Json Text) → ℕ → Json Text → List (Json Text)
  | [], 0, v => [v]
  | [], i + 1, v => .scalar .null :: setElem [] i v
  | _ :: xs, 0, v => v :: xs
  | x :: xs, i + 1, v => x :: setElem xs i v

/-- Fields with one of them assigned: in place if it is there, else at the end. -/
def putField : List (String × Json Text) → String → Json Text → List (String × Json Text)
  | [], k, v => [(k, v)]
  | (k', w) :: rest, k, v => if k' = k then (k, v) :: rest else (k', w) :: putField rest k v

/-- What a place holds once `value` is assigned at the path from there. An object or array stays,
anything else is replaced. -/
def assignAt : Option (Json Text) → List String → Json Text → Json Text
  | _, [], value => value
  | some (.obj fields), name :: rest, value =>
    .obj (putField fields name (assignAt (fields.lookup name) rest value))
  | some (.arr elems), name :: rest, value =>
    match index? name with
    | some i => .arr (setElem elems i (assignAt elems[i]? rest value))
    -- a named property of an array is not part of its JSON form
    | none => .arr elems
  | _, name :: rest, value =>
    match index? name with
    | some i => .arr (setElem [] i (assignAt none rest value))
    | none => .obj [(name, assignAt none rest value)]

/-- `object` with `value` assigned at a path. No path leads to the object itself. -/
def setPath (object : Json Text) : List String → Json Text → Json Text
  | [], _ => object
  | path, value => assignAt (some object) path value

variable {fields : List (String × Json Text)} {name k : String} {v : Json Text}

/-- A field that is there keeps its place, a new one comes last. -/
theorem names_putField :
    (putField fields name v).map Prod.fst =
      if name ∈ fields.map Prod.fst then fields.map Prod.fst
      else fields.map Prod.fst ++ [name] := by
  induction fields with
  | nil => simp [putField]
  | cons p fields ih =>
    obtain ⟨k', w⟩ := p
    by_cases hname : k' = name
    · simp [putField, hname]
    · have hname' : ¬ name = k' := fun h => hname h.symm
      simp only [putField, hname, if_false, List.map_cons, ih, List.mem_cons, hname', false_or]
      split_ifs <;> rfl

theorem putField_of_not_mem (h : name ∉ fields.map Prod.fst) :
    putField fields name v = fields ++ [(name, v)] := by
  induction fields with
  | nil => rfl
  | cons p fields ih =>
    obtain ⟨k', w⟩ := p
    rw [List.map_cons, List.mem_cons, not_or] at h
    have hname : ¬ k' = name := fun heq => h.1 heq.symm
    simp [putField, hname, ih h.2]

theorem lookup_putField_self : (putField fields name v).lookup name = some v := by
  induction fields with
  | nil => simp [putField]
  | cons p fields ih =>
    obtain ⟨k', w⟩ := p
    by_cases hname : k' = name
    · simp [putField, hname]
    · rw [putField, if_neg hname, List.lookup_cons, beq_false_of_ne fun h => hname h.symm, ih]

theorem lookup_putField_of_ne (h : k ≠ name) :
    (putField fields name v).lookup k = fields.lookup k := by
  induction fields with
  | nil => simp [putField, List.lookup_cons, beq_false_of_ne h]
  | cons p fields ih =>
    obtain ⟨k', w⟩ := p
    by_cases hname : k' = name
    · simp [putField, hname, List.lookup_cons, beq_false_of_ne h]
    · rw [putField, if_neg hname, List.lookup_cons, List.lookup_cons, ih]

/-- Assignment at a path keeps an object an object, changes its field at the first name, and adds
no other. -/
theorem setPath_obj_cons (rest : List String) :
    setPath (.obj fields) (name :: rest) v =
      .obj (putField fields name (assignAt (fields.lookup name) rest v)) := by
  rw [setPath, assignAt]
  simp

example : setPath (.obj []) ["a", "1", "b"] v =
    .obj [("a", .arr [.scalar .null, .obj [("b", v)]])] := rfl

/-! ### A tree of strings in a value -/

/-- The value holds what the tree does: the same strings, the elements at the same indices, the
fields under the same names. A hole asks for nothing. -/
inductive FoundIn : Json Text → Value → Prop
  | hole {v : Value} : FoundIn (.scalar .null) v
  | str {s : String} : FoundIn (.scalar (.str s)) (.str s)
  | arr {elems : List (Json Text)} {vs : List Value} (hlength : elems.length ≤ vs.length)
      (h : ∀ (i : ℕ) j v, elems[i]? = some j → vs[i]? = some v → FoundIn j v) :
      FoundIn (.arr elems) (.arr vs)
  | obj {gs : List (String × Json Text)} {o : Obj}
      (hnames : ∀ k j, gs.lookup k = some j → ∃ v, o.lookup k = some v)
      (h : ∀ k j v, gs.lookup k = some j → o.lookup k = some v → FoundIn j v) :
      FoundIn (.obj gs) (.obj o)

/-- **Found in an object**, field by field. -/
theorem foundIn_obj_iff {gs : List (String × Json Text)} {o : Obj} :
    FoundIn (.obj gs) (.obj o) ↔
      ∀ k j, gs.lookup k = some j → ∃ v, o.lookup k = some v ∧ FoundIn j v := by
  constructor
  · rintro (_ | _ | _ | ⟨hnames, h⟩) k j hj
    obtain ⟨v, hv⟩ := hnames k j hj
    exact ⟨v, hv, h k j v hj hv⟩
  · intro h
    refine .obj (fun k j hj => ?_) fun k j v hj hv => ?_
    · obtain ⟨v, hv, -⟩ := h k j hj
      exact ⟨v, hv⟩
    · obtain ⟨v', hv', hin⟩ := h k j hj
      rw [hv] at hv'
      cases hv'
      exact hin

theorem foundIn_singleton {o : Obj} {v : Value} (hv : o.lookup k = some v) {j : Json Text}
    (h : FoundIn j v) : FoundIn (.obj [(k, j)]) (.obj o) := by
  rw [foundIn_obj_iff]
  intro k' j' hj'
  by_cases hk : k' = k
  · subst hk
    simp only [List.lookup_cons_self, Option.some.injEq] at hj'
    subst hj'
    exact ⟨v, hv, h⟩
  · simp [List.lookup_cons, beq_false_of_ne hk] at hj'

theorem foundIn_str_iff {s : String} {v : Value} :
    FoundIn (.scalar (.str s)) v ↔ v = .str s := by
  constructor
  · rintro ⟨⟩
    rfl
  · rintro rfl
    exact .str

/-- A string holds nothing but a text or a hole. -/
theorem not_foundIn_str {j : Json Text} {s : String} (h : ∀ t, j ≠ .scalar t) :
    ¬ FoundIn j (.str s) := by
  rintro (_ | _)
  · exact h _ rfl
  · exact h _ rfl

mutual

/-- The value that is the tree. -/
def Json.toValue : Json Text → Value
  | .scalar .null => .null
  | .scalar (.str s) => .str s
  | .arr elems => .arr (elemsToValue elems)
  | .obj fields => .obj (fieldsToValue fields)

def elemsToValue : List (Json Text) → List Value
  | [] => []
  | x :: xs => Json.toValue x :: elemsToValue xs

def fieldsToValue : List (String × Json Text) → Obj
  | [] => []
  | (k, v) :: fields => (k, Json.toValue v) :: fieldsToValue fields

end

theorem elemsToValue_eq_map (elems : List (Json Text)) :
    elemsToValue elems = elems.map Json.toValue := by
  induction elems with
  | nil => rfl
  | cons x xs ih => rw [elemsToValue, ih, List.map_cons]

theorem fieldsToValue_eq_map (fields : List (String × Json Text)) :
    fieldsToValue fields = fields.map fun p => (p.1, p.2.toValue) := by
  induction fields with
  | nil => rfl
  | cons p fields ih => rw [fieldsToValue, ih, List.map_cons]

theorem lookup_fieldsToValue :
    (fieldsToValue fields).lookup k = (fields.lookup k).map Json.toValue := by
  rw [fieldsToValue_eq_map, lookup_map_values]

theorem names_fieldsToValue : (fieldsToValue fields).map Prod.fst = fields.map Prod.fst := by
  rw [fieldsToValue_eq_map, List.map_map]
  rfl

/-- **A tree is found in itself.** -/
theorem foundIn_toValue : ∀ j : Json Text, FoundIn j j.toValue
  | .scalar .null => .hole
  | .scalar (.str _) => .str
  | .arr elems => by
    rw [Json.toValue, elemsToValue_eq_map]
    refine .arr (by simp) fun i j v hj hv => ?_
    rw [List.getElem?_map, hj] at hv
    cases hv
    exact foundIn_toValue j
  | .obj fields => by
    rw [Json.toValue, foundIn_obj_iff]
    intro k j hj
    exact ⟨j.toValue, by rw [lookup_fieldsToValue, hj]; rfl, foundIn_toValue j⟩
termination_by j => sizeOf j
decreasing_by
  · have := List.sizeOf_lt_of_mem (List.mem_of_getElem? hj)
    simp only [Json.arr.sizeOf_spec]
    omega
  · obtain ⟨l₁, l₂, hl, -⟩ := List.lookup_eq_some_iff.mp hj
    have hmem : (k, j) ∈ fields := by rw [hl]; simp
    have := List.sizeOf_lt_of_mem hmem
    simp only [Prod.mk.sizeOf_spec] at this
    simp only [Json.obj.sizeOf_spec]
    omega

end Js
