import SubqlConcordium.Js.Value

/-!
# Decorated classes

A class lists its properties with their decorators. Plain values are made instances of classes
first, each property by its `@Type` or `@Transform`, and instances are checked then. A nested
instance is checked only where `@ValidateNested` says so.

An instance has the contents of the value it was made of, so an instance is a value here, and a
class is the check of its properties.

## How far it goes

Only the decorators that the program uses are here, with the options it uses them with. A check
returns whether a value is valid; the texts of the errors are left out, because a project with
invalid parts is refused as a whole. The cases that matter are the lenient ones. `@IsObject` accepts
a date, a nested class is not looked into without `@ValidateNested`, and an array in place of one
instance is checked element by element.

## Main definitions

* `Decorator`, `Property`, `DecoratedClass` — decorators and what they decorate
* `DecoratedClass.validates` — whether an instance meets every decorator of its class
* `DecoratedClass.typed`, `elementwise`, `discriminated` — how values are made instances

## Main results

* `Property.ok_of_present`, `Property.ok_of_required` — what a valid property satisfies
* `DecoratedClass.validates_of_typed` — an object that is typed is checked as an instance
* `DecoratedClass.ok_of_validates` — each property of a valid instance is valid
-/

namespace Js

/-! ### Decorators -/

/-- The decorators of class-validator that the program uses. -/
inductive Decorator where
  | isOptional
  | isString
  | isInt
  | isObject
  | isArray
  /-- The groups only matter to a validation that asks for groups. -/
  | isEnum (values groups : List String)
  | validateNested
  deriving DecidableEq

namespace Value

/-- `undefined` or `null`. -/
def absent : Value → Bool
  | undefined => true
  | null => true
  | _ => false

/-- An object or a function, and no array. -/
def isObject : Value → Bool
  | obj _ => true
  | date _ => true
  | native _ => true
  | _ => false

def elems : Value → List Value
  | arr xs => xs
  | _ => []

theorem field_of_absent {v : Value} (h : v.absent = true) (k : String) :
    v.field k = undefined := by
  cases v with
  | undefined => rfl
  | null => rfl
  | _ => cases h

theorem exists_obj_of_field_str {v : Value} {k s : String} (h : v.field k = .str s) :
    ∃ fields, v = .obj fields := by
  cases v with
  | obj fields => exact ⟨fields, rfl⟩
  | _ => cases h

/-- Only an object has a property with elements. -/
theorem exists_obj_of_mem_elems {v x : Value} {k : String} (h : x ∈ (v.field k).elems) :
    ∃ fields, v = .obj fields := by
  cases v with
  | obj fields => exact ⟨fields, rfl⟩
  | _ => cases h

theorem eq_arr_of_mem_elems {v x : Value} (h : x ∈ v.elems) : ∃ xs, v = .arr xs ∧ x ∈ xs := by
  cases v with
  | arr xs => exact ⟨xs, rfl, h⟩
  | _ => cases h

end Value

/-- Whether a value meets a decorator. The two that are not about the value itself are always
met. -/
def Decorator.holds : Decorator → Value → Bool
  | isString, .str _ => true
  | isString, _ => false
  | isInt, .num x => x.isInt
  | isInt, _ => false
  | isObject, v => v.isObject
  | isArray, .arr _ => true
  | isArray, _ => false
  | isEnum values _, .str s => s ∈ values
  | isEnum _ _, _ => false
  | isOptional, _ => true
  | validateNested, _ => true

theorem Decorator.isString_holds_iff {v : Value} :
    isString.holds v = true ↔ ∃ s, v = .str s := by
  cases v <;> simp [holds]

/-! ### Classes -/

structure Property where
  name : String
  decorators : List Decorator
  /-- Whether the instances that the value is made of are valid. Where making them throws, they are
  not. -/
  valid : Value → Bool

def plain (name : String) (decorators : List Decorator) : Property :=
  ⟨name, decorators, fun _ => true⟩

/-- A class, by its properties. -/
abbrev DecoratedClass := List Property

namespace Property

/-- Whether a property is valid. An optional one may be absent. -/
def ok (p : Property) (v : Value) : Bool :=
  (p.decorators.contains .isOptional && v.absent) ||
    (p.decorators.all (·.holds v) && (!p.decorators.contains .validateNested || p.valid v))

variable {p : Property} {v : Value}

theorem ok_of_present (habsent : v.absent = false) :
    p.ok v = true ↔ (∀ d ∈ p.decorators, d.holds v = true) ∧
      (.validateNested ∈ p.decorators → p.valid v = true) := by
  rw [ok, habsent]
  simp [or_iff_not_imp_left]

theorem ok_of_required (hrequired : .isOptional ∉ p.decorators) :
    p.ok v = true ↔ (∀ d ∈ p.decorators, d.holds v = true) ∧
      (.validateNested ∈ p.decorators → p.valid v = true) := by
  have hcontains : p.decorators.contains Decorator.isOptional = false := by simpa using hrequired
  rw [ok, hcontains]
  simp [or_iff_not_imp_left]

theorem ok_plain_optional {name : String} {d : Decorator} :
    (plain name [.isOptional, d]).ok v = true ↔ v.absent = true ∨ d.holds v = true := by
  simp [ok, plain, Decorator.holds]

end Property

namespace DecoratedClass

/-- Whether an instance of the class is valid. -/
def validates (cls : DecoratedClass) (v : Value) : Bool := cls.all fun p => p.ok (v.field p.name)

mutual

/-- `@Type(() => cls)`: an object becomes an instance, an array one of instances. Anything else is
kept, and is no instance. -/
def typed (cls : DecoratedClass) : Value → Bool
  | .undefined => true
  | .null => true
  | .arr xs => typedElems cls xs
  | .obj fields => validates cls (.obj fields)
  | .date ms => validates cls (.date ms)
  | _ => false

def typedElems (cls : DecoratedClass) : List Value → Bool
  | [] => true
  | x :: xs => typed cls x && typedElems cls xs

end

theorem ok_of_validates {cls : DecoratedClass} {v : Value} (h : cls.validates v = true)
    {p : Property} (hp : p ∈ cls) : p.ok (v.field p.name) = true :=
  List.all_eq_true.mp h p hp

end DecoratedClass

/-- What is made of a value that is there is an array of instances, or one instance. -/
theorem DecoratedClass.validates_of_typed {cls : DecoratedClass} {v : Value}
    (h : cls.typed v = true) (habsent : v.absent = false) :
    (∃ xs, v = .arr xs) ∨ v.isObject = true ∧ cls.validates v = true := by
  cases v with
  | arr xs => exact .inl ⟨xs, rfl⟩
  | obj fields => exact .inr ⟨rfl, h⟩
  | date ms => exact .inr ⟨rfl, h⟩
  | undefined => cases habsent
  | null => cases habsent
  | _ => cases h

/-- Each element of an array is made an instance, or the value that is no array. -/
def elementwise (valid : Value → Bool) : Value → Bool
  | .undefined => true
  | .null => true
  | .arr xs => xs.all valid
  | v => valid v

/-- The same for a property that holds a map. -/
def valuewise (valid : Value → Bool) : Value → Bool
  | .obj fields => fields.all fun p => valid p.2
  | v => elementwise valid v

/-- The class that a discriminator chooses for a value: by a property, which must be there to be
read. -/
def discriminated (property : String) (subTypes : List (String × DecoratedClass))
    (other : DecoratedClass) (v : Value) : Bool :=
  match v.member property with
  | .error _ => false
  | .ok (.str name) => ((subTypes.lookup name).getD other).typed v
  | .ok _ => other.typed v

theorem discriminated_obj {property name : String} {subTypes : List (String × DecoratedClass)}
    {other : DecoratedClass} {fields : Obj} (h : fields.prop property = .str name) :
    discriminated property subTypes other (.obj fields) =
      ((subTypes.lookup name).getD other).validates (.obj fields) := by
  rw [discriminated, Value.member_obj, h]
  rfl

end Js
