import SubqlConcordium.Js.Value
import Mathlib.Data.List.Nodup

/-!
# JSON trees: printing and containment

`Json S` is a JSON value over scalars `S`. Keeping the scalars a parameter separates the rows of a
database, whose scalars include numbers, from the queries sent to it, whose scalars are strings.

Printing is proved unambiguous in the strongest form: no printed value is a proper initial segment
of another, so a printed value can be read off the front of any text. Everything about arrays and
objects reduces to one lemma, `terminated_decodes`: a list of blocks closed by a terminator that no
block starts with.

## Why a decoding

That printing is injective could be shown by writing a parser, and proving that it inverts the
printer. The parser would be of no use to the program, which never reads such a text. `Decodes` is
the part of a parser that matters: from the front of a text, at most one value can be read, and what
is left is the rest. It composes, so the lemma for a tree is the lemma for its parts.

## Main definitions

* `Decodes code a` — reading `code a` off the front of a text determines `a` and the rest
* `quote`, `Json.print` — string literals and JSON text, from a code for the scalars
* `Json.containedIn` — containment of one JSON value in another
* `Value.toJson` — a JavaScript value as JSON, with bigints as decimal strings

## Main results

* `terminated_decodes` — terminated lists of decodable blocks are decodable
* `Json.print_decodes`, `Json.print_injective` — JSON text determines the value
* `Json.containedIn_obj_iff` — containment in an object, field by field
-/

namespace Js

/-! ### Decodable codes -/

section Decodes

variable {α : Type} {code : α → List Char}

/-- Reading `code a` off the front of a text determines both `a` and what follows. -/
def Decodes (code : α → List Char) (a : α) : Prop :=
  ∀ b r r', code a ++ r = code b ++ r' → a = b ∧ r = r'

/-- **Terminated lists.** If no block starts with the terminator, the blocks of a terminated list
can be read off one by one. -/
theorem terminated_decodes {t : Char} (hhead : ∀ a, ∃ c cs, code a = c :: cs ∧ c ≠ t) :
    ∀ {xs ys : List α} {r r' : List Char}, (∀ x ∈ xs, Decodes code x) →
      xs.flatMap code ++ t :: r = ys.flatMap code ++ t :: r' → xs = ys ∧ r = r' := by
  intro xs
  induction xs with
  | nil =>
    intro ys r r' _ h
    cases ys with
    | nil => exact ⟨rfl, (List.cons.inj h).2⟩
    | cons y ys =>
      obtain ⟨c, cs, hc, hne⟩ := hhead y
      simp only [List.flatMap_nil, List.flatMap_cons, hc, List.nil_append, List.cons_append] at h
      exact absurd (List.cons.inj h).1.symm hne
  | cons x xs ih =>
    intro ys r r' hx h
    cases ys with
    | nil =>
      obtain ⟨c, cs, hc, hne⟩ := hhead x
      simp only [List.flatMap_nil, List.flatMap_cons, hc, List.nil_append, List.cons_append] at h
      exact absurd (List.cons.inj h).1 hne
    | cons y ys =>
      simp only [List.flatMap_cons, List.append_assoc] at h
      obtain ⟨rfl, hrest⟩ := hx x List.mem_cons_self _ _ _ h
      obtain ⟨rfl, hr⟩ := ih (fun z hz => hx z (List.mem_cons_of_mem x hz)) hrest
      exact ⟨rfl, hr⟩

/-- The blocks of a list, separated by commas. -/
def separated (code : α → List Char) : List α → List Char
  | [] => []
  | x :: xs => code x ++ xs.flatMap fun y => ',' :: code y

theorem Decodes.comma {a : α} (h : Decodes code a) : Decodes (fun y => ',' :: code y) a := by
  intro b r r' hb
  exact h b r r' (List.cons.inj hb).2

/-- **Separated lists.** The same with commas in between, when the terminator is not a comma. -/
theorem separated_decodes {t : Char} (ht : ',' ≠ t)
    (hhead : ∀ a, ∃ c cs, code a = c :: cs ∧ c ≠ t) {xs ys : List α} {r r' : List Char}
    (hx : ∀ x ∈ xs, Decodes code x)
    (h : separated code xs ++ t :: r = separated code ys ++ t :: r') : xs = ys ∧ r = r' := by
  cases xs with
  | nil =>
    cases ys with
    | nil => exact ⟨rfl, (List.cons.inj h).2⟩
    | cons y ys =>
      obtain ⟨c, cs, hc, hne⟩ := hhead y
      simp only [separated, hc, List.nil_append, List.cons_append] at h
      exact absurd (List.cons.inj h).1.symm hne
  | cons x xs =>
    cases ys with
    | nil =>
      obtain ⟨c, cs, hc, hne⟩ := hhead x
      simp only [separated, hc, List.nil_append, List.cons_append] at h
      exact absurd (List.cons.inj h).1 hne
    | cons y ys =>
      simp only [separated, List.append_assoc] at h
      obtain ⟨rfl, hrest⟩ := hx x List.mem_cons_self _ _ _ h
      have hcomma : ∀ z, ∃ c cs, (',' :: code z) = c :: cs ∧ c ≠ t :=
        fun z => ⟨',', code z, rfl, ht⟩
      obtain ⟨rfl, hr⟩ := terminated_decodes hcomma
        (fun z hz => (hx z (List.mem_cons_of_mem x hz)).comma) hrest
      exact ⟨rfl, hr⟩

end Decodes

/-! ### String literals -/

/-- A lower-case hexadecimal digit. -/
def hexDigit (n : ℕ) : Char := if n < 10 then Char.ofNat (48 + n) else Char.ofNat (87 + n)

/-- One character of a JSON string literal. -/
def quoteChar (c : Char) : List Char :=
  if c = '"' then ['\\', '"']
  else if c = '\\' then ['\\', '\\']
  else if c = '\x08' then ['\\', 'b']
  else if c = '\t' then ['\\', 't']
  else if c = '\n' then ['\\', 'n']
  else if c = '\x0c' then ['\\', 'f']
  else if c = '\r' then ['\\', 'r']
  else if c.toNat < 32 then ['\\', 'u', '0', '0', hexDigit (c.toNat / 16), hexDigit (c.toNat % 16)]
  else [c]

/-- Read what follows a backslash. -/
def unescape : List Char → Option (Char × List Char)
  | '"' :: r => some ('"', r)
  | '\\' :: r => some ('\\', r)
  | 'b' :: r => some ('\x08', r)
  | 't' :: r => some ('\t', r)
  | 'n' :: r => some ('\n', r)
  | 'f' :: r => some ('\x0c', r)
  | 'r' :: r => some ('\r', r)
  | 'u' :: '0' :: '0' :: a :: b :: r =>
    ((List.range 32).find? fun n => hexDigit (n / 16) = a ∧ hexDigit (n % 16) = b).map
      fun n => (Char.ofNat n, r)
  | _ => none

/-- Read one character of a string literal back. -/
def unquoteChar : List Char → Option (Char × List Char)
  | [] => none
  | c :: r => if c = '\\' then unescape r else some (c, r)

theorem find_hexDigit : ∀ n < 32,
    (List.range 32).find? (fun m => hexDigit (m / 16) = hexDigit (n / 16) ∧
      hexDigit (m % 16) = hexDigit (n % 16)) = some n := by
  decide

theorem unquoteChar_quoteChar (c : Char) (r : List Char) :
    unquoteChar (quoteChar c ++ r) = some (c, r) := by
  rw [quoteChar]
  split_ifs with h1 h2 h3 h4 h5 h6 h7 h8
  · subst h1; rfl
  · subst h2; rfl
  · subst h3; rfl
  · subst h4; rfl
  · subst h5; rfl
  · subst h6; rfl
  · subst h7; rfl
  · simp only [List.cons_append, List.nil_append, unquoteChar, unescape, if_true,
      find_hexDigit _ h8, Option.map_some, Char.ofNat_toNat]
  · simp [unquoteChar, h2]

theorem quoteChar_decodes (c : Char) : Decodes quoteChar c := by
  intro d r r' h
  have hread : some (c, r) = some (d, r') := by
    rw [← unquoteChar_quoteChar c r, h, unquoteChar_quoteChar d r']
  simpa using hread

theorem quoteChar_head (c : Char) : ∃ d ds, quoteChar c = d :: ds ∧ d ≠ '"' := by
  rw [quoteChar]
  split_ifs with h1 h2 h3 h4 h5 h6 h7 h8
  all_goals first | exact ⟨_, _, rfl, by decide⟩ | exact ⟨_, _, rfl, h1⟩

/-- A JSON string literal. -/
def quote (s : String) : List Char := '"' :: s.toList.flatMap quoteChar ++ ['"']

theorem quote_decodes (s : String) : Decodes quote s := by
  intro t r r' h
  simp only [quote, List.cons_append, List.append_assoc, List.nil_append,
    List.cons.injEq, true_and] at h
  obtain ⟨hst, hr⟩ := terminated_decodes quoteChar_head (fun c _ => quoteChar_decodes c) h
  exact ⟨String.toList_injective hst, hr⟩

/-! ### JSON text -/

/-- A JSON value over scalars `S`. Object fields are listed in the order they are printed. -/
inductive Json (S : Type) where
  | scalar (s : S)
  | arr (xs : List (Json S))
  | obj (fields : List (String × Json S))

namespace Json

variable {S T : Type}

section Print

variable (code : S → List Char)

mutual

/-- The text of a JSON value, given the text of its scalars. -/
def print : Json S → List Char
  | scalar s => code s
  | arr [] => ['[', ']']
  | arr (x :: xs) => '[' :: (print x ++ printElems xs ++ [']'])
  | obj [] => ['\x7b', '\x7d']
  | obj ((k, v) :: fs) => '\x7b' :: (quote k ++ ':' :: (print v ++ printFields fs) ++ ['\x7d'])

def printElems : List (Json S) → List Char
  | [] => []
  | x :: xs => ',' :: print x ++ printElems xs

/-- The fields after the first, each with its comma. -/
def printFields : List (String × Json S) → List Char
  | [] => []
  | (k, v) :: fs => ',' :: (quote k ++ ':' :: print v) ++ printFields fs

end

/-- One field of an object, without its comma. -/
def member (p : String × Json S) : List Char := quote p.1 ++ ':' :: print code p.2

theorem print_arr (xs : List (Json S)) :
    print code (arr xs) = '[' :: (separated (print code) xs ++ [']']) := by
  have helems : ∀ xs : List (Json S),
      printElems code xs = xs.flatMap fun x => ',' :: print code x := by
    intro xs
    induction xs with
    | nil => rfl
    | cons x xs ih => simp [printElems, ih]
  cases xs with
  | nil => rfl
  | cons x xs => simp [print, separated, helems]

theorem print_obj (fs : List (String × Json S)) :
    print code (obj fs) = '\x7b' :: (separated (member code) fs ++ ['\x7d']) := by
  have hfields : ∀ fs : List (String × Json S),
      printFields code fs = fs.flatMap fun p => ',' :: member code p := by
    intro fs
    induction fs with
    | nil => rfl
    | cons p fs ih => simp [printFields, member, ih]
  cases fs with
  | nil => rfl
  | cons p fs => simp [print, separated, member, hfields]

/-- What a code for scalars must satisfy for JSON text to be unambiguous. -/
structure ScalarCode : Prop where
  /-- A scalar can be read off the front of a text. -/
  decodes : ∀ s, Decodes code s
  /-- No scalar looks like an array, an object, or the end of an array. -/
  head : ∀ s, ∃ c cs, code s = c :: cs ∧ c ≠ '[' ∧ c ≠ '\x7b' ∧ c ≠ ']'

variable {code}

theorem ScalarCode.print_head (h : ScalarCode code) (j : Json S) :
    ∃ c cs, print code j = c :: cs ∧ c ≠ ']' := by
  cases j with
  | scalar s =>
    obtain ⟨c, cs, hc, -, -, hne⟩ := h.head s
    exact ⟨c, cs, hc, hne⟩
  | arr xs => exact ⟨'[', _, print_arr code xs, by decide⟩
  | obj fs => exact ⟨'\x7b', _, print_obj code fs, by decide⟩

theorem member_decodes {p : String × Json S} (h : Decodes (print code) p.2) :
    Decodes (member code) p := by
  rintro ⟨k', v'⟩ r r' heq
  obtain ⟨k, v⟩ := p
  simp only [member, List.append_assoc, List.cons_append] at heq
  obtain ⟨rfl, hrest⟩ := quote_decodes k _ _ _ heq
  obtain ⟨rfl, hr⟩ := h _ _ _ (List.cons.inj hrest).2
  exact ⟨rfl, hr⟩

theorem member_head (p : String × Json S) :
    ∃ c cs, member code p = c :: cs ∧ c ≠ '\x7d' :=
  ⟨'"', _, rfl, by decide⟩

/-- Texts that start differently are different, whatever follows. -/
theorem append_ne_of_head {xs ys xs' ys' r r' : List Char} {c d : Char} (hx : xs = c :: xs')
    (hy : ys = d :: ys') (hne : c ≠ d) : xs ++ r ≠ ys ++ r' := by
  rw [hx, hy, List.cons_append, List.cons_append]
  exact fun h => hne (List.cons.inj h).1

/-- **JSON text is unambiguous.** A printed value can be read off the front of any text. -/
theorem ScalarCode.print_decodes (h : ScalarCode code) : ∀ j : Json S, Decodes (print code) j
  | scalar s => by
    intro j' r r' heq
    obtain ⟨c, cs, hc, hbracket, hbrace, -⟩ := h.head s
    cases j' with
    | scalar s' =>
      obtain ⟨rfl, hr⟩ := h.decodes s s' r r' heq
      exact ⟨rfl, hr⟩
    | arr xs => exact absurd heq (append_ne_of_head hc (print_arr code xs) hbracket)
    | obj fs => exact absurd heq (append_ne_of_head hc (print_obj code fs) hbrace)
  | arr xs => by
    intro j' r r' heq
    cases j' with
    | scalar s =>
      obtain ⟨c, cs, hc, hbracket, -, -⟩ := h.head s
      exact absurd heq (append_ne_of_head (print_arr code xs) hc hbracket.symm)
    | arr ys =>
      simp only [print_arr, List.cons_append, List.append_assoc, List.nil_append] at heq
      obtain ⟨rfl, hr⟩ := separated_decodes (by decide) h.print_head
        (fun x hx => h.print_decodes x) (List.cons.inj heq).2
      exact ⟨rfl, hr⟩
    | obj fs =>
      exact absurd heq (append_ne_of_head (print_arr code xs) (print_obj code fs) (by decide))
  | obj fs => by
    intro j' r r' heq
    cases j' with
    | scalar s =>
      obtain ⟨c, cs, hc, -, hbrace, -⟩ := h.head s
      exact absurd heq (append_ne_of_head (print_obj code fs) hc hbrace.symm)
    | arr ys =>
      exact absurd heq (append_ne_of_head (print_obj code fs) (print_arr code ys) (by decide))
    | obj gs =>
      simp only [print_obj, List.cons_append, List.append_assoc, List.nil_append] at heq
      obtain ⟨rfl, hr⟩ := separated_decodes (by decide) member_head
        (fun p hp => member_decodes (h.print_decodes p.2)) (List.cons.inj heq).2
      exact ⟨rfl, hr⟩
termination_by j => sizeOf j
decreasing_by
  · have := List.sizeOf_lt_of_mem hx
    simp only [arr.sizeOf_spec]
    omega
  · have := List.sizeOf_lt_of_mem hp
    have hsnd : sizeOf p.2 < sizeOf p := by
      obtain ⟨k, v⟩ := p
      simp only [Prod.mk.sizeOf_spec]
      omega
    simp only [obj.sizeOf_spec]
    omega

theorem ScalarCode.print_injective (h : ScalarCode code) :
    Function.Injective (print code) := by
  intro j j' heq
  exact (h.print_decodes j j' [] [] (by simp [heq])).1

end Print

/-! ### Containment -/

section Contained

variable (same : S → T → Bool)

mutual

/-- Whether a JSON value is contained in another: scalars are compared, an array must have each
element contained in some element, an object each field in the field of that name. -/
def containedIn : Json S → Json T → Bool
  | scalar s, scalar t => same s t
  | arr ys, arr xs => elemsIn ys xs
  | obj gs, obj fs => fieldsIn gs fs
  | _, _ => false

/-- Each element is contained in one of the given ones. -/
def elemsIn : List (Json S) → List (Json T) → Bool
  | [], _ => true
  | y :: ys, xs => xs.any (fun x => containedIn y x) && elemsIn ys xs

/-- Each field is contained in the given field of the same name. -/
def fieldsIn : List (String × Json S) → List (String × Json T) → Bool
  | [], _ => true
  | (k, y) :: gs, fs =>
    (match fs.lookup k with
      | some x => containedIn y x
      | none => false) && fieldsIn gs fs

end

variable {same}

theorem fieldsIn_iff {gs : List (String × Json S)} {fs : List (String × Json T)} :
    fieldsIn same gs fs = true ↔
      ∀ p ∈ gs, ∃ x, fs.lookup p.1 = some x ∧ containedIn same p.2 x = true := by
  induction gs with
  | nil => simp [fieldsIn]
  | cons p gs ih =>
    obtain ⟨k, y⟩ := p
    simp only [fieldsIn, Bool.and_eq_true, ih, List.mem_cons, forall_eq_or_imp]
    cases fs.lookup k <;> simp

/-- **Containment in an object**, field by field. -/
theorem containedIn_obj_iff {j : Json S} {fs : List (String × Json T)} :
    containedIn same j (obj fs) = true ↔
      ∃ gs, j = obj gs ∧ ∀ p ∈ gs, ∃ x, fs.lookup p.1 = some x ∧ containedIn same p.2 x = true := by
  cases j with
  | scalar s => simp [containedIn]
  | arr ys => simp [containedIn]
  | obj gs => simp [containedIn, fieldsIn_iff]

/-- Containment in an object looks at the fields by name only. -/
theorem containedIn_obj_of_lookup {j : Json S} {fs fs' : List (String × Json T)}
    (h : containedIn same j (obj fs) = true)
    (hsub : ∀ k x, fs.lookup k = some x → fs'.lookup k = some x) :
    containedIn same j (obj fs') = true := by
  obtain ⟨gs, rfl, hgs⟩ := containedIn_obj_iff.mp h
  refine containedIn_obj_iff.mpr ⟨gs, rfl, fun p hp => ?_⟩
  obtain ⟨x, hx, hin⟩ := hgs p hp
  exact ⟨x, hsub _ _ hx, hin⟩

theorem containedIn_scalar_iff {j : Json S} {t : T} :
    containedIn same j (scalar t) = true ↔ ∃ s, j = scalar s ∧ same s t = true := by
  cases j <;> simp [containedIn]

end Contained

mutual

/-- A JSON value with each scalar replaced. -/
def map (f : S → T) : Json S → Json T
  | scalar s => scalar (f s)
  | arr xs => arr (mapElems f xs)
  | obj fs => obj (mapFields f fs)

def mapElems (f : S → T) : List (Json S) → List (Json T)
  | [] => []
  | x :: xs => map f x :: mapElems f xs

def mapFields (f : S → T) : List (String × Json S) → List (String × Json T)
  | [] => []
  | (k, v) :: fs => (k, map f v) :: mapFields f fs

end

/-! ### Up to the order of fields -/

/-- Fields in the order of their names. -/
def sortFields (fs : List (String × Json S)) : List (String × Json S) :=
  fs.mergeSort fun p q => p.1 ≤ q.1

mutual

/-- A JSON value with the fields of every object in the order of their names. Two values are the
same up to the order of fields when this is the same. -/
def sorted : Json S → Json S
  | scalar s => scalar s
  | arr xs => arr (sortedElems xs)
  | obj fs => obj (sortFields (sortedFields fs))

def sortedElems : List (Json S) → List (Json S)
  | [] => []
  | x :: xs => sorted x :: sortedElems xs

def sortedFields : List (String × Json S) → List (String × Json S)
  | [] => []
  | (k, v) :: fs => (k, sorted v) :: sortedFields fs

end

/-- Without repeated names, sorting forgets the order and nothing else. -/
theorem sortFields_eq_iff {fs gs : List (String × Json S)} (hfs : (fs.map Prod.fst).Nodup) :
    sortFields fs = sortFields gs ↔ fs.Perm gs := by
  have hperm : ∀ fs : List (String × Json S), (sortFields fs).Perm fs :=
    fun fs => List.mergeSort_perm fs _
  have hsorted : ∀ fs : List (String × Json S),
      (sortFields fs).Pairwise fun p q => p.1 ≤ q.1 := by
    intro fs
    have h := @List.pairwise_mergeSort _ (fun p q : String × Json S => decide (p.1 ≤ q.1))
      (fun a b c hab hbc => by simp only [decide_eq_true_eq] at *; exact String.le_trans hab hbc)
      (fun a b => by simpa using String.le_total a.1 b.1) fs
    exact h.imp fun hpq => by simpa using hpq
  constructor
  · intro h
    exact (hperm fs).symm.trans (h ▸ hperm gs)
  · intro h
    have hsame : (sortFields fs).Perm (sortFields gs) :=
      (hperm fs).trans (h.trans (hperm gs).symm)
    refine hsame.eq_of_pairwise (fun p q hp hq hle hge => ?_) (hsorted fs) (hsorted gs)
    -- equal names, and each name occurs once
    have hname : p.1 = q.1 := String.le_antisymm hle hge
    exact List.inj_on_of_nodup_map hfs ((hperm fs).subset hp)
      (h.symm.subset ((hperm gs).subset hq)) hname

end Json

/-! ### Values as JSON -/

/-- The scalars of a stored JSON value. -/
inductive Scalar where
  | null
  | bool (b : Bool)
  | num (x : ℚ)
  | str (s : String)
  deriving DecidableEq

/-- A natural number in decimal, padded with zeros. -/
def padded (width n : ℕ) : String :=
  String.ofList (List.replicate (width - (toString n).length) '0') ++ toString n

/-- Year, month and day of a day counted from the epoch, in the proleptic Gregorian calendar. Days
are counted in eras of 400 years that begin on the first of March of year 0. -/
def civilFromDays (day : ℤ) : ℤ × ℕ × ℕ :=
  let z := day + 719468
  let doe := (z % 146097).toNat
  let yoe := (doe - doe / 1460 + doe / 36524 - doe / 146096) / 365
  let doy := doe - (365 * yoe + yoe / 4 - yoe / 100)
  let mp := (5 * doy + 2) / 153
  let d := doy - (153 * mp + 2) / 5 + 1
  let m := if mp < 10 then mp + 3 else mp - 9
  ((yoe : ℤ) + z / 146097 * 400 + (if m ≤ 2 then 1 else 0), m, d)

/-- `Date.prototype.toISOString`. -/
def isoString (ms : ℤ) : String :=
  let (y, m, d) := civilFromDays (ms / 86400000)
  let t := (ms % 86400000).toNat
  let year :=
    if 0 ≤ y ∧ y ≤ 9999 then padded 4 y.toNat
    else (if y < 0 then "-" else "+") ++ padded 6 y.natAbs
  s!"{year}-{padded 2 m}-{padded 2 d}T" ++
    s!"{padded 2 (t / 3600000)}:{padded 2 (t / 60000 % 60)}:{padded 2 (t / 1000 % 60)}." ++
    s!"{padded 3 (t % 1000)}Z"

example : isoString 1693420589979 = "2023-08-30T18:36:29.979Z" := by decide

namespace Value

mutual

/-- A value as JSON, with bigints written as decimal strings. `undefined` and functions have no
JSON form. -/
def toJson : Value → Option (Json Scalar)
  | undefined => none
  | native _ => none
  | null => some (.scalar .null)
  | bool b => some (.scalar (.bool b))
  | num x => some (.scalar (.num x))
  | bigint n => some (.scalar (.str (toString n)))
  | str s => some (.scalar (.str s))
  | date ms => some (.scalar (.str (isoString ms)))
  | arr xs => some (.arr (elemsToJson xs))
  | obj fields => some (.obj (fieldsToJson fields))

/-- An element without a JSON form becomes `null`. -/
def elemsToJson : List Value → List (Json Scalar)
  | [] => []
  | x :: xs => (toJson x).getD (.scalar .null) :: elemsToJson xs

/-- A field without a JSON form is left out. -/
def fieldsToJson : List (String × Value) → List (String × Json Scalar)
  | [] => []
  | (k, v) :: fs =>
    match toJson v with
    | some j => (k, j) :: fieldsToJson fs
    | none => fieldsToJson fs

end

theorem lookup_fieldsToJson {o : Obj} {k : String} {v : Value} {j : Json Scalar}
    (hv : o.lookup k = some v) (hj : toJson v = some j) :
    (fieldsToJson o).lookup k = some j := by
  induction o with
  | nil => simp at hv
  | cons p rest ih =>
    obtain ⟨k', w⟩ := p
    rcases eq_or_ne k k' with rfl | hk
    · simp only [List.lookup_cons_self, Option.some.injEq] at hv
      subst hv
      simp [fieldsToJson, hj]
    · simp only [List.lookup_cons, beq_false_of_ne hk] at hv
      cases hw : toJson w with
      | none => simpa only [fieldsToJson, hw] using ih hv
      | some jw =>
        simp only [fieldsToJson, hw, List.lookup_cons, beq_false_of_ne hk]
        exact ih hv

/-- A field of the JSON form is the JSON form of a field. -/
theorem exists_mem_of_lookup_fieldsToJson {o : Obj} {k : String} {j : Json Scalar}
    (h : (fieldsToJson o).lookup k = some j) : ∃ v, (k, v) ∈ o ∧ toJson v = some j := by
  induction o with
  | nil => simp [fieldsToJson] at h
  | cons p rest ih =>
    obtain ⟨k', w⟩ := p
    have hrest (h : (fieldsToJson rest).lookup k = some j) :
        ∃ v, (k, v) ∈ (k', w) :: rest ∧ toJson v = some j := by
      obtain ⟨v, hv, hj⟩ := ih h
      exact ⟨v, List.mem_cons_of_mem _ hv, hj⟩
    cases hw : toJson w with
    | none => exact hrest (by simpa only [fieldsToJson, hw] using h)
    | some jw =>
      simp only [fieldsToJson, hw] at h
      rcases eq_or_ne k k' with rfl | hk
      · simp only [List.lookup_cons_self, Option.some.injEq] at h
        exact ⟨w, List.mem_cons_self, hw.trans (congrArg some h)⟩
      · rw [List.lookup_cons, beq_false_of_ne hk] at h
        exact hrest h

end Value

/-! ### Values made of strings -/

/-- The scalars of a JSON value made of strings. -/
inductive Text where
  | null
  | str (s : String)
  deriving DecidableEq

namespace Text

def code : Text → List Char
  | null => ['n', 'u', 'l', 'l']
  | str s => quote s

def toScalar : Text → Scalar
  | null => .null
  | str s => .str s

/-- Whether a stored scalar is this one. -/
def sameAs (x : Text) (y : Scalar) : Bool := x.toScalar = y

theorem scalarCode : Json.ScalarCode code where
  decodes := by
    intro x y r r' h
    cases x with
    | null =>
      cases y with
      | null => exact ⟨rfl, by simpa [code] using h⟩
      | str t => exact absurd (List.cons.inj h).1 (by decide)
    | str s =>
      cases y with
      | null => exact absurd (List.cons.inj h).1 (by decide)
      | str t =>
        obtain ⟨rfl, hr⟩ := quote_decodes s t r r' h
        exact ⟨rfl, hr⟩
  head := by
    intro x
    cases x with
    | null => exact ⟨'n', _, rfl, by decide, by decide, by decide⟩
    | str s => exact ⟨'"', _, rfl, by decide, by decide, by decide⟩

end Text

/-- `JSON.stringify` of a value made of strings. -/
def stringify (j : Json Text) : String := String.ofList (j.print Text.code)

/-- **Equal text, equal value.** -/
theorem stringify_injective : Function.Injective stringify := fun _ _ h =>
  Text.scalarCode.print_injective (String.ofList_injective h)

example : stringify (.arr [.obj [("field", .scalar (.str "a\"b"))], .scalar .null]) =
    "[\x7b\"field\":\"a\\\"b\"\x7d,null]" := by decide

end Js
