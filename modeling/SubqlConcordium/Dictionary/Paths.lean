import SubqlConcordium.Dictionary.QueryEntry
import SubqlConcordium.FilterMeaning
import SubqlConcordium.Js.Path
import Mathlib.Algebra.Order.BigOperators.Group.List
import Mathlib.Data.Finset.Max

/-!
# Keys as paths

A key of `values` names a field twice: to the dictionary, as a lodash path into the item, and to
the runtime filter, as a property of it. The two readings are the same for a key that is its own
path. For any other key the item can be built in which only the path leads anywhere.

## What the query asks of one field

The nested object is the result of a loop, in which a later key overwrites what an earlier one left
under the same name. So what it holds under a name is decided by a single key, the last one whose
path starts there: a text if the path ends there too, and something deeper otherwise. That is
`lastUnder`, and every condition on the nested object below is stated on the keys through it.

## What is assumed of lodash

`SetsPaths` is the assumption under which the keys of a filter have a meaning at all: a key is
parsed to a path, and the value is assigned there. Where only keys are at issue that are mere names
of properties, the weaker `SetsFields` is enough, which also leaves out the names that lodash does
not assign to.

## Main definitions

* `Lodash.SetsPaths`, `Lodash.SetsFields` — what lodash documents about `setWith` and about paths
* `assignedAt` — the texts, assigned at the paths of their keys
* `lastUnder` — the key that decides what the query asks of a field
* `KeysMeanFields` — an item that holds what the query asks for passes the runtime filter
* `AsksOtherType` — the values ask for a type that the filter rules out

## Main results

* `nestValues_of_plain`, `nestValues_of_names` — plain keys are translated to fields
* `Lodash.SetsPaths.lookup_nestValues` — the nested object, field by field
* `keysMeanFields_iff` — the filters whose keys mean the same on both sides
-/

namespace SubqlConcordium

open Js

/-- What lodash documents about `setWith` without a customizer. It assigns at the path that the key
is parsed to. A key without a dot or a bracket is its own path, and the names in any other path are
parts of the key between the dots and brackets. -/
structure Lodash.SetsPaths (lodash : Lodash) (toPath : String → List String) : Prop where
  setWith_eq : ∀ object key value,
    lodash.setWith object key value = setPath object (toPath key) value
  toPath_plain : ∀ key : String, (∀ c ∈ key.toList, c ≠ '.' ∧ c ≠ '[') → toPath key = [key]
  toPath_parts : ∀ key : String, toPath key = [key] ∨ ∀ name ∈ toPath key, name.length < key.length

/-- A mere name, of the kind that properties have in the SDK: nothing in it separates the parts of a
path, and it is not one of those that lodash leaves alone. -/
def IsName (key : String) : Prop :=
  (∀ c ∈ key.toList, c ≠ '.' ∧ c ≠ '[') ∧ key ∉ ["__proto__", "constructor", "prototype"]

instance (key : String) : Decidable (IsName key) :=
  -- the characters of the key are gone through, not all characters
  letI : Decidable (∀ c ∈ key.toList, c ≠ '.' ∧ c ≠ '[') := List.decidableBAll _ _
  inferInstanceAs (Decidable (_ ∧ _))

/-- What lodash documents about `setWith` without a customizer, for mere names: the field is
assigned. -/
def Lodash.SetsFields (lodash : Lodash) : Prop :=
  ∀ fields key value, IsName key →
    lodash.setWith (.obj fields) key value = .obj (putField fields key value)

section

variable {lodash : Lodash} {toPath : String → List String} {values : StringMap}

theorem Lodash.SetsPaths.setsFields (h : lodash.SetsPaths toPath) : lodash.SetsFields := by
  intro fields key value hname
  rw [h.setWith_eq, h.toPath_plain key hname.1, setPath_obj_cons]
  rfl

/-! ### The nested object -/

/-- The fields that strings under plain keys become. -/
def plainFields (entries : List (String × String)) : List (String × Json Text) :=
  entries.map fun p => (p.1, .scalar (.str p.2))

theorem lookup_plainFields {entries : List (String × String)} {k : String} :
    (plainFields entries).lookup k = (entries.lookup k).map fun v => .scalar (.str v) :=
  lookup_map_values (fun v => Json.scalar (Text.str v)) entries k

/-- One assignment on an object leaves an object, with each name once. Its names are old ones, but
for the first name of the path. -/
theorem Lodash.SetsPaths.setWith_obj (h : lodash.SetsPaths toPath)
    {fields : List (String × Json Text)} (hnodup : (fields.map Prod.fst).Nodup) (key : String)
    (value : Json Text) :
    ∃ fields', lodash.setWith (.obj fields) key value = .obj fields' ∧
      (fields'.map Prod.fst).Nodup ∧
      ∀ k ∈ fields'.map Prod.fst, k ∈ fields.map Prod.fst ∨ k ∈ toPath key := by
  rw [h.setWith_eq]
  cases hpath : toPath key with
  | nil => exact ⟨fields, rfl, hnodup, fun k hk => .inl hk⟩
  | cons name rest =>
    refine ⟨_, setPath_obj_cons rest, ?_, fun k hk => ?_⟩
    · rw [names_putField]
      split_ifs with hname
      · exact hnodup
      · rw [← List.concat_eq_append]
        exact List.Nodup.concat hname hnodup
    · rw [names_putField] at hk
      split_ifs at hk with hname
      · exact .inl hk
      · rcases List.mem_append.mp hk with hk | hk
        · exact .inl hk
        · rw [List.mem_singleton.mp hk]
          exact .inr List.mem_cons_self

/-- **The nested object.** Each of its names comes from the path of some key. -/
theorem Lodash.SetsPaths.exists_nestValues (h : lodash.SetsPaths toPath) (values : StringMap) :
    ∃ fields, nestValues lodash values = .obj fields ∧ (fields.map Prod.fst).Nodup ∧
      ∀ k ∈ fields.map Prod.fst, ∃ p ∈ values.entries, k ∈ toPath p.1 := by
  have hloop : ∀ (entries : List (String × String)) (fields : List (String × Json Text)),
      (fields.map Prod.fst).Nodup →
      ∃ fields', entries.foldl (fun nested p => lodash.setWith nested p.1 (.scalar (.str p.2)))
          (.obj fields) = .obj fields' ∧ (fields'.map Prod.fst).Nodup ∧
        ∀ k ∈ fields'.map Prod.fst,
          k ∈ fields.map Prod.fst ∨ ∃ p ∈ entries, k ∈ toPath p.1 := by
    intro entries
    induction entries with
    | nil => exact fun fields hnodup => ⟨fields, rfl, hnodup, fun k hk => .inl hk⟩
    | cons p entries ih =>
      intro fields hnodup
      obtain ⟨fields₁, hset, hnodup₁, hnames₁⟩ := h.setWith_obj hnodup p.1 (.scalar (.str p.2))
      obtain ⟨fields₂, hfold, hnodup₂, hnames₂⟩ := ih fields₁ hnodup₁
      refine ⟨fields₂, by rw [List.foldl_cons, hset, hfold], hnodup₂, fun k hk => ?_⟩
      rcases hnames₂ k hk with hk₁ | ⟨q, hq, hk₁⟩
      · rcases hnames₁ k hk₁ with hk₀ | hk₀
        · exact .inl hk₀
        · exact .inr ⟨p, List.mem_cons_self, hk₀⟩
      · exact .inr ⟨q, List.mem_cons_of_mem p hq, hk₁⟩
  obtain ⟨fields, hfold, hnodup, hnames⟩ := hloop values.entries [] List.nodup_nil
  refine ⟨fields, hfold, hnodup, fun k hk => ?_⟩
  exact (hnames k hk).resolve_left (by simp)

theorem nestValues_of_sets (hset : ∀ p ∈ values.entries, ∀ fields value,
      lodash.setWith (.obj fields) p.1 value = .obj (putField fields p.1 value)) :
    nestValues lodash values = .obj (plainFields values.entries) := by
  have hloop : ∀ (entries done : List (String × String)),
      ((done ++ entries).map Prod.fst).Nodup → (∀ p ∈ entries, ∀ fields value,
        lodash.setWith (.obj fields) p.1 value = .obj (putField fields p.1 value)) →
      entries.foldl (fun nested p => lodash.setWith nested p.1 (.scalar (.str p.2)))
        (.obj (plainFields done)) = .obj (plainFields (done ++ entries)) := by
    intro entries
    induction entries with
    | nil => intro done _ _; simp
    | cons p entries ih =>
      intro done hnodup hset
      have hnew : p.1 ∉ (plainFields done).map Prod.fst := by
        rw [List.map_append, List.map_cons, List.nodup_append] at hnodup
        rw [plainFields, List.map_map]
        intro hmem
        exact hnodup.2.2 p.1 hmem p.1 List.mem_cons_self rfl
      have hstep : lodash.setWith (.obj (plainFields done)) p.1 (.scalar (.str p.2)) =
          .obj (plainFields (done ++ [p])) := by
        rw [hset p List.mem_cons_self, putField_of_not_mem hnew, plainFields, plainFields,
          List.map_append]
        rfl
      have hrest := ih (done ++ [p]) (by simpa using hnodup)
        fun q hq => hset q (List.mem_cons_of_mem p hq)
      rw [List.foldl_cons, hstep, hrest, List.append_assoc]
      rfl
  exact hloop values.entries [] values.nodup hset

/-- The texts, assigned at the paths of their keys in the order in which they are listed. -/
def assignedAt (toPath : String → List String) (entries : List (String × String)) : Json Text :=
  entries.foldl (fun object p => setPath object (toPath p.1) (.scalar (.str p.2))) (.obj [])

theorem Lodash.SetsPaths.nestValues_eq (h : lodash.SetsPaths toPath) (values : StringMap) :
    nestValues lodash values = assignedAt toPath values.entries := by
  rw [nestValues, assignedAt]
  exact congrArg (fun f => values.entries.foldl f (.obj []))
    (funext fun object => funext fun p => h.setWith_eq object p.1 _)

/-- **Plain keys are fields.** -/
theorem Lodash.SetsPaths.nestValues_of_plain (h : lodash.SetsPaths toPath)
    (hplain : ∀ p ∈ values.entries, toPath p.1 = [p.1]) :
    nestValues lodash values = .obj (plainFields values.entries) := by
  refine nestValues_of_sets fun p hp fields value => ?_
  rw [h.setWith_eq, hplain p hp, setPath_obj_cons]
  rfl

theorem Lodash.SetsFields.nestValues_of_names (h : lodash.SetsFields)
    (hnames : ∀ p ∈ values.entries, IsName p.1) :
    nestValues lodash values = .obj (plainFields values.entries) :=
  nestValues_of_sets fun p hp fields value => h fields p.1 value (hnames p hp)

/-! ### What the query asks of one field -/

/-- The last key whose path starts with a name, with its value. -/
def lastUnder (toPath : String → List String) (entries : List (String × String)) (name : String) :
    Option (String × String) :=
  entries.reverse.find? fun p => (toPath p.1).head? = some name

theorem lastUnder_append {entries : List (String × String)} {p : String × String} {name : String} :
    lastUnder toPath (entries ++ [p]) name =
      if (toPath p.1).head? = some name then some p else lastUnder toPath entries name := by
  rw [lastUnder, lastUnder, List.reverse_append, List.reverse_singleton, List.singleton_append,
    List.find?_cons]
  by_cases hhead : (toPath p.1).head? = some name <;> simp [hhead]

/-- What is assigned below a name is an object or an array. -/
theorem assignAt_cons_ne_scalar (old : Option (Json Text)) (name : String) (rest : List String)
    (value : Json Text) (t : Text) : assignAt old (name :: rest) value ≠ .scalar t := by
  cases hindex : index? name with
  | none => rcases old with _ | (_ | elems | fields) <;> simp [assignAt, hindex]
  | some i => rcases old with _ | (_ | elems | fields) <;> simp [assignAt, hindex]

/-- **The nested object, field by field.** Under each name it has what the last key makes of it
whose path starts there: the key's text if the path ends there, and no text if it goes on. -/
theorem Lodash.SetsPaths.lookup_nestValues (h : lodash.SetsPaths toPath) (values : StringMap) :
    ∃ fields, nestValues lodash values = .obj fields ∧ ∀ name,
      (lastUnder toPath values.entries name = none → fields.lookup name = none) ∧
      ∀ p, lastUnder toPath values.entries name = some p → ∃ j, fields.lookup name = some j ∧
        (toPath p.1 = [name] → j = .scalar (.str p.2)) ∧
        (toPath p.1 ≠ [name] → ∀ t, j ≠ .scalar t) := by
  rw [nestValues]
  induction values.entries using List.reverseRecOn with
  | nil => exact ⟨[], rfl, fun name => ⟨fun _ => rfl, by simp [lastUnder]⟩⟩
  | append_singleton entries p ih =>
    obtain ⟨fields, hnest, hfields⟩ := ih
    rw [List.foldl_append, hnest, List.foldl_cons, List.foldl_nil, h.setWith_eq]
    cases hpath : toPath p.1 with
    | nil =>
      refine ⟨fields, rfl, fun name => ?_⟩
      rw [lastUnder_append, hpath]
      exact hfields name
    | cons first rest =>
      refine ⟨_, setPath_obj_cons rest, fun name => ?_⟩
      rw [lastUnder_append, hpath, List.head?_cons]
      by_cases hname : first = name
      · subst hname
        rw [if_pos rfl, lookup_putField_self]
        refine ⟨nofun, ?_⟩
        rintro q ⟨⟩
        refine ⟨_, rfl, fun hplain => ?_, fun hdeeper => ?_⟩
        · rw [hpath, List.cons.injEq] at hplain
          rw [hplain.2, assignAt]
        · obtain ⟨next, rest', rfl⟩ : ∃ next rest', rest = next :: rest' :=
            List.exists_cons_of_ne_nil fun hnil => hdeeper (by rw [hpath, hnil])
          exact assignAt_cons_ne_scalar _ _ _ _
      · rw [if_neg fun heq => hname (Option.some.inj heq),
          lookup_putField_of_ne fun heq => hname heq.symm]
        exact hfields name

/-! ### The two readings -/

variable {kind : ItemKind} {filter : ValuesFilter}

/-- **A key means the same field on both sides.** An item of the filter's type that holds the
nested object of the query passes the runtime filter. -/
def KeysMeanFields (lodash : Lodash) (kind : ItemKind) (filter : ValuesFilter)
    (values : StringMap) : Prop :=
  ∀ item : Item kind, typeDiffers (.str item.type) filter = false →
    FoundIn (nestValues lodash values) (.obj item.fields) →
      kind.accepts item.fields filter = .ok true

/-- The last of the keys whose path starts at the type goes on below it, or gives the type a text
that the filter rules out. No item of the filter's type holds what is asked of it. -/
def AsksOtherType (toPath : String → List String) (kind : ItemKind) (filter : ValuesFilter)
    (values : StringMap) : Prop :=
  ∃ p, lastUnder toPath values.entries kind.typeKey = some p ∧
    (toPath p.1 = [kind.typeKey] → typeDiffers (.str p.2) filter = true)

theorem keysMeanFields_of_asksOtherType (h : lodash.SetsPaths toPath)
    (hother : AsksOtherType toPath kind filter values) :
    KeysMeanFields lodash kind filter values := by
  obtain ⟨p, hlast, hdiffers⟩ := hother
  obtain ⟨fields, hnest, hfields⟩ := h.lookup_nestValues values
  obtain ⟨j, hj, hplain, hdeeper⟩ := (hfields kind.typeKey).2 p hlast
  intro item htype hin
  rw [hnest, foundIn_obj_iff] at hin
  obtain ⟨v, hv, hjv⟩ := hin _ _ hj
  rw [item.lookup_type] at hv
  cases hv
  by_cases hpath : toPath p.1 = [kind.typeKey]
  · rw [hplain hpath, foundIn_str_iff, Value.str.injEq] at hjv
    rw [hjv, hdiffers hpath] at htype
    cases htype
  · exact absurd hjv (not_foundIn_str (hdeeper hpath))

theorem keysMeanFields_of_plain (h : lodash.SetsPaths toPath)
    (hvalues : filter.values = .value values)
    (hplain : ∀ p ∈ values.entries, toPath p.1 = [p.1]) :
    KeysMeanFields lodash kind filter values := by
  intro item htype hin
  rw [h.nestValues_of_plain hplain, foundIn_obj_iff] at hin
  refine accepts_iff.mpr ⟨?_, ?_⟩
  · rw [Obj.prop_of_lookup item.lookup_type, htype]
  · rintro ⟨k, s⟩ hmem
    rw [filter.entries_of_values hvalues] at hmem
    have hlookup := (lookup_eq_some_iff_mem values.nodup).mpr hmem
    obtain ⟨v, hv, hsv⟩ := hin k (.scalar (.str s)) (by rw [lookup_plainFields, hlookup]; rfl)
    rw [foundIn_str_iff] at hsv
    rw [Obj.prop_of_lookup hv, hsv]
    exact agrees_str_iff.mpr rfl

theorem not_agrees_of_missing {item : Obj} {k s : String} (h : item.lookup k = none) :
    ¬ kind.Agrees (item.prop k) s := by
  have hprop : item.prop k = .undefined ∨ item.prop k = .native k := by
    rw [Obj.prop, h]
    by_cases hk : k ∈ objectPrototype
    · exact .inr (if_pos hk)
    · exact .inl (if_neg hk)
  have hevent : ¬ equalsValue (item.prop k) s = .ok true := by
    rw [equalsValue_eq_true_iff]
    rcases hprop with hprop | hprop <;>
      simp [hprop, Means, Slip, IsAccount, IsContractAt, IsContractZero, IsContract, Value.field,
        Value.typeof]
  cases kind with
  | transaction =>
    rcases hprop with hprop | hprop <;> simp [ItemKind.Agrees, hprop]
  | transactionEvent => exact hevent
  | specialEvent => exact hevent

/-- Among the keys that are not their own paths, the longest is mentioned in no path at all. -/
theorem Lodash.SetsPaths.exists_unmentioned (h : lodash.SetsPaths toPath)
    (hplain : ¬ ∀ p ∈ values.entries, toPath p.1 = [p.1]) :
    ∃ p ∈ values.entries, toPath p.1 ≠ [p.1] ∧ ∀ q ∈ values.entries, p.1 ∉ toPath q.1 := by
  obtain ⟨p₀, hp₀, hne₀⟩ : ∃ p ∈ values.entries, toPath p.1 ≠ [p.1] := by
    by_contra hnone
    exact hplain fun p hp => by_contra fun hne => hnone ⟨p, hp, hne⟩
  have hmem : ∀ p, p ∈ (values.entries.filter fun p => toPath p.1 ≠ [p.1]).toFinset ↔
      p ∈ values.entries ∧ toPath p.1 ≠ [p.1] := fun p => by
    rw [List.mem_toFinset, List.mem_filter, decide_eq_true_iff]
  obtain ⟨p, hp, hmax⟩ := Finset.exists_max_image _ (fun p => p.1.length)
    ⟨p₀, (hmem p₀).mpr ⟨hp₀, hne₀⟩⟩
  rw [hmem] at hp
  refine ⟨p, hp.1, hp.2, fun q hq hin => ?_⟩
  by_cases hq' : toPath q.1 = [q.1]
  · -- a plain key mentions itself alone
    rw [hq', List.mem_singleton] at hin
    exact hp.2 (hin ▸ hq')
  · have hshorter := ((h.toPath_parts q.1).resolve_left hq') p.1 hin
    exact absurd (hmax q ((hmem q).mpr ⟨hq, hq'⟩)) (Nat.not_le.mpr hshorter)

/-- A type that the filter lets through and the nested object does not rule out. -/
theorem Lodash.SetsPaths.exists_type (h : lodash.SetsPaths toPath)
    {fields : List (String × Json Text)} (hnest : nestValues lodash values = .obj fields)
    (hother : ¬ AsksOtherType toPath kind filter values) :
    ∃ s, typeDiffers (.str s) filter = false ∧
      ∀ j, fields.lookup kind.typeKey = some j → FoundIn j (.str s) := by
  obtain ⟨fields', hnest', hfields⟩ := h.lookup_nestValues values
  rw [hnest, Json.obj.injEq] at hnest'
  subst hnest'
  cases hlast : lastUnder toPath values.entries kind.typeKey with
  | some p =>
    obtain ⟨j, hj, hplain, -⟩ := (hfields kind.typeKey).2 p hlast
    have hasks : toPath p.1 = [kind.typeKey] ∧ typeDiffers (.str p.2) filter = false := by
      by_contra hnot
      refine hother ⟨p, hlast, fun hpath => ?_⟩
      rw [← Bool.not_eq_false]
      exact fun htype => hnot ⟨hpath, htype⟩
    refine ⟨p.2, hasks.2, fun j' hj' => ?_⟩
    rw [hj, hplain hasks.1] at hj'
    cases hj'
    exact .str
  | none =>
    refine ⟨filter.type.get?.getD "", ?_, by simp [(hfields kind.typeKey).1 hlast]⟩
    rw [typeDiffers_eq_false_iff]
    intro s hs _
    simp [hs, Optional.get?]

/-- The item that is the nested object, of a given type. -/
def nestedItem (kind : ItemKind) (s : String) (fields : List (String × Json Text))
    (hnodup : (fields.map Prod.fst).Nodup) : Item kind where
  fields := (kind.typeKey, .str s) :: fieldsToValue (fields.filter fun p => p.1 ≠ kind.typeKey)
  nodup := by
    have hsub : ((fields.filter fun p => p.1 ≠ kind.typeKey).map Prod.fst).Sublist
        (fields.map Prod.fst) := List.filter_sublist.map Prod.fst
    rw [List.map_cons, names_fieldsToValue, List.nodup_cons]
    exact ⟨by simp, hnodup.sublist hsub⟩
  type := s
  lookup_type := by simp

theorem lookup_nestedItem {s k : String} {fields : List (String × Json Text)}
    {hnodup : (fields.map Prod.fst).Nodup} (hk : k ≠ kind.typeKey) :
    (nestedItem kind s fields hnodup).fields.lookup k = (fields.lookup k).map Json.toValue := by
  rw [nestedItem, List.lookup_cons, beq_false_of_ne hk, lookup_fieldsToValue,
    lookup_filter_of_ne hk]

theorem foundIn_nestedItem {s : String} {fields : List (String × Json Text)}
    {hnodup : (fields.map Prod.fst).Nodup}
    (htype : ∀ j, fields.lookup kind.typeKey = some j → FoundIn j (.str s)) :
    FoundIn (.obj fields) (.obj (nestedItem kind s fields hnodup).fields) := by
  rw [foundIn_obj_iff]
  intro k j hj
  by_cases hk : k = kind.typeKey
  · subst hk
    exact ⟨.str s, (nestedItem kind s fields hnodup).lookup_type, htype j hj⟩
  · exact ⟨j.toValue, by rw [lookup_nestedItem hk, hj]; rfl, foundIn_toValue j⟩

theorem Lodash.SetsPaths.toPath_typeKey (h : lodash.SetsPaths toPath) (kind : ItemKind) :
    toPath kind.typeKey = [kind.typeKey] := by
  cases kind <;> exact h.toPath_plain _ (by simp [ItemKind.typeKey])

/-- **Where the keys of a filter mean the same on both sides.** Exactly where each is its own path;
or where they ask for a type that the filter rules out, so that no item holds it. -/
theorem keysMeanFields_iff (lodash : Lodash) (toPath : String → List String)
    (h : lodash.SetsPaths toPath) (kind : ItemKind) (filter : ValuesFilter) (values : StringMap)
    (hvalues : filter.values = .value values) :
    KeysMeanFields lodash kind filter values ↔
      AsksOtherType toPath kind filter values ∨ ∀ p ∈ values.entries, toPath p.1 = [p.1] := by
  constructor
  · intro hmean
    by_contra hnot
    rw [not_or] at hnot
    obtain ⟨fields, hnest, hnodup, hnames⟩ := h.exists_nestValues values
    obtain ⟨p, hp, hne, hunmentioned⟩ := h.exists_unmentioned hnot.2
    obtain ⟨s, htype, hs⟩ := h.exists_type hnest hnot.1
    have hin : FoundIn (nestValues lodash values)
        (.obj (nestedItem kind s fields hnodup).fields) := by
      rw [hnest]
      exact foundIn_nestedItem hs
    -- the key is no field of the item, so the runtime filter does not find its value
    have hkey : p.1 ≠ kind.typeKey := fun heq => hne (by rw [heq, h.toPath_typeKey])
    have hmissing : fields.lookup p.1 = none := by
      cases hj : fields.lookup p.1 with
      | none => rfl
      | some j =>
        obtain ⟨q, hq, hin⟩ := hnames p.1 (mem_keys_iff.mpr ⟨_, hj⟩)
        exact absurd hin (hunmentioned q hq)
    have haccepts := hmean (nestedItem kind s fields hnodup) htype hin
    rw [← filter.entries_of_values hvalues] at hp
    refine not_agrees_of_missing ?_ ((accepts_iff.mp haccepts).2 p hp)
    rw [lookup_nestedItem hkey, hmissing]
    rfl
  · rintro (hother | hplain)
    · exact keysMeanFields_of_asksOtherType h hother
    · exact keysMeanFields_of_plain h hvalues hplain

/-! ### Keys with dots -/

/-- The parts of a key between its dots. -/
def splitAtDots : List Char → List (List Char)
  | [] => [[]]
  | c :: cs =>
    if c = '.' then [] :: splitAtDots cs
    else
      match splitAtDots cs with
      | [] => [[c]]
      | part :: parts => (c :: part) :: parts

/-- The path of a key whose names are separated by dots. -/
def dottedPath (key : String) : List String := (splitAtDots key.toList).map String.ofList

/-- lodash, for keys without brackets. -/
def Lodash.dotted : Lodash where
  cloneDeep := Lodash.reference.cloneDeep
  flatMap := Lodash.reference.flatMap
  sortBy := Lodash.reference.sortBy
  uniqBy := Lodash.reference.uniqBy
  setWith object key value := setPath object (dottedPath key) value

theorem length_splitAtDots (cs : List Char) :
    ((splitAtDots cs).map List.length).sum + (splitAtDots cs).length = cs.length + 1 := by
  induction cs with
  | nil => rfl
  | cons c cs ih =>
    rw [splitAtDots]
    split_ifs with hc
    · simp only [List.map_cons, List.length_nil, List.sum_cons, List.length_cons]
      omega
    · split
      next heq =>
        rw [heq] at ih
        simp at ih
      next part parts heq =>
        rw [heq] at ih
        simp only [List.map_cons, List.sum_cons, List.length_cons] at ih ⊢
        omega

theorem splitAtDots_of_no_dot {cs : List Char} (h : ∀ c ∈ cs, c ≠ '.') : splitAtDots cs = [cs] := by
  induction cs with
  | nil => rfl
  | cons c cs ih =>
    rw [List.forall_mem_cons] at h
    rw [splitAtDots, if_neg h.1, ih h.2]

theorem one_lt_length_splitAtDots {cs : List Char} (h : '.' ∈ cs) :
    1 < (splitAtDots cs).length := by
  have hpos : ∀ cs, 0 < (splitAtDots cs).length := by
    intro cs
    cases cs with
    | nil => decide
    | cons c cs =>
      rw [splitAtDots]
      split_ifs
      · simp
      · split <;> simp
  induction cs with
  | nil => simp at h
  | cons c cs ih =>
    rw [splitAtDots]
    split_ifs with hc
    · have := hpos cs
      simp only [List.length_cons]
      omega
    · have hmem : '.' ∈ cs := (List.mem_cons.mp h).resolve_left fun heq => hc heq.symm
      have hrest := ih hmem
      split
      next heq => simp [heq] at hrest
      next heq => simpa [heq] using hrest

theorem Lodash.dotted_setsPaths : Lodash.dotted.SetsPaths dottedPath where
  setWith_eq _ _ _ := rfl
  toPath_plain key h := by
    rw [dottedPath, splitAtDots_of_no_dot fun c hc => (h c hc).1]
    simp
  toPath_parts key := by
    by_cases hdot : '.' ∈ key.toList
    · refine .inr fun name hname => ?_
      obtain ⟨part, hpart, rfl⟩ := List.mem_map.mp hname
      have hparts := one_lt_length_splitAtDots hdot
      have hlength := length_splitAtDots key.toList
      have hle := List.single_le_sum (l := (splitAtDots key.toList).map List.length) (by simp)
        part.length (List.mem_map_of_mem hpart)
      have hkey : key.toList.length = key.length := String.length_toList
      rw [String.length_ofList]
      omega
    · refine .inl ?_
      rw [dottedPath, splitAtDots_of_no_dot fun c hc heq => hdot (heq ▸ hc)]
      simp

theorem keysMeanFields_sender :
    KeysMeanFields Lodash.dotted .transaction
      ⟨.value "accountTransaction", .value ⟨[("sender", "4AuT5RRm")], by decide⟩⟩
      ⟨[("sender", "4AuT5RRm")], by decide⟩ :=
  (keysMeanFields_iff Lodash.dotted dottedPath Lodash.dotted_setsPaths .transaction _ _ rfl).mpr
    (.inr (by decide))

/-- The address of an instigator, as a path into the event: the query finds it, and the runtime
filter throws. -/
theorem not_keysMeanFields_address :
    ¬ KeysMeanFields Lodash.dotted .transactionEvent
      ⟨.value "Updated", .value ⟨[("instigator.address", "4AuT5RRm")], by decide⟩⟩
      ⟨[("instigator.address", "4AuT5RRm")], by decide⟩ := by
  intro h
  have hnest : nestValues Lodash.dotted ⟨[("instigator.address", "4AuT5RRm")], by decide⟩ =
      .obj [("instigator", .obj [("address", .scalar (.str "4AuT5RRm"))])] := rfl
  have hin : FoundIn (.obj [("instigator", .obj [("address", .scalar (.str "4AuT5RRm"))])])
      (.obj updatedEvent.fields) :=
    foundIn_singleton (v := accountAddress "4AuT5RRm") rfl (foundIn_singleton rfl .str)
  rw [← hnest] at hin
  have haccepts := h updatedEvent (by decide) hin
  have hthrows : ItemKind.transactionEvent.accepts updatedEvent.fields
      ⟨.value "Updated", .value ⟨[("instigator.address", "4AuT5RRm")], by decide⟩⟩ =
        .error (typeError "Cannot read properties of undefined (reading 'type')") := rfl
  rw [hthrows] at haccepts
  cases haccepts

end

end SubqlConcordium
