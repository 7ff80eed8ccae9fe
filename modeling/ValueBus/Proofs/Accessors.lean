import Mathlib.Data.List.Induction
import Mathlib.Data.List.Nodup
import Mathlib.Data.List.TFAE
import Mathlib.Logic.Function.Basic
import Mathlib.Tactic.TFAE
import ValueBus.Variant

/-!
# What variants answer

A set of alternatives is declared by their types, no two of which are the same. A type is asked for
in three ways that are declared apart: by the number of its alternative, which is counted up from 0,
by the alternative that is made for the type, and by the name at its number. Whatever was done with
variants of a set, the three agree: a variant holds the last value that was stored in it, as the
alternative of its type, and answers for that type only.
-/

namespace ValueBus

/-- The alternatives of variants: their types, all different, and a name for each. -/
structure AlternativeSet (τ : Type) where
  types : List τ
  names : List String
  distinct : types.Nodup
  named : names.length = types.length

namespace AlternativeSet

variable {τ : Type} [DecidableEq τ] {set : AlternativeSet τ}

/-- A type that is declared in a set. -/
def Member (set : AlternativeSet τ) : Type :=
  { type : τ // type ∈ set.types }

instance : DecidableEq set.Member :=
  inferInstanceAs (DecidableEq { type : τ // type ∈ set.types })

/-- The number of a type: the types are counted up from 0 as they are declared. -/
def number (set : AlternativeSet τ) (type : set.Member) : Nat :=
  (set.types.zipIdx.lookup type.1).getD set.types.length

/-- A value of one of the types. -/
structure Held (set : AlternativeSet τ) where
  type : set.Member
  value : Value

namespace Held

def peek (held : set.Held) (type : set.Member) : Option Value :=
  if held.type = type then some held.value else none

/-- The value as an alternative that is known by its number. -/
def erase (held : set.Held) : Alternative :=
  ⟨set.number held.type, held.value⟩

end Held

def variantOf (stored : Option set.Held) : Variant :=
  ⟨stored.map Held.erase⟩

/-! ## Numbers -/

theorem getElem?_number (type : set.Member) : set.types[set.number type]? = some type.1 := by
  -- A declared type has an entry, and an entry holds the place of its type.
  cases found : set.types.zipIdx.lookup type.1 with
  | none =>
      rcases List.getElem?_of_mem type.2 with ⟨position, placed⟩
      have entryMem : (type.1, position) ∈ set.types.zipIdx :=
        List.mem_zipIdx_iff_getElem?.2 placed
      have absent := List.lookup_eq_none_iff.1 found _ entryMem
      simp at absent
  | some position =>
      rcases List.lookup_eq_some_iff.1 found with ⟨before, after, split, _⟩
      have entryMem : (type.1, position) ∈ set.types.zipIdx := by simp [split]
      rw [number, found]
      exact List.mem_zipIdx_iff_getElem?.1 entryMem

theorem number_lt (type : set.Member) : set.number type < set.types.length :=
  (List.getElem?_eq_some_iff.1 (getElem?_number type)).1

theorem number_inj {type other : set.Member} :
    set.number type = set.number other ↔ type = other := by
  constructor
  · intro same
    have placed := getElem?_number type
    rw [same, getElem?_number other] at placed
    exact Subtype.ext (Option.some.inj placed).symm
  · rintro rfl
    rfl

/-- No type has the number of another, so a type has the number of its place. -/
theorem number_eq_of_getElem? {index : Nat} {type : set.Member}
    (declared : set.types[index]? = some type.1) : set.number type = index := by
  have inside : index < set.types.length := (List.getElem?_eq_some_iff.1 declared).1
  have same : set.types[index]? = set.types[set.number type]? := by
    rw [declared, getElem?_number]
  exact ((List.getElem?_inj inside set.distinct).1 same).symm

theorem peek_erase (held : set.Held) (type : set.Member) :
    held.erase.peek (set.number type) = held.peek type := by
  simp only [Alternative.peek, Held.erase, Held.peek, number_inj]

/-! ## Answers -/

section Answers

variable {stored : Option set.Held} {type : set.Member}

theorem bind_peek_eq_some_iff {value : Value} :
    stored.bind (·.peek type) = some value ↔ stored = some ⟨type, value⟩ := by
  cases stored with
  | none => simp
  | some held =>
      rcases held with ⟨heldType, heldValue⟩
      simp [Held.peek, Held.mk.injEq]

theorem slot_bind_peek :
    (variantOf stored).slot.bind (·.peek (set.number type)) = stored.bind (·.peek type) := by
  cases stored with
  | none => rfl
  | some held => exact peek_erase held type

theorem get_variantOf :
    (variantOf stored).get set.names (set.number type) =
      match stored.bind (·.peek type) with
      | some value => .ok value
      | none => .error ((variantOf stored).mismatch set.names (set.number type)) := by
  have same := @slot_bind_peek _ _ _ stored type
  cases found : stored.bind (·.peek type) with
  | none => simp only [Variant.get, same, found]
  | some value => simp only [Variant.get, same, found]

theorem poke_eq_map_peek (held : Alternative) (index : Nat) (new : Value) :
    held.poke index new = (held.peek index).map fun value => (value, ⟨index, new⟩) := by
  unfold Alternative.poke Alternative.peek
  split
  · next same => rw [Option.map_some, same]
  · rfl

/-- What may be exchanged is what may be asked for. -/
theorem exchange_eq_map_get (names : List String) (variant : Variant) (index : Nat) (new : Value) :
    variant.exchange names index new =
      (variant.get names index).map fun value => (value, .new index new) := by
  have same : variant.slot.bind (·.poke index new) =
      (variant.slot.bind (·.peek index)).map fun value => (value, ⟨index, new⟩) := by
    cases variant.slot with
    | none => rfl
    | some held => exact poke_eq_map_peek held index new
  simp only [Variant.exchange, Variant.get, same]
  cases variant.slot.bind (·.peek index) <;> rfl

theorem exchange_variantOf (new : Value) :
    (variantOf stored).exchange set.names (set.number type) new =
      match stored.bind (·.peek type) with
      | some value => .ok (value, variantOf (some ⟨type, new⟩))
      | none => .error ((variantOf stored).mismatch set.names (set.number type)) := by
  rw [exchange_eq_map_get, get_variantOf]
  cases stored.bind (·.peek type) <;> rfl

theorem intoValue_variantOf :
    (variantOf stored).intoValue (set.number type) =
      match stored.bind (·.peek type) with
      | some value => .ok value
      | none => .error (variantOf stored) := by
  cases stored with
  | none => rfl
  | some held =>
      rw [← slot_bind_peek]
      simp only [variantOf, Option.map_some, Variant.intoValue, Alternative.unwrap,
        Option.bind_some]
      cases held.erase.peek (set.number type) <;> rfl

theorem get_variantOf_eq_ok_iff {value : Value} :
    (variantOf stored).get set.names (set.number type) = .ok value ↔
      stored = some ⟨type, value⟩ := by
  rw [get_variantOf, ← bind_peek_eq_some_iff]
  cases stored.bind (·.peek type) <;> simp

theorem exchange_variantOf_eq_ok_iff {new value : Value} {written : Variant} :
    (variantOf stored).exchange set.names (set.number type) new = .ok (value, written) ↔
      stored = some ⟨type, value⟩ ∧ variantOf (some ⟨type, new⟩) = written := by
  rw [exchange_variantOf, ← bind_peek_eq_some_iff]
  cases stored.bind (·.peek type) <;> simp

theorem exchange_eq_error_iff {names : List String} {variant : Variant} {index : Nat} {new : Value}
    {error : Error} :
    variant.exchange names index new = .error error ↔ variant.get names index = .error error := by
  rw [exchange_eq_map_get]
  cases variant.get names index <;> simp [Except.map]

theorem eq_mismatch_of_get {error : Error}
    (failed : (variantOf stored).get set.names (set.number type) = .error error) :
    error = (variantOf stored).mismatch set.names (set.number type) := by
  rw [get_variantOf] at failed
  cases found : stored.bind (·.peek type) with
  | some value => simp [found] at failed
  | none =>
      simp only [found, Except.error.injEq] at failed
      exact failed.symm

theorem intoValue_variantOf_eq_ok_iff {value : Value} :
    (variantOf stored).intoValue (set.number type) = .ok value ↔
      stored = some ⟨type, value⟩ := by
  rw [intoValue_variantOf, ← bind_peek_eq_some_iff]
  cases stored.bind (·.peek type) <;> simp

theorem isType_variantOf_iff :
    (variantOf stored).isType (set.number type) = true ↔
      ∃ value, stored = some ⟨type, value⟩ := by
  cases stored with
  | none => simp [variantOf, Variant.isType]
  | some held =>
      rcases held with ⟨heldType, heldValue⟩
      simp [variantOf, Held.erase, Variant.isType, number_inj]

theorem valueType_variantOf_eq_iff :
    (variantOf stored).valueType set.names = set.number type ↔
      ∃ value, stored = some ⟨type, value⟩ := by
  cases stored with
  | none =>
      have vacant : set.types.length ≠ set.number type := Nat.ne_of_gt (number_lt type)
      simp [variantOf, Variant.valueType, set.named, vacant]
  | some held =>
      rcases held with ⟨heldType, heldValue⟩
      simp [variantOf, Held.erase, Variant.valueType, number_inj]

theorem getElem?_names (type : set.Member) :
    set.names[set.number type]? =
      some (Alternative.nameIn set.names (set.number type)) := by
  have inside : set.number type < set.names.length := set.named ▸ number_lt type
  rw [Alternative.nameIn, List.getElem?_eq_getElem inside, Option.getD_some]

/-- How a variant answers for a type of its set, which has the given number, if the given value was
last stored in it. -/
structure AnswersFor (type : set.Member) (index : Nat) (stored : Option set.Held)
    (variant : Variant) : Prop where
  agree : ∀ new : Value, List.TFAE [
    ∃ value, stored = some ⟨type, value⟩,
    variant.isType index = true,
    ∃ value, variant.get set.names index = .ok value,
    ∃ answer, variant.exchange set.names index new = .ok answer,
    ∃ value, variant.intoValue index = .ok value,
    variant.valueType set.names = index]
  got : ∀ value, variant.get set.names index = .ok value → stored = some ⟨type, value⟩
  exchanged : ∀ new value written, variant.exchange set.names index new = .ok (value, written) →
    stored = some ⟨type, value⟩ ∧ written = .new index new
  extracted : ∀ value, variant.intoValue index = .ok value → stored = some ⟨type, value⟩
  refused : ∃ expected, set.names[index]? = some expected ∧
    (∀ error, variant.get set.names index = .error error →
      error = .typeMismatch expected (variant.typeName set.names)) ∧
    ∀ new error, variant.exchange set.names index new = .error error →
      error = .typeMismatch expected (variant.typeName set.names)
  returned : ∀ back, variant.intoValue index = .error back → back = variant

/-- Every accessor looks for the value that was stored, with the type that it was stored with. -/
theorem answersFor_variantOf (type : set.Member) (stored : Option set.Held) :
    AnswersFor type (set.number type) stored (variantOf stored) where
  agree new := by
    tfae_have 1 ↔ 2 := isType_variantOf_iff.symm
    tfae_have 1 ↔ 3 := exists_congr fun value => get_variantOf_eq_ok_iff.symm
    tfae_have 1 ↔ 4 := by
      simp only [Prod.exists, exchange_variantOf_eq_ok_iff, exists_and_left, exists_eq', and_true]
    tfae_have 1 ↔ 5 := exists_congr fun value => intoValue_variantOf_eq_ok_iff.symm
    tfae_have 1 ↔ 6 := valueType_variantOf_eq_iff.symm
    tfae_finish
  got value answered := get_variantOf_eq_ok_iff.1 answered
  exchanged new value written answered := by
    rcases exchange_variantOf_eq_ok_iff.1 answered with ⟨rfl, rfl⟩
    exact ⟨rfl, rfl⟩
  extracted value answered := intoValue_variantOf_eq_ok_iff.1 answered
  refused := by
    refine ⟨_, getElem?_names type, fun error => eq_mismatch_of_get, ?_⟩
    intro new error failed
    exact eq_mismatch_of_get (exchange_eq_error_iff.1 failed)
  returned back failed := by
    rw [intoValue_variantOf] at failed
    cases found : stored.bind (·.peek type) with
    | some value => simp [found] at failed
    | none =>
        simp only [found, Except.error.injEq] at failed
        exact failed.symm

end Answers

/-! ## Histories -/

/-- What is done with the variants at some places. -/
inductive Operation (set : AlternativeSet τ) where
  | create (place : Nat)
  | new (place : Nat) (type : set.Member) (value : Value)
  | convert (place : Nat) (held : set.Held)
  | assign (place : Nat) (type : set.Member) (value : Value)
  | clear (place : Nat)
  /-- What is at one place is moved out and made the variant at another. -/
  | take (source target : Nat)
  /-- A value is written over the one that is held, if that is of the type asked for. -/
  | write (place : Nat) (type : set.Member) (value : Value)
  /-- The value is taken out for good, or the variant handed back. -/
  | extract (place : Nat) (type : set.Member)

/-- The variants at all places, each of which may have none. -/
abbrev Store :=
  Nat → Option Variant

namespace Store

def alter (store : Store) (place : Nat) (change : Variant → Option Variant) : Store :=
  Function.update store place ((store place).bind change)

end Store

namespace Operation

def run (store : Store) : set.Operation → Store
  | .create place => Function.update store place (some .empty)
  | .new place type value => Function.update store place (some (.new (set.number type) value))
  | .convert place held => Function.update store place (some (.ofAlternative held.erase))
  | .assign place type value =>
      store.alter place fun variant => some (variant.set (set.number type) value)
  | .clear place => store.alter place fun variant => some variant.clear
  | .take source target =>
      match store source with
      | some variant =>
          Function.update (Function.update store source (some variant.take.2)) target
            (some variant.take.1)
      | none => store
  | .write place type value =>
      store.alter place fun variant =>
        match variant.exchange set.names (set.number type) value with
        | .ok (_, written) => some written
        | .error _ => some variant
  | .extract place type =>
      store.alter place fun variant =>
        match variant.intoValue (set.number type) with
        | .ok _ => none
        | .error returned => some returned

/-- The variants after operations that begin without any. -/
def runAll (history : List set.Operation) : Store :=
  history.foldl run fun _ => none

end Operation

/-- What was last stored in the variant at a place, the latest operation coming first: nothing at
all if there is no variant. -/
def lastStored : List set.Operation → Nat → Option (Option set.Held)
  | [], _ => none
  | .create target :: earlier, place =>
      if place = target then some none else lastStored earlier place
  | .new target type value :: earlier, place =>
      if place = target then some (some ⟨type, value⟩) else lastStored earlier place
  | .convert target held :: earlier, place =>
      if place = target then some (some held) else lastStored earlier place
  | .assign target type value :: earlier, place =>
      let before := lastStored earlier place
      if place = target then before.bind fun _ => some (some ⟨type, value⟩) else before
  | .clear target :: earlier, place =>
      let before := lastStored earlier place
      if place = target then before.bind fun _ => some none else before
  | .take source target :: earlier, place =>
      let before := lastStored earlier place
      match lastStored earlier source with
      | some stored =>
          if place = target then some stored else if place = source then some none else before
      | none => before
  | .write target type value :: earlier, place =>
      let before := lastStored earlier place
      if place = target then
        before.bind fun stored =>
          if (stored.bind (·.peek type)).isSome then some (some ⟨type, value⟩) else some stored
      else before
  | .extract target type :: earlier, place =>
      let before := lastStored earlier place
      if place = target then
        before.bind fun stored =>
          if (stored.bind (·.peek type)).isSome then none else some stored
      else before

/-! ## Runs -/

theorem Store.alter_apply (store : Store) (target : Nat) (change : Variant → Option Variant)
    (place : Nat) :
    store.alter target change place =
      if place = target then (store place).bind change else store place := by
  rw [alter, Function.update_apply]
  split_ifs with same
  · rw [same]
  · rfl

/-- Every place of a store has the variant that was last stored there. -/
def Remembers (store : Store) (history : List set.Operation) : Prop :=
  ∀ place, store place = (lastStored history place).map variantOf

namespace Remembers

variable {store : Store} {earlier : List set.Operation}

theorem update (remembers : Remembers store earlier) (target : Nat) (stored : Option set.Held)
    (place : Nat) :
    Function.update store target (some (variantOf stored)) place =
      (if place = target then some stored else lastStored earlier place).map variantOf := by
  rw [Function.update_apply]
  split_ifs
  · rfl
  · exact remembers place

theorem alter (remembers : Remembers store earlier) (target : Nat)
    {change : Variant → Option Variant} {effect : Option set.Held → Option (Option set.Held)}
    (corresponds : ∀ stored, change (variantOf stored) = (effect stored).map variantOf)
    (place : Nat) :
    store.alter target change place =
      (if place = target then (lastStored earlier place).bind effect
        else lastStored earlier place).map variantOf := by
  rw [Store.alter_apply, remembers place]
  split_ifs
  · cases lastStored earlier place with
    | none => rfl
    | some stored => exact corresponds stored
  · rfl

theorem take (remembers : Remembers store earlier) (source target place : Nat) :
    (Operation.take source target : set.Operation).run store place =
      (lastStored (.take source target :: earlier) place).map variantOf := by
  simp only [Operation.run, lastStored, remembers source]
  cases lastStored earlier source with
  | none => exact remembers place
  | some stored =>
      simp only [Option.map_some, Function.update_apply, remembers place]
      split_ifs <;> rfl

/-- An operation does to the variants what it does to what is stored in them. -/
theorem run (remembers : Remembers store earlier) (operation : set.Operation) :
    Remembers (operation.run store) (operation :: earlier) := by
  intro place
  -- Only writing and extracting ask what is held; all others store the same whatever it is.
  cases operation with
  | create target => exact remembers.update target none place
  | new target type value => exact remembers.update target (some ⟨type, value⟩) place
  | convert target held => exact remembers.update target (some held) place
  | assign target type value => exact remembers.alter target (fun _ => rfl) place
  | clear target => exact remembers.alter target (fun _ => rfl) place
  | take source target => exact remembers.take source target place
  | write target type value =>
      refine remembers.alter target (fun stored => ?_) place
      rw [exchange_variantOf]
      cases stored.bind (·.peek type) <;> rfl
  | extract target type =>
      refine remembers.alter target (fun stored => ?_) place
      rw [intoValue_variantOf]
      cases stored.bind (·.peek type) <;> rfl

end Remembers

theorem runAll_concat (history : List set.Operation) (operation : set.Operation) :
    Operation.runAll (history ++ [operation]) = operation.run (Operation.runAll history) :=
  List.foldl_concat ..

/-- The variants after operations hold what was last stored in them. -/
theorem remembers_runAll (history : List set.Operation) :
    Remembers (Operation.runAll history) history.reverse := by
  induction history using List.reverseRecOn with
  | nil => exact fun place => rfl
  | append_singleton history operation ih =>
      rw [runAll_concat, List.reverse_concat]
      exact ih.run operation

section Unchanged

variable {store : Store} {place : Nat} {variant : Variant}

theorem Store.alter_eq_self {change : Variant → Option Variant}
    (present : store place = some variant) (kept : change variant = some variant) :
    store.alter place change = store := by
  rw [alter, present, Option.bind_some, kept, ← present, Function.update_eq_self]

theorem Operation.run_write_of_error {type : set.Member} {new : Value} {error : Error}
    (present : store place = some variant)
    (failed : variant.exchange set.names (set.number type) new = .error error) :
    (write place type new).run store = store := by
  apply Store.alter_eq_self present
  simp only [failed]

theorem Operation.run_extract_of_error {type : set.Member}
    (present : store place = some variant)
    (failed : variant.intoValue (set.number type) = .error variant) :
    (extract place type).run store = store := by
  apply Store.alter_eq_self present
  simp only [failed]

theorem Operation.run_take {target : Nat} (present : store place = some variant) :
    (take place target : set.Operation).run store =
      Function.update (Function.update store place (some .empty)) target (some variant) := by
  simp only [run, present, Variant.take]

end Unchanged

/-- A variant is empty, or it holds what was stored under the number and the name of its type. -/
theorem empty_or_new_variantOf (stored : Option set.Held) :
    (stored = none ∧ variantOf stored = .empty ∧ (variantOf stored).typeName set.names = none) ∨
      ∃ held name, stored = some held ∧
        variantOf stored = .new (set.number held.type) held.value ∧
        set.number held.type < set.types.length ∧
        set.names[set.number held.type]? = some name ∧
        (variantOf stored).typeName set.names = some name := by
  cases stored with
  | none => exact .inl ⟨rfl, rfl, rfl⟩
  | some held =>
      exact .inr ⟨held, _, rfl, rfl, number_lt held.type, getElem?_names held.type, rfl⟩

end AlternativeSet

open AlternativeSet

/-- The accessors of variants always agree. Whatever was done before, a variant is empty or holds
the last value that was stored in it, with the number of its type; for every type of the set, which
has the number of its place, the accessors answer accordingly. One that fails changes nothing, and
what is taken leaves an empty variant behind. -/
theorem variant_accessors_agree {τ : Type} [DecidableEq τ] (set : AlternativeSet τ)
    (history : List set.Operation) (place : Nat) (variant : Variant)
    (present : Operation.runAll history place = some variant) :
    ∃ stored : Option set.Held, lastStored history.reverse place = some stored ∧
      ((stored = none ∧ variant = .empty ∧ variant.typeName set.names = none) ∨
        ∃ held name, stored = some held ∧ variant = .new (set.number held.type) held.value ∧
          set.number held.type < set.types.length ∧
          set.names[set.number held.type]? = some name ∧
          variant.typeName set.names = some name) ∧
      (∀ (type : set.Member) (index : Nat), set.types[index]? = some type.1 →
        AnswersFor type index stored variant) ∧
      (∀ (type : set.Member) (new : Value) (error : Error),
        variant.exchange set.names (set.number type) new = .error error →
        Operation.runAll (history ++ [.write place type new]) = Operation.runAll history) ∧
      (∀ (type : set.Member) (back : Variant),
        variant.intoValue (set.number type) = .error back →
        Operation.runAll (history ++ [.extract place type]) = Operation.runAll history) ∧
      ∀ target, Operation.runAll (history ++ [.take place target]) target = some variant ∧
        (place ≠ target → ∃ left, Operation.runAll (history ++ [.take place target]) place =
          some left ∧ left = .empty ∧ left.valueType set.names = set.types.length) := by
  have remembered := remembers_runAll history place
  rw [present] at remembered
  rcases Option.map_eq_some_iff.1 remembered.symm with ⟨stored, last, rfl⟩
  refine ⟨stored, last, empty_or_new_variantOf stored, ?_, ?_, ?_, ?_⟩
  · intro type index declared
    rw [← number_eq_of_getElem? declared]
    exact answersFor_variantOf type stored
  · intro type new error failed
    rw [runAll_concat]
    exact Operation.run_write_of_error present failed
  · intro type back failed
    cases (answersFor_variantOf type stored).returned back failed
    rw [runAll_concat]
    exact Operation.run_extract_of_error present failed
  · intro target
    rw [runAll_concat, Operation.run_take present]
    refine ⟨Function.update_self .., fun apart => ⟨.empty, ?_, rfl, set.named⟩⟩
    rw [Function.update_of_ne apart, Function.update_self]

/-- A set of an integer, a float and a text. -/
def AlternativeSet.scalars : AlternativeSet LeafKind where
  types := [.number .int32, .number .float64, .text]
  names := ["i32", "f64", "String"]
  distinct := by decide
  named := rfl

/-- An integer that no float is written over, taken from a variant that is assigned a text after. -/
theorem variant_accessors_agree_scalars :
    let integer : AlternativeSet.scalars.Member := ⟨.number .int32, by decide⟩
    let float : AlternativeSet.scalars.Member := ⟨.number .float64, by decide⟩
    let text : AlternativeSet.scalars.Member := ⟨.text, by decide⟩
    let history : List AlternativeSet.scalars.Operation :=
      [.new 0 integer (.number (.int32 5)), .write 0 float (.number (.float64 1)), .take 0 1,
        .assign 0 text (.text "after"), .extract 1 text]
    Operation.runAll history 1 = some (.new 0 (.number (.int32 5))) ∧
      ∃ stored, lastStored history.reverse 1 = some stored ∧
        AnswersFor integer 0 stored (.new 0 (.number (.int32 5))) ∧
        AnswersFor text 2 stored (.new 0 (.number (.int32 5))) := by
  intro integer float text history
  have present : Operation.runAll history 1 = some (.new 0 (.number (.int32 5))) := rfl
  rcases variant_accessors_agree .scalars history 1 _ present with ⟨stored, last, _, answers, _⟩
  exact ⟨present, stored, last, answers integer 0 rfl, answers text 2 rfl⟩

end ValueBus
