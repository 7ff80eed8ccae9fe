import Mathlib.Data.List.Sort
import ValueBus.Polymorphic

/-!
# Registries by their history

A registry is the outcome of calls that register and unregister kinds. Which kind it knows under a
serial is decided by the last call that named the serial, whatever was known under it before and
whatever happened to other serials. This holds of every lawful map that a registry may use; a hash
map is one.
-/

namespace ValueBus

/-- A call that changes a registry. -/
inductive Registration where
  | register (serial : UInt32) (kind : Kind)
  | unregister (serial : UInt32)
  deriving Repr

def Registration.serial : Registration → UInt32
  | .register serial _ | .unregister serial => serial

/-- The last change of a serial made a kind known under it. -/
def Registered (changes : List Registration) (serial : UInt32) (kind : Kind) : Prop :=
  ∃ earlier later, changes = earlier ++ .register serial kind :: later ∧
    ∀ change ∈ later, change.serial ≠ serial

/-- A serial that was never named, or whose last change made its kind unknown. -/
def Unregistered (changes : List Registration) (serial : UInt32) : Prop :=
  ∀ kind, ¬Registered changes serial kind

theorem not_registered_nil (serial : UInt32) (kind : Kind) : ¬Registered [] serial kind := by
  simp [Registered]

theorem registered_cons {first : Registration} {rest : List Registration} {serial : UInt32}
    {kind : Kind} :
    Registered (first :: rest) serial kind ↔
      Registered rest serial kind ∨
        first = .register serial kind ∧ ∀ change ∈ rest, change.serial ≠ serial := by
  constructor
  · rintro ⟨earlier, later, split, untouched⟩
    cases earlier with
    | nil =>
        cases split
        exact Or.inr ⟨rfl, untouched⟩
    | cons change earlier =>
        cases split
        exact Or.inl ⟨earlier, later, rfl, untouched⟩
  · rintro (⟨earlier, later, rfl, untouched⟩ | ⟨rfl, untouched⟩)
    · exact ⟨first :: earlier, later, rfl, untouched⟩
    · exact ⟨[], rest, rfl, untouched⟩

namespace Registry

variable {μ : Type} [KindMap μ]

/-- A change of a registry, with its answer. -/
def change (registry : Registry μ) : Registration → Bool × Registry μ
  | .register serial kind => registry.register serial kind
  | .unregister serial => registry.unregister serial

/-- The registry that changes make of an empty one. -/
def ofChanges (changes : List Registration) : Registry μ :=
  changes.foldl (fun registry change => (registry.change change).2) empty

theorem serials_pairwise (registry : Registry μ) : registry.serials.Pairwise (· ≤ ·) := by
  have sorted := @List.pairwise_mergeSort UInt32 (fun first second => first ≤ second)
    (by simpa using fun _ _ _ => UInt32.le_trans) (by simpa using UInt32.le_total)
    ((KindMap.entries registry.kinds).map (·.1))
  simpa [serials] using sorted

variable [LawfulKindMap μ]

theorem contains_eq (registry : Registry μ) (serial : UInt32) :
    registry.contains serial = (registry.find? serial).isSome :=
  LawfulKindMap.containsKey_eq registry.kinds serial

theorem find?_register (registry : Registry μ) (serial asked : UInt32) (kind : Kind) :
    (registry.register serial kind).2.find? asked =
      if asked = serial then some kind else registry.find? asked :=
  LawfulKindMap.get?_insert registry.kinds serial asked kind

theorem find?_unregister (registry : Registry μ) (serial asked : UInt32) :
    (registry.unregister serial).2.find? asked =
      if asked = serial then none else registry.find? asked :=
  LawfulKindMap.get?_remove registry.kinds serial asked

theorem register_answer (registry : Registry μ) (serial : UInt32) (kind : Kind) :
    (registry.register serial kind).1 = registry.contains serial := by
  rw [contains_eq]
  exact congrArg Option.isSome (LawfulKindMap.insert_answer registry.kinds serial kind)

theorem unregister_answer (registry : Registry μ) (serial : UInt32) :
    (registry.unregister serial).1 = registry.contains serial := by
  have removed := congrArg Option.isSome (LawfulKindMap.remove_answer registry.kinds serial)
  rw [Option.isSome_map] at removed
  rw [contains_eq]
  exact removed

/-- The answer to a change is whether its serial was known before. -/
theorem change_answer (registry : Registry μ) (change : Registration) :
    (registry.change change).1 = registry.contains change.serial := by
  cases change with
  | register serial kind => exact registry.register_answer serial kind
  | unregister serial => exact registry.unregister_answer serial

theorem find?_change {registry : Registry μ} {change : Registration} {serial : UInt32}
    {kind : Kind} :
    (registry.change change).2.find? serial = some kind ↔
      change = .register serial kind ∨
        change.serial ≠ serial ∧ registry.find? serial = some kind := by
  cases change with
  | register other new =>
      simp only [Registry.change, find?_register, Registration.register.injEq, Registration.serial]
      by_cases same : serial = other
      · simp [same]
      · simp [same, Ne.symm same]
  | unregister other =>
      simp only [Registry.change, find?_unregister, reduceCtorEq, false_or, Registration.serial]
      by_cases same : serial = other
      · simp [same]
      · simp [same, Ne.symm same]

theorem find?_foldl_change {changes : List Registration} {registry : Registry μ}
    {serial : UInt32} {kind : Kind} :
    (changes.foldl (fun registry change => (registry.change change).2) registry).find? serial =
        some kind ↔
      Registered changes serial kind ∨
        (∀ change ∈ changes, change.serial ≠ serial) ∧ registry.find? serial = some kind := by
  induction changes generalizing registry with
  | nil => simp [not_registered_nil]
  | cons first rest ih =>
      rw [List.foldl_cons, ih, find?_change, registered_cons, List.forall_mem_cons]
      constructor
      · rintro (later | ⟨untouched, rfl | ⟨other, known⟩⟩)
        · exact Or.inl (Or.inl later)
        · exact Or.inl (Or.inr ⟨rfl, untouched⟩)
        · exact Or.inr ⟨⟨other, untouched⟩, known⟩
      · rintro ((later | ⟨rfl, untouched⟩) | ⟨⟨other, untouched⟩, known⟩)
        · exact Or.inl later
        · exact Or.inr ⟨untouched, Or.inl rfl⟩
        · exact Or.inr ⟨untouched, Or.inr ⟨other, known⟩⟩

/-- A registry knows a kind under a serial exactly if the last change of the serial registered
it. -/
theorem find?_ofChanges_eq_some_iff {changes : List Registration} {serial : UInt32} {kind : Kind} :
    (ofChanges changes : Registry μ).find? serial = some kind ↔
      Registered changes serial kind := by
  have unknown : (empty : Registry μ).find? serial = none := LawfulKindMap.get?_empty serial
  simp only [ofChanges, find?_foldl_change, unknown, reduceCtorEq, and_false, or_false]

theorem find?_ofChanges_eq_none_iff {changes : List Registration} {serial : UInt32} :
    (ofChanges changes : Registry μ).find? serial = none ↔ Unregistered changes serial := by
  simp only [Option.eq_none_iff_forall_ne_some, ne_eq, find?_ofChanges_eq_some_iff, Unregistered]

/-- A call answers yes if the calls before it left a kind under its serial. -/
theorem change_ofChanges_answer {earlier : List Registration} {change : Registration} :
    ((ofChanges earlier : Registry μ).change change).1 = true ↔
      ∃ kind, Registered earlier change.serial kind := by
  simp only [change_answer, contains_eq, Option.isSome_iff_exists, find?_ofChanges_eq_some_iff]

/-! ## The serials of a registry -/

theorem mem_serials_iff {registry : Registry μ} {serial : UInt32} :
    serial ∈ registry.serials ↔ registry.contains serial = true := by
  simp only [serials, List.mem_mergeSort, List.mem_map, Prod.exists, exists_and_right,
    exists_eq_right, LawfulKindMap.mem_entries_iff, contains_eq, find?, Option.isSome_iff_exists]

theorem serials_nodup (registry : Registry μ) : registry.serials.Nodup :=
  (List.mergeSort_perm _ _).nodup_iff.2 (LawfulKindMap.serials_nodup registry.kinds)

theorem size_eq (registry : Registry μ) : registry.size = registry.serials.length := by
  rw [size, LawfulKindMap.length_eq, serials, List.length_mergeSort, List.length_map]

theorem isEmpty_eq (registry : Registry μ) : registry.isEmpty = registry.serials.isEmpty := by
  rw [isEmpty, LawfulKindMap.isEmpty_eq, Bool.eq_iff_iff, List.isEmpty_iff_length_eq_zero,
    List.isEmpty_iff_length_eq_zero, ← size_eq, size, LawfulKindMap.length_eq]

/-- Two registries that know the same serials list them alike, however their maps order them. -/
theorem serials_eq_of_contains_eq {ν : Type} [KindMap ν] [LawfulKindMap ν]
    {registry : Registry μ} {other : Registry ν}
    (alike : ∀ serial, registry.contains serial = other.contains serial) :
    registry.serials = other.serials := by
  have same : registry.serials.Perm other.serials := by
    rw [List.perm_ext_iff_of_nodup registry.serials_nodup other.serials_nodup]
    intro serial
    rw [mem_serials_iff, mem_serials_iff, alike]
  exact same.eq_of_pairwise (fun _ _ _ _ first second => UInt32.le_antisymm first second)
    registry.serials_pairwise other.serials_pairwise

end Registry

/-! ## Hash maps -/

instance : KindMap (Std.HashMap UInt32 Kind) where
  empty := ∅
  insert map serial kind := (map[serial]?, map.insert serial kind)
  remove map serial := (map[serial]?.map fun kind => (serial, kind), map.erase serial)
  get? map serial := map[serial]?
  containsKey map serial := map.contains serial
  length map := map.size
  isEmpty map := map.isEmpty
  entries map := map.toList

instance : LawfulKindMap (Std.HashMap UInt32 Kind) where
  get?_empty serial := Std.HashMap.getElem?_empty
  get?_insert map serial asked kind := by
    simp only [KindMap.get?, KindMap.insert, Std.HashMap.getElem?_insert, beq_iff_eq,
      @eq_comm _ serial asked]
  insert_answer _ _ _ := rfl
  get?_remove map serial asked := by
    simp only [KindMap.get?, KindMap.remove, Std.HashMap.getElem?_erase, beq_iff_eq,
      @eq_comm _ serial asked]
  remove_answer _ _ := rfl
  containsKey_eq map serial := Std.HashMap.isSome_getElem?_eq_contains.symm
  mem_entries_iff map serial kind := Std.HashMap.mem_toList_iff_getElem?_eq_some
  serials_nodup map := by
    have distinct : (map.toList.map Prod.fst).Nodup := by
      rw [Std.HashMap.map_fst_toList_eq_keys]
      exact Std.HashMap.nodup_keys
    exact distinct
  length_eq map := Std.HashMap.length_toList.symm
  isEmpty_eq map := Std.HashMap.isEmpty_toList.symm

end ValueBus
