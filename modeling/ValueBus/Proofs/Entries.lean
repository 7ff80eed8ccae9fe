import Mathlib.Tactic.SplitIfs
import ValueBus.Proofs.Order

/-!
# Entries of a map that is read

A map is read entry by entry: each is added to those read before it, unless its key is among them.
This file proves the two facts that readers rely on. Entries that stand in an order in which the map
admits them are read back as they stand, and whatever is added to entries that make up a map, its
key being new, makes up a map again.
-/

namespace ValueBus

namespace Value

theorem sameKey_comm (left right : Value) : sameKey right left = sameKey left right := by
  rw [sameKey, sameKey, order_swap left right, Ordering.isEq_swap]

theorem hasKey_eq_false_iff {key : Value} {entries : List (Value × Value)} :
    hasKey key entries = false ↔ ∀ entry ∈ entries, sameKey key entry.1 = false := by
  simp [hasKey]

theorem sameKey_eq_true_iff {left right : Value} : sameKey left right = true ↔ left = right := by
  rw [sameKey, Ordering.isEq_iff_eq_eq]
  constructor
  · exact eq_of_order_eq
  · rintro rfl
    have swapped := order_swap left left
    cases answer : order left left <;> rw [answer] at swapped <;> trivial

theorem hasKey_eq_true_iff {key : Value} {entries : List (Value × Value)} :
    hasKey key entries = true ↔ key ∈ entries.map Prod.fst := by
  simp only [hasKey, List.any_eq_true, sameKey_eq_true_iff, List.mem_map]
  exact exists_congr fun entry => and_congr_right fun _ => eq_comm

/-- Inserting an entry changes nothing but its place. -/
theorem insertSorted_perm (key value : Value) (entries : List (Value × Value)) :
    (insertSorted key value entries).Perm ((key, value) :: entries) := by
  induction entries with
  | nil => exact List.Perm.refl _
  | cons entry rest ih =>
      simp only [insertSorted]
      split_ifs
      · exact List.Perm.refl _
      · exact (List.Perm.cons entry ih).trans (List.Perm.swap ..)

theorem addEntry_perm (mapOrder : MapOrder) (key value : Value)
    (entries : List (Value × Value)) :
    (addEntry mapOrder key value entries).Perm ((key, value) :: entries) := by
  cases mapOrder with
  | sorted => exact insertSorted_perm key value entries
  | unsorted => exact List.perm_append_singleton (key, value) entries

/-- The entries of a map to which entries are added one after the other. -/
def addAll (mapOrder : MapOrder) (read entries : List (Value × Value)) : List (Value × Value) :=
  entries.foldl (fun present entry => addEntry mapOrder entry.1 entry.2 present) read

theorem addAll_perm (mapOrder : MapOrder) (read entries : List (Value × Value)) :
    (addAll mapOrder read entries).Perm (read ++ entries) := by
  induction entries generalizing read with
  | nil => simp [addAll]
  | cons entry rest ih =>
      have first := (addEntry_perm mapOrder entry.1 entry.2 read).append_right rest
      exact ((ih _).trans first).trans List.perm_middle.symm

theorem key_not_mem_of_nodup {read rest : List (Value × Value)} {entry : Value × Value}
    (distinct : ((read ++ entry :: rest).map Prod.fst).Nodup) : entry.1 ∉ read.map Prod.fst := by
  intro present
  rw [List.map_append, List.map_cons] at distinct
  exact (List.nodup_append.1 distinct).2.2 _ present _ (List.mem_cons_self ..) rfl

/-- Adding the next entry leaves the keys distinct. -/
theorem nodup_addEntry {read rest : List (Value × Value)} {entry : Value × Value}
    (mapOrder : MapOrder) (distinct : ((read ++ entry :: rest).map Prod.fst).Nodup) :
    ((addEntry mapOrder entry.1 entry.2 read ++ rest).map Prod.fst).Nodup := by
  have moved := (addEntry_perm mapOrder entry.1 entry.2 read).append_right rest
  exact ((moved.trans List.perm_middle.symm).map Prod.fst).nodup_iff.2 distinct

/-- An entry whose key is above all others goes to the end. -/
theorem insertSorted_eq_append {key value : Value} {entries : List (Value × Value)}
    (above : ∀ entry ∈ entries, order entry.1 key = .lt) :
    insertSorted key value entries = entries ++ [(key, value)] := by
  induction entries with
  | nil => rfl
  | cons entry rest ih =>
      rcases List.forall_mem_cons.1 above with ⟨entryLt, restAbove⟩
      have greater : order key entry.1 = .gt := by
        rw [order_swap entry.1 key, entryLt]
        rfl
      rw [insertSorted, greater, ih restAbove]
      rfl

theorem pairwise_insertSorted {key value : Value} {entries : List (Value × Value)}
    (sorted : entries.Pairwise fun earlier later => order earlier.1 later.1 = .lt)
    (absent : ∀ entry ∈ entries, order key entry.1 ≠ .eq) :
    (insertSorted key value entries).Pairwise
      fun earlier later => order earlier.1 later.1 = .lt := by
  induction entries with
  | nil => simp [insertSorted]
  | cons entry rest ih =>
      rcases List.pairwise_cons.1 sorted with ⟨entryLt, restSorted⟩
      rcases List.forall_mem_cons.1 absent with ⟨differ, restAbsent⟩
      simp only [insertSorted]
      split_ifs with less
      · have keyLt : order key entry.1 = .lt := Ordering.isLT_iff_eq_lt.1 less
        apply List.pairwise_cons.2 ⟨?_, sorted⟩
        intro other otherMem
        rcases List.mem_cons.1 otherMem with rfl | otherMem
        · exact keyLt
        · exact order_lt_trans keyLt (entryLt other otherMem)
      · have ltKey : order entry.1 key = .lt := by
          rw [order_swap key entry.1]
          cases answer : order key entry.1 with
          | lt => simp [answer] at less
          | eq => exact absurd answer differ
          | gt => rfl
        refine List.pairwise_cons.2 ⟨?_, ?_⟩
        · intro other otherMem
          rcases List.mem_cons.1 ((insertSorted_perm key value rest).mem_iff.1 otherMem) with
            rfl | otherMem
          · exact ltKey
          · exact entryLt other otherMem
        · exact ih restSorted restAbsent

end Value

namespace MapOrder

open Value

theorem admits_sorted_iff {entries : List (Value × Value)} :
    MapOrder.sorted.Admits entries ↔
      entries.Pairwise fun earlier later => order earlier.1 later.1 = .lt := by
  simp only [Admits, Ordering.isLT_iff_eq_lt]

theorem Admits.nil {mapOrder : MapOrder} : mapOrder.Admits [] := by
  cases mapOrder <;> exact List.Pairwise.nil

/-- The key of an entry is not among the keys before it. -/
theorem Admits.hasKey_eq_false {mapOrder : MapOrder} {earlier later : List (Value × Value)}
    {entry : Value × Value} (admits : mapOrder.Admits (earlier ++ entry :: later)) :
    hasKey entry.1 earlier = false := by
  simp only [hasKey_eq_false_iff]
  intro other otherMem
  cases mapOrder with
  | sorted =>
      have less := (List.pairwise_append.1 (admits_sorted_iff.1 admits)).2.2 other otherMem entry
        (List.mem_cons_self ..)
      rw [sameKey_comm, sameKey, less]
      rfl
  | unsorted =>
      rw [sameKey_comm]
      exact (List.pairwise_append.1 admits).2.2 other otherMem entry (List.mem_cons_self ..)

/-- Adding the next entry puts it after those before it. -/
theorem Admits.addEntry_eq_append {mapOrder : MapOrder} {earlier later : List (Value × Value)}
    {entry : Value × Value} (admits : mapOrder.Admits (earlier ++ entry :: later)) :
    addEntry mapOrder entry.1 entry.2 earlier = earlier ++ [entry] := by
  cases mapOrder with
  | sorted =>
      exact insertSorted_eq_append fun other otherMem =>
        (List.pairwise_append.1 (admits_sorted_iff.1 admits)).2.2 other otherMem entry
          (List.mem_cons_self ..)
  | unsorted => rfl

/-- A map with an entry added whose key is new is a map. -/
theorem Admits.addEntry {mapOrder : MapOrder} {entries : List (Value × Value)}
    (admits : mapOrder.Admits entries) {key value : Value} (absent : hasKey key entries = false) :
    mapOrder.Admits (addEntry mapOrder key value entries) := by
  simp only [hasKey_eq_false_iff] at absent
  cases mapOrder with
  | sorted =>
      refine admits_sorted_iff.2 (pairwise_insertSorted (admits_sorted_iff.1 admits) ?_)
      intro entry entryMem same
      have differ := absent entry entryMem
      rw [sameKey, same] at differ
      contradiction
  | unsorted =>
      refine List.pairwise_append.2 ⟨admits, List.pairwise_singleton .., ?_⟩
      intro entry entryMem added addedMem
      rw [List.mem_singleton.1 addedMem, sameKey_comm]
      exact absent entry entryMem

/-- Entries with distinct keys make up a map, in whatever order they are added. -/
theorem Admits.addAll {mapOrder : MapOrder} {read entries : List (Value × Value)}
    (admits : mapOrder.Admits read) (distinct : ((read ++ entries).map Prod.fst).Nodup) :
    mapOrder.Admits (addAll mapOrder read entries) := by
  induction entries generalizing read with
  | nil => exact admits
  | cons entry rest ih =>
      have absent : hasKey entry.1 read = false := by
        rw [Bool.eq_false_iff, Ne, hasKey_eq_true_iff]
        exact key_not_mem_of_nodup distinct
      exact ih (admits.addEntry absent) (nodup_addEntry mapOrder distinct)

/-- There is one order in which an ordered map admits its entries. -/
theorem Admits.eq_of_perm {entries others : List (Value × Value)}
    (admits : MapOrder.sorted.Admits entries) (alsoAdmits : MapOrder.sorted.Admits others)
    (permuted : entries.Perm others) : entries = others := by
  refine List.Perm.eq_of_pairwise ?_ (admits_sorted_iff.1 admits)
    (admits_sorted_iff.1 alsoAdmits) permuted
  intro first second _ _ below above
  rw [order_swap, below] at above
  cases above

end MapOrder

end ValueBus
