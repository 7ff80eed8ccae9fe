import Mathlib.Data.List.Induction
import ValueBus.Proofs.Canonical
import ValueBus.Proofs.Standing

/-!
# Reading maps

Entries that are written as a map come back as a map if no key is repeated. Where each of them stood
does not matter for the map that comes back, and neither does the padding, which other places
change. If a key is repeated, reading ends behind the first entry that repeats one.

The loop over the entries carries the invariant: the entries read so far have distinct keys and make
up a map, the frame counts the entries that are left, and the cursor is where the writer was.
-/

namespace ValueBus

open Deployment (childOf)
open WriteStep

namespace Value

/-- Entries have distinct keys, or there is a first that repeats the key of an earlier one. -/
theorem nodup_or_repeated (entries : List (Value × Value)) :
    (entries.map Prod.fst).Nodup ∨ ∃ earlier entry later, entries = earlier ++ entry :: later ∧
      (earlier.map Prod.fst).Nodup ∧ entry.1 ∈ earlier.map Prod.fst := by
  induction entries using List.reverseRecOn with
  | nil => simp
  | append_singleton init last ih =>
      rcases ih with distinct | ⟨earlier, entry, later, rfl, found⟩
      · by_cases repeated : last.1 ∈ init.map Prod.fst
        · exact Or.inr ⟨init, last, [], rfl, distinct, repeated⟩
        · left
          rw [List.map_append, List.map_singleton, (List.perm_append_singleton ..).nodup_iff]
          exact List.nodup_cons.2 ⟨repeated, distinct⟩
      · exact Or.inr ⟨earlier, entry, later ++ [last], by simp, found⟩

theorem entrySteps_balanced (entries : List (Value × Value))
    (keyDeployment valueDeployment : Option Deployment) :
    Balanced (entrySteps entries keyDeployment valueDeployment) :=
  composable_balanced.entrySteps (fun entry _ => entry.1.balanced_steps)
    (fun entry _ => entry.2.balanced_steps) keyDeployment valueDeployment

theorem stands_of_encode {value : Value} {deployment : Option Deployment} {limits : Limits}
    {bytes : List UInt8} (encoded : encode value deployment limits = .ok bytes) :
    Stands limits 0 (value.steps deployment) { bytes } ⟨bytes, bytes.length⟩ := by
  rcases encode_eq_ok_iff.1 encoded with ⟨chunks, described, within, rfl⟩
  exact ⟨chunks, described, ReadCursor.passAll?_putChunks chunks, within⟩

/-- The entries of a map that can be written can be written in any order. -/
theorem writable_of_perm {entries others : List (Value × Value)} {deployment : Option Deployment}
    {limits : Limits} {bytes : List UInt8} (permuted : entries.Perm others)
    (encoded : encode (.map entries) deployment limits = .ok bytes) :
    Writable limits 0 ((Value.map others).steps deployment) := by
  rcases encode_eq_ok_iff.1 encoded with ⟨chunks, described, within, _⟩
  have writable : Writable limits 0 ((Value.map entries).steps deployment) :=
    ⟨⟨chunks, described⟩, within⟩
  rw [steps, writable_bracketed_iff, writable_entrySteps_iff] at writable ⊢
  rw [← permuted.length_eq]
  exact ⟨writable.1, fun entry entryMem => writable.2 entry (permuted.mem_iff.2 entryMem)⟩

end Value

/-- What stands at the beginning was written there, and the writer was as far as the reader is. -/
theorem Stands.written {limits : Limits} {steps : List WriteStep} {bytes : List UInt8}
    {final : ReadCursor} {frames : List FrameKind}
    (stands : Stands limits 0 steps { bytes } final)
    (framed : framesAfterAll? steps [] = some frames) :
    ∃ writer : MemoryWriter, runAll steps (.withLimits limits) = .ok () writer ∧
      writer.length = final.offset := by
  rcases stands with ⟨chunks, described, passed, within⟩
  refine ⟨_, @MemoryWriter.runAll_of_none (.withLimits limits) steps chunks frames rfl described
    within framed, ?_⟩
  rcases (ReadCursor.passAll?_eq_some_iff (Nat.zero_le _)).1 passed with ⟨_, rfl⟩
  have written : (WriteCursor.putChunks {} chunks).bytes =
      (Chunk.cellsAll chunks 0).map (·.getD 0) := WriteCursor.putChunks_bytes {} chunks
  change (WriteCursor.putChunks {} chunks).bytes.length = _
  simp [written]

namespace MemoryReader

open ReadProgram

variable {limits : Limits} {mapOrder : MapOrder} {cursor final : ReadCursor}

/-- While items are left, one is read and then the others. -/
theorem run_repeatWhile_succ {α : Type} {kind : Repetition} {item : α → ReadProgram α}
    {frames : List ReadFrame} (count : Nat) (state : α) :
    (repeatWhile kind item (count + 1) state).run
        (unlatched limits (.counted kind (count + 1) :: frames) cursor) =
      ((item state).run >>= fun next => (repeatWhile kind item count next).run)
        (unlatched limits (.counted kind count :: frames) cursor) := by
  have steps : repeatWhile kind item (count + 1) state =
      more kind >>= fun answer =>
        if answer then item state >>= repeatWhile kind item count else pure state := rfl
  have asked : (more kind).run (unlatched limits (.counted kind (count + 1) :: frames) cursor) =
      .ok true (unlatched limits (.counted kind count :: frames) cursor) := by
    rw [run_more, hasMore_of_counted_succ rfl rfl]
    rfl
  rw [steps, run_bind, Action.bind_of_ok asked, if_pos rfl, run_bind]

/-- Programs for keys and values that read an entry in a map that nothing is around. -/
def ReadsEntry (limits : Limits) (readKey readValue : ReadProgram Value)
    (keyDeployment valueDeployment : Option Deployment) (entry : Value × Value) : Prop :=
  ∀ count, ReadsAs limits [.counted .map count]
    (Value.entrySteps [entry] keyDeployment valueDeployment) (readPair readKey readValue) entry
    [.counted .map count]

variable {readKey readValue : ReadProgram Value} {keyDeployment valueDeployment : Option Deployment}
  {read : List (Value × Value)} {entry : Value × Value} {count : Nat}

theorem run_readEntry_of_fresh
    (reads : ReadsEntry limits readKey readValue keyDeployment valueDeployment entry)
    (stands : Stands limits 1 (Value.entrySteps [entry] keyDeployment valueDeployment) cursor final)
    (fresh : entry.1 ∉ read.map Prod.fst) :
    (readEntry mapOrder readKey readValue read).run
        (unlatched limits [.counted .map count] cursor) =
      .ok (Value.addEntry mapOrder entry.1 entry.2 read)
        (unlatched limits [.counted .map count] final) := by
  have absent : Value.hasKey entry.1 read = false := by
    rwa [Bool.eq_false_iff, Ne, Value.hasKey_eq_true_iff]
  rw [run_readEntry, run_bind, Action.bind_of_ok ((reads count).run_of_stands stands), addPair,
    absent]
  rfl

theorem run_readEntry_of_repeated
    (reads : ReadsEntry limits readKey readValue keyDeployment valueDeployment entry)
    (stands : Stands limits 1 (Value.entrySteps [entry] keyDeployment valueDeployment) cursor final)
    (repeated : entry.1 ∈ read.map Prod.fst) :
    (readEntry mapOrder readKey readValue read).run
        (unlatched limits [.counted .map count] cursor) =
      .error (.invalidData .repeatedKey)
        (Latch.setError (.invalidData .repeatedKey)
          (unlatched limits [.counted .map count] final)) := by
  have present := Value.hasKey_eq_true_iff.2 repeated
  rw [run_readEntry, run_bind, Action.bind_of_ok ((reads count).run_of_stands stands), addPair,
    if_pos present]
  exact Action.raise_of_unlatched rfl

/-- Entries with new keys are read one after the other and added to those read before. -/
theorem run_entries {entries : List (Value × Value)}
    (reads : ∀ entry ∈ entries,
      ReadsEntry limits readKey readValue keyDeployment valueDeployment entry)
    (distinct : ((read ++ entries).map Prod.fst).Nodup)
    (stands : Stands limits 1 (Value.entrySteps entries keyDeployment valueDeployment) cursor
      final) (count : Nat) :
    (repeatWhile .map (readEntry mapOrder readKey readValue) (entries.length + count) read).run
        (unlatched limits [.counted .map (entries.length + count)] cursor) =
      (repeatWhile .map (readEntry mapOrder readKey readValue) count
        (Value.addAll mapOrder read entries)).run
          (unlatched limits [.counted .map count] final) := by
  induction entries generalizing read cursor with
  | nil =>
      cases Stands.nil_iff.1 stands
      simp [Value.addAll]
  | cons entry rest ih =>
      rcases List.forall_mem_cons.1 reads with ⟨entryReads, restReads⟩
      have split : Value.entrySteps (entry :: rest) keyDeployment valueDeployment =
          Value.entrySteps [entry] keyDeployment valueDeployment ++
            Value.entrySteps rest keyDeployment valueDeployment :=
        Value.entrySteps_append [entry] rest keyDeployment valueDeployment
      rw [split, Stands.balanced_append_iff (Value.entrySteps_balanced _ _ _)] at stands
      rcases stands with ⟨middle, entryStands, restStands⟩
      have first := @run_readEntry_of_fresh limits mapOrder cursor middle readKey readValue
        keyDeployment valueDeployment read entry (rest.length + count) entryReads entryStands
        (Value.key_not_mem_of_nodup distinct)
      rw [List.length_cons, Nat.succ_add, run_repeatWhile_succ, Action.bind_of_ok first]
      exact ih restReads (Value.nodup_addEntry mapOrder distinct) restStands

/-- The map is left behind its last entry. -/
def leaveMap (entries : List (Value × Value)) : ReadProgram Value := do
  checkLatch
  leaveFrame .map
  pure (.map entries)

def readMap (mapOrder : MapOrder) (readKey readValue : ReadProgram Value)
    (deployment : Option Deployment) : ReadProgram Value := do
  let opening ← enterFrame .map deployment
  let entries ← repeatWhile .map (readEntry mapOrder readKey readValue) opening.length []
  leaveMap entries

/-- Reading a map comes to any entry before which no key is repeated. -/
theorem run_readMap {deployment : Option Deployment} {earlier rest : List (Value × Value)}
    {opened middle : ReadCursor}
    (reads : ∀ entry ∈ earlier,
      ReadsEntry limits readKey readValue keyDeployment valueDeployment entry)
    (distinct : (earlier.map Prod.fst).Nodup)
    (entered : Stands limits 0 [Value.entering (.map (earlier ++ rest).length) deployment] cursor
      opened)
    (stands : Stands limits 1 (Value.entrySteps earlier keyDeployment valueDeployment) opened
      middle) :
    (readMap mapOrder readKey readValue deployment).run (unlatched limits [] cursor) =
      ((repeatWhile .map (readEntry mapOrder readKey readValue) rest.length
        (Value.addAll mapOrder [] earlier)).run >>= fun entries => (leaveMap entries).run)
          (unlatched limits [.counted .map rest.length] middle) := by
  have opens := (@ReadsAs.enter limits [] (.map (earlier ++ rest).length)
    deployment).run_of_stands entered
  have looped := @run_entries limits mapOrder opened middle readKey readValue keyDeployment
    valueDeployment [] earlier reads distinct stands rest.length
  rw [← List.length_append] at looped
  rw [readMap, run_bind]
  apply (Action.bind_of_ok opens).trans
  rw [run_bind]
  exact Action.bind_of_eq looped

/-- Entries with distinct keys are read as the map to which they are added one after the other. -/
theorem run_readMap_of_nodup {deployment : Option Deployment} {entries : List (Value × Value)}
    {opened : ReadCursor}
    (reads : ∀ entry ∈ entries,
      ReadsEntry limits readKey readValue keyDeployment valueDeployment entry)
    (distinct : (entries.map Prod.fst).Nodup)
    (entered : Stands limits 0 [Value.entering (.map entries.length) deployment] cursor opened)
    (stands : Stands limits 1 (Value.entrySteps entries keyDeployment valueDeployment) opened
      final) :
    (readMap mapOrder readKey readValue deployment).run (unlatched limits [] cursor) =
      .ok (.map (Value.addAll mapOrder [] entries)) (unlatched limits [] final) := by
  have left : ReadsAs limits [.counted .map 0] [Value.leaving Repetition.map.frame]
      (leaveFrame Repetition.map.frame) () [] :=
    .leave fun _ => closeFrame_of_counted rfl
  have closes : ReadsAs limits [.counted .map 0] ([] ++ ([] ++ ([Value.leaving .map] ++ [])))
      (repeatWhile .map (readEntry mapOrder readKey readValue) 0
        (Value.addAll mapOrder [] entries) >>= leaveMap)
      (.map (Value.addAll mapOrder [] entries)) [] := by
    apply ReadsAs.repeatWhile_nil.andThen
    intro _
    apply ReadsAs.checkLatch.andThen
    intro _
    apply left.andThen
    intro _
    exact .done _
  have closed := closes.run_of_stands (Stands.leaving_iff.2 (rfl : final = final))
  have whole := @run_readMap limits mapOrder cursor readKey readValue keyDeployment
    valueDeployment deployment entries [] opened final reads distinct
  rw [List.append_nil] at whole
  rw [whole entered stands, ← closed, run_bind]
  rfl

/-- The first entry that repeats a key ends the reading, behind that entry. -/
theorem run_readMap_of_repeated {deployment : Option Deployment}
    {earlier later : List (Value × Value)} {opened middle : ReadCursor}
    (reads : ∀ entry ∈ earlier,
      ReadsEntry limits readKey readValue keyDeployment valueDeployment entry)
    (entryReads : ReadsEntry limits readKey readValue keyDeployment valueDeployment entry)
    (distinct : (earlier.map Prod.fst).Nodup) (repeated : entry.1 ∈ earlier.map Prod.fst)
    (entered : Stands limits 0
      [Value.entering (.map (earlier ++ entry :: later).length) deployment] cursor opened)
    (earlierStands : Stands limits 1 (Value.entrySteps earlier keyDeployment valueDeployment)
      opened middle)
    (entryStands : Stands limits 1 (Value.entrySteps [entry] keyDeployment valueDeployment) middle
      final) :
    (readMap mapOrder readKey readValue deployment).run (unlatched limits [] cursor) =
      .error (.invalidData .repeatedKey)
        (Latch.setError (.invalidData .repeatedKey)
          (unlatched limits [.counted .map later.length] final)) := by
  have among : entry.1 ∈ (Value.addAll mapOrder [] earlier).map Prod.fst :=
    ((Value.addAll_perm mapOrder [] earlier).map Prod.fst).mem_iff.2 repeated
  have refused := @run_readEntry_of_repeated limits mapOrder middle final readKey readValue
    keyDeployment valueDeployment _ entry later.length entryReads entryStands among
  rw [run_readMap reads distinct entered earlierStands]
  apply Action.bind_of_error
  rw [List.length_cons, run_repeatWhile_succ]
  exact Action.bind_of_error refused

end MemoryReader

namespace Schema

open MemoryReader
open Value (addAll entering entrySteps)

variable {schema : Schema} {key value : DataType} {deployment : Option Deployment}
  {limits : Limits} {bytes : List UInt8}

theorem readsEntry {entry : Value × Value} (keyTyped : schema.HasType key entry.1)
    (valueTyped : schema.HasType value entry.2) (deployment : Option Deployment) {allowance : Nat}
    (allowed : limits.maxDepth < allowance) :
    ReadsEntry limits (schema.program allowance key (childOf deployment 0))
      (schema.program allowance value (childOf deployment 1)) (childOf deployment 0)
      (childOf deployment 1) entry := by
  intro count
  have enough : limits.maxDepth < allowance +
      [ReadFrame.plain .mapEntry, .counted .map count].length := Nat.lt_add_right _ allowed
  apply ReadsAs.readPair
  · intro inside
    exact keyTyped.readsAs _ inside enough
  · intro inside
    exact valueTyped.readsAs _ inside enough

variable {entries : List (Value × Value)} (mapOrder : MapOrder)
  (keysTyped : ∀ entry ∈ entries, schema.HasType key entry.1)
  (valuesTyped : ∀ entry ∈ entries, schema.HasType value entry.2)
  (encoded : encode (.map entries) deployment limits = .ok bytes)

include keysTyped valuesTyped encoded

/-- Entries with distinct keys that were written as a map are read as a map. -/
theorem decode_map_of_nodup (distinct : (entries.map Prod.fst).Nodup) :
    decode schema (.map mapOrder key value) bytes deployment limits =
      .ok (.map (addAll mapOrder [] entries)) := by
  rcases (Stands.bracket_iff (Value.entrySteps_balanced _ _ _)).1
    (Value.stands_of_encode encoded) with ⟨opened, entered, stands⟩
  apply decode_of_read
  refine run_readMap_of_nodup (fun entry entryMem => ?_) distinct entered stands
  exact readsEntry (keysTyped entry entryMem) (valuesTyped entry entryMem) deployment
    (schema.depth_lt_allowance (.unlatched limits [] _))

/-- How the reading of a map ends that repeats the key of an earlier entry: with an error that is
latched, behind that entry, the later ones not being asked for. -/
theorem read_map_of_repeated {earlier later : List (Value × Value)} {entry : Value × Value}
    (split : entries = earlier ++ entry :: later) (distinct : (earlier.map Prod.fst).Nodup)
    (repeated : entry.1 ∈ earlier.map Prod.fst) :
    ∃ (writer : MemoryWriter) (reader : MemoryReader),
      runAll (entering (.map entries.length) deployment ::
          entrySteps (earlier ++ [entry]) (childOf deployment 0) (childOf deployment 1))
        (.withLimits limits) = .ok () writer ∧
      schema.read (.map mapOrder key value) deployment (.ofBytes bytes limits) =
        .error (.invalidData .repeatedKey) reader ∧
      reader.error = some (.invalidData .repeatedKey) ∧
      reader.frames = [.counted .map later.length] ∧ reader.cursor.offset = writer.length := by
  subst split
  rcases (Stands.bracket_iff (Value.entrySteps_balanced _ _ _)).1
    (Value.stands_of_encode encoded) with ⟨opened, entered, stands⟩
  have stepsEq := Value.entrySteps_append (earlier ++ [entry]) later (childOf deployment 0)
    (childOf deployment 1)
  rw [List.append_assoc, List.singleton_append] at stepsEq
  rw [stepsEq, Stands.balanced_append_iff (Value.entrySteps_balanced _ _ _)] at stands
  rcases stands with ⟨final, throughStands, _⟩
  have through := throughStands
  rw [Value.entrySteps_append, Stands.balanced_append_iff (Value.entrySteps_balanced _ _ _)]
    at through
  rcases through with ⟨middle, earlierStands, entryStands⟩
  have prefixStands : Stands limits 0
      (entering (.map (earlier ++ entry :: later).length) deployment ::
        entrySteps (earlier ++ [entry]) (childOf deployment 0) (childOf deployment 1))
      { bytes } final :=
    Stands.cons_iff.2 ⟨opened, entered, throughStands⟩
  rcases prefixStands.written (Value.entrySteps_balanced _ _ _ [.map]) with
    ⟨writer, taken, lengthEq⟩
  have reads {found : Value × Value} (foundMem : found ∈ earlier ++ entry :: later) :=
    readsEntry (keysTyped found foundMem) (valuesTyped found foundMem) deployment
      (schema.depth_lt_allowance (.unlatched limits [] { bytes }))
  have refused := @run_readMap_of_repeated limits mapOrder _ final _ _ _ _ entry deployment earlier
    later opened middle (fun found foundMem => reads (List.mem_append_left _ foundMem))
    (reads (by simp)) distinct repeated entered earlierStands entryStands
  exact ⟨writer, _, taken, refused, rfl, rfl, lengthEq.symm⟩

end Schema

theorem decode_of_read_error {schema : Schema} {type : DataType} {bytes : List UInt8}
    {deployment : Option Deployment} {limits : Limits} {fault : StreamError} {reader : MemoryReader}
    (failed : schema.read type deployment (.ofBytes bytes limits) = .error fault reader) :
    decode schema type bytes deployment limits = .error (.ofStream fault) := by
  rw [decode, failed]

/-- What comes of reading bytes that hold entries as a map. -/
structure MapOutcome (schema : Schema) (mapOrder : MapOrder) (key value : DataType)
    (deployment : Option Deployment) (limits : Limits) (entries : List (Value × Value))
    (bytes : List UInt8) : Prop where
  accepted_iff : (∃ read, decode schema (.map mapOrder key value) bytes deployment limits =
    .ok read) ↔ (entries.map Prod.fst).Nodup
  /-- The map has the entries that were written and no others. -/
  kept : (entries.map Prod.fst).Nodup → ∃ read,
    decode schema (.map mapOrder key value) bytes deployment limits = .ok (.map read) ∧
      read.Perm entries ∧ mapOrder.Admits read
  /-- Any order of the entries can be written as well, and makes the same map. -/
  rearranged : (entries.map Prod.fst).Nodup → ∀ others, entries.Perm others → ∃ written read again,
    encode (.map others) deployment limits = .ok written ∧
      decode schema (.map mapOrder key value) bytes deployment limits = .ok (.map read) ∧
      decode schema (.map mapOrder key value) written deployment limits = .ok (.map again) ∧
      read.Perm again ∧ (mapOrder = .sorted → read = again)
  /-- The first entry that repeats a key is read, is refused, and ends the reading. -/
  refused : ¬ (entries.map Prod.fst).Nodup → ∃ earlier entry later,
    entries = earlier ++ entry :: later ∧ (earlier.map Prod.fst).Nodup ∧
      entry.1 ∈ earlier.map Prod.fst ∧
      decode schema (.map mapOrder key value) bytes deployment limits =
        .error (.serialization (.invalidData .repeatedKey)) ∧
      ∃ (writer : MemoryWriter) (reader : MemoryReader),
        runAll (Value.entering (.map entries.length) deployment ::
            Value.entrySteps (earlier ++ [entry]) (childOf deployment 0) (childOf deployment 1))
          (.withLimits limits) = .ok () writer ∧
        schema.read (.map mapOrder key value) deployment (.ofBytes bytes limits) =
          .error (.invalidData .repeatedKey) reader ∧
        reader.error = some (.invalidData .repeatedKey) ∧
        reader.frames = [.counted .map later.length] ∧ reader.cursor.offset = writer.length

/-- Entries that were written as a map are read as a map exactly if their keys are distinct. The
order in which they were written does not show in the map; a key that is repeated is refused where
it is repeated first. -/
theorem map_outcome (schema : Schema) (key value : DataType) (deployment : Option Deployment)
    (limits : Limits) (entries : List (Value × Value)) (bytes : List UInt8)
    (keysTyped : ∀ entry ∈ entries, schema.HasType key entry.1)
    (valuesTyped : ∀ entry ∈ entries, schema.HasType value entry.2)
    (encoded : encode (.map entries) deployment limits = .ok bytes) (mapOrder : MapOrder) :
    MapOutcome schema mapOrder key value deployment limits entries bytes := by
  have accepted (distinct : (entries.map Prod.fst).Nodup) :=
    Schema.decode_map_of_nodup mapOrder keysTyped valuesTyped encoded distinct
  have refused (repeats : ¬ (entries.map Prod.fst).Nodup) :
      ∃ earlier entry later, entries = earlier ++ entry :: later ∧
        (earlier.map Prod.fst).Nodup ∧ entry.1 ∈ earlier.map Prod.fst :=
    (Value.nodup_or_repeated entries).resolve_left repeats
  have admits {others : List (Value × Value)} (distinct : (others.map Prod.fst).Nodup) :
      mapOrder.Admits (Value.addAll mapOrder [] others) := MapOrder.Admits.nil.addAll distinct
  constructor
  · constructor
    · rintro ⟨read, decoded⟩
      by_contra repeats
      rcases refused repeats with ⟨earlier, entry, later, split, distinct, repeated⟩
      rcases Schema.read_map_of_repeated mapOrder keysTyped valuesTyped encoded split distinct
        repeated with ⟨_, reader, _, failed, _⟩
      rw [decode_of_read_error failed] at decoded
      cases decoded
    · intro distinct
      exact ⟨_, accepted distinct⟩
  · intro distinct
    exact ⟨_, accepted distinct, Value.addAll_perm mapOrder [] entries, admits distinct⟩
  · intro distinct others permuted
    have stillDistinct := (permuted.map Prod.fst).nodup_iff.1 distinct
    rcases encode_of_writable (Value.writable_of_perm permuted encoded) with ⟨written, rewritten⟩
    have alsoAccepted := Schema.decode_map_of_nodup mapOrder
      (fun entry entryMem => keysTyped entry (permuted.mem_iff.2 entryMem))
      (fun entry entryMem => valuesTyped entry (permuted.mem_iff.2 entryMem)) rewritten
      stillDistinct
    have same : (Value.addAll mapOrder [] entries).Perm (Value.addAll mapOrder [] others) :=
      ((Value.addAll_perm mapOrder [] entries).trans permuted).trans
        (Value.addAll_perm mapOrder [] others).symm
    refine ⟨written, _, _, rewritten, accepted distinct, alsoAccepted, same, ?_⟩
    rintro rfl
    exact (admits distinct).eq_of_perm (admits stillDistinct) same
  · intro repeats
    rcases refused repeats with ⟨earlier, entry, later, split, distinct, repeated⟩
    rcases Schema.read_map_of_repeated mapOrder keysTyped valuesTyped encoded split distinct
      repeated with ⟨writer, reader, taken, failed, ended⟩
    exact ⟨earlier, entry, later, split, distinct, repeated, decode_of_read_error failed, writer,
      reader, taken, failed, ended⟩

def Value.numbered (number : UInt8) (text : String) : Value × Value :=
  (.number (.uint8 number), .text text)

open Value (numbered)

/-- Two texts by number take 24 bytes in the one order and 26 in the other, and are one map. With a
number repeated they are none. -/
theorem map_outcome_numbered :
    let texts : DataType := .map .sorted (.number .uint8) (.leaf .text)
    (∃ read bytes written, encode (.map [numbered 2 "a", numbered 1 "bcd"]) none {} = .ok bytes ∧
      encode (.map [numbered 1 "bcd", numbered 2 "a"]) none {} = .ok written ∧
      bytes.length = 24 ∧ written.length = 26 ∧
      decode {} texts bytes none {} = .ok (.map read) ∧
      decode {} texts written none {} = .ok (.map read)) ∧
    ∃ bytes, encode (.map [numbered 1 "a", numbered 1 "b"]) none {} = .ok bytes ∧
      decode {} texts bytes none {} = .error (.serialization (.invalidData .repeatedKey)) := by
  intro texts
  have outcome (number other : UInt8) (text later : String) {bytes : List UInt8}
      (encoded : encode (.map [numbered number text, numbered other later]) none {} = .ok bytes) :
      MapOutcome {} .sorted (.number .uint8) (.leaf .text) none {}
        [numbered number text, numbered other later] bytes := by
    apply map_outcome
    · rw [List.forall_mem_cons, List.forall_mem_singleton]
      exact ⟨@Schema.HasType.leaf _ (.number (.uint8 number)),
        @Schema.HasType.leaf _ (.number (.uint8 other))⟩
    · rw [List.forall_mem_cons, List.forall_mem_singleton]
      exact ⟨@Schema.HasType.leaf _ (.text text), @Schema.HasType.leaf _ (.text later)⟩
    · exact encoded
  constructor
  · have encoded : encode (.map [numbered 2 "a", numbered 1 "bcd"]) none {} = .ok
        [2, 0, 0, 0, 2, 0, 0, 0, 2, 0, 0, 0, 97, 0, 1, 0, 4, 0, 0, 0, 98, 99, 100, 0] := by
      rfl
    have rewritten : encode (.map [numbered 1 "bcd", numbered 2 "a"]) none {} = .ok
        [2, 0, 0, 0, 1, 0, 0, 0, 4, 0, 0, 0, 98, 99, 100, 0, 2, 0, 0, 0, 2, 0, 0, 0, 97, 0] := by
      rfl
    have distinct : ([numbered 2 "a", numbered 1 "bcd"].map Prod.fst).Nodup := by
      simp [numbered, Value.number]
    rcases (outcome 2 1 "a" "bcd" encoded).rearranged distinct _ (List.Perm.swap ..) with
      ⟨written, read, again, encodedAgain, decoded, decodedAgain, _, same⟩
    rw [rewritten] at encodedAgain
    cases encodedAgain
    rw [← same rfl] at decodedAgain
    exact ⟨read, _, _, encoded, rewritten, rfl, rfl, decoded, decodedAgain⟩
  · have encoded : encode (.map [numbered 1 "a", numbered 1 "b"]) none {} = .ok
        [2, 0, 0, 0, 1, 0, 0, 0, 2, 0, 0, 0, 97, 0, 1, 0, 2, 0, 0, 0, 98, 0] := by
      rfl
    have repeats : ¬ ([numbered 1 "a", numbered 1 "b"].map Prod.fst).Nodup := by
      simp [numbered]
    rcases (outcome 1 1 "a" "b" encoded).refused repeats with ⟨_, _, _, _, _, _, failed, _⟩
    exact ⟨_, encoded, failed⟩

end ValueBus
