import Mathlib.Tactic.SplitIfs
import ValueBus.Cursor

/-!
# Layout

What a stream holds is described by a list of chunks: runs of bytes, each of which starts at a
multiple of its alignment. Where a chunk ends up depends on what stands before it, so that a list of
chunks is given its place by an offset; the bytes between two chunks are padding.

A writer appends chunks and fills the padding with zeros. A reader passes chunks: it must find every
run where it belongs, and does not look at the padding. `passAll?_eq_some_iff` says which bytes are
passed, and `putChunks_bytes` which bytes are written; the first of them accepts what the second
produces.
-/

namespace ValueBus

theorem alignUp_one (offset : Nat) : alignUp offset 1 = offset := by
  rw [alignUp_eq (by decide)]
  simp

/-- A run of bytes that starts at a multiple of an alignment. -/
structure Chunk where
  alignment : Nat
  run : List UInt8
  fits : alignment ≤ greatestAlignment

namespace Chunk

def start (chunk : Chunk) (offset : Nat) : Nat :=
  alignUp offset chunk.alignment

def plain (run : List UInt8) : Chunk :=
  ⟨1, run, by decide⟩

/-- The start of a struct: no bytes, at a multiple of 8. -/
def boundary : Chunk :=
  ⟨8, [], by decide⟩

/-- The bytes of a chunk, none for every byte of padding before its run. -/
def cells (chunk : Chunk) (offset : Nat) : List (Option UInt8) :=
  List.replicate (chunk.start offset - offset) none ++ chunk.run.map some

/-- The bytes of chunks one after the other, none for every byte of padding. -/
def cellsAll : List Chunk → Nat → List (Option UInt8)
  | [], _ => []
  | chunk :: rest, offset =>
      chunk.cells offset ++ cellsAll rest (chunk.start offset + chunk.run.length)

@[simp]
theorem start_plain (run : List UInt8) (offset : Nat) : (plain run).start offset = offset :=
  alignUp_one offset

theorem le_start (chunk : Chunk) (offset : Nat) : offset ≤ chunk.start offset :=
  le_alignUp chunk.fits

theorem length_cells (chunk : Chunk) (offset : Nat) :
    offset + (chunk.cells offset).length = chunk.start offset + chunk.run.length := by
  have grows := chunk.le_start offset
  simp only [cells, List.length_append, List.length_replicate, List.length_map]
  omega

end Chunk

/-- Bytes agree with cells if every cell that is no padding holds the byte at its position. -/
def Agrees (cells : List (Option UInt8)) (bytes : List UInt8) : Prop :=
  ∀ (position : Nat) (byte : UInt8),
    cells[position]? = some (some byte) → bytes[position]? = some byte

theorem agrees_append_iff {first second : List (Option UInt8)} {bytes : List UInt8} :
    Agrees (first ++ second) bytes ↔
      Agrees first bytes ∧ Agrees second (bytes.drop first.length) := by
  constructor
  · intro agrees
    constructor
    · intro position byte found
      have inside : position < first.length := (List.getElem?_eq_some_iff.1 found).1
      exact agrees position byte (by rw [List.getElem?_append_left inside, found])
    · intro position byte found
      simp only [List.getElem?_drop]
      apply agrees
      rw [List.getElem?_append_right (Nat.le_add_right ..), Nat.add_sub_cancel_left, found]
  · rintro ⟨firstAgrees, secondAgrees⟩ position byte found
    by_cases inside : position < first.length
    · rw [List.getElem?_append_left inside] at found
      exact firstAgrees position byte found
    · have outside : first.length ≤ position := Nat.le_of_not_lt inside
      rw [List.getElem?_append_right outside] at found
      have there := secondAgrees _ _ found
      rwa [List.getElem?_drop, Nat.add_sub_of_le outside] at there

theorem agrees_replicate_none (count : Nat) (bytes : List UInt8) :
    Agrees (List.replicate count none) bytes := by
  intro position byte found
  simp only [List.getElem?_replicate] at found
  split_ifs at found
  cases found

/-- Bytes agree with a run if they start with it. -/
theorem agrees_map_some_iff {run bytes : List UInt8} :
    Agrees (run.map some) bytes ↔ bytes.take run.length = run := by
  constructor
  · intro agrees
    apply List.ext_getElem?
    intro position
    by_cases inside : position < run.length
    · rw [List.getElem?_take_of_lt inside, List.getElem?_eq_getElem inside]
      exact agrees position _ (by simp [inside])
    · rw [List.getElem?_eq_none (Nat.le_of_not_lt inside), List.getElem?_eq_none]
      exact Nat.le_trans (List.length_take_le ..) (Nat.le_of_not_lt inside)
  · intro starts position byte found
    have there : run[position]? = some byte := by simpa using found
    have inside : position < run.length := (List.getElem?_eq_some_iff.1 there).1
    rw [← starts, List.getElem?_take_of_lt inside] at there
    exact there

namespace WriteCursor

def putChunk (cursor : WriteCursor) (chunk : Chunk) : WriteCursor :=
  (cursor.align chunk.alignment).put chunk.run

def putChunks (cursor : WriteCursor) (chunks : List Chunk) : WriteCursor :=
  chunks.foldl putChunk cursor

theorem putChunks_singleton (cursor : WriteCursor) (chunk : Chunk) :
    cursor.putChunks [chunk] = cursor.putChunk chunk :=
  rfl

theorem putChunks_pair (cursor : WriteCursor) (first second : Chunk) :
    cursor.putChunks [first, second] = (cursor.putChunk first).putChunk second :=
  rfl

theorem putChunks_append (cursor : WriteCursor) (first second : List Chunk) :
    cursor.putChunks (first ++ second) = (cursor.putChunks first).putChunks second :=
  List.foldl_append

theorem putChunk_bytes (cursor : WriteCursor) (chunk : Chunk) :
    (cursor.putChunk chunk).bytes =
      cursor.bytes ++ (chunk.cells cursor.offset).map (·.getD 0) := by
  simp [putChunk, align_eq_put cursor chunk.fits, put, Chunk.cells, Chunk.start,
    Function.comp_def]

theorem putChunk_plain (cursor : WriteCursor) (run : List UInt8) :
    cursor.putChunk (.plain run) = cursor.put run := by
  have aligned : cursor.align 1 = cursor := by
    rw [align_eq_put cursor (by decide), alignUp_one, Nat.sub_self]
    simp [put]
  exact congrArg (·.put run) aligned

theorem putChunk_boundary (cursor : WriteCursor) :
    cursor.putChunk .boundary = cursor.align 8 := by
  simp [putChunk, Chunk.boundary, put]

theorem putChunk_offset (cursor : WriteCursor) (chunk : Chunk) :
    (cursor.putChunk chunk).offset = chunk.start cursor.offset + chunk.run.length := by
  rw [← chunk.length_cells cursor.offset]
  simp [offset, putChunk_bytes]

/-- Writing chunks fills the padding with zeros. -/
theorem putChunks_bytes (cursor : WriteCursor) (chunks : List Chunk) :
    (cursor.putChunks chunks).bytes =
      cursor.bytes ++ (Chunk.cellsAll chunks cursor.offset).map (·.getD 0) := by
  induction chunks generalizing cursor with
  | nil => simp [putChunks, Chunk.cellsAll]
  | cons chunk rest ih =>
      have first : cursor.putChunks (chunk :: rest) = (cursor.putChunk chunk).putChunks rest := rfl
      rw [first, ih, putChunk_bytes, putChunk_offset, Chunk.cellsAll, List.map_append,
        List.append_assoc]

end WriteCursor

namespace ReadCursor

/-- Moves past a chunk, if its run stands where it belongs. -/
def pass? (chunk : Chunk) (cursor : ReadCursor) : Option ReadCursor :=
  let start := chunk.start cursor.offset
  if start + chunk.run.length ≤ cursor.bytes.length ∧
      (cursor.bytes.drop start).take chunk.run.length = chunk.run then
    some { cursor with offset := start + chunk.run.length }
  else
    none

def passAll? : List Chunk → ReadCursor → Option ReadCursor
  | [], cursor => some cursor
  | chunk :: rest, cursor => (cursor.pass? chunk).bind (passAll? rest)

theorem passAll?_append (first second : List Chunk) (cursor : ReadCursor) :
    cursor.passAll? (first ++ second) = (cursor.passAll? first).bind (passAll? second) := by
  induction first generalizing cursor with
  | nil => rfl
  | cons chunk rest ih =>
      simp only [List.cons_append, passAll?, Option.bind_assoc]
      exact congrArg _ (funext ih)

theorem passAll?_append_eq_some_iff {first second : List Chunk} {cursor after : ReadCursor} :
    cursor.passAll? (first ++ second) = some after ↔
      ∃ middle, cursor.passAll? first = some middle ∧ middle.passAll? second = some after := by
  simp only [passAll?_append, Option.bind_eq_some_iff]

theorem passAll?_singleton (chunk : Chunk) (cursor : ReadCursor) :
    cursor.passAll? [chunk] = cursor.pass? chunk := by
  simp [passAll?]

theorem passAll?_pair_iff {first second : Chunk} {cursor after : ReadCursor} :
    cursor.passAll? [first, second] = some after ↔
      ∃ middle, cursor.pass? first = some middle ∧ middle.pass? second = some after := by
  simp [passAll?, Option.bind_eq_some_iff]

theorem pass?_eq_some_iff {chunk : Chunk} {cursor after : ReadCursor} :
    cursor.pass? chunk = some after ↔
      (chunk.start cursor.offset + chunk.run.length ≤ cursor.bytes.length ∧
        (cursor.bytes.drop (chunk.start cursor.offset)).take chunk.run.length = chunk.run) ∧
      { cursor with offset := chunk.start cursor.offset + chunk.run.length } = after := by
  simp [pass?]

/-- A chunk is passed if the bytes agree with its cells. -/
theorem pass?_iff_agrees {chunk : Chunk} {cursor after : ReadCursor} :
    cursor.pass? chunk = some after ↔
      (cursor.offset + (chunk.cells cursor.offset).length ≤ cursor.bytes.length ∧
        Agrees (chunk.cells cursor.offset) (cursor.bytes.drop cursor.offset)) ∧
      { cursor with offset := cursor.offset + (chunk.cells cursor.offset).length } = after := by
  have grows := chunk.le_start cursor.offset
  rw [pass?_eq_some_iff, Chunk.length_cells, Chunk.cells, agrees_append_iff, agrees_map_some_iff,
    List.drop_drop, List.length_replicate, Nat.add_sub_of_le grows]
  simp only [agrees_replicate_none, true_and]

/-- Chunks are passed by the bytes that agree with their cells, whatever the padding holds. -/
theorem passAll?_eq_some_iff {chunks : List Chunk} {cursor after : ReadCursor}
    (inside : cursor.offset ≤ cursor.bytes.length) :
    cursor.passAll? chunks = some after ↔
      (cursor.offset + (Chunk.cellsAll chunks cursor.offset).length ≤ cursor.bytes.length ∧
        Agrees (Chunk.cellsAll chunks cursor.offset) (cursor.bytes.drop cursor.offset)) ∧
      { cursor with offset := cursor.offset + (Chunk.cellsAll chunks cursor.offset).length } =
        after := by
  induction chunks generalizing cursor with
  | nil => simp [passAll?, Chunk.cellsAll, Agrees, inside]
  | cons chunk rest ih =>
      rw [passAll?, Option.bind_eq_some_iff, Chunk.cellsAll, agrees_append_iff, List.drop_drop,
        List.length_append, ← Nat.add_assoc, ← chunk.length_cells cursor.offset]
      constructor
      · rintro ⟨middle, passed, restPassed⟩
        rcases pass?_iff_agrees.1 passed with ⟨⟨fits, agrees⟩, rfl⟩
        rcases (ih fits).1 restPassed with ⟨⟨restFits, restAgrees⟩, rfl⟩
        exact ⟨⟨restFits, agrees, restAgrees⟩, rfl⟩
      · rintro ⟨⟨restFits, agrees, restAgrees⟩, rfl⟩
        have fits := Nat.le_trans (Nat.le_add_right ..) restFits
        exact ⟨_, pass?_iff_agrees.2 ⟨⟨fits, agrees⟩, rfl⟩,
          (ih fits).2 ⟨⟨restFits, restAgrees⟩, rfl⟩⟩

end ReadCursor

/-- Padding that is filled with zeros leaves the other cells as they are. -/
theorem agrees_fill (cells : List (Option UInt8)) : Agrees cells (cells.map (·.getD 0)) := by
  intro position byte found
  simp [found]

/-- The bytes of chunks that were written to an empty run are passed to the end. -/
theorem ReadCursor.passAll?_putChunks (chunks : List Chunk) :
    let bytes := (WriteCursor.putChunks {} chunks).bytes
    ReadCursor.passAll? chunks { bytes } = some ⟨bytes, bytes.length⟩ := by
  intro bytes
  have written : bytes = (Chunk.cellsAll chunks 0).map (·.getD 0) := by
    exact WriteCursor.putChunks_bytes {} chunks
  have lengthEq : bytes.length = (Chunk.cellsAll chunks 0).length := by simp [written]
  refine (passAll?_eq_some_iff (Nat.zero_le _)).2 ⟨⟨?_, ?_⟩, ?_⟩
  · simp [lengthEq]
  · simpa [written] using agrees_fill (Chunk.cellsAll chunks 0)
  · simp [lengthEq]

end ValueBus
