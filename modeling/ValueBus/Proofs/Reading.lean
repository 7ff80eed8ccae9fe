import ValueBus.Memory.Reader
import ValueBus.Proofs.Actions
import ValueBus.Proofs.Calls
import ValueBus.Proofs.Utf8

/-!
# What the memory reader answers

A question about a leaf or a frame is answered exactly if the chunks of the answer stand at the
cursor, wherever the padding puts them, and the answer breaks no limit. If it does break one, the
question fails with that limit. This makes the reader the inverse of the writer call by call: the
bytes that the writer puts for a call are those that the reader answers with that call.
-/

namespace ValueBus

namespace ReadCursor

variable {cursor after : ReadCursor}

theorem take_eq_ok_iff {count : Nat} {run : List UInt8} :
    take count cursor = .ok run after ↔
      run.length = count ∧ cursor.pass? (.plain run) = some after := by
  simp only [pass?_eq_some_iff, Chunk.start_plain, take]
  split_ifs with inside
  · simp only [EStateM.Result.ok.injEq]
    constructor
    · rintro ⟨rfl, rfl⟩
      have lengthEq : ((cursor.bytes.drop cursor.offset).take count).length = count := by
        simp only [List.length_take, List.length_drop]
        omega
      simp only [Chunk.plain, lengthEq]
      exact ⟨trivial, ⟨inside, trivial⟩, trivial⟩
    · rintro ⟨rfl, ⟨_, found⟩, rfl⟩
      exact ⟨found, rfl⟩
  · constructor
    · intro answers
      cases answers
    · rintro ⟨rfl, ⟨fits, _⟩, _⟩
      exact absurd fits inside

theorem align_eq_ok_iff {alignment : Nat} :
    align alignment cursor = .ok () after ↔
      alignUp cursor.offset alignment ≤ cursor.bytes.length ∧
        { cursor with offset := alignUp cursor.offset alignment } = after := by
  simp only [align]
  split_ifs with inside <;> simp [inside]

theorem align_eight_eq_ok_iff :
    align 8 cursor = .ok () after ↔ cursor.pass? .boundary = some after := by
  simp only [pass?_eq_some_iff, align_eq_ok_iff]
  simp [Chunk.boundary, Chunk.start]

/-- A run of known length is read at an alignment if its chunk stands at the cursor. -/
theorem alignTake_eq_ok_iff {alignment count : Nat} (fits : alignment ≤ greatestAlignment)
    {α : Type} {next : List UInt8 → Action ReadCursor α} {answer : α} :
    (align alignment >>= fun _ => take count >>= next) cursor = .ok answer after ↔
      ∃ run middle, run.length = count ∧ cursor.pass? ⟨alignment, run, fits⟩ = some middle ∧
        next run middle = .ok answer after := by
  have passedIff (run : List UInt8) (middle : ReadCursor) :
      cursor.pass? ⟨alignment, run, fits⟩ = some middle ↔
        alignUp cursor.offset alignment ≤ cursor.bytes.length ∧
          pass? (.plain run) { cursor with offset := alignUp cursor.offset alignment } =
            some middle := by
    simp only [pass?_eq_some_iff, Chunk.start_plain]
    simp only [Chunk.start, Chunk.plain]
    constructor
    · rintro ⟨⟨fits, found⟩, moved⟩
      exact ⟨Nat.le_trans (Nat.le_add_right ..) fits, ⟨fits, found⟩, moved⟩
    · rintro ⟨_, passed⟩
      exact passed
  simp only [Action.bind_eq_ok_iff, take_eq_ok_iff, passedIff]
  constructor
  · rintro ⟨_, _, aligned, run, middle, ⟨lengthEq, passed⟩, answered⟩
    rcases align_eq_ok_iff.1 aligned with ⟨inside, rfl⟩
    exact ⟨run, middle, lengthEq, ⟨inside, passed⟩, answered⟩
  · rintro ⟨run, middle, lengthEq, ⟨inside, passed⟩, answered⟩
    exact ⟨(), _, align_eq_ok_iff.2 ⟨inside, rfl⟩, run, middle, ⟨lengthEq, passed⟩, answered⟩

end ReadCursor

theorem NumberKind.ofBytes_eq_iff {kind : NumberKind} {run : List UInt8} {number : Number} :
    run.length = kind.size ∧ kind.ofBytes run = number ↔
      number.kind = kind ∧ number.bytes = run := by
  constructor
  · rintro ⟨width, rfl⟩
    exact ⟨kind.kind_ofBits _, kind.bytes_ofBytes run width⟩
  · rintro ⟨rfl, rfl⟩
    exact ⟨number.length_bytes, number.ofBytes_bytes⟩

theorem LittleEndian.value_eq_iff {width length : Nat} {run : List UInt8} :
    run.length = width ∧ value run = length ↔
      length < span width ∧ bytes width length = run := by
  constructor
  · rintro ⟨rfl, rfl⟩
    exact ⟨value_lt run, bytes_value run⟩
  · rintro ⟨fits, rfl⟩
    exact ⟨length_bytes width length, by rw [value_bytes, Nat.mod_eq_of_lt fits]⟩

theorem LengthWidth.le_greatest_iff (width : LengthWidth) (length : Nat) :
    length ≤ width.greatest ↔ length < LittleEndian.span width.size := by
  cases width <;> simp [greatest, size, LittleEndian.span] <;> omega

def Opening.readFrame : Opening → ReadFrame
  | .sequence length => .counted .sequence length
  | .map length => .counted .map length
  | opening => .plain opening.kind

namespace ReadFrame

def kind : ReadFrame → FrameKind
  | .plain kind => kind
  | .counted kind _ => kind.frame

/-- The items still to come. -/
def left : ReadFrame → Nat
  | .plain _ => 0
  | .counted _ remaining => remaining

end ReadFrame

theorem Opening.kind_readFrame (opening : Opening) : opening.readFrame.kind = opening.kind := by
  cases opening <;> rfl

namespace MemoryReader

variable {reader after : MemoryReader}

theorem onCursor_eq_ok_iff {α : Type} {step : Action ReadCursor α} {answer : α} :
    onCursor step reader = .ok answer after ↔
      ∃ cursor, step reader.cursor = .ok answer cursor ∧ { reader with cursor } = after := by
  unfold onCursor
  cases step reader.cursor with
  | error fault cursor => simp [Action.raise_ne_ok]
  | ok found cursor =>
      constructor
      · intro answers
        cases answers
        exact ⟨cursor, rfl, rfl⟩
      · rintro ⟨_, answers, rfl⟩
        cases answers
        rfl

theorem checkLength_eq_ok_iff {what : LimitKind} {limit actual : Nat} :
    checkLength what limit actual reader = .ok () after ↔
      StreamError.overLimit? what limit actual = none ∧ reader = after := by
  simp only [checkLength, StreamError.overLimit?]
  split_ifs with exceeds
  · simp [Action.raise_ne_ok]
  · simp

theorem checkLength_of_some {what : LimitKind} {limit actual : Nat} {fault : StreamError}
    (unlatched : reader.error = none)
    (exceeds : StreamError.overLimit? what limit actual = some fault) :
    ∃ after, checkLength what limit actual reader = .error fault after := by
  simp only [StreamError.overLimit?, Option.ite_none_right_eq_some, Option.some.injEq] at exceeds
  rw [checkLength, if_pos exceeds.1, exceeds.2]
  exact ⟨_, Action.raise_of_unlatched unlatched⟩

theorem openFrame_apply (frame : ReadFrame) :
    openFrame frame reader =
      (checkLength .depth reader.limits.maxDepth (reader.frames.length + 1) >>= fun _ =>
        set { reader with frames := frame :: reader.frames }) reader :=
  rfl

theorem openFrame_eq_ok_iff {frame : ReadFrame} :
    openFrame frame reader = .ok () after ↔
      StreamError.overLimit? .depth reader.limits.maxDepth (reader.frames.length + 1) = none ∧
        { reader with frames := frame :: reader.frames } = after := by
  simp only [openFrame_apply, Action.bind_eq_ok_iff]
  constructor
  · rintro ⟨_, middle, checked, opened⟩
    rcases checkLength_eq_ok_iff.1 checked with ⟨within, rfl⟩
    cases opened
    exact ⟨within, rfl⟩
  · rintro ⟨within, rfl⟩
    exact ⟨(), reader, checkLength_eq_ok_iff.2 ⟨within, rfl⟩, rfl⟩

/-- A frame is opened and then something is answered. -/
theorem openFrame_pure_eq_ok_iff {α : Type} {frame : ReadFrame} {found answer : α} :
    (openFrame frame >>= fun _ => pure found) reader = .ok answer after ↔
      found = answer ∧
        StreamError.overLimit? .depth reader.limits.maxDepth (reader.frames.length + 1) = none ∧
          { reader with frames := frame :: reader.frames } = after := by
  simp only [Action.bind_eq_ok_iff]
  constructor
  · rintro ⟨_, _, opened, answered⟩
    rcases openFrame_eq_ok_iff.1 opened with ⟨shallow, rfl⟩
    cases answered
    exact ⟨rfl, shallow, rfl⟩
  · rintro ⟨rfl, shallow, rfl⟩
    exact ⟨(), _, openFrame_eq_ok_iff.2 ⟨shallow, rfl⟩, rfl⟩

theorem openFrame_of_some {frame : ReadFrame} {fault : StreamError}
    (unlatched : reader.error = none)
    (exceeds : StreamError.overLimit? .depth reader.limits.maxDepth (reader.frames.length + 1) =
      some fault) :
    ∃ after, openFrame frame reader = .error fault after := by
  rcases checkLength_of_some unlatched exceeds with ⟨after, failed⟩
  exact ⟨after, by rw [openFrame_apply, Action.bind_of_error failed]⟩

/-- A number is read if its chunk stands at the cursor. -/
theorem takeNumber_eq_ok_iff {kind : NumberKind} {number : Number} :
    takeNumber kind reader = .ok number after ↔
      number.kind = kind ∧ ∃ cursor, reader.cursor.pass? (.number number) = some cursor ∧
        { reader with cursor } = after := by
  simp only [takeNumber, onCursor_eq_ok_iff]
  constructor
  · rintro ⟨cursor, taken, rfl⟩
    rcases (ReadCursor.alignTake_eq_ok_iff kind.size_le).1 taken with
      ⟨run, _, width, passed, answered⟩
    cases answered
    rcases NumberKind.ofBytes_eq_iff.1 ⟨width, rfl⟩ with ⟨kindEq, spelled⟩
    refine ⟨kindEq, cursor, ?_, rfl⟩
    simp only [Chunk.number, kindEq, spelled, passed]
  · rintro ⟨rfl, cursor, passed, rfl⟩
    refine ⟨cursor, (ReadCursor.alignTake_eq_ok_iff number.kind.size_le).2
      ⟨number.bytes, cursor, number.length_bytes, passed, ?_⟩, rfl⟩
    rw [number.ofBytes_bytes]
    rfl

/-- A length is read if its length field stands at the cursor. -/
theorem takeLength_eq_ok_iff {deployment : Option Deployment} {length : Nat} :
    takeLength deployment reader = .ok length after ↔
      ∃ chunk cursor, Chunk.length? length deployment = some chunk ∧
        reader.cursor.pass? chunk = some cursor ∧ { reader with cursor } = after := by
  unfold takeLength Chunk.length?
  cases LengthWidth.ofDeployment deployment with
  | error fault => simp [Action.raise_ne_ok]
  | ok width =>
      simp only [onCursor_eq_ok_iff, Option.ite_none_right_eq_some, Option.some.injEq,
        width.le_greatest_iff]
      constructor
      · rintro ⟨cursor, taken, rfl⟩
        rcases (ReadCursor.alignTake_eq_ok_iff width.size_le).1 taken with
          ⟨run, _, lengthEq, passed, answered⟩
        cases answered
        rcases LittleEndian.value_eq_iff.1 ⟨lengthEq, rfl⟩ with ⟨fits, spelled⟩
        refine ⟨_, cursor, ⟨fits, rfl⟩, ?_, rfl⟩
        simp only [spelled, passed]
      · rintro ⟨chunk, cursor, ⟨fits, rfl⟩, passed, rfl⟩
        rcases LittleEndian.value_eq_iff.2 ⟨fits, rfl⟩ with ⟨lengthEq, spelled⟩
        refine ⟨cursor, (ReadCursor.alignTake_eq_ok_iff width.size_le).2
          ⟨_, cursor, lengthEq, passed, ?_⟩, rfl⟩
        rw [spelled]
        rfl

/-- Reads the bytes of a text, the number of which is known, and the terminator after them. -/
def takePayload (length : Nat) : Action MemoryReader String := do
  let run ← onCursor (ReadCursor.take (length + 1))
  if run.drop length = [0] then
    match Utf8.decode (run.take length) with
    | .ok text => pure text
    | .error fault => Latch.raise (.invalidData (.notUtf8 fault))
  else
    Latch.raise (.invalidData .unterminated)

theorem takeText_apply (deployment : Option Deployment) :
    takeText deployment reader =
      (takeLength deployment >>= fun length =>
        match length with
        | 0 => Latch.raise (.invalidData .missingTerminator)
        | length + 1 =>
            checkLength .string reader.limits.maxStringLength length >>= fun _ =>
              takePayload length) reader :=
  rfl

theorem takePayload_eq_ok_iff {length : Nat} {text : String} :
    takePayload length reader = .ok text after ↔
      (Utf8.encode text).length = length ∧ ∃ cursor,
        reader.cursor.pass? (.plain (Utf8.encode text ++ [0])) = some cursor ∧
          { reader with cursor } = after := by
  simp only [takePayload]
  simp only [Action.bind_eq_ok_iff, onCursor_eq_ok_iff, ReadCursor.take_eq_ok_iff]
  constructor
  · rintro ⟨run, _, ⟨cursor, ⟨lengthEq, passed⟩, rfl⟩, checked⟩
    split_ifs at checked with terminated
    · cases decoded : Utf8.decode (run.take length) with
      | error fault => simp [decoded, Action.raise_ne_ok] at checked
      | ok found =>
          simp only [decoded, Action.pure_apply, EStateM.Result.ok.injEq] at checked
          rcases checked with ⟨rfl, rfl⟩
          have spelled := Utf8.encode_of_decode decoded
          refine ⟨?_, cursor, ?_, rfl⟩
          · simp only [spelled, List.length_take]
            omega
          · rwa [spelled, ← terminated, List.take_append_drop]
    · exact absurd checked Action.raise_ne_ok
  · rintro ⟨rfl, cursor, passed, rfl⟩
    refine ⟨_, _, ⟨cursor, ⟨by simp, passed⟩, rfl⟩, ?_⟩
    simp [Utf8.decode_encode]

/-- A text is read if its chunks stand at the cursor and it is not too long. -/
theorem takeText_eq_ok_iff {deployment : Option Deployment} {text : String} :
    takeText deployment reader = .ok text after ↔
      ∃ chunks cursor, (WriteCall.leaf (.text text) deployment).chunks? = some chunks ∧
        (WriteCall.leaf (.text text) deployment).lengthFault? reader.limits = none ∧
          reader.cursor.passAll? chunks = some cursor ∧ { reader with cursor } = after := by
  simp only [takeText_apply, Action.bind_eq_ok_iff]
  constructor
  · rintro ⟨announced, middle, taken, rest⟩
    rcases takeLength_eq_ok_iff.1 taken with ⟨chunk, cursor, described, passed, rfl⟩
    cases announced with
    | zero => exact absurd rest Action.raise_ne_ok
    | succ length =>
        rcases Action.bind_eq_ok_iff.1 rest with ⟨_, _, checked, payload⟩
        rcases checkLength_eq_ok_iff.1 checked with ⟨within, rfl⟩
        rcases takePayload_eq_ok_iff.1 payload with ⟨rfl, last, payloadPassed, rfl⟩
        refine ⟨_, last, Option.map_eq_some_iff.2 ⟨chunk, described, rfl⟩, within, ?_, rfl⟩
        exact ReadCursor.passAll?_pair_iff.2 ⟨cursor, passed, payloadPassed⟩
  · rintro ⟨chunks, last, described, within, passed, rfl⟩
    rcases Option.map_eq_some_iff.1 described with ⟨chunk, lengthDescribed, rfl⟩
    rcases ReadCursor.passAll?_pair_iff.1 passed with ⟨cursor, lengthPassed, payloadPassed⟩
    refine ⟨_, _, takeLength_eq_ok_iff.2 ⟨chunk, cursor, lengthDescribed, lengthPassed, rfl⟩, ?_⟩
    refine Action.bind_eq_ok_iff.2 ⟨(), _, checkLength_eq_ok_iff.2 ⟨within, rfl⟩, ?_⟩
    exact takePayload_eq_ok_iff.2 ⟨rfl, last, payloadPassed, rfl⟩

theorem takeBool_eq_ok_iff {deployment : Option Deployment} {value : Leaf} :
    takeLeaf .bool deployment reader = .ok value after ↔
      ∃ flag cursor, value = .bool flag ∧
        reader.cursor.pass? (.plain [if flag then 1 else 0]) = some cursor ∧
          { reader with cursor } = after := by
  have steps : takeLeaf .bool deployment reader =
      (onCursor (ReadCursor.take 1) >>= fun byte =>
        if byte = [0] then pure (.bool false)
        else if byte = [1] then pure (.bool true)
        else Latch.raise (.invalidData (.booleanByte (byte.headD 0)))) reader := rfl
  simp only [steps, Action.bind_eq_ok_iff]
  simp only [onCursor_eq_ok_iff, ReadCursor.take_eq_ok_iff]
  constructor
  · rintro ⟨byte, _, ⟨cursor, ⟨_, passed⟩, rfl⟩, checked⟩
    split_ifs at checked with low high
    · cases checked
      exact ⟨false, cursor, rfl, low ▸ passed, rfl⟩
    · cases checked
      exact ⟨true, cursor, rfl, high ▸ passed, rfl⟩
    · exact absurd checked Action.raise_ne_ok
  · rintro ⟨flag, cursor, rfl, passed, rfl⟩
    refine ⟨_, _, ⟨cursor, ⟨rfl, passed⟩, rfl⟩, ?_⟩
    cases flag <;> rfl

theorem takeBytes_apply (deployment : Option Deployment) :
    takeLeaf .bytes deployment reader =
      (takeLength deployment >>= fun length =>
        checkLength .byteBuffer reader.limits.maxStringLength length >>= fun _ =>
          .bytes <$> onCursor (ReadCursor.take length)) reader :=
  rfl

theorem takeBytes_eq_ok_iff {deployment : Option Deployment} {value : Leaf} :
    takeLeaf .bytes deployment reader = .ok value after ↔
      ∃ payload chunks cursor, value = .bytes payload ∧
        (WriteCall.leaf (.bytes payload) deployment).chunks? = some chunks ∧
          (WriteCall.leaf (.bytes payload) deployment).lengthFault? reader.limits = none ∧
            reader.cursor.passAll? chunks = some cursor ∧ { reader with cursor } = after := by
  rw [takeBytes_apply, Action.bind_eq_ok_iff]
  constructor
  · rintro ⟨length, _, taken, rest⟩
    rcases takeLength_eq_ok_iff.1 taken with ⟨chunk, cursor, described, passed, rfl⟩
    rcases Action.bind_eq_ok_iff.1 rest with ⟨_, _, checked, rest⟩
    rcases checkLength_eq_ok_iff.1 checked with ⟨within, rfl⟩
    rcases Action.map_eq_ok_iff.1 rest with ⟨payload, payloadTaken, rfl⟩
    rcases onCursor_eq_ok_iff.1 payloadTaken with ⟨last, runTaken, rfl⟩
    rcases ReadCursor.take_eq_ok_iff.1 runTaken with ⟨rfl, payloadPassed⟩
    refine ⟨payload, _, last, rfl, Option.map_eq_some_iff.2 ⟨chunk, described, rfl⟩, within,
      ?_, rfl⟩
    exact ReadCursor.passAll?_pair_iff.2 ⟨cursor, passed, payloadPassed⟩
  · rintro ⟨payload, chunks, last, rfl, described, within, passed, rfl⟩
    rcases Option.map_eq_some_iff.1 described with ⟨chunk, lengthDescribed, rfl⟩
    rcases ReadCursor.passAll?_pair_iff.1 passed with ⟨cursor, lengthPassed, payloadPassed⟩
    refine ⟨_, _, takeLength_eq_ok_iff.2 ⟨chunk, cursor, lengthDescribed, lengthPassed, rfl⟩, ?_⟩
    refine Action.bind_eq_ok_iff.2 ⟨(), _, checkLength_eq_ok_iff.2 ⟨within, rfl⟩, ?_⟩
    refine Action.map_eq_ok_iff.2 ⟨payload, ?_, rfl⟩
    exact onCursor_eq_ok_iff.2 ⟨last, ReadCursor.take_eq_ok_iff.2 ⟨rfl, payloadPassed⟩, rfl⟩

/-- A leaf is read if its chunks stand at the cursor and it is not too long. -/
theorem takeLeaf_eq_ok_iff {kind : LeafKind} {deployment : Option Deployment} {value : Leaf} :
    takeLeaf kind deployment reader = .ok value after ↔
      value.kind = kind ∧
        ∃ chunks cursor, (WriteCall.leaf value deployment).chunks? = some chunks ∧
          (WriteCall.leaf value deployment).lengthFault? reader.limits = none ∧
            reader.cursor.passAll? chunks = some cursor ∧ { reader with cursor } = after := by
  cases kind with
  | bool =>
      simp only [takeBool_eq_ok_iff]
      constructor
      · rintro ⟨flag, cursor, rfl, passed, rfl⟩
        exact ⟨rfl, _, cursor, rfl, rfl, (ReadCursor.passAll?_singleton ..).trans passed, rfl⟩
      · rintro ⟨kindEq, chunks, cursor, described, _, passed, rfl⟩
        cases value with
        | bool flag =>
            cases described
            exact ⟨flag, cursor, rfl, (ReadCursor.passAll?_singleton ..).symm.trans passed, rfl⟩
        | _ => cases kindEq
  | number kind =>
      have steps : takeLeaf (.number kind) deployment reader =
          (.number <$> takeNumber kind) reader := rfl
      simp only [steps, Action.map_eq_ok_iff]
      constructor
      · rintro ⟨number, taken, rfl⟩
        rcases takeNumber_eq_ok_iff.1 taken with ⟨rfl, cursor, passed, rfl⟩
        exact ⟨rfl, _, cursor, rfl, rfl, (ReadCursor.passAll?_singleton ..).trans passed, rfl⟩
      · rintro ⟨kindEq, chunks, cursor, described, _, passed, rfl⟩
        cases value with
        | number number =>
            cases kindEq
            cases described
            exact ⟨number, takeNumber_eq_ok_iff.2
              ⟨rfl, cursor, (ReadCursor.passAll?_singleton ..).symm.trans passed, rfl⟩, rfl⟩
        | _ => cases kindEq
  | text =>
      have steps : takeLeaf .text deployment reader = (.text <$> takeText deployment) reader := rfl
      simp only [steps, Action.map_eq_ok_iff]
      constructor
      · rintro ⟨text, taken, rfl⟩
        exact ⟨rfl, takeText_eq_ok_iff.1 taken⟩
      · rintro ⟨kindEq, found⟩
        cases value with
        | text text => exact ⟨text, takeText_eq_ok_iff.2 found, rfl⟩
        | _ => cases kindEq
  | bytes =>
      simp only [takeBytes_eq_ok_iff]
      constructor
      · rintro ⟨payload, chunks, cursor, rfl, found⟩
        exact ⟨rfl, chunks, cursor, found⟩
      · rintro ⟨kindEq, chunks, cursor, found⟩
        cases value with
        | bytes payload => exact ⟨payload, chunks, cursor, rfl, found⟩
        | _ => cases kindEq

/-- Opens a repeating frame, the number of its items being known. -/
def openCounted (kind : Repetition) (length : Nat) : Action MemoryReader Nat := do
  checkLength .sequence (← get).limits.maxSequenceLength length
  openFrame (.counted kind length)
  return length

theorem openCounted_apply (kind : Repetition) (length : Nat) :
    openCounted kind length reader =
      (checkLength .sequence reader.limits.maxSequenceLength length >>= fun _ =>
        openFrame (.counted kind length) >>= fun _ => pure length) reader :=
  rfl

theorem enterRepeated_apply (kind : Repetition) (deployment : Option Deployment) :
    enterRepeated kind deployment reader = (takeLength deployment >>= openCounted kind) reader :=
  rfl

theorem openCounted_eq_ok_iff {kind : Repetition} {length answer : Nat} :
    openCounted kind length reader = .ok answer after ↔
      answer = length ∧
        (StreamError.overLimit? .sequence reader.limits.maxSequenceLength length).or
          (StreamError.overLimit? .depth reader.limits.maxDepth (reader.frames.length + 1)) =
            none ∧
          { reader with frames := .counted kind length :: reader.frames } = after := by
  rw [openCounted_apply, Action.bind_eq_ok_iff]
  constructor
  · rintro ⟨_, _, checked, rest⟩
    rcases checkLength_eq_ok_iff.1 checked with ⟨short, rfl⟩
    rcases openFrame_pure_eq_ok_iff.1 rest with ⟨rfl, shallow, rfl⟩
    exact ⟨rfl, Option.or_eq_none_iff.2 ⟨short, shallow⟩, rfl⟩
  · rintro ⟨rfl, within, rfl⟩
    rcases Option.or_eq_none_iff.1 within with ⟨short, shallow⟩
    exact ⟨(), _, checkLength_eq_ok_iff.2 ⟨short, rfl⟩,
      openFrame_pure_eq_ok_iff.2 ⟨rfl, shallow, rfl⟩⟩

/-- A repeating frame is entered if its length field stands at the cursor and neither the number of
items nor the number of frames is over its limit. -/
theorem enterRepeated_eq_ok_iff {kind : Repetition} {deployment : Option Deployment}
    {length : Nat} :
    enterRepeated kind deployment reader = .ok length after ↔
      ∃ chunks cursor, (Chunk.length? length deployment).map ([·]) = some chunks ∧
        (StreamError.overLimit? .sequence reader.limits.maxSequenceLength length).or
          (StreamError.overLimit? .depth reader.limits.maxDepth (reader.frames.length + 1)) =
            none ∧
        reader.cursor.passAll? chunks = some cursor ∧
          { reader with cursor, frames := .counted kind length :: reader.frames } = after := by
  simp only [enterRepeated_apply, Action.bind_eq_ok_iff]
  constructor
  · rintro ⟨announced, _, taken, opened⟩
    rcases takeLength_eq_ok_iff.1 taken with ⟨chunk, cursor, described, passed, rfl⟩
    rcases openCounted_eq_ok_iff.1 opened with ⟨rfl, within, rfl⟩
    exact ⟨_, cursor, Option.map_eq_some_iff.2 ⟨chunk, described, rfl⟩, within,
      (ReadCursor.passAll?_singleton ..).trans passed, rfl⟩
  · rintro ⟨chunks, cursor, described, within, passed, rfl⟩
    rcases Option.map_eq_some_iff.1 described with ⟨chunk, lengthDescribed, rfl⟩
    simp only [ReadCursor.passAll?_singleton] at passed
    exact ⟨length, _, takeLength_eq_ok_iff.2 ⟨chunk, cursor, lengthDescribed, passed, rfl⟩,
      openCounted_eq_ok_iff.2 ⟨rfl, within, rfl⟩⟩

theorem enter_struct_apply (deployment : Option Deployment) :
    enter .struct deployment reader =
      (onCursor (ReadCursor.align 8) >>= fun _ => openFrame (.plain .struct) >>= fun _ =>
        pure .struct) reader :=
  rfl

theorem enter_variant_apply (deployment : Option Deployment) :
    enter .variant deployment reader =
      (onCursor (ReadCursor.take 1) >>= fun run => openFrame (.plain .variant) >>= fun _ =>
        pure (.variant (LittleEndian.value run))) reader :=
  rfl

theorem enterVariant_eq_ok_iff {deployment : Option Deployment} {opening : Opening} :
    enter .variant deployment reader = .ok opening after ↔
      ∃ tag cursor, opening = .variant tag ∧ tag ≤ 255 ∧
        reader.cursor.pass? (.plain [UInt8.ofNat tag]) = some cursor ∧
          StreamError.overLimit? .depth reader.limits.maxDepth (reader.frames.length + 1) = none ∧
            { reader with cursor, frames := .plain .variant :: reader.frames } = after := by
  rw [enter_variant_apply, Action.bind_eq_ok_iff]
  constructor
  · rintro ⟨run, _, taken, rest⟩
    rcases onCursor_eq_ok_iff.1 taken with ⟨cursor, runTaken, rfl⟩
    rcases ReadCursor.take_eq_ok_iff.1 runTaken with ⟨width, passed⟩
    rcases openFrame_pure_eq_ok_iff.1 rest with ⟨rfl, shallow, rfl⟩
    rcases LittleEndian.value_eq_iff.1 ⟨width, rfl⟩ with ⟨fits, spelled⟩
    refine ⟨_, cursor, rfl, Nat.le_of_lt_succ fits, ?_, shallow, rfl⟩
    rwa [← spelled] at passed
  · rintro ⟨tag, cursor, rfl, fits, passed, shallow, rfl⟩
    refine ⟨_, _, onCursor_eq_ok_iff.2 ⟨cursor, ReadCursor.take_eq_ok_iff.2 ⟨rfl, passed⟩, rfl⟩, ?_⟩
    have below : tag < LittleEndian.span 1 := Nat.lt_succ_of_le fits
    have spelled : LittleEndian.value (LittleEndian.bytes 1 tag) = tag :=
      (LittleEndian.value_eq_iff.2 ⟨below, rfl⟩).2
    exact openFrame_pure_eq_ok_iff.2 ⟨congrArg Opening.variant spelled, shallow, rfl⟩

def takeSerial : Action MemoryReader UInt32 :=
  onCursor do
    ReadCursor.align 4
    let run ← ReadCursor.take 4
    ReadCursor.align 8
    return UInt32.ofNat (LittleEndian.value run)

theorem takeSerial_eq_ok_iff {serial : UInt32} :
    takeSerial reader = .ok serial after ↔
      ∃ cursor, reader.cursor.passAll? [.number (.uint32 serial), .boundary] = some cursor ∧
        { reader with cursor } = after := by
  simp only [takeSerial, onCursor_eq_ok_iff, ReadCursor.passAll?_pair_iff]
  constructor
  · rintro ⟨cursor, taken, rfl⟩
    rcases (ReadCursor.alignTake_eq_ok_iff (by decide)).1 taken with
      ⟨run, middle, width, passed, aligned⟩
    rcases Action.bind_eq_ok_iff.1 aligned with ⟨_, _, bounded, answered⟩
    cases answered
    have spelled : (Number.uint32 (UInt32.ofNat (LittleEndian.value run))).bytes = run :=
      NumberKind.uint32.bytes_ofBytes run width
    refine ⟨cursor, ⟨middle, ?_, ReadCursor.align_eight_eq_ok_iff.1 bounded⟩, rfl⟩
    simp only [Chunk.number, spelled]
    exact passed
  · rintro ⟨cursor, ⟨middle, passed, bounded⟩, rfl⟩
    refine ⟨cursor, (ReadCursor.alignTake_eq_ok_iff (by decide)).2
      ⟨_, middle, Number.length_bytes (.uint32 serial), passed, ?_⟩, rfl⟩
    refine Action.bind_eq_ok_iff.2 ⟨(), cursor, ReadCursor.align_eight_eq_ok_iff.2 bounded, ?_⟩
    have spelled := Number.uint32.inj (Number.ofBytes_bytes (.uint32 serial))
    rw [spelled]
    rfl

theorem enter_polymorphic_apply (deployment : Option Deployment) :
    enter .polymorphic deployment reader =
      (takeSerial >>= fun serial => openFrame (.plain .polymorphic) >>= fun _ =>
        pure (.polymorphic serial)) reader :=
  rfl

/-- A frame is entered if the chunks of its opening stand at the cursor and it breaks no limit. -/
theorem enter_eq_ok_iff {kind : FrameKind} {deployment : Option Deployment} {opening : Opening} :
    enter kind deployment reader = .ok opening after ↔
      opening.kind = kind ∧
        ∃ chunks cursor, (WriteCall.enter opening deployment).chunks? = some chunks ∧
          (WriteCall.enter opening deployment).limitFault? reader.limits reader.frames.length =
            none ∧
          reader.cursor.passAll? chunks = some cursor ∧
            { reader with cursor, frames := opening.readFrame :: reader.frames } = after := by
  cases kind with
  | struct =>
      rw [enter_struct_apply, Action.bind_eq_ok_iff]
      constructor
      · rintro ⟨_, _, aligned, rest⟩
        rcases onCursor_eq_ok_iff.1 aligned with ⟨cursor, passed, rfl⟩
        rcases openFrame_pure_eq_ok_iff.1 rest with ⟨rfl, shallow, rfl⟩
        exact ⟨rfl, _, cursor, rfl, shallow, (ReadCursor.passAll?_singleton ..).trans
          (ReadCursor.align_eight_eq_ok_iff.1 passed), rfl⟩
      · rintro ⟨kindEq, chunks, cursor, described, shallow, passed, rfl⟩
        cases opening with
        | struct =>
            cases described
            simp only [ReadCursor.passAll?_singleton] at passed
            have aligned := onCursor_eq_ok_iff.2
              ⟨cursor, ReadCursor.align_eight_eq_ok_iff.2 passed, rfl⟩
            exact ⟨(), _, aligned, openFrame_pure_eq_ok_iff.2 ⟨rfl, shallow, rfl⟩⟩
        | _ => cases kindEq
  | polymorphic =>
      rw [enter_polymorphic_apply, Action.bind_eq_ok_iff]
      constructor
      · rintro ⟨serial, _, taken, rest⟩
        rcases takeSerial_eq_ok_iff.1 taken with ⟨cursor, passed, rfl⟩
        rcases openFrame_pure_eq_ok_iff.1 rest with ⟨rfl, shallow, rfl⟩
        exact ⟨rfl, _, cursor, rfl, shallow, passed, rfl⟩
      · rintro ⟨kindEq, chunks, cursor, described, shallow, passed, rfl⟩
        cases opening with
        | polymorphic serial =>
            cases described
            exact ⟨serial, _, takeSerial_eq_ok_iff.2 ⟨cursor, passed, rfl⟩,
              openFrame_pure_eq_ok_iff.2 ⟨rfl, shallow, rfl⟩⟩
        | _ => cases kindEq
  | variant =>
      simp only [enterVariant_eq_ok_iff]
      constructor
      · rintro ⟨tag, cursor, rfl, fits, passed, shallow, rfl⟩
        exact ⟨rfl, _, cursor, if_pos fits, shallow,
          (ReadCursor.passAll?_singleton ..).trans passed,
          rfl⟩
      · rintro ⟨kindEq, chunks, cursor, described, shallow, passed, rfl⟩
        cases opening with
        | variant tag =>
            simp only [WriteCall.chunks?, Option.ite_none_right_eq_some,
              Option.some.injEq] at described
            rw [← described.2, ReadCursor.passAll?_singleton] at passed
            exact ⟨tag, cursor, rfl, described.1, passed, shallow, rfl⟩
        | _ => cases kindEq
  | sequence =>
      have steps : enter .sequence deployment reader =
          (.sequence <$> enterRepeated .sequence deployment) reader := rfl
      simp only [steps, Action.map_eq_ok_iff]
      constructor
      · rintro ⟨length, entered, rfl⟩
        exact ⟨rfl, enterRepeated_eq_ok_iff.1 entered⟩
      · rintro ⟨kindEq, found⟩
        cases opening with
        | sequence length => exact ⟨length, enterRepeated_eq_ok_iff.2 found, rfl⟩
        | _ => cases kindEq
  | map =>
      have steps : enter .map deployment reader =
          (.map <$> enterRepeated .map deployment) reader := rfl
      simp only [steps, Action.map_eq_ok_iff]
      constructor
      · rintro ⟨length, entered, rfl⟩
        exact ⟨rfl, enterRepeated_eq_ok_iff.1 entered⟩
      · rintro ⟨kindEq, found⟩
        cases opening with
        | map length => exact ⟨length, enterRepeated_eq_ok_iff.2 found, rfl⟩
        | _ => cases kindEq
  | mapEntry =>
      have steps : enter .mapEntry deployment reader =
          (openFrame (.plain .mapEntry) >>= fun _ => pure .mapEntry) reader := rfl
      rw [steps, openFrame_pure_eq_ok_iff]
      constructor
      · rintro ⟨rfl, shallow, rfl⟩
        exact ⟨rfl, [], reader.cursor, rfl, shallow, rfl, rfl⟩
      · rintro ⟨kindEq, chunks, cursor, described, shallow, passed, rfl⟩
        cases opening with
        | mapEntry =>
            cases described
            cases passed
            exact ⟨rfl, shallow, rfl⟩
        | _ => cases kindEq

/-- A leaf whose chunks stand at the cursor and that breaks a limit is refused with that limit. -/
theorem takeLeaf_of_some {deployment : Option Deployment} {value : Leaf} {chunks : List Chunk}
    {cursor : ReadCursor} {fault : StreamError} (unlatched : reader.error = none)
    (described : (WriteCall.leaf value deployment).chunks? = some chunks)
    (passed : reader.cursor.passAll? chunks = some cursor)
    (exceeds : (WriteCall.leaf value deployment).lengthFault? reader.limits = some fault) :
    ∃ after, takeLeaf value.kind deployment reader = .error fault after := by
  cases value with
  | bool value => cases exceeds
  | number value => cases exceeds
  | text value =>
      rcases Option.map_eq_some_iff.1 described with ⟨chunk, lengthDescribed, rfl⟩
      rcases ReadCursor.passAll?_pair_iff.1 passed with ⟨middle, lengthPassed, _⟩
      have taken := takeLength_eq_ok_iff.2 ⟨chunk, middle, lengthDescribed, lengthPassed, rfl⟩
      have refused : ∃ after, takeText deployment reader = .error fault after := by
        rw [takeText_apply, Action.bind_of_ok taken]
        rcases @checkLength_of_some { reader with cursor := middle } _ _ _ _ unlatched exceeds with
          ⟨after, failed⟩
        exact ⟨after, Action.bind_of_error failed⟩
      rcases refused with ⟨after, failed⟩
      exact ⟨after, Action.map_of_error failed⟩
  | bytes value =>
      rcases Option.map_eq_some_iff.1 described with ⟨chunk, lengthDescribed, rfl⟩
      rcases ReadCursor.passAll?_pair_iff.1 passed with ⟨middle, lengthPassed, _⟩
      have taken := takeLength_eq_ok_iff.2 ⟨chunk, middle, lengthDescribed, lengthPassed, rfl⟩
      rw [Leaf.kind, takeBytes_apply, Action.bind_of_ok taken]
      rcases @checkLength_of_some { reader with cursor := middle } _ _ _ _ unlatched exceeds with
        ⟨after, failed⟩
      exact ⟨after, Action.bind_of_error failed⟩

theorem enterRepeated_of_some {kind : Repetition} {deployment : Option Deployment} {length : Nat}
    {chunks : List Chunk} {cursor : ReadCursor} {fault : StreamError}
    (unlatched : reader.error = none)
    (described : (Chunk.length? length deployment).map ([·]) = some chunks)
    (passed : reader.cursor.passAll? chunks = some cursor)
    (exceeds : (StreamError.overLimit? .sequence reader.limits.maxSequenceLength length).or
      (StreamError.overLimit? .depth reader.limits.maxDepth (reader.frames.length + 1)) =
        some fault) :
    ∃ after, enterRepeated kind deployment reader = .error fault after := by
  rcases Option.map_eq_some_iff.1 described with ⟨chunk, lengthDescribed, rfl⟩
  simp only [ReadCursor.passAll?_singleton] at passed
  have taken := takeLength_eq_ok_iff.2 ⟨chunk, cursor, lengthDescribed, passed, rfl⟩
  rw [enterRepeated_apply, Action.bind_of_ok taken, openCounted_apply]
  rcases Option.or_eq_some_iff.1 exceeds with long | ⟨short, deep⟩
  · rcases @checkLength_of_some { reader with cursor } _ _ _ _ unlatched long with ⟨after, failed⟩
    exact ⟨after, Action.bind_of_error failed⟩
  · rw [Action.bind_of_ok (checkLength_eq_ok_iff.2 ⟨short, rfl⟩)]
    rcases @openFrame_of_some { reader with cursor } (.counted kind length) _ unlatched deep with
      ⟨after, failed⟩
    exact ⟨after, Action.bind_of_error failed⟩

/-- A frame whose chunks stand at the cursor and that breaks a limit is refused with that limit. -/
theorem enter_of_some {deployment : Option Deployment} {opening : Opening} {chunks : List Chunk}
    {cursor : ReadCursor} {fault : StreamError} (unlatched : reader.error = none)
    (described : (WriteCall.enter opening deployment).chunks? = some chunks)
    (passed : reader.cursor.passAll? chunks = some cursor)
    (exceeds : (WriteCall.enter opening deployment).limitFault? reader.limits reader.frames.length =
      some fault) :
    ∃ after, enter opening.kind deployment reader = .error fault after := by
  cases opening with
  | struct =>
      cases described
      simp only [ReadCursor.passAll?_singleton] at passed
      have aligned := onCursor_eq_ok_iff.2
        ⟨cursor, ReadCursor.align_eight_eq_ok_iff.2 passed, rfl⟩
      rcases @openFrame_of_some { reader with cursor } (.plain .struct) _ unlatched exceeds with
        ⟨after, failed⟩
      rw [Opening.kind, enter_struct_apply, Action.bind_of_ok aligned]
      exact ⟨after, Action.bind_of_error failed⟩
  | polymorphic serial =>
      cases described
      have taken := takeSerial_eq_ok_iff.2 ⟨cursor, passed, rfl⟩
      rcases @openFrame_of_some { reader with cursor } (.plain .polymorphic) _ unlatched
        exceeds with
        ⟨after, failed⟩
      rw [Opening.kind, enter_polymorphic_apply, Action.bind_of_ok taken]
      exact ⟨after, Action.bind_of_error failed⟩
  | variant tag =>
      simp only [WriteCall.chunks?, Option.ite_none_right_eq_some, Option.some.injEq] at described
      rw [← described.2, ReadCursor.passAll?_singleton] at passed
      have runTaken : ReadCursor.take 1 reader.cursor = .ok [UInt8.ofNat tag] cursor :=
        ReadCursor.take_eq_ok_iff.2 ⟨rfl, passed⟩
      have taken := onCursor_eq_ok_iff.2 ⟨cursor, runTaken, rfl⟩
      rcases @openFrame_of_some { reader with cursor } (.plain .variant) _ unlatched exceeds with
        ⟨after, failed⟩
      rw [Opening.kind, enter_variant_apply, Action.bind_of_ok taken]
      exact ⟨after, Action.bind_of_error failed⟩
  | sequence length =>
      rcases enterRepeated_of_some unlatched described passed exceeds with ⟨after, failed⟩
      exact ⟨after, Action.map_of_error failed⟩
  | map length =>
      rcases enterRepeated_of_some unlatched described passed exceeds with ⟨after, failed⟩
      exact ⟨after, Action.map_of_error failed⟩
  | mapEntry =>
      rcases @openFrame_of_some reader (.plain .mapEntry) _ unlatched exceeds with ⟨after, failed⟩
      exact ⟨after, Action.bind_of_error failed⟩

/-- Fails unless the frame that was closed, if there was one, is of the given kind and complete. -/
def checkClosed (kind : FrameKind) : Option ReadFrame → Action MemoryReader Unit
  | some (.plain found) =>
      if found = kind then pure ()
      else Latch.raise (.unbalanced (.endedReading kind (some (.plain found))))
  | some (.counted found remaining) =>
      if found.frame = kind then
        if remaining = 0 then pure ()
        else Latch.raise (.unbalanced (.itemsLeft found remaining))
      else Latch.raise (.unbalanced (.endedReading kind (some (.counted found remaining))))
  | none => Latch.raise (.unbalanced (.endedReading kind none))

theorem closeFrame_apply (kind : FrameKind) :
    closeFrame kind reader =
      checkClosed kind reader.frames.head? { reader with frames := reader.frames.tail } :=
  rfl

theorem closeFrame_of_plain {kind : FrameKind} {outer : List ReadFrame}
    (innermost : reader.frames = .plain kind :: outer) :
    closeFrame kind reader = .ok () { reader with frames := outer } := by
  simp [closeFrame_apply, innermost, checkClosed]

theorem closeFrame_of_counted {kind : Repetition} {outer : List ReadFrame}
    (innermost : reader.frames = .counted kind 0 :: outer) :
    closeFrame kind.frame reader = .ok () { reader with frames := outer } := by
  simp [closeFrame_apply, innermost, checkClosed]

/-- The frame that is closed is of the given kind and has no items left. -/
theorem exists_of_closeFrame {kind : FrameKind} (closed : closeFrame kind reader = .ok () after) :
    ∃ frame outer, reader.frames = frame :: outer ∧ frame.kind = kind ∧ frame.left = 0 ∧
      { reader with frames := outer } = after := by
  rw [closeFrame_apply] at closed
  cases framed : reader.frames with
  | nil =>
      rw [framed] at closed
      exact absurd closed Action.raise_ne_ok
  | cons frame outer =>
      rw [framed] at closed
      refine ⟨frame, outer, rfl, ?_⟩
      cases frame with
      | plain found =>
          simp only [List.head?_cons, checkClosed] at closed
          split_ifs at closed with same
          · cases closed
            exact ⟨same, rfl, rfl⟩
          · exact absurd closed Action.raise_ne_ok
      | counted found remaining =>
          simp only [List.head?_cons, checkClosed] at closed
          split_ifs at closed with same noneLeft
          · cases closed
            exact ⟨same, noneLeft, rfl⟩
          · exact absurd closed Action.raise_ne_ok
          · exact absurd closed Action.raise_ne_ok

/-- Closing a frame does nothing else. -/
theorem eq_of_closeFrame {kind : FrameKind} (closed : closeFrame kind reader = .ok () after) :
    { reader with frames := reader.frames.tail } = after := by
  rcases exists_of_closeFrame closed with ⟨frame, outer, framed, _, _, rfl⟩
  rw [framed, List.tail_cons]

/-- The question for another item looks at neither the bytes nor the limits. -/
theorem hasMore_with (kind : Repetition) (reader : MemoryReader) (cursor : ReadCursor)
    (limits : Limits) :
    hasMore kind { reader with cursor, limits } =
      ((hasMore kind reader).1, { (hasMore kind reader).2 with cursor, limits }) := by
  rcases reader with ⟨_, frames, _, _ | first⟩
  · match frames with
    | [] => rfl
    | .plain found :: outer => rfl
    | .counted found 0 :: outer =>
        simp only [hasMore]
        split_ifs <;> rfl
    | .counted found (remaining + 1) :: outer =>
        simp only [hasMore]
        split_ifs <;> rfl
  · rfl

theorem hasMore_cursor (kind : Repetition) (reader : MemoryReader) :
    (hasMore kind reader).2.cursor = reader.cursor :=
  congrArg (fun asked => asked.2.cursor) (hasMore_with kind reader reader.cursor reader.limits)

theorem hasMore_limits (kind : Repetition) (reader : MemoryReader) :
    (hasMore kind reader).2.limits = reader.limits :=
  congrArg (fun asked => asked.2.limits) (hasMore_with kind reader reader.cursor reader.limits)

/-- While items are left, one more follows and is counted. -/
theorem hasMore_of_counted_succ (unlatched : reader.error = none) {kind : Repetition}
    {remaining : Nat} {outer : List ReadFrame}
    (innermost : reader.frames = .counted kind (remaining + 1) :: outer) :
    hasMore kind reader = (true, { reader with frames := .counted kind remaining :: outer }) := by
  unfold hasMore
  simp [unlatched, innermost]

/-- When no items are left, no more follow. -/
theorem hasMore_of_counted_zero (unlatched : reader.error = none) {kind : Repetition}
    {outer : List ReadFrame} (innermost : reader.frames = .counted kind 0 :: outer) :
    hasMore kind reader = (false, reader) := by
  unfold hasMore
  simp [unlatched, innermost]

end MemoryReader

end ValueBus
