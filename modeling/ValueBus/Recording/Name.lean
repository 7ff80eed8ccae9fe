import ValueBus.Stream.Input
import ValueBus.Stream.Output

/-!
# Names of calls

Every call on a stream and every question to one has a name, made of what is done and the word for
the kind of leaf or frame. Recordings are shown with these names.
-/

namespace ValueBus

def NumberKind.all : List NumberKind :=
  [.int8, .int16, .int32, .int64, .uint8, .uint16, .uint32, .uint64, .float32, .float64]

/-- The word for a kind of number: a letter and the number of bits. -/
def NumberKind.word : NumberKind → String
  | .int8 => "i8"
  | .int16 => "i16"
  | .int32 => "i32"
  | .int64 => "i64"
  | .uint8 => "u8"
  | .uint16 => "u16"
  | .uint32 => "u32"
  | .uint64 => "u64"
  | .float32 => "f32"
  | .float64 => "f64"

def LeafKind.all : List LeafKind :=
  .bool :: .text :: .bytes :: NumberKind.all.map .number

/-- The word for a kind of leaf. -/
def LeafKind.word : LeafKind → String
  | .bool => "bool"
  | .number kind => kind.word
  | .text => "string"
  | .bytes => "byte_buffer"

def FrameKind.all : List FrameKind :=
  [.struct, .polymorphic, .variant, .sequence, .map, .mapEntry]

/-- The word for a kind of frame. -/
def FrameKind.word : FrameKind → String
  | .struct => "struct"
  | .polymorphic => "polymorphic_struct"
  | .variant => "variant"
  | .sequence => "sequence"
  | .map => "map"
  | .mapEntry => "map_entry"

/-- The name of a call on an output stream. -/
def WriteCall.name : WriteCall → String
  | .leaf value _ => "write_" ++ value.kind.word
  | .enter opening _ => "begin_write_" ++ opening.kind.word
  | .leave kind => "end_write_" ++ kind.word

/-- The name of a question to an input stream. -/
def Question.name : Question → String
  | .leaf kind _ => "read_" ++ kind.word
  | .enter kind _ => "begin_read_" ++ kind.word
  | .leave kind => "end_read_" ++ kind.word
  | .hasMore .sequence => "has_more_sequence_elements"
  | .hasMore .map => "has_more_map_entries"

/-- The question with a name. -/
def Question.named? (name : String) (deployment : Option Deployment) : Option Question :=
  let questions : List Question :=
    LeafKind.all.map (.leaf · deployment) ++ FrameKind.all.map (.enter · deployment) ++
      FrameKind.all.map .leave ++ [.hasMore .sequence, .hasMore .map]
  questions.find? (·.name = name)

def Question.deployment : Question → Option Deployment
  | .leaf _ deployment | .enter _ deployment => deployment
  | .leave _ | .hasMore _ => none

def WriteCall.deployment : WriteCall → Option Deployment
  | .leaf _ deployment | .enter _ deployment => deployment
  | .leave _ => none

end ValueBus
