/-!
# Frames

A composite value is bracketed on its stream: a frame is entered, its members follow, and the frame
is left. There are six kinds of frame. Entering one carries what a binding may need to announce it,
the `Opening`.
-/

namespace ValueBus

/-- The kinds of bracketed values. -/
inductive FrameKind where
  | struct
  | polymorphic
  | variant
  | sequence
  | map
  | mapEntry
  deriving DecidableEq, Repr

/-- The kinds of frame that repeat: their items are asked for one by one. -/
inductive Repetition where
  | sequence
  | map
  deriving DecidableEq, Repr

def Repetition.frame : Repetition → FrameKind
  | .sequence => .sequence
  | .map => .map

/-- The repetition of a kind of frame, if it repeats. -/
def FrameKind.repetition? : FrameKind → Option Repetition
  | .sequence => some .sequence
  | .map => some .map
  | _ => none

/-- What is told when a frame is entered: a polymorphic struct its serial, a variant the index of
its alternative, a sequence or map the number of its items. -/
inductive Opening where
  | struct
  | polymorphic (serial : UInt32)
  | variant (tag : Nat)
  | sequence (length : Nat)
  | map (length : Nat)
  | mapEntry
  deriving DecidableEq, Repr

namespace Opening

def kind : Opening → FrameKind
  | .struct => .struct
  | .polymorphic _ => .polymorphic
  | .variant _ => .variant
  | .sequence _ => .sequence
  | .map _ => .map
  | .mapEntry => .mapEntry

/-- The announced number of items; 0 for a frame that does not repeat. -/
def length : Opening → Nat
  | .sequence length | .map length => length
  | _ => 0

/-- The announced alternative; 0 for a frame that is no variant. -/
def tag : Opening → Nat
  | .variant tag => tag
  | _ => 0

/-- The announced serial; 0 for a frame that is no polymorphic struct. -/
def serial : Opening → UInt32
  | .polymorphic serial => serial
  | _ => 0

end Opening

/-- An open frame of a stream that is read: a repeating one counts the items still to come. -/
inductive ReadFrame where
  | plain (kind : FrameKind)
  | counted (kind : Repetition) (remaining : Nat)
  deriving DecidableEq, Repr

def FrameKind.name : FrameKind → String
  | .struct => "Struct"
  | .polymorphic => "PolymorphicStruct"
  | .variant => "Variant"
  | .sequence => "Sequence"
  | .map => "Map"
  | .mapEntry => "MapEntry"

/-- The description of an open frame in messages. -/
def ReadFrame.name : ReadFrame → String
  | .plain kind => s!"Plain({kind.name})"
  | .counted kind remaining =>
      s!"Counted \x7b kind: {kind.frame.name}, remaining: {remaining} \x7d"

/-- The description of the innermost frame, or of its absence. -/
def describeInnermost : Option String → String
  | some name => s!"Some({name})"
  | none => "None"

end ValueBus
