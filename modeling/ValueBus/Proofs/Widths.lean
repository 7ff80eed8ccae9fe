import ValueBus.Codec
import ValueBus.Proofs.Following
import ValueBus.Proofs.Order
import ValueBus.Proofs.Sound

/-!
# What a deployment can change

The memory streams look at a deployment in one place: where they write or read a length field. What
they see there is the width that a node asks for. Two deployments that ask for the same width at
every path are therefore interchangeable, whatever else their nodes say and however sparse their
children are.

Composite values hand parts of a deployment on by the position of a member, and a part of two alike
deployments is alike again. That is all that the inductions on values and on types carry.
-/

namespace ValueBus

namespace Deployment

/-- The width that a node asks for: four bytes, unless an integer hint says otherwise. -/
def selectedWidth (node : Option Deployment) : Int64 :=
  (node.bind (·.integerHint? lengthWidthHint)).getD 4

/-- Deployments that ask for the same width at every path. -/
def Alike (left right : Option Deployment) : Prop :=
  ∀ path, selectedWidth (nodeAt left path) = selectedWidth (nodeAt right path)

/-- A deployment no node of which has a hint for the width, of whatever kind. -/
def Unhinted (deployment : Deployment) : Prop :=
  ∀ path node, nodeAt (some deployment) path = some node → node.hint? lengthWidthHint = none

variable {left right : Option Deployment}

theorem nodeAt_none (path : List Nat) : nodeAt none path = none := by
  induction path with
  | nil => rfl
  | cons index rest ih => exact ih

namespace Alike

theorem width (alike : Alike left right) : selectedWidth left = selectedWidth right :=
  alike []

theorem child (alike : Alike left right) (index : Nat) :
    Alike (childOf left index) (childOf right index) :=
  fun path => alike (index :: path)

theorem of_children (same : selectedWidth left = selectedWidth right)
    (parts : ∀ index, Alike (childOf left index) (childOf right index)) : Alike left right := by
  intro path
  cases path with
  | nil => exact same
  | cons index rest => exact parts index rest

end Alike

theorem Unhinted.of_children {deployment : Deployment}
    (absent : deployment.hint? lengthWidthHint = none)
    (parts : ∀ index child, deployment.child? index = some child → Unhinted child) :
    Unhinted deployment := by
  intro path node found
  cases path with
  | nil =>
      cases found
      exact absent
  | cons index rest =>
      have below : nodeAt (deployment.child? index) rest = some node := found
      cases childEq : deployment.child? index with
      | none =>
          rw [childEq, nodeAt_none] at below
          cases below
      | some child =>
          rw [childEq] at below
          exact parts index child childEq rest node below

theorem Unhinted.empty : Unhinted empty :=
  of_children rfl fun _ _ found => by cases found

theorem Unhinted.alike {deployment : Deployment} (unhinted : Unhinted deployment) :
    Alike (some deployment) none := by
  intro path
  rw [nodeAt_none]
  cases found : nodeAt (some deployment) path with
  | none => rfl
  | some node =>
      have absent := unhinted path node found
      simp only [selectedWidth, Option.bind_some, integerHint?, absent, Option.bind_none]

end Deployment

open Deployment (Alike childOf selectedWidth)

/-- The width of length fields is a function of what the node asks for. -/
theorem LengthWidth.ofDeployment_congr {left right : Option Deployment}
    (same : selectedWidth left = selectedWidth right) :
    LengthWidth.ofDeployment left = LengthWidth.ofDeployment right := by
  have selected (node : Option Deployment) : LengthWidth.ofDeployment node =
      if selectedWidth node = 1 then .ok .one
      else if selectedWidth node = 2 then .ok .two
      else if selectedWidth node = 4 then .ok .four
      else .error (.unsupportedLengthWidth (selectedWidth node).toInt) := by
    unfold LengthWidth.ofDeployment selectedWidth
    cases node.bind (·.integerHint? Deployment.lengthWidthHint) <;> rfl
  rw [selected, selected, same]

namespace MemoryWriter

variable {left right : Option Deployment}

theorem putLength_congr (same : selectedWidth left = selectedWidth right) (length : Nat) :
    putLength length left = putLength length right := by
  unfold putLength
  rw [LengthWidth.ofDeployment_congr same]

theorem enter_congr (same : selectedWidth left = selectedWidth right) (opening : Opening) :
    enter opening left = enter opening right := by
  cases opening <;> simp only [enter, enterRepeated, putLength_congr same]

theorem perform_leaf_congr (same : selectedWidth left = selectedWidth right) (value : Leaf) :
    (OutputStream.perform (.leaf value left) : Action MemoryWriter Unit) =
      OutputStream.perform (.leaf value right) := by
  have put : putLeaf value left = putLeaf value right := by
    cases value <;> simp only [putLeaf, putLength_congr same]
  simp only [OutputStream.perform, takeCall, put]

theorem perform_enter_congr (same : selectedWidth left = selectedWidth right)
    (opening : Opening) :
    (OutputStream.perform (.enter opening left) : Action MemoryWriter Unit) =
      OutputStream.perform (.enter opening right) := by
  simp only [OutputStream.perform, takeCall, enter_congr same]

end MemoryWriter

/-- Steps that a memory writer takes alike, whatever its state. -/
def WriteStep.SameRun (first second : List WriteStep) : Prop :=
  (runAll first : Action MemoryWriter Unit) = runAll second

namespace WriteStep.SameRun

theorem append {first second earlier later : List WriteStep} (firsts : SameRun first earlier)
    (rests : SameRun second later) : SameRun (first ++ second) (earlier ++ later) := by
  unfold SameRun at *
  rw [runAll_append, runAll_append, firsts, rests]

theorem bracket {opening : Opening} {left right : Option Deployment} {kind : FrameKind}
    {first second : List WriteStep} (same : selectedWidth left = selectedWidth right)
    (within : SameRun first second) :
    SameRun (Value.entering opening left :: first ++ [Value.leaving kind])
      (Value.entering opening right :: second ++ [Value.leaving kind]) := by
  have body : SameRun (first ++ [Value.leaving kind]) (second ++ [Value.leaving kind]) :=
    within.append rfl
  unfold SameRun at *
  simp only [List.cons_append, runAll, run, Value.entering, body,
    MemoryWriter.perform_enter_congr same]

end WriteStep.SameRun

namespace Value

open WriteStep (SameRun)

theorem sameRun_itemSteps {items : List Value} {left right : Option Deployment}
    (parts : ∀ item ∈ items, SameRun (item.steps left) (item.steps right)) :
    SameRun (itemSteps items left) (itemSteps items right) := by
  induction items with
  | nil => rfl
  | cons item rest ih =>
      rcases List.forall_mem_cons.1 parts with ⟨itemSame, restSame⟩
      exact itemSame.append (ih restSame)

theorem sameRun_entrySteps {entries : List (Value × Value)}
    {keyLeft keyRight valueLeft valueRight : Option Deployment}
    (keys : ∀ entry ∈ entries, SameRun (entry.1.steps keyLeft) (entry.1.steps keyRight))
    (values : ∀ entry ∈ entries, SameRun (entry.2.steps valueLeft) (entry.2.steps valueRight)) :
    SameRun (entrySteps entries keyLeft valueLeft) (entrySteps entries keyRight valueRight) := by
  induction entries with
  | nil => rfl
  | cons entry rest ih =>
      rcases List.forall_mem_cons.1 keys with ⟨keySame, restKeys⟩
      rcases List.forall_mem_cons.1 values with ⟨valueSame, restValues⟩
      rw [entrySteps_cons, entrySteps_cons]
      exact (SameRun.bracket rfl (keySame.append valueSame)).append (ih restKeys restValues)

theorem sameRun_memberSteps {members : List Value} {left right : Option Deployment}
    (alike : Alike left right)
    (parts : ∀ member ∈ members, ∀ {left right : Option Deployment}, Alike left right →
      SameRun (member.steps left) (member.steps right)) (position : Nat) :
    SameRun (memberSteps members left position) (memberSteps members right position) := by
  induction members generalizing position with
  | nil => rfl
  | cons member rest ih =>
      rcases List.forall_mem_cons.1 parts with ⟨memberSame, restSame⟩
      exact (memberSame (alike.child position)).append (ih restSame (position + 1))

/-- A memory writer takes the steps of a value alike with alike deployments. -/
theorem sameRun_steps (value : Value) {left right : Option Deployment}
    (alike : Alike left right) : SameRun (value.steps left) (value.steps right) := by
  induction value generalizing left right with
  | leaf value =>
      have performed := MemoryWriter.perform_leaf_congr alike.width value
      simp only [SameRun, steps, WriteStep.runAll, WriteStep.run, performed]
  | sequence items parts =>
      apply SameRun.bracket alike.width
      exact sameRun_itemSteps fun item itemMem => parts item itemMem (alike.child 0)
  | map entries keys values =>
      apply SameRun.bracket alike.width
      apply sameRun_entrySteps
      · exact fun entry entryMem => keys entry entryMem (alike.child 0)
      · exact fun entry entryMem => values entry entryMem (alike.child 1)
  | record members parts =>
      apply SameRun.bracket alike.width
      exact sameRun_memberSteps alike parts 0
  | vacant => rfl
  | holding index value ih => exact SameRun.bracket alike.width (ih (alike.child index))

end Value

namespace MemoryReader

variable {left right : Option Deployment}

theorem takeLength_congr (same : selectedWidth left = selectedWidth right) :
    takeLength left = takeLength right := by
  unfold takeLength
  rw [LengthWidth.ofDeployment_congr same]

theorem takeLeaf_congr (same : selectedWidth left = selectedWidth right) (kind : LeafKind) :
    takeLeaf kind left = takeLeaf kind right := by
  cases kind <;> simp only [takeLeaf, takeText, takeLength_congr same]

theorem enter_congr (same : selectedWidth left = selectedWidth right) (kind : FrameKind) :
    enter kind left = enter kind right := by
  cases kind <;> simp only [enter, enterRepeated, takeLength_congr same]

end MemoryReader

/-- Programs that a memory reader runs alike, whatever its state. -/
def ReadProgram.SameRun {α : Type} (first second : ReadProgram α) : Prop :=
  (first.run : Action MemoryReader α) = second.run

namespace ReadProgram.SameRun

variable {α β : Type} {left right : Option Deployment}

theorem bind {first second : ReadProgram α} {next other : α → ReadProgram β}
    (firsts : SameRun first second) (rests : ∀ answer, SameRun (next answer) (other answer)) :
    SameRun (first >>= next) (second >>= other) := by
  unfold SameRun at *
  rw [run_bind, run_bind, firsts]
  exact bind_congr rests

theorem map {first second : ReadProgram α} (same : SameRun first second) (change : α → β) :
    SameRun (change <$> first) (change <$> second) :=
  bind same fun _ => rfl

theorem readLeaf (same : selectedWidth left = selectedWidth right) (kind : LeafKind) :
    SameRun (readLeaf kind left) (readLeaf kind right) := by
  simp only [SameRun, ReadProgram.readLeaf, run, InputStream.leaf,
    MemoryReader.takeLeaf_congr same]

theorem enterFrame (same : selectedWidth left = selectedWidth right) (kind : FrameKind) :
    SameRun (enterFrame kind left) (enterFrame kind right) := by
  simp only [SameRun, ReadProgram.enterFrame, run, InputStream.enter,
    MemoryReader.enter_congr same]

theorem repeatWhile {kind : Repetition} {item other : α → ReadProgram α}
    (items : ∀ state, SameRun (item state) (other state)) (count : Nat) (state : α) :
    SameRun (repeatWhile kind item count state) (repeatWhile kind other count state) := by
  induction count generalizing state with
  | zero => rfl
  | succ count ih =>
      refine bind (rfl : SameRun (more kind) (more kind)) fun answer => ?_
      cases answer with
      | false => rfl
      | true => exact bind (items state) ih

theorem members {types : List DataType} {declared : Declared → Option Deployment →
      ReadProgram Value} (alike : Alike left right)
    (parts : ∀ type ∈ types, ∀ {left right : Option Deployment}, Alike left right →
      SameRun (type.readWith declared left) (type.readWith declared right)) (position : Nat) :
    SameRun (DataType.readMembersWith declared types left position)
      (DataType.readMembersWith declared types right position) := by
  induction types generalizing position with
  | nil => rfl
  | cons type rest ih =>
      rcases List.forall_mem_cons.1 parts with ⟨typeSame, restSame⟩
      simp only [DataType.readMembersWith]
      refine bind (typeSame (alike.child position)) fun member => ?_
      exact map (ih restSame (position + 1)) (member :: ·)

end ReadProgram.SameRun

open ReadProgram (SameRun)

/-- A memory reader runs the program of a type alike with alike deployments, if it does so for the
declared types that occur in it. -/
theorem DataType.sameRun_readWith {declared : Declared → Option Deployment → ReadProgram Value}
    (declareds : ∀ name {left right : Option Deployment}, Alike left right →
      SameRun (declared name left) (declared name right))
    (type : DataType) {left right : Option Deployment} (alike : Alike left right) :
    SameRun (type.readWith declared left) (type.readWith declared right) := by
  induction type generalizing left right with
  | leaf kind => exact (SameRun.readLeaf alike.width kind).map Value.leaf
  | enumeration choices =>
      exact (SameRun.readLeaf alike.width (.number choices.base)).bind fun _ => rfl
  | ranged range => exact (SameRun.readLeaf alike.width (.number .int32)).bind fun _ => rfl
  | boxed content ih => exact ih alike
  | sequence item ih =>
      refine (SameRun.enterFrame alike.width .sequence).bind fun opening => ?_
      refine SameRun.bind (SameRun.repeatWhile (fun read => ?_) _ _) fun _ => rfl
      exact (ih (alike.child 0)).map (· :: read)
  | map mapOrder key value keys values =>
      refine (SameRun.enterFrame alike.width .map).bind fun opening => ?_
      refine SameRun.bind (SameRun.repeatWhile (fun read => ?_) _ _) fun _ => rfl
      refine (SameRun.enterFrame rfl .mapEntry).bind fun _ => ?_
      refine (keys (alike.child 0)).bind fun key => ?_
      exact (values (alike.child 1)).bind fun _ => rfl
  | tuple items parts =>
      refine (SameRun.enterFrame alike.width .struct).bind fun _ => ?_
      exact (SameRun.members alike parts 0).bind fun _ => rfl
  | declared name => exact declareds name alike

namespace Schema

theorem sameRun_readDeclared (schema : Schema) (allowance : Nat) (name : Declared)
    {left right : Option Deployment} (alike : Alike left right) :
    SameRun (schema.readDeclared allowance name left)
      (schema.readDeclared allowance name right) := by
  induction allowance generalizing name left right with
  | zero => rfl
  | succ allowance ih =>
      cases name with
      | record name =>
          refine (SameRun.enterFrame alike.width .struct).bind fun _ => ?_
          refine SameRun.bind (SameRun.members alike (fun type _ _ _ parts => ?_) 0) fun _ => rfl
          exact type.sameRun_readWith (fun name _ _ => ih name) parts
      | variant set =>
          refine (SameRun.enterFrame alike.width .variant).bind fun opening => ?_
          refine SameRun.bind ?_ fun _ => rfl
          unfold readAlternative
          cases (schema.alternatives set)[opening.tag]? with
          | none => rfl
          | some alternative =>
              have content := alternative.type.sameRun_readWith (fun name _ _ => ih name)
                (alike.child opening.tag)
              exact content.map (Value.holding opening.tag)

theorem sameRun_program (schema : Schema) (allowance : Nat) (type : DataType)
    {left right : Option Deployment} (alike : Alike left right) :
    SameRun (schema.program allowance type left) (schema.program allowance type right) :=
  type.sameRun_readWith (fun name _ _ => schema.sameRun_readDeclared allowance name) alike

end Schema

/-- Deployments that can stand for one another: no value is encoded and no bytes are decoded
differently with them. -/
structure Deployment.Interchangeable (left right : Option Deployment) : Prop where
  encode_eq (value : Value) (limits : Limits) : encode value left limits = encode value right limits
  decode_eq (schema : Schema) (type : DataType) (bytes : List UInt8) (limits : Limits) :
    decode schema type bytes left limits = decode schema type bytes right limits

theorem Deployment.Alike.interchangeable {left right : Option Deployment}
    (alike : Alike left right) : Deployment.Interchangeable left right where
  encode_eq value limits := by
    have same := value.sameRun_steps alike
    unfold WriteStep.SameRun at same
    unfold encode WriteStep.encode
    rw [same]
  decode_eq schema type bytes limits := by
    have same (allowance : Nat) := schema.sameRun_program allowance type alike
    unfold SameRun at same
    unfold decode Schema.read
    rw [same]

/-- Deployments influence the format through the widths of length fields alone. In particular a
deployment without hints for them is as good as none. -/
theorem only_widths_matter :
    (∀ left right, Deployment.Alike left right → Deployment.Interchangeable left right) ∧
      ∀ deployment, Deployment.Unhinted deployment →
        Deployment.Interchangeable (some deployment) none :=
  ⟨fun _ _ alike => alike.interchangeable, fun _ unhinted => unhinted.alike.interchangeable⟩

/-- A width that is no integer, a width of 4, and slots that are empty, missing or hold an empty
deployment make no difference; the width of child 1 is the same on both sides. -/
theorem only_widths_matter_sparse :
    Deployment.Interchangeable
        (some (.node [("length_width", .text "2")]
          [none, some (.node [("length_width", .integer 2)] []), some .empty]))
        (some (.node [("length_width", .integer 4), ("unit", .flag true)]
          [some .empty, some (.node [("length_width", .integer 2)] [])])) ∧
      Deployment.Interchangeable
        (some (.node [("unit", .flag true)] [none, some .empty])) none := by
  constructor
  · apply only_widths_matter.1
    refine Alike.of_children (by decide) fun index => ?_
    match index with
    | 0 => exact fun path => (Deployment.Unhinted.empty.alike path).symm
    | 1 => exact fun _ => rfl
    | 2 => exact Deployment.Unhinted.empty.alike
    | index + 3 => exact fun _ => rfl
  · apply only_widths_matter.2
    refine Deployment.Unhinted.of_children (by rfl) fun index child found => ?_
    match index with
    | 0 => cases found
    | 1 =>
        cases found
        exact Deployment.Unhinted.empty
    | index + 2 => cases found

end ValueBus
