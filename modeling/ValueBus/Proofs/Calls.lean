import ValueBus.Bytes.Utf8
import ValueBus.Limits
import ValueBus.Proofs.Layout
import ValueBus.Proofs.Order
import ValueBus.Stream.LengthField
import ValueBus.Value.Write

/-!
# What calls mean

The calls that write a value are described here once for both directions. A call has chunks, unless
no bytes can stand for it: a length that its field cannot hold, an alternative that one byte cannot
name. A call breaks a limit or it does not, which depends on the number of open frames. And a call
opens or closes a frame.

The writer and the reader check in different orders and places; that each of them does what these
three descriptions say is proved in the files on writing and reading.
-/

namespace ValueBus

theorem NumberKind.size_le (kind : NumberKind) : kind.size ≤ greatestAlignment := by
  cases kind <;> decide

theorem LengthWidth.size_le (width : LengthWidth) : width.size ≤ greatestAlignment := by
  cases width <;> decide

namespace Chunk

def number (value : Number) : Chunk :=
  ⟨value.kind.size, value.bytes, value.kind.size_le⟩

/-- The length field of a length, if the deployment selects a width that holds it. -/
def length? (length : Nat) (deployment : Option Deployment) : Option Chunk :=
  match LengthWidth.ofDeployment deployment with
  | .error _ => none
  | .ok width =>
      if length ≤ width.greatest then
        some ⟨width.size, LittleEndian.bytes width.size length, width.size_le⟩
      else
        none

end Chunk

/-- The error of a length that is over a limit; none if it is not. -/
def StreamError.overLimit? (what : LimitKind) (limit actual : Nat) : Option StreamError :=
  if actual > limit then some (.limitExceeded what limit actual) else none

theorem StreamError.overLimit?_eq_none_iff {what : LimitKind} {limit actual : Nat} :
    overLimit? what limit actual = none ↔ actual ≤ limit := by
  simp [overLimit?]

namespace WriteCall

/-- The chunks that stand for a call, if any do. -/
def chunks? : WriteCall → Option (List Chunk)
  | .leaf (.bool value) _ => some [.plain [if value then 1 else 0]]
  | .leaf (.number value) _ => some [.number value]
  | .leaf (.text value) deployment =>
      (Chunk.length? ((Utf8.encode value).length + 1) deployment).map
        ([·, .plain (Utf8.encode value ++ [0])])
  | .leaf (.bytes value) deployment =>
      (Chunk.length? value.length deployment).map ([·, .plain value])
  | .enter .struct _ => some [.boundary]
  | .enter (.polymorphic serial) _ => some [.number (.uint32 serial), .boundary]
  | .enter (.variant tag) _ => if tag ≤ 255 then some [.plain [UInt8.ofNat tag]] else none
  | .enter (.sequence length) deployment => (Chunk.length? length deployment).map ([·])
  | .enter (.map length) deployment => (Chunk.length? length deployment).map ([·])
  | .enter .mapEntry _ => some []
  | .leave _ => some []

/-- The limit on what is announced that a call breaks, if it breaks one. -/
def lengthFault? (limits : Limits) : WriteCall → Option StreamError
  | .leaf (.text value) _ =>
      StreamError.overLimit? .string limits.maxStringLength (Utf8.encode value).length
  | .leaf (.bytes value) _ =>
      StreamError.overLimit? .byteBuffer limits.maxStringLength value.length
  | .enter (.sequence length) _ | .enter (.map length) _ =>
      StreamError.overLimit? .sequence limits.maxSequenceLength length
  | _ => none

/-- The limit that a call breaks while `depth` frames are open, if it breaks one. -/
def limitFault? (limits : Limits) (depth : Nat) : WriteCall → Option StreamError
  | .enter opening deployment =>
      (lengthFault? limits (.enter opening deployment)).or
        (StreamError.overLimit? .depth limits.maxDepth (depth + 1))
  | call => lengthFault? limits call

/-- The open frames after a call; none if it closes a frame that is not innermost. -/
def framesAfter? : WriteCall → List FrameKind → Option (List FrameKind)
  | .leaf _ _, frames => some frames
  | .enter opening _, frames => some (opening.kind :: frames)
  | .leave kind, frames => if frames.head? = some kind then some frames.tail else none

def depthAfter : WriteCall → Nat → Nat
  | .leaf _ _, depth => depth
  | .enter _ _, depth => depth + 1
  | .leave _, depth => depth - 1

end WriteCall

namespace WriteStep

/-- The chunks that stand for a step; none for a step that raises an error. -/
def chunks? : WriteStep → Option (List Chunk)
  | .call request => request.chunks?
  | .raise _ => none

def chunksAll? : List WriteStep → Option (List Chunk)
  | [] => some []
  | step :: rest => step.chunks?.bind fun first => (chunksAll? rest).map (first ++ ·)

def limitFault? (limits : Limits) (depth : Nat) : WriteStep → Option StreamError
  | .call request => request.limitFault? limits depth
  | .raise _ => none

def depthAfter : WriteStep → Nat → Nat
  | .call request, depth => request.depthAfter depth
  | .raise _, depth => depth

def depthAfterAll (steps : List WriteStep) (depth : Nat) : Nat :=
  steps.foldl (fun depth step => step.depthAfter depth) depth

/-- The first limit that steps break, if they break one. -/
def limitFaultAll? (limits : Limits) : Nat → List WriteStep → Option StreamError
  | _, [] => none
  | depth, step :: rest =>
      (step.limitFault? limits depth).or (limitFaultAll? limits (step.depthAfter depth) rest)

def framesAfter? : WriteStep → List FrameKind → Option (List FrameKind)
  | .call request, frames => request.framesAfter? frames
  | .raise _, frames => some frames

/-- The open frames after steps; none if one of them closes a frame that is not innermost. -/
def framesAfterAll? : List WriteStep → List FrameKind → Option (List FrameKind)
  | [], frames => some frames
  | step :: rest, frames => (step.framesAfter? frames).bind (framesAfterAll? rest)

theorem chunksAll?_append (first second : List WriteStep) :
    chunksAll? (first ++ second) =
      (chunksAll? first).bind fun chunks => (chunksAll? second).map (chunks ++ ·) := by
  induction first with
  | nil => simp [chunksAll?]
  | cons step rest ih =>
      simp only [List.cons_append, chunksAll?, ih]
      cases step.chunks? <;> cases chunksAll? rest <;> simp [Function.comp_def]

theorem chunksAll?_cons_eq_some_iff {step : WriteStep} {rest : List WriteStep}
    {chunks : List Chunk} :
    chunksAll? (step :: rest) = some chunks ↔
      ∃ first later, step.chunks? = some first ∧ chunksAll? rest = some later ∧
        first ++ later = chunks := by
  simp only [chunksAll?, Option.bind_eq_some_iff, Option.map_eq_some_iff, exists_and_left]

theorem chunksAll?_append_eq_some_iff {first second : List WriteStep} {chunks : List Chunk} :
    chunksAll? (first ++ second) = some chunks ↔
      ∃ earlier later, chunksAll? first = some earlier ∧ chunksAll? second = some later ∧
        earlier ++ later = chunks := by
  simp only [chunksAll?_append, Option.bind_eq_some_iff, Option.map_eq_some_iff, exists_and_left]

theorem runAll_append {σ : Type} [OutputStream σ] (first second : List WriteStep) :
    (runAll (first ++ second) : Action σ Unit) = runAll first >>= fun _ => runAll second := by
  induction first with
  | nil => rfl
  | cons step rest ih => rw [List.cons_append, runAll, runAll, ih, bind_assoc]

theorem depthAfterAll_append (first second : List WriteStep) (depth : Nat) :
    depthAfterAll (first ++ second) depth = depthAfterAll second (depthAfterAll first depth) :=
  List.foldl_append

theorem limitFaultAll?_append (limits : Limits) (first second : List WriteStep) (depth : Nat) :
    limitFaultAll? limits depth (first ++ second) =
      (limitFaultAll? limits depth first).or
        (limitFaultAll? limits (depthAfterAll first depth) second) := by
  induction first generalizing depth with
  | nil => rfl
  | cons step rest ih =>
      simp only [List.cons_append, limitFaultAll?, ih, Option.or_assoc]
      rfl

theorem limitFaultAll?_append_eq_none_iff {limits : Limits} {first second : List WriteStep}
    {depth : Nat} :
    limitFaultAll? limits depth (first ++ second) = none ↔
      limitFaultAll? limits depth first = none ∧
        limitFaultAll? limits (depthAfterAll first depth) second = none := by
  simp only [limitFaultAll?_append, Option.or_eq_none_iff]

theorem framesAfterAll?_append (first second : List WriteStep) (frames : List FrameKind) :
    framesAfterAll? (first ++ second) frames =
      (framesAfterAll? first frames).bind (framesAfterAll? second) := by
  induction first generalizing frames with
  | nil => rfl
  | cons step rest ih =>
      simp only [List.cons_append, framesAfterAll?, Option.bind_assoc]
      exact congrArg _ (funext ih)

theorem depthAfter_of_framesAfter? {step : WriteStep} {frames after : List FrameKind}
    (framed : step.framesAfter? frames = some after) :
    step.depthAfter frames.length = after.length := by
  cases step with
  | raise error => cases framed; rfl
  | call request =>
      cases request with
      | leaf value deployment => cases framed; rfl
      | enter opening deployment => cases framed; rfl
      | leave kind =>
          simp only [framesAfter?, WriteCall.framesAfter?, Option.ite_none_right_eq_some,
            Option.some.injEq] at framed
          rw [← framed.2, List.length_tail]
          rfl

/-- The open frames are as many as the steps leave open. -/
theorem depthAfterAll_of_framesAfterAll? {steps : List WriteStep} {frames after : List FrameKind}
    (framed : framesAfterAll? steps frames = some after) :
    depthAfterAll steps frames.length = after.length := by
  induction steps generalizing frames with
  | nil => cases framed; rfl
  | cons step rest ih =>
      rcases Option.bind_eq_some_iff.1 framed with ⟨middle, first, restFramed⟩
      rw [← ih restFramed, ← depthAfter_of_framesAfter? first]
      rfl

theorem limitFaultAll?_eq_some {limits : Limits} {depth : Nat} {steps : List WriteStep}
    {fault : StreamError} (broken : limitFaultAll? limits depth steps = some fault) :
    ∃ what limit actual, fault = .limitExceeded what limit actual := by
  have exceeds {what : LimitKind} {limit actual : Nat}
      (broken : StreamError.overLimit? what limit actual = some fault) :
      ∃ what limit actual, fault = .limitExceeded what limit actual := by
    simp only [StreamError.overLimit?, Option.ite_none_right_eq_some, Option.some.injEq] at broken
    exact ⟨what, limit, actual, broken.2.symm⟩
  have announced {call : WriteCall} (broken : call.lengthFault? limits = some fault) :
      ∃ what limit actual, fault = .limitExceeded what limit actual := by
    unfold WriteCall.lengthFault? at broken
    split at broken <;> first | exact exceeds broken | cases broken
  induction steps generalizing depth with
  | nil => cases broken
  | cons step rest ih =>
      rcases Option.or_eq_some_iff.1 broken with broken | ⟨_, broken⟩
      · cases step with
        | raise error => cases broken
        | call request =>
            cases request with
            | leaf value deployment => exact announced broken
            | enter opening deployment =>
                rcases Option.or_eq_some_iff.1 broken with broken | ⟨_, broken⟩
                · exact announced broken
                · exact exceeds broken
            | leave kind => cases broken
      · exact ih broken

/-- Steps are balanced if they close the frames that they open and no others. -/
def Balanced (steps : List WriteStep) : Prop :=
  ∀ frames, framesAfterAll? steps frames = some frames

theorem Balanced.append {first second : List WriteStep} (firstBalanced : Balanced first)
    (secondBalanced : Balanced second) : Balanced (first ++ second) := by
  intro frames
  rw [framesAfterAll?_append, firstBalanced frames]
  exact secondBalanced frames

theorem Balanced.depthAfterAll_eq {steps : List WriteStep} (balanced : Balanced steps)
    (depth : Nat) : depthAfterAll steps depth = depth := by
  have counted := depthAfterAll_of_framesAfterAll? (balanced (List.replicate depth .struct))
  simpa using counted

end WriteStep

namespace Value

open WriteStep

theorem balanced_bracketed {opening : Opening} {deployment : Option Deployment}
    {body : List WriteStep} (balanced : Balanced body) :
    Balanced (entering opening deployment :: body ++ [leaving opening.kind]) := by
  intro frames
  have entered : framesAfterAll? [entering opening deployment] frames =
    some (opening.kind :: frames) := rfl
  have left : framesAfterAll? [leaving opening.kind] (opening.kind :: frames) = some frames := by
    simp [framesAfterAll?, framesAfter?, leaving, WriteCall.framesAfter?]
  rw [← List.singleton_append, List.append_assoc, framesAfterAll?_append, entered,
    Option.bind_some, framesAfterAll?_append, balanced, Option.bind_some, left]

theorem itemSteps_append (first second : List Value) (deployment : Option Deployment) :
    itemSteps (first ++ second) deployment =
      itemSteps first deployment ++ itemSteps second deployment := by
  induction first with
  | nil => rfl
  | cons item rest ih => rw [List.cons_append, itemSteps, itemSteps, ih, List.append_assoc]

/-- An entry is written between its own brackets, and then the others. -/
theorem entrySteps_cons (entry : Value × Value) (rest : List (Value × Value))
    (keyDeployment valueDeployment : Option Deployment) :
    entrySteps (entry :: rest) keyDeployment valueDeployment =
      (entering .mapEntry none ::
        (entry.1.steps keyDeployment ++ entry.2.steps valueDeployment) ++ [leaving .mapEntry]) ++
          entrySteps rest keyDeployment valueDeployment := by
  simp [entrySteps]

theorem entrySteps_append (first second : List (Value × Value))
    (keyDeployment valueDeployment : Option Deployment) :
    entrySteps (first ++ second) keyDeployment valueDeployment =
      entrySteps first keyDeployment valueDeployment ++
        entrySteps second keyDeployment valueDeployment := by
  induction first with
  | nil => rfl
  | cons entry rest ih =>
      simp only [List.cons_append, entrySteps_cons, ih, List.append_assoc]

/-- What holds of no steps and is kept when steps follow one another and when they are put between
the brackets of a frame. -/
structure Composable (holds : List WriteStep → Prop) : Prop where
  nil : holds []
  append : ∀ {first second : List WriteStep}, holds first → holds second → holds (first ++ second)
  bracketed : ∀ {opening : Opening} {deployment : Option Deployment} {body : List WriteStep},
    holds body → holds (entering opening deployment :: body ++ [leaving opening.kind])

namespace Composable

variable {holds : List WriteStep → Prop}

theorem itemSteps (composable : Composable holds) {items : List Value}
    (parts : ∀ item ∈ items, ∀ deployment, holds (item.steps deployment))
    (deployment : Option Deployment) : holds (Value.itemSteps items deployment) := by
  induction items with
  | nil => exact composable.nil
  | cons item rest ih =>
      rcases List.forall_mem_cons.1 parts with ⟨itemHolds, restHolds⟩
      exact composable.append (itemHolds deployment) (ih restHolds)

theorem memberSteps (composable : Composable holds) {members : List Value}
    (parts : ∀ member ∈ members, ∀ deployment, holds (member.steps deployment))
    (deployment : Option Deployment) (position : Nat) :
    holds (Value.memberSteps members deployment position) := by
  induction members generalizing position with
  | nil => exact composable.nil
  | cons member rest ih =>
      rcases List.forall_mem_cons.1 parts with ⟨memberHolds, restHolds⟩
      exact composable.append (memberHolds _) (ih restHolds _)

theorem entrySteps (composable : Composable holds) {entries : List (Value × Value)}
    (keys : ∀ entry ∈ entries, ∀ deployment, holds (entry.1.steps deployment))
    (values : ∀ entry ∈ entries, ∀ deployment, holds (entry.2.steps deployment))
    (keyDeployment valueDeployment : Option Deployment) :
    holds (Value.entrySteps entries keyDeployment valueDeployment) := by
  induction entries with
  | nil => exact composable.nil
  | cons entry rest ih =>
      rcases List.forall_mem_cons.1 keys with ⟨keyHolds, restKeys⟩
      rcases List.forall_mem_cons.1 values with ⟨valueHolds, restValues⟩
      have body := composable.append (keyHolds keyDeployment) (valueHolds valueDeployment)
      rw [entrySteps_cons]
      exact composable.append (composable.bracketed body) (ih restKeys restValues)

/-- What is composable and holds of the steps that stand alone holds of the steps of every value. -/
theorem steps (composable : Composable holds)
    (leaf : ∀ value deployment, holds [.call (.leaf value deployment)])
    (vacant : holds [.raise .emptyVariant]) (value : Value) (deployment : Option Deployment) :
    holds (value.steps deployment) := by
  induction value generalizing deployment with
  | leaf value => exact leaf value deployment
  | sequence items parts => exact composable.bracketed (composable.itemSteps parts _)
  | map entries keys values => exact composable.bracketed (composable.entrySteps keys values _ _)
  | record members parts => exact composable.bracketed (composable.memberSteps parts _ _)
  | vacant => exact vacant
  | holding index value ih => exact composable.bracketed (ih _)

end Composable

theorem composable_balanced : Composable Balanced where
  nil _ := rfl
  append := Balanced.append
  bracketed := balanced_bracketed

/-- Writing a value closes the frames that it opens and no others. -/
theorem balanced_steps (value : Value) (deployment : Option Deployment) :
    Balanced (value.steps deployment) :=
  composable_balanced.steps (fun _ _ _ => rfl) (fun _ => rfl) value deployment

end Value

end ValueBus
