import ValueBus.Proofs.Calls
import ValueBus.Proofs.Conforming

/-!
# Transcripts of what was written

A recording stream keeps the calls of a writing in one flat list, and the optional brackets are not
among them. The list still tells how the value is to be read: with the same leaves and brackets, and
before each item of a sequence or map the question whether another one follows. To find the places
of these questions, a transcription goes through the calls once, and keeps in mind where the next
value stands.

A value is transcribed to the same exchanges wherever it stands, which is what makes the transcript
of a composite value the transcripts of its parts, one after the other.
-/

namespace ValueBus

open Deployment (childOf)

/-- A question to an input stream, with the token that answers it if it takes one. -/
structure Exchange where
  question : Question
  token : Option Answer

/-- The token that tells what a frame that is entered announces. -/
def Opening.token : Opening → Option Answer
  | .polymorphic serial => some (.opening (.polymorphic serial))
  | .variant tag => some (.opening (.variant tag))
  | _ => none

/-- The question that reads what a call writes, at the same deployment. -/
def WriteCall.exchange : WriteCall → Exchange
  | .leaf value deployment => ⟨.leaf value.kind deployment, some (.leaf value)⟩
  | .enter opening deployment => ⟨.enter opening.kind deployment, opening.token⟩
  | .leave kind => ⟨.leave kind, none⟩

/-- The question whether another item follows. -/
def Exchange.more (kind : Repetition) (answer : Bool) : Exchange :=
  ⟨.hasMore kind, some (.more answer)⟩

def Question.isMore : Question → Bool
  | .hasMore _ => true
  | _ => false

@[simp]
theorem WriteCall.isMore_exchange (call : WriteCall) : call.exchange.question.isMore = false := by
  cases call <;> rfl

/-- Where the next value stands: among the members of a struct, as what a variant holds, or as an
item, a key or the value of an entry. -/
inductive Place where
  | member
  | content
  | item
  | key
  | entryValue

namespace Place

/-- The place of the first value inside a frame. -/
def inside : Opening → Place
  | .sequence _ => .item
  | .map _ => .key
  | .variant _ => .content
  | _ => .member

/-- What is asked before the value that stands at the innermost place. -/
def announce : List Place → List Exchange
  | .item :: _ => [.more .sequence true]
  | .key :: _ => [.more .map true]
  | _ => []

/-- What is asked before the innermost frame is left. -/
def conclude : List Place → List Exchange
  | .item :: _ => [.more .sequence false]
  | .key :: _ => [.more .map false]
  | _ => []

/-- The place of the value after the one that stands at the innermost place. A variant holds no
other value. -/
def advance : List Place → List Place
  | .content :: outer => outer
  | .key :: outer => .entryValue :: outer
  | .entryValue :: outer => .key :: outer
  | places => places

end Place

open Place (announce conclude advance)

/-- The exchanges that read back what calls have written, from the places of the next values. -/
def transcribe : List Place → List WriteCall → List Exchange
  | _, [] => []
  | places, .leaf value deployment :: rest =>
      announce places ++
        (WriteCall.leaf value deployment).exchange :: transcribe (advance places) rest
  | places, .enter opening deployment :: rest =>
      announce places ++
        (WriteCall.enter opening deployment).exchange ::
          transcribe (.inside opening :: advance places) rest
  | places, .leave kind :: rest =>
      conclude places ++ (WriteCall.leave kind).exchange :: transcribe places.tail rest

/-- Without the questions for another item, the exchanges are those of the calls. -/
theorem exchanges_of_transcribe (places : List Place) (calls : List WriteCall) :
    (transcribe places calls).filter (fun exchange => !exchange.question.isMore) =
      calls.map WriteCall.exchange := by
  have announced (places : List Place) :
      (announce places).filter (fun exchange => !exchange.question.isMore) = [] := by
    unfold announce
    split <;> rfl
  have concluded (places : List Place) :
      (conclude places).filter (fun exchange => !exchange.question.isMore) = [] := by
    unfold conclude
    split <;> rfl
  induction calls generalizing places with
  | nil => rfl
  | cons call rest ih =>
      cases call with
      | leaf value deployment => simp [transcribe, announced, ih]
      | enter opening deployment => simp [transcribe, announced, ih]
      | leave kind => simp [transcribe, concluded, ih]

namespace Value

/-- A value without a vacant variant. -/
inductive Filled : Value → Prop where
  | leaf (value : Leaf) : Filled (.leaf value)
  | sequence {items : List Value} : (∀ item ∈ items, Filled item) → Filled (.sequence items)
  | map {entries : List (Value × Value)} :
      (∀ entry ∈ entries, Filled entry.1) → (∀ entry ∈ entries, Filled entry.2) →
      Filled (.map entries)
  | record {members : List Value} : (∀ member ∈ members, Filled member) → Filled (.record members)
  | holding {index : Nat} {value : Value} : Filled value → Filled (.holding index value)

end Value

/-- The call of a step, if it is a required one. -/
def WriteStep.required? : WriteStep → Option WriteCall
  | .call request => if request.isRequired then some request else none
  | .raise _ => none

/-- The required calls among steps. -/
def WriteStep.calls (steps : List WriteStep) : List WriteCall :=
  steps.filterMap required?

@[simp]
theorem WriteStep.calls_nil : calls [] = [] :=
  rfl

@[simp]
theorem WriteStep.calls_append (first second : List WriteStep) :
    calls (first ++ second) = calls first ++ calls second :=
  List.filterMap_append

theorem WriteStep.calls_call (request : WriteCall) (rest : List WriteStep) :
    calls (.call request :: rest) =
      if request.isRequired then request :: calls rest else calls rest := by
  cases required : request.isRequired <;> simp [calls, required?, required]

@[simp]
theorem WriteStep.calls_entering (opening : Opening) (deployment : Option Deployment)
    (rest : List WriteStep) : calls (Value.entering opening deployment :: rest) =
      if (WriteCall.enter opening deployment).isRequired then
        .enter opening deployment :: calls rest
      else calls rest :=
  calls_call _ rest

@[simp]
theorem WriteStep.calls_leaving (kind : FrameKind) (rest : List WriteStep) :
    calls (Value.leaving kind :: rest) =
      if (WriteCall.leave kind).isRequired then .leave kind :: calls rest else calls rest :=
  calls_call _ rest

/-- No step raises an error. -/
def WriteStep.CallsOnly (steps : List WriteStep) : Prop :=
  ∀ step ∈ steps, ∃ request, step = .call request

/-- Steps write one value, and its transcript is the same wherever the value stands. -/
def Transcribes (steps : List WriteStep) (script : List Exchange) : Prop :=
  ∀ places rest, transcribe places (WriteStep.calls steps ++ rest) =
    announce places ++ (script ++ transcribe (advance places) rest)

namespace Value

variable {deployment : Option Deployment}

/-- What is asked to read a value back. -/
def dialogue (value : Value) (deployment : Option Deployment) : List Exchange :=
  transcribe [] (WriteStep.calls (value.steps deployment))

theorem dialogue_eq {value : Value} {script : List Exchange}
    (transcribes : Transcribes (value.steps deployment) script) :
    value.dialogue deployment = script := by
  simpa [announce, advance, transcribe, dialogue] using transcribes [] []

def itemDialogue (items : List Value) (deployment : Option Deployment) : List Exchange :=
  items.flatMap fun item => .more .sequence true :: item.dialogue deployment

def entryDialogue (entries : List (Value × Value))
    (keyDeployment valueDeployment : Option Deployment) : List Exchange :=
  entries.flatMap fun entry =>
    .more .map true :: (entry.1.dialogue keyDeployment ++ entry.2.dialogue valueDeployment)

def memberDialogue : List Value → Option Deployment → Nat → List Exchange
  | [], _, _ => []
  | member :: rest, deployment, position =>
      member.dialogue (childOf deployment position) ++
        memberDialogue rest deployment (position + 1)

open WriteStep (calls)

theorem transcribe_items {items : List Value}
    (parts : ∀ item ∈ items, ∀ deployment,
      Transcribes (item.steps deployment) (item.dialogue deployment))
    (deployment : Option Deployment) (outer : List Place) (rest : List WriteCall) :
    transcribe (.item :: outer) (calls (itemSteps items deployment) ++ rest) =
      itemDialogue items deployment ++ transcribe (.item :: outer) rest := by
  induction items with
  | nil => rfl
  | cons item items ih =>
      rcases List.forall_mem_cons.1 parts with ⟨itemTranscribes, itemsTranscribe⟩
      have itemEq := itemTranscribes deployment (.item :: outer)
        (calls (itemSteps items deployment) ++ rest)
      simp only [announce, advance, ih itemsTranscribe] at itemEq
      simpa [itemSteps, itemDialogue] using itemEq

theorem transcribe_entries {entries : List (Value × Value)}
    (keys : ∀ entry ∈ entries, ∀ deployment,
      Transcribes (entry.1.steps deployment) (entry.1.dialogue deployment))
    (values : ∀ entry ∈ entries, ∀ deployment,
      Transcribes (entry.2.steps deployment) (entry.2.dialogue deployment))
    (keyDeployment valueDeployment : Option Deployment) (outer : List Place)
    (rest : List WriteCall) :
    transcribe (.key :: outer) (calls (entrySteps entries keyDeployment valueDeployment) ++ rest) =
      entryDialogue entries keyDeployment valueDeployment ++ transcribe (.key :: outer) rest := by
  induction entries with
  | nil => rfl
  | cons entry entries ih =>
      rcases List.forall_mem_cons.1 keys with ⟨keyTranscribes, keysTranscribe⟩
      rcases List.forall_mem_cons.1 values with ⟨valueTranscribes, valuesTranscribe⟩
      have later := ih keysTranscribe valuesTranscribe
      have valueEq := valueTranscribes valueDeployment (.entryValue :: outer)
        (calls (entrySteps entries keyDeployment valueDeployment) ++ rest)
      have keyEq := keyTranscribes keyDeployment (.key :: outer)
        (calls (entry.2.steps valueDeployment) ++
          (calls (entrySteps entries keyDeployment valueDeployment) ++ rest))
      simp only [announce, advance, later] at valueEq
      simp only [announce, advance, valueEq] at keyEq
      simpa [entrySteps_cons, entryDialogue, WriteCall.isRequired] using keyEq

theorem transcribe_members {members : List Value}
    (parts : ∀ member ∈ members, ∀ deployment,
      Transcribes (member.steps deployment) (member.dialogue deployment))
    (deployment : Option Deployment) (position : Nat) (outer : List Place)
    (rest : List WriteCall) :
    transcribe (.member :: outer) (calls (memberSteps members deployment position) ++ rest) =
      memberDialogue members deployment position ++ transcribe (.member :: outer) rest := by
  induction members generalizing position with
  | nil => rfl
  | cons member members ih =>
      rcases List.forall_mem_cons.1 parts with ⟨memberTranscribes, membersTranscribe⟩
      have memberEq := memberTranscribes (childOf deployment position) (.member :: outer)
        (calls (memberSteps members deployment (position + 1)) ++ rest)
      simp only [announce, advance, ih membersTranscribe] at memberEq
      simpa [memberSteps, memberDialogue] using memberEq

theorem transcribes_leaf (value : Leaf) (deployment : Option Deployment) :
    Transcribes (steps (.leaf value) deployment) [(WriteCall.leaf value deployment).exchange] := by
  intro places rest
  simp [steps, WriteStep.calls_call, WriteCall.isRequired, transcribe]

theorem transcribes_sequence {items : List Value}
    (parts : ∀ item ∈ items, ∀ deployment,
      Transcribes (item.steps deployment) (item.dialogue deployment))
    (deployment : Option Deployment) :
    Transcribes (steps (.sequence items) deployment)
      ((WriteCall.enter (.sequence items.length) deployment).exchange ::
        (itemDialogue items (childOf deployment 0) ++
          [.more .sequence false, (WriteCall.leave .sequence).exchange])) := by
  intro places rest
  simp [steps, WriteCall.isRequired, transcribe, Place.inside, conclude,
    transcribe_items parts]

theorem transcribes_map {entries : List (Value × Value)}
    (keys : ∀ entry ∈ entries, ∀ deployment,
      Transcribes (entry.1.steps deployment) (entry.1.dialogue deployment))
    (values : ∀ entry ∈ entries, ∀ deployment,
      Transcribes (entry.2.steps deployment) (entry.2.dialogue deployment))
    (deployment : Option Deployment) :
    Transcribes (steps (.map entries) deployment)
      ((WriteCall.enter (.map entries.length) deployment).exchange ::
        (entryDialogue entries (childOf deployment 0) (childOf deployment 1) ++
          [.more .map false, (WriteCall.leave .map).exchange])) := by
  intro places rest
  simp [steps, WriteCall.isRequired, transcribe, Place.inside, conclude,
    transcribe_entries keys values]

theorem transcribes_record {members : List Value}
    (parts : ∀ member ∈ members, ∀ deployment,
      Transcribes (member.steps deployment) (member.dialogue deployment))
    (deployment : Option Deployment) :
    Transcribes (steps (.record members) deployment)
      ((WriteCall.enter .struct deployment).exchange ::
        (memberDialogue members deployment 0 ++ [(WriteCall.leave .struct).exchange])) := by
  intro places rest
  simp [steps, WriteCall.isRequired, transcribe, Place.inside, conclude,
    transcribe_members parts]

theorem transcribes_holding {index : Nat} {value : Value}
    (transcribes : ∀ deployment, Transcribes (value.steps deployment) (value.dialogue deployment))
    (deployment : Option Deployment) :
    Transcribes (steps (.holding index value) deployment)
      ((WriteCall.enter (.variant index) deployment).exchange ::
        value.dialogue (childOf deployment index)) := by
  intro places rest
  have content : transcribe (.content :: advance places)
      (calls (value.steps (childOf deployment index)) ++ rest) =
        value.dialogue (childOf deployment index) ++ transcribe (advance places) rest :=
    transcribes (childOf deployment index) (.content :: advance places) rest
  simpa [steps, WriteCall.isRequired, transcribe, Place.inside] using content

/-- A filled value is transcribed to its dialogue. -/
theorem Filled.transcribes {value : Value} (filled : value.Filled)
    (deployment : Option Deployment) :
    Transcribes (value.steps deployment) (value.dialogue deployment) := by
  induction filled generalizing deployment with
  | leaf value =>
      rw [dialogue_eq (transcribes_leaf value deployment)]
      exact transcribes_leaf value deployment
  | sequence _ parts =>
      rw [dialogue_eq (transcribes_sequence parts deployment)]
      exact transcribes_sequence parts deployment
  | map _ _ keys values =>
      rw [dialogue_eq (transcribes_map keys values deployment)]
      exact transcribes_map keys values deployment
  | record _ parts =>
      rw [dialogue_eq (transcribes_record parts deployment)]
      exact transcribes_record parts deployment
  | holding _ transcribes =>
      rw [dialogue_eq (transcribes_holding transcribes deployment)]
      exact transcribes_holding transcribes deployment

section Dialogues

variable (deployment : Option Deployment)

theorem dialogue_leaf (value : Leaf) :
    (Value.leaf value).dialogue deployment = [(WriteCall.leaf value deployment).exchange] :=
  dialogue_eq (transcribes_leaf value deployment)

theorem dialogue_sequence {items : List Value} (filled : ∀ item ∈ items, item.Filled) :
    (Value.sequence items).dialogue deployment =
      (WriteCall.enter (.sequence items.length) deployment).exchange ::
        (itemDialogue items (childOf deployment 0) ++
          [.more .sequence false, (WriteCall.leave .sequence).exchange]) :=
  dialogue_eq (transcribes_sequence (fun item itemMem => (filled item itemMem).transcribes)
    deployment)

theorem dialogue_map {entries : List (Value × Value)}
    (keysFilled : ∀ entry ∈ entries, entry.1.Filled)
    (valuesFilled : ∀ entry ∈ entries, entry.2.Filled) :
    (Value.map entries).dialogue deployment =
      (WriteCall.enter (.map entries.length) deployment).exchange ::
        (entryDialogue entries (childOf deployment 0) (childOf deployment 1) ++
          [.more .map false, (WriteCall.leave .map).exchange]) :=
  dialogue_eq (transcribes_map (fun entry entryMem => (keysFilled entry entryMem).transcribes)
    (fun entry entryMem => (valuesFilled entry entryMem).transcribes) deployment)

theorem dialogue_record {members : List Value} (filled : ∀ member ∈ members, member.Filled) :
    (Value.record members).dialogue deployment =
      (WriteCall.enter .struct deployment).exchange ::
        (memberDialogue members deployment 0 ++ [(WriteCall.leave .struct).exchange]) :=
  dialogue_eq (transcribes_record (fun member memberMem => (filled member memberMem).transcribes)
    deployment)

theorem dialogue_holding {index : Nat} {value : Value} (filled : value.Filled) :
    (Value.holding index value).dialogue deployment =
      (WriteCall.enter (.variant index) deployment).exchange ::
        value.dialogue (childOf deployment index) :=
  dialogue_eq (transcribes_holding filled.transcribes deployment)

end Dialogues

open WriteStep (CallsOnly)

theorem callsOnly_bracketed {opening : Opening} {kind : FrameKind} {body : List WriteStep}
    (only : CallsOnly body) :
    CallsOnly (entering opening deployment :: body ++ [leaving kind]) := by
  intro step stepMem
  simp only [List.cons_append, List.mem_cons, List.mem_append, List.not_mem_nil, or_false]
    at stepMem
  rcases stepMem with rfl | stepMem | rfl
  · exact ⟨_, rfl⟩
  · exact only step stepMem
  · exact ⟨_, rfl⟩

theorem callsOnly_itemSteps {items : List Value}
    (parts : ∀ item ∈ items, ∀ deployment, CallsOnly (item.steps deployment))
    (deployment : Option Deployment) : CallsOnly (itemSteps items deployment) := by
  induction items with
  | nil => simp [itemSteps, CallsOnly]
  | cons item items ih =>
      rcases List.forall_mem_cons.1 parts with ⟨itemOnly, itemsOnly⟩
      exact List.forall_mem_append.2 ⟨itemOnly deployment, ih itemsOnly⟩

theorem callsOnly_entrySteps {entries : List (Value × Value)}
    (keys : ∀ entry ∈ entries, ∀ deployment, CallsOnly (entry.1.steps deployment))
    (values : ∀ entry ∈ entries, ∀ deployment, CallsOnly (entry.2.steps deployment))
    (keyDeployment valueDeployment : Option Deployment) :
    CallsOnly (entrySteps entries keyDeployment valueDeployment) := by
  induction entries with
  | nil => simp [entrySteps, CallsOnly]
  | cons entry entries ih =>
      rcases List.forall_mem_cons.1 keys with ⟨keyOnly, keysOnly⟩
      rcases List.forall_mem_cons.1 values with ⟨valueOnly, valuesOnly⟩
      have body := List.forall_mem_append.2 ⟨keyOnly keyDeployment, valueOnly valueDeployment⟩
      rw [entrySteps_cons]
      exact List.forall_mem_append.2 ⟨callsOnly_bracketed body, ih keysOnly valuesOnly⟩

theorem callsOnly_memberSteps {members : List Value}
    (parts : ∀ member ∈ members, ∀ deployment, CallsOnly (member.steps deployment))
    (deployment : Option Deployment) (position : Nat) :
    CallsOnly (memberSteps members deployment position) := by
  induction members generalizing position with
  | nil => simp [memberSteps, CallsOnly]
  | cons member members ih =>
      rcases List.forall_mem_cons.1 parts with ⟨memberOnly, membersOnly⟩
      exact List.forall_mem_append.2 ⟨memberOnly _, ih membersOnly (position + 1)⟩

/-- Only a vacant variant raises an error. -/
theorem Filled.callsOnly {value : Value} (filled : value.Filled)
    (deployment : Option Deployment) : CallsOnly (value.steps deployment) := by
  induction filled generalizing deployment with
  | leaf value => simp [steps, CallsOnly]
  | sequence _ parts => exact callsOnly_bracketed (callsOnly_itemSteps parts _)
  | map _ _ keys values => exact callsOnly_bracketed (callsOnly_entrySteps keys values _ _)
  | record _ parts => exact callsOnly_bracketed (callsOnly_memberSteps parts _ _)
  | holding _ only => exact callsOnly_bracketed (only _)

end Value

namespace RecordingWriter

variable {writer : RecordingWriter}

theorem perform_of_required {request : WriteCall} (required : request.isRequired = true)
    (healthy : writer.failAt = none) (unlatched : writer.error = none) :
    OutputStream.perform request writer =
      .ok () { writer with calls := writer.calls ++ [request] } := by
  have performed : OutputStream.perform request writer =
      (Latch.check >>= fun _ => if request.isRequired then note request else pure ()) writer := rfl
  have noted : note request writer =
      (if writer.failAt = some writer.calls.length then
        Latch.raise (.writeFailed writer.calls.length (.described "injected")) else pure ())
          { writer with calls := writer.calls ++ [request] } := rfl
  rw [performed, Action.bind_of_ok (Action.check_of_unlatched unlatched), if_pos required, noted,
    if_neg (by simp [healthy])]
  rfl

theorem perform_of_optional {request : WriteCall} (optional : request.isRequired = false)
    (unlatched : writer.error = none) : OutputStream.perform request writer = .ok () writer := by
  rw [ConformingOutputStream.perform_of_optional request optional]
  exact Action.check_of_unlatched unlatched

/-- A writer that is not told to fail notes the required calls. -/
theorem runAll_eq {steps : List WriteStep} (only : WriteStep.CallsOnly steps)
    (healthy : writer.failAt = none) (unlatched : writer.error = none) :
    WriteStep.runAll steps writer =
      .ok () { writer with calls := writer.calls ++ WriteStep.calls steps } := by
  induction steps generalizing writer with
  | nil => simp [WriteStep.runAll]
  | cons step rest ih =>
      rcases List.forall_mem_cons.1 only with ⟨⟨request, rfl⟩, restOnly⟩
      cases required : request.isRequired with
      | true =>
          have performed := perform_of_required required healthy unlatched
          have later : WriteStep.runAll rest { writer with calls := writer.calls ++ [request] } =
              .ok () { writer with
                calls := writer.calls ++ [request] ++ WriteStep.calls rest } :=
            ih restOnly healthy unlatched
          rw [WriteStep.calls_call, if_pos required, List.append_cons]
          exact (Action.bind_of_ok performed).trans later
      | false =>
          have performed := perform_of_optional required unlatched
          rw [WriteStep.calls_call, required]
          exact (Action.bind_of_ok performed).trans (ih restOnly healthy unlatched)

end RecordingWriter

/-- Writing a filled value to a fresh recording writer notes its required calls. -/
theorem Value.Filled.write_eq {value : Value} (filled : value.Filled)
    (deployment : Option Deployment) :
    value.write deployment ({} : RecordingWriter) =
      .ok () { calls := WriteStep.calls (value.steps deployment) } :=
  RecordingWriter.runAll_eq (filled.callsOnly deployment) rfl rfl

end ValueBus
