import Mathlib.Data.List.Induction
import ValueBus.Proofs.Encodable
import ValueBus.Proofs.Replaying

/-!
# Brackets

Of the calls on a stream, those that enter and leave a frame are its brackets. A word of brackets is
nested if every frame in it is left as the kind that was entered, the inner frames before the outer
ones. The frames that a word leaves open stand between nested words.

The memory writer keeps a stack of kinds and knows nothing of words. It is shown here that, as long
as nothing else is wrong with the calls, it accepts the nested words and no others, and that it finds
fault with the first bracket that cannot be continued to a nested word.
-/

namespace ValueBus

/-- One end of a frame. -/
inductive Bracket where
  | entered (kind : FrameKind)
  | left (kind : FrameKind)
  deriving DecidableEq, Repr

/-- Words in which every frame is left as what it was entered, and after the frames inside it. -/
inductive Nested : List Bracket → Prop where
  | nil : Nested []
  | frame {kind : FrameKind} {inside rest : List Bracket} :
      Nested inside → Nested rest → Nested (.entered kind :: inside ++ .left kind :: rest)

/-- Words that leave the given frames open, the innermost first, and are nested otherwise. -/
inductive LeavesOpen : List FrameKind → List Bracket → Prop where
  | nested {word : List Bracket} : Nested word → LeavesOpen [] word
  | entered {kind : FrameKind} {kinds : List FrameKind} {word inside : List Bracket} :
      LeavesOpen kinds word → Nested inside →
      LeavesOpen (kind :: kinds) (word ++ .entered kind :: inside)

theorem leavesOpen_nil_iff {word : List Bracket} : LeavesOpen [] word ↔ Nested word := by
  constructor
  · rintro (nested | _)
    exact nested
  · exact .nested

theorem Nested.append {first second : List Bracket} (nested : Nested first)
    (secondNested : Nested second) : Nested (first ++ second) := by
  induction nested with
  | nil => exact secondNested
  | frame insideNested _ _ ih =>
      simp only [List.cons_append, List.append_assoc]
      exact .frame insideNested ih

theorem LeavesOpen.append {kinds : List FrameKind} {first second : List Bracket}
    (openAfter : LeavesOpen kinds first) (nested : Nested second) :
    LeavesOpen kinds (first ++ second) := by
  cases openAfter with
  | nested firstNested => exact .nested (firstNested.append nested)
  | entered outer insideNested =>
      rw [List.append_assoc, List.cons_append]
      exact .entered outer (insideNested.append nested)

theorem LeavesOpen.length_le {kinds : List FrameKind} {word : List Bracket}
    (opened : LeavesOpen kinds word) : kinds.length ≤ word.length := by
  induction opened with
  | nested _ => exact Nat.zero_le _
  | entered _ _ ih =>
      simp only [List.length_cons, List.length_append]
      omega

/-- The open frames after a word, given those before; none if the word leaves a frame that is not
innermost. -/
def openAfter? : List Bracket → List FrameKind → Option (List FrameKind)
  | [], kinds => some kinds
  | .entered kind :: rest, kinds => openAfter? rest (kind :: kinds)
  | .left kind :: rest, kinds => if kinds.head? = some kind then openAfter? rest kinds.tail else none

theorem openAfter?_append (first second : List Bracket) (kinds : List FrameKind) :
    openAfter? (first ++ second) kinds = (openAfter? first kinds).bind (openAfter? second) := by
  induction first generalizing kinds with
  | nil => rfl
  | cons bracket rest ih =>
      cases bracket with
      | entered kind => exact ih _
      | left kind =>
          simp only [List.cons_append, openAfter?]
          split
          · exact ih _
          · rfl

/-- A nested word changes nothing, whatever frames are open around it. -/
theorem Nested.openAfter?_eq {word : List Bracket} (nested : Nested word)
    (kinds : List FrameKind) : openAfter? word kinds = some kinds := by
  induction nested generalizing kinds with
  | nil => rfl
  | frame _ _ insideIh restIh =>
      simp only [List.cons_append, openAfter?, openAfter?_append, insideIh, Option.bind_some,
        List.head?_cons, if_true, List.tail_cons, restIh]

/-- The frames that a word leaves open are found by keeping a stack. -/
theorem leavesOpen_iff {kinds : List FrameKind} {word : List Bracket} :
    LeavesOpen kinds word ↔ openAfter? word [] = some kinds := by
  constructor
  · intro openAfter
    induction openAfter with
    | nested nested => exact nested.openAfter?_eq []
    | entered _ nested ih =>
        rw [openAfter?_append, ih, Option.bind_some, openAfter?, nested.openAfter?_eq]
  · intro stacked
    induction word using List.reverseRecOn generalizing kinds with
    | nil =>
        cases stacked
        exact .nested .nil
    | append_singleton word bracket ih =>
        rw [openAfter?_append] at stacked
        rcases Option.bind_eq_some_iff.1 stacked with ⟨before, wordStacked, stacked⟩
        have openBefore := ih wordStacked
        cases bracket with
        | entered kind =>
            cases stacked
            exact .entered openBefore .nil
        | left kind =>
            simp only [openAfter?, Option.ite_none_right_eq_some, Option.some.injEq] at stacked
            rcases stacked with ⟨innermost, rfl⟩
            -- The word ends with the innermost frame and what is nested in it, which is now left.
            cases openBefore with
            | nested _ => cases innermost
            | entered outer nested =>
                cases innermost
                rw [List.append_assoc]
                exact outer.append (.frame nested .nil)

theorem nested_iff {word : List Bracket} : Nested word ↔ openAfter? word [] = some [] := by
  rw [← leavesOpen_nil_iff, leavesOpen_iff]

namespace WriteCall

/-- The bracket that a call is, if it is one. -/
def bracket? : WriteCall → Option Bracket
  | .leaf _ _ => none
  | .enter opening _ => some (.entered opening.kind)
  | .leave kind => some (.left kind)

def brackets (calls : List WriteCall) : List Bracket :=
  calls.filterMap bracket?

theorem framesAfterAll?_eq (calls : List WriteCall) (kinds : List FrameKind) :
    WriteStep.framesAfterAll? (calls.map .call) kinds = openAfter? (brackets calls) kinds := by
  induction calls generalizing kinds with
  | nil => rfl
  | cons call rest ih =>
      cases call with
      | leaf value deployment => exact ih kinds
      | enter opening deployment => exact ih (opening.kind :: kinds)
      | leave kind =>
          simp only [List.map_cons, WriteStep.framesAfterAll?, WriteStep.framesAfter?, framesAfter?,
            brackets, List.filterMap_cons, bracket?, openAfter?]
          split
          · exact ih kinds.tail
          · rfl

/-- What a call announces goes into its field and keeps to the limits. -/
def Admissible (limits : Limits) : WriteCall → Prop
  | .leaf (.text value) deployment =>
      (Utf8.encode value).length ≤ limits.maxStringLength ∧
        LengthFits ((Utf8.encode value).length + 1) deployment
  | .leaf (.bytes value) deployment =>
      value.length ≤ limits.maxStringLength ∧ LengthFits value.length deployment
  | .enter (.variant tag) _ => tag ≤ 255
  | .enter (.sequence length) deployment | .enter (.map length) deployment =>
      length ≤ limits.maxSequenceLength ∧ LengthFits length deployment
  | _ => True

theorem Admissible.described {limits : Limits} {call : WriteCall}
    (admissible : call.Admissible limits) :
    (∃ chunks, call.chunks? = some chunks) ∧ call.lengthFault? limits = none := by
  have counted {length : Nat} {deployment : Option Deployment} {what : LimitKind} {limit : Nat}
      {announced : Nat} {chunksWith : Chunk → List Chunk}
      (holds : announced ≤ limit ∧ LengthFits length deployment) :
      (∃ chunks, (Chunk.length? length deployment).map chunksWith = some chunks) ∧
        StreamError.overLimit? what limit announced = none :=
    ⟨Value.exists_length?_iff.2 holds.2, StreamError.overLimit?_eq_none_iff.2 holds.1⟩
  cases call with
  | leaf value deployment =>
      cases value with
      | bool value => exact ⟨⟨_, rfl⟩, rfl⟩
      | number value => exact ⟨⟨_, rfl⟩, rfl⟩
      | text value => exact counted admissible
      | bytes value => exact counted admissible
  | enter opening deployment =>
      cases opening with
      | variant tag => exact ⟨⟨_, if_pos admissible⟩, rfl⟩
      | sequence length => exact counted admissible
      | map length => exact counted admissible
      | _ => exact ⟨⟨_, rfl⟩, rfl⟩
  | leave kind => exact ⟨⟨_, rfl⟩, rfl⟩

/-- Calls with which nothing is wrong but perhaps their brackets: what they announce is admissible,
and they never open more frames than the limits allow. -/
structure AdmissibleAll (limits : Limits) (calls : List WriteCall) : Prop where
  announced : ∀ call ∈ calls, call.Admissible limits
  shallow : ∀ earlier kinds, earlier <+: calls → LeavesOpen kinds (brackets earlier) →
    kinds.length ≤ limits.maxDepth

/-- The calls before a bracket that leaves a frame of one kind while another one, or none, is
innermost. -/
structure EndsAmiss (calls earlier : List WriteCall) (kind : FrameKind) (kinds : List FrameKind) :
    Prop where
  follows : earlier ++ [.leave kind] <+: calls
  opened : LeavesOpen kinds (brackets earlier)
  differs : kinds.head? ≠ some kind

variable {limits : Limits} {calls earlier : List WriteCall} {call : WriteCall}
  {kind : FrameKind} {kinds : List FrameKind}

theorem brackets_append (first second : List WriteCall) :
    brackets (first ++ second) = brackets first ++ brackets second :=
  List.filterMap_append

theorem AdmissibleAll.of_begins (admissible : AdmissibleAll limits calls)
    (begins : earlier <+: calls) : AdmissibleAll limits earlier where
  announced call callMem := admissible.announced call (begins.subset callMem)
  shallow first kinds firstBegins :=
    admissible.shallow first kinds (firstBegins.trans begins)

/-- Calls whose brackets leave frames open are taken with these frames open. -/
theorem AdmissibleAll.writable (admissible : AdmissibleAll limits calls)
    (opened : LeavesOpen kinds (brackets calls)) :
    WriteStep.Writable limits 0 (calls.map .call) := by
  induction calls using List.reverseRecOn generalizing kinds with
  | nil => exact WriteStep.writable_nil limits 0
  | append_singleton calls call ih =>
      have stacked := leavesOpen_iff.1 opened
      rw [brackets_append, openAfter?_append] at stacked
      rcases Option.bind_eq_some_iff.1 stacked with ⟨before, callsStacked, stacked⟩
      have framed : WriteStep.framesAfterAll? (calls.map .call) [] = some before := by
        rw [framesAfterAll?_eq, callsStacked]
      have depthEq : WriteStep.depthAfterAll (calls.map .call) 0 = before.length :=
        WriteStep.depthAfterAll_of_framesAfterAll? framed
      have callsAdmissible := admissible.of_begins (List.prefix_append calls [call])
      have last : call.Admissible limits := admissible.announced call (by simp)
      rw [List.map_append, WriteStep.writable_append_iff, depthEq]
      refine ⟨ih callsAdmissible (leavesOpen_iff.2 callsStacked), ?_⟩
      refine Value.writable_call_iff.2 ⟨last.described.1, ?_⟩
      cases call with
      | leaf value deployment => exact last.described.2
      | leave kind => rfl
      | enter opening deployment =>
          cases stacked
          have shallow := admissible.shallow _ _ List.prefix_rfl opened
          exact Option.or_eq_none_iff.2
            ⟨last.described.2, StreamError.overLimit?_eq_none_iff.2 shallow⟩

theorem AdmissibleAll.runAll_eq (admissible : AdmissibleAll limits calls)
    (opened : LeavesOpen kinds (brackets calls)) :
    ∃ cursor, WriteStep.runAll (calls.map .call) (MemoryWriter.withLimits limits) =
      .ok () { cursor, frames := kinds, limits } := by
  rcases admissible.writable opened with ⟨⟨chunks, described⟩, within⟩
  have framed : WriteStep.framesAfterAll? (calls.map .call) [] = some kinds := by
    rw [framesAfterAll?_eq, leavesOpen_iff.1 opened]
  exact ⟨_, MemoryWriter.runAll_of_none rfl described within framed⟩

/-- Brackets are in order, or one of them is the first that is not. -/
theorem leavesOpen_or_endsAmiss (calls : List WriteCall) :
    (∃ kinds, LeavesOpen kinds (brackets calls)) ∨
      ∃ earlier kind kinds, EndsAmiss calls earlier kind kinds := by
  induction calls using List.reverseRecOn with
  | nil => exact .inl ⟨[], .nested .nil⟩
  | append_singleton calls call ih =>
      rcases ih with ⟨kinds, opened⟩ | ⟨earlier, kind, kinds, amiss⟩
      · simp only [brackets_append]
        cases call with
        | leaf value deployment => exact .inl ⟨kinds, opened.append .nil⟩
        | enter opening deployment => exact .inl ⟨_, .entered opened .nil⟩
        | leave kind =>
            by_cases innermost : kinds.head? = some kind
            · refine .inl ⟨kinds.tail, leavesOpen_iff.2 ?_⟩
              rw [openAfter?_append, leavesOpen_iff.1 opened, Option.bind_some]
              exact if_pos innermost
            · exact .inr ⟨calls, kind, kinds, List.prefix_rfl, opened, innermost⟩
      · exact .inr ⟨earlier, kind, kinds,
          amiss.follows.trans (List.prefix_append calls [call]), amiss.opened, amiss.differs⟩

end WriteCall

/-- Leaving a frame that is not innermost names both kinds. -/
theorem MemoryWriter.perform_leave_of_differs {writer : MemoryWriter} {kind : FrameKind}
    (unlatched : writer.error = none) (differs : writer.frames.head? ≠ some kind) :
    ∃ after, OutputStream.perform (.leave kind) writer =
      .error (.unbalanced (.endedWriting kind writer.frames.head?)) after := by
  have steps : OutputStream.perform (.leave kind) writer =
      (Latch.check >>= fun _ => closeFrame kind) writer := rfl
  have closed : closeFrame kind writer =
      (if writer.frames.head? = some kind then pure ()
        else Latch.raise (.unbalanced (.endedWriting kind writer.frames.head?)))
          { writer with frames := writer.frames.tail } := rfl
  rw [steps, Action.bind_of_ok (Action.check_of_unlatched unlatched), closed, if_neg differs]
  exact ⟨_, Action.raise_of_unlatched unlatched⟩

open WriteCall WriteStep

/-- Of the calls with which nothing else is wrong, the writer accepts exactly those whose brackets
form a nested word. Otherwise the first call to fail is the first that leaves a frame of another kind
than the innermost; and if there is no such call, all calls are taken and the innermost frame is
found open at the end. -/
theorem writer_accepts_nested (limits : Limits) (calls : List WriteCall)
    (admissible : AdmissibleAll limits calls) :
    ((∃ bytes, WriteStep.encode (calls.map .call) limits = .ok bytes) ↔ Nested (brackets calls)) ∧
    (∀ earlier kind kinds, EndsAmiss calls earlier kind kinds →
      ∃ before after, runAll (earlier.map .call) (MemoryWriter.withLimits limits) = .ok () before ∧
        OutputStream.perform (.leave kind) before =
          .error (.unbalanced (.endedWriting kind kinds.head?)) after) ∧
    (¬ Nested (brackets calls) → (∀ earlier kind kinds, ¬ EndsAmiss calls earlier kind kinds) →
      ∃ kind kinds after, LeavesOpen (kind :: kinds) (brackets calls) ∧
        runAll (calls.map .call) (MemoryWriter.withLimits limits) = .ok () after ∧
        after.finish = .error (.unbalanced (.stillWriting kind))) := by
  refine ⟨⟨?_, ?_⟩, ?_, ?_⟩
  · rintro ⟨bytes, encoded⟩
    rcases encode_eq_ok_iff.1 encoded with ⟨writer, taken, finished⟩
    have framed := MemoryWriter.framed_of_runAll rfl taken
    rw [framesAfterAll?_eq, MemoryWriter.frames_of_finish finished] at framed
    exact nested_iff.2 framed
  · intro nested
    rcases admissible.runAll_eq (.nested nested) with ⟨cursor, taken⟩
    exact ⟨_, encode_eq_ok_iff.2 ⟨_, taken, rfl⟩⟩
  · intro earlier kind kinds amiss
    have begins := (List.prefix_append earlier [.leave kind]).trans amiss.follows
    rcases (admissible.of_begins begins).runAll_eq amiss.opened with ⟨cursor, taken⟩
    rcases @MemoryWriter.perform_leave_of_differs { cursor, frames := kinds, limits } kind rfl
      amiss.differs with ⟨after, failed⟩
    exact ⟨_, after, taken, failed⟩
  · intro notNested inOrder
    rcases leavesOpen_or_endsAmiss calls with ⟨kinds, opened⟩ | ⟨earlier, kind, kinds, amiss⟩
    · cases kinds with
      | nil => exact absurd (leavesOpen_nil_iff.1 opened) notNested
      | cons kind kinds =>
          rcases admissible.runAll_eq opened with ⟨cursor, taken⟩
          exact ⟨kind, kinds, _, opened, taken, rfl⟩
    · exact absurd amiss (inOrder earlier kind kinds)

/-- A struct that is left before the sequence inside it, with a boolean between the brackets. -/
def WriteCall.crossed : List WriteCall :=
  [.enter .struct none, .enter (.sequence 1) none, .leaf (.bool true) none, .leave .struct,
    .leave .sequence]

theorem WriteCall.admissibleAll_crossed : AdmissibleAll {} crossed where
  announced := by simp [crossed, Admissible, LengthFits]
  shallow := by
    intro earlier kinds begins opened
    calc kinds.length ≤ (brackets earlier).length := opened.length_le
      _ ≤ earlier.length := List.length_filterMap_le _ _
      _ ≤ crossed.length := begins.length_le
      _ ≤ Limits.maxDepth {} := by decide

theorem writer_accepts_nested_crossed :
    AdmissibleAll {} crossed ∧ ¬ Nested (brackets crossed) ∧
      ∃ before after,
        runAll ((crossed.take 3).map .call) (MemoryWriter.withLimits {}) = .ok () before ∧
          OutputStream.perform (.leave .struct) before =
            .error (.unbalanced (.endedWriting .struct (some .sequence))) after := by
  have accepts := writer_accepts_nested {} crossed admissibleAll_crossed
  have amiss : EndsAmiss crossed (crossed.take 3) .struct [.sequence, .struct] := by
    exact ⟨List.prefix_append _ [WriteCall.leave .sequence], leavesOpen_iff.2 rfl, by decide⟩
  refine ⟨admissibleAll_crossed, ?_, accepts.2.1 _ _ _ amiss⟩
  rw [nested_iff]
  decide

end ValueBus
