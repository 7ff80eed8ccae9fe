import ValueBus.Proofs.Standing

/-!
# Replaying what was written

Whoever holds a stream may write to it call by call. What a memory writer accepts and finishes is a
forest of items: leaves, and frames with the items that stand in them. The same forest tells how it
is to be read: by the question for every call, and in a sequence or map by the question whether
another item follows, before every item and at the end.

A writer puts the number of items that is announced to it and never counts them, whereas a reader
counts. So what is accepted can be replayed exactly if every sequence and map holds as many items
as it announced.
-/

namespace ValueBus

open WriteStep

namespace MemoryWriter

variable {writer after : MemoryWriter}

/-- A call that is taken leaves the frames as the call says. -/
theorem framed_of_takeCall {call : WriteCall} (unlatched : writer.error = none)
    (taken : takeCall call writer = .ok () after) :
    call.framesAfter? writer.frames = some after.frames ∧ after.error = none := by
  cases framed : call.framesAfter? writer.frames with
  | some frames =>
      cases described : call.chunks? with
      | none =>
          rcases takeCall_of_undescribed described with ⟨fault, failure, failed⟩
          rw [failed] at taken
          cases taken
      | some chunks =>
          cases within : call.limitFault? writer.limits writer.frames.length with
          | none =>
              rw [takeCall_of_none described within framed] at taken
              cases taken
              exact ⟨rfl, unlatched⟩
          | some fault =>
              rcases takeCall_of_some unlatched described within with ⟨failure, failed⟩
              rw [failed] at taken
              cases taken
  | none =>
      cases call with
      | leaf value deployment => cases framed
      | enter opening deployment => cases framed
      | leave kind =>
          have other : writer.frames.head? ≠ some kind := by
            intro innermost
            simp [WriteCall.framesAfter?, innermost] at framed
          have steps : takeCall (.leave kind) writer =
              (if writer.frames.head? = some kind then pure ()
                else Latch.raise (.unbalanced (.endedWriting kind writer.frames.head?)))
                  { writer with frames := writer.frames.tail } := rfl
          rw [steps, if_neg other] at taken
          exact absurd taken Action.raise_ne_ok

theorem framed_of_runAll {steps : List WriteStep} (unlatched : writer.error = none)
    (taken : runAll steps writer = .ok () after) :
    framesAfterAll? steps writer.frames = some after.frames := by
  induction steps generalizing writer with
  | nil => cases taken; rfl
  | cons step rest ih =>
      rcases Action.bind_eq_ok_iff.1 taken with ⟨_, middle, firstTaken, restTaken⟩
      cases step with
      | raise error => exact absurd firstTaken Action.raise_ne_ok
      | call call =>
          rw [run_call unlatched] at firstTaken
          rcases framed_of_takeCall unlatched firstTaken with ⟨firstFramed, middleUnlatched⟩
          exact Option.bind_eq_some_iff.2 ⟨_, firstFramed, ih middleUnlatched restTaken⟩

end MemoryWriter

/-- A leaf that was written, or a frame with what was written inside it. -/
inductive Item where
  | leaf (value : Leaf) (deployment : Option Deployment)
  | frame (opening : Opening) (deployment : Option Deployment) (items : List Item)

namespace Item

/-- Induction on items: everything that stands in a frame satisfies the motive. -/
@[elab_as_elim, induction_eliminator]
theorem induction {motive : Item → Prop}
    (leaf : ∀ value deployment, motive (.leaf value deployment))
    (frame : ∀ opening deployment items, (∀ item ∈ items, motive item) →
      motive (.frame opening deployment items)) (item : Item) : motive item := by
  refine @Item.rec motive (fun items => ∀ item ∈ items, motive item) leaf frame ?_ ?_ item
  · simp
  · intro head tail headHolds tailHolds item itemMem
    rcases List.mem_cons.1 itemMem with rfl | itemMem
    · exact headHolds
    · exact tailHolds item itemMem

mutual

/-- The calls that write an item. -/
def calls : Item → List WriteCall
  | .leaf value deployment => [.leaf value deployment]
  | .frame opening deployment items =>
      .enter opening deployment :: callsAll items ++ [.leave opening.kind]

def callsAll : List Item → List WriteCall
  | [] => []
  | item :: rest => calls item ++ callsAll rest

end

/-- Every sequence and map, at any depth, holds as many items as it announced. -/
inductive AsAnnounced : Item → Prop where
  | leaf {value : Leaf} {deployment : Option Deployment} : AsAnnounced (.leaf value deployment)
  | frame {opening : Opening} {deployment : Option Deployment} {items : List Item} :
      (opening.kind.repetition?.isSome = true → opening.length = items.length) →
      (∀ item ∈ items, AsAnnounced item) → AsAnnounced (.frame opening deployment items)

theorem asAnnounced_frame_iff {opening : Opening} {deployment : Option Deployment}
    {items : List Item} :
    (frame opening deployment items).AsAnnounced ↔
      (opening.kind.repetition?.isSome = true → opening.length = items.length) ∧
        ∀ item ∈ items, item.AsAnnounced := by
  constructor
  · rintro (_ | ⟨counted, parts⟩)
    exact ⟨counted, parts⟩
  · rintro ⟨counted, parts⟩
    exact .frame counted parts

/-- Calls that close the frames that they open are the calls of items, and so are calls up to the
first that closes a frame that was open before. -/
theorem exists_callsAll (count : Nat) : ∀ {calls : List WriteCall} {frames : List FrameKind},
    calls.length ≤ count → framesAfterAll? (calls.map .call) frames = some [] →
      ∃ items later, calls = callsAll items ++ later ∧
        match frames with
        | [] => later = []
        | kind :: outer => ∃ rest, later = .leave kind :: rest ∧
            framesAfterAll? (rest.map .call) outer = some [] := by
  induction count with
  | zero =>
      intro calls frames short framed
      cases List.length_eq_zero_iff.1 (Nat.le_zero.1 short)
      cases framed
      exact ⟨[], [], rfl, rfl⟩
  | succ count ih =>
      intro calls frames short framed
      cases calls with
      | nil =>
          cases framed
          exact ⟨[], [], rfl, rfl⟩
      | cons call rest =>
          have restShort : rest.length ≤ count := Nat.le_of_succ_le_succ short
          rcases Option.bind_eq_some_iff.1 framed with ⟨middle, firstFramed, restFramed⟩
          cases call with
          | leaf value deployment =>
              cases firstFramed
              rcases ih restShort restFramed with ⟨items, later, rfl, closed⟩
              exact ⟨.leaf value deployment :: items, later, rfl, closed⟩
          | leave kind =>
              simp only [framesAfter?, WriteCall.framesAfter?, Option.ite_none_right_eq_some,
                Option.some.injEq] at firstFramed
              rcases firstFramed with ⟨innermost, rfl⟩
              cases frames with
              | nil => cases innermost
              | cons found outer =>
                  cases innermost
                  exact ⟨[], _, rfl, rest, rfl, restFramed⟩
          | enter opening deployment =>
              cases firstFramed
              rcases ih restShort restFramed with ⟨inside, _, rfl, rest, rfl, outerFramed⟩
              have laterShort : rest.length ≤ count := by
                simp only [List.length_append, List.length_cons] at restShort
                omega
              rcases ih laterShort outerFramed with ⟨items, later, rfl, closed⟩
              exact ⟨.frame opening deployment inside :: items, later,
                by simp [callsAll, calls], closed⟩

theorem map_call_frame (opening : Opening) (deployment : Option Deployment) (items : List Item) :
    (calls (.frame opening deployment items)).map WriteStep.call =
      Value.entering opening deployment :: (callsAll items).map WriteStep.call ++
        [Value.leaving opening.kind] := by
  simp [calls, Value.entering, Value.leaving]

theorem balanced_callsAll {items : List Item}
    (parts : ∀ item ∈ items, Balanced (item.calls.map .call)) :
    Balanced ((callsAll items).map .call) := by
  induction items with
  | nil => exact fun _ => rfl
  | cons item rest ih =>
      rcases List.forall_mem_cons.1 parts with ⟨itemBalanced, restBalanced⟩
      rw [callsAll, List.map_append]
      exact itemBalanced.append (ih restBalanced)

theorem balanced_calls (item : Item) : Balanced (item.calls.map .call) := by
  induction item with
  | leaf value deployment => exact fun _ => rfl
  | frame opening deployment items parts =>
      rw [map_call_frame]
      exact Value.balanced_bracketed (balanced_callsAll parts)

end Item

/-- What is asked about the items of a frame that repeats: whether another one follows. -/
def moreAsked (kind : Option FrameKind) (more : Bool) : List (Question × Answer) :=
  match kind.bind FrameKind.repetition? with
  | some repetition => [(.hasMore repetition, .more more)]
  | none => []

/-- The questions that read calls back, with the answers that are due. The kinds are those of the
open frames. -/
def replay : List FrameKind → List WriteCall → List (Question × Answer)
  | _, [] => []
  | kinds, .leaf value deployment :: rest =>
      moreAsked kinds.head? true ++
        (.leaf value.kind deployment, .leaf value) :: replay kinds rest
  | kinds, .enter opening deployment :: rest =>
      moreAsked kinds.head? true ++
        (.enter opening.kind deployment, .opening opening) :: replay (opening.kind :: kinds) rest
  | kinds, .leave kind :: rest =>
      moreAsked kinds.head? false ++ (.leave kind, .done) :: replay kinds.tail rest

namespace Item

mutual

/-- The questions that read an item back, with their answers. -/
def script : Item → List (Question × Answer)
  | .leaf value deployment => [(.leaf value.kind deployment, .leaf value)]
  | .frame opening deployment items =>
      (.enter opening.kind deployment, .opening opening) ::
        (scriptAll opening.kind items ++
          (moreAsked opening.kind false ++ [(.leave opening.kind, .done)]))

/-- The questions that read the items of a frame back. -/
def scriptAll : Option FrameKind → List Item → List (Question × Answer)
  | _, [] => []
  | kind, item :: rest => moreAsked kind true ++ (script item ++ scriptAll kind rest)

end

theorem replay_callsAll {items : List Item}
    (parts : ∀ item ∈ items, ∀ kinds rest, replay kinds (item.calls ++ rest) =
      moreAsked kinds.head? true ++ (item.script ++ replay kinds rest))
    (kinds : List FrameKind) (rest : List WriteCall) :
    replay kinds (callsAll items ++ rest) = scriptAll kinds.head? items ++ replay kinds rest := by
  induction items with
  | nil => rfl
  | cons item items ih =>
      rcases List.forall_mem_cons.1 parts with ⟨itemReplayed, itemsReplayed⟩
      simp only [callsAll, scriptAll, List.append_assoc, itemReplayed, ih itemsReplayed]

/-- The calls of an item are replayed by its script, wherever the item stands. -/
theorem replay_calls (item : Item) (kinds : List FrameKind) (rest : List WriteCall) :
    replay kinds (item.calls ++ rest) =
      moreAsked kinds.head? true ++ (item.script ++ replay kinds rest) := by
  induction item generalizing kinds rest with
  | leaf value deployment => rfl
  | frame opening deployment items parts =>
      have callsEq : calls (.frame opening deployment items) ++ rest =
          .enter opening deployment :: (callsAll items ++ .leave opening.kind :: rest) := by
        simp [calls]
      rw [callsEq, replay, replay_callsAll parts, replay]
      simp [script]

end Item

/-- A reader answers questions, one after the other, as is due. -/
inductive Replays : MemoryReader → List (Question × Answer) → MemoryReader → Prop where
  | nil {reader : MemoryReader} : Replays reader [] reader
  | cons {reader middle final : MemoryReader} {question : Question} {answer : Answer}
      {rest : List (Question × Answer)} :
      question.ask reader = .ok answer middle → Replays middle rest final →
      Replays reader ((question, answer) :: rest) final

namespace Replays

variable {reader middle final : MemoryReader} {rest : List (Question × Answer)}

theorem cons_iff {question : Question} {answer due : Answer}
    (asked : question.ask reader = .ok answer middle) :
    Replays reader ((question, due) :: rest) final ↔ answer = due ∧ Replays middle rest final := by
  constructor
  · rintro (_ | ⟨answered, replays⟩)
    rw [asked] at answered
    cases answered
    exact ⟨rfl, replays⟩
  · rintro ⟨rfl, replays⟩
    exact .cons asked replays

theorem cons_iff_of_ask {question : Question} {answer : Answer}
    (asked : question.ask reader = .ok answer middle) :
    Replays reader ((question, answer) :: rest) final ↔ Replays middle rest final := by
  simp only [cons_iff asked, true_and]

variable {limits : Limits} {frames : List ReadFrame} {cursor next : ReadCursor}

theorem ask_more (kind : Repetition) (reader : MemoryReader) :
    (Question.hasMore kind).ask reader =
      .ok (.more (MemoryReader.hasMore kind reader).1) (MemoryReader.hasMore kind reader).2 :=
  rfl

theorem ask_more_of_succ {kind : Repetition} {count : Nat} :
    (Question.hasMore kind).ask (.unlatched limits (.counted kind (count + 1) :: frames) cursor) =
      .ok (.more true) (MemoryReader.unlatched limits (.counted kind count :: frames) cursor) := by
  rw [ask_more, MemoryReader.hasMore_of_counted_succ rfl rfl]
  rfl

theorem ask_more_of_zero {kind : Repetition} :
    (Question.hasMore kind).ask (.unlatched limits (.counted kind 0 :: frames) cursor) =
      .ok (.more false) (MemoryReader.unlatched limits (.counted kind 0 :: frames) cursor) := by
  rw [ask_more, MemoryReader.hasMore_of_counted_zero rfl rfl]

theorem ask_leave {kind : FrameKind} {frame : ReadFrame}
    (closes : MemoryReader.closeFrame kind (.unlatched limits (frame :: frames) cursor) =
      .ok () (.unlatched limits frames cursor)) :
    (Question.leave kind).ask (MemoryReader.unlatched limits (frame :: frames) cursor) =
      .ok .done (.unlatched limits frames cursor) := by
  have left : InputStream.leave kind (MemoryReader.unlatched limits (frame :: frames) cursor) =
      .ok () (.unlatched limits frames cursor) :=
    (Action.bind_of_ok (Action.check_of_unlatched rfl)).trans closes
  exact Action.map_eq_ok_iff.2 ⟨(), left, rfl⟩

end Replays

theorem Opening.readFrame_of_plain {opening : Opening}
    (plain : opening.kind.repetition? = none) : opening.readFrame = .plain opening.kind := by
  cases opening <;> first | rfl | cases plain

theorem Opening.readFrame_of_repeats {opening : Opening} {repetition : Repetition}
    (repeats : opening.kind.repetition? = some repetition) :
    opening.readFrame = .counted repetition opening.length ∧ opening.kind = repetition.frame := by
  cases opening <;> cases repeats <;> exact ⟨rfl, rfl⟩

namespace Item

/-- The script of an item goes through where the item stands exactly if the item is as announced,
whatever is asked afterwards. -/
def Follows (limits : Limits) (item : Item) : Prop :=
  ∀ (frames : List ReadFrame) (cursor next : ReadCursor) (rest : List (Question × Answer))
    (final : MemoryReader), Stands limits frames.length (item.calls.map .call) cursor next →
      (Replays (.unlatched limits frames cursor) (item.script ++ rest) final ↔
        item.AsAnnounced ∧ Replays (.unlatched limits frames next) rest final)

variable {limits : Limits} {cursor next : ReadCursor} {rest : List (Question × Answer)}
  {final : MemoryReader} {items : List Item}

theorem stands_callsAll_cons_iff {item : Item} {depth : Nat} :
    Stands limits depth ((callsAll (item :: items)).map .call) cursor next ↔
      ∃ middle, Stands limits depth (item.calls.map .call) cursor middle ∧
        Stands limits depth ((callsAll items).map .call) middle next := by
  rw [callsAll, List.map_append, Stands.balanced_append_iff item.balanced_calls]

/-- Nothing is asked about the items of a frame that does not repeat. -/
theorem follows_plain (frames : List ReadFrame) (parts : ∀ item ∈ items, item.Follows limits)
    {kind : Option FrameKind} (plain : kind.bind FrameKind.repetition? = none)
    (stands : Stands limits frames.length ((callsAll items).map .call) cursor next) :
    Replays (.unlatched limits frames cursor) (scriptAll kind items ++ rest) final ↔
      (∀ item ∈ items, item.AsAnnounced) ∧ Replays (.unlatched limits frames next) rest final := by
  induction items generalizing cursor with
  | nil =>
      cases Stands.nil_iff.1 stands
      simp [scriptAll]
  | cons item items ih =>
      rcases List.forall_mem_cons.1 parts with ⟨itemFollows, itemsFollow⟩
      rcases stands_callsAll_cons_iff.1 stands with ⟨middle, itemStands, itemsStand⟩
      have unasked : moreAsked kind true = [] := by simp only [moreAsked, plain]
      rw [scriptAll, unasked, List.nil_append, List.append_assoc,
        itemFollows _ _ _ _ _ itemStands, ih itemsFollow itemsStand, List.forall_mem_cons,
        and_assoc]

/-- The items of a frame that repeats are counted down from the number that was read: the questions
about them are answered as is due exactly if there are so many. -/
theorem follows_counted (frames : List ReadFrame) (parts : ∀ item ∈ items, item.Follows limits)
    {kind : Option FrameKind} {repetition : Repetition}
    (repeats : kind.bind FrameKind.repetition? = some repetition)
    {count : Nat}
    (stands : Stands limits (frames.length + 1) ((callsAll items).map .call) cursor next) :
    Replays (.unlatched limits (.counted repetition count :: frames) cursor)
        (scriptAll kind items ++ (moreAsked kind false ++ rest)) final ↔
      (count = items.length ∧ ∀ item ∈ items, item.AsAnnounced) ∧
        Replays (.unlatched limits (.counted repetition 0 :: frames) next) rest final := by
  have asks (more : Bool) : moreAsked kind more = [(.hasMore repetition, .more more)] := by
    simp only [moreAsked, repeats]
  induction items generalizing cursor count with
  | nil =>
      -- The last question is answered with no exactly if nothing is left to come.
      cases Stands.nil_iff.1 stands
      rw [scriptAll, List.nil_append, asks, List.singleton_append]
      cases count with
      | zero =>
          rw [Replays.cons_iff Replays.ask_more_of_zero]
          simp
      | succ count =>
          rw [Replays.cons_iff Replays.ask_more_of_succ]
          simp
  | cons item items ih =>
      rcases List.forall_mem_cons.1 parts with ⟨itemFollows, itemsFollow⟩
      rcases stands_callsAll_cons_iff.1 stands with ⟨middle, itemStands, itemsStand⟩
      rw [scriptAll, asks true, List.singleton_append, List.cons_append, List.append_assoc]
      -- An item that was not announced is not granted; one that was is one less to come.
      cases count with
      | zero =>
          rw [Replays.cons_iff Replays.ask_more_of_zero]
          simp
      | succ count =>
          have itemsIff := @ih middle itemsFollow count itemsStand
          have itemIff := itemFollows (.counted repetition count :: frames) cursor middle
            (scriptAll kind items ++ (moreAsked kind false ++ rest)) final itemStands
          rw [Replays.cons_iff_of_ask Replays.ask_more_of_succ, itemIff]
          refine (and_congr_right fun _ => itemsIff).trans ?_
          rw [List.forall_mem_cons, List.length_cons, Nat.add_right_cancel_iff]
          constructor
          · rintro ⟨announced, ⟨countEq, others⟩, replays⟩
            exact ⟨⟨countEq, announced, others⟩, replays⟩
          · rintro ⟨⟨countEq, announced, others⟩, replays⟩
            exact ⟨announced, ⟨countEq, others⟩, replays⟩

theorem follows (limits : Limits) (item : Item) : item.Follows limits := by
  induction item with
  | leaf value deployment =>
      intro frames cursor next rest final stands
      have asked : (Question.leaf value.kind deployment).ask (.unlatched limits frames cursor) =
          .ok (.leaf value) (MemoryReader.unlatched limits frames next) :=
        Action.map_eq_ok_iff.2 ⟨value, MemoryReader.leaf_of_stands stands, rfl⟩
      rw [script, List.singleton_append, Replays.cons_iff asked]
      exact and_congr_left fun _ => ⟨fun _ => .leaf, fun _ => rfl⟩
  | frame opening deployment items parts =>
      intro frames cursor next rest final stands
      have balanced : Balanced ((callsAll items).map .call) :=
        balanced_callsAll fun item _ => item.balanced_calls
      rw [map_call_frame, Stands.bracket_iff balanced] at stands
      rcases stands with ⟨inside, announced, itemsStand⟩
      have asked : (Question.enter opening.kind deployment).ask (.unlatched limits frames cursor) =
          .ok (.opening opening)
            (MemoryReader.unlatched limits (opening.readFrame :: frames) inside) :=
        Action.map_eq_ok_iff.2 ⟨opening, MemoryReader.enter_of_stands rfl rfl announced, rfl⟩
      rw [script, List.cons_append, Replays.cons_iff_of_ask asked, List.append_assoc,
        List.append_assoc, List.singleton_append, asAnnounced_frame_iff]
      cases repeats : opening.kind.repetition? with
      | none =>
          have plain : (some opening.kind).bind FrameKind.repetition? = none := repeats
          have unasked : moreAsked (some opening.kind) false = [] := by simp only [moreAsked, plain]
          have left := @Replays.ask_leave limits frames next opening.kind _
            (MemoryReader.closeFrame_of_plain rfl)
          rw [Opening.readFrame_of_plain repeats, unasked, List.nil_append,
            follows_plain (.plain opening.kind :: frames) parts plain itemsStand,
            Replays.cons_iff_of_ask left]
          simp
      | some repetition =>
          have counted : (some opening.kind).bind FrameKind.repetition? = some repetition := repeats
          rcases Opening.readFrame_of_repeats repeats with ⟨frameEq, kindEq⟩
          have left := @Replays.ask_leave limits frames next repetition.frame _
            (MemoryReader.closeFrame_of_counted rfl)
          rw [frameEq, follows_counted frames parts counted itemsStand, kindEq,
            Replays.cons_iff_of_ask left]
          simp

end Item

theorem MemoryWriter.frames_of_finish {writer : MemoryWriter} {bytes : List UInt8}
    (finished : writer.finish = .ok bytes) : writer.frames = [] := by
  unfold finish at finished
  split at finished
  · cases finished
  · cases finished
  · assumption

/-- Calls that a writer accepts and finishes are the calls of items. The bytes can be replayed,
every question being answered with what was written and nothing being left, exactly if every
sequence and map holds as many items as it announced. -/
theorem replay_iff_asAnnounced (limits : Limits) (calls : List WriteCall) (bytes : List UInt8)
    (encoded : WriteStep.encode (calls.map .call) limits = .ok bytes) :
    (∃ items, Item.callsAll items = calls) ∧
      ∀ items, Item.callsAll items = calls →
        ((∀ item ∈ items, item.AsAnnounced) ↔
          ∃ reader, Replays (MemoryReader.ofBytes bytes limits) (replay [] calls) reader ∧
            reader.finish = .ok ()) := by
  constructor
  · rcases encode_eq_ok_iff.1 encoded with ⟨writer, taken, finished⟩
    have unlatched : (MemoryWriter.withLimits limits).error = none := rfl
    have framed : framesAfterAll? (calls.map .call) [] = some writer.frames :=
      MemoryWriter.framed_of_runAll unlatched taken
    rw [MemoryWriter.frames_of_finish finished] at framed
    rcases Item.exists_callsAll calls.length (Nat.le_refl _) framed with ⟨items, _, callsEq, rfl⟩
    exact ⟨items, by rw [callsEq, List.append_nil]⟩
  · rintro items rfl
    have balanced : Balanced ((Item.callsAll items).map .call) :=
      Item.balanced_callsAll fun item _ => item.balanced_calls
    have stands := Stands.of_encode balanced encoded
    have replayEq : replay [] (Item.callsAll items) = Item.scriptAll none items ++ [] := by
      have replayed := @Item.replay_callsAll items (fun item _ => item.replay_calls) [] []
      rwa [List.append_nil] at replayed
    have follows (final : MemoryReader) :
        Replays (.ofBytes bytes limits) (replay [] (Item.callsAll items)) final ↔
          (∀ item ∈ items, item.AsAnnounced) ∧
            Replays (.unlatched limits [] ⟨bytes, bytes.length⟩) [] final := by
      rw [replayEq]
      exact Item.follows_plain [] (fun item _ => item.follows limits) rfl stands
    constructor
    · intro announced
      exact ⟨_, (follows _).2 ⟨announced, .nil⟩, MemoryReader.finish_unlatched limits bytes⟩
    · rintro ⟨final, replays, _⟩
      exact ((follows final).1 replays).1

/-- A sequence of two items, of which the first is a variant. -/
theorem replay_iff_asAnnounced_pair :
    ∃ reader, Replays (MemoryReader.ofBytes [2, 0, 0, 0, 1, 1, 0] {})
        (replay [] [.enter (.sequence 2) none, .enter (.variant 1) none, .leaf (.bool true) none,
          .leave .variant, .leaf (.bool false) none, .leave .sequence]) reader ∧
      reader.finish = .ok () := by
  refine ((replay_iff_asAnnounced {} _ _ rfl).2
    [.frame (.sequence 2) none [.frame (.variant 1) none [.leaf (.bool true) none],
      .leaf (.bool false) none]] rfl).1 ?_
  have variant : (Item.frame (.variant 1) none [.leaf (.bool true) none]).AsAnnounced := by
    refine .frame (by decide) ?_
    rw [List.forall_mem_singleton]
    exact .leaf
  rw [List.forall_mem_singleton]
  refine .frame (fun _ => rfl) ?_
  rw [List.forall_mem_cons, List.forall_mem_singleton]
  exact ⟨variant, .leaf⟩

/-- A sequence that announces two items and holds none is accepted and finished, and a reader
answers that another item follows where none does. -/
theorem replay_miscounted :
    WriteStep.encode ([.enter (.sequence 2) none, .leave .sequence].map WriteStep.call) {} =
        .ok [2, 0, 0, 0] ∧
      ¬∃ reader, Replays (MemoryReader.ofBytes [2, 0, 0, 0] {})
        (replay [] [.enter (.sequence 2) none, .leave .sequence]) reader := by
  refine ⟨rfl, ?_⟩
  rintro ⟨reader, replays⟩
  have entered : (Question.enter .sequence none).ask (.ofBytes [2, 0, 0, 0] {}) =
      .ok (.opening (.sequence 2))
        (MemoryReader.unlatched {} [.counted .sequence 2] ⟨[2, 0, 0, 0], 4⟩) := rfl
  have asked := ((Replays.cons_iff entered).1 replays).2
  cases ((Replays.cons_iff Replays.ask_more_of_succ).1 asked).1

end ValueBus
