import ValueBus.Proofs.Keeping

/-!
# The order of the hooks

One would expect the hooks for a first and a last listener to take turns, to end as the listeners
do, and a token to be said to be added before it is said to be removed. Hooks that call back can
break all of this. This file says what holds all the same, and what the hooks have to leave undone
for the rest.
-/

namespace ValueBus.Event

open Table (tokens)

variable {ω α : Type}

/-! ## Between no listener and some -/

namespace HookKind

/-- The hooks that are called when there were no listeners or are none any more. -/
def isBoundary : HookKind → Bool
  | .firstAdded | .lastRemoved => true
  | .added | .removed => false

/-- The hook whose turn it is at a position if first and last ones take turns. -/
def boundaryAt (position : Nat) : HookKind :=
  if position % 2 = 0 then .firstAdded else .lastRemoved

/-- First and last ones take turns, a first one first. -/
def Alternate (kinds : List HookKind) : Prop :=
  ∀ (position : Nat) (kind : HookKind), kinds[position]? = some kind → kind = boundaryAt position

theorem Alternate.concat {kinds : List HookKind} (alternate : Alternate kinds) {kind : HookKind}
    (turn : kind = boundaryAt kinds.length) : Alternate (kinds ++ [kind]) := by
  intro position other found
  rw [List.getElem?_append] at found
  split at found
  · exact alternate position other found
  · rw [List.getElem?_singleton, Option.ite_none_right_eq_some, Option.some.injEq] at found
    have positionEq : position = kinds.length := by omega
    rw [← found.2, turn, positionEq]

theorem Alternate.getLast?_iff {kinds : List HookKind} (alternate : Alternate kinds) :
    kinds.getLast? = some .firstAdded ↔ kinds.length % 2 ≠ 0 := by
  rw [List.getLast?_eq_getElem?]
  cases found : kinds[kinds.length - 1]? with
  | none =>
      have short := List.getElem?_eq_none_iff.1 found
      have empty : kinds.length = 0 := by omega
      simp [empty]
  | some kind =>
      have bound := (List.getElem?_eq_some_iff.1 found).1
      rw [Option.some.injEq, alternate _ _ found, boundaryAt]
      split <;> simp <;> omega

end HookKind

open HookKind (isBoundary boundaryAt Alternate)

/-- The calls of the hooks for the first and the last listener. -/
def boundaries (log : List (HookKind × Token)) : List HookKind :=
  (log.map (·.1)).filter isBoundary

@[simp]
theorem boundaries_concat (log : List (HookKind × Token)) (kind : HookKind) (token : Token) :
    boundaries (log ++ [(kind, token)]) =
      if kind.isBoundary then boundaries log ++ [kind] else boundaries log := by
  cases boundary : kind.isBoundary <;> simp [boundaries, boundary]

namespace Reference

variable {hooks : Hooks ω α} {before after : Reference ω α}

/-- If no listener is left and the latest boundary is nevertheless that of a first one, then all of
that was so before. -/
def Drains (before after : Reference ω α) : Prop :=
  after.live = [] → (boundaries after.hookLog).getLast? = some .firstAdded →
    before.live = [] ∧ boundaries after.hookLog = boundaries before.hookLog

theorem kept_drains (panicFree : ∀ kind token, (hooks kind token).PanicFree) :
    Kept hooks Drains where
  panicFree := panicFree
  of_same same empty _ := ⟨same.1 ▸ empty, by rw [same.2]⟩
  trans := by
    intro before middle after start rest empty latest
    rcases rest empty latest with ⟨middleEmpty, unchanged⟩
    rw [unchanged] at latest ⊢
    exact start middleEmpty latest
  first := by
    intro before middle after listener token _ _ _ firstWay way empty latest
    rcases way empty latest with ⟨middleEmpty, unchanged⟩
    rw [unchanged] at latest
    simp only [hookLog_note_hook, boundaries_concat] at latest
    exact (before.live_append_ne_nil listener (firstWay middleEmpty latest).1).elim
  another := by
    intro before after listener token _ _ way empty latest
    exact (before.live_append_ne_nil listener (way empty latest).1).elim
  oneOfSeveral := by
    intro before after token _ someLeft way empty latest
    exact (someLeft (way empty latest).1).elim
  last := by
    intro before middle after token _ _ _ _ way empty latest
    rw [(way empty latest).2] at latest
    simp [isBoundary] at latest

/-- First and last ones have taken turns, and it is the turn of a first one if there is no
listener. -/
structure Settled (reference : Reference ω α) : Prop where
  alternate : Alternate (boundaries reference.hookLog)
  even_iff : (boundaries reference.hookLog).length % 2 = 0 ↔ reference.live = []

theorem Settled.of_unchanged (settled : before.Settled) (live : after.live = [] ↔ before.live = [])
    (unchanged : boundaries after.hookLog = boundaries before.hookLog) : after.Settled where
  alternate := unchanged ▸ settled.alternate
  even_iff := by rw [unchanged, live, settled.even_iff]

/-- The first listener has come, and its hook is called. -/
theorem Settled.of_first (settled : before.Settled) (empty : before.live = [])
    (someLive : after.live ≠ [])
    (called : boundaries after.hookLog = boundaries before.hookLog ++ [.firstAdded]) :
    after.Settled where
  alternate := by
    rw [called]
    exact settled.alternate.concat (by simp [boundaryAt, settled.even_iff, empty])
  even_iff := by
    have even := settled.even_iff.2 empty
    rw [called, List.length_append, List.length_singleton]
    exact iff_of_false (by omega) someLive

/-- The last listener has gone, and its hook is called. -/
theorem Settled.of_last (settled : before.Settled) (someLive : before.live ≠ [])
    (empty : after.live = [])
    (called : boundaries after.hookLog = boundaries before.hookLog ++ [.lastRemoved]) :
    after.Settled where
  alternate := by
    rw [called]
    exact settled.alternate.concat (by simp [boundaryAt, settled.even_iff, someLive])
  even_iff := by
    have odd := mt settled.even_iff.1 someLive
    rw [called, List.length_append, List.length_singleton]
    exact iff_of_true (by omega) empty

theorem settled_new (world : ω) : Settled ({ world } : Reference ω α) where
  alternate := by
    intro position kind found
    simp [hookLog, boundaries] at found
  even_iff := by simp [hookLog, boundaries]

theorem live_ne_nil {token : Token} (isLive : token ∈ tokens before.live) : before.live ≠ [] := by
  intro empty
  simp [empty, tokens] at isLive

theorem kept_settled (panicFree : ∀ kind token, (hooks kind token).PanicFree)
    (subscribesNone : ∀ token, (hooks .removed token).SubscribesNone) :
    Kept hooks fun before after => before.Settled → after.Settled where
  panicFree := panicFree
  of_same same settled := settled.of_unchanged (by rw [same.1]) (by rw [same.2])
  trans start rest settled := rest (start settled)
  first := by
    intro before middle after listener token _ empty _ firstWay way settled
    have announced := firstWay (settled.of_first empty (before.live_append_ne_nil listener)
      (by simp [isBoundary]))
    exact way (announced.of_unchanged Iff.rfl (by simp [isBoundary]))
  another := by
    intro before after listener token _ someLive way settled
    apply way
    exact settled.of_unchanged (iff_of_false (before.live_append_ne_nil listener) someLive)
      (by simp [isBoundary])
  oneOfSeveral := by
    intro before after token isLive someLeft way settled
    apply way
    exact settled.of_unchanged (iff_of_false someLeft (live_ne_nil isLive)) (by simp [isBoundary])
  last := by
    intro before middle after token isLive empty same _ way settled
    -- The hook for the removal has found no listener and added none.
    rcases same (subscribesNone token) with ⟨live, log⟩
    apply way
    refine settled.of_last (live_ne_nil isLive) (live.trans empty) ?_
    rw [hookLog_note_hook, boundaries_concat, log, hookLog_note_hook, boundaries_concat]
    rfl

end Reference

/-! ## Added before removed -/

/-- One of these hooks was called for a token. -/
def Announces (kinds : List HookKind) (log : List (HookKind × Token)) (token : Token) : Prop :=
  ∃ kind ∈ kinds, (kind, token) ∈ log

theorem Announces.append {kinds : List HookKind} {log : List (HookKind × Token)} {token : Token}
    (announces : Announces kinds log token) (later : List (HookKind × Token)) :
    Announces kinds (log ++ later) token := by
  rcases announces with ⟨kind, kindMem, called⟩
  exact ⟨kind, kindMem, List.mem_append_left later called⟩

/-- Before the hook of a removal is called, one of these was called for the token. -/
def Precede (kinds : List HookKind) (log : List (HookKind × Token)) : Prop :=
  ∀ (earlier later : List (HookKind × Token)) (token : Token),
    log = earlier ++ (.removed, token) :: later → Announces kinds earlier token

theorem Precede.concat {kinds : List HookKind} {log : List (HookKind × Token)}
    (precede : Precede kinds log) {kind : HookKind} {token : Token}
    (announced : kind = .removed → Announces kinds log token) :
    Precede kinds (log ++ [(kind, token)]) := by
  intro earlier later other split
  rcases List.eq_nil_or_concat later with rfl | ⟨others, last, rfl⟩
  · rcases List.append_inj' split rfl with ⟨rfl, same⟩
    cases same
    exact announced rfl
  · rw [List.concat_eq_append, ← List.cons_append, ← List.append_assoc] at split
    exact precede earlier others other (List.append_inj' split rfl).1

namespace Reference

/-- Every live token was announced, and every one that was removed was so before. -/
structure Announced (kinds : List HookKind) (reference : Reference ω α) : Prop where
  live : ∀ token ∈ tokens reference.live, Announces kinds reference.hookLog token
  precede : Precede kinds reference.hookLog

variable {hooks : Hooks ω α} {before middle : Reference ω α} {kinds : List HookKind}

/-- A hook is called, and announces the token if it is new. -/
theorem Announced.note (announced : before.Announced kinds) {kind : HookKind} {token : Token}
    (log : middle.hookLog = before.hookLog)
    (live : ∀ other ∈ tokens middle.live,
      other ∈ tokens before.live ∨ kind ∈ kinds ∧ other = token)
    (removed : kind = .removed → token ∈ tokens before.live) :
    (middle.note (.hook kind token)).Announced kinds where
  live := by
    intro other otherMem
    rw [hookLog_note_hook, log]
    rcases live other otherMem with old | ⟨kindMem, rfl⟩
    · exact (announced.live other old).append _
    · exact ⟨kind, kindMem, by simp⟩
  precede := by
    rw [hookLog_note_hook, log]
    exact announced.precede.concat fun isRemoved => announced.live token (removed isRemoved)

theorem announced_new (world : ω) : Announced kinds ({ world } : Reference ω α) where
  live := by simp [tokens]
  precede := by
    intro earlier later token split
    simp [hookLog] at split

/-- The hook for the first listener announces it, or it leaves that to the next one and does not
call back. -/
theorem kept_announced (kinds : List HookKind)
    (panicFree : ∀ kind token, (hooks kind token).PanicFree) (added : .added ∈ kinds)
    (first : .firstAdded ∈ kinds ∨ ∀ token, (hooks .firstAdded token).Passive) :
    Kept hooks fun before after => before.Announced kinds → after.Announced kinds where
  panicFree := panicFree
  of_same same announced :=
    { live := by rw [same.1, same.2]; exact announced.live
      precede := by rw [same.2]; exact announced.precede }
  trans start rest announced := rest (start announced)
  first := by
    intro before middle after listener token tokenEq _ same firstWay way announced
    apply way
    rcases first with announces | passive
    · refine (firstWay ?_).note rfl (fun _ => .inl) nofun
      refine announced.note rfl ?_ nofun
      intro other otherMem
      exact (mem_live_append tokenEq otherMem).imp_right (⟨announces, ·⟩)
    · -- The token is live before it is announced, but nothing has happened in between.
      rcases same (passive token) with ⟨live, log⟩
      have called : (before.note (.hook .firstAdded token)).Announced kinds :=
        announced.note rfl (fun _ => .inl) nofun
      refine called.note ?_ ?_ nofun
      · rw [log, hookLog_note_hook, hookLog_note_hook, hookLog_append]
      · intro other otherMem
        rw [live] at otherMem
        exact (mem_live_append tokenEq otherMem).imp_right (⟨added, ·⟩)
  another := by
    intro before after listener token tokenEq _ way announced
    apply way
    refine announced.note rfl ?_ nofun
    intro other otherMem
    exact (mem_live_append tokenEq otherMem).imp_right (⟨added, ·⟩)
  oneOfSeveral := by
    intro before after token isLive _ way announced
    apply way
    exact announced.note rfl (fun _ otherMem => .inl (mem_live_delete otherMem)) fun _ => isLive
  last := by
    intro before middle after token isLive _ _ removedWay way announced
    apply way
    refine (removedWay ?_).note rfl (fun _ => .inl) nofun
    exact announced.note rfl (fun _ otherMem => .inl (mem_live_delete otherMem)) fun _ => isLive

end Reference

/-! ## Runs of an event -/

/--
The order of the hooks, whatever they and the listeners do, if nothing panics. A moment at which no
operation runs is the end of a run: of what was done from outside so far.

If no listener is live, then the latest of the calls for first and last listeners is not one for a
first listener. If moreover the hooks for removals add no listener, then it is one for a first
listener just if some listener is live, and the two kinds of calls take turns.

No token is said to be removed before it was announced as the first or as another one. If the hooks
for first listeners do not call back, then it was announced as added.
-/
theorem lifecycle_order (hooks : Hooks ω α) (depth : Nat) (script : Script ω α) (world : ω)
    (hooksPanicFree : ∀ kind token, (hooks kind token).PanicFree) (panicFree : script.PanicFree)
    (finished : (Machine.run hooks depth script { world }).1 ≠ .exhausted) :
    let ran := Machine.run hooks depth script { world }
    (∃ status, ran.1 = .returned status) ∧
      (ran.2.table.liveCount = 0 → (boundaries ran.2.hookLog).getLast? ≠ some .firstAdded) ∧
      ((∀ token, (hooks .removed token).SubscribesNone) →
        Alternate (boundaries ran.2.hookLog) ∧
          ((boundaries ran.2.hookLog).getLast? = some .firstAdded ↔ 0 < ran.2.table.liveCount)) ∧
      Precede [.firstAdded, .added] ran.2.hookLog ∧
      ((∀ token, (hooks .firstAdded token).Passive) → Precede [.added] ran.2.hookLog) := by
  intro ran
  obtain ⟨outcome, simulates⟩ := run_agrees hooks depth 0 (simulates_new world) script
  have log : ran.2.hookLog = (Reference.run hooks depth 0 script { world }).2.hookLog :=
    congrArg hookCalls simulates.trace
  have counted : ran.2.table.liveCount =
      (Reference.run hooks depth 0 script { world }).2.live.length := by
    rw [simulates.consistent.liveCount, simulates.live]
  rw [outcome] at finished
  have drains := (Reference.kept_drains hooksPanicFree).of_new panicFree depth world finished
  refine ⟨?_, ?_, ?_, ?_, ?_⟩
  · rw [outcome]
    exact drains.1
  · intro noneLive latest
    rw [counted] at noneLive
    rw [log] at latest
    -- On a new event no hook was called yet, so it cannot have stood so before.
    have unchanged := (drains.2 (List.length_eq_zero_iff.1 noneLive) latest).2
    rw [unchanged] at latest
    simp [Reference.hookLog, boundaries] at latest
  · intro subscribesNone
    have kept := Reference.kept_settled hooksPanicFree subscribesNone
    have settled :=
      (kept.of_new panicFree depth world finished).2 (Reference.settled_new world)
    rw [log, counted]
    refine ⟨settled.alternate, ?_⟩
    rw [settled.alternate.getLast?_iff, ne_eq, settled.even_iff, List.length_pos_iff]
  · have kept := Reference.kept_announced [.firstAdded, .added] hooksPanicFree (by simp)
      (.inl (by simp))
    rw [log]
    exact ((kept.of_new panicFree depth world finished).2 (Reference.announced_new world)).precede
  · intro passive
    have kept := Reference.kept_announced [.added] hooksPanicFree (by simp) (.inr passive)
    rw [log]
    exact ((kept.of_new panicFree depth world finished).2 (Reference.announced_new world)).precede

/-- The hook for the last listener adds another one, and that for a removal notifies. -/
theorem lifecycle_order_reentrant :
    let cancels : Listener Unit Nat := fun _ => .done .cancel
    let hooks : Hooks Unit Nat := fun kind _ =>
      match kind with
      | .removed => .notify 0 .panic .done
      | .lastRemoved => .subscribe cancels fun _ => .done .retain
      | _ => .done .retain
    let script : Script Unit Nat :=
      .subscribe cancels fun _ => .notify 0 .panic fun _ => .unsubscribe ⟨2⟩ fun _ => .done .retain
    let ran := Machine.run hooks 4 script { world := () }
    ran.1 = .returned .retain ∧ ran.2.table.liveCount = 1 ∧
      Alternate (boundaries ran.2.hookLog) ∧
      (boundaries ran.2.hookLog).getLast? = some .firstAdded ∧
      Precede [.added] ran.2.hookLog := by
  intro cancels hooks script ran
  have finished : ran.1 = .returned .retain := by decide +kernel
  have panicFree : ∀ kind token, (hooks kind token).PanicFree := by
    intro kind token
    cases kind <;> simp [hooks, cancels, Script.PanicFree]
  have scriptPanicFree : script.PanicFree := by simp [script, cancels, Script.PanicFree]
  have order := lifecycle_order hooks 4 script () panicFree scriptPanicFree
    (by rw [finished]; exact nofun)
  rcases order with ⟨_, _, settled, _, added⟩
  have subscribesNone : ∀ token, (hooks .removed token).SubscribesNone := by
    simp [hooks, Script.SubscribesNone]
  have passive : ∀ token, (hooks .firstAdded token).Passive := fun _ => trivial
  rcases settled subscribesNone with ⟨alternate, latest⟩
  exact ⟨finished, by decide +kernel, alternate, latest.2 (by decide +kernel), added passive⟩

/-- Where the hook for a removal adds a listener, the call for the last one comes after that for a
new first one, although a listener is live. Where the hook for the first listener removes it, it is
said to be removed before it is said to be added. -/
theorem lifecycle_order_broken :
    let stays : Listener Unit Nat := fun _ => .done .retain
    let script : Script Unit Nat :=
      .subscribe stays fun token => .unsubscribe token fun _ => .done .retain
    let subscribing : Hooks Unit Nat := fun kind token =>
      if kind = .removed ∧ token = ⟨1⟩ then .subscribe stays fun _ => .done .retain
      else .done .retain
    let removing : Hooks Unit Nat := fun kind token =>
      if kind = .firstAdded then .unsubscribe token fun _ => .done .retain else .done .retain
    let subscribed := Machine.run subscribing 4 script { world := () }
    let removed := Machine.run removing 4 script { world := () }
    (subscribed.1 = .returned .retain ∧ subscribed.2.table.liveCount = 1 ∧
      (boundaries subscribed.2.hookLog).getLast? = some .lastRemoved ∧
      ¬ Alternate (boundaries subscribed.2.hookLog)) ∧
      removed.1 = .returned .retain ∧ ¬ Precede [.added] removed.2.hookLog := by
  intro stays script subscribing removing subscribed removed
  have boundariesEq : boundaries subscribed.2.hookLog =
      [.firstAdded, .firstAdded, .lastRemoved] := by
    decide +kernel
  have logEq : removed.2.hookLog = [(.firstAdded, ⟨1⟩)] ++ (.removed, ⟨1⟩) ::
      [(.lastRemoved, ⟨1⟩), (.added, ⟨1⟩)] := by
    decide +kernel
  refine ⟨⟨by decide +kernel, by decide +kernel, ?_, ?_⟩, by decide +kernel, ?_⟩
  · rw [boundariesEq]
    rfl
  · rw [boundariesEq]
    intro alternate
    cases alternate 1 .firstAdded rfl
  · intro precede
    rcases precede _ _ _ logEq with ⟨kind, kindMem, called⟩
    simp_all

end ValueBus.Event
