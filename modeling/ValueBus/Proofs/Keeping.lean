import ValueBus.Proofs.Reference
import ValueBus.Proofs.Scripts

/-!
# What all runs keep

Hooks may call back into the event that calls them. Whether a listener is the first or the last one
is decided when the table changes, but the hooks run afterwards, so what they do themselves may come
between.

A property of such runs is a relation between what stands before and after. It holds of all of them
if it goes through the four things that an operation can do with the hooks: those of the first
listener, of another one, of one of several that goes, and of the last one. The rest is an induction
that is made here once, on the reference, whose live listeners are a plain list.
-/

namespace ValueBus.Event

open Table (tokens without)

variable {ω α : Type}

namespace Reference

/-- The calls of hooks so far, oldest first. -/
def hookLog (reference : Reference ω α) : List (HookKind × Token) :=
  hookCalls reference.trace

/-- Deletes a listener. -/
def delete (reference : Reference ω α) (token : Token) : Reference ω α :=
  { reference with live := without token reference.live }

@[simp]
theorem hookLog_note_hook (reference : Reference ω α) (kind : HookKind) (token : Token) :
    (reference.note (.hook kind token)).hookLog = reference.hookLog ++ [(kind, token)] := by
  simp [hookLog, note]

@[simp]
theorem hookLog_note_call (reference : Reference ω α) (token : Token) (value : α) :
    (reference.note (.call token value)).hookLog = reference.hookLog := by
  simp [hookLog, note]

@[simp]
theorem hookLog_append (reference : Reference ω α) (listener : Listener ω α) :
    (reference.append listener).hookLog = reference.hookLog :=
  rfl

@[simp]
theorem hookLog_delete (reference : Reference ω α) (token : Token) :
    (reference.delete token).hookLog = reference.hookLog :=
  rfl

theorem live_append_ne_nil (reference : Reference ω α) (listener : Listener ω α) :
    (reference.append listener).live ≠ [] := by
  simp [append]

variable {before middle after : Reference ω α}

theorem mem_live_append {listener : Listener ω α} {token other : Token}
    (tokenEq : token = ⟨before.nextId⟩)
    (otherMem : other ∈ tokens (before.append listener).live) :
    other ∈ tokens before.live ∨ other = token := by
  subst tokenEq
  simpa [append, tokens] using otherMem

theorem mem_live_delete {token other : Token}
    (otherMem : other ∈ tokens (before.delete token).live) : other ∈ tokens before.live :=
  ((Table.without_sublist token before.live).map _).subset otherMem

/-- The same listeners are live, and no hook was called. -/
def Same (before after : Reference ω α) : Prop :=
  after.live = before.live ∧ after.hookLog = before.hookLog

/-- A script that does not call back changes nothing; nor does one that adds no listener if there is
none. -/
theorem same_run (hooks : Hooks ω α) (depth running : Nat) {script : Script ω α}
    (idle : script.Passive ∨ script.SubscribesNone ∧ before.live = []) :
    Same before (run hooks depth running script before).2 := by
  cases depth with
  | zero => exact ⟨rfl, rfl⟩
  | succ depth =>
      change Same before (runWith (run hooks depth) hooks running script before).2
      induction script generalizing before with
      | done status => exact ⟨rfl, rfl⟩
      | panic message => exact ⟨rfl, rfl⟩
      | subscribe listener next => exact (idle.elim id And.left).elim
      | unsubscribe token next ih =>
          rcases idle with passive | ⟨subscribesNone, empty⟩
          · exact passive.elim
          · have absent : ¬ (tokens before.live).contains token = true := by simp [empty, tokens]
            rw [runWith, Reference.unsubscribe, if_neg absent]
            exact ih false (.inr ⟨subscribesNone false, empty⟩)
      | notify value recover next _ ih =>
          rcases idle with passive | ⟨subscribesNone, empty⟩
          · exact passive.elim
          · have nobody : callListeners (run hooks depth (running + 1)) hooks value before.live
                before = (.returned .retain, before) := by
              rw [empty, callListeners]
            rw [runWith, nobody]
            exact ih _ (.inr ⟨subscribesNone.2 _, empty⟩)
      | observe next ih => exact ih _ _ (idle.imp (· _ _) (·.imp_left (· _ _)))
      | isSubscribed token next ih => exact ih _ (idle.imp (· _) (·.imp_left (· _)))
      | update change next ih => exact ih before.world (idle.imp (· _) (·.imp_left (· _)))

/-! ## What all runs keep -/

/-- No live listener panics of itself. -/
def Calm (reference : Reference ω α) : Prop :=
  ∀ entry ∈ reference.live, ∀ value, (entry.2 value).PanicFree

theorem Calm.append (calm : before.Calm) {listener : Listener ω α}
    (panicFree : ∀ value, (listener value).PanicFree) : (before.append listener).Calm := by
  intro entry entryMem
  rcases List.mem_append.1 entryMem with old | new
  · exact calm entry old
  · rw [List.mem_singleton.1 new]
    exact panicFree

theorem Calm.delete (calm : before.Calm) (token : Token) : (before.delete token).Calm :=
  fun entry entryMem => calm entry (List.mem_of_mem_filter entryMem)

/-- A run is given up, or it returns among calm listeners by a way that `related` allows. -/
inductive Fares (related : Reference ω α → Reference ω α → Prop) (before : Reference ω α) :
    Outcome × Reference ω α → Prop where
  | exhausted (after : Reference ω α) : Fares related before (.exhausted, after)
  | returned (status : Status) {after : Reference ω α} (calm : after.Calm)
      (way : related before after) : Fares related before (.returned status, after)

/-- Scripts that do not panic fare well among calm listeners. -/
def Keeps (related : Reference ω α → Reference ω α → Prop)
    (callback : Script ω α → Reference ω α → Outcome × Reference ω α) : Prop :=
  ∀ {script : Script ω α} {before : Reference ω α}, script.PanicFree → before.Calm →
    Fares related before (callback script before)

/-- A relation that looks at the live listeners and the log alone, and that goes through whatever an
operation does with the hooks, which may do anything that the relation allows. -/
structure Kept (hooks : Hooks ω α) (related : Reference ω α → Reference ω α → Prop) : Prop where
  panicFree : ∀ kind token, (hooks kind token).PanicFree
  of_same : ∀ {before after}, Same before after → related before after
  trans : ∀ {before middle after}, related before middle → related middle after →
    related before after
  first : ∀ {before middle after : Reference ω α} {listener : Listener ω α} {token : Token},
    token = ⟨before.nextId⟩ → before.live = [] →
    ((hooks .firstAdded token).Passive →
      Same ((before.append listener).note (.hook .firstAdded token)) middle) →
    related ((before.append listener).note (.hook .firstAdded token)) middle →
    related (middle.note (.hook .added token)) after → related before after
  another : ∀ {before after : Reference ω α} {listener : Listener ω α} {token : Token},
    token = ⟨before.nextId⟩ → before.live ≠ [] →
    related ((before.append listener).note (.hook .added token)) after → related before after
  oneOfSeveral : ∀ {before after : Reference ω α} {token : Token},
    token ∈ tokens before.live → (before.delete token).live ≠ [] →
    related ((before.delete token).note (.hook .removed token)) after → related before after
  last : ∀ {before middle after : Reference ω α} {token : Token},
    token ∈ tokens before.live → (before.delete token).live = [] →
    ((hooks .removed token).SubscribesNone →
      Same ((before.delete token).note (.hook .removed token)) middle) →
    related ((before.delete token).note (.hook .removed token)) middle →
    related (middle.note (.hook .lastRemoved token)) after → related before after

variable {related : Reference ω α → Reference ω α → Prop} {hooks : Hooks ω α}

/-- A run that is not given up has returned, by such a way. -/
theorem Fares.elim {ran : Outcome × Reference ω α} (fares : Fares related before ran)
    (finished : ran.1 ≠ .exhausted) :
    (∃ status, ran.1 = .returned status) ∧ related before ran.2 := by
  cases fares with
  | exhausted after => exact (finished rfl).elim
  | returned status calm way => exact ⟨⟨status, rfl⟩, way⟩

theorem Fares.prepend {ran : Outcome × Reference ω α} (fares : Fares related middle ran)
    (kept : Kept hooks related) (way : related before middle) : Fares related before ran := by
  cases fares with
  | exhausted after => exact .exhausted after
  | returned status calm rest => exact .returned status calm (kept.trans way rest)

namespace Kept

variable {depth running : Nat}

theorem refl (kept : Kept hooks related) (before : Reference ω α) : related before before :=
  kept.of_same ⟨rfl, rfl⟩

/-- One hook is called, and then the others. -/
theorem callHooks_cons (kept : Kept hooks related)
    (keeps : Keeps related (Reference.run hooks depth running)) {kind : HookKind} {token : Token}
    {rest : List HookKind} (calm : middle.Calm)
    (others : ∀ {after : Reference ω α}, after.Calm →
      ((hooks kind token).Passive ∨ (hooks kind token).SubscribesNone ∧ middle.live = [] →
        Same (middle.note (.hook kind token)) after) →
      related (middle.note (.hook kind token)) after →
      Fares related before (callHooks (Reference.run hooks depth running) hooks token rest after)) :
    Fares related before
      (callHooks (Reference.run hooks depth running) hooks token (kind :: rest) middle) := by
  have called : Fares related (middle.note (.hook kind token))
      (Reference.run hooks depth running (hooks kind token) (middle.note (.hook kind token))) :=
    keeps (kept.panicFree kind token) calm
  have same (idle : (hooks kind token).Passive ∨
      (hooks kind token).SubscribesNone ∧ (middle.note (.hook kind token)).live = []) :=
    same_run hooks depth running idle
  rw [callHooks]
  generalize Reference.run hooks depth running (hooks kind token) (middle.note (.hook kind token)) =
    ran at called same ⊢
  cases called with
  | exhausted after => exact .exhausted after
  | returned status calm way => exact others calm same way

theorem append (kept : Kept hooks related)
    (keeps : Keeps related (Reference.run hooks depth running)) {listener : Listener ω α}
    (calm : (before.append listener).Calm) :
    Fares related before (callHooks (Reference.run hooks depth running) hooks ⟨before.nextId⟩
      (Machine.hooksOnAdded before.live.isEmpty) (before.append listener)) := by
  cases noneBefore : before.live.isEmpty with
  | true =>
      apply kept.callHooks_cons keeps calm
      intro announced announcedCalm same firstWay
      apply kept.callHooks_cons keeps announcedCalm
      intro after afterCalm _ way
      exact .returned _ afterCalm
        (kept.first rfl (List.isEmpty_iff.1 noneBefore) (fun passive => same (.inl passive))
          firstWay way)
  | false =>
      apply kept.callHooks_cons keeps calm
      intro after afterCalm _ way
      exact .returned _ afterCalm (kept.another rfl (by simpa using noneBefore) way)

theorem delete (kept : Kept hooks related)
    (keeps : Keeps related (Reference.run hooks depth running)) (calm : before.Calm) {token : Token}
    (isLive : token ∈ tokens before.live) :
    Fares related before (callHooks (Reference.run hooks depth running) hooks token
      (Machine.hooksOnRemoved (before.delete token).live.isEmpty) (before.delete token)) := by
  cases noneLeft : (before.delete token).live.isEmpty with
  | true =>
      have empty := List.isEmpty_iff.1 noneLeft
      apply kept.callHooks_cons keeps (calm.delete token)
      intro removed removedCalm same removedWay
      apply kept.callHooks_cons keeps removedCalm
      intro after afterCalm _ way
      exact .returned _ afterCalm
        (kept.last isLive empty (fun subscribesNone => same (.inr ⟨subscribesNone, empty⟩))
          removedWay way)
  | false =>
      apply kept.callHooks_cons keeps (calm.delete token)
      intro after afterCalm _ way
      exact .returned _ afterCalm (kept.oneOfSeveral isLive (by simpa using noneLeft) way)

theorem unsubscribe (kept : Kept hooks related)
    (keeps : Keeps related (Reference.run hooks depth running)) (calm : before.Calm)
    (token : Token) :
    Fares related before
      (before.unsubscribe (Reference.run hooks depth running) hooks token).2 := by
  rw [Reference.unsubscribe]
  by_cases found : (tokens before.live).contains token
  · rw [if_pos found]
    exact kept.delete keeps calm (List.contains_iff_mem.1 found)
  · rw [if_neg found]
    exact .returned .retain calm (kept.refl before)

theorem callListeners (kept : Kept hooks related)
    (keeps : Keeps related (Reference.run hooks depth running)) (value : α)
    {listeners : List (Token × Listener ω α)}
    (panicFree : ∀ entry ∈ listeners, (entry.2 value).PanicFree) (calm : before.Calm) :
    Fares related before (Reference.callListeners (Reference.run hooks depth running) hooks value
      listeners before) := by
  induction listeners generalizing before with
  | nil => exact .returned .retain calm (kept.refl before)
  | cons entry rest ih =>
      rcases entry with ⟨token, listener⟩
      rcases List.forall_mem_cons.1 panicFree with ⟨listenerPanicFree, restPanicFree⟩
      have noted : related before (before.note (.call token value)) :=
        kept.of_same ⟨rfl, hookLog_note_call ..⟩
      have called : Fares related (before.note (.call token value))
          (Reference.run hooks depth running (listener value) (before.note (.call token value))) :=
        keeps listenerPanicFree calm
      rw [Reference.callListeners]
      generalize Reference.run hooks depth running (listener value)
        (before.note (.call token value)) = ran at called ⊢
      cases called.prepend kept noted with
      | exhausted after => exact .exhausted after
      | @returned status after calm way =>
          cases status with
          | retain => exact (ih restPanicFree calm).prepend kept way
          | cancel =>
              have left := (kept.unsubscribe keeps calm token).prepend kept way
              dsimp only
              rcases unsubscribed :
                after.unsubscribe (Reference.run hooks depth running) hooks token with
                ⟨found, outcome, final⟩
              rw [unsubscribed] at left
              cases left with
              | exhausted => exact .exhausted final
              | returned status calm way => exact (ih restPanicFree calm).prepend kept way

/-- Every run keeps it. -/
theorem run (kept : Kept hooks related) (depth running : Nat) :
    Keeps related (Reference.run hooks depth running) := by
  induction depth generalizing running with
  | zero => exact fun {_ before} _ _ => .exhausted before
  | succ depth keeps =>
      intro script before panicFree calm
      change Fares related before (runWith (Reference.run hooks depth) hooks running script before)
      induction script generalizing before with
      | done status => exact .returned status calm (kept.refl before)
      | panic message => exact panicFree.elim
      | subscribe listener next _ ih =>
          have added := kept.append (keeps running) (calm.append panicFree.1)
          rw [runWith]
          generalize callHooks (Reference.run hooks depth running) hooks ⟨before.nextId⟩
            (Machine.hooksOnAdded before.live.isEmpty) (before.append listener) = ran at added ⊢
          cases added with
          | exhausted after => exact .exhausted after
          | returned status calm way => exact (ih _ (panicFree.2 _) calm).prepend kept way
      | unsubscribe token next ih =>
          have left := kept.unsubscribe (keeps running) calm token
          rw [runWith]
          rcases unsubscribed :
            before.unsubscribe (Reference.run hooks depth running) hooks token with
            ⟨found, outcome, after⟩
          rw [unsubscribed] at left
          cases left with
          | exhausted => exact .exhausted after
          | returned status calm way => exact (ih found (panicFree found) calm).prepend kept way
      | notify value recover next _ ih =>
          have called := kept.callListeners (keeps (running + 1)) value
            (fun entry entryMem => calm entry entryMem value) calm
          rw [runWith]
          generalize Reference.callListeners (Reference.run hooks depth (running + 1)) hooks value
            before.live before = ran at called ⊢
          cases called with
          | exhausted after => exact .exhausted after
          | returned status calm way => exact (ih _ (panicFree _) calm).prepend kept way
      | observe next ih => exact ih _ _ (panicFree _ _) calm
      | isSubscribed token next ih => exact ih _ (panicFree _) calm
      | update change next ih =>
          let changed : Reference ω α := { before with world := change before.world }
          have way : related before changed := kept.of_same ⟨rfl, rfl⟩
          have changedCalm : changed.Calm := calm
          exact (ih before.world (panicFree before.world) changedCalm).prepend kept way

theorem of_new (kept : Kept hooks related) {script : Script ω α} (panicFree : script.PanicFree)
    (depth : Nat) (world : ω)
    (finished : (Reference.run hooks depth 0 script { world }).1 ≠ .exhausted) :
    (∃ status, (Reference.run hooks depth 0 script { world }).1 = .returned status) ∧
      related { world } (Reference.run hooks depth 0 script { world }).2 := by
  have calm : ({ world } : Reference ω α).Calm := by simp [Calm]
  exact (kept.run depth 0 panicFree calm).elim finished

end Kept

end Reference

end ValueBus.Event
