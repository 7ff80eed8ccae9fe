import ValueBus.Proofs.Scripts
import ValueBus.Proofs.Sections

/-!
# The history of a run

A run takes the table through sections, one after the other, since it has only one thread. Its
history lists them in that order: those of the script, and at their places those of the listeners
and hooks that it calls. A run that is cut short has the history up to there.

The functions here follow those that run a script. What is said of a part of a run, of where it
starts, what it goes through and how it ends, is proved by one induction from what holds of single
sections with the hooks that they cause. In this way every run goes through its history, whatever
scripts and hooks do. So what holds of the sections of any callers holds of a run.
-/

namespace ValueBus.Event

open Passage

variable {ω α : Type}

namespace Machine

section History

variable (callback : Script ω α → Machine ω α → Outcome × Machine ω α)
  (within : Script ω α → Machine ω α → List (Passage (Listener ω α))) (hooks : Hooks ω α)

/-- What is gone through while hooks are called, with `within` for the scripts that `callback`
runs. -/
def historyOfHooks (token : Token) :
    List HookKind → Machine ω α → List (Passage (Listener ω α))
  | [], _ => []
  | kind :: rest, machine =>
      within (hooks kind token) (machine.note (.hook kind token)) ++
        match callback (hooks kind token) (machine.note (.hook kind token)) with
        | (.returned _, machine) => historyOfHooks token rest machine
        | _ => []

/-- What is gone through to remove a listener and to call the hooks. -/
def historyOfUnsubscribe (token : Token) (machine : Machine ω α) :
    List (Passage (Listener ω α)) :=
  match machine.table.unsubscribe token with
  | (some last, table) =>
      .removed token last ::
        historyOfHooks callback within hooks token (hooksOnRemoved last) { machine with table }
  | (none, _) => [.refused token]

/-- What is gone through while listeners are called and those that cancel are removed. -/
def historyOfListeners (value : α) :
    List (Token × Listener ω α) → Machine ω α → List (Passage (Listener ω α))
  | [], _ => []
  | (token, listener) :: rest, machine =>
      within (listener value) (machine.note (.call token value)) ++
        match callback (listener value) (machine.note (.call token value)) with
        | (.returned .retain, machine) => historyOfListeners value rest machine
        | (.returned .cancel, machine) =>
            historyOfUnsubscribe callback within hooks token machine ++
              match machine.unsubscribe callback hooks token with
              | (_, .returned _, machine) => historyOfListeners value rest machine
              | _ => []
        | _ => []

/-- What a script goes through, with `within` for the scripts that `callback` runs. -/
def historyWith : Script ω α → Machine ω α → List (Passage (Listener ω α))
  | .done _, _ | .panic _, _ => []
  | .subscribe listener next, machine =>
      let ((token, first), table) := machine.table.subscribe listener
      .added token listener first ::
        (historyOfHooks callback within hooks token (hooksOnAdded first) { machine with table } ++
          match callHooks callback hooks token (hooksOnAdded first) { machine with table } with
          | (.returned _, machine) => historyWith (next token) machine
          | _ => [])
  | .unsubscribe token next, machine =>
      historyOfUnsubscribe callback within hooks token machine ++
        match machine.unsubscribe callback hooks token with
        | (found, .returned _, machine) => historyWith (next found) machine
        | _ => []
  | .notify value recover next, machine =>
      let (listeners, table) := machine.table.beginNotify
      let (outcome, after) := callListeners callback hooks value listeners { machine with table }
      let ended := { after with table := after.table.endNotify }
      .begun listeners ::
        (historyOfListeners callback within hooks value listeners { machine with table } ++
          .ended ::
            match outcome with
            | .returned _ => historyWith (next ended.table.status) ended
            | .panicked message => historyWith (recover message) ended
            | .exhausted => [])
  | .observe next, machine =>
      historyWith (next machine.table.liveCount machine.table.inFlight) machine
  | .isSubscribed token next, machine => historyWith (next (machine.table.isLive token)) machine
  | .update change next, machine =>
      historyWith (next machine.world) { machine with world := change machine.world }

end History

/-- The sections that a run goes through, in order. -/
def history (hooks : Hooks ω α) : Nat → Script ω α → Machine ω α →
    List (Passage (Listener ω α))
  | 0 => fun _ _ => []
  | depth + 1 => historyWith (run hooks depth) (history hooks depth) hooks

end Machine

/-! ## Parts of a run -/

/-- A statement on parts of runs that holds of nothing, of one part after another, of a section with
the hooks that it causes, and of a notification around its calls. -/
structure Tracked (hooks : Hooks ω α)
    (part : Machine ω α → List (Passage (Listener ω α)) → Outcome × Machine ω α → Prop) : Prop where
  nothing : ∀ {machine after : Machine ω α} (outcome : Outcome), after.table = machine.table →
    after.hookLog = machine.hookLog → part machine [] (outcome, after)
  andThen : ∀ {machine middle : Machine ω α} {earlier later : List (Passage (Listener ω α))}
    {outcome : Outcome} {ran : Outcome × Machine ω α}, part machine earlier (outcome, middle) →
    outcome ≠ .exhausted → part middle later ran → part machine (earlier ++ later) ran
  added : ∀ {depth : Nat}, (∀ script machine,
      part machine (Machine.history hooks depth script machine)
        (Machine.run hooks depth script machine)) →
    ∀ {machine : Machine ω α} {listener : Listener ω α} {token : Token} {first : Bool}
      {table : Table (Listener ω α)},
    machine.table.subscribe listener = ((token, first), table) →
    part machine (.added token listener first ::
        Machine.historyOfHooks (Machine.run hooks depth) (Machine.history hooks depth) hooks token
          (Machine.hooksOnAdded first) { machine with table })
      (Machine.callHooks (Machine.run hooks depth) hooks token (Machine.hooksOnAdded first)
        { machine with table })
  removed : ∀ {depth : Nat}, (∀ script machine,
      part machine (Machine.history hooks depth script machine)
        (Machine.run hooks depth script machine)) →
    ∀ {machine : Machine ω α} {token : Token} {last : Bool} {table : Table (Listener ω α)},
    machine.table.unsubscribe token = (some last, table) →
    part machine (.removed token last ::
        Machine.historyOfHooks (Machine.run hooks depth) (Machine.history hooks depth) hooks token
          (Machine.hooksOnRemoved last) { machine with table })
      (Machine.callHooks (Machine.run hooks depth) hooks token (Machine.hooksOnRemoved last)
        { machine with table })
  refused : ∀ {machine : Machine ω α} {token : Token} {table : Table (Listener ω α)},
    machine.table.unsubscribe token = (none, table) →
    part machine [.refused token] (.returned .retain, { machine with table })
  notified : ∀ {machine after : Machine ω α} {listeners : List (Token × Listener ω α)}
    {table : Table (Listener ω α)} {inside : List (Passage (Listener ω α))} {outcome : Outcome},
    machine.table.beginNotify = (listeners, table) →
    part { machine with table } inside (outcome, after) →
    part machine (.begun listeners :: (inside ++ [.ended]))
      (outcome, { after with table := after.table.endNotify })

namespace Tracked

variable {hooks : Hooks ω α}
  {part : Machine ω α → List (Passage (Listener ω α)) → Outcome × Machine ω α → Prop}

/-- Nothing comes after a part that stops a run. -/
theorem stop {machine after : Machine ω α} {history : List (Passage (Listener ω α))}
    {outcome : Outcome} (ran : part machine history (outcome, after)) :
    part machine (history ++ []) (outcome, after) := by
  rw [List.append_nil]
  exact ran

variable (tracked : Tracked hooks part)
include tracked

section Depth

variable {depth : Nat}
  (inner : ∀ script machine,
    part machine (Machine.history hooks depth script machine)
      (Machine.run hooks depth script machine))
include inner

theorem unsubscribe (token : Token) (machine : Machine ω α) :
    part machine
      (Machine.historyOfUnsubscribe (Machine.run hooks depth) (Machine.history hooks depth) hooks
        token machine)
      (machine.unsubscribe (Machine.run hooks depth) hooks token).2 := by
  rw [Machine.historyOfUnsubscribe, Machine.unsubscribe]
  rcases unsubscribed : machine.table.unsubscribe token with ⟨removed, table⟩
  cases removed with
  | none => exact tracked.refused unsubscribed
  | some last => exact tracked.removed inner unsubscribed

theorem callListeners (value : α) (listeners : List (Token × Listener ω α))
    (machine : Machine ω α) :
    part machine
      (Machine.historyOfListeners (Machine.run hooks depth) (Machine.history hooks depth) hooks
        value listeners machine)
      (Machine.callListeners (Machine.run hooks depth) hooks value listeners machine) := by
  induction listeners generalizing machine with
  | nil => exact tracked.nothing _ rfl rfl
  | cons entry rest ih =>
      rcases entry with ⟨token, listener⟩
      have noted : part machine [] (.returned .retain, machine.note (.call token value)) :=
        tracked.nothing _ rfl (machine.hookLog_note_call token value)
      have called := tracked.andThen noted (by simp)
        (inner (listener value) (machine.note (.call token value)))
      simp only [Machine.historyOfListeners, Machine.callListeners]
      rcases ran : Machine.run hooks depth (listener value) (machine.note (.call token value)) with
        ⟨outcome, after⟩
      rw [ran] at called
      cases outcome with
      | panicked message => exact stop called
      | exhausted => exact stop called
      | returned status =>
          apply tracked.andThen called (by simp)
          cases status with
          | retain => exact ih after
          | cancel =>
              have left := tracked.unsubscribe inner token after
              dsimp only
              rcases unsubscribed : after.unsubscribe (Machine.run hooks depth) hooks token with
                ⟨found, outcome, final⟩
              rw [unsubscribed] at left
              cases outcome with
              | returned status => exact tracked.andThen left (by simp) (ih final)
              | panicked message => exact stop left
              | exhausted => exact stop left

theorem runWith (script : Script ω α) (machine : Machine ω α) :
    part machine
      (Machine.historyWith (Machine.run hooks depth) (Machine.history hooks depth) hooks script
        machine)
      (Machine.runWith (Machine.run hooks depth) hooks script machine) := by
  induction script generalizing machine with
  | done status => exact tracked.nothing _ rfl rfl
  | panic message => exact tracked.nothing _ rfl rfl
  | subscribe listener next _ ih =>
      rcases subscribed : machine.table.subscribe listener with ⟨⟨token, first⟩, table⟩
      have added := tracked.added inner subscribed
      simp only [Machine.historyWith, Machine.runWith, subscribed]
      rw [← List.cons_append]
      rcases ran : Machine.callHooks (Machine.run hooks depth) hooks token
        (Machine.hooksOnAdded first) { machine with table } with ⟨outcome, after⟩
      rw [ran] at added
      cases outcome with
      | returned status => exact tracked.andThen added (by simp) (ih token after)
      | panicked message => exact stop added
      | exhausted => exact stop added
  | unsubscribe token next ih =>
      have left := tracked.unsubscribe inner token machine
      simp only [Machine.historyWith, Machine.runWith]
      rcases unsubscribed : machine.unsubscribe (Machine.run hooks depth) hooks token with
        ⟨found, outcome, after⟩
      rw [unsubscribed] at left
      cases outcome with
      | returned status => exact tracked.andThen left (by simp) (ih found after)
      | panicked message => exact stop left
      | exhausted => exact stop left
  | notify value recover next recoverIh nextIh =>
      rcases begun : machine.table.beginNotify with ⟨listeners, table⟩
      have called := tracked.callListeners inner value listeners { machine with table }
      simp only [Machine.historyWith, Machine.runWith, begun]
      rcases ran : Machine.callListeners (Machine.run hooks depth) hooks value listeners
        { machine with table } with ⟨outcome, after⟩
      rw [ran] at called
      have notified := tracked.notified begun called
      -- The end of the notification is a section of its own, whatever stopped the calls.
      rw [List.append_cons, ← List.cons_append]
      cases outcome with
      | returned status => exact tracked.andThen notified (by simp) (nextIh _ _)
      | panicked message => exact tracked.andThen notified (by simp) (recoverIh message _)
      | exhausted => exact stop notified
  | observe next ih => exact ih _ _ machine
  | isSubscribed token next ih => exact ih _ machine
  | update change next ih =>
      have changed : part machine [] (.returned .retain,
          { machine with world := change machine.world }) := tracked.nothing _ rfl rfl
      exact tracked.andThen changed (by simp) (ih machine.world _)

end Depth

theorem run (depth : Nat) (script : Script ω α) (machine : Machine ω α) :
    part machine (Machine.history hooks depth script machine)
      (Machine.run hooks depth script machine) := by
  induction depth generalizing script machine with
  | zero => exact tracked.nothing _ rfl rfl
  | succ depth ih => exact tracked.runWith ih script machine

end Tracked

/-! ## A run goes through its history -/

/-- The way from one machine to another goes through sections, and ends the notifications that it
begins. -/
structure Accounts (machine : Machine ω α) (history : List (Passage (Listener ω α)))
    (after : Machine ω α) : Prop where
  reachable : ∀ {earlier}, Reachable earlier machine.table →
    Reachable (earlier ++ history) after.table
  balanced : notifiesBegun history = notifiesEnded history

namespace Accounts

variable {machine middle after : Machine ω α} {first later : List (Passage (Listener ω α))}

theorem of_table_eq (unchanged : after.table = machine.table) : Accounts machine [] after where
  reachable reachable := by
    rw [List.append_nil, unchanged]
    exact reachable
  balanced := rfl

theorem trans (start : Accounts machine first middle) (rest : Accounts middle later after) :
    Accounts machine (first ++ later) after where
  reachable reachable := by
    rw [← List.append_assoc]
    exact rest.reachable (start.reachable reachable)
  balanced := by
    rw [notifiesBegun_append, notifiesEnded_append, start.balanced, rest.balanced]

theorem of_pass (request : Section (Listener ω α)) {passage : Passage (Listener ω α)}
    {table : Table (Listener ω α)} (passed : machine.table.pass request = (passage, table))
    (continues : request ≠ .endNotify)
    (balanced : notifiesBegun [passage] = notifiesEnded [passage]) :
    Accounts machine [passage] { machine with table } where
  reachable reachable := by
    have longer := reachable.pass request (absurd · continues)
    rw [passed] at longer
    exact longer
  balanced := balanced

/-- What happens inside a notification, with its begin and its end. -/
theorem notify {listeners : List (Token × Listener ω α)} {table : Table (Listener ω α)}
    (begun : machine.table.beginNotify = (listeners, table))
    (inside : Accounts { machine with table } first after) :
    Accounts machine (.begun listeners :: (first ++ [.ended]))
      { after with table := after.table.endNotify } where
  reachable := by
    intro earlier reachable
    have started : Reachable (earlier ++ [.begun listeners]) table := by
      have passed := reachable.pass .beginNotify (by intro ends; cases ends)
      rw [Table.pass, begun] at passed
      exact passed
    have ended := (inside.reachable started).pass .endNotify (by
      intro _
      have one : notifiesBegun [Passage.begun listeners] = 1 := rfl
      have none : notifiesEnded [Passage.begun listeners] = 0 := rfl
      have running := reachable.records.running
      have balanced := inside.balanced
      simp only [notifiesBegun_append, notifiesEnded_append]
      omega)
    rw [List.append_cons, ← List.append_assoc]
    exact ended
  balanced := by
    have one : notifiesBegun [Passage.begun listeners] = 1 := rfl
    have none : notifiesEnded [Passage.begun listeners] = 0 := rfl
    have last : notifiesEnded [Passage.ended (ℓ := Listener ω α)] = 1 := rfl
    have noMore : notifiesBegun [Passage.ended (ℓ := Listener ω α)] = 0 := rfl
    have balanced := inside.balanced
    rw [← List.singleton_append, notifiesBegun_append, notifiesEnded_append,
      notifiesBegun_append, notifiesEnded_append]
    omega

end Accounts

namespace Machine

variable {callback : Script ω α → Machine ω α → Outcome × Machine ω α}
  {within : Script ω α → Machine ω α → List (Passage (Listener ω α))}

theorem callHooks_accounts (hooks : Hooks ω α)
    (accounts : ∀ script machine,
      Accounts machine (within script machine) (callback script machine).2)
    (token : Token) (kinds : List HookKind) (machine : Machine ω α) :
    Accounts machine (historyOfHooks callback within hooks token kinds machine)
      (callHooks callback hooks token kinds machine).2 := by
  induction kinds generalizing machine with
  | nil => exact .of_table_eq rfl
  | cons kind rest ih =>
      have noted : Accounts machine [] (machine.note (.hook kind token)) := .of_table_eq rfl
      have called := noted.trans (accounts (hooks kind token) (machine.note (.hook kind token)))
      simp only [historyOfHooks, callHooks]
      rcases ran : callback (hooks kind token) (machine.note (.hook kind token)) with
        ⟨outcome, after⟩
      rw [ran] at called
      cases outcome with
      | returned status => exact called.trans (ih after)
      | panicked message => exact called.trans (.of_table_eq rfl)
      | exhausted => exact called.trans (.of_table_eq rfl)

theorem tracked_accounts (hooks : Hooks ω α) :
    Tracked hooks fun machine history ran => Accounts machine history ran.2 where
  nothing _ unchanged _ := .of_table_eq unchanged
  andThen start _ rest := start.trans rest
  added := by
    intro depth inner machine listener token first table subscribed
    have added : Accounts machine [.added token listener first] { machine with table } :=
      .of_pass (.subscribe listener) (by rw [Table.pass, subscribed]) (by simp) rfl
    exact added.trans (callHooks_accounts hooks inner _ _ _)
  removed := by
    intro depth inner machine token last table unsubscribed
    have removed : Accounts machine [.removed token last] { machine with table } :=
      .of_pass (.unsubscribe token) (by rw [Table.pass, unsubscribed]) (by simp) rfl
    exact removed.trans (callHooks_accounts hooks inner _ _ _)
  refused := by
    intro machine token table unsubscribed
    exact .of_pass (.unsubscribe token) (by rw [Table.pass, unsubscribed]) (by simp) rfl
  notified begun called := called.notify begun

/-- Whatever scripts and hooks do, a run goes through its history. -/
theorem run_accounts (hooks : Hooks ω α) (depth : Nat) (script : Script ω α)
    (machine : Machine ω α) :
    Accounts machine (history hooks depth script machine) (run hooks depth script machine).2 :=
  (tracked_accounts hooks).run depth script machine

end Machine

end ValueBus.Event
