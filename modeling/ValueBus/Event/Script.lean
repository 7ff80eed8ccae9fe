import ValueBus.Event.Table

/-!
# Events and scripts

A listener is an arbitrary program that may call back into the event that calls it, and so is a
lifecycle hook. Such a program is a `Script`: a tree of operations on the event, each with one
branch for every answer, over a world `ω` that stands for whatever state listeners share. The values
of notifications are of type `α`.

Running a script is total. Listeners may notify the event that called them without end, so a run is
given the number of callbacks that may be entered inside one another; `Outcome.exhausted` says that
they were not enough.
-/

namespace ValueBus.Event

/-- The four moments at which a hook is called. -/
inductive HookKind where
  | firstAdded
  | added
  | removed
  | lastRemoved
  deriving DecidableEq, Repr

/-- A program of operations on an event, which ends with a status or with a panic. -/
inductive Script (ω α : Type) where
  | done (status : Status)
  | panic (message : String)
  /-- Adds a listener; the answer is its token. -/
  | subscribe (listener : α → Script ω α) (next : Token → Script ω α)
  /-- Removes a listener; the answer is whether it was live. -/
  | unsubscribe (token : Token) (next : Bool → Script ω α)
  /-- Calls the listeners; the answer is the status of the event afterwards. A panic of one of them
  goes on with `recover`. -/
  | notify (value : α) (recover : String → Script ω α) (next : Status → Script ω α)
  /-- Asks for the number of live listeners and of notifications in flight. -/
  | observe (next : Nat → Nat → Script ω α)
  /-- Asks whether a token names a live listener. -/
  | isSubscribed (token : Token) (next : Bool → Script ω α)
  /-- Changes the world; the answer is the world before the change. -/
  | update (change : ω → ω) (next : ω → Script ω α)

abbrev Listener (ω α : Type) :=
  α → Script ω α

/-- The hooks of an event: what to do at a moment of the life of a token. -/
abbrev Hooks (ω α : Type) :=
  HookKind → Token → Script ω α

def noHooks {ω α : Type} : Hooks ω α := fun _ _ => .done .retain

/-- A call of a listener or a hook. -/
inductive Entry (α : Type) where
  | call (token : Token) (value : α)
  | hook (kind : HookKind) (token : Token)
  deriving DecidableEq, Repr

/-- An event, the world, and the calls of listeners and hooks so far, oldest first. -/
structure Machine (ω α : Type) where
  table : Table (Listener ω α) := {}
  world : ω
  trace : List (Entry α) := []

inductive Outcome where
  | returned (status : Status)
  | panicked (message : String)
  /-- Callbacks were nested deeper than allowed. -/
  | exhausted
  deriving DecidableEq, Repr

/-- The status of an event: without listeners it is of no more use. -/
def Table.status {ℓ : Type} (table : Table ℓ) : Status :=
  if table.liveCount > 0 then .retain else .cancel

namespace Machine

variable {ω α : Type}

def note (machine : Machine ω α) (entry : Entry α) : Machine ω α :=
  { machine with trace := machine.trace ++ [entry] }

/-- Calls hooks in order, with `callback` to run them, until one does not return. -/
def callHooks (callback : Script ω α → Machine ω α → Outcome × Machine ω α)
    (hooks : Hooks ω α) (token : Token) :
    List HookKind → Machine ω α → Outcome × Machine ω α
  | [], machine => (.returned .retain, machine)
  | kind :: rest, machine =>
      match callback (hooks kind token) (machine.note (.hook kind token)) with
      | (.returned _, machine) => callHooks callback hooks token rest machine
      | stopped => stopped

/-- The hooks to call when a listener was added. -/
def hooksOnAdded (first : Bool) : List HookKind :=
  if first then [.firstAdded, .added] else [.added]

/-- The hooks to call when a listener was removed. -/
def hooksOnRemoved (last : Bool) : List HookKind :=
  if last then [.removed, .lastRemoved] else [.removed]

/-- Removes a listener and calls the hooks; the answer is whether it was live. -/
def unsubscribe (callback : Script ω α → Machine ω α → Outcome × Machine ω α)
    (hooks : Hooks ω α) (token : Token) (machine : Machine ω α) :
    Bool × Outcome × Machine ω α :=
  match machine.table.unsubscribe token with
  | (some last, table) =>
      (true, callHooks callback hooks token (hooksOnRemoved last) { machine with table })
  | (none, table) => (false, .returned .retain, { machine with table })

/-- Calls listeners in order with a value and removes those that cancel, until one does not
return. -/
def callListeners (callback : Script ω α → Machine ω α → Outcome × Machine ω α)
    (hooks : Hooks ω α) (value : α) :
    List (Token × Listener ω α) → Machine ω α → Outcome × Machine ω α
  | [], machine => (.returned .retain, machine)
  | (token, listener) :: rest, machine =>
      match callback (listener value) (machine.note (.call token value)) with
      | (.returned .retain, machine) => callListeners callback hooks value rest machine
      | (.returned .cancel, machine) =>
          match machine.unsubscribe callback hooks token with
          | (_, .returned _, machine) => callListeners callback hooks value rest machine
          | (_, stopped) => stopped
      | stopped => stopped

/-- Runs a script, with `callback` to run the scripts of listeners and hooks that it causes. -/
def runWith (callback : Script ω α → Machine ω α → Outcome × Machine ω α)
    (hooks : Hooks ω α) : Script ω α → Machine ω α → Outcome × Machine ω α
  | .done status, machine => (.returned status, machine)
  | .panic message, machine => (.panicked message, machine)
  | .subscribe listener next, machine =>
      let ((token, first), table) := machine.table.subscribe listener
      match callHooks callback hooks token (hooksOnAdded first) { machine with table } with
      | (.returned _, machine) => runWith callback hooks (next token) machine
      | stopped => stopped
  | .unsubscribe token next, machine =>
      match machine.unsubscribe callback hooks token with
      | (found, .returned _, machine) => runWith callback hooks (next found) machine
      | (_, stopped) => stopped
  | .notify value recover next, machine =>
      let (listeners, table) := machine.table.beginNotify
      let (outcome, machine) := callListeners callback hooks value listeners { machine with table }
      let machine := { machine with table := machine.table.endNotify }
      match outcome with
      | .returned _ => runWith callback hooks (next machine.table.status) machine
      | .panicked message => runWith callback hooks (recover message) machine
      | .exhausted => (.exhausted, machine)
  | .observe next, machine =>
      runWith callback hooks (next machine.table.liveCount machine.table.inFlight) machine
  | .isSubscribed token next, machine =>
      runWith callback hooks (next (machine.table.isLive token)) machine
  | .update change next, machine =>
      runWith callback hooks (next machine.world) { machine with world := change machine.world }

/-- Runs a script in which at most `depth` callbacks are entered inside one another. -/
def run (hooks : Hooks ω α) : Nat → Script ω α → Machine ω α → Outcome × Machine ω α
  | 0 => fun _ machine => (.exhausted, machine)
  | depth + 1 => runWith (run hooks depth) hooks

end Machine

end ValueBus.Event
