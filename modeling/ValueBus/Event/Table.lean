import ValueBus.Event.Token

/-!
# The listener table

The bookkeeping of an event. While a notification is in flight its listeners must not change under
it, so additions and removals are noted as pending; they are applied when the next notification
begins or the last one ends. Every operation is one step on the table, so that notifications may be
nested and interleaved in any way.
-/

namespace ValueBus.Event

/-- What a listener answers: whether it wants to stay. -/
inductive Status where
  | retain
  | cancel
  deriving DecidableEq, Repr, Inhabited

/-- The listeners of an event. `active` is in order of subscription; `pendingRemove` names some of
the active ones. -/
structure Table (ℓ : Type) where
  active : List (Token × ℓ) := []
  pendingAdd : List (Token × ℓ) := []
  pendingRemove : List Token := []
  nextId : Nat := 1
  inFlight : Nat := 0
  deriving Inhabited

namespace Table

variable {ℓ : Type}

def tokens (listeners : List (Token × ℓ)) : List Token :=
  listeners.map (·.1)

/-- The listeners without the one named by a token. -/
def without (token : Token) (listeners : List (Token × ℓ)) : List (Token × ℓ) :=
  listeners.filter (·.1 ≠ token)

/-- The number of listeners that the next notification will call. -/
def liveCount (table : Table ℓ) : Nat :=
  table.active.length - table.pendingRemove.length + table.pendingAdd.length

/-- Whether an active listener stays active. -/
def isKept (table : Table ℓ) (token : Token) : Bool :=
  (tokens table.active).contains token && !table.pendingRemove.contains token

/-- Whether the next notification will call the listener named by a token. -/
def isLive (table : Table ℓ) (token : Token) : Bool :=
  table.isKept token || (tokens table.pendingAdd).contains token

/-- Applies what is pending. New listeners come after all others, since their tokens do. -/
def flush (table : Table ℓ) : Table ℓ :=
  { table with
    active :=
      table.active.filter (fun listener => !table.pendingRemove.contains listener.1) ++
        table.pendingAdd
    pendingAdd := []
    pendingRemove := [] }

/-- Adds a listener. The answer is its token and whether no listener was live before. -/
def subscribe (table : Table ℓ) (listener : ℓ) : (Token × Bool) × Table ℓ :=
  let token : Token := ⟨table.nextId⟩
  let first := table.liveCount = 0
  let issued := { table with nextId := table.nextId + 1 }
  if table.inFlight > 0 then
    ((token, first), { issued with pendingAdd := table.pendingAdd ++ [(token, listener)] })
  else
    ((token, first), { issued with active := table.active ++ [(token, listener)] })

/-- The table without a live listener; none if the token names no live listener. -/
def remove? (table : Table ℓ) (token : Token) : Option (Table ℓ) :=
  if (tokens table.pendingAdd).contains token then
    some { table with pendingAdd := without token table.pendingAdd }
  else if table.isKept token then
    if table.inFlight > 0 then
      some { table with pendingRemove := table.pendingRemove ++ [token] }
    else
      some { table with active := without token table.active }
  else
    none

/-- Removes a live listener. The answer, if there was one, is whether no listener is left. -/
def unsubscribe (table : Table ℓ) (token : Token) : Option Bool × Table ℓ :=
  match table.remove? token with
  | some after => (some (after.liveCount = 0), after)
  | none => (none, table)

/-- Begins a notification: applies what is pending and answers the listeners to call. -/
def beginNotify (table : Table ℓ) : List (Token × ℓ) × Table ℓ :=
  let flushed := table.flush
  (flushed.active, { flushed with inFlight := flushed.inFlight + 1 })

/-- Ends a notification; the last one in flight applies what is pending. -/
def endNotify (table : Table ℓ) : Table ℓ :=
  let ended := { table with inFlight := table.inFlight - 1 }
  if ended.inFlight = 0 then ended.flush else ended

def describe (table : Table ℓ) : String :=
  s!"Event \x7b listeners: {table.liveCount}, in_flight: {table.inFlight} \x7d"

end Table

end ValueBus.Event
