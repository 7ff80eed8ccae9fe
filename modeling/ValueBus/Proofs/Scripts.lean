import ValueBus.Event.Script

/-!
# What scripts do not do

Listeners and hooks are arbitrary scripts. What a run does with the hooks depends on what the
scripts leave undone: whether they call back at all, whether they panic, whether they add listeners.
These are predicates on the tree of a script. What a run did with the hooks is read off its trace.
-/

namespace ValueBus.Event

variable {ω α : Type}

/-- The call of a hook that an entry stands for, if it does. -/
def Entry.hook? : Entry α → Option (HookKind × Token)
  | .hook kind token => some (kind, token)
  | .call _ _ => none

namespace Script

/-- A script that does not call back: it may ask the event and change the world. -/
def Passive : Script ω α → Prop
  | .done _ | .panic _ => True
  | .subscribe _ _ | .unsubscribe _ _ | .notify _ _ _ => False
  | .observe next => ∀ live inFlight, (next live inFlight).Passive
  | .isSubscribed _ next => ∀ live, (next live).Passive
  | .update _ next => ∀ world, (next world).Passive

/-- A script that only panics if it notifies and a call panics, and whose listeners are of this kind
too. -/
def PanicFree : Script ω α → Prop
  | .done _ => True
  | .panic _ => False
  | .subscribe listener next =>
      (∀ value, (listener value).PanicFree) ∧ ∀ token, (next token).PanicFree
  | .unsubscribe _ next => ∀ found, (next found).PanicFree
  | .notify _ _ next => ∀ status, (next status).PanicFree
  | .observe next => ∀ live inFlight, (next live inFlight).PanicFree
  | .isSubscribed _ next => ∀ live, (next live).PanicFree
  | .update _ next => ∀ world, (next world).PanicFree

/-- A script that adds no listener. -/
def SubscribesNone : Script ω α → Prop
  | .done _ | .panic _ => True
  | .subscribe _ _ => False
  | .unsubscribe _ next => ∀ found, (next found).SubscribesNone
  | .notify _ recover next =>
      (∀ message, (recover message).SubscribesNone) ∧ ∀ status, (next status).SubscribesNone
  | .observe next => ∀ live inFlight, (next live inFlight).SubscribesNone
  | .isSubscribed _ next => ∀ live, (next live).SubscribesNone
  | .update _ next => ∀ world, (next world).SubscribesNone

end Script

/-- The calls of hooks in a trace. -/
def hookCalls (trace : List (Entry α)) : List (HookKind × Token) :=
  trace.filterMap Entry.hook?

@[simp]
theorem hookCalls_nil : hookCalls ([] : List (Entry α)) = [] :=
  rfl

@[simp]
theorem hookCalls_concat_hook (trace : List (Entry α)) (kind : HookKind) (token : Token) :
    hookCalls (trace ++ [.hook kind token]) = hookCalls trace ++ [(kind, token)] := by
  simp [hookCalls, Entry.hook?]

@[simp]
theorem hookCalls_concat_call (trace : List (Entry α)) (token : Token) (value : α) :
    hookCalls (trace ++ [.call token value]) = hookCalls trace := by
  simp [hookCalls, Entry.hook?]

namespace Machine

/-- The calls of hooks so far, oldest first. -/
def hookLog (machine : Machine ω α) : List (HookKind × Token) :=
  hookCalls machine.trace

@[simp]
theorem hookLog_note_hook (machine : Machine ω α) (kind : HookKind) (token : Token) :
    (machine.note (.hook kind token)).hookLog = machine.hookLog ++ [(kind, token)] := by
  simp [hookLog, note]

@[simp]
theorem hookLog_note_call (machine : Machine ω α) (token : Token) (value : α) :
    (machine.note (.call token value)).hookLog = machine.hookLog := by
  simp [hookLog, note]

end Machine

end ValueBus.Event
