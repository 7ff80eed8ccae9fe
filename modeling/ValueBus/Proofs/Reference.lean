import ValueBus.Proofs.ListenerTable

/-!
# An event without deferral

The reference is the event as a reader imagines it: one ordered list of live listeners and a counter
for tokens. A listener that is added is appended at once, one that is removed is deleted at once,
and a notification calls those that were there when it began. How many notifications are running is
not kept anywhere; it is where in the program one is, and so an argument of the interpreter.

An event and its reference go through every script in the same way. What relates them is that the
table of the event is consistent and stands for the list of the reference; each operation keeps that
relation, hence so does a run, by induction on the script and on the callbacks that may be entered
inside one another.
-/

namespace ValueBus.Event

/-- An event that keeps nothing but its live listeners and the next token, with the world and the
calls so far. -/
structure Reference (ω α : Type) where
  live : List (Token × Listener ω α) := []
  nextId : Nat := 1
  world : ω
  trace : List (Entry α) := []

namespace Reference

variable {ω α : Type}

def note (reference : Reference ω α) (entry : Entry α) : Reference ω α :=
  { reference with trace := reference.trace ++ [entry] }

def status (reference : Reference ω α) : Status :=
  if reference.live.isEmpty then .cancel else .retain

/-- Calls hooks in order until one does not return. -/
def callHooks (callback : Script ω α → Reference ω α → Outcome × Reference ω α)
    (hooks : Hooks ω α) (token : Token) :
    List HookKind → Reference ω α → Outcome × Reference ω α
  | [], reference => (.returned .retain, reference)
  | kind :: rest, reference =>
      match callback (hooks kind token) (reference.note (.hook kind token)) with
      | (.returned _, reference) => callHooks callback hooks token rest reference
      | stopped => stopped

/-- Appends a listener under the next token. -/
def append (reference : Reference ω α) (listener : Listener ω α) : Reference ω α :=
  { reference with
    live := reference.live ++ [(⟨reference.nextId⟩, listener)]
    nextId := reference.nextId + 1 }

/-- Deletes a listener and calls the hooks; the answer is whether it was live. -/
def unsubscribe (callback : Script ω α → Reference ω α → Outcome × Reference ω α)
    (hooks : Hooks ω α) (token : Token) (reference : Reference ω α) :
    Bool × Outcome × Reference ω α :=
  if (Table.tokens reference.live).contains token then
    let live := Table.without token reference.live
    (true, callHooks callback hooks token (Machine.hooksOnRemoved live.isEmpty)
      { reference with live })
  else
    (false, .returned .retain, reference)

/-- Calls listeners in order with a value and deletes those that cancel, until one does not
return. -/
def callListeners (callback : Script ω α → Reference ω α → Outcome × Reference ω α)
    (hooks : Hooks ω α) (value : α) :
    List (Token × Listener ω α) → Reference ω α → Outcome × Reference ω α
  | [], reference => (.returned .retain, reference)
  | (token, listener) :: rest, reference =>
      match callback (listener value) (reference.note (.call token value)) with
      | (.returned .retain, reference) => callListeners callback hooks value rest reference
      | (.returned .cancel, reference) =>
          match reference.unsubscribe callback hooks token with
          | (_, .returned _, reference) => callListeners callback hooks value rest reference
          | (_, stopped) => stopped
      | stopped => stopped

/-- Runs a script inside the given number of running notifications, with `callback` to run the
scripts of listeners and hooks that it causes. -/
def runWith (callback : Nat → Script ω α → Reference ω α → Outcome × Reference ω α)
    (hooks : Hooks ω α) (running : Nat) :
    Script ω α → Reference ω α → Outcome × Reference ω α
  | .done status, reference => (.returned status, reference)
  | .panic message, reference => (.panicked message, reference)
  | .subscribe listener next, reference =>
      let token : Token := ⟨reference.nextId⟩
      match callHooks (callback running) hooks token
          (Machine.hooksOnAdded reference.live.isEmpty) (reference.append listener) with
      | (.returned _, reference) => runWith callback hooks running (next token) reference
      | stopped => stopped
  | .unsubscribe token next, reference =>
      match reference.unsubscribe (callback running) hooks token with
      | (found, .returned _, reference) => runWith callback hooks running (next found) reference
      | (_, stopped) => stopped
  | .notify value recover next, reference =>
      match callListeners (callback (running + 1)) hooks value reference.live reference with
      | (.returned _, reference) => runWith callback hooks running (next reference.status) reference
      | (.panicked message, reference) =>
          runWith callback hooks running (recover message) reference
      | (.exhausted, reference) => (.exhausted, reference)
  | .observe next, reference =>
      runWith callback hooks running (next reference.live.length running) reference
  | .isSubscribed token next, reference =>
      runWith callback hooks running (next ((Table.tokens reference.live).contains token)) reference
  | .update change next, reference =>
      runWith callback hooks running (next reference.world)
        { reference with world := change reference.world }

/-- Runs a script in which at most `depth` callbacks are entered inside one another. -/
def run (hooks : Hooks ω α) : Nat → Nat → Script ω α → Reference ω α → Outcome × Reference ω α
  | 0 => fun _ _ reference => (.exhausted, reference)
  | depth + 1 => runWith (run hooks depth) hooks

end Reference

/-! ## Answers -/

/-- What an operation answers to the script that calls it. -/
inductive Answer where
  | token (token : Token)
  | removed (wasLive : Bool)
  | status (status : Status)
  | panicked (message : String)
  /-- The number of live listeners and of notifications in flight. -/
  | counts (live inFlight : Nat)
  | subscribed (isLive : Bool)
  deriving DecidableEq, Repr

namespace Script

variable {ω α : Type}

/-- Writes an answer down beside the world. -/
def answered (answer : Answer) (next : Script (ω × List Answer) α) :
    Script (ω × List Answer) α :=
  .update (fun (world, answers) => (world, answers ++ [answer])) fun _ => next

/-- The script that writes down what every operation answers, its own and those of the listeners
that it adds, in the order in which they return. -/
def journal : Script ω α → Script (ω × List Answer) α
  | .done status => .done status
  | .panic message => .panic message
  | .subscribe listener next =>
      .subscribe (fun value => (listener value).journal) fun token =>
        answered (.token token) (next token).journal
  | .unsubscribe token next =>
      .unsubscribe token fun found => answered (.removed found) (next found).journal
  | .notify value recover next =>
      .notify value (fun message => answered (.panicked message) (recover message).journal)
        fun status => answered (.status status) (next status).journal
  | .observe next =>
      .observe fun live inFlight => answered (.counts live inFlight) (next live inFlight).journal
  | .isSubscribed token next =>
      .isSubscribed token fun live => answered (.subscribed live) (next live).journal
  | .update change next =>
      .update (fun (world, answers) => (change world, answers)) fun (world, _) =>
        (next world).journal

end Script

/-- The hooks that write down what their operations answer. -/
def Hooks.journal {ω α : Type} (hooks : Hooks ω α) : Hooks (ω × List Answer) α :=
  fun kind token => (hooks kind token).journal

/-! ## The simulation -/

variable {ω α : Type}

/-- An event inside a number of running notifications, and the reference that stands where it
does. -/
structure Simulates (running : Nat) (machine : Machine ω α) (reference : Reference ω α) :
    Prop where
  consistent : machine.table.Consistent
  live : machine.table.live = reference.live
  nextId : machine.table.nextId = reference.nextId
  inFlight : machine.table.inFlight = running
  world : machine.world = reference.world
  trace : machine.trace = reference.trace

/-- Two runs end alike and leave what stands in the relation. -/
def Agrees (running : Nat) (ran : Outcome × Machine ω α) (expected : Outcome × Reference ω α) :
    Prop :=
  ran.1 = expected.1 ∧ Simulates running ran.2 expected.2

theorem Agrees.elim {running : Nat} {ran : Outcome × Machine ω α}
    {expected : Outcome × Reference ω α} (agrees : Agrees running ran expected) :
    ∃ outcome after there, ran = (outcome, after) ∧ expected = (outcome, there) ∧
      Simulates running after there :=
  ⟨ran.1, ran.2, expected.2, rfl, Prod.ext agrees.1.symm rfl, agrees.2⟩

/-- An interpreter of scripts does what the reference does. -/
def Follows (running : Nat) (callback : Script ω α → Machine ω α → Outcome × Machine ω α)
    (expected : Script ω α → Reference ω α → Outcome × Reference ω α) : Prop :=
  ∀ {machine reference}, Simulates running machine reference →
    ∀ script, Agrees running (callback script machine) (expected script reference)

namespace Simulates

variable {running : Nat} {machine : Machine ω α} {reference : Reference ω α}

theorem note (simulates : Simulates running machine reference) (entry : Entry α) :
    Simulates running (machine.note entry) (reference.note entry) :=
  { simulates with trace := congrArg (· ++ [entry]) simulates.trace }

theorem status (simulates : Simulates running machine reference) :
    machine.table.status = reference.status := by
  simp only [simulates.consistent.status, simulates.live, Reference.status]

theorem update (simulates : Simulates running machine reference) (change : ω → ω) :
    Simulates running { machine with world := change machine.world }
      { reference with world := change reference.world } :=
  { simulates with world := congrArg change simulates.world }

theorem subscribe (simulates : Simulates running machine reference) (listener : Listener ω α) :
    ∃ table, machine.table.subscribe listener =
        ((⟨reference.nextId⟩, reference.live.isEmpty), table) ∧
      Simulates running { machine with table } (reference.append listener) := by
  refine ⟨(machine.table.subscribe listener).2, Prod.ext ?_ rfl, { simulates with
    consistent := simulates.consistent.subscribe listener
    live := ?_
    nextId := ?_
    inFlight := (Table.subscribe_inFlight ..).trans simulates.inFlight }⟩
  · rw [simulates.consistent.subscribe_fst, simulates.nextId, simulates.live]
  · rw [simulates.consistent.live_subscribe, simulates.live, simulates.nextId]
    rfl
  · simp only [Table.subscribe_nextId, simulates.nextId]
    rfl

theorem unsubscribe (simulates : Simulates running machine reference) (token : Token) :
    ∃ table, machine.table.unsubscribe token =
        (if (Table.tokens reference.live).contains token then
          some (Table.without token reference.live).isEmpty
        else none, table) ∧
      Simulates running { machine with table }
        { reference with live := Table.without token reference.live } := by
  obtain ⟨consistent, nextId, inFlight⟩ := simulates.consistent.unsubscribe token
  refine ⟨(machine.table.unsubscribe token).2, Prod.ext ?_ rfl, { simulates with
    consistent
    live := ?_
    nextId := nextId.trans simulates.nextId
    inFlight := inFlight.trans simulates.inFlight }⟩
  · rw [simulates.consistent.unsubscribe_fst, simulates.live]
  · rw [simulates.consistent.live_unsubscribe, simulates.live]

theorem beginNotify (simulates : Simulates running machine reference) :
    ∃ table, machine.table.beginNotify = (reference.live, table) ∧
      Simulates (running + 1) { machine with table } reference :=
  ⟨machine.table.beginNotify.2, Prod.ext simulates.live rfl, { simulates with
    consistent := simulates.consistent.beginNotify
    live := (Table.live_beginNotify _).trans simulates.live
    inFlight := congrArg (· + 1) simulates.inFlight }⟩

theorem endNotify (simulates : Simulates (running + 1) machine reference) :
    Simulates running { machine with table := machine.table.endNotify } reference :=
  { simulates with
    consistent := simulates.consistent.endNotify
    live := (Table.live_endNotify _).trans simulates.live
    nextId := (Table.endNotify_nextId _).trans simulates.nextId
    inFlight := by rw [Table.endNotify_inFlight, simulates.inFlight, Nat.add_sub_cancel] }

end Simulates

variable {running : Nat} {callback : Script ω α → Machine ω α → Outcome × Machine ω α}
  {expected : Script ω α → Reference ω α → Outcome × Reference ω α}
  {machine : Machine ω α} {reference : Reference ω α}

theorem callHooks_agrees (follows : Follows running callback expected) (hooks : Hooks ω α)
    (token : Token) (kinds : List HookKind) (simulates : Simulates running machine reference) :
    Agrees running (Machine.callHooks callback hooks token kinds machine)
      (Reference.callHooks expected hooks token kinds reference) := by
  induction kinds generalizing machine reference with
  | nil => exact ⟨rfl, simulates⟩
  | cons kind rest ih =>
      obtain ⟨outcome, after, there, ran, does, called⟩ :=
        (follows (simulates.note (.hook kind token)) (hooks kind token)).elim
      simp only [Machine.callHooks, Reference.callHooks, ran, does]
      cases outcome with
      | returned status => exact ih called
      | panicked message => exact ⟨rfl, called⟩
      | exhausted => exact ⟨rfl, called⟩

/-- The listener goes from the table if and only if it goes from the list, and the same hooks are
called. -/
theorem unsubscribe_agrees (follows : Follows running callback expected) (hooks : Hooks ω α)
    (token : Token) (simulates : Simulates running machine reference) :
    ∃ found ran does, machine.unsubscribe callback hooks token = (found, ran) ∧
      reference.unsubscribe expected hooks token = (found, does) ∧ Agrees running ran does := by
  obtain ⟨table, removes, after⟩ := simulates.unsubscribe token
  simp only [Machine.unsubscribe, Reference.unsubscribe, removes]
  by_cases found : (Table.tokens reference.live).contains token = true
  · rw [if_pos found, if_pos found]
    exact ⟨true, _, _, rfl, rfl, callHooks_agrees follows hooks token _ after⟩
  · have absent : token ∉ Table.tokens reference.live :=
      fun tokenMem => found (List.contains_iff_mem.2 tokenMem)
    rw [Table.without_eq_self absent] at after
    rw [if_neg found, if_neg found]
    exact ⟨false, _, _, rfl, rfl, rfl, after⟩

theorem callListeners_agrees (follows : Follows running callback expected) (hooks : Hooks ω α)
    (value : α) (listeners : List (Token × Listener ω α))
    (simulates : Simulates running machine reference) :
    Agrees running (Machine.callListeners callback hooks value listeners machine)
      (Reference.callListeners expected hooks value listeners reference) := by
  induction listeners generalizing machine reference with
  | nil => exact ⟨rfl, simulates⟩
  | cons entry rest ih =>
      rcases entry with ⟨token, listener⟩
      obtain ⟨outcome, after, there, ran, does, called⟩ :=
        (follows (simulates.note (.call token value)) (listener value)).elim
      simp only [Machine.callListeners, Reference.callListeners, ran, does]
      cases outcome with
      | panicked message => exact ⟨rfl, called⟩
      | exhausted => exact ⟨rfl, called⟩
      | returned status =>
          cases status with
          | retain => exact ih called
          | cancel =>
              obtain ⟨found, _, _, removes, deletes, agrees⟩ :=
                unsubscribe_agrees follows hooks token called
              obtain ⟨outcome, after, there, rfl, rfl, removed⟩ := agrees.elim
              dsimp only
              rw [removes, deletes]
              cases outcome with
              | returned status => exact ih removed
              | panicked message => exact ⟨rfl, removed⟩
              | exhausted => exact ⟨rfl, removed⟩

theorem runWith_agrees {expected : Nat → Script ω α → Reference ω α → Outcome × Reference ω α}
    (follows : ∀ running, Follows running callback (expected running)) (hooks : Hooks ω α)
    (script : Script ω α) (simulates : Simulates running machine reference) :
    Agrees running (Machine.runWith callback hooks script machine)
      (Reference.runWith expected hooks running script reference) := by
  induction script generalizing machine reference with
  | done status => exact ⟨rfl, simulates⟩
  | panic message => exact ⟨rfl, simulates⟩
  | subscribe listener next _ ih =>
      obtain ⟨table, adds, added⟩ := simulates.subscribe listener
      obtain ⟨outcome, after, there, ran, does, called⟩ :=
        (callHooks_agrees (follows running) hooks ⟨reference.nextId⟩
          (Machine.hooksOnAdded reference.live.isEmpty) added).elim
      rw [Machine.runWith, Reference.runWith, adds]
      dsimp only
      rw [ran, does]
      cases outcome with
      | returned status => exact ih _ called
      | panicked message => exact ⟨rfl, called⟩
      | exhausted => exact ⟨rfl, called⟩
  | unsubscribe token next ih =>
      obtain ⟨found, _, _, removes, deletes, agrees⟩ :=
        unsubscribe_agrees (follows running) hooks token simulates
      obtain ⟨outcome, after, there, rfl, rfl, removed⟩ := agrees.elim
      simp only [Machine.runWith, Reference.runWith, removes, deletes]
      cases outcome with
      | returned status => exact ih found removed
      | panicked message => exact ⟨rfl, removed⟩
      | exhausted => exact ⟨rfl, removed⟩
  | notify value recover next recoverIh nextIh =>
      obtain ⟨table, begins, begun⟩ := simulates.beginNotify
      obtain ⟨outcome, after, there, ran, does, called⟩ :=
        (callListeners_agrees (follows (running + 1)) hooks value reference.live
          begun).elim
      -- However the calls went, the notification has ended before anything else happens.
      have ended := called.endNotify
      rw [Machine.runWith, Reference.runWith, begins]
      dsimp only
      rw [ran, does]
      cases outcome with
      | returned status =>
          dsimp only
          rw [ended.status]
          exact nextIh _ ended
      | panicked message => exact recoverIh message ended
      | exhausted => exact ⟨rfl, ended⟩
  | observe next ih =>
      rw [Machine.runWith, Reference.runWith, simulates.consistent.liveCount, simulates.live,
        simulates.inFlight]
      exact ih _ _ simulates
  | isSubscribed token next ih =>
      simp only [Machine.runWith, Reference.runWith, Table.isLive_eq, simulates.live]
      exact ih _ simulates
  | update change next ih =>
      have asked : next machine.world = next reference.world := congrArg next simulates.world
      simp only [Machine.runWith, Reference.runWith, asked]
      exact ih _ (simulates.update change)

/-- An event and its reference go through a script in the same way. -/
theorem run_agrees (hooks : Hooks ω α) (depth running : Nat) :
    Follows running (Machine.run hooks depth) (Reference.run hooks depth running) := by
  induction depth generalizing running with
  | zero => exact fun simulates _ => ⟨rfl, simulates⟩
  | succ depth ih => exact fun simulates script => runWith_agrees ih hooks script simulates

theorem simulates_new (world : ω) :
    Simulates 0 ({ world } : Machine ω α) ({ world } : Reference ω α) where
  consistent := Table.consistent_empty
  live := rfl
  nextId := rfl
  inFlight := rfl
  world := rfl
  trace := rfl

/-- What the operations of a script on a new event answer, in the order in which they return. -/
def Machine.answers (hooks : Hooks ω α) (depth : Nat) (script : Script ω α) (world : ω) :
    List Answer :=
  (Machine.run hooks.journal depth script.journal { world := (world, []) }).2.world.2

/-- What the operations of a script on a new reference answer, in the order in which they return. -/
def Reference.answers (hooks : Hooks ω α) (depth : Nat) (script : Script ω α) (world : ω) :
    List Answer :=
  (Reference.run hooks.journal depth 0 script.journal { world := (world, []) }).2.world.2

/--
Deferral is invisible. Whatever the script, its listeners and the hooks do, an event ends like the
reference, leaves the world as the reference does, makes the same calls in the same order, and
answers the same to every operation on the way. When the script has ended no notification is in
flight, and the active listeners are those of the reference.
-/
theorem deferral_invisible (hooks : Hooks ω α) (depth : Nat) (script : Script ω α) (world : ω) :
    let ran := Machine.run hooks depth script { world }
    let expected := Reference.run hooks depth 0 script { world }
    ran.1 = expected.1 ∧ ran.2.world = expected.2.world ∧ ran.2.trace = expected.2.trace ∧
      Machine.answers hooks depth script world = Reference.answers hooks depth script world ∧
      ran.2.table.inFlight = 0 ∧ ran.2.table.active = expected.2.live := by
  obtain ⟨outcome, after⟩ := run_agrees hooks depth 0 (simulates_new world) script
  obtain ⟨_, journaled⟩ :=
    run_agrees hooks.journal depth 0 (simulates_new (world, [])) script.journal
  obtain ⟨noAdd, noRemove⟩ := after.consistent.settled after.inFlight
  refine ⟨outcome, after.world, after.trace, ?_, after.inFlight, ?_⟩
  · simp only [Machine.answers, Reference.answers, journaled.world]
  · rw [← Table.live_of_settled noAdd noRemove, after.live]

/-- A listener that adds another one while it is called, notifies again and then panics. -/
example :
    let late : Listener Unit Nat := fun _ => .observe fun _ _ => .done .cancel
    let early : Listener Unit Nat := fun value =>
      if value = 0 then .done .retain
      else .subscribe late fun _ => .notify 0 .panic fun _ => .panic "enough"
    let script : Script Unit Nat :=
      .subscribe early fun _ => .notify 1 (fun _ => .observe fun _ _ => .done .retain)
        fun status => .done status
    Machine.answers noHooks 4 script () =
      [.token ⟨1⟩, .token ⟨2⟩, .counts 2 2, .status .retain, .panicked "enough", .counts 1 0] := by
  cbv

end ValueBus.Event
