import ValueBus.Error
import ValueBus.Event.Script

/-!
# Scenarios

A scenario is a run of an event whose listeners and hooks follow written instructions. An `Action`
is one instruction; a listener and a hook have a list of them, some of which run only for certain
values or a certain number of times. Actions become scripts, and everything that a run shows is kept
in the `World` of those scripts: the log, the tokens handed out, and how often what has run.
-/

namespace ValueBus.Event

/-- The token that an action is about. -/
inductive Target where
  | id (number : Nat)
  /-- The token of the listener itself, or the token that a hook is called for. -/
  | self
  /-- The greatest token handed out. -/
  | last
  /-- The latest token of the listener with a name. -/
  | named (name : String)
  deriving Repr

/-- The value of a notification. -/
inductive Amount where
  | fixed (value : Int32)
  /-- The value that the listener was called with, plus a number. -/
  | plus (difference : Int32)
  deriving Repr

/-- An action that declares no listener. -/
inductive Command where
  | unsubscribe (target : Target)
  | tryUnsubscribe (target : Target)
  | isSubscribed (target : Target)
  | describeToken (target : Target)
  | notify (amount : Amount)
  | catchNotify (amount : Amount)
  | panic (message : String)
  | count
  | hasListeners
  | isNotifying
  | describe
  deriving Repr

/-- When an action of a list runs: for which values, and how often at most. -/
structure Guard where
  equals : Option Int32 := none
  atLeast : Option Int32 := none
  atMost : Option Int32 := none
  times : Option Nat := none
  deriving Repr

def Guard.admits (guard : Guard) (value : Int32) : Bool :=
  guard.equals.all (value = ·) && guard.atLeast.all (· ≤ value) && guard.atMost.all (value ≤ ·)

/-- When a listener cancels its subscription: always, from a value on, from a call on. -/
structure Ending where
  always : Bool := false
  fromValue : Option Int32 := none
  fromCall : Option Nat := none
  deriving Repr

/-- The status that a listener answers to its call with the given number. -/
def Ending.status (ending : Ending) (value : Int32) (callNumber : Nat) : Status :=
  if ending.always || ending.fromValue.any (· ≤ value) || ending.fromCall.any (· ≤ callNumber)
  then .cancel
  else .retain

/-- An instruction; `label` is its name in the log. -/
inductive Action where
  | command (label : String) (guard : Guard) (instruction : Command)
  /-- Adds a listener with a name and its own instructions. -/
  | subscribe (label : String) (guard : Guard) (name : String) (actions : List Action)
      (ending : Ending)
  deriving Repr

namespace Action

def guard : Action → Guard
  | .command _ guard _ => guard
  | .subscribe _ guard _ _ _ => guard

def label : Action → String
  | .command label _ _ => label
  | .subscribe label _ _ _ _ => label

end Action

/-- What an action results in. -/
inductive Result where
  | token (token : Token)
  | flag (value : Bool)
  | done
  | failed (error : Error)
  | described (token : Token)
  | status (status : Status)
  | panicked (message : String)
  | noToken
  | number (value : Nat)
  | text (value : String)
  deriving Repr

/-- A line of the log. -/
inductive LogLine where
  | call (name : String) (value : Int32)
  | hook (kind : HookKind) (token : Token)
  | did (label : String) (result : Result)
  deriving Repr

/-- Who owns a list of actions: a subscription, by the number of its subscribe action, or the hook
of a moment. -/
inductive Owner where
  | subscription (number : Nat)
  | hook (kind : HookKind)
  deriving DecidableEq, Repr

/-- What the scripts of a scenario share. -/
structure World where
  log : List LogLine := []
  /-- Tokens that subscribe actions returned, latest first, with the number of the subscription and
  the name of its listener. -/
  issued : List (Token × Nat × String) := []
  subscriptions : Nat := 0
  /-- The owner of every call of a listener. -/
  calls : List Nat := []
  /-- The owner and position of every guarded action that ran. -/
  ran : List (Owner × Nat) := []
  result : Option Result := none
  deriving Repr, Inhabited

namespace World

def write (world : World) (line : LogLine) : World :=
  { world with log := world.log ++ [line] }

/-- The tokens that subscribe actions returned, oldest first. -/
def tokens (world : World) : List Token :=
  (world.issued.map (·.1)).reverse

/-- The token of a subscription, once its action has returned. -/
def tokenOf? (world : World) (number : Nat) : Option Token :=
  (world.issued.find? (·.2.1 = number)).map (·.1)

/-- The greatest token handed out. -/
def lastToken? (world : World) : Option Token :=
  (world.issued.map (·.1.id)).max?.map Token.mk

/-- The latest token of the listener with a name. -/
def tokenNamed? (world : World) (name : String) : Option Token :=
  (world.issued.find? (·.2.2 = name)).map (·.1)

/-- How often the action at a position ran for its owner. -/
def timesRan (world : World) (owner : Owner) (position : Nat) : Nat :=
  world.ran.count (owner, position)

end World

/-- The value and the token that actions run with. -/
structure Context where
  value : Int32
  /-- The token that `Target.self` stands for. -/
  self : World → Option Token

abbrev ScenarioScript :=
  Script World Int32

/-- The token of a target; 0 is no token. -/
def Target.resolve (context : Context) (world : World) : Target → Option Token
  | .id 0 => none
  | .id number => some ⟨number⟩
  | .self => context.self world
  | .last => world.lastToken?
  | .named name => world.tokenNamed? name

/-- The value of a notification, given the value of the call that makes it. -/
def Amount.resolve (context : Context) : Amount → Int32
  | .fixed value => value
  | .plus difference => context.value + difference

/-- Goes on with the token of a target, if it has one. -/
def withTarget (context : Context) (target : Target) (next : Result → ScenarioScript)
    (act : Token → ScenarioScript) : ScenarioScript :=
  .update id fun world =>
    match target.resolve context world with
    | some token => act token
    | none => next .noToken

/-- The script of a command, which goes on with its result. -/
def Command.script (context : Context) (next : Result → ScenarioScript) :
    Command → ScenarioScript
  | .unsubscribe target =>
      withTarget context target next fun token =>
        .unsubscribe token fun found => next (.flag found)
  | .tryUnsubscribe target =>
      withTarget context target next fun token =>
        .unsubscribe token fun found =>
          next (if found then .done else .failed (.invalidSubscription token))
  | .isSubscribed target =>
      withTarget context target next fun token =>
        .isSubscribed token fun live => next (.flag live)
  | .describeToken target =>
      withTarget context target next fun token => next (.described token)
  | .notify amount =>
      .notify (amount.resolve context) .panic fun status => next (.status status)
  | .catchNotify amount =>
      .notify (amount.resolve context) (fun message => next (.panicked message))
        fun status => next (.status status)
  | .panic message => .panic message
  | .count => .observe fun live _ => next (.number live)
  | .hasListeners => .observe fun live _ => next (.flag (0 < live))
  | .isNotifying => .observe fun _ inFlight => next (.flag (0 < inFlight))
  | .describe => .observe fun live inFlight =>
      next (.text s!"Event \x7b listeners: {live}, in_flight: {inFlight} \x7d")

mutual

/-- The script of an action, which goes on with its result; guards are not looked at. -/
def Action.script (context : Context) (next : Result → ScenarioScript) :
    Action → ScenarioScript
  | .command _ _ instruction => instruction.script context next
  | .subscribe _ _ name actions ending =>
      .update (fun world => { world with subscriptions := world.subscriptions + 1 }) fun world =>
        let number := world.subscriptions
        let listener : Listener World Int32 := fun value =>
          .update (fun world => { world with calls := number :: world.calls }.write
            (.call name value)) fun before =>
            let callNumber := before.calls.count number + 1
            Action.scriptAll ⟨value, fun world => world.tokenOf? number⟩ (.subscription number)
              (.done (ending.status value callNumber)) 0 actions
        .subscribe listener fun token =>
          .update (fun world => { world with issued := (token, number, name) :: world.issued })
            fun _ => next (.token token)

/-- The script of a list of actions, the first of which has the given position; an action whose
guard does not hold is left out, and the others leave a line in the log. -/
def Action.scriptAll (context : Context) (owner : Owner) (next : ScenarioScript) :
    Nat → List Action → ScenarioScript
  | _, [] => next
  | position, action :: rest =>
      let following := Action.scriptAll context owner next (position + 1) rest
      .update id fun world =>
        if action.guard.admits context.value &&
            action.guard.times.all (world.timesRan owner position < ·) then
          .update (fun world => { world with ran := (owner, position) :: world.ran }) fun _ =>
            action.script context (fun result =>
              .update (·.write (.did action.label result)) fun _ => following)
        else
          following

end

structure HookActions where
  firstAdded : List Action := []
  added : List Action := []
  removed : List Action := []
  lastRemoved : List Action := []
  deriving Repr

def HookActions.at (actions : HookActions) : HookKind → List Action
  | .firstAdded => actions.firstAdded
  | .added => actions.added
  | .removed => actions.removed
  | .lastRemoved => actions.lastRemoved

/-- The hooks that log their call and follow their actions. -/
def HookActions.hooks (actions : HookActions) : Hooks World Int32 := fun kind token =>
  .update (·.write (.hook kind token)) fun _ =>
    Action.scriptAll ⟨0, fun _ => some token⟩ (.hook kind) (.done .retain) 0 (actions.at kind)

/-- A scenario: the actions of the hooks, if there are hooks, and the actions taken from outside. -/
structure Scenario where
  hooks : Option HookActions
  steps : List Action
  deriving Repr

/-- What a step of a scenario shows: its result, the lines it added to the log, the live ones of the
tokens that subscribe actions returned, and the description of the event. -/
structure StepReport where
  result : Option Result
  log : List LogLine
  live : List Token
  state : String
  deriving Repr

namespace Scenario

/-- The number of callbacks that may be entered inside one another. -/
def callbackDepth : Nat :=
  100000

def eventHooks (scenario : Scenario) : Hooks World Int32 :=
  match scenario.hooks with
  | some actions => actions.hooks
  | none => noHooks

/-- Takes one step: the action runs with value 0 and no token of its own. -/
def step (hooks : Hooks World Int32) (action : Action) (machine : Machine World Int32) :
    StepReport × Machine World Int32 :=
  let script := action.script ⟨0, fun _ => none⟩ fun result =>
    .update (fun world => { world with result := some result }) fun _ => .done .retain
  let fresh := { machine with world := { machine.world with log := [], result := none } }
  let (outcome, after) := Machine.run hooks callbackDepth script fresh
  let result := match outcome with
    | .returned _ => after.world.result
    | .panicked message => some (.panicked message)
    | .exhausted => none
  ({ result
     log := after.world.log
     live := after.world.tokens.filter after.table.isLive
     state := after.table.describe }, after)

/-- Takes the steps of a scenario in order. -/
def run (scenario : Scenario) : List StepReport :=
  let hooks := scenario.eventHooks
  (scenario.steps.foldl (fun (reports, machine) action =>
    let (report, after) := step hooks action machine
    (report :: reports, after)) ([], ({ world := {} } : Machine World Int32))).1.reverse

end Scenario

end ValueBus.Event
