import Mathlib.Data.List.Forall2
import ValueBus.Proofs.History

/-!
# The log of the hooks

If no hook calls back, then nothing comes between a section and the hooks that it causes, however
the listeners nest their calls. So the log of the hooks is that of the sections, one after the
other: what each of them causes depends on the listeners that remain before and after it, and on
nothing else.

A hook may panic, and then the next hook of the same section is not called. It is the only way in
which an entry can be missing from the log.
-/

namespace ValueBus.Event

open Passage
open Table (tokens)

variable {ω α : Type}

/-! ## The log of a history -/

namespace Passage

variable {ℓ : Type}

/-- The hooks that a section causes, from what it told. -/
def hooks : Passage ℓ → List (HookKind × Token)
  | .added token _ first => (Machine.hooksOnAdded first).map (·, token)
  | .removed token last => (Machine.hooksOnRemoved last).map (·, token)
  | .refused _ | .begun _ | .ended => []

/-- The hooks that a section causes, from the listeners that remain before and after it. -/
def hooksAfter (earlier : List (Passage ℓ)) (passage : Passage ℓ) : List (HookKind × Token) :=
  match passage with
  | .added token _ _ =>
      if (remaining earlier).isEmpty then [(.firstAdded, token), (.added, token)]
      else [(.added, token)]
  | .removed token _ =>
      if (remaining (earlier ++ [passage])).isEmpty then [(.removed, token), (.lastRemoved, token)]
      else [(.removed, token)]
  | .refused _ | .begun _ | .ended => []

/-- The hooks that each of the sections after earlier ones causes. -/
def logsAfter (earlier : List (Passage ℓ)) : List (Passage ℓ) → List (List (HookKind × Token))
  | [] => []
  | passage :: later => passage.hooksAfter earlier :: logsAfter (earlier ++ [passage]) later

/-- The log of the hooks that sections cause after earlier ones. -/
def logAfter (earlier later : List (Passage ℓ)) : List (HookKind × Token) :=
  (logsAfter earlier later).flatten

theorem hooksAfter_eq {earlier : List (Passage ℓ)} {passage : Passage ℓ}
    (answers : passage.Answers earlier) : passage.hooksAfter earlier = passage.hooks := by
  cases passage with
  | added token listener first =>
      rcases answers with ⟨_, rfl⟩
      cases remains : (remaining earlier).isEmpty <;>
        simp [hooksAfter, hooks, Machine.hooksOnAdded, remains]
  | removed token last =>
      rcases answers with ⟨_, rfl⟩
      cases remains : (Table.without token (remaining earlier)).isEmpty <;>
        simp [hooksAfter, hooks, Machine.hooksOnRemoved, remaining_of_removed, remains]
  | refused token => rfl
  | begun listeners => rfl
  | ended => rfl

theorem logsAfter_eq {earlier later : List (Passage ℓ)}
    (answers : ∀ (position : Nat) (passage : Passage ℓ), later[position]? = some passage →
      passage.Answers (earlier ++ later.take position)) :
    logsAfter earlier later = later.map hooks := by
  induction later generalizing earlier with
  | nil => rfl
  | cons passage rest ih =>
      have now : passage.Answers earlier := by
        have this := answers 0 passage rfl
        rw [List.take_zero, List.append_nil] at this
        exact this
      have afterwards : logsAfter (earlier ++ [passage]) rest = rest.map hooks := by
        apply ih
        intro position other found
        have this := answers (position + 1) other found
        rw [List.take_succ_cons, List.append_cons] at this
        exact this
      rw [logsAfter, hooksAfter_eq now, afterwards, List.map_cons]

end Passage

/-- In a history that leads to a table, the answers tell which listeners remain. -/
theorem Reachable.logsAfter_eq {ℓ : Type} {history : List (Passage ℓ)} {table : Table ℓ}
    (reachable : Reachable history table) : logsAfter [] history = history.map hooks :=
  Passage.logsAfter_eq fun _ _ found => reachable.answers found

/-! ## Hooks that panic -/

/-- Of the hooks that a section causes, those are logged that come up to one that can panic. -/
inductive UpToPanic (hooks : Hooks ω α) :
    List (HookKind × Token) → List (HookKind × Token) → Prop where
  | nil : UpToPanic hooks [] []
  | cons {call : HookKind × Token} {rest logged : List (HookKind × Token)} :
      UpToPanic hooks rest logged → UpToPanic hooks (call :: rest) (call :: logged)
  | cut {kind : HookKind} {token : Token} (rest : List (HookKind × Token))
      (panics : ¬(hooks kind token).PanicFree) :
      UpToPanic hooks ((kind, token) :: rest) [(kind, token)]

namespace UpToPanic

variable {hooks : Hooks ω α} {caused logged : List (HookKind × Token)}

theorem logged_prefix (upTo : UpToPanic hooks caused logged) : logged <+: caused := by
  induction upTo with
  | nil => exact List.nil_prefix
  | cons _ ih => exact (List.prefix_cons_inj _).2 ih
  | cut rest _ => exact List.prefix_append [_] rest

/-- The last hook may panic, since it has no other after it. -/
theorem eq_of_panicFree (upTo : UpToPanic hooks caused logged)
    (returns : ∀ call ∈ caused.dropLast, (hooks call.1 call.2).PanicFree) : logged = caused := by
  induction upTo with
  | nil => rfl
  | @cons call rest logged _ ih =>
      rw [ih]
      intro other otherMem
      apply returns
      cases rest with
      | nil => cases otherMem
      | cons next others => exact List.mem_cons_of_mem call otherMem
  | cut rest panics =>
      cases rest with
      | nil => rfl
      | cons next others => exact (panics (returns _ List.mem_cons_self)).elim

/-- The first hook is called in any case. -/
theorem count_of_notMem_tail (upTo : UpToPanic hooks caused logged) {call : HookKind × Token}
    (leads : call ∉ caused.tail) : logged.count call = caused.count call := by
  cases upTo with
  | nil => rfl
  | cons later =>
      rw [List.tail_cons] at leads
      have unlogged := mt (fun callMem => later.logged_prefix.subset callMem) leads
      rw [List.count_cons, List.count_cons, List.count_eq_zero.2 unlogged,
        List.count_eq_zero.2 leads]
  | cut rest _ =>
      rw [List.tail_cons] at leads
      rw [List.count_cons, List.count_cons, List.count_nil, List.count_eq_zero.2 leads]

end UpToPanic

/-- What is logged of the hooks that several sections cause. -/
def UpToPanics (hooks : Hooks ω α) (caused : List (List (HookKind × Token)))
    (log : List (HookKind × Token)) : Prop :=
  ∃ parts, List.Forall₂ (UpToPanic hooks) caused parts ∧ log = parts.flatten

namespace UpToPanics

variable {hooks : Hooks ω α} {caused others : List (List (HookKind × Token))}
  {log later : List (HookKind × Token)}

theorem nil : UpToPanics hooks [] [] :=
  ⟨[], .nil, rfl⟩

theorem singleton {calls : List (HookKind × Token)} (upTo : UpToPanic hooks calls log) :
    UpToPanics hooks [calls] log :=
  ⟨[log], .cons upTo .nil, (List.append_nil log).symm⟩

theorem append (first : UpToPanics hooks caused log) (second : UpToPanics hooks others later) :
    UpToPanics hooks (caused ++ others) (log ++ later) := by
  rcases first with ⟨parts, upTo, rfl⟩
  rcases second with ⟨laterParts, laterUpTo, rfl⟩
  exact ⟨parts ++ laterParts, List.rel_append upTo laterUpTo, List.flatten_append.symm⟩

theorem sublist (upTo : UpToPanics hooks caused log) : log.Sublist caused.flatten := by
  rcases upTo with ⟨parts, upTo, rfl⟩
  induction upTo with
  | nil => exact List.Sublist.slnil
  | cons part _ ih => exact part.logged_prefix.sublist.append ih

theorem eq_flatten (upTo : UpToPanics hooks caused log)
    (returns : ∀ calls ∈ caused, ∀ call ∈ calls.dropLast, (hooks call.1 call.2).PanicFree) :
    log = caused.flatten := by
  rcases upTo with ⟨parts, upTo, rfl⟩
  induction upTo with
  | nil => rfl
  | cons part _ ih =>
      rcases List.forall_mem_cons.1 returns with ⟨now, afterwards⟩
      rw [List.flatten_cons, List.flatten_cons, part.eq_of_panicFree now, ih afterwards]

theorem count_eq (upTo : UpToPanics hooks caused log) {call : HookKind × Token}
    (each : ∀ calls ∈ caused, ∀ logged, UpToPanic hooks calls logged →
      logged.count call = calls.count call) :
    log.count call = caused.flatten.count call := by
  rcases upTo with ⟨parts, upTo, rfl⟩
  induction upTo with
  | nil => rfl
  | cons part _ ih =>
      rcases List.forall_mem_cons.1 each with ⟨now, afterwards⟩
      simp only [List.flatten_cons, List.count_append, now _ part, ih afterwards]

end UpToPanics

namespace Passage

variable {ℓ : Type}

theorem kind_of_mem_dropLast_hooks {passage : Passage ℓ} {call : HookKind × Token}
    (callMem : call ∈ passage.hooks.dropLast) : call.1 = .firstAdded ∨ call.1 = .removed := by
  cases passage with
  | added token listener first =>
      cases first <;> simp [hooks, Machine.hooksOnAdded] at callMem
      simp [callMem]
  | removed token last =>
      cases last <;> simp [hooks, Machine.hooksOnRemoved] at callMem
      simp [callMem]
  | refused token => cases callMem
  | begun listeners => cases callMem
  | ended => cases callMem

theorem removed_notMem_tail_hooks (passage : Passage ℓ) (token : Token) :
    (.removed, token) ∉ passage.hooks.tail := by
  cases passage with
  | added other listener first => cases first <;> simp [hooks, Machine.hooksOnAdded]
  | removed other last => cases last <;> simp [hooks, Machine.hooksOnRemoved]
  | refused other => exact List.not_mem_nil
  | begun listeners => exact List.not_mem_nil
  | ended => exact List.not_mem_nil

theorem dropLast_hooks_of_added {passage : Passage ℓ} {token : Token}
    (follows : (.added, token) ∈ passage.hooks.tail) :
    passage.hooks.dropLast = [(.firstAdded, token)] := by
  cases passage with
  | added other listener first =>
      cases first <;> simp [hooks, Machine.hooksOnAdded] at follows ⊢
      exact follows.symm
  | removed other last => cases last <;> simp [hooks, Machine.hooksOnRemoved] at follows
  | refused other => cases follows
  | begun listeners => cases follows
  | ended => cases follows

end Passage

/-! ## A run logs its history -/

namespace Machine

/-- A script that does not call back leaves the event and the log alone. -/
theorem run_of_passive (hooks : Hooks ω α) (depth : Nat) {script : Script ω α}
    (passive : script.Passive) (machine : Machine ω α) :
    history hooks depth script machine = [] ∧
      (run hooks depth script machine).2.hookLog = machine.hookLog ∧
      (script.PanicFree → ∀ message, (run hooks depth script machine).1 ≠ .panicked message) := by
  cases depth with
  | zero => exact ⟨rfl, rfl, by simp [run]⟩
  | succ depth =>
      induction script generalizing machine with
      | done status => exact ⟨rfl, rfl, by simp [run, runWith]⟩
      | panic message => exact ⟨rfl, rfl, False.elim⟩
      | subscribe listener next => exact passive.elim
      | unsubscribe token next => exact passive.elim
      | notify value recover next => exact passive.elim
      | observe next ih =>
          rcases ih _ _ (passive _ _) machine with ⟨quiet, logged, returns⟩
          exact ⟨quiet, logged, fun panicFree => returns (panicFree _ _)⟩
      | isSubscribed token next ih =>
          rcases ih _ (passive _) machine with ⟨quiet, logged, returns⟩
          exact ⟨quiet, logged, fun panicFree => returns (panicFree _)⟩
      | update change next ih =>
          rcases ih _ (passive _) { machine with world := change machine.world } with
            ⟨quiet, logged, returns⟩
          exact ⟨quiet, logged, fun panicFree => returns (panicFree _)⟩

/-- A part of a run that was not given up has logged what its history causes, up to panics. -/
def Logs (hooks : Hooks ω α) (machine : Machine ω α) (history : List (Passage (Listener ω α)))
    (ran : Outcome × Machine ω α) : Prop :=
  ran.1 ≠ .exhausted → ∃ logged, UpToPanics hooks (history.map Passage.hooks) logged ∧
    ran.2.hookLog = machine.hookLog ++ logged

section Logs

variable {hooks : Hooks ω α} (passive : ∀ kind token, (hooks kind token).Passive) (depth : Nat)
include passive

theorem historyOfHooks_eq (token : Token) (kinds : List HookKind) (machine : Machine ω α) :
    historyOfHooks (run hooks depth) (history hooks depth) hooks token kinds machine = [] := by
  induction kinds generalizing machine with
  | nil => rfl
  | cons kind rest ih =>
      simp only [historyOfHooks, (run_of_passive hooks depth (passive kind token) _).1,
        List.nil_append]
      split
      · apply ih
      · rfl

theorem hookLog_callHooks (token : Token) (kinds : List HookKind) (machine : Machine ω α)
    (finished : (callHooks (run hooks depth) hooks token kinds machine).1 ≠ .exhausted) :
    ∃ logged, UpToPanic hooks (kinds.map (·, token)) logged ∧
      (callHooks (run hooks depth) hooks token kinds machine).2.hookLog =
        machine.hookLog ++ logged := by
  induction kinds generalizing machine with
  | nil => exact ⟨[], .nil, (List.append_nil _).symm⟩
  | cons kind rest ih =>
      rcases run_of_passive hooks depth (passive kind token) (machine.note (.hook kind token)) with
        ⟨_, logged, returns⟩
      rw [hookLog_note_hook] at logged
      simp only [callHooks] at finished ⊢
      rcases ran : run hooks depth (hooks kind token) (machine.note (.hook kind token)) with
        ⟨outcome, after⟩
      rw [ran] at logged returns finished
      cases outcome with
      | exhausted => exact (finished rfl).elim
      | returned status =>
          rcases ih after finished with ⟨later, upTo, laterLogged⟩
          refine ⟨(kind, token) :: later, .cons upTo, ?_⟩
          rw [laterLogged, logged, List.append_assoc]
          rfl
      | panicked message =>
          have panics : ¬(hooks kind token).PanicFree := fun panicFree =>
            returns panicFree message rfl
          exact ⟨[(kind, token)], .cut _ panics, logged⟩

/-- A section is logged when the hooks that it causes are called. -/
theorem logs_section {passage : Passage (Listener ω α)} {token : Token} {kinds : List HookKind}
    (caused : passage.hooks = kinds.map (·, token)) (machine : Machine ω α)
    (table : Table (Listener ω α)) :
    Logs hooks machine
      (passage ::
        historyOfHooks (run hooks depth) (history hooks depth) hooks token kinds
          { machine with table })
      (callHooks (run hooks depth) hooks token kinds { machine with table }) := by
  intro finished
  rcases hookLog_callHooks passive depth token kinds _ finished with ⟨logged, upTo, called⟩
  refine ⟨logged, ?_, called⟩
  rw [historyOfHooks_eq passive, List.map_singleton, caused]
  exact .singleton upTo

theorem tracked_logs : Tracked hooks (Logs hooks) where
  nothing := by
    intro machine after outcome _ unlogged _
    exact ⟨[], .nil, unlogged.trans (List.append_nil _).symm⟩
  andThen := by
    intro machine middle earlier later outcome ran start returned rest finished
    rcases start returned with ⟨first, firstCaused, firstLogged⟩
    rcases rest finished with ⟨second, secondCaused, secondLogged⟩
    refine ⟨first ++ second, ?_, ?_⟩
    · rw [List.map_append]
      exact firstCaused.append secondCaused
    · rw [secondLogged, firstLogged, List.append_assoc]
  added := by
    intro depth _ machine listener token first table _
    exact logs_section passive depth rfl machine table
  removed := by
    intro depth _ machine token last table _
    exact logs_section passive depth rfl machine table
  refused := by
    intro machine token table _ _
    exact ⟨[], .singleton .nil, (List.append_nil _).symm⟩
  notified := by
    intro machine after listeners table inside outcome _ called finished
    rcases called finished with ⟨logged, caused, inLog⟩
    refine ⟨logged, ?_, inLog⟩
    have around := (UpToPanics.singleton (@UpToPanic.nil _ _ hooks)).append
      (caused.append (.singleton .nil))
    rw [List.nil_append, List.append_nil] at around
    rw [List.map_cons, List.map_append]
    exact around

end Logs

end Machine

/-! ## How often a hook is called -/

theorem Passage.count_added {ℓ : Type} (history : List (Passage ℓ)) (token : Token) :
    (history.flatMap hooks).count (.added, token) =
      (tokens (listenersAdded history)).count token := by
  induction history with
  | nil => rfl
  | cons passage rest ih =>
      have split := congrArg tokens (listenersAdded_append [passage] rest)
      rw [List.flatMap_cons, List.count_append, ih, ← List.singleton_append, split,
        Table.tokens_append, List.count_append]
      congr 1
      cases passage with
      | added other listener first =>
          cases first <;>
            simp [hooks, Machine.hooksOnAdded, listenersAdded, tokens, List.count_cons]
      | removed other last =>
          cases last <;> simp [hooks, Machine.hooksOnRemoved, listenersAdded, tokens]
      | refused other => rfl
      | begun listeners => rfl
      | ended => rfl

theorem Passage.count_removed {ℓ : Type} (history : List (Passage ℓ)) (token : Token) :
    (history.flatMap hooks).count (.removed, token) = (tokensRemoved history).count token := by
  induction history with
  | nil => rfl
  | cons passage rest ih =>
      rw [List.flatMap_cons, List.count_append, ih, ← List.singleton_append, tokensRemoved_append,
        List.count_append]
      congr 1
      cases passage with
      | added other listener first =>
          cases first <;> simp [hooks, Machine.hooksOnAdded, tokensRemoved]
      | removed other last =>
          cases last <;> simp [hooks, Machine.hooksOnRemoved, tokensRemoved, List.count_cons]
      | refused other => rfl
      | begun listeners => rfl
      | ended => rfl

/-- The hook for a removal is the first that its section causes, so that none can keep it out of the
log. -/
theorem UpToPanics.count_removed {ℓ : Type} {hooks : Hooks ω α} {history : List (Passage ℓ)}
    {log : List (HookKind × Token)} (upTo : UpToPanics hooks (history.map Passage.hooks) log)
    (token : Token) : log.count (.removed, token) = (tokensRemoved history).count token := by
  rw [← Passage.count_removed, List.flatMap_def]
  apply upTo.count_eq
  intro calls callsMem logged part
  rcases List.mem_map.1 callsMem with ⟨passage, _, rfl⟩
  exact part.count_of_notMem_tail (passage.removed_notMem_tail_hooks token)

/-- Only the hook for a first listener comes before that for an added one. -/
theorem UpToPanics.count_added {ℓ : Type} {hooks : Hooks ω α} {history : List (Passage ℓ)}
    {log : List (HookKind × Token)} (upTo : UpToPanics hooks (history.map Passage.hooks) log)
    {token : Token} (returns : (hooks .firstAdded token).PanicFree) :
    log.count (.added, token) = (tokens (listenersAdded history)).count token := by
  rw [← Passage.count_added, List.flatMap_def]
  apply upTo.count_eq
  intro calls callsMem logged part
  rcases List.mem_map.1 callsMem with ⟨passage, _, rfl⟩
  by_cases follows : (.added, token) ∈ passage.hooks.tail
  · rw [part.eq_of_panicFree]
    rw [dropLast_hooks_of_added follows]
    exact List.forall_mem_singleton.2 returns
  · exact part.count_of_notMem_tail follows

/-- A log is whole if no hook panics that can have another one after it. -/
theorem UpToPanics.eq_flatten_hooks {ℓ : Type} {hooks : Hooks ω α} {history : List (Passage ℓ)}
    {log : List (HookKind × Token)} (upTo : UpToPanics hooks (history.map Passage.hooks) log)
    (unbroken : ∀ token,
      (hooks .firstAdded token).PanicFree ∧ (hooks .removed token).PanicFree) :
    log = (history.map Passage.hooks).flatten := by
  apply upTo.eq_flatten
  intro calls callsMem call callMem
  rcases List.mem_map.1 callsMem with ⟨passage, _, rfl⟩
  rcases call with ⟨kind, token⟩
  rcases kind_of_mem_dropLast_hooks callMem with first | removed
  · cases first
    exact (unbroken token).1
  · cases removed
    exact (unbroken token).2

end ValueBus.Event
