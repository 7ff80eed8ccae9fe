import Mathlib.Algebra.Group.Nat.Defs
import ValueBus.Proofs.ListenerTable

/-!
# Interleaved sections

Callers on any number of threads share one table. Each of them holds its lock for one section at a
time: to add a listener, to remove one, to begin a notification, to end one. So whatever they do,
the table goes through sections one after the other, in any order but for one rule: only a
notification that runs can end.

What a table has gone through is kept as a history, with what every section told its caller. The
listeners that remain after a history are those that were added and not removed, which says nothing
about when a change was applied. This file shows that every reachable table stands for exactly
these, and that a section answers from them alone. The invariant of `Consistent` tables does the
work; what each section adds to the history is set beside it, and both are kept together.
-/

namespace ValueBus.Event

open Table (tokens without mem_tokens_iff tokens_append)

variable {ℓ : Type}

/-- What a caller does to the table while it holds the lock. -/
inductive Section (ℓ : Type) where
  | subscribe (listener : ℓ)
  | unsubscribe (token : Token)
  | beginNotify
  | endNotify

/-- A section that was gone through, with what it told its caller. -/
inductive Passage (ℓ : Type) where
  /-- A listener got a token; `first` if no listener was live before. -/
  | added (token : Token) (listener : ℓ) (first : Bool)
  /-- A live listener was removed; `last` if no listener is live any more. -/
  | removed (token : Token) (last : Bool)
  /-- The token to remove named no live listener. -/
  | refused (token : Token)
  | begun (listeners : List (Token × ℓ))
  | ended

def Table.pass (table : Table ℓ) : Section ℓ → Passage ℓ × Table ℓ
  | .subscribe listener =>
      let ((token, first), after) := table.subscribe listener
      (.added token listener first, after)
  | .unsubscribe token =>
      match table.unsubscribe token with
      | (some last, after) => (.removed token last, after)
      | (none, after) => (.refused token, after)
  | .beginNotify =>
      let (listeners, after) := table.beginNotify
      (.begun listeners, after)
  | .endNotify => (.ended, table.endNotify)

namespace Passage

def listenersAdded (history : List (Passage ℓ)) : List (Token × ℓ) :=
  history.filterMap fun
    | .added token listener _ => some (token, listener)
    | _ => none

def tokensRemoved (history : List (Passage ℓ)) : List Token :=
  history.filterMap fun
    | .removed token _ => some token
    | _ => none

/-- The listeners that were added and not removed. -/
def remaining (history : List (Passage ℓ)) : List (Token × ℓ) :=
  (listenersAdded history).filter fun entry => entry.1 ∉ tokensRemoved history

def notifiesBegun (history : List (Passage ℓ)) : Nat :=
  history.countP fun
    | .begun _ => true
    | _ => false

def notifiesEnded (history : List (Passage ℓ)) : Nat :=
  history.countP fun
    | .ended => true
    | _ => false

/-- What a section tells follows from the history before it. -/
def Answers (earlier : List (Passage ℓ)) : Passage ℓ → Prop
  | .added token _ first =>
      token = ⟨(listenersAdded earlier).length + 1⟩ ∧ first = (remaining earlier).isEmpty
  | .removed token last =>
      token ∈ tokens (remaining earlier) ∧ last = (without token (remaining earlier)).isEmpty
  | .refused token => token ∉ tokens (remaining earlier)
  | .begun listeners => listeners = remaining earlier
  | .ended => True

end Passage

open Passage

/-- The tables that callers can bring about, with the history that led there. -/
inductive Reachable : List (Passage ℓ) → Table ℓ → Prop where
  | new : Reachable [] {}
  | pass {history : List (Passage ℓ)} {table : Table ℓ} (reachable : Reachable history table)
      (request : Section ℓ)
      (running : request = .endNotify → notifiesEnded history < notifiesBegun history) :
      Reachable (history ++ [(table.pass request).1]) (table.pass request).2

/-- A consistent table that stands for what remains after a history. -/
structure Records (history : List (Passage ℓ)) (table : Table ℓ) : Prop where
  consistent : table.Consistent
  live : table.live = remaining history
  nextId : table.nextId = (listenersAdded history).length + 1
  ordered : (tokens (listenersAdded history)).Pairwise (· < ·)
  issued : ∀ token ∈ tokens (listenersAdded history), token.id < table.nextId
  removed_added : ∀ token ∈ tokensRemoved history, token ∈ tokens (listenersAdded history)
  removed_once : (tokensRemoved history).Nodup
  running : notifiesBegun history = notifiesEnded history + table.inFlight

theorem records_new : Records [] ({} : Table ℓ) where
  consistent := Table.consistent_empty
  live := rfl
  nextId := rfl
  ordered := List.Pairwise.nil
  issued := by simp [listenersAdded, tokens]
  removed_added := by simp [tokensRemoved]
  removed_once := List.nodup_nil
  running := rfl

variable {history : List (Passage ℓ)} {table : Table ℓ}

/-! ## Longer histories -/

namespace Passage

theorem listenersAdded_append (earlier later : List (Passage ℓ)) :
    listenersAdded (earlier ++ later) = listenersAdded earlier ++ listenersAdded later :=
  List.filterMap_append

theorem tokensRemoved_append (earlier later : List (Passage ℓ)) :
    tokensRemoved (earlier ++ later) = tokensRemoved earlier ++ tokensRemoved later :=
  List.filterMap_append

theorem notifiesBegun_append (earlier later : List (Passage ℓ)) :
    notifiesBegun (earlier ++ later) = notifiesBegun earlier + notifiesBegun later :=
  List.countP_append

theorem notifiesEnded_append (earlier later : List (Passage ℓ)) :
    notifiesEnded (earlier ++ later) = notifiesEnded earlier + notifiesEnded later :=
  List.countP_append

theorem remaining_sublist (history : List (Passage ℓ)) :
    (remaining history).Sublist (listenersAdded history) :=
  List.filter_sublist

theorem remaining_of_unchanged {later : List (Passage ℓ)}
    (added : listenersAdded later = []) (removed : tokensRemoved later = []) :
    remaining (history ++ later) = remaining history := by
  simp only [remaining, listenersAdded_append, tokensRemoved_append, added, removed,
    List.append_nil]

theorem remaining_of_added {token : Token} {listener : ℓ} {first : Bool}
    (unremoved : token ∉ tokensRemoved history) :
    remaining (history ++ [.added token listener first]) =
      remaining history ++ [(token, listener)] := by
  have added : listenersAdded [.added token listener first] = [(token, listener)] := rfl
  have removed : tokensRemoved [Passage.added token listener first] = [] := rfl
  simp only [remaining, listenersAdded_append, tokensRemoved_append, added, removed,
    List.append_nil, List.filter_append]
  apply congrArg
  simp [unremoved]

theorem remaining_of_removed {token : Token} {last : Bool} :
    remaining (history ++ [.removed token last]) = without token (remaining history) := by
  have added : listenersAdded [Passage.removed (ℓ := ℓ) token last] = [] := rfl
  have removed : tokensRemoved [Passage.removed (ℓ := ℓ) token last] = [token] := rfl
  simp only [remaining, without, listenersAdded_append, tokensRemoved_append, added, removed,
    List.append_nil, List.filter_filter]
  apply List.filter_congr
  intro entry _
  simp [not_or, and_comm]

theorem not_mem_remaining_of_removed {token : Token} (removed : token ∈ tokensRemoved history) :
    token ∉ tokens (remaining history) := by
  intro remains
  rcases mem_tokens_iff.1 remains with ⟨entry, entryMem, rfl⟩
  have unremoved := (List.mem_filter.1 entryMem).2
  simp [removed] at unremoved

end Passage

/-! ## One section -/

theorem pass_subscribe (consistent : table.Consistent) (listener : ℓ) :
    table.pass (.subscribe listener) =
      (.added ⟨table.nextId⟩ listener table.live.isEmpty, (table.subscribe listener).2) := by
  have answer := consistent.subscribe_fst listener
  rw [Table.pass]
  rcases subscribed : table.subscribe listener with ⟨⟨token, first⟩, after⟩
  rw [subscribed] at answer
  cases answer
  rfl

theorem pass_unsubscribe_of_mem (consistent : table.Consistent) {token : Token}
    (isLive : token ∈ tokens table.live) :
    table.pass (.unsubscribe token) =
      (.removed token (without token table.live).isEmpty, (table.unsubscribe token).2) := by
  have answer := consistent.unsubscribe_fst token
  rw [if_pos (List.contains_iff_mem.2 isLive)] at answer
  rw [Table.pass]
  rcases unsubscribed : table.unsubscribe token with ⟨removed, after⟩
  rw [unsubscribed] at answer
  cases answer
  rfl

theorem pass_unsubscribe_of_not_mem {token : Token} (notLive : token ∉ tokens table.live) :
    table.pass (.unsubscribe token) = (.refused token, table) := by
  rw [Table.pass, Table.unsubscribe, Table.remove?_eq_none_iff.2 notLive]

theorem Records.answers (records : Records history table) (request : Section ℓ) :
    (table.pass request).1.Answers history := by
  cases request with
  | subscribe listener =>
      rw [pass_subscribe records.consistent, Answers, records.nextId, records.live]
      exact ⟨rfl, rfl⟩
  | unsubscribe token =>
      by_cases isLive : token ∈ tokens table.live
      · rw [pass_unsubscribe_of_mem records.consistent isLive, Answers, ← records.live]
        exact ⟨isLive, rfl⟩
      · rw [pass_unsubscribe_of_not_mem isLive, Answers, ← records.live]
        exact isLive
  | beginNotify => exact records.live
  | endNotify => trivial

namespace Records

theorem not_removed (records : Records history table) :
    ⟨table.nextId⟩ ∉ tokensRemoved history := fun removed =>
  Nat.lt_irrefl _ (records.issued _ (records.removed_added _ removed))

theorem subscribe (records : Records history table) (listener : ℓ) :
    Records (history ++ [(table.pass (.subscribe listener)).1])
      (table.pass (.subscribe listener)).2 := by
  rw [pass_subscribe records.consistent]
  have added : listenersAdded (history ++ [.added ⟨table.nextId⟩ listener table.live.isEmpty]) =
      listenersAdded history ++ [(⟨table.nextId⟩, listener)] := listenersAdded_append ..
  have removed : tokensRemoved (history ++ [.added ⟨table.nextId⟩ listener table.live.isEmpty]) =
      tokensRemoved history := by
    rw [tokensRemoved_append]
    exact List.append_nil _
  exact
    { consistent := records.consistent.subscribe listener
      live := by
        rw [records.consistent.live_subscribe, records.live,
          remaining_of_added records.not_removed]
      nextId := by
        rw [Table.subscribe_nextId, added, List.length_append, List.length_singleton,
          records.nextId]
      ordered := by
        rw [added, tokens_append]
        refine List.pairwise_append.2 ⟨records.ordered, List.pairwise_singleton _ _, ?_⟩
        intro earlier earlierMem later laterMem
        rw [List.mem_singleton.1 laterMem]
        exact records.issued earlier earlierMem
      issued := by
        rw [added, tokens_append, Table.subscribe_nextId]
        intro token tokenMem
        rcases List.mem_append.1 tokenMem with old | new
        · exact Nat.lt_succ_of_lt (records.issued token old)
        · rw [List.mem_singleton.1 new]
          exact Nat.lt_succ_self _
      removed_added := by
        rw [added, removed, tokens_append]
        intro token tokenMem
        exact List.mem_append_left _ (records.removed_added token tokenMem)
      removed_once := by
        rw [removed]
        exact records.removed_once
      running := by
        rw [notifiesBegun_append, notifiesEnded_append, Table.subscribe_inFlight]
        exact records.running }

/-- A section that adds and removes nothing keeps the records if it counts notifications. -/
theorem of_unchanged (records : Records history table) {passage : Passage ℓ} {after : Table ℓ}
    (added : listenersAdded [passage] = []) (removed : tokensRemoved [passage] = [])
    (consistent : after.Consistent) (live : after.live = table.live)
    (nextId : after.nextId = table.nextId)
    (running : notifiesBegun history + notifiesBegun [passage] =
      notifiesEnded history + notifiesEnded [passage] + after.inFlight) :
    Records (history ++ [passage]) after where
  consistent := consistent
  live := by rw [live, records.live, remaining_of_unchanged added removed]
  nextId := by
    rw [nextId, records.nextId, listenersAdded_append, added, List.append_nil]
  ordered := by
    rw [listenersAdded_append, added, List.append_nil]
    exact records.ordered
  issued := by
    rw [listenersAdded_append, added, List.append_nil, nextId]
    exact records.issued
  removed_added := by
    rw [listenersAdded_append, added, List.append_nil, tokensRemoved_append, removed,
      List.append_nil]
    exact records.removed_added
  removed_once := by
    rw [tokensRemoved_append, removed, List.append_nil]
    exact records.removed_once
  running := by
    rw [notifiesBegun_append, notifiesEnded_append]
    exact running

theorem unsubscribe (records : Records history table) (token : Token) :
    Records (history ++ [(table.pass (.unsubscribe token)).1])
      (table.pass (.unsubscribe token)).2 := by
  by_cases isLive : token ∈ tokens table.live
  · rw [pass_unsubscribe_of_mem records.consistent isLive]
    rcases records.consistent.unsubscribe token with ⟨consistent, nextId, inFlight⟩
    have added : listenersAdded
        (history ++ [.removed token (without token table.live).isEmpty]) =
          listenersAdded history := by
      rw [listenersAdded_append]
      exact List.append_nil _
    have removed : tokensRemoved
        (history ++ [.removed token (without token table.live).isEmpty]) =
          tokensRemoved history ++ [token] := tokensRemoved_append ..
    rw [records.live] at isLive
    have tokenAdded := ((remaining_sublist history).map _).subset isLive
    exact
      { consistent
        live := by
          rw [records.consistent.live_unsubscribe, records.live, remaining_of_removed]
        nextId := by
          rw [nextId, added, records.nextId]
        ordered := by
          rw [added]
          exact records.ordered
        issued := by
          rw [added, nextId]
          exact records.issued
        removed_added := by
          rw [added, removed]
          intro other otherMem
          rcases List.mem_append.1 otherMem with earlier | this
          · exact records.removed_added other earlier
          · rw [List.mem_singleton.1 this]
            exact tokenAdded
        removed_once := by
          rw [removed]
          -- What was removed before no longer remains, and this one does.
          refine records.removed_once.append (List.nodup_singleton _) ?_
          intro other earlier this
          rw [List.mem_singleton.1 this] at earlier
          exact not_mem_remaining_of_removed earlier isLive
        running := by
          rw [notifiesBegun_append, notifiesEnded_append, inFlight]
          exact records.running }
  · rw [pass_unsubscribe_of_not_mem isLive]
    exact records.of_unchanged rfl rfl records.consistent rfl rfl records.running

theorem beginNotify (records : Records history table) :
    Records (history ++ [(table.pass .beginNotify).1]) (table.pass .beginNotify).2 := by
  refine records.of_unchanged rfl rfl records.consistent.beginNotify (Table.live_beginNotify _) rfl
    ?_
  have begun : notifiesBegun [(table.pass .beginNotify).1] = 1 := rfl
  have ended : notifiesEnded [(table.pass .beginNotify).1] = 0 := rfl
  have inFlight : (table.pass .beginNotify).2.inFlight = table.inFlight + 1 := rfl
  have running := records.running
  omega

theorem endNotify (records : Records history table)
    (running : notifiesEnded history < notifiesBegun history) :
    Records (history ++ [(table.pass .endNotify).1]) (table.pass .endNotify).2 := by
  refine records.of_unchanged rfl rfl records.consistent.endNotify (Table.live_endNotify _)
    (Table.endNotify_nextId _) ?_
  have begun : notifiesBegun [(table.pass .endNotify).1] = 0 := rfl
  have ended : notifiesEnded [(table.pass .endNotify).1] = 1 := rfl
  have inFlight : (table.pass .endNotify).2.inFlight = table.inFlight - 1 :=
    Table.endNotify_inFlight table
  have counted := records.running
  omega

end Records

/-! ## Any number of sections -/

theorem Reachable.records (reachable : Reachable history table) : Records history table := by
  induction reachable with
  | new => exact records_new
  | pass _ request running ih =>
      cases request with
      | subscribe listener => exact ih.subscribe listener
      | unsubscribe token => exact ih.unsubscribe token
      | beginNotify => exact ih.beginNotify
      | endNotify => exact ih.endNotify (running rfl)

/-- Every section of a history answered from the history before it. -/
theorem Reachable.answers (reachable : Reachable history table) {position : Nat}
    {passage : Passage ℓ} (found : history[position]? = some passage) :
    passage.Answers (history.take position) := by
  induction reachable with
  | new => cases found
  | @pass history table reachable request _ ih =>
      rw [List.getElem?_append] at found
      split at found
      next inside =>
        rw [List.take_append_of_le_length (Nat.le_of_lt inside)]
        exact ih found
      next =>
        rw [List.getElem?_singleton, Option.ite_none_right_eq_some, Option.some.injEq] at found
        have positionEq : position = history.length := by omega
        rw [positionEq, List.take_left, ← found.2]
        exact reachable.records.answers request

/-- A table that represents what remains after a history, and a history whose sections answered as
if every change had been applied at once. -/
structure Linearized (history : List (Passage ℓ)) (table : Table ℓ) : Prop where
  removes_active : ∀ token ∈ table.pendingRemove, token ∈ tokens table.active
  removes_distinct : table.pendingRemove.Nodup
  adds_ordered : (tokens table.pendingAdd).Pairwise (· < ·)
  adds_greater : ∀ active ∈ tokens table.active, ∀ added ∈ tokens table.pendingAdd, active < added
  adds_disjoint : (tokens table.pendingAdd).Disjoint (tokens table.active)
  held_below_next : ∀ token ∈ tokens (table.active ++ table.pendingAdd), token.id < table.nextId
  issued_below_next : ∀ token ∈ tokens (listenersAdded history), token.id < table.nextId
  issued_once : (tokens (listenersAdded history)).Nodup
  /-- The next token fits a counter of 64 bits for as long as tokens can be counted in it. -/
  next_fits : (listenersAdded history).length < 2 ^ 64 - 1 → table.nextId < 2 ^ 64
  running : notifiesBegun history = notifiesEnded history + table.inFlight
  settled : table.inFlight = 0 → table.pendingAdd = [] ∧ table.pendingRemove = []
  /-- The subtraction in `Table.liveCount` is exact. -/
  removes_le_active : table.pendingRemove.length ≤ table.active.length
  liveCount : table.liveCount = (remaining history).length
  isLive : ∀ token, table.isLive token = true ↔ token ∈ tokens (remaining history)
  snapshots : ∀ (position : Nat) (listeners : List (Token × ℓ)),
    history[position]? = some (.begun listeners) →
    listeners = remaining (history.take position) ∧ (tokens listeners).Pairwise (· < ·)
  removed_once : (tokensRemoved history).Nodup
  answers : ∀ (position : Nat) (passage : Passage ℓ), history[position]? = some passage →
    passage.Answers (history.take position)

theorem Records.issued_once (records : Records history table) :
    (tokens (listenersAdded history)).Nodup := by
  apply records.ordered.imp
  intro earlier later less same
  rw [same] at less
  exact Nat.lt_irrefl _ less

/-- The listeners that remain stand in the order of their tokens, now and at any time before. -/
theorem Records.remaining_ordered (records : Records history table) (position : Nat) :
    (tokens (remaining (history.take position))).Pairwise (· < ·) := by
  have added : (listenersAdded (history.take position)).Sublist (listenersAdded history) :=
    (List.take_sublist position history).filterMap _
  exact records.ordered.sublist (((remaining_sublist _).trans added).map _)

/-- However the sections of any callers interleave, every table that they reach represents the
listeners that were added and not removed, and every section answered from those. -/
theorem linearized_of_reachable (history : List (Passage ℓ)) (table : Table ℓ)
    (reachable : Reachable history table) : Linearized history table := by
  have records := reachable.records
  have consistent := records.consistent
  have ordered := consistent.ordered
  rw [tokens_append] at ordered
  rcases List.pairwise_append.1 ordered with ⟨_, addsOrdered, addsGreater⟩
  exact
    { removes_active := consistent.removes_active
      removes_distinct := consistent.removes_once
      adds_ordered := addsOrdered
      adds_greater := addsGreater
      adds_disjoint := fun _ added active => consistent.not_mem_active added active
      held_below_next := consistent.issued
      issued_below_next := records.issued
      issued_once := records.issued_once
      next_fits := by
        intro few
        rw [records.nextId]
        omega
      running := records.running
      settled := consistent.settled
      removes_le_active := by
        rw [← consistent.length_leaving]
        exact List.length_filter_le ..
      liveCount := by rw [consistent.liveCount, records.live]
      isLive := by
        intro token
        rw [Table.isLive_eq, List.contains_iff_mem, records.live]
      snapshots := by
        intro position listeners found
        have snapshot : listeners = remaining (history.take position) := reachable.answers found
        exact ⟨snapshot, snapshot ▸ records.remaining_ordered position⟩
      removed_once := records.removed_once
      answers := fun _ _ found => reachable.answers found }

/-- A second notification that begins while the first one runs applies what is pending, and the end
of either applies nothing. -/
theorem linearized_of_reachable_nested :
    let history : List (Passage Nat) :=
      [.added ⟨1⟩ 10 true, .begun [(⟨1⟩, 10)], .added ⟨2⟩ 20 false, .removed ⟨1⟩ false,
        .begun [(⟨2⟩, 20)], .removed ⟨2⟩ true, .refused ⟨2⟩, .ended]
    let table : Table Nat :=
      { active := [(⟨2⟩, 20)], pendingRemove := [⟨2⟩], nextId := 3, inFlight := 1 }
    Reachable history table ∧ Linearized history table := by
  intro history table
  have reachable : Reachable history table := by
    have added := (Reachable.new (ℓ := Nat)).pass (.subscribe 10) (by intro ends; cases ends)
    have begun := added.pass .beginNotify (by intro ends; cases ends)
    have deferred := begun.pass (.subscribe 20) (by intro ends; cases ends)
    have leaving := deferred.pass (.unsubscribe ⟨1⟩) (by intro ends; cases ends)
    have nested := leaving.pass .beginNotify (by intro ends; cases ends)
    have removed := nested.pass (.unsubscribe ⟨2⟩) (by intro ends; cases ends)
    have refused := removed.pass (.unsubscribe ⟨2⟩) (by intro ends; cases ends)
    exact refused.pass .endNotify (by intro _; decide)
  exact ⟨reachable, linearized_of_reachable history table reachable⟩

end ValueBus.Event
