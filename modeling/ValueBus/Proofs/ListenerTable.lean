import Mathlib.Data.List.Nodup
import ValueBus.Event.Script

/-!
# What a listener table stands for

Whatever is pending, a table stands for one list of listeners: those that the next notification
calls. This file says what each operation does to that list. Seen through it nothing is deferred: a
listener that is added is at its end at once, one that is removed is gone at once, and neither the
beginning nor the end of a notification changes it.

The facts hold of tables that are consistent. What is pending is so only while a notification is in
flight; and since tokens are issued in ascending order, listeners that are added later may be put
after all others.
-/

namespace ValueBus.Event.Table

variable {ℓ : Type}

/-! ## Lists of listeners -/

theorem mem_tokens_iff {token : Token} {listeners : List (Token × ℓ)} :
    token ∈ tokens listeners ↔ ∃ entry ∈ listeners, entry.1 = token := by
  simp only [tokens, List.mem_map]

theorem tokens_append (earlier later : List (Token × ℓ)) :
    tokens (earlier ++ later) = tokens earlier ++ tokens later := by
  simp only [tokens, List.map_append]

theorem without_append (token : Token) (earlier later : List (Token × ℓ)) :
    without token (earlier ++ later) = without token earlier ++ without token later := by
  simp only [without, List.filter_append]

theorem without_eq_self {token : Token} {listeners : List (Token × ℓ)}
    (absent : token ∉ tokens listeners) : without token listeners = listeners := by
  simp only [without, List.filter_eq_self]
  intro entry entryMem
  have different : entry.1 ≠ token := fun same => absent (mem_tokens_iff.2 ⟨entry, entryMem, same⟩)
  exact decide_eq_true different

theorem without_sublist (token : Token) (listeners : List (Token × ℓ)) :
    (without token listeners).Sublist listeners :=
  List.filter_sublist

/-! ## Consistent tables -/

/-- The active listeners that no pending removal names. -/
def kept (table : Table ℓ) : List (Token × ℓ) :=
  table.active.filter fun entry => !table.pendingRemove.contains entry.1

/-- The active listeners that a pending removal names. -/
def leaving (table : Table ℓ) : List (Token × ℓ) :=
  table.active.filter fun entry => table.pendingRemove.contains entry.1

/-- The listeners that the next notification calls. -/
def live (table : Table ℓ) : List (Token × ℓ) :=
  table.flush.active

theorem live_eq (table : Table ℓ) : table.live = table.kept ++ table.pendingAdd :=
  rfl

/-- What holds of a table at any time. -/
structure Consistent (table : Table ℓ) : Prop where
  /-- Listeners stand in the order in which their tokens were issued. -/
  ordered : (tokens (table.active ++ table.pendingAdd)).Pairwise (· < ·)
  issued : ∀ token ∈ tokens (table.active ++ table.pendingAdd), token.id < table.nextId
  removes_active : ∀ token ∈ table.pendingRemove, token ∈ tokens table.active
  removes_once : table.pendingRemove.Nodup
  /-- Without a notification in flight nothing is pending. -/
  settled : table.inFlight = 0 → table.pendingAdd = [] ∧ table.pendingRemove = []

theorem consistent_empty : ({} : Table ℓ).Consistent where
  ordered := List.Pairwise.nil
  issued := by simp [tokens]
  removes_active := by simp
  removes_once := List.nodup_nil
  settled := fun _ => ⟨rfl, rfl⟩

variable {table : Table ℓ}

namespace Consistent

theorem nodup (consistent : table.Consistent) :
    (tokens (table.active ++ table.pendingAdd)).Nodup := by
  apply consistent.ordered.imp
  intro earlier later less same
  rw [same] at less
  exact Nat.lt_irrefl _ less

theorem nodup_active (consistent : table.Consistent) : (tokens table.active).Nodup := by
  have all := consistent.nodup
  rw [tokens_append] at all
  exact (List.nodup_append.1 all).1

/-- No token names both an active listener and one that is yet to be added. -/
theorem not_mem_active (consistent : table.Consistent) {token : Token}
    (added : token ∈ tokens table.pendingAdd) : token ∉ tokens table.active := by
  have all := consistent.nodup
  rw [tokens_append] at all
  intro active
  exact (List.nodup_append.1 all).2.2 token active token added rfl

end Consistent

/-- Removing listeners, and keeping what is pending a removal of active ones, leaves a consistent
table. -/
theorem Consistent.of_sublist (consistent : table.Consistent) {after : Table ℓ}
    (listeners : (after.active ++ after.pendingAdd).Sublist (table.active ++ table.pendingAdd))
    (nextId : after.nextId = table.nextId)
    (removesActive : ∀ token ∈ after.pendingRemove, token ∈ tokens after.active)
    (removesOnce : after.pendingRemove.Nodup)
    (settled : after.inFlight = 0 → after.pendingAdd = [] ∧ after.pendingRemove = []) :
    after.Consistent where
  ordered := consistent.ordered.sublist (listeners.map _)
  issued token tokenMem := by
    rw [nextId]
    exact consistent.issued token ((listeners.map _).subset tokenMem)
  removes_active := removesActive
  removes_once := removesOnce
  settled := settled

/-! ## Questions -/

theorem isKept_iff {token : Token} :
    table.isKept token = true ↔ token ∈ tokens table.kept := by
  simp only [isKept, kept, Bool.and_eq_true, List.contains_iff_mem, Bool.not_eq_true',
    ← Bool.not_eq_true, mem_tokens_iff, List.mem_filter]
  constructor
  · rintro ⟨⟨entry, entryMem, rfl⟩, stays⟩
    exact ⟨entry, ⟨entryMem, stays⟩, rfl⟩
  · rintro ⟨entry, ⟨entryMem, stays⟩, rfl⟩
    exact ⟨⟨entry, entryMem, rfl⟩, stays⟩

theorem isLive_eq (table : Table ℓ) (token : Token) :
    table.isLive token = (tokens table.live).contains token := by
  rw [Bool.eq_iff_iff, isLive, Bool.or_eq_true, isKept_iff, List.contains_iff_mem,
    List.contains_iff_mem, live_eq, tokens_append, List.mem_append]

theorem Consistent.length_leaving (consistent : table.Consistent) :
    table.leaving.length = table.pendingRemove.length := by
  have once : (tokens table.leaving).Nodup :=
    consistent.nodup_active.sublist (List.filter_sublist.map _)
  have same : (tokens table.leaving).Perm table.pendingRemove := by
    apply (List.perm_ext_iff_of_nodup once consistent.removes_once).2
    intro token
    simp only [leaving, mem_tokens_iff, List.mem_filter, List.contains_iff_mem]
    constructor
    · rintro ⟨entry, ⟨_, removed⟩, rfl⟩
      exact removed
    · intro removed
      obtain ⟨entry, entryMem, rfl⟩ := mem_tokens_iff.1 (consistent.removes_active token removed)
      exact ⟨entry, ⟨entryMem, removed⟩, rfl⟩
  rw [← same.length_eq, tokens, List.length_map]

theorem Consistent.length_kept (consistent : table.Consistent) :
    table.kept.length = table.active.length - table.pendingRemove.length := by
  have split := List.length_eq_length_filter_add (l := table.active)
    fun entry => table.pendingRemove.contains entry.1
  rw [← consistent.length_leaving, leaving, kept, split]
  omega

theorem Consistent.liveCount (consistent : table.Consistent) :
    table.liveCount = table.live.length := by
  simp only [Table.liveCount, live_eq, List.length_append, consistent.length_kept]

theorem Consistent.decide_liveCount (consistent : table.Consistent) :
    decide (table.liveCount = 0) = table.live.isEmpty := by
  rw [consistent.liveCount, Bool.eq_iff_iff, decide_eq_true_iff, List.isEmpty_iff,
    List.length_eq_zero_iff]

theorem Consistent.status (consistent : table.Consistent) :
    table.status = if table.live.isEmpty then .cancel else .retain := by
  simp only [Table.status, consistent.liveCount]
  cases table.live <;> rfl

/-! ## Applying what is pending -/

theorem live_of_settled (noAdd : table.pendingAdd = []) (noRemove : table.pendingRemove = []) :
    table.live = table.active := by
  simp only [live_eq, kept, noAdd, noRemove, List.append_nil, List.filter_eq_self]
  intro _ _
  exact rfl

theorem live_flush (table : Table ℓ) : table.flush.live = table.live :=
  live_of_settled rfl rfl

theorem Consistent.flush (consistent : table.Consistent) : table.flush.Consistent := by
  refine consistent.of_sublist ?_ rfl ?_ List.nodup_nil fun _ => ⟨rfl, rfl⟩
  · simp only [Table.flush, List.append_nil]
    exact List.filter_sublist.append (List.Sublist.refl _)
  · intro _ removed
    exact absurd removed List.not_mem_nil

/-! ## Adding a listener -/

/-- The answer is the next token and whether there was no listener. -/
theorem Consistent.subscribe_fst (consistent : table.Consistent) (listener : ℓ) :
    (table.subscribe listener).1 = (⟨table.nextId⟩, table.live.isEmpty) := by
  rw [← consistent.decide_liveCount, Table.subscribe]
  split_ifs <;> rfl

theorem subscribe_nextId (table : Table ℓ) (listener : ℓ) :
    (table.subscribe listener).2.nextId = table.nextId + 1 := by
  rw [subscribe]
  split_ifs <;> rfl

theorem subscribe_inFlight (table : Table ℓ) (listener : ℓ) :
    (table.subscribe listener).2.inFlight = table.inFlight := by
  rw [subscribe]
  split_ifs <;> rfl

/-- A listener that is added comes after all others. -/
theorem Consistent.live_subscribe (consistent : table.Consistent) (listener : ℓ) :
    (table.subscribe listener).2.live = table.live ++ [(⟨table.nextId⟩, listener)] := by
  simp only [Table.subscribe]
  split_ifs with busy
  · simp only [live_eq, kept, List.append_assoc]
  · obtain ⟨noAdd, noRemove⟩ := consistent.settled (Nat.eq_zero_of_not_pos busy)
    rw [live_of_settled noAdd noRemove]
    exact live_of_settled noAdd noRemove

theorem Consistent.subscribe (consistent : table.Consistent) (listener : ℓ) :
    (table.subscribe listener).2.Consistent := by
  have ordered :
      (tokens (table.active ++ table.pendingAdd ++ [(⟨table.nextId⟩, listener)])).Pairwise
        (· < ·) := by
    rw [tokens_append]
    refine List.pairwise_append.2 ⟨consistent.ordered, List.pairwise_singleton _ _, ?_⟩
    intro earlier earlierMem later laterMem
    rw [List.mem_singleton.1 laterMem]
    exact consistent.issued earlier earlierMem
  have issued : ∀ token ∈
      tokens (table.active ++ table.pendingAdd ++ [(⟨table.nextId⟩, listener)]),
      token.id < table.nextId + 1 := by
    intro token tokenMem
    rw [tokens_append, List.mem_append] at tokenMem
    rcases tokenMem with old | new
    · exact Nat.lt_succ_of_lt (consistent.issued token old)
    · rw [List.mem_singleton.1 new]
      exact Nat.lt_succ_self _
  simp only [Table.subscribe]
  split_ifs with busy
  · simp only [List.append_assoc] at ordered issued
    exact
      { ordered, issued
        removes_active := consistent.removes_active
        removes_once := consistent.removes_once
        settled := fun idle => absurd idle (Nat.ne_of_gt busy) }
  · obtain ⟨noAdd, noRemove⟩ := consistent.settled (Nat.eq_zero_of_not_pos busy)
    simp only [noAdd, List.append_nil] at ordered issued
    refine
      { ordered := ?_
        issued := ?_
        removes_active := ?_
        removes_once := consistent.removes_once
        settled := fun _ => ⟨noAdd, noRemove⟩ }
    · simpa only [noAdd, List.append_nil] using ordered
    · simpa only [noAdd, List.append_nil] using issued
    · simp only [noRemove, List.not_mem_nil, false_implies, implies_true]

/-! ## Removing a listener -/

theorem remove?_eq_none_iff {token : Token} :
    table.remove? token = none ↔ token ∉ tokens table.live := by
  rw [live_eq, tokens_append, List.mem_append, ← isKept_iff, ← List.contains_iff_mem, remove?]
  split_ifs <;> simp_all

/-- A listener that is removed is gone, whether it was active or yet to be added. -/
theorem Consistent.live_of_remove? (consistent : table.Consistent) {token : Token}
    {after : Table ℓ} (removed : table.remove? token = some after) :
    after.live = without token table.live := by
  rw [table.live_eq, without_append]
  simp only [remove?] at removed
  split_ifs at removed with added active busy <;> obtain rfl := Option.some.inj removed
  · have absent : token ∉ tokens table.kept := fun inKept =>
      consistent.not_mem_active (List.contains_iff_mem.1 added)
        ((List.filter_sublist.map _).subset inKept)
    rw [without_eq_self absent]
    rfl
  · rw [without_eq_self (fun inAdd => added (List.contains_iff_mem.2 inAdd)), live_eq]
    apply congrArg (· ++ table.pendingAdd)
    simp only [without, kept, List.filter_filter]
    apply List.filter_congr
    intro entry _
    simp [Bool.and_comm]
  · obtain ⟨noAdd, noRemove⟩ := consistent.settled (Nat.eq_zero_of_not_pos busy)
    rw [← without_append, ← table.live_eq, live_of_settled noAdd noRemove]
    exact live_of_settled noAdd noRemove

theorem Consistent.of_remove? (consistent : table.Consistent) {token : Token} {after : Table ℓ}
    (removed : table.remove? token = some after) :
    after.Consistent ∧ after.nextId = table.nextId ∧ after.inFlight = table.inFlight := by
  simp only [remove?] at removed
  split_ifs at removed with added active busy <;> obtain rfl := Option.some.inj removed
  · refine ⟨?_, rfl, rfl⟩
    refine consistent.of_sublist ?_ rfl consistent.removes_active consistent.removes_once ?_
    · exact (List.Sublist.refl _).append (without_sublist ..)
    · intro idle
      obtain ⟨noAdd, noRemove⟩ := consistent.settled idle
      exact ⟨by rw [noAdd]; rfl, noRemove⟩
  · obtain ⟨isActive, notRemoved⟩ := Bool.and_eq_true_iff.1 active
    simp only [List.contains_iff_mem] at isActive
    rw [Bool.not_eq_true', ← Bool.not_eq_true, List.contains_iff_mem] at notRemoved
    refine ⟨?_, rfl, rfl⟩
    refine consistent.of_sublist (List.Sublist.refl _) rfl ?_ ?_ ?_
    · intro other otherMem
      rcases List.mem_append.1 otherMem with earlier | this
      · exact consistent.removes_active other earlier
      · rw [List.mem_singleton.1 this]
        exact isActive
    · exact consistent.removes_once.append (List.nodup_singleton _)
        (List.disjoint_singleton.2 notRemoved)
    · intro idle
      exact absurd idle (Nat.ne_of_gt busy)
  · obtain ⟨noAdd, noRemove⟩ := consistent.settled (Nat.eq_zero_of_not_pos busy)
    refine ⟨?_, rfl, rfl⟩
    refine consistent.of_sublist ?_ rfl ?_ consistent.removes_once fun _ => ⟨noAdd, noRemove⟩
    · exact (without_sublist ..).append (List.Sublist.refl _)
    · simp only [noRemove, List.not_mem_nil, false_implies, implies_true]

/-- The answer is whether no listener is left, if the token named one. -/
theorem Consistent.unsubscribe_fst (consistent : table.Consistent) (token : Token) :
    (table.unsubscribe token).1 =
      if (tokens table.live).contains token then some (without token table.live).isEmpty
      else none := by
  simp only [Table.unsubscribe]
  cases removed : table.remove? token with
  | none =>
      have absent := remove?_eq_none_iff.1 removed
      rw [if_neg (fun found => absent (List.contains_iff_mem.1 found))]
  | some after =>
      have found : token ∈ tokens table.live := by
        by_contra absent
        rw [remove?_eq_none_iff.2 absent] at removed
        exact absurd removed (by simp)
      rw [if_pos (List.contains_iff_mem.2 found), ← consistent.live_of_remove? removed,
        ← (consistent.of_remove? removed).1.decide_liveCount]

theorem Consistent.live_unsubscribe (consistent : table.Consistent) (token : Token) :
    (table.unsubscribe token).2.live = without token table.live := by
  simp only [Table.unsubscribe]
  cases removed : table.remove? token with
  | none => exact (without_eq_self (remove?_eq_none_iff.1 removed)).symm
  | some after => exact consistent.live_of_remove? removed

theorem Consistent.unsubscribe (consistent : table.Consistent) (token : Token) :
    (table.unsubscribe token).2.Consistent ∧
      (table.unsubscribe token).2.nextId = table.nextId ∧
      (table.unsubscribe token).2.inFlight = table.inFlight := by
  simp only [Table.unsubscribe]
  cases removed : table.remove? token with
  | none => exact ⟨consistent, rfl, rfl⟩
  | some after => exact consistent.of_remove? removed

/-! ## Notifications -/

theorem live_beginNotify (table : Table ℓ) : table.beginNotify.2.live = table.live :=
  live_flush table

theorem Consistent.beginNotify (consistent : table.Consistent) :
    table.beginNotify.2.Consistent :=
  consistent.flush.of_sublist (List.Sublist.refl _) rfl consistent.flush.removes_active
    consistent.flush.removes_once fun _ => ⟨rfl, rfl⟩

/-- The end of a notification changes no listener, also when it applies what is pending. -/
theorem live_endNotify (table : Table ℓ) : table.endNotify.live = table.live := by
  rw [endNotify]
  split_ifs
  · rw [live_flush]
    rfl
  · rfl

theorem endNotify_nextId (table : Table ℓ) : table.endNotify.nextId = table.nextId := by
  rw [endNotify]
  split_ifs <;> rfl

theorem endNotify_inFlight (table : Table ℓ) :
    table.endNotify.inFlight = table.inFlight - 1 := by
  rw [endNotify]
  split_ifs <;> rfl

theorem Consistent.endNotify (consistent : table.Consistent) : table.endNotify.Consistent := by
  simp only [Table.endNotify]
  split_ifs with idle
  · exact consistent.flush.of_sublist (List.Sublist.refl _) rfl consistent.flush.removes_active
      consistent.flush.removes_once fun _ => ⟨rfl, rfl⟩
  · exact consistent.of_sublist (List.Sublist.refl _) rfl consistent.removes_active
      consistent.removes_once fun none => absurd none idle

end ValueBus.Event.Table
