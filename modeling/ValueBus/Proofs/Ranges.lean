import Mathlib.Tactic.SplitIfs
import ValueBus.Cursor
import ValueBus.Proofs.Actions

/-!
# Machine arithmetic

Offsets and lengths are 64-bit numbers, and a computation on them may leave its range: a sum may
pass the greatest number, a difference may go below zero, a slice may end outside the run that it is
taken from. Here such a computation answers nothing in that case, and an action that is made of them
is shown to answer all the same, and to answer what the action answers that it stands for.

One judgement carries this through a composition. It also says what an action leaves behind it: an
invariant of the state, here that the cursor lies inside its bytes, and an error that is not about
an allowance. It is established here for the steps of the read cursor.
-/

namespace ValueBus

namespace Machine

/-- Every run of bytes in memory is shorter. -/
def memorySize : Nat :=
  0x8000000000000000

def sum? (left right : Nat) : Option Nat :=
  if left + right < LittleEndian.span 8 then some (left + right) else none

def difference? (left right : Nat) : Option Nat :=
  if right ≤ left then some (left - right) else none

/-- The part of a run from one position up to another. -/
def slice? (run : List UInt8) (first last : Nat) : Option (List UInt8) :=
  if first ≤ last ∧ last ≤ run.length then some ((run.drop first).take (last - first)) else none

/-- A run as an array of the given size, which has to be that of the run. -/
def array? (size : Nat) (run : List UInt8) : Option (List UInt8) :=
  if run.length = size then some run else none

def alignUp? (offset alignment : Nat) : Option Nat := do
  let mask ← difference? alignment 1
  let sum ← sum? offset mask
  difference? sum (sum &&& mask)

theorem difference?_succ_one (number : Nat) : difference? (number + 1) 1 = some number :=
  if_pos (Nat.le_add_left 1 number)

theorem slice?_zero {run : List UInt8} {last : Nat} (inside : last ≤ run.length) :
    slice? run 0 last = some (run.take last) :=
  if_pos ⟨Nat.zero_le last, inside⟩

theorem slice?_length {run : List UInt8} {first : Nat} (inside : first ≤ run.length) :
    slice? run first run.length = some (run.drop first) := by
  have whole : (run.drop first).take (run.length - first) = run.drop first :=
    List.take_of_length_le (Nat.le_of_eq List.length_drop)
  rw [slice?, if_pos ⟨inside, Nat.le_refl _⟩, whole]

/-- The sum of an offset and the mask of an alignment, where it stays within 64 bits. -/
theorem alignUp_eq_of_sum {offset alignment : Nat}
    (within : offset + (alignment - 1) < LittleEndian.span 8) :
    alignUp offset alignment =
      (offset + (alignment - 1)) - ((offset + (alignment - 1)) &&& (alignment - 1)) := by
  unfold alignUp
  dsimp only
  split_ifs
  · rfl
  · rw [Nat.mod_eq_of_lt within]

/-- An offset can be aligned exactly if its sum with the mask stays within 64 bits. -/
theorem alignUp?_eq {offset alignment : Nat} (positive : 0 < alignment) :
    alignUp? offset alignment =
      if offset + alignment ≤ LittleEndian.span 8 then some (alignUp offset alignment)
      else none := by
  have masked : (offset + (alignment - 1)) &&& (alignment - 1) ≤ offset + (alignment - 1) :=
    Nat.and_le_left
  simp only [alignUp?, difference?, sum?, if_pos (Nat.succ_le_of_lt positive),
    Option.bind_eq_bind, Option.bind_some]
  split_ifs with within fits fits
  · simp only [Option.bind_some, alignUp_eq_of_sum within, if_pos masked]
  · omega
  · omega
  · rfl

/-- Up to the greatest alignment, the sum stays within 64 bits for every offset into memory. -/
theorem sum_le_span {offset alignment : Nat} (fits : alignment ≤ greatestAlignment)
    (addressable : offset < memorySize) : offset + alignment ≤ LittleEndian.span 8 := by
  simp only [greatestAlignment] at fits
  simp only [memorySize] at addressable
  simp only [LittleEndian.span]
  omega

end Machine

/-- An action in machine arithmetic: it answers nothing where a computation leaves its range. -/
abbrev Checked (σ α : Type) :=
  OptionT (Action σ) α

namespace Checked

variable {σ α β : Type}

/-- Takes the result of a computation. -/
def compute (result : Option α) : Checked σ α :=
  OptionT.mk (pure result)

theorem compute_bind (value : α) (next : α → Checked σ β) :
    compute (some value) >>= next = next value :=
  rfl

theorem run_bind_of_ok {first : Checked σ α} {next : α → Checked σ β} {before middle : σ}
    {answer : α} (answers : first.run before = .ok (some answer) middle) :
    (first >>= next).run before = (next answer).run middle :=
  Action.bind_of_ok answers

theorem run_bind_of_error {first : Checked σ α} {next : α → Checked σ β} {before after : σ}
    {fault : StreamError} (fails : first.run before = .error fault after) :
    (first >>= next).run before = .error fault after :=
  Action.bind_of_error fails

theorem run_lift_of_ok {action : Action σ α} {before after : σ} {answer : α}
    (answers : action before = .ok answer after) :
    (OptionT.lift action).run before = .ok (some answer) after :=
  Action.bind_of_ok answers

theorem run_lift_of_error {action : Action σ α} {before after : σ} {fault : StreamError}
    (fails : action before = .error fault after) :
    (OptionT.lift action).run before = .error fault after :=
  Action.bind_of_error fails

end Checked

/-- An allowance ran out: that of declared types inside one another, or that of items in a loop. -/
def StreamError.Exhausted : StreamError → Prop
  | .limitExceeded .nesting _ _ | .invalidData .surplusItem => True
  | _ => False

/-- Where an invariant holds, an action can be done in machine arithmetic. It keeps the invariant,
its answers satisfy a postcondition, and it does not fail for want of an allowance. -/
structure Faithful {σ α : Type} (invariant : σ → Prop) (checked : Checked σ α)
    (action : Action σ α) (post : α → Prop) : Prop where
  answers : ∀ {before answer after}, invariant before → action before = .ok answer after →
    checked.run before = .ok (some answer) after ∧ invariant after ∧ post answer
  fails : ∀ {before fault after}, invariant before → action before = .error fault after →
    checked.run before = .error fault after ∧ invariant after ∧ ¬ fault.Exhausted

namespace Faithful

variable {σ α β : Type} {invariant : σ → Prop}

theorem of_lift {action : Action σ α} {post : α → Prop}
    (answers : ∀ {before answer after}, invariant before → action before = .ok answer after →
      invariant after ∧ post answer)
    (fails : ∀ {before fault after}, invariant before → action before = .error fault after →
      invariant after ∧ ¬ fault.Exhausted) :
    Faithful invariant (OptionT.lift action) action post where
  answers holds answered := ⟨Checked.run_lift_of_ok answered, answers holds answered⟩
  fails holds failed := ⟨Checked.run_lift_of_error failed, fails holds failed⟩

theorem pure {answer : α} {post : α → Prop} (holds : post answer) :
    Faithful invariant (Pure.pure answer) (Pure.pure answer) post where
  answers := by
    intro before found after kept answered
    cases answered
    exact ⟨rfl, kept, holds⟩
  fails := by
    intro before fault after kept failed
    cases failed

theorem get : Faithful invariant (OptionT.lift MonadState.get) (MonadState.get : Action σ σ)
    invariant := by
  apply of_lift
  · intro before answer after kept answered
    cases answered
    exact ⟨kept, kept⟩
  · intro before fault after kept failed
    cases failed

theorem bind {first : Checked σ α} {action : Action σ α} {middle : α → Prop}
    {next : α → Checked σ β} {following : α → Action σ β} {post : β → Prop}
    (faithful : Faithful invariant first action middle)
    (nextFaithful : ∀ answer, middle answer →
      Faithful invariant (next answer) (following answer) post) :
    Faithful invariant (first >>= next) (action >>= following) post where
  answers := by
    intro before answer after kept answered
    rcases Action.bind_eq_ok_iff.1 answered with ⟨between, state, firstAnswered, answered⟩
    rcases faithful.answers kept firstAnswered with ⟨runs, kept, holds⟩
    rw [Checked.run_bind_of_ok runs]
    exact (nextFaithful between holds).answers kept answered
  fails := by
    intro before fault after kept failed
    cases result : action before with
    | ok between state =>
        rw [Action.bind_of_ok result] at failed
        rcases faithful.answers kept result with ⟨runs, kept, holds⟩
        rw [Checked.run_bind_of_ok runs]
        exact (nextFaithful between holds).fails kept failed
    | error found state =>
        rw [Action.bind_of_error result] at failed
        cases failed
        rcases faithful.fails kept result with ⟨runs, kept, genuine⟩
        exact ⟨Checked.run_bind_of_error runs, kept, genuine⟩

/-- What is done in machine arithmetic may go on with what is done so. -/
theorem run_bind_eq {first : Checked σ α} {action : Action σ α} {middle : α → Prop}
    {next : α → Checked σ β} {following : α → Action σ β} {before : σ}
    (faithful : Faithful invariant first action middle) (kept : invariant before)
    (rest : ∀ answer {after}, invariant after →
      (next answer).run after = (OptionT.lift (following answer)).run after) :
    (first >>= next).run before = (OptionT.lift (action >>= following)).run before := by
  rw [OptionT.run_lift, bind_assoc]
  cases result : action before with
  | ok answer after =>
      rcases faithful.answers kept result with ⟨runs, kept, _⟩
      rw [Checked.run_bind_of_ok runs, Action.bind_of_ok result, rest answer kept, OptionT.run_lift]
  | error fault after =>
      rw [Checked.run_bind_of_error (faithful.fails kept result).1, Action.bind_of_error result]

theorem map {checked : Checked σ α} {action : Action σ α} {middle : α → Prop} {change : α → β}
    {post : β → Prop} (faithful : Faithful invariant checked action middle)
    (implies : ∀ answer, middle answer → post (change answer)) :
    Faithful invariant (change <$> checked) (change <$> action) post := by
  rw [map_eq_pure_bind, map_eq_pure_bind]
  exact faithful.bind fun answer holds => pure (implies answer holds)

end Faithful

namespace ReadCursor

/-- The offset lies inside the bytes, and these fit into memory. -/
structure InRange (cursor : ReadCursor) : Prop where
  inside : cursor.offset ≤ cursor.bytes.length
  addressable : cursor.bytes.length < Machine.memorySize

def takeChecked (count : Nat) : Checked ReadCursor (List UInt8) := OptionT.mk fun cursor =>
  match (Machine.sum? cursor.offset count).filter (· ≤ cursor.bytes.length) with
  | none => .error (.readFailed cursor.offset .endOfBuffer) cursor
  | some last =>
      .ok (Machine.slice? cursor.bytes cursor.offset last) { cursor with offset := last }

/-- Reads the bytes of a number into an array. -/
def takeArrayChecked (size : Nat) : Checked ReadCursor (List UInt8) := do
  let run ← takeChecked size
  Checked.compute (Machine.array? size run)

def alignChecked (alignment : Nat) : Checked ReadCursor Unit := OptionT.mk fun cursor =>
  if alignment ≤ 1 then .ok (some ()) cursor
  else
    match Machine.alignUp? cursor.offset alignment with
    | none => .ok none cursor
    | some aligned =>
        if aligned > cursor.bytes.length then .error (.readFailed aligned .endOfBuffer) cursor
        else .ok (some ()) { cursor with offset := aligned }

variable {cursor : ReadCursor}

theorem run_takeChecked (count : Nat) :
    (takeChecked count).run cursor =
      match (Machine.sum? cursor.offset count).filter (· ≤ cursor.bytes.length) with
      | none => .error (.readFailed cursor.offset .endOfBuffer) cursor
      | some last =>
          .ok (Machine.slice? cursor.bytes cursor.offset last) { cursor with offset := last } :=
  rfl

/-- The end of the run that is taken is computed whenever it lies inside the bytes. -/
theorem filter_sum? (count : Nat) (kept : cursor.InRange) :
    (Machine.sum? cursor.offset count).filter (· ≤ cursor.bytes.length) =
      if cursor.offset + count ≤ cursor.bytes.length then some (cursor.offset + count)
      else none := by
  by_cases fits : cursor.offset + count ≤ cursor.bytes.length
  · have addressable := kept.addressable
    have within : cursor.offset + count < LittleEndian.span 8 := by
      simp only [Machine.memorySize] at addressable
      simp only [LittleEndian.span]
      omega
    rw [Machine.sum?, if_pos within, if_pos fits]
    exact Option.filter_some_pos (decide_eq_true fits)
  · rw [if_neg fits, Option.filter_eq_none_iff]
    intro last summed
    rw [Machine.sum?, Option.ite_none_right_eq_some, Option.some.injEq] at summed
    rw [← summed.2]
    simpa using fits

theorem take_faithful (count : Nat) :
    Faithful InRange (takeChecked count) (take count) (·.length = count) where
  answers := by
    intro before run after kept answered
    simp only [take] at answered
    split_ifs at answered with fits
    cases answered
    have sliced : Machine.slice? before.bytes before.offset (before.offset + count) =
        some ((before.bytes.drop before.offset).take count) := by
      rw [Machine.slice?, if_pos ⟨Nat.le_add_right .., fits⟩, Nat.add_sub_cancel_left]
    refine ⟨?_, ⟨fits, kept.addressable⟩, ?_⟩
    · simp only [run_takeChecked, filter_sum? count kept, if_pos fits, sliced]
    · simp only [List.length_take, List.length_drop]
      omega
  fails := by
    intro before fault after kept failed
    simp only [take] at failed
    split_ifs at failed with fits
    cases failed
    refine ⟨?_, kept, id⟩
    simp only [run_takeChecked, filter_sum? count kept, if_neg fits]

theorem takeArray_faithful (size : Nat) :
    Faithful InRange (takeArrayChecked size) (take size) (·.length = size) := by
  rw [← bind_pure (take size)]
  apply (take_faithful size).bind
  intro run lengthEq
  rw [Machine.array?, if_pos lengthEq]
  exact Faithful.pure lengthEq

/-- Where the cursor is in range, aligning it is the same in machine arithmetic. -/
theorem run_alignChecked {alignment : Nat} (positive : 0 < alignment) (small : alignment ≤ 8)
    (kept : cursor.InRange) :
    (alignChecked alignment).run cursor =
      if alignUp cursor.offset alignment ≤ cursor.bytes.length then
        .ok (some ()) { cursor with offset := alignUp cursor.offset alignment }
      else .error (.readFailed (alignUp cursor.offset alignment) .endOfBuffer) cursor := by
  have steps : (alignChecked alignment).run cursor =
      if alignment ≤ 1 then .ok (some ()) cursor
      else
        match Machine.alignUp? cursor.offset alignment with
        | none => .ok none cursor
        | some aligned =>
            if aligned > cursor.bytes.length then .error (.readFailed aligned .endOfBuffer) cursor
            else .ok (some ()) { cursor with offset := aligned } := rfl
  -- Nothing is computed for an alignment of one.
  by_cases one : alignment ≤ 1
  · have alignmentEq : alignment = 1 := Nat.le_antisymm one positive
    have aligned : alignUp cursor.offset 1 = cursor.offset := by
      simp [@alignUp_eq cursor.offset 1 (by decide)]
    rw [steps, if_pos one, alignmentEq, aligned, if_pos kept.inside]
  · have addressable : cursor.offset < Machine.memorySize :=
      Nat.lt_of_le_of_lt kept.inside kept.addressable
    have fits : alignment ≤ greatestAlignment := Nat.le_trans small (by decide)
    rw [steps, if_neg one, Machine.alignUp?_eq positive,
      if_pos (Machine.sum_le_span fits addressable)]
    simp only [gt_iff_lt, ← Nat.not_le, ite_not]

theorem align_faithful {alignment : Nat} (positive : 0 < alignment) (small : alignment ≤ 8) :
    Faithful InRange (alignChecked alignment) (align alignment) fun _ => True where
  answers := by
    intro before answer after kept answered
    rw [run_alignChecked positive small kept]
    simp only [align] at answered
    split_ifs at answered with fits
    cases answered
    exact ⟨if_pos fits, ⟨fits, kept.addressable⟩, trivial⟩
  fails := by
    intro before fault after kept failed
    rw [run_alignChecked positive small kept]
    simp only [align] at failed
    split_ifs at failed with fits
    cases failed
    exact ⟨if_neg fits, kept, id⟩

end ReadCursor

end ValueBus
