import ValueBus.Proofs.CheckedReading
import ValueBus.Proofs.Sound
import ValueBus.Proofs.TypedReading

/-!
# Allowances above the depth limit

A program is given an allowance of declared types that may be entered inside one another, and each
of its loops the number of items that the stream announced. Neither bound belongs to the format.
Over the memory reader neither is ever used up: every declared type opens a frame, and a frame
beyond the depth limit is refused; a sequence or map counts the items that were announced and has no
more.

So two programs of a type whose allowances are above the depth limit run alike over any bytes. This
is proved by induction on the allowances and, for each pair of them, on the type.
-/

namespace ValueBus

open ReadProgram MemoryReader

/-- A sane reader that has latched nothing and has the given frames open. -/
structure Ready (limits : Limits) (frames : List ReadFrame) (reader : MemoryReader) : Prop where
  sane : reader.Sane limits
  unlatched : reader.error = none
  frames_eq : reader.frames = frames

/-- Two programs run alike wherever the given frames are open. With an answer they leave a reader
that is ready for what follows, and they do not fail for want of an allowance. -/
structure Coincide {α : Type} (limits : Limits) (frames : List ReadFrame)
    (program other : ReadProgram α) (leaves : α → List ReadFrame → Prop) : Prop where
  run_eq : ∀ {before}, Ready limits frames before →
    (program.run : Action MemoryReader α) before = other.run before
  answers : ∀ {before answer after}, Ready limits frames before →
    (program.run : Action MemoryReader α) before = .ok answer after →
    ∃ outer, Ready limits outer after ∧ leaves answer outer
  fails : ∀ {before fault after}, Ready limits frames before →
    (program.run : Action MemoryReader α) before = .error fault after →
    after.Sane limits ∧ ¬ fault.Exhausted

/-- Programs that run alike and leave the frames as they are. -/
abbrev Coincide.Kept {α : Type} (limits : Limits) (frames : List ReadFrame)
    (program other : ReadProgram α) : Prop :=
  Coincide limits frames program other fun _ outer => outer = frames

namespace Coincide

variable {α β γ : Type} {limits : Limits} {frames : List ReadFrame}

/-- No reader has more frames open than the limits allow. -/
theorem of_deep {program other : ReadProgram α} {leaves : α → List ReadFrame → Prop}
    (deep : limits.maxDepth < frames.length) : Coincide limits frames program other leaves := by
  have unready {before : MemoryReader} (ready : Ready limits frames before) : False := by
    have shallow := ready.sane.shallow
    rw [ready.frames_eq] at shallow
    exact Nat.not_lt_of_le shallow deep
  exact ⟨fun ready => (unready ready).elim, fun ready => (unready ready).elim,
    fun ready => (unready ready).elim⟩

theorem done {answer : α} {leaves : α → List ReadFrame → Prop} (left : leaves answer frames) :
    Coincide limits frames (pure answer) (pure answer) leaves where
  run_eq _ := rfl
  answers := by
    intro before found after ready answered
    cases answered
    exact ⟨frames, ready, left⟩
  fails := by
    intro before fault after ready failed
    cases failed

theorem raise {fault : StreamError} (genuine : ¬ fault.Exhausted)
    {leaves : α → List ReadFrame → Prop} :
    Coincide limits frames (ReadProgram.raise fault) (ReadProgram.raise fault) leaves where
  run_eq _ := rfl
  answers _ answered := absurd answered Action.raise_ne_ok
  fails ready failed := ready.sane.raise genuine failed

theorem bind {program other : ReadProgram α} {middle : α → List ReadFrame → Prop}
    {next following : α → ReadProgram β} {leaves : β → List ReadFrame → Prop}
    (coincide : Coincide limits frames program other middle)
    (nextCoincide : ∀ answer {outer}, middle answer outer →
      Coincide limits outer (next answer) (following answer) leaves) :
    Coincide limits frames (program >>= next) (other >>= following) leaves where
  run_eq := by
    intro before ready
    rw [run_bind, run_bind]
    cases result : (program.run : Action MemoryReader α) before with
    | ok answer after =>
        rcases coincide.answers ready result with ⟨outer, readyAfter, left⟩
        have same : (other.run : Action MemoryReader α) before = .ok answer after := by
          rw [← coincide.run_eq ready, result]
        rw [Action.bind_of_ok result, Action.bind_of_ok same]
        exact (nextCoincide answer left).run_eq readyAfter
    | error fault after =>
        have same : (other.run : Action MemoryReader α) before = .error fault after := by
          rw [← coincide.run_eq ready, result]
        rw [Action.bind_of_error result, Action.bind_of_error same]
  answers := by
    intro before answer after ready answered
    rcases run_bind_eq_ok_iff.1 answered with ⟨between, state, firstAnswered, answered⟩
    rcases coincide.answers ready firstAnswered with ⟨outer, readyBetween, left⟩
    exact (nextCoincide between left).answers readyBetween answered
  fails := by
    intro before fault after ready failed
    rw [run_bind] at failed
    cases result : (program.run : Action MemoryReader α) before with
    | ok answer state =>
        rw [Action.bind_of_ok result] at failed
        rcases coincide.answers ready result with ⟨outer, readyBetween, left⟩
        exact (nextCoincide answer left).fails readyBetween failed
    | error found state =>
        rw [Action.bind_of_error result] at failed
        cases failed
        exact coincide.fails ready result

theorem map {program other : ReadProgram α} (coincide : Kept limits frames program other)
    (change : α → β) : Kept limits frames (change <$> program) (change <$> other) :=
  coincide.bind fun _ _ left => done left

theorem ite {condition : Prop} [Decidable condition] {first second : ReadProgram α}
    {leaves : α → List ReadFrame → Prop}
    (firstCoincide : Coincide limits frames first first leaves)
    (secondCoincide : Coincide limits frames second second leaves) :
    Coincide limits frames (if condition then first else second)
      (if condition then first else second) leaves := by
  split
  · exact firstCoincide
  · exact secondCoincide

theorem readLeaf (kind : LeafKind) (deployment : Option Deployment) :
    Kept limits frames (ReadProgram.readLeaf kind deployment)
      (ReadProgram.readLeaf kind deployment) where
  run_eq _ := rfl
  answers := by
    intro before value after ready answered
    rw [run_readLeaf ready.unlatched] at answered
    have sane := ((takeLeaf_faithful kind deployment).answers ready.sane answered).2.1
    rcases takeLeaf_eq_ok_iff.1 answered with ⟨_, _, cursor, _, _, _, rfl⟩
    exact ⟨frames, ⟨sane, ready.unlatched, ready.frames_eq⟩, rfl⟩
  fails := by
    intro before fault after ready failed
    rw [run_readLeaf ready.unlatched] at failed
    exact ((takeLeaf_faithful kind deployment).fails ready.sane failed).2

theorem enterFrame (kind : FrameKind) (deployment : Option Deployment) :
    Coincide limits frames (ReadProgram.enterFrame kind deployment)
      (ReadProgram.enterFrame kind deployment)
      fun opening outer => opening.kind = kind ∧ outer = opening.readFrame :: frames where
  run_eq _ := rfl
  answers := by
    intro before opening after ready answered
    rw [run_enterFrame ready.unlatched] at answered
    have sane := ((enter_faithful kind deployment).answers ready.sane answered).2.1
    rcases enter_eq_ok_iff.1 answered with ⟨kindEq, _, cursor, _, _, _, rfl⟩
    refine ⟨_, ⟨sane, ready.unlatched, rfl⟩, kindEq, ?_⟩
    rw [← ready.frames_eq]
  fails := by
    intro before fault after ready failed
    rw [run_enterFrame ready.unlatched] at failed
    exact ((enter_faithful kind deployment).fails ready.sane failed).2

theorem leaveFrame (kind : FrameKind) {frame : ReadFrame} :
    Coincide limits (frame :: frames) (ReadProgram.leaveFrame kind) (ReadProgram.leaveFrame kind)
      fun _ outer => outer = frames where
  run_eq _ := rfl
  answers := by
    intro before answer after ready answered
    rw [run_leaveFrame ready.unlatched] at answered
    have sane := ((closeFrame_faithful kind).answers ready.sane answered).2.1
    cases eq_of_closeFrame answered
    refine ⟨_, ⟨sane, ready.unlatched, rfl⟩, ?_⟩
    rw [ready.frames_eq, List.tail_cons]
  fails := by
    intro before fault after ready failed
    rw [run_leaveFrame ready.unlatched] at failed
    exact ((closeFrame_faithful kind).fails ready.sane failed).2

theorem checkLatch :
    Kept limits frames ReadProgram.checkLatch ReadProgram.checkLatch where
  run_eq _ := rfl
  answers := by
    intro before answer after ready answered
    rw [run_checkLatch ready.unlatched] at answered
    cases answered
    exact ⟨frames, ready, rfl⟩
  fails := by
    intro before fault after ready failed
    rw [run_checkLatch ready.unlatched] at failed
    cases failed

/-- Another item follows while some are to come. -/
theorem more (kind : Repetition) {count : Nat} :
    Coincide limits (.counted kind count :: frames) (ReadProgram.more kind) (ReadProgram.more kind)
      fun answer outer => answer = decide (count ≠ 0) ∧
        outer = .counted kind (count - 1) :: frames where
  run_eq _ := rfl
  answers := by
    intro before answer after ready answered
    have sane := ready.sane.hasMore kind
    rw [run_more] at answered
    cases count with
    | zero =>
        rw [hasMore_of_counted_zero ready.unlatched ready.frames_eq] at answered
        cases answered
        exact ⟨_, ready, rfl, rfl⟩
    | succ count =>
        rw [hasMore_of_counted_succ ready.unlatched ready.frames_eq] at answered sane
        cases answered
        exact ⟨_, ⟨sane, ready.unlatched, rfl⟩, rfl, rfl⟩
  fails := by
    intro before fault after ready failed
    rw [run_more] at failed
    cases failed

/-- The items of a loop run alike, and there are as many as were announced. -/
theorem repeatWhile {kind : Repetition} {item other : β → ReadProgram β}
    (itemCoincide : ∀ count state,
      Kept limits (.counted kind count :: frames) (item state) (other state))
    (count : Nat) (state : β) :
    Coincide limits (.counted kind count :: frames) (ReadProgram.repeatWhile kind item count state)
      (ReadProgram.repeatWhile kind other count state)
      fun _ outer => outer = .counted kind 0 :: frames := by
  induction count generalizing state with
  | zero =>
      -- No item is granted beyond the announced ones, so the surplus is never reported.
      apply (more kind).bind
      rintro answer outer ⟨rfl, rfl⟩
      exact done rfl
  | succ count ih =>
      apply (more kind).bind
      rintro answer outer ⟨rfl, rfl⟩
      apply (itemCoincide count state).bind
      rintro next outer rfl
      exact ih next

theorem bracket {kind : FrameKind} {deployment : Option Deployment}
    {body other : Opening → ReadProgram α} {finish : α → γ}
    (inside : ∀ opening, opening.kind = kind →
      Kept limits (opening.readFrame :: frames) (body opening) (other opening)) :
    Kept limits frames
      (ReadProgram.enterFrame kind deployment >>= fun opening => body opening >>= fun answer =>
        ReadProgram.leaveFrame kind >>= fun _ => pure (finish answer))
      (ReadProgram.enterFrame kind deployment >>= fun opening => other opening >>= fun answer =>
        ReadProgram.leaveFrame kind >>= fun _ => pure (finish answer)) := by
  apply (enterFrame kind deployment).bind
  rintro opening outer ⟨kindEq, rfl⟩
  apply (inside opening kindEq).bind
  rintro answer outer rfl
  exact (leaveFrame kind).bind fun _ _ left => done left

theorem repeated (kind : Repetition) {deployment : Option Deployment}
    {item other : β → ReadProgram β} {state : β} {finish : β → γ}
    (inside : ∀ count state,
      Kept limits (.counted kind count :: frames) (item state) (other state)) :
    Kept limits frames
      (ReadProgram.enterFrame kind.frame deployment >>= fun opening =>
        ReadProgram.repeatWhile kind item opening.length state >>= fun items =>
          ReadProgram.checkLatch >>= fun _ =>
            ReadProgram.leaveFrame kind.frame >>= fun _ => pure (finish items))
      (ReadProgram.enterFrame kind.frame deployment >>= fun opening =>
        ReadProgram.repeatWhile kind other opening.length state >>= fun items =>
          ReadProgram.checkLatch >>= fun _ =>
            ReadProgram.leaveFrame kind.frame >>= fun _ => pure (finish items)) := by
  apply (enterFrame kind.frame deployment).bind
  rintro opening outer ⟨kindEq, rfl⟩
  rw [Spells.readFrame_of_repetition kindEq]
  apply (repeatWhile inside opening.length state).bind
  rintro items outer rfl
  apply checkLatch.bind
  rintro _ outer rfl
  exact (leaveFrame kind.frame).bind fun _ _ left => done left

end Coincide

namespace Schema

open Coincide
open Deployment (childOf)

variable {limits : Limits} {declared other : Declared → Option Deployment → ReadProgram Value}
  {depth : Nat}

theorem coincide_entry {mapOrder : MapOrder} {key otherKey value otherValue : ReadProgram Value}
    {frames : List ReadFrame}
    (keyCoincide : ∀ frame, Kept limits (frame :: frames) key otherKey)
    (valueCoincide : ∀ frame, Kept limits (frame :: frames) value otherValue)
    (read : List (Value × Value)) :
    Kept limits frames (readEntry mapOrder key value read)
      (readEntry mapOrder otherKey otherValue read) := by
  apply (Coincide.enterFrame .mapEntry none).bind
  rintro opening outer ⟨_, rfl⟩
  apply (keyCoincide _).bind
  rintro key outer rfl
  apply (valueCoincide _).bind
  rintro value outer rfl
  apply (Coincide.leaveFrame .mapEntry).bind
  rintro _ outer rfl
  exact Coincide.ite (Coincide.raise id) (done rfl)

theorem coincide_members {types : List DataType} {frames : List ReadFrame}
    (typesCoincide : ∀ type ∈ types, ∀ deployment, Kept limits frames
      (type.readWith declared deployment) (type.readWith other deployment))
    (deployment : Option Deployment) (position : Nat) :
    Kept limits frames (DataType.readMembersWith declared types deployment position)
      (DataType.readMembersWith other types deployment position) := by
  induction types generalizing position with
  | nil => exact done rfl
  | cons type rest ih =>
      rw [List.forall_mem_cons] at typesCoincide
      simp only [DataType.readMembersWith]
      apply (typesCoincide.1 _).bind
      rintro member outer rfl
      apply (ih typesCoincide.2 _).bind
      rintro members outer rfl
      exact done rfl

/-- The programs of a type run alike if those of the declared types do, at that depth and below. -/
theorem coincide_readWith
    (declaredCoincide : ∀ name deployment {frames : List ReadFrame}, depth ≤ frames.length →
      Kept limits frames (declared name deployment) (other name deployment))
    (type : DataType) (deployment : Option Deployment) {frames : List ReadFrame}
    (deep : depth ≤ frames.length) :
    Kept limits frames (type.readWith declared deployment)
      (type.readWith other deployment) := by
  have deeper (frame : ReadFrame) {frames : List ReadFrame} (deep : depth ≤ frames.length) :
      depth ≤ (frame :: frames).length := Nat.le_succ_of_le deep
  induction type generalizing deployment frames with
  | leaf kind =>
      simp only [DataType.readWith]
      exact (Coincide.readLeaf kind deployment).map _
  | enumeration choices =>
      simp only [DataType.readWith]
      apply (Coincide.readLeaf _ _).bind
      rintro leaf outer rfl
      exact Coincide.ite (done rfl) (Coincide.raise id)
  | ranged range =>
      simp only [DataType.readWith]
      apply (Coincide.readLeaf _ _).bind
      rintro leaf outer rfl
      exact Coincide.ite (done rfl) (Coincide.raise id)
  | boxed content ih => exact ih deployment deep
  | sequence item ih =>
      simp only [DataType.readWith]
      apply repeated .sequence
      intro count read
      exact (ih _ (deeper _ deep)).map _
  | map mapOrder key value keyIh valueIh =>
      simp only [DataType.readWith]
      apply repeated .map
      intro count read
      apply coincide_entry
      · exact fun frame => keyIh _ (deeper _ (deeper _ deep))
      · exact fun frame => valueIh _ (deeper _ (deeper _ deep))
  | tuple items ih =>
      simp only [DataType.readWith]
      apply bracket
      intro opening _
      apply coincide_members
      exact fun type typeMem deployment => ih type typeMem deployment (deeper _ deep)
  | declared name => exact declaredCoincide name deployment deep

/-- Inside as many frames as are open, an allowance that leads beyond the depth limit is as good as
any other. -/
theorem coincide_readDeclared (schema : Schema) (name : Declared) (deployment : Option Deployment)
    {allowance larger : Nat} {frames : List ReadFrame}
    (enough : limits.maxDepth < allowance + frames.length)
    (largerEnough : limits.maxDepth < larger + frames.length) :
    Kept limits frames (schema.readDeclared allowance name deployment)
      (schema.readDeclared larger name deployment) := by
  induction allowance generalizing name deployment larger frames with
  | zero => exact of_deep (by omega)
  | succ allowance ih =>
      cases larger with
      | zero => exact of_deep (by omega)
      | succ larger =>
          -- What is declared inside is one frame deeper, with one less of both allowances.
          have inside (type : DataType) (deployment : Option Deployment) (frame : ReadFrame) :=
            coincide_readWith (fun name deployment inner deep =>
              @ih name deployment larger inner
                (by simp only [List.length_cons] at deep; omega)
                (by simp only [List.length_cons] at deep; omega))
              type deployment (Nat.le_refl (frame :: frames).length)
          cases name with
          | record name =>
              simp only [readDeclared]
              apply bracket
              intro opening _
              exact coincide_members (fun type _ deployment => inside type deployment _) _ _
          | variant set =>
              simp only [readDeclared]
              apply bracket
              intro opening _
              unfold readAlternative
              split
              · exact (inside _ _ _).map _
              · exact Coincide.raise id

theorem coincide_program (schema : Schema) (type : DataType) (deployment : Option Deployment)
    {allowance larger : Nat} (enough : limits.maxDepth < allowance)
    (largerEnough : limits.maxDepth < larger) :
    Kept limits [] (schema.program allowance type deployment)
      (schema.program larger type deployment) := by
  apply coincide_readWith
  · intro name deployment frames deep
    apply coincide_readDeclared
    · exact Nat.lt_add_right _ enough
    · exact Nat.lt_add_right _ largerEnough
  · exact Nat.le_refl 0

/-- The allowance that a reading has is above the depth limit. -/
theorem coincide_read (schema : Schema) (type : DataType) (deployment : Option Deployment)
    (reader : MemoryReader) :
    Kept reader.limits [] (schema.program (schema.allowance reader) type deployment)
      (schema.program (schema.allowance reader) type deployment) :=
  schema.coincide_program type deployment (schema.depth_lt_allowance reader)
    (schema.depth_lt_allowance reader)

end Schema

end ValueBus
