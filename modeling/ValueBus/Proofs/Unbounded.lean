import ValueBus.Proofs.Announcing
import ValueBus.Proofs.Careful
import ValueBus.Proofs.Ranges

/-!
# Readings without bounds

The protocol has no bounds. A sequence is read as long as the stream answers that another item
follows, and a declared type reads whatever is declared inside it. Such a reading may go on for
ever, so it is not a function: `Schema.Reads` relates a stream to the results that a reading of it
can end with.

Programs have bounds, which come from what a stream announces. They do not matter to a reading that
ends: a stream that announces enough is read by the program as it is read without bounds. A stream
that announces too little is read in the same way or fails for want of an announcement; it is never
given another answer.
-/

namespace ValueBus

open ReadProgram
open Deployment (childOf)

/-- The results that an action may end with. There is none if it goes on for ever. -/
def Outcomes (σ α : Type) : Type :=
  σ → EStateM.Result StreamError σ α → Prop

namespace Outcomes

variable {σ α β : Type}

instance : Monad (Outcomes σ) where
  pure value := fun state result => result = .ok value state
  bind first next := fun state result =>
    (∃ value middle, first state (.ok value middle) ∧ next value middle result) ∨
      ∃ fault after, first state (.error fault after) ∧ result = .error fault after

variable [InputStream σ]

instance : MonadLift ReadProgram (Outcomes σ) where
  monadLift program := fun state result => program.run state = result

/-- Reads items with `item` as long as the stream has more of them. -/
inductive WhileMore (kind : Repetition) (item : β → Outcomes σ β) : β → Outcomes σ β where
  | done {read : β} {stream asked : σ} :
      InputStream.hasMore kind stream = (false, asked) →
      WhileMore kind item read stream (.ok read asked)
  | more {read next : β} {stream asked middle : σ} {result : EStateM.Result StreamError σ β} :
      InputStream.hasMore kind stream = (true, asked) → item read asked (.ok next middle) →
      WhileMore kind item next middle result → WhileMore kind item read stream result
  | fails {read : β} {stream asked after : σ} {fault : StreamError} :
      InputStream.hasMore kind stream = (true, asked) → item read asked (.error fault after) →
      WhileMore kind item read stream (.error fault after)

/-- Reads an entry of a map behind the entries that were read before. -/
def entry (mapOrder : MapOrder) (readKey readValue : Outcomes σ Value)
    (read : List (Value × Value)) : Outcomes σ (List (Value × Value)) := do
  let _ ← enterFrame .mapEntry none
  let key ← readKey
  let value ← readValue
  leaveFrame .mapEntry
  if Value.hasKey key read then raise (.invalidData .repeatedKey)
  else pure (Value.addEntry mapOrder key value read)

end Outcomes

open Outcomes (WhileMore)

section Reads

variable {σ : Type} [InputStream σ]

mutual

def DataType.outcomesWith (declared : Declared → Option Deployment → Outcomes σ Value) :
    DataType → Option Deployment → Outcomes σ Value
  | .leaf kind, deployment => do
      let leaf ← readLeaf kind deployment
      pure (.leaf leaf)
  | .enumeration choices, deployment => do
      let leaf ← readLeaf (.number choices.base) deployment
      if choices.declares leaf then pure (.leaf leaf)
      else raise (.invalidEnumerator leaf.toInt)
  | .ranged range, deployment => do
      let leaf ← readLeaf (.number .int32) deployment
      if range.admits leaf then pure (.leaf leaf)
      else
        raise (.invalidData
          (.outOfRange leaf.toInt range.least.toInt range.greatest.toInt))
  | .boxed content, deployment => content.outcomesWith declared deployment
  | .sequence item, deployment => do
      let _ ← enterFrame .sequence deployment
      let items ← WhileMore .sequence
        (fun read => do
          let next ← item.outcomesWith declared (childOf deployment 0)
          pure (next :: read)) []
      checkLatch
      leaveFrame .sequence
      pure (.sequence items.reverse)
  | .map mapOrder key value, deployment => do
      let _ ← enterFrame .map deployment
      let entries ← WhileMore .map
        (Outcomes.entry mapOrder (key.outcomesWith declared (childOf deployment 0))
          (value.outcomesWith declared (childOf deployment 1))) []
      checkLatch
      leaveFrame .map
      pure (.map entries)
  | .tuple items, deployment => do
      let _ ← enterFrame .struct deployment
      let members ← DataType.memberOutcomesWith declared items deployment 0
      leaveFrame .struct
      pure (.record members)
  | .declared name, deployment => declared name deployment

def DataType.memberOutcomesWith (declared : Declared → Option Deployment → Outcomes σ Value) :
    List DataType → Option Deployment → Nat → Outcomes σ (List Value)
  | [], _, _ => pure []
  | type :: rest, deployment, position => do
      let member ← type.outcomesWith declared (childOf deployment position)
      let members ← DataType.memberOutcomesWith declared rest deployment (position + 1)
      pure (member :: members)

end

namespace Schema

def alternativeOutcomes (declared : Declared → Option Deployment → Outcomes σ Value)
    (alternatives : List Member) (tag : Nat) (deployment : Option Deployment) :
    Outcomes σ Value :=
  match alternatives[tag]? with
  | some alternative => do
      let value ← alternative.type.outcomesWith declared (childOf deployment tag)
      pure (.holding tag value)
  | none => raise (.unknownDiscriminator tag)

/-- The results of reading a declared type in which fewer than `depth` declared types are entered
inside one another. -/
def declaredOutcomes (schema : Schema) : Nat → Declared → Option Deployment → Outcomes σ Value
  | 0, _, _ => fun _ _ => False
  | depth + 1, .record name, deployment => do
      let _ ← enterFrame .struct deployment
      let members ← DataType.memberOutcomesWith (schema.declaredOutcomes depth)
        ((schema.fields name).map Member.type) deployment 0
      leaveFrame .struct
      pure (.record members)
  | depth + 1, .variant set, deployment => do
      let opening ← enterFrame .variant deployment
      let value ← alternativeOutcomes (schema.declaredOutcomes depth) (schema.alternatives set)
        opening.tag deployment
      leaveFrame .variant
      pure value

/-- A reading of a type ends with a result. It has entered some number of declared types inside one
another. -/
def Reads (schema : Schema) (type : DataType) (deployment : Option Deployment) (stream : σ)
    (result : EStateM.Result StreamError σ Value) : Prop :=
  ∃ depth, type.outcomesWith (schema.declaredOutcomes depth) deployment stream result

end Schema

end Reads

/-! ## Composition -/

/-- A statement on programs, by their allowance, and outcomes that holds of single calls and is kept
when programs are composed. -/
structure Compositional {σ : Type} [InputStream σ]
    (agree : ∀ {α : Type}, (Nat → ReadProgram α) → Outcomes σ α → Prop) : Prop where
  pure : ∀ {α : Type} (value : α), agree (fun _ => pure value) (pure value)
  raise : ∀ {α : Type} (fault : StreamError),
    agree (fun _ => (raise fault : ReadProgram α)) (liftM (raise fault : ReadProgram α))
  leaf : ∀ kind deployment,
    agree (fun _ => readLeaf kind deployment) (liftM (readLeaf kind deployment))
  leave : ∀ kind, agree (fun _ => leaveFrame kind) (liftM (leaveFrame kind))
  check : agree (fun _ => checkLatch) (liftM checkLatch)
  enter : ∀ {kind : FrameKind}, kind.repetition? = none → ∀ deployment,
    agree (fun _ => enterFrame kind deployment) (liftM (enterFrame kind deployment))
  bind : ∀ {α β : Type} {programs : Nat → ReadProgram α} {outcomes : Outcomes σ α}
    {next : Nat → α → ReadProgram β} {following : α → Outcomes σ β}, agree programs outcomes →
    (∀ value, agree (next · value) (following value)) →
    agree (fun allowance => programs allowance >>= next allowance) (outcomes >>= following)
  repeated : ∀ {β γ : Type} {kind : Repetition} {item : Nat → β → ReadProgram β}
    {itemOutcomes : β → Outcomes σ β} {next : Nat → β → ReadProgram γ}
    {following : β → Outcomes σ γ}, (∀ read, agree (item · read) (itemOutcomes read)) →
    (∀ items, agree (next · items) (following items)) → ∀ deployment start,
    agree
      (fun allowance => enterFrame kind.frame deployment >>= fun opening =>
        repeatWhile kind (item allowance) opening.length start >>= next allowance)
      (liftM (enterFrame kind.frame deployment) >>= fun _ =>
        WhileMore kind itemOutcomes start >>= following)

namespace Compositional

variable {σ : Type} [InputStream σ]
  {agree : ∀ {α : Type}, (Nat → ReadProgram α) → Outcomes σ α → Prop}
  {declared : Nat → Declared → Option Deployment → ReadProgram Value}
  {outcomes : Declared → Option Deployment → Outcomes σ Value}
  (compositional : Compositional agree)
include compositional

theorem entry {mapOrder : MapOrder} {readKey readValue : Nat → ReadProgram Value}
    {keyOutcomes valueOutcomes : Outcomes σ Value} (keysAgree : agree readKey keyOutcomes)
    (valuesAgree : agree readValue valueOutcomes) (read : List (Value × Value)) :
    agree (fun allowance => readEntry mapOrder (readKey allowance) (readValue allowance) read)
      (Outcomes.entry mapOrder keyOutcomes valueOutcomes read) := by
  apply compositional.bind (compositional.enter rfl none)
  intro _
  apply compositional.bind keysAgree
  intro key
  apply compositional.bind valuesAgree
  intro value
  apply compositional.bind (compositional.leave .mapEntry)
  intro _
  split
  · exact compositional.raise _
  · exact compositional.pure _

theorem closing {β γ : Type} (kind : FrameKind) (finish : β → γ) (items : β) :
    agree
      (fun _ => checkLatch >>= fun _ => leaveFrame kind >>= fun _ => Pure.pure (finish items))
      (liftM checkLatch >>= fun _ => liftM (leaveFrame kind) >>= fun _ =>
        Pure.pure (finish items)) := by
  apply compositional.bind compositional.check
  intro _
  apply compositional.bind (compositional.leave kind)
  intro _
  exact compositional.pure _

theorem members {types : List DataType}
    (typesAgree : ∀ type ∈ types, ∀ deployment,
      agree (fun allowance => type.readWith (declared allowance) deployment)
        (type.outcomesWith outcomes deployment))
    (deployment : Option Deployment) (position : Nat) :
    agree (fun allowance =>
        DataType.readMembersWith (declared allowance) types deployment position)
      (DataType.memberOutcomesWith outcomes types deployment position) := by
  induction types generalizing position with
  | nil => exact compositional.pure []
  | cons type rest ih =>
      rcases List.forall_mem_cons.1 typesAgree with ⟨typeAgrees, restAgree⟩
      simp only [DataType.readMembersWith, DataType.memberOutcomesWith]
      apply compositional.bind (typeAgrees _)
      intro member
      apply compositional.bind (ih restAgree (position + 1))
      intro members
      exact compositional.pure _

theorem readWith (declaredAgree : ∀ name deployment,
      agree (fun allowance => declared allowance name deployment) (outcomes name deployment))
    (type : DataType) (deployment : Option Deployment) :
    agree (fun allowance => type.readWith (declared allowance) deployment)
      (type.outcomesWith outcomes deployment) := by
  induction type generalizing deployment with
  | leaf kind =>
      simp only [DataType.readWith, DataType.outcomesWith]
      apply compositional.bind (compositional.leaf _ _)
      intro leaf
      exact compositional.pure _
  | enumeration choices =>
      simp only [DataType.readWith, DataType.outcomesWith]
      apply compositional.bind (compositional.leaf _ _)
      intro leaf
      split
      · exact compositional.pure _
      · exact compositional.raise _
  | ranged range =>
      simp only [DataType.readWith, DataType.outcomesWith]
      apply compositional.bind (compositional.leaf _ _)
      intro leaf
      split
      · exact compositional.pure _
      · exact compositional.raise _
  | boxed content ih => exact ih deployment
  | sequence item ih =>
      simp only [DataType.readWith, DataType.outcomesWith]
      apply @Compositional.repeated _ _ _ compositional _ _ .sequence
      · intro read
        apply compositional.bind (ih _)
        intro next
        exact compositional.pure _
      · exact compositional.closing .sequence _
  | map mapOrder key value keyIh valueIh =>
      simp only [DataType.readWith, DataType.outcomesWith]
      apply @Compositional.repeated _ _ _ compositional _ _ .map
      · exact compositional.entry (keyIh _) (valueIh _)
      · exact compositional.closing .map _
  | tuple items ih =>
      simp only [DataType.readWith, DataType.outcomesWith]
      apply compositional.bind (compositional.enter rfl deployment)
      intro _
      apply compositional.bind (compositional.members ih deployment 0)
      intro members
      apply compositional.bind (compositional.leave .struct)
      intro _
      exact compositional.pure _
  | declared name => exact declaredAgree name deployment

theorem alternative
    (typesAgree : ∀ type deployment,
      agree (fun allowance => DataType.readWith (declared allowance) type deployment)
        (type.outcomesWith outcomes deployment))
    (alternatives : List Member) (tag : Nat) (deployment : Option Deployment) :
    agree (fun allowance =>
        Schema.readAlternative (declared allowance) alternatives tag deployment)
      (Schema.alternativeOutcomes outcomes alternatives tag deployment) := by
  unfold Schema.readAlternative Schema.alternativeOutcomes
  cases alternatives[tag]? with
  | none => exact compositional.raise _
  | some alternative =>
      apply compositional.bind (typesAgree _ _)
      intro value
      exact compositional.pure _

theorem readDeclared (schema : Schema) {allowances : Nat → Nat} {depth : Nat}
    (inside : ∀ name deployment,
      agree (fun allowance => schema.readDeclared (allowances allowance) name deployment)
        (schema.declaredOutcomes depth name deployment))
    (name : Declared) (deployment : Option Deployment) :
    agree (fun allowance => schema.readDeclared (allowances allowance + 1) name deployment)
      (schema.declaredOutcomes (depth + 1) name deployment) := by
  have typesAgree (type : DataType) (deployment : Option Deployment) :=
    compositional.readWith inside type deployment
  cases name with
  | record name =>
      simp only [Schema.readDeclared, Schema.declaredOutcomes]
      apply compositional.bind (compositional.enter rfl deployment)
      intro _
      apply compositional.bind (compositional.members (fun type _ => typesAgree type) _ _)
      intro members
      apply compositional.bind (compositional.leave .struct)
      intro _
      exact compositional.pure _
  | variant set =>
      simp only [Schema.readDeclared, Schema.declaredOutcomes]
      apply compositional.bind (compositional.enter rfl deployment)
      intro opening
      apply compositional.bind (compositional.alternative typesAgree _ _ deployment)
      intro value
      apply compositional.bind (compositional.leave .variant)
      intro _
      exact compositional.pure _

end Compositional

/-! ## Calls and loops -/

section Calls

variable {σ : Type} [InputStream σ]

theorem readLeaf_run (kind : LeafKind) (deployment : Option Deployment) :
    ((readLeaf kind deployment).run : Action σ Leaf) = InputStream.leaf kind deployment :=
  bind_pure _

theorem enterFrame_run (kind : FrameKind) (deployment : Option Deployment) :
    ((enterFrame kind deployment).run : Action σ Opening) = InputStream.enter kind deployment :=
  bind_pure _

theorem leaveFrame_run (kind : FrameKind) :
    ((leaveFrame kind).run : Action σ Unit) = InputStream.leave kind :=
  bind_pure _

theorem checkLatch_run : (checkLatch.run : Action σ Unit) = Latch.check :=
  bind_pure _

end Calls

section Loops

variable {σ β : Type} [InputStream σ] (kind : Repetition) (item : β → ReadProgram β) (count : Nat)
  (read : β) (stream : σ)

theorem run_repeatWhile_zero :
    (repeatWhile kind item 0 read).run stream =
      if (InputStream.hasMore kind stream).1 then
        Latch.raise (.invalidData .surplusItem) (InputStream.hasMore kind stream).2
      else .ok read (InputStream.hasMore kind stream).2 := by
  have steps : (repeatWhile kind item 0 read).run stream =
      (if (InputStream.hasMore kind stream).1 then raise (.invalidData .surplusItem)
        else pure read : ReadProgram β).run (InputStream.hasMore kind stream).2 := rfl
  rw [steps]
  split <;> rfl

theorem run_repeatWhile_succ :
    (repeatWhile kind item (count + 1) read).run stream =
      if (InputStream.hasMore kind stream).1 then
        ((item read).run >>= fun next => (repeatWhile kind item count next).run)
          (InputStream.hasMore kind stream).2
      else .ok read (InputStream.hasMore kind stream).2 := by
  have steps : (repeatWhile kind item (count + 1) read).run stream =
      (if (InputStream.hasMore kind stream).1 then item read >>= repeatWhile kind item count
        else pure read : ReadProgram β).run (InputStream.hasMore kind stream).2 := rfl
  rw [steps]
  split
  · rw [run_bind]
  · rfl

end Loops

/-! ## Whatever is announced -/

section Announced

variable {σ α : Type}

/-- A failure for want of an announcement. -/
def Exhausts : EStateM.Result StreamError σ α → Prop
  | .ok _ _ => False
  | .error fault _ => fault.Exhausted

variable [InputStream σ]

/-- Programs end as the outcomes say, unless the announcements do not suffice. -/
def EndsAmong (programs : Nat → ReadProgram α) (outcomes : Outcomes σ α) : Prop :=
  ∀ allowance stream, outcomes stream ((programs allowance).run stream) ∨
    Exhausts ((programs allowance).run stream)

namespace EndsAmong

variable {β : Type}

theorem bind {programs : Nat → ReadProgram α} {outcomes : Outcomes σ α}
    {next : Nat → α → ReadProgram β} {following : α → Outcomes σ β}
    (first : EndsAmong programs outcomes)
    (second : ∀ value, EndsAmong (next · value) (following value)) :
    EndsAmong (fun allowance => programs allowance >>= next allowance)
      (outcomes >>= following) := by
  intro allowance stream
  have ended := first allowance stream
  dsimp only
  rw [run_bind]
  cases ran : ((programs allowance).run : Action σ α) stream with
  | ok value middle =>
      rw [ran] at ended
      rw [Action.bind_of_ok ran]
      rcases ended with ended | exhausted
      · apply (second value allowance middle).imp_left
        intro continued
        exact Or.inl ⟨value, middle, ended, continued⟩
      · exact exhausted.elim
  | error fault after =>
      rw [ran] at ended
      rw [Action.bind_of_error ran]
      apply ended.imp_left
      intro failed
      exact Or.inr ⟨fault, after, failed, rfl⟩

variable [LawfulInputStream σ]

/-- While another item follows, no error is latched. -/
theorem unlatched_of_more {kind : Repetition} {stream asked : σ}
    (more : InputStream.hasMore kind stream = (true, asked)) : Latch.error asked = none := by
  cases latched : Latch.error stream with
  | none =>
      have unlatched := LawfulInputStream.unlatched_of_hasMore kind latched
      rw [more] at unlatched
      exact unlatched rfl
  | some first =>
      rw [LawfulInputStream.hasMore_of_latched kind latched] at more
      cases more

theorem repeatWhile {kind : Repetition} {item : Nat → β → ReadProgram β}
    {itemOutcomes : β → Outcomes σ β} (items : ∀ read, EndsAmong (item · read) (itemOutcomes read))
    (count : Nat) (read : β) :
    EndsAmong (fun allowance => ReadProgram.repeatWhile kind (item allowance) count read)
      (WhileMore kind itemOutcomes read) := by
  intro allowance stream
  induction count generalizing read stream with
  | zero =>
      rcases asked : InputStream.hasMore kind stream with ⟨more, after⟩
      rw [run_repeatWhile_zero, asked]
      cases more with
      | false => exact Or.inl (.done asked)
      | true =>
          right
          have surplus := @Action.raise_of_unlatched σ β _ (.invalidData .surplusItem) after
            (unlatched_of_more asked)
          simp only [if_true, surplus, Exhausts, StreamError.Exhausted]
  | succ count ih =>
      rcases asked : InputStream.hasMore kind stream with ⟨more, after⟩
      rw [run_repeatWhile_succ, asked]
      cases more with
      | false => exact Or.inl (.done asked)
      | true =>
          simp only [if_true]
          have ended := items read allowance after
          cases ran : ((item allowance read).run : Action σ β) after with
          | ok next middle =>
              rw [ran] at ended
              rw [Action.bind_of_ok ran]
              rcases ended with ended | exhausted
              · exact (ih next middle).imp_left (.more asked ended)
              · exact exhausted.elim
          | error fault middle =>
              rw [ran] at ended
              rw [Action.bind_of_error ran]
              exact ended.imp_left (.fails asked)

theorem compositional : Compositional (σ := σ) EndsAmong where
  pure _ _ _ := Or.inl rfl
  raise _ _ _ := Or.inl rfl
  leaf _ _ _ _ := Or.inl rfl
  leave _ _ _ := Or.inl rfl
  check _ _ := Or.inl rfl
  enter _ _ _ _ := Or.inl rfl
  bind := bind
  repeated := by
    intro β γ kind item itemOutcomes next following items continues deployment start
    have entered : EndsAmong (σ := σ) (fun _ => enterFrame kind.frame deployment)
      (liftM (enterFrame kind.frame deployment)) := fun _ _ => Or.inl rfl
    apply entered.bind
    intro opening
    apply (repeatWhile items opening.length start).bind
    exact continues

/-- An allowance that is used up is a failure for want of an announcement. -/
theorem readDeclared (schema : Schema) (allowance : Nat) (name : Declared)
    (deployment : Option Deployment) :
    EndsAmong (σ := σ) (fun _ => schema.readDeclared allowance name deployment)
      (schema.declaredOutcomes (allowance + 1) name deployment) := by
  induction allowance generalizing name deployment with
  | zero =>
      intro _ stream
      cases latched : Latch.error stream with
      | none =>
          right
          have exhausted := @Action.raise_of_unlatched σ Value _ (.limitExceeded .nesting 0 1) stream
            latched
          simp only [Schema.readDeclared, run, exhausted, Exhausts, StreamError.Exhausted]
      | some first =>
          -- A latched error is what entering the frame fails with.
          left
          have refused (kind : FrameKind) :
              ((enterFrame kind deployment).run : Action σ Opening) stream = .error first stream :=
            enterFrame_refuses kind deployment latched
          have raised := Action.raise_refuses (α := Value) (.limitExceeded .nesting 0 1) latched
          simp only [Schema.readDeclared, run, raised]
          cases name with
          | record name => exact Or.inr ⟨first, stream, refused .struct, rfl⟩
          | variant set => exact Or.inr ⟨first, stream, refused .variant, rfl⟩
  | succ allowance ih => exact compositional.readDeclared schema ih name deployment

end EndsAmong

/-- Whatever a stream announces, it is read as it is read without bounds, unless the announcements
do not suffice. -/
theorem Schema.reads_or_exhausts [LawfulInputStream σ] (schema : Schema) (type : DataType)
    (deployment : Option Deployment) (stream : σ) :
    schema.Reads type deployment stream (schema.read type deployment stream) ∨
      Exhausts (schema.read type deployment stream) := by
  have declaredEnd := EndsAmong.readDeclared (σ := σ) schema (schema.allowance stream)
  have ended := EndsAmong.compositional.readWith declaredEnd type deployment
  exact (ended 0 stream).imp_left fun ended => ⟨schema.allowance stream + 1, ended⟩

end Announced

/-! ## Enough announcements -/

section Enough

variable {σ α β : Type} [InputStream σ]

/-- With enough announced and allowed, programs end as the outcomes say. -/
def Reaches (programs : Nat → Nat → ReadProgram α) (outcomes : Outcomes σ α) : Prop :=
  ∀ ⦃stream : σ⦄ ⦃result : EStateM.Result StreamError σ α⦄, outcomes stream result →
    ∃ bound, ∀ announced ≥ bound, ∀ allowance ≥ bound,
      (programs announced allowance).run (⟨announced, stream⟩ : Announcing σ) =
        Announcing.result announced result

namespace Reaches

/-- A program that enters no repeating frame does not notice the announcements. -/
theorem of_run {program : ReadProgram α}
    (blind : ∀ announced (stream : σ), program.run (⟨announced, stream⟩ : Announcing σ) =
      Announcing.result announced (program.run stream)) :
    Reaches (fun _ _ => program) (liftM program : Outcomes σ α) := by
  rintro stream result rfl
  exact ⟨0, fun announced _ _ _ => blind announced stream⟩

theorem bind {programs : Nat → Nat → ReadProgram α} {outcomes : Outcomes σ α}
    {next : Nat → Nat → α → ReadProgram β} {following : α → Outcomes σ β}
    (first : Reaches programs outcomes)
    (second : ∀ value, Reaches (next · · value) (following value)) :
    Reaches (fun announced allowance => programs announced allowance >>= next announced allowance)
      (outcomes >>= following) := by
  intro stream result ended
  rcases ended with ⟨value, middle, ended, continued⟩ | ⟨fault, after, failed, rfl⟩
  · rcases first ended with ⟨bound, reached⟩
    rcases second value continued with ⟨later, reachedLater⟩
    refine ⟨max bound later, ?_⟩
    intro announced enough allowance allowed
    have answered := reached announced (by omega) allowance (by omega)
    dsimp only
    rw [run_bind, Action.bind_of_ok answered]
    exact reachedLater announced (by omega) allowance (by omega)
  · rcases first failed with ⟨bound, reached⟩
    refine ⟨bound, ?_⟩
    intro announced enough allowance allowed
    dsimp only
    rw [run_bind, Action.bind_of_error (reached announced enough allowance allowed)]
    rfl

/-- One less of the allowance is as good, if there is enough. -/
theorem of_succ {programs : Nat → Nat → ReadProgram α} {outcomes : Outcomes σ α}
    (reaches : Reaches (fun announced allowance => programs announced (allowance + 1)) outcomes) :
    Reaches programs outcomes := by
  intro stream result ended
  rcases reaches ended with ⟨bound, reached⟩
  refine ⟨bound + 1, ?_⟩
  intro announced enough allowance allowed
  have same := reached announced (by omega) (allowance - 1) (by omega)
  dsimp only at same
  rw [Nat.sub_add_cancel (by omega)] at same
  exact same

section Loop

variable {kind : Repetition} {item : Nat → β → ReadProgram β} {itemOutcomes : β → Outcomes σ β}
  (items : ∀ read, Reaches (fun _ allowance => item allowance read) (itemOutcomes read))
include items

/-- A loop that ends has a number of items, and any count from there on is enough. -/
theorem exists_count {read : β} {stream : σ} {result : EStateM.Result StreamError σ β}
    (ended : WhileMore kind itemOutcomes read stream result) :
    ∃ bound, ∀ count ≥ bound, ∀ announced ≥ bound, ∀ allowance ≥ bound,
      (repeatWhile kind (item allowance) count read).run (⟨announced, stream⟩ : Announcing σ) =
        Announcing.result announced result := by
  induction ended with
  | done asked =>
      refine ⟨0, ?_⟩
      intro count _ announced _ allowance _
      cases count with
      | zero => rw [run_repeatWhile_zero, Announcing.hasMore_eq asked]; rfl
      | succ count => rw [run_repeatWhile_succ, Announcing.hasMore_eq asked]; rfl
  | more asked ended _ ih =>
      rcases items _ ended with ⟨bound, reached⟩
      rcases ih with ⟨later, reachedLater⟩
      refine ⟨max bound later + 1, ?_⟩
      intro count long announced enough allowance allowed
      cases count with
      | zero => omega
      | succ count =>
          have answered := reached announced (by omega) allowance (by omega)
          rw [run_repeatWhile_succ, Announcing.hasMore_eq asked, if_pos rfl,
            Action.bind_of_ok answered]
          exact reachedLater count (by omega) announced (by omega) allowance (by omega)
  | fails asked failed =>
      rcases items _ failed with ⟨bound, reached⟩
      refine ⟨bound + 1, ?_⟩
      intro count long announced enough allowance allowed
      cases count with
      | zero => omega
      | succ count =>
          have failing := reached announced (by omega) allowance (by omega)
          rw [run_repeatWhile_succ, Announcing.hasMore_eq asked, if_pos rfl,
            Action.bind_of_error failing]
          rfl

theorem whileMore (read : β) :
    Reaches (fun announced allowance => repeatWhile kind (item allowance) announced read)
      (WhileMore kind itemOutcomes read) := by
  intro stream result ended
  rcases exists_count items ended with ⟨bound, reached⟩
  exact ⟨bound, fun announced enough => reached announced enough announced enough⟩

end Loop

theorem run_enterFrame (kind : FrameKind) (deployment : Option Deployment) (announced : Nat)
    (stream : σ) :
    (enterFrame kind deployment).run (⟨announced, stream⟩ : Announcing σ) =
      Announcing.result announced
        ((kind.announce announced <$> (enterFrame kind deployment).run : Action σ Opening)
          stream) := by
  simp only [enterFrame_run]
  rfl

theorem repeated {γ : Type} {kind : Repetition} {item : Nat → β → ReadProgram β}
    {itemOutcomes : β → Outcomes σ β} {next : Nat → β → ReadProgram γ}
    {following : β → Outcomes σ γ}
    (items : ∀ read, Reaches (fun _ allowance => item allowance read) (itemOutcomes read))
    (continues : ∀ read, Reaches (fun _ allowance => next allowance read) (following read))
    (deployment : Option Deployment) (start : β) :
    Reaches
      (fun _ allowance => enterFrame kind.frame deployment >>= fun opening =>
        repeatWhile kind (item allowance) opening.length start >>= next allowance)
      (liftM (enterFrame kind.frame deployment) >>= fun _ =>
        WhileMore kind itemOutcomes start >>= following) := by
  intro stream result ended
  rcases ended with ⟨opening, middle, entered, inner⟩ | ⟨fault, after, failed, rfl⟩
  · have entered : (enterFrame kind.frame deployment).run stream = .ok opening middle := entered
    rcases (whileMore items start).bind continues inner with ⟨bound, reached⟩
    refine ⟨bound, ?_⟩
    intro announced enough allowance allowed
    have answered : (enterFrame kind.frame deployment).run (⟨announced, stream⟩ : Announcing σ) =
        .ok (kind.frame.announce announced opening) ⟨announced, middle⟩ := by
      rw [run_enterFrame, Action.map_eq_ok_iff.2 ⟨opening, entered, rfl⟩]
      rfl
    dsimp only
    rw [run_bind, Action.bind_of_ok answered, kind.length_announce]
    exact reached announced enough allowance allowed
  · have failed : (enterFrame kind.frame deployment).run stream = .error fault after := failed
    refine ⟨0, ?_⟩
    intro announced _ allowance _
    have failing : (enterFrame kind.frame deployment).run (⟨announced, stream⟩ : Announcing σ) =
        .error fault ⟨announced, after⟩ := by
      rw [run_enterFrame, Action.map_of_error failed]
      rfl
    dsimp only
    rw [run_bind, Action.bind_of_error failing]
    rfl

theorem compositional :
    Compositional (σ := σ) fun programs outcomes => Reaches (fun _ => programs) outcomes where
  pure value := by
    rintro stream result rfl
    exact ⟨0, fun _ _ _ _ => rfl⟩
  raise fault := by
    apply of_run
    intro announced stream
    have same : Latch.error (⟨announced, stream⟩ : Announcing σ) = Latch.error stream := rfl
    simp only [run, Latch.raise, same]
    cases Latch.error stream <;> rfl
  leaf kind deployment := by
    apply of_run
    intro announced stream
    simp only [readLeaf_run]
    rfl
  leave kind := by
    apply of_run
    intro announced stream
    simp only [leaveFrame_run]
    rfl
  check := by
    apply of_run
    intro announced stream
    simp only [checkLatch_run]
    rw [← Announcing.onStream_check]
    rfl
  enter plain deployment := by
    apply of_run
    intro announced stream
    rw [run_enterFrame, FrameKind.announce_of_plain plain, id_map]
  bind := bind
  repeated := repeated

theorem readDeclared (schema : Schema) (depth : Nat) (name : Declared)
    (deployment : Option Deployment) :
    Reaches (σ := σ) (fun _ allowance => schema.readDeclared allowance name deployment)
      (schema.declaredOutcomes depth name deployment) := by
  induction depth generalizing name deployment with
  | zero =>
      intro stream result ended
      exact ended.elim
  | succ depth ih => exact of_succ (compositional.readDeclared schema ih name deployment)

end Reaches

/-- A reading that ends without bounds is that of a stream that announces enough. -/
theorem Schema.Reads.exists_bound {schema : Schema} {type : DataType}
    {deployment : Option Deployment} {stream : σ} {result : EStateM.Result StreamError σ Value}
    (reads : schema.Reads type deployment stream result) :
    ∃ bound, ∀ announced ≥ bound,
      schema.read type deployment (⟨announced, stream⟩ : Announcing σ) =
        Announcing.result announced result := by
  rcases reads with ⟨depth, ended⟩
  rcases Reaches.compositional.readWith (Reaches.readDeclared schema depth) type deployment ended
    with ⟨bound, reached⟩
  refine ⟨bound, ?_⟩
  intro announced enough
  have allowed : bound ≤ schema.allowance (⟨announced, stream⟩ : Announcing σ) := by
    have grows : announced + 1 ≤ (announced + 1) * (schema.records.length + 2) :=
      Nat.le_mul_of_pos_right _ (by omega)
    exact Nat.le_trans (by omega) grows
  exact reached announced enough _ allowed

/-- A reading ends with one result at most. -/
theorem Schema.Reads.unique {schema : Schema} {type : DataType} {deployment : Option Deployment}
    {stream : σ} {first second : EStateM.Result StreamError σ Value}
    (reads : schema.Reads type deployment stream first)
    (readsAgain : schema.Reads type deployment stream second) : first = second := by
  rcases reads.exists_bound with ⟨bound, reached⟩
  rcases readsAgain.exists_bound with ⟨other, reachedAgain⟩
  have one := reached (max bound other) (by omega)
  have two := reachedAgain (max bound other) (by omega)
  exact Announcing.result_injective _ (one.symm.trans two)

/-- Where what a stream announces suffices, announcing more makes no difference. -/
theorem Schema.read_of_announcing [LawfulInputStream σ] {schema : Schema} {type : DataType}
    {deployment : Option Deployment} {stream : σ}
    (sufficient : ¬Exhausts (schema.read type deployment stream)) :
    ∃ bound, ∀ announced ≥ bound,
      schema.read type deployment (⟨announced, stream⟩ : Announcing σ) =
        Announcing.result announced (schema.read type deployment stream) :=
  ((schema.reads_or_exhausts type deployment stream).resolve_right sufficient).exists_bound

end Enough

end ValueBus
