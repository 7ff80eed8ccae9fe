import ValueBus.Proofs.Following
import ValueBus.Proofs.Latching
import ValueBus.Proofs.Sound
import ValueBus.Value.Write

/-!
# Composite values keep to the latch

Writing and reading are put together from the calls of a stream. If the calls keep to the latch, so
does the whole, with one exception that a reading has to make up for: the question for another item
does not fail, and answers no when it latches an error. A program is careful if it checks the latch
right after every such answer, so that it cannot take a failure for the end of the items. All the
programs that read values are careful.
-/

namespace ValueBus

open ValueBus.Action (Settled Settles Refuses)

namespace WriteStep

variable {σ : Type} [OutputStream σ] [LawfulOutputStream σ]

theorem run_settles (step : WriteStep) : (step.run : Action σ Unit).Settles := by
  cases step with
  | call request => exact LawfulOutputStream.settles request
  | raise fault => exact Action.raise_settles fault

theorem run_refuses (step : WriteStep) : (step.run : Action σ Unit).Refuses := by
  cases step with
  | call request => exact LawfulOutputStream.refuses request
  | raise fault => exact Action.raise_refuses fault

theorem runAll_settles (steps : List WriteStep) : (runAll steps : Action σ Unit).Settles := by
  induction steps with
  | nil => exact Settles.pure ()
  | cons step rest ih => exact step.run_settles.bind fun _ => ih

end WriteStep

namespace Value

variable {σ : Type} [OutputStream σ] [LawfulOutputStream σ]

theorem write_settles (value : Value) (deployment : Option Deployment) :
    (value.write deployment : Action σ Unit).Settles :=
  WriteStep.runAll_settles _

/-- Every value is written by at least one step, which finds the error. -/
theorem write_refuses (value : Value) (deployment : Option Deployment) :
    (value.write deployment : Action σ Unit).Refuses := by
  unfold write
  cases value <;> exact (WriteStep.run_refuses _).bind fun _ => WriteStep.runAll _

end Value

namespace ReadProgram

variable {α β : Type}

theorem bind_assoc {γ : Type} (program : ReadProgram α) (next : α → ReadProgram β)
    (last : β → ReadProgram γ) :
    (program.bind next).bind last = program.bind fun answer => (next answer).bind last := by
  induction program with
  | done value => rfl
  | raise fault => rfl
  | leaf kind deployment following ih => simp only [bind, ih]
  | enter kind deployment following ih => simp only [bind, ih]
  | leave kind following ih => simp only [bind, ih]
  | hasMore kind following ih => simp only [bind, ih]
  | check following ih => simp only [bind, ih]

/-- The program begins with a check of the latch. -/
def Checks : ReadProgram α → Prop
  | .check _ => True
  | _ => False

/-- The program checks the latch whenever it was told that no item follows. -/
def Careful : ReadProgram α → Prop
  | .done _ | .raise _ => True
  | .leaf _ _ next => ∀ leaf, (next leaf).Careful
  | .enter _ _ next => ∀ opening, (next opening).Careful
  | .leave _ next => next.Careful
  | .hasMore _ next => (next true).Careful ∧ (next false).Careful ∧ (next false).Checks
  | .check next => next.Careful

theorem Checks.bind {program : ReadProgram α} (checks : program.Checks)
    (next : α → ReadProgram β) : (program.bind next).Checks := by
  cases program with
  | check following => trivial
  | _ => cases checks

namespace Careful

theorem bind {program : ReadProgram α} {next : α → ReadProgram β} (careful : program.Careful)
    (nextCareful : ∀ answer, (next answer).Careful) : (program >>= next).Careful := by
  induction program with
  | done value => exact nextCareful value
  | raise fault => trivial
  | leaf kind deployment following ih => exact fun leaf => ih leaf (careful leaf)
  | enter kind deployment following ih => exact fun opening => ih opening (careful opening)
  | leave kind following ih => exact ih careful
  | hasMore kind following ih =>
      rcases careful with ⟨moreCareful, endCareful, checks⟩
      exact ⟨ih true moreCareful, ih false endCareful, checks.bind next⟩
  | check following ih => exact ih careful

theorem answered {kind : Repetition} {next : Bool → ReadProgram α}
    (careful : (hasMore kind next).Careful) : ∀ more, (next more).Careful
  | true => careful.1
  | false => careful.2.1

theorem map {program : ReadProgram α} (careful : program.Careful) (change : α → β) :
    (change <$> program).Careful :=
  careful.bind fun _ => trivial

theorem ite {condition : Prop} [Decidable condition] {first second : ReadProgram α}
    (firstCareful : first.Careful) (secondCareful : second.Careful) :
    (if condition then first else second).Careful := by
  split
  · exact firstCareful
  · exact secondCareful

/-- What follows the last item has to check the latch. -/
theorem repeatWhile {kind : Repetition} {item : α → ReadProgram α} {next : α → ReadProgram β}
    (itemCareful : ∀ state, (item state).Careful) (nextCareful : ∀ state, (next state).Careful)
    (nextChecks : ∀ state, (next state).Checks) (count : Nat) (state : α) :
    (repeatWhile kind item count state >>= next).Careful := by
  induction count generalizing state with
  | zero => exact ⟨trivial, nextCareful state, nextChecks state⟩
  | succ count ih =>
      refine ⟨?_, nextCareful state, nextChecks state⟩
      -- What follows the loop is checked in both branches, so it is drawn into the recursion.
      have regrouped : (item state >>= ReadProgram.repeatWhile kind item count).bind next =
          item state >>= fun read => ReadProgram.repeatWhile kind item count read >>= next :=
        bind_assoc _ _ _
      have careful := (itemCareful state).bind ih
      rw [← regrouped] at careful
      exact careful

end Careful

section Running

variable {σ : Type} [InputStream σ]

theorem run_hasMore (kind : Repetition) (next : Bool → ReadProgram α) (stream : σ) :
    (hasMore kind next).run stream =
      (next (InputStream.hasMore kind stream).1).run (InputStream.hasMore kind stream).2 :=
  rfl

theorem run_check (next : ReadProgram α) {stream : σ} (unlatched : Latch.error stream = none) :
    (check next).run stream = next.run stream :=
  Action.bind_of_ok (Action.check_of_unlatched unlatched)

theorem Checks.run_refuses {program : ReadProgram α} (checks : program.Checks) :
    (program.run : Action σ α).Refuses := by
  cases program with
  | check next => exact Action.check_refuses.bind fun _ => next.run
  | _ => cases checks

theorem bind_refuses {program : ReadProgram α} (refuses : (program.run : Action σ α).Refuses)
    (next : α → ReadProgram β) : ((program >>= next).run : Action σ β).Refuses := by
  rw [run_bind]
  exact refuses.bind fun answer => (next answer).run

variable [LawfulInputStream σ]

/-- A question for another item that latches an error answers no. -/
theorem not_more_of_latched (kind : Repetition) {stream : σ} {fault : StreamError}
    (latched : Latch.error (InputStream.hasMore kind stream).2 = some fault) :
    (InputStream.hasMore kind stream).1 = false := by
  cases error : Latch.error stream with
  | some first => rw [LawfulInputStream.hasMore_of_latched kind error]
  | none =>
      rw [Bool.eq_false_iff]
      intro more
      rw [LawfulInputStream.unlatched_of_hasMore kind error more] at latched
      cases latched

/-- A failure is not taken for the end of the items. -/
theorem Careful.run_of_latched {kind : Repetition} {next : Bool → ReadProgram α}
    (careful : (hasMore kind next).Careful) {stream : σ} {fault : StreamError}
    (latched : Latch.error (InputStream.hasMore kind stream).2 = some fault) :
    (hasMore kind next).run stream = .error fault (InputStream.hasMore kind stream).2 := by
  rw [run_hasMore, not_more_of_latched kind latched]
  exact careful.2.2.run_refuses latched

theorem Careful.run_settles {program : ReadProgram α} (careful : program.Careful) :
    (program.run : Action σ α).Settles := by
  induction program with
  | done value => exact Settles.pure value
  | raise fault => exact Action.raise_settles fault
  | leaf kind deployment next ih =>
      exact (LawfulInputStream.leaf_settles kind deployment).bind fun leaf => ih leaf (careful leaf)
  | enter kind deployment next ih =>
      apply (LawfulInputStream.enter_settles kind deployment).bind
      intro opening
      exact ih opening (careful opening)
  | leave kind next ih => exact (LawfulInputStream.leave_settles kind).bind fun _ => ih careful
  | hasMore kind next ih =>
      intro before unlatched
      cases error : Latch.error (InputStream.hasMore kind before).2 with
      | none => exact ih _ (careful.answered _) error
      | some fault =>
          rw [careful.run_of_latched error]
          exact error
  | check next ih => exact Action.check_settles.bind fun _ => ih careful

theorem readLeaf_refuses (kind : LeafKind) (deployment : Option Deployment) :
    ((readLeaf kind deployment).run : Action σ Leaf).Refuses :=
  (LawfulInputStream.leaf_refuses kind deployment).bind pure

theorem enterFrame_refuses (kind : FrameKind) (deployment : Option Deployment) :
    ((enterFrame kind deployment).run : Action σ Opening).Refuses :=
  (LawfulInputStream.enter_refuses kind deployment).bind pure

end Running

theorem readLeaf_careful (kind : LeafKind) (deployment : Option Deployment) :
    (readLeaf kind deployment).Careful :=
  fun _ => trivial

theorem enterFrame_careful (kind : FrameKind) (deployment : Option Deployment) :
    (enterFrame kind deployment).Careful :=
  fun _ => trivial

end ReadProgram

namespace Schema

open ReadProgram
open Deployment (childOf)

variable {declared : Declared → Option Deployment → ReadProgram Value}

theorem readMembersWith_careful {types : List DataType}
    (typesCareful : ∀ type ∈ types, ∀ deployment, (type.readWith declared deployment).Careful)
    (deployment : Option Deployment) (position : Nat) :
    (DataType.readMembersWith declared types deployment position).Careful := by
  induction types generalizing position with
  | nil => trivial
  | cons type rest ih =>
      rw [List.forall_mem_cons] at typesCareful
      simp only [DataType.readMembersWith]
      apply (typesCareful.1 _).bind
      intro member
      exact (ih typesCareful.2 _).bind fun members => trivial

theorem readEntry_careful {mapOrder : MapOrder} {readKey readValue : ReadProgram Value}
    (keyCareful : readKey.Careful) (valueCareful : readValue.Careful)
    (read : List (Value × Value)) : (readEntry mapOrder readKey readValue read).Careful := by
  intro opening
  apply keyCareful.bind
  intro key
  apply valueCareful.bind
  intro value
  exact Careful.ite trivial trivial

theorem readWith_careful
    (declaredCareful : ∀ name deployment, (declared name deployment).Careful) (type : DataType)
    (deployment : Option Deployment) : (type.readWith declared deployment).Careful := by
  induction type generalizing deployment with
  | leaf kind => exact (readLeaf_careful kind deployment).map _
  | enumeration choices =>
      simp only [DataType.readWith]
      exact (readLeaf_careful _ _).bind fun leaf => Careful.ite trivial trivial
  | ranged range =>
      simp only [DataType.readWith]
      exact (readLeaf_careful _ _).bind fun leaf => Careful.ite trivial trivial
  | boxed content ih => exact ih deployment
  | sequence item ih =>
      simp only [DataType.readWith]
      intro opening
      apply Careful.repeatWhile
      · exact fun read => (ih _).map _
      · exact fun items => trivial
      · exact fun items => trivial
  | map mapOrder key value keyIh valueIh =>
      simp only [DataType.readWith]
      intro opening
      apply Careful.repeatWhile
      · exact readEntry_careful (keyIh _) (valueIh _)
      · exact fun items => trivial
      · exact fun items => trivial
  | tuple items ih =>
      simp only [DataType.readWith]
      apply (enterFrame_careful .struct deployment).bind
      intro opening
      exact (readMembersWith_careful ih deployment 0).bind fun members => trivial
  | declared name => exact declaredCareful name deployment

theorem readAlternative_careful
    (typesCareful : ∀ (type : DataType) deployment, (type.readWith declared deployment).Careful)
    (alternatives : List Member) (tag : Nat) (deployment : Option Deployment) :
    (readAlternative declared alternatives tag deployment).Careful := by
  unfold readAlternative
  split
  · exact (typesCareful _ _).map _
  · trivial

theorem readDeclared_careful (schema : Schema) (allowance : Nat) (name : Declared)
    (deployment : Option Deployment) : (schema.readDeclared allowance name deployment).Careful := by
  induction allowance generalizing name deployment with
  | zero => trivial
  | succ allowance ih =>
      have typesCareful := readWith_careful ih
      cases name with
      | record name =>
          simp only [readDeclared]
          apply (enterFrame_careful .struct deployment).bind
          intro opening
          apply (readMembersWith_careful (fun type _ => typesCareful type) deployment 0).bind
          exact fun members => trivial
      | variant set =>
          simp only [readDeclared]
          apply (enterFrame_careful .variant deployment).bind
          intro opening
          apply (readAlternative_careful typesCareful _ opening.tag deployment).bind
          exact fun value => trivial

theorem program_careful (schema : Schema) (allowance : Nat) (type : DataType)
    (deployment : Option Deployment) : (schema.program allowance type deployment).Careful :=
  readWith_careful (schema.readDeclared_careful allowance) type deployment

section Running

variable {σ : Type} [InputStream σ] [LawfulInputStream σ]

theorem readWith_refuses
    (declaredRefuses : ∀ name deployment,
      ((declared name deployment).run : Action σ Value).Refuses)
    (type : DataType) (deployment : Option Deployment) :
    ((type.readWith declared deployment).run : Action σ Value).Refuses := by
  induction type generalizing deployment with
  | leaf kind => exact bind_refuses (readLeaf_refuses kind deployment) _
  | enumeration choices =>
      simp only [DataType.readWith]
      exact bind_refuses (readLeaf_refuses _ _) _
  | ranged range =>
      simp only [DataType.readWith]
      exact bind_refuses (readLeaf_refuses _ _) _
  | boxed content ih => exact ih deployment
  | sequence item ih =>
      simp only [DataType.readWith]
      exact bind_refuses (enterFrame_refuses _ _) _
  | map mapOrder key value keyIh valueIh =>
      simp only [DataType.readWith]
      exact bind_refuses (enterFrame_refuses _ _) _
  | tuple items ih =>
      simp only [DataType.readWith]
      exact bind_refuses (enterFrame_refuses _ _) _
  | declared name => exact declaredRefuses name deployment

theorem readDeclared_refuses (schema : Schema) (allowance : Nat) (name : Declared)
    (deployment : Option Deployment) :
    ((schema.readDeclared allowance name deployment).run : Action σ Value).Refuses := by
  cases allowance with
  | zero => exact Action.raise_refuses _
  | succ allowance =>
      cases name with
      | record name =>
          simp only [readDeclared]
          exact bind_refuses (enterFrame_refuses _ _) _
      | variant set =>
          simp only [readDeclared]
          exact bind_refuses (enterFrame_refuses _ _) _

theorem read_settles (schema : Schema) (type : DataType) (deployment : Option Deployment) :
    (schema.read type deployment : Action σ Value).Settles := by
  intro before unlatched
  exact (schema.program_careful (schema.allowance before) type deployment).run_settles unlatched

theorem read_refuses (schema : Schema) (type : DataType) (deployment : Option Deployment) :
    (schema.read type deployment : Action σ Value).Refuses := by
  intro before first latched
  exact readWith_refuses (schema.readDeclared_refuses _) type deployment latched

end Running

end Schema

end ValueBus
