import ValueBus.Proofs.Careful
import ValueBus.Proofs.Conforming
import ValueBus.Proofs.Observed

/-!
# The first failure ends a run

Writing a value and reading one both stop at the first call that fails. Between two calls of a
writing nothing is decided, so this is how actions are composed. A reading could go on: the question
for another item does not fail, it answers no, as it does after the last item. Such an answer is
followed by a check of the latch everywhere, which is what makes a program `Careful`.
-/

namespace ValueBus

open ValueBus.Action (Settled)
open Observed (notes)

section Failing

variable {ι ω σ τ α β : Type} {made others : List (ι × Except StreamError ω)}

/-- A call that fails is the last one, and its error is what the run fails with. -/
def EndsAtFailure (made : List (ι × Except StreamError ω))
    (result : EStateM.Result StreamError σ α) : Prop :=
  ∀ ⦃position : Nat⦄ ⦃call : ι⦄ ⦃fault : StreamError⦄,
    made[position]? = some (call, .error fault) →
      made.length = position + 1 ∧ ∃ after, result = .error fault after

/-- The calls before a position ended alike in two runs. -/
def AlikeUpTo (position : Nat) (made others : List (ι × Except StreamError ω)) : Prop :=
  ∀ earlier < position, ∀ entry other,
    made[earlier]? = some entry → others[earlier]? = some other → entry.2 = other.2

/-- A run that fails makes the calls that another run makes, up to the one that fails. -/
def Precedes (made others : List (ι × Except StreamError ω)) : Prop :=
  ∀ ⦃position : Nat⦄ ⦃call : ι⦄ ⦃fault : StreamError⦄,
    made[position]? = some (call, .error fault) → AlikeUpTo position made others →
      made.map Prod.fst = (others.map Prod.fst).take (position + 1)

theorem EndsAtFailure.nil (result : EStateM.Result StreamError σ α) :
    EndsAtFailure ([] : List (ι × Except StreamError ω)) result := by
  intro position call fault found
  cases found

theorem EndsAtFailure.cons {call : ι} {ended : Except StreamError ω}
    {result : EStateM.Result StreamError σ α}
    (failing : ∀ fault, ended = .error fault → made = [] ∧ ∃ after, result = .error fault after)
    (ends : EndsAtFailure made result) : EndsAtFailure ((call, ended) :: made) result := by
  intro position failed fault found
  cases position with
  | zero =>
      cases found
      rcases failing fault rfl with ⟨rfl, resultEq⟩
      exact ⟨rfl, resultEq⟩
  | succ position =>
      rcases ends found with ⟨lengthEq, resultEq⟩
      exact ⟨congrArg (· + 1) lengthEq, resultEq⟩

theorem EndsAtFailure.notes (required : Bool) (call : ι) (answer : α → ω) {action : Action σ α}
    {next : α → Action σ β} {following : α → σ → List (ι × Except StreamError ω)} {stream : σ}
    (ends : ∀ value after, EndsAtFailure (following value after) (next value after)) :
    EndsAtFailure (notes required call answer (action stream) following)
      ((action >>= next) stream) := by
  cases result : action stream with
  | ok value after =>
      rw [Action.bind_of_ok result]
      cases required with
      | false => exact ends value after
      | true => exact (ends value after).cons (by intro fault failing; cases failing)
  | error fault after =>
      rw [Action.bind_of_error result]
      cases required with
      | false => exact EndsAtFailure.nil _
      | true =>
          apply (EndsAtFailure.nil _).cons
          intro found failing
          cases failing
          exact ⟨rfl, after, rfl⟩

/-- What a run fails with stays latched, if the run keeps to the latch. -/
theorem EndsAtFailure.stops [Latch σ] {result : EStateM.Result StreamError σ α}
    (ends : EndsAtFailure made result) (settled : Settled result) {position : Nat} {call : ι}
    {fault : StreamError} (failing : made[position]? = some (call, .error fault)) :
    (∃ after, result = .error fault after ∧ Latch.error after = some fault) ∧
      made.length = position + 1 := by
  rcases ends failing with ⟨lengthEq, after, rfl⟩
  exact ⟨⟨after, rfl, settled⟩, lengthEq⟩

theorem Precedes.nil (others : List (ι × Except StreamError ω)) : Precedes [] others := by
  intro position call fault found
  cases found

theorem Precedes.cons {call : ι} {ended otherEnded : Except StreamError ω}
    (failing : ∀ fault, ended = .error fault → made = [])
    (precedes : ended = otherEnded → Precedes made others) :
    Precedes ((call, ended) :: made) ((call, otherEnded) :: others) := by
  intro position failed fault found alike
  cases position with
  | zero =>
      cases found
      rw [failing fault rfl]
      rfl
  | succ position =>
      have sameEnd : ended = otherEnded := alike 0 (Nat.succ_pos position) _ _ rfl rfl
      have later : AlikeUpTo position made others := fun earlier before =>
        alike (earlier + 1) (Nat.succ_lt_succ before)
      simp only [List.map_cons, List.take_succ_cons, precedes sameEnd found later]

theorem Precedes.notes (required : Bool) (call : ι) {answer : α → ω}
    (injective : Function.Injective answer) {result : EStateM.Result StreamError σ α}
    {other : EStateM.Result StreamError τ α} {following : α → σ → List (ι × Except StreamError ω)}
    {otherFollowing : α → τ → List (ι × Except StreamError ω)}
    (optional : required = false →
      ∃ value after otherAfter, result = .ok value after ∧ other = .ok value otherAfter)
    (precedes : ∀ value after otherAfter, result = .ok value after →
      other = .ok value otherAfter →
        Precedes (following value after) (otherFollowing value otherAfter)) :
    Precedes (notes required call answer result following)
      (notes required call answer other otherFollowing) := by
  cases required with
  | false =>
      rcases optional rfl with ⟨value, after, otherAfter, rfl, rfl⟩
      exact precedes value after otherAfter rfl rfl
  | true =>
      simp only [Observed.notes_of_required]
      apply Precedes.cons
      · intro fault failing
        cases result with
        | ok value after => cases failing
        | error first after => rfl
      · intro sameEnd
        cases result with
        | error first after => exact Precedes.nil _
        | ok value after =>
            cases other with
            | error first after => cases sameEnd
            | ok otherValue otherAfter =>
                cases injective (Except.ok.inj sameEnd)
                exact precedes value after otherAfter rfl rfl

end Failing

namespace WriteStep

variable {σ τ : Type} [OutputStream σ] [OutputStream τ]

theorem runAll_endsAtFailure (steps : List WriteStep) (stream : σ) :
    EndsAtFailure (noted steps stream) (runAll steps stream) := by
  induction steps generalizing stream with
  | nil => exact EndsAtFailure.nil _
  | cons step rest ih =>
      cases step with
      | raise fault => exact EndsAtFailure.nil _
      | call request => exact EndsAtFailure.notes _ _ _ fun _ after => ih after

theorem noted_precedes [ConformingOutputStream σ] [ConformingOutputStream τ]
    (steps : List WriteStep) {stream : σ} {other : τ} (unlatched : Latch.error stream = none)
    (otherUnlatched : Latch.error other = none) :
    Precedes (noted steps stream) (noted steps other) := by
  induction steps generalizing stream other with
  | nil => exact Precedes.nil _
  | cons step rest ih =>
      cases step with
      | raise fault => exact Precedes.nil _
      | call request =>
          have settled := LawfulOutputStream.settles request unlatched
          have otherSettled := LawfulOutputStream.settles request otherUnlatched
          apply Precedes.notes _ _ Function.injective_id
          · intro optional
            rw [ConformingOutputStream.perform_of_optional request optional,
              ConformingOutputStream.perform_of_optional request optional]
            exact ⟨(), stream, other, Action.check_of_unlatched unlatched,
              Action.check_of_unlatched otherUnlatched⟩
          · intro _ after otherAfter answers otherAnswers
            exact ih (settled.unlatched_of_ok answers) (otherSettled.unlatched_of_ok otherAnswers)

end WriteStep

namespace ReadProgram

variable {σ τ α : Type} [InputStream σ] [InputStream τ]

theorem Checks.noted_of_latched {program : ReadProgram α} (checks : program.Checks) {stream : σ}
    {fault : StreamError} (latched : Latch.error stream = some fault) :
    program.noted stream = [] := by
  cases program with
  | check next => simp only [noted, latched]
  | _ => cases checks

theorem Careful.noted_of_latched [LawfulInputStream σ] {kind : Repetition}
    {next : Bool → ReadProgram α} (careful : (hasMore kind next).Careful) {stream : σ}
    {fault : StreamError}
    (latched : Latch.error (InputStream.hasMore kind stream).2 = some fault) :
    (next (InputStream.hasMore kind stream).1).noted (InputStream.hasMore kind stream).2 = [] := by
  rw [not_more_of_latched kind latched]
  exact careful.2.2.noted_of_latched latched

theorem Careful.endsAtFailure [LawfulInputStream σ] {program : ReadProgram α}
    (careful : program.Careful) (stream : σ) :
    EndsAtFailure (program.noted stream) (program.run stream) := by
  induction program generalizing stream with
  | done value => exact EndsAtFailure.nil _
  | raise fault => exact EndsAtFailure.nil _
  | leaf kind deployment next ih =>
      exact EndsAtFailure.notes _ _ _ fun leaf after => ih leaf (careful leaf) after
  | enter kind deployment next ih =>
      exact EndsAtFailure.notes _ _ _ fun opening after => ih opening (careful opening) after
  | leave kind next ih => exact EndsAtFailure.notes _ _ _ fun _ after => ih careful after
  | hasMore kind next ih =>
      rw [noted_hasMore]
      apply EndsAtFailure.cons
      · intro fault failed
        have latched := Observed.latched_of_askedMore failed
        exact ⟨careful.noted_of_latched latched, _, careful.run_of_latched latched⟩
      · exact ih _ (careful.answered _) _
  | check next ih =>
      cases error : Latch.error stream with
      | some first =>
          simp only [noted, error]
          exact EndsAtFailure.nil _
      | none =>
          rw [noted_check next error, run_check next error]
          exact ih careful stream

theorem Careful.noted_precedes [ConformingInputStream σ] [ConformingInputStream τ]
    {program : ReadProgram α} (careful : program.Careful) {stream : σ} {other : τ}
    (unlatched : Latch.error stream = none) (otherUnlatched : Latch.error other = none) :
    Precedes (program.noted stream) (program.noted other) := by
  induction program generalizing stream other with
  | done value => exact Precedes.nil _
  | raise fault => exact Precedes.nil _
  | leaf kind deployment next ih =>
      have settled := LawfulInputStream.leaf_settles kind deployment unlatched
      have otherSettled := LawfulInputStream.leaf_settles kind deployment otherUnlatched
      apply Precedes.notes
      · intro first second same
        exact Answer.leaf.inj same
      · intro optional
        cases optional
      · intro leaf after otherAfter answers otherAnswers
        exact ih leaf (careful leaf) (settled.unlatched_of_ok answers)
          (otherSettled.unlatched_of_ok otherAnswers)
  | enter kind deployment next ih =>
      have settled := LawfulInputStream.enter_settles kind deployment unlatched
      have otherSettled := LawfulInputStream.enter_settles kind deployment otherUnlatched
      apply Precedes.notes
      · intro first second same
        exact Answer.opening.inj same
      · intro optional
        rw [ConformingInputStream.enter_of_optional kind deployment optional,
          ConformingInputStream.enter_of_optional kind deployment optional]
        exact ⟨.mapEntry, stream, other,
          Action.map_eq_ok_iff.2 ⟨(), Action.check_of_unlatched unlatched, rfl⟩,
          Action.map_eq_ok_iff.2 ⟨(), Action.check_of_unlatched otherUnlatched, rfl⟩⟩
      · intro opening after otherAfter answers otherAnswers
        exact ih opening (careful opening) (settled.unlatched_of_ok answers)
          (otherSettled.unlatched_of_ok otherAnswers)
  | leave kind next ih =>
      have settled := LawfulInputStream.leave_settles kind unlatched
      have otherSettled := LawfulInputStream.leave_settles kind otherUnlatched
      apply Precedes.notes
      · intro first second same
        rfl
      · intro optional
        rw [ConformingInputStream.leave_of_optional kind optional,
          ConformingInputStream.leave_of_optional kind optional]
        exact ⟨(), stream, other, Action.check_of_unlatched unlatched,
          Action.check_of_unlatched otherUnlatched⟩
      · intro _ after otherAfter answers otherAnswers
        exact ih careful (settled.unlatched_of_ok answers)
          (otherSettled.unlatched_of_ok otherAnswers)
  | hasMore kind next ih =>
      rw [noted_hasMore, noted_hasMore]
      apply Precedes.cons
      · intro fault failed
        exact careful.noted_of_latched (Observed.latched_of_askedMore failed)
      · intro sameEnd
        -- If this question fails, nothing else is asked; if not, both streams gave one answer.
        cases error : Latch.error (InputStream.hasMore kind stream).2 with
        | some fault =>
            rw [careful.noted_of_latched error]
            exact Precedes.nil _
        | none =>
            rw [error] at sameEnd
            rcases Observed.askedMore_injective sameEnd with ⟨sameMore, otherError⟩
            rw [sameMore]
            exact ih _ (careful.answered _) error otherError
  | check next ih =>
      rw [noted_check next unlatched, noted_check next otherUnlatched]
      exact ih careful unlatched otherUnlatched

end ReadProgram

namespace Value

variable {σ τ : Type} [OutputStream σ] [OutputStream τ]

theorem callsOn_endsAtFailure (value : Value) (deployment : Option Deployment) (stream : σ) :
    EndsAtFailure (value.callsOn deployment stream) (value.write deployment stream) := by
  rw [callsOn_eq]
  exact WriteStep.runAll_endsAtFailure _ stream

/-- The calls of a writing that fails are those of one that does not, up to the failing one. -/
theorem callsOn_prefix [ConformingOutputStream σ] [ConformingOutputStream τ] (value : Value)
    (deployment : Option Deployment) {stream : σ} {other : τ}
    (unlatched : Latch.error stream = none) (otherUnlatched : Latch.error other = none)
    (succeeds : ∀ entry ∈ value.callsOn deployment other, entry.2 = .ok ()) {position : Nat}
    {call : WriteCall} {fault : StreamError}
    (failing : (value.callsOn deployment stream)[position]? = some (call, .error fault)) :
    (value.callsOn deployment stream).map Prod.fst =
      ((value.callsOn deployment other).map Prod.fst).take (position + 1) := by
  have precedes : Precedes (value.callsOn deployment stream) (value.callsOn deployment other) := by
    simp only [callsOn_eq]
    exact WriteStep.noted_precedes _ unlatched otherUnlatched
  apply precedes failing
  intro earlier before entry otherEntry found otherFound
  rw [succeeds otherEntry (List.mem_of_getElem? otherFound)]
  rcases entry with ⟨earlierCall, ended⟩
  cases ended with
  | ok answer => rfl
  | error earlierFault =>
      -- Nothing is noted after a failure, and the failure at `position` is.
      have ends := value.callsOn_endsAtFailure deployment stream
      have lengthEq := (ends found).1.symm.trans (ends failing).1
      omega

end Value

namespace Schema

variable {σ τ : Type} [InputStream σ] [InputStream τ]

theorem questionsTo_endsAtFailure [LawfulInputStream σ] (schema : Schema) (type : DataType)
    (deployment : Option Deployment) (stream : σ) :
    EndsAtFailure (schema.questionsTo type deployment stream)
      (schema.read type deployment stream) := by
  rw [questionsTo_eq]
  exact (schema.program_careful _ type deployment).endsAtFailure stream

theorem questionsTo_precedes [ConformingInputStream σ] [ConformingInputStream τ] (schema : Schema)
    (type : DataType) (deployment : Option Deployment) {stream : σ} {other : τ}
    (unlatched : Latch.error stream = none) (otherUnlatched : Latch.error other = none) :
    Precedes (schema.questionsTo type deployment stream)
      ((schema.program (schema.allowance stream) type deployment).questionsTo other) := by
  rw [questionsTo_eq, ReadProgram.questionsTo_eq]
  exact (schema.program_careful _ type deployment).noted_precedes unlatched otherUnlatched

end Schema

/-- Composite values stop at the first failure. The calls before it are those of a run without the
failure, and its error is returned and stays latched. Whatever fails, an error is returned exactly
if it is latched, and an error that was latched before is returned at once. -/
theorem composites_short_circuit :
    (∀ (σ τ : Type) [OutputStream σ] [ConformingOutputStream σ] [OutputStream τ]
        [ConformingOutputStream τ] (value : Value) (deployment : Option Deployment) (stream : σ)
        (position : Nat) (call : WriteCall) (fault : StreamError),
      Latch.error stream = none →
      (value.callsOn deployment stream)[position]? = some (call, .error fault) →
        (∃ after, value.write deployment stream = .error fault after ∧
          Latch.error after = some fault) ∧
        (value.callsOn deployment stream).length = position + 1 ∧
        ∀ other : τ, Latch.error other = none →
          (∀ entry ∈ value.callsOn deployment other, entry.2 = .ok ()) →
            (value.callsOn deployment stream).map Prod.fst =
              ((value.callsOn deployment other).map Prod.fst).take (position + 1)) ∧
    (∀ (σ τ : Type) [InputStream σ] [ConformingInputStream σ] [InputStream τ]
        [ConformingInputStream τ] (schema : Schema) (type : DataType)
        (deployment : Option Deployment) (stream : σ) (position : Nat) (question : Question)
        (fault : StreamError),
      Latch.error stream = none →
      (schema.questionsTo type deployment stream)[position]? = some (question, .error fault) →
        (∃ after, schema.read type deployment stream = .error fault after ∧
          Latch.error after = some fault) ∧
        (schema.questionsTo type deployment stream).length = position + 1 ∧
        ∀ other : τ, Latch.error other = none →
          let others :=
            (schema.program (schema.allowance stream) type deployment).questionsTo other
          AlikeUpTo position (schema.questionsTo type deployment stream) others →
            (schema.questionsTo type deployment stream).map Prod.fst =
              (others.map Prod.fst).take (position + 1)) ∧
    (∀ (σ : Type) [OutputStream σ] [LawfulOutputStream σ] (value : Value)
        (deployment : Option Deployment),
      (value.write deployment : Action σ Unit).Settles ∧
        (value.write deployment : Action σ Unit).Refuses) ∧
    (∀ (σ : Type) [InputStream σ] [LawfulInputStream σ] (schema : Schema) (type : DataType)
        (deployment : Option Deployment),
      (schema.read type deployment : Action σ Value).Settles ∧
        (schema.read type deployment : Action σ Value).Refuses) := by
  refine ⟨?_, ?_, ?_, ?_⟩
  · intro σ τ _ _ _ _ value deployment stream position call fault unlatched failing
    rcases (value.callsOn_endsAtFailure deployment stream).stops
      (value.write_settles deployment unlatched) failing with ⟨fails, lengthEq⟩
    refine ⟨fails, lengthEq, ?_⟩
    intro other otherUnlatched succeeds
    exact value.callsOn_prefix deployment unlatched otherUnlatched succeeds failing
  · intro σ τ _ _ _ _ schema type deployment stream position question fault unlatched failing
    rcases (schema.questionsTo_endsAtFailure type deployment stream).stops
      (schema.read_settles type deployment unlatched) failing with ⟨fails, lengthEq⟩
    refine ⟨fails, lengthEq, ?_⟩
    intro other otherUnlatched others alike
    exact schema.questionsTo_precedes type deployment unlatched otherUnlatched failing alike
  · intro σ _ _ value deployment
    exact ⟨value.write_settles deployment, value.write_refuses deployment⟩
  · intro σ _ _ schema type deployment
    exact ⟨schema.read_settles type deployment, schema.read_refuses type deployment⟩

/-- A writing whose third call fails, and a reading that fails when it asks for a second item. -/
theorem composites_short_circuit_injected :
    let flags : Value := .sequence [.leaf (.bool true), .leaf (.bool false)]
    let failing : RecordingWriter := { failAt := some 2 }
    let script : RecordingReader Answer :=
      { tokens := [.more true, .leaf (.bool true), .done, .done] }
    let whole : RecordingReader Answer :=
      { tokens := [.more true, .leaf (.bool true), .more false, .done] }
    let questions := Schema.questionsTo {} (.sequence (.leaf .bool)) none
    ((flags.callsOn none failing).length = 3 ∧
      (flags.callsOn none failing).map Prod.fst =
        ((flags.callsOn none ({} : RecordingWriter)).map Prod.fst).take 3) ∧
    ((∃ after, Schema.read {} (.sequence (.leaf .bool)) none script =
        .error (.readFailed 2 (.described "script")) after ∧
          Latch.error after = some (.readFailed 2 (.described "script"))) ∧
      (questions script).map Prod.fst = ((questions whole).map Prod.fst).take 4) := by
  intro flags failing script whole questions
  constructor
  · have stopped := composites_short_circuit.1 RecordingWriter RecordingWriter flags none failing
      2 _ _ rfl rfl
    refine ⟨stopped.2.1, stopped.2.2 {} rfl ?_⟩
    intro entry entryMem
    have calls : flags.callsOn none ({} : RecordingWriter) =
        [(.enter (.sequence 2) none, .ok ()), (.leaf (.bool true) none, .ok ()),
          (.leaf (.bool false) none, .ok ()), (.leave .sequence, .ok ())] := rfl
    simp only [calls, List.mem_cons, List.not_mem_nil, or_false] at entryMem
    rcases entryMem with rfl | rfl | rfl | rfl <;> rfl
  · have stopped := composites_short_circuit.2.1 (RecordingReader Answer) (RecordingReader Answer)
      {} (.sequence (.leaf .bool)) none script 3 _ _ rfl rfl
    refine ⟨stopped.1, stopped.2.2 whole rfl ?_⟩
    intro earlier before entry other found otherFound
    match earlier with
    | 0 | 1 | 2 => cases found; cases otherFound; rfl
    | earlier + 3 => omega

end ValueBus
