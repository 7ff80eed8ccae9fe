import ValueBus.Proofs.Following
import ValueBus.Proofs.Entries
import ValueBus.Proofs.Transcript

/-!
# Programs that are answered by a script

A script is a list of exchanges. It answers a program with a value if a recording reader whose
tokens begin with those of the script is asked exactly the questions of the script, uses exactly its
tokens, and gives the value. The relation is composed as programs are.

A recording reader does not know how many items follow in a sequence or map. It announces as many
as it has tokens left, and every item is announced by a token of its own, so there are never too
many.
-/

namespace ValueBus

/-- The tokens that the exchanges of a script take. -/
def tokensOf (script : List Exchange) : List Answer :=
  script.filterMap Exchange.token

@[simp]
theorem tokensOf_nil : tokensOf [] = [] :=
  rfl

@[simp]
theorem tokensOf_append (first second : List Exchange) :
    tokensOf (first ++ second) = tokensOf first ++ tokensOf second :=
  List.filterMap_append

@[simp]
theorem tokensOf_more (kind : Repetition) (answer : Bool) (rest : List Exchange) :
    tokensOf (.more kind answer :: rest) = .more answer :: tokensOf rest :=
  rfl

namespace RecordingReader

/-- The reader after the exchanges of a script, with the given tokens left. -/
def past (reader : RecordingReader Answer) (script : List Exchange) (rest : List Answer) :
    RecordingReader Answer :=
  { reader with
    tokens := rest
    used := reader.used + (tokensOf script).length
    questions := reader.questions ++ script.map Exchange.question }

theorem past_past (reader : RecordingReader Answer) (first second : List Exchange)
    (middle rest : List Answer) :
    (reader.past first middle).past second rest = reader.past (first ++ second) rest := by
  simp [past, Nat.add_assoc]

theorem past_nil (reader : RecordingReader Answer) : reader.past [] reader.tokens = reader := by
  simp [past]

/-- A question that takes no token. -/
theorem note_eq (reader : RecordingReader Answer) (question : Question) :
    note question reader = .ok () (reader.past [⟨question, none⟩] reader.tokens) :=
  rfl

theorem answer_eq {α : Type} {reader : RecordingReader Answer} {token : Answer}
    {rest : List Answer} {answer? : Answer → Option α} {value : α}
    (tokensEq : reader.tokens = token :: rest) (fits : answer? token = some value) :
    answer answer? reader = .ok value { reader with tokens := rest, used := reader.used + 1 } := by
  rw [answer_apply, tokensEq]
  simp [answerFrom, Token.failure?, fits]

/-- A question that takes the next token. -/
theorem note_answer {α : Type} {reader : RecordingReader Answer} {question : Question}
    {token : Answer} {rest : List Answer} {answer? : Answer → Option α} {value : α}
    (tokensEq : reader.tokens = token :: rest) (fits : answer? token = some value) :
    (note question >>= fun _ => answer answer?) reader =
      .ok value (reader.past [⟨question, some token⟩] rest) := by
  rw [Action.bind_of_ok (note_eq reader question)]
  exact answer_eq tokensEq fits

section Running

open ReadProgram

variable {reader : RecordingReader Answer}

theorem run_readLeaf (unlatched : reader.error = none) (kind : LeafKind)
    (deployment : Option Deployment) :
    (readLeaf kind deployment).run reader =
      (note (.leaf kind deployment) >>= fun _ => answer (Token.leaf? kind)) reader := by
  have steps : (readLeaf kind deployment).run reader =
      ((Latch.check >>= fun _ => note (.leaf kind deployment) >>= fun _ =>
        answer (Token.leaf? kind)) >>= pure) reader := rfl
  rw [steps, bind_pure, Action.bind_of_ok (Action.check_of_unlatched unlatched)]

theorem run_enterFrame (unlatched : reader.error = none) (kind : FrameKind)
    (deployment : Option Deployment) :
    (enterFrame kind deployment).run reader = enter kind deployment reader := by
  have steps : (enterFrame kind deployment).run reader =
      ((Latch.check >>= fun _ => enter kind deployment) >>= pure) reader := rfl
  rw [steps, bind_pure, Action.bind_of_ok (Action.check_of_unlatched unlatched)]

theorem run_leaveFrame (unlatched : reader.error = none) (kind : FrameKind) :
    (leaveFrame kind).run reader =
      (if kind = .mapEntry ∨ kind = .variant then pure () else note (.leave kind)) reader := by
  have steps : (leaveFrame kind).run reader =
      ((Latch.check >>= fun _ =>
        if kind = .mapEntry ∨ kind = .variant then pure () else note (.leave kind)) >>= pure)
          reader := rfl
  rw [steps, bind_pure, Action.bind_of_ok (Action.check_of_unlatched unlatched)]

end Running

end RecordingReader

/-- A script answers a program with a value. -/
def Answers {α : Type} (script : List Exchange) (program : ReadProgram α) (value : α) : Prop :=
  ∀ ⦃reader : RecordingReader Answer⦄ ⦃rest : List Answer⦄, reader.error = none →
    reader.tokens = tokensOf script ++ rest →
      program.run reader = .ok value (reader.past script rest)

namespace Answers

open ReadProgram

variable {α β : Type}

/-- A program that asks for nothing. -/
theorem of_nothing {program : ReadProgram α} {value : α}
    (runs : ∀ reader : RecordingReader Answer, reader.error = none →
      program.run reader = .ok value reader) : Answers [] program value := by
  intro reader rest unlatched tokensEq
  have restEq : reader.tokens = rest := tokensEq
  rw [← restEq, RecordingReader.past_nil]
  exact runs reader unlatched

/-- A program that asks one question, which takes no token. -/
theorem of_question {program : ReadProgram α} {question : Question} {value : α}
    (runs : ∀ reader : RecordingReader Answer, reader.error = none →
      program.run reader = .ok value (reader.past [⟨question, none⟩] reader.tokens)) :
    Answers [⟨question, none⟩] program value := by
  intro reader rest unlatched tokensEq
  have restEq : reader.tokens = rest := tokensEq
  rw [← restEq]
  exact runs reader unlatched

theorem done (value : α) : Answers [] (pure value) value :=
  of_nothing fun _ _ => rfl

theorem andThen {first second : List Exchange} {program : ReadProgram α}
    {next : α → ReadProgram β} {answer : α} {value : β} (answers : Answers first program answer)
    (nextAnswers : Answers second (next answer) value) :
    Answers (first ++ second) (program >>= next) value := by
  intro reader rest unlatched tokensEq
  rw [tokensOf_append, List.append_assoc] at tokensEq
  rw [run_bind, Action.bind_of_ok (answers unlatched tokensEq),
    ← RecordingReader.past_past reader first second (tokensOf second ++ rest)]
  exact nextAnswers unlatched rfl

theorem andThen_nil {script : List Exchange} {program : ReadProgram α}
    {next : α → ReadProgram β} {answer : α} {value : β} (answers : Answers script program answer)
    (nextAnswers : Answers [] (next answer) value) :
    Answers script (program >>= next) value := by
  have composed := answers.andThen nextAnswers
  rwa [List.append_nil] at composed

theorem map {script : List Exchange} {program : ReadProgram α} {answer : α}
    (answers : Answers script program answer) (change : α → β) :
    Answers script (change <$> program) (change answer) :=
  answers.andThen_nil (done (change answer))

theorem checkLatch : Answers [] ReadProgram.checkLatch () :=
  of_nothing fun _ unlatched => Action.bind_of_ok (Action.check_of_unlatched unlatched)

theorem leaf (value : Leaf) (deployment : Option Deployment) :
    Answers [(WriteCall.leaf value deployment).exchange] (readLeaf value.kind deployment)
      value := by
  intro reader rest unlatched tokensEq
  rw [RecordingReader.run_readLeaf unlatched]
  apply RecordingReader.note_answer tokensEq
  simp [Token.leaf?]

theorem more (kind : Repetition) (answer : Bool) :
    Answers [.more kind answer] (ReadProgram.more kind) answer := by
  intro reader rest unlatched tokensEq
  have asked : RecordingReader.askMore kind reader =
      .ok answer (reader.past [.more kind answer] rest) :=
    (Action.bind_of_ok (Action.check_of_unlatched unlatched)).trans
      (RecordingReader.note_answer tokensEq rfl)
  have runEq : (ReadProgram.more kind).run reader =
      .ok (RecordingReader.hasMore kind reader).1 (RecordingReader.hasMore kind reader).2 := rfl
  rw [runEq, RecordingReader.hasMore_of_ok asked]

theorem enter_struct (deployment : Option Deployment) :
    Answers [(WriteCall.enter .struct deployment).exchange] (enterFrame .struct deployment)
      .struct := by
  apply of_question
  intro reader unlatched
  exact RecordingReader.run_enterFrame unlatched .struct deployment

theorem enter_variant (tag : Nat) (deployment : Option Deployment) :
    Answers [(WriteCall.enter (.variant tag) deployment).exchange]
      (enterFrame .variant deployment) (.variant tag) := by
  intro reader rest unlatched tokensEq
  rw [RecordingReader.run_enterFrame unlatched]
  apply (Action.bind_of_ok (RecordingReader.note_eq reader _)).trans
  apply Action.map_eq_ok_iff.2
  exact ⟨tag, RecordingReader.answer_eq tokensEq rfl, rfl⟩

theorem enter_mapEntry : Answers [] (enterFrame .mapEntry none) .mapEntry :=
  of_nothing fun _ unlatched => RecordingReader.run_enterFrame unlatched .mapEntry none

/-- A repeating frame announces as many items as there are tokens left. -/
theorem enter_repeated (kind : Repetition) {deployment : Option Deployment}
    {script : List Exchange} {body : Opening → ReadProgram α} {value : α}
    (inside : ∀ opening : Opening, (tokensOf script).length ≤ opening.length →
      Answers script (body opening) value) :
    Answers (⟨.enter kind.frame deployment, none⟩ :: script)
      (enterFrame kind.frame deployment >>= body) value := by
  intro reader rest unlatched tokensEq
  have entered : ∃ opening : Opening, opening.length = reader.tokens.length ∧
      (enterFrame kind.frame deployment).run reader =
        .ok opening (reader.past [⟨.enter kind.frame deployment, none⟩] reader.tokens) := by
    rw [RecordingReader.run_enterFrame unlatched]
    cases kind with
    | sequence => exact ⟨.sequence reader.tokens.length, rfl, rfl⟩
    | map => exact ⟨.map reader.tokens.length, rfl, rfl⟩
  rcases entered with ⟨opening, lengthEq, entered⟩
  -- The opening itself takes no token, so the script finds all of its own.
  have insideTokens : reader.tokens = tokensOf script ++ rest := tokensEq
  have enough : (tokensOf script).length ≤ opening.length := by
    simp [lengthEq, insideTokens]
  have stillUnlatched : (reader.past [⟨.enter kind.frame deployment, none⟩]
      reader.tokens).error = none := unlatched
  rw [run_bind, Action.bind_of_ok entered,
    inside opening enough stillUnlatched insideTokens, RecordingReader.past_past]
  rfl

theorem leave_required {kind : FrameKind} (required : (WriteCall.leave kind).isRequired = true) :
    Answers [(WriteCall.leave kind).exchange] (leaveFrame kind) () := by
  apply of_question
  intro reader unlatched
  rw [RecordingReader.run_leaveFrame unlatched]
  cases kind with
  | mapEntry => cases required
  | variant => cases required
  | _ => rfl

theorem leave_optional {kind : FrameKind} (optional : (WriteCall.leave kind).isRequired = false) :
    Answers [] (leaveFrame kind) () := by
  apply of_nothing
  intro reader unlatched
  rw [RecordingReader.run_leaveFrame unlatched]
  cases kind with
  | mapEntry => rfl
  | variant => rfl
  | _ => cases optional

theorem repeatWhile_nil (kind : Repetition) {item : α → ReadProgram α} (count : Nat) (state : α) :
    Answers [.more kind false] (repeatWhile kind item count state) state := by
  cases count with
  | zero => exact (more kind false).andThen (done state)
  | succ count => exact (more kind false).andThen (done state)

theorem repeatWhile_cons (kind : Repetition) {item : α → ReadProgram α} {count : Nat}
    {first later : List Exchange} {state next final : α}
    (answers : Answers first (item state) next)
    (laterAnswers : Answers later (repeatWhile kind item count next) final) :
    Answers (.more kind true :: first ++ later) (repeatWhile kind item (count + 1) state) final :=
  (more kind true).andThen (answers.andThen laterAnswers)

/-- The items of a sequence, each behind the question for it. -/
theorem items {items : List Value} {deployment : Option Deployment} {program : ReadProgram Value}
    (parts : ∀ item ∈ items, Answers (item.dialogue deployment) program item) {count : Nat}
    (enough : items.length ≤ count) (read : List Value) :
    Answers (Value.itemDialogue items deployment ++ [.more .sequence false])
      (repeatWhile .sequence (fun read => (· :: read) <$> program) count read)
      (items.reverse ++ read) := by
  induction items generalizing count read with
  | nil => exact repeatWhile_nil .sequence count read
  | cons item rest ih =>
      rcases List.forall_mem_cons.1 parts with ⟨itemAnswers, restAnswer⟩
      cases count with
      | zero => cases enough
      | succ count =>
          have later := ih restAnswer (Nat.le_of_succ_le_succ enough) (item :: read)
          have whole := repeatWhile_cons .sequence (itemAnswers.map (· :: read)) later
          simpa [Value.itemDialogue] using whole

/-- The entries of a map, each behind the question for it. No key occurs twice, and every entry goes
behind those before it. -/
theorem entries {mapOrder : MapOrder} {entries : List (Value × Value)}
    {keyDeployment valueDeployment : Option Deployment} {readKey readValue : ReadProgram Value}
    (keys : ∀ entry ∈ entries, Answers (entry.1.dialogue keyDeployment) readKey entry.1)
    (values : ∀ entry ∈ entries, Answers (entry.2.dialogue valueDeployment) readValue entry.2)
    {count : Nat} (enough : entries.length ≤ count) {read : List (Value × Value)}
    (admits : mapOrder.Admits (read ++ entries)) :
    Answers (Value.entryDialogue entries keyDeployment valueDeployment ++ [.more .map false])
      (repeatWhile .map (readEntry mapOrder readKey readValue) count read) (read ++ entries) := by
  induction entries generalizing count read with
  | nil =>
      rw [List.append_nil]
      exact repeatWhile_nil .map count read
  | cons entry rest ih =>
      rcases List.forall_mem_cons.1 keys with ⟨keyAnswers, restKeys⟩
      rcases List.forall_mem_cons.1 values with ⟨valueAnswers, restValues⟩
      have absent := admits.hasKey_eq_false
      have added := admits.addEntry_eq_append
      have admitted : mapOrder.Admits ((read ++ [entry]) ++ rest) := by simpa using admits
      have entryRead : Answers (entry.1.dialogue keyDeployment ++
          entry.2.dialogue valueDeployment)
          (readEntry mapOrder readKey readValue read) (read ++ [entry]) := by
        apply enter_mapEntry.andThen
        apply keyAnswers.andThen
        apply valueAnswers.andThen_nil
        apply (leave_optional rfl).andThen_nil
        rw [absent, added]
        exact done _
      cases count with
      | zero => cases enough
      | succ count =>
          have later := ih restKeys restValues (Nat.le_of_succ_le_succ enough) admitted
          have whole := repeatWhile_cons .map entryRead later
          simpa [Value.entryDialogue] using whole

/-- The members of a record or a tuple, each with the deployment of its position. -/
theorem members {types : List DataType} {members : List Value}
    {declared : Declared → Option Deployment → ReadProgram Value} {script : List Exchange}
    (lengthEq : types.length = members.length)
    (parts : ∀ pair ∈ types.zip members, ∀ deployment, (pair.2.dialogue deployment).Sublist script →
      Answers (pair.2.dialogue deployment) (pair.1.readWith declared deployment) pair.2)
    (deployment : Option Deployment) (position : Nat)
    (within : (Value.memberDialogue members deployment position).Sublist script) :
    Answers (Value.memberDialogue members deployment position)
      (DataType.readMembersWith declared types deployment position) members := by
  induction types generalizing members position with
  | nil =>
      cases members with
      | nil => exact done []
      | cons member rest => cases lengthEq
  | cons type types ih =>
      cases members with
      | nil => cases lengthEq
      | cons member rest =>
          rcases List.forall_mem_cons.1 parts with ⟨memberAnswers, restAnswer⟩
          have firstWithin := (List.sublist_append_left _ _).trans within
          have laterWithin := (List.sublist_append_right _ _).trans within
          have later := ih (Nat.succ.inj lengthEq) restAnswer (position + 1) laterWithin
          exact (memberAnswers _ firstWithin).andThen (later.map (member :: ·))

end Answers

end ValueBus
