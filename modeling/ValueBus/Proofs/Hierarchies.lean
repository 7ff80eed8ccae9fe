import ValueBus.Proofs.Careful
import ValueBus.Proofs.Freezing
import ValueBus.Proofs.Registrations
import ValueBus.Proofs.Standing

/-!
# Polymorphic sequences

Instances of several kinds are written into one sequence, each behind its serial. A reader finds the
kinds in a registry with a history of its own. It reads back every instance up to the first whose
serial the registry does not know, and there it stops for good.

A kind is read back as a type is: `ReadsAs` relates its program to the steps of its instances. Only
the part of the sequence before the unknown serial is read that way; what stands behind it has been
written, so that the bytes of the unknown serial itself are there to be read.
-/

namespace ValueBus

open WriteStep

/-- The values of an instance are of the types of the fields of its kind. -/
structure Instance.WellFormed (written : Instance) (schema : Schema) : Prop where
  length_eq : written.kind.fields.length = written.values.length
  typed : ∀ pair ∈ written.kind.fields.zip written.values, schema.HasType pair.1.type pair.2

/-- The steps that write instances into one sequence. -/
def Instance.sequenceSteps (instances : List Instance) (outer deployment : Option Deployment) :
    List WriteStep :=
  Value.entering (.sequence instances.length) outer ::
    instances.flatMap (·.steps deployment) ++ [Value.leaving .sequence]

namespace WriteStep

theorem balanced_flatMap {α : Type} {items : List α} {steps : α → List WriteStep}
    (parts : ∀ item ∈ items, Balanced (steps item)) : Balanced (items.flatMap steps) := by
  induction items with
  | nil => exact fun _ => rfl
  | cons item rest ih =>
      rcases List.forall_mem_cons.1 parts with ⟨itemBalanced, restBalanced⟩
      exact itemBalanced.append (ih restBalanced)

end WriteStep

namespace Kind

theorem balanced_steps (kind : Kind) (values : List Value) (deployment : Option Deployment) :
    Balanced (kind.steps values deployment) := by
  have fieldsBalanced : Balanced (fieldSteps kind.fields values deployment) :=
    balanced_flatMap fun _ _ => Value.balanced_steps _ _
  unfold steps
  split
  · exact Value.balanced_bracketed fieldsBalanced
  · exact fieldsBalanced

end Kind

namespace Instance

theorem balanced_steps (written : Instance) (deployment : Option Deployment) :
    Balanced (written.steps deployment) :=
  Value.balanced_bracketed (written.kind.balanced_steps written.values deployment)

theorem balanced_sequenceSteps (instances : List Instance) (outer deployment : Option Deployment) :
    Balanced (sequenceSteps instances outer deployment) :=
  Value.balanced_bracketed (balanced_flatMap fun written _ => written.balanced_steps deployment)

end Instance

namespace ReadsAs

variable {schema : Schema} {limits : Limits} {allowance : Nat} {frames : List ReadFrame}
  {deployment : Option Deployment}

/-- Fields are read one after the other, each with its share of the deployment. -/
theorem fields {fields : List KindField} {values : List Value}
    (lengthEq : fields.length = values.length)
    (typed : ∀ pair ∈ fields.zip values, schema.HasType pair.1.type pair.2)
    (shallow : frames.length ≤ limits.maxDepth)
    (allowed : limits.maxDepth < allowance + frames.length) :
    ReadsAs limits frames (Kind.fieldSteps fields values deployment)
      (Kind.readFields schema allowance fields deployment) values frames := by
  induction fields generalizing values with
  | nil =>
      cases values with
      | nil => exact done []
      | cons value rest => cases lengthEq
  | cons field fields ih =>
      cases values with
      | nil => cases lengthEq
      | cons value rest =>
          rcases List.forall_mem_cons.1 typed with ⟨valueTyped, restTyped⟩
          have first := valueTyped.readsAs (field.share.of deployment) shallow allowed
          have later := ih (Nat.succ.inj lengthEq) restTyped
          exact first.andThen fun _ => later.map (value :: ·)

/-- The program of a kind reads its instances back. -/
theorem kind {written : Instance} (formed : written.WellFormed schema)
    (shallow : frames.length ≤ limits.maxDepth)
    (allowed : limits.maxDepth < allowance + frames.length) :
    ReadsAs limits frames (written.kind.steps written.values deployment)
      (written.kind.program schema allowance deployment) written frames := by
  unfold Kind.steps Kind.program
  split
  · refine @bracket _ _ _ _ .struct _ _ _ _ (Instance.mk written.kind) _ rfl rfl fun inside => ?_
    exact fields formed.length_eq formed.typed inside (by simp only [List.length_cons]; omega)
  · exact (fields formed.length_eq formed.typed shallow allowed).map (Instance.mk written.kind)

/-- A registry that knows the kind of an instance under its serial reads the instance back. -/
theorem registered {μ : Type} [KindMap μ] {registry : Registry μ} {written : Instance} (formed : written.WellFormed schema)
    (known : registry.find? written.kind.serial = some written.kind)
    (allowed : limits.maxDepth < allowance + frames.length) :
    ReadsAs limits frames (written.steps deployment) (registry.program schema allowance deployment)
      written frames := by
  have stepsEq : written.steps deployment =
      [Value.entering (.polymorphic written.kind.serial) deployment] ++
        (written.kind.steps written.values deployment ++ ([Value.leaving .polymorphic] ++ [])) := by
    simp [Instance.steps]
  rw [stepsEq]
  apply (enter_plain deployment rfl rfl).andThen
  intro within
  have inside : frames.length + 1 ≤ limits.maxDepth := depth_of_entering within
  simp only [Opening.serial, known]
  have fieldsRead : ReadsAs limits (.plain .polymorphic :: frames)
      (written.kind.steps written.values deployment)
      (written.kind.program schema allowance deployment) written (.plain .polymorphic :: frames) :=
    kind formed inside (by simp only [List.length_cons]; omega)
  exact fieldsRead.andThen fun _ => (leave_plain .polymorphic).andThen fun _ => done written

end ReadsAs

namespace Registry

variable {μ : Type} [KindMap μ] {registry : Registry μ} {schema : Schema} {limits : Limits}
  {frames : List ReadFrame} {deployment : Option Deployment} {cursor final : ReadCursor}

/-- An instance is read back where its steps stand. -/
theorem read_of_stands {written : Instance} (formed : written.WellFormed schema)
    (known : registry.find? written.kind.serial = some written.kind)
    (stands : Stands limits frames.length (written.steps deployment) cursor final) :
    registry.read schema deployment (MemoryReader.unlatched limits frames cursor) =
      .ok written (MemoryReader.unlatched limits frames final) := by
  have allowed := schema.depth_lt_allowance (.unlatched limits frames cursor)
  exact (ReadsAs.registered formed known (Nat.lt_add_right frames.length allowed)).run_of_stands
    stands

/-- The serial of an instance that was written can be read, and is all that is read if the registry
does not know it. -/
theorem read_of_unknown {written : Instance}
    (unknown : registry.find? written.kind.serial = none)
    (stands : Stands limits frames.length (written.steps deployment) cursor final) :
    ∃ failed : MemoryReader,
      registry.read schema deployment (MemoryReader.unlatched limits frames cursor) =
        .error (.unknownDiscriminator written.kind.serial.toNat) failed ∧
      failed.error = some (.unknownDiscriminator written.kind.serial.toNat) := by
  rcases (Stands.bracket_iff (written.kind.balanced_steps _ _)).1 stands with ⟨middle, announced, _⟩
  have enters : ReadsAs limits frames [Value.entering (.polymorphic written.kind.serial) deployment]
      (ReadProgram.enterFrame .polymorphic deployment) (.polymorphic written.kind.serial)
      (.plain .polymorphic :: frames) := .enter_plain deployment rfl rfl
  refine ⟨Latch.setError (.unknownDiscriminator written.kind.serial.toNat)
    (.unlatched limits (.plain .polymorphic :: frames) middle), ?_, rfl⟩
  unfold read program
  rw [ReadProgram.run_bind, Action.bind_of_ok (enters.run_of_stands announced)]
  simp only [Opening.serial, unknown]
  exact Action.raise_of_unlatched rfl

theorem read_refuses (registry : Registry μ) (schema : Schema) (deployment : Option Deployment) :
    (registry.read schema deployment : Action MemoryReader Instance).Refuses := by
  intro reader first latched
  exact ReadProgram.bind_refuses (ReadProgram.enterFrame_refuses _ _) _ latched

/-- A reader delivers instances: before each of them it answers that another item follows, and then
the instance is read. -/
inductive Delivers (registry : Registry μ) (schema : Schema) (deployment : Option Deployment) :
    MemoryReader → List Instance → MemoryReader → Prop where
  | nil {reader : MemoryReader} : Delivers registry schema deployment reader [] reader
  | cons {reader asked middle final : MemoryReader} {found : Instance} {rest : List Instance} :
      InputStream.hasMore .sequence reader = (true, asked) →
      registry.read schema deployment asked = .ok found middle →
      Delivers registry schema deployment middle rest final →
      Delivers registry schema deployment reader (found :: rest) final

theorem delivers_of_stands {instances : List Instance}
    (formed : ∀ written ∈ instances, written.WellFormed schema)
    (known : ∀ written ∈ instances, registry.find? written.kind.serial = some written.kind)
    (stands : Stands limits (frames.length + 1) (instances.flatMap (·.steps deployment)) cursor
      final) (others : Nat) :
    registry.Delivers schema deployment
      (.unlatched limits (.counted .sequence (instances.length + others) :: frames) cursor)
      instances (.unlatched limits (.counted .sequence others :: frames) final) := by
  induction instances generalizing cursor with
  | nil =>
      cases Stands.nil_iff.1 stands
      rw [List.length_nil, Nat.zero_add]
      exact .nil
  | cons written rest ih =>
      rcases List.forall_mem_cons.1 formed with ⟨writtenFormed, restFormed⟩
      rcases List.forall_mem_cons.1 known with ⟨writtenKnown, restKnown⟩
      rw [List.flatMap_cons, Stands.balanced_append_iff (written.balanced_steps _)] at stands
      rcases stands with ⟨middle, writtenStands, restStands⟩
      rw [List.length_cons, Nat.add_right_comm]
      exact .cons (MemoryReader.hasMore_of_counted_succ rfl rfl)
        (read_of_stands writtenFormed writtenKnown writtenStands)
        (ih restFormed restKnown restStands)

end Registry

/-- A reader that an error has ended: no items follow, and neither a question nor a value nor an
instance is answered. -/
structure MemoryReader.Ended (fault : StreamError) (reader : MemoryReader) : Prop where
  latched : reader.error = some fault
  noMore : ∀ kind, InputStream.hasMore kind reader = (false, reader)
  operations : ∀ operation : ReadOperation, operation.isFallible = true →
    operation.perform reader = .error fault reader
  values : ∀ (schema : Schema) (type : DataType) (deployment : Option Deployment),
    schema.read type deployment reader = .error fault reader
  instances : ∀ {μ : Type} [KindMap μ] (registry : Registry μ) (schema : Schema)
    (deployment : Option Deployment), registry.read schema deployment reader = .error fault reader

theorem MemoryReader.ended_of_latched {reader : MemoryReader} {fault : StreamError}
    (latched : reader.error = some fault) : reader.Ended fault where
  latched := latched
  noMore kind := hasMore_of_latched kind latched
  operations _ fallible := ReadOperation.refuses fallible latched
  values schema type deployment := schema.read_refuses type deployment latched
  instances registry schema deployment := registry.read_refuses schema deployment latched

/-- Instances written into one sequence are read back as far as the registry knows their serials by
their kinds, whatever map the registry uses. If those are all, the sequence ends and nothing is
left. If the next serial is unknown, reading it fails with that serial, and whatever is done later
finds the reader ended. -/
theorem hierarchy_reads_back {μ : Type} [KindMap μ] [LawfulKindMap μ] (schema : Schema)
    (changes : List Registration) (limits : Limits) (outer deployment : Option Deployment)
    (known rest : List Instance) (bytes : List UInt8)
    (formed : ∀ written ∈ known ++ rest, written.WellFormed schema)
    (encoded : WriteStep.encode (Instance.sequenceSteps (known ++ rest) outer deployment) limits =
      .ok bytes)
    (registered : ∀ written ∈ known, Registered changes written.kind.serial written.kind) :
    let registry : Registry μ := .ofChanges changes
    ∃ opened reader : MemoryReader,
      InputStream.enter .sequence outer (MemoryReader.ofBytes bytes limits) =
          .ok (.sequence (known ++ rest).length) opened ∧
        registry.Delivers schema deployment opened known reader ∧
        (rest = [] → ∃ closed : MemoryReader,
          InputStream.hasMore .sequence reader = (false, reader) ∧
            InputStream.leave .sequence reader = .ok () closed ∧ closed.finish = .ok ()) ∧
        (∀ other later, rest = other :: later → Unregistered changes other.kind.serial →
          ∃ asked failed : MemoryReader,
            InputStream.hasMore .sequence reader = (true, asked) ∧
              registry.read schema deployment asked =
                .error (.unknownDiscriminator other.kind.serial.toNat) failed ∧
              ∀ operations, (ReadOperation.performAll operations failed).Ended
                (.unknownDiscriminator other.kind.serial.toNat)) := by
  intro registry
  have allBalanced (instances : List Instance) :
      Balanced (instances.flatMap (·.steps deployment)) :=
    balanced_flatMap fun written _ => written.balanced_steps deployment
  have stands := Stands.of_encode (Instance.balanced_sequenceSteps _ outer deployment) encoded
  rcases (Stands.bracket_iff (allBalanced _)).1 stands with ⟨inside, announced, itemsStand⟩
  rw [List.flatMap_append, Stands.balanced_append_iff (allBalanced known)] at itemsStand
  rcases itemsStand with ⟨between, knownStand, restStand⟩
  have found (written : Instance) (writtenMem : written ∈ known) :
      registry.find? written.kind.serial = some written.kind :=
    Registry.find?_ofChanges_eq_some_iff.2 (registered written writtenMem)
  have knownFormed (written : Instance) (writtenMem : written ∈ known) :
      written.WellFormed schema := formed written (List.mem_append_left rest writtenMem)
  have entered : InputStream.enter .sequence outer (MemoryReader.unlatched limits [] { bytes }) =
      .ok (.sequence (known ++ rest).length)
        (.unlatched limits [.counted .sequence (known ++ rest).length] inside) :=
    MemoryReader.enter_of_stands rfl rfl announced
  have delivered : registry.Delivers schema deployment
      (.unlatched limits [.counted .sequence (known.length + rest.length)] inside) known
      (.unlatched limits [.counted .sequence rest.length] between) :=
    Registry.delivers_of_stands knownFormed found knownStand rest.length
  rw [← List.length_append] at delivered
  refine ⟨_, _, entered, delivered, ?_, ?_⟩
  · rintro rfl
    cases Stands.nil_iff.1 restStand
    exact ⟨_, MemoryReader.hasMore_of_counted_zero rfl rfl, rfl,
      MemoryReader.finish_unlatched limits bytes⟩
  · rintro other later rfl unregistered
    rw [List.flatMap_cons, Stands.balanced_append_iff (other.balanced_steps _)] at restStand
    rcases restStand with ⟨_, otherStands, _⟩
    have unknown : registry.find? other.kind.serial = none :=
      Registry.find?_ofChanges_eq_none_iff.2 unregistered
    rcases @Registry.read_of_unknown _ _ _ schema limits [.counted .sequence later.length]
      deployment between _ other unknown otherStands with ⟨failed, refused, latched⟩
    refine ⟨_, failed, MemoryReader.hasMore_of_counted_succ rfl rfl, refused, fun operations => ?_⟩
    rw [MemoryReader.performAll_of_latched operations latched]
    exact MemoryReader.ended_of_latched latched

/-- An instance with a number between struct brackets. -/
def Instance.started : Instance :=
  ⟨⟨"Started", 10, true, [⟨.number .uint64, .nothing, .number (.uint64 0)⟩]⟩, [.number (.uint64 5)]⟩

/-- An instance with a sequence whose length field is as wide as child 1 of the deployment says. -/
def Instance.tagged : Instance :=
  ⟨⟨"Tagged", 7, false, [⟨.sequence (.number .uint8), .child 1, .sequence []⟩]⟩,
    [.sequence [.number (.uint8 9)]]⟩

def Deployment.shortTags : Deployment :=
  .node [] [none, some (.node [("length_width", .integer 1)] [])]

theorem Instance.started_wellFormed : Instance.started.WellFormed {} := by
  refine ⟨rfl, fun pair pairMem => ?_⟩
  rw [List.mem_singleton.1 pairMem]
  exact @Schema.HasType.leaf _ (.number (.uint64 5))

theorem Instance.tagged_wellFormed : Instance.tagged.WellFormed {} := by
  refine ⟨rfl, fun pair pairMem => ?_⟩
  rw [List.mem_singleton.1 pairMem]
  refine .sequence fun item itemMem => ?_
  rw [List.mem_singleton.1 itemMem]
  exact @Schema.HasType.leaf _ (.number (.uint8 9))

/-- Both are written; then serial 7 is unregistered, and serial 10 goes from one kind to another. -/
theorem hierarchy_reads_back_reregistered :
    let changes : List Registration := [.register 10 Instance.tagged.kind,
      .register 7 Instance.tagged.kind, .unregister 7, .register 10 Instance.started.kind]
    let registry : Registry (Std.HashMap UInt32 Kind) := .ofChanges changes
    let bytes : List UInt8 := [2, 0, 0, 0, 10, 0, 0, 0, 5, 0, 0, 0, 0, 0, 0, 0,
      7, 0, 0, 0, 0, 0, 0, 0, 1, 9]
    ∃ opened reader asked failed : MemoryReader,
      InputStream.enter .sequence none (MemoryReader.ofBytes bytes {}) = .ok (.sequence 2) opened ∧
        registry.Delivers {} (some .shortTags) opened [.started] reader ∧
        InputStream.hasMore .sequence reader = (true, asked) ∧
        registry.read {} (some .shortTags) asked =
          .error (.unknownDiscriminator 7) failed ∧
        ∀ operations, (ReadOperation.performAll operations failed).Ended
          (.unknownDiscriminator 7) := by
  have startedTaken : runAll
      (Value.entering (.sequence 2) none :: Instance.started.steps (some .shortTags))
      (MemoryWriter.withLimits {}) =
        .ok () { cursor := ⟨[2, 0, 0, 0, 10, 0, 0, 0, 5, 0, 0, 0, 0, 0, 0, 0]⟩,
                 frames := [.sequence] } := rfl
  have taggedTaken : runAll (Instance.tagged.steps (some .shortTags) ++ [Value.leaving .sequence])
      { cursor := ⟨[2, 0, 0, 0, 10, 0, 0, 0, 5, 0, 0, 0, 0, 0, 0, 0]⟩, frames := [.sequence] } =
        .ok () ({ cursor := ⟨[2, 0, 0, 0, 10, 0, 0, 0, 5, 0, 0, 0, 0, 0, 0, 0, 7, 0, 0, 0, 0, 0, 0,
          0, 1, 9]⟩ } : MemoryWriter) := rfl
  intro changes registry bytes
  have encoded : WriteStep.encode
      (Instance.sequenceSteps ([.started] ++ [.tagged]) none (some .shortTags)) {} = .ok bytes := by
    have stepsEq : Instance.sequenceSteps ([.started] ++ [.tagged]) none (some .shortTags) =
        (Value.entering (.sequence 2) none :: Instance.started.steps (some .shortTags)) ++
          (Instance.tagged.steps (some .shortTags) ++ [Value.leaving .sequence]) := rfl
    rw [WriteStep.encode, stepsEq, runAll_append, Action.bind_of_ok startedTaken, taggedTaken]
    rfl
  have formed : ∀ written ∈ [Instance.started] ++ [Instance.tagged], written.WellFormed {} := by
    rw [List.singleton_append, List.forall_mem_cons, List.forall_mem_singleton]
    exact ⟨Instance.started_wellFormed, Instance.tagged_wellFormed⟩
  have registered : ∀ written ∈ [Instance.started],
      Registered changes written.kind.serial written.kind := by
    rw [List.forall_mem_singleton]
    exact ⟨changes.take 3, [], rfl, by simp⟩
  have unregistered : Unregistered changes Instance.tagged.kind.serial := by
    intro kind
    simp [changes, registered_cons, not_registered_nil, Registration.serial, Instance.tagged]
  rcases @hierarchy_reads_back (Std.HashMap UInt32 Kind) _ _ {} changes {} none (some .shortTags)
    [.started] [.tagged] bytes formed encoded registered with
    ⟨opened, reader, entered, delivered, _, stopped⟩
  rcases stopped .tagged [] rfl unregistered with ⟨asked, failed, more, refused, ended⟩
  exact ⟨opened, reader, asked, failed, entered, delivered, more, refused, ended⟩

end ValueBus
