import ValueBus.Proofs.Calls

/-!
# Writable values

Steps are writable if each of them has chunks and none breaks a limit. Whether a composite value is
writable depends on its parts and on how many there are, and not on the order of the entries of a
map. So a value that is writable stays writable when the entries of its maps are rearranged, at any
nesting.
-/

namespace ValueBus

namespace WriteStep

/-- Steps that can be written while `depth` frames are open. -/
structure Writable (limits : Limits) (depth : Nat) (steps : List WriteStep) : Prop where
  described : ∃ chunks, chunksAll? steps = some chunks
  within : limitFaultAll? limits depth steps = none

theorem writable_nil (limits : Limits) (depth : Nat) : Writable limits depth [] :=
  ⟨⟨[], rfl⟩, rfl⟩

theorem writable_append_iff {limits : Limits} {depth : Nat} {first second : List WriteStep} :
    Writable limits depth (first ++ second) ↔
      Writable limits depth first ∧ Writable limits (depthAfterAll first depth) second := by
  constructor
  · rintro ⟨⟨chunks, described⟩, within⟩
    rcases chunksAll?_append_eq_some_iff.1 described with
      ⟨earlier, later, firstDescribed, secondDescribed, _⟩
    rcases limitFaultAll?_append_eq_none_iff.1 within with ⟨firstWithin, secondWithin⟩
    exact ⟨⟨⟨earlier, firstDescribed⟩, firstWithin⟩,
      ⟨⟨later, secondDescribed⟩, secondWithin⟩⟩
  · rintro ⟨⟨⟨earlier, firstDescribed⟩, firstWithin⟩, ⟨later, secondDescribed⟩, secondWithin⟩
    constructor
    · exact ⟨earlier ++ later, chunksAll?_append_eq_some_iff.2
        ⟨earlier, later, firstDescribed, secondDescribed, rfl⟩⟩
    · exact limitFaultAll?_append_eq_none_iff.2 ⟨firstWithin, secondWithin⟩

end WriteStep

namespace Value

open WriteStep

variable {limits : Limits} {depth : Nat}

theorem writable_leaving (limits : Limits) (depth : Nat) (kind : FrameKind) :
    Writable limits depth [leaving kind] :=
  ⟨⟨[], rfl⟩, rfl⟩

theorem writable_bracketed_iff {opening : Opening} {deployment : Option Deployment}
    {body : List WriteStep} (kind : FrameKind) :
    Writable limits depth (entering opening deployment :: body ++ [leaving kind]) ↔
      Writable limits depth [entering opening deployment] ∧ Writable limits (depth + 1) body := by
  have entered : depthAfterAll [entering opening deployment] depth = depth + 1 := rfl
  rw [List.cons_append, ← List.singleton_append, writable_append_iff, entered, writable_append_iff]
  simp only [writable_leaving, and_true]

theorem writable_itemSteps_iff {items : List Value} {deployment : Option Deployment} :
    Writable limits depth (itemSteps items deployment) ↔
      ∀ item ∈ items, Writable limits depth (item.steps deployment) := by
  induction items with
  | nil => simp [itemSteps, writable_nil]
  | cons item rest ih =>
      rw [itemSteps, writable_append_iff, (item.balanced_steps deployment).depthAfterAll_eq, ih,
        List.forall_mem_cons]

def EntryWritable (limits : Limits) (depth : Nat)
    (keyDeployment valueDeployment : Option Deployment) (entry : Value × Value) : Prop :=
  Writable limits depth [entering .mapEntry none] ∧
    Writable limits (depth + 1) (entry.1.steps keyDeployment) ∧
      Writable limits (depth + 1) (entry.2.steps valueDeployment)

theorem writable_entrySteps_iff {entries : List (Value × Value)}
    {keyDeployment valueDeployment : Option Deployment} :
    Writable limits depth (entrySteps entries keyDeployment valueDeployment) ↔
      ∀ entry ∈ entries, EntryWritable limits depth keyDeployment valueDeployment entry := by
  induction entries with
  | nil => simp [entrySteps, writable_nil]
  | cons entry rest ih =>
      have keyBalanced := entry.1.balanced_steps keyDeployment
      have bodyBalanced := keyBalanced.append (entry.2.balanced_steps valueDeployment)
      have entryBalanced : Balanced (entering .mapEntry none ::
          (entry.1.steps keyDeployment ++ entry.2.steps valueDeployment) ++ [leaving .mapEntry]) :=
        balanced_bracketed bodyBalanced
      rw [entrySteps_cons, writable_append_iff, entryBalanced.depthAfterAll_eq, ih,
        writable_bracketed_iff, writable_append_iff, keyBalanced.depthAfterAll_eq,
        List.forall_mem_cons, EntryWritable]

/-- The entries of maps rearranged, at any nesting. -/
inductive Rearranged : Value → Value → Prop where
  | leaf (value : Leaf) : Rearranged (.leaf value) (.leaf value)
  | sequence {items others : List Value} :
      items.length = others.length → (∀ pair ∈ items.zip others, Rearranged pair.1 pair.2) →
      Rearranged (.sequence items) (.sequence others)
  | map {entries middle others : List (Value × Value)} :
      entries.length = middle.length →
      (∀ pair ∈ entries.zip middle, Rearranged pair.1.1 pair.2.1) →
      (∀ pair ∈ entries.zip middle, Rearranged pair.1.2 pair.2.2) →
      middle.Perm others → Rearranged (.map entries) (.map others)
  | record {members others : List Value} :
      members.length = others.length → (∀ pair ∈ members.zip others, Rearranged pair.1 pair.2) →
      Rearranged (.record members) (.record others)
  | vacant : Rearranged .vacant .vacant
  | holding {index : Nat} {value other : Value} :
      Rearranged value other → Rearranged (.holding index value) (.holding index other)

/-- What holds of every left part holds of every right part, if it passes from each left part to the
right part beside it. -/
theorem forall_mem_of_zip {α β : Type} {leftHolds : α → Prop} {rightHolds : β → Prop}
    {lefts : List α} {rights : List β} (lengthEq : lefts.length = rights.length)
    (passes : ∀ pair ∈ lefts.zip rights, leftHolds pair.1 → rightHolds pair.2)
    (holds : ∀ left ∈ lefts, leftHolds left) : ∀ right ∈ rights, rightHolds right := by
  induction lefts generalizing rights with
  | nil =>
      cases rights with
      | nil => simp
      | cons right rights => cases lengthEq
  | cons left lefts ih =>
      cases rights with
      | nil => simp
      | cons right rights =>
          simp only [List.forall_mem_cons] at holds ⊢
          rcases List.forall_mem_cons.1 passes with ⟨firstPasses, restPasses⟩
          exact ⟨firstPasses holds.1, ih (Nat.succ.inj lengthEq) restPasses holds.2⟩

theorem writable_memberSteps_of_zip {members others : List Value}
    (lengthEq : members.length = others.length)
    (passes : ∀ pair ∈ members.zip others, ∀ {depth deployment},
      Writable limits depth (pair.1.steps deployment) →
        Writable limits depth (pair.2.steps deployment))
    {deployment : Option Deployment} {position : Nat}
    (writable : Writable limits depth (memberSteps members deployment position)) :
    Writable limits depth (memberSteps others deployment position) := by
  induction members generalizing others position with
  | nil =>
      cases others with
      | nil => exact writable
      | cons other others => cases lengthEq
  | cons member members ih =>
      cases others with
      | nil => cases lengthEq
      | cons other others =>
          rw [memberSteps, writable_append_iff, (member.balanced_steps _).depthAfterAll_eq]
            at writable
          rw [memberSteps, writable_append_iff, (other.balanced_steps _).depthAfterAll_eq]
          rcases List.forall_mem_cons.1 passes with ⟨firstPasses, restPasses⟩
          exact ⟨firstPasses writable.1, ih (Nat.succ.inj lengthEq) restPasses writable.2⟩

/-- A writable value stays writable when the entries of its maps are rearranged. -/
theorem Rearranged.writable {value other : Value} (rearranged : Rearranged value other) :
    ∀ {depth : Nat} {deployment : Option Deployment},
      Writable limits depth (value.steps deployment) →
        Writable limits depth (other.steps deployment) := by
  induction rearranged with
  | leaf value => exact id
  | sequence lengthEq _ ih =>
      intro depth deployment writable
      simp only [steps, writable_bracketed_iff, writable_itemSteps_iff] at writable
      rw [steps, writable_bracketed_iff, writable_itemSteps_iff, ← lengthEq]
      exact ⟨writable.1, forall_mem_of_zip lengthEq (fun pair pairMem => ih pair pairMem)
        writable.2⟩
  | map lengthEq _ _ permuted keys values =>
      intro depth deployment writable
      simp only [steps, writable_bracketed_iff, writable_entrySteps_iff] at writable
      rw [steps, writable_bracketed_iff, writable_entrySteps_iff, ← permuted.length_eq, ← lengthEq]
      refine ⟨writable.1, fun entry entryMem => ?_⟩
      refine forall_mem_of_zip lengthEq (fun pair pairMem => ?_) writable.2 entry
        (permuted.mem_iff.2 entryMem)
      rintro ⟨entered, keyWritable, valueWritable⟩
      exact ⟨entered, keys pair pairMem keyWritable, values pair pairMem valueWritable⟩
  | record lengthEq _ ih =>
      intro depth deployment writable
      simp only [steps, writable_bracketed_iff] at writable ⊢
      exact ⟨writable.1, writable_memberSteps_of_zip lengthEq ih writable.2⟩
  | vacant => exact id
  | holding _ ih =>
      intro depth deployment writable
      simp only [steps, writable_bracketed_iff] at writable ⊢
      exact ⟨writable.1, ih writable.2⟩

theorem mem_of_mem_zip_self {α : Type} {items : List α} {pair : α × α}
    (pairMem : pair ∈ items.zip items) : pair.1 ∈ items ∧ pair.1 = pair.2 := by
  induction items with
  | nil => cases pairMem
  | cons item rest ih =>
      rcases List.mem_cons.1 pairMem with rfl | pairMem
      · exact ⟨List.mem_cons_self .., rfl⟩
      · exact ⟨List.mem_cons_of_mem _ (ih pairMem).1, (ih pairMem).2⟩

theorem Rearranged.refl (value : Value) : Rearranged value value := by
  induction value with
  | leaf value => exact .leaf value
  | sequence items parts =>
      refine .sequence rfl ?_
      intro pair pairMem
      rcases mem_of_mem_zip_self pairMem with ⟨itemMem, same⟩
      exact same ▸ parts pair.1 itemMem
  | map entries keys values =>
      refine .map rfl (fun pair pairMem => ?_) (fun pair pairMem => ?_) (List.Perm.refl entries)
      · rcases mem_of_mem_zip_self pairMem with ⟨entryMem, same⟩
        exact same ▸ keys pair.1 entryMem
      · rcases mem_of_mem_zip_self pairMem with ⟨entryMem, same⟩
        exact same ▸ values pair.1 entryMem
  | record members parts =>
      refine .record rfl ?_
      intro pair pairMem
      rcases mem_of_mem_zip_self pairMem with ⟨memberMem, same⟩
      exact same ▸ parts pair.1 memberMem
  | vacant => exact .vacant
  | holding index value ih => exact .holding ih

end Value

end ValueBus
