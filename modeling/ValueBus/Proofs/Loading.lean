import ValueBus.Limits.Loader
import ValueBus.Proofs.Utf8

/-!
# Loaded limits

What a loader makes of a document is decided by the entries that the reader of documents finds,
whatever that reader is. Limits are loaded if each bound is given at most once, each as a number,
and none is zero; what the document leaves out has its default. A failure names what is at fault: a
bound that is reported to be zero was given as zero.
-/

namespace ValueBus.Limits

variable {entries? : EntryReader} {text : String} {limits start : Limits}

theorem ext_get {left right : Limits} (same : ∀ field, left.get field = right.get field) :
    left = right := by
  have depths := same .depth
  have strings := same .stringLength
  have sequences := same .sequenceLength
  simp only [get] at depths strings sequences
  cases left
  cases right
  simp_all

theorem get_set (limits : Limits) (field other : LimitField) (bound : Nat) :
    (limits.set field bound).get other = if other = field then bound else limits.get other := by
  cases field <;> cases other <;> rfl

theorem mem_fields (field : LimitField) : field ∈ fields := by
  cases field <;> decide

/-! ## Validation -/

theorem validate_eq_ok_iff : limits.validate = .ok () ↔ ∀ field, limits.get field ≠ 0 := by
  unfold validate
  constructor
  · intro valid field
    cases found : fields.find? (limits.get · = 0) with
    | some zero => simp [found] at valid
    | none => simpa using List.find?_eq_none.1 found field (mem_fields field)
  · intro nonzero
    have unfound : fields.find? (limits.get · = 0) = none := by simp [nonzero]
    rw [unfound]

theorem get_of_validate_eq_error {field : LimitField}
    (refused : limits.validate = .error (.zeroLimit field)) : limits.get field = 0 := by
  unfold validate at refused
  cases found : fields.find? (limits.get · = 0) with
  | none => simp [found] at refused
  | some zero =>
      simp only [found, Except.error.injEq, ConfigFault.zeroLimit.injEq] at refused
      subst refused
      simpa using List.find?_some found

theorem get_default_ne_zero (field : LimitField) : ({} : Limits).get field ≠ 0 := by
  cases field <;> decide

/-! ## Entries -/

/-- The limits are those that entries describe, on top of others. -/
structure Described (known : List (LimitField × Option Nat)) (start limits : Limits) : Prop where
  once : (known.map (·.1)).Nodup
  numbers : ∀ field, (field, none) ∉ known
  get_eq : ∀ field, limits.get field = (known.lookup field).join.getD (start.get field)

namespace Described

variable {known : List (LimitField × Option Nat)} {field : LimitField} {bound : Nat}

theorem nil_iff : Described [] start limits ↔ start = limits := by
  constructor
  · intro described
    apply ext_get
    intro field
    rw [described.get_eq]
    rfl
  · rintro rfl
    exact ⟨List.nodup_nil, fun _ => List.not_mem_nil, fun _ => rfl⟩

theorem cons_iff (fresh : field ∉ known.map (·.1)) :
    Described ((field, some bound) :: known) start limits ↔
      Described known (start.set field bound) limits := by
  have unlisted : known.lookup field = none := by
    rw [List.lookup_eq_none_iff]
    intro entry entryMem
    rw [bne_iff_ne]
    rintro rfl
    exact fresh (List.mem_map_of_mem entryMem)
  have looked (other : LimitField) :
      (((field, some bound) :: known).lookup other).join.getD (start.get other) =
        (known.lookup other).join.getD ((start.set field bound).get other) := by
    rw [List.lookup_cons, get_set]
    by_cases same : other = field
    · subst same
      simp [unlisted]
    · simp [same, beq_false_of_ne same]
  constructor
  · rintro ⟨once, numbers, getEq⟩
    refine ⟨(List.nodup_cons.1 once).2, ?_, ?_⟩
    · intro other otherMem
      exact numbers other (List.mem_cons_of_mem _ otherMem)
    · intro other
      rw [getEq, looked]
  · rintro ⟨once, numbers, getEq⟩
    refine ⟨List.nodup_cons.2 ⟨fresh, once⟩, ?_, ?_⟩
    · intro other
      simpa using numbers other
    · intro other
      rw [getEq, looked]

/-- A bound other than before is the number of an entry. -/
theorem mem_of_get_ne (described : Described known start limits) {field : LimitField}
    (changed : limits.get field ≠ start.get field) : (field, some (limits.get field)) ∈ known := by
  have boundEq := described.get_eq field
  cases looked : (known.lookup field).join with
  | none =>
      rw [looked, Option.getD_none] at boundEq
      exact (changed boundEq).elim
  | some bound =>
      rw [looked, Option.getD_some] at boundEq
      rcases List.lookup_eq_some_iff.1 (Option.join_eq_some_iff.1 looked) with ⟨_, _, split, _⟩
      rw [split, boundEq]
      exact List.mem_append_right _ List.mem_cons_self

end Described

theorem setBounds_eq_some_iff {known : List (LimitField × Option Nat)} :
    setBounds known start = some limits ↔ Described known start limits := by
  induction known generalizing start with
  | nil => rw [Described.nil_iff, setBounds, Option.some.injEq]
  | cons entry rest ih =>
      rcases entry with ⟨field, number⟩
      rw [setBounds]
      by_cases twice : field ∈ rest.map (·.1)
      · rw [if_pos twice]
        constructor
        · intro failed
          cases failed
        · intro described
          exact ((List.nodup_cons.1 described.once).1 twice).elim
      · rw [if_neg twice]
        cases number with
        | none =>
            constructor
            · intro failed
              cases failed
            · intro described
              exact (described.numbers field List.mem_cons_self).elim
        | some bound => rw [Option.bind_some, ih, Described.cons_iff twice]

/-! ## Documents -/

theorem ofDocument_of_some
    (set : ((entries? text).bind fun entries => setBounds (bounds entries) {}) = some limits) :
    ofDocument entries? text = limits.validate.map fun _ => limits := by
  unfold ofDocument
  rw [set]
  dsimp only
  cases limits.validate <;> rfl

theorem ofDocument_of_none
    (unset : ((entries? text).bind fun entries => setBounds (bounds entries) {}) = none) :
    ofDocument entries? text = .error .malformed := by
  unfold ofDocument
  rw [unset]

/-- Limits are loaded from a document exactly if its entries describe them and none is zero. -/
theorem ofDocument_eq_ok_iff :
    ofDocument entries? text = .ok limits ↔
      ∃ entries, entries? text = some entries ∧ Described (bounds entries) {} limits ∧
        ∀ field, limits.get field ≠ 0 := by
  simp only [← setBounds_eq_some_iff, ← validate_eq_ok_iff, ← and_assoc, exists_and_right,
    ← Option.bind_eq_some_iff]
  cases set : (entries? text).bind fun entries => setBounds (bounds entries) {} with
  | none => simp [ofDocument_of_none set]
  | some loaded =>
      rw [ofDocument_of_some set, Option.some.injEq]
      constructor
      · intro succeeded
        cases valid : loaded.validate with
        | error fault => simp [valid, Except.map] at succeeded
        | ok _ =>
            simp only [valid, Except.map, Except.ok.injEq] at succeeded
            exact ⟨succeeded, succeeded ▸ valid⟩
      · rintro ⟨rfl, valid⟩
        rw [valid]
        rfl

/-- A bound that is reported to be zero is given as zero: no default is. -/
theorem mem_bounds_of_ofDocument {field : LimitField}
    (refused : ofDocument entries? text = .error (.zeroLimit field)) :
    ∃ entries, entries? text = some entries ∧ (field, some 0) ∈ bounds entries := by
  cases set : (entries? text).bind fun entries => setBounds (bounds entries) {} with
  | none => simp [ofDocument_of_none set] at refused
  | some loaded =>
      rcases Option.bind_eq_some_iff.1 set with ⟨entries, read, known⟩
      have described := setBounds_eq_some_iff.1 known
      rw [ofDocument_of_some set] at refused
      cases invalid : loaded.validate with
      | ok _ => simp [invalid, Except.map] at refused
      | error fault =>
          simp only [invalid, Except.map, Except.error.injEq] at refused
          subst refused
          have zero := get_of_validate_eq_error invalid
          have entered := described.mem_of_get_ne (zero ▸ (get_default_ne_zero field).symm)
          rw [zero] at entered
          exact ⟨entries, read, entered⟩

/-- Limits are loaded from a file exactly if they are loaded from the text that its bytes spell. -/
theorem ofFile_eq_ok_iff {path : String} {file : Option (List UInt8)} :
    ofFile entries? path file = .ok limits ↔
      ∃ text, file = some (Utf8.encode text) ∧ ofDocument entries? text = .ok limits := by
  constructor
  · intro loaded
    cases file with
    | none => cases loaded
    | some bytes =>
        cases decoded : Utf8.decode bytes with
        | error fault => simp [ofFile, decoded] at loaded
        | ok text =>
            simp only [ofFile, decoded] at loaded
            exact ⟨text, congrArg some (Utf8.encode_of_decode decoded).symm, loaded⟩
  · rintro ⟨text, rfl, loaded⟩
    simp only [ofFile, Utf8.decode_encode, loaded]

end ValueBus.Limits
