import Mathlib.Data.List.Nodup
import ValueBus.Proofs.Answering
import ValueBus.Schema.Typing

/-!
# Records inside one another

The program of a type is given an allowance of declared types that may be entered inside one
another. On a recording stream the tokens bound the variants, sequences and maps that are entered,
as each of them takes a token. Records and tuples take none, so it remains to bound the records that
are entered between two tokens. They all have different names: a record that leads back to itself
without a token in between would be a part of itself, and no value is.
-/

namespace ValueBus

namespace Schema

variable {schema : Schema}

/-- Every value of one type has a value of the other as a proper part. -/
def Contains (schema : Schema) (whole part : DataType) : Prop :=
  ∀ value, schema.HasType whole value →
    ∃ member, schema.HasType part member ∧ sizeOf member < sizeOf value

namespace Contains

variable {whole middle part : DataType}

theorem trans (first : schema.Contains whole middle) (second : schema.Contains middle part) :
    schema.Contains whole part := by
  intro value typed
  rcases first value typed with ⟨inner, innerTyped, innerSmaller⟩
  rcases second inner innerTyped with ⟨member, memberTyped, memberSmaller⟩
  exact ⟨member, memberTyped, Nat.lt_trans memberSmaller innerSmaller⟩

theorem of_boxed (contains : schema.Contains whole (.boxed part)) :
    schema.Contains whole part := by
  intro value typed
  rcases contains value typed with ⟨member, memberTyped, smaller⟩
  cases memberTyped with
  | boxed contentTyped => exact ⟨member, contentTyped, smaller⟩

/-- The positions of a struct are the same in all values of its type. -/
theorem exists_member {types : List DataType} {members : List Value}
    (lengthEq : types.length = members.length) (partMem : part ∈ types) :
    ∃ member, (part, member) ∈ types.zip members ∧
      sizeOf member < sizeOf (Value.record members) := by
  rcases List.getElem_of_mem partMem with ⟨position, inTypes, rfl⟩
  have inMembers : position < members.length := lengthEq ▸ inTypes
  have inZip : position < (types.zip members).length := by
    rw [List.length_zip]
    exact Nat.lt_min.2 ⟨inTypes, inMembers⟩
  refine ⟨members[position], ?_, ?_⟩
  · have pairMem := List.getElem_mem inZip
    rwa [List.getElem_zip] at pairMem
  · have smaller := List.sizeOf_lt_of_mem (List.getElem_mem inMembers)
    simp only [Value.record.sizeOf_spec]
    omega

theorem tuple {types : List DataType} (partMem : part ∈ types) :
    schema.Contains (.tuple types) part := by
  intro value typed
  cases typed with
  | tuple lengthEq membersTyped =>
      rcases exists_member lengthEq partMem with ⟨member, pairMem, smaller⟩
      exact ⟨member, membersTyped _ pairMem, smaller⟩

theorem record {name : String} {field : Member} (fieldMem : field ∈ schema.fields name) :
    schema.Contains (.declared (.record name)) field.type := by
  intro value typed
  cases typed with
  | @record _ members lengthEq membersTyped =>
      have typesLength : ((schema.fields name).map Member.type).length = members.length := by
        simp [lengthEq]
      rcases exists_member typesLength (List.mem_map_of_mem fieldMem) with
        ⟨member, pairMem, smaller⟩
      rw [List.zip_map_left] at pairMem
      rcases List.mem_map.1 pairMem with ⟨pair, inZip, pairEq⟩
      rcases Prod.mk.inj pairEq with ⟨typeEq, rfl⟩
      exact ⟨pair.2, typeEq ▸ membersTyped pair inZip, smaller⟩

/-- No value is a proper part of itself. -/
theorem irrefl {type : DataType} {value : Value} (typed : schema.HasType type value) :
    ¬ schema.Contains type type := by
  intro contains
  induction size : sizeOf value using Nat.strongRecOn generalizing value with
  | ind size ih =>
      -- The part has the same type and is smaller, so it has such a part again.
      subst size
      rcases contains value typed with ⟨member, memberTyped, smaller⟩
      exact ih (sizeOf member) smaller memberTyped rfl

end Contains

/-- The records that are entered around a value of a type since the last token. -/
structure Chain (schema : Schema) (names : List String) (type : DataType) : Prop where
  nodup : names.Nodup
  declared : names ⊆ schema.records.map Prod.fst
  contains : ∀ name ∈ names, schema.Contains (.declared (.record name)) type

namespace Chain

variable {names : List String}

theorem nil (type : DataType) : schema.Chain [] type :=
  ⟨List.nodup_nil, List.nil_subset _, by simp⟩

theorem boxed {content : DataType} (chain : schema.Chain names (.boxed content)) :
    schema.Chain names content :=
  ⟨chain.nodup, chain.declared, fun name nameMem => (chain.contains name nameMem).of_boxed⟩

theorem tuple {types : List DataType} {part : DataType} (chain : schema.Chain names (.tuple types))
    (partMem : part ∈ types) : schema.Chain names part := by
  refine ⟨chain.nodup, chain.declared, ?_⟩
  intro name nameMem
  exact (chain.contains name nameMem).trans (.tuple partMem)

theorem mem_records {name : String} {field : Member} (fieldMem : field ∈ schema.fields name) :
    name ∈ schema.records.map Prod.fst := by
  unfold Schema.fields at fieldMem
  cases found : schema.records.lookup name with
  | none => simp [found] at fieldMem
  | some fields =>
      rcases List.lookup_eq_some_iff.1 found with ⟨before, after, recordsEq, _⟩
      simp [recordsEq]

/-- A record that is entered is none of those around it. -/
theorem record {name : String} {field : Member} {value : Value}
    (chain : schema.Chain names (.declared (.record name)))
    (typed : schema.HasType (.declared (.record name)) value)
    (fieldMem : field ∈ schema.fields name) : schema.Chain (name :: names) field.type := by
  have fresh : name ∉ names := by
    intro nameMem
    exact Contains.irrefl typed (chain.contains name nameMem)
  refine ⟨List.nodup_cons.2 ⟨fresh, chain.nodup⟩, ?_, ?_⟩
  · exact List.cons_subset.2 ⟨mem_records fieldMem, chain.declared⟩
  · intro outer outerMem
    rcases List.mem_cons.1 outerMem with rfl | outerMem
    · exact .record fieldMem
    · exact (chain.contains outer outerMem).trans (.record fieldMem)

theorem length_le {type : DataType} (chain : schema.Chain names type) :
    names.length ≤ schema.records.length := by
  have bounded := chain.nodup.length_le_of_subset chain.declared
  rwa [List.length_map] at bounded

end Chain

/-- An allowance suffices for a script inside the records entered since the last token: it can be
used up by these, by one variant and all records for every token, and by the records after the
last. -/
def Allows (schema : Schema) (allowance : Nat) (names : List String)
    (script : List Exchange) : Prop :=
  ((tokensOf script).length + 1) * (schema.records.length + 2) ≤ allowance + names.length

namespace Allows

variable {allowance : Nat} {names : List String} {script inner : List Exchange}

theorem initial (schema : Schema) (script : List Exchange) :
    schema.Allows (((tokensOf script).length + 1) * (schema.records.length + 2)) [] script :=
  Nat.le_refl _

theorem of_sublist (allows : schema.Allows allowance names script)
    (part : inner.Sublist script) : schema.Allows allowance names inner := by
  have fewer : (tokensOf inner).length ≤ (tokensOf script).length :=
    (part.filterMap Exchange.token).length_le
  have less := Nat.mul_le_mul_right (schema.records.length + 2) (Nat.succ_le_succ fewer)
  exact Nat.le_trans less allows

/-- Something is left of the allowance wherever a declared type is entered. -/
theorem exists_succ {type : DataType} (allows : schema.Allows allowance names script)
    (chain : schema.Chain names type) : ∃ left, allowance = left + 1 := by
  have bounded := chain.length_le
  have least : schema.records.length + 2 ≤
      ((tokensOf script).length + 1) * (schema.records.length + 2) :=
    Nat.le_mul_of_pos_left _ (Nat.succ_pos _)
  have enough : schema.records.length + 2 ≤ allowance + names.length := Nat.le_trans least allows
  exact ⟨allowance - 1, by omega⟩

/-- A record counts against the allowance, but not more than once. -/
theorem record (allows : schema.Allows (allowance + 1) names script) (name : String) :
    schema.Allows allowance (name :: names) script := by
  unfold Allows at allows ⊢
  rw [List.length_cons]
  omega

/-- After a token the records around it may be forgotten, and a variant if that took the token. -/
theorem restart {type : DataType} {left : Nat} {exchange : Exchange} {token : Answer}
    (allows : schema.Allows allowance names script) (chain : schema.Chain names type)
    (used : allowance ≤ left + 1) (takes : exchange.token = some token)
    (part : (exchange :: inner).Sublist script) : schema.Allows left [] inner := by
  -- The token pays for all the records that may be around it and for one declared type more.
  have bounded := chain.length_le
  have fewer := (part.filterMap Exchange.token).length_le
  rw [List.filterMap_cons_some takes] at fewer
  have less : ((tokensOf inner).length + 1) * (schema.records.length + 2) ≤
      (tokensOf script).length * (schema.records.length + 2) := Nat.mul_le_mul_right _ fewer
  unfold Allows at allows ⊢
  rw [Nat.succ_mul] at allows
  simp only [List.length_nil]
  omega

end Allows

end Schema

end ValueBus
