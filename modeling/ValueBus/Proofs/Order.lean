import ValueBus.Schema.Typing

/-!
# The order of values

This file proves that `Value.order` is a linear order: turning a comparison round turns its answer
round, the order is transitive, and values that it does not tell apart are the same. Ordered maps
rely on it, since an entry is put before the first greater key.

Values of different constructors are ordered by constructor. Values of the same constructor are
compared part by part, so each law is proved by induction on the left value, and carried over to
lists of values by induction on the list.
-/

namespace ValueBus

namespace Value

/-- Induction on values: every part of a composite value satisfies the motive. -/
@[elab_as_elim, induction_eliminator]
theorem induction {motive : Value → Prop}
    (leaf : ∀ value, motive (.leaf value))
    (sequence : ∀ items, (∀ item ∈ items, motive item) → motive (.sequence items))
    (map : ∀ entries, (∀ entry ∈ entries, motive entry.1) →
      (∀ entry ∈ entries, motive entry.2) → motive (.map entries))
    (record : ∀ members, (∀ member ∈ members, motive member) → motive (.record members))
    (vacant : motive .vacant)
    (holding : ∀ index value, motive value → motive (.holding index value))
    (value : Value) : motive value := by
  refine @Value.rec motive (fun items => ∀ item ∈ items, motive item)
    (fun entries => ∀ entry ∈ entries, motive entry.1 ∧ motive entry.2)
    (fun entry => motive entry.1 ∧ motive entry.2)
    leaf sequence ?_ record vacant holding ?_ ?_ ?_ ?_ ?_ value
  · intro entries parts
    exact map entries (fun entry entryMem => (parts entry entryMem).1)
      (fun entry entryMem => (parts entry entryMem).2)
  · simp
  · intro head tail headHolds tailHolds item itemMem
    rcases List.mem_cons.1 itemMem with rfl | itemMem
    · exact headHolds
    · exact tailHolds item itemMem
  · simp
  · intro head tail headHolds tailHolds entry entryMem
    rcases List.mem_cons.1 entryMem with rfl | entryMem
    · exact headHolds
    · exact tailHolds entry entryMem
  · intro key value keyHolds valueHolds
    exact ⟨keyHolds, valueHolds⟩

end Value

namespace Number

theorem eq_of_toInt_eq {left right : Number} (sameKind : left.kind = right.kind)
    (same : left.toInt = right.toInt) : left = right := by
  cases left <;> cases right <;> first | contradiction | skip
  case int8.int8 => exact congrArg int8 (Int8.toInt_inj.1 same)
  case int16.int16 => exact congrArg int16 (Int16.toInt_inj.1 same)
  case int32.int32 => exact congrArg int32 (Int32.toInt_inj.1 same)
  case int64.int64 => exact congrArg int64 (Int64.toInt_inj.1 same)
  case uint8.uint8 => exact congrArg uint8 (UInt8.toNat_inj.1 (Int.ofNat_inj.1 same))
  case uint16.uint16 => exact congrArg uint16 (UInt16.toNat_inj.1 (Int.ofNat_inj.1 same))
  case uint32.uint32 => exact congrArg uint32 (UInt32.toNat_inj.1 (Int.ofNat_inj.1 same))
  case uint64.uint64 => exact congrArg uint64 (UInt64.toNat_inj.1 (Int.ofNat_inj.1 same))
  case float32.float32 => exact congrArg float32 (UInt32.toNat_inj.1 (Int.ofNat_inj.1 same))
  case float64.float64 => exact congrArg float64 (UInt64.toNat_inj.1 (Int.ofNat_inj.1 same))

theorem kind_eq_of_ctorIdx_eq {left right : NumberKind} (same : left.ctorIdx = right.ctorIdx) :
    left = right := by
  cases left <;> cases right <;> first | rfl | contradiction

theorem order_swap (left right : Number) : order right left = (order left right).swap := by
  simp only [order, Ordering.swap_then, ← Std.OrientedCmp.eq_swap]

theorem eq_of_order_eq {left right : Number} (same : order left right = .eq) : left = right := by
  simp only [order, Ordering.then_eq_eq] at same
  exact eq_of_toInt_eq (kind_eq_of_ctorIdx_eq (Std.LawfulEqCmp.eq_of_compare same.1))
    (Std.LawfulEqCmp.eq_of_compare same.2)

theorem order_lt_trans {left middle right : Number} (first : order left middle = .lt)
    (second : order middle right = .lt) : order left right = .lt := by
  simp only [order, Ordering.then_eq_lt, Nat.compare_eq_lt, Nat.compare_eq_eq,
    Int.compare_eq_lt] at *
  omega

end Number

/-- A comparison that looks at a rank first is transitive if it is among equal ranks. -/
theorem lt_trans_of_rank {α : Type} {cmp : α → α → Ordering} {rank : α → Nat}
    (byRank : ∀ left right, rank left ≠ rank right →
      cmp left right = compare (rank left) (rank right))
    {left middle right : α}
    (within : rank left = rank middle → rank middle = rank right → cmp left right = .lt)
    (first : cmp left middle = .lt) (second : cmp middle right = .lt) :
    cmp left right = .lt := by
  have rankLe {left right : α} (less : cmp left right = .lt) : rank left ≤ rank right := by
    by_cases same : rank left = rank right
    · exact Nat.le_of_eq same
    · rw [byRank left right same, Nat.compare_eq_lt] at less
      exact Nat.le_of_lt less
  have firstLe := rankLe first
  have secondLe := rankLe second
  by_cases same : rank left = rank right
  · exact within (by omega) (by omega)
  · rw [byRank left right same, Nat.compare_eq_lt]
    omega

namespace Leaf

theorem order_of_ne (left right : Leaf) (differ : left.ctorIdx ≠ right.ctorIdx) :
    order left right = compare left.ctorIdx right.ctorIdx := by
  cases left <;> cases right <;> first | rfl | exact absurd rfl differ

theorem order_swap (left right : Leaf) : order right left = (order left right).swap := by
  cases left <;> cases right
  case number.number left right => exact Number.order_swap left right
  case bool.bool left right =>
    exact (Std.OrientedCmp.eq_swap : compare right left = (compare left right).swap)
  case text.text left right =>
    exact (Std.OrientedCmp.eq_swap : compare right left = (compare left right).swap)
  case bytes.bytes left right =>
    exact (Std.OrientedCmp.eq_swap : compare right left = (compare left right).swap)
  all_goals rfl

theorem eq_of_order_eq {left right : Leaf} (same : order left right = .eq) : left = right := by
  cases left <;> cases right
  case number.number left right => exact congrArg number (Number.eq_of_order_eq same)
  case bool.bool left right =>
    have same : compare left right = .eq := same
    exact congrArg bool (Std.LawfulEqCmp.eq_of_compare same)
  case text.text left right =>
    have same : compare left right = .eq := same
    exact congrArg text (Std.LawfulEqCmp.eq_of_compare same)
  case bytes.bytes left right =>
    have same : compare left right = .eq := same
    exact congrArg bytes (Std.LawfulEqCmp.eq_of_compare same)
  all_goals cases same

theorem order_lt_trans {left middle right : Leaf} (first : order left middle = .lt)
    (second : order middle right = .lt) : order left right = .lt := by
  refine lt_trans_of_rank order_of_ne ?_ first second
  intro sameFirst sameSecond
  cases left with
  | bool left =>
      cases middle with
      | bool middle =>
          cases right with
          | bool right =>
              have first : compare left middle = .lt := first
              exact (Std.TransCmp.lt_trans first second : compare left right = .lt)
          | _ => cases sameSecond
      | _ => cases sameFirst
  | number left =>
      cases middle with
      | number middle =>
          cases right with
          | number right => exact Number.order_lt_trans first second
          | _ => cases sameSecond
      | _ => cases sameFirst
  | text left =>
      cases middle with
      | text middle =>
          cases right with
          | text right =>
              have first : compare left middle = .lt := first
              exact (Std.TransCmp.lt_trans first second : compare left right = .lt)
          | _ => cases sameSecond
      | _ => cases sameFirst
  | bytes left =>
      cases middle with
      | bytes middle =>
          cases right with
          | bytes right =>
              have first : compare left middle = .lt := first
              exact (Std.TransCmp.lt_trans first second : compare left right = .lt)
          | _ => cases sameSecond
      | _ => cases sameFirst

end Leaf

namespace Value

theorem order_of_ne (left right : Value) (differ : left.ctorIdx ≠ right.ctorIdx) :
    order left right = compare left.ctorIdx right.ctorIdx := by
  cases left <;> cases right <;> first | rfl | exact absurd rfl differ

theorem orderAll_swap {lefts : List Value}
    (parts : ∀ left ∈ lefts, ∀ right, order right left = (order left right).swap)
    (rights : List Value) : orderAll rights lefts = (orderAll lefts rights).swap := by
  induction lefts generalizing rights with
  | nil => cases rights <;> simp [orderAll]
  | cons left lefts ih =>
      cases rights with
      | nil => simp [orderAll]
      | cons right rights =>
          rcases List.forall_mem_cons.1 parts with ⟨head, tail⟩
          rw [orderAll, orderAll, head, ih tail, Ordering.swap_then]

theorem orderEntries_swap {lefts : List (Value × Value)}
    (keys : ∀ left ∈ lefts, ∀ right, order right left.1 = (order left.1 right).swap)
    (values : ∀ left ∈ lefts, ∀ right, order right left.2 = (order left.2 right).swap)
    (rights : List (Value × Value)) :
    orderEntries rights lefts = (orderEntries lefts rights).swap := by
  induction lefts generalizing rights with
  | nil => cases rights <;> simp [orderEntries]
  | cons left lefts ih =>
      cases rights with
      | nil => simp [orderEntries]
      | cons right rights =>
          rcases List.forall_mem_cons.1 keys with ⟨key, tailKeys⟩
          rcases List.forall_mem_cons.1 values with ⟨value, tailValues⟩
          rw [orderEntries, orderEntries, key, value, ih tailKeys tailValues,
            Ordering.swap_then, Ordering.swap_then]

/-- Comparing two values the other way round turns the answer round. -/
theorem order_swap (left right : Value) : order right left = (order left right).swap := by
  induction left generalizing right with
  | leaf left =>
      cases right with
      | leaf right => exact Leaf.order_swap left right
      | _ => rfl
  | sequence lefts parts =>
      cases right with
      | sequence rights => exact orderAll_swap parts rights
      | _ => rfl
  | map lefts keys values =>
      cases right with
      | map rights => exact orderEntries_swap keys values rights
      | _ => rfl
  | record lefts parts =>
      cases right with
      | record rights => exact orderAll_swap parts rights
      | _ => rfl
  | vacant => cases right <;> rfl
  | holding index left ih =>
      cases right with
      | holding other right =>
          have indices : compare other index = (compare index other).swap :=
            Std.OrientedCmp.eq_swap
          rw [order, order, ih right, indices, Ordering.swap_then]
      | _ => rfl

theorem eq_of_orderAll_eq {lefts : List Value}
    (parts : ∀ left ∈ lefts, ∀ right, order left right = .eq → left = right)
    {rights : List Value} (same : orderAll lefts rights = .eq) : lefts = rights := by
  induction lefts generalizing rights with
  | nil =>
      cases rights with
      | nil => rfl
      | cons right rights => cases same
  | cons left lefts ih =>
      cases rights with
      | nil => cases same
      | cons right rights =>
          simp only [orderAll, Ordering.then_eq_eq] at same
          rcases List.forall_mem_cons.1 parts with ⟨head, tail⟩
          rw [head right same.1, ih tail same.2]

theorem eq_of_orderEntries_eq {lefts : List (Value × Value)}
    (keys : ∀ left ∈ lefts, ∀ right, order left.1 right = .eq → left.1 = right)
    (values : ∀ left ∈ lefts, ∀ right, order left.2 right = .eq → left.2 = right)
    {rights : List (Value × Value)} (same : orderEntries lefts rights = .eq) :
    lefts = rights := by
  induction lefts generalizing rights with
  | nil =>
      cases rights with
      | nil => rfl
      | cons right rights => cases same
  | cons left lefts ih =>
      cases rights with
      | nil => cases same
      | cons right rights =>
          simp only [orderEntries, Ordering.then_eq_eq] at same
          rcases List.forall_mem_cons.1 keys with ⟨key, tailKeys⟩
          rcases List.forall_mem_cons.1 values with ⟨value, tailValues⟩
          have head : left = right := Prod.ext (key right.1 same.1.1) (value right.2 same.1.2)
          rw [head, ih tailKeys tailValues same.2]

/-- Values that the order does not tell apart are the same. -/
theorem eq_of_order_eq {left right : Value} (same : order left right = .eq) : left = right := by
  induction left generalizing right with
  | leaf left =>
      cases right with
      | leaf right => exact congrArg leaf (Leaf.eq_of_order_eq same)
      | _ => cases same
  | sequence lefts parts =>
      cases right with
      | sequence rights =>
          exact congrArg sequence
            (eq_of_orderAll_eq (fun left leftMem _ => parts left leftMem) same)
      | _ => cases same
  | map lefts keys values =>
      cases right with
      | map rights =>
          exact congrArg map (eq_of_orderEntries_eq (fun left leftMem _ => keys left leftMem)
            (fun left leftMem _ => values left leftMem) same)
      | _ => cases same
  | record lefts parts =>
      cases right with
      | record rights =>
          exact congrArg record
            (eq_of_orderAll_eq (fun left leftMem _ => parts left leftMem) same)
      | _ => cases same
  | vacant =>
      cases right with
      | vacant => rfl
      | _ => cases same
  | holding index left ih =>
      cases right with
      | holding other right =>
          simp only [order, Ordering.then_eq_eq, Nat.compare_eq_eq] at same
          rw [same.1, ih same.2]
      | _ => cases same

/-- Comparing first parts, and what is left only when they are the same, is transitive if both
comparisons are. -/
theorem then_lt_trans {left middle right : Value} {restFirst restSecond rest : Ordering}
    (trans : order left middle = .lt → order middle right = .lt → order left right = .lt)
    (restTrans : restFirst = .lt → restSecond = .lt → rest = .lt)
    (first : (order left middle).then restFirst = .lt)
    (second : (order middle right).then restSecond = .lt) :
    (order left right).then rest = .lt := by
  simp only [Ordering.then_eq_lt] at first second ⊢
  rcases first with first | ⟨first, firstRest⟩ <;>
    rcases second with second | ⟨second, secondRest⟩
  · exact Or.inl (trans first second)
  · rw [← eq_of_order_eq second]
    exact Or.inl first
  · rw [eq_of_order_eq first]
    exact Or.inl second
  · rw [eq_of_order_eq first]
    exact Or.inr ⟨second, restTrans firstRest secondRest⟩

theorem orderAll_lt_trans {lefts : List Value}
    (parts : ∀ left ∈ lefts, ∀ {middle right}, order left middle = .lt →
      order middle right = .lt → order left right = .lt)
    {middles rights : List Value} (first : orderAll lefts middles = .lt)
    (second : orderAll middles rights = .lt) : orderAll lefts rights = .lt := by
  induction lefts generalizing middles rights with
  | nil =>
      cases rights with
      | nil => cases middles <;> cases second
      | cons right rights => rfl
  | cons left lefts ih =>
      cases middles with
      | nil => cases first
      | cons middle middles =>
          cases rights with
          | nil => cases second
          | cons right rights =>
              rcases List.forall_mem_cons.1 parts with ⟨head, tail⟩
              exact then_lt_trans head (ih tail) first second

theorem orderEntries_lt_trans {lefts : List (Value × Value)}
    (keys : ∀ left ∈ lefts, ∀ {middle right}, order left.1 middle = .lt →
      order middle right = .lt → order left.1 right = .lt)
    (values : ∀ left ∈ lefts, ∀ {middle right}, order left.2 middle = .lt →
      order middle right = .lt → order left.2 right = .lt)
    {middles rights : List (Value × Value)} (first : orderEntries lefts middles = .lt)
    (second : orderEntries middles rights = .lt) : orderEntries lefts rights = .lt := by
  induction lefts generalizing middles rights with
  | nil =>
      cases rights with
      | nil => cases middles <;> cases second
      | cons right rights => rfl
  | cons left lefts ih =>
      cases middles with
      | nil => cases first
      | cons middle middles =>
          cases rights with
          | nil => cases second
          | cons right rights =>
              rcases List.forall_mem_cons.1 keys with ⟨key, tailKeys⟩
              rcases List.forall_mem_cons.1 values with ⟨value, tailValues⟩
              simp only [orderEntries, Ordering.then_assoc] at first second ⊢
              refine then_lt_trans key ?_ first second
              exact then_lt_trans value (ih tailKeys tailValues)

/-- What is below a value that is below another is below the other. -/
theorem order_lt_trans {left middle right : Value} (first : order left middle = .lt)
    (second : order middle right = .lt) : order left right = .lt := by
  induction left generalizing middle right with
  | leaf left =>
      refine lt_trans_of_rank order_of_ne ?_ first second
      intro sameFirst sameSecond
      cases middle with
      | leaf middle =>
          cases right with
          | leaf right => exact Leaf.order_lt_trans first second
          | _ => cases sameSecond
      | _ => cases sameFirst
  | sequence lefts parts =>
      refine lt_trans_of_rank order_of_ne ?_ first second
      intro sameFirst sameSecond
      cases middle with
      | sequence middles =>
          cases right with
          | sequence rights => exact orderAll_lt_trans parts first second
          | _ => cases sameSecond
      | _ => cases sameFirst
  | map lefts keys values =>
      refine lt_trans_of_rank order_of_ne ?_ first second
      intro sameFirst sameSecond
      cases middle with
      | map middles =>
          cases right with
          | map rights => exact orderEntries_lt_trans keys values first second
          | _ => cases sameSecond
      | _ => cases sameFirst
  | record lefts parts =>
      refine lt_trans_of_rank order_of_ne ?_ first second
      intro sameFirst sameSecond
      cases middle with
      | record middles =>
          cases right with
          | record rights => exact orderAll_lt_trans parts first second
          | _ => cases sameSecond
      | _ => cases sameFirst
  | vacant =>
      refine lt_trans_of_rank order_of_ne ?_ first second
      intro sameFirst sameSecond
      cases middle with
      | vacant => cases first
      | _ => cases sameFirst
  | holding index left ih =>
      refine lt_trans_of_rank order_of_ne ?_ first second
      intro sameFirst sameSecond
      cases middle with
      | holding other middle =>
          cases right with
          | holding another right =>
              simp only [order, Ordering.then_eq_lt, Nat.compare_eq_lt, Nat.compare_eq_eq] at *
              rcases first with first | ⟨rfl, first⟩ <;> rcases second with second | ⟨rfl, second⟩
              · exact Or.inl (Nat.lt_trans first second)
              · exact Or.inl first
              · exact Or.inl second
              · exact Or.inr ⟨rfl, ih first second⟩
          | _ => cases sameSecond
      | _ => cases sameFirst

end Value

end ValueBus
