import ValueBus.Proofs.Displacement
import ValueBus.Proofs.RoundTrip
import ValueBus.Proofs.Widths

/-!
# The documented layout

The documentation describes a value by the items that stand for it on the wire, each a run of bytes
with an alignment. This file states that description on its own, as a function of the value and its
deployment, and says what it is to lay items out: each goes to the least multiple of its alignment
that is left, and zeros fill the gap before it. Encoded bytes are laid out so, and nothing else is.

The chunks that a writer puts are the items, so that the description is followed step by step. That
chunks stand at least multiples is where the alignments of the format, the divisors of 8, come in.
-/

namespace ValueBus

open Deployment (childOf selectedWidth)
open WriteStep

namespace LittleEndian

/-- The lowest digits of a number to the base 256, the one for the units first. -/
def places (width number : Nat) : List UInt8 :=
  (List.range width).map fun place => UInt8.ofNat (number / 256 ^ place)

theorem bytes_eq_places (width number : Nat) : bytes width number = places width number := by
  induction width generalizing number with
  | zero => rfl
  | succ width ih =>
      have shifted (place : Nat) : number / 256 / 256 ^ place = number / 256 ^ (place + 1) := by
        rw [Nat.div_div_eq_div_mul, Nat.pow_succ']
      simp [bytes, ih, places, List.range_succ_eq_map, shifted]

end LittleEndian

/-- A run of bytes of the description, with its alignment. -/
structure WireItem where
  alignment : Nat
  bytes : List UInt8

namespace WireItem

def scalar (width number : Nat) : WireItem :=
  ⟨width, LittleEndian.places width number⟩

def lengthField (length : Nat) (deployment : Option Deployment) : WireItem :=
  scalar (selectedWidth deployment).toInt.toNat length

def raw (run : List UInt8) : WireItem :=
  ⟨1, run⟩

def structStart : WireItem :=
  ⟨8, []⟩

end WireItem

open WireItem

/-- The items of a leaf. The length of a text counts its terminator. -/
def Leaf.wireItems : Leaf → Option Deployment → List WireItem
  | .bool value, _ => [raw [if value then 1 else 0]]
  | .number value, _ => [scalar value.kind.size value.bits]
  | .text value, deployment =>
      [lengthField ((Utf8.encode value).length + 1) deployment, raw (Utf8.encode value ++ [0])]
  | .bytes value, deployment => [lengthField value.length deployment, raw value]

namespace Value

mutual

/-- The items of a value in the order in which it is traversed. -/
def wireItems : Value → Option Deployment → List WireItem
  | .leaf value, deployment => value.wireItems deployment
  | .sequence items, deployment =>
      lengthField items.length deployment :: itemsWire items (childOf deployment 0)
  | .map entries, deployment =>
      lengthField entries.length deployment ::
        entriesWire entries (childOf deployment 0) (childOf deployment 1)
  | .record members, deployment => structStart :: membersWire members deployment 0
  | .vacant, _ => []
  | .holding index value, deployment =>
      raw [UInt8.ofNat index] :: wireItems value (childOf deployment index)

def itemsWire : List Value → Option Deployment → List WireItem
  | [], _ => []
  | item :: rest, deployment => wireItems item deployment ++ itemsWire rest deployment

def entriesWire :
    List (Value × Value) → Option Deployment → Option Deployment → List WireItem
  | [], _, _ => []
  | (key, value) :: rest, keyDeployment, valueDeployment =>
      wireItems key keyDeployment ++ wireItems value valueDeployment ++
        entriesWire rest keyDeployment valueDeployment

def membersWire : List Value → Option Deployment → Nat → List WireItem
  | [], _, _ => []
  | member :: rest, deployment, position =>
      wireItems member (childOf deployment position) ++
        membersWire rest deployment (position + 1)

end

end Value

/-- Bytes in which items are laid out from an offset on: each at the least multiple of its alignment
that is not below the offset, behind zeros and nothing else. -/
inductive LaidOut : Nat → List WireItem → List UInt8 → Prop where
  | nil {offset : Nat} : LaidOut offset [] []
  | cons {offset start : Nat} {item : WireItem} {rest : List WireItem} {later : List UInt8} :
      IsLeast {position | offset ≤ position ∧ item.alignment ∣ position} start →
      LaidOut (start + item.bytes.length) rest later →
      LaidOut offset (item :: rest)
        (List.replicate (start - offset) 0 ++ item.bytes ++ later)

namespace LaidOut

variable {offset : Nat} {items : List WireItem} {bytes : List UInt8}

/-- There is one way at most to lay items out. -/
theorem unique (laid : LaidOut offset items bytes) {others : List UInt8}
    (alsoLaid : LaidOut offset items others) : bytes = others := by
  induction laid generalizing others with
  | nil =>
      cases alsoLaid
      rfl
  | cons least _ ih =>
      cases alsoLaid with
      | cons alsoLeast restLaid =>
          cases least.unique alsoLeast
          rw [ih restLaid]

theorem append_iff {first second : List WireItem} :
    LaidOut offset (first ++ second) bytes ↔
      ∃ earlier later, LaidOut offset first earlier ∧
        LaidOut (offset + earlier.length) second later ∧ earlier ++ later = bytes := by
  constructor
  · intro laid
    induction first generalizing offset bytes with
    | nil => exact ⟨[], bytes, .nil, laid, rfl⟩
    | cons item rest ih =>
        cases laid with
        | @cons _ start _ _ later least restLaid =>
            rcases ih restLaid with ⟨inner, last, innerLaid, lastLaid, rfl⟩
            have moved : offset + (List.replicate (start - offset) (0 : UInt8) ++ item.bytes ++
                inner).length = start + item.bytes.length + inner.length := by
              have behind : offset ≤ start := least.1.1
              simp
              omega
            refine ⟨_, last, .cons least innerLaid, ?_, ?_⟩
            · rwa [moved]
            · simp
  · rintro ⟨earlier, later, firstLaid, secondLaid, rfl⟩
    induction firstLaid with
    | nil => exact secondLaid
    | @cons offset start item rest inner least _ ih =>
        have moved : offset + (List.replicate (start - offset) (0 : UInt8) ++ item.bytes ++
            inner).length = start + item.bytes.length + inner.length := by
          have behind : offset ≤ start := least.1.1
          simp
          omega
        rw [moved] at secondLaid
        rw [List.append_assoc]
        exact .cons least (ih secondLaid)

end LaidOut

/-- A least multiple is nearer than the next. -/
theorem lt_of_isLeast {offset alignment start : Nat} (positive : 0 < alignment)
    (least : IsLeast {position | offset ≤ position ∧ alignment ∣ position} start) :
    start < offset + alignment := by
  rcases least with ⟨⟨_, multiple⟩, lower⟩
  by_contra far
  have room : offset + alignment ≤ start := Nat.le_of_not_lt far
  have nearer := lower ⟨Nat.le_sub_of_add_le room, Nat.dvd_sub multiple (Nat.dvd_refl _)⟩
  omega

namespace Chunk

def item (chunk : Chunk) : WireItem :=
  ⟨chunk.alignment, chunk.run⟩

/-- Zeros in the padding lay the items of chunks out. -/
theorem laidOut_cellsAll {chunks : List Chunk} (natural : ∀ chunk ∈ chunks, chunk.Natural)
    (offset : Nat) :
    LaidOut offset (chunks.map item) ((cellsAll chunks offset).map (·.getD 0)) := by
  induction chunks generalizing offset with
  | nil => exact .nil
  | cons chunk rest ih =>
      rcases List.forall_mem_cons.1 natural with ⟨chunkNatural, restNatural⟩
      have filled : (cellsAll (chunk :: rest) offset).map (·.getD 0) =
          List.replicate (chunk.start offset - offset) 0 ++ chunk.run ++
            (cellsAll rest (chunk.start offset + chunk.run.length)).map (·.getD 0) := by
        simp [cellsAll, cells, Function.comp_def]
      rw [filled]
      exact .cons (chunkNatural.isLeast_start offset) (ih restNatural _)

theorem item_length? {length : Nat} {deployment : Option Deployment} {chunk : Chunk}
    (described : length? length deployment = some chunk) :
    chunk.item = lengthField length deployment := by
  have widthEq {width : LengthWidth} (selected : LengthWidth.ofDeployment deployment = .ok width) :
      (selectedWidth deployment).toInt.toNat = width.size := by
    unfold LengthWidth.ofDeployment at selected
    unfold selectedWidth
    cases hint : deployment.bind (·.integerHint? Deployment.lengthWidthHint) with
    | none =>
        simp only [hint] at selected
        cases selected
        rfl
    | some asked =>
        simp only [hint] at selected
        split_ifs at selected with one two four <;> cases selected
        · rw [one]; rfl
        · rw [two]; rfl
        · rw [four]; rfl
  unfold length? at described
  cases selected : LengthWidth.ofDeployment deployment with
  | error fault => simp [selected] at described
  | ok width =>
      simp only [selected, Option.ite_none_right_eq_some, Option.some.injEq] at described
      rw [← described.2, lengthField, widthEq selected, scalar, ← LittleEndian.bytes_eq_places]
      rfl

end Chunk

/-- Steps whose chunks, if they have any, are the given items. -/
def WriteStep.Itemized (steps : List WriteStep) (items : List WireItem) : Prop :=
  ∀ chunks, chunksAll? steps = some chunks → chunks.map Chunk.item = items

namespace WriteStep.Itemized

theorem nil : Itemized [] [] := by
  intro chunks described
  cases described
  rfl

theorem append {first second : List WriteStep} {earlier later : List WireItem}
    (firsts : Itemized first earlier) (seconds : Itemized second later) :
    Itemized (first ++ second) (earlier ++ later) := by
  intro chunks described
  rcases chunksAll?_append_eq_some_iff.1 described with
    ⟨front, back, firstDescribed, secondDescribed, rfl⟩
  rw [List.map_append, firsts front firstDescribed, seconds back secondDescribed]

theorem call {call : WriteCall} {items : List WireItem}
    (itemized : ∀ chunks, call.chunks? = some chunks → chunks.map Chunk.item = items) :
    Itemized [.call call] items := by
  intro chunks described
  rcases chunksAll?_cons_eq_some_iff.1 described with ⟨first, later, firstDescribed, rest, rfl⟩
  cases rest
  rw [List.append_nil]
  exact itemized first firstDescribed

theorem bracket {opening : Opening} {deployment : Option Deployment} {kind : FrameKind}
    {body : List WriteStep} {announced items : List WireItem}
    (opened : Itemized [Value.entering opening deployment] announced)
    (within : Itemized body items) :
    Itemized (Value.entering opening deployment :: body ++ [Value.leaving kind])
      (announced ++ items) := by
  have closed : Itemized [Value.leaving kind] [] := by
    apply call
    intro chunks described
    cases described
    rfl
  have all := opened.append (within.append closed)
  rwa [List.append_nil] at all

theorem leaf (value : Leaf) (deployment : Option Deployment) :
    Itemized [.call (.leaf value deployment)] (value.wireItems deployment) := by
  apply call
  intro chunks described
  cases value with
  | bool value =>
      cases described
      rfl
  | number value =>
      cases described
      simp [Chunk.item, Chunk.number, Number.bytes, LittleEndian.bytes_eq_places, Leaf.wireItems,
        scalar]
  | text value =>
      rcases Option.map_eq_some_iff.1 described with ⟨chunk, lengthDescribed, rfl⟩
      simp only [List.map_cons, List.map_nil, Chunk.item_length? lengthDescribed]
      rfl
  | bytes value =>
      rcases Option.map_eq_some_iff.1 described with ⟨chunk, lengthDescribed, rfl⟩
      simp only [List.map_cons, List.map_nil, Chunk.item_length? lengthDescribed]
      rfl

/-- A frame that is announced by the number of its items. -/
theorem enter_counted {opening : Opening} {length : Nat} {deployment : Option Deployment}
    (chunksEq : (WriteCall.enter opening deployment).chunks? =
      (Chunk.length? length deployment).map ([·])) :
    Itemized [Value.entering opening deployment] [lengthField length deployment] := by
  apply call
  intro chunks described
  rw [chunksEq] at described
  rcases Option.map_eq_some_iff.1 described with ⟨chunk, lengthDescribed, rfl⟩
  simp [Chunk.item_length? lengthDescribed]

theorem enter_struct (deployment : Option Deployment) :
    Itemized [Value.entering .struct deployment] [structStart] := by
  apply call
  intro chunks described
  cases described
  rfl

theorem enter_variant (tag : Nat) (deployment : Option Deployment) :
    Itemized [Value.entering (.variant tag) deployment] [raw [UInt8.ofNat tag]] := by
  apply call
  intro chunks described
  simp only [WriteCall.chunks?, Option.ite_none_right_eq_some, Option.some.injEq] at described
  rw [← described.2]
  rfl

end WriteStep.Itemized

namespace Value

theorem itemized_itemSteps {items : List Value} {deployment : Option Deployment}
    (parts : ∀ item ∈ items, Itemized (item.steps deployment) (item.wireItems deployment)) :
    Itemized (itemSteps items deployment) (itemsWire items deployment) := by
  induction items with
  | nil => exact .nil
  | cons item rest ih =>
      rcases List.forall_mem_cons.1 parts with ⟨itemItemized, restItemized⟩
      exact itemItemized.append (ih restItemized)

theorem itemized_entrySteps {entries : List (Value × Value)}
    {keyDeployment valueDeployment : Option Deployment}
    (keys : ∀ entry ∈ entries,
      Itemized (entry.1.steps keyDeployment) (entry.1.wireItems keyDeployment))
    (values : ∀ entry ∈ entries,
      Itemized (entry.2.steps valueDeployment) (entry.2.wireItems valueDeployment)) :
    Itemized (entrySteps entries keyDeployment valueDeployment)
      (entriesWire entries keyDeployment valueDeployment) := by
  induction entries with
  | nil => exact .nil
  | cons entry rest ih =>
      rcases List.forall_mem_cons.1 keys with ⟨keyItemized, restKeys⟩
      rcases List.forall_mem_cons.1 values with ⟨valueItemized, restValues⟩
      have opened : Itemized [entering .mapEntry none] [] := by
        apply Itemized.call
        intro chunks described
        cases described
        rfl
      rw [entrySteps_cons]
      exact (opened.bracket (keyItemized.append valueItemized)).append (ih restKeys restValues)

theorem itemized_memberSteps {members : List Value}
    (parts : ∀ member ∈ members, ∀ deployment,
      Itemized (member.steps deployment) (member.wireItems deployment))
    (deployment : Option Deployment) (position : Nat) :
    Itemized (memberSteps members deployment position)
      (membersWire members deployment position) := by
  induction members generalizing position with
  | nil => exact .nil
  | cons member rest ih =>
      rcases List.forall_mem_cons.1 parts with ⟨memberItemized, restItemized⟩
      exact (memberItemized _).append (ih restItemized _)

/-- The chunks of a value are the items of its description. -/
theorem itemized_steps (value : Value) (deployment : Option Deployment) :
    Itemized (value.steps deployment) (value.wireItems deployment) := by
  induction value generalizing deployment with
  | leaf value => exact .leaf value deployment
  | sequence items parts =>
      apply (Itemized.enter_counted rfl).bracket
      exact itemized_itemSteps fun item itemMem => parts item itemMem _
  | map entries keys values =>
      apply (Itemized.enter_counted rfl).bracket
      apply itemized_entrySteps
      · exact fun entry entryMem => keys entry entryMem _
      · exact fun entry entryMem => values entry entryMem _
  | record members parts =>
      exact (Itemized.enter_struct deployment).bracket (itemized_memberSteps parts deployment 0)
  | vacant =>
      intro chunks described
      cases described
  | holding index value ih => exact (Itemized.enter_variant index deployment).bracket (ih _)

end Value

namespace WireItem

/-- An item is aligned to its own size, or it is a run of single bytes or the start of a struct. -/
def Sized (item : WireItem) : Prop :=
  item.alignment = item.bytes.length ∨ item.alignment = 1 ∨ item = structStart

theorem sized_scalar (width number : Nat) : (scalar width number).Sized := by
  left
  simp [scalar, LittleEndian.places]

theorem sized_raw (run : List UInt8) : (raw run).Sized :=
  Or.inr (Or.inl rfl)

theorem sized_leaf (value : Leaf) (deployment : Option Deployment) :
    ∀ item ∈ value.wireItems deployment, item.Sized := by
  cases value <;> simp [Leaf.wireItems, lengthField, sized_scalar, sized_raw]

end WireItem

namespace Value

theorem exists_of_mem_itemsWire {items : List Value} {deployment : Option Deployment}
    {wire : WireItem} (wireMem : wire ∈ itemsWire items deployment) :
    ∃ item ∈ items, wire ∈ item.wireItems deployment := by
  induction items with
  | nil => simp [itemsWire] at wireMem
  | cons item rest ih =>
      rcases List.mem_append.1 wireMem with here | there
      · exact ⟨item, List.mem_cons_self .., here⟩
      · rcases ih there with ⟨other, otherMem, found⟩
        exact ⟨other, List.mem_cons_of_mem _ otherMem, found⟩

theorem exists_of_mem_entriesWire {entries : List (Value × Value)}
    {keyDeployment valueDeployment : Option Deployment} {wire : WireItem}
    (wireMem : wire ∈ entriesWire entries keyDeployment valueDeployment) :
    ∃ entry ∈ entries, wire ∈ entry.1.wireItems keyDeployment ∨
      wire ∈ entry.2.wireItems valueDeployment := by
  induction entries with
  | nil => simp [entriesWire] at wireMem
  | cons entry rest ih =>
      rcases List.mem_append.1 wireMem with here | there
      · exact ⟨entry, List.mem_cons_self .., List.mem_append.1 here⟩
      · rcases ih there with ⟨other, otherMem, found⟩
        exact ⟨other, List.mem_cons_of_mem _ otherMem, found⟩

theorem exists_of_mem_membersWire {members : List Value} {deployment : Option Deployment}
    {position : Nat} {wire : WireItem}
    (wireMem : wire ∈ membersWire members deployment position) :
    ∃ member ∈ members, ∃ index, wire ∈ member.wireItems (childOf deployment index) := by
  induction members generalizing position with
  | nil => simp [membersWire] at wireMem
  | cons member rest ih =>
      rcases List.mem_append.1 wireMem with here | there
      · exact ⟨member, List.mem_cons_self .., position, here⟩
      · rcases ih there with ⟨other, otherMem, found⟩
        exact ⟨other, List.mem_cons_of_mem _ otherMem, found⟩

theorem sized_wireItems (value : Value) (deployment : Option Deployment) :
    ∀ item ∈ value.wireItems deployment, item.Sized := by
  induction value generalizing deployment with
  | leaf value => exact sized_leaf value deployment
  | sequence items parts =>
      refine List.forall_mem_cons.2 ⟨sized_scalar _ _, fun wire wireMem => ?_⟩
      rcases exists_of_mem_itemsWire wireMem with ⟨item, itemMem, found⟩
      exact parts item itemMem _ wire found
  | map entries keys values =>
      refine List.forall_mem_cons.2 ⟨sized_scalar _ _, fun wire wireMem => ?_⟩
      rcases exists_of_mem_entriesWire wireMem with ⟨entry, entryMem, found | found⟩
      · exact keys entry entryMem _ wire found
      · exact values entry entryMem _ wire found
  | record members parts =>
      refine List.forall_mem_cons.2 ⟨Or.inr (Or.inr rfl), fun wire wireMem => ?_⟩
      rcases exists_of_mem_membersWire wireMem with ⟨member, memberMem, index, found⟩
      exact parts member memberMem _ wire found
  | vacant => simp [wireItems]
  | holding index value ih => exact List.forall_mem_cons.2 ⟨sized_raw _, ih _⟩

end Value

theorem LaidOut.item {offset : Nat} {earlier later : List WireItem} {item : WireItem}
    {bytes : List UInt8} (laid : LaidOut offset (earlier ++ item :: later) bytes)
    (positive : 0 < item.alignment) :
    ∃ before gap after, LaidOut offset earlier before ∧
      before ++ List.replicate gap 0 ++ item.bytes ++ after = bytes ∧
        item.alignment ∣ offset + before.length + gap ∧ gap < item.alignment := by
  rcases LaidOut.append_iff.1 laid with ⟨before, rest, earlierLaid, restLaid, rfl⟩
  cases restLaid with
  | @cons _ start _ _ after least _ =>
      have near := lt_of_isLeast positive least
      rcases least.1 with ⟨behind, multiple⟩
      refine ⟨before, start - (offset + before.length), after, earlierLaid, ?_, ?_, ?_⟩
      · simp
      · rwa [Nat.add_sub_of_le behind]
      · omega

/-- Encoded bytes are the items of the value, laid out from the start. So every item stands at a
multiple of its alignment, which is its size unless it is a run of single bytes or the start of a
struct, and only zeros, fewer than the alignment, stand before it. -/
theorem encode_laid_out (value : Value) (deployment : Option Deployment) (limits : Limits)
    (out : List UInt8) (encoded : encode value deployment limits = .ok out) :
    (∀ bytes, LaidOut 0 (value.wireItems deployment) bytes ↔ bytes = out) ∧
      ∀ earlier item later, value.wireItems deployment = earlier ++ item :: later →
        item.Sized ∧ ∃ before gap after, LaidOut 0 earlier before ∧
          before ++ List.replicate gap 0 ++ item.bytes ++ after = out ∧
            item.alignment ∣ before.length + gap ∧ gap < item.alignment := by
  rcases Value.encode_eq_ok_iff.1 encoded with ⟨chunks, described, _, rfl⟩
  have natural := natural_of_chunksAll? described
  have itemsEq := value.itemized_steps deployment chunks described
  have laid : LaidOut 0 (value.wireItems deployment) (WriteCursor.putChunks {} chunks).bytes := by
    rw [← itemsEq, WriteCursor.putChunks_bytes]
    exact Chunk.laidOut_cellsAll natural 0
  refine ⟨fun bytes => ⟨fun alsoLaid => alsoLaid.unique laid, fun same => same ▸ laid⟩, ?_⟩
  intro earlier item later split
  have itemMem : item ∈ value.wireItems deployment := by simp [split]
  refine ⟨value.sized_wireItems deployment item itemMem, ?_⟩
  have positive : 0 < item.alignment := by
    rw [← itemsEq] at itemMem
    rcases List.mem_map.1 itemMem with ⟨chunk, chunkMem, rfl⟩
    exact Nat.pos_of_dvd_of_pos (natural chunk chunkMem) (by decide)
  rw [split] at laid
  simpa only [Nat.zero_add] using laid.item positive

/-- A flag, a text in a sequence that has a length field of two bytes, and a record in a record: the
number in it stands at a multiple of 8. -/
theorem encode_laid_out_nested :
    let deployment := Deployment.empty.withChild 1
      (Deployment.empty.withHint Deployment.lengthWidthHint (.integer 2))
    let value : Value := .record [.leaf (.bool true), .sequence [.text "é"],
      .record [.number (.uint64 258)]]
    let out : List UInt8 :=
      [1, 0, 1, 0, 3, 0, 0, 0, 0xc3, 0xa9, 0, 0, 0, 0, 0, 0, 2, 1, 0, 0, 0, 0, 0, 0]
    encode value (some deployment) {} = .ok out ∧
      (∀ bytes, LaidOut 0 (value.wireItems (some deployment)) bytes ↔ bytes = out) ∧
        ∃ before gap after, LaidOut 0
            [structStart, raw [1], scalar 2 1, scalar 4 3, raw [0xc3, 0xa9, 0], structStart]
            before ∧
          before ++ List.replicate gap 0 ++ (scalar 8 258).bytes ++ after = out ∧
            8 ∣ before.length + gap ∧ gap < 8 := by
  intro deployment value out
  have encoded : encode value (some deployment) {} = .ok out := by rfl
  rcases encode_laid_out value (some deployment) {} out encoded with ⟨laidIff, itemsStand⟩
  exact ⟨encoded, laidIff, (itemsStand _ (scalar 8 258) [] rfl).2⟩

end ValueBus
