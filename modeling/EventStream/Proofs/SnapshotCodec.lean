import EventStream.Snapshot
import EventStream.Proofs.Cbor.Portable
import Mathlib.Data.List.Perm.Basic

/-!
# Snapshots read back

A snapshot is read back from its bytes in whatever order its values were written.
Its own encoding is one of these orders, and the same for all of them.
-/

namespace EventStream

open Cbor Decoder
open scoped List

variable {ι ν : Type} [ToCbor ι] [ToCbor ν] {n : Nat}

/-! ## The order of encodings -/

/-- Sorted items do not tell the order that they had before. -/
theorem Bytes.mergeSort_before_eq_of_perm {xs ys : List Bytes} (h : xs ~ ys) :
    xs.mergeSort Bytes.before = ys.mergeSort Bytes.before := by
  have sorted (zs : List Bytes) : (zs.mergeSort Bytes.before).Pairwise (· ≤ ·) := by
    have ordered : (zs.mergeSort Bytes.before).Pairwise fun a b => Bytes.before a b = true := by
      apply List.pairwise_mergeSort
      · intro a b c hab hbc
        exact decide_eq_true (List.le_trans (of_decide_eq_true hab) (of_decide_eq_true hbc))
      · intro a b
        simpa [Bytes.before] using List.le_total a b
    exact ordered.imp of_decide_eq_true
  apply List.Perm.eq_of_pairwise _ (sorted xs) (sorted ys)
  · exact (List.mergeSort_perm xs _).trans (h.trans (List.mergeSort_perm ys _).symm)
  · intro a b _ _ hab hba
    exact List.le_antisymm hab hba

/-! ## Values of side inputs -/

/-- An entry travels if its value does and its index can be written. -/
theorem SideInputEntry.portable [FromCbor ν] {e : SideInputEntry ν} (hi : e.index < 2 ^ 64)
    (h : Portable (n + 2) e.value) : Portable (n + 3) e := by
  obtain ⟨v, hv, -, rv⟩ := h
  have he : encode e = .ok (arrayItem [unsignedItem e.index, e.window.item, v]) := by
    change (do
      let w ← encode e.window
      let v ← encode e.value
      return arrayItem [unsignedItem e.index, w, v]) = _
    rw [hv]
    rfl
  refine ⟨_, he, arrayItem_ne_nil _, fun hl => ?_⟩
  have lv := Nat.lt_of_le_of_lt (length_le_arrayItem (by simp : v ∈ _)) hl
  apply reads_tuple (by simp)
  have hw : (UInt64.ofNat e.index).toNat = e.index := UInt64.toNat_ofNat_of_lt' hi
  have index := reads_word (n + 2) (.ofNat e.index)
  rw [hw] at index
  apply (reads_nextItem index 2).bind
  apply (reads_nextItem e.window.reads_decoder 1).bind
  apply (reads_nextItem (rv lv) 0).bind
  simp only [hw]
  exact reads_pure (n + 2) e

namespace Snapshot

/-- The item of a snapshot, its values in the order given. -/
def itemInOrder (s : Snapshot ι ν) : Except EncodeError Bytes := do
  return recordItem [
    ("pushed_back", ← encode s.pushedBack),
    ("side_inputs", ← encode s.sideInputs),
    ("input_watermark", ← encode s.inputWatermark),
    ("output_watermark", ← encode s.outputWatermark)]

/-- Bytes that a snapshot may be written as. Its values may come in any order. -/
def WrittenAs (s : Snapshot ι ν) (bytes : Bytes) : Prop :=
  ∃ entries, entries ~ s.sideInputs ∧
    ({ s with sideInputs := entries } : Snapshot ι ν).itemInOrder = .ok bytes

/-- The fields of a snapshot whose parts have the given items. -/
def fieldItems (s : Snapshot ι ν) (x y : Bytes) : List (String × Bytes) :=
  [("pushed_back", x), ("side_inputs", y),
    ("input_watermark", integerItem s.inputWatermark.millis),
    ("output_watermark", integerItem s.outputWatermark.millis)]

section Parts
variable {s : Snapshot ι ν} {x : Bytes} {is : List Bytes}
  (hx : encode s.pushedBack = .ok x)
  (hi : List.Forall₂ (fun e y => encode e = .ok y) s.sideInputs is)
include hx hi

theorem itemInOrder_of_parts :
    s.itemInOrder = .ok (recordItem (s.fieldItems x (arrayItem is))) := by
  rw [itemInOrder, hx, encode_list hi]
  rfl

/-- A snapshot is written with its entries in the order of their bytes. -/
theorem encode_of_parts :
    encode s = .ok (recordItem (s.fieldItems x (arrayItem (is.mergeSort Bytes.before)))) := by
  change (do
    let pushedBack ← encode s.pushedBack
    let entries ← s.sideInputs.mapM encode
    return recordItem (s.fieldItems pushedBack (arrayItem (entries.mergeSort Bytes.before)))) = _
  rw [hx, mapM_eq_ok_iff.2 hi]
  rfl

/-- The encoding of a snapshot is one of the forms it may be written in. -/
theorem writtenAs_of_parts :
    s.WrittenAs (recordItem (s.fieldItems x (arrayItem (is.mergeSort Bytes.before)))) := by
  obtain ⟨entries, he, hp⟩ := List.perm_comp_forall₂ (List.mergeSort_perm is Bytes.before) hi.flip
  exact ⟨entries, hp, itemInOrder_of_parts (s := { s with sideInputs := entries }) hx he.flip⟩

end Parts

/-- Levels of nesting that are left for the payloads in a snapshot. -/
abbrev payloadLevels : Nat := 253

section Portable
variable [FromCbor ι] [FromCbor ν] [PortableType payloadLevels ι] [PortableType payloadLevels ν]
  {s : Snapshot ι ν} (hi : ∀ e ∈ s.sideInputs, e.index < 2 ^ 64)

omit [ToCbor ν] [FromCbor ν] [PortableType payloadLevels ν] in
theorem portable_pushedBack (s : Snapshot ι ν) : Portable 255 s.pushedBack :=
  portable_list fun x _ => WindowedValue.portable (n := 250) (PortableType.portable x.value)

include hi

omit [ToCbor ι] [FromCbor ι] [PortableType payloadLevels ι] in
theorem portable_entry {e : SideInputEntry ν} (he : e ∈ s.sideInputs) : Portable 254 e :=
  SideInputEntry.portable (n := 251) (hi e he) (PortableType.portable e.value)

/-- A snapshot is read back, its entries in the order in which they were written. -/
theorem reads_itemInOrder {bytes : Bytes} (h : s.itemInOrder = .ok bytes)
    (hl : bytes.length < 2 ^ 64) :
    (FromCbor.decoder : Decoder (Snapshot ι ν)).Reads maxLevels bytes s := by
  obtain ⟨x, hx, -, rx⟩ := s.portable_pushedBack
  obtain ⟨y, hy, -, ry⟩ := portable_list fun e he => portable_entry hi (e := e) he
  rw [itemInOrder, hx, hy] at h
  cases h
  have lx : x.length < 2 ^ 64 :=
    Nat.lt_of_le_of_lt (length_le_recordItem (f := ("pushed_back", x)) (by simp)) hl
  have ly : y.length < 2 ^ 64 :=
    Nat.lt_of_le_of_lt (length_le_recordItem (f := ("side_inputs", y)) (by simp)) hl
  have fills : Fills (Parts.field (ι := ι) (ν := ν)) 255 ⟨none, none, none, none⟩
      (s.fieldItems x y)
      ⟨some s.pushedBack, some s.sideInputs, some s.inputWatermark, some s.outputWatermark⟩ := by
    refine Fills.next (by decide) rfl (reads_fill (rx lx)) ?_
    refine Fills.next (by decide) rfl (reads_fill (ry ly)) ?_
    refine Fills.next (by decide) rfl (reads_fill s.inputWatermark.reads_decoder) ?_
    exact Fills.next (by decide) rfl (reads_fill s.outputWatermark.reads_decoder) Fills.done
  exact reads_record (by simp) fills rfl

/-- A snapshot is read back from its bytes, in whatever order its values come. -/
theorem decode_itemInOrder {bytes : Bytes} (h : s.itemInOrder = .ok bytes)
    (hl : bytes.length < 2 ^ 64) : decode (Snapshot ι ν) bytes = .ok s := by
  have := decode_append (reads_itemInOrder hi h hl) []
  rwa [List.append_nil] at this

/-- The elements and the entries of a snapshot can be written. -/
theorem exists_items :
    (∃ x, encode s.pushedBack = .ok x) ∧
      ∃ is, List.Forall₂ (fun e y => encode e = .ok y) s.sideInputs is := by
  constructor
  · obtain ⟨x, hx, -⟩ := s.portable_pushedBack
    exact ⟨x, hx⟩
  · apply exists_forall₂
    intro e he
    obtain ⟨y, hy, -⟩ := portable_entry hi he
    exact ⟨y, hy⟩

/-- A snapshot has an encoding, which is one of the forms it may be written in. -/
theorem exists_encode : ∃ bytes, encode s = .ok bytes ∧ s.WrittenAs bytes := by
  obtain ⟨⟨x, hx⟩, is, his⟩ := exists_items hi
  exact ⟨_, encode_of_parts hx his, writtenAs_of_parts hx his⟩

/-- Snapshots with the same values in another order have the same encoding. -/
theorem encode_eq_of_perm {entries : List (SideInputEntry ν)} (h : entries ~ s.sideInputs) :
    encode ({ s with sideInputs := entries } : Snapshot ι ν) = encode s := by
  obtain ⟨⟨x, hx⟩, is, his⟩ := exists_items hi
  obtain ⟨js, hj, hp⟩ := List.perm_comp_forall₂ h his
  rw [encode_of_parts hx his, encode_of_parts (s := { s with sideInputs := entries }) hx hj,
    Bytes.mergeSort_before_eq_of_perm hp]
  rfl

end Portable

end Snapshot

end EventStream
