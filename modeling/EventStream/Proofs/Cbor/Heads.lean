import EventStream.Cbor.Codec
import Mathlib.Algebra.Group.Int.Defs
import Mathlib.Algebra.Group.Nat.Defs
import Mathlib.Tactic.SplitIfs

/-!
# Heads read back

A head in its shortest form is read as the head it was, in front of anything. All
round trips of the binary format rest on this and on the decoders that look at a
head and put it back.
-/

namespace EventStream

namespace Bytes

/-- The bytes of a number spell it, as far as they reach. -/
theorem toNat_ofNat (width n : Nat) : toNat (ofNat width n) = n % 256 ^ width := by
  induction width generalizing n with
  | zero => simp [ofNat, Nat.mod_one]
  | succ width ih =>
      rw [ofNat, toNat_append_singleton, ih, Nat.pow_succ, Nat.mul_comm (256 ^ width),
        Nat.mod_mul]
      simp only [UInt8.toNat_ofNat']
      omega

/-- A number that fits some bytes is spelled by them. -/
theorem toNat_ofNat_of_lt {width n : Nat} (h : n < 256 ^ width) : toNat (ofNat width n) = n := by
  rw [toNat_ofNat, Nat.mod_eq_of_lt h]

end Bytes

namespace Cbor

/-- A first byte carries the major type in three bits and the argument in five. -/
theorem toNat_firstByte {major low : Nat} (hm : major < 8) (hl : low < 32) :
    (firstByte major low).toNat = major * 32 + low := by
  simp only [firstByte, UInt8.toNat_ofNat']
  omega

theorem argumentBytes_ne_nil (major n : Nat) : argumentBytes major n ≠ [] := by
  unfold argumentBytes
  split_ifs <;> exact List.cons_ne_nil _ _

/-- What follows a first byte whose low bits announce a number of a width. -/
theorem argument_wide {low width : Nat}
    (hl : (low = 24 ∧ width = 1) ∨ (low = 25 ∧ width = 2) ∨ (low = 26 ∧ width = 4) ∨
      (low = 27 ∧ width = 8)) {n : Nat} (hn : n < 256 ^ width) (position : Nat) (rest : Bytes) :
    Cursor.argument low ⟨position, Bytes.ofNat width n ++ rest⟩ =
      .ok (.number width n, ⟨position + width, rest⟩) := by
  have taken := Cursor.take_append position (Bytes.ofNat width n) rest
  rw [Bytes.length_ofNat] at taken
  rcases hl with ⟨rfl, rfl⟩ | ⟨rfl, rfl⟩ | ⟨rfl, rfl⟩ | ⟨rfl, rfl⟩ <;>
    simp [Cursor.argument, taken, Bytes.toNat_ofNat_of_lt hn]

/-- A head that is read from a first byte with its major type and the argument behind it. -/
theorem head_of_argument {major low : Nat} (hm : major < 8) (hl : low < 32) {a : Argument}
    {h : Head} {position width : Nat} {bs rest : Bytes} (hlen : bs.length = width)
    (ha : Cursor.argument low ⟨position + 1, bs ++ rest⟩ =
      .ok (a, ⟨position + 1 + width, rest⟩))
    (hh : Head.ofArgument? major a = some h) :
    Cursor.head ⟨position, firstByte major low :: bs ++ rest⟩ =
      .ok (h, ⟨position + (firstByte major low :: bs).length, rest⟩) := by
  have hmod : (firstByte major low).toNat % 32 = low := by
    rw [toNat_firstByte hm hl]
    omega
  have hdiv : (firstByte major low).toNat / 32 = major := by
    rw [toNat_firstByte hm hl]
    omega
  simp only [Cursor.head, List.cons_append, hmod, ha, hdiv, hh, List.length_cons, hlen]
  congr 3
  omega

/-- Heads that are read back from their shortest form, whatever follows. -/
def Head.ReadsBack (h : Head) : Prop :=
  ∀ position rest, Cursor.head ⟨position, h.encode ++ rest⟩ =
    .ok (h, ⟨position + h.encode.length, rest⟩)

/-- A head that reads back takes at least one byte. -/
theorem Head.ReadsBack.ne_nil {h : Head} (hb : h.ReadsBack) : h.encode ≠ [] := by
  intro hn
  have := hb 0 []
  rw [hn] at this
  cases this

/-- A number in the shortest form behind its major type. -/
theorem head_argumentBytes {major n : Nat} (hm : major < 8) (hn : n < 2 ^ 64) {h : Head}
    (hh : ∀ width, Head.ofArgument? major (.number width n) = some h) (position : Nat)
    (rest : Bytes) :
    Cursor.head ⟨position, argumentBytes major n ++ rest⟩ =
      .ok (h, ⟨position + (argumentBytes major n).length, rest⟩) := by
  unfold argumentBytes
  split_ifs with h0 h1 h2 h3
  · refine head_of_argument hm (by omega) List.length_nil ?_ (hh 0)
    simp [Cursor.argument, h0]
  · exact head_of_argument hm (by omega) (Bytes.length_ofNat 1 n)
      (argument_wide (by omega) h1 _ _) (hh 1)
  · exact head_of_argument hm (by omega) (Bytes.length_ofNat 2 n)
      (argument_wide (by omega) h2 _ _) (hh 2)
  · exact head_of_argument hm (by omega) (Bytes.length_ofNat 4 n)
      (argument_wide (by omega) h3 _ _) (hh 4)
  · exact head_of_argument hm (by omega) (Bytes.length_ofNat 8 n)
      (argument_wide (by omega) hn _ _) (hh 8)

namespace Head

variable {n : Nat}

theorem readsBack_unsigned (hn : n < 2 ^ 64) : (unsigned n).ReadsBack :=
  head_argumentBytes (by decide) hn fun _ => rfl

theorem readsBack_negative (hn : n < 2 ^ 64) : (negative n).ReadsBack :=
  head_argumentBytes (by decide) hn fun _ => rfl

theorem readsBack_text (hn : n < 2 ^ 64) : (text (some n)).ReadsBack :=
  head_argumentBytes (by decide) hn fun _ => rfl

theorem readsBack_array (hn : n < 2 ^ 64) : (array (some n)).ReadsBack :=
  head_argumentBytes (by decide) hn fun _ => rfl

theorem readsBack_map (hn : n < 2 ^ 64) : (map (some n)).ReadsBack :=
  head_argumentBytes (by decide) hn fun _ => rfl

theorem readsBack_null : (simple 22).ReadsBack := fun _ _ => rfl

end Head

end Cbor

end EventStream
