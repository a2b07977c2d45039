import EventStream.Interchange.Binary
import EventStream.Proofs.Cbor.Reading

/-!
# Values that survive their encoding

A value is portable if it has an encoding and is read back from it. Payloads are
portable, and so is everything made of portable values as long as the nesting
does not get too deep.

## Implementation notes

Only encodings shorter than `2 ^ 64` bytes are read back, as all byte strings of a
machine are: lengths and counts are written in at most eight bytes.
-/

namespace EventStream

namespace Cbor

open Decoder

variable {α β : Type} [ToCbor α] [FromCbor α] [ToCbor β] [FromCbor β] {n : Nat}

/-- A value with an encoding, which is read back with the given levels of nesting left. -/
def Portable (levels : Nat) (a : α) : Prop :=
  ∃ bs, encode a = .ok bs ∧ bs ≠ [] ∧
    (bs.length < 2 ^ 64 → (FromCbor.decoder : Decoder α).Reads levels bs a)

/-- Types all of whose values are portable. -/
class PortableType (levels : Nat) (α : Type) [ToCbor α] [FromCbor α] : Prop where
  portable : ∀ a : α, Portable levels a

omit [ToCbor α] in
/-- What is read with the levels of a whole value is decoded, whatever follows. -/
theorem decode_append {bs : Bytes} {a : α}
    (h : (FromCbor.decoder : Decoder α).Reads maxLevels bs a) (rest : Bytes) :
    decode α (bs ++ rest) = .ok a := by
  rw [decode, h maxLevels 0 rest (Nat.le_refl _)]

/-! ## Sizes -/

/-- An item is no longer than the sequence it is in. -/
theorem length_le_arrayItem {bs : Bytes} {is : List Bytes} (h : bs ∈ is) :
    bs.length ≤ (arrayItem is).length := by
  have := (List.sublist_flatten_of_mem h).length_le
  rw [arrayItem, List.length_append]
  omega

/-- A sequence of items that are not empty is at least as long as it has items. -/
theorem count_le_arrayItem {is : List Bytes} (h : ∀ bs ∈ is, bs ≠ []) :
    is.length ≤ (arrayItem is).length := by
  have counted : is.length ≤ is.flatten.length := by
    induction is with
    | nil => exact Nat.le_refl 0
    | cons bs rest ih =>
        have hb := List.length_pos_iff.2 (h bs List.mem_cons_self)
        have hr := ih fun cs hc => h cs (List.mem_cons_of_mem bs hc)
        simp only [List.length_cons, List.flatten_cons, List.length_append]
        omega
  rw [arrayItem, List.length_append]
  omega

/-- A field is no longer than the record it is in. -/
theorem length_le_recordItem {f : String × Bytes} {fs : List (String × Bytes)} (h : f ∈ fs) :
    f.2.length ≤ (recordItem fs).length := by
  have hm : textItem f.1 ++ f.2 ∈ fs.map fun f => textItem f.1 ++ f.2 := List.mem_map_of_mem h
  have := (List.sublist_flatten_of_mem hm).length_le
  rw [recordItem_eq, List.length_append]
  rw [List.length_append] at this
  omega

theorem arrayItem_ne_nil (is : List Bytes) : arrayItem is ≠ [] :=
  List.append_ne_nil_of_left_ne_nil (argumentBytes_ne_nil 4 is.length) _

theorem mapItem_ne_nil (es : List (Bytes × Bytes)) : mapItem es ≠ [] :=
  List.append_ne_nil_of_left_ne_nil (argumentBytes_ne_nil 5 es.length) _

theorem textItem_ne_nil (s : String) : textItem s ≠ [] :=
  List.append_ne_nil_of_left_ne_nil (argumentBytes_ne_nil 3 _) _

/-! ## Payloads -/

instance : PortableType n UInt64 where
  portable w := ⟨_, rfl, argumentBytes_ne_nil 0 _, fun _ => reads_word n w⟩

instance : PortableType n String where
  portable s := by
    refine ⟨_, rfl, textItem_ne_nil s, fun hl => reads_text n ?_⟩
    rw [textItem, List.length_append] at hl
    omega

instance : PortableType n Unit where
  portable _ := ⟨_, rfl, List.cons_ne_nil _ _, fun _ => reads_unit n⟩

/-- A pair travels if both of its parts do. -/
theorem portable_pair {a : α} {b : β} (ha : Portable n a) (hb : Portable n b) :
    Portable (n + 1) (a, b) := by
  obtain ⟨x, hx, -, rx⟩ := ha
  obtain ⟨y, hy, -, ry⟩ := hb
  have he : encode (a, b) = .ok (arrayItem [x, y]) := by
    change (do let a ← encode a; let b ← encode b; return arrayItem [a, b]) = _
    rw [hx, hy]
    rfl
  refine ⟨_, he, arrayItem_ne_nil _, fun hl => ?_⟩
  have lx := Nat.lt_of_le_of_lt (length_le_arrayItem List.mem_cons_self) hl
  have ly := Nat.lt_of_le_of_lt
    (length_le_arrayItem (List.mem_cons_of_mem x List.mem_cons_self)) hl
  exact reads_pair (rx lx) (ry ly)

instance [PortableType n α] [PortableType n β] : PortableType (n + 1) (α × β) where
  portable p := portable_pair (PortableType.portable p.1) (PortableType.portable p.2)

/-! ## Lists -/

/-- If everything in a list is related to something, the list is related to a list. -/
theorem exists_forall₂ {γ δ : Type} {R : γ → δ → Prop} {as : List γ}
    (h : ∀ a ∈ as, ∃ x, R a x) : ∃ is, List.Forall₂ R as is := by
  induction as with
  | nil => exact ⟨[], List.Forall₂.nil⟩
  | cons a as ih =>
      obtain ⟨x, hx⟩ := h a List.mem_cons_self
      obtain ⟨is, hi⟩ := ih fun b hb => h b (List.mem_cons_of_mem a hb)
      exact ⟨x :: is, List.Forall₂.cons hx hi⟩

/-- A list is gone through without a failure exactly if nothing in it fails. -/
theorem mapM_eq_ok_iff {γ δ ε : Type} {f : γ → Except ε δ} {as : List γ} {is : List δ} :
    as.mapM f = .ok is ↔ List.Forall₂ (fun a x => f a = .ok x) as is := by
  induction as generalizing is with
  | nil => simp [Pure.pure, Except.pure, eq_comm]
  | cons a as ih =>
      rw [List.mapM_cons, List.forall₂_cons_left_iff]
      simp only [← ih]
      cases f a with
      | error e => exact ⟨fun h => (nomatch h), fun ⟨_, _, h, _⟩ => (nomatch h)⟩
      | ok x =>
          cases as.mapM f with
          | error e => exact ⟨fun h => (nomatch h), fun ⟨_, _, _, h, _⟩ => (nomatch h)⟩
          | ok xs => simp [Bind.bind, Except.bind, Pure.pure, Except.pure, eq_comm]

omit [FromCbor α] in
/-- A list is written as the sequence of its items. -/
theorem encode_list {as : List α} {is : List Bytes}
    (h : List.Forall₂ (fun a x => encode a = .ok x) as is) :
    encode as = .ok (arrayItem is) := by
  change (do return arrayItem (← as.mapM encode)) = _
  rw [mapM_eq_ok_iff.2 h]
  rfl

/-- A list travels if its items do. -/
theorem portable_list {as : List α} (h : ∀ a ∈ as, Portable n a) : Portable (n + 1) as := by
  obtain ⟨is, hi⟩ := exists_forall₂ h
  have items := hi.flip
  have nonempty : ∀ x ∈ is, x ≠ [] :=
    ((List.forall₂_and_left is as).1 (items.imp fun x a hx => ⟨hx.2.1, hx⟩)).1
  refine ⟨_, encode_list (hi.imp fun a x hx => hx.1), arrayItem_ne_nil is, fun hl => ?_⟩
  have short : ∀ x ∈ is, x.length < 2 ^ 64 :=
    fun x hx => Nat.lt_of_le_of_lt (length_le_arrayItem hx) hl
  apply reads_list (Nat.lt_of_le_of_lt (count_le_arrayItem nonempty) hl)
  exact ((List.forall₂_and_left is as).2 ⟨short, items⟩).imp fun x a hx => hx.2.2.2 hx.1

end Cbor

open Cbor Decoder

/-! ## Timestamps, windows and windowed values -/

variable {n : Nat}

/-- A time is read back from its milliseconds. -/
theorem Timestamp.reads_decoder (t : Timestamp) :
    Timestamp.decoder.Reads n (integerItem t.millis) t := by
  have := t.lower
  have := t.upper
  apply (reads_integer n (by omega) (by omega)).map
  rw [ofInt?_millis]
  rfl

theorem Timestamp.portable (t : Timestamp) : Portable n t := by
  refine ⟨_, rfl, ?_, fun _ => t.reads_decoder⟩
  unfold integerItem
  split <;> exact argumentBytes_ne_nil _ _

/-- A window is read back from its item. -/
theorem Window.reads_decoder (w : Window) : Window.decoder.Reads (n + 2) w.item w := by
  cases w with
  | global => exact reads_variant_name (by decide) rfl (reads_pure (n + 1) Window.global)
  | interval start stop =>
      have bounds : Fills Bounds.field n ⟨none, none⟩
          [("start", integerItem start.millis), ("end", integerItem stop.millis)]
          ⟨some start, some stop⟩ := by
        refine Fills.next (by decide) rfl (reads_fill start.reads_decoder) ?_
        exact Fills.next (by decide) rfl (reads_fill stop.reads_decoder) Fills.done
      apply reads_variant_entry (by decide) rfl
      exact reads_fields (by simp) (reads_record (by simp) bounds rfl)

theorem Window.portable (w : Window) : Portable (n + 2) w := by
  refine ⟨_, rfl, ?_, fun _ => w.reads_decoder⟩
  cases w with
  | global => exact textItem_ne_nil _
  | interval start stop => exact mapItem_ne_nil _

/-- A windowed value travels if its payload does. -/
theorem WindowedValue.portable {α : Type} [ToCbor α] [FromCbor α] {x : WindowedValue α}
    (h : Portable (n + 3) x.value) : Portable (n + 4) x := by
  obtain ⟨v, hv, -, rv⟩ := h
  obtain ⟨ws, hw, -, rw⟩ := portable_list fun w (_ : w ∈ x.windows) => w.portable (n := n)
  have he : encode x = .ok (recordItem
      [("value", v), ("timestamp", integerItem x.timestamp.millis), ("windows", ws)]) := by
    change (do
      let v ← encode x.value
      let t ← encode x.timestamp
      let ws ← encode x.windows
      return recordItem [("value", v), ("timestamp", t), ("windows", ws)]) = _
    rw [hv, hw]
    rfl
  refine ⟨_, he, mapItem_ne_nil _, fun hl => ?_⟩
  have lv : v.length < 2 ^ 64 :=
    Nat.lt_of_le_of_lt (length_le_recordItem (f := ("value", v)) (by simp)) hl
  have lw : ws.length < 2 ^ 64 :=
    Nat.lt_of_le_of_lt (length_le_recordItem (f := ("windows", ws)) (by simp)) hl
  have fills : Fills Parts.field (n + 3) ⟨none, none, none⟩
      [("value", v), ("timestamp", integerItem x.timestamp.millis), ("windows", ws)]
      ⟨some x.value, some x.timestamp, some x.windows⟩ := by
    refine Fills.next (by decide) rfl (reads_fill (rv lv)) ?_
    refine Fills.next (by decide) rfl (reads_fill x.timestamp.reads_decoder) ?_
    exact Fills.next (by decide) rfl (reads_fill (rw lw)) Fills.done
  exact reads_record (by simp) fills rfl

end EventStream
