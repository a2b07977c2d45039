import EventStream.Source.MemoryFormat
import EventStream.Proofs.Cbor.Portable

/-!
# Values that travel

Timestamps, windows, names, configurations, splits and windowed values travel
between workers in binary form. Each of their values has an encoding and is read
back from it, in front of anything.

## Implementation notes

The types are listed by an inductive predicate, so that a statement about all of
them is proved by one case for each. Lengths are written in at most eight bytes,
hence the bound on encodings.
-/

namespace EventStream

open Cbor Decoder

variable {n : Nat}

namespace Cbor

theorem Head.readsBack_bool (b : Bool) : (Head.simple (if b then 21 else 20)).ReadsBack := by
  cases b <;> exact fun _ _ => rfl

/-- A truth value is read back from its head. -/
theorem Decoder.reads_bool (depth : Nat) (b : Bool) : bool.Reads depth (boolItem b) b := by
  have hi : boolItem b = (Head.simple (if b then 21 else 20)).encode ++ [] := by cases b <;> rfl
  rw [hi]
  apply reads_untagged (Head.readsBack_bool b) fun _ => Head.noConfusion
  intro place
  cases b <;> exact reads_pure depth _

/-- The fields of a record that is short enough to be read back are short enough. -/
theorem short_fields {fs : List (String × Bytes)} (h : (recordItem fs).length < 2 ^ 64) :
    ∀ f ∈ fs, f.2.length < 2 ^ 64 :=
  fun _ hf => Nat.lt_of_le_of_lt (length_le_recordItem hf) h

end Cbor

/-! ## Names and mappings -/

theorem OutputTag.portable (t : OutputTag) : Portable n t := by
  obtain ⟨bs, hb, hne, rb⟩ : Portable n t.name := PortableType.portable t.name
  exact ⟨bs, hb, hne, fun hl => (rb hl).map rfl⟩

theorem SideInputId.portable (i : SideInputId) : Portable n i := by
  obtain ⟨bs, hb, hne, rb⟩ : Portable n i.name := PortableType.portable i.name
  exact ⟨bs, hb, hne, fun hl => (rb hl).map rfl⟩

theorem WindowMapping.portable (m : WindowMapping) : Portable (n + 1) m := by
  refine ⟨_, rfl, ?_, fun _ => ?_⟩
  · cases m <;> exact textItem_ne_nil _
  · cases m with
    | identity => exact reads_variant_name (by decide) rfl (reads_pure n WindowMapping.identity)
    | global => exact reads_variant_name (by decide) rfl (reads_pure n WindowMapping.global)

/-! ## Records -/

/-- The description of a side input travels. -/
theorem SideInputSpec.portable (s : SideInputSpec) : Portable (n + 2) s := by
  obtain ⟨i, hi, -, ri⟩ := s.id.portable (n := n + 1)
  obtain ⟨m, hm, -, rm⟩ := s.mapping.portable (n := n)
  have he : encode s = .ok (recordItem [("id", i), ("mapping", m)]) := by
    change (do return recordItem [("id", ← encode s.id), ("mapping", ← encode s.mapping)]) = _
    rw [hi, hm]
    rfl
  refine ⟨_, he, mapItem_ne_nil _, fun hl => ?_⟩
  obtain ⟨li, lm, -⟩ := by simpa only [List.forall_mem_cons] using short_fields hl
  have fills : Fills Parts.field (n + 1) ⟨none, none⟩ [("id", i), ("mapping", m)]
      ⟨some s.id, some s.mapping⟩ := by
    refine Fills.next (by decide) rfl (reads_fill (ri li)) ?_
    exact Fills.next (by decide) rfl (reads_fill (rm lm)) Fills.done
  exact reads_record (by simp) fills rfl

/-- A configuration travels. -/
theorem Config.portable (c : Config) : Portable (n + 4) c := by
  obtain ⟨m, hm, -, rm⟩ := c.mainOutput.portable (n := n + 3)
  obtain ⟨o, ho, -, ro⟩ := portable_list fun t (_ : t ∈ c.sideOutputs) => t.portable (n := n + 2)
  obtain ⟨i, hi, -, ri⟩ := portable_list fun s (_ : s ∈ c.sideInputs) => s.portable (n := n)
  have he : encode c = .ok (recordItem [("main_output_tag", m), ("side_output_tags", o),
      ("side_inputs", i), ("trace_tuples", boolItem c.traces)]) := by
    change (do
      return recordItem [
        ("main_output_tag", ← encode c.mainOutput),
        ("side_output_tags", ← encode c.sideOutputs),
        ("side_inputs", ← encode c.sideInputs),
        ("trace_tuples", ← encode c.traces)]) = _
    rw [hm, ho, hi]
    rfl
  refine ⟨_, he, mapItem_ne_nil _, fun hl => ?_⟩
  obtain ⟨lm, lo, li, -⟩ := by simpa only [List.forall_mem_cons] using short_fields hl
  have fills : Fills Parts.field (n + 3) ⟨none, none, none, none⟩
      [("main_output_tag", m), ("side_output_tags", o), ("side_inputs", i),
        ("trace_tuples", boolItem c.traces)]
      ⟨some c.mainOutput, some c.sideOutputs, some c.sideInputs, some c.traces⟩ := by
    refine Fills.next (by decide) rfl (reads_fill (rm lm)) ?_
    refine Fills.next (by decide) rfl (reads_fill (ro lo)) ?_
    refine Fills.next (by decide) rfl (reads_fill (ri li)) ?_
    exact Fills.next (by decide) rfl (reads_fill (reads_bool _ c.traces)) Fills.done
  exact reads_record (by simp) fills rfl

/-- A split travels. -/
theorem MemorySplit.portable (s : MemorySplit) : Portable (n + 1) s := by
  refine ⟨_, rfl, mapItem_ne_nil _, fun _ => ?_⟩
  have fills : Fills Parts.field n ⟨none, none, none⟩
      [("start", unsignedItem s.start.toNat), ("end", unsignedItem s.stop.toNat),
        ("length", unsignedItem s.length.toNat)]
      ⟨some s.start, some s.stop, some s.length⟩ := by
    refine Fills.next (by decide) rfl (reads_fill (reads_word n s.start)) ?_
    refine Fills.next (by decide) rfl (reads_fill (reads_word n s.stop)) ?_
    exact Fills.next (by decide) rfl (reads_fill (reads_word n s.length)) Fills.done
  exact reads_record (by simp) fills rfl

/-! ## All types -/

/-- The types of payloads that travel in windowed values. -/
inductive Payload : (α : Type) → [ToCbor α] → [FromCbor α] → Prop
  | word : Payload UInt64
  | text : Payload String
  | absent : Payload Unit
  | wordAndText : Payload (UInt64 × String)

/-- The types whose values travel. -/
inductive Travelling : (α : Type) → [ToCbor α] → [FromCbor α] → Prop
  | timestamp : Travelling Timestamp
  | window : Travelling Window
  | mapping : Travelling WindowMapping
  | outputTag : Travelling OutputTag
  | sideInputId : Travelling SideInputId
  | sideInput : Travelling SideInputSpec
  | config : Travelling Config
  | split : Travelling MemorySplit
  | windowed {α} [ToCbor α] [FromCbor α] (h : Payload α) : Travelling (WindowedValue α)

variable {α : Type} [ToCbor α] [FromCbor α]

/-- Every payload travels. -/
theorem Payload.portable (h : Payload α) (a : α) : Portable (n + 1) a := by
  cases h with
  | word => exact PortableType.portable a
  | text => exact PortableType.portable a
  | absent => exact PortableType.portable a
  | wordAndText => exact PortableType.portable a

/-- All that is sent between workers can be written, and reads back. -/
theorem Travelling.portable (h : Travelling α) (a : α) : Portable maxLevels a := by
  cases h with
  | timestamp => exact Timestamp.portable a
  | window => exact Window.portable (n := 254) a
  | mapping => exact WindowMapping.portable (n := 255) a
  | outputTag => exact OutputTag.portable a
  | sideInputId => exact SideInputId.portable a
  | sideInput => exact SideInputSpec.portable (n := 254) a
  | config => exact Config.portable (n := 252) a
  | split => exact MemorySplit.portable (n := 255) a
  | windowed h => exact WindowedValue.portable (n := 252) (h.portable (n := 254) a.value)

/-- Every value that travels has an encoding and is read back from it, whatever follows. -/
theorem decode_encode_append (h : Travelling α) (a : α) :
    ∃ bytes, encode a = .ok bytes ∧
      (bytes.length < 2 ^ 64 → ∀ rest, decode α (bytes ++ rest) = .ok a) := by
  obtain ⟨bytes, he, -, reads⟩ := h.portable a
  exact ⟨bytes, he, fun hl rest => decode_append (reads hl) rest⟩

/-- A value with both sentinels, a large word, a text with a long character and several windows. -/
def farTravelled : WindowedValue (UInt64 × String) :=
  ⟨(18446744073709551615, "größe"), .minValue, [.interval .minValue .maxValue, .global]⟩

/-- The encoding of that value. -/
def farTravelledBytes : Bytes :=
  recordItem [
    ("value", arrayItem [unsignedItem 18446744073709551615, textItem "größe"]),
    ("timestamp", integerItem (-9223372036854775808)),
    ("windows", arrayItem [(Window.interval .minValue .maxValue).item, Window.global.item])]

theorem decode_encode_append_farTravelled :
    Travelling (WindowedValue (UInt64 × String)) ∧ encode farTravelled = .ok farTravelledBytes ∧
      farTravelledBytes.length < 2 ^ 64 ∧
      decode (WindowedValue (UInt64 × String)) (farTravelledBytes ++ [0xff, 0x00]) =
        .ok farTravelled := by
  have ht : Travelling (WindowedValue (UInt64 × String)) := .windowed .wordAndText
  have hl : farTravelledBytes.length < 2 ^ 64 := by decide +kernel
  have written : encode farTravelled = .ok farTravelledBytes := rfl
  obtain ⟨bytes, he, back⟩ := decode_encode_append ht farTravelled
  cases written.symm.trans he
  exact ⟨ht, written, hl, back hl _⟩

end EventStream
