import EventStream.Proofs.Cbor.Stability
import EventStream.Proofs.Checkpoint
import EventStream.Proofs.Interchange

/-!
# Encodings that are cut short

Bytes that end inside the encoding of a value are never taken for a value or for
anything malformed: decoding them runs out of bytes. A processor that is restored
from the start of a snapshot stays as it is.

## Implementation notes

Where an encoding is cut does not matter. A verdict on its start would be kept on
the whole of it, but the whole of it is read up to its last byte.
-/

namespace EventStream

open Cbor Decoder

namespace Cbor.Decoder

variable {α : Type} {d : Decoder α} {depth : Nat} {bs : Bytes} {a : α}

/-- A stable decoder that reads an item runs out of bytes on every proper part of its start. -/
theorem Stable.endOfInput_of_cut (hs : d.Stable) (hr : d.Reads depth bs a) {cut : Bytes}
    (hc : cut <+: bs) (hne : cut ≠ bs) {levels : Nat} (hl : depth ≤ levels) (position : Nat) :
    d levels ⟨position, cut⟩ = .error .endOfInput := by
  obtain ⟨missing, rfl⟩ := hc
  by_contra hn
  have kept := hs levels ⟨position, cut⟩ missing hn
  have whole := hr levels position [] hl
  rw [List.append_nil] at whole
  change d levels ⟨position, cut ++ missing⟩ = _ at kept
  rw [whole] at kept
  cases hd : d levels ⟨position, cut⟩ with
  | error e =>
      rw [hd] at kept
      cases kept
  | ok r =>
      rw [hd] at kept
      obtain ⟨-, cursor⟩ := Prod.mk.inj (Except.ok.inj kept)
      have none : [] = r.2.rest ++ missing := congrArg Cursor.rest cursor
      have nothing : missing = [] := (List.append_eq_nil_iff.1 none.symm).2
      exact hne (by rw [nothing, List.append_nil])

end Cbor.Decoder

/-! ## The decoders of the types that travel -/

/-- Only an integer that is whole is asked whether it is a time. -/
theorem Timestamp.stable_decoder : Timestamp.decoder.Stable :=
  stable_integer.bind fun _ => stable_ofOption _

/-- The bounds of a window are stable as a record and as a pair. -/
theorem Window.stable_boundsDecoder : Window.boundsDecoder.Stable := by
  apply stable_fields
  · apply stable_record
    intro name read h part
    unfold Bounds.field at h
    split at h <;> cases h
    · exact stable_fill Timestamp.stable_decoder _ _
    · exact stable_fill Timestamp.stable_decoder _ _
  · exact (stable_pair Timestamp.stable_decoder Timestamp.stable_decoder).bind fun _ =>
      stable_pure _

/-- A window is told by the name of its variant, and then by its bounds. -/
theorem Window.stable_decoder : Window.decoder.Stable := by
  apply stable_variant
  intro name d h
  split at h <;> cases h
  · exact stable_pure _
  · exact Window.stable_boundsDecoder

/-- A mapping is a name without content. -/
theorem WindowMapping.stable_decoder : WindowMapping.decoder.Stable := by
  apply stable_variant
  intro name d h
  split at h <;> cases h
  · exact stable_pure _
  · exact stable_pure _

theorem OutputTag.stable_decoder : (FromCbor.decoder : Decoder OutputTag).Stable :=
  stable_text.bind fun _ => stable_pure _

theorem SideInputId.stable_decoder : (FromCbor.decoder : Decoder SideInputId).Stable :=
  stable_text.bind fun _ => stable_pure _

/-- The description of a side input is a record of two stable fields. -/
theorem SideInputSpec.stable_decoder : (FromCbor.decoder : Decoder SideInputSpec).Stable := by
  apply stable_record
  intro name read h part
  unfold Parts.field at h
  split at h <;> cases h
  · exact stable_fill SideInputId.stable_decoder _ _
  · exact stable_fill WindowMapping.stable_decoder _ _

/-- A configuration is a record of stable fields, lists among them. -/
theorem Config.stable_decoder : (FromCbor.decoder : Decoder Config).Stable := by
  apply stable_record
  intro name read h part
  unfold Parts.field at h
  split at h <;> cases h
  · exact stable_fill OutputTag.stable_decoder _ _
  · exact stable_fill (stable_list OutputTag.stable_decoder) _ _
  · exact stable_fill (stable_list SideInputSpec.stable_decoder) _ _
  · exact stable_fill stable_bool _ _

/-- A split is a record of three words. -/
theorem MemorySplit.stable_decoder : (FromCbor.decoder : Decoder MemorySplit).Stable := by
  apply stable_record
  intro name read h part
  unfold Parts.field at h
  split at h <;> cases h
  · exact stable_fill stable_word _ _
  · exact stable_fill stable_word _ _
  · exact stable_fill stable_word _ _

section Payloads
variable {ι ν : Type} [FromCbor ι] [FromCbor ν] (hi : (FromCbor.decoder : Decoder ι).Stable)
  (hv : (FromCbor.decoder : Decoder ν).Stable)
include hi

/-- A windowed value is stable if its payload is. -/
theorem WindowedValue.stable_decoder : (FromCbor.decoder : Decoder (WindowedValue ι)).Stable := by
  apply stable_record
  intro name read h part
  unfold Parts.field at h
  split at h <;> cases h
  · exact stable_fill hi _ _
  · exact stable_fill Timestamp.stable_decoder _ _
  · exact stable_fill (stable_list Window.stable_decoder) _ _

omit hi in
include hv in
/-- An entry of a snapshot is stable if its value is. -/
theorem SideInputEntry.stable_decoder : (FromCbor.decoder : Decoder (SideInputEntry ν)).Stable := by
  apply stable_tuple
  intro left
  apply (stable_nextItem stable_word left).bind
  intro index
  apply (stable_nextItem Window.stable_decoder index.2).bind
  intro window
  exact (stable_nextItem hv window.2).bind fun _ => stable_pure _

include hv in
/-- A snapshot is stable if elements and values of side inputs are. -/
theorem Snapshot.stable_decoder : (FromCbor.decoder : Decoder (Snapshot ι ν)).Stable := by
  apply stable_record
  intro name read h part
  unfold Parts.field at h
  split at h <;> cases h
  · exact stable_fill (stable_list (WindowedValue.stable_decoder hi)) _ _
  · exact stable_fill (stable_list (SideInputEntry.stable_decoder hv)) _ _
  · exact stable_fill Timestamp.stable_decoder _ _
  · exact stable_fill Timestamp.stable_decoder _ _

end Payloads

variable {α : Type} [ToCbor α] [FromCbor α]

/-- All payloads are stable: words, texts, both in a pair, and nothing at all. -/
theorem Payload.stable_decoder (h : Payload α) : (FromCbor.decoder : Decoder α).Stable := by
  cases h with
  | word => exact stable_word
  | text => exact stable_text
  | absent => exact stable_unit
  | wordAndText => exact stable_pair stable_word stable_text

/-- Whatever travels between workers is stable. -/
theorem Travelling.stable_decoder (h : Travelling α) : (FromCbor.decoder : Decoder α).Stable := by
  cases h with
  | timestamp => exact Timestamp.stable_decoder
  | window => exact Window.stable_decoder
  | mapping => exact WindowMapping.stable_decoder
  | outputTag => exact OutputTag.stable_decoder
  | sideInputId => exact SideInputId.stable_decoder
  | sideInput => exact SideInputSpec.stable_decoder
  | config => exact Config.stable_decoder
  | split => exact MemorySplit.stable_decoder
  | windowed h => exact WindowedValue.stable_decoder h.stable_decoder

/-! ## Cuts -/

/-- A type of payloads that snapshots carry: its values are read back, by a stable decoder. -/
structure Carried (α : Type) [ToCbor α] [FromCbor α] : Prop where
  portable : ∀ a : α, Portable Snapshot.payloadLevels a
  stable : (FromCbor.decoder : Decoder α).Stable

/-- Payloads are written, read back and stable, which is all that a snapshot needs of them. -/
theorem Payload.carried (h : Payload α) : Carried α := ⟨h.portable (n := 252), h.stable_decoder⟩

omit [ToCbor α] in
/-- Bytes that a stable decoder reads as a whole run out wherever they are cut. -/
theorem decode_cut {bs cut : Bytes} {a : α} (hs : (FromCbor.decoder : Decoder α).Stable)
    (hr : (FromCbor.decoder : Decoder α).Reads maxLevels bs a) (hc : cut <+: bs)
    (hne : cut ≠ bs) : decode α cut = .error .endOfInput := by
  rw [decode, hs.endOfInput_of_cut hr hc hne (Nat.le_refl _) 0]

/-- Wherever its encoding is cut, a value that travels is never taken for another one. -/
theorem Travelling.decode_cut (h : Travelling α) (a : α) :
    ∃ bytes, encode a = .ok bytes ∧ (bytes.length < 2 ^ 64 →
      ∀ cut, cut <+: bytes → cut ≠ bytes → decode α cut = .error .endOfInput) := by
  obtain ⟨bytes, he, -, reads⟩ := h.portable a
  exact ⟨bytes, he, fun hl _ hc hne => EventStream.decode_cut h.stable_decoder (reads hl) hc hne⟩

section Snapshots
variable {ι ν : Type} [ToCbor ι] [FromCbor ι] [ToCbor ν] [FromCbor ν]

/-- A snapshot that is cut runs out of bytes, in whatever order its entries were written. -/
theorem Snapshot.decode_cut (hi : Carried ι) (hv : Carried ν) {s : Snapshot ι ν}
    (known : ∀ e ∈ s.sideInputs, e.index < 2 ^ 64) {bytes cut : Bytes} (hw : s.WrittenAs bytes)
    (hl : bytes.length < 2 ^ 64) (hc : cut <+: bytes) (hne : cut ≠ bytes) :
    decode (Snapshot ι ν) cut = .error .endOfInput := by
  have : PortableType payloadLevels ι := ⟨hi.portable⟩
  have : PortableType payloadLevels ν := ⟨hv.portable⟩
  obtain ⟨entries, he, hb⟩ := hw
  have reads := reads_itemInOrder (fun e hm => known e (he.subset hm)) hb hl
  exact EventStream.decode_cut (stable_decoder hi.stable hv.stable) reads hc hne

namespace Processor

variable {σ ο : Type} {p : Processor σ ι ν ο}

/-- A processor whose side inputs can be counted always has a snapshot. -/
theorem exists_snapshot (hi : Carried ι) (hv : Carried ν)
    (known : ∀ e ∈ p.toSnapshot.sideInputs, e.index < 2 ^ 64) :
    ∃ bytes, p.snapshot = .ok bytes ∧ p.toSnapshot.WrittenAs bytes := by
  have : PortableType Snapshot.payloadLevels ι := ⟨hi.portable⟩
  have : PortableType Snapshot.payloadLevels ν := ⟨hv.portable⟩
  obtain ⟨bytes, he, hw⟩ := Snapshot.exists_encode known
  exact ⟨bytes, by rw [snapshot, he]; rfl, hw⟩

end Processor

end Snapshots

/--
Cut encodings are noticed. A value that travels has an encoding, and decoding any proper part of
its start, the empty one included, runs out of bytes. So does restoring a processor from a proper
part of the start of the snapshot of another one, and the processor stays as it is. The payloads
may be all that snapshots carry, among them those of windowed values that travel.

The bounds are those of lengths and indices in eight bytes.
-/
theorem cut_is_noticed :
    (∀ {α : Type} [ToCbor α] [FromCbor α], Travelling α → ∀ a : α,
      ∃ bytes, encode a = .ok bytes ∧ (bytes.length < 2 ^ 64 →
        ∀ cut, cut <+: bytes → cut ≠ bytes → decode α cut = .error .endOfInput)) ∧
    (∀ {α : Type} [ToCbor α] [FromCbor α], Payload α → Carried α) ∧
    ∀ {σ σ' ι ν ο ο' : Type} [ToCbor ι] [FromCbor ι] [ToCbor ν] [FromCbor ν],
      Carried ι → Carried ν → ∀ p : Processor σ ι ν ο, p.Reachable →
        p.config.sideInputs.length ≤ 2 ^ 64 →
        (∃ bytes, p.snapshot = .ok bytes ∧ p.toSnapshot.WrittenAs bytes) ∧
        ∀ bytes, p.toSnapshot.WrittenAs bytes → bytes.length < 2 ^ 64 →
          ∀ cut, cut <+: bytes → cut ≠ bytes → ∀ q : Processor σ' ι ν ο',
            Processor.restore cut q = ⟨.error (.decode .endOfInput), q, []⟩ := by
  refine ⟨fun h a => h.decode_cut a, Payload.carried, ?_⟩
  intro σ σ' ι ν ο ο' _ _ _ _ hi hv p hp hn
  have known : ∀ e ∈ p.toSnapshot.sideInputs, e.index < 2 ^ 64 :=
    fun e he => Nat.lt_of_lt_of_le (Processor.index_lt_of_mem_entries hp.sound he) hn
  refine ⟨Processor.exists_snapshot hi hv known, fun bytes hw hl cut hc hne q => ?_⟩
  simp only [Processor.restore, Snapshot.decode_cut hi hv known hw hl hc hne]

/-- The bytes of a value up to the middle of its first long character. -/
def farTravelledCut : Bytes := farTravelledBytes.take 21

open Processor in
theorem cut_is_noticed_midCharacter :
    decode (WindowedValue (UInt64 × String)) farTravelledCut = .error .endOfInput ∧
      checkpointed.Reachable ∧ checkpointed.config.sideInputs.length ≤ 2 ^ 64 ∧
      checkpointed.toSnapshot.WrittenAs reorderedBytes ∧ reorderedBytes.length < 2 ^ 64 ∧
      reorderedBytes.dropLast <+: reorderedBytes ∧ reorderedBytes.dropLast ≠ reorderedBytes ∧
      restore reorderedBytes.dropLast elsewhere =
        ⟨.error (.decode .endOfInput), elsewhere, []⟩ := by
  obtain ⟨values, carried, snapshots⟩ := cut_is_noticed
  have ht : Travelling (WindowedValue (UInt64 × String)) := .windowed .wordAndText
  have written : encode farTravelled = .ok farTravelledBytes := rfl
  obtain ⟨bytes, he, noticed⟩ := values ht farTravelled
  cases written.symm.trans he
  have fresh : (started twoSideInputs priceTags 0).Fresh := fresh_started (by decide) rfl
  have hp : checkpointed.Reachable := fresh.reachable.after _
  have hn : checkpointed.config.sideInputs.length ≤ 2 ^ 64 := by decide
  have hw : checkpointed.toSnapshot.WrittenAs reorderedBytes :=
    ⟨checkpointed.toSnapshot.sideInputs.reverse, List.reverse_perm _, rfl⟩
  have hl : reorderedBytes.length < 2 ^ 64 := by decide +kernel
  have hc : reorderedBytes.dropLast <+: reorderedBytes := List.dropLast_prefix _
  have hne : reorderedBytes.dropLast ≠ reorderedBytes := by decide +kernel
  obtain ⟨-, restores⟩ :=
    snapshots (carried .wordAndText) (carried .text) checkpointed hp hn
  refine ⟨?_, hp, hn, hw, hl, hc, hne, restores _ hw hl _ hc hne elsewhere⟩
  exact noticed (by decide +kernel) _ (List.take_prefix _ _) (by decide +kernel)

end EventStream
