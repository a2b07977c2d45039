import EventStream.Proofs.Agreement
import EventStream.Proofs.NoLateData
import EventStream.Proofs.SnapshotCodec

/-!
# Checkpoints

A processor that is restored from the snapshot of another one keeps what that
one keeps. Under the same user function in the same state, the two cannot be
told apart by any further signals.
-/

namespace EventStream

open Cbor
open scoped List

variable {σ ι ν ο : Type}

namespace SideInputs

variable {key : SideInputKey} {value : ν} {values : List (SideInputKey × ν)}

/-- With distinct keys, a value is found just when it is listed under the key. -/
theorem find?_eq_some_iff (hd : (values.map Prod.fst).Nodup) :
    find? key values = some value ↔ (key, value) ∈ values := by
  induction values with
  | nil => simp [find?]
  | cons e rest ih =>
      obtain ⟨k, v⟩ := e
      rw [List.map_cons, List.nodup_cons] at hd
      simp only [find?, List.mem_cons, Prod.mk.injEq]
      by_cases hk : k = key
      · subst hk
        have hm : (k, value) ∉ rest := by
          intro hm
          have : k ∈ rest.map Prod.fst := List.mem_map_of_mem hm
          exact hd.1 this
        simp [hm, eq_comm]
      · simp [hk, ih hd.2, Ne.symm hk]

/-- With distinct keys, the order of the list does not matter to what is found. -/
theorem find?_eq_of_perm {xs ys : List (SideInputKey × ν)} (h : xs ~ ys)
    (hd : (ys.map Prod.fst).Nodup) (key : SideInputKey) : find? key xs = find? key ys := by
  ext value
  rw [find?_eq_some_iff hd, find?_eq_some_iff ((h.map Prod.fst).nodup_iff.2 hd), h.mem_iff]

/-- Entries in different places, none of them taken, are written as they come. -/
theorem values_overlay {s : SideInputs ν} {entries : List (SideInputEntry ν)}
    (hd : (s.values.map Prod.fst ++ entries.map SideInputEntry.key).Nodup) :
    (s.overlay entries).values = s.values ++ entries.map fun e => (e.key, e.value) := by
  induction entries generalizing s with
  | nil => exact (List.append_nil _).symm
  | cons e rest ih =>
      have hf : e.key ∉ s.values.map Prod.fst := by
        intro hm
        exact (List.nodup_append.1 hd).2.2 e.key hm e.key List.mem_cons_self rfl
      have written : (s.write e.key e.value).values = s.values ++ [(e.key, e.value)] :=
        overwrite_of_notMem hf
      have step := ih (s := s.write e.key e.value) (by simpa [written] using hd)
      rw [written, List.append_assoc] at step
      exact step

theorem map_key_entries (s : SideInputs ν) :
    s.entries.map SideInputEntry.key = s.values.map Prod.fst := by
  rw [entries, List.map_map]
  rfl

theorem map_pair_entries (s : SideInputs ν) :
    (s.entries.map fun e => (e.key, e.value)) = s.values := by
  rw [entries, List.map_map]
  exact List.map_id s.values

section Overlay
variable {s : SideInputs ν} (hs : s.Placed) {entries : List (SideInputEntry ν)}
  (h : entries ~ s.entries)
include hs h

/-- An empty store takes over entries with distinct keys as they are. -/
theorem values_overlay_empty :
    ((empty s.specs).overlay entries).values = entries.map fun e => (e.key, e.value) := by
  have hd : (entries.map SideInputEntry.key).Nodup := by
    rw [(h.map SideInputEntry.key).nodup_iff, map_key_entries]
    exact hs.distinct
  exact values_overlay (s := empty s.specs) hd

/-- The values of side inputs, written again in any order, are the same. -/
theorem sameValues_overlay : SameValues s ((empty s.specs).overlay entries) := by
  refine ⟨specs_overlay _ _, fun key => ?_⟩
  have hp : (entries.map fun e => (e.key, e.value)) ~ s.values := by
    have := h.map fun e => (e.key, e.value)
    rwa [map_pair_entries] at this
  rw [lookup, lookup, values_overlay_empty hs h]
  exact find?_eq_of_perm hp hs.distinct key

/-- The entries of a store that took them over are those entries again. -/
theorem entries_overlay : ((empty s.specs).overlay entries).entries = entries := by
  rw [SideInputs.entries, values_overlay_empty hs h, List.map_map]
  exact List.map_id entries

end Overlay

end SideInputs

namespace Processor

/-- Processors that keep the same between signals. -/
structure SameKept (p q : Processor σ ι ν ο) : Prop where
  elements : q.pushback.elements = p.pushback.elements
  hold : q.pushback.minTimestamp = p.pushback.minTimestamp
  sideInputs : SideInputs.SameValues p.sideInputs q.sideInputs
  input : q.watermarks.input = p.watermarks.input
  output : q.watermarks.output = p.watermarks.output

section TakeOver
variable {p q : Processor σ ι ν ο} (hp : p.Sound) (hq : q.Sound) (hc : q.config = p.config)
  {entries : List (SideInputEntry ν)} (he : entries ~ p.sideInputs.entries)

/-- A processor that is sound writes only entries of side inputs that it declares. -/
theorem index_lt_of_mem_entries (hp : p.Sound) {e : SideInputEntry ν}
    (he : e ∈ p.sideInputs.entries) : e.index < p.config.sideInputs.length := by
  have hk : e.key ∈ p.sideInputs.values.map Prod.fst := by
    rw [← SideInputs.map_key_entries]
    exact List.mem_map_of_mem he
  have := hp.placed.known e.key hk
  rwa [SideInputs.count, hp.specs] at this

include hp hc he

/--
Taking over a snapshot makes two processors keep the same, in whatever order it lists the store.
-/
theorem sameKept_takeOver :
    SameKept p (q.takeOver { p.toSnapshot with sideInputs := entries }) := by
  refine ⟨rfl, hp.exact.symm, ?_, rfl, ?_⟩
  · change SideInputs.SameValues p.sideInputs
      ((SideInputs.empty q.config.sideInputs).overlay entries)
    rw [hc, ← hp.specs]
    exact SideInputs.sameValues_overlay hp.placed he
  · apply Timestamp.ext
    have := Timestamp.le_iff.1 hp.behind
    change (min p.watermarks.output p.watermarks.input).millis = _
    rw [Timestamp.millis_min]
    omega

theorem toSnapshot_takeOver :
    (q.takeOver { p.toSnapshot with sideInputs := entries }).toSnapshot =
      { p.toSnapshot with sideInputs := entries } := by
  have kept := sameKept_takeOver hp hc he
  have same : (q.takeOver { p.toSnapshot with sideInputs := entries }).sideInputs.entries =
      entries := by
    change ((SideInputs.empty q.config.sideInputs).overlay entries).entries = entries
    rw [hc, ← hp.specs]
    exact SideInputs.entries_overlay hp.placed he
  rw [toSnapshot, same, kept.output]
  rfl

include hq in
/-- A processor that took over a snapshot agrees with the one that it was taken of. -/
theorem agrees_takeOver (ho : p.function.Observant) (hf : q.function = p.function)
    (hu : q.user = p.user) (hl : q.lifecycle = p.lifecycle) :
    Agrees p (q.takeOver { p.toSnapshot with sideInputs := entries }) := by
  have kept := sameKept_takeOver hp hc he
  have waits : q.watermarks.waits = p.watermarks.waits := by
    rw [hq.waits, hp.waits, hc]
  refine ⟨ho, hc, hf, hu, kept.sideInputs, ?_, ?_, hl⟩
  · change Pushback.mk p.pushback.elements _ = Pushback.mk p.pushback.elements _
    exact congrArg _ kept.hold
  · change Watermarks.mk p.watermarks.input _ q.watermarks.waits = _
    rw [waits]
    exact congrArg (Watermarks.mk p.watermarks.input · p.watermarks.waits) kept.output

end TakeOver

/--
A processor restored from the snapshot of another of the same configuration, with the values of the
side inputs written in any order, keeps what that one keeps and has the same snapshot. Under the
same user function in the same state it handles all further signals with the same results and the
same effects, in particular the same emissions.

The bounds are those of lengths and indices in eight bytes.
-/
theorem checkpoint_round_trip [ToCbor ι] [FromCbor ι] [ToCbor ν] [FromCbor ν]
    [PortableType Snapshot.payloadLevels ι] [PortableType Snapshot.payloadLevels ν]
    {p q : Processor σ ι ν ο} (hp : p.Reachable) (hq : q.Reachable) (hc : q.config = p.config)
    (hn : p.config.sideInputs.length ≤ 2 ^ 64) :
    (∃ bytes, p.snapshot = .ok bytes ∧ p.toSnapshot.WrittenAs bytes) ∧
    ∀ bytes, p.toSnapshot.WrittenAs bytes → bytes.length < 2 ^ 64 →
      (restore bytes q).result = .ok () ∧
      SameKept p (restore bytes q).state ∧
      (restore bytes q).state.snapshot = p.snapshot ∧
      (p.function.Observant → q.function = p.function → q.user = p.user →
        q.lifecycle = p.lifecycle → ∀ signals,
          ((restore bytes q).state.reports signals).map Report.visible =
            (p.reports signals).map Report.visible) := by
  have known : ∀ e ∈ p.toSnapshot.sideInputs, e.index < 2 ^ 64 :=
    fun e he => Nat.lt_of_lt_of_le (index_lt_of_mem_entries hp.sound he) hn
  refine ⟨?_, ?_⟩
  · obtain ⟨bytes, he, hw⟩ := Snapshot.exists_encode known
    exact ⟨bytes, by rw [snapshot, he]; rfl, hw⟩
  · rintro bytes ⟨entries, he, hb⟩ hl
    have hd : decode (Snapshot ι ν) bytes = .ok { p.toSnapshot with sideInputs := entries } :=
      Snapshot.decode_itemInOrder (fun e hm => known e (he.subset hm)) hb hl
    have ha : q.Accepts { p.toSnapshot with sideInputs := entries } := by
      intro e hm
      rw [hc]
      exact index_lt_of_mem_entries hp.sound (he.subset hm)
    simp only [restore, hd, load_of_accepts ha]
    refine ⟨trivial, sameKept_takeOver hp.sound hc he, ?_, ?_⟩
    · rw [snapshot, toSnapshot_takeOver hp.sound hc he, Snapshot.encode_eq_of_perm known he]
      rfl
    · intro ho hf hu hlife signals
      exact (agrees_takeOver hp.sound hq.sound hc he ho hf hu hlife).visible_reports signals

/-- The user function that names the currency of an element and counts the elements. -/
def priceTags : UserFunction Nat (UInt64 × String) String String where
  processElement cx n :=
    let currency := (cx.sideInput 1).getD ""
    ⟨[cx.output (cx.element.value.2 ++ currency)], .ok (), n + 1⟩

theorem observant_priceTags : priceTags.Observant := by
  intro cx cx' n h
  simp only [priceTags, Context.output, Context.outputAt, h.element, h.window, h.byIndex]

/-- A processor with a waiting element, some values and both watermarks behind rejected signals. -/
def checkpointed : Processor Nat (UInt64 × String) String String :=
  (started twoSideInputs priceTags 0).after
    [.sideInput 1 ⟨"EUR", .zero, [.global]⟩, .watermark nineMillis,
      .sideInput 0 ⟨"day", .zero, [.global]⟩, .element ⟨(7, "seven"), fiveMillis, [hour]⟩,
      .watermark .zero, .sideInput 2 ⟨"none", .zero, [hour]⟩]

/-- Another processor of the same configuration, with values of its own. -/
def elsewhere : Processor Nat (UInt64 × String) String String :=
  (started twoSideInputs priceTags 0).after [.sideInput 0 ⟨"night", .zero, [hour]⟩]

/-- The snapshot of the first, with the values the other way round. -/
def reorderedBytes : Bytes :=
  recordItem [
    ("pushed_back", arrayItem [recordItem [
      ("value", arrayItem [unsignedItem 7, textItem "seven"]),
      ("timestamp", integerItem 5),
      ("windows", arrayItem [hour.item])]]),
    ("side_inputs", arrayItem [
      arrayItem [unsignedItem 0, Window.global.item, textItem "day"],
      arrayItem [unsignedItem 1, Window.global.item, textItem "EUR"]]),
    ("input_watermark", integerItem 9),
    ("output_watermark", integerItem 9)]

/-- Signals that release the waiting element and move the watermark on. -/
def releasing : List (Signal (UInt64 × String) String) :=
  [.sideInput 0 ⟨"day", .zero, [hour]⟩, .watermark .maxValue]

theorem checkpoint_round_trip_reordered :
    checkpointed.Reachable ∧ elsewhere.Reachable ∧ elsewhere.config = checkpointed.config ∧
      checkpointed.config.sideInputs.length ≤ 2 ^ 64 ∧
      checkpointed.toSnapshot.WrittenAs reorderedBytes ∧ reorderedBytes.length < 2 ^ 64 ∧
      (restore reorderedBytes elsewhere).result = .ok () ∧
      ((restore reorderedBytes elsewhere).state.reports releasing).map Report.visible =
        (checkpointed.reports releasing).map Report.visible ∧
      Effect.emissions (checkpointed.trace releasing) =
        [(.main, .data ⟨"sevenEUR", fiveMillis, [hour]⟩), (.main, .watermark .maxValue)] := by
  have fresh : (started twoSideInputs priceTags 0).Fresh := fresh_started (by decide) rfl
  have hp : checkpointed.Reachable := fresh.reachable.after _
  have hq : elsewhere.Reachable := fresh.reachable.after _
  have hw : checkpointed.toSnapshot.WrittenAs reorderedBytes :=
    ⟨checkpointed.toSnapshot.sideInputs.reverse, List.reverse_perm _, rfl⟩
  have hl : reorderedBytes.length < 2 ^ 64 := by decide +kernel
  obtain ⟨ok, -, -, alike⟩ := (checkpoint_round_trip hp hq rfl (by decide)).2 reorderedBytes hw hl
  exact ⟨hp, hq, rfl, by decide, hw, hl, ok, alike observant_priceTags rfl rfl rfl releasing, rfl⟩

end Processor

end EventStream
