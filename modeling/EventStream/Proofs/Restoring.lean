import EventStream.Snapshot
import EventStream.Proofs.EffectViews

/-!
# Restoring a processor

Bytes are restored as a whole or not at all. They are refused if they are no
snapshot, or if one of the values in it belongs to no side input of the
processor; nothing has changed then.
-/

namespace EventStream

open Cbor

variable {σ ι ν ο : Type}

/-- The place of an entry. -/
def SideInputEntry.key (e : SideInputEntry ν) : SideInputKey := (e.index, e.window)

namespace SideInputs

/-- Writes entries one after another, whatever their indices. -/
def overlay (s : SideInputs ν) (entries : List (SideInputEntry ν)) : SideInputs ν :=
  entries.foldl (fun s e => s.write e.key e.value) s

@[simp] theorem specs_overlay (s : SideInputs ν) (entries : List (SideInputEntry ν)) :
    (s.overlay entries).specs = s.specs := by
  induction entries generalizing s with
  | nil => rfl
  | cons e rest ih => exact ih (s.write e.key e.value)

/-- In every place stands the last value written there. -/
theorem lookup_overlay (s : SideInputs ν) (entries : List (SideInputEntry ν))
    (key : SideInputKey) :
    (s.overlay entries).lookup key =
      ((entries.reverse.find? fun e => decide (e.key = key)).map SideInputEntry.value).or
        (s.lookup key) := by
  induction entries generalizing s with
  | nil => rfl
  | cons e rest ih =>
      change ((s.write e.key e.value).overlay rest).lookup key = _
      rw [ih, lookup_write, List.reverse_cons, List.find?_append, Option.map_or, Option.or_assoc]
      congr 1
      by_cases h : e.key = key <;> simp [h]

/-- Entries with known indices are written, and the first unknown index is refused. -/
theorem writeEntries_eq (s : SideInputs ν) (entries : List (SideInputEntry ν)) :
    s.writeEntries entries =
      match entries.find? fun e => decide (s.count ≤ e.index) with
      | some e => .error (.unknownSideInput e.index s.count)
      | none => .ok (s.overlay entries) := by
  induction entries generalizing s with
  | nil => rfl
  | cons e rest ih =>
      by_cases h : e.index < s.count
      · have hn : ¬ s.count ≤ e.index := Nat.not_le.2 h
        simp only [writeEntries, checkIndex, if_pos h, List.find?_cons, hn, decide_false]
        exact ih (s.write (e.index, e.window) e.value)
      · have hn : s.count ≤ e.index := Nat.not_lt.1 h
        simp only [writeEntries, checkIndex, if_neg h, List.find?_cons, hn, decide_true]

end SideInputs

namespace Processor

/--
A processor `q` that was `p` before a snapshot was restored: buffer, side inputs and watermarks are
those of the snapshot, with the hold and the output watermark in order, and all else is as it was.
-/
structure Restored (p : Processor σ ι ν ο) (s : Snapshot ι ν) (q : Processor σ ι ν ο) : Prop where
  elements : q.pushback.elements = s.pushedBack
  hold : q.pushback.minTimestamp = .minimum (s.pushedBack.map WindowedValue.timestamp)
  specs : q.sideInputs.specs = p.config.sideInputs
  values : ∀ key, q.sideInputs.lookup key =
    (s.sideInputs.reverse.find? fun e => decide (e.key = key)).map SideInputEntry.value
  input : q.watermarks.input = s.inputWatermark
  output : q.watermarks.output = min s.outputWatermark s.inputWatermark
  waits : q.watermarks.waits = p.watermarks.waits
  config : q.config = p.config
  function : q.function = p.function
  user : q.user = p.user
  slot : q.slot = p.slot
  lifecycle : q.lifecycle = p.lifecycle

/-- A snapshot whose values all belong to side inputs of a processor. -/
def Accepts (p : Processor σ ι ν ο) (s : Snapshot ι ν) : Prop :=
  ∀ e ∈ s.sideInputs, e.index < p.config.sideInputs.length

/-- The processor that takes over a snapshot, whatever the places of its values. -/
def takeOver (p : Processor σ ι ν ο) (s : Snapshot ι ν) : Processor σ ι ν ο :=
  { p with
    sideInputs := (SideInputs.empty p.config.sideInputs).overlay s.sideInputs
    pushback := .ofElements s.pushedBack
    watermarks := p.watermarks.restore s.inputWatermark s.outputWatermark }

theorem load_of_accepts {p : Processor σ ι ν ο} {s : Snapshot ι ν} (h : p.Accepts s) :
    load s p = ⟨.ok (), p.takeOver s,
      [.note (.restored s.pushedBack.length (p.takeOver s).watermarks.output)]⟩ := by
  have hn : (s.sideInputs.find? fun e =>
      decide ((SideInputs.empty p.config.sideInputs : SideInputs ν).count ≤ e.index)) = none := by
    apply List.find?_eq_none.2
    intro e he hle
    exact Nat.not_le.2 (h e he) (of_decide_eq_true hle)
  simp only [load, SideInputs.writeEntries_eq, hn, takeOver]

theorem restored_takeOver (p : Processor σ ι ν ο) (s : Snapshot ι ν) :
    Restored p s (p.takeOver s) := by
  refine ⟨rfl, rfl, SideInputs.specs_overlay _ _, fun key => ?_, rfl, rfl, rfl, rfl, rfl, rfl, rfl,
    rfl⟩
  exact (SideInputs.lookup_overlay _ _ _).trans Option.or_none

theorem load_of_not_accepts {p : Processor σ ι ν ο} {s : Snapshot ι ν} (h : ¬ p.Accepts s) :
    ∃ e ∈ s.sideInputs, ¬ e.index < p.config.sideInputs.length ∧
      load s p = ⟨.error (.unknownSideInput e.index p.config.sideInputs.length), p, []⟩ := by
  cases hf : s.sideInputs.find? fun e =>
      decide ((SideInputs.empty p.config.sideInputs : SideInputs ν).count ≤ e.index) with
  | none =>
      refine absurd (fun e he => ?_) h
      have := List.find?_eq_none.1 hf e he
      exact Nat.not_le.1 fun hle => this (decide_eq_true hle)
  | some e =>
      refine ⟨e, List.mem_of_find?_eq_some hf, ?_, ?_⟩
      · have := List.find?_some hf
        exact Nat.not_lt.2 (of_decide_eq_true this)
      · simp only [load, SideInputs.writeEntries_eq, hf]
        rfl

section Restore
variable [FromCbor ι] [FromCbor ν] (p : Processor σ ι ν ο) (bytes : Bytes)

/-- Bytes are a snapshot that is taken over, or they are refused and nothing changes. -/
theorem restore_cases :
    (∃ s, decode (Snapshot ι ν) bytes = .ok s ∧ p.Accepts s ∧
      restore bytes p = ⟨.ok (), p.takeOver s,
        [.note (.restored s.pushedBack.length (p.takeOver s).watermarks.output)]⟩) ∨
    (∀ s, decode (Snapshot ι ν) bytes = .ok s → ¬ p.Accepts s) ∧
      ∃ e, restore bytes p = ⟨.error e, p, []⟩ := by
  cases hd : decode (Snapshot ι ν) bytes with
  | error e =>
      right
      refine ⟨fun s hs => (nomatch hs), .decode e, ?_⟩
      simp only [restore, hd]
  | ok s =>
      have hr : restore bytes p = load s p := by simp only [restore, hd]
      by_cases ha : p.Accepts s
      · left
        exact ⟨s, rfl, ha, hr.trans (load_of_accepts ha)⟩
      · right
        obtain ⟨e, -, -, he⟩ := load_of_not_accepts ha
        refine ⟨fun t ht => ?_, _, hr.trans he⟩
        cases ht
        exact ha

/--
Restoring is all or nothing. It succeeds exactly on the bytes of a snapshot that the processor
accepts, and then the processor holds what the snapshot does; otherwise nothing has changed. In
neither case is the user function called or anything emitted.
-/
theorem restore_all_or_nothing :
    ((restore bytes p).result = .ok () ↔
      ∃ s, decode (Snapshot ι ν) bytes = .ok s ∧ p.Accepts s) ∧
    (∀ s, decode (Snapshot ι ν) bytes = .ok s → (restore bytes p).result = .ok () →
      Restored p s (restore bytes p).state) ∧
    (∀ e, (restore bytes p).result = .error e → (restore bytes p).state = p) ∧
    Effect.Silent (restore bytes p).effects := by
  obtain ⟨s, hd, ha, hr⟩ | ⟨refused, e, hr⟩ := restore_cases p bytes
  · rw [hr, hd]
    refine ⟨⟨fun _ => ⟨s, rfl, ha⟩, fun _ => rfl⟩, ?_, ?_, Effect.silent_notes [_]⟩
    · rintro t ht -
      cases ht
      exact restored_takeOver p s
    · intro e he
      cases he
  · rw [hr]
    refine ⟨⟨fun h => (nomatch h), ?_⟩, ?_, fun _ _ => rfl, Effect.silent_notes []⟩
    · rintro ⟨s, hs, ha⟩
      exact absurd ha (refused s hs)
    · intro s _ h
      cases h

end Restore

end Processor

end EventStream
