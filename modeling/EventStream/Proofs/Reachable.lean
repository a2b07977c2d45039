import EventStream.Proofs.Commands
import EventStream.Proofs.Hold

/-!
# The processors that calls lead to

A processor starts from an accepted configuration and is set up, fed, restored
and torn down in any order, with any outcome. Whatever was called, its values
stand in different places, all of known side inputs, its hold is the smallest
timestamp in its buffer, and its output watermark is behind its input watermark.
-/

namespace EventStream

open Cbor

variable {σ ι ν ο : Type}

/-! ## The places of values -/

namespace SideInputs

variable {key : SideInputKey} {value : ν} {values : List (SideInputKey × ν)}

theorem overwrite_of_notMem (h : key ∉ values.map Prod.fst) :
    overwrite key value values = values ++ [(key, value)] := by
  induction values with
  | nil => rfl
  | cons e rest ih =>
      rw [List.map_cons, List.mem_cons, not_or] at h
      rw [overwrite, if_neg (Ne.symm h.1), ih h.2]
      rfl

theorem map_fst_overwrite (h : key ∈ values.map Prod.fst) :
    (overwrite key value values).map Prod.fst = values.map Prod.fst := by
  induction values with
  | nil => cases h
  | cons e rest ih =>
      by_cases he : e.1 = key
      · rw [overwrite, if_pos he, List.map_cons, List.map_cons, he]
      · have hr : key ∈ rest.map Prod.fst := (List.mem_cons.1 h).resolve_left (Ne.symm he)
        rw [overwrite, if_neg he, List.map_cons, List.map_cons, ih hr]

/-- Values in different places, all of known side inputs. -/
structure Placed (s : SideInputs ν) : Prop where
  distinct : (s.values.map Prod.fst).Nodup
  known : ∀ key ∈ s.values.map Prod.fst, key.1 < s.count

theorem placed_empty (specs : List SideInputSpec) : (empty specs : SideInputs ν).Placed :=
  ⟨List.nodup_nil, fun _ h => (nomatch h)⟩

/-- A value at the place of a side input that exists is placed. -/
theorem Placed.write {s : SideInputs ν} (h : s.Placed) (hk : key.1 < s.count) (value : ν) :
    (s.write key value).Placed := by
  by_cases hm : key ∈ s.values.map Prod.fst
  · have same : (s.write key value).values.map Prod.fst = s.values.map Prod.fst :=
      map_fst_overwrite hm
    exact ⟨same ▸ h.distinct, same ▸ h.known⟩
  · have added : (s.write key value).values.map Prod.fst = s.values.map Prod.fst ++ [key] := by
      rw [SideInputs.write, overwrite_of_notMem hm, List.map_append]
      rfl
    refine ⟨?_, ?_⟩
    · rw [added]
      exact (List.perm_append_singleton key _).nodup_iff.2 (List.nodup_cons.2 ⟨hm, h.distinct⟩)
    · rw [added, List.forall_mem_append]
      exact ⟨h.known, fun k hk' => List.mem_singleton.1 hk' ▸ hk⟩

/-- A value of a side input that exists is placed in each of its windows. -/
theorem Placed.writeAll {s : SideInputs ν} (h : s.Placed) {i : Nat} (hi : i < s.count)
    (v : WindowedValue ν) : (s.writeAll i v).Placed := by
  unfold SideInputs.writeAll
  induction v.windows generalizing s with
  | nil => exact h
  | cons w ws ih =>
      have hw : (s.write (i, w) v.value).Placed := h.write hi v.value
      exact ih hw hi

/-- Entries of side inputs that exist are placed. -/
theorem Placed.overlay {s : SideInputs ν} (h : s.Placed) {entries : List (SideInputEntry ν)}
    (hk : ∀ e ∈ entries, e.index < s.count) : (s.overlay entries).Placed := by
  induction entries generalizing s with
  | nil => exact h
  | cons e rest ih =>
      rw [List.forall_mem_cons] at hk
      have he : (s.write e.key e.value).Placed := h.write hk.1 e.value
      exact ih he hk.2

end SideInputs

/-! ## The output watermark behind the input watermark -/

namespace Watermarks

variable {w w' : Watermarks} {t hold : Timestamp} {o : Option Timestamp}

/-- An advance leaves the output watermark behind the input watermark. -/
theorem advance_behind (h : w.output ≤ w.input) (hold : Timestamp) :
    (w.advance hold).2.output ≤ (w.advance hold).2.input := by
  unfold advance
  split
  · exact Timestamp.min_le_right _ _
  · exact h

/-- A receipt leaves the output watermark behind the input watermark. -/
theorem receive_behind (h : w.output ≤ w.input) (hr : w.receive t hold = (.ok o, w')) :
    w'.output ≤ w'.input := by
  unfold receive at hr
  split at hr
  · cases hr
  · rename_i ht
    have raised : w.output ≤ t := Timestamp.le_trans h (Timestamp.not_lt.1 ht)
    split at hr
    · have moved := advance_behind (w := { w with input := t }) raised hold
      cases hr
      exact moved
    · cases hr
      exact Timestamp.le_refl t

/-- A change of the hold leaves the output watermark behind the input watermark. -/
theorem holdChanged_behind (h : w.output ≤ w.input) (hold : Timestamp) :
    (w.holdChanged hold).2.output ≤ (w.holdChanged hold).2.input := by
  unfold holdChanged
  split
  · exact advance_behind h hold
  · exact h

end Watermarks

namespace Processor

/-- Processors that calls lead to, the calls that fail included. -/
inductive Reachable [FromCbor ι] [FromCbor ν] : Processor σ ι ν ο → Prop
  | made {config function user p} (h : make? config function user = .ok p) : Reachable p
  | slotted {p} (h : Reachable p) (slot : AssertionSlot) : Reachable { p with slot := slot }
  | setUp {p} (h : Reachable p) : Reachable (setup p).state
  | handled {p} (h : Reachable p) (s : Signal ι ν) : Reachable (handle s p).state
  | restored {p} (h : Reachable p) (bytes : Bytes) : Reachable (restore bytes p).state
  | left {p} (h : Reachable p) : Reachable p.leave.state

/-- What holds of a processor after any calls. -/
structure Sound (p : Processor σ ι ν ο) : Prop where
  specs : p.sideInputs.specs = p.config.sideInputs
  placed : p.sideInputs.Placed
  exact : p.pushback.Exact
  behind : p.watermarks.output ≤ p.watermarks.input
  waits : p.watermarks.waits = !p.config.sideInputs.isEmpty

variable {p : Processor σ ι ν ο} {s : Signal ι ν}
  {r : Report (Processor σ ι ν ο) (Effect ι ο) ProcessingError Unit}

/-- A new processor is sound. -/
theorem sound_initial (config : Config) (function : UserFunction σ ι ν ο) (user : σ) :
    (initial config function user).Sound :=
  ⟨rfl, SideInputs.placed_empty _, rfl, Timestamp.le_refl _, rfl⟩

theorem Sound.store (hp : p.Sound) {i : Nat} (hi : i < p.sideInputs.count)
    (v : WindowedValue ν) : (p.store i v).Sound :=
  ⟨(SideInputs.specs_writeAll ..).trans hp.specs, hp.placed.writeAll hi v, hp.exact, hp.behind,
    hp.waits⟩

/-- Every signal keeps a processor sound. -/
theorem Step.sound (h : Step p s r) (hp : p.Sound) : r.state.Sound := by
  cases h with
  | passed h => exact ⟨hp.specs, hp.placed, hp.exact.addAll _, hp.behind, hp.waits⟩
  | failed h => exact ⟨hp.specs, hp.placed, hp.exact, hp.behind, hp.waits⟩
  | regressed h => exact hp
  | @advanced t o w ht h =>
      have hw : w.waits = p.watermarks.waits := by
        have := p.watermarks.waits_receive t p.pushback.minTimestamp
        rwa [h] at this
      exact ⟨hp.specs, hp.placed, hp.exact, Watermarks.receive_behind hp.behind h,
        hw.trans hp.waits⟩
  | unknown hi => exact hp
  | interrupted hi h =>
      have hs := hp.store hi
      exact ⟨(hs _).specs, (hs _).placed, Pushback.exact_ofElements _, hp.behind, hp.waits⟩
  | @reevaluated i v kept t es o w hi h hw =>
      have hs := hp.store hi v
      have behind := Watermarks.holdChanged_behind hp.behind (Pushback.ofElements kept).minTimestamp
      have waits := p.watermarks.waits_holdChanged (Pushback.ofElements kept).minTimestamp
      rw [hw] at behind waits
      exact ⟨hs.specs, hs.placed, Pushback.exact_ofElements _, behind, waits.trans hp.waits⟩
  | ignored => exact hp

/-- A processor that has taken over an accepted snapshot is sound. -/
theorem sound_takeOver {t : Snapshot ι ν} (hw : p.watermarks.waits = !p.config.sideInputs.isEmpty)
    (ha : p.Accepts t) : (p.takeOver t).Sound := by
  refine ⟨SideInputs.specs_overlay _ _, ?_, Pushback.exact_ofElements _,
    Timestamp.min_le_right _ _, hw⟩
  exact (SideInputs.placed_empty _).overlay ha

/-- Whatever a command comes to, it leaves a sound processor sound. -/
theorem Performed.sound {c : Command ι ν} (h : Performed p c r) (hp : p.Sound) :
    r.state.Sound := by
  cases h with
  | handled hr step => exact step.sound hp
  | restored ha => exact sound_takeOver hp.waits ha
  | setUpRefused | notHandled | snapshotTaken | notRestored => exact hp
  | setUp | setUpFailed | tornDown | notTornDown =>
      exact ⟨hp.specs, hp.placed, hp.exact, hp.behind, hp.waits⟩

/-- Whatever was done to a processor, it is sound. -/
theorem Reachable.sound [FromCbor ι] [FromCbor ν] (h : p.Reachable) : p.Sound := by
  induction h with
  | made h =>
      obtain ⟨-, rfl⟩ := make?_eq_ok_iff.1 h
      exact sound_initial _ _ _
  | slotted h slot ih => exact ⟨ih.specs, ih.placed, ih.exact, ih.behind, ih.waits⟩
  | setUp h ih => exact (setup_performed _ : Performed (ν := ν) _ .setUp _).sound ih
  | handled h s ih => exact (handle_performed s _).sound ih
  | restored h bytes ih => exact (restore_performed bytes _).sound ih
  | left h ih => exact (leave_performed _ : Performed (ν := ν) _ .tearDown _).sound ih

theorem Reachable.after [FromCbor ι] [FromCbor ν] (h : p.Reachable) (signals : List (Signal ι ν)) :
    (p.after signals).Reachable := by
  induction signals using List.reverseRecOn with
  | nil => exact h
  | append_singleton signals s ih =>
      rw [after_concat]
      exact Reachable.handled ih s

/-- A fresh processor was reached by a setup. -/
theorem Fresh.reachable [FromCbor ι] [FromCbor ν] (h : p.Fresh) : p.Reachable := by
  obtain ⟨config, function, user, slot, q, hq, -, rfl⟩ := h
  exact Reachable.setUp (Reachable.slotted (Reachable.made hq) slot)

end Processor

end EventStream
