import EventStream.Processor
import EventStream.Proofs.Sweep

/-!
# What handling a signal comes to

A running processor handles a signal in one of eight ways. The relation below
lists them with everything they leave behind, and every later statement about
signals is a case distinction on it.
-/

namespace EventStream.Processor

variable {σ ι ν ο : Type} {p : Processor σ ι ν ο}

/-- The processor after a trial or a sweep, with a new user state, slot and buffer. -/
def settle (p : Processor σ ι ν ο) (t : σ × AssertionSlot) (pushback : Pushback ι) :
    Processor σ ι ν ο :=
  { p with user := t.1, slot := t.2, pushback := pushback }

/-- The processor with a value of a side input taken in. -/
def store (p : Processor σ ι ν ο) (index : Nat) (value : WindowedValue ν) : Processor σ ι ν ο :=
  { p with sideInputs := p.sideInputs.writeAll index value }

/-- What handling a signal can come to on a processor that is running. -/
inductive Step (p : Processor σ ι ν ο) :
    Signal ι ν → Report (Processor σ ι ν ο) (Effect ι ο) ProcessingError Unit → Prop
  | passed {x back t es} (h : p.gate.tryProcess x (p.user, p.slot) = ⟨.ok back, t, es⟩) :
      Step p (.element x)
        ⟨.ok (), p.settle t (p.pushback.addAll back),
          p.router.traced (.elementReceived x.timestamp x.windows) ++ es⟩
  | failed {x e t es} (h : p.gate.tryProcess x (p.user, p.slot) = ⟨.error e, t, es⟩) :
      Step p (.element x)
        ⟨.error e, p.settle t p.pushback,
          p.router.traced (.elementReceived x.timestamp x.windows) ++ es⟩
  | regressed {t} (h : t < p.watermarks.input) :
      Step p (.watermark t)
        ⟨.error (.watermarkRegression p.watermarks.input t), p,
          p.router.traced (.watermarkReceived t)⟩
  | advanced {t o w} (ht : ¬ t < p.watermarks.input)
      (h : p.watermarks.receive t p.pushback.minTimestamp = (.ok o, w)) :
      Step p (.watermark t)
        ⟨.ok (), { p with watermarks := w },
          p.router.traced (.watermarkReceived t) ++ o.toList.flatMap p.router.emitWatermark⟩
  | unknown {i v} (hi : ¬ i < p.sideInputs.count) :
      Step p (.sideInput i v)
        ⟨.error (.unknownSideInput i p.sideInputs.count), p,
          p.router.traced (.sideInputReceived i v.timestamp v.windows)⟩
  | interrupted {i v kept e t es} (hi : i < p.sideInputs.count)
      (h : Pushback.sweep (p.store i v).gate.tryProcess p.pushback.elements (p.user, p.slot) =
        (kept, ⟨.error e, t, es⟩)) :
      Step p (.sideInput i v)
        ⟨.error e, (p.store i v).settle t (.ofElements kept),
          p.router.traced (.sideInputReceived i v.timestamp v.windows) ++
            ((SideInputs.insertNotices i v).map .note ++ es)⟩
  | reevaluated {i v kept t es o w} (hi : i < p.sideInputs.count)
      (h : Pushback.sweep (p.store i v).gate.tryProcess p.pushback.elements (p.user, p.slot) =
        (kept, ⟨.ok (), t, es⟩))
      (hw : p.watermarks.holdChanged (Pushback.ofElements kept).minTimestamp = (o, w)) :
      Step p (.sideInput i v)
        ⟨.ok (), { (p.store i v).settle t (.ofElements kept) with watermarks := w },
          p.router.traced (.sideInputReceived i v.timestamp v.windows) ++
            ((SideInputs.insertNotices i v).map .note ++
              (es ++ [.note (.reevaluated p.pushback.length kept.length)] ++
                o.toList.flatMap p.router.emitWatermark))⟩
  | ignored {t} : Step p (.sideInputWatermark t) ⟨.ok (), p, [.note (.sideWatermarkIgnored t)]⟩

theorem ensureRunning_bind {α : Type} (hp : p.isRunning = true) (f : Unit → Call σ ι ν ο α) :
    (ensureRunning >>= f) p = f () p := by
  have he : (ensureRunning : Call σ ι ν ο Unit) p = ⟨.ok (), p, []⟩ := by
    simp [ensureRunning, hp]
  rw [Activity.bind_apply, he]
  rfl

theorem traced_bind {α : Type} (p : Processor σ ι ν ο) (n : Notice) (f : Unit → Call σ ι ν ο α) :
    (traced n >>= f) p = (f () p).after (p.router.traced n) := rfl

theorem emitWatermark_apply (o : Option Timestamp) (p : Processor σ ι ν ο) :
    emitWatermark o p = ⟨.ok (), p, o.toList.flatMap p.router.emitWatermark⟩ := by
  cases o <;> simp [emitWatermark]

theorem storeSideInput_known {i : Nat} (hi : i < p.sideInputs.count) (v : WindowedValue ν) :
    (storeSideInput i v : Call σ ι ν ο Unit) p =
      ⟨.ok (), p.store i v, (SideInputs.insertNotices i v).map .note⟩ := by
  simp [storeSideInput, SideInputs.insert, SideInputs.checkIndex, hi, store]

theorem storeSideInput_unknown {i : Nat} (hi : ¬ i < p.sideInputs.count) (v : WindowedValue ν) :
    (storeSideInput i v : Call σ ι ν ο Unit) p =
      ⟨.error (.unknownSideInput i p.sideInputs.count), p, []⟩ := by
  simp [storeSideInput, SideInputs.insert, SideInputs.checkIndex, hi]

/-- Handling an element is a step, whether it passes or fails. -/
theorem processElement_step (hp : p.isRunning = true) (x : WindowedValue ι) :
    Step p (.element x) (processElement x p) := by
  rw [processElement, ensureRunning_bind hp, traced_bind, Activity.bind_apply, passGate]
  cases h : p.gate.tryProcess x (p.user, p.slot) with
  | mk result t es =>
      cases result with
      | error e => exact Step.failed h
      | ok back => simpa [Report.after, settle] using Step.passed h

/-- Handling a watermark is a step, whether it regresses or advances. -/
theorem processWatermark_step (hp : p.isRunning = true) (t : Timestamp) :
    Step p (.watermark t) (processWatermark t p) := by
  rw [processWatermark, ensureRunning_bind hp, traced_bind, Activity.bind_apply, advanceInput]
  by_cases ht : t < p.watermarks.input
  · simp only [Watermarks.receive, if_pos ht]
    simpa [Report.after] using Step.regressed ht
  · cases h : p.watermarks.receive t p.pushback.minTimestamp with
    | mk result w =>
        cases result with
        | error e =>
            simp only [Watermarks.receive, if_neg ht] at h
            split at h <;> cases h
        | ok o =>
            simp only [emitWatermark_apply]
            exact Step.advanced ht h

/-- A sweep to the end replaces the buffer and tells how it shrank. -/
theorem reprocess_of_ok {kept : List (WindowedValue ι)} {t : σ × AssertionSlot}
    {es : List (Effect ι ο)}
    (h : Pushback.sweep p.gate.tryProcess p.pushback.elements (p.user, p.slot) =
      (kept, ⟨.ok (), t, es⟩)) :
    (reprocess : Call σ ι ν ο Unit) p =
      ⟨.ok (), p.settle t (.ofElements kept),
        es ++ [.note (.reevaluated p.pushback.length kept.length)]⟩ := by
  simp only [reprocess, Pushback.reprocess, h]
  rfl

/-- A sweep that fails still replaces the buffer, and tells nothing. -/
theorem reprocess_of_error {kept : List (WindowedValue ι)} {e : ProcessingError}
    {t : σ × AssertionSlot} {es : List (Effect ι ο)}
    (h : Pushback.sweep p.gate.tryProcess p.pushback.elements (p.user, p.slot) =
      (kept, ⟨.error e, t, es⟩)) :
    (reprocess : Call σ ι ν ο Unit) p = ⟨.error e, p.settle t (.ofElements kept), es⟩ := by
  simp only [reprocess, Pushback.reprocess, h, List.append_nil]
  rfl

theorem releaseHold_apply {o : Option Timestamp} {w : Watermarks}
    (h : p.watermarks.holdChanged p.pushback.minTimestamp = (o, w)) :
    (releaseHold : Call σ ι ν ο (Option Timestamp)) p =
      ⟨.ok o, { p with watermarks := w }, []⟩ := by
  simp only [releaseHold, h]

/-- Handling a value of a side input is a step together with the re-evaluation that it causes. -/
theorem processSideInput_step (hp : p.isRunning = true) (i : Nat) (v : WindowedValue ν) :
    Step p (.sideInput i v) (processSideInput i v p) := by
  rw [processSideInput, ensureRunning_bind hp, traced_bind]
  by_cases hi : i < p.sideInputs.count
  · rw [Activity.bind_of_ok (by rw [storeSideInput_known hi]), storeSideInput_known hi]
    cases h : Pushback.sweep (p.store i v).gate.tryProcess p.pushback.elements
        (p.user, p.slot) with
    | mk kept r =>
        obtain ⟨result, t, es⟩ := r
        cases result with
        | error e =>
            have hr := reprocess_of_error (p := p.store i v) h
            rw [Activity.bind_of_error (by rw [hr]), hr]
            exact Step.interrupted hi h
        | ok u =>
            have hr := reprocess_of_ok (p := p.store i v) h
            rw [Activity.bind_of_ok (by rw [hr]), hr]
            cases hw : p.watermarks.holdChanged (Pushback.ofElements kept).minTimestamp with
            | mk o w =>
                have hh := releaseHold_apply
                  (p := (p.store i v).settle t (.ofElements kept)) hw
                rw [Activity.bind_of_ok (by rw [hh]), hh, emitWatermark_apply]
                exact Step.reevaluated hi h hw
  · rw [Activity.bind_of_error (by rw [storeSideInput_unknown hi]), storeSideInput_unknown hi]
    simpa [Report.after] using Step.unknown hi

/-- A running processor handles every signal in one of the ways listed. -/
theorem handle_step (hp : p.isRunning = true) (s : Signal ι ν) : Step p s (handle s p) := by
  cases s with
  | element x => exact processElement_step hp x
  | watermark t => exact processWatermark_step hp t
  | sideInput i v => exact processSideInput_step hp i v
  | sideInputWatermark t =>
      rw [handle, processSideInputWatermark, ensureRunning_bind hp]
      exact Step.ignored

end EventStream.Processor
