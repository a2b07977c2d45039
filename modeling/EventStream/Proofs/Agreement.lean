import EventStream.Proofs.Alike
import EventStream.Proofs.OrderIndependence
import EventStream.Proofs.Reachable

/-!
# Processors that cannot be told apart

Two processors that keep the same between signals answer the same to every
signal and do the same in the same order, provided that the user function looks
at the side inputs only through its context. Their side inputs may list the
values in different orders, and their slots may differ.

## Implementation notes

Agreement is carried through calls as a whole: a signal is handled alike because
all the steps of its handling are.
-/

namespace EventStream

variable {σ τ ι ν ο η ε α : Type}

/-- What a report says besides the state: the result and the effects. -/
def Report.visible (r : Report σ η ε α) : Except ε α × List η := (r.result, r.effects)

/-! ## Side inputs with the same values -/

namespace SideInputs

/-- Side inputs with the same values in the same places, in whatever order they are listed. -/
structure SameValues (a b : SideInputs ν) : Prop where
  specs : b.specs = a.specs
  lookup : ∀ key, b.lookup key = a.lookup key

variable {a b : SideInputs ν}

/-- Stores of the same values answer every window alike. -/
theorem SameValues.get (h : SameValues a b) (i : Nat) (w : Window) : b.get i w = a.get i w := by
  simp only [SideInputs.get, h.specs, h.lookup]

theorem SameValues.count (h : SameValues a b) : b.count = a.count := by
  rw [SideInputs.count, SideInputs.count, h.specs]

/-- Stores of the same values have the same windows ready. -/
theorem SameValues.allReady (h : SameValues a b) (w : Window) : b.allReady w = a.allReady w := by
  simp only [SideInputs.allReady, isReady, h.count, h.get]

/-- Stores of the same values still have the same ones after both take in another one. -/
theorem SameValues.writeAll (h : SameValues a b) (i : Nat) (v : WindowedValue ν) :
    SameValues (a.writeAll i v) (b.writeAll i v) := by
  refine ⟨?_, fun key => ?_⟩
  · rw [specs_writeAll, specs_writeAll, h.specs]
  · rw [lookup_writeAll, lookup_writeAll, h.lookup]

end SideInputs

/-- A user function that looks at the side inputs only in the window it is called for. -/
def UserFunction.Observant (f : UserFunction σ ι ν ο) : Prop :=
  ∀ cx cx' s, Context.SameView cx cx' → f.processElement cx s = f.processElement cx' s

/-! ## The gate -/

namespace Gate

variable {g g' : Gate σ ι ν ο}

/-- Gates with the same outputs and the same observant user function, over the same values. -/
structure SameView (g g' : Gate σ ι ν ο) : Prop where
  observant : g.function.Observant
  function : g'.function = g.function
  sideInputs : SideInputs.SameValues g.sideInputs g'.sideInputs
  router : g'.router = g.router

/-- In one window, user code sees a store only through its context. -/
theorem SameView.processIn (h : SameView g g') (y : WindowedValue ι) (w : Window) :
    g'.processIn y w = g.processIn y w := by
  funext s
  have view : Context.SameView ⟨y, w, g.sideInputs⟩ ⟨y, w, g'.sideInputs⟩ :=
    Context.sameView_of_get h.sideInputs.specs.symm (fun i => (h.sideInputs.get i w).symm) y
  simp only [Gate.processIn, h.function, h.router, h.observant _ _ s view]

theorem SameView.processWindows (h : SameView g g') (x : WindowedValue ι) (ws : List Window) :
    g'.processWindows x ws = g.processWindows x ws := by
  induction ws with
  | nil => rfl
  | cons w ws ih => simp only [Gate.processWindows, h.sideInputs.allReady, h.processIn, ih]

/-- Gates with the same view of their side inputs take an element through alike. -/
theorem SameView.process (h : SameView g g') (x : WindowedValue ι) :
    g'.process x = g.process x := by
  have start : g'.startBundle = g.startBundle := by
    funext s
    simp only [startBundle, h.function]
  have finish : g'.finishBundle = g.finishBundle := by
    funext s
    simp only [finishBundle, h.function]
  simp only [Gate.process, start, finish, h.processWindows]

/-- States of the user function in which the slot is left out of account. -/
def SameUser (t t' : σ × AssertionSlot) : Prop := t'.1 = t.1

/-- A trial differs at most in the slot that a failed assertion is recorded in. -/
theorem SameView.tryProcess (h : SameView g g') (x : WindowedValue ι) :
    Activity.Alike SameUser (g.tryProcess x) (g'.tryProcess x) := by
  rintro ⟨s, slot⟩ ⟨s', slot'⟩ rfl
  simp only [Gate.tryProcess, h.process]
  cases g.process x s' with
  | mk result s es => cases result <;> exact ⟨rfl, rfl, rfl⟩

end Gate

namespace Pushback

variable {R : σ → τ → Prop}

/-- Trials that are alike keep the same elements. -/
theorem sweep_alike {trial : WindowedValue ι → Activity σ η ε (List (WindowedValue ι))}
    {trial' : WindowedValue ι → Activity τ η ε (List (WindowedValue ι))}
    (h : ∀ x, Activity.Alike R (trial x) (trial' x)) (xs : List (WindowedValue ι)) {s : σ} {t : τ}
    (hst : R s t) :
    (sweep trial' xs t).1 = (sweep trial xs s).1 ∧
      Report.Alike R (sweep trial xs s).2 (sweep trial' xs t).2 := by
  induction xs generalizing s t with
  | nil => exact ⟨rfl, rfl, rfl, hst⟩
  | cons x xs ih =>
      obtain ⟨result, effects, state⟩ := h x s t hst
      simp only [sweep]
      cases hr : trial x s with
      | mk a s' es =>
          cases hr' : trial' x t with
          | mk a' t' es' =>
              rw [hr, hr'] at result effects state
              cases result
              cases effects
              cases a with
              | error e => exact ⟨rfl, rfl, rfl, state⟩
              | ok back =>
                  obtain ⟨kept, rest⟩ := ih state
                  refine ⟨congrArg (back ++ ·) kept, rest.result, ?_, rest.state⟩
                  exact congrArg (es ++ ·) rest.effects

end Pushback

/-! ## Processors -/

namespace Processor

/-- Processors that keep the same between signals, under the same observant user function. -/
structure Agrees (p q : Processor σ ι ν ο) : Prop where
  observant : p.function.Observant
  config : q.config = p.config
  function : q.function = p.function
  user : q.user = p.user
  sideInputs : SideInputs.SameValues p.sideInputs q.sideInputs
  pushback : q.pushback = p.pushback
  watermarks : q.watermarks = p.watermarks
  lifecycle : q.lifecycle = p.lifecycle

variable {p q : Processor σ ι ν ο}

theorem Agrees.isRunning (h : Agrees p q) : q.isRunning = p.isRunning := by
  rw [Processor.isRunning, Processor.isRunning, h.lifecycle]

theorem Agrees.router (h : Agrees p q) : q.router = p.router := by
  rw [Processor.router, Processor.router, h.config]

/-- Processors that agree have gates with the same view. -/
theorem Agrees.gate (h : Agrees p q) : Gate.SameView p.gate q.gate :=
  ⟨h.observant, h.function, h.sideInputs, h.router⟩

theorem ensureRunning_alike :
    Activity.Alike Agrees (ensureRunning : Call σ ι ν ο Unit) ensureRunning := by
  intro p q h
  refine ⟨?_, rfl, h⟩
  simp only [ensureRunning, h.isRunning]

theorem traced_alike (n : Notice) :
    Activity.Alike Agrees (traced n : Call σ ι ν ο Unit) (traced n) := by
  intro p q h
  refine ⟨rfl, ?_, h⟩
  simp only [traced, h.router]

theorem emitWatermark_alike (w : Option Timestamp) :
    Activity.Alike Agrees (emitWatermark w : Call σ ι ν ο Unit) (emitWatermark w) := by
  intro p q h
  refine ⟨rfl, ?_, h⟩
  simp only [emitWatermark, h.router]

/-- An element passes the gates of processors that agree alike. -/
theorem passGate_alike (x : WindowedValue ι) :
    Activity.Alike Agrees (passGate x : Call σ ι ν ο (List (WindowedValue ι))) (passGate x) := by
  intro p q h
  obtain ⟨result, effects, state⟩ :=
    h.gate.tryProcess x (p.user, p.slot) (q.user, q.slot) h.user
  exact ⟨result, effects, h.observant, h.config, h.function, state, h.sideInputs, h.pushback,
    h.watermarks, h.lifecycle⟩

theorem addAll_alike (back : List (WindowedValue ι)) :
    Activity.Alike Agrees
      (Activity.update fun p => { p with pushback := p.pushback.addAll back } : Call σ ι ν ο Unit)
      (Activity.update fun p => { p with pushback := p.pushback.addAll back }) := by
  intro p q h
  refine ⟨rfl, rfl, h.observant, h.config, h.function, h.user, h.sideInputs, ?_, h.watermarks,
    h.lifecycle⟩
  exact congrArg (fun b : Pushback ι => b.addAll back) h.pushback

/-- Processors that agree accept the same watermarks and emit the same ones. -/
theorem advanceInput_alike (t : Timestamp) :
    Activity.Alike Agrees (advanceInput t : Call σ ι ν ο (Option Timestamp)) (advanceInput t) := by
  intro p q h
  have moved : q.watermarks.receive t q.pushback.minTimestamp =
      p.watermarks.receive t p.pushback.minTimestamp := by
    rw [h.watermarks, h.pushback]
  exact ⟨congrArg Prod.fst moved, rfl, h.observant, h.config, h.function, h.user, h.sideInputs,
    h.pushback, congrArg Prod.snd moved, h.lifecycle⟩

/-- Processors that agree release the same watermarks. -/
theorem releaseHold_alike :
    Activity.Alike Agrees (releaseHold : Call σ ι ν ο (Option Timestamp)) releaseHold := by
  intro p q h
  have moved : q.watermarks.holdChanged q.pushback.minTimestamp =
      p.watermarks.holdChanged p.pushback.minTimestamp := by
    rw [h.watermarks, h.pushback]
  refine ⟨?_, rfl, h.observant, h.config, h.function, h.user, h.sideInputs, h.pushback,
    congrArg Prod.snd moved, h.lifecycle⟩
  simp only [releaseHold, moved]

/-- Processors that agree know the same side inputs and store what they are sent alike. -/
theorem storeSideInput_alike (i : Nat) (v : WindowedValue ν) :
    Activity.Alike Agrees (storeSideInput i v : Call σ ι ν ο Unit) (storeSideInput i v) := by
  intro p q h
  by_cases hi : i < p.sideInputs.count
  · rw [storeSideInput_known hi, storeSideInput_known (h.sideInputs.count ▸ hi)]
    exact ⟨rfl, rfl, h.observant, h.config, h.function, h.user, h.sideInputs.writeAll i v,
      h.pushback, h.watermarks, h.lifecycle⟩
  · rw [storeSideInput_unknown hi, storeSideInput_unknown (h.sideInputs.count ▸ hi),
      h.sideInputs.count]
    exact ⟨rfl, rfl, h⟩

/-- Processors that agree go through the same buffer alike. -/
theorem reprocess_alike :
    Activity.Alike Agrees (reprocess : Call σ ι ν ο Unit) reprocess := by
  intro p q h
  have swept := Pushback.sweep_alike h.gate.tryProcess p.pushback.elements
    (s := (p.user, p.slot)) (t := (q.user, q.slot)) h.user
  obtain ⟨kept, result, effects, state⟩ := swept
  simp only [reprocess, Pushback.reprocess, h.pushback]
  refine ⟨result, ?_, h.observant, h.config, h.function, state, h.sideInputs,
    congrArg Pushback.ofElements kept, h.watermarks, h.lifecycle⟩
  simp only [result, effects, kept]

/-- Processors that agree handle every signal alike. -/
theorem handle_alike (s : Signal ι ν) :
    Activity.Alike Agrees (handle s : Call σ ι ν ο Unit) (handle s) := by
  cases s with
  | element x =>
      apply ensureRunning_alike.bind fun _ => (traced_alike _).bind fun _ => ?_
      exact (passGate_alike x).bind fun back => addAll_alike back
  | watermark t =>
      apply ensureRunning_alike.bind fun _ => (traced_alike _).bind fun _ => ?_
      exact (advanceInput_alike t).bind fun w => emitWatermark_alike w
  | sideInput i v =>
      apply ensureRunning_alike.bind fun _ => (traced_alike _).bind fun _ => ?_
      apply (storeSideInput_alike i v).bind fun _ => reprocess_alike.bind fun _ => ?_
      exact releaseHold_alike.bind fun w => emitWatermark_alike w
  | sideInputWatermark t =>
      exact ensureRunning_alike.bind fun _ p q h => ⟨rfl, rfl, h⟩

/-- No run of signals tells processors apart that agree. -/
theorem Agrees.visible_reports (h : Agrees p q) (signals : List (Signal ι ν)) :
    (q.reports signals).map Report.visible = (p.reports signals).map Report.visible := by
  induction signals generalizing p q with
  | nil => rfl
  | cons s rest ih =>
      obtain ⟨result, effects, state⟩ := handle_alike s p q h
      simp only [reports, List.map_cons, Report.visible, result, effects]
      exact congrArg _ (ih state)

end Processor

end EventStream
