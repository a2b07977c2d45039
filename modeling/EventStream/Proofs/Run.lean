import EventStream.Proofs.Handling
import Mathlib.Data.List.Induction

/-!
# Runs of signals

A run hands signals to a processor one after another. A signal that fails ends
its own handling only, and the next one meets the processor it left behind.

The shape of a processor is what handling signals never changes: it runs, its
side inputs are those of its configuration, every element in its buffer is in
one window, and the hold is the smallest timestamp there.
-/

namespace EventStream

namespace Timestamp

/-- The smallest of two lists together is the smaller of their smallest ones. -/
theorem minimum_append (xs ys : List Timestamp) :
    minimum (xs ++ ys) = min (minimum xs) (minimum ys) := by
  apply Timestamp.ext
  induction xs with
  | nil =>
      have := le_iff.1 (le_maxValue (minimum ys))
      simp only [List.nil_append, minimum_nil, millis_min]
      omega
  | cons t ts ih =>
      simp only [List.cons_append, minimum_cons, millis_min] at ih ⊢
      omega

end Timestamp

namespace Pushback

variable {ι : Type}

/-- A buffer whose hold is the smallest timestamp in it. -/
def Exact (b : Pushback ι) : Prop :=
  b.minTimestamp = .minimum (b.elements.map WindowedValue.timestamp)

theorem exact_ofElements (elements : List (WindowedValue ι)) : (ofElements elements).Exact := rfl

/-- An element that is added is counted in the minimum. -/
theorem Exact.add {b : Pushback ι} (h : b.Exact) (x : WindowedValue ι) : (b.add x).Exact := by
  rw [Exact, elements_add, List.map_append, Timestamp.minimum_append, ← h]
  apply Timestamp.ext
  have := Timestamp.le_iff.1 (Timestamp.le_maxValue x.timestamp)
  simp only [Pushback.add, List.map_cons, List.map_nil, Timestamp.minimum_cons,
    Timestamp.minimum_nil, Timestamp.millis_min]
  omega

/-- Elements that are added are counted in the minimum. -/
theorem Exact.addAll {b : Pushback ι} (h : b.Exact) (xs : List (WindowedValue ι)) :
    (b.addAll xs).Exact := by
  induction xs generalizing b with
  | nil => exact h
  | cons x xs ih => exact ih (h.add x)

end Pushback

namespace Processor

variable {σ ι ν ο : Type}

/-- The processor that a run of signals leaves behind. -/
def after (p : Processor σ ι ν ο) (signals : List (Signal ι ν)) : Processor σ ι ν ο :=
  signals.foldl (fun p s => (handle s p).state) p

/-- What each signal of a run came to. -/
def reports (p : Processor σ ι ν ο) : List (Signal ι ν) →
    List (Report (Processor σ ι ν ο) (Effect ι ο) ProcessingError Unit)
  | [] => []
  | s :: rest => handle s p :: (handle s p).state.reports rest

/-- Everything a run of signals did, in order. -/
def trace (p : Processor σ ι ν ο) (signals : List (Signal ι ν)) : List (Effect ι ο) :=
  (p.reports signals).flatMap Report.effects

section Run
variable (p : Processor σ ι ν ο)

@[simp] theorem after_nil : p.after [] = p := rfl

@[simp] theorem trace_nil : p.trace [] = [] := rfl

theorem after_append (xs ys : List (Signal ι ν)) : p.after (xs ++ ys) = (p.after xs).after ys :=
  List.foldl_append

theorem reports_append (xs ys : List (Signal ι ν)) :
    p.reports (xs ++ ys) = p.reports xs ++ (p.after xs).reports ys := by
  induction xs generalizing p with
  | nil => rfl
  | cons s rest ih =>
      simp only [List.cons_append, reports]
      rw [ih]
      rfl

/-- The effects of a run are those of its beginning and then those of the rest. -/
theorem trace_append (xs ys : List (Signal ι ν)) :
    p.trace (xs ++ ys) = p.trace xs ++ (p.after xs).trace ys := by
  rw [trace, reports_append, List.flatMap_append]
  rfl

@[simp] theorem after_concat (xs : List (Signal ι ν)) (s : Signal ι ν) :
    p.after (xs ++ [s]) = (handle s (p.after xs)).state :=
  p.after_append xs [s]

@[simp] theorem trace_concat (xs : List (Signal ι ν)) (s : Signal ι ν) :
    p.trace (xs ++ [s]) = p.trace xs ++ (handle s (p.after xs)).effects := by
  rw [trace_append]
  simp [trace, reports]

end Run

/-- A processor is made exactly if its configuration is valid. -/
theorem make?_eq_ok_iff {config : Config} {function : UserFunction σ ι ν ο} {user : σ}
    {p : Processor σ ι ν ο} :
    make? config function user = .ok p ↔
      config.validate = .ok () ∧ p = initial config function user := by
  rw [make?]
  cases config.validate <;> simp [eq_comm]

/--
A processor that was made from an accepted configuration, may have been given another slot, and
was set up, before its first signal.
-/
def Fresh (p : Processor σ ι ν ο) : Prop :=
  ∃ config function user slot q, make? config function user = .ok q ∧
    (setup { q with slot := slot }).result = .ok () ∧ p = (setup { q with slot := slot }).state

/-- A fresh processor has done nothing but be set up. -/
theorem Fresh.exists_eq {p : Processor σ ι ν ο} (h : p.Fresh) :
    ∃ config function user slot, config.validate = .ok () ∧
      p = { initial config function user with slot := slot, lifecycle := .running } := by
  obtain ⟨config, function, user, slot, q, hq, hr, rfl⟩ := h
  obtain ⟨hv, rfl⟩ := make?_eq_ok_iff.1 hq
  cases hs : function.setup user with
  | mk outcome user' =>
      simp only [setup, initial, hs] at hr ⊢
      cases outcome with
      | error e => cases hr
      | ok u => exact ⟨config, function, user', slot, hv, rfl⟩

/-- The processor that a first set-up leaves behind. -/
def started (config : Config) (function : UserFunction σ ι ν ο) (user : σ) : Processor σ ι ν ο :=
  (setup (initial config function user)).state

/-- A processor whose setup succeeded is fresh. -/
theorem fresh_started {config : Config} {function : UserFunction σ ι ν ο} {user : σ}
    (hc : config.validate = .ok ()) (hs : (function.setup user).1 = .ok ()) :
    (started config function user).Fresh := by
  refine ⟨config, function, user, none, initial config function user,
    make?_eq_ok_iff.2 ⟨hc, rfl⟩, ?_, rfl⟩
  simp only [setup, initial]
  split <;> simp_all

/-- The first hour of event time. -/
def hour : Window := .interval .zero ⟨3600000, by decide, by decide⟩

/-- A side input that is windowed like the main input, and one for all of event time. -/
def twoSideInputs : Config where
  mainOutput := defaultMainOutput
  sideOutputs := []
  sideInputs := [⟨⟨"rates"⟩, .identity⟩, ⟨⟨"limits"⟩, .global⟩]
  traces := true

/-- What signals never change about a processor. -/
structure Shaped (p : Processor σ ι ν ο) : Prop where
  running : p.isRunning = true
  specs : p.sideInputs.specs = p.config.sideInputs
  waits : p.watermarks.waits = !p.config.sideInputs.isEmpty
  exact : p.pushback.Exact
  oneWindow : ∀ x ∈ p.pushback.elements, ∃ w, x.windows = [w]
  unheld : p.config.sideInputs = [] → p.pushback.elements = []

/-- A fresh processor has nothing in its buffer, so it has the shape of a running one. -/
theorem Fresh.shaped {p : Processor σ ι ν ο} (h : p.Fresh) : p.Shaped := by
  obtain ⟨config, function, user, slot, -, rfl⟩ := h.exists_eq
  exact ⟨rfl, rfl, rfl, rfl, fun _ hx => (nomatch hx), fun _ => rfl⟩

/-- Whether a processor without side inputs lets every window pass. -/
theorem allReady_of_sideInputs_nil {p : Processor σ ι ν ο}
    (hs : p.sideInputs.specs = p.config.sideInputs) (hn : p.config.sideInputs = []) (w : Window) :
    p.gate.sideInputs.allReady w = true := by
  apply SideInputs.allReady_iff.2
  intro i hi
  change i < p.sideInputs.specs.length at hi
  rw [hs, hn] at hi
  exact absurd hi (Nat.not_lt_zero i)

/-- A trial that succeeds in a processor is a passage through its gate. -/
theorem tryProcess_ok {p : Processor σ ι ν ο} {x : WindowedValue ι}
    {back : List (WindowedValue ι)} {t t' : σ × AssertionSlot} {es : List (Effect ι ο)}
    (h : p.gate.tryProcess x t = ⟨.ok back, t', es⟩) : Gate.Passage p.gate x (.ok back) es := by
  have trial := p.gate.tryProcess_trial x t
  rw [h] at trial
  exact trial.of_ok

/-- A trial that fails in a processor failed in user code. -/
theorem tryProcess_error {p : Processor σ ι ν ο} {x : WindowedValue ι} {e : ProcessingError}
    {t t' : σ × AssertionSlot} {es : List (Effect ι ο)}
    (h : p.gate.tryProcess x t = ⟨.error e, t', es⟩) :
    ∃ u, e = .userCode u ∧ Gate.Passage p.gate x (.error u) es := by
  have trial := p.gate.tryProcess_trial x t
  rw [h] at trial
  exact trial.of_error

/-- What the buffer does with its elements is a sweep through the gate. -/
theorem sweep_eq {p : Processor σ ι ν ο} {xs kept : List (WindowedValue ι)}
    {t : σ × AssertionSlot} {r : Report (σ × AssertionSlot) (Effect ι ο) ProcessingError Unit}
    (h : Pushback.sweep p.gate.tryProcess xs t = (kept, r)) :
    p.gate.Sweep xs kept r.result r.effects := by
  have sw := p.gate.sweep_tryProcess xs t
  rw [h] at sw
  exact sw

/-- Values of side inputs leave the shape of a processor as it is. -/
theorem Shaped.store {p : Processor σ ι ν ο} (hp : p.Shaped) (i : Nat) (v : WindowedValue ν) :
    (p.store i v).Shaped :=
  ⟨hp.running, (SideInputs.specs_writeAll ..).trans hp.specs, hp.waits, hp.exact, hp.oneWindow,
    hp.unheld⟩

/-- A buffer that was swept still holds single windows, and its minimum is exact. -/
theorem Shaped.settle {p : Processor σ ι ν ο} (hp : p.Shaped) {kept : List (WindowedValue ι)}
    {result : Except ProcessingError Unit} {es : List (Effect ι ο)}
    (h : p.gate.Sweep p.pushback.elements kept result es) (t : σ × AssertionSlot) :
    (p.settle t (.ofElements kept)).Shaped := by
  refine ⟨hp.running, hp.specs, hp.waits, Pushback.exact_ofElements kept, ?_, ?_⟩
  · intro y hy
    obtain ⟨x, hx, rfl | ⟨w, -, rfl⟩⟩ := h.mem_kept hy
    · exact hp.oneWindow y hx
    · exact ⟨w, rfl⟩
  · intro hn
    apply List.eq_nil_iff_forall_not_mem.2
    intro y hy
    obtain ⟨x, hx, -⟩ := h.mem_kept hy
    rw [hp.unheld hn] at hx
    cases hx

namespace Step

variable {p : Processor σ ι ν ο} {s : Signal ι ν}
  {r : Report (Processor σ ι ν ο) (Effect ι ο) ProcessingError Unit}

/-- No signal changes the configuration. -/
theorem config_eq (h : Step p s r) : r.state.config = p.config := by
  cases h <;> rfl

theorem function_eq (h : Step p s r) : r.state.function = p.function := by
  cases h <;> rfl

/-- Every signal keeps the shape of a running processor. -/
theorem shaped (h : Step p s r) (hp : p.Shaped) : r.state.Shaped := by
  cases h with
  | @passed x back t es h =>
      obtain ⟨rfl, -⟩ := (tryProcess_ok h).of_ok rfl
      refine ⟨hp.running, hp.specs, hp.waits, hp.exact.addAll _, ?_, ?_⟩
      · intro y hy
        rcases List.mem_append.1 (Pushback.elements_addAll _ _ ▸ hy) with hy | hy
        · exact hp.oneWindow y hy
        · obtain ⟨w, -, rfl⟩ := Gate.mem_blockedPart hy
          exact ⟨w, rfl⟩
      · intro hn
        have hx : p.gate.blockedPart x x.windows = [] := by
          simp [Gate.blockedPart, allReady_of_sideInputs_nil hp.specs hn]
        change (p.pushback.addAll _).elements = []
        rw [Pushback.elements_addAll, hp.unheld hn, hx]
        rfl
  | failed h => exact ⟨hp.running, hp.specs, hp.waits, hp.exact, hp.oneWindow, hp.unheld⟩
  | regressed h => exact hp
  | @advanced t o w ht h =>
      have hw : w.waits = p.watermarks.waits := by
        have := p.watermarks.waits_receive t p.pushback.minTimestamp
        rwa [h] at this
      exact ⟨hp.running, hp.specs, hw.trans hp.waits, hp.exact, hp.oneWindow, hp.unheld⟩
  | unknown hi => exact hp
  | @interrupted i v kept e t es hi h =>
      exact (hp.store i v).settle (sweep_eq h) t
  | @reevaluated i v kept t es o w hi h hw =>
      have hs := (hp.store i v).settle (sweep_eq h) t
      have hw : w.waits = p.watermarks.waits := by
        have := p.watermarks.waits_holdChanged (Pushback.ofElements kept).minTimestamp
        rwa [hw] at this
      exact ⟨hs.running, hs.specs, hw.trans hs.waits, hs.exact, hs.oneWindow, hs.unheld⟩
  | ignored => exact hp

end Step

section Invariant
variable {p : Processor σ ι ν ο} (hp : p.Shaped) (signals : List (Signal ι ν))
include hp

/-- A processor keeps its shape through a run. -/
theorem Shaped.after : (p.after signals).Shaped := by
  induction signals using List.reverseRecOn with
  | nil => exact hp
  | append_singleton signals s ih =>
      rw [after_concat]
      exact (handle_step ih.running s).shaped ih

/-- Every signal of a run is handled in one of the ways listed. -/
theorem step_after (s : Signal ι ν) : Step (p.after signals) s (handle s (p.after signals)) :=
  handle_step (hp.after signals).running s

theorem config_after : (p.after signals).config = p.config := by
  induction signals using List.reverseRecOn with
  | nil => rfl
  | append_singleton signals s ih =>
      rw [after_concat, (step_after hp signals s).config_eq, ih]

theorem function_after : (p.after signals).function = p.function := by
  induction signals using List.reverseRecOn with
  | nil => rfl
  | append_singleton signals s ih =>
      rw [after_concat, (step_after hp signals s).function_eq, ih]

/-- The side inputs of a run are those of its configuration. -/
theorem specs_after : (p.after signals).sideInputs.specs = p.config.sideInputs := by
  rw [(hp.after signals).specs, config_after hp signals]

end Invariant

end Processor

end EventStream
