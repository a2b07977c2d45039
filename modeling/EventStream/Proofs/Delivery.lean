import EventStream.Proofs.Occurrence
import EventStream.Proofs.Readiness
import Mathlib.Data.Nat.Find

/-!
# Delivery without failures

As long as the user function does not fail, the buffer holds exactly the
occurrences whose windows are not available yet, in the order in which they
were received. Every other occurrence was handed over by the first signal, from
its arrival on, at which its window was available.

## Implementation notes

The induction is on the run from its end. What one signal does is stated for
any list of occurrences that the buffer stands for, so that the run only has to
say which list that is.
-/

namespace EventStream

variable {σ ι ν ο : Type}

open Occurrence

namespace Gate

variable {g : Gate σ ι ν ο}

/-- What a sweep keeps of a buffer that stands for occurrences. -/
theorem flatMap_blockedPart (os : List (Occurrence ι)) :
    (os.map single).flatMap (fun x => g.blockedPart x x.windows) =
      (os.filter fun o => !g.sideInputs.allReady o.window).map single := by
  induction os with
  | nil => rfl
  | cons o os ih =>
      rw [List.map_cons, List.flatMap_cons, ih, windows_single]
      cases ho : g.sideInputs.allReady o.window <;> simp [blockedPart, ho]

/-- What a sweep hands over of a buffer that stands for occurrences. -/
theorem flatMap_readyCalls (os : List (Occurrence ι)) :
    (os.map single).flatMap (fun x => g.readyCalls x x.windows) =
      (os.filter fun o => g.sideInputs.allReady o.window).map call := by
  induction os with
  | nil => rfl
  | cons o os ih =>
      rw [List.map_cons, List.flatMap_cons, ih, windows_single]
      cases ho : g.sideInputs.allReady o.window <;> simp [readyCalls, ho, call]

end Gate

namespace Processor

variable {p : Processor σ ι ν ο} {s : Signal ι ν}
  {r : Report (Processor σ ι ν ο) (Effect ι ο) ProcessingError Unit}

/-- The occurrences whose windows are not available on a processor. -/
def blocked (p : Processor σ ι ν ο) (os : List (Occurrence ι)) : List (Occurrence ι) :=
  os.filter fun o => decide (¬ p.Available o.window)

/-- The occurrences whose windows are available on a processor. -/
def ready (p : Processor σ ι ν ο) (os : List (Occurrence ι)) : List (Occurrence ι) :=
  os.filter fun o => decide (p.Available o.window)

theorem blocked_append (p : Processor σ ι ν ο) (xs ys : List (Occurrence ι)) :
    p.blocked (xs ++ ys) = p.blocked xs ++ p.blocked ys :=
  List.filter_append ..

theorem ready_append (p : Processor σ ι ν ο) (xs ys : List (Occurrence ι)) :
    p.ready (xs ++ ys) = p.ready xs ++ p.ready ys :=
  List.filter_append ..

/-- Where every occurrence is blocked, none is ready. -/
theorem ready_of_blocked_eq {os : List (Occurrence ι)} (h : p.blocked os = os) :
    p.ready os = [] := by
  apply List.filter_eq_nil_iff.2
  intro o ho
  have := List.filter_eq_self.1 h o ho
  simpa using this

theorem Shaped.blocked_eq (hp : p.Shaped) (os : List (Occurrence ι)) :
    p.blocked os = os.filter fun o => !p.gate.sideInputs.allReady o.window := by
  apply List.filter_congr
  intro o _
  rw [gate, hp.allReady_eq, decide_not]

theorem Shaped.ready_eq (hp : p.Shaped) (os : List (Occurrence ι)) :
    p.ready os = os.filter fun o => p.gate.sideInputs.allReady o.window := by
  apply List.filter_congr
  intro o _
  rw [gate, hp.allReady_eq]

/-- The blocked occurrences of an element are the copies that the gate gives back. -/
theorem Shaped.map_single_blocked (hp : p.Shaped) (n : Nat) (x : WindowedValue ι) :
    (p.blocked (ofElement n x)).map single = p.gate.blockedPart x x.windows := by
  rw [hp.blocked_eq]
  exact map_single_filter n x fun w => !p.gate.sideInputs.allReady w

/-- The ready occurrences of an element are the calls that the gate makes. -/
theorem Shaped.map_call_ready (hp : p.Shaped) (n : Nat) (x : WindowedValue ι) :
    (p.ready (ofElement n x)).map call = p.gate.readyCalls x x.windows := by
  rw [hp.ready_eq]
  exact map_call_filter n x p.gate.sideInputs.allReady

/-- A sweep that succeeds, on a buffer that stands for occurrences. -/
theorem Shaped.sweep_settled (hp : p.Shaped) {os : List (Occurrence ι)}
    {kept : List (WindowedValue ι)} {es : List (Effect ι ο)}
    (h : p.gate.Sweep (os.map single) kept (.ok ()) es) :
    kept = (p.blocked os).map single ∧ Effect.handedOver es = (p.ready os).map call := by
  obtain ⟨hk, hh⟩ := h.of_ok rfl
  rw [hk, hh, hp.blocked_eq, hp.ready_eq]
  exact ⟨Gate.flatMap_blockedPart os, Gate.flatMap_readyCalls os⟩

/--
A signal without failures sorts the old buffer and its own occurrences by one readiness: the blocked
are buffered and the ready handed over.
-/
theorem Step.settled (h : Step p s r) (hp : p.Shaped) (hf : Effect.failures r.effects = [])
    {os : List (Occurrence ι)} (hb : p.pushback.elements = os.map single)
    (hos : p.blocked os = os) (n : Nat) :
    r.state.pushback.elements = (r.state.blocked (os ++ ofSignal s n)).map single ∧
      Effect.handedOver r.effects = (r.state.ready (os ++ ofSignal s n)).map call := by
  have quiet : p.pushback.elements = (p.blocked (os ++ [])).map single ∧
      [] = (p.ready (os ++ [])).map call := by
    rw [List.append_nil, hos, ready_of_blocked_eq hos]
    exact ⟨hb, rfl⟩
  cases h with
  | @passed x back t es h =>
      obtain ⟨rfl, hh⟩ := (tryProcess_ok h).of_ok rfl
      constructor
      · change (p.pushback.addAll _).elements = (p.blocked (os ++ ofElement n x)).map single
        rw [Pushback.elements_addAll, blocked_append, hos, List.map_append,
          hp.map_single_blocked, hb]
      · change _ = (p.ready (os ++ ofElement n x)).map call
        rw [Effect.handedOver_append, Router.handedOver_traced, List.nil_append, hh,
          ready_append, ready_of_blocked_eq hos, List.nil_append, hp.map_call_ready]
  | failed h =>
      obtain ⟨u, -, a⟩ := tryProcess_error h
      rw [Effect.failures_append, Router.failures_traced, List.nil_append, a.failures_eq] at hf
      cases hf
  | regressed h => exact ⟨quiet.1, (Router.handedOver_traced ..).trans quiet.2⟩
  | advanced ht h =>
      refine ⟨quiet.1, ?_⟩
      change _ = (p.ready (os ++ [])).map call
      rw [← quiet.2]
      simp
  | unknown hi => exact ⟨quiet.1, (Router.handedOver_traced ..).trans quiet.2⟩
  | interrupted hi h =>
      obtain ⟨_, _, _, u, _, -, -, -, -, -, hu⟩ := (sweep_eq h).of_error rfl
      rw [Effect.failures_append, Effect.failures_append, hu] at hf
      simp at hf
  | @reevaluated i v kept t es o w hi h hw =>
      have sw := sweep_eq h
      rw [hb] at sw
      obtain ⟨rfl, hh⟩ := (hp.store i v).sweep_settled sw
      change ((p.store i v).blocked os).map single = ((p.store i v).blocked (os ++ [])).map single ∧
        _ = ((p.store i v).ready (os ++ [])).map call
      rw [List.append_nil]
      exact ⟨rfl, by simpa using hh⟩
  | ignored => exact ⟨quiet.1, quiet.2⟩

/-- Windows only become available, so what is blocked later was blocked before. -/
theorem blocked_blocked {q : Processor σ ι ν ο} (h : ∀ w, p.Available w → q.Available w)
    (os : List (Occurrence ι)) : q.blocked (p.blocked os) = q.blocked os := by
  simp only [blocked, List.filter_filter]
  apply List.filter_congr
  intro o _
  by_cases hq : q.Available o.window
  · simp [hq]
  · have hp : ¬ p.Available o.window := fun hp => hq (h o.window hp)
    simp [hq, hp]

/-! ## Runs -/

section Run
variable (hp : p.Fresh) (signals : List (Signal ι ν))
include hp

theorem handle_settled (s : Signal ι ν)
    (hf : Effect.failures (handle s (p.after signals)).effects = [])
    (hb : (p.after signals).pushback.elements =
      ((p.after signals).blocked (received signals)).map single) :
    (p.after (signals ++ [s])).pushback.elements =
        ((p.after (signals ++ [s])).blocked (received (signals ++ [s]))).map single ∧
      Effect.handedOver (handle s (p.after signals)).effects =
        ((p.after (signals ++ [s])).ready ((p.after signals).blocked (received signals) ++
          ofSignal s signals.length)).map call := by
  have hs := step_after hp.shaped signals s
  have hos : (p.after signals).blocked ((p.after signals).blocked (received signals)) =
      (p.after signals).blocked (received signals) := blocked_blocked (fun _ h => h) _
  obtain ⟨he, hh⟩ := hs.settled (hp.shaped.after signals) hf hb hos signals.length
  rw [after_concat, received_concat]
  refine ⟨?_, hh⟩
  rw [he, blocked_append, blocked_append, blocked_blocked fun w hw => hs.available hw]

/-- The buffer holds what was received and is not available yet, in order. -/
theorem elements_after (hf : Effect.failures (p.trace signals) = []) :
    (p.after signals).pushback.elements =
      ((p.after signals).blocked (received signals)).map single := by
  induction signals using List.reverseRecOn with
  | nil =>
      obtain ⟨config, function, user, slot, -, rfl⟩ := hp.exists_eq
      rfl
  | append_singleton signals s ih =>
      rw [trace_concat, Effect.failures_append, List.append_eq_nil_iff] at hf
      exact (handle_settled hp signals s hf.2 (ih hf.1)).1

end Run

/--
The window of an occurrence becomes available at the signal at position `k`, counted from the
arrival of the occurrence on.
-/
def FirstAvailable (p : Processor σ ι ν ο) (signals : List (Signal ι ν)) (o : Occurrence ι)
    (k : Nat) : Prop :=
  o.arrival ≤ k ∧ (p.after (signals.take (k + 1))).Available o.window ∧
    ∀ j < k, o.arrival ≤ j → ¬ (p.after (signals.take (j + 1))).Available o.window

instance (p : Processor σ ι ν ο) (signals : List (Signal ι ν)) (o : Occurrence ι) (k : Nat) :
    Decidable (p.FirstAvailable signals o k) :=
  inferInstanceAs (Decidable (_ ∧ _ ∧ ∀ j < k, _ → _))

/-- The occurrences received whose windows become available at the signal at position `k`. -/
def released (p : Processor σ ι ν ο) (signals : List (Signal ι ν)) (k : Nat) :
    List (Occurrence ι) :=
  (received signals).filter fun o => decide (p.FirstAvailable signals o k)

/-- An occurrence becomes available at one signal only. -/
theorem FirstAvailable.unique {signals : List (Signal ι ν)} {o : Occurrence ι} {j k : Nat}
    (hj : p.FirstAvailable signals o j) (hk : p.FirstAvailable signals o k) : j = k := by
  rcases Nat.lt_trichotomy j k with h | h | h
  · exact absurd hj.2.1 (hk.2.2 j h hj.1)
  · exact h
  · exact absurd hk.2.1 (hj.2.2 k h hk.1)

/-- A further signal leaves alone what earlier signals released. -/
theorem released_concat_of_lt (p : Processor σ ι ν ο) (signals : List (Signal ι ν))
    (s : Signal ι ν) {k : Nat} (hk : k < signals.length) :
    p.released (signals ++ [s]) k = p.released signals k := by
  have htake {j : Nat} (hj : j < signals.length) :
      (signals ++ [s]).take (j + 1) = signals.take (j + 1) :=
    List.take_append_of_le_length hj
  rw [released, received_concat, List.filter_append]
  have hnew : (ofSignal s signals.length).filter
      (fun o => decide (p.FirstAvailable (signals ++ [s]) o k)) = [] := by
    apply List.filter_eq_nil_iff.2
    intro o ho hd
    have := (of_decide_eq_true hd).1
    rw [(mem_ofSignal.1 ho).1] at this
    omega
  rw [hnew, List.append_nil]
  apply List.filter_congr
  intro o _
  rw [decide_eq_decide, FirstAvailable, FirstAvailable, htake hk]
  refine and_congr_right fun _ => and_congr_right fun _ => ?_
  refine forall_congr' fun j => forall_congr' fun hj => ?_
  rw [htake (Nat.lt_trans hj hk)]

/-- The last signal releases what is ready after it and was blocked before it or came with it. -/
theorem released_concat_self (hp : p.Fresh) (signals : List (Signal ι ν)) (s : Signal ι ν) :
    p.released (signals ++ [s]) signals.length =
      (p.after (signals ++ [s])).ready ((p.after signals).blocked (received signals) ++
        ofSignal s signals.length) := by
  have hall : (signals ++ [s]).take (signals.length + 1) = signals ++ [s] :=
    List.take_of_length_le (by simp)
  have hpre {j : Nat} (hj : j < signals.length) :
      (signals ++ [s]).take (j + 1) = signals.take (j + 1) :=
    List.take_append_of_le_length hj
  rw [released, received_concat, List.filter_append, ready_append]
  congr 1
  · rw [ready, blocked, List.filter_filter]
    apply List.filter_congr
    intro o ho
    have hlt := arrival_lt ho
    rw [← Bool.decide_and, decide_eq_decide, FirstAvailable, hall]
    constructor
    · rintro ⟨-, ha, hb⟩
      have := hb (signals.length - 1) (by omega) (by omega)
      rw [hpre (by omega), Nat.sub_add_cancel (by omega), List.take_length] at this
      exact ⟨ha, this⟩
    · rintro ⟨ha, hb⟩
      refine ⟨Nat.le_of_lt hlt, ha, ?_⟩
      intro j hj _ hc
      rw [hpre hj] at hc
      apply hb
      have := available_after hp.shaped _ (signals.drop (j + 1)) hc
      rwa [List.take_append_drop] at this
  · apply List.filter_congr
    intro o ho
    have ha := (mem_ofSignal.1 ho).1
    rw [decide_eq_decide, FirstAvailable, hall]
    constructor
    · rintro ⟨-, hb, -⟩
      exact hb
    · intro hb
      exact ⟨Nat.le_of_eq ha, hb, fun j hj hc => by omega⟩

/-- Each signal hands over what becomes available with it, in order. -/
theorem handedOver_reports (hp : p.Fresh) (signals : List (Signal ι ν))
    (hf : Effect.failures (p.trace signals) = []) :
    (p.reports signals).map (fun r => Effect.handedOver r.effects) =
      (List.range signals.length).map fun k => (p.released signals k).map call := by
  induction signals using List.reverseRecOn with
  | nil => rfl
  | append_singleton signals s ih =>
      rw [trace_concat, Effect.failures_append, List.append_eq_nil_iff] at hf
      have hs := (handle_settled hp signals s hf.2 (elements_after hp signals hf.1)).2
      rw [reports_append, List.map_append, ih hf.1, List.length_append, List.length_singleton,
        List.range_succ, List.map_append]
      congr 1
      · apply List.map_congr_left
        intro k hk
        rw [released_concat_of_lt p signals s (List.mem_range.1 hk)]
      · rw [List.map_singleton, released_concat_self hp signals s, ← hs]
        rfl

/-- An available window became available at some signal. -/
theorem exists_firstAvailable {signals : List (Signal ι ν)} {o : Occurrence ι}
    (ho : o ∈ received signals) (ha : (p.after signals).Available o.window) :
    ∃ k, k < signals.length ∧ p.FirstAvailable signals o k := by
  have hlt := arrival_lt ho
  have hex : ∃ k, o.arrival ≤ k ∧ (p.after (signals.take (k + 1))).Available o.window := by
    refine ⟨signals.length - 1, by omega, ?_⟩
    rw [Nat.sub_add_cancel (by omega), List.take_length]
    exact ha
  refine ⟨Nat.find hex, ?_, (Nat.find_spec hex).1, (Nat.find_spec hex).2, ?_⟩
  · apply Nat.lt_of_le_of_lt (Nat.find_min' hex ⟨Nat.le_sub_one_of_lt hlt, ?_⟩)
    · omega
    · rw [Nat.sub_add_cancel (by omega), List.take_length]
      exact ha
  · intro j hj hle hc
    exact Nat.find_min hex hj ⟨hle, hc⟩

/-- A window that becomes available in a run is available after it. -/
theorem FirstAvailable.available (hp : p.Fresh) {signals : List (Signal ι ν)} {o : Occurrence ι}
    {k : Nat} (h : p.FirstAvailable signals o k) : (p.after signals).Available o.window := by
  have := available_after hp.shaped _ (signals.drop (k + 1)) h.2.1
  rwa [List.take_append_drop] at this

/--
No loss, no duplication, order kept. After every signal the buffer is what was received and is
not available, in order; and each signal hands over, in order, what becomes available with it,
which is one signal for every occurrence that is available in the end and none for the others.
-/
theorem delivers_exactly_once (hp : p.Fresh) (signals : List (Signal ι ν))
    (hf : Effect.failures (p.trace signals) = []) :
    (∀ seen rest, signals = seen ++ rest →
      (p.after seen).pushback.elements =
        ((received seen).filter fun o =>
          decide (¬ (p.after seen).Available o.window)).map single) ∧
    (p.reports signals).map (fun r => Effect.handedOver r.effects) =
      (List.range signals.length).map (fun k =>
        ((received signals).filter fun o =>
          decide (p.FirstAvailable signals o k)).map call) ∧
    ∀ o ∈ received signals,
      ((p.after signals).Available o.window →
        ∃! k, k < signals.length ∧ p.FirstAvailable signals o k) ∧
      (¬ (p.after signals).Available o.window → ∀ k, ¬ p.FirstAvailable signals o k) := by
  refine ⟨?_, handedOver_reports hp signals hf, ?_⟩
  · rintro seen rest rfl
    rw [trace_append, Effect.failures_append, List.append_eq_nil_iff] at hf
    exact elements_after hp seen hf.1
  · intro o ho
    constructor
    · intro ha
      obtain ⟨k, hk, hfirst⟩ := exists_firstAvailable ho ha
      exact ⟨k, ⟨hk, hfirst⟩, fun j hj => hj.2.unique hfirst⟩
    · intro hn k hfirst
      exact hn (hfirst.available hp)

/-- The user function that gives every element back. -/
def echo : UserFunction Unit Nat Nat Nat where
  processElement cx s := ⟨[cx.output cx.element.value], .ok (), s⟩

/-- Signals of all kinds, among them one with an unknown side input and a late watermark. -/
def mixedRun : List (Signal Nat Nat) :=
  [.element ⟨1, .zero, [hour, .global, hour]⟩, .sideInput 2 ⟨0, .zero, [hour]⟩,
    .sideInput 1 ⟨8, .zero, [.global]⟩, .watermark .zero, .watermark .minValue,
    .sideInput 0 ⟨9, .zero, [hour]⟩, .element ⟨2, .zero, [.global, hour]⟩]

theorem delivers_exactly_once_mixedRun :
    (started twoSideInputs echo ()).Fresh ∧
      Effect.failures ((started twoSideInputs echo ()).trace mixedRun) = [] ∧
      ((started twoSideInputs echo ()).after mixedRun).pushback.elements =
        [⟨1, .zero, [.global]⟩, ⟨2, .zero, [.global]⟩] ∧
      ((started twoSideInputs echo ()).reports mixedRun).map
          (fun r => Effect.handedOver r.effects) =
        [[], [], [], [], [], [(⟨1, .zero, [hour]⟩, hour), (⟨1, .zero, [hour]⟩, hour)],
          [(⟨2, .zero, [hour]⟩, hour)]] := by
  have hp : (started twoSideInputs echo ()).Fresh := fresh_started (by decide) rfl
  have hf : Effect.failures ((started twoSideInputs echo ()).trace mixedRun) = [] := by rfl
  obtain ⟨hb, hh, -⟩ := delivers_exactly_once hp mixedRun hf
  exact ⟨hp, hf, (hb mixedRun [] rfl).trans (by decide), hh.trans (by decide)⟩

end Processor

end EventStream
