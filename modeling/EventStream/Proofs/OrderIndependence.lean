import EventStream.Proofs.Delivery
import Mathlib.Data.List.Perm.Basic

/-!
# Independence of the order of signals

A user function that keeps no state and never fails gives the same results in
whatever order its elements and side inputs arrive. Watermarks do not matter.

## Implementation notes

Both runs are compared with what a run has to come to in the end: each received
element in each available window, once, under the side inputs of the end. An
element was processed earlier than that, but in a window whose side inputs were
there already, and those do not change any more.
-/

namespace EventStream

variable {σ ι ν ο : Type}

open Occurrence
open scoped List

namespace Context

/-- Two contexts that look the same to a user function. -/
structure SameView (cx cx' : Context ι ν) : Prop where
  element : cx.element = cx'.element
  window : cx.window = cx'.window
  byIndex : ∀ i, cx.sideInput i = cx'.sideInput i
  byId : ∀ id, cx.sideInputById id = cx'.sideInputById id

/-- Two stores that answer alike in a window show a call in it the same. -/
theorem sameView_of_get {a b : SideInputs ν} {w : Window} (hs : a.specs = b.specs)
    (hg : ∀ i, a.get i w = b.get i w) (y : WindowedValue ι) :
    SameView ⟨y, w, a⟩ ⟨y, w, b⟩ := by
  refine ⟨rfl, rfl, hg, ?_⟩
  intro id
  simp only [sideInputById, SideInputs.getById, hs]
  split
  · exact hg _
  · rfl

end Context

/-- A user function that never fails and whose results depend only on what it is shown. -/
structure UserFunction.Stateless (f : UserFunction σ ι ν ο) : Prop where
  starts : ∀ s, (f.startBundle s).1 = .ok ()
  finishes : ∀ s, (f.finishBundle s).1 = .ok ()
  succeeds : ∀ cx s, (f.processElement cx s).outcome = .ok ()
  determined : ∀ cx cx' s s', Context.SameView cx cx' →
    (f.processElement cx s).requests = (f.processElement cx' s').requests

namespace Gate

variable {g : Gate σ ι ν ο} (hf : g.function.Stateless)
include hf

/-- A stateless function fails in no window. -/
theorem processWindows_ok (x : WindowedValue ι) (ws : List Window) (s : σ) :
    ∃ back, (g.processWindows x ws s).result = .ok back := by
  induction ws generalizing s with
  | nil => exact ⟨[], rfl⟩
  | cons w ws ih =>
      cases hw : g.sideInputs.allReady w with
      | false =>
          obtain ⟨back, hb⟩ := ih s
          simp only [processWindows, hw, Bool.false_eq_true, if_false]
          rw [Activity.bind_of_ok rfl, Activity.report_apply, Activity.bind_of_ok hb]
          exact ⟨_, rfl⟩
      | true =>
          have hp : (g.processIn (x.inWindow w) w s).result = .ok () := hf.succeeds _ _
          simp only [processWindows, hw, if_true]
          rw [Activity.bind_of_ok hp]
          exact ih _

theorem process_ok (x : WindowedValue ι) (s : σ) : ∃ back, (g.process x s).result = .ok back := by
  have hs : (g.startBundle s).result = .ok () := hf.starts s
  obtain ⟨back, hb⟩ := processWindows_ok hf x x.windows (g.startBundle s).state
  have he : (g.finishBundle
      (g.processWindows x x.windows (g.startBundle s).state).state).result = .ok () :=
    hf.finishes _
  refine ⟨back, ?_⟩
  unfold process
  rw [Activity.bind_of_ok hs, Activity.report_if, Report.after_result, Report.after_result,
    Activity.bind_of_ok hb, Report.after_result, Activity.bind_of_ok he]
  rfl

theorem tryProcess_ok (x : WindowedValue ι) (t : σ × AssertionSlot) :
    ∃ back, (g.tryProcess x t).result = .ok back := by
  obtain ⟨back, hb⟩ := process_ok hf x t.1
  refine ⟨back, ?_⟩
  rw [(tryProcess_eq g x t).1, hb]
  rfl

/-- A sweep with a stateless function reaches the end of the buffer. -/
theorem sweep_ok (xs : List (WindowedValue ι)) (t : σ × AssertionSlot) :
    (Pushback.sweep g.tryProcess xs t).2.result = .ok () := by
  induction xs generalizing t with
  | nil => rfl
  | cons x xs ih =>
      obtain ⟨back, hb⟩ := tryProcess_ok hf x t
      simp only [Pushback.sweep]
      cases hr : g.tryProcess x t with
      | mk result t' es =>
          rw [hr] at hb
          cases hb
          exact ih t'

end Gate

namespace Processor

variable {p q : Processor σ ι ν ο} {s : Signal ι ν}
  {r : Report (Processor σ ι ν ο) (Effect ι ο) ProcessingError Unit}

/-- A stateless user function does not fail. -/
theorem Step.failures_eq_nil (h : Step p s r) (hf : p.function.Stateless) :
    Effect.failures r.effects = [] := by
  cases h with
  | passed h => simp [(tryProcess_ok h).failures_eq, UserError.ofResult]
  | @failed x e t es h =>
      obtain ⟨back, hb⟩ := Gate.tryProcess_ok (g := p.gate) hf x (p.user, p.slot)
      rw [h] at hb
      cases hb
  | regressed h => simp
  | advanced ht h => simp
  | unknown hi => simp
  | @interrupted i v kept e t es hi h =>
      have hr := Gate.sweep_ok (g := (p.store i v).gate) hf p.pushback.elements (p.user, p.slot)
      rw [h] at hr
      cases hr
  | reevaluated hi h hw => simp [(sweep_eq h).failures_of_ok rfl]
  | ignored => rfl

/-- No run with a stateless function reports a failure. -/
theorem failures_trace (hp : p.Shaped) (hf : p.function.Stateless) (signals : List (Signal ι ν)) :
    Effect.failures (p.trace signals) = [] := by
  induction signals using List.reverseRecOn with
  | nil => rfl
  | append_singleton signals s ih =>
      have hs := (step_after hp signals s).failures_eq_nil (by rwa [function_after hp])
      rw [trace_concat, Effect.failures_append, ih, hs]
      rfl

/-! ## The results of a call -/

/-- What goes out if the user function is called with an element and a window. -/
def items (p : Processor σ ι ν ο) (e : WindowedValue ι × Window) :
    List (Channel × WindowedValue ο) :=
  (p.gate.attempt e.1 e.2 p.user).requests.map fun q => (p.router.channel q.tag, q.value)

/-- What a stateless function sends for a call depends on the call and the store alone. -/
theorem yields_items (hf : p.function.Stateless) : p.gate.Yields p.items := by
  intro y w s
  have hr : (p.gate.attempt y w s).requests = (p.gate.attempt y w p.user).requests :=
    hf.determined _ _ _ _ ⟨rfl, rfl, fun _ => rfl, fun _ => rfl⟩
  rw [Gate.dataItems_processIn, hr]
  rfl

/-- Processors of the same make yield the same for a window if its side inputs agree. -/
theorem items_eq (hf : p.function.Stateless) (hfun : q.function = p.function)
    (hc : q.config = p.config) (hs : q.sideInputs.specs = p.sideInputs.specs) {w : Window}
    (hg : ∀ i, q.sideInputs.get i w = p.sideInputs.get i w) (y : WindowedValue ι) :
    q.items (y, w) = p.items (y, w) := by
  have hr : (q.gate.attempt y w q.user).requests = (p.gate.attempt y w p.user).requests := by
    simp only [Gate.attempt, gate, hfun]
    exact hf.determined _ _ _ _ (Context.sameView_of_get hs hg y)
  simp only [items, hr, router, hc]

/-- What a signal yields is told by the calls it leads to and the side inputs after it. -/
theorem Step.dataItems_eq (h : Step p s r) (hf : p.function.Stateless) :
    Effect.dataItems r.effects = (Effect.handedOver r.effects).flatMap r.state.items := by
  have hy : r.state.gate.Yields r.state.items := yields_items (h.function_eq ▸ hf)
  cases h with
  | passed h =>
      rw [Effect.dataItems_append, Effect.handedOver_append, Router.dataItems_traced,
        Router.handedOver_traced, List.nil_append, List.nil_append]
      exact (tryProcess_ok h).dataItems_eq hy
  | failed h =>
      obtain ⟨u, -, a⟩ := tryProcess_error h
      rw [Effect.dataItems_append, Effect.handedOver_append, Router.dataItems_traced,
        Router.handedOver_traced, List.nil_append, List.nil_append]
      exact a.dataItems_eq hy
  | regressed h => simp
  | advanced ht h => simp
  | unknown hi => simp
  | interrupted hi h =>
      have := (sweep_eq h).dataItems_eq hy
      simpa using this
  | reevaluated hi h hw =>
      have := (sweep_eq h).dataItems_eq hy
      simpa using this
  | ignored => rfl

/-! ## One run -/

/-- An available window reads the same values for the rest of a run without contradictions. -/
theorem get_after_append (hp : p.Fresh) {xs ys : List (Signal ι ν)} (hv : Consistent (xs ++ ys))
    {w : Window} (hw : (p.after xs).Available w) (i : Nat) :
    (p.after (xs ++ ys)).sideInputs.get i w = (p.after xs).sideInputs.get i w := by
  simp only [SideInputs.get, specs_after hp.shaped]
  cases hi : p.config.sideInputs[i]? with
  | none => rfl
  | some spec =>
      have he : (spec, i) ∈ (p.after xs).config.sideInputs.zipIdx := by
        rw [config_after hp.shaped]
        exact List.mem_zipIdx_iff_getElem?.2 hi
      exact lookup_after_append hp hv (hw _ he)

/-- What a run yields, by its calls alone, in terms of the side inputs in the end. -/
theorem dataItems_trace (hp : p.Fresh) (hf : p.function.Stateless) (seen rest : List (Signal ι ν))
    (hv : Consistent (seen ++ rest)) :
    Effect.dataItems (p.trace seen) =
      (Effect.handedOver (p.trace seen)).flatMap (p.after (seen ++ rest)).items := by
  induction seen using List.reverseRecOn generalizing rest with
  | nil => rfl
  | append_singleton seen s ih =>
      have hall : seen ++ [s] ++ rest = seen ++ s :: rest := by simp
      rw [hall] at hv
      have hfun (ss : List (Signal ι ν)) : (p.after ss).function = p.function :=
        function_after hp.shaped ss
      have hcon (ss : List (Signal ι ν)) : (p.after ss).config = p.config :=
        config_after hp.shaped ss
      have step := (step_after hp.shaped seen s).dataItems_eq (by rwa [hfun])
      rw [trace_concat, Effect.dataItems_append, Effect.handedOver_append, List.flatMap_append,
        hall, ih (s :: rest) hv, step]
      congr 1
      apply List.flatMap_congr
      rintro ⟨y, w⟩ he
      have quiet := failures_trace hp.shaped hf
      have settled := (handle_settled hp seen s
        ((step_after hp.shaped seen s).failures_eq_nil (by rwa [hfun]))
        (elements_after hp seen (quiet seen))).2
      rw [settled] at he
      obtain ⟨o, ho, hcall⟩ := List.mem_map.1 he
      have hw : (p.after (seen ++ [s])).Available w := by
        have := of_decide_eq_true (List.mem_filter.1 ho).2
        cases hcall
        exact this
      rw [← after_concat, ← hall]
      symm
      apply items_eq (by rwa [hfun]) (by rw [hfun, hfun]) (by rw [hcon, hcon])
      · rw [specs_after hp.shaped, specs_after hp.shaped]
      · intro i
        apply get_after_append hp _ hw
        rwa [hall]

/-- A run without failures hands over, in some order, what is available in the end. -/
theorem handedOver_trace_perm (hp : p.Fresh) (signals : List (Signal ι ν))
    (hf : Effect.failures (p.trace signals) = []) :
    Effect.handedOver (p.trace signals) ~
      ((p.after signals).ready (received signals)).map call := by
  induction signals using List.reverseRecOn with
  | nil => exact List.Perm.refl _
  | append_singleton signals s ih =>
      rw [trace_concat, Effect.failures_append, List.append_eq_nil_iff] at hf
      have settled := (handle_settled hp signals s hf.2 (elements_after hp signals hf.1)).2
      have kept : (p.after (signals ++ [s])).ready ((p.after signals).ready (received signals)) =
          (p.after signals).ready (received signals) := by
        apply List.filter_eq_self.2
        intro o ho
        exact decide_eq_true (available_after hp.shaped signals [s]
          (of_decide_eq_true (List.mem_filter.1 ho).2))
      have parts : (p.after signals).ready (received signals) ++
          (p.after signals).blocked (received signals) ~ received signals := by
        simpa only [blocked, ready, decide_not] using
          List.filter_append_perm (fun o => decide ((p.after signals).Available o.window))
            (received signals)
      rw [trace_concat, Effect.handedOver_append, settled, received_concat, ready_append,
        ready_append, List.map_append, ← List.append_assoc, List.map_append]
      apply List.Perm.append_right
      calc
        Effect.handedOver (p.trace signals) ++
            ((p.after (signals ++ [s])).ready
              ((p.after signals).blocked (received signals))).map call
        _ ~ ((p.after signals).ready (received signals)).map call ++
            ((p.after (signals ++ [s])).ready
              ((p.after signals).blocked (received signals))).map call :=
          (ih hf.1).append_right _
        _ = ((p.after (signals ++ [s])).ready ((p.after signals).ready (received signals) ++
            (p.after signals).blocked (received signals))).map call := by
          rw [ready_append, kept, List.map_append]
        _ ~ ((p.after (signals ++ [s])).ready (received signals)).map call :=
          (parts.filter _).map _

end Processor

/-! ## Two runs -/

namespace Signal

/-- Whether a signal carries an element or a value of a side input. -/
def carries : Signal ι ν → Bool
  | .element _ => true
  | .sideInput _ _ => true
  | _ => false

/-- What a signal offers to the user function, in the windows that are or become ready. -/
def offers : Signal ι ν → List (WindowedValue ι × Window)
  | .element x => x.windows.map fun w => (x.inWindow w, w)
  | _ => []

end Signal

/-- The calls to be made are those that the signals offer, in order. -/
theorem Occurrence.map_call_received (signals : List (Signal ι ν)) :
    (received signals).map call = signals.flatMap Signal.offers := by
  induction signals using List.reverseRecOn with
  | nil => rfl
  | append_singleton signals s ih =>
      rw [received_concat, List.map_append, ih, List.flatMap_append, List.flatMap_singleton]
      congr 1
      cases s with
      | element x => exact map_call_ofElement signals.length x
      | _ => rfl

/-- Watermarks offer no calls. -/
theorem Signal.flatMap_offers_filter (signals : List (Signal ι ν)) :
    (signals.filter carries).flatMap offers = signals.flatMap offers := by
  induction signals with
  | nil => rfl
  | cons s rest ih =>
      cases s with
      | element x => exact congrArg (_ ++ ·) ih
      | _ => exact ih

namespace Processor

variable {p q : Processor σ ι ν ο}

theorem map_call_ready (p : Processor σ ι ν ο) (os : List (Occurrence ι)) :
    (p.ready os).map call = (os.map call).filter fun e => decide (p.Available e.2) := by
  rw [List.filter_map]
  rfl

theorem map_single_blocked (p : Processor σ ι ν ο) (os : List (Occurrence ι)) :
    (p.blocked os).map single =
      ((os.map call).filter fun e => decide (¬ p.Available e.2)).map Prod.fst := by
  rw [List.filter_map, List.map_map]
  rfl

/-- Whether the values written agree does not depend on the order of the signals. -/
theorem Consistent.of_perm {xs ys : List (Signal ι ν)} (hv : Consistent xs)
    (hperm : xs.filter Signal.carries ~ ys.filter Signal.carries) : Consistent ys := by
  have back {i : Nat} {v : WindowedValue ν} (h : .sideInput i v ∈ ys) : .sideInput i v ∈ xs :=
    (List.mem_filter.1 (hperm.symm.subset (List.mem_filter.2 ⟨h, rfl⟩))).1
  exact fun i v v' h h' => hv i v v' (back h) (back h')

/-- Runs with the same signals in another order end with the same values. -/
theorem lookup_eq_of_perm (hp : p.Fresh) (hq : q.Fresh) (hc : q.config = p.config)
    {xs ys : List (Signal ι ν)} (hperm : xs.filter Signal.carries ~ ys.filter Signal.carries)
    (hv : Consistent xs) (key : SideInputKey) :
    (p.after xs).sideInputs.lookup key = (q.after ys).sideInputs.lookup key := by
  have hmem (v : WindowedValue ν) : .sideInput key.1 v ∈ xs ↔ .sideInput key.1 v ∈ ys := by
    have := hperm.mem_iff (a := .sideInput key.1 v)
    simpa [List.mem_filter, Signal.carries] using this
  ext value
  rw [lookup_after_eq_some_iff hp hv, lookup_after_eq_some_iff hq (hv.of_perm hperm), hc]
  simp only [hmem]

/--
A stateless user function does the same for any two orders of the elements and the side inputs,
whatever watermarks are in between.
-/
theorem order_independent (hp : p.Fresh) (hq : q.Fresh) (hc : q.config = p.config)
    (hfun : q.function = p.function) (hf : p.function.Stateless) {xs ys : List (Signal ι ν)}
    (hperm : xs.filter Signal.carries ~ ys.filter Signal.carries) (hv : Consistent xs) :
    Effect.dataItems (p.trace xs) ~ Effect.dataItems (q.trace ys) ∧
      (p.after xs).sideInputs.specs = (q.after ys).sideInputs.specs ∧
      (∀ key, (p.after xs).sideInputs.lookup key = (q.after ys).sideInputs.lookup key) ∧
      (p.after xs).pushback.elements ~ (q.after ys).pushback.elements := by
  have specs : (p.after xs).sideInputs.specs = (q.after ys).sideInputs.specs := by
    rw [specs_after hp.shaped, specs_after hq.shaped, hc]
  have lookups := lookup_eq_of_perm hp hq hc hperm hv
  have offered : xs.flatMap Signal.offers ~ ys.flatMap Signal.offers := by
    rw [← Signal.flatMap_offers_filter xs, ← Signal.flatMap_offers_filter ys]
    exact hperm.flatMap_right _
  have available (w : Window) : (p.after xs).Available w ↔ (q.after ys).Available w := by
    simp only [Available, config_after hp.shaped, config_after hq.shaped, hc, lookups]
  have hqf : q.function.Stateless := by rwa [hfun]
  have hpn := failures_trace hp.shaped hf xs
  have hqn := failures_trace hq.shaped hqf ys
  refine ⟨?_, specs, lookups, ?_⟩
  · have hitems : (p.after xs).items = (q.after ys).items := by
      funext e
      apply items_eq
      · rwa [function_after hq.shaped]
      · rw [function_after hp.shaped, function_after hq.shaped, hfun]
      · rw [config_after hp.shaped, config_after hq.shaped, hc]
      · exact specs
      · intro i
        simp only [SideInputs.get, specs, lookups]
    have hpd := dataItems_trace hp hf xs [] (by rwa [List.append_nil])
    have hqd := dataItems_trace hq hqf ys [] (by
      rw [List.append_nil]
      exact hv.of_perm hperm)
    rw [List.append_nil] at hpd hqd
    have calls : Effect.handedOver (p.trace xs) ~ Effect.handedOver (q.trace ys) :=
      calc
        Effect.handedOver (p.trace xs)
        _ ~ ((p.after xs).ready (received xs)).map call := handedOver_trace_perm hp xs hpn
        _ = (xs.flatMap Signal.offers).filter fun e => decide ((q.after ys).Available e.2) := by
          rw [map_call_ready, map_call_received]
          simp only [available]
        _ ~ (ys.flatMap Signal.offers).filter fun e => decide ((q.after ys).Available e.2) :=
          offered.filter _
        _ = ((q.after ys).ready (received ys)).map call := by
          rw [map_call_ready, map_call_received]
        _ ~ Effect.handedOver (q.trace ys) := (handedOver_trace_perm hq ys hqn).symm
    rw [hpd, hqd, hitems]
    exact calls.flatMap_right _
  · rw [elements_after hp xs hpn, elements_after hq ys hqn, map_single_blocked,
      map_single_blocked, map_call_received, map_call_received]
    simp only [available]
    exact (offered.filter _).map _

/-- The user function that applies the rate of a window to an element and adds the limit. -/
def priced : UserFunction Unit Nat Nat Nat where
  processElement cx s :=
    let rate := (cx.sideInput 0).getD 0
    let limit := (cx.sideInputById ⟨"limits"⟩).getD 0
    ⟨[cx.output (cx.element.value * rate + limit)], .ok (), s⟩

theorem stateless_priced : priced.Stateless := by
  refine ⟨fun _ => rfl, fun _ => rfl, fun _ _ => rfl, ?_⟩
  intro cx cx' s s' h
  simp only [priced, Context.output, Context.outputAt, h.element, h.window, h.byIndex, h.byId]

/-- Elements first, with side inputs after each. -/
def elementsFirst : List (Signal Nat Nat) :=
  [.element ⟨1, .zero, [hour]⟩, .sideInput 1 ⟨8, .zero, [.global]⟩, .watermark .zero,
    .element ⟨2, .zero, [hour, .global]⟩, .sideInput 0 ⟨9, .zero, [hour]⟩]

/-- The same the other way round. -/
def sideInputsFirst : List (Signal Nat Nat) :=
  [.sideInput 0 ⟨9, .zero, [hour]⟩, .element ⟨2, .zero, [hour, .global]⟩,
    .sideInput 1 ⟨8, .zero, [.global]⟩, .sideInputWatermark .zero, .element ⟨1, .zero, [hour]⟩]

theorem order_independent_reversed :
    (started twoSideInputs priced ()).Fresh ∧ priced.Stateless ∧
      elementsFirst.filter Signal.carries ~ sideInputsFirst.filter Signal.carries ∧
      Consistent elementsFirst ∧
      [(Channel.main, ⟨17, .zero, [hour]⟩), (Channel.main, ⟨26, .zero, [hour]⟩)] ~
        Effect.dataItems ((started twoSideInputs priced ()).trace sideInputsFirst) := by
  have hp : (started twoSideInputs priced ()).Fresh := fresh_started (by decide) rfl
  have hperm : elementsFirst.filter Signal.carries ~ sideInputsFirst.filter Signal.carries :=
    (List.reverse_perm (elementsFirst.filter Signal.carries)).symm
  have hv : Consistent elementsFirst := by
    intro i v v' h h' w _ _
    simp only [elementsFirst, List.mem_cons, List.not_mem_nil, reduceCtorEq,
      Signal.sideInput.injEq, false_or, or_false] at h h'
    obtain ⟨rfl, rfl⟩ | ⟨rfl, rfl⟩ := h <;> simp_all
  refine ⟨hp, stateless_priced, hperm, hv, ?_⟩
  exact (order_independent hp hp rfl rfl stateless_priced hperm hv).1
end Processor

end EventStream
