import EventStream.Proofs.Acceptance
import EventStream.Proofs.NoLateData

/-!
# Routing

A signal delivers exactly what the user function hands over while the signal is
handled, each result on the channel of its name, and after that at most one
watermark. A failure takes back nothing that was delivered before it, but there
is no watermark then.

## Implementation notes

User code can hand over a result in three ways only, all through its context.
They are listed, so that a result tells the time and the window it must have.
-/

namespace EventStream

open Cbor

variable {σ ι ν ο : Type}

/-! ## What user code hands over -/

/-- The ways to hand over a result. -/
inductive OutputCall (ο : Type) where
  | output (value : ο)
  | outputAt (value : ο) (timestamp : Timestamp)
  | outputTagged (tag : OutputTag) (value : ο)

namespace OutputCall

/-- The value handed over. -/
def value : OutputCall ο → ο
  | output value => value
  | outputAt value _ => value
  | outputTagged _ value => value

/-- The output asked for. -/
def tag : OutputCall ο → Option OutputTag
  | outputTagged tag _ => some tag
  | _ => none

/-- The time of the result, that of the element unless another one is given. -/
def time (element : WindowedValue ι) : OutputCall ο → Timestamp
  | outputAt _ timestamp => timestamp
  | _ => element.timestamp

/-- The result handed over through a context. -/
def request (cx : Context ι ν) : OutputCall ο → OutputRequest ο
  | output value => cx.output value
  | outputAt value timestamp => cx.outputAt value timestamp
  | outputTagged tag value => cx.outputTagged tag value

/-- A call for an output asks for a value in the window at hand. -/
theorem request_eq (cx : Context ι ν) (c : OutputCall ο) :
    c.request cx = ⟨c.tag, ⟨c.value, c.time cx.element, [cx.window]⟩⟩ := by
  cases c <;> rfl

end OutputCall

/-- A user function whose results all go through its context, by the calls given. -/
def UserFunction.HandsOver (f : UserFunction σ ι ν ο)
    (calls : Context ι ν → σ → List (OutputCall ο)) : Prop :=
  ∀ cx s, (f.processElement cx s).requests = (calls cx s).map (OutputCall.request cx)

namespace Invocation

/-- The results handed over in a call of the user function. -/
def requests : Invocation ι ο → List (OutputRequest ο)
  | processElement _ _ requests _ => requests
  | _ => []

/-- A call that is answered by a user function, on an element that is in the window at hand only. -/
def AnsweredBy (f : UserFunction σ ι ν ο) : Invocation ι ο → Prop
  | processElement x w requests outcome =>
      x.windows = [w] ∧ ∃ (cx : Context ι ν) (s : σ), cx.element = x ∧ cx.window = w ∧
        (f.processElement cx s).requests = requests ∧ (f.processElement cx s).outcome = outcome
  | _ => True

/-- Results that go through the context are at their time and in the window at hand. -/
theorem AnsweredBy.requests_eq {f : UserFunction σ ι ν ο}
    {calls : Context ι ν → σ → List (OutputCall ο)} (hf : f.HandsOver calls)
    {x : WindowedValue ι} {w : Window} {requests : List (OutputRequest ο)}
    {outcome : Except UserError Unit}
    (h : AnsweredBy f (.processElement x w requests outcome)) :
    x.windows = [w] ∧ ∃ (cx : Context ι ν) (s : σ), cx.element = x ∧ cx.window = w ∧
      requests = (calls cx s).map fun c => ⟨c.tag, ⟨c.value, c.time x, [w]⟩⟩ := by
  obtain ⟨hw, cx, s, rfl, rfl, rfl, -⟩ := h
  refine ⟨hw, cx, s, rfl, rfl, ?_⟩
  rw [hf cx s]
  exact List.map_congr_left fun c _ => c.request_eq cx

end Invocation

namespace Effect

/-- The results handed over in the calls of the user function, in order. -/
def requested (effects : List (Effect ι ο)) : List (OutputRequest ο) :=
  (invocations effects).flatMap Invocation.requests

@[simp] theorem requested_append (xs ys : List (Effect ι ο)) :
    requested (xs ++ ys) = requested xs ++ requested ys := by
  rw [requested, invocations_append, List.flatMap_append]
  rfl

end Effect

namespace Router

/-- A result on its channel. -/
def deliver (r : Router) (q : OutputRequest ο) : Channel × Emission ο :=
  (r.channel q.tag, .data q.value)

/-- A watermark is requested by nobody. -/
theorem requested_emitted (r : Router) (o : Option Timestamp) :
    Effect.requested (o.toList.flatMap r.emitWatermark : List (Effect ι ο)) = [] := by
  rw [Effect.requested, invocations_emitted, List.flatMap_nil]

theorem emissions_emitted (r : Router) (o : Option Timestamp) :
    Effect.emissions (o.toList.flatMap r.emitWatermark : List (Effect ι ο)) =
      o.toList.map fun t => (.main, .watermark t) := by
  cases o with
  | none => rfl
  | some t => simp

end Router

namespace Effect

/-- Effects that deliver what a user function hands over, and nothing else. -/
structure Relays (f : UserFunction σ ι ν ο) (r : Router) (effects : List (Effect ι ο)) : Prop where
  answered : ∀ i ∈ invocations effects, i.AnsweredBy f
  delivered : emissions effects = (requested effects).map r.deliver

variable {f : UserFunction σ ι ν ο} {r : Router} {xs ys : List (Effect ι ο)}

/-- Silent effects ask for no output and emit none. -/
theorem Silent.relays (h : Silent xs) : Relays f r xs := by
  constructor
  · intro i hi
    rw [h.1] at hi
    cases hi
  · rw [h.2, requested, h.1]
    rfl

/-- Relaying in two parts is relaying. -/
theorem Relays.append (hx : Relays f r xs) (hy : Relays f r ys) : Relays f r (xs ++ ys) := by
  constructor
  · rw [invocations_append, List.forall_mem_append]
    exact ⟨hx.answered, hy.answered⟩
  · rw [emissions_append, requested_append, List.map_append, hx.delivered, hy.delivered]

theorem relays_startBundle (outcome : Except UserError Unit) :
    Relays f r ([.call (.startBundle outcome)] : List (Effect ι ο)) :=
  ⟨List.forall_mem_singleton.2 trivial, rfl⟩

theorem relays_finishBundle (outcome : Except UserError Unit) :
    Relays f r ([.call (.finishBundle outcome)] : List (Effect ι ο)) :=
  ⟨List.forall_mem_singleton.2 trivial, rfl⟩

end Effect

/-! ## What a signal delivers -/

namespace Gate

variable {g : Gate σ ι ν ο} {x : WindowedValue ι}

/-- A call for an element relays what user code asked for, in order. -/
theorem relays_processIn (g : Gate σ ι ν ο) (x : WindowedValue ι) (w : Window) (s : σ) :
    Effect.Relays g.function g.router (g.processIn (x.inWindow w) w s).effects := by
  constructor
  · rw [invocations_processIn, List.forall_mem_singleton]
    exact ⟨rfl, ⟨x.inWindow w, w, g.sideInputs⟩, s, rfl, rfl, rfl, rfl⟩
  · rw [emissions_processIn, Effect.requested, invocations_processIn, List.flatMap_singleton]
    rfl

/-- A visit relays what its calls asked for. -/
theorem Visit.relays {ws result es} (v : Visit g x ws result es) :
    Effect.Relays g.function g.router es := by
  induction v with
  | done => exact (Effect.silent_notes []).relays
  | blocked hw rest ih => exact (Effect.silent_notes [_]).relays.append ih
  | failed hw he => exact g.relays_processIn x _ _
  | passed hw hs rest ih => exact (g.relays_processIn x _ _).append ih

theorem relays_opening (f : UserFunction σ ι ν ο) (r : Router) (x : WindowedValue ι) :
    Effect.Relays f r (opening x : List (Effect ι ο)) :=
  (Effect.relays_startBundle (.ok ())).append (silent_dropNote x).relays

/-- A passage relays what its calls asked for. -/
theorem Passage.relays {result es} (a : Passage g x result es) :
    Effect.Relays g.function g.router es := by
  cases a with
  | notStarted e => exact Effect.relays_startBundle _
  | interrupted v => exact (relays_opening _ _ x).append v.relays
  | ended v outcome =>
      exact ((relays_opening _ _ x).append v.relays).append (Effect.relays_finishBundle outcome)

/-- Passages one after another relay what their calls asked for. -/
theorem Passages.relays {es : List (Effect ι ο)} (h : g.Passages es) :
    Effect.Relays g.function g.router es := by
  induction h with
  | none => exact (Effect.silent_notes []).relays
  | next first others ih => exact first.relays.append ih

end Gate

namespace Processor

variable {p : Processor σ ι ν ο} {s : Signal ι ν}
  {r : Report (Processor σ ι ν ο) (Effect ι ο) ProcessingError Unit}

/-- A signal delivers what is handed over, and then a watermark unless it fails. -/
theorem Step.relays (h : Step p s r) :
    ∃ es o, r.effects = es ++ o.toList.flatMap p.router.emitWatermark ∧
      Effect.Relays p.function p.router es ∧ ∀ e, r.result = .error e → o = none := by
  obtain ⟨g, before, work, after, o, he, hb, passages, ha, hf, hr, failed⟩ := h.passages
  have relays := (hb.relays.append passages.relays).append ha.relays
  rw [hf, hr] at relays
  exact ⟨_, o, he, relays, failed⟩

namespace Performed

/-- What a signal emits. -/
theorem emissions_eq (h : Performed p (.handle s) r) :
    ∃ o : Option Timestamp, Effect.emissions r.effects =
        (Effect.requested r.effects).map p.router.deliver ++
          o.toList.map (fun t => (.main, .watermark t)) ∧
      ∀ e, r.result = .error e → o = none := by
  cases h with
  | notHandled hr => exact ⟨none, rfl, fun _ _ => rfl⟩
  | handled hr step =>
      obtain ⟨es, o, he, relays, failed⟩ := step.relays
      refine ⟨o, ?_, failed⟩
      rw [he, Effect.emissions_append, Effect.requested_append, relays.delivered,
        Router.emissions_emitted, Router.requested_emitted, List.append_nil]

/-- The calls of the user function that a signal leads to. -/
theorem answered (h : Performed p (.handle s) r) :
    ∀ i ∈ Effect.invocations r.effects, i.AnsweredBy p.function := by
  cases h with
  | notHandled hr => exact fun i hi => (nomatch hi)
  | handled hr step =>
      obtain ⟨es, o, he, relays, -⟩ := step.relays
      rw [he, Effect.invocations_append, Router.invocations_emitted, List.append_nil]
      exact relays.answered

/-- A command other than a signal emits nothing. -/
theorem emissions_eq_nil {c : Command ι ν} (h : Performed p c r) (hc : ∀ s, c ≠ .handle s) :
    Effect.emissions r.effects = [] := by
  cases h with
  | handled hr step => exact absurd rfl (hc _)
  | _ => rfl

end Performed

/-! ## Runs of commands -/

/-- Watermarks are on the main output, and every side channel is one of a side output. -/
def Routed (p : Processor σ ι ν ο) (e : Channel × Emission ο) : Prop :=
  (∀ t, e.2 = .watermark t → e.1 = .main) ∧ ∀ i, e.1 = .side i → i < p.config.sideOutputs.length

/-- A request goes to the output of its tag, and to the main one if it has none. -/
theorem routed_deliver (hv : p.config.Valid) (q : OutputRequest ο) :
    p.Routed (p.router.deliver q) := by
  refine ⟨fun t ht => (nomatch ht), fun i hi => ?_⟩
  obtain ⟨t, -, ht⟩ := (Router.channel_eq_side_iff hv.outputsDistinct).1 hi
  exact (List.getElem?_eq_some_iff.1 ht).1

/-- Watermarks go to the main output. -/
theorem routed_watermark (p : Processor σ ι ν ο) (t : Timestamp) :
    p.Routed (.main, .watermark t) :=
  ⟨fun _ _ => rfl, fun _ hi => (nomatch hi)⟩

/-- Every command emits to outputs that exist, and watermarks to the main one. -/
theorem Performed.routed {c : Command ι ν} (h : Performed p c r) (hv : p.config.Valid) :
    ∀ e ∈ Effect.emissions r.effects, p.Routed e := by
  by_cases hc : ∃ s, c = .handle s
  · obtain ⟨s, rfl⟩ := hc
    obtain ⟨o, he, -⟩ := h.emissions_eq
    rw [he, List.forall_mem_append, List.forall_mem_map, List.forall_mem_map]
    exact ⟨fun q _ => routed_deliver hv q, fun t _ => p.routed_watermark t⟩
  · rw [h.emissions_eq_nil fun s hs => hc ⟨s, hs⟩]
    exact fun e he => (nomatch he)

variable [ToCbor ι] [FromCbor ι] [ToCbor ν] [FromCbor ν]

/-- Commands emit to outputs that exist, whatever they are. -/
theorem routed_history (hv : p.config.Valid) (commands : List (Command ι ν)) :
    ∀ e ∈ Effect.emissions (p.history commands), p.Routed e := by
  induction commands using List.reverseRecOn with
  | nil => exact fun e he => (nomatch he)
  | append_singleton commands c ih =>
      have same := p.config_performAll commands
      have last := (perform_performed c (p.performAll commands)).routed (same ▸ hv)
      rw [history_concat, Effect.emissions_append, List.forall_mem_append]
      refine ⟨ih, fun e he => ?_⟩
      have routed := last e he
      rwa [Routed, same] at routed

/--
Routing over whole runs. Processors and routers are made from exactly the configurations that keep
all rules, and a rejected one is told a rule that it breaks.

In any run of commands from there, a signal emits the results that the user function hands over
while it is handled, in order, each on the channel of its name, and then at most one watermark; a
signal that fails emits no watermark, and what went out before stays. Only the results with the name
of a side output go to its channel. Every result is in the one window that is processed, at the time
of its element unless user code gave another.
-/
theorem routing_exact :
    (∀ (config : Config) (function : UserFunction σ ι ν ο) (user : σ),
      ((∃ p, make? config function user = .ok p) ↔ config.Valid) ∧
      ((∃ r, Router.ofConfig? config = .ok r) ↔ config.Valid) ∧
      (∀ e, make? config function user = .error e → config.Breaks e) ∧
      ∀ e, Router.ofConfig? config = .error e → config.Breaks e) ∧
    ∀ p : Processor σ ι ν ο, p.Made →
      (∀ tag i, p.router.channel tag = .side i ↔
        ∃ t, tag = some t ∧ p.config.sideOutputs[i]? = some t) ∧
      (∀ tag, p.router.channel tag = .main ↔ ∀ t, tag = some t → t ∉ p.config.sideOutputs) ∧
      p.router.channel (some p.config.mainOutput) = .main ∧
      ∀ commands : List (Command ι ν),
        (∀ e ∈ Effect.emissions (p.history commands),
          (∀ t, e.2 = .watermark t → e.1 = .main) ∧
          ∀ i, e.1 = .side i → i < p.config.sideOutputs.length) ∧
        ∀ s,
          (∃ o : Option Timestamp,
            Effect.emissions (p.history (commands ++ [.handle s])) =
              Effect.emissions (p.history commands) ++
                ((Effect.requested (handle s (p.performAll commands)).effects).map
                    (fun q => (p.router.channel q.tag, .data q.value)) ++
                  o.toList.map fun t => (.main, .watermark t)) ∧
            ∀ e, (handle s (p.performAll commands)).result = .error e → o = none) ∧
          ∀ calls, p.function.HandsOver calls → ∀ x w requests outcome,
            .processElement x w requests outcome ∈
                Effect.invocations (handle s (p.performAll commands)).effects →
              x.windows = [w] ∧ ∃ (cx : Context ι ν) (user : σ), cx.element = x ∧ cx.window = w ∧
                requests = (calls cx user).map fun c => ⟨c.tag, ⟨c.value, c.time x, [w]⟩⟩ := by
  constructor
  · intro config function user
    refine ⟨exists_make?_iff, Router.exists_ofConfig?_iff, fun e he => ?_, fun e he => ?_⟩
    · exact Config.breaks_of_validate (make?_eq_error_iff.1 he)
    · exact Config.breaks_of_validate (Router.ofConfig?_eq_error_iff.1 he)
  · intro p hp
    have valid := hp.valid
    refine ⟨fun tag i => Router.channel_eq_side_iff valid.outputsDistinct,
      fun tag => Router.channel_eq_main_iff, ?_,
      fun commands => ⟨routed_history valid commands, ?_⟩⟩
    · apply Router.channel_eq_main_iff.2
      rintro t ht
      cases ht
      exact valid.mainApart
    · intro s
      have performed := handle_performed s (p.performAll commands)
      have router : (p.performAll commands).router = p.router :=
        congrArg Router.ofConfig (p.config_performAll commands)
      refine ⟨?_, ?_⟩
      · obtain ⟨o, he, failed⟩ := performed.emissions_eq
        refine ⟨o, ?_, failed⟩
        rw [history_concat, Effect.emissions_append]
        rw [router] at he
        exact congrArg _ he
      · intro calls hf x w requests outcome hm
        have answered := performed.answered _ hm
        rw [p.function_performAll commands] at answered
        exact answered.requests_eq hf

/-- Two side outputs, and a side input that is windowed like the main input. -/
def twoSideOutputs : Config where
  mainOutput := defaultMainOutput
  sideOutputs := [⟨"errors"⟩, ⟨"late"⟩]
  sideInputs := [⟨⟨"rates"⟩, .identity⟩]
  traces := true

/-- Results for the main output, for a side output and for one that is not configured. -/
def sortingCalls (cx : Context UInt64 String) (_ : Nat) : List (OutputCall UInt64) :=
  [.output cx.element.value, .outputAt 0 .zero, .outputTagged ⟨"late"⟩ 1, .outputTagged ⟨"lost"⟩ 2]

/-- The user function that hands these over and then fails on every third element. -/
def sorting : UserFunction Nat UInt64 String UInt64 where
  processElement cx n :=
    ⟨(sortingCalls cx n).map (OutputCall.request cx),
      if n % 3 = 2 then .error (.failed "third") else .ok (), n + 1⟩

/-- A run that leaves two elements waiting. -/
def sortingRun : List (Command UInt64 String) :=
  [.setUp, .handle (.element ⟨5, fiveMillis, [hour, .global]⟩),
    .handle (.element ⟨9, nineMillis, [.global]⟩), .handle (.watermark nineMillis),
    .handle (.sideInput 0 ⟨"seven", .zero, [hour]⟩)]

/-- The signal on which both are processed and the second one fails. -/
def lastRate : Signal UInt64 String := .sideInput 0 ⟨"eight", .zero, [.global]⟩

/-- The call that fails. -/
def lastCall : Invocation UInt64 UInt64 :=
  .processElement ⟨9, nineMillis, [.global]⟩ .global
    [⟨none, ⟨9, nineMillis, [.global]⟩⟩, ⟨none, ⟨0, .zero, [.global]⟩⟩,
      ⟨some ⟨"late"⟩, ⟨1, nineMillis, [.global]⟩⟩, ⟨some ⟨"lost"⟩, ⟨2, nineMillis, [.global]⟩⟩]
    (.error (.failed "third"))

theorem routing_exact_sorting :
    (initial twoSideOutputs sorting 0).Made ∧ sorting.HandsOver sortingCalls ∧
      (handle lastRate ((initial twoSideOutputs sorting 0).performAll sortingRun)).result =
        .error (.userCode (.failed "third")) ∧
      Effect.emissions ((initial twoSideOutputs sorting 0).history sortingRun) =
        [(.main, .watermark fiveMillis), (.main, .data ⟨5, fiveMillis, [hour]⟩),
          (.main, .data ⟨0, .zero, [hour]⟩), (.side 1, .data ⟨1, fiveMillis, [hour]⟩),
          (.main, .data ⟨2, fiveMillis, [hour]⟩)] ∧
      Effect.emissions
          ((initial twoSideOutputs sorting 0).history (sortingRun ++ [.handle lastRate])) =
        Effect.emissions ((initial twoSideOutputs sorting 0).history sortingRun) ++
          [(.main, .data ⟨5, fiveMillis, [.global]⟩), (.main, .data ⟨0, .zero, [.global]⟩),
            (.side 1, .data ⟨1, fiveMillis, [.global]⟩),
            (.main, .data ⟨2, fiveMillis, [.global]⟩),
            (.main, .data ⟨9, nineMillis, [.global]⟩), (.main, .data ⟨0, .zero, [.global]⟩),
            (.side 1, .data ⟨1, nineMillis, [.global]⟩),
            (.main, .data ⟨2, nineMillis, [.global]⟩)] ∧
      lastCall ∈ Effect.invocations
        (handle lastRate ((initial twoSideOutputs sorting 0).performAll sortingRun)).effects ∧
      ∃ (cx : Context UInt64 String) (n : Nat),
        cx.element = ⟨9, nineMillis, [.global]⟩ ∧ cx.window = .global ∧
          lastCall.requests =
            (sortingCalls cx n).map fun c => ⟨c.tag, ⟨c.value, c.time cx.element, [.global]⟩⟩ := by
  have hp : (initial twoSideOutputs sorting 0).Made := made_initial (by decide) sorting 0
  have handsOver : sorting.HandsOver sortingCalls := fun _ _ => rfl
  obtain ⟨-, runs⟩ := routing_exact (σ := Nat) (ι := UInt64) (ν := String) (ο := UInt64)
  obtain ⟨-, -, -, signals⟩ := runs _ hp
  obtain ⟨⟨o, emitted, failed⟩, handed⟩ := (signals sortingRun).2 lastRate
  cases failed _ rfl
  have last : lastCall ∈ Effect.invocations
      (handle lastRate ((initial twoSideOutputs sorting 0).performAll sortingRun)).effects :=
    List.mem_of_getLast? rfl
  obtain ⟨-, cx, n, hx, hw, requests⟩ := handed sortingCalls handsOver _ _ _ _ last
  exact ⟨hp, handsOver, rfl, rfl, emitted, last, cx, n, hx, hw, by rw [hx]; exact requests⟩

end Processor

end EventStream
