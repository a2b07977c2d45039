import EventStream.Proofs.Run

/-!
# The bundles of calls

The user function processes an element between the start and the end of a
bundle. Every element that is tried makes one bundle, whatever fails in it, so a
signal leads to whole bundles one after another.

## Implementation notes

All that a signal does besides the passages of elements is to log and to emit a
watermark at its end. This is said once for all signals, and what holds of the
effects of passages then holds of the effects of signals.
-/

namespace EventStream

variable {σ ι ν ο : Type}

/-! ## The passages of a signal -/

namespace Gate

/-- The effects of passages one after another. -/
inductive Passages (g : Gate σ ι ν ο) : List (Effect ι ο) → Prop
  | none : Passages g []
  | next {x result es rest} (first : Passage g x result es) (others : Passages g rest) :
      Passages g (es ++ rest)

variable {g : Gate σ ι ν ο}

/-- The passage of one element is a sequence of passages. -/
theorem Passage.passages {x : WindowedValue ι} {result es} (a : Passage g x result es) :
    g.Passages es := by
  have := Passages.next a Passages.none
  rwa [List.append_nil] at this

/-- What a sweep does is a sequence of passages, whether it reaches the end or not. -/
theorem Sweep.passages {xs kept : List (WindowedValue ι)} {result : Except ProcessingError Unit}
    {es : List (Effect ι ο)} (h : g.Sweep xs kept result es) : g.Passages es := by
  induction h with
  | done => exact Passages.none
  | failed trial =>
      obtain ⟨u, -, a⟩ := trial.of_error
      exact a.passages
  | passed trial rest ih => exact Passages.next trial.of_ok ih

/-- No watermark is emitted while elements pass the gate. -/
theorem Passages.watermarks_eq {es : List (Effect ι ο)} (h : g.Passages es) :
    Effect.watermarks es = [] := by
  induction h with
  | none => rfl
  | next first others ih => rw [Effect.watermarks_append, first.watermarks_eq, ih]; rfl

end Gate

namespace Processor

variable {p : Processor σ ι ν ο} {s : Signal ι ν}
  {r : Report (Processor σ ι ν ο) (Effect ι ο) ProcessingError Unit}

/-- A signal does nothing but passages, notes around them, and a watermark unless it fails. -/
theorem Step.passages (h : Step p s r) :
    ∃ (g : Gate σ ι ν ο) (before work after : List (Effect ι ο)) (o : Option Timestamp),
      r.effects = before ++ work ++ after ++ o.toList.flatMap p.router.emitWatermark ∧
      Effect.Silent before ∧ g.Passages work ∧ Effect.Silent after ∧
      g.function = p.function ∧ g.router = p.router ∧ ∀ e, r.result = .error e → o = none := by
  have quiet : Effect.Silent ([] : List (Effect ι ο)) := Effect.silent_notes []
  cases h with
  | @passed x back t es h =>
      exact ⟨p.gate, p.router.traced (.elementReceived x.timestamp x.windows), es, [], none,
        by simp, p.router.silent_traced _, (tryProcess_ok h).passages, quiet, rfl, rfl,
        fun _ _ => rfl⟩
  | @failed x e t es h =>
      obtain ⟨u, -, a⟩ := tryProcess_error h
      exact ⟨p.gate, p.router.traced (.elementReceived x.timestamp x.windows), es, [], none,
        by simp, p.router.silent_traced _, a.passages, quiet, rfl, rfl, fun _ _ => rfl⟩
  | @regressed t h =>
      exact ⟨p.gate, p.router.traced (.watermarkReceived t), [], [], none,
        by simp, p.router.silent_traced _, .none, quiet, rfl, rfl, fun _ _ => rfl⟩
  | @advanced t o w ht h =>
      exact ⟨p.gate, p.router.traced (.watermarkReceived t), [], [], o,
        by simp, p.router.silent_traced _, .none, quiet, rfl, rfl, fun _ he => (nomatch he)⟩
  | @unknown i v hi =>
      exact ⟨p.gate, p.router.traced (.sideInputReceived i v.timestamp v.windows), [], [], none,
        by simp, p.router.silent_traced _, .none, quiet, rfl, rfl, fun _ _ => rfl⟩
  | @interrupted i v kept e t es hi h =>
      exact ⟨(p.store i v).gate, p.router.traced (.sideInputReceived i v.timestamp v.windows) ++
          (SideInputs.insertNotices i v).map .note, es, [], none,
        by simp, (p.router.silent_traced _).append (Effect.silent_notes _), (sweep_eq h).passages,
        quiet, rfl, rfl, fun _ _ => rfl⟩
  | @reevaluated i v kept t es o w hi h hw =>
      exact ⟨(p.store i v).gate, p.router.traced (.sideInputReceived i v.timestamp v.windows) ++
          (SideInputs.insertNotices i v).map .note, es,
          [.note (.reevaluated p.pushback.length kept.length)], o,
        by simp, (p.router.silent_traced _).append (Effect.silent_notes _), (sweep_eq h).passages,
        Effect.silent_notes [_], rfl, rfl, fun _ he => (nomatch he)⟩
  | @ignored t =>
      exact ⟨p.gate, [.note (.sideWatermarkIgnored t)], [], [], none,
        by simp, Effect.silent_notes [_], .none, quiet, rfl, rfl, fun _ _ => rfl⟩

end Processor

/-! ## Bundles -/

namespace Invocation

/-- Calls that process elements and succeed. -/
def Processed (calls : List (Invocation ι ο)) : Prop :=
  ∀ c ∈ calls, ∃ x w requests, c = .processElement x w requests (.ok ())

/--
The calls of one bundle. It fails to start, is broken off by an element that fails, or comes to its
end.
-/
inductive Bundle : List (Invocation ι ο) → Prop
  | notStarted (e) : Bundle [.startBundle (.error e)]
  | brokenOff {calls} (h : Processed calls) (x w requests e) :
      Bundle (.startBundle (.ok ()) :: (calls ++ [.processElement x w requests (.error e)]))
  | finished {calls} (h : Processed calls) (outcome) :
      Bundle (.startBundle (.ok ()) :: (calls ++ [.finishBundle outcome]))

/-- The calls of bundles one after another. -/
def Bundles (calls : List (Invocation ι ο)) : Prop :=
  ∃ bundles : List (List (Invocation ι ο)), calls = bundles.flatten ∧ ∀ b ∈ bundles, Bundle b

variable {calls more : List (Invocation ι ο)}

theorem processed_nil : Processed ([] : List (Invocation ι ο)) := fun _ h => (nomatch h)

theorem Processed.cons (h : Processed calls) (x w requests) :
    Processed (.processElement x w requests (.ok ()) :: calls) :=
  List.forall_mem_cons.2 ⟨⟨x, w, requests, rfl⟩, h⟩

theorem bundles_nil : Bundles ([] : List (Invocation ι ο)) := ⟨[], rfl, fun _ h => (nomatch h)⟩

theorem Bundle.bundles (h : Bundle calls) : Bundles calls :=
  ⟨[calls], List.flatten_singleton.symm, List.forall_mem_singleton.2 h⟩

theorem Bundles.append (hx : Bundles calls) (hy : Bundles more) : Bundles (calls ++ more) := by
  obtain ⟨xs, rfl, hx⟩ := hx
  obtain ⟨ys, rfl, hy⟩ := hy
  exact ⟨xs ++ ys, List.flatten_append.symm, List.forall_mem_append.2 ⟨hx, hy⟩⟩

end Invocation

namespace Gate

open Invocation

variable {g : Gate σ ι ν ο} {x : WindowedValue ι}

/-- Windows that all succeed leave only calls that succeeded. -/
theorem Visit.processed_of_ok {ws result es} (v : Visit g x ws result es) :
    ∀ back, result = .ok back → Processed (Effect.invocations es) := by
  induction v with
  | done => exact fun _ _ => processed_nil
  | @blocked w ws result es hw rest ih =>
      intro back hb
      cases result with
      | error e => cases hb
      | ok tail => exact ih tail rfl
  | failed hw he =>
      intro back hb
      cases hb
  | passed hw hs rest ih =>
      intro back hb
      rw [Effect.invocations_append, invocations_processIn]
      change (g.attempt _ _ _).outcome = .ok () at hs
      rw [hs]
      exact (ih back hb).cons _ _ _

/-- Of the calls in the windows of an element, only the last can have failed. -/
theorem Visit.processed_of_error {ws result es} (v : Visit g x ws result es) :
    ∀ e, result = .error e → ∃ calls y w requests,
      Effect.invocations es = calls ++ [.processElement y w requests (.error e)] ∧
        Processed calls := by
  induction v with
  | done =>
      intro e he
      cases he
  | @blocked w ws result es hw rest ih =>
      intro e he
      cases result with
      | ok tail => cases he
      | error u =>
          cases he
          exact ih _ rfl
  | failed hw hf =>
      intro e he
      cases he
      change (g.attempt _ _ _).outcome = .error _ at hf
      rw [invocations_processIn, hf]
      exact ⟨[], _, _, _, rfl, processed_nil⟩
  | passed hw hs rest ih =>
      intro e he
      obtain ⟨calls, y, w, requests, hi, hc⟩ := ih e he
      change (g.attempt _ _ _).outcome = .ok () at hs
      rw [Effect.invocations_append, invocations_processIn, hs, hi]
      exact ⟨_, y, w, requests, rfl, hc.cons _ _ _⟩

theorem invocations_opening (x : WindowedValue ι) :
    Effect.invocations (opening x : List (Effect ι ο)) = [.startBundle (.ok ())] :=
  congrArg (List.cons _) (silent_dropNote x).1

/-- The calls of a passage are one bundle. -/
theorem Passage.bundle {result es} (a : Passage g x result es) :
    Bundle (Effect.invocations es) := by
  cases a with
  | notStarted e => exact Bundle.notStarted e
  | interrupted v =>
      obtain ⟨calls, y, w, requests, hi, hc⟩ := v.processed_of_error _ rfl
      rw [Effect.invocations_append, invocations_opening, hi]
      exact Bundle.brokenOff hc y w requests _
  | ended v outcome =>
      rw [Effect.invocations_append, Effect.invocations_append, invocations_opening]
      exact Bundle.finished (v.processed_of_ok _ rfl) outcome

/-- The calls of the user function in any passages come in bundles. -/
theorem Passages.bundles {es : List (Effect ι ο)} (h : g.Passages es) :
    Bundles (Effect.invocations es) := by
  induction h with
  | none => exact bundles_nil
  | next first others ih =>
      rw [Effect.invocations_append]
      exact first.bundle.bundles.append ih

end Gate

/-- The calls that handling a signal leads to are bundles one after another. -/
theorem Processor.Step.bundles {p : Processor σ ι ν ο} {s : Signal ι ν}
    {r : Report (Processor σ ι ν ο) (Effect ι ο) ProcessingError Unit} (h : Step p s r) :
    Invocation.Bundles (Effect.invocations r.effects) := by
  obtain ⟨g, before, work, after, o, he, hb, passages, ha, -⟩ := h.passages
  rw [he, Effect.invocations_append, Effect.invocations_append, Effect.invocations_append, hb.1,
    ha.1, Router.invocations_emitted, List.nil_append, List.append_nil, List.append_nil]
  exact passages.bundles

end EventStream
