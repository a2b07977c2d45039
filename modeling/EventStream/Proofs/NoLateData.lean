import EventStream.Proofs.Bundles
import EventStream.Proofs.Hold

/-!
# No late data

A watermark promises that no earlier data follows. The results that a user
function gives out at the time of its element keep this promise as long as no
element arrives behind the output watermark.

## Implementation notes

In what one signal does, all data comes before the watermark, and every data
item comes from an element that was waiting or has just arrived. Both kinds are
at or after the output watermark that the signal meets.
-/

namespace EventStream

variable {σ ι ν ο : Type}

namespace Effect

/-- No watermark is in front of a data item of the first part. -/
theorem watermarks_eq_nil_of_split {xs ys : List (Effect ι ο)} (hx : watermarks xs = [])
    (hy : dataItems ys = []) {before rest : List (Effect ι ο)} {item : Channel × WindowedValue ο}
    (h : xs ++ ys = before ++ .emit item.1 (.data item.2) :: rest) : watermarks before = [] := by
  obtain ⟨mid, rfl, hm⟩ | ⟨mid, rfl, hm⟩ := List.append_eq_append_iff.1 h
  · have hi := mem_dataItems hm
    rw [hy] at hi
    cases hi
  · rw [watermarks_append] at hx
    exact (List.append_eq_nil_iff.1 hx).1

end Effect

/-- A result given out at the time of the element, to the main output or to one with a name. -/
def OutputRequest.AtElementTime (ν : Type) (q : OutputRequest ο) (x : WindowedValue ι)
    (w : Window) : Prop :=
  ∃ cx : Context ι ν, cx.element = x ∧ cx.window = w ∧
    ((∃ v, q = cx.output v) ∨ ∃ tag v, q = cx.outputTagged tag v)

theorem OutputRequest.AtElementTime.timestamp_eq {q : OutputRequest ο} {x : WindowedValue ι}
    {w : Window} (h : q.AtElementTime ν x w) : q.value.timestamp = x.timestamp := by
  obtain ⟨cx, rfl, -, ⟨v, rfl⟩ | ⟨tag, v, rfl⟩⟩ := h
  · rfl
  · rfl

namespace Processor

variable {p : Processor σ ι ν ο} {s : Signal ι ν}
  {r : Report (Processor σ ι ν ο) (Effect ι ο) ProcessingError Unit}

/-- All data that a signal leads to goes out before the watermark does. -/
theorem Step.data_first (h : Step p s r) :
    ∃ xs ys, r.effects = xs ++ ys ∧ Effect.watermarks xs = [] ∧ Effect.dataItems ys = [] := by
  obtain ⟨g, before, work, after, o, he, hb, passages, ha, -⟩ := h.passages
  refine ⟨before ++ work ++ after, o.toList.flatMap p.router.emitWatermark, he, ?_,
    Router.dataItems_emitted _ o⟩
  rw [Effect.watermarks_append, Effect.watermarks_append, hb.watermarks_eq, passages.watermarks_eq,
    ha.watermarks_eq]
  rfl

/-- Every data item that a signal leads to comes from its element or from one that waited. -/
theorem Step.attributed (h : Step p s r) :
    Effect.Attributed (fun i item => ∃ x, (s = .element x ∨ x ∈ p.pushback.elements) ∧
      Gate.Requested p.router x i item) r.effects := by
  have quiet {es : List (Effect ι ο)} (he : Effect.dataItems es = []) :
      Effect.Attributed (fun i item => ∃ x, (s = .element x ∨ x ∈ p.pushback.elements) ∧
        Gate.Requested p.router x i item) es := Effect.attributed_of_dataItems_eq_nil he
  cases h with
  | @passed x back t es h =>
      apply (quiet (Router.dataItems_traced ..)).append
      exact (tryProcess_ok h).attributed.mono fun i item hr => ⟨x, Or.inl rfl, hr⟩
  | @failed x e t es h =>
      obtain ⟨u, -, a⟩ := tryProcess_error h
      apply (quiet (Router.dataItems_traced ..)).append
      exact a.attributed.mono fun i item hr => ⟨x, Or.inl rfl, hr⟩
  | regressed h => exact quiet (Router.dataItems_traced ..)
  | advanced ht h => exact quiet (by simp)
  | unknown hi => exact quiet (Router.dataItems_traced ..)
  | interrupted hi h =>
      apply (quiet (Router.dataItems_traced ..)).append
      apply (quiet (Effect.dataItems_notes _)).append
      exact (sweep_eq h).attributed.mono fun i item ⟨x, hx, hr⟩ => ⟨x, Or.inr hx, hr⟩
  | reevaluated hi h hw =>
      apply (quiet (Router.dataItems_traced ..)).append
      apply (quiet (Effect.dataItems_notes _)).append
      refine Effect.Attributed.append (Effect.Attributed.append ?_ (quiet rfl)) (quiet (by simp))
      exact (sweep_eq h).attributed.mono fun i item ⟨x, hx, hr⟩ => ⟨x, Or.inr hx, hr⟩
  | ignored => exact quiet rfl

/-- A run in which no element arrives behind the output watermark it meets. -/
def Punctual (p : Processor σ ι ν ο) (signals : List (Signal ι ν)) : Prop :=
  ∀ seen x rest, signals = seen ++ .element x :: rest →
    (p.after seen).watermarks.output ≤ x.timestamp

theorem Punctual.of_concat {signals : List (Signal ι ν)} (h : p.Punctual (signals ++ [s])) :
    p.Punctual signals ∧ (p.after signals).OnTime s := by
  constructor
  · rintro seen x rest rfl
    exact h seen x (rest ++ [s]) (by simp)
  · rintro x rfl
    exact h signals x [] rfl

theorem punctual_nil (p : Processor σ ι ν ο) : p.Punctual [] :=
  fun seen _ _ h => by cases seen <;> cases h

theorem punctual_cons {rest : List (Signal ι ν)} :
    p.Punctual (s :: rest) ↔ p.OnTime s ∧ (handle s p).state.Punctual rest := by
  constructor
  · intro h
    constructor
    · rintro x rfl
      exact h [] x rest rfl
    · rintro seen x tail rfl
      exact h (s :: seen) x tail rfl
  · rintro ⟨here, later⟩ seen x tail hs
    cases seen with
    | nil =>
        cases hs
        exact here x rfl
    | cons s' seen =>
        cases hs
        exact later seen x tail rfl

instance decidableOnTime (p : Processor σ ι ν ο) : (s : Signal ι ν) → Decidable (p.OnTime s)
  | .element x => decidable_of_iff (p.watermarks.output ≤ x.timestamp)
      ⟨fun h _ hx => by cases hx; exact h, fun h => h x rfl⟩
  | .watermark _ => isTrue fun _ h => (nomatch h)
  | .sideInput _ _ => isTrue fun _ h => (nomatch h)
  | .sideInputWatermark _ => isTrue fun _ h => (nomatch h)

instance decidablePunctual :
    (p : Processor σ ι ν ο) → (signals : List (Signal ι ν)) → Decidable (p.Punctual signals)
  | p, [] => isTrue p.punctual_nil
  | p, s :: rest =>
    have := decidablePunctual (handle s p).state rest
    decidable_of_iff (p.OnTime s ∧ (handle s p).state.Punctual rest) punctual_cons.symm

section Run
variable (hp : p.Fresh) (signals : List (Signal ι ν)) (ht : p.Punctual signals)
include hp ht

/-- After every signal the output watermark is held, and nothing was emitted beyond it. -/
theorem held_after : (p.after signals).Held ∧
    ∀ t ∈ Effect.watermarks (p.trace signals), t ≤ (p.after signals).watermarks.output := by
  induction signals using List.reverseRecOn with
  | nil => exact ⟨hp.held, fun t h => (nomatch h)⟩
  | append_singleton signals s ih =>
      obtain ⟨before, here⟩ := ht.of_concat
      obtain ⟨held, emitted⟩ := ih before
      obtain ⟨held', moved, emitted'⟩ :=
        (step_after hp.shaped signals s).held (hp.shaped.after signals) held here
      rw [after_concat, trace_concat, Effect.watermarks_append]
      refine ⟨held', ?_⟩
      intro t hm
      rcases List.mem_append.1 hm with hm | hm
      · exact Timestamp.le_trans (emitted t hm) moved
      · exact emitted' t hm

/-- No data item comes from an element that is behind a watermark emitted before the item. -/
theorem requested_of_trace {before rest : List (Effect ι ο)} {item : Channel × WindowedValue ο}
    (h : p.trace signals = before ++ .emit item.1 (.data item.2) :: rest) :
    ∃ i x, (Effect.invocations before).getLast? = some i ∧ Gate.Requested p.router x i item ∧
      ∀ t ∈ Effect.watermarks before, t ≤ x.timestamp := by
  induction signals using List.reverseRecOn generalizing rest with
  | nil =>
      rw [trace_nil] at h
      simp at h
  | append_singleton signals s ih =>
      obtain ⟨earlier, here⟩ := ht.of_concat
      obtain ⟨held, emitted⟩ := held_after hp signals earlier
      have step := step_after hp.shaped signals s
      have waiting := (hp.shaped.after signals).exact.le_minTimestamp_iff.1 held.behindHold
      rw [trace_concat] at h
      obtain ⟨mid, rfl, hm⟩ | ⟨mid, hm, hr⟩ := List.append_eq_append_iff.1 h
      · obtain ⟨i, hi, x, hx, hq⟩ := step.attributed mid item rest hm
        obtain ⟨xs, ys, he, hxs, hys⟩ := step.data_first
        refine ⟨i, x, ?_, ?_, ?_⟩
        · rw [Effect.invocations_append, List.getLast?_append, hi]
          rfl
        · rwa [router, config_after hp.shaped] at hq
        · have hw : Effect.watermarks mid = [] :=
            Effect.watermarks_eq_nil_of_split hxs hys (he.symm.trans hm)
          rw [Effect.watermarks_append, hw, List.append_nil]
          intro t hmem
          refine Timestamp.le_trans (emitted t hmem) ?_
          rcases hx with rfl | hx
          · exact here x rfl
          · exact waiting x hx
      · cases mid with
        | nil =>
            obtain ⟨i, hi, -⟩ := step.attributed [] item rest hr.symm
            cases hi
        | cons e mid =>
            cases hr
            exact ih earlier hm

end Run

/--
No late data. After every signal the output watermark passes neither the input watermark nor any
element that waits. And data that is given out at the time of its element, in the call of the user
function that precedes it, is not behind any watermark emitted before.
-/
theorem no_late_data (hp : p.Fresh) (signals : List (Signal ι ν)) (ht : p.Punctual signals) :
    (∀ seen rest, signals = seen ++ rest →
      (p.after seen).watermarks.output ≤ (p.after seen).watermarks.input ∧
        ∀ y ∈ (p.after seen).pushback.elements,
          (p.after seen).watermarks.output ≤ y.timestamp) ∧
    ∀ before item rest, p.trace signals = before ++ .emit item.1 (.data item.2) :: rest →
      ∃ x w requests outcome,
        (Effect.invocations before).getLast? = some (.processElement x w requests outcome) ∧
        (∃ q ∈ requests, item = (p.router.channel q.tag, q.value)) ∧
        ∀ q ∈ requests, item = (p.router.channel q.tag, q.value) → q.AtElementTime ν x w →
          ∀ t ∈ Effect.watermarks before, t ≤ item.2.timestamp := by
  constructor
  · rintro seen rest rfl
    have early : p.Punctual seen := by
      rintro pre x post rfl
      exact ht pre x (post ++ rest) (by simp)
    have held := (held_after hp seen early).1
    exact ⟨held.behindInput,
      (hp.shaped.after seen).exact.le_minTimestamp_iff.1 held.behindHold⟩
  · intro before item rest h
    obtain ⟨i, x, hi, ⟨w, -, requests, outcome, rfl, hq⟩, hx⟩ :=
      requested_of_trace hp signals ht h
    refine ⟨x.inWindow w, w, requests, outcome, hi, hq, ?_⟩
    rintro q - rfl hat t hmem
    rw [hat.timestamp_eq]
    exact hx t hmem

/-- The user function that passes elements on and fails on every second one. -/
def stumbling : UserFunction Nat Nat Nat Nat where
  processElement cx n :=
    ⟨[cx.output cx.element.value], if n % 2 = 1 then .error (.failed "odd") else .ok (), n + 1⟩

/-- Five milliseconds into event time. -/
def fiveMillis : Timestamp := ⟨5, by decide, by decide⟩

/-- Nine milliseconds into event time. -/
def nineMillis : Timestamp := ⟨9, by decide, by decide⟩

/-- A run that releases the hold in two steps, the first of which ends in a failure. -/
def releaseRun : List (Signal Nat Nat) :=
  [.sideInput 1 ⟨8, .zero, [.global]⟩, .element ⟨1, .zero, [hour]⟩, .element ⟨2, .zero, [hour]⟩,
    .element ⟨3, fiveMillis, [hour]⟩, .watermark nineMillis, .sideInput 0 ⟨9, .zero, [hour]⟩,
    .sideInput 0 ⟨9, .zero, [hour]⟩, .element ⟨4, nineMillis, [hour]⟩]

theorem no_late_data_releaseRun :
    (started twoSideInputs stumbling 0).Fresh ∧
      (started twoSideInputs stumbling 0).Punctual releaseRun ∧
      Effect.emissions ((started twoSideInputs stumbling 0).trace releaseRun) =
        [(.main, .watermark .zero), (.main, .data ⟨1, .zero, [hour]⟩),
          (.main, .data ⟨2, .zero, [hour]⟩), (.main, .data ⟨3, fiveMillis, [hour]⟩),
          (.main, .watermark nineMillis), (.main, .data ⟨4, nineMillis, [hour]⟩)] ∧
      ∀ seen rest, releaseRun = seen ++ rest →
        ((started twoSideInputs stumbling 0).after seen).watermarks.output ≤
            ((started twoSideInputs stumbling 0).after seen).watermarks.input ∧
          ∀ y ∈ ((started twoSideInputs stumbling 0).after seen).pushback.elements,
            ((started twoSideInputs stumbling 0).after seen).watermarks.output ≤ y.timestamp := by
  have hp : (started twoSideInputs stumbling 0).Fresh := fresh_started (by decide) rfl
  have ht : (started twoSideInputs stumbling 0).Punctual releaseRun := by decide
  exact ⟨hp, ht, rfl, (no_late_data hp releaseRun ht).1⟩

end Processor

end EventStream
