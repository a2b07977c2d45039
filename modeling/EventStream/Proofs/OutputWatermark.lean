import EventStream.Proofs.NoLateData

/-!
# The position of the output watermark

Where the output watermark stands is told by what a processor holds: a watermark
or a side input that is handled moves it as far as the input watermark and the
buffer allow, and never back. It is emitted exactly when it moves, so what goes
out is strictly increasing.

## Implementation notes

Nothing is assumed about the elements. One that is late lies below the output
watermark, which then stays where it is until the hold has passed it. A side
input that fails may empty the buffer without moving the output watermark; the
next signal that is handled catches up.
-/

namespace EventStream

variable {σ ι ν ο : Type}

namespace Timestamp

instance : Max Timestamp := maxOfLe

theorem millis_max (a b : Timestamp) : (max a b).millis = max a.millis b.millis := by
  simp only [max, le_iff]
  split <;> omega

theorem lt_of_le_of_ne {a b : Timestamp} (h : a ≤ b) (hne : a ≠ b) : a < b := by
  rcases Int.lt_or_eq_of_le h with hlt | heq
  · exact hlt
  · exact absurd (Timestamp.ext heq) hne

theorem lt_irrefl (t : Timestamp) : ¬ t < t := Int.lt_irrefl _

theorem lt_of_le_of_lt {a b c : Timestamp} (hab : a ≤ b) (hbc : b < c) : a < c :=
  Int.lt_of_le_of_lt hab hbc

end Timestamp

namespace Watermarks

/-- Watermarks whose output went as far as a hold allows, and what that emits. -/
structure Advanced (w : Watermarks) (hold : Timestamp) (emitted : Option Timestamp)
    (w' : Watermarks) : Prop where
  input_eq : w'.input = w.input
  output_eq : w'.output = max w.output (min w.input hold)
  emitted_eq : (w'.output = w.output ∧ emitted = none) ∨
    (w.output < w'.output ∧ emitted = some w'.output)

/-- An advance takes the output watermark as far as the hold allows. -/
theorem advance_advanced (w : Watermarks) (hold : Timestamp) :
    w.Advanced hold (w.advance hold).1 (w.advance hold).2 := by
  unfold advance
  split
  · rename_i hlt
    refine ⟨rfl, ?_, Or.inr ⟨hlt, rfl⟩⟩
    apply Timestamp.ext
    simp only [candidate, Timestamp.lt_iff, Timestamp.millis_max, Timestamp.millis_min] at hlt ⊢
    omega
  · rename_i hlt
    refine ⟨rfl, ?_, Or.inl ⟨rfl, rfl⟩⟩
    apply Timestamp.ext
    simp only [candidate, Timestamp.lt_iff, Timestamp.millis_max, Timestamp.millis_min] at hlt ⊢
    omega

/-- A watermark that is accepted is not below the one before, and the output follows it. -/
theorem receive_advanced {w w' : Watermarks} {t hold : Timestamp} {o : Option Timestamp}
    (hw : w.waits = true) (h : w.receive t hold = (.ok o, w')) :
    w.input ≤ t ∧ ({ w with input := t } : Watermarks).Advanced hold o w' := by
  unfold receive at h
  split at h
  · cases h
  · rename_i ht
    have moved := advance_advanced { w with input := t } hold
    cases h
    exact ⟨Timestamp.not_lt.1 ht, moved⟩

/-- A hold that is lifted lets the output watermark go as far as the new one allows. -/
theorem holdChanged_advanced {w w' : Watermarks} {hold : Timestamp} {o : Option Timestamp}
    (hw : w.waits = true) (h : w.holdChanged hold = (o, w')) : w.Advanced hold o w' := by
  have moved := advance_advanced w hold
  rw [holdChanged, if_pos hw] at h
  rwa [h] at moved

/-- The output watermark never goes back. -/
theorem Advanced.le_output {w w' : Watermarks} {hold : Timestamp} {o : Option Timestamp}
    (h : w.Advanced hold o w') : w.output ≤ w'.output := by
  rw [h.output_eq]
  simp only [Timestamp.le_iff, Timestamp.millis_max]
  omega

/-- The output watermark never passes the input watermark. -/
theorem Advanced.output_le {w w' : Watermarks} {hold : Timestamp} {o : Option Timestamp}
    (h : w.Advanced hold o w') (hw : w.output ≤ w.input) : w'.output ≤ w'.input := by
  rw [h.output_eq, h.input_eq]
  simp only [Timestamp.le_iff, Timestamp.millis_max, Timestamp.millis_min] at hw ⊢
  omega

end Watermarks

/-- Signals that may move the output watermark: watermarks, and values of side inputs. -/
def Signal.MayAdvance : Signal ι ν → Prop
  | .watermark _ => True
  | .sideInput _ _ => True
  | _ => False

namespace Processor

variable {p : Processor σ ι ν ο} {s : Signal ι ν}
  {r : Report (Processor σ ι ν ο) (Effect ι ο) ProcessingError Unit}

/--
What a signal does to the output watermark. If it is handled and may move it, the output watermark
is as far as the input watermark and the buffer allow, and no other signal touches it. It is emitted
once and last if it moved, and no watermark goes out otherwise.
-/
structure MovesOutput (p : Processor σ ι ν ο) (s : Signal ι ν)
    (r : Report (Processor σ ι ν ο) (Effect ι ο) ProcessingError Unit) : Prop where
  exact : r.result = .ok () → s.MayAdvance →
    r.state.watermarks.output = max p.watermarks.output
      (min r.state.watermarks.input
        (.minimum (r.state.pushback.elements.map WindowedValue.timestamp)))
  still : ¬ (r.result = .ok () ∧ s.MayAdvance) →
    r.state.watermarks.output = p.watermarks.output
  emitted : r.state.watermarks.output ≠ p.watermarks.output →
    Effect.watermarks r.effects = [r.state.watermarks.output] ∧
      (Effect.emissions r.effects).getLast? =
        some (.main, .watermark r.state.watermarks.output)
  quiet : r.state.watermarks.output = p.watermarks.output → Effect.watermarks r.effects = []

/-- A signal that changes no watermark and emits none. -/
theorem movesOutput_of_still (hw : r.state.watermarks = p.watermarks)
    (he : Effect.watermarks r.effects = []) (hn : ¬ (r.result = .ok () ∧ s.MayAdvance)) :
    MovesOutput p s r := by
  refine ⟨fun hr hs => absurd ⟨hr, hs⟩ hn, fun _ => ?_, fun hne => ?_, fun _ => he⟩
  · rw [hw]
  · rw [hw] at hne
    exact absurd rfl hne

/-- A signal that lets the output watermark advance and ends with what that emits. -/
theorem movesOutput_of_advanced {w : Watermarks} {o : Option Timestamp}
    (es : List (Effect ι ο)) (hr : r.result = .ok ()) (hs : s.MayAdvance)
    (hb : r.state.pushback.Exact)
    (moved : w.Advanced r.state.pushback.minTimestamp o r.state.watermarks)
    (hw : w.output = p.watermarks.output)
    (hes : r.effects = es ++ o.toList.flatMap p.router.emitWatermark)
    (he : Effect.watermarks es = []) : MovesOutput p s r := by
  have out : Effect.watermarks r.effects = o.toList := by
    rw [hes, Effect.watermarks_append, he, Router.watermarks_emitted, List.nil_append]
  refine ⟨fun _ _ => ?_, fun hn => absurd ⟨hr, hs⟩ hn, fun hne => ?_, fun heq => ?_⟩
  · rw [moved.output_eq, moved.input_eq, hw, ← hb]
  · rcases moved.emitted_eq with ⟨hsame, -⟩ | ⟨-, rfl⟩
    · exact absurd (hsame.trans hw) hne
    · refine ⟨out, ?_⟩
      rw [hes, Effect.emissions_append]
      simp
  · rcases moved.emitted_eq with ⟨-, rfl⟩ | ⟨hlt, -⟩
    · exact out
    · rw [heq, hw] at hlt
      exact absurd hlt (Timestamp.lt_irrefl _)

/-- Every signal moves the output watermark as far as input and buffer allow, or not at all. -/
theorem Step.movesOutput (h : Step p s r) (hp : p.Shaped) (hw : p.watermarks.waits = true) :
    MovesOutput p s r := by
  have shaped := h.shaped hp
  cases h with
  | passed h =>
      refine movesOutput_of_still (p := p) rfl ?_ ?_
      · simp [(tryProcess_ok h).watermarks_eq]
      · rintro ⟨-, hs⟩
        exact hs
  | failed h =>
      obtain ⟨u, -, a⟩ := tryProcess_error h
      refine movesOutput_of_still (p := p) rfl ?_ ?_
      · simp [a.watermarks_eq]
      · rintro ⟨-, hs⟩
        exact hs
  | regressed h =>
      refine movesOutput_of_still (p := p) rfl ?_ ?_
      · simp
      · rintro ⟨hr, -⟩
        cases hr
  | @advanced t o w ht h =>
      obtain ⟨-, moved⟩ := Watermarks.receive_advanced hw h
      exact movesOutput_of_advanced (p := p) _ rfl trivial shaped.exact moved rfl rfl
        (by simp)
  | unknown hi =>
      refine movesOutput_of_still (p := p) rfl ?_ ?_
      · simp
      · rintro ⟨hr, -⟩
        cases hr
  | @interrupted i v kept e t es hi h =>
      refine movesOutput_of_still (p := p) rfl ?_ ?_
      · simp [(sweep_eq h).watermarks_eq]
      · rintro ⟨hr, -⟩
        cases hr
  | @reevaluated i v kept t es o w hi h hw' =>
      have moved := Watermarks.holdChanged_advanced hw hw'
      refine movesOutput_of_advanced (p := p)
        (p.router.traced (.sideInputReceived i v.timestamp v.windows) ++
          ((SideInputs.insertNotices i v).map .note ++
            (es ++ [.note (.reevaluated p.pushback.length kept.length)])))
        rfl trivial shaped.exact moved rfl ?_ ?_
      · simp only [List.append_assoc]
      · simp [(sweep_eq h).watermarks_eq]
  | ignored =>
      refine movesOutput_of_still (p := p) rfl ?_ ?_
      · rfl
      · rintro ⟨-, hs⟩
        exact hs

/-- Handling a signal leaves the output watermark where it was, or behind the input, further on. -/
theorem Step.output_bounds (h : Step p s r) (hw : p.watermarks.waits = true)
    (hb : p.watermarks.output ≤ p.watermarks.input) :
    r.state.watermarks.output ≤ r.state.watermarks.input ∧
      p.watermarks.output ≤ r.state.watermarks.output := by
  cases h with
  | @advanced t o w ht h =>
      obtain ⟨hle, moved⟩ := Watermarks.receive_advanced hw h
      exact ⟨moved.output_le (Timestamp.le_trans hb hle), moved.le_output⟩
  | @reevaluated i v kept t es o w hi h hw' =>
      have moved := Watermarks.holdChanged_advanced hw hw'
      exact ⟨moved.output_le hb, moved.le_output⟩
  | _ => exact ⟨hb, Timestamp.le_refl _⟩

/-- A processor that holds nothing back has passed its input watermark on. -/
def CaughtUp (p : Processor σ ι ν ο) : Prop :=
  p.pushback.elements = [] → p.watermarks.output = p.watermarks.input

/-- Only a side input on which user code fails may empty the buffer without catching up. -/
theorem Step.caughtUp (h : Step p s r) (hp : p.Shaped) (hw : p.watermarks.waits = true)
    (hb : p.watermarks.output ≤ p.watermarks.input) (hc : p.CaughtUp)
    (hf : ∀ i v e, s = .sideInput i v → r.result ≠ .error (.userCode e)) :
    r.state.CaughtUp := by
  have bounds := h.output_bounds hw hb
  have moves := h.movesOutput hp hw
  -- With an empty buffer the output watermark is allowed as far as the input watermark.
  have settled (hr : r.result = .ok ()) (hs : s.MayAdvance) : r.state.CaughtUp := by
    intro hn
    have hout := moves.exact hr hs
    have hmax := Timestamp.le_iff.1 (Timestamp.le_maxValue r.state.watermarks.input)
    apply Timestamp.ext
    rw [hn, List.map_nil, Timestamp.minimum_nil] at hout
    have hle := Timestamp.le_iff.1 bounds.1
    rw [hout] at hle ⊢
    simp only [Timestamp.millis_max, Timestamp.millis_min] at hle ⊢
    omega
  cases h with
  | @passed x back t es h =>
      intro hn
      apply hc
      change (p.pushback.addAll back).elements = [] at hn
      rw [Pushback.elements_addAll] at hn
      exact (List.append_eq_nil_iff.1 hn).1
  | failed h => exact hc
  | regressed h => exact hc
  | advanced ht h => exact settled rfl trivial
  | unknown hi => exact hc
  | interrupted hi h =>
      obtain ⟨seen, x, rest, u, calls, -, rfl, -⟩ := (sweep_eq h).of_error rfl
      exact absurd rfl (hf _ _ u rfl)
  | reevaluated hi h hw' => exact settled rfl trivial
  | ignored => exact hc

/-! ## Runs -/

/-- A run in which user code fails on no side input. -/
def Undisturbed (p : Processor σ ι ν ο) (signals : List (Signal ι ν)) : Prop :=
  ∀ seen i v rest e, signals = seen ++ .sideInput i v :: rest →
    (handle (.sideInput i v) (p.after seen)).result ≠ .error (.userCode e)

/-- The beginning of an undisturbed run is undisturbed. -/
theorem Undisturbed.of_append {xs ys : List (Signal ι ν)} (h : p.Undisturbed (xs ++ ys)) :
    p.Undisturbed xs := by
  rintro seen i v rest e rfl
  exact h seen i v (rest ++ ys) e (by simp)

section Run
variable (hp : p.Fresh) (hs : p.config.sideInputs ≠ []) (signals : List (Signal ι ν))
include hp hs

theorem waits_after : (p.after signals).watermarks.waits = true := by
  rw [(hp.shaped.after signals).waits, config_after hp.shaped]
  simpa using hs

/-- The output watermark is at most the input watermark throughout a run. -/
theorem output_le_input_after :
    (p.after signals).watermarks.output ≤ (p.after signals).watermarks.input := by
  induction signals using List.reverseRecOn with
  | nil => exact hp.held.behindInput
  | append_singleton signals s ih =>
      rw [after_concat]
      exact ((step_after hp.shaped signals s).output_bounds (waits_after hp hs signals) ih).1

theorem movesOutput_after (s : Signal ι ν) :
    MovesOutput (p.after signals) s (handle s (p.after signals)) :=
  (step_after hp.shaped signals s).movesOutput (hp.shaped.after signals) (waits_after hp hs signals)

/-- What a run emits is strictly increasing and does not pass the output watermark. -/
theorem increasing_watermarks :
    (Effect.watermarks (p.trace signals)).Pairwise (· < ·) ∧
      ∀ t ∈ Effect.watermarks (p.trace signals), t ≤ (p.after signals).watermarks.output := by
  induction signals using List.reverseRecOn with
  | nil => exact ⟨List.Pairwise.nil, fun t ht => (nomatch ht)⟩
  | append_singleton signals s ih =>
      obtain ⟨ordered, bounded⟩ := ih
      have moves := movesOutput_after hp hs signals s
      have forward := ((step_after hp.shaped signals s).output_bounds (waits_after hp hs signals)
        (output_le_input_after hp hs signals)).2
      rw [trace_concat, after_concat, Effect.watermarks_append]
      by_cases hm : (handle s (p.after signals)).state.watermarks.output =
          (p.after signals).watermarks.output
      · rw [moves.quiet hm, List.append_nil, hm]
        exact ⟨ordered, bounded⟩
      · rw [(moves.emitted hm).1]
        have hlt := Timestamp.lt_of_le_of_ne forward (Ne.symm hm)
        constructor
        · apply List.pairwise_append.2
          refine ⟨ordered, List.pairwise_singleton .., ?_⟩
          intro t ht u hu
          rw [List.mem_singleton.1 hu]
          exact Timestamp.lt_of_le_of_lt (bounded t ht) hlt
        · intro t ht
          rcases List.mem_append.1 ht with ht | ht
          · exact Timestamp.le_trans (bounded t ht) forward
          · rw [List.mem_singleton.1 ht]
            exact Timestamp.le_refl _

/-- Where user code fails on no side input, an empty buffer holds no watermark back. -/
theorem caughtUp_after (hu : p.Undisturbed signals) : (p.after signals).CaughtUp := by
  induction signals using List.reverseRecOn with
  | nil =>
      obtain ⟨config, function, user, slot, -, rfl⟩ := hp.exists_eq
      exact fun _ => rfl
  | append_singleton signals s ih =>
      rw [after_concat]
      apply (step_after hp.shaped signals s).caughtUp (hp.shaped.after signals)
        (waits_after hp hs signals) (output_le_input_after hp hs signals) (ih hu.of_append)
      rintro i v e rfl
      exact hu signals i v [] e rfl

end Run

/--
The exact output watermark of a processor with side inputs. It never passes the input watermark nor
moves back, every signal moves and emits it as `MovesOutput` says, the watermarks emitted are
strictly increasing, and an empty buffer has caught up unless user code failed on a side input.
-/
theorem output_watermark_exact (hp : p.Fresh) (hs : p.config.sideInputs ≠ [])
    (signals : List (Signal ι ν)) :
    (∀ seen s rest, signals = seen ++ s :: rest →
      (p.after seen).watermarks.output ≤ (p.after (seen ++ [s])).watermarks.output ∧
        MovesOutput (p.after seen) s (handle s (p.after seen))) ∧
    (∀ seen rest, signals = seen ++ rest →
      (p.after seen).watermarks.output ≤ (p.after seen).watermarks.input ∧
        (p.Undisturbed seen → (p.after seen).pushback.elements = [] →
          (p.after seen).watermarks.output = (p.after seen).watermarks.input)) ∧
    (Effect.watermarks (p.trace signals)).Pairwise (· < ·) := by
  refine ⟨?_, ?_, (increasing_watermarks hp hs signals).1⟩
  · rintro seen s rest -
    refine ⟨?_, movesOutput_after hp hs seen s⟩
    rw [after_concat]
    exact ((step_after hp.shaped seen s).output_bounds (waits_after hp hs seen)
      (output_le_input_after hp hs seen)).2
  · rintro seen rest -
    exact ⟨output_le_input_after hp hs seen, caughtUp_after hp hs seen⟩

/-- The user function that passes elements on and fails on zeros. -/
def refusingZero : UserFunction Unit Nat Nat Nat where
  processElement cx s :=
    ⟨[cx.output cx.element.value],
      if cx.element.value = 0 then .error (.failed "zero") else .ok (), s⟩

/-- Ten milliseconds into event time. -/
def tenMillis : Timestamp := ⟨10, by decide, by decide⟩

/-- A run with a late element, and with a failure that empties the buffer and emits nothing. -/
def lateRun : List (Signal Nat Nat) :=
  [.sideInput 1 ⟨8, .zero, [.global]⟩, .watermark nineMillis, .element ⟨2, fiveMillis, [hour]⟩,
    .watermark tenMillis, .element ⟨0, nineMillis, [hour]⟩, .sideInput 0 ⟨9, .zero, [hour]⟩,
    .watermark fiveMillis, .watermark tenMillis]

theorem output_watermark_exact_lateRun :
    (started twoSideInputs refusingZero ()).Fresh ∧ twoSideInputs.sideInputs ≠ [] ∧
      Effect.emissions ((started twoSideInputs refusingZero ()).trace lateRun) =
        [(.main, .watermark nineMillis), (.main, .data ⟨2, fiveMillis, [hour]⟩),
          (.main, .data ⟨0, nineMillis, [hour]⟩), (.main, .watermark tenMillis)] ∧
      ((started twoSideInputs refusingZero ()).after (lateRun.take 6)).pushback.elements = [] ∧
      ((started twoSideInputs refusingZero ()).after (lateRun.take 6)).watermarks =
        ⟨tenMillis, nineMillis, true⟩ ∧
      MovesOutput ((started twoSideInputs refusingZero ()).after (lateRun.take 7))
        (.watermark tenMillis)
        (handle (.watermark tenMillis)
          ((started twoSideInputs refusingZero ()).after (lateRun.take 7))) ∧
      (Effect.watermarks ((started twoSideInputs refusingZero ()).trace lateRun)).Pairwise
        (· < ·) := by
  have hp : (started twoSideInputs refusingZero ()).Fresh := fresh_started (by decide) rfl
  obtain ⟨moves, -, ordered⟩ := output_watermark_exact hp (by decide) lateRun
  exact ⟨hp, by decide, rfl, rfl, rfl, (moves (lateRun.take 7) _ [] rfl).2, ordered⟩

end Processor

end EventStream
