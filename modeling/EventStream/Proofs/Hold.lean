import EventStream.Proofs.Run

/-!
# The hold on the output watermark

The output watermark passes neither the input watermark nor the hold, as long as
no element arrives behind it. It never moves back.
-/

namespace EventStream

variable {σ ι ν ο : Type}

namespace Timestamp

theorem le_refl (t : Timestamp) : t ≤ t := Int.le_refl _

theorem le_trans {a b c : Timestamp} (hab : a ≤ b) (hbc : b ≤ c) : a ≤ c := Int.le_trans hab hbc

theorem not_lt {a b : Timestamp} : ¬ a < b ↔ b ≤ a := Int.not_lt

theorem le_of_lt {a b : Timestamp} (h : a < b) : a ≤ b := Int.le_of_lt h

theorem min_le_left (a b : Timestamp) : min a b ≤ a := by
  rw [le_iff, millis_min]
  exact Int.min_le_left _ _

theorem min_le_right (a b : Timestamp) : min a b ≤ b := by
  rw [le_iff, millis_min]
  exact Int.min_le_right _ _

end Timestamp

namespace Watermarks

/-- Watermarks whose output is behind the input and a hold. -/
structure Held (w : Watermarks) (hold : Timestamp) : Prop where
  behindInput : w.output ≤ w.input
  behindHold : w.output ≤ hold

/-- Watermarks that moved on to others and emitted at most where the output is now. -/
structure Follows (w' : Watermarks) (emitted : Option Timestamp) (w : Watermarks) : Prop where
  output_le : w.output ≤ w'.output
  emitted_eq : ∀ t ∈ emitted.toList, t = w'.output

theorem Follows.refl (w : Watermarks) : w.Follows none w :=
  ⟨Timestamp.le_refl _, fun _ ht => (nomatch ht)⟩

/-- Advancing keeps the output behind the input and the hold, and never moves it back. -/
theorem advance_held {w : Watermarks} {hold : Timestamp} (h : w.Held hold) :
    (w.advance hold).2.Held hold ∧ (w.advance hold).2.Follows (w.advance hold).1 w := by
  unfold advance
  split
  · rename_i hlt
    exact ⟨⟨Timestamp.min_le_right _ _, Timestamp.min_le_left _ _⟩,
      ⟨Timestamp.le_of_lt hlt, fun t ht => List.mem_singleton.1 ht⟩⟩
  · exact ⟨h, Follows.refl w⟩

/-- An input watermark that does not regress keeps the output held, also if it is passed on. -/
theorem receive_held {w w' : Watermarks} {t hold : Timestamp} {o : Option Timestamp}
    (h : w.Held hold) (ht : ¬ t < w.input) (hw : w.waits = false → hold = .maxValue)
    (hr : w.receive t hold = (.ok o, w')) : w'.Held hold ∧ w'.Follows o w := by
  have hin : w.input ≤ t := Timestamp.not_lt.1 ht
  have hout : w.output ≤ t := Timestamp.le_trans h.behindInput hin
  rw [receive, if_neg ht] at hr
  split at hr
  · have raised : ({ w with input := t } : Watermarks).Held hold := ⟨hout, h.behindHold⟩
    have moved := advance_held raised
    cases hr
    exact ⟨moved.1, moved.2.output_le, moved.2.emitted_eq⟩
  · rename_i hf
    cases hr
    refine ⟨⟨Timestamp.le_refl t, ?_⟩, hout, fun u hu => List.mem_singleton.1 hu⟩
    rw [hw (Bool.eq_false_iff.2 hf)]
    exact Timestamp.le_maxValue t

/-- A changed hold keeps the output behind the input and itself, and never moves it back. -/
theorem holdChanged_held {w : Watermarks} {hold : Timestamp} (h : w.Held hold) :
    (w.holdChanged hold).2.Held hold ∧ (w.holdChanged hold).2.Follows (w.holdChanged hold).1 w := by
  unfold holdChanged
  split
  · exact advance_held h
  · exact ⟨h, Follows.refl w⟩

end Watermarks

namespace Pushback

variable {b : Pushback ι}

/-- A timestamp is behind an exact minimum just when it is behind every element that waits. -/
theorem Exact.le_minTimestamp_iff (hb : b.Exact) {t : Timestamp} :
    t ≤ b.minTimestamp ↔ ∀ x ∈ b.elements, t ≤ x.timestamp := by
  rw [hb, Timestamp.le_minimum_iff, List.forall_mem_map]

end Pushback

namespace Processor

variable {p : Processor σ ι ν ο} {s : Signal ι ν}
  {r : Report (Processor σ ι ν ο) (Effect ι ο) ProcessingError Unit}

/-- A processor whose output watermark is behind its input and all that waits. -/
def Held (p : Processor σ ι ν ο) : Prop := p.watermarks.Held p.pushback.minTimestamp

/-- A signal that brings no element from behind the output watermark. -/
def OnTime (p : Processor σ ι ν ο) (s : Signal ι ν) : Prop :=
  ∀ x, s = .element x → p.watermarks.output ≤ x.timestamp

theorem Fresh.held (hp : p.Fresh) : p.Held := by
  obtain ⟨config, function, user, slot, -, rfl⟩ := hp.exists_eq
  exact ⟨Timestamp.minValue_le _, Timestamp.minValue_le _⟩

/-- A processor that never waits holds nothing back. -/
theorem Shaped.minTimestamp_of_waits_eq_false (hp : p.Shaped) (hw : p.watermarks.waits = false) :
    p.pushback.minTimestamp = .maxValue := by
  have hn : p.config.sideInputs = [] := by
    simpa [hp.waits] using hw
  rw [hp.exact, hp.unheld hn]
  rfl

/-- Sweeps keep no element that is earlier than all that were there. -/
theorem held_ofElements {g : Gate σ ι ν ο} {xs kept : List (WindowedValue ι)}
    {result : Except ProcessingError Unit} {es : List (Effect ι ο)} {t : Timestamp}
    (h : g.Sweep xs kept result es) (ht : ∀ x ∈ xs, t ≤ x.timestamp) :
    t ≤ (Pushback.ofElements kept).minTimestamp := by
  apply (Pushback.exact_ofElements kept).le_minTimestamp_iff.2
  intro y hy
  obtain ⟨x, hx, rfl | ⟨w, -, rfl⟩⟩ := h.mem_kept hy
  · exact ht y hx
  · exact ht x hx

/-- What a signal does to the output watermark, and which watermarks it emits. -/
theorem Step.held (h : Step p s r) (hp : p.Shaped) (hh : p.Held) (ht : p.OnTime s) :
    r.state.Held ∧ p.watermarks.output ≤ r.state.watermarks.output ∧
      ∀ t ∈ Effect.watermarks r.effects, t ≤ r.state.watermarks.output := by
  have waiting := hp.exact.le_minTimestamp_iff.1 hh.behindHold
  cases h with
  | @passed x back t es h =>
      have a := tryProcess_ok h
      obtain ⟨rfl, -⟩ := a.of_ok rfl
      refine ⟨⟨hh.behindInput, ?_⟩, Timestamp.le_refl _, ?_⟩
      · apply (hp.exact.addAll _).le_minTimestamp_iff.2
        intro y hy
        rcases List.mem_append.1 (Pushback.elements_addAll _ _ ▸ hy) with hy | hy
        · exact waiting y hy
        · obtain ⟨w, -, rfl⟩ := Gate.mem_blockedPart hy
          exact ht x rfl
      · simp [a.watermarks_eq]
  | failed h =>
      obtain ⟨u, -, a⟩ := tryProcess_error h
      exact ⟨hh, Timestamp.le_refl _, by simp [a.watermarks_eq]⟩
  | regressed h => exact ⟨hh, Timestamp.le_refl _, by simp⟩
  | @advanced t o w hlt h =>
      obtain ⟨held, follows⟩ :=
        Watermarks.receive_held hh hlt hp.minTimestamp_of_waits_eq_false h
      refine ⟨held, follows.output_le, ?_⟩
      intro u hu
      rw [Effect.watermarks_append, Router.watermarks_traced, Router.watermarks_emitted] at hu
      exact follows.emitted_eq u hu ▸ Timestamp.le_refl _
  | unknown hi => exact ⟨hh, Timestamp.le_refl _, by simp⟩
  | @interrupted i v kept e t es hi h =>
      have sw := sweep_eq h
      exact ⟨⟨hh.behindInput, held_ofElements sw waiting⟩, Timestamp.le_refl _,
        by simp [sw.watermarks_eq]⟩
  | @reevaluated i v kept t es o w hi h hw =>
      have sw := sweep_eq h
      have moved := Watermarks.holdChanged_held
        (⟨hh.behindInput, held_ofElements sw waiting⟩ :
          p.watermarks.Held (Pushback.ofElements kept).minTimestamp)
      rw [hw] at moved
      refine ⟨moved.1, moved.2.output_le, ?_⟩
      intro u hu
      simp only [Effect.watermarks_append, Router.watermarks_traced, Effect.watermarks_notes,
        sw.watermarks_eq, Router.watermarks_emitted, List.nil_append] at hu
      exact moved.2.emitted_eq u hu ▸ Timestamp.le_refl _
  | ignored => exact ⟨hh, Timestamp.le_refl _, by simp⟩

end Processor

end EventStream
