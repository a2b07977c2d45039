import EventStream.Proofs.Journal

/-!
# Delivery under failures

Whatever call of the user function fails, no occurrence is handed over twice,
and none is handed over while it waits. An occurrence gets lost only in a call
at the gate that failed, and a failing call takes no other occurrence along.
-/

namespace EventStream

variable {σ ι ν ο : Type}

open Occurrence
open scoped List

namespace Processor

variable {p : Processor σ ι ν ο} {s : Signal ι ν}
  {r : Report (Processor σ ι ν ο) (Effect ι ο) ProcessingError Unit}

/-- Buffer and calls of the user function are what the journal of a signal says. -/
theorem Step.tracked (h : Step p s r) {os : List (Occurrence ι)}
    (hb : p.pushback.elements = os.map single) (n : Nat) :
    r.state.pushback.elements = (p.stillWaiting os n s).map single ∧
      Effect.invocations r.effects =
        (p.gateCalls os n s).flatMap fun c => Effect.invocations c.report.effects := by
  have idle : p.pushback.elements = (os ++ []).map single := by rw [hb, List.append_nil]
  cases h with
  | @passed x back t es h =>
      have covers := p.covers_of_mem_gateCalls os n (s := .element x) List.mem_cons_self
      obtain ⟨rfl, -⟩ := covers.of_ok (congrArg Report.result h)
      constructor
      · change (p.pushback.addAll _).elements = (os ++ _).map single
        rw [Pushback.elements_addAll, hb, List.map_append]
        simp [gateCalls]
      · rw [Effect.invocations_append, (Router.silent_traced ..).1]
        simp [gateCalls, GateCall.report, h]
  | @failed x e t es h =>
      constructor
      · change _ = (os ++ _).map single
        simp [gateCalls, GateCall.returned, GateCall.report, h, settle, hb]
      · rw [Effect.invocations_append, (Router.silent_traced ..).1]
        simp [gateCalls, GateCall.report, h]
  | regressed h => exact ⟨idle, (Router.silent_traced ..).1⟩
  | advanced ht h =>
      refine ⟨idle, ?_⟩
      rw [Effect.invocations_append, (Router.silent_traced ..).1, Router.invocations_emitted]
      rfl
  | unknown hi =>
      constructor
      · simp [stillWaiting, gateCalls, hi, hb]
      · rw [(Router.silent_traced ..).1]
        simp [gateCalls, hi]
  | @interrupted i v kept e t es hi h =>
      rw [hb] at h
      obtain ⟨hk, he⟩ := sweep_revisit (p.store i v).gate os (p.user, p.slot)
      rw [h] at hk he
      have he : es = _ := he
      constructor
      · simpa [stillWaiting, gateCalls, hi, settle] using hk
      · rw [Effect.invocations_append, Effect.invocations_append, (Router.silent_traced ..).1,
          (Effect.silent_notes _).1, he, Effect.invocations_flatMap]
        simp [gateCalls, hi]
  | @reevaluated i v kept t es o w hi h hw =>
      rw [hb] at h
      obtain ⟨hk, he⟩ := sweep_revisit (p.store i v).gate os (p.user, p.slot)
      rw [h] at hk he
      have he : es = _ := he
      constructor
      · simpa [stillWaiting, gateCalls, hi, settle] using hk
      · simp only [Effect.invocations_append, (Router.silent_traced ..).1,
          (Effect.silent_notes _).1, Router.invocations_emitted]
        rw [he, Effect.invocations_flatMap]
        simp [gateCalls, hi, Effect.invocations]
  | ignored => exact ⟨idle, rfl⟩

end Processor

/-! ## The journal -/

/-- A processor on its way, with who waits in its buffer and all calls at its gate so far. -/
structure Journal (σ ι ν ο : Type) where
  processor : Processor σ ι ν ο
  count : Nat
  waiting : List (Occurrence ι)
  calls : List (GateCall σ ι ν ο)

namespace Journal

/-- The journal after one more signal. -/
def next (j : Journal σ ι ν ο) (s : Signal ι ν) : Journal σ ι ν ο where
  processor := (Processor.handle s j.processor).state
  count := j.count + 1
  waiting := j.processor.stillWaiting j.waiting j.count s
  calls := j.calls ++ j.processor.gateCalls j.waiting j.count s

/-- The occurrences handed over so far, in order. -/
def handed (j : Journal σ ι ν ο) : List (Occurrence ι) := j.calls.flatMap GateCall.handed

/-- The occurrences lost so far. -/
def lost (j : Journal σ ι ν ο) : List (Occurrence ι) := j.calls.flatMap GateCall.lost

/--
What an evaluation of the buffer leaves behind that failed on the occurrence `x`: of the others,
those that were not handed over still wait, in order.
-/
structure StoppedAt (before after : Journal σ ι ν ο) (e : UserError) (x : Occurrence ι) :
    Prop where
  waited : x ∈ before.waiting
  lastCall : ∃ c, after.calls.getLast? = some c ∧ c.subjects = [x] ∧
    c.report.result = .error (.userCode e)
  inOrder : after.waiting.Sublist before.waiting
  others : ∀ o ∈ before.waiting, o ≠ x → o ∉ after.handed → o ∈ after.waiting

end Journal

namespace Processor

variable {p : Processor σ ι ν ο}

/-- The journal of a run. -/
def journal (p : Processor σ ι ν ο) (signals : List (Signal ι ν)) : Journal σ ι ν ο :=
  signals.foldl Journal.next ⟨p, 0, [], []⟩

section Run
variable (p : Processor σ ι ν ο) (signals : List (Signal ι ν)) (s : Signal ι ν)

theorem journal_concat : p.journal (signals ++ [s]) = (p.journal signals).next s := by
  rw [journal, List.foldl_append]
  rfl

@[simp] theorem processor_journal : (p.journal signals).processor = p.after signals := by
  induction signals using List.reverseRecOn with
  | nil => rfl
  | append_singleton signals s ih =>
      rw [journal_concat, after_concat, ← ih]
      rfl

@[simp] theorem count_journal : (p.journal signals).count = signals.length := by
  induction signals using List.reverseRecOn with
  | nil => rfl
  | append_singleton signals s ih =>
      rw [journal_concat, List.length_append, ← ih]
      rfl

theorem waiting_journal_concat :
    (p.journal (signals ++ [s])).waiting =
      (p.after signals).stillWaiting (p.journal signals).waiting signals.length s := by
  rw [journal_concat, ← processor_journal, ← count_journal p signals]
  rfl

theorem calls_journal_concat :
    (p.journal (signals ++ [s])).calls = (p.journal signals).calls ++
      (p.after signals).gateCalls (p.journal signals).waiting signals.length s := by
  rw [journal_concat, ← processor_journal, ← count_journal p signals]
  rfl

theorem handed_journal_concat :
    (p.journal (signals ++ [s])).handed = (p.journal signals).handed ++
      ((p.after signals).gateCalls (p.journal signals).waiting signals.length s).flatMap
        GateCall.handed := by
  rw [Journal.handed, calls_journal_concat, List.flatMap_append]
  rfl

theorem lost_journal_concat :
    (p.journal (signals ++ [s])).lost = (p.journal signals).lost ++
      ((p.after signals).gateCalls (p.journal signals).waiting signals.length s).flatMap
        GateCall.lost := by
  rw [Journal.lost, calls_journal_concat, List.flatMap_append]
  rfl

/-- What was handed over early in a run stays handed over, in the same order. -/
theorem prefix_handed_journal (xs ys : List (Signal ι ν)) :
    (p.journal xs).handed <+: (p.journal (xs ++ ys)).handed := by
  induction ys using List.reverseRecOn with
  | nil => simp
  | append_singleton ys s ih =>
      rw [← List.append_assoc, handed_journal_concat]
      exact ih.trans (List.prefix_append _ _)

/-- Every call of the gate in the journal covers the occurrences it was made for. -/
theorem covers_of_mem_journal {c : GateCall σ ι ν ο} (h : c ∈ (p.journal signals).calls) :
    c.Covers := by
  induction signals using List.reverseRecOn with
  | nil => cases h
  | append_singleton signals s ih =>
      rw [calls_journal_concat] at h
      rcases List.mem_append.1 h with h | h
      · exact ih h
      · exact covers_of_mem_gateCalls _ _ _ h

/-- Every occurrence received waits, was handed over or was lost, and only one of these. -/
theorem journal_perm :
    (p.journal signals).waiting ++ ((p.journal signals).handed ++ (p.journal signals).lost) ~
      received signals := by
  induction signals using List.reverseRecOn with
  | nil => exact List.Perm.refl _
  | append_singleton signals s ih =>
      have hs := (p.after signals).stillWaiting_perm (p.journal signals).waiting signals.length s
      rw [waiting_journal_concat, handed_journal_concat, lost_journal_concat, received_concat]
      classical
      rw [List.perm_iff_count] at ih hs ⊢
      intro o
      have hi := ih o
      have hn := hs o
      simp only [List.count_append] at hi hn ⊢
      omega

end Run

section Tracked
variable (hp : p.Fresh) (signals : List (Signal ι ν))
include hp

/-- The buffer holds the occurrences that wait, in order, each in its window alone. -/
theorem elements_journal :
    (p.after signals).pushback.elements = (p.journal signals).waiting.map single := by
  induction signals using List.reverseRecOn with
  | nil =>
      obtain ⟨config, function, user, slot, -, rfl⟩ := hp.exists_eq
      rfl
  | append_singleton signals s ih =>
      rw [after_concat, waiting_journal_concat]
      exact ((step_after hp.shaped signals s).tracked ih signals.length).1

/-- The calls of the user function in a run are those of the calls at the gate, in order. -/
theorem invocations_journal :
    Effect.invocations (p.trace signals) =
      (p.journal signals).calls.flatMap fun c => Effect.invocations c.report.effects := by
  induction signals using List.reverseRecOn with
  | nil => rfl
  | append_singleton signals s ih =>
      have hs := (step_after hp.shaped signals s).tracked (elements_journal hp signals)
        signals.length
      rw [trace_concat, Effect.invocations_append, ih, hs.2, calls_journal_concat,
        List.flatMap_append]

/-- The journal tells the calls of the user function in a run, in order. -/
theorem handedOver_journal :
    Effect.handedOver (p.trace signals) = (p.journal signals).handed.map call := by
  rw [Effect.handedOver, invocations_journal hp signals, List.filterMap_flatMap, Journal.handed,
    List.map_flatMap]
  apply List.flatMap_congr
  intro c hc
  exact (covers_of_mem_journal p signals hc).map_call_handed.symm

end Tracked

/-! ## At most once -/

/-- Every call at the gate of a run is the first one of a delivered element or a later one. -/
theorem mem_calls_journal (p : Processor σ ι ν ο) (signals : List (Signal ι ν))
    {c : GateCall σ ι ν ο} (h : c ∈ (p.journal signals).calls) :
    (∃ n, signals[n]? = some (.element c.element) ∧ c.subjects = ofElement n c.element) ∨
      ∃ o ∈ received signals, c.element = o.single ∧ c.subjects = [o] := by
  induction signals using List.reverseRecOn with
  | nil => cases h
  | append_singleton signals s ih =>
      rw [calls_journal_concat] at h
      rcases List.mem_append.1 h with h | h
      · obtain ⟨n, hn, hc⟩ | ⟨o, ho, hc⟩ := ih h
        · refine Or.inl ⟨n, ?_, hc⟩
          rw [List.getElem?_append_left (List.getElem?_eq_some_iff.1 hn).1, hn]
        · refine Or.inr ⟨o, ?_, hc⟩
          rw [received_concat]
          exact List.mem_append_left _ ho
      · cases s with
        | element x =>
            cases List.mem_singleton.1 h
            exact Or.inl ⟨signals.length, List.getElem?_concat_length, rfl⟩
        | sideInput i v =>
            simp only [gateCalls] at h
            split at h
            · obtain ⟨o, ho, -, hc⟩ := mem_revisit h
              refine Or.inr ⟨o, ?_, hc⟩
              rw [received_concat]
              apply List.mem_append_left
              exact (journal_perm p signals).subset (List.mem_append_left _ ho)
            · cases h
        | _ => cases h

/-- An occurrence that is lost was at stake in a call at the gate that failed. -/
theorem exists_failed_of_mem_lost (p : Processor σ ι ν ο) (signals : List (Signal ι ν))
    {o : Occurrence ι} (h : o ∈ (p.journal signals).lost) :
    ∃ c ∈ (p.journal signals).calls, o ∈ c.subjects ∧ c.Failed := by
  obtain ⟨c, hc, ho⟩ := List.mem_flatMap.1 h
  exact ⟨c, hc, c.lost_subset ho, (covers_of_mem_journal p signals hc).failed_of_mem_lost ho⟩

/-- A side input whose value leads to a failure of the user function is known. -/
theorem Step.sweep_of_userCode {i : Nat} {v : WindowedValue ν} {e : UserError}
    {r : Report (Processor σ ι ν ο) (Effect ι ο) ProcessingError Unit}
    (h : Step p (.sideInput i v) r) (hr : r.result = .error (.userCode e)) :
    i < p.sideInputs.count ∧
      (Pushback.sweep (p.store i v).gate.tryProcess p.pushback.elements
        (p.user, p.slot)).2.result = .error (.userCode e) := by
  cases h with
  | unknown hi => cases hr
  | interrupted hi h =>
      rw [h]
      exact ⟨hi, hr⟩
  | reevaluated hi h hw => cases hr

/-- After a side input was taken in without a failure, nothing that is available waits. -/
theorem Step.not_available {i : Nat} {v : WindowedValue ν}
    {r : Report (Processor σ ι ν ο) (Effect ι ο) ProcessingError Unit}
    (h : Step p (.sideInput i v) r) (hp : p.Shaped) (hr : r.result = .ok ())
    {y : WindowedValue ι} (hy : y ∈ r.state.pushback.elements) :
    ∃ w, y.windows = [w] ∧ ¬ r.state.Available w := by
  cases h with
  | unknown hi => cases hr
  | interrupted hi h => cases hr
  | reevaluated hi h hw =>
      obtain ⟨rfl, -⟩ := (sweep_eq h).of_ok rfl
      obtain ⟨x, -, hx⟩ := List.mem_flatMap.1 hy
      obtain ⟨w, hw, rfl⟩ := List.mem_map.1 hx
      refine ⟨w, rfl, fun ha => ?_⟩
      have hb := (List.mem_filter.1 hw).2
      have ha := ((hp.store i v).allReady_iff w).2 ha
      rw [gate, ha] at hb
      cases hb

/-- A side input whose evaluation of the buffer fails stops at one occurrence that waited. -/
theorem stoppedAt_of_userCode (hp : p.Fresh) (seen : List (Signal ι ν)) {i : Nat}
    {v : WindowedValue ν} {e : UserError}
    (he : (handle (.sideInput i v) (p.after seen)).result = .error (.userCode e)) :
    ∃ x, (p.journal seen).StoppedAt (p.journal (seen ++ [.sideInput i v])) e x := by
  obtain ⟨hi, hs⟩ := (step_after hp.shaped seen (.sideInput i v)).sweep_of_userCode he
  rw [elements_journal hp seen] at hs
  obtain ⟨c, hc, hr⟩ := failed_of_sweep_eq_error hs
  have hcalls : (p.after seen).gateCalls (p.journal seen).waiting seen.length (.sideInput i v) =
      revisit ((p.after seen).store i v).gate (p.journal seen).waiting
        ((p.after seen).user, (p.after seen).slot) := if_pos hi
  obtain ⟨x, hx, -, -, hsub⟩ := mem_revisit (List.mem_of_getLast? hc)
  refine ⟨x, hx, ⟨c, ?_, hsub, hr⟩, ?_, ?_⟩
  · rw [calls_journal_concat, List.getLast?_append, hcalls, hc]
    rfl
  · rw [waiting_journal_concat]
    simp only [stillWaiting, hcalls]
    exact stillWaiting_sublist ..
  · intro o ho hne hnot
    have perm := (p.after seen).stillWaiting_perm (p.journal seen).waiting seen.length
      (.sideInput i v)
    rcases List.mem_append.1 (perm.symm.subset (List.mem_append_left _ ho)) with h | h
    · rw [waiting_journal_concat]
      exact h
    · rcases List.mem_append.1 h with h | h
      · refine absurd ?_ hnot
        rw [handed_journal_concat]
        exact List.mem_append_right _ h
      · obtain ⟨c', hc', ho'⟩ := List.mem_flatMap.1 h
        have hf := ((p.after seen).covers_of_mem_gateCalls _ _ hc').failed_of_mem_lost ho'
        rw [hcalls] at hc'
        have hlast := getLast?_revisit hc' hf
        rw [hc] at hlast
        cases hlast
        have hmem := c.lost_subset ho'
        rw [hsub] at hmem
        exact absurd (List.mem_singleton.1 hmem) hne

/--
What is known about a run whose user function may fail at any call. The first four fields tie the
journal to what the processor holds and does. No occurrence is handed over twice, none waits after
it was handed over, and one that is in neither place was at stake in a call at the gate that failed.
The last two fields are about side inputs: one that fails leaves the other occurrences alone, and
one that does not lets nothing wait that is available.
-/
structure AtMostOnce (p : Processor σ ι ν ο) (signals : List (Signal ι ν)) : Prop where
  buffer : ∀ seen rest, signals = seen ++ rest →
    (p.after seen).pushback.elements = (p.journal seen).waiting.map single
  invocations : Effect.invocations (p.trace signals) =
    (p.journal signals).calls.flatMap fun c => Effect.invocations c.report.effects
  calls : ∀ c ∈ (p.journal signals).calls,
    (∃ n, signals[n]? = some (.element c.element) ∧ c.subjects = ofElement n c.element) ∨
      ∃ o ∈ received signals, c.element = o.single ∧ c.subjects = [o]
  delivered : Effect.handedOver (p.trace signals) = (p.journal signals).handed.map call
  once : (p.journal signals).handed.Nodup
  apart : ∀ seen rest, signals = seen ++ rest →
    (p.journal seen).handed <+: (p.journal signals).handed ∧
      ∀ o ∈ (p.journal seen).waiting, o ∉ (p.journal seen).handed
  accounted : ∀ o ∈ received signals, o ∉ (p.journal signals).waiting →
    o ∉ (p.journal signals).handed →
      ∃ c ∈ (p.journal signals).calls, o ∈ c.subjects ∧ c.Failed
  interrupted : ∀ seen i v rest e, signals = seen ++ .sideInput i v :: rest →
    (handle (.sideInput i v) (p.after seen)).result = .error (.userCode e) →
      ∃ x, (p.journal seen).StoppedAt (p.journal (seen ++ [.sideInput i v])) e x
  completed : ∀ seen i v rest, signals = seen ++ .sideInput i v :: rest →
    (handle (.sideInput i v) (p.after seen)).result = .ok () →
      ∀ y ∈ (p.after (seen ++ [.sideInput i v])).pushback.elements,
        ∃ w, y.windows = [w] ∧ ¬ (p.after (seen ++ [.sideInput i v])).Available w

/-- Whatever fails, an occurrence is handed over at most once and gets lost only in a failure. -/
theorem hands_over_at_most_once (hp : p.Fresh) (signals : List (Signal ι ν)) :
    p.AtMostOnce signals := by
  have nodup (seen : List (Signal ι ν)) : ((p.journal seen).waiting ++
      ((p.journal seen).handed ++ (p.journal seen).lost)).Nodup :=
    (journal_perm p seen).nodup_iff.2 (nodup_received seen)
  refine ⟨?_, invocations_journal hp signals, fun c hc => mem_calls_journal p signals hc,
    handedOver_journal hp signals, ?_, ?_, ?_, ?_, ?_⟩
  · rintro seen rest -
    exact elements_journal hp seen
  · exact (List.nodup_append.1 (List.nodup_append.1 (nodup signals)).2.1).1
  · rintro seen rest rfl
    refine ⟨prefix_handed_journal p seen rest, ?_⟩
    intro o hw hh
    exact (List.nodup_append.1 (nodup seen)).2.2 o hw o (List.mem_append_left _ hh) rfl
  · intro o ho hw hh
    rcases List.mem_append.1 ((journal_perm p signals).symm.subset ho) with h | h
    · exact absurd h hw
    · rcases List.mem_append.1 h with h | h
      · exact absurd h hh
      · exact exists_failed_of_mem_lost p signals h
  · rintro seen i v rest e - he
    exact stoppedAt_of_userCode hp seen he
  · rintro seen i v rest - hr y hy
    rw [after_concat] at hy ⊢
    exact (step_after hp.shaped seen (.sideInput i v)).not_available (hp.shaped.after seen) hr hy

/-- The user function that counts elements, refuses zeros and cannot end a bundle at three. -/
def fragile : UserFunction Nat Nat Nat Nat where
  processElement cx n :=
    ⟨[cx.output n], if cx.element.value = 0 then .error (.assertion "zero") else .ok (), n + 1⟩
  finishBundle n := (if n = 3 then .error (.failed "full") else .ok (), n)

/-- A run whose buffer is evaluated three times, each time with a failure. -/
def troubledRun : List (Signal Nat Nat) :=
  [.sideInput 1 ⟨8, .zero, [.global]⟩, .element ⟨1, .zero, [hour, .global]⟩,
    .element ⟨0, .zero, [hour]⟩, .element ⟨2, .zero, [hour, hour]⟩,
    .sideInput 0 ⟨9, .zero, [hour]⟩, .sideInput 0 ⟨9, .zero, [hour]⟩,
    .sideInput 0 ⟨9, .zero, [hour]⟩]

theorem hands_over_at_most_once_troubledRun :
    (started twoSideInputs fragile 0).Fresh ∧
      ((started twoSideInputs fragile 0).journal troubledRun).handed.Nodup ∧
      Effect.handedOver ((started twoSideInputs fragile 0).trace troubledRun) =
        [(⟨1, .zero, [hour]⟩, hour), (⟨0, .zero, [hour]⟩, hour), (⟨2, .zero, [hour]⟩, hour)] ∧
      ((started twoSideInputs fragile 0).after troubledRun).pushback.elements =
        [⟨2, .zero, [hour]⟩] := by
  have hp : (started twoSideInputs fragile 0).Fresh := fresh_started (by decide) rfl
  have known := hands_over_at_most_once hp troubledRun
  exact ⟨hp, known.once, known.delivered.trans (by decide),
    (known.buffer troubledRun [] rfl).trans (by decide)⟩

end Processor

end EventStream
