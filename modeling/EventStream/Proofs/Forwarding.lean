import EventStream.Proofs.Rejection
import EventStream.Proofs.Routing

/-!
# Processors without side inputs

A processor without side inputs never pushes an element back. Its output
watermark is its input watermark, and every watermark it accepts goes out once,
as it is.

This is a way of its own to move the watermarks, next to the one of processors
that wait. Where nothing is held back the two agree, except that a processor
that waits does not repeat a watermark.

## Implementation notes

Both ways keep the two watermarks level. A receipt is then one equation for each
way, and runs are compared through these equations.
-/

namespace EventStream

variable {σ ι ν ο : Type}

namespace Watermarks

/-! ## The two ways to receive a watermark -/

/-- The two watermarks at the same point. -/
def level (t : Timestamp) (waits : Bool) : Watermarks := ⟨t, t, waits⟩

/-- Without side inputs, what is accepted is emitted, whatever the hold is. -/
theorem receive_level_false (a t hold : Timestamp) :
    (level a false).receive t hold =
      if t < a then (.error (.watermarkRegression a t), level a false)
      else (.ok (some t), level t false) := rfl

/-- With side inputs but no hold, what is accepted is emitted if it moves the watermarks. -/
theorem receive_level_true (a t : Timestamp) :
    (level a true).receive t .maxValue =
      if t < a then (.error (.watermarkRegression a t), level a true)
      else (.ok (if a < t then some t else none), level t true) := by
  have unheld : min Timestamp.maxValue t = t := by
    apply Timestamp.ext
    rw [Timestamp.millis_min]
    exact Int.min_eq_right (Timestamp.le_maxValue t)
  simp only [receive, level, advance, candidate, unheld, if_true]
  split_ifs with hlt hat
  · rfl
  · rfl
  · have same : a = t := by
      by_contra hne
      exact hat (Timestamp.lt_of_le_of_ne (Timestamp.not_lt.1 hlt) hne)
    rw [same]

/-- Without a wait, nothing is held back that could be released. -/
theorem holdChanged_level_false (a hold : Timestamp) :
    (level a false).holdChanged hold = (none, level a false) := rfl

/-- Without elements in the buffer, nothing is held back that could be released. -/
theorem holdChanged_level_true (a : Timestamp) :
    (level a true).holdChanged .maxValue = (none, level a true) := by
  have unheld : ¬ a < min Timestamp.maxValue a :=
    Timestamp.not_lt.2 (Timestamp.min_le_right _ _)
  simp [holdChanged, advance, candidate, level, unheld]

/-! ## Runs of watermarks -/

/-- A watermark that arrives, and the hold at that time. -/
structure Receipt where
  watermark : Timestamp
  hold : Timestamp

/-- The same watermark at a time when nothing is held back. -/
def Receipt.unheld (r : Receipt) : Receipt := { r with hold := .maxValue }

/-- A watermark that arrived, and what was answered. -/
structure Answer where
  watermark : Timestamp
  result : Except ProcessingError (Option Timestamp)

namespace Answer

/-- The watermark with whether it was accepted, or why not. -/
def verdict (a : Answer) : Timestamp × Except ProcessingError Unit :=
  (a.watermark, a.result.map fun _ => ())

/-- The watermark if it was accepted. -/
def accepted? (a : Answer) : Option Timestamp :=
  match a.result with
  | .ok _ => some a.watermark
  | .error _ => none

/-- The watermark that was emitted. -/
def emitted? (a : Answer) : Option Timestamp :=
  match a.result with
  | .ok emitted => emitted
  | .error _ => none

variable (t : Timestamp) (e : ProcessingError) (o : Option Timestamp)

@[simp] theorem verdict_error : verdict ⟨t, .error e⟩ = (t, .error e) := rfl

@[simp] theorem verdict_ok : verdict ⟨t, .ok o⟩ = (t, .ok ()) := rfl

@[simp] theorem accepted_error : accepted? ⟨t, .error e⟩ = none := rfl

@[simp] theorem accepted_ok : accepted? ⟨t, .ok o⟩ = some t := rfl

@[simp] theorem emitted_error : emitted? ⟨t, .error e⟩ = none := rfl

@[simp] theorem emitted_ok : emitted? ⟨t, .ok o⟩ = o := rfl

end Answer

/-- The watermarks after receipts one after another. -/
def receiveAll (w : Watermarks) (receipts : List Receipt) : Watermarks :=
  receipts.foldl (fun w r => (w.receive r.watermark r.hold).2) w

/-- The answers to receipts one after another. -/
def answers (w : Watermarks) : List Receipt → List Answer
  | [] => []
  | r :: rest =>
    ⟨r.watermark, (w.receive r.watermark r.hold).1⟩ ::
      (w.receive r.watermark r.hold).2.answers rest

/-- Those of some timestamps that are larger than the one before, the first compared with `t`. -/
def rises (t : Timestamp) : List Timestamp → List Timestamp
  | [] => []
  | u :: rest => if t < u then u :: rises u rest else rises u rest

/--
The two ways in step on one run of watermarks: at the same point and with the same verdicts. The one
emits what is accepted, the other what rises.
-/
structure InStep (a : Timestamp) (receipts : List Receipt) : Prop where
  levels : ∃ b, (level a false).receiveAll receipts = level b false ∧
    (level a true).receiveAll (receipts.map Receipt.unheld) = level b true
  verdicts : ((level a true).answers (receipts.map Receipt.unheld)).map Answer.verdict =
    ((level a false).answers receipts).map Answer.verdict
  forwarded : ((level a false).answers receipts).filterMap Answer.emitted? =
    ((level a false).answers receipts).filterMap Answer.accepted?
  risen : ((level a true).answers (receipts.map Receipt.unheld)).filterMap Answer.emitted? =
    rises a (((level a false).answers receipts).filterMap Answer.accepted?)

section InStep
variable {a : Timestamp} {r : Receipt} {rest : List Receipt}

/-- Two coordinators that refuse a receipt are still in step. -/
theorem InStep.reject (h : InStep a rest) (hlt : r.watermark < a) : InStep a (r :: rest) := by
  have plain := receive_level_false a r.watermark r.hold
  have waiting := receive_level_true a r.watermark
  rw [if_pos hlt] at plain waiting
  constructor
  · simpa [receiveAll, Receipt.unheld, plain, waiting] using h.levels
  · simpa [answers, Receipt.unheld, plain, waiting] using h.verdicts
  · simpa [answers, plain, List.filterMap_cons] using h.forwarded
  · simpa [answers, Receipt.unheld, plain, waiting, List.filterMap_cons] using h.risen

/-- Two coordinators that accept a receipt meet at its watermark. -/
theorem InStep.accept (h : InStep r.watermark rest) (hlt : ¬ r.watermark < a) :
    InStep a (r :: rest) := by
  have plain := receive_level_false a r.watermark r.hold
  have waiting := receive_level_true a r.watermark
  rw [if_neg hlt] at plain waiting
  constructor
  · simpa [receiveAll, Receipt.unheld, plain, waiting] using h.levels
  · simpa [answers, Receipt.unheld, plain, waiting] using h.verdicts
  · simpa [answers, plain, List.filterMap_cons] using h.forwarded
  · by_cases hat : a < r.watermark
    · simpa [answers, Receipt.unheld, plain, waiting, List.filterMap_cons, rises, hat]
        using h.risen
    · simpa [answers, Receipt.unheld, plain, waiting, List.filterMap_cons, rises, hat]
        using h.risen

end InStep

/-- Two coordinators at the same watermark stay in step, whatever they receive. -/
theorem inStep (a : Timestamp) (receipts : List Receipt) : InStep a receipts := by
  -- What comes next is compared with the last watermark accepted, which is what varies here.
  induction receipts generalizing a with
  | nil => exact ⟨⟨a, rfl, rfl⟩, rfl, rfl, rfl⟩
  | cons r rest ih =>
      by_cases hlt : r.watermark < a
      · exact (ih a).reject hlt
      · exact (ih r.watermark).accept hlt

end Watermarks

/-! ## Processors that forward -/

/-- A request that emits a watermark it makes accepted, once and as it is, and no other. -/
structure Served.Forwarded (e : Served ι ν ο) : Prop where
  accepted : ∀ t, e.watermark? = some t → e.emissions = [(.main, .watermark t)]
  quiet : e.watermark? = none → e.emissions.filterMap Emission.watermark? = []

/-- Of a forwarded request, just its watermark is emitted as one. -/
theorem Served.Forwarded.filterMap_emissions {e : Served ι ν ο} (h : e.Forwarded) :
    e.emissions.filterMap Emission.watermark? = e.watermark?.toList := by
  cases hw : e.watermark? with
  | none => exact h.quiet hw
  | some t =>
      rw [h.accepted t hw]
      rfl

/-- The watermarks that forwarding requests emit are those they make accepted, in order. -/
theorem Served.watermarks_of_forwarded {log : List (Served ι ν ο)} (h : ∀ e ∈ log, e.Forwarded) :
    (log.flatMap Served.emissions).filterMap Emission.watermark? = Served.watermarks log := by
  induction log with
  | nil => rfl
  | cons e log ih =>
      rw [List.forall_mem_cons] at h
      calc
        ((e :: log).flatMap Served.emissions).filterMap Emission.watermark? =
            e.emissions.filterMap Emission.watermark? ++
              (log.flatMap Served.emissions).filterMap Emission.watermark? := by
          rw [List.flatMap_cons, List.filterMap_append]
        _ = e.watermark?.toList ++ Served.watermarks log := by
          rw [h.1.filterMap_emissions, ih h.2]
        _ = Served.watermarks (e :: log) := by
          rw [← Served.watermarks_singleton, ← Served.watermarks_append, List.singleton_append]

namespace Processor

/-- A processor without side inputs that holds nothing back. -/
structure Forwards (p : Processor σ ι ν ο) : Prop where
  specs : p.sideInputs.specs = p.config.sideInputs
  plain : p.config.sideInputs = []
  unheld : p.pushback = .empty
  level : ∃ t, p.watermarks = .level t false

variable {p : Processor σ ι ν ο} {s : Signal ι ν} {c : Command ι ν}
  {r : Report (Processor σ ι ν ο) (Effect ι ο) ProcessingError Unit}

/-- A processor without side inputs forwards from the start. -/
theorem Made.forwards (hp : p.Made) (hn : p.config.sideInputs = []) : p.Forwards := by
  obtain ⟨config, function, user, slot, -, rfl⟩ := hp.exists_eq
  refine ⟨rfl, hn, rfl, .minValue, ?_⟩
  change Watermarks.initial (!config.sideInputs.isEmpty) = _
  rw [show config.sideInputs = [] from hn]
  rfl

theorem Forwards.not_lt_count (hp : p.Forwards) (i : Nat) : ¬ i < p.sideInputs.count := by
  rw [SideInputs.count, hp.specs, hp.plain]
  exact Nat.not_lt_zero i

/-- A processor that forwards has every window ready. -/
theorem Forwards.blockedPart_eq_nil (hp : p.Forwards) (x : WindowedValue ι) (ws : List Window) :
    p.gate.blockedPart x ws = [] := by
  simp [Gate.blockedPart, allReady_of_sideInputs_nil hp.specs hp.plain]

/-- A processor that forwards emits each watermark it accepts at once. -/
theorem Forwards.of_receive (hp : p.Forwards) {t hold : Timestamp} {o : Option Timestamp}
    {w : Watermarks} (h : p.watermarks.receive t hold = (.ok o, w)) :
    o = some t ∧ w = .level t false := by
  obtain ⟨a, ha⟩ := hp.level
  rw [ha, Watermarks.receive_level_false] at h
  split_ifs at h
  · cases h
  · cases h
    exact ⟨rfl, rfl⟩

/-- No signal stops a processor from forwarding. -/
theorem Step.forwards (h : Step p s r) (hp : p.Forwards) : r.state.Forwards := by
  cases h with
  | @passed x back t es h =>
      obtain ⟨rfl, -⟩ := (tryProcess_ok h).of_ok rfl
      refine ⟨hp.specs, hp.plain, ?_, hp.level⟩
      change p.pushback.addAll (p.gate.blockedPart x x.windows) = .empty
      rw [hp.blockedPart_eq_nil, hp.unheld]
      rfl
  | failed h => exact ⟨hp.specs, hp.plain, hp.unheld, hp.level⟩
  | regressed h => exact hp
  | @advanced t o w ht h =>
      -- The only way the watermarks of such a processor move: together.
      obtain ⟨-, rfl⟩ := hp.of_receive h
      exact ⟨hp.specs, hp.plain, hp.unheld, t, rfl⟩
  | unknown hi => exact hp
  | interrupted hi h => exact absurd hi (hp.not_lt_count _)
  | reevaluated hi h hw => exact absurd hi (hp.not_lt_count _)
  | ignored => exact hp

/-- Accepted watermarks are emitted, and no others. -/
theorem Step.emissions_of_forwards (h : Step p s r) (hp : p.Forwards) :
    (∀ t, s = .watermark t → r.result = .ok () →
      Effect.emissions r.effects = [(.main, .watermark t)]) ∧
    ((∀ t, s = .watermark t → r.result ≠ .ok ()) → Effect.watermarks r.effects = []) := by
  cases h with
  | passed h => exact ⟨fun t hs => (nomatch hs), fun _ => by simp [(tryProcess_ok h).watermarks_eq]⟩
  | failed h =>
      obtain ⟨u, -, a⟩ := tryProcess_error h
      exact ⟨fun t hs => (nomatch hs), fun _ => by simp [a.watermarks_eq]⟩
  | regressed h => exact ⟨fun t _ hr => (nomatch hr), fun _ => by simp⟩
  | @advanced t o w ht h =>
      obtain ⟨rfl, -⟩ := hp.of_receive h
      refine ⟨fun u hu _ => ?_, fun hn => absurd rfl (hn t rfl)⟩
      cases hu
      simp
  | unknown hi => exact ⟨fun t hs => (nomatch hs), fun _ => by simp⟩
  | interrupted hi h => exact absurd hi (hp.not_lt_count _)
  | reevaluated hi h hw => exact absurd hi (hp.not_lt_count _)
  | ignored => exact ⟨fun t hs => (nomatch hs), fun _ => rfl⟩

/-- No command but a restoration makes a processor hold anything back. -/
theorem Performed.forwards (h : Performed p c r) (hp : p.Forwards)
    (hc : ∀ bytes, c ≠ .restore bytes) : r.state.Forwards := by
  cases h with
  | handled h step => exact step.forwards hp
  | restored ha => exact absurd rfl (hc _)
  | _ => exact ⟨hp.specs, hp.plain, hp.unheld, hp.level⟩

/-- No request stops a processor from forwarding. -/
theorem Forwards.after_serve (hp : p.Forwards) (r : Request ι ν) : (serve r p).state.Forwards := by
  cases r with
  | setUp => exact (setup_performed p).forwards hp nofun
  | handle s => exact (handle_performed s p).forwards hp nofun
  | tearDown => exact (leave_performed p).forwards hp nofun
  | takeSlot => exact ⟨hp.specs, hp.plain, hp.unheld, hp.level⟩

/-- A processor forwards through any requests. -/
theorem Forwards.after_serveAll (hp : p.Forwards) (requests : List (Request ι ν)) :
    (p.serveAll requests).Forwards := by
  induction requests generalizing p with
  | nil => exact hp
  | cons r rest ih => exact ih (hp.after_serve r)

/-- A request that is no signal makes no watermark accepted, and emits nothing. -/
theorem forwarded_of_emissions_eq_nil {r : Request ι ν} (hr : ∀ s, r ≠ .handle s)
    (he : Effect.emissions (serve r p).effects = []) : (served r p).Forwarded := by
  refine ⟨fun t ht => ?_, fun _ => ?_⟩
  · exact absurd (watermark?_served_eq_some_iff.1 ht).1 (hr _)
  · change (Effect.emissions (serve r p).effects).filterMap Emission.watermark? = []
    rw [he, List.filterMap_nil]

theorem Forwards.forwarded_handle (hp : p.Forwards) (s : Signal ι ν) :
    (served (.handle s) p).Forwarded := by
  by_cases running : p.isRunning = true
  · obtain ⟨passes, quiet⟩ := (handle_step running s).emissions_of_forwards hp
    refine ⟨fun t ht => ?_, fun hn => quiet ?_⟩
    · obtain ⟨hs, hr⟩ := watermark?_served_eq_some_iff.1 ht
      cases hs
      exact passes t rfl hr
    · rintro t rfl hr
      rw [watermark?_served_eq_some_iff.2 ⟨rfl, hr⟩] at hn
      cases hn
  · have refused := handle_of_not_running running s
    refine ⟨fun t ht => ?_, fun _ => ?_⟩
    · obtain ⟨-, hr⟩ := watermark?_served_eq_some_iff.1 ht
      rw [serve, refused] at hr
      cases hr
    · change (Effect.emissions (handle s p).effects).filterMap Emission.watermark? = []
      rw [refused]
      rfl

/-- Every request to a processor that forwards is forwarded. -/
theorem Forwards.forwarded (hp : p.Forwards) (r : Request ι ν) : (served r p).Forwarded := by
  cases r with
  | setUp =>
      exact forwarded_of_emissions_eq_nil (fun _ h => (nomatch h))
        ((setup_performed p).emissions_eq_nil fun _ h => (nomatch h))
  | handle s => exact hp.forwarded_handle s
  | tearDown =>
      exact forwarded_of_emissions_eq_nil (fun _ h => (nomatch h))
        ((leave_performed p).emissions_eq_nil fun _ h => (nomatch h))
  | takeSlot => exact forwarded_of_emissions_eq_nil (fun _ h => (nomatch h)) rfl

theorem Forwards.forwarded_of_mem (hp : p.Forwards) {requests : List (Request ι ν)}
    {e : Served ι ν ο} (he : e ∈ p.log requests) : e.Forwarded := by
  induction requests generalizing p with
  | nil => cases he
  | cons r rest ih =>
      rcases List.mem_cons.1 he with rfl | he
      · exact hp.forwarded r
      · exact ih (hp.after_serve r) he

/--
A processor without side inputs, from its making through any run of requests: nothing ever waits in
its buffer, its two watermarks are the same, and every watermark it accepts is emitted once and as
it is, and no other. It moves its watermarks in a way of its own, which agrees with the way of a
processor that waits whenever there is no hold: for every run of watermarks, both accept the same
ones and stand at the same point after each of them, a change of the hold moves neither, and what
the one that waits emits are the watermarks that the other emits and that are larger than the one
accepted before.
-/
theorem forwarding_agrees (hp : p.Made) (hn : p.config.sideInputs = [])
    (requests : List (Request ι ν)) (receipts : List Watermarks.Receipt) :
    let q := p.serveAll requests
    let unheld := receipts.map Watermarks.Receipt.unheld
    let forwarding := (Watermarks.initial false).receiveAll receipts
    let waiting := (Watermarks.initial true).receiveAll unheld
    let forwarded := (Watermarks.initial false).answers receipts
    let answered := (Watermarks.initial true).answers unheld
    (q.pushback = .empty ∧ q.watermarks.input = q.watermarks.output) ∧
    (∀ e ∈ p.log requests, e.Forwarded) ∧
    ((p.log requests).flatMap Served.emissions).filterMap Emission.watermark? =
      Served.watermarks (p.log requests) ∧
    (forwarding.input = waiting.input ∧ forwarding.output = waiting.output) ∧
    (∀ hold, forwarding.holdChanged hold = (none, forwarding) ∧
      waiting.holdChanged .maxValue = (none, waiting)) ∧
    answered.map Watermarks.Answer.verdict = forwarded.map Watermarks.Answer.verdict ∧
    forwarded.filterMap Watermarks.Answer.emitted? =
      forwarded.filterMap Watermarks.Answer.accepted? ∧
    answered.filterMap Watermarks.Answer.emitted? =
      Watermarks.rises .minValue (forwarded.filterMap Watermarks.Answer.emitted?) := by
  intro q unheld forwarding waiting forwarded answered
  have forwards := hp.forwards hn
  have reached : q.Forwards := forwards.after_serveAll requests
  have run := Watermarks.inStep .minValue receipts
  obtain ⟨t, ht⟩ := reached.level
  obtain ⟨b, hf, hw⟩ := run.levels
  change forwarding = .level b false at hf
  change waiting = .level b true at hw
  have emitted : ∀ e ∈ p.log requests, e.Forwarded := fun e he => forwards.forwarded_of_mem he
  refine ⟨⟨reached.unheld, by rw [ht]; rfl⟩, emitted, Served.watermarks_of_forwarded emitted,
    ⟨by rw [hf, hw]; rfl, by rw [hf, hw]; rfl⟩, fun hold => ⟨?_, ?_⟩, run.verdicts, run.forwarded,
    ?_⟩
  · rw [hf]
    exact Watermarks.holdChanged_level_false b hold
  · rw [hw]
    exact Watermarks.holdChanged_level_true b
  · exact run.risen.trans (congrArg _ run.forwarded.symm)

/-- A configuration without side inputs. -/
def noSideInputs : Config := ⟨defaultMainOutput, [], [], true⟩

/-- Requests with watermarks that repeat and regress, and an element on which user code fails. -/
def forwardingRun : List (Request Nat Nat) :=
  [.handle (.watermark fiveMillis), .setUp, .handle (.watermark .minValue),
    .handle (.element ⟨0, .zero, [hour, .global]⟩), .handle (.watermark nineMillis),
    .handle (.watermark fiveMillis), .handle (.element ⟨3, fiveMillis, [hour, hour]⟩),
    .handle (.sideInput 0 ⟨8, .zero, [hour]⟩), .handle (.watermark nineMillis),
    .handle (.watermark tenMillis)]

/-- The same watermarks without a processor, at different holds. -/
def receivedRun : List Watermarks.Receipt :=
  [⟨.minValue, .zero⟩, ⟨nineMillis, .zero⟩, ⟨fiveMillis, tenMillis⟩, ⟨nineMillis, .minValue⟩,
    ⟨tenMillis, .maxValue⟩]

/-- The processor that the requests are for. -/
def forwarder : Processor Unit Nat Nat Nat := initial noSideInputs refusingZero ()

theorem forwarding_agrees_forwardingRun :
    forwarder.Made ∧ forwarder.config.sideInputs = [] ∧
      (forwarder.serveAll forwardingRun).pushback = .empty ∧
      ((forwarder.log forwardingRun).flatMap Served.emissions).filterMap Emission.watermark? =
        [.minValue, nineMillis, nineMillis, tenMillis] ∧
      (((Watermarks.initial true).answers (receivedRun.map Watermarks.Receipt.unheld)).filterMap
        Watermarks.Answer.emitted?) = [nineMillis, tenMillis] := by
  have made : forwarder.Made := made_initial (by decide) refusingZero ()
  have accepted : Served.watermarks (forwarder.log forwardingRun) =
      [.minValue, nineMillis, nineMillis, tenMillis] := rfl
  have rising : Watermarks.rises .minValue
      (((Watermarks.initial false).answers receivedRun).filterMap Watermarks.Answer.emitted?) =
        [nineMillis, tenMillis] := by decide
  obtain ⟨⟨unheld, -⟩, -, forwarded, -, -, -, -, risen⟩ :=
    forwarding_agrees made rfl forwardingRun receivedRun
  exact ⟨made, rfl, unheld, forwarded.trans accepted, risen.trans rising⟩

end Processor

end EventStream
