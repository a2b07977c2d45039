import EventStream.Proofs.OutputWatermark
import EventStream.Proofs.Requests

/-!
# Rejected signals

A signal is rejected if the processor does not run, if its side input is not
known, or if its watermark lies behind one that was accepted. A rejected signal
leaves the processor as it was, emits nothing and does not reach the user
function, so a run without the rejected signals is the same run.

## Implementation notes

The rejected signals of a run are taken out of its log. The log of what remains
is then compared with the remaining log, entry by entry.
-/

namespace EventStream

variable {σ ι ν ο : Type}

/-- Failures by which a signal is rejected before it has any effect. -/
def ProcessingError.isRejection : ProcessingError → Bool
  | notRunning => true
  | unknownSideInput _ _ => true
  | watermarkRegression _ _ => true
  | _ => false

namespace Served

/-- Whether a request is a signal that was rejected. -/
def isRejected (e : Served ι ν ο) : Bool :=
  match e.request, e.result with
  | .handle _, .error e => e.isRejection
  | _, _ => false

/-- The watermark that a request made the processor accept. -/
def watermark? (e : Served ι ν ο) : Option Timestamp :=
  match e.request, e.result with
  | .handle (.watermark t), .ok () => some t
  | _, _ => none

/-- The requests of a log that are not rejected signals. -/
def accepted (log : List (Served ι ν ο)) : List (Served ι ν ο) := log.filter fun e => !e.isRejected

/-- The watermarks accepted in a log. -/
def watermarks (log : List (Served ι ν ο)) : List Timestamp := log.filterMap watermark?

theorem watermarks_append (xs ys : List (Served ι ν ο)) :
    watermarks (xs ++ ys) = watermarks xs ++ watermarks ys := List.filterMap_append

/-- A single request carries at most one watermark. -/
theorem watermarks_singleton (e : Served ι ν ο) : watermarks [e] = e.watermark?.toList := by
  rw [watermarks, List.filterMap_cons]
  cases e.watermark? <;> rfl

/-- Leaving rejected requests out loses nothing of which they show nothing. -/
theorem flatMap_accepted {α : Type} {f : Served ι ν ο → List α} {log : List (Served ι ν ο)}
    (h : ∀ e ∈ log, e.isRejected = true → f e = []) :
    (accepted log).flatMap f = log.flatMap f := by
  induction log with
  | nil => rfl
  | cons e log ih =>
      rw [List.forall_mem_cons] at h
      rw [accepted, List.flatMap_cons, ← ih h.2]
      cases he : e.isRejected with
      | true => rw [List.filter_cons_of_neg (by simp [he]), h.1 he]; rfl
      | false => rw [List.filter_cons_of_pos (by simp [he]), List.flatMap_cons]; rfl

end Served

namespace Timestamp

theorem lt_of_lt_of_le {a b c : Timestamp} (hab : a < b) (hbc : b ≤ c) : a < c :=
  Int.lt_of_lt_of_le hab hbc

/-- The largest of some timestamps. -/
def IsLargest (t : Timestamp) (ts : List Timestamp) : Prop := t ∈ ts ∧ ∀ u ∈ ts, u ≤ t

/-- A watermark that is at least the largest one is the largest one with it. -/
theorem IsLargest.concat {t u : Timestamp} {ts : List Timestamp} (h : t.IsLargest ts)
    (hu : t ≤ u) : u.IsLargest (ts ++ [u]) := by
  refine ⟨List.mem_append_right _ (List.mem_singleton_self u), List.forall_mem_append.2 ⟨?_, ?_⟩⟩
  · exact fun v hv => le_trans (h.2 v hv) hu
  · exact List.forall_mem_singleton.2 (le_refl u)

/-- There is only one largest watermark. -/
theorem IsLargest.eq {t u : Timestamp} {ts : List Timestamp} (ht : t.IsLargest ts)
    (hu : u.IsLargest ts) : t = u :=
  Timestamp.ext (Int.le_antisymm (hu.2 t ht.1) (ht.2 u hu.1))

/-- What a timestamp lies behind is not the smallest one, which then need not be counted. -/
theorem isLargest_minValue_cons_iff {t u : Timestamp} {ts : List Timestamp} (h : u < t) :
    t.IsLargest (.minValue :: ts) ↔ t.IsLargest ts := by
  have hne : t ≠ .minValue := by
    rintro rfl
    exact lt_irrefl u (lt_of_lt_of_le h (minValue_le u))
  rw [IsLargest, IsLargest, List.mem_cons, List.forall_mem_cons]
  constructor
  · rintro ⟨hm, -, hle⟩
    exact ⟨hm.resolve_left hne, hle⟩
  · rintro ⟨hm, hle⟩
    exact ⟨Or.inr hm, minValue_le t, hle⟩

end Timestamp

namespace Watermarks

variable {w w' : Watermarks} {t hold : Timestamp} {o : Option Timestamp}

@[simp] theorem input_advance (w : Watermarks) (hold : Timestamp) :
    (w.advance hold).2.input = w.input := by
  unfold advance
  split <;> rfl

@[simp] theorem input_holdChanged (w : Watermarks) (hold : Timestamp) :
    (w.holdChanged hold).2.input = w.input := by
  unfold holdChanged
  split
  · exact input_advance ..
  · rfl

/-- An accepted watermark is the input watermark from then on. -/
theorem input_of_receive (h : w.receive t hold = (.ok o, w')) : w'.input = t := by
  unfold receive at h
  split at h
  · cases h
  · split at h
    · have moved := input_advance { w with input := t } hold
      cases h
      exact moved
    · cases h
      rfl

end Watermarks

namespace Processor

variable {p : Processor σ ι ν ο} {s : Signal ι ν}
  {r : Report (Processor σ ι ν ο) (Effect ι ο) ProcessingError Unit}

/-! ## Rejection of one signal -/

/-- Failures of the user function are no rejections. -/
theorem userCode_of_tryProcess {x : WindowedValue ι} {e : ProcessingError} {t : σ × AssertionSlot}
    {es : List (Effect ι ο)} (h : p.gate.tryProcess x (p.user, p.slot) = ⟨.error e, t, es⟩) :
    ∃ u, e = .userCode u := by
  obtain ⟨u, rfl, -⟩ := tryProcess_error h
  exact ⟨u, rfl⟩

/-- A sweep of the buffer fails only in user code. -/
theorem userCode_of_sweep {xs kept : List (WindowedValue ι)} {e : ProcessingError}
    {t t' : σ × AssertionSlot} {es : List (Effect ι ο)}
    (h : Pushback.sweep p.gate.tryProcess xs t = (kept, ⟨.error e, t', es⟩)) :
    ∃ u, e = .userCode u := by
  obtain ⟨-, -, -, u, -, -, rfl, -⟩ := (sweep_eq h).of_error rfl
  exact ⟨u, rfl⟩

namespace Step

/-- A rejected signal changes nothing and is not noticed outside. -/
theorem still_of_rejection (h : Step p s r) {e : ProcessingError} (hr : r.result = .error e)
    (he : e.isRejection = true) : r.state = p ∧ Effect.Silent r.effects := by
  cases h with
  | passed h => cases hr
  | failed h =>
      cases hr
      obtain ⟨u, rfl⟩ := userCode_of_tryProcess h
      cases he
  | regressed h => exact ⟨rfl, p.router.silent_traced _⟩
  | advanced ht h => cases hr
  | unknown hi => exact ⟨rfl, p.router.silent_traced _⟩
  | interrupted hi h =>
      cases hr
      obtain ⟨u, rfl⟩ := userCode_of_sweep h
      cases he
  | reevaluated hi h hw => cases hr
  | ignored => cases hr

/-- A processor that runs does not say that it is not running. -/
theorem result_ne_notRunning (h : Step p s r) : r.result ≠ .error .notRunning := by
  intro hr
  cases h with
  | failed h =>
      obtain ⟨u, rfl⟩ := userCode_of_tryProcess h
      cases hr
  | interrupted hi h =>
      obtain ⟨u, rfl⟩ := userCode_of_sweep h
      cases hr
  | _ => cases hr

/-- A side input is unknown exactly if its index is out of range. -/
theorem unknown_iff (h : Step p s r) (i n : Nat) :
    r.result = .error (.unknownSideInput i n) ↔
      n = p.sideInputs.count ∧ n ≤ i ∧ ∃ v, s = .sideInput i v := by
  cases h with
  | failed h =>
      obtain ⟨u, rfl⟩ := userCode_of_tryProcess h
      simp
  | @interrupted j v kept e t es hi h =>
      obtain ⟨u, rfl⟩ := userCode_of_sweep h
      simp
      omega
  | @unknown j v hi =>
      simp
      omega
  | @reevaluated j v kept t es o w hi h hw =>
      simp
      omega
  | _ => simp

/-- A watermark goes back exactly if it is below the input watermark. -/
theorem regressed_iff (h : Step p s r) (c t : Timestamp) :
    r.result = .error (.watermarkRegression c t) ↔
      s = .watermark t ∧ c = p.watermarks.input ∧ t < c := by
  cases h with
  | failed h =>
      obtain ⟨u, rfl⟩ := userCode_of_tryProcess h
      simp
  | interrupted hi h =>
      obtain ⟨u, rfl⟩ := userCode_of_sweep h
      simp
  | @regressed u h =>
      constructor
      · intro hr
        cases hr
        exact ⟨rfl, rfl, h⟩
      · rintro ⟨hs, rfl, -⟩
        cases hs
        rfl
  | @advanced u o w ht h =>
      constructor
      · intro hr
        cases hr
      · rintro ⟨hs, rfl, hlt⟩
        cases hs
        exact absurd hlt ht
  | _ => simp

end Step

/-- A signal is rejected for not running exactly if the processor does not run. -/
theorem handle_notRunning_iff (s : Signal ι ν) (p : Processor σ ι ν ο) :
    (handle s p).result = .error .notRunning ↔ ¬ p.isRunning = true := by
  by_cases h : p.isRunning = true
  · exact iff_of_false (handle_step h s).result_ne_notRunning (not_not_intro h)
  · rw [handle_of_not_running h]
    exact iff_of_true rfl h

/-- A running processor, and no other, finds a side input unknown. -/
theorem handle_unknown_iff (s : Signal ι ν) (p : Processor σ ι ν ο) (i n : Nat) :
    (handle s p).result = .error (.unknownSideInput i n) ↔
      p.isRunning = true ∧ n = p.sideInputs.count ∧ n ≤ i ∧ ∃ v, s = .sideInput i v := by
  by_cases h : p.isRunning = true
  · rw [(handle_step h s).unknown_iff, and_iff_right h]
  · rw [handle_of_not_running h]
    simp [h]

/-- A running processor, and no other, finds a watermark to go back. -/
theorem handle_regressed_iff (s : Signal ι ν) (p : Processor σ ι ν ο) (c t : Timestamp) :
    (handle s p).result = .error (.watermarkRegression c t) ↔
      p.isRunning = true ∧ s = .watermark t ∧ c = p.watermarks.input ∧ t < c := by
  by_cases h : p.isRunning = true
  · rw [(handle_step h s).regressed_iff, and_iff_right h]
  · rw [handle_of_not_running h]
    simp [h]

/-! ## Runs without their rejected signals -/

/-- A request is rejected exactly if it is a signal that fails before anything is done. -/
theorem isRejected_served_iff {r : Request ι ν} :
    (served r p).isRejected = true ↔
      ∃ s e, r = .handle s ∧ (handle s p).result = .error e ∧ e.isRejection = true := by
  cases r with
  | handle s =>
      simp only [served, serve, Served.isRejected]
      cases h : (handle s p).result <;> simp [h]
  | _ => simp [served, Served.isRejected]

/-- A rejected request leaves the processor as it is and shows nothing. -/
theorem serve_of_rejected {r : Request ι ν} (h : (served r p).isRejected = true) :
    (serve r p).state = p ∧ Effect.Silent (serve r p).effects := by
  obtain ⟨s, e, rfl, hr, he⟩ := isRejected_served_iff.1 h
  by_cases running : p.isRunning = true
  · exact (handle_step running s).still_of_rejection hr he
  · rw [serve, handle_of_not_running running]
    exact ⟨rfl, Effect.silent_notes []⟩

/-- Without the rejected signals a run is logged as before, and leads to the same processor. -/
theorem log_accepted (p : Processor σ ι ν ο) (requests : List (Request ι ν)) :
    p.log ((Served.accepted (p.log requests)).map Served.request) =
        Served.accepted (p.log requests) ∧
      p.serveAll ((Served.accepted (p.log requests)).map Served.request) =
        p.serveAll requests := by
  induction requests generalizing p with
  | nil => exact ⟨rfl, rfl⟩
  | cons r rest ih =>
      rw [log_cons, serveAll_cons]
      cases h : (served r p).isRejected with
      | true =>
          rw [Served.accepted, List.filter_cons_of_neg (by simp [h]), (serve_of_rejected h).1]
          exact ih p
      | false =>
          rw [Served.accepted, List.filter_cons_of_pos (by simp [h]), List.map_cons,
            request_served, log_cons, serveAll_cons]
          exact ⟨congrArg _ (ih _).1, (ih _).2⟩

/-- Rejected signals emit nothing and do not reach the user function. -/
theorem silent_of_rejected {requests : List (Request ι ν)} {e : Served ι ν ο}
    (h : e ∈ p.log requests) (he : e.isRejected = true) :
    e.emissions = [] ∧ e.invocations = [] := by
  induction requests generalizing p with
  | nil => cases h
  | cons r rest ih =>
      rcases List.mem_cons.1 h with rfl | h
      · have silent := (serve_of_rejected he).2
        exact ⟨silent.2, silent.1⟩
      · exact ih h

/-! ## What requests keep -/

namespace Step

/-- No signal changes which side inputs there are. -/
theorem specs_eq (h : Step p s r) : r.state.sideInputs.specs = p.sideInputs.specs := by
  cases h with
  | interrupted hi h => exact SideInputs.specs_writeAll ..
  | reevaluated hi h hw => exact SideInputs.specs_writeAll ..
  | _ => rfl

/-- The input watermark moves to a watermark that is accepted, and stays where it is otherwise. -/
theorem input_cases (h : Step p s r) :
    (∃ t, s = .watermark t ∧ r.result = .ok () ∧ p.watermarks.input ≤ t ∧
        r.state.watermarks.input = t) ∨
      (∀ t, s = .watermark t → r.result ≠ .ok ()) ∧
        r.state.watermarks.input = p.watermarks.input := by
  cases h with
  | @advanced t o w ht h =>
      exact Or.inl ⟨t, rfl, rfl, Timestamp.not_lt.1 ht, Watermarks.input_of_receive h⟩
  | @reevaluated i v kept t es o w hi h hw =>
      refine Or.inr ⟨fun t hs => (nomatch hs), ?_⟩
      have := p.watermarks.input_holdChanged (Pushback.ofElements kept).minTimestamp
      rwa [hw] at this
  | regressed h => exact Or.inr ⟨fun _ _ hr => (nomatch hr), rfl⟩
  | _ => exact Or.inr ⟨fun t hs => (nomatch hs), rfl⟩

end Step

namespace Performed

variable {c : Command ι ν}

/-- No command but a restore changes which side inputs there are. -/
theorem specs_eq (h : Performed p c r) (hc : ∀ bytes, c ≠ .restore bytes) :
    r.state.sideInputs.specs = p.sideInputs.specs := by
  cases h with
  | handled h step => exact step.specs_eq
  | restored ha => exact absurd rfl (hc _)
  | _ => rfl

/-- Only signals and restores move the input watermark. -/
theorem input_eq (h : Performed p c r) (hc : ∀ bytes, c ≠ .restore bytes)
    (hs : ∀ s, c ≠ .handle s) : r.state.watermarks.input = p.watermarks.input := by
  cases h with
  | handled h step => exact absurd rfl (hs _)
  | restored ha => exact absurd rfl (hc _)
  | _ => rfl

end Performed

theorem specs_serve (r : Request ι ν) (p : Processor σ ι ν ο) :
    (serve r p).state.sideInputs.specs = p.sideInputs.specs := by
  cases r with
  | setUp => exact (setup_performed p).specs_eq nofun
  | handle s => exact (handle_performed s p).specs_eq nofun
  | tearDown => exact (leave_performed p).specs_eq nofun
  | takeSlot => rfl

theorem specs_serveAll (p : Processor σ ι ν ο) (requests : List (Request ι ν)) :
    (p.serveAll requests).sideInputs.specs = p.sideInputs.specs := by
  induction requests using List.reverseRecOn with
  | nil => rfl
  | append_singleton requests r ih => rw [serveAll_concat, specs_serve, ih]

/-! ## The largest watermark accepted -/

/-- An accepted watermark is one that was handled without a failure. -/
theorem watermark?_served_eq_some_iff {r : Request ι ν} {t : Timestamp} :
    (served r p).watermark? = some t ↔
      r = .handle (.watermark t) ∧ (serve r p).result = .ok () := by
  simp only [served, Served.watermark?]
  split <;> simp_all

/-- An accepted watermark becomes the input watermark, and nothing else moves it. -/
theorem handle_input_cases (s : Signal ι ν) (p : Processor σ ι ν ο) :
    (∃ t, s = .watermark t ∧ (handle s p).result = .ok () ∧ p.watermarks.input ≤ t ∧
        (handle s p).state.watermarks.input = t) ∨
      (∀ t, s = .watermark t → (handle s p).result ≠ .ok ()) ∧
        (handle s p).state.watermarks.input = p.watermarks.input := by
  by_cases h : p.isRunning = true
  · exact (handle_step h s).input_cases
  · rw [handle_of_not_running h]
    exact Or.inr ⟨fun _ _ hr => (nomatch hr), rfl⟩

/-- A request raises the input watermark to the watermark it makes accepted, if there is one. -/
theorem input_serve (r : Request ι ν) (p : Processor σ ι ν ο) :
    (∃ t, (served r p).watermark? = some t ∧ p.watermarks.input ≤ t ∧
        (serve r p).state.watermarks.input = t) ∨
      (served r p).watermark? = none ∧
        (serve r p).state.watermarks.input = p.watermarks.input := by
  have none_of {r : Request ι ν} (h : ∀ t, r ≠ .handle (.watermark t)) :
      (served r p).watermark? = none :=
    Option.eq_none_iff_forall_ne_some.2 fun t ht => h t (watermark?_served_eq_some_iff.1 ht).1
  cases r with
  | setUp =>
      exact Or.inr ⟨none_of fun _ h => (nomatch h),
        (setup_performed p).input_eq nofun fun _ h => (nomatch h)⟩
  | tearDown =>
      exact Or.inr ⟨none_of fun _ h => (nomatch h),
        (leave_performed p).input_eq nofun fun _ h => (nomatch h)⟩
  | takeSlot => exact Or.inr ⟨none_of fun _ h => (nomatch h), rfl⟩
  | handle s =>
      obtain ⟨t, rfl, hr, hle, hi⟩ | ⟨hr, hi⟩ := handle_input_cases s p
      · exact Or.inl ⟨t, watermark?_served_eq_some_iff.2 ⟨rfl, hr⟩, hle, hi⟩
      · refine Or.inr ⟨Option.eq_none_iff_forall_ne_some.2 fun t ht => ?_, hi⟩
        obtain ⟨hs, ho⟩ := watermark?_served_eq_some_iff.1 ht
        cases hs
        exact hr t rfl ho

/-- The input watermark is the largest watermark accepted, if there was one. -/
theorem isLargest_input (h : p.watermarks.input = .minValue) (requests : List (Request ι ν)) :
    (p.serveAll requests).watermarks.input.IsLargest
      (.minValue :: Served.watermarks (p.log requests)) := by
  induction requests using List.reverseRecOn with
  | nil =>
      rw [serveAll_nil, h]
      exact ⟨List.mem_cons_self, List.forall_mem_singleton.2 (Timestamp.le_refl _)⟩
  | append_singleton requests r ih =>
      rw [serveAll_concat, log_concat, Served.watermarks_append]
      obtain ⟨t, ht, hle, hi⟩ | ⟨hn, hi⟩ := input_serve r (p.serveAll requests)
      · rw [hi, Served.watermarks_singleton, ht]
        exact ih.concat hle
      · rw [hi, Served.watermarks_singleton, hn]
        simpa using ih

/-- Before its first watermark, a processor knows nothing of event time. -/
theorem Made.input_eq (hp : p.Made) : p.watermarks.input = .minValue := by
  obtain ⟨config, function, user, slot, -, rfl⟩ := hp.exists_eq
  rfl

theorem Made.specs_eq (hp : p.Made) : p.sideInputs.specs = p.config.sideInputs := by
  obtain ⟨config, function, user, slot, -, rfl⟩ := hp.exists_eq
  rfl

/--
Deleting the rejected signals from a run of requests changes nothing else: the remaining requests
have the same results, emissions and calls of the user function, all of it in the same order, and
lead to the same processor. From the making of a processor on, a signal is rejected exactly if the
processor does not run, or its side input is not among those configured, or its watermark lies
behind the largest one accepted.
-/
theorem rejected_signals_are_no_ops (p : Processor σ ι ν ο) (requests : List (Request ι ν)) :
    let kept := (Served.accepted (p.log requests)).map Served.request
    let q := p.serveAll requests
    p.log kept = Served.accepted (p.log requests) ∧
    (p.log kept).flatMap Served.emissions = (p.log requests).flatMap Served.emissions ∧
    (p.log kept).flatMap Served.invocations = (p.log requests).flatMap Served.invocations ∧
    p.serveAll kept = q ∧
    (p.Made → ∀ s : Signal ι ν,
      ((handle s q).result = .error .notRunning ↔ ¬ q.isRunning = true) ∧
      (∀ i n, (handle s q).result = .error (.unknownSideInput i n) ↔
        q.isRunning = true ∧ n = p.config.sideInputs.length ∧ n ≤ i ∧ ∃ v, s = .sideInput i v) ∧
      (∀ c t, (handle s q).result = .error (.watermarkRegression c t) ↔
        q.isRunning = true ∧ s = .watermark t ∧
          c.IsLargest (Served.watermarks (p.log requests)) ∧ t < c)) := by
  intro kept q
  obtain ⟨logs, states⟩ := log_accepted p requests
  refine ⟨logs, ?_, ?_, states, ?_⟩
  · rw [logs]
    exact Served.flatMap_accepted fun e he hr => (silent_of_rejected he hr).1
  · rw [logs]
    exact Served.flatMap_accepted fun e he hr => (silent_of_rejected he hr).2
  · intro hp s
    refine ⟨handle_notRunning_iff s q, fun i n => ?_, fun c t => ?_⟩
    · have count : q.sideInputs.count = p.config.sideInputs.length := by
        rw [SideInputs.count, specs_serveAll, hp.specs_eq]
      rw [handle_unknown_iff, count]
    · have largest := isLargest_input hp.input_eq requests
      rw [handle_regressed_iff]
      refine and_congr_right fun _ => and_congr_right fun _ => and_congr_left fun hlt => ?_
      rw [← Timestamp.isLargest_minValue_cons_iff hlt]
      exact ⟨fun hc => hc ▸ largest, fun hc => hc.eq largest⟩

/-- Requests among which signals of each kind are rejected, some of them outside of its life. -/
def noisyRun : List (Request Nat Nat) :=
  [.handle (.watermark fiveMillis), .setUp, .handle (.sideInput 1 ⟨8, .zero, [.global]⟩),
    .handle (.watermark nineMillis), .handle (.element ⟨0, tenMillis, [hour]⟩),
    .handle (.watermark fiveMillis), .handle (.sideInput 2 ⟨9, .zero, [hour]⟩), .setUp,
    .handle (.sideInput 0 ⟨9, .zero, [hour]⟩), .handle (.watermark tenMillis), .tearDown,
    .handle (.element ⟨4, tenMillis, [hour]⟩)]

/-- The same requests without the rejected signals. -/
def quietRun : List (Request Nat Nat) :=
  [.setUp, .handle (.sideInput 1 ⟨8, .zero, [.global]⟩), .handle (.watermark nineMillis),
    .handle (.element ⟨0, tenMillis, [hour]⟩), .setUp, .handle (.sideInput 0 ⟨9, .zero, [hour]⟩),
    .handle (.watermark tenMillis), .tearDown]

/-- The processor that the requests are for. -/
def newcomer : Processor Unit Nat Nat Nat := initial twoSideInputs refusingZero ()

theorem rejected_signals_are_no_ops_noisyRun :
    newcomer.Made ∧ (Served.accepted (newcomer.log noisyRun)).map Served.request = quietRun ∧
      newcomer.log quietRun = Served.accepted (newcomer.log noisyRun) ∧
      (newcomer.log noisyRun).flatMap Served.emissions =
        [(.main, .watermark nineMillis), (.main, .data ⟨0, tenMillis, [hour]⟩),
          (.main, .watermark tenMillis)] ∧
      newcomer.serveAll quietRun = newcomer.serveAll noisyRun ∧
      nineMillis.IsLargest (Served.watermarks (newcomer.log (noisyRun.take 5))) ∧
      (handle (.watermark fiveMillis) (newcomer.serveAll (noisyRun.take 5))).result =
        .error (.watermarkRegression nineMillis fiveMillis) := by
  have made : newcomer.Made := made_initial (by decide) refusingZero ()
  have kept : (Served.accepted (newcomer.log noisyRun)).map Served.request = quietRun := rfl
  have accepted : Served.watermarks (newcomer.log (noisyRun.take 5)) = [nineMillis] := rfl
  have largest : nineMillis.IsLargest (Served.watermarks (newcomer.log (noisyRun.take 5))) := by
    rw [accepted]
    exact ⟨List.mem_singleton_self _, List.forall_mem_singleton.2 (Timestamp.le_refl _)⟩
  obtain ⟨logs, -, -, states, -⟩ := rejected_signals_are_no_ops newcomer noisyRun
  rw [kept] at logs states
  obtain ⟨-, -, -, -, rejections⟩ := rejected_signals_are_no_ops newcomer (noisyRun.take 5)
  obtain ⟨-, -, regressed⟩ := rejections made (.watermark fiveMillis)
  exact ⟨made, kept, logs, rfl, states, largest,
    (regressed nineMillis fiveMillis).2 ⟨rfl, rfl, largest, by decide⟩⟩

end Processor

end EventStream
