import EventStream.Proofs.Occurrence
import EventStream.Proofs.Readiness
import Mathlib.Data.List.Perm.Basic

/-!
# The journal of a run

A journal follows a run and says of every occurrence where it is. It lists the
elements taken to the gate, and which of the occurrences they stand for were
handed over, were given back to wait, or were neither.

## Implementation notes

Equal elements may wait at the same time, so the journal never compares them. A
call at the gate carries the occurrences it is made for, and the number of
elements it handed over tells how far it came among those that were ready.
-/

namespace EventStream

variable {σ ι ν ο : Type}

open Occurrence
open scoped List

/-- An element taken to the gate, with the occurrences it stands for. -/
structure GateCall (σ ι ν ο : Type) where
  gate : Gate σ ι ν ο
  start : σ × AssertionSlot
  element : WindowedValue ι
  subjects : List (Occurrence ι)

namespace GateCall

/-- What a call at the gate came to. -/
def report (c : GateCall σ ι ν ο) :
    Report (σ × AssertionSlot) (Effect ι ο) ProcessingError (List (WindowedValue ι)) :=
  c.gate.tryProcess c.element c.start

/-- Whether a call at the gate answered an error. -/
def Failed (c : GateCall σ ι ν ο) : Prop := ∃ e, c.report.result = .error e

/-- The subjects whose windows are ready at the gate. -/
def ready (c : GateCall σ ι ν ο) : List (Occurrence ι) :=
  c.subjects.filter fun o => c.gate.sideInputs.allReady o.window

/-- The subjects whose windows are not ready at the gate. -/
def blocked (c : GateCall σ ι ν ο) : List (Occurrence ι) :=
  c.subjects.filter fun o => !c.gate.sideInputs.allReady o.window

/-- How many elements a call handed to the user function. -/
def reach (c : GateCall σ ι ν ο) : Nat := (Effect.handedOver c.report.effects).length

/-- The subjects handed to the user function: the ready ones, as far as the call came. -/
def handed (c : GateCall σ ι ν ο) : List (Occurrence ι) := c.ready.take c.reach

/-- The subjects given back to wait, none if the call failed. -/
def returned (c : GateCall σ ι ν ο) : List (Occurrence ι) :=
  match c.report.result with
  | .ok _ => c.blocked
  | .error _ => []

/-- The subjects that were neither handed over nor given back. -/
def lost (c : GateCall σ ι ν ο) : List (Occurrence ι) :=
  c.ready.drop c.reach ++
    match c.report.result with
    | .ok _ => []
    | .error _ => c.blocked

/-- The subjects of a call are the windows of its element. -/
def Covers (c : GateCall σ ι ν ο) : Prop :=
  c.subjects.map call = c.element.windows.map fun w => (c.element.inWindow w, w)

variable {c : GateCall σ ι ν ο}

/-- What a call of the gate reports is a trial of its element. -/
theorem trial (c : GateCall σ ι ν ο) :
    c.gate.Trial c.element c.report.result c.report.effects :=
  c.gate.tryProcess_trial c.element c.start

/-- The ready subjects are the calls that the gate makes for the element. -/
theorem Covers.map_call_ready (hc : c.Covers) :
    c.ready.map call = c.gate.readyCalls c.element c.element.windows := by
  have h := congrArg (List.filter fun e => c.gate.sideInputs.allReady e.2) hc
  rw [List.filter_map, List.filter_map] at h
  exact h

/-- The blocked subjects are the copies that the gate gives back. -/
theorem Covers.map_single_blocked (hc : c.Covers) :
    c.blocked.map single = c.gate.blockedPart c.element c.element.windows := by
  have h := congrArg (List.filter fun e => !c.gate.sideInputs.allReady e.2) hc
  rw [List.filter_map, List.filter_map] at h
  have := congrArg (List.map Prod.fst) h
  rw [List.map_map, List.map_map] at this
  exact this

/-- The occurrences handed over are the ones the user function was called with, in order. -/
theorem Covers.map_call_handed (hc : c.Covers) :
    c.handed.map call = Effect.handedOver c.report.effects := by
  rw [handed, List.map_take, hc.map_call_ready]
  exact (List.prefix_iff_eq_take.1 c.trial.prefix_readyCalls).symm

/-- What a successful call gives back are its returned subjects, and none is lost. -/
theorem Covers.of_ok (hc : c.Covers) {back : List (WindowedValue ι)}
    (h : c.report.result = .ok back) : back = c.returned.map single ∧ c.lost = [] := by
  have ht := c.trial
  rw [h] at ht
  obtain ⟨rfl, hh⟩ := ht.of_ok.of_ok rfl
  have hr : c.reach = c.ready.length := by
    rw [reach, hh, ← hc.map_call_ready, List.length_map]
  constructor
  · rw [returned, h, hc.map_single_blocked]
  · rw [lost, h, hr, List.drop_length]
    rfl

/-- Only a call that fails loses an occurrence. -/
theorem Covers.failed_of_mem_lost (hc : c.Covers) {o : Occurrence ι} (ho : o ∈ c.lost) :
    c.Failed := by
  cases h : c.report.result with
  | error e => exact ⟨e, h⟩
  | ok back =>
      rw [(hc.of_ok h).2] at ho
      cases ho

/-- Every subject of a call is given back, handed over or lost, and only one of these. -/
theorem outcomes_perm (c : GateCall σ ι ν ο) :
    (c.returned ++ (c.handed ++ c.lost)).Perm c.subjects := by
  have hs : (c.ready ++ c.blocked).Perm c.subjects := List.filter_append_perm _ _
  have ht : c.handed ++ c.ready.drop c.reach = c.ready := List.take_append_drop _ _
  rw [returned, lost]
  cases c.report.result with
  | ok back =>
      rw [List.append_nil, ht]
      exact List.perm_append_comm.trans hs
  | error e =>
      rw [List.nil_append, ← List.append_assoc, ht]
      exact hs

theorem lost_subset (c : GateCall σ ι ν ο) : c.lost ⊆ c.subjects := by
  intro o ho
  apply c.outcomes_perm.subset
  exact List.mem_append_right _ (List.mem_append_right _ ho)

theorem returned_sublist (c : GateCall σ ι ν ο) : c.returned.Sublist c.subjects := by
  rw [returned]
  cases c.report.result with
  | ok back => exact List.filter_sublist
  | error e => exact List.nil_sublist _

theorem flatMap_returned_sublist (cs : List (GateCall σ ι ν ο)) :
    (cs.flatMap returned).Sublist (cs.flatMap subjects) := by
  induction cs with
  | nil => exact List.Sublist.refl _
  | cons c cs ih =>
      rw [List.flatMap_cons, List.flatMap_cons]
      exact c.returned_sublist.append ih

/-- What became of the subjects of several calls. -/
theorem flatMap_outcomes_perm (cs : List (GateCall σ ι ν ο)) :
    cs.flatMap returned ++ (cs.flatMap handed ++ cs.flatMap lost) ~ cs.flatMap subjects :=
  calc
    cs.flatMap returned ++ (cs.flatMap handed ++ cs.flatMap lost)
    _ ~ cs.flatMap returned ++ cs.flatMap fun c => c.handed ++ c.lost :=
      (List.flatMap_append_perm cs handed lost).append_left _
    _ ~ cs.flatMap fun c => c.returned ++ (c.handed ++ c.lost) :=
      List.flatMap_append_perm cs returned _
    _ ~ cs.flatMap subjects := List.Perm.flatMap_left cs fun c _ => c.outcomes_perm

end GateCall

/-! ## The calls of one signal -/

/--
The calls made to evaluate elements that wait, one for each of them in order, up to the first one
that fails.
-/
def revisit (g : Gate σ ι ν ο) : List (Occurrence ι) → σ × AssertionSlot → List (GateCall σ ι ν ο)
  | [], _ => []
  | o :: os, t =>
    let c : GateCall σ ι ν ο := ⟨g, t, o.single, [o]⟩
    match c.report.result with
    | .ok _ => c :: revisit g os c.report.state
    | .error _ => [c]

section Revisit
variable {g : Gate σ ι ν ο} {os : List (Occurrence ι)} {t : σ × AssertionSlot}
  {c : GateCall σ ι ν ο}

/-- Going through the buffer calls the gate for one occurrence at a time. -/
theorem mem_revisit (h : c ∈ revisit g os t) :
    ∃ o ∈ os, c.gate = g ∧ c.element = o.single ∧ c.subjects = [o] := by
  induction os generalizing t with
  | nil => cases h
  | cons o os ih =>
      simp only [revisit] at h
      split at h
      · rcases List.mem_cons.1 h with rfl | h
        · exact ⟨o, List.mem_cons_self, rfl, rfl, rfl⟩
        · obtain ⟨o', ho', hc⟩ := ih h
          exact ⟨o', List.mem_cons_of_mem _ ho', hc⟩
      · cases List.mem_singleton.1 h
        exact ⟨o, List.mem_cons_self, rfl, rfl, rfl⟩

theorem covers_of_mem_revisit (h : c ∈ revisit g os t) : c.Covers := by
  obtain ⟨o, -, -, he, hs⟩ := mem_revisit h
  rw [GateCall.Covers, he, hs]
  rfl

/-- The elements evaluated and those not come to in the end are all that waited. -/
theorem flatMap_subjects_revisit (g : Gate σ ι ν ο) (os : List (Occurrence ι))
    (t : σ × AssertionSlot) :
    (revisit g os t).flatMap GateCall.subjects ++ os.drop (revisit g os t).length = os := by
  induction os generalizing t with
  | nil => rfl
  | cons o os ih =>
      simp only [revisit]
      split
      · rw [List.flatMap_cons, List.length_cons, List.drop_succ_cons, List.append_assoc, ih]
        rfl
      · rfl

/-- Only the last evaluation can be one that failed. -/
theorem getLast?_revisit (h : c ∈ revisit g os t) (hf : c.Failed) :
    (revisit g os t).getLast? = some c := by
  induction os generalizing t with
  | nil => cases h
  | cons o os ih =>
      simp only [revisit] at h ⊢
      split at h
      · rename_i back hb
        rcases List.mem_cons.1 h with rfl | h
        · obtain ⟨e, he⟩ := hf
          rw [hb] at he
          cases he
        · rw [List.getLast?_cons, ih h]
          rfl
      · cases List.mem_singleton.1 h
        rfl

/-- The evaluation of the buffer is the evaluation of the occurrences it stands for. -/
theorem sweep_revisit (g : Gate σ ι ν ο) (os : List (Occurrence ι)) (t : σ × AssertionSlot) :
    (Pushback.sweep g.tryProcess (os.map single) t).1 =
        ((revisit g os t).flatMap GateCall.returned ++
          os.drop (revisit g os t).length).map single ∧
      (Pushback.sweep g.tryProcess (os.map single) t).2.effects =
        (revisit g os t).flatMap fun c => c.report.effects := by
  induction os generalizing t with
  | nil => exact ⟨rfl, rfl⟩
  | cons o os ih =>
      have covers : (⟨g, t, o.single, [o]⟩ : GateCall σ ι ν ο).Covers := rfl
      simp only [revisit, List.map_cons, Pushback.sweep]
      cases hr : g.tryProcess o.single t with
      | mk result t' es =>
          cases result with
          | error e =>
              simp [GateCall.report, GateCall.returned, hr]
          | ok back =>
              obtain ⟨rfl, -⟩ := covers.of_ok (congrArg Report.result hr)
              obtain ⟨hk, he⟩ := ih t'
              simp [GateCall.report, hr, hk, he]

/-- An evaluation of the buffer that fails does so in the last call made. -/
theorem failed_of_sweep_eq_error {e : ProcessingError}
    (h : (Pushback.sweep g.tryProcess (os.map single) t).2.result = .error e) :
    ∃ c, (revisit g os t).getLast? = some c ∧ c.report.result = .error e := by
  induction os generalizing t with
  | nil => cases h
  | cons o os ih =>
      simp only [List.map_cons, Pushback.sweep] at h
      simp only [revisit]
      cases hr : g.tryProcess o.single t with
      | mk result t' es =>
          rw [hr] at h
          cases result with
          | error e' =>
              have he : Except.error e' = .error e := h
              cases he
              simp only [GateCall.report, hr]
              exact ⟨_, rfl, congrArg Report.result hr⟩
          | ok back =>
              obtain ⟨c, hc, he⟩ := ih h
              simp only [GateCall.report, hr]
              refine ⟨c, ?_, he⟩
              rw [List.getLast?_cons, hc]
              rfl

/-- Whoever waits after an evaluation waited before it, in the same order. -/
theorem stillWaiting_sublist (g : Gate σ ι ν ο) (os : List (Occurrence ι))
    (t : σ × AssertionSlot) :
    ((revisit g os t).flatMap GateCall.returned ++
      os.drop (revisit g os t).length).Sublist os := by
  conv_rhs => rw [← flatMap_subjects_revisit g os t]
  exact (GateCall.flatMap_returned_sublist _).append_right _

end Revisit

namespace Processor

/-- The calls at the gate that a signal leads to, with the occurrences that wait at hand. -/
def gateCalls (p : Processor σ ι ν ο) (waiting : List (Occurrence ι)) (n : Nat) :
    Signal ι ν → List (GateCall σ ι ν ο)
  | .element x => [⟨p.gate, (p.user, p.slot), x, ofElement n x⟩]
  | .sideInput i v =>
    if i < p.sideInputs.count then revisit (p.store i v).gate waiting (p.user, p.slot) else []
  | _ => []

/-- The occurrences that wait after a signal: a side input has all of them evaluated again. -/
def stillWaiting (p : Processor σ ι ν ο) (waiting : List (Occurrence ι)) (n : Nat)
    (s : Signal ι ν) : List (Occurrence ι) :=
  let calls := p.gateCalls waiting n s
  match s with
  | .sideInput _ _ => calls.flatMap GateCall.returned ++ waiting.drop calls.length
  | _ => waiting ++ calls.flatMap GateCall.returned

section Signal
variable (p : Processor σ ι ν ο) (waiting : List (Occurrence ι)) (n : Nat)

/-- The calls that a signal causes, for the buffer or for its element, cover their subjects. -/
theorem covers_of_mem_gateCalls {s : Signal ι ν} {c : GateCall σ ι ν ο}
    (h : c ∈ p.gateCalls waiting n s) : c.Covers := by
  cases s with
  | element x =>
      cases List.mem_singleton.1 h
      exact map_call_ofElement n x
  | sideInput i v =>
      simp only [gateCalls] at h
      split at h
      · exact covers_of_mem_revisit h
      · cases h
  | _ => cases h

/-- A signal brings occurrences in, and none gets out but by a call at the gate. -/
theorem stillWaiting_perm (s : Signal ι ν) :
    p.stillWaiting waiting n s ++ ((p.gateCalls waiting n s).flatMap GateCall.handed ++
      (p.gateCalls waiting n s).flatMap GateCall.lost) ~ waiting ++ ofSignal s n := by
  have outcomes := GateCall.flatMap_outcomes_perm (p.gateCalls waiting n s)
  have appended (hs : (p.gateCalls waiting n s).flatMap GateCall.subjects = ofSignal s n)
      (hw : p.stillWaiting waiting n s =
        waiting ++ (p.gateCalls waiting n s).flatMap GateCall.returned) :
      p.stillWaiting waiting n s ++ ((p.gateCalls waiting n s).flatMap GateCall.handed ++
        (p.gateCalls waiting n s).flatMap GateCall.lost) ~ waiting ++ ofSignal s n := by
    rw [hw, List.append_assoc, ← hs]
    exact outcomes.append_left waiting
  cases s with
  | element x => exact appended (List.append_nil _) rfl
  | watermark t => exact appended rfl rfl
  | sideInputWatermark t => exact appended rfl rfl
  | sideInput i v =>
      have hs : (p.gateCalls waiting n (.sideInput i v)).flatMap GateCall.subjects ++
          waiting.drop (p.gateCalls waiting n (.sideInput i v)).length = waiting := by
        simp only [gateCalls]
        split
        · exact flatMap_subjects_revisit ..
        · rfl
      change (_ ++ waiting.drop _) ++ _ ~ waiting ++ []
      rw [List.append_nil]
      conv_rhs => rw [← hs]
      calc
        _ ~ (p.gateCalls waiting n (.sideInput i v)).flatMap GateCall.returned ++
            ((p.gateCalls waiting n (.sideInput i v)).flatMap GateCall.handed ++
              (p.gateCalls waiting n (.sideInput i v)).flatMap GateCall.lost) ++
            waiting.drop (p.gateCalls waiting n (.sideInput i v)).length := by
          rw [List.append_assoc, List.append_assoc]
          exact List.perm_append_comm.append_left _
        _ ~ _ := outcomes.append_right _

end Signal

end Processor

end EventStream
