import EventStream.Proofs.Requests
import Mathlib.Data.List.Induction

/-!
# Assertions in the slot

A signal that fails with an assertion leaves the message in the slot, on every
path on which the failure of the user function comes out: at once, or while the
buffer is evaluated again. It stays there until another one takes its place or
the slot is emptied, so the slot holds the message of the last such signal since
then.

A set-up that fails with an assertion leaves nothing in the slot: its message is
only in the result.
-/

namespace EventStream

variable {σ ι ν ο : Type}

/-- The message of a failure that is an assertion of the user function. -/
def ProcessingError.assertion? : ProcessingError → Option String
  | userCode (.assertion reason) => some reason
  | _ => none

/-- The message of an assertion that a call failed with. -/
def failedAssertion? {α : Type} : Except ProcessingError α → Option String
  | .error e => e.assertion?
  | .ok _ => none

/-- Recording a failure replaces the slot where it is an assertion and keeps it otherwise. -/
theorem AssertionSlot.record_eq (slot : AssertionSlot) (e : UserError) :
    slot.record e = (ProcessingError.userCode e).assertion?.or slot := by
  cases e <;> rfl

/-! ## The slot after an element and after a sweep -/

namespace Gate

/-- A trial writes the slot just when it fails with an assertion. -/
theorem slot_tryProcess (g : Gate σ ι ν ο) (x : WindowedValue ι) (t : σ × AssertionSlot) :
    (g.tryProcess x t).state.2 = (failedAssertion? (g.tryProcess x t).result).or t.2 := by
  obtain ⟨s, slot⟩ := t
  simp only [tryProcess]
  cases g.process x s with
  | mk result s' es =>
      cases result with
      | ok back => rfl
      | error e => exact slot.record_eq e

/-- A sweep writes the assertion it fails with, as it stops at the first failure. -/
theorem slot_sweep (g : Gate σ ι ν ο) (xs : List (WindowedValue ι)) (t : σ × AssertionSlot) :
    (Pushback.sweep g.tryProcess xs t).2.state.2 =
      (failedAssertion? (Pushback.sweep g.tryProcess xs t).2.result).or t.2 := by
  induction xs generalizing t with
  | nil => rfl
  | cons x xs ih =>
      have hx := g.slot_tryProcess x t
      rw [Pushback.sweep]
      cases h : g.tryProcess x t with
      | mk result t' es =>
          rw [h] at hx
          cases result with
          | error e => exact hx
          | ok back =>
              have unchanged : t'.2 = t.2 := hx
              rw [← unchanged]
              exact ih t'

end Gate

namespace Processor

variable {p : Processor σ ι ν ο} {s : Signal ι ν}
  {r : Report (Processor σ ι ν ο) (Effect ι ο) ProcessingError Unit}

/-- A signal leaves an assertion it fails with in the slot and leaves the slot alone otherwise. -/
theorem Step.slot_eq (h : Step p s r) : r.state.slot = (failedAssertion? r.result).or p.slot := by
  cases h with
  | @passed x back t es h =>
      have := p.gate.slot_tryProcess x (p.user, p.slot)
      rwa [h] at this
  | @failed x e t es h =>
      have := p.gate.slot_tryProcess x (p.user, p.slot)
      rwa [h] at this
  | @interrupted i v kept e t es hi h =>
      have := (p.store i v).gate.slot_sweep p.pushback.elements (p.user, p.slot)
      rwa [h] at this
  | @reevaluated i v kept t es o w hi h hw =>
      have := (p.store i v).gate.slot_sweep p.pushback.elements (p.user, p.slot)
      rwa [h] at this
  | _ => rfl

/-- A signal writes the assertion it fails with, whatever kind of signal it is. -/
theorem slot_handle (s : Signal ι ν) (p : Processor σ ι ν ο) :
    (handle s p).state.slot = (failedAssertion? (handle s p).result).or p.slot := by
  by_cases h : p.isRunning = true
  · exact (handle_step h s).slot_eq
  · rw [handle_of_not_running h]
    rfl

/-- Setting up never writes the slot, also where it fails with an assertion. -/
theorem Performed.slot_eq_of_setUp (h : Performed p .setUp r) : r.state.slot = p.slot := by
  cases h <;> rfl

/-- Tearing down succeeds and never writes the slot. -/
theorem Performed.slot_eq_of_tearDown (h : Performed p .tearDown r) :
    r.state.slot = p.slot ∧ r.result = .ok () := by
  cases h <;> exact ⟨rfl, rfl⟩

end Processor

/-! ## The last assertion of a log -/

namespace Served

/-- Whether a request is to empty the slot. -/
def isTake (e : Served ι ν ο) : Bool :=
  match e.request with
  | .takeSlot => true
  | _ => false

/-- Whether a request is to set the processor up. -/
def isSetUp (e : Served ι ν ο) : Bool :=
  match e.request with
  | .setUp => true
  | _ => false

theorem isTake_of_isSetUp {e : Served ι ν ο} (h : e.isSetUp = true) : e.isTake = false := by
  obtain ⟨request, result, emissions, invocations⟩ := e
  cases request with
  | setUp => rfl
  | _ => cases h

/-- The message of the last request since the slot was emptied that failed with an assertion. -/
def lastAssertion (log : List (Served ι ν ο)) : Option String :=
  (log.reverse.takeWhile fun e => !e.isTake).findSome? fun e => failedAssertion? e.result

variable {e : Served ι ν ο}

/-- Taking the assertion leaves none behind. -/
theorem lastAssertion_concat_take (log : List (Served ι ν ο)) (he : e.isTake = true) :
    lastAssertion (log ++ [e]) = none := by
  simp [lastAssertion, he]

/-- A request other than taking adds the assertion it fails with, if any. -/
theorem lastAssertion_concat (log : List (Served ι ν ο)) (he : e.isTake = false) :
    lastAssertion (log ++ [e]) = (failedAssertion? e.result).or (lastAssertion log) := by
  rw [lastAssertion, List.reverse_append]
  simp only [List.reverse_singleton, List.singleton_append, List.takeWhile_cons, he,
    Bool.not_false, if_true, List.findSome?_cons]
  cases failedAssertion? e.result <;> rfl

/-- Set-ups that fail with no assertion do not matter for the last assertion. -/
theorem lastAssertion_filter {log : List (Served ι ν ο)}
    (h : ∀ e ∈ log, e.isSetUp = true → failedAssertion? e.result = none) :
    lastAssertion (log.filter fun e => !e.isSetUp) = lastAssertion log := by
  induction log using List.reverseRecOn with
  | nil => rfl
  | append_singleton log e ih =>
      rw [List.forall_mem_append, List.forall_mem_singleton] at h
      have ih := ih h.1
      rw [List.filter_append]
      cases hs : e.isSetUp with
      | true =>
          rw [List.filter_cons_of_neg (by simp [hs]), List.filter_nil, List.append_nil, ih,
            lastAssertion_concat log (isTake_of_isSetUp hs), h.2 hs, Option.none_or]
      | false =>
          rw [List.filter_cons_of_pos (by simp [hs]), List.filter_nil]
          cases ht : e.isTake with
          | true => rw [lastAssertion_concat_take _ ht, lastAssertion_concat_take _ ht]
          | false => rw [lastAssertion_concat _ ht, lastAssertion_concat _ ht, ih]

end Served

namespace Processor

variable {p : Processor σ ι ν ο}

/-- The slot after a request. -/
theorem slot_serve (r : Request ι ν) (p : Processor σ ι ν ο) :
    (serve r p).state.slot =
      match r with
      | .setUp => p.slot
      | .takeSlot => none
      | .handle _ | .tearDown => (failedAssertion? (serve r p).result).or p.slot := by
  cases r with
  | setUp => exact (setup_performed p).slot_eq_of_setUp
  | handle s => exact slot_handle s p
  | tearDown =>
      obtain ⟨hs, hr⟩ := (leave_performed p).slot_eq_of_tearDown
      simp only [serve, hs, hr]
      rfl
  | takeSlot => rfl

theorem slot_serve_of_no_assertion {r : Request ι ν} (hr : r ≠ .takeSlot)
    (ha : failedAssertion? (serve r p).result = none) : (serve r p).state.slot = p.slot := by
  rw [slot_serve]
  cases r with
  | setUp => rfl
  | handle s => simp only [ha, Option.none_or]
  | tearDown => simp only [ha, Option.none_or]
  | takeSlot => exact absurd rfl hr

/--
The slot is the last assertion that requests other than setting up left there since it was taken.
-/
theorem slot_serveAll (hp : p.slot = none) (requests : List (Request ι ν)) :
    (p.serveAll requests).slot =
      Served.lastAssertion ((p.log requests).filter fun e => !e.isSetUp) := by
  induction requests using List.reverseRecOn with
  | nil => exact hp
  | append_singleton requests r ih =>
      rw [serveAll_concat, log_concat, List.filter_append, slot_serve]
      cases r with
      | setUp => exact ih.trans (congrArg _ (List.append_nil _).symm)
      | handle s =>
          have keeps : (served (.handle s) (p.serveAll requests)).isTake = false := rfl
          exact (congrArg _ ih).trans (Served.lastAssertion_concat _ keeps).symm
      | tearDown =>
          have keeps : (served .tearDown (p.serveAll requests)).isTake = false := rfl
          exact (congrArg _ ih).trans (Served.lastAssertion_concat _ keeps).symm
      | takeSlot => exact (Served.lastAssertion_concat_take _ rfl).symm

/--
A slot that is empty at first holds, at any time, the message of the last request since it was
emptied that failed with an assertion, set-ups left aside. Requests that do not fail so leave it
alone. If no set-up fails with an assertion, there is nothing to leave aside.
-/
theorem slot_holds_last_assertion (p : Processor σ ι ν ο) (hp : p.slot = none)
    (requests : List (Request ι ν)) :
    (p.serveAll requests).slot =
        Served.lastAssertion ((p.log requests).filter fun e => !e.isSetUp) ∧
      (∀ r, r ≠ .takeSlot → failedAssertion? (serve r (p.serveAll requests)).result = none →
        (serve r (p.serveAll requests)).state.slot = (p.serveAll requests).slot) ∧
      ((∀ e ∈ p.log requests, e.isSetUp = true → failedAssertion? e.result = none) →
        (p.serveAll requests).slot = Served.lastAssertion (p.log requests)) := by
  refine ⟨slot_serveAll hp requests, fun r hr ha => slot_serve_of_no_assertion hr ha, fun h => ?_⟩
  rw [slot_serveAll hp, Served.lastAssertion_filter h]

/-- The user function that objects to its first set-up, to a four, and to a bundle with a five. -/
def objecting : UserFunction Nat Nat Nat Nat where
  setup n := if n = 0 then (.error (.assertion "not ready"), 1) else (.ok (), n)
  processElement cx _ :=
    ⟨[], if cx.element.value = 4 then .error (.assertion "four") else .ok (), cx.element.value⟩
  finishBundle n := if n = 5 then (.error (.assertion "five"), n) else (.ok (), n)

/-- A processor with an empty slot of its own. -/
def objector : Processor Nat Nat Nat Nat := initial twoSideInputs objecting 0

/-- Requests with assertions in a set-up, while the buffer is evaluated again, and in a bundle. -/
def objections : List (Request Nat Nat) :=
  [.setUp, .setUp, .handle (.element ⟨5, .zero, [hour]⟩),
    .handle (.sideInput 1 ⟨8, .zero, [.global]⟩), .handle (.sideInput 0 ⟨9, .zero, [hour]⟩),
    .tearDown, .handle (.element ⟨6, .zero, [hour]⟩), .takeSlot]

theorem slot_holds_last_assertion_objections :
    objector.slot = none ∧
      (objector.serveAll (objections.take 4)).slot = none ∧
      Served.lastAssertion ((objector.log (objections.take 7)).filter fun e => !e.isSetUp) =
        some "five" ∧
      (objector.serveAll (objections.take 7)).slot = some "five" ∧
      (objector.serveAll objections).slot = none := by
  have last : Served.lastAssertion ((objector.log (objections.take 7)).filter fun e => !e.isSetUp) =
      some "five" := rfl
  refine ⟨rfl, ?_, last, ?_, ?_⟩
  · exact (slot_holds_last_assertion objector rfl (objections.take 4)).1
  · exact (slot_holds_last_assertion objector rfl (objections.take 7)).1.trans last
  · exact (slot_holds_last_assertion objector rfl objections).1

/-- A set-up that fails with an assertion leaves the slot empty. -/
theorem slot_misses_set_up :
    ¬ ∀ (p : Processor Nat Nat Nat Nat) (requests : List (Request Nat Nat)), p.Made →
      p.slot = none → (p.serveAll requests).slot = Served.lastAssertion (p.log requests) := by
  intro h
  have made : objector.Made := made_initial (by decide) objecting 0
  have lost : (none : AssertionSlot) = some "not ready" := h objector [.setUp] made rfl
  cases lost

end Processor

end EventStream
