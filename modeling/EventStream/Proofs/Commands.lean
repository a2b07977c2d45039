import EventStream.Proofs.Lifecycle
import EventStream.Proofs.Restoring

/-!
# Runs of calls

Besides signals a processor takes four kinds of calls: it is set up, torn down,
asked for a snapshot, and restored from one. They come in any order, and a call
that fails ends nothing but itself.

What a call can come to is listed once, like the ways to handle a signal, and
every later statement about calls is a case distinction on the list.
-/

namespace EventStream

open Cbor

/-- A call on a processor from outside. -/
inductive Command (ι ν : Type) where
  | setUp
  | tearDown
  | handle (signal : Signal ι ν)
  | takeSnapshot
  | restore (bytes : Bytes)

variable {σ ι ν ο : Type}

namespace Processor

/--
A processor that was made from an accepted configuration and may have been given another slot,
before its first call.
-/
def Made (p : Processor σ ι ν ο) : Prop :=
  ∃ config function user slot q, make? config function user = .ok q ∧ p = { q with slot := slot }

/-- A processor that was just made has the state its configuration gives it. -/
theorem Made.exists_eq {p : Processor σ ι ν ο} (h : p.Made) :
    ∃ config function user slot, config.validate = .ok () ∧
      p = { initial config function user with slot := slot } := by
  obtain ⟨config, function, user, slot, q, hq, rfl⟩ := h
  obtain ⟨hv, rfl⟩ := make?_eq_ok_iff.1 hq
  exact ⟨config, function, user, slot, hv, rfl⟩

/-- A valid configuration makes a processor. -/
theorem made_initial {config : Config} (hc : config.validate = .ok ())
    (function : UserFunction σ ι ν ο) (user : σ) : (initial config function user).Made :=
  ⟨config, function, user, none, _, make?_eq_ok_iff.2 ⟨hc, rfl⟩, rfl⟩

/-! ## Runs -/

variable [ToCbor ι] [FromCbor ι] [ToCbor ν] [FromCbor ν]

/-- Carries a command out. Of a snapshot only the outcome is answered here. -/
def perform : Command ι ν → Call σ ι ν ο Unit
  | .setUp => setup
  | .tearDown => leave
  | .handle s => handle s
  | .takeSnapshot => fun p => ⟨p.snapshot.map fun _ => (), p, []⟩
  | .restore bytes => restore bytes

/-- What a command can come to, with everything it leaves behind. -/
inductive Performed (p : Processor σ ι ν ο) :
    Command ι ν → Report (Processor σ ι ν ο) (Effect ι ο) ProcessingError Unit → Prop
  | setUp (h : p.lifecycle = .created) (user) :
      Performed p .setUp
        ⟨.ok (), { p with user := user, lifecycle := .running },
          [.call (.setup (.ok ())),
            .note (.setUp p.config.sideInputs.length p.config.sideOutputs.length)]⟩
  | setUpFailed (h : p.lifecycle = .created) (user e) :
      Performed p .setUp
        ⟨.error (.userCode e), { p with user := user }, [.call (.setup (.error e))]⟩
  | setUpRefused (h : p.lifecycle ≠ .created) :
      Performed p .setUp ⟨.error .alreadySetUp, p, []⟩
  | tornDown (h : p.lifecycle = .running) :
      Performed p .tearDown
        ⟨.ok (), { p with user := p.function.teardown p.user, lifecycle := .tornDown },
          [.call .teardown, .note (.tornDown p.pushback.length)]⟩
  | notTornDown (h : p.lifecycle ≠ .running) :
      Performed p .tearDown ⟨.ok (), { p with lifecycle := .tornDown }, []⟩
  | handled {s r} (h : p.lifecycle = .running) (step : Step p s r) : Performed p (.handle s) r
  | notHandled {s} (h : p.lifecycle ≠ .running) :
      Performed p (.handle s) ⟨.error .notRunning, p, []⟩
  | snapshotTaken {result} : Performed p .takeSnapshot ⟨result, p, []⟩
  | restored {bytes t} (h : p.Accepts t) :
      Performed p (.restore bytes)
        ⟨.ok (), p.takeOver t,
          [.note (.restored t.pushedBack.length (p.takeOver t).watermarks.output)]⟩
  | notRestored {bytes e} : Performed p (.restore bytes) ⟨.error e, p, []⟩

section Single
variable {p : Processor σ ι ν ο}

omit [ToCbor ι] [FromCbor ι] [ToCbor ν] [FromCbor ν]

theorem isRunning_iff : p.isRunning = true ↔ p.lifecycle = .running := beq_iff_eq

/-- A processor is set up once; later attempts are refused and change nothing. -/
theorem setup_of_ne (h : p.lifecycle ≠ .created) : setup p = ⟨.error .alreadySetUp, p, []⟩ := by
  unfold setup
  split
  · rename_i hc
    exact absurd hc h
  · rfl

/-- A setup succeeds, fails in user code, or is refused. -/
theorem setup_performed (p : Processor σ ι ν ο) : Performed p .setUp (setup p) := by
  by_cases hc : p.lifecycle = .created
  · obtain ⟨user, hs, -⟩ | ⟨e, user, hs, -⟩ := enter_of_created hc
    · rw [hs]
      exact Performed.setUp hc user
    · rw [hs]
      exact Performed.setUpFailed hc user e
  · rw [setup_of_ne hc]
    exact Performed.setUpRefused hc

/-- A teardown calls user code exactly if the processor was running. -/
theorem leave_performed (p : Processor σ ι ν ο) : Performed p .tearDown p.leave := by
  by_cases hr : p.isRunning = true
  · rw [leave_of_running hr]
    exact Performed.tornDown (isRunning_iff.1 hr)
  · rw [leave_of_not_running hr]
    exact Performed.notTornDown (hr ∘ isRunning_iff.2)

/-- A signal is taken in by a running processor and refused by any other. -/
theorem handle_performed (s : Signal ι ν) (p : Processor σ ι ν ο) :
    Performed p (.handle s) (handle s p) := by
  by_cases hr : p.isRunning = true
  · exact Performed.handled (isRunning_iff.1 hr) (handle_step hr s)
  · rw [handle_of_not_running hr]
    exact Performed.notHandled (hr ∘ isRunning_iff.2)

/-- A restore takes over all of a snapshot or nothing. -/
theorem restore_performed [FromCbor ι] [FromCbor ν] (bytes : Bytes) (p : Processor σ ι ν ο) :
    Performed p (.restore bytes) (restore bytes p) := by
  obtain ⟨t, -, ha, hr⟩ | ⟨-, e, hr⟩ := restore_cases p bytes
  · rw [hr]
    exact Performed.restored ha
  · rw [hr]
    exact Performed.notRestored

end Single

/-- Every command comes to one of the outcomes listed. -/
theorem perform_performed (c : Command ι ν) (p : Processor σ ι ν ο) :
    Performed p c (perform c p) := by
  cases c with
  | setUp => exact setup_performed p
  | tearDown => exact leave_performed p
  | handle s => exact handle_performed s p
  | takeSnapshot => exact Performed.snapshotTaken
  | restore bytes => exact restore_performed bytes p

/-- The processor that a run of commands leaves behind. -/
def performAll (p : Processor σ ι ν ο) (commands : List (Command ι ν)) : Processor σ ι ν ο :=
  commands.foldl (fun p c => (perform c p).state) p

/-- Everything a run of commands did, in order. -/
def history (p : Processor σ ι ν ο) : List (Command ι ν) → List (Effect ι ο)
  | [] => []
  | c :: rest => (perform c p).effects ++ (perform c p).state.history rest

section Run
variable (p : Processor σ ι ν ο)

@[simp] theorem performAll_nil : p.performAll [] = p := rfl

@[simp] theorem history_nil : p.history [] = [] := rfl

theorem performAll_append (xs ys : List (Command ι ν)) :
    p.performAll (xs ++ ys) = (p.performAll xs).performAll ys :=
  List.foldl_append

/-- The effects of commands are those of the first ones and then those of the others. -/
theorem history_append (xs ys : List (Command ι ν)) :
    p.history (xs ++ ys) = p.history xs ++ (p.performAll xs).history ys := by
  induction xs generalizing p with
  | nil => rfl
  | cons c rest ih =>
      simp only [List.cons_append, history, ih, List.append_assoc]
      rfl

@[simp] theorem performAll_concat (xs : List (Command ι ν)) (c : Command ι ν) :
    p.performAll (xs ++ [c]) = (perform c (p.performAll xs)).state :=
  p.performAll_append xs [c]

@[simp] theorem history_concat (xs : List (Command ι ν)) (c : Command ι ν) :
    p.history (xs ++ [c]) = p.history xs ++ (perform c (p.performAll xs)).effects := by
  rw [history_append]
  simp [history]

end Run

section Kept
variable {p : Processor σ ι ν ο} {c : Command ι ν}
  {r : Report (Processor σ ι ν ο) (Effect ι ο) ProcessingError Unit}

omit [ToCbor ι] [FromCbor ι] [ToCbor ν] [FromCbor ν] in
/-- No command changes the configuration. -/
theorem Performed.config_eq (h : Performed p c r) : r.state.config = p.config := by
  cases h with
  | handled h step => exact step.config_eq
  | _ => rfl

omit [ToCbor ι] [FromCbor ι] [ToCbor ν] [FromCbor ν] in
/-- No command changes the user function. -/
theorem Performed.function_eq (h : Performed p c r) : r.state.function = p.function := by
  cases h with
  | handled h step => exact step.function_eq
  | _ => rfl

theorem config_performAll (p : Processor σ ι ν ο) (commands : List (Command ι ν)) :
    (p.performAll commands).config = p.config := by
  induction commands using List.reverseRecOn with
  | nil => rfl
  | append_singleton commands c ih =>
      rw [performAll_concat, (perform_performed c _).config_eq, ih]

theorem function_performAll (p : Processor σ ι ν ο) (commands : List (Command ι ν)) :
    (p.performAll commands).function = p.function := by
  induction commands using List.reverseRecOn with
  | nil => rfl
  | append_singleton commands c ih =>
      rw [performAll_concat, (perform_performed c _).function_eq, ih]

end Kept

end Processor

end EventStream
