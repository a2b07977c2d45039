import EventStream.Proofs.Commands
import Mathlib.Data.List.Basic

/-!
# The order of the calls of the user function

Whatever is asked of a processor and however its user function fails, the calls
of the user function come in one order: set-ups that fail, one that succeeds,
whole bundles, and one tear-down. Each part may be missing, and nothing follows
a part that is.

## Implementation notes

The order of calls is kept along with the stage of life, so that every outcome
of a command extends it at the end.
-/

namespace EventStream

open Cbor

variable {σ ι ν ο : Type}

namespace Invocation

/-- Set-ups that fail. -/
def FailedSetups (calls : List (Invocation ι ο)) : Prop :=
  ∀ c ∈ calls, ∃ e, c = .setup (.error e)

/-- The calls made up to a stage of life. -/
inductive Orderly : Lifecycle → List (Invocation ι ο) → Prop
  | created {failed} (h : FailedSetups failed) : Orderly .created failed
  | running {failed calls} (h : FailedSetups failed) (hb : Bundles calls) :
      Orderly .running (failed ++ .setup (.ok ()) :: calls)
  | unused {failed} (h : FailedSetups failed) : Orderly .tornDown failed
  | ended {failed calls} (h : FailedSetups failed) (hb : Bundles calls) :
      Orderly .tornDown (failed ++ .setup (.ok ()) :: (calls ++ [.teardown]))

variable {calls more : List (Invocation ι ο)}

theorem FailedSetups.append (hx : FailedSetups calls) (e : UserError) :
    FailedSetups (calls ++ [.setup (.error e)]) :=
  List.forall_mem_append.2 ⟨hx, List.forall_mem_singleton.2 ⟨e, rfl⟩⟩

theorem FailedSetups.isSetup_eq (h : FailedSetups calls) {c : Invocation ι ο} (hc : c ∈ calls) :
    c.isSetup = true := by
  obtain ⟨e, rfl⟩ := h c hc
  rfl

theorem FailedSetups.teardown_notMem (h : FailedSetups calls) : .teardown ∉ calls := by
  intro hm
  cases h.isSetup_eq hm

/-! ## What order means -/

section Order
variable {failed before after : List (Invocation ι ο)} {c : Invocation ι ο}

theorem FailedSetups.setup_mem (h : FailedSetups failed)
    (hs : failed ++ .setup (.ok ()) :: calls = before ++ c :: after) (hc : c.isSetup = false) :
    .setup (.ok ()) ∈ before := by
  obtain ⟨others, rfl, hr⟩ | ⟨others, rfl, hr⟩ := List.append_eq_append_iff.1 hs
  · cases others with
    | nil =>
        cases hr
        cases hc
    | cons d rest =>
        cases hr
        exact List.mem_append_right _ List.mem_cons_self
  · cases others with
    | nil =>
        cases hr
        cases hc
    | cons d rest =>
        cases hr
        have := h.isSetup_eq (List.mem_append_right before List.mem_cons_self)
        rw [hc] at this
        cases this

theorem Bundles.teardown_notMem (h : Bundles calls) : .teardown ∉ calls :=
  fun hm => h.inBundle _ hm

theorem teardown_notMem_of_running (h : FailedSetups failed) (hb : Bundles calls) :
    .teardown ∉ failed ++ .setup (.ok ()) :: calls := by
  rw [List.mem_append, List.mem_cons]
  rintro (hm | hm | hm)
  · exact h.teardown_notMem hm
  · cases hm
  · exact hb.teardown_notMem hm

namespace Orderly

variable {stage : Lifecycle}

/-- Only set-ups are called before one of them succeeds. -/
theorem setup_mem (h : Orderly stage (before ++ c :: after)) (hc : c.isSetup = false) :
    .setup (.ok ()) ∈ before := by
  have never (hf : FailedSetups (before ++ c :: after)) : .setup (.ok ()) ∈ before := by
    have := hf.isSetup_eq (List.mem_append_right before List.mem_cons_self)
    rw [hc] at this
    cases this
  generalize hs : before ++ c :: after = calls at h
  cases h with
  | created h => exact never (hs ▸ h)
  | unused h => exact never (hs ▸ h)
  | running h hb => exact h.setup_mem hs.symm hc
  | ended h hb => exact h.setup_mem hs.symm hc

/-- Nothing is called after the user function was torn down. -/
theorem eq_nil_of_teardown (h : Orderly stage (before ++ .teardown :: after)) : after = [] := by
  have torn : .teardown ∈ before ++ .teardown :: after :=
    List.mem_append_right _ List.mem_cons_self
  generalize hs : before ++ .teardown :: after = calls at h torn
  cases h with
  | created h => exact absurd torn h.teardown_notMem
  | unused h => exact absurd torn h.teardown_notMem
  | running h hb => exact absurd torn (teardown_notMem_of_running h hb)
  | @ended failed bundles h hb =>
      have hs : (failed ++ .setup (.ok ()) :: bundles) ++ .teardown :: [] =
          before ++ .teardown :: after := by
        rw [hs, List.append_assoc]
        rfl
      have only := teardown_notMem_of_running h hb
      exact ((List.append_cons_inj_of_notMem only List.not_mem_nil).1 hs).2.2.symm

end Orderly

end Order

end Invocation

namespace Processor

open Invocation

variable {p : Processor σ ι ν ο}

/-! ## Single commands -/

namespace Performed

variable {c : Command ι ν} {r : Report (Processor σ ι ν ο) (Effect ι ο) ProcessingError Unit}

/-- A command adds its calls at the end, in order. -/
theorem orderly (h : Performed p c r) {calls : List (Invocation ι ο)}
    (ho : Orderly p.lifecycle calls) :
    Orderly r.state.lifecycle (calls ++ Effect.invocations r.effects) := by
  cases h with
  | setUp hc user =>
      rw [hc] at ho
      cases ho with
      | created hf => exact Orderly.running hf bundles_nil
  | setUpFailed hc user e =>
      change Orderly p.lifecycle (calls ++ [.setup (.error e)])
      rw [hc] at ho ⊢
      cases ho with
      | created hf => exact Orderly.created (hf.append e)
  | tornDown hr =>
      rw [hr] at ho
      cases ho with
      | running hf hb =>
          rw [List.append_assoc, List.cons_append]
          exact Orderly.ended hf hb
  | notTornDown hr =>
      change Orderly .tornDown (calls ++ [])
      rw [List.append_nil]
      generalize p.lifecycle = stage at ho hr
      cases ho with
      | created hf => exact Orderly.unused hf
      | running hf hb => exact absurd rfl hr
      | unused hf => exact Orderly.unused hf
      | ended hf hb => exact Orderly.ended hf hb
  | handled hr step =>
      rw [step.lifecycle_eq, hr]
      rw [hr] at ho
      cases ho with
      | running hf hb =>
          rw [List.append_assoc, List.cons_append]
          exact Orderly.running hf (hb.append step.bundles)
  | setUpRefused | notHandled | snapshotTaken | restored | notRestored =>
      change Orderly p.lifecycle (calls ++ [])
      rwa [List.append_nil]

/-- The user function is torn down by a tear-down that finds the processor running. -/
theorem teardown_mem_iff (h : Performed p c r) :
    .teardown ∈ Effect.invocations r.effects ↔ c = .tearDown ∧ p.lifecycle = .running := by
  cases h with
  | handled hr step => simp [step.bundles.teardown_notMem]
  | tornDown hr => simp [Effect.invocations, hr]
  | notTornDown hr => simp [Effect.invocations, hr]
  | _ => simp [Effect.invocations]

/-- A processor is torn down by a tear-down only, and for good. -/
theorem tornDown_iff (h : Performed p c r) :
    r.state.lifecycle = .tornDown ↔ c = .tearDown ∨ p.lifecycle = .tornDown := by
  cases h with
  | handled hr step => simp [step.lifecycle_eq]
  | setUp hc user => simp [hc]
  | restored ha => simp [takeOver]
  | _ => simp

end Performed

/-! ## Runs of commands -/

variable [ToCbor ι] [FromCbor ι] [ToCbor ν] [FromCbor ν]

theorem orderly_history (hp : p.lifecycle = .created) (commands : List (Command ι ν)) :
    Orderly (p.performAll commands).lifecycle (Effect.invocations (p.history commands)) := by
  induction commands using List.reverseRecOn with
  | nil =>
      rw [performAll_nil, hp]
      exact Orderly.created fun _ h => (nomatch h)
  | append_singleton commands c ih =>
      rw [performAll_concat, history_concat, Effect.invocations_append]
      exact (perform_performed c _).orderly ih

theorem tornDown_performAll_iff (p : Processor σ ι ν ο) (commands : List (Command ι ν)) :
    (p.performAll commands).lifecycle = .tornDown ↔
      .tearDown ∈ commands ∨ p.lifecycle = .tornDown := by
  induction commands using List.reverseRecOn with
  | nil => simp
  | append_singleton commands c ih =>
      rw [performAll_concat, (perform_performed c _).tornDown_iff, ih, List.mem_append,
        List.mem_singleton]
      grind

/-- The user function is torn down exactly by a first tear-down that finds the processor running. -/
theorem teardown_mem_history_iff (p : Processor σ ι ν ο) (commands : List (Command ι ν)) :
    .teardown ∈ Effect.invocations (p.history commands) ↔
      ∃ before after, commands = before ++ .tearDown :: after ∧ .tearDown ∉ before ∧
        (p.performAll before).isRunning = true := by
  constructor
  · intro h
    induction commands using List.reverseRecOn with
    | nil => cases h
    | append_singleton commands c ih =>
        rw [history_concat, Effect.invocations_append, List.mem_append,
          (perform_performed c _).teardown_mem_iff] at h
        obtain h | ⟨rfl, running⟩ := h
        · obtain ⟨before, after, rfl, first, running⟩ := ih h
          exact ⟨before, after ++ [c], by simp, first, running⟩
        · refine ⟨commands, [], rfl, fun hm => ?_, isRunning_iff.2 running⟩
          have torn := (tornDown_performAll_iff p commands).2 (Or.inl hm)
          rw [running] at torn
          cases torn
  · rintro ⟨before, after, rfl, -, running⟩
    have torn : .teardown ∈ Effect.invocations (perform .tearDown (p.performAll before)).effects :=
      (perform_performed .tearDown _).teardown_mem_iff.2 ⟨rfl, isRunning_iff.1 running⟩
    rw [history_append, Effect.invocations_append, history, Effect.invocations_append]
    exact List.mem_append_right _ (List.mem_append_left _ torn)

/--
The calls of the user function of a processor, from its making through any run of commands, are in
order. So nothing follows a tear-down, and nothing but set-ups comes before one that succeeds. A
processor that is not new any more refuses to be set up and calls nothing. The user function is torn
down if and only if the first tear-down finds the processor running.
-/
theorem calls_in_order (hp : p.Made) (commands : List (Command ι ν)) :
    Orderly (p.performAll commands).lifecycle (Effect.invocations (p.history commands)) ∧
    (∀ before after, Effect.invocations (p.history commands) = before ++ .teardown :: after →
      after = []) ∧
    (∀ before c after, Effect.invocations (p.history commands) = before ++ c :: after →
      c.isSetup = false → .setup (.ok ()) ∈ before) ∧
    ((p.performAll commands).lifecycle ≠ .created →
      perform .setUp (p.performAll commands) =
        ⟨.error .alreadySetUp, p.performAll commands, []⟩) ∧
    (.teardown ∈ Effect.invocations (p.history commands) ↔
      ∃ before after, commands = before ++ .tearDown :: after ∧ .tearDown ∉ before ∧
        (p.performAll before).isRunning = true) := by
  have created : p.lifecycle = .created := by
    obtain ⟨config, function, user, slot, -, rfl⟩ := hp.exists_eq
    rfl
  have ordered := orderly_history created commands
  refine ⟨ordered, ?_, ?_, setup_of_ne, teardown_mem_history_iff p commands⟩
  · intro before after hs
    rw [hs] at ordered
    exact ordered.eq_nil_of_teardown
  · intro before c after hs hc
    rw [hs] at ordered
    exact ordered.setup_mem hc

/-- The user function that is set up at the second attempt and fails on large elements. -/
def reluctant : UserFunction Nat UInt64 String String where
  setup n := if n = 0 then (.error (.failed "not yet"), 1) else (.ok (), n)
  processElement cx n :=
    ⟨[], if cx.element.value ≤ 10 then .ok () else .error (.failed "too large"), n + 1⟩

/-- A configuration without side inputs and side outputs. -/
def plain : Config := ⟨defaultMainOutput, [], [], false⟩

/-- Commands of all kinds, many of them at the wrong time. -/
def disorder : List (Command UInt64 String) :=
  [.handle (.watermark .zero), .setUp, .handle (.element ⟨1, .zero, [.global]⟩), .setUp, .setUp,
    .handle (.element ⟨7, .zero, [hour, .global]⟩), .takeSnapshot,
    .handle (.element ⟨70, .zero, [.global, hour]⟩), .restore [],
    .handle (.sideInput 0 ⟨"", .zero, []⟩), .tearDown, .setUp,
    .handle (.element ⟨2, .zero, [.global]⟩), .tearDown]

theorem calls_in_order_disorder :
    (initial plain reluctant 0).Made ∧
      Effect.invocations ((initial plain reluctant 0).history disorder) =
        [.setup (.error (.failed "not yet")), .setup (.ok ()), .startBundle (.ok ()),
          .processElement ⟨7, .zero, [hour]⟩ hour [] (.ok ()),
          .processElement ⟨7, .zero, [.global]⟩ .global [] (.ok ()), .finishBundle (.ok ()),
          .startBundle (.ok ()),
          .processElement ⟨70, .zero, [.global]⟩ .global [] (.error (.failed "too large")),
          .teardown] ∧
      Orderly .tornDown (Effect.invocations ((initial plain reluctant 0).history disorder)) ∧
      (perform .setUp ((initial plain reluctant 0).performAll disorder)).result =
        .error .alreadySetUp := by
  have hp : (initial plain reluctant 0).Made := made_initial (by decide) reluctant 0
  obtain ⟨ordered, -, -, refused, -⟩ := calls_in_order hp disorder
  refine ⟨hp, rfl, ordered, ?_⟩
  rw [refused Lifecycle.noConfusion]

end Processor

end EventStream
