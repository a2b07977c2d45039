import EventStream.Proofs.Bundles

/-!
# The life of a processor

A processor is set up, takes signals, and is torn down. Signals are refused
outside of that time and never change where a processor is in its life, and the
only calls of the user function they lead to are those of bundles.
-/

namespace EventStream

variable {σ ι ν ο : Type}

/-- The calls of the user function that make up bundles. -/
def Invocation.InBundle : Invocation ι ο → Prop
  | setup _ => False
  | startBundle _ => True
  | processElement _ _ _ _ => True
  | finishBundle _ => True
  | teardown => False

namespace Invocation

/-- Whether a call of the user function is the one that sets it up. -/
def isSetup : Invocation ι ο → Bool
  | setup _ => true
  | _ => false

/-- Whether a call of the user function is the one that tears it down. -/
def isTeardown : Invocation ι ο → Bool
  | teardown => true
  | _ => false

/-- No setup takes place in a bundle. -/
theorem InBundle.isSetup_eq {i : Invocation ι ο} (h : i.InBundle) : i.isSetup = false := by
  cases i with
  | setup outcome => exact h.elim
  | _ => rfl

/-- No teardown takes place in a bundle. -/
theorem InBundle.isTeardown_eq {i : Invocation ι ο} (h : i.InBundle) : i.isTeardown = false := by
  cases i with
  | teardown => exact h.elim
  | _ => rfl

variable {calls : List (Invocation ι ο)}

theorem Processed.inBundle (h : Processed calls) : ∀ i ∈ calls, i.InBundle := by
  intro i hi
  obtain ⟨x, w, requests, rfl⟩ := h i hi
  trivial

theorem Bundle.inBundle (h : Bundle calls) : ∀ i ∈ calls, i.InBundle := by
  cases h with
  | notStarted e => exact List.forall_mem_singleton.2 trivial
  | brokenOff h x w requests e =>
      rw [List.forall_mem_cons, List.forall_mem_append, List.forall_mem_singleton]
      exact ⟨trivial, h.inBundle, trivial⟩
  | finished h outcome =>
      rw [List.forall_mem_cons, List.forall_mem_append, List.forall_mem_singleton]
      exact ⟨trivial, h.inBundle, trivial⟩

/-- All calls of bundles are calls that belong in one. -/
theorem Bundles.inBundle (h : Bundles calls) : ∀ i ∈ calls, i.InBundle := by
  obtain ⟨bundles, rfl, h⟩ := h
  intro i hi
  obtain ⟨b, hb, hi⟩ := List.mem_flatten.1 hi
  exact (h b hb).inBundle i hi

end Invocation

namespace Effect

/-- Effects among which the user function is neither set up nor torn down. -/
def Bundled (effects : List (Effect ι ο)) : Prop := ∀ i ∈ invocations effects, i.InBundle

theorem bundled_nil : Bundled ([] : List (Effect ι ο)) := fun _ h => (nomatch h)

/-- Effects with all their calls in bundles can follow each other. -/
theorem Bundled.append {xs ys : List (Effect ι ο)} (hx : Bundled xs) (hy : Bundled ys) :
    Bundled (xs ++ ys) := by
  intro i hi
  rw [invocations_append] at hi
  rcases List.mem_append.1 hi with hi | hi
  · exact hx i hi
  · exact hy i hi

/-- Effects with all their calls in bundles set nothing up. -/
theorem Bundled.countP_isSetup {es : List (Effect ι ο)} (h : Bundled es) :
    (invocations es).countP Invocation.isSetup = 0 := by
  apply List.countP_eq_zero.2
  intro i hi
  rw [(h i hi).isSetup_eq]
  exact Bool.false_ne_true

/-- Effects with all their calls in bundles tear nothing down. -/
theorem Bundled.countP_isTeardown {es : List (Effect ι ο)} (h : Bundled es) :
    (invocations es).countP Invocation.isTeardown = 0 := by
  apply List.countP_eq_zero.2
  intro i hi
  rw [(h i hi).isTeardown_eq]
  exact Bool.false_ne_true

end Effect

namespace Processor

variable {p : Processor σ ι ν ο} {s : Signal ι ν}
  {r : Report (Processor σ ι ν ο) (Effect ι ο) ProcessingError Unit}

/-- Handling a signal leads to calls of bundles only. -/
theorem Step.bundled (h : Step p s r) : Effect.Bundled r.effects := h.bundles.inBundle

/-- No signal moves a processor on in its life. -/
theorem Step.lifecycle_eq (h : Step p s r) : r.state.lifecycle = p.lifecycle := by
  cases h <;> rfl

/-- A processor that does not run refuses every signal and stays as it is. -/
theorem handle_of_not_running (h : ¬ p.isRunning = true) (s : Signal ι ν) :
    handle s p = ⟨.error .notRunning, p, []⟩ := by
  have refused {α : Type} (f : Unit → Call σ ι ν ο α) :
      (ensureRunning >>= f) p = ⟨.error .notRunning, p, []⟩ := by
    have he : (ensureRunning : Call σ ι ν ο Unit) p = ⟨.error .notRunning, p, []⟩ := by
      simp [ensureRunning, h]
    rw [Activity.bind_apply, he]
  cases s <;> exact refused _

/-- A processor that is not running does nothing for any signals. -/
theorem trace_of_not_running (h : ¬ p.isRunning = true) (signals : List (Signal ι ν)) :
    p.trace signals = [] := by
  induction signals with
  | nil => rfl
  | cons s rest ih =>
      change (handle s p).effects ++ (handle s p).state.trace rest = []
      rw [handle_of_not_running h]
      exact ih

theorem lifecycle_handle (s : Signal ι ν) (p : Processor σ ι ν ο) :
    (handle s p).state.lifecycle = p.lifecycle := by
  by_cases h : p.isRunning = true
  · exact (handle_step h s).lifecycle_eq
  · rw [handle_of_not_running h]

/-- A signal only makes calls inside bundles. -/
theorem bundled_handle (s : Signal ι ν) (p : Processor σ ι ν ο) :
    Effect.Bundled (handle s p).effects := by
  by_cases h : p.isRunning = true
  · exact (handle_step h s).bundled
  · rw [handle_of_not_running h]
    exact Effect.bundled_nil

/-- No run of signals moves a processor on in its life. -/
theorem lifecycle_after (p : Processor σ ι ν ο) (signals : List (Signal ι ν)) :
    (p.after signals).lifecycle = p.lifecycle := by
  induction signals using List.reverseRecOn with
  | nil => rfl
  | append_singleton signals s ih => rw [after_concat, lifecycle_handle, ih]

/-- A run of signals only makes calls inside bundles. -/
theorem bundled_trace (p : Processor σ ι ν ο) (signals : List (Signal ι ν)) :
    Effect.Bundled (p.trace signals) := by
  induction signals using List.reverseRecOn with
  | nil => exact Effect.bundled_nil
  | append_singleton signals s ih =>
      rw [trace_concat]
      exact ih.append (bundled_handle s _)

/-! ## The beginning and the end -/

/-- Sets a processor up if that was not done yet, and gives it up if that fails. -/
def enter : Call σ ι ν ο Unit := fun p =>
  if p.lifecycle = .created then
    match setup p with
    | ⟨.ok (), q, es⟩ => ⟨.ok (), q, es⟩
    | ⟨.error e, q, es⟩ => ⟨.error e, { q with lifecycle := .tornDown }, es⟩
  else ⟨.ok (), p, []⟩

/-- The tear-down of a processor, which fails in no way. -/
def leave (p : Processor σ ι ν ο) : Report (Processor σ ι ν ο) (Effect ι ο) ProcessingError Unit :=
  teardown p

/-- A processor that was set up before is entered without a call. -/
theorem enter_of_ne (h : p.lifecycle ≠ .created) : enter p = ⟨.ok (), p, []⟩ := if_neg h

/-- Entering a new processor sets it up, or sets it up in vain and gives it up. -/
theorem enter_of_created (h : p.lifecycle = .created) :
    (∃ user, setup p = ⟨.ok (), { p with user := user, lifecycle := .running },
        [.call (.setup (.ok ())),
          .note (.setUp p.config.sideInputs.length p.config.sideOutputs.length)]⟩ ∧
      enter p = setup p) ∨
    ∃ e user, setup p = ⟨.error (.userCode e), { p with user := user },
        [.call (.setup (.error e))]⟩ ∧
      enter p = ⟨.error (.userCode e), { p with user := user, lifecycle := .tornDown },
        [.call (.setup (.error e))]⟩ := by
  rw [enter, if_pos h]
  simp only [setup, h]
  cases p.function.setup p.user with
  | mk outcome user =>
      cases outcome with
      | ok u => exact Or.inl ⟨user, rfl, rfl⟩
      | error e => exact Or.inr ⟨e, user, rfl, rfl⟩

/-- Whether or not its setup succeeds, a processor that was entered is no longer new. -/
theorem lifecycle_enter (p : Processor σ ι ν ο) : (enter p).state.lifecycle ≠ .created := by
  by_cases h : p.lifecycle = .created
  · obtain ⟨user, hs, he⟩ | ⟨e, user, hs, he⟩ := enter_of_created h
    · rw [he, hs]
      exact Lifecycle.noConfusion
    · rw [he]
      exact Lifecycle.noConfusion
  · rw [enter_of_ne h]
    exact h

theorem leave_of_running (h : p.isRunning = true) :
    p.leave = ⟨.ok (), { p with user := p.function.teardown p.user, lifecycle := .tornDown },
      [.call .teardown, .note (.tornDown p.pushback.length)]⟩ := if_pos h

theorem leave_of_not_running (h : ¬ p.isRunning = true) :
    p.leave = ⟨.ok (), { p with lifecycle := .tornDown }, []⟩ := if_neg h

/-- A processor that was left is torn down. -/
theorem lifecycle_leave (p : Processor σ ι ν ο) : p.leave.state.lifecycle = .tornDown := by
  by_cases h : p.isRunning = true
  · rw [leave_of_running h]
  · rw [leave_of_not_running h]

end Processor

end EventStream
