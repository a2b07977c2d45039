/-!
# Calls that act, report and may fail

A call acts on a state, reports effects in order and may fail. A failure ends
the call but takes nothing back: the state reached and the effects reported
before it stay.

## Implementation notes

The effects are returned by every call instead of being appended to a log in the
state. What one call did is then a value of its own, and the effects of a
sequence of calls are the concatenation of theirs.
-/

namespace EventStream

/-- What a call leaves behind: its result, the state reached and the effects, in order. -/
structure Report (σ η ε α : Type) where
  result : Except ε α
  state : σ
  effects : List η

namespace Report

variable {σ η ε α : Type}

/-- The same report with effects put in front of its own. -/
def after (r : Report σ η ε α) (effects : List η) : Report σ η ε α :=
  { r with effects := effects ++ r.effects }

@[simp] theorem after_result (r : Report σ η ε α) (es : List η) :
    (r.after es).result = r.result := rfl

@[simp] theorem after_state (r : Report σ η ε α) (es : List η) :
    (r.after es).state = r.state := rfl

@[simp] theorem after_effects (r : Report σ η ε α) (es : List η) :
    (r.after es).effects = es ++ r.effects := rfl

end Report

/-- A call that acts on `σ`, reports `η`, and fails with `ε` or answers `α`. -/
def Activity (σ η ε α : Type) : Type := σ → Report σ η ε α

namespace Activity

variable {σ η ε δ α β : Type}

/-- The call that answers at once. -/
def pure (a : α) : Activity σ η ε α := fun s => ⟨.ok a, s, []⟩

/-- One call after another; the second does not happen if the first fails. -/
def bind (x : Activity σ η ε α) (f : α → Activity σ η ε β) : Activity σ η ε β := fun s =>
  match x s with
  | ⟨.ok a, s', es⟩ => (f a s').after es
  | ⟨.error e, s', es⟩ => ⟨.error e, s', es⟩

instance : Monad (Activity σ η ε) where
  pure := pure
  bind := bind

/-- The call that fails. -/
def fail (e : ε) : Activity σ η ε α := fun s => ⟨.error e, s, []⟩

/-- The call that only reports. -/
def report (effects : List η) : Activity σ η ε Unit := fun s => ⟨.ok (), s, effects⟩

/-- The call that answers the state. -/
def read : Activity σ η ε σ := fun s => ⟨.ok s, s, []⟩

/-- The call that changes the state. -/
def update (f : σ → σ) : Activity σ η ε Unit := fun s => ⟨.ok (), f s, []⟩

/-- The call with a given result. -/
def ofExcept (r : Except ε α) : Activity σ η ε α := fun s => ⟨r, s, []⟩

/-- The same call with its failure as an answer. -/
def attempt (x : Activity σ η ε α) : Activity σ η δ (Except ε α) := fun s =>
  let r := x s
  ⟨.ok r.result, r.state, r.effects⟩

@[simp] theorem pure_apply (a : α) (s : σ) :
    (Pure.pure a : Activity σ η ε α) s = ⟨.ok a, s, []⟩ := rfl

theorem bind_apply (x : Activity σ η ε α) (f : α → Activity σ η ε β) (s : σ) :
    (x >>= f) s =
      match x s with
      | ⟨.ok a, s', es⟩ => (f a s').after es
      | ⟨.error e, s', es⟩ => ⟨.error e, s', es⟩ := rfl

/-- An activity that succeeds hands its result and state on, and its effects come first. -/
theorem bind_of_ok {x : Activity σ η ε α} {s : σ} {a : α} (h : (x s).result = .ok a)
    (f : α → Activity σ η ε β) : (x >>= f) s = (f a (x s).state).after (x s).effects := by
  rw [bind_apply]
  cases hx : x s
  simp_all

/-- An activity that fails ends the whole. -/
theorem bind_of_error {x : Activity σ η ε α} {s : σ} {e : ε} (h : (x s).result = .error e)
    (f : α → Activity σ η ε β) : (x >>= f) s = ⟨.error e, (x s).state, (x s).effects⟩ := by
  rw [bind_apply]
  cases hx : x s
  simp_all

@[simp] theorem fail_apply (e : ε) (s : σ) :
    (fail e : Activity σ η ε α) s = ⟨.error e, s, []⟩ := rfl

@[simp] theorem report_apply (es : List η) (s : σ) :
    (report es : Activity σ η ε Unit) s = ⟨.ok (), s, es⟩ := rfl

/-- An optional report in front of a call goes in front of the effects of the call. -/
theorem report_if (c : Prop) [Decidable c] (es : List η) (x : Activity σ η ε α) (s : σ) :
    (if c then (do report es; x) else x) s = (x s).after (if c then es else []) := by
  split
  · rfl
  · simp [Report.after]

@[simp] theorem read_apply (s : σ) : (read : Activity σ η ε σ) s = ⟨.ok s, s, []⟩ := rfl

@[simp] theorem update_apply (f : σ → σ) (s : σ) :
    (update f : Activity σ η ε Unit) s = ⟨.ok (), f s, []⟩ := rfl

end Activity

end EventStream
