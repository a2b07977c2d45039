import EventStream.Activity

/-!
# Calls that go alike

Two calls on different states are alike under a relation between the states if related states
lead to the same result and the same effects, and to related states again.

Calls put together from calls that are alike are alike, whatever the relation is.
-/

namespace EventStream

variable {σ τ η ε δ α β : Type}

/-- Reports of the same result and the same effects, with related states. -/
structure Report.Alike (R : σ → τ → Prop) (r : Report σ η ε α) (r' : Report τ η ε α) : Prop where
  result : r'.result = r.result
  effects : r'.effects = r.effects
  state : R r.state r'.state

/-- The same report with its answer mapped. -/
def Report.mapAnswer (h : α → β) (r : Report σ η ε α) : Report σ η ε β :=
  ⟨r.result.map h, r.state, r.effects⟩

@[simp] theorem Report.mapAnswer_id (r : Report σ η ε α) : r.mapAnswer id = r := by
  rw [mapAnswer, Except.map_id, id]

namespace Activity

/-- Calls that lead from related states to reports that are alike. -/
def Alike (R : σ → τ → Prop) (x : Activity σ η ε α) (y : Activity τ η ε α) : Prop :=
  ∀ s t, R s t → Report.Alike R (x s) (y t)

variable {R : σ → τ → Prop} {x : Activity σ η ε α} {y : Activity τ η ε α}

/-- Activities in turn are alike if each is. -/
theorem Alike.bind {f : α → Activity σ η ε β} {g : α → Activity τ η ε β} (hx : Alike R x y)
    (hf : ∀ a, Alike R (f a) (g a)) : Alike R (x >>= f) (y >>= g) := by
  intro s t h
  obtain ⟨result, effects, state⟩ := hx s t h
  cases hr : (x s).result with
  | error e =>
      rw [bind_of_error hr, bind_of_error (result.trans hr)]
      exact ⟨rfl, effects, state⟩
  | ok a =>
      rw [bind_of_ok hr, bind_of_ok (result.trans hr)]
      have rest := hf a _ _ state
      refine ⟨rest.result, ?_, rest.state⟩
      rw [Report.after_effects, Report.after_effects, effects, rest.effects]

/-- Catching the failure of activities that are alike leaves them alike. -/
theorem Alike.attempt (hx : Alike R x y) :
    Alike R (x.attempt : Activity σ η δ (Except ε α)) y.attempt := by
  intro s t h
  obtain ⟨result, effects, state⟩ := hx s t h
  exact ⟨congrArg Except.ok result, effects, state⟩

/-- A choice between activities is alike if its condition and both its branches are. -/
theorem Alike.ite {x' : Activity σ η ε α} {y' : Activity τ η ε α} {c c' : Prop} [Decidable c]
    [Decidable c'] (same : c ↔ c') (hx : Alike R x y) (hx' : Alike R x' y') :
    Alike R (if c then x else x') (if c' then y else y') := by
  by_cases h : c
  · rw [if_pos h, if_pos (same.1 h)]
    exact hx
  · rw [if_neg h, if_neg (mt same.2 h)]
    exact hx'

variable (R)

theorem alike_pure (a : α) :
    Alike R (Pure.pure a : Activity σ η ε α) (Pure.pure a) := fun _ _ h => ⟨rfl, rfl, h⟩

theorem alike_fail (e : ε) : Alike R (fail e : Activity σ η ε α) (fail e) :=
  fun _ _ h => ⟨rfl, rfl, h⟩

theorem alike_report (effects : List η) :
    Alike R (report effects : Activity σ η ε Unit) (report effects) := fun _ _ h => ⟨rfl, rfl, h⟩

theorem alike_ofExcept (result : Except ε α) :
    Alike R (ofExcept result : Activity σ η ε α) (ofExcept result) := fun _ _ h => ⟨rfl, rfl, h⟩

end Activity

end EventStream
