import EventStream.Pushback
import EventStream.Proofs.Passage

/-!
# The evaluation of the whole buffer

A sweep tries the elements of the buffer in order and stops at the first trial
that fails. What it can come to is again a relation without user states, over
any relation that the single trials keep.
-/

namespace EventStream

variable {σ ι ν ο τ η ε : Type}

namespace Pushback

/-- A sweep over elements: those kept, the result and the effects. -/
inductive Swept (P : WindowedValue ι → Except ε (List (WindowedValue ι)) → List η → Prop) :
    List (WindowedValue ι) → List (WindowedValue ι) → Except ε Unit → List η → Prop
  | done : Swept P [] [] (.ok ()) []
  | failed {x xs e es} (trial : P x (.error e) es) : Swept P (x :: xs) xs (.error e) es
  | passed {x xs back es kept result es'} (trial : P x (.ok back) es)
      (rest : Swept P xs kept result es') :
      Swept P (x :: xs) (back ++ kept) result (es ++ es')

theorem sweep_swept {P : WindowedValue ι → Except ε (List (WindowedValue ι)) → List η → Prop}
    {trial : WindowedValue ι → Activity τ η ε (List (WindowedValue ι))}
    (h : ∀ x t, P x (trial x t).result (trial x t).effects) (xs : List (WindowedValue ι)) (t : τ) :
    Swept P xs (sweep trial xs t).1 (sweep trial xs t).2.result (sweep trial xs t).2.effects := by
  induction xs generalizing t with
  | nil => exact Swept.done
  | cons x xs ih =>
      have hx := h x t
      simp only [sweep]
      split
      · rename_i e t' es he
        rw [he] at hx
        exact Swept.failed hx
      · rename_i back t' es he
        rw [he] at hx
        exact Swept.passed hx (ih t')

end Pushback

/-! ## Sweeps through the gate -/

namespace Gate

variable {g : Gate σ ι ν ο}

/-- A sweep in which every element is tried at the gate. -/
abbrev Sweep (g : Gate σ ι ν ο) := Pushback.Swept g.Trial

variable {xs kept : List (WindowedValue ι)} {result : Except ProcessingError Unit}
  {es : List (Effect ι ο)}

theorem sweep_tryProcess (g : Gate σ ι ν ο) (xs : List (WindowedValue ι)) (t : σ × AssertionSlot) :
    g.Sweep xs (Pushback.sweep g.tryProcess xs t).1 (Pushback.sweep g.tryProcess xs t).2.result
      (Pushback.sweep g.tryProcess xs t).2.effects :=
  Pushback.sweep_swept g.tryProcess_trial xs t

namespace Sweep

/-- A sweep that succeeds hands over what is ready and keeps what is not, all in order. -/
theorem of_ok (h : g.Sweep xs kept result es) (hr : result = .ok ()) :
    kept = xs.flatMap (fun x => g.blockedPart x x.windows) ∧
      Effect.handedOver es = xs.flatMap (fun x => g.readyCalls x x.windows) := by
  induction h with
  | done => exact ⟨rfl, rfl⟩
  | failed trial => cases hr
  | passed trial rest ih =>
      obtain ⟨rfl, hh⟩ := ih hr
      obtain ⟨rfl, hx⟩ := trial.of_ok.of_ok rfl
      refine ⟨rfl, ?_⟩
      rw [Effect.handedOver_append, hx, hh, List.flatMap_cons]

/--
A sweep that fails does so on one element. The elements in front of it are settled, and those
behind it are kept as they are.
-/
theorem of_error (h : g.Sweep xs kept result es) {e : ProcessingError} (hr : result = .error e) :
    ∃ seen x rest u calls, xs = seen ++ x :: rest ∧ e = .userCode u ∧
      kept = seen.flatMap (fun x => g.blockedPart x x.windows) ++ rest ∧
      Effect.handedOver es = seen.flatMap (fun x => g.readyCalls x x.windows) ++ calls ∧
      calls <+: g.readyCalls x x.windows ∧ Effect.failures es = [u] := by
  induction h with
  | done => cases hr
  | @failed x xs e es trial =>
      cases hr
      obtain ⟨u, rfl, a⟩ := trial.of_error
      exact ⟨[], x, xs, u, _, rfl, rfl, rfl, rfl, a.prefix_readyCalls, a.failures_eq⟩
  | @passed x xs back es kept result es' trial rest ih =>
      obtain ⟨seen, y, tail, u, calls, rfl, rfl, rfl, hh, hc, hf⟩ := ih hr
      obtain ⟨rfl, hx⟩ := trial.of_ok.of_ok rfl
      refine ⟨x :: seen, y, tail, u, calls, rfl, rfl, ?_, ?_, hc, ?_⟩
      · rw [List.flatMap_cons, List.append_assoc]
      · rw [Effect.handedOver_append, hx, hh, List.flatMap_cons, List.append_assoc]
      · rw [Effect.failures_append, trial.of_ok.failures_eq, hf]
        rfl

theorem failures_of_ok (h : g.Sweep xs kept result es) (hr : result = .ok ()) :
    Effect.failures es = [] := by
  induction h with
  | done => rfl
  | failed trial => cases hr
  | passed trial rest ih =>
      rw [Effect.failures_append, trial.of_ok.failures_eq, ih hr]
      rfl

theorem dataItems_eq {items : WindowedValue ι × Window → List (Channel × WindowedValue ο)}
    (hi : g.Yields items) (h : g.Sweep xs kept result es) :
    Effect.dataItems es = (Effect.handedOver es).flatMap items := by
  induction h with
  | done => rfl
  | failed trial =>
      obtain ⟨u, -, a⟩ := trial.of_error
      exact a.dataItems_eq hi
  | passed trial rest ih =>
      rw [Effect.dataItems_append, Effect.handedOver_append, List.flatMap_append,
        trial.of_ok.dataItems_eq hi, ih]

theorem watermarks_eq (h : g.Sweep xs kept result es) : Effect.watermarks es = [] := by
  induction h with
  | done => rfl
  | failed trial =>
      obtain ⟨u, -, a⟩ := trial.of_error
      exact a.watermarks_eq
  | passed trial rest ih =>
      rw [Effect.watermarks_append, trial.of_ok.watermarks_eq, ih]
      rfl

theorem attributed (h : g.Sweep xs kept result es) :
    Effect.Attributed (fun i item => ∃ x ∈ xs, Requested g.router x i item) es := by
  induction h with
  | done => exact Effect.attributed_of_dataItems_eq_nil rfl
  | @failed x xs e es trial =>
      obtain ⟨u, -, a⟩ := trial.of_error
      exact a.attributed.mono fun i item hp => ⟨x, List.mem_cons_self, hp⟩
  | @passed x xs back es kept result es' trial rest ih =>
      apply Effect.Attributed.append
      · exact trial.of_ok.attributed.mono fun i item hp => ⟨x, List.mem_cons_self, hp⟩
      · exact ih.mono fun i item ⟨y, hy, hp⟩ => ⟨y, List.mem_cons_of_mem _ hy, hp⟩

/-- What is kept was in the buffer before or is a blocked part of an element that was. -/
theorem mem_kept (h : g.Sweep xs kept result es) {y : WindowedValue ι} (hy : y ∈ kept) :
    ∃ x ∈ xs, y = x ∨ ∃ w ∈ x.windows, y = x.inWindow w := by
  induction h with
  | done => cases hy
  | failed trial => exact ⟨y, List.mem_cons_of_mem _ hy, Or.inl rfl⟩
  | @passed x xs back es kept result es' trial rest ih =>
      obtain ⟨rfl, -⟩ := trial.of_ok.of_ok rfl
      rcases List.mem_append.1 hy with hy | hy
      · obtain ⟨w, hw, rfl⟩ := mem_blockedPart hy
        exact ⟨x, List.mem_cons_self, Or.inr ⟨w, hw, rfl⟩⟩
      · obtain ⟨z, hz, hyz⟩ := ih hy
        exact ⟨z, List.mem_cons_of_mem _ hz, hyz⟩

end Sweep

end Gate

end EventStream
