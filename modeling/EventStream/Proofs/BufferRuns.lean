import EventStream.Proofs.Run

/-!
# Runs of the buffer

A buffer is filled, added to and evaluated again in any order, with any
functions that have a state of their own and may fail. Whatever was done, its
hold is the smallest timestamp in it. An evaluation calls the function on the
elements in order until a call fails, keeps what the calls gave back, and keeps
the elements it did not come to.

## Implementation notes

How often a function was called cannot be seen in what an evaluation leaves
behind. The calls are counted by evaluating the buffer with a function that does
the same and reports the elements it is called on.
-/

namespace EventStream

variable {ι τ η ε : Type}

namespace Timestamp

/-- The smallest of some timestamps. -/
def IsSmallest (t : Timestamp) (ts : List Timestamp) : Prop := t ∈ ts ∧ ∀ u ∈ ts, t ≤ u

theorem minimum_mem {ts : List Timestamp} (h : ts ≠ []) : minimum ts ∈ ts := by
  induction ts with
  | nil => exact absurd rfl h
  | cons t rest ih =>
      rw [minimum_cons]
      by_cases hle : t ≤ minimum rest
      · have first : min t (minimum rest) = t := if_pos hle
        rw [first]
        exact List.mem_cons_self
      · have later : min t (minimum rest) = minimum rest := if_neg hle
        rw [later]
        -- What follows is not empty: no timestamp lies behind positive infinity.
        refine List.mem_cons_of_mem t (ih ?_)
        rintro rfl
        exact hle (le_maxValue t)

/-- The minimum of a non-empty list of timestamps is one of them and bounds the others. -/
theorem isSmallest_minimum {ts : List Timestamp} (h : ts ≠ []) : (minimum ts).IsSmallest ts :=
  ⟨minimum_mem h, le_minimum_iff.1 (Int.le_refl _)⟩

end Timestamp

namespace Pushback

/-! ## Operations -/

/-- What is done to a buffer. -/
inductive Operation (ι τ η ε : Type) where
  | ofElements (elements : List (WindowedValue ι))
  | add (element : WindowedValue ι)
  | reprocess (trial : WindowedValue ι → Activity τ η ε (List (WindowedValue ι)))

/-- The buffer after an operation, with the state in which the next function finds itself. -/
def operate : Pushback ι × τ → Operation ι τ η ε → Pushback ι × τ
  | (_, t), .ofElements elements => (.ofElements elements, t)
  | (b, t), .add element => (b.add element, t)
  | (b, t), .reprocess trial => ((b.reprocess trial t).1, (b.reprocess trial t).2.state)

/-- The buffer after operations one after another. -/
def operateAll (c : Pushback ι × τ) (operations : List (Operation ι τ η ε)) : Pushback ι × τ :=
  operations.foldl operate c

theorem exact_empty : (empty : Pushback ι).Exact := rfl

/-- One operation on the buffer, failing or not, keeps its minimum exact. -/
theorem Exact.operate {c : Pushback ι × τ} (h : c.1.Exact) (operation : Operation ι τ η ε) :
    (Pushback.operate c operation).1.Exact := by
  cases operation with
  | ofElements elements => exact exact_ofElements elements
  | add element => exact h.add element
  | reprocess trial => exact exact_ofElements _

theorem Exact.operateAll {c : Pushback ι × τ} (h : c.1.Exact)
    (operations : List (Operation ι τ η ε)) : (Pushback.operateAll c operations).1.Exact := by
  induction operations generalizing c with
  | nil => exact h
  | cons operation rest ih => exact ih (h.operate operation)

/-- The minimum of a buffer that holds something is the timestamp of one of its elements. -/
theorem Exact.isSmallest {b : Pushback ι} (h : b.Exact) (hn : b.elements ≠ []) :
    b.minTimestamp.IsSmallest (b.elements.map WindowedValue.timestamp) := by
  rw [h]
  exact Timestamp.isSmallest_minimum (hn ∘ List.map_eq_nil_iff.1)

/-- The minimum of an empty buffer is the largest timestamp: it holds nothing back. -/
theorem Exact.eq_maxValue {b : Pushback ι} (h : b.Exact) (hn : b.elements = []) :
    b.minTimestamp = .maxValue := by
  rw [h, hn]
  rfl

/-! ## Evaluations -/

/--
Trials of elements that all succeed, each in the state that the one before it left: what each gave
back, their effects, and the last state.
-/
inductive Passes (trial : WindowedValue ι → Activity τ η ε (List (WindowedValue ι))) :
    List (WindowedValue ι) → τ → List (List (WindowedValue ι)) → List η → τ → Prop
  | none {t} : Passes trial [] t [] [] t
  | next {x xs t back t' es backs es' t''} (first : trial x t = ⟨.ok back, t', es⟩)
      (others : Passes trial xs t' backs es' t'') :
      Passes trial (x :: xs) t (back :: backs) (es ++ es') t''

/-- The trials that come to the same and report the elements they are called on instead. -/
def recording (trial : WindowedValue ι → Activity τ η ε (List (WindowedValue ι))) :
    WindowedValue ι → Activity τ (WindowedValue ι) ε (List (WindowedValue ι)) :=
  fun x t => ⟨(trial x t).result, (trial x t).state, [x]⟩

variable {trial : WindowedValue ι → Activity τ η ε (List (WindowedValue ι))}
  {xs : List (WindowedValue ι)} {x : WindowedValue ι} {t t' t'' : τ}
  {backs : List (List (WindowedValue ι))} {es es' : List η} {e : ε}

theorem recording_apply {result : Except ε (List (WindowedValue ι))}
    (h : trial x t = ⟨result, t', es⟩) : recording trial x t = ⟨result, t', [x]⟩ := by
  rw [recording, h]

namespace Passes

/-- Recording the elements changes neither what trials give back nor the states they leave. -/
theorem recorded (h : Passes trial xs t backs es t') :
    Passes (recording trial) xs t backs xs t' := by
  induction h with
  | none => exact Passes.none
  | next first others ih => exact Passes.next (recording_apply first) ih

/-- A sweep goes on behind trials that succeed. -/
theorem sweep_append (h : Passes trial xs t backs es t') (rest : List (WindowedValue ι)) :
    sweep trial (xs ++ rest) t =
      (backs.flatten ++ (sweep trial rest t').1, (sweep trial rest t').2.after es) := by
  induction h with
  | none => rfl
  | @next x xs t back t' es backs es' t'' first others ih =>
      rw [List.cons_append, sweep, first]
      simp only [ih, List.flatten_cons, List.append_assoc]
      simp [Report.after]

/-- A sweep whose trials all pass leaves exactly what they gave back. -/
theorem sweep_eq (h : Passes trial xs t backs es t') :
    sweep trial xs t = (backs.flatten, ⟨.ok (), t', es⟩) := by
  have whole := h.sweep_append []
  rw [List.append_nil] at whole
  rw [whole]
  simp [sweep, Report.after]

/--
A trial that fails ends the sweep: the elements before it are settled, it is dropped and those after
it stay as they were.
-/
theorem sweep_of_error (h : Passes trial xs t backs es t') (hx : trial x t' = ⟨.error e, t'', es'⟩)
    (rest : List (WindowedValue ι)) :
    sweep trial (xs ++ x :: rest) t = (backs.flatten ++ rest, ⟨.error e, t'', es ++ es'⟩) := by
  rw [h.sweep_append]
  simp [sweep, hx, Report.after]

end Passes

/-- Either all trials of elements succeed, or there is a first one that fails. -/
theorem passes_or_fails (trial : WindowedValue ι → Activity τ η ε (List (WindowedValue ι)))
    (xs : List (WindowedValue ι)) (t : τ) :
    (∃ backs es t', Passes trial xs t backs es t') ∨
      ∃ seen x rest backs es t' e t'' es', xs = seen ++ x :: rest ∧
        Passes trial seen t backs es t' ∧ trial x t' = ⟨.error e, t'', es'⟩ := by
  -- The state varies with the calls made so far, so the induction is on what is left to try.
  induction xs generalizing t with
  | nil => exact Or.inl ⟨[], [], t, Passes.none⟩
  | cons x xs ih =>
      cases hx : trial x t with
      | mk result t' es =>
          cases result with
          | error e =>
              exact Or.inr ⟨[], x, xs, [], [], t, e, t', es, rfl, Passes.none, hx⟩
          | ok back =>
              obtain ⟨backs, es', t'', all⟩ | ⟨seen, y, rest, backs, es', u, e, u', es'', rfl,
                passed, hy⟩ := ih t'
              · exact Or.inl ⟨_, _, _, Passes.next hx all⟩
              · exact Or.inr ⟨x :: seen, y, rest, _, _, u, e, u', es'', rfl,
                  Passes.next hx passed, hy⟩

/--
A buffer after any operations. Its hold is the smallest timestamp in it, positive infinity if it is
empty. An evaluation calls the function on the elements in order, on each once. Either every call
succeeds, and what they gave back is kept, one after another; or one is the first that fails, it is
the last call, its error is returned, and what the calls in front of it gave back is kept together
with the elements behind it.
-/
theorem buffer_exact (operations : List (Operation ι τ η ε)) (start : τ) :
    let b := (operateAll (empty, start) operations).1
    (b.elements = [] → b.minTimestamp = .maxValue) ∧
    (b.elements ≠ [] →
      b.minTimestamp.IsSmallest (b.elements.map WindowedValue.timestamp)) ∧
    ∀ (trial : WindowedValue ι → Activity τ η ε (List (WindowedValue ι))) (t : τ),
      (∃ backs es t', Passes trial b.elements t backs es t' ∧
        b.reprocess trial t = (ofElements backs.flatten, ⟨.ok (), t', es⟩) ∧
        (b.reprocess (recording trial) t).2.effects = b.elements) ∨
      ∃ seen x rest backs es t' e t'' es', b.elements = seen ++ x :: rest ∧
        Passes trial seen t backs es t' ∧ trial x t' = ⟨.error e, t'', es'⟩ ∧
        b.reprocess trial t =
          (ofElements (backs.flatten ++ rest), ⟨.error e, t'', es ++ es'⟩) ∧
        (b.reprocess (recording trial) t).2.effects = seen ++ [x] := by
  intro b
  have exact : b.Exact := Exact.operateAll (c := (empty, start)) exact_empty operations
  refine ⟨exact.eq_maxValue, exact.isSmallest, fun trial t => ?_⟩
  obtain ⟨backs, es, t', all⟩ | ⟨seen, x, rest, backs, es, t', e, t'', es', hb, passed, hx⟩ :=
    passes_or_fails trial b.elements t
  · refine Or.inl ⟨backs, es, t', all, ?_, ?_⟩
    · rw [reprocess, all.sweep_eq]
    · rw [reprocess, all.recorded.sweep_eq]
  · refine Or.inr ⟨seen, x, rest, backs, es, t', e, t'', es', hb, passed, hx, ?_, ?_⟩
    · rw [reprocess, hb, passed.sweep_of_error hx]
    · rw [reprocess, hb, passed.recorded.sweep_of_error (recording_apply hx)]

/-- Gives back each element as often as it was called before, and fails on a zero. -/
def tallying : WindowedValue Nat → Activity Nat Unit String (List (WindowedValue Nat)) :=
  fun x n => ⟨if x.value = 0 then .error "zero" else .ok (List.replicate n x), n + 1, [()]⟩

/-- An element of the first hour, at its start or right at its end. -/
def inHour (value : Nat) (early : Bool) : WindowedValue Nat :=
  ⟨value, if early then .zero else ⟨3599999, by decide, by decide⟩, [Processor.hour]⟩

/-- Operations of all kinds; the evaluation fails on the third of five elements. -/
def tallyRun : List (Operation Nat Nat Unit String) :=
  [.ofElements [inHour 9 true], .ofElements [inHour 1 true, inHour 2 false, inHour 0 true],
    .add (inHour 3 false), .add (inHour 0 false), .reprocess tallying]

theorem buffer_exact_tallyRun :
    let b := (operateAll (empty, 0) tallyRun).1
    b.elements = [inHour 2 false, inHour 3 false, inHour 0 false] ∧
      b.minTimestamp.IsSmallest (b.elements.map WindowedValue.timestamp) ∧
      (b.reprocess (recording tallying) 2).2.effects = b.elements ∧
      (b.reprocess tallying 2).1.elements =
        [inHour 2 false, inHour 2 false, inHour 3 false, inHour 3 false, inHour 3 false] := by
  obtain ⟨-, smallest, -⟩ := buffer_exact tallyRun 0
  exact ⟨by decide, smallest (by decide), by decide, by decide⟩

end Pushback

end EventStream
