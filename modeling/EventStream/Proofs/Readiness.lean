import EventStream.Proofs.Run

/-!
# Readiness of windows

A window of the main input is available once every configured side input has a
value in the window it maps to. Values are never removed, so an available
window stays available.
-/

namespace EventStream

variable {σ ι ν ο : Type}

namespace SideInputs

/-- A window is ready exactly if each side input has a value where its mapping leads. -/
theorem allReady_iff_lookup {s : SideInputs ν} {w : Window} :
    s.allReady w = true ↔
      ∀ e ∈ s.specs.zipIdx, (s.lookup (e.2, e.1.mapping.map w)).isSome = true := by
  rw [allReady_iff]
  constructor
  · rintro h ⟨spec, i⟩ he
    have hi := List.mem_zipIdx_iff_getElem?.1 he
    have hg := h i (List.getElem?_eq_some_iff.1 hi).1
    simpa only [get, hi] using hg
  · intro h i hi
    have he : (s.specs[i], i) ∈ s.specs.zipIdx :=
      List.mem_zipIdx_iff_getElem?.2 (List.getElem?_eq_getElem hi)
    simpa only [get, List.getElem?_eq_getElem hi] using h _ he

theorem isSome_lookup_writeAll {s : SideInputs ν} {key : SideInputKey}
    (h : (s.lookup key).isSome = true) (index : Nat) (value : WindowedValue ν) :
    ((s.writeAll index value).lookup key).isSome = true := by
  rw [lookup_writeAll]
  split
  · rfl
  · exact h

end SideInputs

namespace Processor

/-- Every configured side input has a value for the window it maps a main-input window to. -/
def Available (p : Processor σ ι ν ο) (w : Window) : Prop :=
  ∀ e ∈ p.config.sideInputs.zipIdx, (p.sideInputs.lookup (e.2, e.1.mapping.map w)).isSome = true

instance (p : Processor σ ι ν ο) (w : Window) : Decidable (p.Available w) :=
  inferInstanceAs (Decidable (∀ e ∈ p.config.sideInputs.zipIdx, _))

variable {p : Processor σ ι ν ο} {s : Signal ι ν} {w : Window}
  {r : Report (Processor σ ι ν ο) (Effect ι ο) ProcessingError Unit}

theorem Shaped.allReady_iff (hp : p.Shaped) (w : Window) :
    p.sideInputs.allReady w = true ↔ p.Available w := by
  rw [SideInputs.allReady_iff_lookup, hp.specs]
  rfl

theorem Shaped.allReady_eq (hp : p.Shaped) (w : Window) :
    p.sideInputs.allReady w = decide (p.Available w) := by
  rw [Bool.eq_iff_iff, hp.allReady_iff, decide_eq_true_iff]

theorem available_store (h : p.Available w) (i : Nat) (v : WindowedValue ν) :
    (p.store i v).Available w :=
  fun e he => SideInputs.isSome_lookup_writeAll (h e he) i v

/-- Handling a signal takes no window back. -/
theorem Step.available (h : Step p s r) (hw : p.Available w) : r.state.Available w := by
  cases h with
  | interrupted hi h => exact available_store hw _ _
  | reevaluated hi h _ => exact available_store hw _ _
  | _ => exact hw

/-- A window that is available at some point of a run stays available. -/
theorem available_after (hp : p.Shaped) (xs ys : List (Signal ι ν))
    (hw : (p.after xs).Available w) : (p.after (xs ++ ys)).Available w := by
  induction ys using List.reverseRecOn with
  | nil => simpa using hw
  | append_singleton ys s ih =>
      rw [← List.append_assoc, after_concat]
      exact (step_after hp (xs ++ ys) s).available ih

/-! ## The values of a run -/

/-- The side inputs after a signal: a value is taken in if its side input is known. -/
theorem Step.sideInputs_eq (h : Step p s r) :
    r.state.sideInputs =
      match s with
      | .sideInput i v => if i < p.sideInputs.count then p.sideInputs.writeAll i v else p.sideInputs
      | _ => p.sideInputs := by
  cases h with
  | unknown hi => exact (if_neg hi).symm
  | interrupted hi h => exact (if_pos hi).symm
  | reevaluated hi h hw => exact (if_pos hi).symm
  | _ => rfl

/-- Signals that never write two different values in one place. -/
def Consistent (signals : List (Signal ι ν)) : Prop :=
  ∀ i v v', .sideInput i v ∈ signals → .sideInput i v' ∈ signals →
    ∀ w ∈ v.windows, w ∈ v'.windows → v.value = v'.value

/-- A value of a run was written by one of its signals. -/
theorem written_of_lookup_after (hp : p.Fresh) {signals : List (Signal ι ν)} {key : SideInputKey}
    {value : ν} (h : (p.after signals).sideInputs.lookup key = some value) :
    key.1 < p.config.sideInputs.length ∧
      ∃ v, .sideInput key.1 v ∈ signals ∧ key.2 ∈ v.windows ∧ v.value = value := by
  induction signals using List.reverseRecOn with
  | nil =>
      obtain ⟨config, function, user, slot, -, rfl⟩ := hp.exists_eq
      cases h
  | append_singleton signals s ih =>
      have before (hl : (p.after signals).sideInputs.lookup key = some value) :
          key.1 < p.config.sideInputs.length ∧
            ∃ v, .sideInput key.1 v ∈ signals ++ [s] ∧ key.2 ∈ v.windows ∧ v.value = value := by
        obtain ⟨hi, v, hv, hw⟩ := ih hl
        exact ⟨hi, v, List.mem_append_left _ hv, hw⟩
      rw [after_concat, (step_after hp.shaped signals s).sideInputs_eq] at h
      cases s with
      | sideInput i v =>
          by_cases hi : i < (p.after signals).sideInputs.count
          · simp only [if_pos hi, SideInputs.lookup_writeAll] at h
            by_cases hk : i = key.1 ∧ key.2 ∈ v.windows
            · rw [if_pos hk] at h
              cases h
              rw [SideInputs.count, specs_after hp.shaped] at hi
              refine ⟨hk.1 ▸ hi, v, ?_, hk.2, rfl⟩
              rw [← hk.1]
              exact List.mem_append_right _ List.mem_cons_self
            · rw [if_neg hk] at h
              exact before h
          · simp only [if_neg hi] at h
            exact before h
      | _ => exact before h

/-- A place that a signal wrote has a value. -/
theorem isSome_lookup_after (hp : p.Shaped) {signals : List (Signal ι ν)} {i : Nat}
    {v : WindowedValue ν} (hi : i < p.config.sideInputs.length) (hv : .sideInput i v ∈ signals)
    (hw : w ∈ v.windows) : ((p.after signals).sideInputs.lookup (i, w)).isSome = true := by
  induction signals using List.reverseRecOn with
  | nil => cases hv
  | append_singleton signals s ih =>
      rw [after_concat, (step_after hp signals s).sideInputs_eq]
      rcases List.mem_append.1 hv with hv | hv
      · have hl := ih hv
        cases s with
        | sideInput j v' =>
            by_cases hj : j < (p.after signals).sideInputs.count
            · simp only [if_pos hj]
              exact SideInputs.isSome_lookup_writeAll hl j v'
            · simp only [if_neg hj]
              exact hl
        | _ => exact hl
      · cases List.mem_singleton.1 hv
        have hj : i < (p.after signals).sideInputs.count := by
          rwa [SideInputs.count, specs_after hp]
        simp only [if_pos hj]
        rw [SideInputs.lookup_writeAll, if_pos ⟨rfl, hw⟩]
        rfl

/-- The values of a run without contradictions are those its signals wrote. -/
theorem lookup_after_eq_some_iff (hp : p.Fresh) {signals : List (Signal ι ν)}
    (hc : Consistent signals) {key : SideInputKey} {value : ν} :
    (p.after signals).sideInputs.lookup key = some value ↔
      key.1 < p.config.sideInputs.length ∧
        ∃ v, .sideInput key.1 v ∈ signals ∧ key.2 ∈ v.windows ∧ v.value = value := by
  refine ⟨written_of_lookup_after hp, ?_⟩
  rintro ⟨hi, v, hv, hw, rfl⟩
  obtain ⟨value, hl⟩ := Option.isSome_iff_exists.1 (isSome_lookup_after hp.shaped hi hv hw)
  obtain ⟨-, v', hv', hw', rfl⟩ := written_of_lookup_after hp hl
  rw [hc key.1 v v' hv hv' key.2 hw hw']
  exact hl

/-- A value once written stays as it is if no signal contradicts another. -/
theorem lookup_after_append (hp : p.Fresh) {xs ys : List (Signal ι ν)} (hc : Consistent (xs ++ ys))
    {key : SideInputKey} (h : ((p.after xs).sideInputs.lookup key).isSome = true) :
    (p.after (xs ++ ys)).sideInputs.lookup key = (p.after xs).sideInputs.lookup key := by
  obtain ⟨value, hl⟩ := Option.isSome_iff_exists.1 h
  obtain ⟨hi, v, hv, hw⟩ := written_of_lookup_after hp hl
  rw [hl]
  exact (lookup_after_eq_some_iff hp hc).2 ⟨hi, v, List.mem_append_left _ hv, hw⟩

end Processor

end EventStream
