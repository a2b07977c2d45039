import EventStream.Proofs.Readiness
import Mathlib.Data.List.Nodup

/-!
# Side inputs and their history

What a store of side inputs answers is told by the values that were offered to
it. A place holds what the last offer for it wrote. An offer for a side input
that does not exist is refused and changes nothing, so a place of such a side
input holds nothing.

## Implementation notes

A store is read in windows of the main input and written in windows of its side
inputs. All statements are about places first; the mapping of a side input comes
in only when a window of the main input is asked for.
-/

namespace EventStream

variable {σ ι ν ο : Type}

/-- A value on its way to the side input with an index. -/
structure Offer (ν : Type) where
  index : Nat
  value : WindowedValue ν

namespace Offer

variable {e : Offer ν} {history : List (Offer ν)} {key : SideInputKey} {v : ν}

/-- Whether an offer is for a place. -/
def Writes (e : Offer ν) (key : SideInputKey) : Prop :=
  e.index = key.1 ∧ key.2 ∈ e.value.windows

instance (e : Offer ν) (key : SideInputKey) : Decidable (e.Writes key) :=
  inferInstanceAs (Decidable (_ ∧ _))

/-- The value of the last offer for a place. -/
def LastWrite (history : List (Offer ν)) (key : SideInputKey) (v : ν) : Prop :=
  ∃ before e after, history = before ++ e :: after ∧ e.Writes key ∧ e.value.value = v ∧
    ∀ later ∈ after, ¬ later.Writes key

theorem not_lastWrite_nil : ¬ LastWrite [] key v := by
  rintro ⟨before, e, after, h, -⟩
  exact List.append_ne_nil_of_right_ne_nil before (List.cons_ne_nil e after) h.symm

/-- An offer for the place comes last, or the last offer is among those in front of it. -/
theorem lastWrite_concat_iff :
    LastWrite (history ++ [e]) key v ↔
      if e.Writes key then e.value.value = v else LastWrite history key v := by
  constructor
  · rintro ⟨before, d, after, h, hd, hv, later⟩
    induction after using List.reverseRecOn with
    | nil =>
        obtain ⟨-, hde⟩ := List.append_inj' h rfl
        obtain rfl := List.singleton_inj.1 hde
        rwa [if_pos hd]
    | append_singleton after c ih =>
        rw [← List.cons_append, ← List.append_assoc] at h
        obtain ⟨hh, hce⟩ := List.append_inj' h rfl
        obtain rfl := List.singleton_inj.1 hce
        rw [List.forall_mem_append, List.forall_mem_singleton] at later
        rw [if_neg later.2]
        exact ⟨before, d, after, hh, hd, hv, later.1⟩
  · split
    · rename_i he
      intro hv
      exact ⟨history, e, [], rfl, he, hv, fun _ h => (nomatch h)⟩
    · rename_i he
      rintro ⟨before, d, after, rfl, hd, hv, later⟩
      refine ⟨before, d, after ++ [e], by simp, hd, hv, ?_⟩
      exact List.forall_mem_append.2 ⟨later, List.forall_mem_singleton.2 he⟩

/-- A place has a last write just when there was an offer for it. -/
theorem exists_lastWrite_iff : (∃ v, LastWrite history key v) ↔ ∃ e ∈ history, e.Writes key := by
  constructor
  · rintro ⟨v, before, e, after, rfl, he, -⟩
    exact ⟨e, List.mem_append_right _ List.mem_cons_self, he⟩
  · rintro ⟨e, hm, he⟩
    induction history using List.reverseRecOn with
    | nil => cases hm
    | append_singleton history d ih =>
        by_cases hd : d.Writes key
        · exact ⟨d.value.value, lastWrite_concat_iff.2 (by rw [if_pos hd])⟩
        · have hne : e ≠ d := by
            rintro rfl
            exact hd he
          have hm : e ∈ history := by
            simpa [hne] using hm
          obtain ⟨v, hv⟩ := ih hm
          exact ⟨v, lastWrite_concat_iff.2 (by rwa [if_neg hd])⟩

end Offer

namespace SideInputs

variable {s : SideInputs ν} {specs : List SideInputSpec} {key : SideInputKey} {v : ν}
  {i : Nat} {w : Window}

/-! ## Offers one after another -/

/-- The side inputs after an offer, which changes nothing if it is refused. -/
def offered (s : SideInputs ν) (e : Offer ν) : SideInputs ν :=
  match s.insert e.index e.value with
  | .ok s' => s'
  | .error _ => s

/-- The side inputs after offers one after another. -/
def offeredAll (s : SideInputs ν) (history : List (Offer ν)) : SideInputs ν :=
  history.foldl offered s

theorem insert_of_lt (hi : i < s.count) (value : WindowedValue ν) :
    s.insert i value = .ok (s.writeAll i value) := by
  rw [insert, checkIndex, if_pos hi]

theorem insert_of_not_lt (hi : ¬ i < s.count) (value : WindowedValue ν) :
    s.insert i value = .error (.unknownSideInput i s.count) := by
  rw [insert, checkIndex, if_neg hi]

/-- An offer for a side input that does not exist leaves the store as it is. -/
theorem offered_eq (s : SideInputs ν) (e : Offer ν) :
    s.offered e = if e.index < s.count then s.writeAll e.index e.value else s := by
  rw [offered]
  split_ifs with hi
  · rw [insert_of_lt hi]
  · rw [insert_of_not_lt hi]

/-- An offer is taken in if its side input exists, and refused otherwise. -/
theorem insert_eq (s : SideInputs ν) (i : Nat) (value : WindowedValue ν) :
    s.insert i value =
      if i < s.count then .ok (s.offered ⟨i, value⟩) else .error (.unknownSideInput i s.count) := by
  rw [offered_eq]
  split_ifs with hi
  · exact insert_of_lt hi value
  · exact insert_of_not_lt hi value

@[simp] theorem specs_offered (s : SideInputs ν) (e : Offer ν) :
    (s.offered e).specs = s.specs := by
  rw [offered_eq]
  split_ifs
  · exact specs_writeAll ..
  · rfl

@[simp] theorem specs_offeredAll (s : SideInputs ν) (history : List (Offer ν)) :
    (s.offeredAll history).specs = s.specs := by
  induction history generalizing s with
  | nil => rfl
  | cons e rest ih => exact (ih (s.offered e)).trans (specs_offered s e)

theorem offeredAll_append (s : SideInputs ν) (xs ys : List (Offer ν)) :
    s.offeredAll (xs ++ ys) = (s.offeredAll xs).offeredAll ys := List.foldl_append

/-- An offer sets the places that it is for and no others. -/
theorem lookup_offered (e : Offer ν) (hk : key.1 < s.count) :
    (s.offered e).lookup key = if e.Writes key then some e.value.value else s.lookup key := by
  rw [offered_eq]
  split_ifs with hi he he
  · rw [lookup_writeAll]
    exact if_pos he
  · rw [lookup_writeAll]
    exact if_neg he
  · exact absurd (he.1 ▸ hk) hi
  · rfl

/-! ## What a place holds -/

/-- A place of a side input that exists holds what the last offer for it wrote. -/
theorem lookup_offeredAll_eq_some_iff (history : List (Offer ν)) (hk : key.1 < specs.length) :
    ((empty specs).offeredAll history).lookup key = some v ↔ Offer.LastWrite history key v := by
  induction history using List.reverseRecOn with
  | nil => exact iff_of_false nofun Offer.not_lastWrite_nil
  | append_singleton history e ih =>
      have known : key.1 < ((empty specs : SideInputs ν).offeredAll history).count := by
        rwa [count, specs_offeredAll]
      -- The last offer decides, unless it is for another place, which it leaves as it was.
      rw [offeredAll_append, Offer.lastWrite_concat_iff]
      change (SideInputs.offered _ e).lookup key = some v ↔ _
      rw [lookup_offered e known]
      split_ifs
      · exact Option.some_inj
      · exact ih

theorem get_of_getElem?_eq_some {spec : SideInputSpec} (hs : s.specs[i]? = some spec) :
    s.get i w = s.lookup (i, spec.mapping.map w) := by
  simp only [get, hs]

theorem get_of_getElem?_eq_none (hs : s.specs[i]? = none) : s.get i w = none := by
  simp only [get, hs]

section Reading
variable (history : List (Offer ν))

/-- What a window of the main input is answered is what was written last where it leads. -/
theorem get_offeredAll_eq_some_iff :
    ((empty specs).offeredAll history).get i w = some v ↔
      ∃ spec, specs[i]? = some spec ∧ Offer.LastWrite history (i, spec.mapping.map w) v := by
  have known : ((empty specs : SideInputs ν).offeredAll history).specs = specs :=
    specs_offeredAll _ history
  cases hs : specs[i]? with
  | none =>
      rw [get_of_getElem?_eq_none (by rw [known, hs])]
      simp
  | some spec =>
      obtain ⟨hi, -⟩ := List.getElem?_eq_some_iff.1 hs
      rw [get_of_getElem?_eq_some (by rw [known, hs]), lookup_offeredAll_eq_some_iff history hi]
      simp

/-- A side input shows a value in a window just when the mapped window was written. -/
theorem isSome_get_offeredAll_iff :
    (((empty specs).offeredAll history).get i w).isSome = true ↔
      ∃ spec, specs[i]? = some spec ∧ ∃ e ∈ history, e.Writes (i, spec.mapping.map w) := by
  simp only [Option.isSome_iff_exists, get_offeredAll_eq_some_iff, ← Offer.exists_lastWrite_iff]
  constructor
  · rintro ⟨v, spec, hs, hv⟩
    exact ⟨spec, hs, v, hv⟩
  · rintro ⟨spec, hs, v, hv⟩
    exact ⟨v, spec, hs, hv⟩

/-- A side input shows nothing in a window while the mapped window is unwritten. -/
theorem get_offeredAll_eq_none_iff :
    ((empty specs).offeredAll history).get i w = none ↔
      ∀ spec, specs[i]? = some spec → ∀ e ∈ history, ¬ e.Writes (i, spec.mapping.map w) := by
  rw [← Option.not_isSome_iff_eq_none, isSome_get_offeredAll_iff]
  push Not
  rfl

/-- A window is ready just when every side input was written in the window it maps to. -/
theorem allReady_offeredAll_iff :
    ((empty specs).offeredAll history).allReady w = true ↔
      ∀ i spec, specs[i]? = some spec → ∃ e ∈ history, e.Writes (i, spec.mapping.map w) := by
  rw [allReady_iff, count, specs_offeredAll]
  constructor
  · intro h i spec hs
    obtain ⟨hi, -⟩ := List.getElem?_eq_some_iff.1 hs
    obtain ⟨spec', hs', he⟩ := (isSome_get_offeredAll_iff history).1 (h i hi)
    obtain rfl := Option.some_inj.1 (hs.symm.trans hs')
    exact he
  · intro h i hi
    have hs : specs[i]? = some specs[i] := List.getElem?_eq_getElem hi
    exact (isSome_get_offeredAll_iff history).2 ⟨specs[i], hs, h i specs[i] hs⟩

end Reading

/-- More offers take no window back. -/
theorem allReady_offeredAll_append {xs : List (Offer ν)}
    (h : ((empty specs).offeredAll xs).allReady w = true) (ys : List (Offer ν)) :
    ((empty specs).offeredAll (xs ++ ys)).allReady w = true := by
  rw [allReady_offeredAll_iff] at h ⊢
  intro i spec hs
  obtain ⟨e, hm, he⟩ := h i spec hs
  exact ⟨e, List.mem_append_left ys hm, he⟩

/-! ## Side inputs by name -/

/-- Where names are unique, a side input answers to its name as it does to its index. -/
theorem getById_eq_get (hd : (s.specs.map SideInputSpec.id).Nodup) {spec : SideInputSpec}
    (hs : s.specs[i]? = some spec) (w : Window) : s.getById spec.id w = s.get i w := by
  obtain ⟨hi, rfl⟩ := List.getElem?_eq_some_iff.1 hs
  have found : s.specs.findIdx? (fun spec => spec.id == s.specs[i].id) = some i := by
    refine List.findIdx?_eq_some_iff_getElem.2 ⟨hi, beq_self_eq_true _, fun j hj he => ?_⟩
    -- The search stops at the first side input of the name, which is the only one.
    have same : s.specs[j] = s.specs[i] :=
      List.inj_on_of_nodup_map hd (List.getElem_mem _) (List.getElem_mem hi) (beq_iff_eq.1 he)
    exact absurd (hd.of_map.getElem_inj_iff.1 same) (Nat.ne_of_lt hj)
  rw [getById, found]

/-- A name that no side input has is answered nothing. -/
theorem getById_eq_none {id : SideInputId} (h : id ∉ s.specs.map SideInputSpec.id) (w : Window) :
    s.getById id w = none := by
  have missing : s.specs.findIdx? (fun spec => spec.id == id) = none := by
    refine List.findIdx?_eq_none_iff.2 fun spec hs => beq_eq_false_iff_ne.2 ?_
    rintro rfl
    exact h (List.mem_map_of_mem hs)
  rw [getById, missing]

end SideInputs

/-! ## The side inputs of a processor -/

namespace Processor

/-- Storing a value is an offer to the side inputs, and nothing else of a processor changes. -/
theorem state_storeSideInput (i : Nat) (value : WindowedValue ν) (p : Processor σ ι ν ο) :
    (storeSideInput i value p).state =
      { p with sideInputs := p.sideInputs.offered ⟨i, value⟩ } := by
  by_cases hi : i < p.sideInputs.count
  · rw [storeSideInput_known hi, SideInputs.offered_eq, if_pos hi]
    rfl
  · rw [storeSideInput_unknown hi, SideInputs.offered_eq, if_neg hi]

/-- The offer that a signal makes to the side inputs. -/
def offer? : Signal ι ν → Option (Offer ν)
  | .sideInput i v => some ⟨i, v⟩
  | _ => none

/-- Whatever else it is sent, a processor keeps the side inputs that it was offered. -/
theorem sideInputs_after {p : Processor σ ι ν ο} (hp : p.Shaped) (signals : List (Signal ι ν)) :
    (p.after signals).sideInputs = p.sideInputs.offeredAll (signals.filterMap offer?) := by
  induction signals using List.reverseRecOn with
  | nil => rfl
  | append_singleton signals s ih =>
      rw [after_concat, (step_after hp signals s).sideInputs_eq, List.filterMap_append,
        SideInputs.offeredAll_append, ← ih]
      cases s with
      | sideInput i v => exact (SideInputs.offered_eq _ ⟨i, v⟩).symm
      | _ => rfl

end Processor

namespace SideInputs

open Processor (twoSideInputs hour)

/--
A store against the offers it received, in any number and for any index and windows. For a window
of the main input a side input is answered the value of the last offer for the window that its
mapping leads to, and nothing if there was none or the index is out of range. Offers out of range
are refused and change nothing. A window is ready exactly if every side input had an offer where it
leads, and it stays ready. Where names are unique, a side input answers to its name as it does to
its index, and no other name is answered.
-/
theorem holds_last_writes (specs : List SideInputSpec) (history : List (Offer ν)) :
    let s : SideInputs ν := (empty specs).offeredAll history
    (∀ i w v, s.get i w = some v ↔
      ∃ spec, specs[i]? = some spec ∧ Offer.LastWrite history (i, spec.mapping.map w) v) ∧
    (∀ i w, s.get i w = none ↔
      ∀ spec, specs[i]? = some spec → ∀ e ∈ history, ¬ e.Writes (i, spec.mapping.map w)) ∧
    (∀ i value,
      s.insert i value = (if i < specs.length then .ok (s.offered ⟨i, value⟩)
        else .error (.unknownSideInput i specs.length)) ∧
      (¬ i < specs.length → s.offered ⟨i, value⟩ = s)) ∧
    (∀ w, s.allReady w = true ↔
      ∀ i spec, specs[i]? = some spec → ∃ e ∈ history, e.Writes (i, spec.mapping.map w)) ∧
    (∀ w more, s.allReady w = true → (s.offeredAll more).allReady w = true) ∧
    ((specs.map SideInputSpec.id).Nodup →
      (∀ i spec, specs[i]? = some spec → ∀ w, s.getById spec.id w = s.get i w) ∧
      ∀ id, id ∉ specs.map SideInputSpec.id → ∀ w, s.getById id w = none) := by
  intro s
  have known : s.specs = specs := specs_offeredAll _ history
  refine ⟨fun i w v => get_offeredAll_eq_some_iff history,
    fun i w => get_offeredAll_eq_none_iff history, fun i value => ?_,
    fun w => allReady_offeredAll_iff history, fun w more ready => ?_, fun unique => ?_⟩
  · rw [← known]
    refine ⟨s.insert_eq i value, fun hi => ?_⟩
    rw [offered_eq]
    exact if_neg hi
  · rw [← offeredAll_append]
    exact allReady_offeredAll_append ready more
  · rw [← known] at unique ⊢
    exact ⟨fun i spec hs w => getById_eq_get unique hs w, fun id hid w => getById_eq_none hid w⟩

/-- Offers that overwrite, repeat a window, have no window, and are for no side input. -/
def fiveOffers : List (Offer Nat) :=
  [⟨0, ⟨1, .zero, [hour, .global, hour]⟩⟩, ⟨1, ⟨2, .zero, [.global]⟩⟩,
    ⟨2, ⟨3, .zero, [hour, .global]⟩⟩, ⟨0, ⟨4, .zero, []⟩⟩, ⟨0, ⟨5, .zero, [.global]⟩⟩]

theorem holds_last_writes_fiveOffers :
    let s : SideInputs Nat := (empty twoSideInputs.sideInputs).offeredAll fiveOffers
    (twoSideInputs.sideInputs.map SideInputSpec.id).Nodup ∧
      s.get 0 hour = some 1 ∧ s.get 0 .global = some 5 ∧ s.get 1 hour = some 2 ∧
      s.get 2 hour = none ∧ s.getById ⟨"limits"⟩ hour = s.get 1 hour ∧
      s.getById ⟨"other"⟩ hour = none ∧ s.allReady hour = true ∧
      (s.offeredAll [⟨0, ⟨6, .zero, [hour]⟩⟩]).allReady hour = true ∧
      s.offered ⟨2, ⟨3, .zero, [hour]⟩⟩ = s := by
  have unique : (twoSideInputs.sideInputs.map SideInputSpec.id).Nodup := by decide
  obtain ⟨values, -, offers, -, stays, names⟩ :=
    holds_last_writes twoSideInputs.sideInputs fiveOffers
  obtain ⟨named, others⟩ := names unique
  have available : ((empty twoSideInputs.sideInputs).offeredAll fiveOffers).allReady hour = true :=
    rfl
  refine ⟨unique, ?_, ?_, rfl, rfl, named 1 ⟨⟨"limits"⟩, .global⟩ rfl hour,
    others ⟨"other"⟩ (by decide) hour, available, stays hour _ available,
    (offers 2 ⟨3, .zero, [hour]⟩).2 (by decide)⟩
  · refine (values 0 hour 1).2 ⟨⟨⟨"rates"⟩, .identity⟩, rfl, ?_⟩
    exact ⟨[], _, fiveOffers.tail, rfl, by decide, rfl, by decide⟩
  · refine (values 0 .global 5).2 ⟨⟨⟨"rates"⟩, .identity⟩, rfl, ?_⟩
    exact ⟨fiveOffers.dropLast, _, [], rfl, by decide, rfl, by decide⟩

end SideInputs

end EventStream
