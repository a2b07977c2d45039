import EventStream.Proofs.Commands
import Mathlib.Data.List.Nodup

/-!
# Accepted configurations

Processors and routers are made from the same configurations: those that keep
every rule. A configuration that is rejected is told a rule it really breaks. In
an accepted one every side output has a channel of its own.
-/

namespace EventStream

variable {σ ι ν ο : Type}

namespace Config

/-- The rule that an error says is broken. -/
def Breaks (c : Config) : ConfigError → Prop
  | .tooManySideOutputs requested =>
      requested = c.sideOutputs.length ∧ maxSideOutputs < requested
  | .repeatedSideOutput tag => 1 < c.sideOutputs.count tag
  | .sideOutputIsMain tag => tag = c.mainOutput ∧ tag ∈ c.sideOutputs
  | .repeatedSideInput id => 1 < (c.sideInputs.map SideInputSpec.id).count id

section Repeated
variable {α : Type} [DecidableEq α] {a b : α} {seen rest : List α}

theorem one_lt_count_of_mem (h : a ∈ seen) : 1 < (a :: rest ++ seen).count a := by
  have := List.count_pos_iff.2 h
  rw [List.count_append, List.count_cons_self]
  omega

theorem one_lt_count_of_append (h : 1 < (rest ++ b :: seen).count a) :
    1 < (b :: rest ++ seen).count a := by
  rwa [List.perm_middle.count_eq a] at h

end Repeated

/--
An objection to the outputs names the main output among the side outputs or a tag declared twice.
-/
theorem checkOutputs_eq_error {main : OutputTag} {seen tags : List OutputTag} {e : ConfigError}
    (h : checkOutputs main seen tags = .error e) :
    (e = .sideOutputIsMain main ∧ main ∈ tags) ∨
      ∃ tag, e = .repeatedSideOutput tag ∧ 1 < (tags ++ seen).count tag := by
  induction tags generalizing seen with
  | nil => cases h
  | cons tag rest ih =>
      simp only [checkOutputs] at h
      split at h
      · rename_i hm
        cases h
        exact Or.inl ⟨by rw [hm], hm ▸ List.mem_cons_self⟩
      · split at h
        · rename_i hs
          cases h
          exact Or.inr ⟨tag, rfl, one_lt_count_of_mem hs⟩
        · obtain ⟨he, hm⟩ | ⟨t, he, ht⟩ := ih h
          · exact Or.inl ⟨he, List.mem_cons_of_mem _ hm⟩
          · exact Or.inr ⟨t, he, one_lt_count_of_append ht⟩

/-- An objection to the side inputs names one declared twice. -/
theorem checkInputs_eq_error {seen ids : List SideInputId} {e : ConfigError}
    (h : checkInputs seen ids = .error e) :
    ∃ id, e = .repeatedSideInput id ∧ 1 < (ids ++ seen).count id := by
  induction ids generalizing seen with
  | nil => cases h
  | cons id rest ih =>
      simp only [checkInputs] at h
      split at h
      · rename_i hs
        cases h
        exact ⟨id, rfl, one_lt_count_of_mem hs⟩
      · obtain ⟨i, he, hi⟩ := ih h
        exact ⟨i, he, one_lt_count_of_append hi⟩

/-- The fault that a rejected configuration is told is there. -/
theorem breaks_of_validate {c : Config} {e : ConfigError} (h : c.validate = .error e) :
    c.Breaks e := by
  unfold validate at h
  split at h
  · rename_i hl
    cases h
    exact ⟨rfl, hl⟩
  · split at h
    · rename_i e' he
      cases h
      obtain ⟨rfl, hm⟩ | ⟨tag, rfl, ht⟩ := checkOutputs_eq_error he
      · exact ⟨rfl, hm⟩
      · rwa [List.append_nil] at ht
    · obtain ⟨id, rfl, hi⟩ := checkInputs_eq_error h
      rwa [List.append_nil] at hi

end Config

namespace Router

variable {r : Router} {tag : Option OutputTag}

/-- A router exists just for the valid configurations. -/
theorem exists_ofConfig?_iff {c : Config} : (∃ r, ofConfig? c = .ok r) ↔ c.Valid := by
  rw [← Config.validate_eq_ok_iff, ofConfig?]
  cases c.validate <;> simp

theorem ofConfig?_eq_error_iff {c : Config} {e : ConfigError} :
    ofConfig? c = .error e ↔ c.validate = .error e := by
  rw [ofConfig?]
  cases c.validate <;> simp

/-- A tag leads to the side output declared under it, and to the main output if there is none. -/
theorem channel_some (r : Router) (t : OutputTag) :
    r.channel (some t) =
      match r.sideOutputs.idxOf? t with
      | some i => .side i
      | none => .main := rfl

/-- Exactly the results with the name of a side output go to its channel. -/
theorem channel_eq_side_iff (hd : r.sideOutputs.Nodup) {i : Nat} :
    r.channel tag = .side i ↔ ∃ t, tag = some t ∧ r.sideOutputs[i]? = some t := by
  cases tag with
  | none => simp
  | some t =>
      rw [channel_some]
      cases hj : r.sideOutputs.idxOf? t with
      | none =>
          have absent := List.idxOf?_eq_none_iff.1 hj
          constructor
          · intro h
            cases h
          · rintro ⟨u, hu, hi⟩
            cases hu
            exact absurd (List.mem_of_getElem? hi) absent
      | some j =>
          obtain ⟨hl, ht, -⟩ := List.idxOf?_eq_some_iff.1 hj
          constructor
          · intro h
            cases h
            exact ⟨t, rfl, List.getElem?_eq_some_iff.2 ⟨hl, ht⟩⟩
          · rintro ⟨u, hu, hi⟩
            cases hu
            obtain ⟨hil, hit⟩ := List.getElem?_eq_some_iff.1 hi
            rw [hd.getElem_inj_iff.1 (ht.trans hit.symm)]

/-- All other results go to the main output. -/
theorem channel_eq_main_iff : r.channel tag = .main ↔ ∀ t, tag = some t → t ∉ r.sideOutputs := by
  cases tag with
  | none => simp
  | some t =>
      rw [channel_some]
      cases hj : r.sideOutputs.idxOf? t with
      | none => simpa using List.idxOf?_eq_none_iff.1 hj
      | some j =>
          obtain ⟨hl, ht, -⟩ := List.idxOf?_eq_some_iff.1 hj
          have known : t ∈ r.sideOutputs := ht ▸ List.getElem_mem hl
          simp [known]

end Router

namespace Processor

/-- A processor exists just for the valid configurations. -/
theorem exists_make?_iff {config : Config} {function : UserFunction σ ι ν ο} {user : σ} :
    (∃ p, make? config function user = .ok p) ↔ config.Valid := by
  simp [make?_eq_ok_iff, Config.validate_eq_ok_iff]

/-- A processor is refused with the objection to its configuration. -/
theorem make?_eq_error_iff {config : Config} {function : UserFunction σ ι ν ο} {user : σ}
    {e : ConfigError} : make? config function user = .error e ↔ config.validate = .error e := by
  rw [make?]
  cases config.validate <;> simp

/-- A processor that was made has a valid configuration. -/
theorem Made.valid {p : Processor σ ι ν ο} (h : p.Made) : p.config.Valid := by
  obtain ⟨config, function, user, slot, hv, rfl⟩ := h.exists_eq
  exact Config.validate_eq_ok_iff.1 hv

end Processor

end EventStream
