import EventStream.Label
import EventStream.Window

/-!
# Configuration of a processor

A configuration is fixed when a processor is made. It is rejected if it asks for
more side outputs than there are channels, or if a name is not unique.

## Implementation notes

The checks are made in a fixed order and the first one that fails is reported:
the number of side outputs, then the side outputs in channel order, each against
the main output before the ones in front of it, then the side inputs.
-/

namespace EventStream

/-- The number of side-output channels of a processor. -/
def maxSideOutputs : Nat := 5

/-- A side input that a processor may consult. -/
structure SideInputSpec where
  id : SideInputId
  mapping : WindowMapping
deriving DecidableEq

/-- Outputs and side inputs of a processor. The position of a side input is its index. -/
structure Config where
  mainOutput : OutputTag
  sideOutputs : List OutputTag
  sideInputs : List SideInputSpec
  traces : Bool
deriving DecidableEq

/-- The name of the main output unless it is given another one. -/
def defaultMainOutput : OutputTag := ⟨"main"⟩

/-- Why a configuration is rejected. -/
inductive ConfigError where
  | tooManySideOutputs (requested : Nat)
  | repeatedSideOutput (tag : OutputTag)
  | sideOutputIsMain (tag : OutputTag)
  | repeatedSideInput (id : SideInputId)
deriving DecidableEq

/-- What a rejected configuration tells its author. -/
def ConfigError.message : ConfigError → String
  | tooManySideOutputs requested =>
      "too many side outputs (" ++ toString requested ++ "), currently only supporting " ++
        toString maxSideOutputs
  | repeatedSideOutput tag =>
      "side output tag '" ++ tag.name ++ "' was configured more than once"
  | sideOutputIsMain tag =>
      "side output tag '" ++ tag.name ++ "' is also used as main output tag"
  | repeatedSideInput id => "side input '" ++ id.name ++ "' was configured more than once"

namespace Config

/-- The first fault of side outputs that follow the ones already `seen`. -/
def checkOutputs (main : OutputTag) (seen : List OutputTag) :
    List OutputTag → Except ConfigError Unit
  | [] => .ok ()
  | tag :: rest =>
    if tag = main then .error (.sideOutputIsMain tag)
    else if tag ∈ seen then .error (.repeatedSideOutput tag)
    else checkOutputs main (tag :: seen) rest

/-- The first repeated name among side inputs that follow the ones already `seen`. -/
def checkInputs (seen : List SideInputId) : List SideInputId → Except ConfigError Unit
  | [] => .ok ()
  | id :: rest =>
    if id ∈ seen then .error (.repeatedSideInput id) else checkInputs (id :: seen) rest

/-- Accepts a configuration or names its first fault. -/
def validate (c : Config) : Except ConfigError Unit :=
  if maxSideOutputs < c.sideOutputs.length then
    .error (.tooManySideOutputs c.sideOutputs.length)
  else
    match checkOutputs c.mainOutput [] c.sideOutputs with
    | .error e => .error e
    | .ok () => checkInputs [] (c.sideInputs.map SideInputSpec.id)

/--
Side outputs pass when they are distinct from each other, from the main output and from those seen
before.
-/
theorem checkOutputs_eq_ok_iff {main : OutputTag} {seen tags : List OutputTag} :
    checkOutputs main seen tags = .ok () ↔
      main ∉ tags ∧ tags.Nodup ∧ ∀ tag ∈ tags, tag ∉ seen := by
  induction tags generalizing seen with
  | nil => simp [checkOutputs]
  | cons tag rest ih =>
      simp only [checkOutputs]
      split
      · simp_all
      · split
        · simp_all
        · rw [ih]
          simp only [List.mem_cons, List.nodup_cons, not_or]
          constructor
          · rintro ⟨hm, hn, hs⟩
            refine ⟨⟨fun h => ?_, hm⟩, ⟨fun h => (hs _ h).1 rfl, hn⟩, fun t ht => ?_⟩
            · simp_all
            · rcases ht with rfl | ht
              · assumption
              · exact (hs t ht).2
          · rintro ⟨⟨_, hm⟩, ⟨ht, hn⟩, hs⟩
            exact ⟨hm, hn, fun t h => ⟨fun he => ht (he ▸ h), hs t (.inr h)⟩⟩

/-- Side inputs pass when they are distinct from each other and from those seen before. -/
theorem checkInputs_eq_ok_iff {seen ids : List SideInputId} :
    checkInputs seen ids = .ok () ↔ ids.Nodup ∧ ∀ id ∈ ids, id ∉ seen := by
  induction ids generalizing seen with
  | nil => simp [checkInputs]
  | cons id rest ih =>
      simp only [checkInputs]
      split
      · simp_all
      · rw [ih]
        simp only [List.mem_cons, List.nodup_cons, not_or]
        constructor
        · rintro ⟨hn, hs⟩
          refine ⟨⟨fun h => (hs _ h).1 rfl, hn⟩, fun t ht => ?_⟩
          rcases ht with rfl | ht
          · assumption
          · exact (hs t ht).2
        · rintro ⟨⟨ht, hn⟩, hs⟩
          exact ⟨hn, fun t h => ⟨fun he => ht (he ▸ h), hs t (.inr h)⟩⟩

/-- The rules a configuration has to keep. -/
structure Valid (c : Config) : Prop where
  fewOutputs : c.sideOutputs.length ≤ maxSideOutputs
  outputsDistinct : c.sideOutputs.Nodup
  mainApart : c.mainOutput ∉ c.sideOutputs
  inputsDistinct : (c.sideInputs.map SideInputSpec.id).Nodup

/-- A configuration is accepted exactly if it keeps every rule. -/
theorem validate_eq_ok_iff {c : Config} : c.validate = .ok () ↔ c.Valid := by
  unfold validate
  split
  · rename_i h
    exact ⟨fun hc => (nomatch hc), fun v => absurd v.fewOutputs (Nat.not_le.2 h)⟩
  · rename_i h
    split
    · rename_i e he
      refine ⟨fun hc => (nomatch hc), fun v => ?_⟩
      have := checkOutputs_eq_ok_iff.2 ⟨v.mainApart, v.outputsDistinct, fun t _ => List.not_mem_nil⟩
      rw [he] at this
      cases this
    · rename_i he
      have ho := checkOutputs_eq_ok_iff.1 he
      rw [checkInputs_eq_ok_iff]
      exact ⟨fun hi => ⟨Nat.not_lt.1 h, ho.2.1, ho.1, hi.1⟩,
        fun v => ⟨v.inputsDistinct, fun _ _ => List.not_mem_nil⟩⟩

end Config

end EventStream
