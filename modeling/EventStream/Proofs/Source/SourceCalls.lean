import EventStream.Source.BoundedSource

/-!
# What calls on a source come to

An unsplit source needs its splits for its size and for its bundles. It has kept them, or it
asks the format for them, which may fail or leave it without any. The relation below lists these
ways with everything they leave behind; the size and the bundles are told from it. A source of
one split needs none of this.
-/

namespace EventStream

variable {φ ρ ς κ ν κ' ν' : Type}

/-- The size of some splits together. -/
def InputFormat.totalLength (format : InputFormat φ ρ ς κ ν) (splits : List ς) : Nat :=
  (splits.map format.length).foldr (· + ·) 0

namespace BoundedSource

/-- What a call on a source leaves behind. -/
abbrev Outcome (φ ς κ ν κ' ν' α : Type) : Type :=
  Report (BoundedSource ς κ ν κ' ν' × φ) (SourceEffect ς) SourceError α

variable (format : InputFormat φ ρ ς κ ν) (s : BoundedSource ς κ ν κ' ν') (w : φ)

/-- The source that has kept some splits. -/
def keeping (splits : List ς) : BoundedSource ς κ ν κ' ν' :=
  { s with splits := some splits, estimatedSize := format.totalLength splits }

/-- The ways in which a source comes by its splits. -/
inductive Required : Outcome φ ς κ ν κ' ν' (List ς) → Prop
  | kept {splits} (h : s.splits = some splits) : Required ⟨.ok splits, (s, w), []⟩
  | failed {e w'} (h : s.splits = none) (asked : format.splits w = (.error e, w')) :
      Required ⟨.error e, (s, w'), [.call .splits]⟩
  | empty {w'} (h : s.splits = none) (asked : format.splits w = (.ok [], w')) :
      Required ⟨.error .emptySplits, (s, w'), [.call .splits]⟩
  | computed {splits w'} (h : s.splits = none) (asked : format.splits w = (.ok splits, w'))
      (hne : splits ≠ []) :
      Required ⟨.ok splits, (s.keeping format splits, w'),
        [.call .splits, .note (.splitsComputed splits.length (format.totalLength splits))]⟩

/-- Asking the format for splits is a way of coming by them. -/
theorem computeSplits_required (h : s.splits = none) :
    Required format s w (computeSplits format (s, w)) := by
  rw [computeSplits, Activity.bind_apply, askSplits]
  cases asked : format.splits w with
  | mk result w' =>
      cases result with
      | error e => exact .failed h asked
      | ok splits =>
          cases splits with
          | nil => exact .empty h asked
          | cons split rest => exact .computed h asked (List.cons_ne_nil split rest)

/-- A source comes by its splits from what it kept or from the format. -/
theorem requireSplits_required : Required format s w (requireSplits format (s, w)) := by
  rw [requireSplits, Activity.bind_apply, Activity.read_apply]
  dsimp only
  cases h : s.splits with
  | some splits => exact .kept h
  | none => exact computeSplits_required format s w h

/-- A source comes by its splits in one way. -/
theorem Required.eq {format : InputFormat φ ρ ς κ ν} {s : BoundedSource ς κ ν κ' ν'} {w : φ}
    {outcome : Outcome φ ς κ ν κ' ν' (List ς)} (required : Required format s w outcome) :
    requireSplits format (s, w) = outcome := by
  have actual := requireSplits_required format s w
  generalize requireSplits format (s, w) = outcome' at actual
  cases required <;> cases actual <;> simp_all

/-! ## An unsplit source -/

section Unsplit
variable {s} (hs : s.split = none)
include hs

/-- The size of an unsplit source is what it kept with its splits. -/
theorem estimatedSizeBytes_of_unsplit :
    estimatedSizeBytes format (s, w) =
      ⟨(requireSplits format (s, w)).result.map fun _ =>
          (requireSplits format (s, w)).state.1.estimatedSize,
        (requireSplits format (s, w)).state, (requireSplits format (s, w)).effects⟩ := by
  rw [estimatedSizeBytes, Activity.bind_apply, Activity.read_apply]
  simp only [hs]
  cases h : (requireSplits format (s, w)).result with
  | error e =>
      rw [Activity.bind_of_error h]
      rfl
  | ok splits =>
      rw [Activity.bind_of_ok h, Activity.bind_apply, Activity.read_apply]
      simp [Report.after, Except.map]

/-- A source that cannot come by its splits makes no bundle and passes the failure on. -/
theorem splitIntoBundles_of_error {e : SourceError}
    (h : (requireSplits format (s, w)).result = .error e) :
    splitIntoBundles format (s, w) =
      ⟨.error e, (requireSplits format (s, w)).state, (requireSplits format (s, w)).effects⟩ := by
  rw [splitIntoBundles, Activity.bind_apply, Activity.read_apply]
  simp only [hs]
  rw [Activity.bind_of_error h]
  rfl

/-- A source makes one bundle for each of its splits, in order. -/
theorem splitIntoBundles_of_ok {splits : List ς}
    (h : (requireSplits format (s, w)).result = .ok splits) :
    splitIntoBundles format (s, w) =
      ⟨.ok (splits.map s.forSplit), (requireSplits format (s, w)).state,
        (requireSplits format (s, w)).effects ++
          [.note (.bundlesMade splits.length ((splits.head?.map format.length).getD 0))]⟩ := by
  rw [splitIntoBundles, Activity.bind_apply, Activity.read_apply]
  simp only [hs]
  rw [Activity.bind_of_ok h]
  rfl

end Unsplit

/-! ## A source of one split -/

section Split
variable {s} {split : ς} (hs : s.split = some split)
include hs

/-- The size of a bundle is the length of its split, and nothing is asked for it. -/
theorem estimatedSizeBytes_of_split :
    estimatedSizeBytes format (s, w) = ⟨.ok (format.length split), (s, w), []⟩ := by
  rw [estimatedSizeBytes, Activity.bind_apply, Activity.read_apply]
  simp only [hs]
  rfl

/-- A bundle is not split again. -/
theorem splitIntoBundles_of_split :
    splitIntoBundles format (s, w) = ⟨.ok [s], (s, w), [.note .alreadySplit]⟩ := by
  rw [splitIntoBundles, Activity.bind_apply, Activity.read_apply]
  simp only [hs]
  rfl

end Split

end BoundedSource

end EventStream
