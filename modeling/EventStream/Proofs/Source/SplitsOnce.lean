import EventStream.Proofs.Cbor.Portable
import EventStream.Proofs.Source.SourceCalls

/-!
# Splits are computed once

A source asks its format for splits until it is answered with some, and never again: its size and
all its bundles are told from that one answer, even if the format would answer differently now.
The bundles ask for nothing.

## Implementation notes

Others may use the format between two calls on a source. Every call is therefore made in a world
of its own, whatever the calls before left behind. Making a reader neither changes a source nor
asks its format for anything.
-/

namespace EventStream

variable {φ ρ ς κ ν κ' ν' κ₀ ν₀ : Type}

namespace BoundedSource

open Cbor

/-- What a format answers in a world about its splits, as often as some effects asked it. -/
def splitAnswers (format : InputFormat φ ρ ς κ ν) (w : φ) (effects : List (SourceEffect ς)) :
    List (Except SourceError (List ς)) :=
  (SourceEffect.calls effects).filterMap fun
    | .splits => some (format.splits w).1
    | _ => none

/-- The sources that calls make of a source, with all that the format answered about its splits. -/
inductive Reaches (format : InputFormat φ ρ ς κ ν) (origin : BoundedSource ς κ ν κ₀ ν₀) :
    {κ₁ ν₁ : Type} → BoundedSource ς κ ν κ₁ ν₁ → List (Except SourceError (List ς)) → Prop
  | origin : Reaches format origin origin []
  | size {κ₁ ν₁ : Type} {s : BoundedSource ς κ ν κ₁ ν₁} {asked}
      (h : Reaches format origin s asked) (w : φ) :
      Reaches format origin (estimatedSizeBytes format (s, w)).state.1
        (asked ++ splitAnswers format w (estimatedSizeBytes format (s, w)).effects)
  | bundles {κ₁ ν₁ : Type} {s : BoundedSource ς κ ν κ₁ ν₁} {asked}
      (h : Reaches format origin s asked) (w : φ) :
      Reaches format origin (splitIntoBundles format (s, w)).state.1
        (asked ++ splitAnswers format w (splitIntoBundles format (s, w)).effects)
  | convertKey {κ₁ ν₁ κ₂ : Type} {s : BoundedSource ς κ ν κ₁ ν₁} {asked}
      (h : Reaches format origin s asked) (f : κ → κ₂) :
      Reaches format origin (s.withKeyConversion f) asked
  | convertValue {κ₁ ν₁ ν₂ : Type} {s : BoundedSource ς κ ν κ₁ ν₁} {asked}
      (h : Reaches format origin s asked) (g : ν → ν₂) :
      Reaches format origin (s.withValueConversion g) asked

/--
What the size and the bundles come to if they are told from an answer about the splits: the results,
the source and world that each leaves behind, and the calls on the format.
-/
structure Tells (format : InputFormat φ ρ ς κ ν) (s : BoundedSource ς κ ν κ' ν') (w : φ)
    (answer : Except SourceError (List ς)) (left : BoundedSource ς κ ν κ' ν' × φ)
    (asks : List (FormatCall ς)) : Prop where
  size : (estimatedSizeBytes format (s, w)).result = answer.map format.totalLength
  bundles : (splitIntoBundles format (s, w)).result = answer.map (List.map s.forSplit)
  /-- The sizes of the bundles add up to the size. -/
  sizes : ∀ bundles, (splitIntoBundles format (s, w)).result = .ok bundles → ∀ w', ∃ sizes,
    bundles.mapM (fun b => (estimatedSizeBytes format (b, w')).result) = .ok sizes ∧
      (estimatedSizeBytes format (s, w)).result = .ok (sizes.foldr (· + ·) 0)
  size_leaves : (estimatedSizeBytes format (s, w)).state = left
  bundles_leaves : (splitIntoBundles format (s, w)).state = left
  size_asks : SourceEffect.calls (estimatedSizeBytes format (s, w)).effects = asks
  bundles_asks : SourceEffect.calls (splitIntoBundles format (s, w)).effects = asks

variable {format : InputFormat φ ρ ς κ ν} {s : BoundedSource ς κ ν κ' ν'} {w : φ}
  {asked : List (Except SourceError (List ς))}

/-! ## The splits that are kept -/

variable (format) in
/--
The splits kept and their size, by what was answered: nothing is kept before the first list that is
not empty, and nothing was asked behind it.
-/
inductive Cached : Option (List ς) → Nat → List (Except SourceError (List ς)) → Prop
  | unknown {size asked} (useless : ∀ splits, .ok splits ∈ asked → splits = []) :
      Cached none size asked
  | known {before splits} (useless : ∀ splits, .ok splits ∈ before → splits = [])
      (hne : splits ≠ []) :
      Cached (some splits) (format.totalLength splits) (before ++ [.ok splits])

/-- While nothing is kept, every answer was a failure or empty. -/
theorem Cached.useless {size : Nat} (h : Cached format none size asked) :
    ∀ splits, .ok splits ∈ asked → splits = [] := by
  cases h with
  | unknown useless => exact useless

section Cached
variable {kept : Option (List ς)} {size : Nat}

/-- Failures and empty answers are not kept. -/
theorem Cached.eq_none (h : Cached format kept size asked)
    (useless : ∀ splits, .ok splits ∈ asked → splits = []) : kept = none := by
  cases h with
  | unknown _ => rfl
  | @known before splits _ hne =>
      exact absurd (useless splits (List.mem_append_right before (List.mem_singleton_self _))) hne

/-- What is kept was among the answers, and the kept size is its total length. -/
theorem Cached.of_some {splits : List ς} (h : Cached format (some splits) size asked) :
    .ok splits ∈ asked ∧ size = format.totalLength splits := by
  cases h with
  | @known before _ _ _ => exact ⟨List.mem_append_right before (List.mem_singleton_self _), rfl⟩

/-- A list of splits that is not empty is the last answer, and is kept. -/
theorem Cached.of_answer {before after : List (Except SourceError (List ς))} {splits : List ς}
    (h : Cached format kept size (before ++ .ok splits :: after)) (hne : splits ≠ []) :
    after = [] ∧ kept = some splits ∧ size = format.totalLength splits := by
  generalize ha : before ++ .ok splits :: after = asked at h
  cases h with
  | unknown useless =>
      subst ha
      exact absurd (useless splits (List.mem_append_right before List.mem_cons_self)) hne
  | @known earlier splits' useless hne' =>
      rcases List.eq_nil_or_concat after with rfl | ⟨more, last, rfl⟩
      · obtain ⟨-, same⟩ := List.append_inj' ha rfl
        cases same
        exact ⟨rfl, rfl, rfl⟩
      · -- the answer would be one of those that were of no use
        rw [List.concat_eq_append, ← List.cons_append, ← List.append_assoc] at ha
        obtain ⟨rfl, -⟩ := List.append_inj' ha rfl
        exact absurd (useless splits (List.mem_append_right before List.mem_cons_self)) hne

end Cached

/-- Coming by splits keeps the cache in line with the answers so far. -/
theorem Required.cached {outcome : Outcome φ ς κ ν κ' ν' (List ς)}
    (required : Required format s w outcome) (h : Cached format s.splits s.estimatedSize asked) :
    Cached format outcome.state.1.splits outcome.state.1.estimatedSize
      (asked ++ splitAnswers format w outcome.effects) := by
  cases required with
  | kept hs =>
      have nothing : splitAnswers format w [] = [] := rfl
      rw [nothing, List.append_nil]
      exact h
  | failed hs answer =>
      have once : splitAnswers format w [.call .splits] = [(format.splits w).1] := rfl
      rw [hs] at h ⊢
      refine .unknown fun splits hm => h.useless splits ?_
      simpa [once, answer] using hm
  | empty hs answer =>
      have once : splitAnswers format w [.call .splits] = [(format.splits w).1] := rfl
      rw [hs] at h ⊢
      refine .unknown fun splits hm => ?_
      rw [once, answer, List.mem_append, List.mem_singleton] at hm
      exact hm.elim (h.useless splits) fun same => Except.ok.inj same
  | computed hs answer hne =>
      have once (note) : splitAnswers format w [.call .splits, .note note] =
        [(format.splits w).1] := rfl
      rw [hs] at h
      rw [once, answer]
      exact .known h.useless hne

variable (format) in
/-- Neither the size nor the bundles leave anything else behind than the search for splits does. -/
theorem same_as_required (hs : s.split = none) (w : φ) :
    ((estimatedSizeBytes format (s, w)).state = (requireSplits format (s, w)).state ∧
      SourceEffect.calls (estimatedSizeBytes format (s, w)).effects =
        SourceEffect.calls (requireSplits format (s, w)).effects) ∧
    ((splitIntoBundles format (s, w)).state = (requireSplits format (s, w)).state ∧
      SourceEffect.calls (splitIntoBundles format (s, w)).effects =
        SourceEffect.calls (requireSplits format (s, w)).effects) := by
  refine ⟨?_, ?_⟩
  · rw [estimatedSizeBytes_of_unsplit format w hs]
    exact ⟨rfl, rfl⟩
  · cases h : (requireSplits format (s, w)).result with
    | error e =>
        rw [splitIntoBundles_of_error format w hs h]
        exact ⟨rfl, rfl⟩
    | ok splits =>
        rw [splitIntoBundles_of_ok format w hs h, SourceEffect.calls_append]
        exact ⟨rfl, List.append_nil _⟩

theorem Required.split_eq {outcome : Outcome φ ς κ ν κ' ν' (List ς)}
    (required : Required format s w outcome) : outcome.state.1.split = s.split := by
  cases required <;> rfl

/-- A call that leaves behind what coming by the splits does keeps an unsplit source in line. -/
theorem Cached.after_call (hs : s.split = none) (h : Cached format s.splits s.estimatedSize asked)
    {α : Type} {outcome : Outcome φ ς κ ν κ' ν' α}
    (same : outcome.state = (requireSplits format (s, w)).state ∧
      SourceEffect.calls outcome.effects =
        SourceEffect.calls (requireSplits format (s, w)).effects) :
    outcome.state.1.split = none ∧
      Cached format outcome.state.1.splits outcome.state.1.estimatedSize
        (asked ++ splitAnswers format w outcome.effects) := by
  have required := requireSplits_required format s w
  rw [same.1, splitAnswers, same.2]
  exact ⟨required.split_eq.trans hs, required.cached h⟩

/-- An unsplit source stays unsplit and keeps the first list of splits that was not empty. -/
theorem Reaches.cached (h : Reaches format initial s asked) :
    s.split = none ∧ Cached format s.splits s.estimatedSize asked := by
  induction h with
  | origin => exact ⟨rfl, .unknown fun _ h => absurd h List.not_mem_nil⟩
  | size _ w ih => exact ih.2.after_call ih.1 (same_as_required format ih.1 w).1
  | bundles _ w ih => exact ih.2.after_call ih.1 (same_as_required format ih.1 w).2
  | convertKey _ f ih => exact ih
  | convertValue _ g ih => exact ih

/-- A source of one split stays one and asks for nothing. -/
theorem Reaches.of_split {origin : BoundedSource ς κ ν κ₀ ν₀} {split : ς}
    (ho : origin.split = some split) (h : Reaches format origin s asked) :
    s.split = some split ∧ asked = [] := by
  induction h with
  | origin => exact ⟨ho, rfl⟩
  | size _ w ih =>
      rw [estimatedSizeBytes_of_split format w ih.1, ih.2]
      exact ⟨ih.1, rfl⟩
  | bundles _ w ih =>
      rw [splitIntoBundles_of_split format w ih.1, ih.2]
      exact ⟨ih.1, rfl⟩
  | convertKey _ f ih => exact ih
  | convertValue _ g ih => exact ih

/-! ## What is told -/

/-- Both calls on an unsplit source tell what coming by its splits comes to. -/
theorem Required.tells (hs : s.split = none) {outcome : Outcome φ ς κ ν κ' ν' (List ς)}
    (required : Required format s w outcome)
    (size : ∀ splits, outcome.result = .ok splits →
      outcome.state.1.estimatedSize = format.totalLength splits) :
    Tells format s w outcome.result outcome.state (SourceEffect.calls outcome.effects) := by
  have eq := required.eq
  obtain ⟨⟨sizeState, sizeCalls⟩, bundlesState, bundlesCalls⟩ := same_as_required format hs w
  rw [eq] at sizeState sizeCalls bundlesState bundlesCalls
  have sized : (estimatedSizeBytes format (s, w)).result =
      outcome.result.map format.totalLength := by
    rw [estimatedSizeBytes_of_unsplit format w hs, eq]
    cases h : outcome.result with
    | error e => rfl
    | ok splits => simp [Except.map, size splits h]
  have bundled : (splitIntoBundles format (s, w)).result =
      outcome.result.map (List.map s.forSplit) := by
    cases h : outcome.result with
    | error e => rw [splitIntoBundles_of_error format w hs (by rw [eq, h]), Except.map]
    | ok splits => rw [splitIntoBundles_of_ok format w hs (by rw [eq, h]), Except.map]
  refine ⟨sized, bundled, fun bundles hb w' => ?_, sizeState, bundlesState, sizeCalls,
    bundlesCalls⟩
  cases h : outcome.result with
  | error e => simp [bundled, h, Except.map] at hb
  | ok splits =>
      obtain rfl : splits.map s.forSplit = bundles := by
        simpa [bundled, h, Except.map] using hb
      refine ⟨splits.map format.length, ?_, by rw [sized, h]; rfl⟩
      rw [mapM_eq_ok_iff, List.forall₂_map_right_iff, List.forall₂_map_left_iff, List.forall₂_same]
      intro split _
      rw [estimatedSizeBytes_of_split format w' rfl]

/-- Splits that are kept are told without asking for them. -/
theorem tells_of_kept (hs : s.split = none) {splits : List ς} (h : s.splits = some splits)
    (size : s.estimatedSize = format.totalLength splits) (w : φ) :
    Tells format s w (.ok splits) (s, w) [] :=
  (Required.kept h).tells hs fun _ same => Except.ok.inj same ▸ size

/-! ## A format that always answers the same -/

section Constant
variable {answer : Except SourceError (List ς)} (constant : ∀ w, (format.splits w).1 = answer)
include constant

theorem eq_of_mem_splitAnswers {effects : List (SourceEffect ς)} {a : Except SourceError (List ς)}
    (h : a ∈ splitAnswers format w effects) : a = answer := by
  obtain ⟨c, -, hc⟩ := List.mem_filterMap.1 h
  cases c with
  | splits => exact (Option.some.inj hc).symm.trans (constant w)
  | _ => cases hc

theorem Reaches.eq_of_mem {origin : BoundedSource ς κ ν κ₀ ν₀} (h : Reaches format origin s asked) :
    ∀ a ∈ asked, a = answer := by
  induction h with
  | origin => exact fun _ ha => absurd ha List.not_mem_nil
  | size _ w ih =>
      exact fun a ha => (List.mem_append.1 ha).elim (ih a) (eq_of_mem_splitAnswers constant)
  | bundles _ w ih =>
      exact fun a ha => (List.mem_append.1 ha).elim (ih a) (eq_of_mem_splitAnswers constant)
  | convertKey _ f ih => exact ih
  | convertValue _ g ih => exact ih

end Constant

theorem Reaches.tells_ok {splits : List ς} (constant : ∀ w, (format.splits w).1 = .ok splits)
    (hne : splits ≠ []) (h : Reaches format initial s asked) (w : φ) :
    ∃ left asks, Tells format s w (.ok splits) left asks := by
  obtain ⟨hs, cached⟩ := h.cached
  cases hk : s.splits with
  | none =>
      have answer : format.splits w = (.ok splits, (format.splits w).2) := by rw [← constant w]
      exact ⟨_, _,
        (Required.computed hk answer hne).tells hs fun _ same => Except.ok.inj same ▸ rfl⟩
  | some kept =>
      obtain ⟨told, size⟩ := (hk ▸ cached).of_some
      obtain rfl := Except.ok.inj (h.eq_of_mem constant _ told)
      exact ⟨_, _, tells_of_kept hs hk size w⟩

theorem Reaches.tells_error {e : SourceError} (constant : ∀ w, (format.splits w).1 = .error e)
    (h : Reaches format initial s asked) (w : φ) :
    s.splits = none ∧ Tells format s w (.error e) (s, (format.splits w).2) [.splits] := by
  obtain ⟨hs, cached⟩ := h.cached
  have none : s.splits = none :=
    cached.eq_none fun splits told => nomatch h.eq_of_mem constant _ told
  have answer : format.splits w = (.error e, (format.splits w).2) := by rw [← constant w]
  exact ⟨none, (Required.failed none answer).tells hs fun _ same => nomatch same⟩

/--
Whatever the format answers, and whatever was called on a source that was unsplit in the beginning:
once an answer was a list of splits that is not empty, the format is not asked again, and the size
and the bundles are told from that list. Before, each of the two asks once. An answer that is a
failure or an empty list fails the call and leaves the source as it was. The size is that of all
splits together and of all bundles together. A bundle asks for nothing, tells the size of its own
split, and is its own and only bundle.
-/
theorem splits_computed_once (format : InputFormat φ ρ ς κ ν) {s : BoundedSource ς κ ν κ' ν'}
    {asked : List (Except SourceError (List ς))} (h : Reaches format initial s asked) (w : φ) :
    (∀ before splits after, asked = before ++ .ok splits :: after → splits ≠ [] →
      after = [] ∧ Tells format s w (.ok splits) (s, w) []) ∧
    ((∀ splits, .ok splits ∈ asked → splits = []) → ∀ w',
      (∀ e, format.splits w = (.error e, w') → Tells format s w (.error e) (s, w') [.splits]) ∧
      (format.splits w = (.ok [], w') →
        Tells format s w (.error .emptySplits) (s, w') [.splits]) ∧
      ∀ splits, format.splits w = (.ok splits, w') → splits ≠ [] →
        Tells format s w (.ok splits) (s.keeping format splits, w') [.splits]) ∧
    ∀ split {κ₁ ν₁ : Type} (b : BoundedSource ς κ ν κ₁ ν₁) answers,
      Reaches format (s.forSplit split) b answers →
        b.split = some split ∧ answers = [] ∧ ∀ w',
          estimatedSizeBytes format (b, w') = ⟨.ok (format.length split), (b, w'), []⟩ ∧
          splitIntoBundles format (b, w') = ⟨.ok [b], (b, w'), [.note .alreadySplit]⟩ := by
  obtain ⟨hs, cached⟩ := h.cached
  refine ⟨fun before splits after answer hne => ?_, fun useless w' => ?_,
    fun split _ _ b answers hb => ?_⟩
  · obtain ⟨last, kept, size⟩ := (answer ▸ cached).of_answer hne
    exact ⟨last, tells_of_kept hs kept size w⟩
  · have none : s.splits = none := cached.eq_none useless
    refine ⟨fun e answer => ?_, fun answer => ?_, fun splits answer hne => ?_⟩
    · exact (Required.failed none answer).tells hs fun _ same => nomatch same
    · exact (Required.empty none answer).tells hs fun _ same => nomatch same
    · exact (Required.computed none answer hne).tells hs fun _ same => Except.ok.inj same ▸ rfl
  · obtain ⟨same, none⟩ := hb.of_split rfl
    exact ⟨same, none, fun w' =>
      ⟨estimatedSizeBytes_of_split format w' same, splitIntoBundles_of_split format w' same⟩⟩

/-- A format that fails, then has no splits, and then has other splits whenever it is asked. -/
def restlessFormat : InputFormat (List (Except SourceError (List Nat))) Unit Nat Nat Nat where
  length split := split
  splits answers := (answers.headD (.error (.format "silent")), answers.tail)
  create _ answers := (.ok (), answers)
  next r answers := (.ok none, r, answers)
  progress r answers := (.ok .one, r, answers)
  close r answers := (.ok (), r, answers)

theorem splits_computed_once_restlessFormat :
    ∃ s : BoundedSource Nat Nat Nat String Nat,
      Reaches restlessFormat initial s [.error (.format "down"), .ok [], .ok [3, 4]] ∧
        (splitIntoBundles restlessFormat (s, [.ok [5]])).result = .ok [s.forSplit 3, s.forSplit 4] ∧
        (estimatedSizeBytes restlessFormat (s, [.ok [5]])).result = .ok 7 ∧
        (estimatedSizeBytes restlessFormat (s.forSplit 4, [.ok [5]])).result = .ok 4 := by
  have begun : Reaches restlessFormat (initial : BoundedSource Nat Nat Nat Nat Nat) initial [] :=
    .origin
  have asked := begun.size [.error (.format "down")]
  have again := (asked.bundles [.ok []]).convertKey (toString : Nat → String)
  have found := again.size [.ok [3, 4]]
  obtain ⟨told, -, bundle⟩ := splits_computed_once restlessFormat found [.ok [5]]
  obtain ⟨-, tells⟩ := told [.error (.format "down"), .ok []] [3, 4] [] rfl (by decide)
  exact ⟨_, found, tells.bundles, tells.size, congrArg Report.result
    ((bundle 4 _ [] .origin).2.2 [.ok [5]]).1⟩

end BoundedSource

end EventStream
