import EventStream.Proofs.Source.Sessions
import EventStream.Source.ScriptedFormat

/-!
# Reading converted records

However a source came by its conversions, all that is made from it reads as if there were none, and
a record is converted once, when it is shown, from what the format has read.

## Implementation notes

The types of the records that a source hands out change with its conversions. A history of a source
is indexed by the types it ends with, so the history without its conversions is one of other types.
-/

namespace EventStream

variable {φ ρ ς κ ν κ' ν' : Type}

namespace BoundedSource

/-! ## Uses of a source -/

/-- A use of a source, besides setting conversions. -/
inductive Use (φ : Type) where
  | size
  | bundles
  /-- The source is split into bundles, and the one in some place is used from then on. -/
  | bundle (i : Nat)
  /-- Others use the format and leave it in a world. -/
  | elsewhere (world : φ)

/-- The bundle in some place, if the source can be split and has that many bundles. -/
def bundleAt (format : InputFormat φ ρ ς κ ν) (i : Nat) (s : BoundedSource ς κ ν κ' ν' × φ) :
    Option (BoundedSource ς κ ν κ' ν' × φ) :=
  let report := splitIntoBundles format s
  match report.result with
  | .ok made => made[i]?.map fun bundle => (bundle, report.state.2)
  | .error _ => none

/-- The source that is used after a use, if there is one. -/
def Use.next (format : InputFormat φ ρ ς κ ν) (s : BoundedSource ς κ ν κ' ν' × φ) :
    Use φ → Option (BoundedSource ς κ ν κ' ν' × φ)
  | size => some (estimatedSizeBytes format s).state
  | bundles => some (splitIntoBundles format s).state
  | bundle i => bundleAt format i s
  | elsewhere w => some (s.1, w)

/-- A source that hands out records as the format reads them. -/
structure AsRead (s : BoundedSource ς κ ν κ ν) : Prop where
  convertKey : s.convertKey = id
  convertValue : s.convertValue = id

section AsRead
variable {format : InputFormat φ ρ ς κ ν} {s : BoundedSource ς κ ν κ ν}

theorem AsRead.forSplit (hs : s.AsRead) (split : ς) : (s.forSplit split).AsRead :=
  ⟨hs.convertKey, hs.convertValue⟩

theorem Required.asRead {w : φ} {outcome : Outcome φ ς κ ν κ ν (List ς)}
    (required : Required format s w outcome) (hs : s.AsRead) : outcome.state.1.AsRead := by
  cases required with
  | computed h asked hne => exact ⟨hs.convertKey, hs.convertValue⟩
  | _ => exact hs

theorem AsRead.estimatedSizeBytes (hs : s.AsRead) (w : φ) :
    (estimatedSizeBytes format (s, w)).state.1.AsRead := by
  cases h : s.split with
  | some split =>
      rw [estimatedSizeBytes_of_split format w h]
      exact hs
  | none =>
      rw [estimatedSizeBytes_of_unsplit format w h]
      exact (requireSplits_required format s w).asRead hs

theorem AsRead.splitIntoBundles (hs : s.AsRead) (w : φ) :
    (splitIntoBundles format (s, w)).state.1.AsRead ∧
      ∀ made, (splitIntoBundles format (s, w)).result = .ok made → ∀ b ∈ made, b.AsRead := by
  cases h : s.split with
  | some split =>
      rw [splitIntoBundles_of_split format w h]
      refine ⟨hs, fun made same b hb => ?_⟩
      cases same
      exact List.mem_singleton.1 hb ▸ hs
  | none =>
      have kept := (requireSplits_required format s w).asRead hs
      cases hr : (requireSplits format (s, w)).result with
      | error e =>
          rw [splitIntoBundles_of_error format w h hr]
          exact ⟨kept, fun made same => nomatch same⟩
      | ok splits =>
          rw [splitIntoBundles_of_ok format w h hr]
          refine ⟨kept, fun made same b hb => ?_⟩
          cases same
          obtain ⟨split, -, rfl⟩ := List.mem_map.1 hb
          exact hs.forSplit split

theorem AsRead.bundleAt (hs : s.AsRead) (w : φ) (i : Nat) :
    ∀ t ∈ bundleAt format i (s, w), t.1.AsRead := by
  intro t ht
  rw [BoundedSource.bundleAt] at ht
  cases hr : (BoundedSource.splitIntoBundles format (s, w)).result with
  | error e => simp [hr] at ht
  | ok made =>
      simp only [hr] at ht
      obtain ⟨b, hb, rfl⟩ := Option.map_eq_some_iff.1 ht
      exact (hs.splitIntoBundles w).2 made hr b (List.mem_of_getElem? hb)

/-- No use sets a conversion. -/
theorem AsRead.next (hs : s.AsRead) (w : φ) (u : Use φ) :
    ∀ t ∈ u.next format (s, w), t.1.AsRead := by
  intro t ht
  cases u with
  | size => exact Option.mem_some.1 ht ▸ hs.estimatedSizeBytes w
  | bundles => exact Option.mem_some.1 ht ▸ (hs.splitIntoBundles w).1
  | bundle i => exact hs.bundleAt w i t ht
  | elsewhere w' => exact Option.mem_some.1 ht ▸ hs

variable {κ₁ ν₁ κ₂ ν₂ : Type} (f : κ → κ₁) (g : ν → ν₁)

/-- On a source that reads without conversions a later key conversion replaces the earlier one. -/
theorem AsRead.withKeyConversion_mapRecords (hs : s.AsRead) (f' : κ → κ₂) :
    (s.mapRecords f g).withKeyConversion f' = s.mapRecords f' g := by
  simp only [mapRecords, withKeyConversion, withValueConversion, hs.convertKey, Function.comp_id]

/-- On a source that reads without conversions a later value conversion replaces the earlier one. -/
theorem AsRead.withValueConversion_mapRecords (hs : s.AsRead) (g' : ν → ν₂) :
    (s.mapRecords f g).withValueConversion g' = s.mapRecords f g' := by
  simp only [mapRecords, withKeyConversion, withValueConversion, hs.convertValue,
    Function.comp_id]

end AsRead

section Map
variable {κ₁ ν₁ κ₂ ν₂ : Type} (f : κ₁ → κ₂) (g : ν₁ → ν₂)

/-- The same source in the same world, with every record mapped. -/
def mapped (s : BoundedSource ς κ ν κ₁ ν₁ × φ) : BoundedSource ς κ ν κ₂ ν₂ × φ :=
  (s.1.mapRecords f g, s.2)

variable (format : InputFormat φ ρ ς κ ν) (s : BoundedSource ς κ ν κ₁ ν₁ × φ)

/-- Taking a bundle and converting commute. -/
theorem bundleAt_mapped (i : Nat) :
    bundleAt format i (mapped f g s) = (bundleAt format i s).map (mapped f g) := by
  obtain ⟨result, -, state⟩ := splitIntoBundles_alike (f := f) (g := g) format s.1 s.2
  have world : (splitIntoBundles format (mapped f g s)).state.2 =
      (splitIntoBundles format s).state.2 := congrArg Prod.snd state
  simp only [bundleAt, mapped] at world ⊢
  rw [result, world, Report.mapAnswer]
  cases (splitIntoBundles format s).result with
  | error e => rfl
  | ok made => simp [Except.map, Function.comp_def, mapped]

/-- A use goes on with the same source, with every record mapped. -/
theorem Use.next_mapped (u : Use φ) :
    u.next format (mapped f g s) = (u.next format s).map (mapped f g) := by
  cases u with
  | size => exact congrArg some (estimatedSizeBytes_alike format s _ rfl).state
  | bundles => exact congrArg some (splitIntoBundles_alike format s.1 s.2).state
  | bundle i => exact bundleAt_mapped f g format s i
  | elsewhere w => rfl

end Map

/-! ## Histories -/

/-- What was done to a source since it was new, by the types of the records it hands out. -/
inductive History (φ κ ν : Type) : Type → Type → Type 1 where
  | new : History φ κ ν κ ν
  | use {κ' ν' : Type} (before : History φ κ ν κ' ν') (u : Use φ) : History φ κ ν κ' ν'
  | convertKey {κ₁ κ₂ ν' : Type} (before : History φ κ ν κ₁ ν') (f : κ → κ₂) :
      History φ κ ν κ₂ ν'
  | convertValue {κ' ν₁ ν₂ : Type} (before : History φ κ ν κ' ν₁) (g : ν → ν₂) :
      History φ κ ν κ' ν₂

namespace History

/-- The conversion of keys that was set last, if any was. -/
def key {κ' ν' : Type} : History φ κ ν κ' ν' → κ → κ'
  | new => id
  | use before _ => before.key
  | convertKey _ f => f
  | convertValue before _ => before.key

/-- The conversion of values that was set last, if any was. -/
def value {κ' ν' : Type} : History φ κ ν κ' ν' → ν → ν'
  | new => id
  | use before _ => before.value
  | convertKey before _ => before.value
  | convertValue _ g => g

/-- The same uses without any conversion. -/
def unconverted {κ' ν' : Type} : History φ κ ν κ' ν' → History φ κ ν κ ν
  | new => new
  | use before u => before.unconverted.use u
  | convertKey before _ => before.unconverted
  | convertValue before _ => before.unconverted

variable (format : InputFormat φ ρ ς κ ν) (w : φ)

/-- The source that a history leads to from a world, if every bundle was there. -/
def source {κ' ν' : Type} : History φ κ ν κ' ν' → Option (BoundedSource ς κ ν κ' ν' × φ)
  | new => some (initial, w)
  | use before u => before.source.bind fun s => u.next format s
  | convertKey before f => before.source.map fun s => (s.1.withKeyConversion f, s.2)
  | convertValue before g => before.source.map fun s => (s.1.withValueConversion g, s.2)

/-- The source of a history without its conversions shows records as they are read. -/
theorem source_unconverted_asRead (h : History φ κ ν κ' ν') :
    ∀ s ∈ h.unconverted.source format w, s.1.AsRead := by
  induction h with
  | new =>
      intro s hs
      exact Option.mem_some.1 hs ▸ ⟨rfl, rfl⟩
  | use before u ih =>
      intro t ht
      obtain ⟨s, hs, next⟩ := Option.bind_eq_some_iff.1 ht
      exact (ih s hs).next s.2 u t next
  | convertKey before f ih => exact ih
  | convertValue before g ih => exact ih

/-- Conversions lead to the same source, with every record converted as was set last. -/
theorem source_eq (h : History φ κ ν κ' ν') :
    h.source format w = (h.unconverted.source format w).map (mapped h.key h.value) := by
  -- a new conversion replaces the one before, and behind it nothing else converts the record
  induction h with
  | new => rfl
  | use before u ih =>
      rw [source, ih, unconverted, source, Option.bind_map, Option.map_bind]
      congr 1
      funext s
      exact u.next_mapped before.key before.value format s
  | convertKey before f ih =>
      rw [source, ih, unconverted, Option.map_map]
      refine Option.map_congr fun s hs => congrArg (·, s.2) ?_
      have asRead := source_unconverted_asRead format w before s hs
      exact asRead.withKeyConversion_mapRecords before.key before.value f
  | convertValue before g ih =>
      rw [source, ih, unconverted, Option.map_map]
      refine Option.map_congr fun s hs => congrArg (·, s.2) ?_
      have asRead := source_unconverted_asRead format w before s hs
      exact asRead.withValueConversion_mapRecords before.key before.value g

end History

/--
Whatever the format does and whatever was done to a source: the history without its conversions
leads to a source that hands out records as the format reads them, or to none just as the history
itself does. All that is asked of the two sources from then on, of their bundles and of their
readers comes to the same, except that a record `(k, v)` that a reader shows is `(f k, g v)` with
the conversions `f` and `g` that were set last. Conversions before those do not matter, nor does
whether the splits were computed in between or a bundle was taken.
-/
theorem conversions_commute_with_reading (format : InputFormat φ ρ ς κ ν)
    (h : History φ κ ν κ' ν') (w : φ) (requests : List (Session.Request φ)) :
    (∀ s ∈ h.unconverted.source format w, s.1.AsRead) ∧
      (h.source format w).map (fun s => (Session.ofSource s).transcript format requests) =
        (h.unconverted.source format w).map fun s =>
          ((Session.ofSource s).transcript format requests).map
            (Session.Entry.mapRecords h.key h.value) := by
  refine ⟨h.source_unconverted_asRead format w, ?_⟩
  rw [h.source_eq format w, Option.map_map]
  congr 1
  funext s
  exact Session.transcript_mapRecords format (Session.ofSource s) requests

/-- A format that fails to tell its splits at first and fails once to read the second of them. -/
def stumblingFormat : ScriptedFormat Nat Nat where
  splits := [⟨⟨"a", 1⟩, []⟩, ⟨⟨"b", 2⟩, [
    { createError := none
      records := [.ok (some (1, 10)), .error "torn", .ok (some (2, 20))]
      progress := [.ok .zero]
      closeError := none }]⟩]
  splitsErrors := [some "down"]

/--
The second bundle is used, with conversions from before and after it was made. The keys are
converted anew.
-/
def windingHistory : History ScriptedWorld Nat Nat String Nat :=
  let unsplit := (History.new.convertKey fun _ => ()).use .size
  ((unsplit.convertValue (· * 2)).use (.bundle 1)).convertKey fun k =>
    if k = 1 then "one" else "more"

theorem conversions_commute_with_reading_windingHistory :
    let format := stumblingFormat.toInputFormat
    let transcript := fun s : BoundedSource ScriptedSplit Nat Nat String Nat × ScriptedWorld =>
      (Session.ofSource s).transcript format [.size 0, .reader 0, .start 0, .advance 0, .advance 0]
    ∃ s, windingHistory.unconverted.source format .initial = some s ∧ s.1.AsRead ∧
      ((windingHistory.source format .initial).map transcript).map
          (List.map fun e => (e.result.toOption, e.readers.map Session.ReaderView.current)) =
        some [(some (.size 2), []), (some .nothing, [none]),
          (some (.moved true), [some ("one", 20)]), (none, [some ("one", 20)]),
          (some (.moved true), [some ("more", 40)])] := by
  intro format transcript
  obtain ⟨asRead, same⟩ := conversions_commute_with_reading format windingHistory .initial
    [.size 0, .reader 0, .start 0, .advance 0, .advance 0]
  refine ⟨_, rfl, asRead _ rfl, (congrArg (Option.map _) same).trans ?_⟩
  decide +kernel

end BoundedSource

end EventStream
