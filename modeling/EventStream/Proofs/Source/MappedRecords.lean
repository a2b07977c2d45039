import EventStream.Proofs.Alike
import EventStream.Proofs.Source.ReaderCalls
import EventStream.Proofs.Source.SourceCalls

/-!
# Records mapped once more

A source and its readers hand on what their conversions give and never look at it. If every record
is mapped once more behind the conversions, all calls go as before: they come to the same results,
make the same calls on the format and leave the same log entries. What is shown is mapped.

## Implementation notes

The maps are put behind the conversions and replace nothing. This makes the statements hold of
every source and every reader, whatever conversions it has.
-/

namespace EventStream

variable {φ ρ ς κ ν κ₁ ν₁ κ₂ ν₂ : Type}

/-! ## Readers -/

namespace BoundedReader

section Map
variable (f : κ₁ → κ₂) (g : ν₁ → ν₂)

/-- The same reader with every record mapped, the one it shows included. -/
def mapRecords (r : BoundedReader ρ ς κ ν κ₁ ν₁) : BoundedReader ρ ς κ ν κ₂ ν₂ :=
  { r with
    convertKey := f ∘ r.convertKey
    convertValue := g ∘ r.convertValue
    current := r.current.map (Prod.map f g) }

/-- The second reader is the first one with every record mapped, in the same world. -/
def Mapped (s : BoundedReader ρ ς κ ν κ₁ ν₁ × φ) (t : BoundedReader ρ ς κ ν κ₂ ν₂ × φ) : Prop :=
  t = (s.1.mapRecords f g, s.2)

section Tells
variable (r : BoundedReader ρ ς κ ν κ₁ ν₁)

@[simp] theorem mapRecords_reader : (r.mapRecords f g).reader = r.reader := rfl

@[simp] theorem mapRecords_current :
    (r.mapRecords f g).current = r.current.map (Prod.map f g) := rfl

@[simp] theorem mapRecords_recordsReturned :
    (r.mapRecords f g).recordsReturned = r.recordsReturned := rfl

end Tells

/-- A record that is moved to is mapped when it is shown. -/
theorem mapRecords_moveTo (x : κ × ν) (r : BoundedReader ρ ς κ ν κ₁ ν₁) :
    (r.moveTo x).mapRecords f g = (r.mapRecords f g).moveTo x := rfl

end Map

variable {f : κ₁ → κ₂} {g : ν₁ → ν₂}

/-! ### Steps -/

/-- What comes after a look at the reader decides whether calls go alike. -/
theorem read_bind_alike {α : Type}
    {x : BoundedReader ρ ς κ ν κ₁ ν₁ × φ → Call φ ρ ς κ ν κ₁ ν₁ α}
    {y : BoundedReader ρ ς κ ν κ₂ ν₂ × φ → Call φ ρ ς κ ν κ₂ ν₂ α}
    (rest : ∀ r w, Activity.Alike (Mapped f g) (x (r, w)) (y (r.mapRecords f g, w))) :
    Activity.Alike (Mapped f g) (Activity.read >>= x) (Activity.read >>= y) := by
  rintro ⟨r, w⟩ _ rfl
  exact rest r w _ _ rfl

/-- What comes after a change that commutes with the map decides whether calls go alike. -/
theorem change_bind_alike {α : Type}
    {change₁ : BoundedReader ρ ς κ ν κ₁ ν₁ → BoundedReader ρ ς κ ν κ₁ ν₁}
    {change₂ : BoundedReader ρ ς κ ν κ₂ ν₂ → BoundedReader ρ ς κ ν κ₂ ν₂}
    {x : Unit → Call φ ρ ς κ ν κ₁ ν₁ α} {y : Unit → Call φ ρ ς κ ν κ₂ ν₂ α}
    (h : ∀ r, (change₁ r).mapRecords f g = change₂ (r.mapRecords f g))
    (rest : ∀ u, Activity.Alike (Mapped f g) (x u) (y u)) :
    Activity.Alike (Mapped f g) (change change₁ >>= x) (change change₂ >>= y) := by
  rintro ⟨r, w⟩ _ rfl
  exact rest () _ _ (congrArg (·, w) (h r).symm)

theorem ensureNotClosed_alike :
    Activity.Alike (Mapped f g) (ensureNotClosed : Call φ ρ ς κ ν κ₁ ν₁ Unit) ensureNotClosed := by
  rintro ⟨r, w⟩ _ rfl
  exact ⟨rfl, rfl, rfl⟩

theorem release_alike :
    Activity.Alike (Mapped f g) (release : Call φ ρ ς κ ν κ₁ ν₁ (Option (OpenReader ρ)))
      release := by
  rintro ⟨r, w⟩ _ rfl
  exact ⟨rfl, rfl, rfl⟩

theorem logExhausted_alike :
    Activity.Alike (Mapped f g) (logExhausted : Call φ ρ ς κ ν κ₁ ν₁ Unit) logExhausted := by
  rintro ⟨r, w⟩ _ rfl
  exact ⟨rfl, rfl, rfl⟩

variable (format : InputFormat φ ρ ς κ ν)

section Behind
variable (behind : OpenReader ρ)

theorem closeBehind_alike :
    Activity.Alike (Mapped f g) (closeBehind format behind : Call φ ρ ς κ ν κ₁ ν₁ Unit)
      (closeBehind format behind) := by
  rintro ⟨r, w⟩ _ rfl
  exact ⟨rfl, rfl, rfl⟩

/-- The format reads the same records, whatever becomes of them. -/
theorem readBehind_alike :
    Activity.Alike (Mapped f g) (readBehind format behind : Call φ ρ ς κ ν κ₁ ν₁ _)
      (readBehind format behind) := by
  rintro ⟨r, w⟩ _ rfl
  exact ⟨rfl, rfl, rfl⟩

theorem progressBehind_alike :
    Activity.Alike (Mapped f g) (progressBehind format behind : Call φ ρ ς κ ν κ₁ ν₁ _)
      (progressBehind format behind) := by
  rintro ⟨r, w⟩ _ rfl
  exact ⟨rfl, rfl, rfl⟩

end Behind

/-- A reader of the format is opened for the split, which has no conversions. -/
theorem openBehind_alike :
    Activity.Alike (Mapped f g) (openBehind format : Call φ ρ ς κ ν κ₁ ν₁ (OpenReader ρ))
      (openBehind format) := by
  rintro ⟨r, w⟩ _ rfl
  cases create : format.create r.split w with
  | mk result w' =>
      have create' : format.create (r.mapRecords f g).split w = (result, w') := create
      cases result with
      | error e =>
          rw [openBehind_of_error format r w create, openBehind_of_error format _ w create']
          exact ⟨rfl, rfl, rfl⟩
      | ok state =>
          rw [openBehind_of_ok format r w create, openBehind_of_ok format _ w create']
          exact ⟨rfl, rfl, rfl⟩

/-! ### Calls -/

theorem closeOpen_alike :
    Activity.Alike (Mapped f g) (closeOpen format : Call φ ρ ς κ ν κ₁ ν₁ Unit)
      (closeOpen format) := by
  apply release_alike.bind
  intro opened
  cases opened with
  | none => exact Activity.alike_pure _ ()
  | some behind => exact closeBehind_alike format behind

theorem abandon_alike (behind : OpenReader ρ) :
    Activity.Alike (Mapped f g) (abandon format behind : Call φ ρ ς κ ν κ₁ ν₁ Unit)
      (abandon format behind) := by
  apply (closeBehind_alike format behind).attempt.bind
  intro closed
  cases closed with
  | error e => exact Activity.alike_report _ _
  | ok u => exact Activity.alike_pure _ ()

/-- The first read finds a record, or none, or fails, in the same way. -/
theorem readFirst_alike (behind : OpenReader ρ) :
    Activity.Alike (Mapped f g) (readFirst format behind : Call φ ρ ς κ ν κ₁ ν₁ Bool)
      (readFirst format behind) := by
  apply (readBehind_alike format behind).bind
  rintro ⟨result, behind⟩
  cases result with
  | error e => exact (abandon_alike format behind).bind fun _ => Activity.alike_fail _ e
  | ok found =>
      cases found with
      | some record =>
          exact change_bind_alike (fun _ => rfl) fun _ => Activity.alike_pure _ true
      | none =>
          apply (closeBehind_alike format behind).bind fun _ => ?_
          exact change_bind_alike (fun _ => rfl) fun _ => Activity.alike_pure _ false

/-- A start goes alike whether or not records are mapped. -/
theorem start_alike :
    Activity.Alike (Mapped f g) (start format : Call φ ρ ς κ ν κ₁ ν₁ Bool) (start format) := by
  apply ensureNotClosed_alike.bind fun _ => ?_
  refine change_bind_alike (fun _ => rfl) fun _ => ?_
  apply (closeOpen_alike format).bind fun _ => ?_
  refine change_bind_alike (fun _ => rfl) fun _ => ?_
  exact (openBehind_alike format).bind fun behind => readFirst_alike format behind

/-- Progress is claimed by the reader of the format, which knows of no conversions. -/
theorem updateProgress_alike (behind : OpenReader ρ) :
    Activity.Alike (Mapped f g)
      (updateProgress format behind : Call φ ρ ς κ ν κ₁ ν₁ (OpenReader ρ))
      (updateProgress format behind) := by
  apply (progressBehind_alike format behind).bind
  rintro ⟨result, behind⟩
  refine change_bind_alike (fun _ => rfl) fun _ => ?_
  apply (Activity.alike_ofExcept _ result).bind fun claimed => ?_
  refine change_bind_alike (fun _ => rfl) fun _ => ?_
  exact Activity.alike_pure _ behind

theorem advanceBehind_alike (behind : OpenReader ρ) :
    Activity.Alike (Mapped f g) (advanceBehind format behind : Call φ ρ ς κ ν κ₁ ν₁ Bool)
      (advanceBehind format behind) := by
  apply (updateProgress_alike format behind).bind
  intro behind
  apply (readBehind_alike format behind).bind
  rintro ⟨result, behind⟩
  refine change_bind_alike (fun _ => rfl) fun _ => ?_
  apply (Activity.alike_ofExcept _ result).bind fun found => ?_
  cases found with
  | some record =>
      exact change_bind_alike (fun r => mapRecords_moveTo f g record r) fun _ =>
        Activity.alike_pure _ true
  | none =>
      refine change_bind_alike (fun _ => rfl) fun _ => ?_
      exact logExhausted_alike.bind fun _ => Activity.alike_pure _ false

/-- An advance goes alike whether or not records are mapped. -/
theorem advance_alike :
    Activity.Alike (Mapped f g) (advance format : Call φ ρ ς κ ν κ₁ ν₁ Bool) (advance format) := by
  apply ensureNotClosed_alike.bind fun _ => read_bind_alike fun r w => ?_
  refine Activity.Alike.ite Iff.rfl (Activity.alike_pure _ false) ?_
  rw [mapRecords_reader]
  cases r.reader with
  | none => exact Activity.alike_fail _ _
  | some behind => exact advanceBehind_alike format behind

/-- A close goes alike whether or not records are mapped. -/
theorem close_alike :
    Activity.Alike (Mapped f g) (close format : Call φ ρ ς κ ν κ₁ ν₁ Unit) (close format) := by
  apply read_bind_alike fun r w => ?_
  refine Activity.Alike.ite Iff.rfl (Activity.alike_pure _ ()) ?_
  rw [mapRecords_recordsReturned]
  apply (Activity.alike_report _ _).bind fun _ => ?_
  exact change_bind_alike (fun _ => rfl) fun _ => closeOpen_alike format

end BoundedReader

/-! ## Sources -/

namespace BoundedSource

section Map
variable (f : κ₁ → κ₂) (g : ν₁ → ν₂)

/-- The same source with every record mapped. -/
def mapRecords (s : BoundedSource ς κ ν κ₁ ν₁) : BoundedSource ς κ ν κ₂ ν₂ :=
  (s.withKeyConversion (f ∘ s.convertKey)).withValueConversion (g ∘ s.convertValue)

/-- The second source is the first one with every record mapped, in the same world. -/
def Mapped (s : BoundedSource ς κ ν κ₁ ν₁ × φ) (t : BoundedSource ς κ ν κ₂ ν₂ × φ) : Prop :=
  t = (s.1.mapRecords f g, s.2)

variable (s : BoundedSource ς κ ν κ₁ ν₁)

@[simp] theorem mapRecords_split : (s.mapRecords f g).split = s.split := rfl

/-- A bundle takes its conversions over from its source. -/
theorem mapRecords_forSplit (split : ς) :
    (s.forSplit split).mapRecords f g = (s.mapRecords f g).forSplit split := rfl

/-- A source makes a reader whether or not records are mapped. -/
theorem createReader_mapRecords :
    (s.mapRecords f g).createReader =
      (s.createReader : Except SourceError (BoundedReader ρ ς κ ν κ₁ ν₁)).map
        (BoundedReader.mapRecords f g) := by
  rw [createReader, createReader, mapRecords_split]
  cases s.split <;> rfl

end Map

variable {f : κ₁ → κ₂} {g : ν₁ → ν₂} (format : InputFormat φ ρ ς κ ν)

/-- A source comes by its splits in the same way whether or not records are mapped. -/
theorem requireSplits_alike :
    Activity.Alike (Mapped f g) (requireSplits format : Call φ ς κ ν κ₁ ν₁ (List ς))
      (requireSplits format) := by
  rintro ⟨s, w⟩ _ rfl
  have required := requireSplits_required format s w
  generalize requireSplits format (s, w) = outcome at required
  cases required with
  | kept h =>
      rw [(Required.kept (s := s.mapRecords f g) h).eq]
      exact ⟨rfl, rfl, rfl⟩
  | failed h asked =>
      rw [(Required.failed (s := s.mapRecords f g) h asked).eq]
      exact ⟨rfl, rfl, rfl⟩
  | empty h asked =>
      rw [(Required.empty (s := s.mapRecords f g) h asked).eq]
      exact ⟨rfl, rfl, rfl⟩
  | computed h asked hne =>
      rw [(Required.computed (s := s.mapRecords f g) h asked hne).eq]
      exact ⟨rfl, rfl, rfl⟩

/-- A source tells its size whether or not records are mapped. -/
theorem estimatedSizeBytes_alike :
    Activity.Alike (Mapped f g) (estimatedSizeBytes format : Call φ ς κ ν κ₁ ν₁ Nat)
      (estimatedSizeBytes format) := by
  rintro ⟨s, w⟩ _ rfl
  cases hs : s.split with
  | some split =>
      have hs' : (s.mapRecords f g).split = some split := hs
      rw [estimatedSizeBytes_of_split format w hs, estimatedSizeBytes_of_split format w hs']
      exact ⟨rfl, rfl, rfl⟩
  | none =>
      have hs' : (s.mapRecords f g).split = none := hs
      obtain ⟨result, effects, state⟩ := requireSplits_alike (f := f) (g := g) format (s, w) _ rfl
      rw [estimatedSizeBytes_of_unsplit format w hs, estimatedSizeBytes_of_unsplit format w hs']
      refine ⟨?_, effects, state⟩
      rw [result, state]
      rfl

/-- The bundles of a source whose records are mapped are its bundles with their records mapped. -/
theorem splitIntoBundles_alike (s : BoundedSource ς κ ν κ₁ ν₁) (w : φ) :
    Report.Alike (Mapped f g)
      ((splitIntoBundles format (s, w)).mapAnswer (List.map (mapRecords f g)))
      (splitIntoBundles format (s.mapRecords f g, w)) := by
  cases hs : s.split with
  | some split =>
      have hs' : (s.mapRecords f g).split = some split := hs
      rw [splitIntoBundles_of_split format w hs, splitIntoBundles_of_split format w hs']
      exact ⟨rfl, rfl, rfl⟩
  | none =>
      have hs' : (s.mapRecords f g).split = none := hs
      obtain ⟨result, effects, state⟩ := requireSplits_alike (f := f) (g := g) format (s, w) _ rfl
      cases h : (requireSplits format (s, w)).result with
      | error e =>
          rw [splitIntoBundles_of_error format w hs h,
            splitIntoBundles_of_error format w hs' (result.trans h)]
          exact ⟨rfl, effects, state⟩
      | ok splits =>
          rw [splitIntoBundles_of_ok format w hs h,
            splitIntoBundles_of_ok format w hs' (result.trans h)]
          refine ⟨congrArg Except.ok ?_, congrArg (· ++ _) effects, state⟩
          rw [List.map_map]
          exact List.map_congr_left fun split _ => (mapRecords_forSplit f g s split).symm

end BoundedSource

end EventStream
