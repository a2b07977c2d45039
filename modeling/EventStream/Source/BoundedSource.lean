import EventStream.Source.BoundedReader

/-!
# Bounded sources

A source has finitely many records. It starts out unsplit; its splits are
computed once, when they are first needed, and kept. Every split makes a source
of its own, and only those can be read.

Keys and values are handed out as the format reads them unless a conversion was
set; a conversion replaces the one before it.
-/

namespace EventStream

/-- A source, unsplit or of one split, with the conversions of its records. -/
structure BoundedSource (ς κ ν κ' ν' : Type) where
  split : Option ς
  splits : Option (List ς)
  estimatedSize : Nat
  convertKey : κ → κ'
  convertValue : ν → ν'

namespace BoundedSource

variable {φ ρ ς κ ν κ' ν' κ'' ν'' : Type}

/-- A call on a source in the world of its format. -/
abbrev Call (φ ς κ ν κ' ν' α : Type) :=
  Activity (BoundedSource ς κ ν κ' ν' × φ) (SourceEffect ς) SourceError α

/-- The unsplit source that hands out records as they are. -/
def initial : BoundedSource ς κ ν κ ν := ⟨none, none, 0, id, id⟩

/-- The same source with its keys converted. -/
def withKeyConversion (s : BoundedSource ς κ ν κ' ν') (f : κ → κ'') :
    BoundedSource ς κ ν κ'' ν' :=
  { s with convertKey := f }

/-- The same source with its values converted. -/
def withValueConversion (s : BoundedSource ς κ ν κ' ν') (g : ν → ν'') :
    BoundedSource ς κ ν κ' ν'' :=
  { s with convertValue := g }

/-- The source of one split. -/
def forSplit (s : BoundedSource ς κ ν κ' ν') (split : ς) : BoundedSource ς κ ν κ' ν' :=
  { s with split := some split, splits := none, estimatedSize := 0 }

/-- A reader of the split of a source. -/
def createReader (s : BoundedSource ς κ ν κ' ν') :
    Except SourceError (BoundedReader ρ ς κ ν κ' ν') :=
  match s.split with
  | some split => .ok (.initial split s.convertKey s.convertValue)
  | none => .error .notSplit

variable (format : InputFormat φ ρ ς κ ν)

/-- Asks the format for the splits. -/
def askSplits : Call φ ς κ ν κ' ν' (List ς) := fun (s, w) =>
  let (result, w') := format.splits w
  ⟨result, (s, w'), [.call .splits]⟩

/-- Asks the format for the splits and keeps them, unless there are none. -/
def computeSplits : Call φ ς κ ν κ' ν' (List ς) := do
  let splits ← askSplits format
  if splits.isEmpty then Activity.fail .emptySplits
  let total := (splits.map format.length).foldr (· + ·) 0
  Activity.report [.note (.splitsComputed splits.length total)]
  Activity.update fun (s, w) => ({ s with splits := some splits, estimatedSize := total }, w)
  return splits

/-- The splits of an unsplit source, computed if that has not been done. -/
def requireSplits : Call φ ς κ ν κ' ν' (List ς) := do
  let (s, _) ← Activity.read
  match s.splits with
  | some splits => return splits
  | none => computeSplits format

/-- One source for each split. A source of one split is its own and only bundle. -/
def splitIntoBundles : Call φ ς κ ν κ' ν' (List (BoundedSource ς κ ν κ' ν')) := do
  let (s, _) ← Activity.read
  match s.split with
  | some _ =>
    Activity.report [.note .alreadySplit]
    return [s]
  | none =>
    let splits ← requireSplits format
    Activity.report
      [.note (.bundlesMade splits.length ((splits.head?.map format.length).getD 0))]
    return splits.map s.forSplit

/-- The size of the source in bytes: that of its split, or of all splits together. -/
def estimatedSizeBytes : Call φ ς κ ν κ' ν' Nat := do
  let (s, _) ← Activity.read
  match s.split with
  | some split => return format.length split
  | none =>
    let _ ← requireSplits format
    let (s, _) ← Activity.read
    return s.estimatedSize

end BoundedSource

end EventStream
