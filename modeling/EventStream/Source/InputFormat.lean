import EventStream.Binary64
import EventStream.Source.Failure

/-!
# Input formats

An input format cuts a source into splits and opens a reader for each of them. A
reader hands out the records of its split in order and estimates how much of it
has been read.

## Implementation notes

A format and its readers share a world, which every call may change; a reader
has a state of its own besides. Any call may fail, and its changes stay.
-/

namespace EventStream

/--
An input format with world `φ`, readers `ρ`, splits `ς`, and records of a key `κ` and a value `ν`.
-/
structure InputFormat (φ ρ ς κ ν : Type) where
  /-- The size of a split in bytes. -/
  length : ς → Nat
  /-- All splits of the source. -/
  splits : φ → Except SourceError (List ς) × φ
  /-- A reader at the beginning of a split. -/
  create : ς → φ → Except SourceError ρ × φ
  /-- The next record of a reader, none at the end of its split. -/
  next : ρ → φ → Except SourceError (Option (κ × ν)) × ρ × φ
  /-- The fraction of its split that a reader has read, as it believes. -/
  progress : ρ → φ → Except SourceError Binary64 × ρ × φ
  /-- Closes a reader. -/
  close : ρ → φ → Except SourceError Unit × ρ × φ

end EventStream
