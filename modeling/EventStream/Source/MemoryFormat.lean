import EventStream.Cbor.Codec
import EventStream.Json.Shape
import EventStream.Source.InputFormat

/-!
# Records held in memory

The records of a list are cut into consecutive splits of a fixed number of
records, the last one possibly shorter. The length of a split is the size of its
records in the binary format.

Splits travel between workers, so a reader is only opened for a split that lies
within the records at hand.
-/

namespace EventStream

open Cbor Json

/-- A range of records, with their size in bytes. -/
structure MemorySplit where
  start : UInt64
  stop : UInt64
  length : UInt64
deriving DecidableEq

instance : ToCbor MemorySplit where
  encode s := do
    return recordItem [
      ("start", ← encode s.start), ("end", ← encode s.stop), ("length", ← encode s.length)]

/-- The fields of a split that have been read. -/
structure MemorySplit.Parts where
  start : Option UInt64
  stop : Option UInt64
  length : Option UInt64

/-- What each field adds to a split. -/
def MemorySplit.Parts.field : String → Option (MemorySplit.Parts → Decoder MemorySplit.Parts)
  | "start" => some fun p => Decoder.fill p.start Decoder.word fun n => { p with start := n }
  | "end" => some fun p => Decoder.fill p.stop Decoder.word fun n => { p with stop := n }
  | "length" => some fun p => Decoder.fill p.length Decoder.word fun n => { p with length := n }
  | _ => none

/-- The split with the fields read. -/
def MemorySplit.Parts.split? (p : MemorySplit.Parts) : Option MemorySplit := do
  return ⟨← p.start, ← p.stop, ← p.length⟩

instance : FromCbor MemorySplit :=
  ⟨Decoder.record MemorySplit.Parts.field ⟨none, none, none⟩ MemorySplit.Parts.split?⟩

instance : Writable MemorySplit :=
  ⟨fun s => record [
    ("start", toJson s.start), ("end", toJson s.stop), ("length", toJson s.length)]⟩

instance : Readable MemorySplit where
  ofJson? j :=
    match fieldsOf? ["start", "end", "length"] j with
    | some [some start, some stop, some length] => do
      return ⟨← ofJson? start, ← ofJson? stop, ← ofJson? length⟩
    | _ => none

/-- Records in memory, and how many of them make a split. -/
structure MemoryFormat (κ ν : Type) where
  records : List (κ × ν)
  perSplit : Nat
  perSplit_pos : 0 < perSplit

/-- A reader of a range of records: where it began, where it ends and where it is. -/
structure MemoryReader (κ ν : Type) where
  records : List (κ × ν)
  start : Nat
  stop : Nat
  position : Nat
  closed : Bool

namespace MemoryReader

variable {κ ν : Type}

/-- The next record in the range. -/
def next (r : MemoryReader κ ν) : Except SourceError (Option (κ × ν)) × MemoryReader κ ν :=
  if r.closed then (.error .closed, r)
  else if r.stop ≤ r.position then (.ok none, r)
  else (.ok r.records[r.position]?, { r with position := r.position + 1 })

/-- The fraction of the range that was read, as numerator and denominator. -/
def fractionRead (r : MemoryReader κ ν) : Nat × Nat :=
  if r.stop = r.start then (1, 1) else (r.position - r.start, r.stop - r.start)

/-- The fraction of the range that was read, divided as doubles. -/
def progress (r : MemoryReader κ ν) : Binary64 :=
  .quotient r.fractionRead.1 r.fractionRead.2

/-- Closes the reader; it hands out nothing any more. -/
def close (r : MemoryReader κ ν) : MemoryReader κ ν := { r with closed := true }

end MemoryReader

namespace MemoryFormat

variable {κ ν : Type}

/-- The format for some records, unless the splits would be empty. -/
def make? (records : List (κ × ν)) (perSplit : Nat) : Except SourceError (MemoryFormat κ ν) :=
  if h : 0 < perSplit then .ok ⟨records, perSplit, h⟩ else .error .invalidSplitSize

/-- The number of splits. -/
def splitCount (f : MemoryFormat κ ν) : Nat := (f.records.length + f.perSplit - 1) / f.perSplit

/-- The records of the split with a number. -/
def chunk (f : MemoryFormat κ ν) (index : Nat) : List (κ × ν) :=
  (f.records.drop (index * f.perSplit)).take f.perSplit

variable [ToCbor κ] [ToCbor ν]

/-- The size of a record in bytes. -/
def recordSize (record : κ × ν) : Except SourceError Nat :=
  match encode record with
  | .ok bytes => .ok bytes.length
  | .error e => .error (.encode e)

/-- The split with a number. -/
def splitAt (f : MemoryFormat κ ν) (index : Nat) : Except SourceError MemorySplit := do
  let sizes ← (f.chunk index).mapM recordSize
  let start := index * f.perSplit
  return ⟨.ofNat start, .ofNat (start + (f.chunk index).length), .ofNat (sizes.foldr (· + ·) 0)⟩

/-- All splits in order. -/
def splits (f : MemoryFormat κ ν) : Except SourceError (List MemorySplit) :=
  (List.range f.splitCount).mapM f.splitAt

omit [ToCbor κ] [ToCbor ν] in
/-- A reader at the beginning of a split, if the split lies within the records. -/
def createReader (f : MemoryFormat κ ν) (split : MemorySplit) :
    Except SourceError (MemoryReader κ ν) :=
  let start := split.start.toNat
  let stop := split.stop.toNat
  if stop < start ∨ f.records.length < stop then
    .error (.splitOutOfRange start stop f.records.length)
  else .ok ⟨f.records, start, stop, start, false⟩

/-- The input format. It needs no world. -/
def toInputFormat (f : MemoryFormat κ ν) :
    InputFormat Unit (MemoryReader κ ν) MemorySplit κ ν where
  length split := split.length.toNat
  splits w := (f.splits, w)
  create split w := (f.createReader split, w)
  next r w := (r.next.1, r.next.2, w)
  progress r w := (.ok r.progress, r, w)
  close r w := (.ok (), r.close, w)

end MemoryFormat

end EventStream
