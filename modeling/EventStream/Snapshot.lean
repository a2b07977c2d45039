import EventStream.Interchange.Binary
import EventStream.Processor

/-!
# Snapshots of processors

A snapshot holds what a processor keeps between signals: the pushed back
elements, the values of its side inputs and its watermarks. The life of the
processor and the state of its user function are not part of it.

Restoring takes all of a snapshot or nothing. The values of a snapshot are
written in the order of their encodings, so that equal stores have equal
snapshots.
-/

namespace EventStream

open Cbor

/-- A value of a side input with its place. -/
structure SideInputEntry (ν : Type) where
  index : Nat
  window : Window
  value : ν

/-- What a processor keeps between signals. -/
structure Snapshot (ι ν : Type) where
  pushedBack : List (WindowedValue ι)
  sideInputs : List (SideInputEntry ν)
  inputWatermark : Timestamp
  outputWatermark : Timestamp

variable {σ ι ν ο : Type}

instance [ToCbor ν] : ToCbor (SideInputEntry ν) where
  encode e := do return arrayItem [unsignedItem e.index, ← encode e.window, ← encode e.value]

instance [FromCbor ν] : FromCbor (SideInputEntry ν) where
  decoder := Decoder.tuple fun left => do
    let (index, left) ← Decoder.nextItem Decoder.word left
    let (window, left) ← Decoder.nextItem Window.decoder left
    let (value, _) ← Decoder.nextItem FromCbor.decoder left
    return ⟨index.toNat, window, value⟩

instance [ToCbor ι] [ToCbor ν] : ToCbor (Snapshot ι ν) where
  encode s := do
    let pushedBack ← encode s.pushedBack
    let entries ← s.sideInputs.mapM encode
    return recordItem [
      ("pushed_back", pushedBack),
      ("side_inputs", arrayItem (entries.mergeSort Bytes.before)),
      ("input_watermark", ← encode s.inputWatermark),
      ("output_watermark", ← encode s.outputWatermark)]

/-- The fields of a snapshot that have been read. -/
structure Snapshot.Parts (ι ν : Type) where
  pushedBack : Option (List (WindowedValue ι))
  sideInputs : Option (List (SideInputEntry ν))
  inputWatermark : Option Timestamp
  outputWatermark : Option Timestamp

/-- What each field adds to a snapshot. -/
def Snapshot.Parts.field [FromCbor ι] [FromCbor ν] :
    String → Option (Snapshot.Parts ι ν → Decoder (Snapshot.Parts ι ν))
  | "pushed_back" =>
    some fun p => Decoder.fill p.pushedBack FromCbor.decoder fun b => { p with pushedBack := b }
  | "side_inputs" =>
    some fun p => Decoder.fill p.sideInputs FromCbor.decoder fun i => { p with sideInputs := i }
  | "input_watermark" =>
    some fun p =>
      Decoder.fill p.inputWatermark FromCbor.decoder fun w => { p with inputWatermark := w }
  | "output_watermark" =>
    some fun p =>
      Decoder.fill p.outputWatermark FromCbor.decoder fun w => { p with outputWatermark := w }
  | _ => none

/-- The snapshot with the fields read. -/
def Snapshot.Parts.snapshot? (p : Snapshot.Parts ι ν) : Option (Snapshot ι ν) := do
  return ⟨← p.pushedBack, ← p.sideInputs, ← p.inputWatermark, ← p.outputWatermark⟩

instance [FromCbor ι] [FromCbor ν] : FromCbor (Snapshot ι ν) :=
  ⟨Decoder.record Snapshot.Parts.field ⟨none, none, none, none⟩ Snapshot.Parts.snapshot?⟩

namespace SideInputs

/-- The values with their places. -/
def entries (s : SideInputs ν) : List (SideInputEntry ν) :=
  s.values.map fun e => ⟨e.1.1, e.1.2, e.2⟩

/-- Writes values at their places, the later ones over the earlier, unless an index is unknown. -/
def writeEntries (s : SideInputs ν) :
    List (SideInputEntry ν) → Except ProcessingError (SideInputs ν)
  | [] => .ok s
  | e :: rest =>
    match s.checkIndex e.index with
    | .ok () => (s.write (e.index, e.window) e.value).writeEntries rest
    | .error err => .error err

end SideInputs

namespace Processor

/-- What a processor keeps between signals. -/
def toSnapshot (p : Processor σ ι ν ο) : Snapshot ι ν :=
  ⟨p.pushback.elements, p.sideInputs.entries, p.watermarks.input, p.watermarks.output⟩

/-- The encoded snapshot of a processor. -/
def snapshot [ToCbor ι] [ToCbor ν] (p : Processor σ ι ν ο) : Except ProcessingError Bytes :=
  (encode p.toSnapshot).mapError .encode

/-- Replaces what a processor keeps between signals by a snapshot. -/
def load (s : Snapshot ι ν) : Call σ ι ν ο Unit := fun p =>
  match (SideInputs.empty p.config.sideInputs).writeEntries s.sideInputs with
  | .error e => ⟨.error e, p, []⟩
  | .ok sideInputs =>
    let watermarks := p.watermarks.restore s.inputWatermark s.outputWatermark
    ⟨.ok (),
      { p with
        sideInputs := sideInputs
        pushback := .ofElements s.pushedBack
        watermarks := watermarks },
      [.note (.restored s.pushedBack.length watermarks.output)]⟩

/-- Replaces what a processor keeps between signals by an encoded snapshot. -/
def restore [FromCbor ι] [FromCbor ν] (bytes : Bytes) : Call σ ι ν ο Unit := fun p =>
  match decode (Snapshot ι ν) bytes with
  | .ok s => load s p
  | .error e => ⟨.error (.decode e), p, []⟩

end Processor

end EventStream
