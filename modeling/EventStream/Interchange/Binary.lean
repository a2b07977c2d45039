import EventStream.Cbor.Codec
import EventStream.Config
import EventStream.WindowedValue

/-!
# Binary form of the types that travel

Timestamps are integers and names are texts. Windows and window mappings are
variants; everything else is a record. Only the mapping of a side input may be
left out, it is then the identity.
-/

namespace EventStream

open Cbor

instance : ToCbor Timestamp := ⟨fun t => .ok (integerItem t.millis)⟩

/-- An integer in the range of timestamps. -/
def Timestamp.decoder : Decoder Timestamp := do
  Decoder.ofOption (Timestamp.ofInt? (← Decoder.integer))

instance : FromCbor Timestamp := ⟨Timestamp.decoder⟩

/-! ## Windows -/

/-- The item of a window. -/
def Window.item : Window → Bytes
  | .global => textItem "Global"
  | .interval start stop =>
    mapItem [(textItem "Interval",
      recordItem [("start", integerItem start.millis), ("end", integerItem stop.millis)])]

instance : ToCbor Window := ⟨fun w => .ok w.item⟩

/-- The bounds of an interval that have been read. -/
structure Window.Bounds where
  start : Option Timestamp
  stop : Option Timestamp

/-- What each field adds to the bounds of an interval. -/
def Window.Bounds.field : String → Option (Window.Bounds → Decoder Window.Bounds)
  | "start" => some fun b => Decoder.fill b.start Timestamp.decoder fun t => { b with start := t }
  | "end" => some fun b => Decoder.fill b.stop Timestamp.decoder fun t => { b with stop := t }
  | _ => none

/-- The interval with the bounds read. -/
def Window.Bounds.interval? (b : Window.Bounds) : Option Window := do
  return .interval (← b.start) (← b.stop)

/-- The bounds of an interval, by name or in order. -/
def Window.boundsDecoder : Decoder Window :=
  Decoder.fields
    (Decoder.record Window.Bounds.field ⟨none, none⟩ Window.Bounds.interval?)
    (do
      let (start, stop) ← Decoder.pair Timestamp.decoder Timestamp.decoder
      return .interval start stop)

/-- A window. -/
def Window.decoder : Decoder Window :=
  Decoder.variant fun
    | "Global" => some (return .global)
    | "Interval" => some Window.boundsDecoder
    | _ => none

instance : FromCbor Window := ⟨Window.decoder⟩

/-- The item of a window mapping. -/
def WindowMapping.item : WindowMapping → Bytes
  | .identity => textItem "Identity"
  | .global => textItem "Global"

instance : ToCbor WindowMapping := ⟨fun m => .ok m.item⟩

/-- A window mapping. -/
def WindowMapping.decoder : Decoder WindowMapping :=
  Decoder.variant fun
    | "Identity" => some (return .identity)
    | "Global" => some (return .global)
    | _ => none

instance : FromCbor WindowMapping := ⟨WindowMapping.decoder⟩

/-! ## Names and configurations -/

instance : ToCbor OutputTag := ⟨fun t => encode t.name⟩
instance : FromCbor OutputTag := ⟨do return ⟨← Decoder.text⟩⟩

instance : ToCbor SideInputId := ⟨fun i => encode i.name⟩
instance : FromCbor SideInputId := ⟨do return ⟨← Decoder.text⟩⟩

instance : ToCbor SideInputSpec where
  encode s := do return recordItem [("id", ← encode s.id), ("mapping", ← encode s.mapping)]

/-- The fields of a side input that have been read. -/
structure SideInputSpec.Parts where
  id : Option SideInputId
  mapping : Option WindowMapping

/-- What each field adds to a side input. -/
def SideInputSpec.Parts.field : String → Option (SideInputSpec.Parts → Decoder SideInputSpec.Parts)
  | "id" => some fun p => Decoder.fill p.id FromCbor.decoder fun i => { p with id := i }
  | "mapping" =>
    some fun p => Decoder.fill p.mapping FromCbor.decoder fun m => { p with mapping := m }
  | _ => none

/-- The side input with the fields read. -/
def SideInputSpec.Parts.spec? (p : SideInputSpec.Parts) : Option SideInputSpec := do
  return ⟨← p.id, p.mapping.getD default⟩

instance : FromCbor SideInputSpec :=
  ⟨Decoder.record SideInputSpec.Parts.field ⟨none, none⟩ SideInputSpec.Parts.spec?⟩

instance : ToCbor Config where
  encode c := do
    return recordItem [
      ("main_output_tag", ← encode c.mainOutput),
      ("side_output_tags", ← encode c.sideOutputs),
      ("side_inputs", ← encode c.sideInputs),
      ("trace_tuples", ← encode c.traces)]

/-- The fields of a configuration that have been read. -/
structure Config.Parts where
  mainOutput : Option OutputTag
  sideOutputs : Option (List OutputTag)
  sideInputs : Option (List SideInputSpec)
  traces : Option Bool

/-- What each field adds to a configuration. -/
def Config.Parts.field : String → Option (Config.Parts → Decoder Config.Parts)
  | "main_output_tag" =>
    some fun p => Decoder.fill p.mainOutput FromCbor.decoder fun t => { p with mainOutput := t }
  | "side_output_tags" =>
    some fun p => Decoder.fill p.sideOutputs FromCbor.decoder fun t => { p with sideOutputs := t }
  | "side_inputs" =>
    some fun p => Decoder.fill p.sideInputs FromCbor.decoder fun i => { p with sideInputs := i }
  | "trace_tuples" =>
    some fun p => Decoder.fill p.traces FromCbor.decoder fun t => { p with traces := t }
  | _ => none

/-- The configuration with the fields read. -/
def Config.Parts.config? (p : Config.Parts) : Option Config := do
  return ⟨← p.mainOutput, ← p.sideOutputs, ← p.sideInputs, ← p.traces⟩

instance : FromCbor Config :=
  ⟨Decoder.record Config.Parts.field ⟨none, none, none, none⟩ Config.Parts.config?⟩

/-! ## Windowed values -/

instance {α : Type} [ToCbor α] : ToCbor (WindowedValue α) where
  encode x := do
    return recordItem [
      ("value", ← encode x.value),
      ("timestamp", ← encode x.timestamp),
      ("windows", ← encode x.windows)]

/-- The fields of a windowed value that have been read. -/
structure WindowedValue.Parts (α : Type) where
  value : Option α
  timestamp : Option Timestamp
  windows : Option (List Window)

/-- What each field adds to a windowed value. -/
def WindowedValue.Parts.field {α : Type} [FromCbor α] :
    String → Option (WindowedValue.Parts α → Decoder (WindowedValue.Parts α))
  | "value" => some fun p => Decoder.fill p.value FromCbor.decoder fun v => { p with value := v }
  | "timestamp" =>
    some fun p => Decoder.fill p.timestamp FromCbor.decoder fun t => { p with timestamp := t }
  | "windows" =>
    some fun p => Decoder.fill p.windows FromCbor.decoder fun w => { p with windows := w }
  | _ => none

/-- The windowed value with the fields read. -/
def WindowedValue.Parts.windowed? {α : Type} (p : WindowedValue.Parts α) :
    Option (WindowedValue α) := do
  return ⟨← p.value, ← p.timestamp, ← p.windows⟩

instance {α : Type} [FromCbor α] : FromCbor (WindowedValue α) :=
  ⟨Decoder.record WindowedValue.Parts.field ⟨none, none, none⟩ WindowedValue.Parts.windowed?⟩

end EventStream
