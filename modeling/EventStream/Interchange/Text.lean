import EventStream.Config
import EventStream.Json.Shape
import EventStream.WindowedValue

/-!
# JSON form of the types that travel

The shapes are those of the binary form: timestamps are numbers, names are
strings, windows and mappings are variants, everything else is a record. Only
the mapping of a side input may be left out.
-/

namespace EventStream

open Json

instance : Writable Timestamp := ⟨fun t => .int t.millis⟩
instance : Readable Timestamp := ⟨fun j => (int? j).bind Timestamp.ofInt?⟩

instance : Writable Window where
  toJson
    | .global => str "Global"
    | .interval start stop =>
      record [("Interval", record [("start", toJson start), ("end", toJson stop)])]

instance : Readable Window where
  ofJson? j :=
    match variant? j with
    | some ("Global", content) => if isBare content then some .global else none
    | some ("Interval", some bounds) =>
      match fieldsOf? ["start", "end"] bounds with
      | some [some start, some stop] => do return .interval (← ofJson? start) (← ofJson? stop)
      | _ => none
    | _ => none

instance : Writable WindowMapping where
  toJson
    | .identity => str "Identity"
    | .global => str "Global"

instance : Readable WindowMapping where
  ofJson? j :=
    match variant? j with
    | some ("Identity", content) => if isBare content then some .identity else none
    | some ("Global", content) => if isBare content then some .global else none
    | _ => none

instance : Writable OutputTag := ⟨fun t => toJson t.name⟩
instance : Readable OutputTag := ⟨fun j => (ofJson? j).map OutputTag.mk⟩

instance : Writable SideInputId := ⟨fun i => toJson i.name⟩
instance : Readable SideInputId := ⟨fun j => (ofJson? j).map SideInputId.mk⟩

instance : Writable SideInputSpec :=
  ⟨fun s => record [("id", toJson s.id), ("mapping", toJson s.mapping)]⟩

instance : Readable SideInputSpec where
  ofJson? j :=
    match fieldsOf? ["id", "mapping"] j with
    | some [some id, some mapping] => do return ⟨← ofJson? id, ← ofJson? mapping⟩
    | some [some id, none] => do return ⟨← ofJson? id, default⟩
    | _ => none

instance : Writable Config where
  toJson c := record [
    ("main_output_tag", toJson c.mainOutput),
    ("side_output_tags", toJson c.sideOutputs),
    ("side_inputs", toJson c.sideInputs),
    ("trace_tuples", toJson c.traces)]

instance : Readable Config where
  ofJson? j :=
    match fieldsOf? ["main_output_tag", "side_output_tags", "side_inputs", "trace_tuples"] j with
    | some [some main, some outputs, some inputs, some traces] => do
      return ⟨← ofJson? main, ← ofJson? outputs, ← ofJson? inputs, ← ofJson? traces⟩
    | _ => none

instance {α : Type} [Writable α] : Writable (WindowedValue α) where
  toJson x := record [
    ("value", toJson x.value),
    ("timestamp", toJson x.timestamp),
    ("windows", toJson x.windows)]

instance {α : Type} [Readable α] : Readable (WindowedValue α) where
  ofJson? j :=
    match fieldsOf? ["value", "timestamp", "windows"] j with
    | some [some value, some timestamp, some windows] => do
      return ⟨← ofJson? value, ← ofJson? timestamp, ← ofJson? windows⟩
    | _ => none

end EventStream
