import EventStream.Json.Shape
import EventStream.Source.InputFormat

/-!
# Scripted input formats

A scripted format answers every call as it is told beforehand, failures
included. Its world counts the calls so far.
-/

namespace EventStream

/-- How a reader behaves once it is opened. -/
structure ReaderScript (κ ν : Type) where
  createError : Option String
  records : List (Except String (Option (κ × ν)))
  progress : List (Except String Binary64)
  closeError : Option String

/-- The reader that has no records and never fails. -/
def ReaderScript.silent {κ ν : Type} : ReaderScript κ ν := ⟨none, [], [], none⟩

/-- The split of a scripted format: its name and its size in bytes. -/
structure ScriptedSplit where
  id : String
  length : Nat
deriving DecidableEq

instance : Json.Writable ScriptedSplit :=
  ⟨fun s => .record [("id", .str s.id), ("length", .int s.length)]⟩

/-- A split with the behaviour of its readers, in the order in which they are opened. -/
structure SplitScript (κ ν : Type) where
  split : ScriptedSplit
  opens : List (ReaderScript κ ν)

/-- A format that behaves as it is told. -/
structure ScriptedFormat (κ ν : Type) where
  splits : List (SplitScript κ ν)
  /-- The failures of the calls for the splits, in order. -/
  splitsErrors : List (Option String)

/-- The calls so far: how often splits were asked for, and for which splits readers were wanted. -/
structure ScriptedWorld where
  splitsAsked : Nat
  created : List String

/-- The world before the first call. -/
def ScriptedWorld.initial : ScriptedWorld := ⟨0, []⟩

/-- A scripted reader and the number of its calls so far. -/
structure ScriptedReader (κ ν : Type) where
  script : ReaderScript κ ν
  nextCalls : Nat
  progressCalls : Nat

namespace ScriptedFormat

variable {κ ν : Type}

/-- The failure with a message. -/
def lift {α : Type} (result : Except String α) : Except SourceError α :=
  result.mapError .format

/-- The outcome that fails if there is a message. -/
def outcome : Option String → Except SourceError Unit
  | some reason => .error (.format reason)
  | none => .ok ()

/-- The behaviour of the `n`-th reader of a split; the last one told holds for all later ones. -/
def scriptFor (f : ScriptedFormat κ ν) (split : ScriptedSplit) (n : Nat) : ReaderScript κ ν :=
  match f.splits.find? fun s => s.split.id == split.id with
  | some s => ((s.opens[n]? <|> s.opens.getLast?)).getD .silent
  | none => .silent

/-- The input format that behaves as told. -/
def toInputFormat (f : ScriptedFormat κ ν) :
    InputFormat ScriptedWorld (ScriptedReader κ ν) ScriptedSplit κ ν where
  length split := split.length
  splits w :=
    (do
      outcome (f.splitsErrors[w.splitsAsked]?).join
      return f.splits.map SplitScript.split,
    { w with splitsAsked := w.splitsAsked + 1 })
  create split w :=
    let script := f.scriptFor split (w.created.count split.id)
    (do
      outcome script.createError
      return ⟨script, 0, 0⟩,
    { w with created := split.id :: w.created })
  next r w :=
    (lift ((r.script.records[r.nextCalls]?).getD (.ok none)),
      { r with nextCalls := r.nextCalls + 1 }, w)
  progress r w :=
    (lift ((r.script.progress[r.progressCalls]? <|> r.script.progress.getLast?).getD (.ok .zero)),
      { r with progressCalls := r.progressCalls + 1 }, w)
  close r w := (outcome r.script.closeError, r, w)

end ScriptedFormat

end EventStream
