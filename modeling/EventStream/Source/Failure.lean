import EventStream.Cbor.Head
import EventStream.Emission

/-!
# Failures and log entries of sources
-/

namespace EventStream

/-- A failure of a source, a reader or the input format behind them. -/
inductive SourceError where
  | emptySplits
  | notSplit
  | notStarted
  | closed
  | invalidSplitSize
  | encode (e : Cbor.EncodeError)
  | splitOutOfRange (start stop records : Nat)
  | format (reason : String)
deriving DecidableEq

namespace SourceError

/-- The kinds of failures that callers tell apart. -/
inductive Kind where
  | emptySplits
  | notSplit
  | notStarted
  | closed
  | invalidSplitSize
  | encode
  /-- A failure of the input format or of one of its readers, known by its text alone. -/
  | format
deriving DecidableEq

/-- The kind of a failure. A split out of range is a failure of the format. -/
def kind : SourceError → Kind
  | emptySplits => .emptySplits
  | notSplit => .notSplit
  | notStarted => .notStarted
  | closed => .closed
  | invalidSplitSize => .invalidSplitSize
  | encode _ => .encode
  | splitOutOfRange _ _ _ | format _ => .format

end SourceError

/-- What a failure tells its reader. -/
def SourceError.message : SourceError → String
  | emptySplits => "error in computing splits, input format returned an empty list"
  | notSplit => "cannot create reader as source is not split yet"
  | notStarted => "reader was not started yet"
  | closed => "reader was already closed"
  | invalidSplitSize => "records per split need to be larger than zero"
  | encode e => "could not estimate size of record: " ++ e.message
  | splitOutOfRange start stop records =>
      "split " ++ toString start ++ ".." ++ toString stop ++ " is out of range for " ++
        toString records ++ " records"
  | format reason => reason

/-- A call on an input format or on one of its readers, which are numbered as they are opened. -/
inductive FormatCall (ς : Type) where
  | splits
  /-- A reader is opened for a split; its number is absent if that failed. -/
  | create (split : ς) (number : Option Nat)
  | next (number : Nat)
  | progress (number : Nat)
  | close (number : Nat)

/-- A log entry of a source or a reader, by its occasion. -/
inductive SourceNotice where
  | alreadySplit
  | bundlesMade (count firstLength : Nat)
  | splitsComputed (count total : Nat)
  | readerClosed (records : Nat)
  | splitExhausted (records : Nat)
  | closingFailed (e : SourceError)

namespace SourceNotice

/-- How much an entry matters. -/
def level : SourceNotice → Level
  | splitsComputed _ _ => .debug
  | splitExhausted _ => .trace
  | closingFailed _ => .warn
  | _ => .info

/-- The text of an entry. -/
def message : SourceNotice → String
  | alreadySplit => "not splitting source because source is already split"
  | bundlesMade count firstLength =>
      "generated " ++ toString count ++ " splits, size of first split is " ++ toString firstLength
  | splitsComputed count total =>
      "computed " ++ toString count ++ " splits with " ++ toString total ++ " bytes in total"
  | readerClosed records => "closing reader after reading " ++ toString records ++ " records"
  | splitExhausted records => "exhausted split after " ++ toString records ++ " records"
  | closingFailed e => "failed closing reader after failed first read: " ++ e.message

end SourceNotice

/-- Anything a call on a source or a reader does besides its answer. -/
inductive SourceEffect (ς : Type) where
  | call (c : FormatCall ς)
  | note (notice : SourceNotice)

namespace SourceEffect

variable {ς : Type}

/-- The calls on the format among effects, in order. -/
def calls (effects : List (SourceEffect ς)) : List (FormatCall ς) :=
  effects.filterMap fun
    | call c => some c
    | _ => none

/-- The log entries among effects, in order. -/
def notices (effects : List (SourceEffect ς)) : List SourceNotice :=
  effects.filterMap fun
    | note notice => some notice
    | _ => none

@[simp] theorem calls_append (xs ys : List (SourceEffect ς)) :
    calls (xs ++ ys) = calls xs ++ calls ys := List.filterMap_append

@[simp] theorem notices_append (xs ys : List (SourceEffect ς)) :
    notices (xs ++ ys) = notices xs ++ notices ys := List.filterMap_append

end SourceEffect

end EventStream
