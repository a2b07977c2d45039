import EventStream.Cbor.Head
import EventStream.Timestamp

/-!
# Failures of processing
-/

namespace EventStream

/-- A failure raised by a user function: an assertion that did not hold, or any other. -/
inductive UserError where
  | assertion (reason : String)
  | failed (reason : String)
deriving DecidableEq

/-- What a user failure tells its reader. -/
def UserError.message : UserError → String
  | assertion reason => "assertion failed: " ++ reason
  | failed reason => reason

/-- A failure of a call on a processor. None is retried. -/
inductive ProcessingError where
  | userCode (e : UserError)
  | unknownSideInput (index configured : Nat)
  | watermarkRegression (current received : Timestamp)
  | notRunning
  | alreadySetUp
  | encode (e : Cbor.EncodeError)
  | decode (e : Cbor.DecodeError)
deriving DecidableEq

/-- The text of a decoding failure. An unexpected item is described by its position only. -/
def Cbor.DecodeError.message : Cbor.DecodeError → String
  | endOfInput => "failed reading cbor bytes: failed to fill whole buffer"
  | malformed position => "invalid cbor syntax at position " ++ toString position
  | unexpected (some position) => "unexpected value at position " ++ toString position
  | unexpected none => "unexpected value"
  | tooDeep => "recursion limit exceeded while decoding"

/-- What a failed call tells its caller. -/
def ProcessingError.message : ProcessingError → String
  | userCode e => e.message
  | unknownSideInput index configured =>
      "side input signal refers to unknown side input index " ++ toString index ++
        " (configured: " ++ toString configured ++ ")"
  | watermarkRegression current received =>
      "input watermark regressed from " ++ current.text ++ " to " ++ received.text
  | notRunning => "processing unit is not running"
  | alreadySetUp => "processing unit was already set up"
  | encode e => e.message
  | decode e => e.message

end EventStream
