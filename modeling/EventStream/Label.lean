/-!
# Names of outputs and side inputs
-/

namespace EventStream

/-- The name of one output of a processor, its main output or a side output. -/
structure OutputTag where
  name : String
deriving DecidableEq

/-- The name of one side input of a processor. -/
structure SideInputId where
  name : String
deriving DecidableEq

/-- Whether one name is listed before another: by code points, which is by UTF-8 bytes. -/
def OutputTag.before (a b : OutputTag) : Bool := decide (a.name ≤ b.name)

/-- Whether one name is listed before another: by code points, which is by UTF-8 bytes. -/
def SideInputId.before (a b : SideInputId) : Bool := decide (a.name ≤ b.name)

end EventStream
