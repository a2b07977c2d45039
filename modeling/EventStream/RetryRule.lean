import EventStream.Pushback

/-!
# Trials given by rules

What becomes of a pushed back element when it is tried again, told beforehand by
its value. The elements tried are kept in order.
-/

namespace EventStream

/-- What a trial does with an element. -/
inductive Retry (ι : Type) where
  | drop
  | fail (reason : String)
  | into (elements : List (WindowedValue ι))

namespace Retry

variable {ι η : Type}

/-- The trial that follows the first rule for the value; without a rule the element waits on. -/
def trial [BEq ι] (rules : List (ι × Retry ι)) (element : WindowedValue ι) :
    Activity (List (WindowedValue ι)) η String (List (WindowedValue ι)) := do
  Activity.update (· ++ [element])
  match rules.lookup element.value with
  | none => return [element]
  | some drop => return []
  | some (fail reason) => Activity.fail reason
  | some (into elements) => return elements

end Retry

end EventStream
