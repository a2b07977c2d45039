import EventStream.Failure

/-!
# Recorded assertion failures

A slot keeps the message of the last assertion that a user function failed, so
that it can be looked at after the run. Slots may be shared: a board holds any
number of slots, and several users may write to the same one.
-/

namespace EventStream

/-- The message of the last failed assertion, if there was one since the slot was emptied. -/
abbrev AssertionSlot := Option String

namespace AssertionSlot

/-- The slot after a user failure. Only assertions are recorded. -/
def record (slot : AssertionSlot) : UserError → AssertionSlot
  | .assertion reason => some reason
  | .failed _ => slot

@[simp] theorem record_assertion (slot : AssertionSlot) (reason : String) :
    slot.record (.assertion reason) = some reason := rfl

@[simp] theorem record_failed (slot : AssertionSlot) (reason : String) :
    slot.record (.failed reason) = slot := rfl

end AssertionSlot

/-- Slots that are shared by reference. The first one belongs to everybody. -/
structure AssertionBoard where
  slots : List AssertionSlot

namespace AssertionBoard

/-- The board with nothing but the common slot, which is empty. -/
def initial : AssertionBoard := ⟨[none]⟩

/-- The reference to the common slot. -/
def common : Nat := 0

/-- Adds an empty slot and answers its reference. -/
def add (b : AssertionBoard) : Nat × AssertionBoard :=
  (b.slots.length, ⟨b.slots ++ [none]⟩)

/-- The content of a slot. -/
def get (b : AssertionBoard) (slot : Nat) : AssertionSlot := (b.slots[slot]?).join

/-- Gives a slot other content. -/
def put (b : AssertionBoard) (slot : Nat) (content : AssertionSlot) : AssertionBoard :=
  ⟨b.slots.set slot content⟩

/-- Empties a slot and answers what it held. -/
def take (b : AssertionBoard) (slot : Nat) : AssertionSlot × AssertionBoard :=
  (b.get slot, b.put slot none)

end AssertionBoard

end EventStream
