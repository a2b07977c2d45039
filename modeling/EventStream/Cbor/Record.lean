import EventStream.Cbor.Decoder

/-!
# Records, variants and skipped items

A record is a map from field names to values in any order. Fields it does not
know are skipped with their values, and a field may be given once. A variant is
a map with one entry or the bare name of the variant.

Skipped items are read in full, so they have to be well formed, but any
well-formed item is accepted except a few that have no value: unassigned simple
values, a stop where an item is wanted, and a negative number in bytes that
needs more than 127 bits.

The head behind a tag is looked at before the tag counts as a level of nesting,
so bytes that end or are malformed there are reported ahead of a nesting that is
too deep.
-/

namespace EventStream.Cbor.Decoder

variable {α σ : Type}

/--
Looks at the head behind a tag, whatever the tag says. If the tag announces a number in bytes and
the head is that of one byte string that is not too long, reads the number. Answers whether it did.
-/
def bigNumberAfter (tag : Nat) : Decoder Bool := do
  match ← peek with
  | .bytes (some length) =>
    if (tag = bigTag ∨ tag = bigNegativeTag) ∧ length ≤ bigWidth then
      let n ← bigNumber
      if tag = bigNegativeTag ∧ 0x80000000000000000000000000000000 ≤ n then unexpected
      else return true
    else return false
  | _ => return false

/-- A text of any form, without skipping tags. -/
def anyText : Option Nat → Decoder String
  | some length => do
    if length ≤ keyLimit then
      let place ← position
      let _ ← head
      textChunk place length ""
    else textBody
  | none => textBody

/-- Reads an item that holds no other items and starts with the given head, which is next. -/
def leaf : Head → Decoder Unit
  | .text length => do let _ ← anyText length
  | .bytes _ => do let _ ← bytesBody
  | .simple n => do
    let _ ← head
    if 20 ≤ n ∧ n ≤ 23 then return () else unexpected
  | .unsigned _ => do let _ ← head
  | .negative _ => do let _ ← head
  | .float _ => do let _ ← head
  | _ => unexpected

/-- Skips one item, with the given levels of nesting left. -/
def skipAt : Nat → Cursor → Except DecodeError (Unit × Cursor)
  | 0 => (do
      match ← peek with
      | .array _ => fail .tooDeep
      | .map _ => fail .tooDeep
      | .tag tag =>
        let _ ← head
        if ← bigNumberAfter tag then return () else fail .tooDeep
      | h => leaf h : Decoder Unit) 0
  | levels + 1 => (do
      let inner : Decoder Unit := fun _ c => skipAt levels c
      match ← peek with
      | .array length =>
        let _ ← head
        let _ ← itemsOf inner length
        return ()
      | .map length =>
        let _ ← head
        let _ ← itemsOf (do inner; inner) length
        return ()
      | .tag tag =>
        let _ ← head
        if ← bigNumberAfter tag then return () else inner
      | h => leaf h : Decoder Unit) (levels + 1)

/-- Skips one item. -/
def skip : Decoder Unit := skipAt

/-- One entry of a record: the part read so far with the field, or as it was if it is unknown. -/
def entry (field : String → Option (σ → Decoder σ)) (part : σ) : Decoder σ := do
  match (← key).bind field with
  | some read => read part
  | none =>
    skip
    return part

/-- A known number of entries. -/
def entries (field : String → Option (σ → Decoder σ)) : Nat → σ → Decoder σ
  | 0, part => return part
  | n + 1, part => do
    let part ← entry field part
    entries field n part

/-- Entries up to a stop, at most `limit` of them. -/
def entriesToStop (field : String → Option (σ → Decoder σ)) : (limit : Nat) → σ → Decoder σ
  | 0, _ => fail .endOfInput
  | limit + 1, part => do
    if ← atStop then return part
    let part ← entry field part
    entriesToStop field limit part

/-- The entries of a map behind its head. -/
def entriesOf (field : String → Option (σ → Decoder σ)) (part : σ) : Option Nat → Decoder σ
  | some n => entries field n part
  | none => do entriesToStop field (← bytesLeft) part

/-- Fills a field of a record that has not been filled yet. -/
def fill (current : Option α) (d : Decoder α) (put : Option α → σ) : Decoder σ :=
  match current with
  | some _ => unexpected
  | none => do return put (some (← d))

/--
A record, read from no fields by what each field name adds to it. `finish` makes the value out of
the fields that were given, if they suffice.
-/
def record (field : String → Option (σ → Decoder σ)) (none : σ) (finish : σ → Option α) :
    Decoder α := do
  match (← untagged).2 with
  | .map length => nested (do ofOption (finish (← entriesOf field none length)))
  | _ => unexpected

/-- A variant, read by what each variant name is followed by. -/
def variant (body : String → Option (Decoder α)) : Decoder α := do
  match (← untagged).2 with
  | .map (some 1) => Pure.pure ()
  | .text length => putBack (.text length)
  | _ => unexpected
  nested (do
    match (← key).bind body with
    | some d => d
    | none => unexpected)

/--
The fields of a variant, as a record or as a tuple, with no tag in front. Any other item is
refused, but its own bytes are read first, and of a tagged item the head behind the tag.
-/
def fields (asRecord asTuple : Decoder α) : Decoder α := do
  match ← peek with
  | .map _ => asRecord
  | .array _ => asTuple
  | .tag tag =>
    let _ ← head
    if ← bigNumberAfter tag then unexpected else nested unexpected
  | h =>
    leaf h
    unexpected

end EventStream.Cbor.Decoder
