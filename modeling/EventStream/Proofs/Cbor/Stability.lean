import EventStream.Cbor.Record
import EventStream.Proofs.TextStart

/-!
# Decoders that keep their verdict

A decoder that did not run out of bytes comes to the same value or the same
failure, at the same place, when more bytes follow. Every decoder here is of this
kind, whatever it reads.

## Implementation notes

Loops are bounded by the number of bytes left, so with more bytes they are other
loops. The relation is therefore between two decoders: the second one, on more
bytes, keeps the verdicts of the first one.
-/

namespace EventStream.Cbor

/-- The same place with more bytes behind those that are there. -/
def Cursor.extend (c : Cursor) (more : Bytes) : Cursor := ⟨c.position, c.rest ++ more⟩

namespace Decoder

variable {α β σ : Type}

/-- What one decoder comes to, unless it runs out of bytes, another one comes to on more bytes. -/
def KeptBy (d d' : Decoder α) : Prop :=
  ∀ levels c more, d levels c ≠ .error .endOfInput →
    d' levels (c.extend more) = (d levels c).map fun r => (r.1, r.2.extend more)

/-- A decoder that keeps its own verdicts when more bytes follow. -/
abbrev Stable (d : Decoder α) : Prop := d.KeptBy d

variable {d d' : Decoder α}

theorem stable_pure (a : α) : (Pure.pure a : Decoder α).Stable := fun _ _ _ _ => rfl

/-- Verdicts are kept in sequence, wherever the first one turns out to run out of bytes. -/
theorem KeptBy.bind {f f' : α → Decoder β} (h : d.KeptBy d') (hf : ∀ a, (f a).KeptBy (f' a)) :
    (d >>= f).KeptBy (d' >>= f') := by
  intro levels c more hn
  rw [bind_apply] at hn
  rw [bind_apply, bind_apply]
  cases hd : d levels c with
  | error e =>
      have he : e ≠ .endOfInput := by
        rintro rfl
        rw [hd] at hn
        exact hn rfl
      rw [h levels c more (by simp [hd, he]), hd]
      rfl
  | ok r =>
      obtain ⟨a, c'⟩ := r
      rw [hd] at hn
      rw [h levels c more (by simp [hd]), hd]
      exact hf a levels c' more hn

theorem stable_fail (e : DecodeError) : (fail e : Decoder α).Stable := fun _ _ _ _ => rfl

theorem stable_unexpected : (unexpected : Decoder α).Stable := stable_fail _

theorem stable_ofOption (o : Option α) : (ofOption o).Stable := by
  cases o with
  | none => exact stable_unexpected
  | some a => exact stable_pure a

theorem stable_position : position.Stable := fun _ _ _ _ => rfl

/-- A head that is put back comes in front of whatever follows. -/
theorem stable_putBack (h : Head) : (putBack h).Stable := by
  intro levels c more _
  simp [putBack, Cursor.putBack, Cursor.extend, Except.map]

/-- The number of levels that are left has no part in which bytes are there. -/
theorem KeptBy.nested (h : d.KeptBy d') : (nested d).KeptBy (nested d') := by
  intro levels c more hn
  cases levels with
  | zero => rfl
  | succ levels => exact h levels c more hn

/-- A loop that is bounded by the bytes left, from what it does under each bound. -/
theorem stable_bytesLeft {loop : Nat → Decoder α}
    (h : ∀ limit extra, (loop limit).KeptBy (loop (limit + extra))) (extra : Nat) :
    (do loop ((← bytesLeft) + extra) : Decoder α).Stable := by
  intro levels c more hn
  change loop ((c.rest ++ more).length + extra) levels (c.extend more) = _
  rw [List.length_append, Nat.add_right_comm]
  exact h _ _ levels c more hn

/-- A bounded loop that has run out of its bound is taken to have run out of bytes. -/
theorem keptBy_of_endOfInput (d' : Decoder α) : (fail .endOfInput : Decoder α).KeptBy d' :=
  fun _ _ _ hn => absurd rfl hn

/-! ## Bytes and heads -/

/-- Bytes that are there are still there, and still the first ones, when more follow. -/
theorem stable_take (n : Nat) : (take n).Stable := by
  intro levels c more hn
  by_cases h : n ≤ c.rest.length
  · have hl : n ≤ c.rest.length + more.length := Nat.le_add_right_of_le h
    simp [take, Cursor.take, Cursor.extend, h, hl, Except.map, List.take_append_of_le_length h,
      List.drop_append_of_le_length h]
  · simp [take, Cursor.take, h] at hn

/-- The argument that the low five bits of a first byte announce. -/
def argument (low : Nat) : Decoder Argument := fun _ c => c.argument low

/-- An argument that takes some bytes. -/
def wideArgument (width : Nat) : Decoder Argument := do
  return .number width (Bytes.toNat (← take width))

/-- A wide argument is the number that its bytes spell, taken all at once. -/
theorem wideArgument_apply (width levels : Nat) (c : Cursor) :
    wideArgument width levels c =
      match c.take width with
      | .ok (bs, c') => .ok (.number width (Bytes.toNat bs), c')
      | .error e => .error e := by
  cases h : c.take width <;> simp [wideArgument, bind_apply, take, h]

theorem stable_wideArgument (width : Nat) : (wideArgument width).Stable :=
  (stable_take width).bind fun _ => stable_pure _

/-- The first byte alone tells how wide the argument is that has to be there. -/
theorem stable_argument (low : Nat) : (argument low).Stable := by
  intro levels c more hn
  have wide (width : Nat) := stable_wideArgument width levels c more
  simp only [wideArgument_apply] at wide
  simp only [argument, Cursor.argument] at hn ⊢
  split_ifs at hn ⊢
  · rfl
  · exact wide 1 hn
  · exact wide 2 hn
  · exact wide 4 hn
  · exact wide 8 hn
  · rfl
  · rfl

/-- The head with a first byte that was at a position, read from behind that byte. -/
def headBehind (b : UInt8) (position : Nat) : Decoder Head := do
  match Head.ofArgument? (b.toNat / 32) (← argument (b.toNat % 32)) with
  | some h => return h
  | none => fail (.malformed position)

/-- A head is its first byte and what that byte announces. -/
theorem head_cons (b : UInt8) (levels position : Nat) (rest : Bytes) :
    head levels ⟨position, b :: rest⟩ = headBehind b position levels ⟨position + 1, rest⟩ := by
  simp only [head, Cursor.head, headBehind, bind_apply, argument]
  cases Cursor.argument (b.toNat % 32) ⟨position + 1, rest⟩ with
  | error e => rfl
  | ok r =>
      obtain ⟨a, c⟩ := r
      cases h : Head.ofArgument? (b.toNat / 32) a <;> simp [h, fail]

/-- A malformed argument is found at its own bytes, whatever follows them. -/
theorem stable_headBehind (b : UInt8) (position : Nat) : (headBehind b position).Stable := by
  apply (stable_argument _).bind
  intro a
  cases Head.ofArgument? (b.toNat / 32) a with
  | none => exact stable_fail _
  | some h => exact stable_pure h

/-- Without a first byte there is no head yet; with one, that byte decides. -/
theorem stable_head : head.Stable := by
  intro levels c more hn
  obtain ⟨position, rest⟩ := c
  cases rest with
  | nil => exact absurd rfl hn
  | cons b rest =>
      have behind := stable_headBehind b position levels ⟨position + 1, rest⟩ more
      rw [← head_cons] at behind
      rw [← behind hn]
      exact head_cons b levels position (rest ++ more)

theorem stable_peek : peek.Stable :=
  stable_head.bind fun h => (stable_putBack h).bind fun _ => stable_pure h

/-- A stop is recognised by the next head, or there is none to look at yet. -/
theorem stable_atStop : atStop.Stable := by
  apply stable_head.bind
  intro h
  cases h with
  | stop => exact stable_pure true
  | _ => exact (stable_putBack _).bind fun _ => stable_pure false

/--
A higher bound on the tags in front of an item changes nothing that was found under a lower one.
-/
theorem keptBy_untaggedAmong (limit extra : Nat) :
    (untaggedAmong limit).KeptBy (untaggedAmong (limit + extra)) := by
  induction limit with
  | zero => exact keptBy_of_endOfInput _
  | succ limit ih =>
      rw [Nat.add_right_comm]
      apply stable_position.bind
      intro place
      apply stable_head.bind
      intro h
      cases h with
      | tag n => exact ih
      | _ => exact stable_pure _

theorem stable_untagged : untagged.Stable := stable_bytesLeft keptBy_untaggedAmong 1

/-! ## Strings in chunks -/

section Chunks
variable {chunk? : Head → Option (Option Nat)} {read : Nat → Nat → σ → Decoder σ}
  (hr : ∀ place length s, (read place length s).Stable)
include hr

/-- A higher bound on the chunks changes nothing that was found under a lower one. -/
theorem keptBy_chunksAmong (limit extra opened : Nat) (s : σ) :
    (chunksAmong chunk? read limit opened s).KeptBy
      (chunksAmong chunk? read (limit + extra) opened s) := by
  induction limit generalizing opened s with
  | zero => exact keptBy_of_endOfInput _
  | succ limit ih =>
      rw [Nat.add_right_comm]
      apply stable_position.bind
      intro place
      apply stable_head.bind
      intro h
      split
      · exact stable_pure s
      · exact ih _ s
      · split
        · exact stable_fail _
        · exact ih _ s
        · apply (hr place _ s).bind
          intro s'
          split
          · exact stable_pure s'
          · exact ih _ s'

theorem stable_chunks (s : σ) : (chunks chunk? read s).Stable :=
  stable_bytesLeft (fun limit extra => keptBy_chunksAmong hr limit extra 0 s) 0

end Chunks

/-- The bytes of a chunk, which have to be a text. -/
def wholeText (place length : Nat) (sofar : String) : Decoder String := do
  match Bytes.toString? (← take length) with
  | some s => return sofar ++ s
  | none => fail (.malformed place)

/-- A chunk is a text or none, once all of its bytes are there. -/
theorem stable_wholeText (place length : Nat) (sofar : String) :
    (wholeText place length sofar).Stable := by
  apply (stable_take length).bind
  intro bytes
  split
  · exact stable_pure _
  · exact stable_fail _

/--
A chunk that is longer than the input is malformed if what is there of it cannot start a text.
-/
theorem textChunk_apply (place length levels : Nat) (sofar : String) (c : Cursor) :
    textChunk place length sofar levels c =
      if c.rest.length < length ∧ Bytes.isBroken c.rest then .error (.malformed place)
      else wholeText place length sofar levels c := by
  simp only [textChunk, bind_apply, ahead]
  split <;> rfl

/-- Bytes that are broken before their end stay no text when their end has arrived. -/
theorem wholeText_extend_of_isBroken {place length levels : Nat} {sofar : String} {c : Cursor}
    {more : Bytes} (hb : Bytes.isBroken c.rest) (hs : c.rest.length < length)
    (hl : length ≤ (c.rest ++ more).length) :
    wholeText place length sofar levels (c.extend more) = .error (.malformed place) := by
  have begun : (c.rest ++ more).take length = c.rest ++ more.take (length - c.rest.length) := by
    rw [List.take_append, List.take_of_length_le (Nat.le_of_lt hs)]
  have taken : take length levels (c.extend more) =
      .ok (c.rest ++ more.take (length - c.rest.length),
        ⟨c.position + length, (c.rest ++ more).drop length⟩) := by
    rw [← begun]
    exact if_pos hl
  rw [wholeText, bind_apply, taken]
  simp only [Bytes.toString?_append_of_isBroken _ hb]
  rfl

/-- What cannot start a text does not become one, and what can is decided when it is whole. -/
theorem stable_textChunk (place length : Nat) (sofar : String) :
    (textChunk place length sofar).Stable := by
  intro levels c more hn
  have now := textChunk_apply place length levels sofar c
  have later := textChunk_apply place length levels sofar (c.extend more)
  by_cases hc : c.rest.length < length ∧ Bytes.isBroken c.rest
  · obtain ⟨hs, hb⟩ := hc
    rw [now, if_pos ⟨hs, hb⟩, later]
    by_cases hl : (c.rest ++ more).length < length
    · exact if_pos ⟨hl, Bytes.isBroken_append more hb⟩
    · exact (if_neg fun h => hl h.1).trans (wholeText_extend_of_isBroken hb hs (Nat.not_lt.1 hl))
  · rw [now, if_neg hc] at hn
    rw [now, if_neg hc, later]
    have whole : ¬ (c.rest ++ more).length < length := by
      intro hl
      rw [List.length_append] at hl
      have short : ¬ length ≤ c.rest.length := by omega
      apply hn
      simp [wholeText, bind_apply, take, Cursor.take, short]
    exact (if_neg fun h => whole h.1).trans (stable_wholeText place length sofar levels c more hn)

theorem stable_textBody : textBody.Stable := stable_chunks stable_textChunk ""

theorem stable_bytesBody : bytesBody.Stable :=
  stable_chunks (fun _ length _ => (stable_take length).bind fun _ => stable_pure _) []

/-- A text in one chunk or in many keeps its verdict. -/
theorem stable_text : text.Stable := by
  apply stable_untagged.bind
  intro r
  split
  · exact (stable_putBack _).bind fun _ => stable_textBody
  · exact stable_unexpected

/-! ## Integers and simple values -/

/-- A big number is read in pieces, and refused at the piece that makes it too large. -/
theorem stable_digitPieces (pieces length : Nat) (number : Bytes) :
    (digitPieces pieces length number).Stable := by
  induction pieces generalizing length number with
  | zero => exact stable_pure number
  | succ pieces ih =>
      apply (stable_take _).bind
      intro piece
      exact (stable_ofOption _).bind fun number => ih _ number

/-- Big numbers keep their verdict, too large ones included. -/
theorem stable_bigNumber : bigNumber.Stable := by
  apply stable_head.bind
  intro h
  split
  · apply (stable_putBack _).bind
    intro _
    exact (stable_chunks (fun _ _ _ => stable_digitPieces _ _ _) []).bind fun _ => stable_pure _
  · exact stable_unexpected

/-- A higher bound on the tags in front of an integer changes nothing that was found. -/
theorem keptBy_integerAmong (limit extra : Nat) :
    (integerAmong limit).KeptBy (integerAmong (limit + extra)) := by
  induction limit with
  | zero => exact keptBy_of_endOfInput _
  | succ limit ih =>
      rw [Nat.add_right_comm]
      apply stable_head.bind
      intro h
      split
      · exact stable_pure _
      · exact stable_pure _
      · split_ifs
        · exact stable_bigNumber.bind fun _ => stable_pure _
        · exact stable_bigNumber.bind fun _ => stable_pure _
        · exact ih
      · exact stable_unexpected

theorem stable_integer : integer.Stable := stable_bytesLeft keptBy_integerAmong 1

/-- Whether an integer fits a word is asked once the integer is there. -/
theorem stable_word : word.Stable := by
  apply stable_integer.bind
  intro n
  split
  · exact stable_pure _
  · exact stable_unexpected

theorem stable_bool : bool.Stable := by
  apply stable_untagged.bind
  intro r
  split
  · exact stable_pure _
  · exact stable_pure _
  · exact stable_fail _

theorem stable_unit : unit.Stable := by
  apply stable_untagged.bind
  intro r
  split
  · exact stable_pure _
  · exact stable_pure _
  · exact stable_unexpected

/-- A name that is too long is refused by its head. -/
theorem stable_key : key.Stable := by
  apply stable_untagged.bind
  intro r
  split
  · split
    · apply (stable_take _).bind
      intro bytes
      split
      · exact stable_pure _
      · exact stable_fail _
    · exact stable_unexpected
  · split
    · exact (stable_take _).bind fun _ => stable_pure _
    · exact stable_unexpected
  · exact stable_unexpected

/-! ## Arrays -/

/-- A known number of items is stable if each of them is. -/
theorem stable_items (h : d.Stable) (n : Nat) : (items d n).Stable := by
  induction n with
  | zero => exact stable_pure []
  | succ n ih =>
      apply h.bind
      intro a
      exact ih.bind fun _ => stable_pure _

/-- A higher bound on the items in front of a stop changes nothing that was found. -/
theorem keptBy_itemsToStop (h : d.Stable) (limit extra : Nat) :
    (itemsToStop d limit).KeptBy (itemsToStop d (limit + extra)) := by
  induction limit with
  | zero => exact keptBy_of_endOfInput _
  | succ limit ih =>
      rw [Nat.add_right_comm]
      apply stable_atStop.bind
      intro stopped
      cases stopped with
      | true => exact stable_pure []
      | false =>
          apply h.bind
          intro a
          exact ih.bind fun _ => stable_pure _

theorem stable_itemsOf (h : d.Stable) (length : Option Nat) : (itemsOf d length).Stable := by
  cases length with
  | none => exact stable_bytesLeft (keptBy_itemsToStop h) 0
  | some n => exact stable_items h n

/-- A list is stable if its items are, however its length is told. -/
theorem stable_list (h : d.Stable) : (list d).Stable := by
  apply stable_untagged.bind
  intro r
  split
  · exact (stable_itemsOf h _).nested
  · apply (stable_putBack _).bind
    intro _
    apply stable_bytesBody.bind
    intro bytes
    split
    · exact stable_pure _
    · exact stable_unexpected
  · exact stable_unexpected

theorem stable_nextItem (h : d.Stable) (left : Option Nat) : (nextItem d left).Stable := by
  unfold nextItem
  split
  · exact stable_unexpected
  · exact h.bind fun _ => stable_pure _
  · apply stable_atStop.bind
    intro stopped
    cases stopped with
    | true => exact stable_unexpected
    | false => exact h.bind fun _ => stable_pure _

/-- A fixed sequence of items is stable if its body is, whether or not its length is told. -/
theorem stable_tuple {body : Option Nat → Decoder α} (h : ∀ left, (body left).Stable) :
    (tuple body).Stable := by
  apply stable_untagged.bind
  intro r
  split
  · exact (h _).nested
  · apply (stable_putBack _).bind
    intro _
    exact stable_bytesBody.bind fun _ => stable_unexpected
  · exact stable_unexpected

theorem stable_pair {e : Decoder β} (hd : d.Stable) (he : e.Stable) : (pair d e).Stable := by
  apply stable_tuple
  intro left
  apply (stable_nextItem hd left).bind
  intro a
  exact (stable_nextItem he a.2).bind fun _ => stable_pure _

/-! ## Skipped items -/

/-- What a tag announces decides whether a big number is read. -/
theorem stable_bigNumberAfter (tag : Nat) : (bigNumberAfter tag).Stable := by
  apply stable_peek.bind
  intro h
  split
  · split
    · apply stable_bigNumber.bind
      intro n
      split
      · exact stable_unexpected
      · exact stable_pure _
    · exact stable_pure _
  · exact stable_pure _

theorem stable_anyText (length : Option Nat) : (anyText length).Stable := by
  unfold anyText
  split
  · split
    · apply stable_position.bind
      intro place
      exact stable_head.bind fun _ => stable_textChunk _ _ _
    · exact stable_textBody
  · exact stable_textBody

/-- An item that is skipped and holds no others ends where its head says. -/
theorem stable_leaf (h : Head) : (leaf h).Stable := by
  unfold leaf
  split
  · exact (stable_anyText _).bind fun _ => stable_pure _
  · exact stable_bytesBody.bind fun _ => stable_pure _
  · apply stable_head.bind
    intro _
    split
    · exact stable_pure _
    · exact stable_unexpected
  · exact stable_head.bind fun _ => stable_pure _
  · exact stable_head.bind fun _ => stable_pure _
  · exact stable_head.bind fun _ => stable_pure _
  · exact stable_unexpected

/-- What a decoder does with some levels left, as a decoder that is not told the levels. -/
theorem KeptBy.withLevels (h : d.KeptBy d') (levels : Nat) :
    KeptBy (fun _ => d levels) (fun _ => d' levels) := fun _ => h levels

/-- Skipping an item keeps its verdict at every depth; the induction is on the levels left. -/
theorem stable_skipAt (levels : Nat) : Stable (fun _ c => skipAt levels c : Decoder Unit) := by
  induction levels with
  | zero =>
      simp only [skipAt]
      apply KeptBy.withLevels _ 0
      apply stable_peek.bind
      intro h
      split
      · exact stable_fail _
      · exact stable_fail _
      · apply stable_head.bind
        intro _
        apply (stable_bigNumberAfter _).bind
        intro isNumber
        cases isNumber with
        | true => exact stable_pure _
        | false => exact stable_fail _
      · exact stable_leaf _
  | succ levels ih =>
      simp only [skipAt]
      apply KeptBy.withLevels _ (levels + 1)
      apply stable_peek.bind
      intro h
      split
      · apply stable_head.bind
        intro _
        exact (stable_itemsOf ih _).bind fun _ => stable_pure _
      · apply stable_head.bind
        intro _
        exact (stable_itemsOf (ih.bind fun _ => ih) _).bind fun _ => stable_pure _
      · apply stable_head.bind
        intro _
        apply (stable_bigNumberAfter _).bind
        intro isNumber
        cases isNumber with
        | true => exact stable_pure _
        | false => exact ih
      · exact stable_leaf _

theorem stable_skip : skip.Stable := fun levels => stable_skipAt levels levels

/-! ## Records and variants -/

section Records
variable {field : String → Option (σ → Decoder σ)}
  (h : ∀ name read, field name = some read → ∀ part, (read part).Stable)
include h

/-- The value of a known name is read and that of an unknown one is skipped, both stably. -/
theorem stable_entry (part : σ) : (entry field part).Stable := by
  apply stable_key.bind
  intro name
  split
  · rename_i read hr
    obtain ⟨text, -, hf⟩ := Option.bind_eq_some_iff.1 hr
    exact h text read hf part
  · exact stable_skip.bind fun _ => stable_pure part

theorem stable_entries (n : Nat) (part : σ) : (entries field n part).Stable := by
  induction n generalizing part with
  | zero => exact stable_pure part
  | succ n ih => exact (stable_entry h part).bind ih

/-- A higher bound on the entries in front of a stop changes nothing that was found. -/
theorem keptBy_entriesToStop (part : σ) (limit extra : Nat) :
    (entriesToStop field limit part).KeptBy (entriesToStop field (limit + extra) part) := by
  induction limit generalizing part with
  | zero => exact keptBy_of_endOfInput _
  | succ limit ih =>
      rw [Nat.add_right_comm]
      apply stable_atStop.bind
      intro stopped
      cases stopped with
      | true => exact stable_pure part
      | false => exact (stable_entry h part).bind ih

theorem stable_entriesOf (part : σ) (length : Option Nat) :
    (entriesOf field part length).Stable := by
  cases length with
  | none => exact stable_bytesLeft (keptBy_entriesToStop h part) 0
  | some n => exact stable_entries h n part

/-- A record is stable if its fields are, in any order and with unknown ones between them. -/
theorem stable_record (start : σ) (finish : σ → Option α) :
    (record field start finish).Stable := by
  apply stable_untagged.bind
  intro r
  split
  · apply KeptBy.nested
    exact (stable_entriesOf h start _).bind fun _ => stable_ofOption _
  · exact stable_unexpected

end Records

/-- A field that is there twice is refused before its value is read again. -/
theorem stable_fill (h : d.Stable) (current : Option α) (put : Option α → σ) :
    (fill current d put).Stable := by
  cases current with
  | none => exact h.bind fun _ => stable_pure _
  | some a => exact stable_unexpected

/-- The name of a variant decides how its content is read. -/
theorem stable_variantBody {body : String → Option (Decoder α)}
    (h : ∀ name d, body name = some d → d.Stable) :
    (do
      match (← key).bind body with
      | some d => d
      | none => unexpected : Decoder α).Stable := by
  apply stable_key.bind
  intro name
  split
  · rename_i d hd
    obtain ⟨text, -, hb⟩ := Option.bind_eq_some_iff.1 hd
    exact h text d hb
  · exact stable_unexpected

/-- A choice is stable if each of its variants is. -/
theorem stable_variant {body : String → Option (Decoder α)}
    (h : ∀ name d, body name = some d → d.Stable) : (variant body).Stable := by
  have named := stable_variantBody h
  apply stable_untagged.bind
  intro r
  split
  · exact named.nested
  · exact (stable_putBack _).bind fun _ => named.nested
  · exact stable_unexpected

/-- A value that may be a record or a sequence is told apart by its head. -/
theorem stable_fields {asRecord asTuple : Decoder α} (hr : asRecord.Stable) (ht : asTuple.Stable) :
    (fields asRecord asTuple).Stable := by
  apply stable_peek.bind
  intro h
  split
  · exact hr
  · exact ht
  · apply stable_head.bind
    intro _
    apply (stable_bigNumberAfter _).bind
    intro isNumber
    cases isNumber with
    | true => exact stable_unexpected
    | false => exact stable_unexpected.nested
  · exact (stable_leaf _).bind fun _ => stable_unexpected

end Decoder

end EventStream.Cbor
