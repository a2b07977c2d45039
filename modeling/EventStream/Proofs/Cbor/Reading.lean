import EventStream.Proofs.Cbor.Heads
import Mathlib.Data.List.Forall2

/-!
# Decoders that read an item

A decoder reads an item if it answers the value of the item and the place behind
it, in front of anything. What is put together from such decoders reads what is
put together from their items.

## Implementation notes

A decoder that reads with some levels of nesting left also reads with more, so
the levels in the definition are a lower bound and every container adds one.
-/

namespace EventStream.Cbor.Decoder

variable {α β σ : Type} {d : Decoder α} {depth : Nat} {bs cs : Bytes} {a : α} {b : β}

/-- A decoder answers a value and stops behind its bytes, given enough levels of nesting. -/
def Reads (d : Decoder α) (depth : Nat) (bs : Bytes) (a : α) : Prop :=
  ∀ levels position rest, depth ≤ levels →
    d levels ⟨position, bs ++ rest⟩ = .ok (a, ⟨position + bs.length, rest⟩)

/-- Nothing is read where a value is known already. -/
theorem reads_pure (depth : Nat) (a : α) : (Pure.pure a : Decoder α).Reads depth [] a :=
  fun _ _ _ _ => rfl

/-- What reads one item and then another reads both. -/
theorem Reads.bind {f : α → Decoder β} (h : d.Reads depth bs a) (hf : (f a).Reads depth cs b) :
    (d >>= f).Reads depth (bs ++ cs) b := by
  intro levels position rest hl
  rw [bind_apply, List.append_assoc, h levels position (cs ++ rest) hl]
  change f a levels ⟨position + bs.length, cs ++ rest⟩ = _
  rw [hf levels (position + bs.length) rest hl, List.length_append, Nat.add_assoc]

/-- What is made of a value does not read on. -/
theorem Reads.map {f : α → Decoder β} (h : d.Reads depth bs a) (hf : f a = Pure.pure b) :
    (d >>= f).Reads depth bs b := by
  have := h.bind (hf ▸ reads_pure depth b)
  rwa [List.append_nil] at this

/-- What is read inside a container takes one level more. -/
theorem Reads.nested (h : d.Reads depth bs a) : (nested d).Reads (depth + 1) bs a := by
  intro levels position rest hl
  obtain ⟨levels, rfl⟩ := Nat.exists_eq_add_of_le' (Nat.le_of_add_left_le hl)
  exact h levels position rest (Nat.le_of_succ_le_succ hl)

theorem reads_take (depth : Nat) (bs : Bytes) : (take bs.length).Reads depth bs bs :=
  fun _ position rest _ => Cursor.take_append position bs rest

/-! ## Heads that are looked at -/

variable {h : Head}

/-- A head that reads back is read, however many levels are left. -/
theorem reads_head (hb : h.ReadsBack) (depth : Nat) : head.Reads depth h.encode h :=
  fun _ position rest _ => hb position rest

/-- A head that was read and is put back is next again. -/
theorem putBack_bind_apply (h : Head) (d : Decoder α) (levels position : Nat) (rest : Bytes) :
    (do putBack h; d : Decoder α) levels ⟨position + h.encode.length, rest⟩ =
      d levels ⟨position, h.encode ++ rest⟩ := by
  rw [bind_apply]
  simp [putBack, Cursor.putBack]

/-- A head that is looked at stays where it is. -/
theorem peek_bind_apply (hb : h.ReadsBack) (f : Head → Decoder α) (levels position : Nat)
    (rest : Bytes) :
    (peek >>= f) levels ⟨position, h.encode ++ rest⟩ =
      f h levels ⟨position, h.encode ++ rest⟩ := by
  have hp : peek levels ⟨position, h.encode ++ rest⟩ =
      .ok (h, ⟨position, h.encode ++ rest⟩) := by
    rw [peek, bind_apply, reads_head hb 0 levels position rest (Nat.zero_le _)]
    exact putBack_bind_apply h (Pure.pure h) levels position rest
  rw [bind_apply, hp]

/-- In front of an item without a tag, only its head is read. -/
theorem untagged_bind_apply (hb : h.ReadsBack) (ht : ∀ tag, h ≠ .tag tag)
    (f : Nat × Head → Decoder α) (levels position : Nat) (rest : Bytes) :
    (untagged >>= f) levels ⟨position, h.encode ++ rest⟩ =
      f (position, h) levels ⟨position + h.encode.length, rest⟩ := by
  have hu : untagged levels ⟨position, h.encode ++ rest⟩ =
      .ok ((position, h), ⟨position + h.encode.length, rest⟩) := by
    change untaggedAmong (_ + 1) levels _ = _
    simp only [untaggedAmong, bind_apply, Decoder.position,
      reads_head hb 0 levels position rest (Nat.zero_le _)]
    cases h with
    | tag tag => exact absurd rfl (ht tag)
    | _ => rfl
  rw [bind_apply, hu]

/-- What follows a head in front of which tags are skipped. -/
theorem reads_untagged {f : Nat × Head → Decoder α} (hb : h.ReadsBack)
    (ht : ∀ tag, h ≠ .tag tag) (hf : ∀ place, (f (place, h)).Reads depth bs a) :
    (untagged >>= f).Reads depth (h.encode ++ bs) a := by
  intro levels position rest hl
  rw [List.append_assoc, untagged_bind_apply hb ht, hf position levels _ rest hl,
    List.length_append, Nat.add_assoc]

/-- What reads an item from its head on, which was only looked at. -/
theorem reads_untagged_putBack {f : Nat × Head → Decoder α} (hb : h.ReadsBack)
    (ht : ∀ tag, h ≠ .tag tag) (hf : ∀ place, f (place, h) = do putBack h; d)
    (hd : d.Reads depth (h.encode ++ bs) a) :
    (untagged >>= f).Reads depth (h.encode ++ bs) a := by
  intro levels position rest hl
  have := hd levels position rest hl
  rw [List.append_assoc] at this ⊢
  rw [untagged_bind_apply hb ht, hf, putBack_bind_apply, this]

/-! ## Texts and names -/

/-- A string of one chunk. -/
theorem reads_chunks {chunk? : Head → Option (Option Nat)} {read : Nat → Nat → σ → Decoder σ}
    {s t : σ} {length : Nat} (hb : h.ReadsBack)
    (hc : chunk? h = some (some length)) (hr : ∀ place, (read place length s).Reads depth bs t) :
    (chunks chunk? read s).Reads depth (h.encode ++ bs) t := by
  intro levels position rest hl
  change chunksAmong chunk? read (h.encode ++ bs ++ rest).length 0 s levels _ = _
  obtain ⟨limit, hlimit⟩ : ∃ limit, (h.encode ++ bs ++ rest).length = limit + 1 := by
    apply Nat.exists_eq_succ_of_ne_zero
    have := List.length_pos_iff.2 hb.ne_nil
    simp only [List.length_append]
    omega
  rw [hlimit, List.append_assoc]
  have body := hr position levels (position + h.encode.length) rest hl
  simp only [chunksAmong, bind_apply, Decoder.position, if_true,
    reads_head hb depth levels position (bs ++ rest) hl]
  simp only [hc, bind_apply, body, List.length_append, Nat.add_assoc]
  rfl

/-- The bytes of a text make up a chunk of it. -/
theorem reads_textChunk (place depth : Nat) (s : String) :
    (textChunk place (Bytes.ofString s).length "").Reads depth (Bytes.ofString s) s := by
  intro levels position rest hl
  have short : ¬ ((Bytes.ofString s ++ rest).length < (Bytes.ofString s).length ∧
      Bytes.isBroken (Bytes.ofString s ++ rest) = true) := by
    rw [List.length_append]
    omega
  have taken := reads_take depth (Bytes.ofString s) levels position rest hl
  simp only [textChunk, bind_apply, ahead, if_neg short, taken]
  simp

/-- A text of one chunk is read, as long as its length can be written. -/
theorem reads_text (depth : Nat) {s : String} (hs : (Bytes.ofString s).length < 2 ^ 64) :
    text.Reads depth (textItem s) s := by
  have hb := Head.readsBack_text hs
  apply reads_untagged_putBack hb (fun _ => Head.noConfusion) (fun _ => rfl)
  exact reads_chunks hb rfl fun place => reads_textChunk place depth s

/-- A name that is not too long is read. -/
theorem reads_key (depth : Nat) {s : String} (hs : (Bytes.ofString s).length ≤ keyLimit) :
    key.Reads depth (textItem s) (some s) := by
  have hb := Head.readsBack_text (Nat.lt_of_le_of_lt hs (by decide))
  apply reads_untagged hb fun _ => Head.noConfusion
  intro place levels position rest hl
  have taken := reads_take depth (Bytes.ofString s) levels position rest hl
  simp only [if_pos hs, bind_apply, taken]
  simp

/-! ## Numbers and the absent value -/

/-- An integer is read from the head that carries it, positive or negative. -/
theorem reads_integer (depth : Nat) {n : Int} (lower : -2 ^ 64 ≤ n) (upper : n < 2 ^ 64) :
    integer.Reads depth (integerItem n) n := by
  intro levels position rest hl
  change integerAmong (_ + 1) levels _ = _
  unfold integerItem
  split
  · rename_i hn
    have hb : (Head.unsigned n.toNat).ReadsBack := Head.readsBack_unsigned (by omega)
    have hr := reads_head hb depth levels position rest hl
    rw [Head.encode] at hr
    simp only [integerAmong, bind_apply, hr, pure_apply, Int.toNat_of_nonneg hn]
  · rename_i hn
    have hb : (Head.negative (-1 - n).toNat).ReadsBack := Head.readsBack_negative (by omega)
    have hr := reads_head hb depth levels position rest hl
    have hc : complement (-1 - n).toNat = n := by
      rw [complement]
      omega
    rw [Head.encode] at hr
    simp only [integerAmong, bind_apply, hr, pure_apply, hc]

theorem reads_word (depth : Nat) (n : UInt64) : word.Reads depth (unsignedItem n.toNat) n := by
  have hn : n.toNat < 2 ^ 64 := n.toNat_lt
  have hi : integerItem (n.toNat : Int) = unsignedItem n.toNat := if_pos (Int.natCast_nonneg _)
  have range : 0 ≤ (n.toNat : Int) ∧ (n.toNat : Int) < 0x10000000000000000 := by omega
  rw [← hi]
  apply (reads_integer depth (by omega) (by omega)).map
  simp [range]

theorem reads_unit (depth : Nat) : unit.Reads depth nullItem () := by
  have hi : nullItem = (Head.simple 22).encode ++ [] := rfl
  rw [hi]
  apply reads_untagged Head.readsBack_null fun _ => Head.noConfusion
  intro place
  exact reads_pure depth ()

/-! ## Arrays -/

/-- Items one after another, each read by the same decoder. -/
theorem reads_items {is : List Bytes} {as : List α}
    (h : List.Forall₂ (fun bs a => d.Reads depth bs a) is as) :
    (items d is.length).Reads depth is.flatten as := by
  induction h with
  | nil => exact reads_pure depth []
  | cons ha _ ih => exact ha.bind (ih.map rfl)

/-- A sequence is its length and its items. -/
theorem arrayItem_eq (is : List Bytes) :
    arrayItem is = (Head.array (some is.length)).encode ++ is.flatten := rfl

/-- A list is read if each of its items is. -/
theorem reads_list {is : List Bytes} {as : List α} (hn : is.length < 2 ^ 64)
    (h : List.Forall₂ (fun bs a => d.Reads depth bs a) is as) :
    (list d).Reads (depth + 1) (arrayItem is) as := by
  rw [arrayItem_eq]
  apply reads_untagged (Head.readsBack_array hn) fun _ => Head.noConfusion
  intro place
  exact (reads_items h).nested

/-- A fixed sequence is read if its items are, one after another. -/
theorem reads_tuple {body : Option Nat → Decoder α} {is : List Bytes} (hn : is.length < 2 ^ 64)
    (h : (body (some is.length)).Reads depth is.flatten a) :
    (tuple body).Reads (depth + 1) (arrayItem is) a := by
  rw [arrayItem_eq]
  apply reads_untagged (Head.readsBack_array hn) fun _ => Head.noConfusion
  intro place
  exact h.nested

theorem reads_nextItem (h : d.Reads depth bs a) (n : Nat) :
    (nextItem d (some (n + 1))).Reads depth bs (a, some n) := h.map rfl

theorem reads_pair {e : Decoder β} (hd : d.Reads depth bs a) (he : e.Reads depth cs b) :
    (pair d e).Reads (depth + 1) (arrayItem [bs, cs]) (a, b) := by
  apply reads_tuple (by simp)
  apply (reads_nextItem hd 1).bind
  apply (reads_nextItem he 0).bind
  exact reads_pure depth (a, b)

/-! ## Records -/

/-- Fields that are read one after another into the parts of a record. -/
inductive Fills (field : String → Option (σ → Decoder σ)) (depth : Nat) :
    σ → List (String × Bytes) → σ → Prop
  | done {part} : Fills field depth part [] part
  | next {part name read bs filled fields final}
      (hn : (Bytes.ofString name).length ≤ keyLimit) (hf : field name = some read)
      (hr : (read part).Reads depth bs filled) (rest : Fills field depth filled fields final) :
      Fills field depth part ((name, bs) :: fields) final

variable {field : String → Option (σ → Decoder σ)} {part final start : σ}
  {fs : List (String × Bytes)}

/-- A field that was not there before is filled. -/
theorem reads_fill {put : Option α → σ} (h : d.Reads depth bs a) :
    (fill none d put).Reads depth bs (put (some a)) := h.map rfl

/-- Fields are read in the order in which they were written. -/
theorem reads_entries (h : Fills field depth part fs final) :
    (entries field fs.length part).Reads depth
      (fs.map fun f => textItem f.1 ++ f.2).flatten final := by
  induction h with
  | done => exact reads_pure depth _
  | @next part name read bs filled fields final hn hf hr rest ih =>
      have he : (entry field part).Reads depth (textItem name ++ bs) filled := by
        apply (reads_key depth hn).bind
        simp only [Option.bind_some, hf]
        exact hr
      exact he.bind ih

/-- A record is its number of fields, and their names and values in turn. -/
theorem recordItem_eq (fs : List (String × Bytes)) :
    recordItem fs = (Head.map (some fs.length)).encode ++
      (fs.map fun f => textItem f.1 ++ f.2).flatten := by
  simp [recordItem, mapItem, Head.encode, lengthBytes, Function.comp_def]

/-- A record is read if its fields are and fill all that it needs. -/
theorem reads_record {finish : σ → Option α} (hn : fs.length < 2 ^ 64)
    (h : Fills field depth start fs final) (hf : finish final = some a) :
    (record field start finish).Reads (depth + 1) (recordItem fs) a := by
  rw [recordItem_eq]
  apply reads_untagged (Head.readsBack_map hn) fun _ => Head.noConfusion
  intro place
  apply Reads.nested
  apply (reads_entries h).map
  rw [hf]
  rfl

/-! ## Variants -/

section Variants
variable {body : String → Option (Decoder α)} {name : String}
  (hn : (Bytes.ofString name).length ≤ keyLimit) (hb : body name = some d)
include hn hb

/-- The content of a variant is read by the decoder of its name. -/
theorem reads_variantBody (hd : d.Reads depth bs a) :
    (nested (do
      match (← key).bind body with
      | some d => d
      | none => unexpected)).Reads (depth + 1) (textItem name ++ bs) a := by
  apply Reads.nested
  apply (reads_key depth hn).bind
  simp only [Option.bind_some, hb]
  exact hd

/-- A variant without fields is its name. -/
theorem reads_variant_name (hd : d.Reads depth [] a) :
    (variant body).Reads (depth + 1) (textItem name) a := by
  have hh := Head.readsBack_text (Nat.lt_of_le_of_lt hn (by decide))
  apply reads_untagged_putBack hh (fun _ => Head.noConfusion) (fun _ => rfl)
  have named := reads_variantBody hn hb hd
  rw [List.append_nil] at named
  exact named

/-- A variant with fields is a map from its name to them. -/
theorem reads_variant_entry (hd : d.Reads depth bs a) :
    (variant body).Reads (depth + 1) (mapItem [(textItem name, bs)]) a := by
  have hh : (Head.map (some 1)).ReadsBack := Head.readsBack_map (by decide)
  have hi :
      mapItem [(textItem name, bs)] = (Head.map (some 1)).encode ++ (textItem name ++ bs) := by
    simp [mapItem, Head.encode, lengthBytes]
  rw [hi]
  apply reads_untagged hh fun _ => Head.noConfusion
  intro place
  exact reads_variantBody hn hb hd

end Variants

theorem reads_fields {asRecord asTuple : Decoder α} (hn : fs.length < 2 ^ 64)
    (h : asRecord.Reads depth (recordItem fs) a) :
    (fields asRecord asTuple).Reads depth (recordItem fs) a := by
  intro levels position rest hl
  have hr := h levels position rest hl
  rw [recordItem_eq, List.append_assoc] at hr ⊢
  rw [fields, peek_bind_apply (Head.readsBack_map hn)]
  exact hr

end EventStream.Cbor.Decoder
