import EventStream.Bytes
import Mathlib.Data.List.Basic

/-!
# The start of a text

A text that is cut anywhere ends in at most three bytes of a character, and what
is left behind a part of it that is a text is a text again. So no start of a text
is ever called broken, and bytes that are called broken stay so whatever follows
them.
-/

namespace EventStream.Bytes

variable {bytes more : Bytes} {s t : String}

/-- Bytes are a text exactly if they are the bytes of one. -/
theorem toString?_eq_some_iff : toString? bytes = some s ↔ bytes = ofString s := by
  constructor
  · intro h
    unfold toString? String.fromUTF8? at h
    split at h
    · cases h
      rfl
    · cases h
  · rintro rfl
    exact toString?_ofString s

/-! ## Texts as characters -/

/-- The bytes of a text are those of its characters. -/
theorem ofString_eq_flatMap (s : String) : ofString s = s.toList.flatMap String.utf8EncodeChar := by
  rw [ofString, ← String.utf8Encode_toList, List.utf8Encode, List.data_toByteArray]

theorem ofString_ofList (cs : List Char) :
    ofString (String.ofList cs) = cs.flatMap String.utf8EncodeChar := by
  rw [ofString_eq_flatMap, String.toList_ofList]

/-- What follows a text in a longer one is a text. -/
theorem exists_ofString_of_append (h : ofString t ++ more = ofString s) :
    ∃ u, more = ofString u := by
  rw [ofString_eq_flatMap, ofString_eq_flatMap] at h
  have joined : t.toList.utf8Encode ++ more.toByteArray = s.toList.utf8Encode := by
    rw [List.utf8Encode, List.utf8Encode, ← h, List.toByteArray_append]
  obtain ⟨rest, hr⟩ := List.isPrefix_of_utf8Encode_append_eq_utf8Encode _ joined
  rw [← hr, List.flatMap_append] at h
  exact ⟨String.ofList rest, by rw [ofString_ofList, List.append_cancel_left h]⟩

/-- Characters that are cut anywhere leave at most three bytes behind the last whole one. -/
theorem exists_take_flatMap (cs : List Char) (n : Nat) :
    ∃ (whole : List Char) (part : Bytes), part.length ≤ 3 ∧
      (cs.flatMap String.utf8EncodeChar).take n =
        whole.flatMap String.utf8EncodeChar ++ part := by
  induction cs generalizing n with
  | nil => exact ⟨[], [], Nat.zero_le 3, by simp⟩
  | cons c cs ih =>
      have width := String.length_utf8EncodeChar c
      by_cases hn : n < c.utf8Size
      · have short : c.utf8Size ≤ 4 := c.utf8Size_le_four
        refine ⟨[], (String.utf8EncodeChar c).take n, ?_, ?_⟩
        · rw [List.length_take]
          omega
        · rw [List.flatMap_cons, List.take_append_of_le_length (by omega), List.flatMap_nil,
            List.nil_append]
      · obtain ⟨whole, part, hp, hw⟩ := ih (n - c.utf8Size)
        refine ⟨c :: whole, part, hp, ?_⟩
        rw [List.flatMap_cons, List.take_append, List.take_of_length_le (by omega), width, hw,
          List.flatMap_cons, List.append_assoc]

/-! ## Pieces of a text -/

/-- The bytes behind a text among the first bytes, if at most three are left behind it. -/
theorem afterText?_eq_some (h : afterText? bytes = some more) :
    ∃ t, bytes = ofString t ++ more := by
  obtain ⟨n, -, hn⟩ := List.exists_of_findSome?_eq_some h
  obtain ⟨t, ht, rfl⟩ := Option.map_eq_some_iff.1 hn
  refine ⟨t, ?_⟩
  rw [← toString?_eq_some_iff.1 ht, List.take_append_drop]

/-- A text and up to three bytes behind it can start a text. -/
theorem afterText?_ne_none (hm : more.length ≤ 3) : afterText? (ofString t ++ more) ≠ none := by
  intro h
  have := List.findSome?_eq_none_iff.1 h more.length (by
    simp only [List.mem_cons, List.not_mem_nil, or_false]
    omega)
  rw [List.length_append, Nat.add_sub_cancel, List.take_left, toString?_ofString] at this
  cases this

/-- A piece of a text leaves bytes that continue it as a text. -/
theorem exists_afterText?_take (s : String) (n : Nat) :
    ∃ begun u, afterText? ((ofString s).take n) = some begun ∧
      begun ++ (ofString s).drop n = ofString u := by
  obtain ⟨whole, part, hp, hw⟩ := exists_take_flatMap s.toList n
  rw [← ofString_eq_flatMap, ← ofString_ofList] at hw
  obtain ⟨begun, hb⟩ := Option.ne_none_iff_exists'.1 (hw ▸ afterText?_ne_none hp)
  obtain ⟨t, ht⟩ := afterText?_eq_some hb
  have joined : ofString t ++ (begun ++ (ofString s).drop n) = ofString s := by
    rw [← List.append_assoc, ← ht, List.take_append_drop]
  obtain ⟨u, hu⟩ := exists_ofString_of_append joined
  exact ⟨begun, u, hb, hu⟩

/-- No piece of a text is broken, wherever it is cut into pieces. -/
theorem isBrokenAmong_ofString (limit : Nat) (s : String) :
    isBrokenAmong limit (ofString s) = false := by
  induction limit generalizing s with
  | zero => rfl
  | succ limit ih =>
      obtain ⟨begun, u, hb, hu⟩ := exists_afterText?_take s pieceWidth
      simp only [isBrokenAmong, hb, hu, ih, ite_self]

/-- A broken piece stays broken when more bytes and more pieces follow. -/
theorem isBrokenAmong_append (limit extra : Nat) (more : Bytes)
    (h : isBrokenAmong limit bytes = true) :
    isBrokenAmong (limit + extra) (bytes ++ more) = true := by
  induction limit generalizing bytes with
  | zero => cases h
  | succ limit ih =>
      rw [isBrokenAmong] at h
      split at h
      · cases h
      · rename_i hl
        have long : pieceWidth ≤ bytes.length := Nat.not_lt.1 hl
        have whole : ¬ (bytes ++ more).length < pieceWidth := by
          rw [List.length_append]
          omega
        rw [Nat.add_right_comm, isBrokenAmong, if_neg whole,
          List.take_append_of_le_length long, List.drop_append_of_le_length long]
        cases hb : afterText? (bytes.take pieceWidth) with
        | none => rfl
        | some begun =>
            rw [hb] at h
            simpa only [List.append_assoc] using ih h

/-- Broken bytes stay broken, whatever follows them. -/
theorem isBroken_append (more : Bytes) (h : isBroken bytes = true) :
    isBroken (bytes ++ more) = true := by
  rw [isBroken, List.length_append]
  exact isBrokenAmong_append _ _ more h

/-- Broken bytes do not start a text. -/
theorem toString?_append_of_isBroken (more : Bytes) (h : isBroken bytes = true) :
    toString? (bytes ++ more) = none := by
  apply Option.eq_none_iff_forall_not_mem.2
  intro s hs
  have broken := isBroken_append more h
  rw [toString?_eq_some_iff.1 hs, isBroken, isBrokenAmong_ofString] at broken
  cases broken

end EventStream.Bytes
