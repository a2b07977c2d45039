import EventStream.Proofs.Cbor.Portable
import EventStream.Source.MemoryFormat

/-!
# Splits of records in memory

The splits of a list of records follow on each other from its beginning to its end.
They are full, except possibly the last one, and none is empty. Their bounds are
computed in machine words and do not leave them.

## Implementation notes

The records at hand are counted in a machine word, so lists of `2 ^ 64` records or
more do not occur. How many records make a split is not limited.
-/

namespace EventStream

open Cbor

variable {κ ν : Type}

namespace MemoryFormat

variable (f : MemoryFormat κ ν)

/-- The records of a split. -/
def part (s : MemorySplit) : List (κ × ν) := (f.records.take s.stop.toNat).drop s.start.toNat

/-! ## Chunks -/

/-- A chunk holds what is left of the records, up to as many as make a split. -/
theorem length_chunk (i : Nat) :
    (f.chunk i).length = min f.perSplit (f.records.length - i * f.perSplit) := by
  rw [chunk, List.length_take, List.length_drop]

/-- The chunks make up the records, in order. -/
theorem flatMap_chunk (n : Nat) :
    (List.range n).flatMap f.chunk = f.records.take (n * f.perSplit) := by
  induction n with
  | zero => simp
  | succ n ih =>
      rw [List.range_succ, List.flatMap_append, ih, Nat.succ_mul, List.take_add,
        List.flatMap_singleton, chunk]

/-- There are enough chunks for all records. -/
theorem length_le_splitCount_mul : f.records.length ≤ f.splitCount * f.perSplit := by
  have := Nat.lt_div_mul_add (a := f.records.length + f.perSplit - 1) f.perSplit_pos
  rw [splitCount]
  omega

/-- The chunks in order make up the records. -/
theorem flatMap_chunk_splitCount : (List.range f.splitCount).flatMap f.chunk = f.records := by
  rw [flatMap_chunk, List.take_of_length_le f.length_le_splitCount_mul]

/-- Every chunk with a number below the number of splits begins within the records. -/
theorem mul_perSplit_lt {i : Nat} (hi : i < f.splitCount) : i * f.perSplit < f.records.length := by
  have whole : f.splitCount * f.perSplit ≤ f.records.length + f.perSplit - 1 :=
    Nat.div_mul_le_self _ _
  have next : (i + 1) * f.perSplit ≤ f.splitCount * f.perSplit := Nat.mul_le_mul_right _ hi
  have := f.perSplit_pos
  rw [Nat.succ_mul] at next
  omega

theorem splitCount_pos (h : f.records ≠ []) : 0 < f.splitCount := by
  have records : 0 < f.records.length := List.length_pos_iff.2 h
  exact Nat.pos_of_mul_pos_right (Nat.lt_of_lt_of_le records f.length_le_splitCount_mul)

/-! ## Splits -/

variable [ToCbor κ] [ToCbor ν]

/-- The size of a record that can be encoded. -/
def encodedSize (record : κ × ν) : Nat :=
  match encode record with
  | .ok bytes => bytes.length
  | .error _ => 0

/-- The size of records that can be encoded. -/
def encodedSizes (records : List (κ × ν)) : Nat := (records.map encodedSize).foldr (· + ·) 0

/-- The split of a chunk. -/
def chunkSplit (i : Nat) : MemorySplit where
  start := .ofNat (i * f.perSplit)
  stop := .ofNat (i * f.perSplit + (f.chunk i).length)
  length := .ofNat (encodedSizes (f.chunk i))

theorem recordSize_eq_ok {record : κ × ν} (h : ∃ bytes, encode record = .ok bytes) :
    recordSize record = .ok (encodedSize record) := by
  obtain ⟨bytes, h⟩ := h
  simp only [recordSize, encodedSize, h]

/-- A chunk of records that can be encoded gives a split of its own range and size. -/
theorem splitAt_eq_ok (encodable : ∀ record ∈ f.records, ∃ bytes, encode record = .ok bytes)
    (i : Nat) : f.splitAt i = .ok (f.chunkSplit i) := by
  have sizes : (f.chunk i).mapM recordSize = .ok ((f.chunk i).map encodedSize) := by
    rw [mapM_eq_ok_iff, List.forall₂_map_right_iff, List.forall₂_same]
    intro record hr
    exact recordSize_eq_ok (encodable record (List.mem_of_mem_drop (List.mem_of_mem_take hr)))
  rw [splitAt, sizes]
  rfl

/-- Records that can be encoded are cut into one split for each chunk. -/
theorem splits_eq_ok (encodable : ∀ record ∈ f.records, ∃ bytes, encode record = .ok bytes) :
    f.splits = .ok ((List.range f.splitCount).map f.chunkSplit) := by
  rw [splits, mapM_eq_ok_iff, List.forall₂_map_right_iff, List.forall₂_same]
  exact fun i _ => f.splitAt_eq_ok encodable i

section Bounds
variable {f} (hlen : f.records.length < 2 ^ 64) {i : Nat} (hi : i < f.splitCount)
include hlen hi

theorem toNat_start_chunkSplit : (f.chunkSplit i).start.toNat = i * f.perSplit :=
  UInt64.toNat_ofNat_of_lt' (Nat.lt_trans (f.mul_perSplit_lt hi) hlen)

theorem toNat_stop_chunkSplit :
    (f.chunkSplit i).stop.toNat = min ((i + 1) * f.perSplit) f.records.length := by
  have := f.mul_perSplit_lt hi
  have stop : i * f.perSplit + (f.chunk i).length =
      min ((i + 1) * f.perSplit) f.records.length := by
    rw [length_chunk, Nat.succ_mul]
    omega
  rw [chunkSplit, stop]
  exact UInt64.toNat_ofNat_of_lt' (Nat.lt_of_le_of_lt (Nat.min_le_right _ _) hlen)

/-- A split is neither empty nor larger than a chunk may be. -/
theorem bounds_chunkSplit :
    (f.chunkSplit i).start.toNat < (f.chunkSplit i).stop.toNat ∧
      (f.chunkSplit i).stop.toNat ≤ (f.chunkSplit i).start.toNat + f.perSplit := by
  have within := f.mul_perSplit_lt hi
  have positive := f.perSplit_pos
  rw [toNat_start_chunkSplit hlen hi, toNat_stop_chunkSplit hlen hi, Nat.succ_mul]
  omega

/-- The records in the range of a split are those of its chunk. -/
theorem part_chunkSplit : f.part (f.chunkSplit i) = f.chunk i := by
  rw [part, toNat_start_chunkSplit hlen hi, toNat_stop_chunkSplit hlen hi,
    ← List.take_eq_take_min, List.drop_take, Nat.succ_mul, Nat.add_sub_cancel_left, chunk]

end Bounds

/-- Splits that cut the records, from the first one to the last, into consecutive parts. -/
structure Cuts (splits : List MemorySplit) : Prop where
  /-- The first split begins at the beginning. -/
  first : splits.head?.map (·.start.toNat) = some 0
  /-- The last split ends at the end. -/
  last : splits.getLast?.map (·.stop.toNat) = some f.records.length
  /-- A split that is not the last one is full, and the next one follows on it. -/
  next {i : Nat} {a b : MemorySplit} : splits[i]? = some a → splits[i + 1]? = some b →
    a.stop.toNat = a.start.toNat + f.perSplit ∧ b.start = a.stop
  /-- No split is empty or overfull. -/
  bounds {s : MemorySplit} : s ∈ splits →
    s.start.toNat < s.stop.toNat ∧ s.stop.toNat ≤ s.start.toNat + f.perSplit
  /-- The product that a split begins at stays within a word. -/
  exact {i : Nat} {s : MemorySplit} : splits[i]? = some s → s.start.toNat = i * f.perSplit
  /-- The length of a split is the size of its records, as far as sizes stay within a word. -/
  sizes {s : MemorySplit} : s ∈ splits → encodedSizes (f.part s) < 2 ^ 64 →
    s.length.toNat = encodedSizes (f.part s)

theorem exists_of_mem_chunkSplits {s : MemorySplit}
    (h : s ∈ (List.range f.splitCount).map f.chunkSplit) :
    ∃ i, i < f.splitCount ∧ f.chunkSplit i = s := by
  simpa using h

theorem of_getElem?_chunkSplits {i : Nat} {s : MemorySplit}
    (h : ((List.range f.splitCount).map f.chunkSplit)[i]? = some s) :
    i < f.splitCount ∧ f.chunkSplit i = s := by
  obtain ⟨hi, hs⟩ := List.getElem?_eq_some_iff.1 h
  exact ⟨by simpa using hi, by simpa using hs⟩

/-- The splits stand in the order of their chunks. -/
theorem getElem?_chunkSplits {i : Nat} (hi : i < f.splitCount) :
    ((List.range f.splitCount).map f.chunkSplit)[i]? = some (f.chunkSplit i) := by
  rw [List.getElem?_map, List.getElem?_range hi, Option.map_some]

/-- Consecutive ranges, full except the last, cover the records without overflow. -/
theorem cuts_chunkSplits (hne : f.records ≠ []) (hlen : f.records.length < 2 ^ 64) :
    f.Cuts ((List.range f.splitCount).map f.chunkSplit) where
  first := by
    have count := f.splitCount_pos hne
    rw [List.head?_eq_getElem?, f.getElem?_chunkSplits count, Option.map_some,
      toNat_start_chunkSplit hlen count, Nat.zero_mul]
  last := by
    have count := f.splitCount_pos hne
    have final : f.splitCount - 1 < f.splitCount := Nat.sub_lt count Nat.one_pos
    rw [List.getLast?_eq_getElem?, List.length_map, List.length_range,
      f.getElem?_chunkSplits final, Option.map_some, toNat_stop_chunkSplit hlen final,
      Nat.sub_add_cancel count, Nat.min_eq_right f.length_le_splitCount_mul]
  next := by
    intro i a b ha hb
    obtain ⟨hi, rfl⟩ := f.of_getElem?_chunkSplits ha
    obtain ⟨hj, rfl⟩ := f.of_getElem?_chunkSplits hb
    -- the chunk is full, as the one behind it begins within the records
    have full : (f.chunkSplit i).stop.toNat = (i + 1) * f.perSplit := by
      rw [toNat_stop_chunkSplit hlen hi]
      exact Nat.min_eq_left (Nat.le_of_lt (f.mul_perSplit_lt hj))
    refine ⟨?_, UInt64.toNat_inj.1 ?_⟩
    · rw [full, toNat_start_chunkSplit hlen hi, Nat.succ_mul]
    · rw [full, toNat_start_chunkSplit hlen hj]
  bounds := by
    intro s hs
    obtain ⟨i, hi, rfl⟩ := f.exists_of_mem_chunkSplits hs
    exact bounds_chunkSplit hlen hi
  exact := by
    intro i s hs
    obtain ⟨hi, rfl⟩ := f.of_getElem?_chunkSplits hs
    exact toNat_start_chunkSplit hlen hi
  sizes := by
    intro s hs total
    obtain ⟨i, hi, rfl⟩ := f.exists_of_mem_chunkSplits hs
    rw [part_chunkSplit hlen hi] at total ⊢
    exact UInt64.toNat_ofNat_of_lt' total

end MemoryFormat

end EventStream
