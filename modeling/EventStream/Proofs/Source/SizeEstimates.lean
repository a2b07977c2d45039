import EventStream.Datum
import EventStream.Proofs.Source.Splits
import EventStream.Proofs.Source.SplitsOnce
import Mathlib.Algebra.Order.BigOperators.Group.List
import Mathlib.Algebra.Order.Ring.Nat

/-!
# Sizes do not depend on the cut

The size of a source of records in memory is the size of all its records together, wherever the
cuts between its splits lie. If a record cannot be encoded, the first such record fails both the
size and the bundles, again wherever the cuts lie, and the source keeps nothing.

Both follow from one law: going through the chunks of a list one after another, and through each
of them, is going through the list.
-/

namespace EventStream

open Cbor

variable {κ ν κ' ν' γ δ ε η : Type}

/-! ## Lists gone through with a call that may fail -/

/-- Going through parts of a list one after another is going through the list. -/
theorem mapM_flatMap (f : δ → Except ε η) (part : γ → List δ) (xs : List γ) :
    (xs.flatMap part).mapM f = (xs.mapM fun x => (part x).mapM f).map List.flatten := by
  induction xs with
  | nil => rfl
  | cons x xs ih =>
      rw [List.flatMap_cons, List.mapM_append, ih, List.mapM_cons]
      cases (part x).mapM f with
      | error e => rfl
      | ok ys =>
          cases xs.mapM fun x => (part x).mapM f with
          | error e => rfl
          | ok yss => rfl

/-- Changing what is answered does not change what fails. -/
theorem mapM_map_ignored (f : γ → Except ε δ) (g : γ → δ → η) (xs : List γ) :
    (xs.mapM fun x => (f x).map (g x)).map (fun _ => ()) = (xs.mapM f).map fun _ => () := by
  induction xs with
  | nil => rfl
  | cons x xs ih =>
      rw [List.mapM_cons, List.mapM_cons]
      cases f x with
      | error e => rfl
      | ok y =>
          calc
            _ = (xs.mapM fun x => (f x).map (g x)).map fun _ => () := by
              cases xs.mapM fun x => (f x).map (g x) <;> rfl
            _ = (xs.mapM f).map fun _ => () := ih
            _ = _ := by cases xs.mapM f <;> rfl

/-- The first failure ends going through a list. -/
theorem mapM_eq_error {f : γ → Except ε δ} {before after : List γ} {x : γ} {e : ε}
    (h : ∀ a ∈ before, ∃ y, f a = .ok y) (hx : f x = .error e) :
    (before ++ x :: after).mapM f = .error e := by
  obtain ⟨ys, hys⟩ := exists_forall₂ h
  rw [List.mapM_append, mapM_eq_ok_iff.2 hys, List.mapM_cons, hx]
  rfl

namespace MemoryFormat

open BoundedSource

variable [ToCbor κ] [ToCbor ν] (f : MemoryFormat κ ν)

/-! ## Sizes of records -/

/-- A record is written as an array of its key and its value. -/
theorem encodedSize_eq {record : κ × ν} (h : ∃ bytes, encode record = .ok bytes) :
    ∃ key value, encode record.1 = .ok key ∧ encode record.2 = .ok value ∧
      encodedSize record = (arrayItem [key, value]).length := by
  obtain ⟨bytes, h⟩ := h
  have pair : encode record =
      (do return arrayItem [← encode record.1, ← encode record.2]) := rfl
  cases hk : encode record.1 with
  | error e =>
      rw [pair, hk] at h
      cases h
  | ok key =>
      cases hv : encode record.2 with
      | error e =>
          rw [pair, hk, hv] at h
          cases h
      | ok value =>
          refine ⟨key, value, rfl, rfl, ?_⟩
          rw [encodedSize, pair, hk, hv]
          rfl

theorem encodedSize_pos {record : κ × ν} (h : ∃ bytes, encode record = .ok bytes) :
    0 < encodedSize record := by
  obtain ⟨key, value, -, -, size⟩ := encodedSize_eq h
  rw [size]
  exact List.length_pos_iff.2 (arrayItem_ne_nil _)

theorem encodedSizes_flatMap (part : γ → List (κ × ν)) (xs : List γ) :
    encodedSizes (xs.flatMap part) = (xs.map fun x => encodedSizes (part x)).sum := by
  change ((xs.flatMap part).map encodedSize).sum = _
  rw [List.map_flatMap, List.flatMap_def, List.sum_flatten, List.map_map]
  rfl

/-- Every record takes a byte at least. -/
theorem length_le_encodedSizes {records : List (κ × ν)}
    (encodable : ∀ record ∈ records, ∃ bytes, encode record = .ok bytes) :
    records.length ≤ encodedSizes records := by
  calc
    records.length = (records.map encodedSize).length := (List.length_map _).symm
    _ ≤ (records.map encodedSize).sum := List.length_le_sum_of_one_le _ fun size hs => by
      obtain ⟨record, hr, rfl⟩ := List.mem_map.1 hs
      exact encodedSize_pos (encodable record hr)

theorem encodedSizes_part_le (s : MemorySplit) :
    encodedSizes (f.part s) ≤ encodedSizes f.records :=
  (((List.drop_sublist _ _).trans (List.take_sublist _ _)).map encodedSize).sum_le_sum
    fun _ _ => Nat.zero_le _

/-! ## Splits -/

/-- Whether the splits fail, and how, does not depend on where the cuts lie. -/
theorem splits_ignored :
    f.splits.map (fun _ => ()) = (f.records.mapM recordSize).map fun _ => () := by
  have cut (i : Nat) : f.splitAt i = ((f.chunk i).mapM recordSize).map fun sizes =>
      ⟨.ofNat (i * f.perSplit), .ofNat (i * f.perSplit + (f.chunk i).length),
        .ofNat (sizes.foldr (· + ·) 0)⟩ := by
    rw [splitAt]
    cases (f.chunk i).mapM recordSize <;> rfl
  calc
    f.splits.map (fun _ => ()) =
        ((List.range f.splitCount).mapM fun i => (f.chunk i).mapM recordSize).map fun _ => () := by
      rw [splits, funext cut]
      exact mapM_map_ignored _ _ _
    _ = (((List.range f.splitCount).flatMap f.chunk).mapM recordSize).map fun _ => () := by
      rw [mapM_flatMap]
      cases (List.range f.splitCount).mapM fun i => (f.chunk i).mapM recordSize <;> rfl
    _ = (f.records.mapM recordSize).map fun _ => () := by rw [flatMap_chunk_splitCount]

/-- The splits fail as the first record does that cannot be encoded. -/
theorem splits_eq_error {before after : List (κ × ν)} {bad : κ × ν} {e : EncodeError}
    (h : f.records = before ++ bad :: after)
    (encodable : ∀ record ∈ before, ∃ bytes, encode record = .ok bytes)
    (he : encode bad = .error e) : f.splits = .error (.encode e) := by
  have sized : ∀ record ∈ before, ∃ size, recordSize record = .ok size :=
    fun record hr => ⟨_, recordSize_eq_ok (encodable record hr)⟩
  have unsized : recordSize bad = .error (.encode e) := by rw [recordSize, he]
  have same := f.splits_ignored
  rw [h, mapM_eq_error sized unsized] at same
  cases hs : f.splits with
  | error e' =>
      rw [hs] at same
      exact congrArg Except.error (Except.error.inj same)
  | ok splits =>
      rw [hs] at same
      cases same

/-- The lengths of the splits of records that can be encoded add up to the size of the records. -/
theorem totalLength_chunkSplits (small : encodedSizes f.records < 2 ^ 64) :
    f.toInputFormat.totalLength ((List.range f.splitCount).map f.chunkSplit) =
      encodedSizes f.records := by
  have total : ((List.range f.splitCount).map fun i => encodedSizes (f.chunk i)).sum =
      encodedSizes f.records := by
    rw [← encodedSizes_flatMap, flatMap_chunk_splitCount]
  rw [← total, InputFormat.totalLength, List.map_map]
  refine congrArg List.sum (List.map_congr_left fun i hi => ?_)
  have part : encodedSizes (f.chunk i) ≤ encodedSizes f.records := by
    rw [← total]
    exact List.le_sum_of_mem (List.mem_map_of_mem hi)
  exact UInt64.toNat_ofNat_of_lt' (Nat.lt_of_le_of_lt part small)

/--
For records that can all be encoded, every source of them tells the same size, however they are cut
and whatever was called on it before: the size of all records together, each written as an array of
its key and its value. The length of each split is the size of the records in its own range. If a
record cannot be encoded, the first such record fails both the size and the bundles of every source,
and no splits are kept.
-/
theorem size_independent_of_cut {records : List (κ × ν)} (hne : records ≠ []) :
    ((∀ record ∈ records, ∃ bytes, encode record = .ok bytes) → encodedSizes records < 2 ^ 64 →
      (∀ record ∈ records, ∃ key value, encode record.1 = .ok key ∧ encode record.2 = .ok value ∧
        encodedSize record = (arrayItem [key, value]).length) ∧
      ∀ f : MemoryFormat κ ν, f.records = records →
        ∀ {κ₁ ν₁ : Type} (s : BoundedSource MemorySplit κ ν κ₁ ν₁) asked,
          Reaches f.toInputFormat initial s asked →
            (estimatedSizeBytes f.toInputFormat (s, ())).result = .ok (encodedSizes records) ∧
            ∃ splits,
              (splitIntoBundles f.toInputFormat (s, ())).result = .ok (splits.map s.forSplit) ∧
              f.Cuts splits ∧ ∀ split ∈ splits, split.length.toNat = encodedSizes (f.part split)) ∧
    ∀ before bad after e, records = before ++ bad :: after →
      (∀ record ∈ before, ∃ bytes, encode record = .ok bytes) → encode bad = .error e →
        ∀ f : MemoryFormat κ ν, f.records = records →
          ∀ {κ₁ ν₁ : Type} (s : BoundedSource MemorySplit κ ν κ₁ ν₁) asked,
            Reaches f.toInputFormat initial s asked →
              s.splits = none ∧
                Tells f.toInputFormat s () (.error (.encode e)) (s, ()) [.splits] := by
  refine ⟨fun encodable small => ⟨fun record hr => encodedSize_eq (encodable record hr), ?_⟩, ?_⟩
  · rintro f rfl κ₁ ν₁ s asked reaches
    have count := f.splitCount_pos hne
    have nonempty : (List.range f.splitCount).map f.chunkSplit ≠ [] := by
      simpa using Nat.ne_of_gt count
    have cuts := f.cuts_chunkSplits hne
      (Nat.lt_of_le_of_lt (length_le_encodedSizes encodable) small)
    obtain ⟨left, asks, tells⟩ :=
      reaches.tells_ok (fun _ => f.splits_eq_ok encodable) nonempty ()
    refine ⟨?_, _, tells.bundles, cuts, fun split hs => ?_⟩
    · rw [tells.size, Except.map, f.totalLength_chunkSplits small]
    · exact cuts.sizes hs (Nat.lt_of_le_of_lt (f.encodedSizes_part_le split) small)
  · rintro before bad after e split encodable he f rfl κ₁ ν₁ s asked reaches
    exact reaches.tells_error (fun _ => f.splits_eq_error split encodable he) ()

/-- Three records that take twelve bytes together. -/
def threeRecords : List (UInt64 × String) := [(0, "a"), (1, "bc"), (2, "")]

/-- Three records, of which the last two cannot be encoded. -/
def tornRecords : List (Datum × Datum) :=
  [(.int 1, .null), (.int 2, .refusing "torn"), (.refusing "late", .null)]

theorem size_independent_of_cut_threeRecords :
    let pairs : MemoryFormat UInt64 String := ⟨threeRecords, 2, by decide⟩
    let whole : MemoryFormat UInt64 String := ⟨threeRecords, 100, by decide⟩
    let torn : MemoryFormat Datum Datum := ⟨tornRecords, 1, by decide⟩
    threeRecords ≠ [] ∧ tornRecords ≠ [] ∧
      (estimatedSizeBytes pairs.toInputFormat (initial, ())).result = .ok 12 ∧
      (estimatedSizeBytes whole.toInputFormat
        (initial.withValueConversion String.length, ())).result = .ok 12 ∧
      (splitIntoBundles torn.toInputFormat (initial, ())).result =
        .error (.encode (.value "torn")) := by
  intro pairs whole torn
  have nonempty : threeRecords ≠ [] := by decide
  have nonempty' : tornRecords ≠ [] := List.cons_ne_nil _ _
  have encodable : ∀ record ∈ threeRecords, ∃ bytes, encode record = .ok bytes :=
    fun record _ => ⟨_, rfl⟩
  have same := ((size_independent_of_cut nonempty).1 encodable (by decide)).2
  have refused := (size_independent_of_cut nonempty').2 [(.int 1, .null)] _ _ _ rfl
    (fun record hr => by
      obtain rfl := List.mem_singleton.1 hr
      exact ⟨_, rfl⟩) rfl torn rfl initial [] .origin
  exact ⟨nonempty, nonempty', (same pairs rfl initial [] .origin).1,
    (same whole rfl _ [] (Reaches.origin.convertValue String.length)).1, refused.2.bundles⟩

end MemoryFormat

end EventStream
