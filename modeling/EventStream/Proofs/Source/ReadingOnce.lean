import EventStream.Proofs.Source.ReaderCalls
import EventStream.Proofs.Source.SourceCalls
import EventStream.Proofs.Source.Splits

/-!
# Every record is read once

A source of records in memory is cut into bundles, and every bundle is read to its
end. Bundle after bundle, this hands out all records in order, converted, each of
them once.

Reading is a relation: the reader is started, then advanced until there is no
record left, and its current record is taken after each call in between.
-/

namespace EventStream

variable {φ ρ ς κ ν κ' ν' : Type}

namespace BoundedReader

/-- The records handed out by a call and all those after it, until there are no more. -/
inductive Yields (format : InputFormat φ ρ ς κ ν) :
    Call φ ρ ς κ ν κ' ν' Bool → BoundedReader ρ ς κ ν κ' ν' × φ → List (κ' × ν') → Prop
  | finished {call s} (h : (call s).result = .ok false) : Yields format call s []
  | record {call s x rest} (h : (call s).result = .ok true)
      (current : (call s).state.1.current = some x)
      (more : Yields format (advance format) (call s).state rest) :
      Yields format call s (x :: rest)

/-- Reading comes to one list of records at most. -/
theorem Yields.deterministic {format : InputFormat φ ρ ς κ ν} {call : Call φ ρ ς κ ν κ' ν' Bool}
    {s : BoundedReader ρ ς κ ν κ' ν' × φ} {xs ys : List (κ' × ν')}
    (hx : Yields format call s xs) (hy : Yields format call s ys) : xs = ys := by
  induction hx generalizing ys with
  | finished h =>
      cases hy with
      | finished h' => rfl
      | record h' current' more' => simp [h] at h'
  | record h current more ih =>
      cases hy with
      | finished h' => simp [h] at h'
      | record h' current' more' =>
          rw [Option.some.inj (current.symm.trans current'), ih more']

/-- A reader in the middle of its split, with the reader of the format that it holds. -/
structure Amid (r : BoundedReader ρ ς κ ν κ' ν') (behind : OpenReader ρ) : Prop where
  closed : r.closed = false
  done : r.done = false
  reader : r.reader = some behind

section Steps
variable {format : InputFormat φ ρ ς κ ν} {r : BoundedReader ρ ς κ ν κ' ν'} {w w₁ w₂ : φ}
  {x : κ × ν} {state state' : ρ} {behind : OpenReader ρ} {claimed : Binary64} {xs : List (κ' × ν')}

/-- An advance that finds a record hands it out, converted. -/
theorem Yields.advance_record (h : r.Amid behind)
    (progress : format.progress behind.state w = (.ok claimed, state, w₁))
    (read : format.next state w₁ = (.ok (some x), state', w₂))
    (more : ∀ r', r'.Amid ⟨behind.number, state'⟩ → r'.convert = r.convert →
      Yields format (advance format) (r', w₂) xs) :
    Yields format (advance format) (r, w) (r.convert x :: xs) := by
  have step := advance_advanced format r w
  generalize hreport : advance format (r, w) = report at step
  obtain ⟨hc, hd, hr⟩ := h
  cases step with
  | record _ _ hr' progress' read' =>
      cases hr.symm.trans hr'
      cases progress.symm.trans progress'
      cases read.symm.trans read'
      refine .record (by rw [hreport]) (by rw [hreport]; rfl) ?_
      rw [hreport]
      exact more _ ⟨hc, hd, rfl⟩ rfl
  | _ => simp_all

/-- An advance that finds none is the last one. -/
theorem Yields.advance_none (h : r.Amid behind)
    (progress : format.progress behind.state w = (.ok claimed, state, w₁))
    (read : format.next state w₁ = (.ok none, state', w₂)) :
    Yields format (advance format) (r, w) [] := by
  have step := advance_advanced format r w
  generalize hreport : advance format (r, w) = report at step
  obtain ⟨hc, hd, hr⟩ := h
  cases step with
  | exhausted _ _ hr' progress' read' => exact .finished (by rw [hreport])
  | _ => simp_all

/-- The first start opens the split and hands out its first record. -/
theorem Yields.start_record {split : ς} {convertKey : κ → κ'} {convertValue : ν → ν'}
    (create : format.create split w = (.ok state, w₁))
    (read : format.next state w₁ = (.ok (some x), state', w₂))
    (more : ∀ r', r'.Amid ⟨0, state'⟩ →
      r'.convert = (initial split convertKey convertValue : BoundedReader ρ ς κ ν κ' ν').convert →
      Yields format (advance format) (r', w₂) xs) :
    Yields format (start format) (initial split convertKey convertValue, w)
      ((convertKey x.1, convertValue x.2) :: xs) := by
  have step := start_started format
    (initial split convertKey convertValue : BoundedReader ρ ς κ ν κ' ν') w
  generalize hreport : start format (initial split convertKey convertValue, w) = report at step
  cases step with
  | refused h => cases h
  | stuck h release => cases release
  | notOpened h release create' =>
      cases release
      cases create.symm.trans create'
  | opened h release create' first =>
      cases release
      cases create.symm.trans create'
      cases first with
      | record read' =>
          cases read.symm.trans read'
          refine .record (by rw [hreport]; rfl) (by rw [hreport]; rfl) ?_
          rw [hreport]
          exact more _ ⟨rfl, rfl, rfl⟩ rfl
      | unreadable read' close => cases read.symm.trans read'
      | unclosed read' close => cases read.symm.trans read'
      | empty read' close => cases read.symm.trans read'

end Steps

end BoundedReader

/-- What a reader of a bundle hands out when it is started and advanced to the end. -/
def BoundedSource.Reads (format : InputFormat φ ρ ς κ ν) (w : φ)
    (bundle : BoundedSource ς κ ν κ' ν') (records : List (κ' × ν')) : Prop :=
  ∃ reader, bundle.createReader = .ok reader ∧
    BoundedReader.Yields format (BoundedReader.start format) (reader, w) records

/-! ## Reading a split in memory -/

namespace MemoryFormat

open BoundedReader Cbor

variable (f : MemoryFormat κ ν)

/-- A reader of a split that stands in front of a record. -/
def readerAt (s : MemorySplit) (position : Nat) : MemoryReader κ ν :=
  ⟨f.records, s.start.toNat, s.stop.toNat, position, false⟩

variable {f} {s : MemorySplit} {position : Nat}

theorem next_readerAt_of_lt (h : position < s.stop.toNat) :
    (f.readerAt s position).next = (.ok f.records[position]?, f.readerAt s (position + 1)) := by
  simp [readerAt, MemoryReader.next, Nat.not_le.2 h]

theorem next_readerAt_of_le (h : s.stop.toNat ≤ position) :
    (f.readerAt s position).next = (.ok none, f.readerAt s position) := by
  simp [readerAt, MemoryReader.next, h]

theorem createReader_eq_ok (h : s.start.toNat ≤ s.stop.toNat)
    (hs : s.stop.toNat ≤ f.records.length) :
    f.createReader s = .ok (f.readerAt s s.start.toNat) := by
  rw [createReader, if_neg (by omega)]
  rfl

/-- What is left of a split begins with the record at the position. -/
theorem drop_take_eq_cons (hs : s.stop.toNat ≤ f.records.length) (h : position < s.stop.toNat) :
    (f.records.take s.stop.toNat).drop position =
      f.records.get ⟨position, Nat.lt_of_lt_of_le h hs⟩ ::
        (f.records.take s.stop.toNat).drop (position + 1) := by
  have within : position < (f.records.take s.stop.toNat).length := by
    rw [List.length_take]
    omega
  rw [List.drop_eq_getElem_cons within, List.getElem_take]
  rfl

variable [ToCbor κ] [ToCbor ν]

/-- From any position on, advancing hands out what is left of the split. -/
theorem yields_advance (hs : s.stop.toNat ≤ f.records.length)
    {r : BoundedReader (MemoryReader κ ν) MemorySplit κ ν κ' ν'} {number : Nat}
    (h : r.Amid ⟨number, f.readerAt s position⟩) :
    Yields f.toInputFormat (advance f.toInputFormat) (r, ())
      (((f.records.take s.stop.toNat).drop position).map r.convert) := by
  -- on what is left of the split: an advance that finds a record moves on by one
  induction left : s.stop.toNat - position generalizing position r with
  | zero =>
      have read := next_readerAt_of_le (f := f) (Nat.le_of_sub_eq_zero left)
      rw [List.drop_eq_nil_of_le (by rw [List.length_take]; omega), List.map_nil]
      exact .advance_none h rfl (congrArg (fun p => (p.1, p.2, ())) read)
  | succ n ih =>
      have lt : position < s.stop.toNat := Nat.lt_of_sub_eq_succ left
      have read := next_readerAt_of_lt (f := f) lt
      rw [List.getElem?_eq_getElem (Nat.lt_of_lt_of_le lt hs)] at read
      rw [drop_take_eq_cons hs lt, List.map_cons]
      refine .advance_record h rfl (congrArg (fun p => (p.1, p.2, ())) read) fun r' h' same => ?_
      rw [← same]
      exact ih h' (by omega)

/-- Reading a split from the start hands out its records. -/
theorem yields_start (hs : s.stop.toNat ≤ f.records.length) (h : s.start.toNat < s.stop.toNat)
    (convertKey : κ → κ') (convertValue : ν → ν') :
    Yields f.toInputFormat (start f.toInputFormat) (initial s convertKey convertValue, ())
      ((f.part s).map fun record => (convertKey record.1, convertValue record.2)) := by
  have create := createReader_eq_ok (Nat.le_of_lt h) hs
  have read := next_readerAt_of_lt (f := f) h
  rw [List.getElem?_eq_getElem (Nat.lt_of_lt_of_le h hs)] at read
  rw [part, drop_take_eq_cons hs h, List.map_cons]
  refine .start_record (congrArg (fun p => (p, ())) create)
    (congrArg (fun p => (p.1, p.2, ())) read) fun r' h' same => ?_
  have rest := yields_advance hs h'
  rw [same] at rest
  exact rest

end MemoryFormat

/-! ## Bundles -/

namespace BoundedSource

variable (format : InputFormat φ ρ ς κ ν) (s : BoundedSource ς κ ν κ' ν') (w : φ)

/-- A source that was not split before makes a bundle of each split, in order. -/
theorem splitIntoBundles_result (hs : s.split = none) (hs' : s.splits = none) {splits : List ς}
    {w' : φ} (h : format.splits w = (.ok splits, w')) (hne : splits ≠ []) :
    (splitIntoBundles format (s, w)).result = .ok (splits.map s.forSplit) := by
  have required := (Required.computed hs' h hne).eq
  rw [splitIntoBundles_of_ok format w hs (by rw [required])]

theorem createReader_forSplit (split : ς) :
    ((s.forSplit split).createReader : Except SourceError (BoundedReader ρ ς κ ν κ' ν')) =
      .ok (.initial split s.convertKey s.convertValue) := rfl

theorem Reads.rightUnique :
    Relator.RightUnique (Reads format w : BoundedSource ς κ ν κ' ν' → List (κ' × ν') → Prop) := by
  rintro bundle xs ys ⟨reader, created, hx⟩ ⟨reader', created', hy⟩
  cases created.symm.trans created'
  exact hx.deterministic hy

end BoundedSource

namespace MemoryFormat

open BoundedSource Cbor

variable [ToCbor κ] [ToCbor ν] (f : MemoryFormat κ ν)

/-- The bundle of a chunk hands out its records, converted. -/
theorem reads_chunk (hlen : f.records.length < 2 ^ 64) {i : Nat} (hi : i < f.splitCount)
    (source : BoundedSource MemorySplit κ ν κ' ν') :
    Reads f.toInputFormat () (source.forSplit (f.chunkSplit i))
      ((f.chunk i).map fun record =>
        (source.convertKey record.1, source.convertValue record.2)) := by
  have within : (f.chunkSplit i).stop.toNat ≤ f.records.length := by
    rw [toNat_stop_chunkSplit hlen hi]
    exact Nat.min_le_right _ _
  have read :=
    yields_start within (bounds_chunkSplit hlen hi).1 source.convertKey source.convertValue
  rw [part_chunkSplit hlen hi] at read
  exact ⟨_, createReader_forSplit source (f.chunkSplit i), read⟩

/--
A source of records that can be encoded is cut into splits from its beginning to its end, none
empty and all full except possibly the last one. Each split makes a bundle, in order, and reading
bundle after bundle from the start until there is nothing left always comes to an end and hands out
the records in order, converted, each of them once.
-/
theorem every_record_read_once (convertKey : κ → κ') (convertValue : ν → ν')
    (hne : f.records ≠ []) (hlen : f.records.length < 2 ^ 64)
    (encodable : ∀ record ∈ f.records, ∃ bytes, encode record = .ok bytes) :
    let source := (initial.withKeyConversion convertKey).withValueConversion convertValue
    ∃ splits, f.splits = .ok splits ∧ f.Cuts splits ∧
      ∃ bundles, (splitIntoBundles f.toInputFormat (source, ())).result = .ok bundles ∧
        bundles.map BoundedSource.split = splits.map some ∧
        ∃ parts, (∀ read, List.Forall₂ (Reads f.toInputFormat ()) bundles read ↔ read = parts) ∧
          parts.flatten =
            f.records.map fun record => (convertKey record.1, convertValue record.2) := by
  intro source
  let convert := fun record : κ × ν => (convertKey record.1, convertValue record.2)
  have nonempty : (List.range f.splitCount).map f.chunkSplit ≠ [] := by
    simpa using Nat.ne_of_gt (f.splitCount_pos hne)
  have reads : List.Forall₂ (Reads f.toInputFormat ())
      (((List.range f.splitCount).map f.chunkSplit).map source.forSplit)
      ((List.range f.splitCount).map fun i => (f.chunk i).map convert) := by
    rw [List.map_map, List.forall₂_map_left_iff, List.forall₂_map_right_iff, List.forall₂_same]
    exact fun i hi => f.reads_chunk hlen (List.mem_range.1 hi) source
  refine ⟨_, f.splits_eq_ok encodable, f.cuts_chunkSplits hne hlen, _,
    splitIntoBundles_result f.toInputFormat source () rfl rfl
      (congrArg (fun splits => (splits, ())) (f.splits_eq_ok encodable)) nonempty,
    List.map_map, _, fun read => ⟨fun h => ?_, fun h => h ▸ reads⟩, ?_⟩
  · exact (Reads.rightUnique f.toInputFormat ()).forall₂ h reads
  · rw [← List.flatMap_def, ← List.map_flatMap, f.flatMap_chunk_splitCount]

/-- Five records, cut into two splits of two records and one of a single record. -/
def fiveRecords : MemoryFormat UInt64 String :=
  ⟨[(0, "a"), (1, "bc"), (2, ""), (3, "d"), (4, "efg")], 2, by decide⟩

theorem every_record_read_once_fiveRecords :
    fiveRecords.records ≠ [] ∧ fiveRecords.records.length < 2 ^ 64 ∧
      (∀ record ∈ fiveRecords.records, ∃ bytes, encode record = .ok bytes) ∧
      let source := (initial.withKeyConversion (· * 2)).withValueConversion String.length
      ∃ splits, fiveRecords.splits = .ok splits ∧ fiveRecords.Cuts splits ∧
        ∃ bundles, (splitIntoBundles fiveRecords.toInputFormat (source, ())).result = .ok bundles ∧
          bundles.map BoundedSource.split = splits.map some ∧
          ∃ parts,
            (∀ read,
              List.Forall₂ (Reads fiveRecords.toInputFormat ()) bundles read ↔ read = parts) ∧
            parts.flatten = [(0, 1), (2, 2), (4, 0), (6, 1), (8, 3)] := by
  have encodable : ∀ record ∈ fiveRecords.records, ∃ bytes, encode record = .ok bytes :=
    fun record _ => ⟨_, rfl⟩
  exact ⟨by decide, by decide, encodable,
    every_record_read_once fiveRecords (· * 2) String.length (by decide) (by decide) encodable⟩

end MemoryFormat

end EventStream
