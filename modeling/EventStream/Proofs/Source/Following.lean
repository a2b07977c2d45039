import EventStream.Proofs.Source.Discipline
import EventStream.Source.ScriptedFormat

/-!
# A reader follows the reader behind it

Between two starts a reader of a source asks one reader of the format. What it shows and
counts is what that reader has answered: every record, converted, once and in order,
whichever calls fail in between.

## Implementation notes

What a reader of the format answers is not taken from the reader of the source. The calls
that were made on it are put to it once more, from the state and the world in which it was
opened, and the answers to these are what the statements compare with.
-/

namespace EventStream

variable {φ ρ ς κ ν κ' ν' : Type}

/-- What a reader of a format answers to a call on it. -/
inductive Reply (κ ν : Type) where
  | record (result : Except SourceError (Option (κ × ν)))
  | progress (result : Except SourceError Binary64)
  | closed (result : Except SourceError Unit)

namespace Reply

/-- The record that was returned. -/
def record? : Reply κ ν → Option (κ × ν)
  | record (.ok found) => found
  | _ => none

/-- The progress that was claimed. -/
def claim? : Reply κ ν → Option Binary64
  | progress (.ok claimed) => some claimed
  | _ => none

/-- The records among replies, in order. -/
def records (replies : List (Reply κ ν)) : List (κ × ν) := replies.filterMap record?

/-- The claims of progress among replies, in order. -/
def claims (replies : List (Reply κ ν)) : List Binary64 := replies.filterMap claim?

@[simp] theorem records_append (xs ys : List (Reply κ ν)) :
    records (xs ++ ys) = records xs ++ records ys := List.filterMap_append

@[simp] theorem claims_append (xs ys : List (Reply κ ν)) :
    claims (xs ++ ys) = claims xs ++ claims ys := List.filterMap_append

end Reply

namespace InputFormat

variable (format : InputFormat φ ρ ς κ ν)

/-- A reader of a format, by its state and the world, after a call on it, and its reply. -/
def ask (s : ρ × φ) : FormatCall ς → Option (Reply κ ν) × ρ × φ
  | .next _ => (some (.record (format.next s.1 s.2).1), (format.next s.1 s.2).2)
  | .progress _ => (some (.progress (format.progress s.1 s.2).1), (format.progress s.1 s.2).2)
  | .close _ => (some (.closed (format.close s.1 s.2).1), (format.close s.1 s.2).2)
  | .splits | .create _ _ => (none, s)

/-- A reader of a format after some calls on it. -/
def asked (s : ρ × φ) (calls : List (FormatCall ς)) : ρ × φ :=
  calls.foldl (fun s c => (format.ask s c).2) s

/-- What a reader of a format replies to some calls on it, one after another. -/
def replies (s : ρ × φ) : List (FormatCall ς) → List (Reply κ ν)
  | [] => []
  | c :: rest => (format.ask s c).1.toList ++ replies (format.ask s c).2 rest

variable (s : ρ × φ) (xs ys : List (FormatCall ς))

theorem asked_append : format.asked s (xs ++ ys) = format.asked (format.asked s xs) ys :=
  List.foldl_append

/-- Calls are replied to one after another, from where the ones before left off. -/
theorem replies_append :
    format.replies s (xs ++ ys) = format.replies s xs ++ format.replies (format.asked s xs) ys := by
  induction xs generalizing s with
  | nil => rfl
  | cons c rest ih =>
      rw [List.cons_append, replies, ih, replies, List.append_assoc]
      rfl

variable {format s} {k : Nat} {measured : Except SourceError Binary64}
  {result : Except SourceError (Option (κ × ν))} {s' s'' : ρ × φ}

/-- A reader that is read only. -/
theorem asked_next (read : format.next s.1 s.2 = (result, s')) :
    format.asked s [.next k] = s' ∧ format.replies s [.next k] = [.record result] := by
  simp [asked, replies, ask, read]

/-- A reader that is measured only. -/
theorem asked_progress (progress : format.progress s.1 s.2 = (measured, s')) :
    format.asked s [.progress k] = s' ∧ format.replies s [.progress k] = [.progress measured] := by
  simp [asked, replies, ask, progress]

/-- A reader that is measured and then read. -/
theorem asked_progress_next (progress : format.progress s.1 s.2 = (measured, s'))
    (read : format.next s'.1 s'.2 = (result, s'')) :
    format.asked s [.progress k, .next k] = s'' ∧
      format.replies s [.progress k, .next k] = [.progress measured, .record result] := by
  simp [asked, replies, ask, progress, read]

end InputFormat

namespace BoundedReader

/-- The current record, if a call has just moved to it. -/
def shows (outcome : Outcome φ ρ ς κ ν κ' ν' Bool) : List (Option (κ' × ν')) :=
  match outcome.result with
  | .ok true => [outcome.state.1.current]
  | _ => []

/-- Moves a measure of progress forward to a claim, as far as it is one. -/
def furthered (progress claimed : Binary64) : Binary64 := progress.max claimed.clampUnit

/-! ## Advancing -/

variable (format : InputFormat φ ρ ς κ ν)

/--
A reader that holds a reader of the format goes from one state to another: it has shown some records
and made some calls, and both what it has shown and where it is now are told by the replies.
-/
structure Tracks (behind : OpenReader ρ) (before : BoundedReader ρ ς κ ν κ' ν' × φ)
    (shown : List (Option (κ' × ν'))) (calls : List (FormatCall ς))
    (after : BoundedReader ρ ς κ ν κ' ν' × φ) : Prop where
  asks : ∀ c ∈ calls, c.asks? = some behind.number
  reader : after.1.reader =
    some ⟨behind.number, (format.asked (behind.state, before.2) calls).1⟩
  world : after.2 = (format.asked (behind.state, before.2) calls).2
  convert : after.1.convert = before.1.convert
  shown : shown = (Reply.records (format.replies (behind.state, before.2) calls)).map
    fun x => some (before.1.convert x)
  counted : after.1.recordsReturned = before.1.recordsReturned +
    (Reply.records (format.replies (behind.state, before.2) calls)).length
  progress : after.1.progress =
    (Reply.claims (format.replies (behind.state, before.2) calls)).foldl furthered
      before.1.progress

variable {format}

namespace Tracks

variable {behind : OpenReader ρ} {s t u : BoundedReader ρ ς κ ν κ' ν' × φ}

/-- Nothing has to be tracked where nothing is called. -/
theorem refl (h : s.1.reader = some behind) : Tracks format behind s [] [] s :=
  ⟨fun _ hc => (nomatch hc), h, rfl, rfl, rfl, rfl, rfl⟩

/-- The same with the replies and the state behind written out. -/
theorem of_replies {shown : List (Option (κ' × ν'))} {calls : List (FormatCall ς)}
    {replies : List (Reply κ ν)} {s' : ρ × φ}
    (h : format.asked (behind.state, s.2) calls = s' ∧
      format.replies (behind.state, s.2) calls = replies)
    (asks : ∀ c ∈ calls, c.asks? = some behind.number)
    (moved : t.1.reader = some ⟨behind.number, s'.1⟩ ∧ t.2 = s'.2)
    (convert : t.1.convert = s.1.convert)
    (shows : shown = (Reply.records replies).map fun x => some (s.1.convert x))
    (counts : t.1.recordsReturned = s.1.recordsReturned + (Reply.records replies).length)
    (progress : t.1.progress = (Reply.claims replies).foldl furthered s.1.progress) :
    Tracks format behind s shown calls t := by
  obtain ⟨rfl, rfl⟩ := h
  exact ⟨asks, moved.1, moved.2, convert, shows, counts, progress⟩

/-- Tracking goes on where it left off. -/
theorem trans {xs ys : List (Option (κ' × ν'))} {cs ds : List (FormatCall ς)}
    (first : Tracks format behind s xs cs t)
    (second : Tracks format ⟨behind.number, (format.asked (behind.state, s.2) cs).1⟩ t ys ds u) :
    Tracks format behind s (xs ++ ys) (cs ++ ds) u := by
  have same : ((format.asked (behind.state, s.2) cs).1, t.2) =
      format.asked (behind.state, s.2) cs := by
    rw [first.world]
  constructor
  · intro c hc
    rcases List.mem_append.1 hc with hc | hc
    · exact first.asks c hc
    · exact second.asks c hc
  · rw [second.reader, same, ← format.asked_append]
  · rw [second.world, same, ← format.asked_append]
  · rw [second.convert, first.convert]
  · rw [first.shown, second.shown, first.convert, same, format.replies_append,
      Reply.records_append, List.map_append]
  · rw [second.counted, first.counted, same, format.replies_append, Reply.records_append,
      List.length_append, Nat.add_assoc]
  · rw [second.progress, first.progress, same, format.replies_append, Reply.claims_append,
      List.foldl_append]

end Tracks

section Advanced
variable {r : BoundedReader ρ ς κ ν κ' ν'} {w : φ} {outcome : Outcome φ ρ ς κ ν κ' ν' Bool}
  (advanced : Advanced format r w outcome)
include advanced

/-- An advance shows and counts what the reader behind replies. -/
theorem Advanced.tracks (hc : r.closed = false) {behind : OpenReader ρ}
    (hr : r.reader = some behind) :
    Tracks format behind (r, w) (shows outcome) (SourceEffect.calls outcome.effects)
      outcome.state := by
  have measures : ∀ c ∈ [(.progress behind.number : FormatCall ς)],
      c.asks? = some behind.number := by simp [FormatCall.asks?]
  have reads : ∀ c ∈ [(.progress behind.number : FormatCall ς), .next behind.number],
      c.asks? = some behind.number := by simp [FormatCall.asks?]
  cases advanced with
  | refused h => simp [h] at hc
  | finished h hd => exact .refl hr
  | notStarted h hd none => simp [none] at hr
  | unmeasured h hd hr' progress =>
      cases hr.symm.trans hr'
      exact .of_replies (InputFormat.asked_progress (s := (_, _)) progress) measures
        ⟨rfl, rfl⟩ rfl rfl rfl rfl
  | unreadable h hd hr' progress read =>
      cases hr.symm.trans hr'
      exact .of_replies (InputFormat.asked_progress_next (s := (_, _)) progress read) reads
        ⟨rfl, rfl⟩ rfl rfl rfl rfl
  | record h hd hr' progress read =>
      cases hr.symm.trans hr'
      exact .of_replies (InputFormat.asked_progress_next (s := (_, _)) progress read) reads
        ⟨rfl, rfl⟩ rfl rfl rfl rfl
  | exhausted h hd hr' progress read =>
      cases hr.symm.trans hr'
      exact .of_replies (InputFormat.asked_progress_next (s := (_, _)) progress read) reads
        ⟨rfl, rfl⟩ rfl rfl rfl rfl

/-- An advance that fails leaves what is shown and counted alone. -/
theorem Advanced.kept {e : SourceError} (he : outcome.result = .error e) :
    outcome.state.1.current = r.current ∧
      outcome.state.1.recordsReturned = r.recordsReturned := by
  cases advanced with
  | refused h => exact ⟨rfl, rfl⟩
  | notStarted h hd hr => exact ⟨rfl, rfl⟩
  | unmeasured h hd hr progress => exact ⟨rfl, rfl⟩
  | unreadable h hd hr progress read => exact ⟨rfl, rfl⟩
  | _ => cases he

/-- A split is exhausted as soon as an advance answers that there is no record. -/
theorem Advanced.done_iff :
    outcome.state.1.done = true ↔ r.done = true ∨ outcome.result = .ok false := by
  cases advanced <;> simp_all [moveTo]

/-- An advance closes no reader for good. -/
theorem Advanced.closed_eq : outcome.state.1.closed = r.closed := by
  cases advanced <;> rfl

/-- Nothing is shown once the split is exhausted. -/
theorem Advanced.current_eq_none (hr : r.done = true → r.current = none) :
    outcome.state.1.done = true → outcome.state.1.current = none := by
  cases advanced with
  | exhausted h hd hr' progress read => exact fun _ => rfl
  | record h hd hr' progress read => exact fun hd' => absurd (hd.symm.trans hd') Bool.false_ne_true
  | _ => exact hr

/-- Behind the end of the split an advance does nothing. -/
theorem Advanced.of_done (hc : r.closed = false) (hd : r.done = true) :
    outcome = ⟨.ok false, (r, w), []⟩ := by
  cases advanced with
  | finished h hd' => rfl
  | _ => simp_all

end Advanced

/-! ## Advancing again and again -/

section Run
variable (format) (s : BoundedReader ρ ς κ ν κ' ν' × φ)

/-- A reader and its world after some advances. -/
def afterAdvances : Nat → BoundedReader ρ ς κ ν κ' ν' × φ
  | 0 => s
  | n + 1 => (advance format (afterAdvances n)).state

/-- What an advance comes to after some others. -/
def advanceAt (n : Nat) : Outcome φ ρ ς κ ν κ' ν' Bool := advance format (afterAdvances format s n)

/-- The calls on the format in the first advances. -/
def callsBefore (n : Nat) : List (FormatCall ς) :=
  (List.range n).flatMap fun i => SourceEffect.calls (advanceAt format s i).effects

/-- The records shown by the first advances, each as it is current after its advance. -/
def shownBefore (n : Nat) : List (Option (κ' × ν')) :=
  (List.range n).flatMap fun i => shows (advanceAt format s i)

variable {format s} (n : Nat)

theorem advanceAt_advanced :
    Advanced format (afterAdvances format s n).1 (afterAdvances format s n).2
      (advanceAt format s n) := advance_advanced format _ _

theorem callsBefore_succ :
    callsBefore format s (n + 1) =
      callsBefore format s n ++ SourceEffect.calls (advanceAt format s n).effects := by
  rw [callsBefore, List.range_succ, List.flatMap_append, List.flatMap_singleton, ← callsBefore]

theorem shownBefore_succ :
    shownBefore format s (n + 1) = shownBefore format s n ++ shows (advanceAt format s n) := by
  rw [shownBefore, List.range_succ, List.flatMap_append, List.flatMap_singleton, ← shownBefore]

/-- Advances close no reader for good. -/
theorem closed_afterAdvances : (afterAdvances format s n).1.closed = s.1.closed := by
  induction n with
  | zero => rfl
  | succ n ih => exact (advanceAt_advanced n).closed_eq.trans ih

/-- A reader is done exactly if it was, or if an advance found no more records. -/
theorem done_afterAdvances_iff :
    (afterAdvances format s n).1.done = true ↔
      s.1.done = true ∨ ∃ m < n, (advanceAt format s m).result = .ok false := by
  induction n with
  | zero => simp [afterAdvances]
  | succ n ih =>
      rw [Nat.exists_lt_succ_right, ← or_assoc, ← ih]
      exact (advanceAt_advanced n).done_iff

/-- A reader that is done shows no record. -/
theorem current_afterAdvances_eq_none (hs : s.1.done = true → s.1.current = none) :
    (afterAdvances format s n).1.done = true → (afterAdvances format s n).1.current = none := by
  induction n with
  | zero => exact hs
  | succ n ih => exact (advanceAt_advanced n).current_eq_none ih

/-- However many advances: what was shown and counted is what the reader behind replied. -/
theorem tracks_afterAdvances (hc : s.1.closed = false) {behind : OpenReader ρ}
    (hr : s.1.reader = some behind) :
    Tracks format behind s (shownBefore format s n) (callsBefore format s n)
      (afterAdvances format s n) := by
  induction n with
  | zero => exact .refl hr
  | succ n ih =>
      rw [shownBefore_succ, callsBefore_succ]
      exact ih.trans
        ((advanceAt_advanced n).tracks ((closed_afterAdvances n).trans hc) ih.reader)

/-- Behind the end of the split nothing happens any more. -/
theorem advanceAt_of_done (hc : s.1.closed = false)
    (hd : (afterAdvances format s n).1.done = true) :
    advanceAt format s n = ⟨.ok false, afterAdvances format s n, []⟩ :=
  (advanceAt_advanced n).of_done ((closed_afterAdvances n).trans hc) hd

/-- A reader whose split is exhausted stays as it is. -/
theorem afterAdvances_of_done (hc : s.1.closed = false) (hd : s.1.done = true) :
    afterAdvances format s n = s ∧ callsBefore format s n = [] ∧ shownBefore format s n = [] := by
  induction n with
  | zero => exact ⟨rfl, rfl, rfl⟩
  | succ n ih =>
      have idle := advanceAt_of_done n hc (by rw [ih.1]; exact hd)
      rw [callsBefore_succ, shownBefore_succ, ih.2.1, ih.2.2, idle]
      exact ⟨(congrArg Report.state idle).trans ih.1, rfl, rfl⟩

end Run

/-! ## From a start on -/

/-- A start opens a reader of the format in a state and a world, having let go of the one before. -/
def OpensAt (format : InputFormat φ ρ ς κ ν) (r : BoundedReader ρ ς κ ν κ' ν') (w : φ)
    (opening : ρ × φ) : Prop :=
  ∃ w₁, letGo format r.reader w = (.ok (), w₁) ∧
    format.create r.split w₁ = (.ok opening.1, opening.2)

/-- The reader with a new reader of the format in its hands, before the first read. -/
def withNew (r : BoundedReader ρ ς κ ν κ' ν') (state : ρ) : BoundedReader ρ ς κ ν κ' ν' :=
  { r.rewound with opened := r.opened + 1, reader := some ⟨r.opened, state⟩ }

/-- A start or one of the first advances behind it has answered that there is no record. -/
def Exhausted (format : InputFormat φ ρ ς κ ν) (first : Outcome φ ρ ς κ ν κ' ν' Bool) (n : Nat) :
    Prop :=
  first.result = .ok false ∨ ∃ m < n, (advanceAt format first.state m).result = .ok false

section Start
variable {r : BoundedReader ρ ς κ ν κ' ν'} {w : φ} {outcome : Outcome φ ρ ς κ ν κ' ν' Bool}

/-- A start that finds a record goes on with a new reader of the format. -/
theorem Started.tracks (started : Started format r w outcome) (ho : outcome.result = .ok true) :
    ∃ opening, OpensAt format r w opening ∧
      SourceEffect.calls outcome.effects =
        SourceEffect.calls (closing r.reader) ++ [.create r.split (some r.opened), .next r.opened] ∧
      Tracks format ⟨r.opened, opening.1⟩ (r.withNew opening.1, opening.2) (shows outcome)
        [.next r.opened] outcome.state ∧
      outcome.state.1.closed = false ∧ outcome.state.1.done = false ∧
      outcome.state.1.recordsReturned = 1 := by
  cases started with
  | refused h => cases ho
  | stuck h release => cases ho
  | notOpened h release create => cases ho
  | @opened w₁ state w₂ first h release create read =>
      refine ⟨(state, w₂), ⟨w₁, release, create⟩, ?_⟩
      cases read with
      | unreadable read close => cases ho
      | unclosed read close => cases ho
      | empty read close => cases ho
      | record read =>
          have reads : ∀ c ∈ [(.next r.opened : FormatCall ς)], c.asks? = some r.opened := by
            simp [FormatCall.asks?]
          exact ⟨by simp [SourceEffect.calls],
            .of_replies (InputFormat.asked_next (s := (_, _)) read) reads ⟨rfl, rfl⟩
              rfl rfl rfl rfl,
            h, rfl, rfl⟩

/-- A start that finds none has read an empty split to its end. -/
theorem Started.of_empty (started : Started format r w outcome) (ho : outcome.result = .ok false) :
    ∃ opening, OpensAt format r w opening ∧
      SourceEffect.calls outcome.effects =
        SourceEffect.calls (closing r.reader) ++
          [.create r.split (some r.opened), .next r.opened, .close r.opened] ∧
      Reply.records (format.replies opening [.next r.opened]) = [] ∧
      outcome.state.1 = { r.rewound with opened := r.opened + 1, done := true } ∧
      r.closed = false := by
  cases started with
  | refused h => cases ho
  | stuck h release => cases ho
  | notOpened h release create => cases ho
  | @opened w₁ state w₂ first h release create read =>
      refine ⟨(state, w₂), ⟨w₁, release, create⟩, ?_⟩
      cases read with
      | unreadable read close => cases ho
      | unclosed read close => cases ho
      | record read => cases ho
      | empty read close =>
          refine ⟨by simp [SourceEffect.calls], ?_, rfl, h⟩
          rw [(InputFormat.asked_next (s := (_, _)) read).2]
          rfl

/--
What a reader shows and counts in some advances behind a start is what the reader of the format
opened by that start, at `opening` and under `number`, replies from its first read on. An advance
that fails changes neither. Once there was no record there is none any more, and the reader of the
format is left alone.
-/
structure ReadsAlong (format : InputFormat φ ρ ς κ ν) (number : Nat) (opening : ρ × φ)
    (convert : κ × ν → κ' × ν') (first : Outcome φ ρ ς κ ν κ' ν' Bool) (n : Nat) : Prop where
  asks : ∀ c ∈ callsBefore format first.state n, c.asks? = some number
  shown : shows first ++ shownBefore format first.state n =
    (Reply.records
      (format.replies opening (.next number :: callsBefore format first.state n))).map
        fun x => some (convert x)
  counted : (afterAdvances format first.state n).1.recordsReturned =
    (Reply.records
      (format.replies opening (.next number :: callsBefore format first.state n))).length
  kept : ∀ e, (advanceAt format first.state n).result = .error e →
    (advanceAt format first.state n).state.1.current =
        (afterAdvances format first.state n).1.current ∧
      (advanceAt format first.state n).state.1.recordsReturned =
        (afterAdvances format first.state n).1.recordsReturned
  finished : Exhausted format first n →
    (afterAdvances format first.state n).1.current = none ∧
      (afterAdvances format first.state n).1.splitPointsRemaining = 0 ∧
      advanceAt format first.state n = ⟨.ok false, afterAdvances format first.state n, []⟩

/-- A start opens at most one reader. -/
theorem OpensAt.unique {opening opening' : ρ × φ} (h : OpensAt format r w opening)
    (h' : OpensAt format r w opening') : opening = opening' := by
  obtain ⟨w₁, release, create⟩ := h
  obtain ⟨w₁', release', create'⟩ := h'
  cases release.symm.trans release'
  obtain ⟨state, world⟩ := Prod.mk.inj (create.symm.trans create')
  exact Prod.ext (Except.ok.inj state) world

section Ok
variable (started : Started format r w outcome) {available : Bool}
  (ho : outcome.result = .ok available) (n : Nat)
include started ho

/-- A start that succeeds leaves a reader that is not closed and shows nothing if it is done. -/
theorem Started.of_ok :
    outcome.state.1.closed = false ∧
      (outcome.state.1.done = true → outcome.state.1.current = none) := by
  cases available with
  | true =>
      obtain ⟨_, _, _, _, hc, hd, _⟩ := started.tracks ho
      exact ⟨hc, fun h => absurd (hd.symm.trans h) Bool.false_ne_true⟩
  | false =>
      obtain ⟨_, _, _, _, hs, hc⟩ := started.of_empty ho
      rw [hs]
      exact ⟨hc, fun _ => rfl⟩

/-- Between starts, the split is exhausted as soon as there was no record. -/
theorem Started.done_iff :
    (afterAdvances format outcome.state n).1.done = true ↔ Exhausted format outcome n := by
  rw [done_afterAdvances_iff, Exhausted]
  cases available with
  | true =>
      obtain ⟨_, _, _, _, _, hd, _⟩ := started.tracks ho
      simp [ho, hd]
  | false =>
      obtain ⟨_, _, _, _, hs, _⟩ := started.of_empty ho
      simp [ho, hs]

/-- Once the split is exhausted, nothing more is shown or called. -/
theorem Started.finished (h : Exhausted format outcome n) :
    (afterAdvances format outcome.state n).1.current = none ∧
      (afterAdvances format outcome.state n).1.splitPointsRemaining = 0 ∧
      advanceAt format outcome.state n = ⟨.ok false, afterAdvances format outcome.state n, []⟩ := by
  obtain ⟨hc, emptied⟩ := started.of_ok ho
  have hd := (started.done_iff ho n).2 h
  exact ⟨current_afterAdvances_eq_none n emptied hd, by rw [splitPointsRemaining, if_pos hd],
    advanceAt_of_done n hc hd⟩

end Ok

/-- Behind a start that finds a record, all that is shown and counted is what is replied. -/
theorem Started.tracks_afterAdvances (started : Started format r w outcome)
    (ho : outcome.result = .ok true) {opening : ρ × φ} (opens : OpensAt format r w opening)
    (n : Nat) :
    Tracks format ⟨r.opened, opening.1⟩ (r.withNew opening.1, opening.2)
      (shows outcome ++ shownBefore format outcome.state n)
      (.next r.opened :: callsBefore format outcome.state n)
      (afterAdvances format outcome.state n) := by
  obtain ⟨opening', opens', -, first, hc, -⟩ := started.tracks ho
  cases opens.unique opens'
  exact first.trans (BoundedReader.tracks_afterAdvances n hc first.reader)

/-- A start that succeeds reads along with the reader it opened. -/
theorem Started.readsAlong (started : Started format r w outcome) {available : Bool}
    (ho : outcome.result = .ok available) {opening : ρ × φ} (opens : OpensAt format r w opening)
    (n : Nat) : ReadsAlong format r.opened opening r.convert outcome n := by
  have kept : ∀ e, (advanceAt format outcome.state n).result = .error e → _ :=
    fun e he => (advanceAt_advanced n).kept he
  have finished := started.finished ho n
  cases available with
  | true =>
      have tracks := started.tracks_afterAdvances ho opens n
      exact ⟨fun c hc => tracks.asks c (List.mem_cons_of_mem _ hc), tracks.shown,
        tracks.counted.trans (Nat.zero_add _), kept, finished⟩
  | false =>
      obtain ⟨opening', opens', -, nothing, hs, hc⟩ := started.of_empty ho
      cases opens.unique opens'
      have closed : outcome.state.1.closed = false := by
        rw [hs]
        exact hc
      have done : outcome.state.1.done = true := by rw [hs]
      obtain ⟨same, noCalls, noneShown⟩ :
          afterAdvances format outcome.state n = outcome.state ∧ _ :=
        afterAdvances_of_done n closed done
      have silent : shows outcome = [] := by rw [shows, ho]
      refine ⟨?_, ?_, ?_, kept, finished⟩
      · rw [noCalls]
        exact fun _ h => (nomatch h)
      · rw [noCalls, noneShown, silent, nothing]
        rfl
      · rw [noCalls, nothing, same, hs]
        rfl

end Start

end BoundedReader

end EventStream
