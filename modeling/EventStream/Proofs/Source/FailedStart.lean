import EventStream.Proofs.Source.Following

/-!
# A start that fails

A start fails if the reader before cannot be closed, the new one cannot be opened or read, or
one without records cannot be closed. With the reader before out of the way, the reader is
then as if it had never been started, and may be started again.

If the reader before cannot be closed, the start gives up too early: what was counted is
counted still, and a split that was exhausted stays so.
-/

namespace EventStream

variable {φ ρ ς κ ν κ' ν' : Type}

namespace BoundedReader

/-- A reader that is not started: it shows and counts nothing and refuses to advance. -/
structure Unstarted (format : InputFormat φ ρ ς κ ν) (s : BoundedReader ρ ς κ ν κ' ν' × φ) :
    Prop where
  current : s.1.current = none
  counted : s.1.recordsReturned = 0
  fraction : s.1.fractionConsumed = .zero
  points : s.1.splitPointsRemaining = 1
  refuses : advance format s = ⟨.error .notStarted, s, []⟩

/--
A start no call of which fails: the reader that it opens stands at `opening`, and either has a
record or can be closed.
-/
inductive Unfailing (format : InputFormat φ ρ ς κ ν) (r : BoundedReader ρ ς κ ν κ' ν') (w : φ)
    (opening : ρ × φ) : Bool → Prop
  | record {x after} (opens : OpensAt format r w opening)
      (read : format.next opening.1 opening.2 = (.ok (some x), after)) :
      Unfailing format r w opening true
  | empty {after after'} (opens : OpensAt format r w opening)
      (read : format.next opening.1 opening.2 = (.ok none, after))
      (close : format.close after.1 after.2 = (.ok (), after')) :
      Unfailing format r w opening false

variable {format : InputFormat φ ρ ς κ ν} {r : BoundedReader ρ ς κ ν κ' ν'} {w : φ}

theorem Unfailing.opens {opening : ρ × φ} {available : Bool}
    (h : Unfailing format r w opening available) : OpensAt format r w opening := by
  cases h with
  | record opens read => exact opens
  | empty opens read close => exact opens

/-! ## What is left behind -/

/--
Without a reader of the format, a reader is unstarted if it has counted nothing and is not done.
-/
theorem unstarted_iff {s : BoundedReader ρ ς κ ν κ' ν' × φ} (hc : s.1.closed = false)
    (hr : s.1.reader = none) (hn : s.1.current = none) :
    Unstarted format s ↔ s.1.recordsReturned = 0 ∧ s.1.done = false := by
  constructor
  · intro h
    refine ⟨h.counted, Bool.eq_false_iff.2 fun hd => ?_⟩
    have points := h.points
    rw [splitPointsRemaining, if_pos hd] at points
    cases points
  · rintro ⟨hz, hd⟩
    refine ⟨hn, hz, ?_, ?_, ?_⟩
    · simp [fractionConsumed, hd, hr]
    · simp [splitPointsRemaining, hd]
    · have advanced := advance_advanced format s.1 s.2
      generalize advance format (s.1, s.2) = outcome at advanced
      cases advanced with
      | notStarted h hd hr => rfl
      | _ => simp_all

/-- A start that fails lets go of the reader before in vain, or rewinds. -/
theorem Started.of_error {outcome : Outcome φ ρ ς κ ν κ' ν' Bool}
    (started : Started format r w outcome) (hc : r.closed = false) {e : SourceError}
    (he : outcome.result = .error e) :
    ((letGo format r.reader w).1 = .error e ∧
        outcome.state.1 = { r with reader := none, current := none }) ∨
      (letGo format r.reader w).1 = .ok () ∧
        ∃ opened, outcome.state.1 = { r.rewound with opened := opened } := by
  cases started with
  | refused h => simp [h] at hc
  | stuck h release =>
      cases he
      exact .inl ⟨by rw [release], rfl⟩
  | notOpened h release create => exact .inr ⟨by rw [release], r.opened, rfl⟩
  | opened h release create first =>
      refine .inr ⟨by rw [release], r.opened + 1, ?_⟩
      cases first with
      | unreadable read close => rfl
      | unclosed read close => rfl
      | record read => cases he
      | empty read close => cases he

/-! ## Starting again -/

/-- A start that opens a reader of the format goes as the first read of that reader goes. -/
theorem OpensAt.exists_firstRead {opening : ρ × φ} (opens : OpensAt format r w opening)
    (hc : r.closed = false) :
    ∃ first, FirstRead format { r.rewound with opened := r.opened + 1 }
        ⟨r.opened, opening.1⟩ opening.2 first ∧
      (start format (r, w)).result = first.result := by
  obtain ⟨state, world⟩ := opening
  obtain ⟨w₁, release, create⟩ := opens
  have started := start_started format r w
  generalize start format (r, w) = outcome at started
  cases started with
  | refused h => simp [h] at hc
  | stuck h release' => cases release.symm.trans release'
  | notOpened h release' create' =>
      cases release.symm.trans release'
      cases create.symm.trans create'
  | opened h release' create' first =>
      cases release.symm.trans release'
      cases create.symm.trans create'
      exact ⟨_, first, rfl⟩

/-- A start succeeds if none of its calls fails. -/
theorem start_of_unfailing (hc : r.closed = false) {opening : ρ × φ} {available : Bool}
    (h : Unfailing format r w opening available) :
    (start format (r, w)).result = .ok available := by
  cases h with
  | record opens read =>
      obtain ⟨outcome, first, same⟩ := opens.exists_firstRead hc
      rw [same]
      cases first with
      | record read' => rfl
      | unreadable read' close => cases read.symm.trans read'
      | unclosed read' close => cases read.symm.trans read'
      | empty read' close => cases read.symm.trans read'
  | empty opens read close =>
      obtain ⟨outcome, first, same⟩ := opens.exists_firstRead hc
      rw [same]
      cases first with
      | empty read' close' => rfl
      | unreadable read' close' => cases read.symm.trans read'
      | record read' => cases read.symm.trans read'
      | unclosed read' close' =>
          cases read.symm.trans read'
          cases close.symm.trans close'

/-- Neither starts nor advances change what is read, and they do not close a reader. -/
theorem perform_keeps {c : Command} (hc : c ≠ .close) (s : BoundedReader ρ ς κ ν κ' ν' × φ) :
    (perform format c s).state.1.split = s.1.split ∧
      (perform format c s).state.1.convert = s.1.convert ∧
      (perform format c s).state.1.closed = s.1.closed := by
  cases c with
  | start =>
      rw [perform, discard_apply]
      have started := start_started format s.1 s.2
      generalize start format s = outcome at started
      cases started with
      | opened h release create first => cases first <;> exact ⟨rfl, rfl, rfl⟩
      | _ => exact ⟨rfl, rfl, rfl⟩
  | advance =>
      rw [perform, discard_apply]
      have advanced := advance_advanced format s.1 s.2
      generalize advance format s = outcome at advanced
      cases advanced <;> exact ⟨rfl, rfl, rfl⟩
  | close => exact absurd rfl hc

theorem performAll_keeps {commands : List Command} (hc : .close ∉ commands)
    (s : BoundedReader ρ ς κ ν κ' ν' × φ) :
    (performAll format s commands).1.split = s.1.split ∧
      (performAll format s commands).1.convert = s.1.convert ∧
      (performAll format s commands).1.closed = s.1.closed := by
  induction commands generalizing s with
  | nil => exact ⟨rfl, rfl, rfl⟩
  | cons c rest ih =>
      obtain ⟨split, convert, closed⟩ : (perform format c s).state.1.split = s.1.split ∧ _ :=
        perform_keeps (fun h => hc (h ▸ List.mem_cons_self)) s
      have later := ih (fun h => hc (List.mem_cons_of_mem c h)) (perform format c s).state
      exact ⟨later.1.trans split, later.2.1.trans convert, later.2.2.trans closed⟩

/--
A start of a reader that is not closed fails in one of two ways. If the reader before was let go of,
the reader is unstarted afterwards. If it could not be closed, nothing but the current record is
reset: the reader is unstarted only if it had counted no record and was not exhausted. Either way,
any later start no call of which fails succeeds and reads the split from its beginning.
-/
theorem failed_start_leaves_unstarted (format : InputFormat φ ρ ς κ ν)
    (r : BoundedReader ρ ς κ ν κ' ν') (w : φ) (hc : r.closed = false) {e : SourceError}
    (he : (start format (r, w)).result = .error e) :
    let s := (start format (r, w)).state
    ((letGo format r.reader w).1 = .ok () → Unstarted format s) ∧
      ((letGo format r.reader w).1 ≠ .ok () →
        s.1 = { r with reader := none, current := none } ∧
          (Unstarted format s ↔ r.recordsReturned = 0 ∧ r.done = false)) ∧
      ∀ commands, .close ∉ commands →
        let t := performAll format s commands
        t.1.split = r.split ∧
          ∀ opening available, Unfailing format t.1 t.2 opening available →
            (start format t).result = .ok available ∧
              ∀ n, ReadsAlong format t.1.opened opening r.convert (start format t) n := by
  intro s
  have left := (start_started format r w).of_error hc he
  have empty : s.1.closed = false ∧ s.1.reader = none ∧ s.1.current = none := by
    obtain ⟨-, hs⟩ | ⟨-, opened, hs⟩ := left <;> rw [hs] <;> exact ⟨hc, rfl, rfl⟩
  have iff : Unstarted format s ↔ s.1.recordsReturned = 0 ∧ s.1.done = false :=
    unstarted_iff empty.1 empty.2.1 empty.2.2
  refine ⟨fun released => ?_, fun stuck => ?_, fun commands unclosed => ?_⟩
  · obtain ⟨unreleased, -⟩ | ⟨-, opened, hs⟩ := left
    · cases released.symm.trans unreleased
    · rw [iff, hs]
      exact ⟨rfl, rfl⟩
  · obtain ⟨-, hs⟩ | ⟨released, -⟩ := left
    · rw [iff, hs]
      exact ⟨rfl, Iff.rfl⟩
    · exact absurd released stuck
  · intro t
    have same : s.1.split = r.split ∧ s.1.convert = r.convert := by
      obtain ⟨-, hs⟩ | ⟨-, opened, hs⟩ := left <;> rw [hs] <;> exact ⟨rfl, rfl⟩
    obtain ⟨split, convert, closed⟩ : t.1.split = s.1.split ∧ t.1.convert = s.1.convert ∧
        t.1.closed = s.1.closed := performAll_keeps unclosed s
    refine ⟨split.trans same.1, fun opening available unfailing => ?_⟩
    have found := start_of_unfailing (closed.trans empty.1) unfailing
    refine ⟨found, fun n => ?_⟩
    rw [← same.2, ← convert]
    exact (start_started format t.1 t.2).readsAlong found unfailing.opens n

/-- A split that is read to its end, cannot be read the second time, and can the third time. -/
def relapsingFormat : ScriptedFormat Nat Nat where
  splits := [⟨⟨"a", 1⟩, [
    ⟨none, [.ok (some (1, 1)), .ok none], [], none⟩,
    ⟨none, [.error "torn"], [], none⟩,
    ⟨none, [.ok (some (1, 1)), .ok (some (2, 2)), .ok none], [], none⟩]⟩]
  splitsErrors := []

/-- A split that is read to its end and whose reader cannot be closed then. -/
def jammedFormat : ScriptedFormat Nat Nat where
  splits := [⟨⟨"a", 1⟩, [⟨none, [.ok (some (1, 1)), .ok none], [], some "busy"⟩]⟩]
  splitsErrors := []

/-- A reader of the split of a scripted format that was started and advanced once. -/
def advancedOnce (format : ScriptedFormat Nat Nat) :
    BoundedReader (ScriptedReader Nat Nat) ScriptedSplit Nat Nat Nat Nat × ScriptedWorld :=
  performAll format.toInputFormat (initial ⟨"a", 1⟩ id id, .initial) [.start, .advance]

theorem failed_start_leaves_unstarted_relapsingFormat :
    let format := relapsingFormat.toInputFormat
    let r := advancedOnce relapsingFormat
    let s := (start format r).state
    let t := performAll format s [.advance]
    r.1.closed = false ∧ r.1.fractionConsumed = .one ∧
      (start format r).result = .error (.format "torn") ∧ Unstarted format s ∧
      (start format t).result = .ok true ∧
      shows (start format t) ++ shownBefore format (start format t).state 2 =
        [some (1, 1), some (2, 2)] := by
  intro format r s t
  have failed : (start format r).result = .error (.format "torn") := rfl
  obtain ⟨unstarted, -, again⟩ := failed_start_leaves_unstarted format r.1 r.2 rfl failed
  have smooth : Unfailing format t.1 t.2 (⟨⟨none, _, [], none⟩, 0, 0⟩, ⟨0, ["a", "a", "a"]⟩) true :=
    .record ⟨_, rfl, rfl⟩ rfl
  obtain ⟨found, along⟩ := (again [.advance] (by simp)).2 _ _ smooth
  exact ⟨rfl, rfl, failed, unstarted rfl, found, (along 2).shown.trans (by decide)⟩

/-- A start that cannot close the reader of an exhausted split leaves the split exhausted. -/
theorem failed_start_leaves_exhausted :
    ¬ ∀ (format : ScriptedFormat Nat Nat) (commands : List Command) (e : SourceError),
      let s := performAll format.toInputFormat (initial ⟨"a", 1⟩ id id, .initial) commands
      s.1.closed = false → (start format.toInputFormat s).result = .error e →
        Unstarted format.toInputFormat (start format.toInputFormat s).state := by
  intro h
  have points := (h jammedFormat [.start, .advance] (.format "busy") rfl rfl).points
  -- the split has been read to its end, and no part of it is left
  cases points

end BoundedReader

end EventStream
