import EventStream.Source.BoundedReader

/-!
# What calls on a reader come to

A reader is started, advanced and closed. Every call on it leads to a few calls on
the format, any of which may fail. The relations below list the ways a call can go,
with everything each of them leaves behind, and every later statement about readers
is a case distinction on them.
-/

namespace EventStream

/-- Effects that are put in front twice are put in front together. -/
theorem Report.after_after {σ η ε α : Type} (r : Report σ η ε α) (xs ys : List η) :
    (r.after xs).after ys = r.after (ys ++ xs) := by
  simp [Report.after]

namespace BoundedReader

variable {φ ρ ς κ ν κ' ν' : Type}

/-- What a call on a reader leaves behind. -/
abbrev Outcome (φ ρ ς κ ν κ' ν' α : Type) : Type :=
  Report (BoundedReader ρ ς κ ν κ' ν' × φ) (SourceEffect ς) SourceError α

/-- Closes the reader of the format that is open, if there is one. -/
def letGo (format : InputFormat φ ρ ς κ ν) : Option (OpenReader ρ) → φ → Except SourceError Unit × φ
  | none, w => (.ok (), w)
  | some behind, w => ((format.close behind.state w).1, (format.close behind.state w).2.2)

/-- The call that closes the reader of the format that is open. -/
def closing (behind : Option (OpenReader ρ)) : List (SourceEffect ς) :=
  behind.toList.map fun b => .call (.close b.number)

/-- What is logged about closing a reader whose first read failed. -/
def closingNotes : Except SourceError Unit → List (SourceEffect ς)
  | .ok () => []
  | .error e => [.note (.closingFailed e)]

/-- The reader before its split is opened from the beginning. -/
def rewound (r : BoundedReader ρ ς κ ν κ' ν') : BoundedReader ρ ς κ ν κ' ν' :=
  { r with reader := none, current := none, recordsReturned := 0, progress := .zero, done := false }

/-- The first read of a reader of the format that was just opened. -/
inductive FirstRead (format : InputFormat φ ρ ς κ ν) (r : BoundedReader ρ ς κ ν κ' ν')
    (behind : OpenReader ρ) (w : φ) : Outcome φ ρ ς κ ν κ' ν' Bool → Prop
  | unreadable {e state w₁ closed state' w₂}
      (read : format.next behind.state w = (.error e, state, w₁))
      (close : format.close state w₁ = (closed, state', w₂)) :
      FirstRead format r behind w ⟨.error e, (r, w₂),
        [.call (.next behind.number), .call (.close behind.number)] ++ closingNotes closed⟩
  | record {x state w₁} (read : format.next behind.state w = (.ok (some x), state, w₁)) :
      FirstRead format r behind w
        ⟨.ok true, ({ r.moveTo x with reader := some ⟨behind.number, state⟩ }, w₁),
          [.call (.next behind.number)]⟩
  | unclosed {state w₁ e state' w₂} (read : format.next behind.state w = (.ok none, state, w₁))
      (close : format.close state w₁ = (.error e, state', w₂)) :
      FirstRead format r behind w ⟨.error e, (r, w₂),
        [.call (.next behind.number), .call (.close behind.number)]⟩
  | empty {state w₁ state' w₂} (read : format.next behind.state w = (.ok none, state, w₁))
      (close : format.close state w₁ = (.ok (), state', w₂)) :
      FirstRead format r behind w ⟨.ok false, ({ r with done := true }, w₂),
        [.call (.next behind.number), .call (.close behind.number)]⟩

/-- The ways a start can go. -/
inductive Started (format : InputFormat φ ρ ς κ ν) (r : BoundedReader ρ ς κ ν κ' ν') (w : φ) :
    Outcome φ ρ ς κ ν κ' ν' Bool → Prop
  | refused (h : r.closed = true) : Started format r w ⟨.error .closed, (r, w), []⟩
  | stuck {e w₁} (h : r.closed = false) (release : letGo format r.reader w = (.error e, w₁)) :
      Started format r w
        ⟨.error e, ({ r with reader := none, current := none }, w₁), closing r.reader⟩
  | notOpened {w₁ e w₂} (h : r.closed = false) (release : letGo format r.reader w = (.ok (), w₁))
      (create : format.create r.split w₁ = (.error e, w₂)) :
      Started format r w
        ⟨.error e, (r.rewound, w₂), closing r.reader ++ [.call (.create r.split none)]⟩
  | opened {w₁ state w₂ outcome} (h : r.closed = false)
      (release : letGo format r.reader w = (.ok (), w₁))
      (create : format.create r.split w₁ = (.ok state, w₂))
      (first :
        FirstRead format { r.rewound with opened := r.opened + 1 } ⟨r.opened, state⟩ w₂ outcome) :
      Started format r w
        (outcome.after (closing r.reader ++ [.call (.create r.split (some r.opened))]))

/-- The ways to move on. -/
inductive Advanced (format : InputFormat φ ρ ς κ ν) (r : BoundedReader ρ ς κ ν κ' ν') (w : φ) :
    Outcome φ ρ ς κ ν κ' ν' Bool → Prop
  | refused (h : r.closed = true) : Advanced format r w ⟨.error .closed, (r, w), []⟩
  | finished (h : r.closed = false) (hd : r.done = true) :
      Advanced format r w ⟨.ok false, (r, w), []⟩
  | notStarted (h : r.closed = false) (hd : r.done = false) (hr : r.reader = none) :
      Advanced format r w ⟨.error .notStarted, (r, w), []⟩
  | unmeasured {behind e state w₁} (h : r.closed = false) (hd : r.done = false)
      (hr : r.reader = some behind)
      (progress : format.progress behind.state w = (.error e, state, w₁)) :
      Advanced format r w
        ⟨.error e, ({ r with reader := some ⟨behind.number, state⟩ }, w₁),
          [.call (.progress behind.number)]⟩
  | unreadable {behind claimed state w₁ e state' w₂} (h : r.closed = false) (hd : r.done = false)
      (hr : r.reader = some behind)
      (progress : format.progress behind.state w = (.ok claimed, state, w₁))
      (read : format.next state w₁ = (.error e, state', w₂)) :
      Advanced format r w
        ⟨.error e, ({ r with
            reader := some ⟨behind.number, state'⟩
            progress := r.progress.max claimed.clampUnit }, w₂),
          [.call (.progress behind.number), .call (.next behind.number)]⟩
  | record {behind claimed state w₁ x state' w₂} (h : r.closed = false) (hd : r.done = false)
      (hr : r.reader = some behind)
      (progress : format.progress behind.state w = (.ok claimed, state, w₁))
      (read : format.next state w₁ = (.ok (some x), state', w₂)) :
      Advanced format r w
        ⟨.ok true, ({ r.moveTo x with
            reader := some ⟨behind.number, state'⟩
            progress := r.progress.max claimed.clampUnit }, w₂),
          [.call (.progress behind.number), .call (.next behind.number)]⟩
  | exhausted {behind claimed state w₁ state' w₂} (h : r.closed = false) (hd : r.done = false)
      (hr : r.reader = some behind)
      (progress : format.progress behind.state w = (.ok claimed, state, w₁))
      (read : format.next state w₁ = (.ok none, state', w₂)) :
      Advanced format r w
        ⟨.ok false, ({ r with
            reader := some ⟨behind.number, state'⟩
            progress := r.progress.max claimed.clampUnit
            current := none
            done := true }, w₂),
          [.call (.progress behind.number), .call (.next behind.number),
            .note (.splitExhausted r.recordsReturned)]⟩

/-- The ways a reader is closed. -/
inductive Ended (format : InputFormat φ ρ ς κ ν) (r : BoundedReader ρ ς κ ν κ' ν') (w : φ) :
    Outcome φ ρ ς κ ν κ' ν' Unit → Prop
  | again (h : r.closed = true) : Ended format r w ⟨.ok (), (r, w), []⟩
  | ended {result w₁} (h : r.closed = false) (release : letGo format r.reader w = (result, w₁)) :
      Ended format r w
        ⟨result, ({ r with closed := true, current := none, reader := none }, w₁),
          .note (.readerClosed r.recordsReturned) :: closing r.reader⟩

section Opening
variable {r : BoundedReader ρ ς κ ν κ' ν'} (w : φ)

/-- A reader that is not closed goes on. -/
theorem ensureNotClosed_bind {α : Type} (h : r.closed = false)
    (f : Unit → Call φ ρ ς κ ν κ' ν' α) : (ensureNotClosed >>= f) (r, w) = f () (r, w) := by
  have he : (ensureNotClosed : Call φ ρ ς κ ν κ' ν' Unit) (r, w) = ⟨.ok (), (r, w), []⟩ := by
    simp [ensureNotClosed, h]
  rw [Activity.bind_apply, he]
  rfl

/-- A closed reader refuses the call and does not go on. -/
theorem ensureNotClosed_bind_of_closed {α : Type} (h : r.closed = true)
    (f : Unit → Call φ ρ ς κ ν κ' ν' α) :
    (ensureNotClosed >>= f) (r, w) = ⟨.error .closed, (r, w), []⟩ := by
  have he : (ensureNotClosed : Call φ ρ ς κ ν κ' ν' Unit) (r, w) =
      ⟨.error .closed, (r, w), []⟩ := by
    simp [ensureNotClosed, h]
  rw [Activity.bind_apply, he]

theorem read_bind {α : Type}
    (f : BoundedReader ρ ς κ ν κ' ν' × φ → Call φ ρ ς κ ν κ' ν' α) :
    (Activity.read >>= f) (r, w) = f (r, w) (r, w) := rfl

theorem change_bind {α : Type} (g : BoundedReader ρ ς κ ν κ' ν' → BoundedReader ρ ς κ ν κ' ν')
    (f : Unit → Call φ ρ ς κ ν κ' ν' α) : (change g >>= f) (r, w) = f () (g r, w) := rfl

end Opening

variable (format : InputFormat φ ρ ς κ ν) (r : BoundedReader ρ ς κ ν κ' ν') (w : φ)

/-! ## Starting -/

/-- The open reader is let go of even if closing it fails. -/
theorem closeOpen_apply :
    closeOpen format (r, w) =
      ⟨(letGo format r.reader w).1, ({ r with reader := none }, (letGo format r.reader w).2),
        closing r.reader⟩ := by
  rw [closeOpen, Activity.bind_apply, release]
  cases h : r.reader with
  | none => rfl
  | some behind => rfl

/-- The rest of a start, with the reader of the format open. -/
def readFirst (behind : OpenReader ρ) : Call φ ρ ς κ ν κ' ν' Bool := do
  let (result, behind) ← readBehind format behind
  match result with
  | .error e =>
    abandon format behind
    Activity.fail e
  | .ok (some record) =>
    change fun r => { r.moveTo record with reader := some behind }
    return true
  | .ok none =>
    closeBehind format behind
    change fun r => { r with done := true }
    return false

/-- A start forgets its record, closes the reader before, and opens anew. -/
theorem start_eq :
    (start format : Call φ ρ ς κ ν κ' ν' Bool) = (do
      ensureNotClosed
      change fun r => { r with current := none }
      closeOpen format
      change fun r => { r with recordsReturned := 0, progress := .zero, done := false }
      let behind ← openBehind format
      readFirst format behind) := rfl

/-- A failure to close a reader that is given up is only logged. -/
theorem abandon_apply (behind : OpenReader ρ) {closed : Except SourceError Unit} {state : ρ}
    {w' : φ} (close : format.close behind.state w = (closed, state, w')) :
    abandon format behind (r, w) =
      ⟨.ok (), (r, w'), .call (.close behind.number) :: closingNotes closed⟩ := by
  rw [abandon, Activity.bind_apply, Activity.attempt, closeBehind]
  simp only [close]
  cases closed <;> rfl

/-- A first read comes to one of the ways listed. -/
theorem readFirst_firstRead (behind : OpenReader ρ) :
    FirstRead format r behind w (readFirst format behind (r, w)) := by
  rw [readFirst, Activity.bind_apply, readBehind]
  cases read : format.next behind.state w with
  | mk result rest =>
      obtain ⟨state, w₁⟩ := rest
      cases result with
      | error e =>
          cases close : format.close state w₁ with
          | mk closed rest =>
              have abandoned := abandon_apply format r w₁ ⟨behind.number, state⟩ close
              simp only [Activity.bind_apply, abandoned]
              simpa [Report.after] using FirstRead.unreadable (r := r) read close
      | ok found =>
          cases found with
          | some x => exact FirstRead.record read
          | none =>
              cases close : format.close state w₁ with
              | mk closed rest =>
                  simp only [Activity.bind_apply, closeBehind, close]
                  cases closed with
                  | error e => exact FirstRead.unclosed read close
                  | ok u => exact FirstRead.empty read close

/-- A reader that is opened is counted. -/
theorem openBehind_of_ok {state : ρ} {w' : φ} (create : format.create r.split w = (.ok state, w')) :
    openBehind format (r, w) =
      ⟨.ok ⟨r.opened, state⟩, ({ r with opened := r.opened + 1 }, w'),
        [.call (.create r.split (some r.opened))]⟩ := by
  simp only [openBehind, create]

/-- A reader that cannot be opened is not counted. -/
theorem openBehind_of_error {e : SourceError} {w' : φ}
    (create : format.create r.split w = (.error e, w')) :
    openBehind format (r, w) = ⟨.error e, (r, w'), [.call (.create r.split none)]⟩ := by
  simp only [openBehind, create]

/-- A start that has let go of the open reader opens the split and reads from it. -/
theorem reopen_started (h : r.closed = false) {w₁ : φ}
    (release : letGo format r.reader w = (.ok (), w₁)) :
    Started format r w (((do
      let behind ← openBehind format
      readFirst format behind) (r.rewound, w₁)).after (closing r.reader)) := by
  rw [Activity.bind_apply]
  cases create : format.create r.split w₁ with
  | mk result w₂ =>
      cases result with
      | error e =>
          rw [openBehind_of_error format r.rewound w₁ create]
          exact Started.notOpened h release create
      | ok state =>
          rw [openBehind_of_ok format r.rewound w₁ create]
          have first := readFirst_firstRead format { r.rewound with opened := r.opened + 1 } w₂
            ⟨r.opened, state⟩
          rw [Report.after_after]
          exact Started.opened h release create first

/-- A start comes to one of the ways listed. -/
theorem start_started : Started format r w (start format (r, w)) := by
  rw [start_eq]
  cases h : r.closed with
  | true => exact (ensureNotClosed_bind_of_closed w h _).symm ▸ Started.refused h
  | false =>
      rw [ensureNotClosed_bind w h, change_bind]
      have released := closeOpen_apply format { r with current := none } w
      cases release : letGo format r.reader w with
      | mk result w₁ =>
          simp only [release] at released
          cases result with
          | error e =>
              rw [Activity.bind_of_error (by rw [released]), released]
              exact Started.stuck h release
          | ok u =>
              rw [Activity.bind_of_ok (by rw [released]), released, change_bind]
              exact reopen_started format r w h release

/-! ## Moving on -/

/-- A claim that fails leaves the progress as it was. -/
theorem updateProgress_of_error (behind : OpenReader ρ) {e : SourceError} {state : ρ} {w' : φ}
    (progress : format.progress behind.state w = (.error e, state, w')) :
    updateProgress format behind (r, w) =
      ⟨.error e, ({ r with reader := some ⟨behind.number, state⟩ }, w'),
        [.call (.progress behind.number)]⟩ := by
  rw [updateProgress, Activity.bind_apply, progressBehind]
  simp only [progress]
  rfl

/-- A claim is clamped, and counts if it is larger than those before it. -/
theorem updateProgress_of_ok (behind : OpenReader ρ) {claimed : Binary64} {state : ρ} {w' : φ}
    (progress : format.progress behind.state w = (.ok claimed, state, w')) :
    updateProgress format behind (r, w) =
      ⟨.ok ⟨behind.number, state⟩,
        ({ r with
            reader := some ⟨behind.number, state⟩
            progress := r.progress.max claimed.clampUnit }, w'),
        [.call (.progress behind.number)]⟩ := by
  rw [updateProgress, Activity.bind_apply, progressBehind]
  simp only [progress]
  rfl

theorem advanceBehind_advanced (h : r.closed = false) (hd : r.done = false)
    {behind : OpenReader ρ} (hr : r.reader = some behind) :
    Advanced format r w (advanceBehind format behind (r, w)) := by
  rw [advanceBehind]
  cases progress : format.progress behind.state w with
  | mk measured rest =>
      obtain ⟨state, w₁⟩ := rest
      cases measured with
      | error e =>
          have updated := updateProgress_of_error format r w behind progress
          rw [Activity.bind_of_error (by rw [updated]), updated]
          exact Advanced.unmeasured h hd hr progress
      | ok claimed =>
          have updated := updateProgress_of_ok format r w behind progress
          rw [Activity.bind_of_ok (by rw [updated]), updated, Activity.bind_apply, readBehind]
          cases read : format.next state w₁ with
          | mk result rest =>
              obtain ⟨state', w₂⟩ := rest
              cases result with
              | error e =>
                  exact (Advanced.unreadable h hd hr progress read :)
              | ok found =>
                  cases found with
                  | none =>
                      exact (Advanced.exhausted h hd hr progress read :)
                  | some x =>
                      exact (Advanced.record h hd hr progress read :)

/-- An advance comes to one of the ways listed. -/
theorem advance_advanced : Advanced format r w (advance format (r, w)) := by
  rw [advance]
  cases h : r.closed with
  | true => exact (ensureNotClosed_bind_of_closed w h _).symm ▸ Advanced.refused h
  | false =>
      rw [ensureNotClosed_bind w h, read_bind]
      dsimp only
      cases hd : r.done with
      | true => exact Advanced.finished h hd
      | false =>
          cases hr : r.reader with
          | none => exact Advanced.notStarted h hd hr
          | some behind => exact advanceBehind_advanced format r w h hd hr

/-! ## Closing -/

/-- A close comes to one of the ways listed. -/
theorem close_ended : Ended format r w (close format (r, w)) := by
  rw [close, read_bind]
  dsimp only
  cases h : r.closed with
  | true => exact Ended.again h
  | false =>
      have released := closeOpen_apply format { r with closed := true, current := none } w
      cases release : letGo format r.reader w with
      | mk result w₁ =>
          simp only [release] at released
          rw [if_neg Bool.false_ne_true, Activity.bind_apply, Activity.report_apply]
          dsimp only
          rw [change_bind, released]
          exact Ended.ended h release

end BoundedReader

end EventStream
