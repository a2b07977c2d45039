import EventStream.Proofs.Source.ReaderCalls
import Mathlib.Data.List.Nodup

/-!
# Readers of a format are held in order

A reader of a source holds at most one reader of its format. Whatever fails, those
it opens are closed, none of them twice, and none is asked anything afterwards.

The calls on the format are followed by what they leave held. Every call on the
reader moves from what it holds to what it holds next, so all statements about a
run of calls are read off the walk of its calls on the format.
-/

namespace EventStream

variable {φ ρ ς κ ν κ' ν' : Type}

/-! ## Calls on the readers of a format -/

namespace FormatCall

/-- The reader that a call opens. -/
def opens? : FormatCall ς → Option Nat
  | .create _ number => number
  | _ => none

/-- The reader that a call closes. -/
def closes? : FormatCall ς → Option Nat
  | .close number => some number
  | _ => none

/-- The reader that a call asks something of, closing included. -/
def asks? : FormatCall ς → Option Nat
  | .next number | .progress number | .close number => some number
  | _ => none

/-- The readers opened by some calls, in order. -/
def opened (calls : List (FormatCall ς)) : List Nat := calls.filterMap opens?

/-- The readers closed by some calls, in order. -/
def closed (calls : List (FormatCall ς)) : List Nat := calls.filterMap closes?

@[simp] theorem opened_nil : opened ([] : List (FormatCall ς)) = [] := rfl

@[simp] theorem closed_nil : closed ([] : List (FormatCall ς)) = [] := rfl

@[simp] theorem opened_cons (c : FormatCall ς) (calls : List (FormatCall ς)) :
    opened (c :: calls) = c.opens?.toList ++ opened calls := by
  rw [opened, List.filterMap_cons]
  cases c.opens? <;> rfl

@[simp] theorem closed_cons (c : FormatCall ς) (calls : List (FormatCall ς)) :
    closed (c :: calls) = c.closes?.toList ++ closed calls := by
  rw [closed, List.filterMap_cons]
  cases c.closes? <;> rfl

/-- A reader that was opened and has not been closed. -/
def StillOpen (calls : List (FormatCall ς)) (k : Nat) : Prop := k ∈ opened calls ∧ k ∉ closed calls

end FormatCall

open FormatCall

/-- What is held of a format: how many readers were opened, and the one that is open. -/
structure Holding where
  count : Nat
  current : Option Nat

/-- What a call may be made with, and what it leaves held. -/
inductive Holding.Takes : Holding → FormatCall ς → Holding → Prop
  | notOpened (n : Nat) (split : ς) : Takes ⟨n, none⟩ (.create split none) ⟨n, none⟩
  | opened (n : Nat) (split : ς) : Takes ⟨n, none⟩ (.create split (some n)) ⟨n + 1, some n⟩
  | next (n k : Nat) : Takes ⟨n, some k⟩ (.next k) ⟨n, some k⟩
  | progress (n k : Nat) : Takes ⟨n, some k⟩ (.progress k) ⟨n, some k⟩
  | closed (n k : Nat) : Takes ⟨n, some k⟩ (.close k) ⟨n, none⟩

/-- Calls in order, each made with what the one before left held. -/
inductive Walk : Holding → List (FormatCall ς) → Holding → Prop
  | nil (h : Holding) : Walk h [] h
  | cons {h c h' calls h''} (first : Holding.Takes h c h') (rest : Walk h' calls h'') :
      Walk h (c :: calls) h''

namespace Walk

variable {h h' : Holding} {calls : List (FormatCall ς)}

/-- A walk that goes on where another one ended goes on with it. -/
theorem append {h'' : Holding} {more : List (FormatCall ς)} (first : Walk h calls h')
    (rest : Walk h' more h'') : Walk h (calls ++ more) h'' := by
  induction first with
  | nil => exact rest
  | cons take _ ih => exact cons take (ih rest)

/-- A walk can be interrupted anywhere. -/
theorem exists_of_append {before after : List (FormatCall ς)}
    (walk : Walk h (before ++ after) h') : ∃ m, Walk h before m ∧ Walk m after h' := by
  induction before generalizing h with
  | nil => exact ⟨h, nil h, walk⟩
  | cons c before ih =>
      cases walk with
      | cons take rest =>
          obtain ⟨m, first, last⟩ := ih rest
          exact ⟨m, cons take first, last⟩

/-- Readers are numbered in the order in which they are opened. -/
theorem range_append_opened (walk : Walk h calls h') :
    List.range h.count ++ opened calls = List.range h'.count := by
  induction walk with
  | nil => simp
  | cons take _ ih =>
      cases take with
      | opened n split => simpa [opens?, List.range_succ] using ih
      | _ => simpa [opens?] using ih

/-- What was held and what is opened is closed in the end or held still. -/
theorem opened_perm_closed (walk : Walk h calls h') :
    (h.current.toList ++ opened calls).Perm (closed calls ++ h'.current.toList) := by
  -- a reader counts on the left once it is opened, and on the right once it is closed
  induction walk with
  | nil => simp
  | cons take _ ih => cases take <;> simpa [opens?, closes?] using ih

variable {n : Nat} {current : Option Nat}

/-- Readers are numbered in the order in which they are opened. -/
theorem opened_eq (walk : Walk ⟨0, none⟩ calls ⟨n, current⟩) : opened calls = List.range n := by
  simpa using walk.range_append_opened

/-- No reader is opened twice. -/
theorem nodup_opened (walk : Walk ⟨0, none⟩ calls ⟨n, current⟩) : (opened calls).Nodup :=
  walk.opened_eq ▸ List.nodup_range

/-- Every reader that was opened has been closed or is held. -/
theorem opened_perm (walk : Walk ⟨0, none⟩ calls ⟨n, current⟩) :
    (opened calls).Perm (closed calls ++ current.toList) := by
  simpa using walk.opened_perm_closed

/-- No reader is closed twice, and none that is still open was closed. -/
theorem nodup_closed_append (walk : Walk ⟨0, none⟩ calls ⟨n, current⟩) :
    (closed calls ++ current.toList).Nodup :=
  walk.opened_perm.nodup_iff.1 walk.nodup_opened

/-- Exactly the reader that is held is open. -/
theorem stillOpen_iff (walk : Walk ⟨0, none⟩ calls ⟨n, current⟩) (k : Nat) :
    StillOpen calls k ↔ current = some k := by
  have member : k ∈ opened calls ↔ k ∈ closed calls ∨ current = some k := by
    simpa using walk.opened_perm.mem_iff (a := k)
  have apart : k ∈ closed calls → current ≠ some k := fun hk hc =>
    List.disjoint_of_nodup_append walk.nodup_closed_append hk (by simp [hc])
  unfold StillOpen
  constructor
  · rintro ⟨ho, hc⟩
    exact (member.1 ho).resolve_left hc
  · intro hk
    exact ⟨member.2 (.inr hk), fun hc => apart hc hk⟩

/-- Once nothing is held, everything that was opened has been closed. -/
theorem count_closed_of_mem (walk : Walk ⟨0, none⟩ calls ⟨n, none⟩) {k : Nat}
    (hk : k ∈ opened calls) : (closed calls).count k = 1 := by
  have perm : (opened calls).Perm (closed calls) := by simpa using walk.opened_perm
  rw [← perm.count_eq]
  exact List.count_eq_one_of_mem walk.nodup_opened hk

/-- Whatever is asked is asked of a reader that is open. -/
theorem stillOpen_of_asks {before after : List (FormatCall ς)} {c : FormatCall ς} {k : Nat}
    (walk : Walk ⟨0, none⟩ (before ++ c :: after) h') (hc : c.asks? = some k) :
    StillOpen before k := by
  obtain ⟨⟨n, current⟩, first, rest⟩ := walk.exists_of_append
  rw [first.stillOpen_iff]
  cases rest with
  | cons take _ => cases take <;> simp_all [asks?]

end Walk

namespace BoundedReader

/-! ## Commands -/

/-- A call on a reader from outside. -/
inductive Command where
  | start
  | advance
  | close

variable (format : InputFormat φ ρ ς κ ν)

/-- Carries a command out. What it answers is left out here. -/
def perform : Command → Call φ ρ ς κ ν κ' ν' Unit
  | .start => do let _ ← start format
  | .advance => do let _ ← advance format
  | .close => close format

/-- What a command can come to: the state it leaves behind and its effects. -/
inductive Performed (r : BoundedReader ρ ς κ ν κ' ν') (w : φ) :
    BoundedReader ρ ς κ ν κ' ν' × φ → List (SourceEffect ς) → Prop
  | started {outcome} (h : Started format r w outcome) : Performed r w outcome.state outcome.effects
  | advanced {outcome} (h : Advanced format r w outcome) :
      Performed r w outcome.state outcome.effects
  | ended {outcome} (h : Ended format r w outcome) : Performed r w outcome.state outcome.effects

variable {format} {r : BoundedReader ρ ς κ ν κ' ν'} {w : φ}

/-- Leaving the answer of a call out changes nothing else. -/
theorem discard_apply {α : Type} (x : Call φ ρ ς κ ν κ' ν' α)
    (s : BoundedReader ρ ς κ ν κ' ν' × φ) :
    (do let _ ← x : Call φ ρ ς κ ν κ' ν' Unit) s =
      ⟨(x s).result.map fun _ => (), (x s).state, (x s).effects⟩ := by
  cases h : (x s).result with
  | error e => rw [Activity.bind_of_error h, Except.map]
  | ok a =>
      rw [Activity.bind_of_ok h, Activity.pure_apply, Report.after, Except.map, List.append_nil]

/-- Every command is performed in one of the ways listed. -/
theorem perform_performed (format : InputFormat φ ρ ς κ ν) (c : Command)
    (s : BoundedReader ρ ς κ ν κ' ν' × φ) :
    Performed format s.1 s.2 (perform format c s).state (perform format c s).effects := by
  cases c with
  | start =>
      rw [perform, discard_apply]
      exact .started (start_started format s.1 s.2)
  | advance =>
      rw [perform, discard_apply]
      exact .advanced (advance_advanced format s.1 s.2)
  | close => exact .ended (close_ended format s.1 s.2)

/-! ## What a reader holds -/

/-- What a reader holds of its format. -/
def holding (r : BoundedReader ρ ς κ ν κ' ν') : Holding :=
  ⟨r.opened, r.reader.map OpenReader.number⟩

/-- A reader that is closed holds nothing. -/
def Settled (r : BoundedReader ρ ς κ ν κ' ν') : Prop := r.closed = true → r.reader = none

theorem Settled.of_open (h : r.closed = false) : r.Settled := fun hc =>
  absurd (h.symm.trans hc) Bool.false_ne_true

/-- Letting go of the open reader leaves nothing held. -/
theorem closing_walk (n : Nat) (behind : Option (OpenReader ρ)) :
    Walk ⟨n, behind.map OpenReader.number⟩
      (SourceEffect.calls (closing behind : List (SourceEffect ς))) ⟨n, none⟩ := by
  cases behind with
  | none => exact .nil _
  | some b => exact .cons (.closed n b.number) (.nil _)

section FirstRead
variable {behind : OpenReader ρ} {outcome : Outcome φ ρ ς κ ν κ' ν' Bool}
  (first : FirstRead format r behind w outcome)
include first

/-- The first read of a reader that was just opened leaves held what it says. -/
theorem FirstRead.walk (hr : r.reader = none) :
    Walk ⟨r.opened, some behind.number⟩ (SourceEffect.calls outcome.effects)
      outcome.state.1.holding := by
  -- without a first record, the reader is read once and closed
  have closedUnread : Walk ⟨r.opened, some behind.number⟩
      [(.next behind.number : FormatCall ς), .close behind.number] r.holding := by
    simp only [holding, hr]
    exact .cons (.next _ _) (.cons (.closed _ _) (.nil _))
  cases first with
  | @unreadable _ _ _ closed _ _ read close => cases closed <;> exact closedUnread
  | record read => exact .cons (.next _ _) (.nil _)
  | unclosed read close => exact closedUnread
  | empty read close => exact closedUnread

/-- The first read closes no reader for good. -/
theorem FirstRead.closed_eq : outcome.state.1.closed = r.closed := by
  cases first <;> rfl

end FirstRead

section Started
variable {outcome : Outcome φ ρ ς κ ν κ' ν' Bool} (started : Started format r w outcome)
include started

/-- A start lets go of one reader before it opens the next. -/
theorem Started.walk :
    Walk r.holding (SourceEffect.calls outcome.effects) outcome.state.1.holding := by
  have letGo := closing_walk (ς := ς) r.opened r.reader
  cases started with
  | refused h => exact .nil _
  | stuck h release => exact letGo
  | notOpened h release create =>
      simp only [SourceEffect.calls_append]
      exact letGo.append (.cons (.notOpened r.opened r.split) (.nil _))
  | opened h release create first =>
      simp only [Report.after_effects, Report.after_state, SourceEffect.calls_append]
      have opening : Walk ⟨r.opened, none⟩ [.create r.split (some r.opened)]
          ⟨r.opened + 1, some r.opened⟩ := .cons (.opened r.opened r.split) (.nil _)
      exact (letGo.append opening).append (first.walk rfl)

/-- A start closes no reader for good. -/
theorem Started.closed_eq : outcome.state.1.closed = r.closed := by
  cases started with
  | opened h release create first => exact first.closed_eq
  | _ => rfl

/-- A start leaves a closed reader with nothing held. -/
theorem Started.settled (hr : r.Settled) : outcome.state.1.Settled := by
  cases started with
  | refused h => exact hr
  | stuck h release => exact fun _ => rfl
  | notOpened h release create => exact fun _ => rfl
  | opened h release create first => exact .of_open (first.closed_eq.trans h)

/-- A closed reader refuses to start. -/
theorem Started.of_closed (hr : r.closed = true) : outcome = ⟨.error .closed, (r, w), []⟩ := by
  cases started with
  | refused h => rfl
  | _ => simp_all

end Started

section Advanced
variable {outcome : Outcome φ ρ ς κ ν κ' ν' Bool} (advanced : Advanced format r w outcome)
include advanced

/-- An advance only calls the reader that is open. -/
theorem Advanced.walk :
    Walk r.holding (SourceEffect.calls outcome.effects) outcome.state.1.holding := by
  cases advanced with
  | refused h => exact .nil _
  | finished h hd => exact .nil _
  | notStarted h hd hr => exact .nil _
  | unmeasured h hd hr progress =>
      simp only [holding, hr]
      exact .cons (.progress _ _) (.nil _)
  | unreadable h hd hr progress read =>
      simp only [holding, hr]
      exact .cons (.progress _ _) (.cons (.next _ _) (.nil _))
  | record h hd hr progress read =>
      simp only [holding, hr]
      exact .cons (.progress _ _) (.cons (.next _ _) (.nil _))
  | exhausted h hd hr progress read =>
      simp only [holding, hr]
      exact .cons (.progress _ _) (.cons (.next _ _) (.nil _))

theorem Advanced.settled (hr : r.Settled) : outcome.state.1.Settled := by
  cases advanced with
  | refused h => exact hr
  | finished h hd => exact hr
  | notStarted h hd none => exact hr
  | unmeasured h hd hr progress => exact .of_open h
  | unreadable h hd hr progress read => exact .of_open h
  | record h hd hr progress read => exact .of_open h
  | exhausted h hd hr progress read => exact .of_open h

/-- A closed reader refuses to advance. -/
theorem Advanced.of_closed (hr : r.closed = true) : outcome = ⟨.error .closed, (r, w), []⟩ := by
  cases advanced with
  | refused h => rfl
  | _ => simp_all

end Advanced

section Ended
variable {outcome : Outcome φ ρ ς κ ν κ' ν' Unit} (ended : Ended format r w outcome)
include ended

/-- A close lets go of the open reader, if there is one. -/
theorem Ended.walk :
    Walk r.holding (SourceEffect.calls outcome.effects) outcome.state.1.holding := by
  cases ended with
  | again h => exact .nil _
  | ended h release => exact closing_walk r.opened r.reader

/-- Closing leaves a reader closed that holds nothing, also when it fails. -/
theorem Ended.settled (hr : r.Settled) :
    outcome.state.1.closed = true ∧ outcome.state.1.reader = none := by
  cases ended with
  | again h => exact ⟨h, hr h⟩
  | ended h release => exact ⟨rfl, rfl⟩

/-- A reader that is closed already has nothing left to close. -/
theorem Ended.of_closed (hr : r.closed = true) : outcome = ⟨.ok (), (r, w), []⟩ := by
  cases ended with
  | again h => rfl
  | ended h release => simp_all

end Ended

section Performed
variable {s : BoundedReader ρ ς κ ν κ' ν' × φ} {effects : List (SourceEffect ς)}
  (performed : Performed format r w s effects)
include performed

/-- Every command makes its calls with what is held. -/
theorem Performed.walk : Walk r.holding (SourceEffect.calls effects) s.1.holding := by
  cases performed with
  | started h => exact h.walk
  | advanced h => exact h.walk
  | ended h => exact h.walk

/-- No command gives a closed reader something to hold. -/
theorem Performed.settled (hr : r.Settled) : s.1.Settled := by
  cases performed with
  | started h => exact h.settled hr
  | advanced h => exact h.settled hr
  | ended h => exact fun _ => (h.settled hr).2

/-- Nothing happens through a reader that is closed. -/
theorem Performed.of_closed (hr : r.closed = true) : s = (r, w) ∧ effects = [] := by
  cases performed with
  | started h => exact h.of_closed hr ▸ ⟨rfl, rfl⟩
  | advanced h => exact h.of_closed hr ▸ ⟨rfl, rfl⟩
  | ended h => exact h.of_closed hr ▸ ⟨rfl, rfl⟩

end Performed

/-! ## Runs -/

variable (format)

/-- A reader and its world after a run of commands. -/
def performAll (s : BoundedReader ρ ς κ ν κ' ν' × φ) (commands : List Command) :
    BoundedReader ρ ς κ ν κ' ν' × φ :=
  commands.foldl (fun s c => (perform format c s).state) s

/-- The calls on the format that a run of commands leads to. -/
def history (s : BoundedReader ρ ς κ ν κ' ν' × φ) : List Command → List (FormatCall ς)
  | [] => []
  | c :: rest =>
    SourceEffect.calls (perform format c s).effects ++ history (perform format c s).state rest

variable (s : BoundedReader ρ ς κ ν κ' ν' × φ)

theorem performAll_append (xs ys : List Command) :
    performAll format s (xs ++ ys) = performAll format (performAll format s xs) ys :=
  List.foldl_append

/-- The calls of commands are those of the first ones and then those of the others. -/
theorem history_append (xs ys : List Command) :
    history format s (xs ++ ys) =
      history format s xs ++ history format (performAll format s xs) ys := by
  induction xs generalizing s with
  | nil => rfl
  | cons c rest ih =>
      rw [List.cons_append, history, ih, history, List.append_assoc]
      rfl

/-- All calls on the format are made with what is held at the time. -/
theorem history_walk (commands : List Command) :
    Walk s.1.holding (history format s commands) (performAll format s commands).1.holding := by
  induction commands generalizing s with
  | nil => exact .nil _
  | cons c rest ih => exact (perform_performed format c s).walk.append (ih _)

/-- A closed reader holds nothing, whatever it was commanded. -/
theorem performAll_settled (hs : s.1.Settled) (commands : List Command) :
    (performAll format s commands).1.Settled := by
  induction commands generalizing s with
  | nil => exact hs
  | cons c rest ih => exact ih _ ((perform_performed format c s).settled hs)

/-- Nothing is asked of the format through a reader that is closed. -/
theorem history_of_closed (h : s.1.closed = true) (commands : List Command) :
    history format s commands = [] := by
  induction commands generalizing s with
  | nil => rfl
  | cons c rest ih =>
      obtain ⟨same, nothing⟩ := (perform_performed format c s).of_closed h
      rw [history, same, nothing, ih s h]
      rfl

/-- A close leaves the reader closed and nothing held, whether or not it failed. -/
theorem performAll_close (hs : s.1.Settled) (before : List Command) :
    (performAll format s (before ++ [.close])).1.closed = true ∧
      (performAll format s (before ++ [.close])).1.reader = none := by
  rw [performAll_append]
  exact (close_ended format _ _).settled (performAll_settled format s hs before)

/-- What comes after a close asks nothing of the format. -/
theorem history_close (hs : s.1.Settled) (before after : List Command) :
    history format s (before ++ .close :: after) = history format s (before ++ [.close]) := by
  rw [List.append_cons, history_append,
    history_of_closed format _ (performAll_close format s hs before).1, List.append_nil]

/--
Whatever the format does and whichever of its calls fail: at any time at most one reader of the
format is open; none is opened or closed twice; a reader is read, measured or closed only while it
is open; and once the reader of the source has been closed, successfully or not, each reader ever
opened has been closed exactly once, and nothing is asked of the format any more.
-/
theorem readers_opened_and_closed_once (split : ς) (convertKey : κ → κ') (convertValue : ν → ν')
    (w : φ) (commands : List Command) :
    let s : BoundedReader ρ ς κ ν κ' ν' × φ := (initial split convertKey convertValue, w)
    let calls := history format s commands
    (∀ before after, calls = before ++ after →
        ∀ j k, StillOpen before j → StillOpen before k → j = k) ∧
      (FormatCall.opened calls).Nodup ∧
      (FormatCall.closed calls).Nodup ∧
      (∀ before c after k, calls = before ++ c :: after → c.asks? = some k → StillOpen before k) ∧
      ∀ before after, commands = before ++ .close :: after →
        calls = history format s (before ++ [.close]) ∧
          ∀ k ∈ FormatCall.opened calls, (FormatCall.closed calls).count k = 1 := by
  intro s calls
  have walk : Walk ⟨0, none⟩ calls (performAll format s commands).1.holding :=
    history_walk format s commands
  have settled : s.1.Settled := fun _ => rfl
  refine ⟨?_, walk.nodup_opened, (List.nodup_append.1 walk.nodup_closed_append).1, ?_, ?_⟩
  · intro before after hcalls j k hj hk
    obtain ⟨m, first, _⟩ := (hcalls ▸ walk).exists_of_append
    exact Option.some.inj (((first.stillOpen_iff j).1 hj).symm.trans ((first.stillOpen_iff k).1 hk))
  · intro before c after k hcalls hc
    exact (hcalls ▸ walk).stillOpen_of_asks hc
  · intro before after hcommands
    have same : calls = history format s (before ++ [.close]) := by
      rw [← history_close format s settled before after, ← hcommands]
    have done : Walk ⟨0, none⟩ (history format s (before ++ [.close]))
        (performAll format s (before ++ [.close])).1.holding := history_walk format s _
    rw [holding, (performAll_close format s settled before).2, ← same] at done
    exact ⟨same, fun k hk => done.count_closed_of_mem hk⟩

/-- The format whose readers never end and never close without a failure. -/
def neverClosing : InputFormat Unit Unit Unit Nat Nat where
  length _ := 0
  splits w := (.ok [()], w)
  create _ w := (.ok (), w)
  next r w := (.ok (some (1, 1)), r, w)
  progress r w := (.ok .zero, r, w)
  close r w := (.error (.format "busy"), r, w)

/-- A start that cannot close the reader before opens none; the next start does. -/
example :
    history neverClosing (initial () id id, ()) [.start, .start, .start, .close, .start] =
      [.create () (some 0), .next 0, .close 0, .create () (some 1), .next 1, .close 1] := rfl

end BoundedReader

end EventStream
