import EventStream.EmissionStream
import EventStream.Proofs.Lifecycle

/-!
# Polling is driving by hand

A stream yields what its processor yields if it is set up, handed the signals of
the input one by one, and torn down at the end. The pauses of the input only
delay this.

## Implementation notes

What a stream still has in front of it is a function of its state: items, calls
of the user function, pauses, and the processor it ends with. A poll delivers the
first part of each and leaves the rest, so nothing can be lost, repeated or
reordered. Inside a poll the same holds for taking a signal in, which turns
something that is to come into something that is ready.
-/

namespace EventStream

variable {σ ι ν ο : Type}

/-- What a stream yields: an emission, or a failure. -/
abbrev StreamItem (ο : Type) := Except ProcessingError (Channel × Emission ο)

/-- The item of an answer, if it has one. -/
def StreamAnswer.item? : StreamAnswer ο → Option (StreamItem ο)
  | .item channel emission => some (.ok (channel, emission))
  | .failure e => some (.error e)
  | _ => none

namespace InputAnswer

/-- The signals that a script brings before it ends. -/
def signals : List (InputAnswer ι ν) → List (Signal ι ν)
  | .pending :: rest => signals rest
  | .signal s :: rest => s :: signals rest
  | _ => []

/-- The number of pauses in a script before it ends. -/
def pauses : List (InputAnswer ι ν) → Nat
  | .pending :: rest => pauses rest + 1
  | .signal _ :: rest => pauses rest
  | _ => 0

end InputAnswer

namespace Processor

/-- What a call yields: everything it emits and, behind it, its failure. -/
def yields (r : Report (Processor σ ι ν ο) (Effect ι ο) ProcessingError Unit) :
    List (StreamItem ο) :=
  (Effect.emissions r.effects).map .ok ++
    match r.result with
    | .ok () => []
    | .error e => [.error e]

/-- What a processor yields if it is entered and handed signals one by one. -/
def directItems (p : Processor σ ι ν ο) (signals : List (Signal ι ν)) : List (StreamItem ο) :=
  yields (enter p) ++ ((enter p).state.reports signals).flatMap yields

/-- The calls of the user function if a processor is entered, handed signals, and left. -/
def directCalls (p : Processor σ ι ν ο) (signals : List (Signal ι ν)) : List (Invocation ι ο) :=
  Effect.invocations (enter p).effects ++ (Effect.invocations ((enter p).state.trace signals) ++
    Effect.invocations ((enter p).state.after signals).leave.effects)

/-- The processor that was entered, handed signals, and left. -/
def directState (p : Processor σ ι ν ο) (signals : List (Signal ι ν)) : Processor σ ι ν ο :=
  ((enter p).state.after signals).leave.state

section Calls
variable (p : Processor σ ι ν ο) (xs : List (Signal ι ν))

/-- Entering a processor sets it up at most once and tears nothing down. -/
theorem invocations_enter : (Effect.invocations (enter p).effects).countP Invocation.isSetup ≤ 1 ∧
    (Effect.invocations (enter p).effects).countP Invocation.isTeardown = 0 := by
  by_cases h : p.lifecycle = .created
  · rcases enter_of_created h with ⟨user, hs, he⟩ | ⟨e, user, -, he⟩
    · rw [he, hs]
      exact ⟨Nat.le_refl 1, rfl⟩
    · rw [he]
      exact ⟨Nat.le_refl 1, rfl⟩
  · rw [enter_of_ne h]
    exact ⟨Nat.zero_le 1, rfl⟩

/-- Leaving a processor sets nothing up and tears it down at most once. -/
theorem invocations_leave : (Effect.invocations p.leave.effects).countP Invocation.isSetup = 0 ∧
    (Effect.invocations p.leave.effects).countP Invocation.isTeardown ≤ 1 := by
  by_cases h : p.isRunning = true
  · rw [leave_of_running h]
    exact ⟨rfl, Nat.le_refl 1⟩
  · rw [leave_of_not_running h]
    exact ⟨rfl, Nat.zero_le 1⟩

/-- Driven by hand, a processor is set up at most once. -/
theorem countP_isSetup_directCalls : (p.directCalls xs).countP Invocation.isSetup ≤ 1 := by
  rw [directCalls, List.countP_append, List.countP_append, (bundled_trace _ xs).countP_isSetup,
    (invocations_leave _).1]
  exact (invocations_enter p).1

/-- Driven by hand, a processor is torn down at most once. -/
theorem countP_isTeardown_directCalls : (p.directCalls xs).countP Invocation.isTeardown ≤ 1 := by
  rw [directCalls, List.countP_append, List.countP_append, (bundled_trace _ xs).countP_isTeardown,
    (invocations_enter p).2, Nat.zero_add, Nat.zero_add]
  exact (invocations_leave _).2

/-- After a set-up that failed the user function is not called any more. -/
theorem directCalls_of_setup_error {p : Processor σ ι ν ο} {e : ProcessingError}
    (hp : p.lifecycle = .created) (he : (setup p).result = .error e) :
    ∃ u, e = .userCode u ∧ p.directCalls xs = [.setup (.error u)] := by
  rcases enter_of_created hp with ⟨user, hs, -⟩ | ⟨u, user, hs, hent⟩
  · rw [hs] at he
    cases he
  · rw [hs] at he
    cases he
    have out : ¬ (enter p).state.isRunning = true := by
      rw [isRunning, hent]
      exact Bool.false_ne_true
    have out' : ¬ ((enter p).state.after xs).isRunning = true := by
      rwa [isRunning, lifecycle_after]
    refine ⟨u, rfl, ?_⟩
    rw [directCalls, leave_of_not_running out', trace_of_not_running out, hent]
    rfl

end Calls

section Direct
variable (p : Processor σ ι ν ο) (x : Signal ι ν) (xs : List (Signal ι ν))

/-- What a processor yields starts with what its setup yields. -/
theorem directItems_enter :
    p.directItems xs = yields (enter p) ++ (enter p).state.directItems xs := by
  rw [directItems, directItems, enter_of_ne (lifecycle_enter p)]
  rfl

/-- The calls of a processor start with that of its setup. -/
theorem directCalls_enter :
    p.directCalls xs =
      Effect.invocations (enter p).effects ++ (enter p).state.directCalls xs := by
  rw [directCalls, directCalls, enter_of_ne (lifecycle_enter p)]
  rfl

/-- A processor that was entered is not entered again. -/
theorem directState_enter : p.directState xs = (enter p).state.directState xs := by
  rw [directState, directState, enter_of_ne (lifecycle_enter p)]

variable {p} (hp : p.lifecycle ≠ .created)
include hp

theorem directItems_nil : p.directItems [] = [] := by
  rw [directItems, enter_of_ne hp]
  rfl

/-- The items of a signal come first, and then those of the signals behind it. -/
theorem directItems_cons :
    p.directItems (x :: xs) = yields (handle x p) ++ (handle x p).state.directItems xs := by
  have hx : (handle x p).state.lifecycle ≠ .created := by rwa [lifecycle_handle]
  rw [directItems, directItems, enter_of_ne hp, enter_of_ne hx]
  rfl

/-- Without a signal left, a processor is only torn down. -/
theorem directCalls_nil : p.directCalls [] = Effect.invocations p.leave.effects := by
  rw [directCalls, enter_of_ne hp]
  rfl

/-- The calls for a signal come first, and then those for the signals behind it. -/
theorem directCalls_cons :
    p.directCalls (x :: xs) =
      Effect.invocations (handle x p).effects ++ (handle x p).state.directCalls xs := by
  have hx : (handle x p).state.lifecycle ≠ .created := by rwa [lifecycle_handle]
  have ht : p.trace (x :: xs) = (handle x p).effects ++ (handle x p).state.trace xs := rfl
  rw [directCalls, directCalls, enter_of_ne hp, enter_of_ne hx, ht, Effect.invocations_append,
    List.append_assoc]
  rfl

theorem directState_nil : p.directState [] = p.leave.state := by
  rw [directState, enter_of_ne hp]
  rfl

theorem directState_cons : p.directState (x :: xs) = (handle x p).state.directState xs := by
  have hx : (handle x p).state.lifecycle ≠ .created := by rwa [lifecycle_handle]
  rw [directState, directState, enter_of_ne hp, enter_of_ne hx]
  rfl

end Direct

end Processor

namespace EmissionStream

variable {s s' : EmissionStream σ ι ν ο}

/-- The items that are ready to be yielded. -/
def ready (s : EmissionStream σ ι ν ο) : List (StreamItem ο) :=
  s.buffered.map .ok ++ s.error.toList.map .error

/-- The signals that are left in the input. -/
def left (s : EmissionStream σ ι ν ο) : List (Signal ι ν) :=
  if s.ended then [] else InputAnswer.signals s.input.script

/-- The items that are still to be yielded. -/
def due (s : EmissionStream σ ι ν ο) : List (StreamItem ο) :=
  s.ready ++ if s.ended then [] else s.processor.directItems s.left

/-- The calls of the user function that are still to be made. -/
def calls (s : EmissionStream σ ι ν ο) : List (Invocation ι ο) :=
  if s.ended then [] else s.processor.directCalls s.left

/-- The processor that a stream will leave behind. -/
def outcome (s : EmissionStream σ ι ν ο) : Processor σ ι ν ο :=
  if s.ended then s.processor else s.processor.directState s.left

/-- The number of pauses that are still to come. -/
def pauses (s : EmissionStream σ ι ν ο) : Nat :=
  if s.ended then 0 else InputAnswer.pauses s.input.script

/-- The number of polls before the end is answered: one for each item and each pause. -/
def rank (s : EmissionStream σ ι ν ο) : Nat := s.due.length + s.pauses

/-- A stream whose end leaves nothing to yield and nothing to tear down. -/
structure Closed (s : EmissionStream σ ι ν ο) : Prop where
  ready : s.ready = []
  lifecycle : s.processor.lifecycle = .tornDown

theorem ready_eq_nil_iff : s.ready = [] ↔ s.buffered = [] ∧ s.error = none := by
  simp [ready]

/-! ## What a poll delivers -/

/-- What a poll of a stream delivers, and that everything else is left for later. -/
structure Delivers (s : EmissionStream σ ι ν ο) (r : Polled σ ι ν ο) : Prop where
  items : s.due = r.answer.item?.toList ++ r.stream.due
  calls : s.calls = Effect.invocations r.effects ++ r.stream.calls
  outcome : r.stream.outcome = s.outcome
  rank : r.answer ≠ .finished → s.rank = r.stream.rank + 1 ∧ r.stream.ended = s.ended
  finished : r.answer = .finished → s.rank = 0 ∧ r.stream.ended = true ∧ r.stream.Closed
  teardown : .teardown ∈ Effect.invocations r.effects → r.answer = .finished

/-- Something that happens inside a poll and takes nothing away from what is to come. -/
structure Absorbs (s : EmissionStream σ ι ν ο) (es : List (Effect ι ο))
    (s' : EmissionStream σ ι ν ο) : Prop where
  items : s'.due = s.due
  calls : s.calls = Effect.invocations es ++ s'.calls
  outcome : s'.outcome = s.outcome
  pauses : s'.pauses = s.pauses
  ended : s'.ended = s.ended
  teardown : .teardown ∉ Effect.invocations es

/-- What happens inside a poll brings the end no closer. -/
theorem Absorbs.rank_eq {es : List (Effect ι ο)} (h : Absorbs s es s') : s'.rank = s.rank := by
  rw [rank, rank, h.items, h.pauses]

/-- What is delivered after something inside the poll is delivered by the whole poll. -/
theorem Absorbs.delivers {es : List (Effect ι ο)} {r : Polled σ ι ν ο} (h : Absorbs s es s')
    (d : Delivers s' r) : Delivers s (r.after es) := by
  refine ⟨?_, ?_, d.outcome.trans h.outcome, ?_, ?_, ?_⟩
  · rw [← h.items]
    exact d.items
  · change _ = Effect.invocations (es ++ r.effects) ++ _
    rw [h.calls, d.calls, Effect.invocations_append, List.append_assoc]
    rfl
  · intro ha
    rw [← h.rank_eq, ← h.ended]
    exact d.rank ha
  · intro ha
    rw [← h.rank_eq]
    exact d.finished ha
  · intro hm
    change _ ∈ Effect.invocations (es ++ r.effects) at hm
    rw [Effect.invocations_append] at hm
    rcases List.mem_append.1 hm with hm | hm
    · exact absurd hm h.teardown
    · exact d.teardown hm

/-- What is ready is yielded without looking at the input. -/
theorem delivers_ready {answer : StreamAnswer ο} (h : s.takeReady? = some (answer, s')) :
    Delivers s ⟨answer, s', []⟩ := by
  have key : answer ≠ .finished ∧ s.ready = answer.item?.toList ++ s'.ready ∧
      answer.item?.toList.length = 1 ∧ s'.ended = s.ended ∧ s'.processor = s.processor ∧
      s'.input = s.input := by
    unfold takeReady? at h
    cases hb : s.buffered with
    | cons head rest =>
        rw [hb] at h
        cases h
        refine ⟨fun hf => (nomatch hf), ?_, rfl, rfl, rfl, rfl⟩
        rw [ready, hb]
        rfl
    | nil =>
        cases he : s.error with
        | some e =>
            rw [hb, he] at h
            cases h
            refine ⟨fun hf => (nomatch hf), ?_, rfl, rfl, rfl, rfl⟩
            simp only [ready, hb, he]
            rfl
        | none =>
            rw [hb, he] at h
            cases h
  obtain ⟨hne, hr, hl, hended, hproc, hin⟩ := key
  have hleft : s'.left = s.left := by simp only [left, hended, hin]
  have hdue : s.due = answer.item?.toList ++ s'.due := by
    rw [due, due, hr, hended, hproc, hleft, List.append_assoc]
  refine ⟨hdue, ?_, ?_, fun _ => ⟨?_, hended⟩, fun hf => absurd hf hne, fun hm => nomatch hm⟩
  · simp only [calls, hended, hproc, hleft]
    rfl
  · simp only [outcome, hended, hproc, hleft]
  · simp only [rank, pauses, hdue, hended, hin, List.length_append, hl]
    omega

theorem ready_eq_nil_of_takeReady? (h : s.takeReady? = none) : s.ready = [] := by
  unfold takeReady? at h
  split at h
  · cases h
  · cases h
  · rename_i hb he
    exact ready_eq_nil_iff.2 ⟨hb, he⟩

/-! ## Taking signals in -/

/-- The stream at the next answer of its input. -/
def advanced (s : EmissionStream σ ι ν ο) (rest : List (InputAnswer ι ν)) :
    EmissionStream σ ι ν ο :=
  { s with input := s.input.polled rest }

/-- What a signal yields is ready once it was handled. -/
theorem ready_handled (s : EmissionStream σ ι ν ο)
    (r : Report (Processor σ ι ν ο) (Effect ι ο) ProcessingError Unit) :
    (s.handled r).ready = Processor.yields r := by
  simp only [ready, handled, Processor.yields]
  cases r.result <;> rfl

section Input
variable (hr : s.ready = []) (he : s.ended = false) (hp : s.processor.lifecycle ≠ .created)
  {rest : List (InputAnswer ι ν)}
include hr he hp

/-- A signal that is handled turns into what it yields. -/
theorem absorbs_signal {signal : Signal ι ν} (hs : s.input.script = .signal signal :: rest) :
    Absorbs s (Processor.handle signal s.processor).effects
      ((s.advanced rest).handled (Processor.handle signal s.processor)) := by
  have hl : s.left = signal :: InputAnswer.signals rest := by
    simp [left, he, hs, InputAnswer.signals]
  refine ⟨?_, ?_, ?_, ?_, rfl, ?_⟩
  · rw [due, due, ready_handled, hr, hl, he, Processor.directItems_cons signal _ hp]
    simp [handled, advanced, left, Input.polled, he]
  · rw [calls, calls, hl, he, Processor.directCalls_cons signal _ hp]
    simp [handled, advanced, left, Input.polled, he]
  · rw [outcome, outcome, hl, he, Processor.directState_cons signal _ hp]
    simp [handled, advanced, left, Input.polled, he]
  · simp [pauses, handled, advanced, Input.polled, hs, he, InputAnswer.pauses]
  · intro hm
    exact Processor.bundled_handle signal s.processor _ hm

omit hr hp in
/-- A pause of the input is passed on, and nothing else changes. -/
theorem delivers_pause (hs : s.input.script = .pending :: rest) :
    Delivers s ⟨.pending, s.advanced rest, []⟩ := by
  have hl : (s.advanced rest).left = s.left := by
    simp [left, advanced, Input.polled, hs, he, InputAnswer.signals]
  have hd : s.due = (s.advanced rest).due := by
    rw [due, due, hl]
    rfl
  refine ⟨hd, ?_, ?_, fun _ => ⟨?_, rfl⟩, fun hf => (nomatch hf), fun hm => (nomatch hm)⟩
  · rw [calls, calls, hl]
    rfl
  · rw [outcome, outcome, hl]
    rfl
  · simp [rank, hd, pauses, advanced, Input.polled, hs, he, InputAnswer.pauses]
    omega

omit hr he in
/-- To finish is to leave the processor, of which nothing is to be seen if it was left before. -/
theorem finish_eq : s.finish.answer = .finished ∧
    s.finish.stream = { s with ended := true, processor := s.processor.leave.state } ∧
    Effect.invocations s.finish.effects = Effect.invocations s.processor.leave.effects := by
  unfold finish
  by_cases h : s.processor.isRunning = true
  · rw [if_pos h]
    exact ⟨rfl, rfl, rfl⟩
  · rw [if_neg h, Processor.leave_of_not_running h]
    refine ⟨rfl, ?_, rfl⟩
    have hl : s.processor.lifecycle = .tornDown := by
      unfold Processor.isRunning at h
      cases hc : s.processor.lifecycle with
      | created => exact absurd hc hp
      | running => simp [hc] at h
      | tornDown => rfl
    rw [← hl]

/-- An input that brings nothing more ends the stream and the life of its processor. -/
theorem delivers_finish (hl : InputAnswer.signals s.input.script = [])
    (hz : InputAnswer.pauses s.input.script = 0) : Delivers s (s.advanced rest).finish := by
  have hl : s.left = [] := by simp [left, hl]
  have hd : s.due = [] := by
    rw [due, hr, hl, he, Processor.directItems_nil hp]
    rfl
  have hrank : s.rank = 0 := by simp [rank, hd, pauses, hz]
  have hadv : (s.advanced rest).processor.lifecycle ≠ .created := hp
  obtain ⟨ha, hst, hinv⟩ := finish_eq hadv
  have closed : (s.advanced rest).finish.stream.ended = true ∧
      (s.advanced rest).finish.stream.Closed := by
    rw [hst]
    exact ⟨rfl, hr, Processor.lifecycle_leave _⟩
  refine ⟨?_, ?_, ?_, fun hf => absurd ha hf, fun _ => ⟨hrank, closed⟩, fun _ => ha⟩
  · rw [hd, ha, due, closed.1, closed.2.ready]
    rfl
  · rw [hinv, calls, calls, hl, he, closed.1, if_pos rfl, List.append_nil]
    exact Processor.directCalls_nil hp
  · rw [outcome, outcome, closed.1, if_pos rfl, hst, hl, he]
    exact (Processor.directState_nil hp).symm

end Input

/-- What a pull comes to, by the answers of the input one after another. -/
theorem delivers_pull (hr : s.ready = []) (he : s.ended = false)
    (hp : s.processor.lifecycle ≠ .created) : Delivers s (s.pull s.input.script) := by
  generalize hs : s.input.script = script
  induction script generalizing s with
  | nil => exact delivers_finish hr he hp (by rw [hs]; rfl) (by rw [hs]; rfl)
  | cons answer rest ih =>
      cases answer with
      | pending => exact delivers_pause he hs
      | finished => exact delivers_finish hr he hp (by rw [hs]; rfl) (by rw [hs]; rfl)
      | signal signal =>
          have absorbed := absorbs_signal hr he hp hs
          simp only [pull]
          split
          · rename_i a s' ht
            have := absorbed.delivers (delivers_ready ht)
            simpa [Polled.after] using this
          · rename_i ht
            refine absorbed.delivers (ih (ready_eq_nil_of_takeReady? ht) ?_ ?_ rfl)
            · exact he
            · exact (Processor.lifecycle_handle signal s.processor).symm ▸ hp

/-- A stream that ended is closed. -/
def Sound (s : EmissionStream σ ι ν ο) : Prop := s.ended = true → s.Closed

/-- With nothing ready, a poll of a processor that was set up goes to the input. -/
theorem delivers_pullInput (hr : s.ready = []) (hs : s.Sound)
    (hp : s.processor.lifecycle ≠ .created) : Delivers s s.pullInput := by
  unfold pullInput
  cases he : s.ended with
  | false => exact delivers_pull hr he hp
  | true =>
      have closed := hs he
      have hn : ¬ s.processor.isRunning = true := by
        simp [Processor.isRunning, closed.lifecycle]
      have hd : s.due = [] := by simp [due, hr, he]
      have hrank : s.rank = 0 := by simp [rank, hd, pauses, he]
      have hf : s.finish = ⟨.finished, s, []⟩ := by
        rw [finish, if_neg hn, ← he]
      rw [if_pos rfl, hf]
      refine ⟨rfl, rfl, rfl, fun ha => absurd rfl ha, fun _ => ⟨hrank, he, closed⟩, fun _ => rfl⟩

/-- A set-up turns into its failure, if it fails. -/
theorem absorbs_enter (hr : s.ready = []) (he : s.ended = false) {es : List (Effect ι ο)}
    (hes : Effect.invocations es = Effect.invocations (Processor.enter s.processor).effects) :
    Absorbs s es (s.handled (Processor.enter s.processor)) := by
  refine ⟨?_, ?_, ?_, rfl, rfl, ?_⟩
  · rw [due, due, ready_handled, hr, he, Processor.directItems_enter s.processor]
    simp [handled, left, he]
  · rw [calls, calls, hes, he, Processor.directCalls_enter s.processor]
    simp [handled, left, he]
  · rw [outcome, outcome, he, Processor.directState_enter s.processor]
    simp [handled, left, he]
  · intro hm
    rw [hes] at hm
    exact List.countP_eq_zero.1 (Processor.invocations_enter s.processor).2 _ hm rfl

/--
The poll that sets the processor up enters it. It goes on with the input if that yields nothing, and
yields the failure otherwise.
-/
theorem setUpAndPull_cases (hr : s.ready = []) (hp : s.processor.lifecycle = .created) :
    ((s.handled (Processor.enter s.processor)).ready = [] ∧
      s.setUpAndPull = (s.handled (Processor.enter s.processor)).pullInput.after
        (Processor.enter s.processor).effects) ∨
    ∃ e es s', (s.handled (Processor.enter s.processor)).takeReady? = some (.failure e, s') ∧
      Effect.invocations es = Effect.invocations (Processor.enter s.processor).effects ∧
      s.setUpAndPull = (⟨.failure e, s', []⟩ : Polled σ ι ν ο).after es := by
  obtain ⟨hb, hn⟩ := ready_eq_nil_iff.1 hr
  rcases Processor.enter_of_created hp with ⟨user, hset, hent⟩ | ⟨e, user, hset, hent⟩
  · left
    have hstate : s.handled (Processor.enter s.processor) =
        { s with processor := (Processor.enter s.processor).state } := by
      simp [hent, hset, handled, hb, hn, Effect.emissions]
    rw [hstate, hent, setUpAndPull, hset]
    exact ⟨hr, rfl⟩
  · right
    refine ⟨.userCode e, [.call (.setup (.error e)), .note (.setupFailed (.userCode e))],
      { s with processor := (Processor.enter s.processor).state }, ?_, ?_, ?_⟩
    · simp [hent, handled, hb, hn, Effect.emissions, takeReady?]
    · rw [hent]
      rfl
    · simp only [setUpAndPull, hset, hent]
      simp [Processor.teardown, Processor.isRunning, hp, Polled.after]

/-- With nothing ready, the first poll sets up the processor and then goes to the input. -/
theorem delivers_setUpAndPull (hr : s.ready = []) (hs : s.Sound)
    (hp : s.processor.lifecycle = .created) : Delivers s s.setUpAndPull := by
  have he : s.ended = false := by
    apply Bool.eq_false_iff.2
    intro h
    have := (hs h).lifecycle
    rw [hp] at this
    cases this
  rcases setUpAndPull_cases hr hp with ⟨hr', hpoll⟩ | ⟨e, es, s', ht, hes, hpoll⟩
  · rw [hpoll]
    apply (absorbs_enter hr he rfl).delivers
    apply delivers_pullInput hr' ?_ (Processor.lifecycle_enter _)
    exact fun h => absurd (he.symm.trans h) Bool.false_ne_true
  · rw [hpoll]
    exact (absorbs_enter hr he hes).delivers (delivers_ready ht)

/-- A poll delivers what comes next and leaves the rest. -/
theorem delivers_poll (hs : s.Sound) : Delivers s s.poll := by
  unfold poll
  split
  · rename_i a s' h
    exact delivers_ready h
  · rename_i h
    have hr := ready_eq_nil_of_takeReady? h
    split
    · rename_i hp
      exact delivers_setUpAndPull hr hs hp
    · rename_i hp
      exact delivers_pullInput hr hs hp

/-! ## Polling again and again -/

/-- The stream after some polls. -/
def afterPolls (s : EmissionStream σ ι ν ο) : Nat → EmissionStream σ ι ν ο
  | 0 => s
  | n + 1 => (s.afterPolls n).poll.stream

/-- What a poll comes to after some others. -/
def pollAt (s : EmissionStream σ ι ν ο) (n : Nat) : Polled σ ι ν ο := (s.afterPolls n).poll

/-- The calls of the user function in the first polls. -/
def callsBefore (s : EmissionStream σ ι ν ο) (n : Nat) : List (Invocation ι ο) :=
  (List.range n).flatMap fun k => Effect.invocations (s.pollAt k).effects

/-- Nothing is to come of a stream that ended and is closed. -/
theorem Closed.rank_eq (h : s.Closed) (he : s.ended = true) : s.rank = 0 := by
  simp [rank, due, pauses, he, h.ready]

/-- A poll that delivers leaves a stream that is closed once it ended. -/
theorem Delivers.sound {r : Polled σ ι ν ο} (d : Delivers s r) (hs : s.Sound) :
    r.stream.Sound := by
  intro he
  by_cases ha : r.answer = .finished
  · exact (d.finished ha).2.2
  · -- A stream that ended before has no rank, so it can only answer that again.
    obtain ⟨hrank, hended⟩ := d.rank ha
    rw [hended] at he
    rw [(hs he).rank_eq he] at hrank
    omega

section Polls
variable (hs : s.Sound) (n : Nat)
include hs

/-- However often it is polled, a stream that ended is closed. -/
theorem sound_afterPolls : (s.afterPolls n).Sound := by
  induction n with
  | zero => exact hs
  | succ n ih => exact (delivers_poll ih).sound ih

/-- Every single poll delivers. -/
theorem delivers_pollAt : Delivers (s.afterPolls n) (s.pollAt n) :=
  delivers_poll (sound_afterPolls hs n)

/-- Each poll brings the end one step closer. -/
theorem rank_afterPolls : (s.afterPolls n).rank = s.rank - n := by
  induction n with
  | zero => rfl
  | succ n ih =>
      have d := delivers_pollAt hs n
      change (s.pollAt n).stream.rank = _
      by_cases ha : (s.pollAt n).answer = .finished
      · obtain ⟨hz, he, closed⟩ := d.finished ha
        rw [closed.rank_eq he]
        omega
      · have := (d.rank ha).1
        omega

/-- The end is answered from the poll on that has nothing before it any more. -/
theorem finished_pollAt_iff : (s.pollAt n).answer = .finished ↔ s.rank ≤ n := by
  have d := delivers_pollAt hs n
  have hrank := rank_afterPolls hs n
  constructor
  · intro ha
    have := (d.finished ha).1
    omega
  · intro hle
    by_contra ha
    have := (d.rank ha).1
    omega

/-- A stream has ended once it was polled more often than it had items and pauses. -/
theorem ended_afterPolls_iff (he : s.ended = false) :
    (s.afterPolls n).ended = true ↔ s.rank < n := by
  induction n with
  | zero => simp [afterPolls, he]
  | succ n ih =>
      have d := delivers_pollAt hs n
      have hf := finished_pollAt_iff hs n
      change (s.pollAt n).stream.ended = true ↔ _
      by_cases ha : (s.pollAt n).answer = .finished
      · have := hf.1 ha
        simp only [(d.finished ha).2.1, true_iff]
        omega
      · have : ¬ s.rank ≤ n := fun h => ha (hf.2 h)
        rw [(d.rank ha).2, ih]
        omega

/-- What was yielded and what is due are together what was due in the beginning. -/
theorem items_append_due :
    ((List.range n).filterMap fun k => (s.pollAt k).answer.item?) ++ (s.afterPolls n).due =
      s.due := by
  induction n with
  | zero => rfl
  | succ n ih =>
      have last : [n].filterMap (fun k => (s.pollAt k).answer.item?) =
          (s.pollAt n).answer.item?.toList := by
        cases h : (s.pollAt n).answer.item? <;> simp [h]
      rw [← ih, List.range_succ, List.filterMap_append, last, List.append_assoc,
        (delivers_pollAt hs n).items]
      rfl

/-- The calls of the user function that were made and are still to be made are what they were. -/
theorem callsBefore_append_calls : s.callsBefore n ++ (s.afterPolls n).calls = s.calls := by
  induction n with
  | zero => rfl
  | succ n ih =>
      rw [← ih, callsBefore, callsBefore, List.range_succ, List.flatMap_append, List.append_assoc,
        (delivers_pollAt hs n).calls, List.flatMap_singleton]
      rfl

/-- Polling does not change what the processor will be in the end. -/
theorem outcome_afterPolls : (s.afterPolls n).outcome = s.outcome := by
  induction n with
  | zero => rfl
  | succ n ih => exact (delivers_pollAt hs n).outcome.trans ih

end Polls

/-! ## Which signals are taken -/

/--
The signals that a poll takes from the input: none while something is ready, and none behind the
first of them that yields something.
-/
def Takes (s : EmissionStream σ ι ν ο) (r : Polled σ ι ν ο) : Prop :=
  ∃ quiet last, s.left = quiet ++ last ++ r.stream.left ∧ last.length ≤ 1 ∧
    (quiet ++ last ≠ [] → s.ready = []) ∧
    ∀ q ∈ (Processor.enter s.processor).state.reports quiet, Processor.yields q = []

/-- A poll that leaves the input alone takes nothing from it. -/
theorem takes_none {r : Polled σ ι ν ο} (h : s.left = r.stream.left) : Takes s r :=
  ⟨[], [], h, Nat.zero_le 1, fun hn => absurd rfl hn, fun _ hq => (nomatch hq)⟩

theorem left_finish (s : EmissionStream σ ι ν ο) : s.finish.stream.left = [] := by
  unfold finish
  split <;> rfl

/-- Items that are ready are handed out without the input. -/
theorem left_of_takeReady? {answer : StreamAnswer ο} (h : s.takeReady? = some (answer, s')) :
    s'.left = s.left := by
  unfold takeReady? at h
  split at h
  · cases h
    rfl
  · cases h
    rfl
  · cases h

/-- A poll takes signals up to the first that yields something. -/
theorem takes_pull (hr : s.ready = []) (he : s.ended = false)
    (hp : s.processor.lifecycle ≠ .created) : Takes s (s.pull s.input.script) := by
  generalize hs : s.input.script = script
  have hl : s.left = InputAnswer.signals script := by simp [left, he, hs]
  induction script generalizing s with
  | nil => exact takes_none (hl.trans (left_finish _).symm)
  | cons answer rest ih =>
      cases answer with
      | pending =>
          apply takes_none
          rw [hl]
          simp [pull, left, Input.polled, he, InputAnswer.signals]
      | finished => exact takes_none (hl.trans (left_finish _).symm)
      | signal signal =>
          have hrest : ((s.advanced rest).handled (Processor.handle signal s.processor)).left =
              InputAnswer.signals rest := by
            simp [left, handled, advanced, Input.polled, he]
          simp only [pull]
          split
          · rename_i a s' ht
            have hs' : s'.left = InputAnswer.signals rest := (left_of_takeReady? ht).trans hrest
            refine ⟨[], [signal], ?_, Nat.le_refl 1, fun _ => hr, fun _ hq => (nomatch hq)⟩
            rw [hl, hs']
            rfl
          · rename_i ht
            have hready := ready_eq_nil_of_takeReady? ht
            have hp' : (Processor.handle signal s.processor).state.lifecycle ≠ .created := by
              rwa [Processor.lifecycle_handle]
            obtain ⟨quiet, last, hleft, hlen, -, hquiet⟩ := ih hready he hp' rfl hrest
            refine ⟨signal :: quiet, last, ?_, hlen, fun _ => hr, ?_⟩
            · rw [hl]
              exact congrArg (List.cons signal) (hrest.symm.trans hleft)
            · have later : ∀ q ∈ (Processor.enter
                  (Processor.handle signal s.processor).state).state.reports quiet,
                  Processor.yields q = [] := hquiet
              rw [Processor.enter_of_ne hp'] at later
              rw [Processor.enter_of_ne hp]
              intro q hq
              rcases List.mem_cons.1 hq with rfl | hq
              · exact (ready_handled _ _).symm.trans hready
              · exact later q hq

theorem takes_pullInput (hr : s.ready = []) (hp : s.processor.lifecycle ≠ .created) :
    Takes s s.pullInput := by
  unfold pullInput
  cases he : s.ended with
  | false => exact takes_pull hr he hp
  | true =>
      apply takes_none
      rw [if_pos rfl, left_finish]
      simp [left, he]

/-- No poll takes more from the input than it needs for its answer. -/
theorem takes_poll (s : EmissionStream σ ι ν ο) : Takes s s.poll := by
  unfold poll
  split
  · rename_i a s' h
    exact takes_none (left_of_takeReady? h).symm
  · rename_i h
    have hr := ready_eq_nil_of_takeReady? h
    split
    · rename_i hp
      rcases setUpAndPull_cases hr hp with ⟨hr', hpoll⟩ | ⟨e, es, s', ht, -, hpoll⟩
      · -- To enter the processor once more does nothing, so the signals taken are the same.
        obtain ⟨quiet, last, hleft, hlen, -, hquiet⟩ :=
          takes_pullInput hr' (Processor.lifecycle_enter s.processor)
        have hquiet : ∀ q ∈ (Processor.enter (Processor.enter s.processor).state).state.reports
            quiet, Processor.yields q = [] := hquiet
        rw [Processor.enter_of_ne (Processor.lifecycle_enter _)] at hquiet
        rw [hpoll]
        exact ⟨quiet, last, hleft, hlen, fun _ => hr, hquiet⟩
      · rw [hpoll]
        exact takes_none (left_of_takeReady? ht).symm
    · rename_i hp
      exact takes_pullInput hr hp

/-! ## The whole of it -/

/--
What polling a stream comes to, `last` being the first poll that answers the end. The polls before
it yield what the processor yields if it is driven by hand, whatever the pauses, and call the user
function as often. A poll takes a signal only when everything in front of it was yielded. From the
end on nothing happens any more.
-/
structure DrivesByHand (input : Input ι ν) (p : Processor σ ι ν ο) (last : Nat) : Prop where
  ends : ∀ n, ((start input p).pollAt n).answer = .finished ↔ last ≤ n
  items : (List.range last).filterMap (fun n => ((start input p).pollAt n).answer.item?) =
    p.directItems (InputAnswer.signals input.script)
  takes : ∀ n, Takes ((start input p).afterPolls n) ((start input p).pollAt n)
  calls : ∀ n, last < n →
    (start input p).callsBefore n = p.directCalls (InputAnswer.signals input.script)
  outcome : ∀ n, last < n →
    ((start input p).afterPolls n).processor = p.directState (InputAnswer.signals input.script)
  setUpOnce : ∀ n, ((start input p).callsBefore n).countP Invocation.isSetup ≤ 1
  tornDownOnce : ∀ n, ((start input p).callsBefore n).countP Invocation.isTeardown ≤ 1
  tornDownAtEnd : ∀ n, .teardown ∈ Effect.invocations ((start input p).pollAt n).effects → n = last
  givenUp : p.lifecycle = .created → ∀ e, (Processor.setup p).result = .error e →
    ∀ n, .teardown ∉ Effect.invocations ((start input p).pollAt n).effects
  terminated : ∀ n, ((start input p).afterPolls n).isTerminated = true ↔ last < n
  idle : ∀ n, last < n → Effect.invocations ((start input p).pollAt n).effects = []

/-- A stream is terminated exactly after it has answered its end. -/
theorem isTerminated_afterPolls_iff (hs : s.Sound) (he : s.ended = false) (n : Nat) :
    (s.afterPolls n).isTerminated = true ↔ s.rank < n := by
  rw [← ended_afterPolls_iff hs n he]
  unfold isTerminated
  constructor
  · intro h
    exact (Bool.and_eq_true_iff.1 (Bool.and_eq_true_iff.1 h).1).1
  · intro h
    obtain ⟨hb, hn⟩ := ready_eq_nil_iff.1 (sound_afterPolls hs n h).ready
    rw [h, hb, hn]
    rfl

theorem calls_of_ended (h : s.ended = true) : s.calls = [] := if_pos h

/-- After the end no call of the user function is made. -/
theorem invocations_pollAt_eq_nil (hs : s.Sound) (he : s.ended = false) {n : Nat}
    (hn : s.rank < n) : Effect.invocations (s.pollAt n).effects = [] := by
  have d := delivers_pollAt hs n
  have hc := d.calls
  rw [calls_of_ended ((ended_afterPolls_iff hs n he).2 hn)] at hc
  exact (List.append_eq_nil_iff.1 hc.symm).1

/-- The user function is torn down in no poll but the first that answers the end. -/
theorem eq_rank_of_teardown_mem (hs : s.Sound) (he : s.ended = false) {n : Nat}
    (hm : .teardown ∈ Effect.invocations (s.pollAt n).effects) : n = s.rank := by
  apply Nat.le_antisymm
  · apply Nat.le_of_not_lt
    intro hn
    rw [invocations_pollAt_eq_nil hs he hn] at hm
    cases hm
  · exact (finished_pollAt_iff hs n).1 ((delivers_pollAt hs n).teardown hm)

/-- The polls together call no more than driving by hand does. -/
theorem countP_callsBefore_le (hs : s.Sound) (n : Nat) (test : Invocation ι ο → Bool) :
    (s.callsBefore n).countP test ≤ s.calls.countP test := by
  rw [← callsBefore_append_calls hs n, List.countP_append]
  exact Nat.le_add_right _ _

/-- Whatever a poll calls is called when driving by hand as well. -/
theorem mem_calls_of_mem_pollAt (hs : s.Sound) {n : Nat} {i : Invocation ι ο}
    (hm : i ∈ Effect.invocations (s.pollAt n).effects) : i ∈ s.calls := by
  rw [← callsBefore_append_calls hs (n + 1)]
  apply List.mem_append_left
  exact List.mem_flatMap.2 ⟨n, List.mem_range.2 (Nat.lt_succ_self n), hm⟩

/-- The polls before the end yield all that is due. -/
theorem items_eq_due (hs : s.Sound) :
    ((List.range s.rank).filterMap fun n => (s.pollAt n).answer.item?) = s.due := by
  have all := items_append_due hs s.rank
  have nothing : (s.afterPolls s.rank).due = [] := by
    have := rank_afterPolls hs s.rank
    rw [Nat.sub_self] at this
    exact List.eq_nil_of_length_eq_zero (Nat.eq_zero_of_add_eq_zero_right this)
  rwa [nothing, List.append_nil] at all

/-- Polling a stream to its end is driving its processor by hand. -/
theorem drives_by_hand (input : Input ι ν) (p : Processor σ ι ν ο) :
    DrivesByHand input p ((p.directItems (InputAnswer.signals input.script)).length +
      InputAnswer.pauses input.script) := by
  have he : (start input p).ended = false := rfl
  have hs : (start input p).Sound := fun h => (nomatch h)
  have hcalls : (start input p).calls = p.directCalls (InputAnswer.signals input.script) := rfl
  refine ⟨finished_pollAt_iff hs, items_eq_due hs, fun n => takes_poll _, ?_, ?_, ?_, ?_,
    fun n hm => eq_rank_of_teardown_mem hs he hm, ?_, isTerminated_afterPolls_iff hs he,
    fun n hn => invocations_pollAt_eq_nil hs he hn⟩
  · intro n hn
    have ended := (ended_afterPolls_iff hs n he).2 hn
    rw [← hcalls, ← callsBefore_append_calls hs n, calls_of_ended ended, List.append_nil]
  · intro n hn
    have := outcome_afterPolls hs n
    rwa [outcome, if_pos ((ended_afterPolls_iff hs n he).2 hn)] at this
  · intro n
    exact Nat.le_trans (countP_callsBefore_le hs n _) (Processor.countP_isSetup_directCalls p _)
  · intro n
    exact Nat.le_trans (countP_callsBefore_le hs n _) (Processor.countP_isTeardown_directCalls p _)
  · intro hp e hset n hm
    obtain ⟨u, -, hu⟩ := Processor.directCalls_of_setup_error
      (InputAnswer.signals input.script) hp hset
    have hmem := mem_calls_of_mem_pollAt hs hm
    rw [hcalls, hu] at hmem
    cases List.mem_singleton.1 hmem

end EmissionStream

end EventStream
