import EventStream.Proofs.Polling

/-!
# How many items are still to come

A stream tells how many items it will yield at least and at most. The least number is
the number of items that are ready. There is a largest number only if the input says
that it brings no signal any more, and it is the same number.

A processor that has yet to be set up may fail at that, and its failure is an item of
the first poll. The hint before that poll leaves it out, which is the only way in which
a hint can be missed.
-/

namespace EventStream

variable {σ ι ν ο : Type}

/-- Whether a number lies within the bounds. -/
def SizeHint.Admits (h : SizeHint) (n : Nat) : Prop :=
  h.lower ≤ n ∧ ∀ u, h.upper = some u → n ≤ u

namespace Input

/-- An input whose hints are right: until it ends, they bound the signals that it still brings. -/
def Honest (input : Input ι ν) : Prop :=
  ∀ asked rest, input.script = asked ++ rest → .finished ∉ asked →
    (input.hint rest).Admits (InputAnswer.signals rest).length

/-- An honest input is still honest after an answer. -/
theorem Honest.polled {input : Input ι ν} (h : input.Honest) {answer : InputAnswer ι ν}
    {rest : List (InputAnswer ι ν)} (hs : input.script = answer :: rest)
    (ha : answer ≠ .finished) : (input.polled rest).Honest := by
  intro asked more hmore hasked
  apply h (answer :: asked) more
  · rw [hs, List.cons_append]
    exact congrArg _ hmore
  · intro hm
    rcases List.mem_cons.1 hm with hm | hm
    · exact ha hm.symm
    · exact hasked hm

theorem countP_isSignal {script : List (InputAnswer ι ν)} (h : .finished ∉ script) :
    script.countP InputAnswer.isSignal = (InputAnswer.signals script).length := by
  induction script with
  | nil => rfl
  | cons answer rest ih =>
      have ih := ih fun hm => h (List.mem_cons_of_mem _ hm)
      cases answer with
      | finished => exact absurd List.mem_cons_self h
      | pending => exact ih
      | signal s =>
          rw [List.countP_cons_of_pos rfl, ih]
          rfl

/-- To count the signals of a script is honest if nothing in it lies behind an end. -/
theorem honest_countingHint {script : List (InputAnswer ι ν)} (h : .finished ∉ script) (n : Nat) :
    Honest ⟨script, countingHint, n⟩ := by
  rintro asked rest rfl -
  have exact_count := countP_isSignal fun hm => h (List.mem_append_right asked hm)
  refine ⟨Nat.le_of_eq exact_count, fun u hu => ?_⟩
  cases hu
  exact Nat.le_of_eq exact_count.symm

end Input

namespace Processor

/-- To enter a processor emits nothing: all it may yield is its failure. -/
theorem yields_enter (p : Processor σ ι ν ο) :
    yields (enter p) =
      match (enter p).result with
      | .ok () => []
      | .error e => [.error e] := by
  by_cases h : p.lifecycle = .created
  · rcases enter_of_created h with ⟨user, hs, he⟩ | ⟨e, user, -, he⟩
    · rw [he, hs]
      rfl
    · rw [he]
      rfl
  · rw [enter_of_ne h]
    rfl

/-- Entering a processor fails exactly if its setup does. -/
theorem enter_eq_error_iff {p : Processor σ ι ν ο} {e : ProcessingError} :
    (enter p).result = .error e ↔ p.lifecycle = .created ∧ (setup p).result = .error e := by
  by_cases h : p.lifecycle = .created
  · rcases enter_of_created h with ⟨user, hs, he⟩ | ⟨u, user, hs, he⟩
    · rw [he]
      simp [h]
    · rw [he, hs]
      simp [h]
  · rw [enter_of_ne h]
    simp [h]

end Processor

namespace EmissionStream

variable {s s' : EmissionStream σ ι ν ο}

/-- The items that the first polls of a stream yield. -/
def itemsBefore (s : EmissionStream σ ι ν ο) (n : Nat) : List (StreamItem ο) :=
  (List.range n).filterMap fun k => (s.pollAt k).answer.item?

/-- A stream whose input is honest for as long as it is asked. -/
def Informed (s : EmissionStream σ ι ν ο) : Prop := s.ended = false → s.input.Honest

/-! ## What is due and what the hint says -/

theorem length_ready (s : EmissionStream σ ι ν ο) : s.ready.length = s.readyCount := by
  rw [ready, readyCount, List.length_append, List.length_map, List.length_map]
  cases s.error <;> rfl

/-- Behind the end, just what is ready is still to come. -/
theorem length_due_of_ended (h : s.ended = true) : s.due.length = s.readyCount := by
  rw [due, if_pos h, List.append_nil, length_ready]

/-- If no signal is left, all that may still become ready is the failure of a set-up. -/
theorem length_due_of_left_eq_nil (he : s.ended = false) (hl : s.left = []) :
    s.due.length = s.readyCount + (Processor.yields (Processor.enter s.processor)).length := by
  have direct : s.processor.directItems [] = Processor.yields (Processor.enter s.processor) :=
    List.append_nil _
  rw [due, he, hl, if_neg Bool.false_ne_true, direct, List.length_append, length_ready]

/-- An input that promises no more signals has none left. -/
theorem left_eq_nil_of_inputUpper (hs : s.Informed) (he : s.ended = false)
    (hu : s.inputUpper = some 0) : s.left = [] := by
  rw [inputUpper, he, if_neg Bool.false_ne_true] at hu
  have bound := (hs he [] s.input.script rfl List.not_mem_nil).2 0 hu
  rw [left, he, if_neg Bool.false_ne_true]
  exact List.eq_nil_of_length_eq_zero (Nat.le_zero.1 bound)

/-- A stream yields at least as much as its hint says. -/
theorem lower_sizeHint_le (s : EmissionStream σ ι ν ο) : s.sizeHint.lower ≤ s.due.length := by
  rw [due, List.length_append, length_ready]
  exact Nat.le_add_right _ _

/-- The hint is missed if the input has nothing more and a set-up still has to fail. -/
theorem sizeHint_admits_iff (hs : s.Informed) :
    s.sizeHint.Admits s.due.length ↔
      ¬ (s.ended = false ∧ s.inputUpper = some 0 ∧
        ∃ e, (Processor.enter s.processor).result = .error e) := by
  rw [SizeHint.Admits, and_iff_right s.lower_sizeHint_le, sizeHint]
  by_cases hu : s.inputUpper = some 0
  · simp only [hu, if_true, Option.some.injEq, forall_eq', true_and]
    cases he : s.ended with
    | true => simp [length_due_of_ended he]
    | false =>
        rw [length_due_of_left_eq_nil he (left_eq_nil_of_inputUpper hs he hu),
          Processor.yields_enter]
        cases (Processor.enter s.processor).result <;> simp
  · simp [hu]

/-! ## Between polls -/

theorem ended_finish (s : EmissionStream σ ι ν ο) : s.finish.stream.ended = true := by
  unfold finish
  split <;> rfl

/-- To yield what is ready touches neither the input nor the processor. -/
theorem takeReady?_keeps {answer : StreamAnswer ο} (h : s.takeReady? = some (answer, s')) :
    s'.input = s.input ∧ s'.ended = s.ended ∧ s'.processor = s.processor := by
  unfold takeReady? at h
  split at h
  · cases h
    exact ⟨rfl, rfl, rfl⟩
  · cases h
    exact ⟨rfl, rfl, rfl⟩
  · cases h

/-- A stream between two polls: its processor was entered, and its input is honest. -/
structure Underway (s : EmissionStream σ ι ν ο) : Prop where
  informed : s.Informed
  entered : s.processor.lifecycle ≠ .created

/-- Handing out what is ready leaves a stream underway. -/
theorem Underway.takeReady? (h : s.Underway) {answer : StreamAnswer ο}
    (ht : s.takeReady? = some (answer, s')) : s'.Underway := by
  obtain ⟨hi, he, hp⟩ := takeReady?_keeps ht
  exact ⟨fun hn => hi ▸ h.informed (he.symm.trans hn), hp ▸ h.entered⟩

theorem underway_finish (hp : s.processor.lifecycle ≠ .created) : s.finish.stream.Underway := by
  constructor
  · intro he
    rw [ended_finish] at he
    cases he
  · rw [(finish_eq hp).2.1]
    change s.processor.leave.state.lifecycle ≠ _
    rw [Processor.lifecycle_leave]
    exact Lifecycle.noConfusion

/-- Handling a signal leaves a stream underway. -/
theorem Underway.handled (h : s.Underway) (he : s.ended = false) {signal : Signal ι ν}
    {rest : List (InputAnswer ι ν)} (hs : s.input.script = .signal signal :: rest) :
    ((s.advanced rest).handled (Processor.handle signal s.processor)).Underway := by
  constructor
  · exact fun _ => (h.informed he).polled hs (fun hf => nomatch hf)
  · change (Processor.handle signal s.processor).state.lifecycle ≠ _
    rw [Processor.lifecycle_handle]
    exact h.entered

/-- A stream that is underway stays so while it pulls. -/
theorem Underway.pull (h : s.Underway) (he : s.ended = false) :
    (s.pull s.input.script).stream.Underway := by
  generalize hs : s.input.script = script
  induction script generalizing s with
  | nil => exact underway_finish h.entered
  | cons answer rest ih =>
      cases answer with
      | pending =>
          exact ⟨fun _ => (h.informed he).polled hs (fun hf => nomatch hf), h.entered⟩
      | finished => exact underway_finish h.entered
      | signal signal =>
          have behind := h.handled he hs
          simp only [EmissionStream.pull]
          split
          · rename_i a s' ht
            exact behind.takeReady? ht
          · exact ih behind he rfl

theorem Underway.pullInput (h : s.Underway) : s.pullInput.stream.Underway := by
  unfold EmissionStream.pullInput
  cases he : s.ended with
  | true => exact underway_finish h.entered
  | false => exact h.pull he

/-- With the first poll a stream gets underway, and it stays so. -/
theorem underway_poll (hi : s.Informed) (hp : s.ready = [] ∨ s.processor.lifecycle ≠ .created) :
    s.poll.stream.Underway := by
  have ready_or_entered : s.takeReady? ≠ none → s.Underway := by
    intro ht
    refine ⟨hi, hp.resolve_left fun hr => ht ?_⟩
    obtain ⟨hb, hn⟩ := ready_eq_nil_iff.1 hr
    simp [EmissionStream.takeReady?, hb, hn]
  unfold poll
  split
  · rename_i a s' ht
    exact (ready_or_entered (by rw [ht]; exact Option.some_ne_none _)).takeReady? ht
  · rename_i ht
    have hr := ready_eq_nil_of_takeReady? ht
    split
    · rename_i hc
      have entered : (s.handled (Processor.enter s.processor)).Underway :=
        ⟨hi, Processor.lifecycle_enter s.processor⟩
      rcases setUpAndPull_cases hr hc with ⟨-, hpoll⟩ | ⟨e, es, s', hs', -, hpoll⟩
      · rw [hpoll]
        exact entered.pullInput
      · rw [hpoll]
        exact entered.takeReady? hs'
    · rename_i hc
      exact Underway.pullInput ⟨hi, hc⟩

section Start
variable {input : Input ι ν} (honest : input.Honest) (p : Processor σ ι ν ο)
include honest

/-- A stream is underway from its first poll on. -/
theorem underway_afterPolls (n : Nat) : ((start input p).afterPolls (n + 1)).Underway := by
  induction n with
  | zero => exact underway_poll (fun _ => honest) (.inl rfl)
  | succ n ih => exact underway_poll ih.informed (.inr ih.entered)

/-- However often it is polled, a stream knows no less than its input told it. -/
theorem informed_afterPolls (n : Nat) : ((start input p).afterPolls n).Informed := by
  cases n with
  | zero => exact fun _ => honest
  | succ n => exact (underway_afterPolls honest p n).informed

/-- After any number of polls the hint is right, unless the first poll is still to come. -/
theorem sizeHint_afterPolls_admits_iff (n : Nat) :
    ((start input p).afterPolls n).sizeHint.Admits ((start input p).afterPolls n).due.length ↔
      ¬ (n = 0 ∧ (input.hint input.script).upper = some 0 ∧
        ∃ e, p.lifecycle = .created ∧ (Processor.setup p).result = .error e) := by
  rw [sizeHint_admits_iff (informed_afterPolls honest p n)]
  simp only [Processor.enter_eq_error_iff]
  cases n with
  | zero => exact not_congr (by simp [afterPolls, start, inputUpper])
  | succ n =>
      have entered := (underway_afterPolls honest p n).entered
      refine ⟨fun _ h => Nat.noConfusion h.1, fun _ => ?_⟩
      rintro ⟨-, -, e, created, -⟩
      exact entered created

end Start

/--
After any number of polls, also before the first and behind the end, polling goes on to the end, and
the items it yields until then are no fewer than the lower bound of the hint. They are no more than
its upper bound, unless the input brings nothing and the first poll has yet to set the processor up
in vain: then the hint promises that nothing is yielded, and the failure is.
-/
theorem size_hint_admits_items {input : Input ι ν} (honest : input.Honest)
    (p : Processor σ ι ν ο) (n : Nat) :
    let s := (start input p).afterPolls n
    let inVain := n = 0 ∧ (input.hint input.script).upper = some 0 ∧
      ∃ e, p.lifecycle = .created ∧ (Processor.setup p).result = .error e
    ∃ last, (∀ m, (s.pollAt m).answer = .finished ↔ last ≤ m) ∧
      s.sizeHint.lower ≤ (s.itemsBefore last).length ∧
      (s.sizeHint.Admits (s.itemsBefore last).length ↔ ¬ inVain) ∧
      (inVain → s.sizeHint = ⟨0, some 0⟩ ∧ ∃ e, s.itemsBefore last = [.error e]) := by
  intro s inVain
  have fresh : (start input p).Sound := fun h => absurd h Bool.false_ne_true
  have sound : s.Sound := sound_afterPolls fresh n
  have items : s.itemsBefore s.rank = s.due := items_eq_due sound
  refine ⟨s.rank, finished_pollAt_iff sound, ?_, ?_, ?_⟩
  · rw [items]
    exact s.lower_sizeHint_le
  · rw [items]
    exact sizeHint_afterPolls_admits_iff honest p n
  · rintro ⟨rfl, hu, e, he⟩
    have left : s.left = [] := left_eq_nil_of_inputUpper (fun _ => honest) rfl hu
    have due : s.due = Processor.yields (Processor.enter p) ++ [] := by
      change [] ++ Processor.directItems p s.left = _
      rw [left]
      rfl
    rw [items, due, Processor.yields_enter, Processor.enter_eq_error_iff.2 he]
    exact ⟨by simp [s, afterPolls, start, sizeHint, readyCount, inputUpper, hu], e, rfl⟩

/-- The user function that gives every element back, once it was set up from a state above zero. -/
def reluctant : UserFunction Nat Nat Nat Nat where
  setup n := if n = 0 then (.error (.failed "no connection"), n) else (.ok (), n)
  processElement cx n := ⟨[cx.output cx.element.value], .ok (), n⟩

/-- A processor with the reluctant user function in a state of its own. -/
def reluctantFrom (user : Nat) : Processor Nat Nat Nat Nat :=
  .initial ⟨defaultMainOutput, [], [], false⟩ reluctant user

/-- An input that pauses between a watermark and an element in two windows. -/
def pausingInput : Input Nat Nat :=
  ⟨[.pending, .signal (.watermark .zero), .pending,
      .signal (.element ⟨7, .zero, [Processor.hour, .global]⟩)],
    Input.countingHint, 0⟩

/-- An input that ends at once and says so. -/
def endedInput : Input Nat Nat := ⟨[], Input.countingHint, 0⟩

theorem size_hint_admits_items_pausingInput :
    pausingInput.Honest ∧ endedInput.Honest ∧
      -- one of two results is yielded, and the input is exhausted
      (let s := (start pausingInput (reluctantFrom 1)).afterPolls 4
      s.sizeHint = ⟨1, some 1⟩ ∧
        ∃ last, (∀ m, (s.pollAt m).answer = .finished ↔ last ≤ m) ∧
          (s.itemsBefore last).length = 1) ∧
      let s := start endedInput (reluctantFrom 0)
      s.sizeHint = ⟨0, some 0⟩ ∧
        ∃ last, (∀ m, (s.pollAt m).answer = .finished ↔ last ≤ m) ∧
          ∃ e, s.itemsBefore last = [.error e] := by
  have pausing : pausingInput.Honest := Input.honest_countingHint (by simp) 0
  have ended : endedInput.Honest := Input.honest_countingHint (by simp) 0
  refine ⟨pausing, ended, ⟨rfl, ?_⟩, rfl, ?_⟩
  · obtain ⟨last, finished, lower, admits, -⟩ :=
      size_hint_admits_items pausing (reluctantFrom 1) 4
    have upper := (admits.2 fun h => absurd h.1 (by decide)).2 1 rfl
    exact ⟨last, finished, Nat.le_antisymm upper lower⟩
  · obtain ⟨last, finished, -, -, missed⟩ := size_hint_admits_items ended (reluctantFrom 0) 0
    exact ⟨last, finished, (missed ⟨rfl, rfl, _, rfl, rfl⟩).2⟩

/-- The failure to set a processor up is yielded although the hint promises that nothing is. -/
theorem size_hint_misses_set_up :
    ¬ ∀ (input : Input Nat Nat) (p : Processor Nat Nat Nat Nat) (n last : Nat), input.Honest →
      (∀ m, (((start input p).afterPolls n).pollAt m).answer = .finished ↔ last ≤ m) →
      ((start input p).afterPolls n).sizeHint.Admits
        (((start input p).afterPolls n).itemsBefore last).length := by
  intro h
  have honest : endedInput.Honest := Input.honest_countingHint (by simp) 0
  have fresh : (start endedInput (reluctantFrom 0)).Sound := fun h => absurd h Bool.false_ne_true
  have bound := (h endedInput (reluctantFrom 0) 0 1 honest (finished_pollAt_iff fresh)).2 0 rfl
  exact absurd bound (by decide)

end EmissionStream

end EventStream
