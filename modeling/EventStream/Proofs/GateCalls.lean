import EventStream.Proofs.Readiness

/-!
# The calls of one passage

What the gate asks of the user function for one element can be written down
before the first call: a start, one call for each window that is ready, in the
order of the windows, and an end. The calls are made one after another, each in
the state that the one before it left, up to the first that fails.

## Implementation notes

The gate logs and emits besides calling the user function. Seen without that, it
is the plan and nothing else, and the plan is compared with it as a whole. That
comparison rewrites calls in sequence, so it needs their monad laws.
-/

namespace EventStream

variable {σ ι ν ο : Type}

/-! ## Calls in sequence -/

namespace Activity

variable {η ε α β : Type}

instance : LawfulMonad (Activity σ η ε) := LawfulMonad.mk' _
  (fun x => by
    funext s
    change (x >>= Pure.pure) s = x s
    rw [bind_apply]
    cases x s with
    | mk result s' es => cases result <;> simp [Report.after])
  (fun _ _ => rfl)
  (fun x f g => by
    funext s
    simp only [bind_apply]
    cases x s with
    | mk result s' es =>
        cases result with
        | error e => rfl
        | ok a =>
            simp only [Report.after]
            cases f a s' with
            | mk result s'' es' => cases result <;> simp)

/-- The same activity with only the calls of the user function as its effects. -/
def calls (x : Activity σ (Effect ι ο) ε α) : Activity σ (Invocation ι ο) ε α := fun s =>
  ⟨(x s).result, (x s).state, Effect.invocations (x s).effects⟩

theorem calls_pure (a : α) :
    (Pure.pure a : Activity σ (Effect ι ο) ε α).calls = Pure.pure a := rfl

/-- The calls of two activities in turn are the calls of each in turn. -/
theorem calls_bind (x : Activity σ (Effect ι ο) ε α) (f : α → Activity σ (Effect ι ο) ε β) :
    (x >>= f).calls = x.calls >>= fun a => (f a).calls := by
  funext s
  simp only [calls, bind_apply]
  cases x s with
  | mk result s' es => cases result <;> simp [Report.after]

/-- Logging is no call. -/
theorem calls_note (notice : Notice) :
    (report [.note notice] : Activity σ (Effect ι ο) ε Unit).calls = Pure.pure () := rfl

end Activity

/-! ## Plans -/

/-- A call of the user function that is to be made. -/
inductive Callback (ι : Type) where
  | startBundle
  | processElement (element : WindowedValue ι) (window : Window)
  | finishBundle

/-- What a call that was made was to be, unless it is no call for an element. -/
def Invocation.callback? : Invocation ι ο → Option (Callback ι)
  | startBundle _ => some .startBundle
  | processElement element window _ _ => some (.processElement element window)
  | finishBundle _ => some .finishBundle
  | _ => none

namespace UserFunction

/-- Makes a call and reports it with what came of it. -/
def make (f : UserFunction σ ι ν ο) (sideInputs : SideInputs ν) :
    Callback ι → Activity σ (Invocation ι ο) UserError Unit
  | .startBundle => fun s => ⟨(f.startBundle s).1, (f.startBundle s).2,
      [.startBundle (f.startBundle s).1]⟩
  | .processElement element window => fun s =>
      let attempt := f.processElement ⟨element, window, sideInputs⟩ s
      ⟨attempt.outcome, attempt.state,
        [.processElement element window attempt.requests attempt.outcome]⟩
  | .finishBundle => fun s => ⟨(f.finishBundle s).1, (f.finishBundle s).2,
      [.finishBundle (f.finishBundle s).1]⟩

/-- Makes calls one after another, up to the first that fails. -/
def makeAll (f : UserFunction σ ι ν ο) (sideInputs : SideInputs ν) :
    List (Callback ι) → Activity σ (Invocation ι ο) UserError Unit
  | [] => return ()
  | c :: rest => do
    f.make sideInputs c
    f.makeAll sideInputs rest

variable {f : UserFunction σ ι ν ο} {sideInputs : SideInputs ν} {plan : List (Callback ι)}
  {s : σ} {e : UserError}

/-- A plan in two parts is run by running its parts in turn. -/
theorem makeAll_append (xs ys : List (Callback ι)) :
    f.makeAll sideInputs (xs ++ ys) =
      (f.makeAll sideInputs xs >>= fun _ => f.makeAll sideInputs ys) := by
  induction xs with
  | nil => rw [List.nil_append, makeAll, pure_bind]
  | cons c xs ih => rw [List.cons_append, makeAll, ih, makeAll, bind_assoc]

/-- A call that is made is reported as the one it was to be, with its outcome. -/
theorem effects_make (f : UserFunction σ ι ν ο) (sideInputs : SideInputs ν) (c : Callback ι)
    (s : σ) :
    ∃ i, (f.make sideInputs c s).effects = [i] ∧ i.callback? = some c ∧
      i.error? = (match (f.make sideInputs c s).result with
        | .ok _ => none
        | .error e => some e) := by
  cases c with
  | startBundle =>
      refine ⟨_, rfl, rfl, ?_⟩
      simp only [make]
      cases (f.startBundle s).1 <;> rfl
  | processElement element window =>
      refine ⟨_, rfl, rfl, ?_⟩
      simp only [make]
      cases (f.processElement ⟨element, window, sideInputs⟩ s).outcome <;> rfl
  | finishBundle =>
      refine ⟨_, rfl, rfl, ?_⟩
      simp only [make]
      cases (f.finishBundle s).1 <;> rfl

/-- If no call fails, all that were planned are made. -/
theorem effects_makeAll_of_ok (h : (f.makeAll sideInputs plan s).result = .ok ()) :
    (f.makeAll sideInputs plan s).effects.map Invocation.callback? = plan.map some ∧
      ∀ i ∈ (f.makeAll sideInputs plan s).effects, i.error? = none := by
  induction plan generalizing s with
  | nil => exact ⟨rfl, fun i hi => (nomatch hi)⟩
  | cons c rest ih =>
      obtain ⟨i, hi, planned, outcome⟩ := effects_make f sideInputs c s
      rw [makeAll] at h ⊢
      cases hc : (f.make sideInputs c s).result with
      | error e =>
          rw [Activity.bind_of_error hc] at h
          cases h
      | ok u =>
          rw [Activity.bind_of_ok hc] at h ⊢
          obtain ⟨made, succeed⟩ := ih h
          rw [hc] at outcome
          rw [Report.after_effects, hi]
          constructor
          · rw [List.map_append, made]
            simp [planned]
          · exact List.forall_mem_cons.2 ⟨outcome, succeed⟩

/-- The first call that fails is the last that is made. -/
theorem effects_makeAll_of_error (h : (f.makeAll sideInputs plan s).result = .error e) :
    ∃ before last, (f.makeAll sideInputs plan s).effects = before ++ [last] ∧
      last.error? = some e ∧ (∀ i ∈ before, i.error? = none) ∧
      (before ++ [last]).map Invocation.callback? <+: plan.map some := by
  induction plan generalizing s with
  | nil => cases h
  | cons c rest ih =>
      obtain ⟨i, hi, planned, outcome⟩ := effects_make f sideInputs c s
      rw [makeAll] at h ⊢
      cases hc : (f.make sideInputs c s).result with
      | error u =>
          rw [Activity.bind_of_error hc] at h ⊢
          cases h
          rw [hc] at outcome
          refine ⟨[], i, hi, outcome, fun j hj => (nomatch hj), ?_⟩
          simp [planned]
      | ok u =>
          rw [Activity.bind_of_ok hc] at h ⊢
          obtain ⟨before, last, made, failed, succeed, start⟩ := ih h
          rw [hc] at outcome
          refine ⟨i :: before, last, ?_, failed, List.forall_mem_cons.2 ⟨outcome, succeed⟩, ?_⟩
          · rw [Report.after_effects, hi, made]
            rfl
          · simpa [planned] using start

end UserFunction

/-- Every side input has a value in the window that its mapping leads to from a window. -/
def SideInputs.Serves (s : SideInputs ν) (w : Window) : Prop :=
  ∀ e ∈ s.specs.zipIdx, (s.lookup (e.2, e.1.mapping.map w)).isSome = true

instance (s : SideInputs ν) (w : Window) : Decidable (s.Serves w) :=
  inferInstanceAs (Decidable (∀ e ∈ s.specs.zipIdx, _))

/-- The check of the gate decides whether every side input serves the window. -/
theorem SideInputs.allReady_eq_decide (s : SideInputs ν) (w : Window) :
    s.allReady w = decide (s.Serves w) := by
  rw [Bool.eq_iff_iff, decide_eq_true_iff]
  exact allReady_iff_lookup

namespace Gate

variable (g : Gate σ ι ν ο) (x : WindowedValue ι)

/-- The calls planned for those of some windows that are ready, in their order. -/
def planned (ws : List Window) : List (Callback ι) :=
  (ws.filter fun w => decide (g.sideInputs.Serves w)).map fun w =>
    .processElement ⟨x.value, x.timestamp, [w]⟩ w

/-- The calls planned for an element: one bundle with a call for each window that is ready. -/
def plan : List (Callback ι) := .startBundle :: (g.planned x x.windows ++ [.finishBundle])

/-- The windows of an element that are not ready, in their order, as elements of their own. -/
def waiting : List (WindowedValue ι) :=
  (x.windows.filter fun w => ¬ g.sideInputs.Serves w).map fun w => ⟨x.value, x.timestamp, [w]⟩

variable {g x}

/-- The copies given back are those of the windows still waited for. -/
theorem blockedPart_eq_waiting : g.blockedPart x x.windows = g.waiting x := by
  simp only [blockedPart, waiting, SideInputs.allReady_eq_decide, decide_not]
  rfl

/-- A call that is planned finds every side input. -/
theorem of_mem_planned {ws : List Window} {y : WindowedValue ι} {w : Window}
    (h : .processElement y w ∈ g.planned x ws) :
    w ∈ ws ∧ y = ⟨x.value, x.timestamp, [w]⟩ ∧ g.sideInputs.Serves w := by
  obtain ⟨w', hw, he⟩ := List.mem_map.1 h
  obtain ⟨hm, hs⟩ := List.mem_filter.1 hw
  cases he
  exact ⟨hm, rfl, of_decide_eq_true hs⟩

/-! ## The gate keeps to the plan -/

theorem calls_startBundle : g.startBundle.calls = g.function.make g.sideInputs .startBundle := rfl

theorem calls_finishBundle :
    g.finishBundle.calls = g.function.make g.sideInputs .finishBundle := rfl

theorem calls_processIn (y : WindowedValue ι) (w : Window) :
    (g.processIn y w).calls = g.function.make g.sideInputs (.processElement y w) := by
  funext s
  simp only [Activity.calls, invocations_processIn]
  rfl

/-- The calls for windows are the ones planned for them, and the others are given back. -/
theorem calls_processWindows (ws : List Window) :
    (g.processWindows x ws).calls = (do
      g.function.makeAll g.sideInputs (g.planned x ws)
      return g.blockedPart x ws) := by
  induction ws with
  | nil => rfl
  | cons w ws ih =>
      by_cases hw : g.sideInputs.Serves w
      · have ready : g.sideInputs.allReady w = true := by
          rw [SideInputs.allReady_eq_decide, decide_eq_true hw]
        have first : g.planned x (w :: ws) =
            .processElement (x.inWindow w) w :: g.planned x ws := by
          simp [planned, hw, WindowedValue.inWindow, WindowedValue.of]
        have back : g.blockedPart x (w :: ws) = g.blockedPart x ws := by
          simp [blockedPart, ready]
        rw [first, back, processWindows, if_pos ready, Activity.calls_bind, calls_processIn, ih,
          UserFunction.makeAll, bind_assoc]
      · have blocked : ¬ g.sideInputs.allReady w = true := by
          rw [SideInputs.allReady_eq_decide, decide_eq_true_iff]
          exact hw
        have none : g.planned x (w :: ws) = g.planned x ws := by
          simp [planned, hw]
        have back : g.blockedPart x (w :: ws) = x.inWindow w :: g.blockedPart x ws := by
          simp [blockedPart, blocked]
        rw [none, back, processWindows, if_neg blocked, Activity.calls_bind, Activity.calls_note,
          pure_bind, Activity.calls_bind, ih, bind_assoc]
        rfl

/-- Seen without its log entries and emissions, the gate makes the calls of its plan. -/
theorem calls_process :
    (g.process x).calls = (do
      g.function.makeAll g.sideInputs (g.plan x)
      return g.blockedPart x x.windows) := by
  -- The bundle behind its start; the note on an element without windows is no call.
  have opened : (do
      let back ← g.processWindows x x.windows
      g.finishBundle
      return back : Activity σ (Effect ι ο) UserError (List (WindowedValue ι))).calls = (do
        g.function.makeAll g.sideInputs (g.planned x x.windows ++ [.finishBundle])
        return g.blockedPart x x.windows) := by
    calc
      _ = (do
          g.function.makeAll g.sideInputs (g.planned x x.windows)
          g.function.make g.sideInputs .finishBundle
          return g.blockedPart x x.windows) := by
        rw [Activity.calls_bind, calls_processWindows, bind_assoc, ← calls_finishBundle]
        simp only [pure_bind, Activity.calls_bind, Activity.calls_pure]
      _ = _ := by
        rw [UserFunction.makeAll_append, bind_assoc]
        simp only [UserFunction.makeAll, bind_assoc, pure_bind]
  calc
    (g.process x).calls = (do
        g.function.make g.sideInputs .startBundle
        g.function.makeAll g.sideInputs (g.planned x x.windows ++ [.finishBundle])
        return g.blockedPart x x.windows) := by
      rw [← opened, process, Activity.calls_bind, calls_startBundle]
      refine congrArg _ (funext fun _ => ?_)
      split
      · rw [Activity.calls_bind, Activity.calls_note]
        rfl
      · rfl
    _ = _ := by rw [plan, UserFunction.makeAll, bind_assoc]

/-- Beside the slot, a trial leaves what the gate leaves. -/
theorem state_tryProcess (g : Gate σ ι ν ο) (x : WindowedValue ι) (t : σ × AssertionSlot) :
    (g.tryProcess x t).state.1 = (g.process x t.1).state := by
  obtain ⟨s, slot⟩ := t
  simp only [tryProcess]
  cases g.process x s with
  | mk result s' es => cases result <;> rfl

/-- What the calls of the plan come to is what a trial of the element comes to. -/
theorem tryProcess_makeAll (g : Gate σ ι ν ο) (x : WindowedValue ι) (t : σ × AssertionSlot) :
    Effect.invocations (g.tryProcess x t).effects =
        (g.function.makeAll g.sideInputs (g.plan x) t.1).effects ∧
      (g.tryProcess x t).state.1 = (g.function.makeAll g.sideInputs (g.plan x) t.1).state ∧
      (g.tryProcess x t).result =
        (match (g.function.makeAll g.sideInputs (g.plan x) t.1).result with
        | .ok () => .ok (g.waiting x)
        | .error u => .error (.userCode u)) := by
  obtain ⟨result, effects⟩ := tryProcess_eq g x t
  have whole := congrFun (calls_process (g := g) (x := x)) t.1
  rw [result, effects, state_tryProcess, ← blockedPart_eq_waiting]
  cases hm : (g.function.makeAll g.sideInputs (g.plan x) t.1).result with
  | error u =>
      rw [Activity.bind_of_error hm] at whole
      exact ⟨congrArg Report.effects whole, congrArg Report.state whole,
        congrArg (Except.mapError ProcessingError.userCode) (congrArg Report.result whole)⟩
  | ok u =>
      rw [Activity.bind_of_ok hm] at whole
      refine ⟨?_, congrArg Report.state whole,
        congrArg (Except.mapError ProcessingError.userCode) (congrArg Report.result whole)⟩
      have made := congrArg Report.effects whole
      rw [Report.after_effects] at made
      exact made.trans (List.append_nil _)

/-- A trial that succeeds is one whose calls all succeed. -/
theorem makeAll_of_tryProcess_ok {t : σ × AssertionSlot} {back : List (WindowedValue ι)}
    (h : (g.tryProcess x t).result = .ok back) :
    (g.function.makeAll g.sideInputs (g.plan x) t.1).result = .ok () ∧ back = g.waiting x := by
  rw [(tryProcess_makeAll g x t).2.2] at h
  split at h
  · rename_i hm
    cases h
    exact ⟨hm, rfl⟩
  · cases h

/-- A trial that fails does so with the failure of one of its calls. -/
theorem makeAll_of_tryProcess_error {t : σ × AssertionSlot} {e : ProcessingError}
    (h : (g.tryProcess x t).result = .error e) :
    ∃ u, (g.function.makeAll g.sideInputs (g.plan x) t.1).result = .error u ∧
      e = .userCode u := by
  rw [(tryProcess_makeAll g x t).2.2] at h
  split at h
  · cases h
  · rename_i u hm
    cases h
    exact ⟨u, hm, rfl⟩

/--
One trial of an element. The calls of the user function are those of its plan, each in the state
that the one before it left: the start of a bundle, a call for each window for which all side inputs
have a value, in order and with the element in that window alone, and the end of the bundle. They
stop at the first that fails. If none fails, the other windows are given back, in order and as
elements of their own; if one fails, its error is all that is given back. Every call for an element
finds all side inputs, an element without windows makes a bundle of its own and is gone, and nothing
of a processor but the user state and the slot changes.
-/
theorem one_trial_exact (g : Gate σ ι ν ο) (x : WindowedValue ι) (s : σ) (slot : AssertionSlot) :
    let r := g.tryProcess x (s, slot)
    let calls := Effect.invocations r.effects
    let made := g.function.makeAll g.sideInputs (g.plan x) s
    (calls = made.effects ∧ r.state.1 = made.state ∧
      r.result = (match made.result with
        | .ok () => .ok (g.waiting x)
        | .error u => .error (.userCode u))) ∧
    (∀ back, r.result = .ok back → back = g.waiting x ∧
      calls.map Invocation.callback? = (g.plan x).map some ∧ ∀ i ∈ calls, i.error? = none) ∧
    (∀ e, r.result = .error e → ∃ before last u, calls = before ++ [last] ∧
      last.error? = some u ∧ e = .userCode u ∧ (∀ i ∈ before, i.error? = none) ∧
      calls.map Invocation.callback? <+: (g.plan x).map some) ∧
    (∀ y w, .processElement y w ∈ g.plan x → y = ⟨x.value, x.timestamp, [w]⟩ ∧
      ∀ i < g.sideInputs.count,
        ((⟨y, w, g.sideInputs⟩ : Context ι ν).sideInput i).isSome = true) ∧
    (x.windows = [] → g.plan x = [.startBundle, .finishBundle] ∧ g.waiting x = []) ∧
    ∀ p : Processor σ ι ν ο, ∃ user slot', (Processor.passGate x p).state =
      { p with user := user, slot := slot' } := by
  intro r calls made
  have same : calls = made.effects := (tryProcess_makeAll g x (s, slot)).1
  refine ⟨tryProcess_makeAll g x (s, slot), fun back hb => ?_, fun e he => ?_, fun y w hy => ?_,
    fun hn => ?_, fun p => ⟨_, _, rfl⟩⟩
  · obtain ⟨hm, hback⟩ := makeAll_of_tryProcess_ok hb
    rw [same]
    exact ⟨hback, UserFunction.effects_makeAll_of_ok hm⟩
  · obtain ⟨u, hm, heu⟩ := makeAll_of_tryProcess_error he
    obtain ⟨before, last, cut, failed, succeed, start⟩ := UserFunction.effects_makeAll_of_error hm
    rw [same]
    exact ⟨before, last, u, cut, failed, heu, succeed, cut ▸ start⟩
  · have planned : .processElement y w ∈ g.planned x x.windows := by
      simpa [plan] using hy
    obtain ⟨-, hyw, serves⟩ := of_mem_planned planned
    exact ⟨hyw, SideInputs.allReady_iff.1 (SideInputs.allReady_iff_lookup.2 serves)⟩
  · simp [plan, planned, waiting, hn]

open Processor (hour twoSideInputs)

/-- Fails on every third element it is given. -/
def everyThird : UserFunction Nat Nat Nat Nat where
  processElement _ n := ⟨[], if n % 3 = 2 then .error (.failed "tired") else .ok (), n + 1⟩

/-- A gate whose side inputs have values for the first hour, but not for all of event time. -/
def hourGate : Gate Nat Nat Nat Nat :=
  ⟨everyThird, ((SideInputs.empty twoSideInputs.sideInputs).write (0, hour) 7).write (1, .global) 8,
    .ofConfig twoSideInputs⟩

theorem one_trial_exact_hourGate :
    let x : WindowedValue Nat := ⟨5, .zero, [hour, .global, hour]⟩
    let single : WindowedValue Nat := ⟨5, .zero, [hour]⟩
    hourGate.plan x = [.startBundle, .processElement single hour, .processElement single hour,
        .finishBundle] ∧
      (hourGate.tryProcess x (0, none)).result = .ok [⟨5, .zero, [.global]⟩] ∧
      (Effect.invocations (hourGate.tryProcess x (0, none)).effects).map Invocation.callback? =
        (hourGate.plan x).map some ∧
      Effect.invocations (hourGate.tryProcess x (1, none)).effects =
        [.startBundle (.ok ()), .processElement single hour [] (.ok ()),
          .processElement single hour [] (.error (.failed "tired"))] ∧
      (hourGate.tryProcess x (1, none)).result = .error (.userCode (.failed "tired")) := by
  intro x single
  have given : (hourGate.tryProcess x (0, none)).result = .ok [⟨5, .zero, [.global]⟩] := rfl
  obtain ⟨-, passed, -⟩ := one_trial_exact hourGate x 0 none
  obtain ⟨⟨calls, -, result⟩, -⟩ := one_trial_exact hourGate x 1 none
  exact ⟨rfl, given, (passed _ given).2.1, calls, result⟩

end Gate

end EventStream
