import EventStream.Gate
import EventStream.Proofs.EffectViews

/-!
# The passage of one element

What can happen to an element at the gate, as a relation between the element,
the result and the effects. The states of the user function are left out: a
passage says which windows were handed over and how it ended, for every user
function.

## Implementation notes

The relations have one rule for each way a call can go. Facts about passages
are proved by cases on them, and the gate is opened only to show that it keeps
the rules.
-/

namespace EventStream.Gate

variable {σ ι ν ο : Type} {g : Gate σ ι ν ο} {x : WindowedValue ι}

/-- The windows of an element from some point on: what was answered and what was done. -/
inductive Visit (g : Gate σ ι ν ο) (x : WindowedValue ι) :
    List Window → Except UserError (List (WindowedValue ι)) → List (Effect ι ο) → Prop
  | done : Visit g x [] (.ok []) []
  | blocked {w ws result es} (hw : g.sideInputs.allReady w = false)
      (rest : Visit g x ws result es) :
      Visit g x (w :: ws) (result.map (x.inWindow w :: ·))
        (.note (.elementPushedBack x.timestamp w) :: es)
  | failed {w ws s e} (hw : g.sideInputs.allReady w = true)
      (he : (g.processIn (x.inWindow w) w s).result = .error e) :
      Visit g x (w :: ws) (.error e) (g.processIn (x.inWindow w) w s).effects
  | passed {w ws s result es} (hw : g.sideInputs.allReady w = true)
      (hs : (g.processIn (x.inWindow w) w s).result = .ok ())
      (rest : Visit g x ws result es) :
      Visit g x (w :: ws) result ((g.processIn (x.inWindow w) w s).effects ++ es)

/-- What the gate does in some windows is a visit of them. -/
theorem processWindows_visit (g : Gate σ ι ν ο) (x : WindowedValue ι) (ws : List Window) (s : σ) :
    Visit g x ws (g.processWindows x ws s).result (g.processWindows x ws s).effects := by
  induction ws generalizing s with
  | nil => exact Visit.done
  | cons w ws ih =>
      cases hw : g.sideInputs.allReady w with
      | false =>
          have rest := Visit.blocked hw (ih s)
          simp only [processWindows, hw, Bool.false_eq_true, if_false]
          rw [Activity.bind_of_ok rfl, Activity.report_apply]
          cases hr : (g.processWindows x ws s).result with
          | error e =>
              rw [Activity.bind_of_error hr]
              rw [hr] at rest
              exact rest
          | ok back =>
              rw [Activity.bind_of_ok hr]
              rw [hr] at rest
              simpa [Except.map] using rest
      | true =>
          simp only [processWindows, hw, if_true]
          cases hr : (g.processIn (x.inWindow w) w s).result with
          | error e =>
              rw [Activity.bind_of_error hr]
              exact Visit.failed hw hr
          | ok u =>
              rw [Activity.bind_of_ok hr]
              exact Visit.passed hw hr (ih _)

/-- The effects at the start of a passage: the bundle, and a note if there are no windows. -/
def opening (x : WindowedValue ι) : List (Effect ι ο) :=
  .call (.startBundle (.ok ())) ::
    if x.windows.isEmpty then [.note (.elementDropped x.timestamp)] else []

/-- A whole passage: the start of the bundle, the windows in order, and the end of the bundle. -/
inductive Passage (g : Gate σ ι ν ο) (x : WindowedValue ι) :
    Except UserError (List (WindowedValue ι)) → List (Effect ι ο) → Prop
  | notStarted (e) : Passage g x (.error e) [.call (.startBundle (.error e))]
  | interrupted {e es} (visit : Visit g x x.windows (.error e) es) :
      Passage g x (.error e) (opening x ++ es)
  | ended {back es} (visit : Visit g x x.windows (.ok back) es) (outcome) :
      Passage g x (outcome.map fun _ => back) (opening x ++ es ++ [.call (.finishBundle outcome)])

theorem startBundle_effects (g : Gate σ ι ν ο) (s : σ) :
    (g.startBundle s).effects = [.call (.startBundle (g.startBundle s).result)] := rfl

theorem finishBundle_effects (g : Gate σ ι ν ο) (s : σ) :
    (g.finishBundle s).effects = [.call (.finishBundle (g.finishBundle s).result)] := rfl

/-- Every element that is taken through the gate makes a passage. -/
theorem process_passage (g : Gate σ ι ν ο) (x : WindowedValue ι) (s : σ) :
    Passage g x (g.process x s).result (g.process x s).effects := by
  unfold process
  cases hs : (g.startBundle s).result with
  | error e =>
      rw [Activity.bind_of_error hs, startBundle_effects, hs]
      exact Passage.notStarted e
  | ok u =>
      rw [Activity.bind_of_ok hs, startBundle_effects, hs, Activity.report_if]
      simp only [Report.after_result, Report.after_effects]
      have visit := processWindows_visit g x x.windows (g.startBundle s).state
      cases hv : (g.processWindows x x.windows (g.startBundle s).state).result with
      | error e =>
          rw [Activity.bind_of_error hv]
          exact Passage.interrupted (hv ▸ visit)
      | ok back =>
          rw [Activity.bind_of_ok hv]
          rw [hv] at visit
          simp only [Report.after_result, Report.after_effects]
          cases hf : (g.finishBundle (g.processWindows x x.windows
              (g.startBundle s).state).state).result with
          | error e =>
              rw [Activity.bind_of_error hf, finishBundle_effects, hf]
              simpa [opening, Except.map] using Passage.ended visit (.error e)
          | ok u =>
              rw [Activity.bind_of_ok hf, finishBundle_effects, hf]
              simpa [opening, Except.map] using Passage.ended visit (.ok ())

/-! ## One call of the user function -/

/-- What the user function makes of an element in a window. -/
def attempt (g : Gate σ ι ν ο) (y : WindowedValue ι) (w : Window) (s : σ) : Attempt σ ο :=
  g.function.processElement ⟨y, w, g.sideInputs⟩ s

/-- A data item that the call for one of the windows of an element asked for. -/
def Requested (r : Router) (x : WindowedValue ι) (i : Invocation ι ο)
    (item : Channel × WindowedValue ο) : Prop :=
  ∃ w ∈ x.windows, ∃ requests outcome, i = .processElement (x.inWindow w) w requests outcome ∧
    ∃ q ∈ requests, item = (r.channel q.tag, q.value)

section ProcessIn
variable (g : Gate σ ι ν ο) (y : WindowedValue ι) (w : Window) (s : σ)

theorem processIn_effects :
    (g.processIn y w s).effects =
      .call (.processElement y w (g.attempt y w s).requests (g.attempt y w s).outcome) ::
        (g.attempt y w s).requests.flatMap g.router.route := rfl

theorem invocations_processIn :
    Effect.invocations (g.processIn y w s).effects =
      [.processElement y w (g.attempt y w s).requests (g.attempt y w s).outcome] :=
  congrArg (List.cons _) (g.router.invocations_routeAll _)

theorem emissions_processIn :
    Effect.emissions (g.processIn y w s).effects =
      (g.attempt y w s).requests.map fun q => (g.router.channel q.tag, .data q.value) :=
  g.router.emissions_routeAll _

@[simp] theorem handedOver_processIn :
    Effect.handedOver (g.processIn y w s).effects = [(y, w)] := by
  rw [Effect.handedOver, invocations_processIn]
  rfl

@[simp] theorem failures_processIn :
    Effect.failures (g.processIn y w s).effects =
      UserError.ofResult (g.processIn y w s).result := by
  rw [Effect.failures, invocations_processIn]
  change _ = UserError.ofResult (g.attempt y w s).outcome
  cases (g.attempt y w s).outcome <;> rfl

@[simp] theorem dataItems_processIn :
    Effect.dataItems (g.processIn y w s).effects =
      (g.attempt y w s).requests.map fun q => (g.router.channel q.tag, q.value) := by
  rw [Effect.dataItems, emissions_processIn, List.filterMap_map]
  exact congrFun List.filterMap_eq_map _

@[simp] theorem watermarks_processIn : Effect.watermarks (g.processIn y w s).effects = [] := by
  rw [Effect.watermarks, emissions_processIn, List.filterMap_map]
  exact List.filterMap_eq_nil_iff.2 fun _ _ => rfl

end ProcessIn

/-- What goes out for each call of the user function, whatever its state is. -/
def Yields (g : Gate σ ι ν ο)
    (items : WindowedValue ι × Window → List (Channel × WindowedValue ο)) : Prop :=
  ∀ y w s, Effect.dataItems (g.processIn y w s).effects = items (y, w)

/-- What is emitted in a window was requested there. -/
theorem attributed_processIn {w : Window} (hw : w ∈ x.windows) (s : σ) :
    Effect.Attributed (Requested g.router x) (g.processIn (x.inWindow w) w s).effects := by
  rw [processIn_effects]
  apply Effect.attributed_call (g.router.invocations_routeAll _)
  intro item hi
  have hd : item ∈ Effect.dataItems (g.processIn (x.inWindow w) w s).effects := hi
  rw [dataItems_processIn] at hd
  obtain ⟨q, hq, rfl⟩ := List.mem_map.1 hd
  exact ⟨w, hw, _, _, rfl, q, hq, rfl⟩

/-! ## What a passage comes to -/

/-- The windows of an element that are ready, as they are handed to the user function. -/
def readyCalls (g : Gate σ ι ν ο) (x : WindowedValue ι) (ws : List Window) :
    List (WindowedValue ι × Window) :=
  (ws.filter g.sideInputs.allReady).map fun w => (x.inWindow w, w)

/-- The windows of an element that are not ready, as elements of their own. -/
def blockedPart (g : Gate σ ι ν ο) (x : WindowedValue ι) (ws : List Window) :
    List (WindowedValue ι) :=
  (ws.filter fun w => !g.sideInputs.allReady w).map x.inWindow

/-- An element that waits is the original one in one of its windows. -/
theorem mem_blockedPart {ws : List Window} {y : WindowedValue ι} (h : y ∈ g.blockedPart x ws) :
    ∃ w ∈ ws, y = x.inWindow w := by
  obtain ⟨w, hw, rfl⟩ := List.mem_map.1 h
  exact ⟨w, (List.mem_filter.1 hw).1, rfl⟩

namespace Visit

/-- A visit fails with what it failed with, and with nothing else. -/
theorem failures_eq {ws result es} (v : Visit g x ws result es) :
    Effect.failures es = UserError.ofResult result := by
  induction v with
  | done => rfl
  | @blocked w ws result es hw rest ih =>
      rw [Effect.failures_note, ih]
      cases result <;> rfl
  | failed hw he =>
      rw [failures_processIn, he]
      rfl
  | passed hw hs rest ih =>
      rw [Effect.failures_append, failures_processIn, hs, ih]
      rfl

/-- A visit goes through the windows that are ready, in order, as far as it gets. -/
theorem prefix_readyCalls {ws result es} (v : Visit g x ws result es) :
    Effect.handedOver es <+: g.readyCalls x ws := by
  induction v with
  | done => exact List.prefix_rfl
  | blocked hw rest ih => simpa [readyCalls, hw] using ih
  | failed hw he => simp [readyCalls, hw]
  | passed hw hs rest ih =>
      rw [Effect.handedOver_append, handedOver_processIn]
      simpa [readyCalls, hw] using ih

/-- A visit that succeeds has handed over all that was ready and gives back all that waits. -/
theorem of_ok {ws result es} (v : Visit g x ws result es) :
    ∀ back, result = .ok back →
      back = g.blockedPart x ws ∧ Effect.handedOver es = g.readyCalls x ws := by
  induction v with
  | done =>
      intro back hb
      cases hb
      exact ⟨rfl, rfl⟩
  | @blocked w ws result es hw rest ih =>
      intro back hb
      cases result with
      | error e => cases hb
      | ok tail =>
          cases hb
          obtain ⟨rfl, hh⟩ := ih tail rfl
          constructor
          · simp [blockedPart, hw]
          · simpa [readyCalls, hw] using hh
  | failed hw he =>
      intro back hb
      cases hb
  | passed hw hs rest ih =>
      intro back hb
      obtain ⟨rfl, hh⟩ := ih back hb
      constructor
      · simp [blockedPart, hw]
      · rw [Effect.handedOver_append, handedOver_processIn, hh]
        simp [readyCalls, hw]

/-- No watermark is emitted during a visit. -/
theorem watermarks_eq {ws result es} (v : Visit g x ws result es) : Effect.watermarks es = [] := by
  induction v with
  | done => rfl
  | blocked hw rest ih => exact ih
  | failed hw he => exact watermarks_processIn ..
  | passed hw hs rest ih => rw [Effect.watermarks_append, watermarks_processIn, ih]; rfl

/-- All that is emitted during a visit was requested in one of the windows of the element. -/
theorem attributed {ws result es} (v : Visit g x ws result es) (hx : ws ⊆ x.windows) :
    Effect.Attributed (Requested g.router x) es := by
  induction v with
  | done => exact Effect.attributed_of_dataItems_eq_nil rfl
  | blocked hw rest ih =>
      have ih := ih (List.subset_of_cons_subset hx)
      exact (Effect.attributed_of_dataItems_eq_nil rfl : Effect.Attributed _ [_]).append ih
  | failed hw he => exact attributed_processIn (hx List.mem_cons_self) _
  | passed hw hs rest ih =>
      exact (attributed_processIn (hx List.mem_cons_self) _).append
        (ih (List.subset_of_cons_subset hx))

/-- Where results do not depend on the user state, the calls made tell what goes out. -/
theorem dataItems_eq {items : WindowedValue ι × Window → List (Channel × WindowedValue ο)}
    (hi : g.Yields items) {ws result es} (v : Visit g x ws result es) :
    Effect.dataItems es = (Effect.handedOver es).flatMap items := by
  induction v with
  | done => rfl
  | blocked hw rest ih => exact ih
  | failed hw he => rw [hi, handedOver_processIn, List.flatMap_singleton]
  | passed hw hs rest ih =>
      rw [Effect.dataItems_append, Effect.handedOver_append, List.flatMap_append, hi,
        handedOver_processIn, List.flatMap_singleton, ih]

end Visit

theorem silent_dropNote (x : WindowedValue ι) :
    Effect.Silent (if x.windows.isEmpty then [.note (.elementDropped x.timestamp)] else [] :
      List (Effect ι ο)) := by
  split
  · exact Effect.silent_notes [_]
  · exact Effect.silent_notes []

@[simp] theorem handedOver_opening (x : WindowedValue ι) :
    Effect.handedOver (opening x : List (Effect ι ο)) = [] :=
  (silent_dropNote x).handedOver_eq

@[simp] theorem failures_opening (x : WindowedValue ι) :
    Effect.failures (opening x : List (Effect ι ο)) = [] :=
  (silent_dropNote x).failures_eq

@[simp] theorem dataItems_opening (x : WindowedValue ι) :
    Effect.dataItems (opening x : List (Effect ι ο)) = [] :=
  (silent_dropNote x).dataItems_eq

@[simp] theorem watermarks_opening (x : WindowedValue ι) :
    Effect.watermarks (opening x : List (Effect ι ο)) = [] :=
  (silent_dropNote x).watermarks_eq

namespace Passage

variable {result : Except UserError (List (WindowedValue ι))} {back : List (WindowedValue ι)}
  {es : List (Effect ι ο)}

/-- A passage fails exactly if one of its calls of the user function does, with that failure. -/
theorem failures_eq (a : Passage g x result es) :
    Effect.failures es = UserError.ofResult result := by
  cases a with
  | notStarted e => rfl
  | interrupted v => rw [Effect.failures_append, failures_opening, v.failures_eq]; rfl
  | ended v outcome =>
      rw [Effect.failures_append, Effect.failures_append, failures_opening, v.failures_eq]
      cases outcome <;> rfl

/-- A passage hands over what is ready, in order, as far as it gets. -/
theorem prefix_readyCalls (a : Passage g x result es) :
    Effect.handedOver es <+: g.readyCalls x x.windows := by
  cases a with
  | notStarted e => exact List.nil_prefix
  | interrupted v => simpa using v.prefix_readyCalls
  | ended v outcome => simpa using v.prefix_readyCalls

/-- A passage that succeeds hands over every ready window and answers the others. -/
theorem of_ok (a : Passage g x result es) (h : result = .ok back) :
    back = g.blockedPart x x.windows ∧ Effect.handedOver es = g.readyCalls x x.windows := by
  cases a with
  | notStarted e => cases h
  | interrupted v => cases h
  | ended v outcome =>
      cases outcome with
      | error e => cases h
      | ok u =>
          cases h
          simpa using v.of_ok _ rfl

theorem dataItems_eq {items : WindowedValue ι × Window → List (Channel × WindowedValue ο)}
    (hi : g.Yields items) (a : Passage g x result es) :
    Effect.dataItems es = (Effect.handedOver es).flatMap items := by
  cases a with
  | notStarted e => rfl
  | interrupted v => simp [v.dataItems_eq hi]
  | ended v outcome => simp [v.dataItems_eq hi]

/-- No watermark is emitted during a passage. -/
theorem watermarks_eq (a : Passage g x result es) : Effect.watermarks es = [] := by
  cases a with
  | notStarted e => rfl
  | interrupted v => simp [v.watermarks_eq]
  | ended v outcome => simp [v.watermarks_eq]

/-- All that is emitted during a passage was requested by a call of it. -/
theorem attributed (a : Passage g x result es) :
    Effect.Attributed (Requested g.router x) es := by
  have closed (i : Invocation ι ο) : Effect.Attributed (Requested g.router x) [.call i] :=
    Effect.attributed_of_dataItems_eq_nil rfl
  have opened : Effect.Attributed (ο := ο) (Requested g.router x) (opening x) :=
    Effect.attributed_of_dataItems_eq_nil (dataItems_opening x)
  cases a with
  | notStarted e => exact closed _
  | interrupted v => exact opened.append (v.attributed (List.Subset.refl _))
  | ended v outcome => exact (opened.append (v.attributed (List.Subset.refl _))).append (closed _)

end Passage

/-! ## The passage with its failures recorded -/

/-- Recording an assertion changes neither the result nor the effects of a passage. -/
theorem tryProcess_eq (g : Gate σ ι ν ο) (x : WindowedValue ι) (t : σ × AssertionSlot) :
    (g.tryProcess x t).result = (g.process x t.1).result.mapError .userCode ∧
      (g.tryProcess x t).effects = (g.process x t.1).effects := by
  obtain ⟨s, slot⟩ := t
  simp only [tryProcess]
  cases g.process x s with
  | mk result s' es => cases result <;> exact ⟨rfl, rfl⟩

/-- What a trial of an element can come to: a passage, with its failure seen from outside. -/
def Trial (g : Gate σ ι ν ο) (x : WindowedValue ι)
    (result : Except ProcessingError (List (WindowedValue ι))) (es : List (Effect ι ο)) : Prop :=
  ∃ inner, result = inner.mapError .userCode ∧ Passage g x inner es

/-- A trial of an element is a passage whose failure is one of user code. -/
theorem tryProcess_trial (g : Gate σ ι ν ο) (x : WindowedValue ι) (t : σ × AssertionSlot) :
    Trial g x (g.tryProcess x t).result (g.tryProcess x t).effects := by
  obtain ⟨hr, he⟩ := tryProcess_eq g x t
  rw [hr, he]
  exact ⟨_, rfl, process_passage g x t.1⟩

namespace Trial

variable {back : List (WindowedValue ι)} {e : ProcessingError} {es : List (Effect ι ο)}

theorem prefix_readyCalls {result : Except ProcessingError (List (WindowedValue ι))}
    (h : Trial g x result es) : Effect.handedOver es <+: g.readyCalls x x.windows := by
  obtain ⟨inner, -, a⟩ := h
  exact a.prefix_readyCalls

theorem of_ok (h : Trial g x (.ok back) es) : Passage g x (.ok back) es := by
  obtain ⟨inner, hi, a⟩ := h
  cases inner with
  | error u => cases hi
  | ok b =>
      cases hi
      exact a

/-- A trial that fails is a passage that failed in user code. -/
theorem of_error (h : Trial g x (.error e) es) :
    ∃ u, e = .userCode u ∧ Passage g x (.error u) es := by
  obtain ⟨inner, hi, a⟩ := h
  cases inner with
  | ok b => cases hi
  | error u =>
      cases hi
      exact ⟨u, rfl, a⟩

end Trial

end EventStream.Gate
