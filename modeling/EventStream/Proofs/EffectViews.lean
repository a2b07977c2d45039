import EventStream.Router

/-!
# Views of effects

What a call did is one list of effects. The views below read off it which
elements the user function was given, which of its calls failed, and which data
and watermarks went out. Each view keeps the order of the effects.
-/

namespace EventStream

variable {ι ο : Type}

namespace Invocation

/-- The element and the window that a call of the user function was about. -/
def handed? : Invocation ι ο → Option (WindowedValue ι × Window)
  | processElement element window _ _ => some (element, window)
  | _ => none

/-- The failure of a call of the user function. -/
def error? : Invocation ι ο → Option UserError
  | setup (.error e) => some e
  | startBundle (.error e) => some e
  | processElement _ _ _ (.error e) => some e
  | finishBundle (.error e) => some e
  | _ => none

end Invocation

/-- The failure of a result, as a list of at most one. -/
def UserError.ofResult {α : Type} : Except UserError α → List UserError
  | .ok _ => []
  | .error e => [e]

/-- The data item of an emission with its channel. -/
def Emission.data? : Channel × Emission ο → Option (Channel × WindowedValue ο)
  | (channel, .data value) => some (channel, value)
  | _ => none

/-- The watermark of an emission. -/
def Emission.watermark? : Channel × Emission ο → Option Timestamp
  | (_, .watermark timestamp) => some timestamp
  | _ => none

namespace Effect

/-- The elements handed to the user function, each with the window at hand. -/
def handedOver (effects : List (Effect ι ο)) : List (WindowedValue ι × Window) :=
  (invocations effects).filterMap Invocation.handed?

/-- The failures of the user function. -/
def failures (effects : List (Effect ι ο)) : List UserError :=
  (invocations effects).filterMap Invocation.error?

/-- The data items emitted, with their channels. -/
def dataItems (effects : List (Effect ι ο)) : List (Channel × WindowedValue ο) :=
  (emissions effects).filterMap Emission.data?

/-- The watermarks emitted. -/
def watermarks (effects : List (Effect ι ο)) : List Timestamp :=
  (emissions effects).filterMap Emission.watermark?

theorem invocations_flatMap {α : Type} (xs : List α) (f : α → List (Effect ι ο)) :
    invocations (xs.flatMap f) = xs.flatMap fun x => invocations (f x) :=
  List.filterMap_flatMap

@[simp] theorem handedOver_append (xs ys : List (Effect ι ο)) :
    handedOver (xs ++ ys) = handedOver xs ++ handedOver ys := by
  simp [handedOver]

@[simp] theorem failures_append (xs ys : List (Effect ι ο)) :
    failures (xs ++ ys) = failures xs ++ failures ys := by
  simp [failures]

@[simp] theorem dataItems_append (xs ys : List (Effect ι ο)) :
    dataItems (xs ++ ys) = dataItems xs ++ dataItems ys := by
  simp [dataItems]

@[simp] theorem watermarks_append (xs ys : List (Effect ι ο)) :
    watermarks (xs ++ ys) = watermarks xs ++ watermarks ys := by
  simp [watermarks]

@[simp] theorem handedOver_nil : handedOver ([] : List (Effect ι ο)) = [] := rfl

@[simp] theorem failures_nil : failures ([] : List (Effect ι ο)) = [] := rfl

@[simp] theorem dataItems_nil : dataItems ([] : List (Effect ι ο)) = [] := rfl

@[simp] theorem watermarks_nil : watermarks ([] : List (Effect ι ο)) = [] := rfl

@[simp] theorem handedOver_note (n : Notice) (es : List (Effect ι ο)) :
    handedOver (.note n :: es) = handedOver es := rfl

@[simp] theorem failures_note (n : Notice) (es : List (Effect ι ο)) :
    failures (.note n :: es) = failures es := rfl

@[simp] theorem dataItems_note (n : Notice) (es : List (Effect ι ο)) :
    dataItems (.note n :: es) = dataItems es := rfl

@[simp] theorem watermarks_note (n : Notice) (es : List (Effect ι ο)) :
    watermarks (.note n :: es) = watermarks es := rfl

@[simp] theorem handedOver_finishBundle (outcome : Except UserError Unit) :
    handedOver ([.call (.finishBundle outcome)] : List (Effect ι ο)) = [] := rfl

@[simp] theorem dataItems_call (i : Invocation ι ο) :
    dataItems [.call i] = [] := rfl

@[simp] theorem watermarks_call (i : Invocation ι ο) :
    watermarks [.call i] = [] := rfl

/-- Effects among which the user function is not called and nothing is emitted. -/
def Silent (effects : List (Effect ι ο)) : Prop :=
  invocations effects = [] ∧ emissions effects = []

/-- Log entries alone hand over, emit and fail nothing. -/
theorem silent_notes (ns : List Notice) : Silent (ns.map note : List (Effect ι ο)) := by
  constructor <;> induction ns with
  | nil => rfl
  | cons n ns ih => exact ih

/-- Silence followed by silence is silence. -/
theorem Silent.append {xs ys : List (Effect ι ο)} (hx : Silent xs) (hy : Silent ys) :
    Silent (xs ++ ys) := by
  constructor
  · rw [invocations_append, hx.1, hy.1, List.append_nil]
  · rw [emissions_append, hx.2, hy.2, List.append_nil]

theorem Silent.handedOver_eq {es : List (Effect ι ο)} (h : Silent es) : handedOver es = [] := by
  rw [handedOver, h.1, List.filterMap_nil]

theorem Silent.failures_eq {es : List (Effect ι ο)} (h : Silent es) : failures es = [] := by
  rw [failures, h.1, List.filterMap_nil]

theorem Silent.dataItems_eq {es : List (Effect ι ο)} (h : Silent es) : dataItems es = [] := by
  rw [dataItems, h.2, List.filterMap_nil]

theorem Silent.watermarks_eq {es : List (Effect ι ο)} (h : Silent es) : watermarks es = [] := by
  rw [watermarks, h.2, List.filterMap_nil]

@[simp] theorem handedOver_notes (ns : List Notice) :
    handedOver (ns.map note : List (Effect ι ο)) = [] := (silent_notes ns).handedOver_eq

@[simp] theorem failures_notes (ns : List Notice) :
    failures (ns.map note : List (Effect ι ο)) = [] := (silent_notes ns).failures_eq

@[simp] theorem dataItems_notes (ns : List Notice) :
    dataItems (ns.map note : List (Effect ι ο)) = [] := (silent_notes ns).dataItems_eq

@[simp] theorem watermarks_notes (ns : List Notice) :
    watermarks (ns.map note : List (Effect ι ο)) = [] := (silent_notes ns).watermarks_eq

/-! ## Data items and the calls they come from -/

/--
Every data item follows a call of the user function, and the last call in front of it and the
item are related by `P`.
-/
def Attributed (P : Invocation ι ο → Channel × WindowedValue ο → Prop)
    (effects : List (Effect ι ο)) : Prop :=
  ∀ before item rest, effects = before ++ .emit item.1 (.data item.2) :: rest →
    ∃ i, (invocations before).getLast? = some i ∧ P i item

variable {P Q : Invocation ι ο → Channel × WindowedValue ο → Prop}

/-- An item that is emitted somewhere is among the items emitted. -/
theorem mem_dataItems {es before rest : List (Effect ι ο)} {item : Channel × WindowedValue ο}
    (h : es = before ++ .emit item.1 (.data item.2) :: rest) : item ∈ dataItems es := by
  rw [h, dataItems_append]
  exact List.mem_append_right _ List.mem_cons_self

/-- Where no item is emitted, there is none to attribute. -/
theorem attributed_of_dataItems_eq_nil {es : List (Effect ι ο)} (h : dataItems es = []) :
    Attributed P es := by
  intro before item rest he
  have hm := mem_dataItems he
  rw [h] at hm
  cases hm

/-- Items right behind a call are attributed to it. -/
theorem attributed_call {i : Invocation ι ο} {es : List (Effect ι ο)}
    (hi : invocations es = []) (hp : ∀ item ∈ dataItems es, P i item) :
    Attributed P (.call i :: es) := by
  intro before item rest he
  obtain ⟨-, head⟩ | ⟨tail, rfl, ht⟩ := List.cons_eq_append_iff.1 he
  · cases head
  · refine ⟨i, ?_, hp item (mem_dataItems ht)⟩
    have hb : invocations tail = [] := by
      rw [ht, invocations_append] at hi
      exact (List.append_eq_nil_iff.1 hi).1
    change (i :: invocations tail).getLast? = some i
    rw [hb]
    rfl

/-- Effects that are attributed by themselves are attributed together. -/
theorem Attributed.append {xs ys : List (Effect ι ο)} (hx : Attributed P xs)
    (hy : Attributed P ys) : Attributed P (xs ++ ys) := by
  intro before item rest he
  obtain ⟨mid, rfl, hm⟩ | ⟨mid, rfl, hm⟩ := List.append_eq_append_iff.1 he
  · obtain ⟨i, hi, hp⟩ := hy mid item rest hm
    refine ⟨i, ?_, hp⟩
    rw [invocations_append, List.getLast?_append, hi]
    rfl
  · cases mid with
    | nil =>
        obtain ⟨i, hi, _⟩ := hy [] item rest hm.symm
        cases hi
    | cons e mid =>
        cases hm
        exact hx before item mid rfl

/-- Items may be attributed by a weaker rule. -/
theorem Attributed.mono {es : List (Effect ι ο)} (h : Attributed P es)
    (hpq : ∀ i item, P i item → Q i item) : Attributed Q es := by
  intro before item rest he
  obtain ⟨i, hi, hp⟩ := h before item rest he
  exact ⟨i, hi, hpq i item hp⟩

end Effect

namespace Router

/-- A traced entry is silent, whether or not it is logged. -/
theorem silent_traced (r : Router) (n : Notice) :
    Effect.Silent (r.traced n : List (Effect ι ο)) := by
  unfold traced
  split
  · exact Effect.silent_notes [n]
  · exact Effect.silent_notes []

@[simp] theorem invocations_route (r : Router) (request : OutputRequest ο) :
    Effect.invocations (r.route request : List (Effect ι ο)) = [] := by
  rw [route, Effect.invocations_append, (r.silent_traced _).1]
  rfl

@[simp] theorem invocations_routeAll (r : Router) (requests : List (OutputRequest ο)) :
    Effect.invocations (requests.flatMap r.route : List (Effect ι ο)) = [] := by
  induction requests with
  | nil => rfl
  | cons q qs ih => rw [List.flatMap_cons, Effect.invocations_append, invocations_route, ih]; rfl

@[simp] theorem emissions_routeAll (r : Router) (requests : List (OutputRequest ο)) :
    Effect.emissions (requests.flatMap r.route : List (Effect ι ο)) =
      requests.map fun q => (r.channel q.tag, .data q.value) := by
  induction requests with
  | nil => rfl
  | cons q qs ih =>
      rw [List.flatMap_cons, Effect.emissions_append, emissions_route, ih]
      rfl

@[simp] theorem handedOver_traced (r : Router) (n : Notice) :
    Effect.handedOver (r.traced n : List (Effect ι ο)) = [] :=
  (r.silent_traced n).handedOver_eq

@[simp] theorem failures_traced (r : Router) (n : Notice) :
    Effect.failures (r.traced n : List (Effect ι ο)) = [] :=
  (r.silent_traced n).failures_eq

@[simp] theorem dataItems_traced (r : Router) (n : Notice) :
    Effect.dataItems (r.traced n : List (Effect ι ο)) = [] :=
  (r.silent_traced n).dataItems_eq

@[simp] theorem watermarks_traced (r : Router) (n : Notice) :
    Effect.watermarks (r.traced n : List (Effect ι ο)) = [] :=
  (r.silent_traced n).watermarks_eq

@[simp] theorem invocations_emitWatermark (r : Router) (w : Timestamp) :
    Effect.invocations (r.emitWatermark w : List (Effect ι ο)) = [] := by
  rw [emitWatermark, Effect.invocations_append, (r.silent_traced _).1]
  rfl

@[simp] theorem invocations_emitted (r : Router) (o : Option Timestamp) :
    Effect.invocations (o.toList.flatMap r.emitWatermark : List (Effect ι ο)) = [] := by
  cases o with
  | none => rfl
  | some w => simp

@[simp] theorem handedOver_emitted (r : Router) (o : Option Timestamp) :
    Effect.handedOver (o.toList.flatMap r.emitWatermark : List (Effect ι ο)) = [] := by
  cases o with
  | none => rfl
  | some w => simp [Effect.handedOver]

@[simp] theorem failures_emitted (r : Router) (o : Option Timestamp) :
    Effect.failures (o.toList.flatMap r.emitWatermark : List (Effect ι ο)) = [] := by
  cases o with
  | none => rfl
  | some w => simp [Effect.failures]

@[simp] theorem dataItems_emitted (r : Router) (o : Option Timestamp) :
    Effect.dataItems (o.toList.flatMap r.emitWatermark : List (Effect ι ο)) = [] := by
  cases o with
  | none => rfl
  | some w => simp [Effect.dataItems, Emission.data?]

@[simp] theorem watermarks_emitted (r : Router) (o : Option Timestamp) :
    Effect.watermarks (o.toList.flatMap r.emitWatermark : List (Effect ι ο)) = o.toList := by
  cases o with
  | none => rfl
  | some w => simp [Effect.watermarks, Emission.watermark?]

end Router

end EventStream
