import EventStream.Proofs.Commands

/-!
# Runs of requests

The host of a processor sets it up, hands it signals, tears it down, and empties
its slot whenever it likes. A run of such requests is logged with what each of
them came to and what was seen of it from outside: its emissions and its calls
of the user function.

## Implementation notes

Nothing here is encoded, so payloads are arbitrary. That is why requests are not
the commands of a processor, which include snapshots.
-/

namespace EventStream

variable {σ ι ν ο : Type}

/-- What the host of a processor asks for. -/
inductive Request (ι ν : Type) where
  | setUp
  | handle (signal : Signal ι ν)
  | tearDown
  /-- The slot is emptied. -/
  | takeSlot

/-- A request with its result, its emissions and the calls of the user function it led to. -/
structure Served (ι ν ο : Type) where
  request : Request ι ν
  result : Except ProcessingError Unit
  emissions : List (Channel × Emission ο)
  invocations : List (Invocation ι ο)

namespace Processor

/-- Serves a request. Of a slot that is emptied, the content is not answered here. -/
def serve : Request ι ν → Call σ ι ν ο Unit
  | .setUp => setup
  | .handle s => handle s
  | .tearDown => leave
  | .takeSlot => Activity.update fun p => { p with slot := none }

/-- The log entry of a request. -/
def served (r : Request ι ν) (p : Processor σ ι ν ο) : Served ι ν ο :=
  ⟨r, (serve r p).result, Effect.emissions (serve r p).effects,
    Effect.invocations (serve r p).effects⟩

@[simp] theorem request_served (r : Request ι ν) (p : Processor σ ι ν ο) :
    (served r p).request = r := rfl

/-- The processor that a run of requests leaves behind. -/
def serveAll (p : Processor σ ι ν ο) (requests : List (Request ι ν)) : Processor σ ι ν ο :=
  requests.foldl (fun p r => (serve r p).state) p

/-- The log of a run of requests. -/
def log (p : Processor σ ι ν ο) : List (Request ι ν) → List (Served ι ν ο)
  | [] => []
  | r :: rest => served r p :: (serve r p).state.log rest

section Run
variable (p : Processor σ ι ν ο)

@[simp] theorem serveAll_nil : p.serveAll [] = p := rfl

@[simp] theorem log_nil : p.log [] = [] := rfl

theorem serveAll_cons (r : Request ι ν) (rest : List (Request ι ν)) :
    p.serveAll (r :: rest) = (serve r p).state.serveAll rest := rfl

theorem log_cons (r : Request ι ν) (rest : List (Request ι ν)) :
    p.log (r :: rest) = served r p :: (serve r p).state.log rest := rfl

theorem log_append (xs ys : List (Request ι ν)) :
    p.log (xs ++ ys) = p.log xs ++ (p.serveAll xs).log ys := by
  induction xs generalizing p with
  | nil => rfl
  | cons r rest ih => rw [List.cons_append, log_cons, log_cons, ih, List.cons_append, serveAll_cons]

@[simp] theorem serveAll_concat (xs : List (Request ι ν)) (r : Request ι ν) :
    p.serveAll (xs ++ [r]) = (serve r (p.serveAll xs)).state :=
  List.foldl_append

@[simp] theorem log_concat (xs : List (Request ι ν)) (r : Request ι ν) :
    p.log (xs ++ [r]) = p.log xs ++ [served r (p.serveAll xs)] := by
  rw [log_append]
  rfl

end Run

end Processor

end EventStream
