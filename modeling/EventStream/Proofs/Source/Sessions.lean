import EventStream.Proofs.Source.MappedRecords

/-!
# Sessions on a source

A source is used together with all that is made from it: its bundles, its copies, and the readers of
them. A session is served requests for any of these, in any order, and a transcript keeps all that
can be seen of them after each request.

If every record is mapped, a session goes as before. Its transcript is the same, with the records
in it mapped.

## Implementation notes

Sources and readers are told apart by their places, in the order in which they were made. They
share the world of their format with others, who may change it between two requests.
-/

namespace EventStream

/-- A source and all that was made from it, in the world of its format. -/
structure Session (φ ρ ς κ ν κ' ν' : Type) where
  sources : List (BoundedSource ς κ ν κ' ν')
  readers : List (BoundedReader ρ ς κ ν κ' ν')
  world : φ

namespace Session

variable {φ ρ ς κ ν κ' ν' κ₁ ν₁ κ₂ ν₂ : Type}

/-- The session on a source in a world. -/
def ofSource (s : BoundedSource ς κ ν κ' ν' × φ) : Session φ ρ ς κ ν κ' ν' := ⟨[s.1], [], s.2⟩

/-- What a session is asked for, of the source or of the reader in some place. -/
inductive Request (φ : Type) where
  | size (source : Nat)
  | bundles (source : Nat)
  | copy (source : Nat)
  | reader (source : Nat)
  | start (reader : Nat)
  | advance (reader : Nat)
  | close (reader : Nat)
  /-- Others use the format and leave it in a world. -/
  | elsewhere (world : φ)

/-- What a request is answered. -/
inductive Answer where
  /-- Nothing, as of a place where there is nothing. -/
  | nothing
  | size (bytes : Nat)
  | bundles (count : Nat)
  | moved (available : Bool)
deriving DecidableEq

/-- What a request leaves behind. -/
abbrev Outcome (φ ρ ς κ ν κ' ν' : Type) : Type :=
  Report (Session φ ρ ς κ ν κ' ν') (SourceEffect ς) SourceError Answer

/-- A call on a session. -/
abbrev Call (φ ρ ς κ ν κ' ν' : Type) :=
  Activity (Session φ ρ ς κ ν κ' ν') (SourceEffect ς) SourceError Answer

/-! ## Serving requests -/

/-- The session with a source in some place, and a world. -/
def putSource (i : Nat) (s : BoundedSource ς κ ν κ' ν' × φ) (t : Session φ ρ ς κ ν κ' ν') :
    Session φ ρ ς κ ν κ' ν' := { t with sources := t.sources.set i s.1, world := s.2 }

/-- The session with a reader in some place, and a world. -/
def putReader (j : Nat) (r : BoundedReader ρ ς κ ν κ' ν' × φ) (t : Session φ ρ ς κ ν κ' ν') :
    Session φ ρ ς κ ν κ' ν' := { t with readers := t.readers.set j r.1, world := r.2 }

/--
What a call on the source in some place comes to for the session, which may keep what was made.
-/
def settle {α : Type} (i : Nat) (keep : Session φ ρ ς κ ν κ' ν' → α → Session φ ρ ς κ ν κ' ν')
    (answer : α → Answer) (t : Session φ ρ ς κ ν κ' ν')
    (report : BoundedSource.Outcome φ ς κ ν κ' ν' α) : Outcome φ ρ ς κ ν κ' ν' :=
  match report.result with
  | .ok a => ⟨.ok (answer a), keep (t.putSource i report.state) a, report.effects⟩
  | .error e => ⟨.error e, t.putSource i report.state, report.effects⟩

/-- A call on the source in some place. The session may keep what the call makes. -/
def onSource {α : Type} (i : Nat) (call : BoundedSource.Call φ ς κ ν κ' ν' α)
    (keep : Session φ ρ ς κ ν κ' ν' → α → Session φ ρ ς κ ν κ' ν') (answer : α → Answer) :
    Call φ ρ ς κ ν κ' ν' := fun t =>
  match t.sources[i]? with
  | none => ⟨.ok .nothing, t, []⟩
  | some s => settle i keep answer t (call (s, t.world))

/-- A call on the reader in some place. -/
def onReader {α : Type} (j : Nat) (call : BoundedReader.Call φ ρ ς κ ν κ' ν' α)
    (answer : α → Answer) : Call φ ρ ς κ ν κ' ν' := fun t =>
  match t.readers[j]? with
  | none => ⟨.ok .nothing, t, []⟩
  | some r =>
    let report := call (r, t.world)
    ⟨report.result.map answer, t.putReader j report.state, report.effects⟩

/-- Takes sources up into a session. -/
def addSources (t : Session φ ρ ς κ ν κ' ν') (more : List (BoundedSource ς κ ν κ' ν')) :
    Session φ ρ ς κ ν κ' ν' := { t with sources := t.sources ++ more }

/-- Takes a reader up into a session. -/
def addReader (t : Session φ ρ ς κ ν κ' ν') (r : BoundedReader ρ ς κ ν κ' ν') :
    Session φ ρ ς κ ν κ' ν' := { t with readers := t.readers ++ [r] }

variable (format : InputFormat φ ρ ς κ ν)

/-- Serves a request. -/
def serve : Request φ → Call φ ρ ς κ ν κ' ν'
  | .size i => onSource i (BoundedSource.estimatedSizeBytes format) (fun t _ => t) .size
  | .bundles i =>
    onSource i (BoundedSource.splitIntoBundles format) addSources fun made => .bundles made.length
  | .copy i =>
    onSource i (fun s => ⟨.ok s.1, s, []⟩) (fun t s => t.addSources [s]) fun _ => .nothing
  | .reader i => onSource i (fun s => ⟨s.1.createReader, s, []⟩) addReader fun _ => .nothing
  | .start j => onReader j (BoundedReader.start format) .moved
  | .advance j => onReader j (BoundedReader.advance format) .moved
  | .close j => onReader j (BoundedReader.close format) fun _ => .nothing
  | .elsewhere w => fun t => ⟨.ok .nothing, { t with world := w }, []⟩

/-! ## Transcripts -/

/-- All that a source tells of itself without being asked for its size or its bundles. -/
structure SourceView (ς : Type) where
  split : Option ς
  splits : Option (List ς)

/-- All that a reader tells of itself. -/
structure ReaderView (ς κ' ν' : Type) where
  split : ς
  current : Option (κ' × ν')
  currentWindowed : Option (WindowedValue (κ' × ν'))
  currentTimestamp : Timestamp
  recordsReturned : Nat
  fractionConsumed : Binary64
  splitPointsRemaining : Nat

/-- What a source tells. -/
def viewSource (s : BoundedSource ς κ ν κ' ν') : SourceView ς := ⟨s.split, s.splits⟩

/-- What a reader tells. -/
def viewReader (r : BoundedReader ρ ς κ ν κ' ν') : ReaderView ς κ' ν' where
  split := r.split
  current := r.current
  currentWindowed := r.currentWindowed
  currentTimestamp := r.currentTimestamp
  recordsReturned := r.recordsReturned
  fractionConsumed := r.fractionConsumed
  splitPointsRemaining := r.splitPointsRemaining

/--
What a request came to: its result, the calls on the format and the log entries, and what every
source and every reader tells afterwards.
-/
structure Entry (ς κ' ν' : Type) where
  result : Except SourceError Answer
  effects : List (SourceEffect ς)
  sources : List (SourceView ς)
  readers : List (ReaderView ς κ' ν')

/-- The entry of a request. -/
def entry (r : Outcome φ ρ ς κ ν κ' ν') : Entry ς κ' ν' :=
  ⟨r.result, r.effects, r.state.sources.map viewSource, r.state.readers.map viewReader⟩

/-- The entries of requests, served one after another. -/
def transcript (t : Session φ ρ ς κ ν κ' ν') : List (Request φ) → List (Entry ς κ' ν')
  | [] => []
  | r :: rest => entry (serve format r t) :: (serve format r t).state.transcript rest

/-! ## Sessions with their records mapped -/

section Map
variable (f : κ₁ → κ₂) (g : ν₁ → ν₂)

/-- The same session with every record mapped. -/
def mapRecords (t : Session φ ρ ς κ ν κ₁ ν₁) : Session φ ρ ς κ ν κ₂ ν₂ where
  sources := t.sources.map (BoundedSource.mapRecords f g)
  readers := t.readers.map (BoundedReader.mapRecords f g)
  world := t.world

/-- The same view of a reader with the record in it mapped. -/
def ReaderView.mapRecords (v : ReaderView ς κ₁ ν₁) : ReaderView ς κ₂ ν₂ :=
  { v with
    current := v.current.map fun (k, v) => (f k, g v)
    currentWindowed := v.currentWindowed.map fun x =>
      { x with value := (f x.value.1, g x.value.2) } }

/-- The same entry with the records in it mapped. -/
def Entry.mapRecords (e : Entry ς κ₁ ν₁) : Entry ς κ₂ ν₂ :=
  { e with readers := e.readers.map (ReaderView.mapRecords f g) }

/-- The second session is the first one with every record mapped. -/
def Mapped (t : Session φ ρ ς κ ν κ₁ ν₁) (u : Session φ ρ ς κ ν κ₂ ν₂) : Prop :=
  u = t.mapRecords f g

end Map

variable {f : κ₁ → κ₂} {g : ν₁ → ν₂}

theorem viewReader_mapRecords (r : BoundedReader ρ ς κ ν κ₁ ν₁) :
    viewReader (r.mapRecords f g) = (viewReader r).mapRecords f g := by
  have windowed : (r.mapRecords f g).currentWindowed =
      ((viewReader r).mapRecords f g).currentWindowed := by
    simp only [viewReader, ReaderView.mapRecords, BoundedReader.currentWindowed,
      BoundedReader.mapRecords_current]
    cases r.current with
    | none => rfl
    | some record => rfl
  simp only [viewReader, windowed]
  rfl

/-! ### Steps -/

section Steps
variable (t : Session φ ρ ς κ ν κ₁ ν₁)

theorem mapRecords_putSource (i : Nat) (s : BoundedSource ς κ ν κ₁ ν₁ × φ) :
    (t.putSource i s).mapRecords f g =
      (t.mapRecords f g).putSource i (s.1.mapRecords f g, s.2) := by
  simp only [mapRecords, putSource, List.map_set]

theorem mapRecords_putReader (j : Nat) (r : BoundedReader ρ ς κ ν κ₁ ν₁ × φ) :
    (t.putReader j r).mapRecords f g =
      (t.mapRecords f g).putReader j (r.1.mapRecords f g, r.2) := by
  simp only [mapRecords, putReader, List.map_set]

theorem mapRecords_addSources (more : List (BoundedSource ς κ ν κ₁ ν₁)) :
    (t.addSources more).mapRecords f g =
      (t.mapRecords f g).addSources (more.map (BoundedSource.mapRecords f g)) := by
  simp only [mapRecords, addSources, List.map_append]

theorem mapRecords_addReader (r : BoundedReader ρ ς κ ν κ₁ ν₁) :
    (t.addReader r).mapRecords f g = (t.mapRecords f g).addReader (r.mapRecords f g) := by
  simp only [mapRecords, addReader, List.map_append, List.map_singleton]

end Steps

section OnSource
variable {α β : Type} {keep₁ : Session φ ρ ς κ ν κ₁ ν₁ → α → Session φ ρ ς κ ν κ₁ ν₁}
  {keep₂ : Session φ ρ ς κ ν κ₂ ν₂ → β → Session φ ρ ς κ ν κ₂ ν₂} {answer₁ : α → Answer}
  {answer₂ : β → Answer} {h : α → β} (i : Nat)
  (keeps : ∀ t a, (keep₁ t a).mapRecords f g = keep₂ (t.mapRecords f g) (h a))
  (answers : ∀ a, answer₂ (h a) = answer₁ a)
include keeps answers

theorem settle_alike (t : Session φ ρ ς κ ν κ₁ ν₁) {report₁ : BoundedSource.Outcome φ ς κ ν κ₁ ν₁ α}
    {report₂ : BoundedSource.Outcome φ ς κ ν κ₂ ν₂ β}
    (alike : Report.Alike (BoundedSource.Mapped f g) (report₁.mapAnswer h) report₂) :
    Report.Alike (Mapped f g) (settle i keep₁ answer₁ t report₁)
      (settle i keep₂ answer₂ (t.mapRecords f g) report₂) := by
  obtain ⟨result, effects, state⟩ := alike
  have put : (t.putSource i report₁.state).mapRecords f g =
      (t.mapRecords f g).putSource i report₂.state := by
    rw [mapRecords_putSource]
    exact congrArg ((t.mapRecords f g).putSource i) state.symm
  cases hr : report₁.result with
  | error e =>
      have hr' : report₂.result = .error e := by rw [result, Report.mapAnswer, hr, Except.map]
      simp only [settle, hr, hr']
      exact ⟨rfl, effects, put.symm⟩
  | ok a =>
      have hr' : report₂.result = .ok (h a) := by rw [result, Report.mapAnswer, hr, Except.map]
      simp only [settle, hr, hr']
      refine ⟨congrArg Except.ok (answers a), effects, ?_⟩
      rw [Mapped, keeps, put]

/-- A call on a source goes alike in a session if it goes alike on every source. -/
theorem onSource_alike {call₁ : BoundedSource.Call φ ς κ ν κ₁ ν₁ α}
    {call₂ : BoundedSource.Call φ ς κ ν κ₂ ν₂ β}
    (calls : ∀ s w, Report.Alike (BoundedSource.Mapped f g) ((call₁ (s, w)).mapAnswer h)
      (call₂ (s.mapRecords f g, w))) :
    Activity.Alike (Mapped f g) (onSource i call₁ keep₁ answer₁)
      (onSource i call₂ keep₂ answer₂) := by
  rintro t _ rfl
  have place : (t.mapRecords f g).sources[i]? =
      t.sources[i]?.map (BoundedSource.mapRecords f g) := List.getElem?_map
  simp only [onSource, place]
  cases t.sources[i]? with
  | none => exact ⟨rfl, rfl, rfl⟩
  | some s => exact settle_alike i keeps answers t (calls s t.world)

end OnSource

/-- A call on a reader goes alike in a session if it goes alike on every reader. -/
theorem onReader_alike {α : Type} (j : Nat) {call₁ : BoundedReader.Call φ ρ ς κ ν κ₁ ν₁ α}
    {call₂ : BoundedReader.Call φ ρ ς κ ν κ₂ ν₂ α} (answer : α → Answer)
    (calls : Activity.Alike (BoundedReader.Mapped f g) call₁ call₂) :
    Activity.Alike (Mapped f g) (onReader j call₁ answer) (onReader j call₂ answer) := by
  rintro t _ rfl
  have place : (t.mapRecords f g).readers[j]? =
      t.readers[j]?.map (BoundedReader.mapRecords f g) := List.getElem?_map
  simp only [onReader, place]
  cases t.readers[j]? with
  | none => exact ⟨rfl, rfl, rfl⟩
  | some r =>
      obtain ⟨result, effects, state⟩ := calls (r, t.world) _ rfl
      refine ⟨congrArg (Except.map answer) result, effects, ?_⟩
      rw [Mapped, mapRecords_putReader]
      exact congrArg ((t.mapRecords f g).putReader j) state

variable (format : InputFormat φ ρ ς κ ν)

/-- Every request is served alike whether or not records are mapped. -/
theorem serve_alike (r : Request φ) :
    Activity.Alike (Mapped f g) (serve format r : Call φ ρ ς κ ν κ₁ ν₁) (serve format r) := by
  cases r with
  | size i =>
      refine onSource_alike (h := id) i (fun _ _ => rfl) (fun _ => rfl) fun s w => ?_
      rw [Report.mapAnswer_id]
      exact BoundedSource.estimatedSizeBytes_alike format (s, w) _ rfl
  | bundles i =>
      refine onSource_alike i mapRecords_addSources (fun made => ?_)
        (BoundedSource.splitIntoBundles_alike format)
      rw [List.length_map]
  | copy i =>
      rw [serve, serve]
      refine onSource_alike (h := BoundedSource.mapRecords f g) i ?_ ?_ ?_
      · exact fun t s => mapRecords_addSources t [s]
      · exact fun _ => rfl
      · exact fun s w => ⟨rfl, rfl, rfl⟩
  | reader i =>
      rw [serve, serve]
      refine onSource_alike (h := BoundedReader.mapRecords f g) i ?_ ?_ ?_
      · exact mapRecords_addReader
      · exact fun _ => rfl
      · exact fun s w => ⟨BoundedSource.createReader_mapRecords f g s, rfl, rfl⟩
  | start j => exact onReader_alike j .moved (BoundedReader.start_alike format)
  | advance j => exact onReader_alike j .moved (BoundedReader.advance_alike format)
  | close j => exact onReader_alike j (fun _ => .nothing) (BoundedReader.close_alike format)
  | elsewhere w =>
      rintro t _ rfl
      exact ⟨rfl, rfl, rfl⟩

/-- What is seen of a request is the same with the records in it mapped. -/
theorem entry_alike {r : Outcome φ ρ ς κ ν κ₁ ν₁} {r' : Outcome φ ρ ς κ ν κ₂ ν₂}
    (alike : Report.Alike (Mapped f g) r r') : entry r' = (entry r).mapRecords f g := by
  obtain ⟨result, effects, state⟩ := alike
  have sources : r'.state.sources.map viewSource = r.state.sources.map viewSource := by
    rw [state, mapRecords, List.map_map]
    rfl
  have readers : r'.state.readers.map viewReader =
      (r.state.readers.map viewReader).map (ReaderView.mapRecords f g) := by
    rw [state, mapRecords, List.map_map, List.map_map]
    exact List.map_congr_left fun r _ => viewReader_mapRecords r
  rw [entry, entry, Entry.mapRecords, result, effects, sources, readers]

/-- If every record of a session is mapped, so is every record in its transcript, and no more. -/
theorem transcript_mapRecords (t : Session φ ρ ς κ ν κ₁ ν₁) (requests : List (Request φ)) :
    (t.mapRecords f g).transcript format requests =
      (t.transcript format requests).map (Entry.mapRecords f g) := by
  induction requests generalizing t with
  | nil => rfl
  | cons r rest ih =>
      have alike := serve_alike format r t (t.mapRecords f g) rfl
      have state : _ = _ := alike.state
      rw [transcript, transcript, List.map_cons, entry_alike alike, state, ih]

end Session

end EventStream
