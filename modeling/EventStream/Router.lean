import EventStream.Config
import EventStream.Emission

/-!
# Routing of results

A result with the name of a side output goes to the channel of that name; every
other result, and every watermark, goes to the main output.
-/

namespace EventStream

/-- Where results go: the side outputs in channel order, and whether emissions are traced. -/
structure Router where
  sideOutputs : List OutputTag
  traces : Bool
deriving DecidableEq

namespace Router

variable {ι ο : Type}

/-- The router of a configuration. -/
def ofConfig (c : Config) : Router := ⟨c.sideOutputs, c.traces⟩

/-- The router of a configuration that has been accepted. -/
def ofConfig? (c : Config) : Except ConfigError Router :=
  match c.validate with
  | .ok () => .ok (ofConfig c)
  | .error e => .error e

/-- The channel of a result. -/
def channel (r : Router) (tag : Option OutputTag) : Channel :=
  match tag.bind fun t => r.sideOutputs.idxOf? t with
  | some channel => .side channel
  | none => .main

@[simp] theorem channel_none (r : Router) : r.channel none = .main := rfl

/-- What is logged if emissions are traced. -/
def traced (r : Router) (notice : Notice) : List (Effect ι ο) :=
  if r.traces then [.note notice] else []

/-- Delivers a result. -/
def route (r : Router) (request : OutputRequest ο) : List (Effect ι ο) :=
  let channel := r.channel request.tag
  r.traced (.dataEmitted channel request.value.timestamp request.value.windows) ++
    [.emit channel (.data request.value)]

/-- Delivers a watermark. -/
def emitWatermark (r : Router) (watermark : Timestamp) : List (Effect ι ο) :=
  r.traced (.watermarkEmitted watermark) ++ [.emit .main (.watermark watermark)]

@[simp] theorem emissions_traced (r : Router) (n : Notice) :
    Effect.emissions (r.traced n : List (Effect ι ο)) = [] := by
  unfold traced
  split <;> rfl

@[simp] theorem emissions_route (r : Router) (request : OutputRequest ο) :
    Effect.emissions (r.route request : List (Effect ι ο)) =
      [(r.channel request.tag, .data request.value)] := by
  rw [route, Effect.emissions_append, emissions_traced]
  rfl

@[simp] theorem emissions_emitWatermark (r : Router) (w : Timestamp) :
    Effect.emissions (r.emitWatermark w : List (Effect ι ο)) = [(.main, .watermark w)] := by
  rw [emitWatermark, Effect.emissions_append, emissions_traced]
  rfl

end Router

end EventStream
