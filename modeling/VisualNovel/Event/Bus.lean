/-!
# An event bus

Handlers register for topics. An event is delivered to the handlers that are registered for its
topic when its delivery begins, in the order of their registration. An event that is published
while another one is being delivered waits for its turn, so handlers always see events in the order
of their publication.

A registration may be weak: it ends when nobody else holds the handler. A handler is held by its
owner, by strong registrations, and by the delivery that has just called it.

The bus is part of a larger world, because handlers act on that world. `Hall` says how, and
`Hall.publish` is the one entry point.
-/

namespace VisualNovel

/-- A handler registered for a topic. -/
structure Registration (τ η : Type) where
  /-- What the handler listens to. -/
  topic : τ
  /-- Who listens. -/
  handler : η
  /-- The registration does not hold the handler. -/
  weak : Bool
  deriving DecidableEq, Repr

/-- The state of an event bus with topics `τ`, events `ε` and handlers `η`. -/
structure Bus (τ ε η : Type) where
  /-- All registrations in order. -/
  registrations : List (Registration τ η) := []
  /-- Events that wait for their delivery, oldest first. -/
  pending : List ε := []
  /-- An event is being delivered. -/
  delivering : Bool := false
  /-- The handlers that their owners hold. -/
  owned : List η := []
  /-- The registrations that the delivery under way goes through. -/
  round : List (Registration τ η) := []
  /-- The handler that the delivery under way called last. -/
  called : Option η := none
  deriving Repr, Inhabited

namespace Bus

variable {τ ε η : Type} [DecidableEq τ] [DecidableEq η]

/-- Adds a registration. -/
def subscribe (b : Bus τ ε η) (topic : τ) (handler : η) (weak : Bool) : Bus τ ε η :=
  { b with registrations := b.registrations ++ [⟨topic, handler, weak⟩] }

/-- Removes all registrations of a handler for a topic. -/
def unsubscribe (b : Bus τ ε η) (topic : τ) (handler : η) : Bus τ ε η :=
  { b with registrations := b.registrations.filter fun r =>
      !(r.topic = topic && r.handler = handler) }

/-- Removes all registrations for a topic. -/
def clear (b : Bus τ ε η) (topic : τ) : Bus τ ε η :=
  { b with registrations := b.registrations.filter fun r => r.topic ≠ topic }

/-- Removes all registrations. -/
def clearAll (b : Bus τ ε η) : Bus τ ε η := { b with registrations := [] }

/-- The owner of a handler starts to hold it. -/
def adopt (b : Bus τ ε η) (handler : η) : Bus τ ε η := { b with owned := handler :: b.owned }

/-- The owner of a handler lets go of it. -/
def drop (b : Bus τ ε η) (handler : η) : Bus τ ε η :=
  { b with owned := b.owned.filter fun h => h ≠ handler }

/-- The registrations for a topic in order. -/
def registered (b : Bus τ ε η) (topic : τ) : List (Registration τ η) :=
  b.registrations.filter fun r => r.topic = topic

/-- Some registration among those given holds the handler. -/
def holds (rs : List (Registration τ η)) (handler : η) : Bool :=
  rs.any fun r => !r.weak && r.handler = handler

/-- Somebody holds the handler. -/
def isAlive (b : Bus τ ε η) (handler : η) : Bool :=
  b.owned.contains handler || holds b.registrations handler || holds b.round handler ||
    b.called = some handler

/-- Some living handler is registered for a topic. -/
def hasSubscribers (b : Bus τ ε η) (topic : τ) : Bool :=
  (b.registered topic).any fun r => b.isAlive r.handler

/-- Adds an event to those that wait. -/
def enqueue (b : Bus τ ε η) (e : ε) : Bus τ ε η := { b with pending := b.pending ++ [e] }

end Bus

/-- A world with a bus in it. -/
structure Hall (ω τ ε η : Type) where
  /-- The bus in a world. -/
  bus : ω → Bus τ ε η
  /-- The world with another bus. -/
  setBus : Bus τ ε η → ω → ω
  /-- The topic of an event. -/
  topic : ε → τ
  /-- What a handler does when it is called. Handlers that fail are dealt with here. -/
  call : η → ε → ω → ω

namespace Hall

variable {ω τ ε η : Type} [DecidableEq τ] [DecidableEq η] (hall : Hall ω τ ε η)

/-- Changes the bus of a world. -/
def modifyBus (f : Bus τ ε η → Bus τ ε η) (w : ω) : ω := hall.setBus (f (hall.bus w)) w

/-- Calls the handler of a registration, if somebody still holds it. -/
def call? (e : ε) (w : ω) (r : Registration τ η) : ω :=
  if (hall.bus w).isAlive r.handler then
    hall.call r.handler e (hall.modifyBus (fun b => { b with called := some r.handler }) w)
  else hall.modifyBus (fun b => { b with called := none }) w

/-- Delivers an event to the handlers that are registered for its topic now. -/
def deliver (e : ε) (w : ω) : ω :=
  let round := (hall.bus w).registered (hall.topic e)
  let w := hall.modifyBus (fun b => { b with round := round }) w
  let w := round.foldl (hall.call? e) w
  hall.modifyBus (fun b => { b with round := [], called := none }) w

/-- Delivers the events that wait, and those that are published meanwhile; nothing if that takes
more deliveries than the patience given. -/
def drain : Nat → ω → Option ω
  | 0, w => if (hall.bus w).pending.isEmpty then some w else none
  | patience + 1, w =>
    match (hall.bus w).pending with
    | [] => some w
    | e :: rest =>
      drain patience (hall.deliver e (hall.modifyBus (fun b => { b with pending := rest }) w))

/-- Lets an event wait for its turn. -/
def enqueue (e : ε) (w : ω) : ω := hall.modifyBus (fun b => b.enqueue e) w

/-- Publishes an event. Unless a delivery is under way, all waiting events are delivered. -/
def publish (patience : Nat) (e : ε) (w : ω) : Option ω :=
  let w := hall.enqueue e w
  if (hall.bus w).delivering then some w
  else
    (hall.drain patience (hall.modifyBus (fun b => { b with delivering := true }) w)).map
      (hall.modifyBus fun b => { b with delivering := false })

end Hall

end VisualNovel
