import VehicleGateway.Gateway

/-!
# The steps of the gateway

Each part of a gateway moves on its own.  A step of a part is one move that it makes without
waiting; `Gateway.step?` has none when the part waits for a message or for a later time, which
`Gateway.due?` names.
-/

namespace VehicleGateway

/-- The parts of a gateway that move on their own. -/
inductive Part where
  | receiver
  | router
  | supervisor
  | heartbeat
  /-- What is done for a caller who waits. -/
  | errand
  | session (n : Nat)
  /-- A key call that was made from outside. -/
  | keyCall (n : Nat)
  deriving DecidableEq, Repr

namespace Gateway

variable {σ : Type}

/-- The receiver looks at a frame. -/
def receive (g : Gateway σ) (f : Frame) : Gateway σ :=
  match Message.ofFrame f with
  | .error _ => { g with stats := g.stats.drop .malformed }
  | .ok m => (g.submit m).1

/-- The receiver's step. -/
def receiverStep? (g : Gateway σ) : Option (Gateway σ) := do
  let arrivals ← g.arrivals
  let (frame, rest) ← arrivals.next?
  let g' := { g with arrivals := some rest }
  match frame with
  -- A notice of lost frames: they cannot be had back.
  | none => some g'
  | some f => some (g'.receive f)

/-- The fate of a message is known. -/
def settle (g : Gateway σ) (d : Delivery) : Gateway σ :=
  { g with stats := g.stats.count d }

/-- The router takes up a message. -/
def takeUp (g : Gateway σ) (m : Message) : Gateway σ × (Delivery ⊕ Forwarding) :=
  let g' := { g with stats := g.stats.receive }
  match Router.path g.routes g.toWorld g.tray m with
  | .settled w tray d => ({ g' with toWorld := w, tray }.settle d, .inl d)
  | .forwarding f => (g', .inr f)

/-- The step of a router that goes on: to transmit, or with the next message. -/
def carryOn? (g : Gateway σ) : Option (Gateway σ) :=
  match g.forwarding with
  | some f =>
    match f.next g.toWorld g.sendTimeout with
    | .waits => none
    | .goesOn w f' => some { g with toWorld := w, forwarding := some f' }
    | .ends d => some { g.settle d with forwarding := none }
  | none => do
    let (m, queue) ← g.queue.take?
    match { g with queue }.takeUp m with
    | (g', .inl _) => some g'
    | (g', .inr f) => some { g' with forwarding := some f }

/-- The router's step. -/
def routerStep? (g : Gateway σ) : Option (Gateway σ) :=
  if g.halting then some g.stopRouter else g.carryOn?

/-- The supervisor's step.  It ends when no more answers will come. -/
def supervisorStep? [Storage σ] (g : Gateway σ) : Option (Gateway σ) :=
  if g.supervising then
    match g.tray.take? with
    | some (m, tray) => some ({ g with tray }.accept m).1
    -- Nothing waits.  That is the end only if nothing can come any more.
    | none => if g.tray.finished then some g.stopSupervisor else none
  else none

/-- The heartbeat's step. -/
def heartbeatStep? (g : Gateway σ) : Option (Gateway σ) := do
  let heartbeat ← g.heartbeat
  let (w, heartbeat') ←
    heartbeat.step? g.roundTerms (Heartbeat.period g.supervision.heartbeat) g.toWorld
  some { g with toWorld := w, heartbeat := some heartbeat' }

/-- An errand ends. -/
def endErrand (g : Gateway σ) (result : ErrandResult) : Gateway σ :=
  { g with errand := some (.ended result) }

/-- The step of an errand. -/
def errandStep? (g : Gateway σ) : Option (Gateway σ) :=
  match g.errand with
  | none | some (.ended _) => none
  | some (.requesting flight) =>
    (g.land? flight).map fun (w, sent) =>
      { g with toWorld := w }.endErrand (.requested (sent.mapError BusFault.failure))
  | some (.polling round) =>
    match round.next g.roundTerms g.toWorld with
    | .waits => none
    | .goesOn w round' => some { g with toWorld := w, errand := some (.polling round') }
    | .ends n => some (g.endErrand (.polled n))
  | some (.routing m) =>
    match g.takeUp m with
    | (g', .inl d) => some (g'.endErrand (.delivered d))
    | (g', .inr f) => some { g' with errand := some (.forwarding f) }
  | some (.forwarding f) =>
    match f.next g.toWorld g.sendTimeout with
    | .waits => none
    | .goesOn w f' => some { g with toWorld := w, errand := some (.forwarding f') }
    | .ends d => some ((g.settle d).endErrand (.delivered d))

/-- The step of a session. -/
def sessionStep? [Storage σ] (g : Gateway σ) (n : Nat) : Option (Gateway σ) := do
  let s ← g.sessions[n]?
  let (w, s') ← s.step? g.firmware g.toWorld
  some { g with toWorld := w, sessions := g.sessions.set n s' }

/-- The step of a key call. -/
def keyCallStep? (g : Gateway σ) (call : Nat) : Option (Gateway σ) := do
  let vault ← g.keys
  let vault' ← vault.step? g.now call
  some { g with keys := some vault' }

/-- The next step of a part, if it need not wait. -/
def step? [Storage σ] (g : Gateway σ) : Part → Option (Gateway σ)
  | .receiver => g.receiverStep?
  | .router => g.routerStep?
  | .supervisor => g.supervisorStep?
  | .heartbeat => g.heartbeatStep?
  | .errand => g.errandStep?
  | .session n => g.sessionStep? n
  | .keyCall n => g.keyCallStep? n

/-- When a part that waits goes on by itself. -/
def due? (g : Gateway σ) : Part → Option Nat
  | .receiver | .supervisor => none
  | .router => g.forwarding.bind (·.due?)
  | .heartbeat => g.heartbeat.bind (·.due?)
  | .errand => g.errand.bind Errand.due?
  | .session n => g.sessions[n]?.bind (·.due? g.toWorld)
  | .keyCall n => g.keys.bind (·.due? n)

/-- The number of messages that wait for a part. -/
def backlog (g : Gateway σ) : Part → Nat
  | .receiver => (g.arrivals.map (·.size)).getD 0
  -- A router that stops takes none of them.
  | .router => if g.halting then 0 else g.queue.items.length
  | .supervisor => g.tray.items.length
  | .session n => (g.sessions[n]?.map fun s => g.inboxes.size s.inbox).getD 0
  | .heartbeat | .errand | .keyCall _ => 0

/-- All parts that can move.  Sessions that are closed, and key calls that have ended, cannot. -/
def parts (g : Gateway σ) : List Part :=
  [.receiver, .router, .supervisor, .heartbeat, .errand] ++
    (List.range g.sessions.length).map .session ++ g.keyCalls.map .keyCall

end Gateway
end VehicleGateway
