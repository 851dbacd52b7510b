import VehicleGateway.Config
import VehicleGateway.Update.Dialogue
import VehicleGateway.World

/-!
# Sessions

A session carries out the dialogue of an update: it reads the storage, uses the keys, sends frames
and waits for answers, each no longer than the time that is configured.  When the dialogue has
ended it closes in three steps: it gives the ECU its status and releases it, stores the record, and
only then shows how the update ended.
-/

namespace VehicleGateway

/-- What a session is doing. -/
inductive Doing where
  /-- About to turn to what the dialogue needs. -/
  | ready
  /-- A frame is under way. -/
  | flying (flight : Flight)
  /-- The key service works on a call. -/
  | calling (call : Nat)
  /-- An answer is awaited until some time. -/
  | listening (deadline : Nat)
  /-- The dialogue has ended and the ECU is released. -/
  | released
  /-- The record was stored, as far as the storage allowed. -/
  | stored
  /-- All is done. -/
  | closed

/-- A session. -/
structure Session where
  ecu : EcuNo
  /-- The interface that the ECU had at the start. -/
  interface : UInt8
  image : String
  /-- The status of the ECU before the update. -/
  prior : Status
  /-- The number of the session's inbox. -/
  inbox : Nat
  dialogue : Dialogue
  doing : Doing := .ready

/-- The report of an update that succeeded. -/
structure UpdateReport where
  ecu : EcuNo
  image : String
  secure : Bool
  chunks : Nat
  bytes : Nat
  padded : Bool
  version : Option UInt32
  deriving DecidableEq, Repr

/-- The status of an ECU after an update.  Once a chunk was sent, or the image found wrong, the
firmware of the ECU cannot be trusted; a fault of the gateway's own is shown as such; after any
other fault the ECU is as it was. -/
def Progress.status (p : Progress) (prior : Status) : Except UpdateFault Unit → Status
  | .ok () => .normal
  | .error fault =>
    if 0 < p.chunks ∨ p.headerRejected then .corrupted
    else if fault.fatal then .fault
    else prior

/-- The record of an ECU after an update. -/
def EcuRecord.afterUpdate (r : EcuRecord) (p : Progress) (prior : Status)
    (result : Except UpdateFault Unit) : EcuRecord :=
  let version := match result, p.version with
    | .ok (), some v => v
    | _, _ => r.version
  { r with status := p.status prior result, version }

namespace Session

/-- The result of a session, once it is shown. -/
def result? (s : Session) : Option (Except UpdateFault Unit) :=
  match s.doing with
  | .closed => s.dialogue.result?
  | _ => none

/-- The stage that a session shows. -/
def stage (s : Session) : Stage :=
  match s.result? with
  | some (.ok ()) => .complete
  | some (.error _) => .failed
  | none => s.dialogue.stage

/-- The report of a session, once it is shown. -/
def report? (s : Session) : Option (Except UpdateFault UpdateReport) :=
  let p := s.dialogue.progress
  s.result?.map fun result => result.map fun _ =>
    { ecu := s.ecu, image := s.image, secure := s.dialogue.terms.secure, chunks := p.chunks,
      bytes := p.bytes, padded := p.padded, version := p.version }

/-- A session that tells its dialogue something. -/
def tell (s : Session) (tiding : Tiding) : Session :=
  { s with dialogue := s.dialogue.hear tiding, doing := .ready }

/-- What the dialogue is told of an answer of the storage. -/
def ofStorage {α : Type} (f : α → Tiding) : Except StorageFault α → Tiding
  | .ok a => f a
  | .error fault => .failed (.storage fault)

/-- What the dialogue is told of a transmission. -/
def ofSent : Sent → Tiding
  | .ok () => .sent
  | .error fault => .failed (.bus fault)

/-- What the dialogue is told of an answer of the key service.  It asks for verdicts and cipher
texts only, so any other answer is as good as none. -/
def ofKeys : KeyOutcome → Tiding
  | .ok (.response (.verified right)) => .verdict right
  | .ok (.response (.data data)) => .cipher data
  | .ok _ => .failed (.key .closed)
  | .error fault => .failed (.key fault)

/-- The frame of an ECU's update. -/
def frame (s : Session) (code : UInt8) (payload : Bytes) : Frame :=
  ⟨s.interface, (Identifier.firmware s.ecu code).raw, payload⟩

/-- Whether a message is an answer of an ECU under update. -/
def isAnswer (m : Message) : Bool :=
  match m.id.heading with
  | .ok (.firmware _ code) => code = Firmware.response
  | _ => false

variable {σ : Type}

/-- Calls the key service. -/
def call (w : World σ) (s : Session) (command : Command) (want : Want) : World σ × Session :=
  match w.keys with
  | none => (w, s.tell (.failed .noKeyService))
  | some vault =>
    ({ w with keys := some (vault.addCall (.ask command want)) },
      { s with doing := .calling vault.service.calls.length })

/-- Turns to what the dialogue needs. -/
def turnTo [Storage σ] (c : FirmwareConfig) (w : World σ) (s : Session) : Wish → World σ × Session
  | .header => (w, s.tell (ofStorage .header (Storage.readHeader w.storage s.image)))
  | .image offset wanted =>
    (w, s.tell (ofStorage .image (Storage.readImage w.storage s.image offset wanted)))
  | .verdict image tag => call w s (.checkMac c.updateKey image tag) .verdict
  | .cipher data => call w s (.encryptChain c.updateKey Block.zero data) .data
  | .send code payload =>
    match w.launch c.ackTimeout (s.frame code payload) with
    | .ok flight => (w, { s with doing := .flying flight })
    | .error fault => (w, s.tell (ofSent (.error fault)))
  | .reply => (w, { s with doing := .listening (w.now + c.ackTimeout) })

/-- Gives the ECU its status and releases it. -/
def release (w : World σ) (s : Session) (result : Except UpdateFault Unit) : World σ × Session :=
  ({ w with
      registry := w.registry.modify s.ecu fun r => r.afterUpdate s.dialogue.progress s.prior result
      inboxes := w.inboxes.release s.ecu },
    { s with doing := .released })

/-- Takes the next message out of the inbox.  What is no answer is passed over and does not prolong
the wait. -/
def listen (w : World σ) (s : Session) (deadline : Nat) : Option (World σ × Session) :=
  -- A message that is there is taken even when the time is up.
  match w.inboxes.take? s.inbox with
  | some (m, inboxes) =>
    some ({ w with inboxes }, if isAnswer m then s.tell (.reply m.payload) else s)
  | none =>
    if w.inboxes.finished s.inbox then some (w, s.tell (.failed .inboxClosed))
    else if deadline ≤ w.now then some (w, s.tell .silence)
    else none

/-- The next step of a session, if it need not wait. -/
def step? [Storage σ] (c : FirmwareConfig) (w : World σ) (s : Session) :
    Option (World σ × Session) :=
  match s.doing with
  | .ready =>
    -- A dialogue needs something as long as it has no result.
    match s.dialogue.wish?, s.dialogue.result? with
    | some wish, _ => some (s.turnTo c w wish)
    | none, some result => some (s.release w result)
    | none, none => none
  | .flying flight => (w.land? flight).map fun (w', sent) => (w', s.tell (ofSent sent))
  | .calling n =>
    match w.keys with
    | none => none
    | some vault =>
      match vault.outcome? n with
      | some outcome => some (w, s.tell (ofKeys outcome))
      -- The call has no actor of its own; the session carries it on.
      | none => (vault.step? w.now n).map fun vault' => ({ w with keys := some vault' }, s)
  | .listening deadline => s.listen w deadline
  | .released => some (w.persist s.ecu, { s with doing := .stored })
  | .stored => some (w, { s with doing := .closed })
  | .closed => none

/-- When a session that waits goes on by itself. -/
def due? (w : World σ) (s : Session) : Option Nat :=
  match s.doing with
  | .flying flight => some flight.due
  | .calling n => w.keys.bind (·.due? n)
  | .listening deadline => some deadline
  | _ => none

end Session

/-- Starts an update.  It claims the ECU, gives it a new inbox and marks it as under update. -/
def World.startUpdate {σ : Type} (c : FirmwareConfig) (w : World σ) (ecu : EcuNo) (image : String)
    (secure : Bool) : Except Failure (World σ × Session) := do
  let record ← w.registry.get ecu
  if secure ∧ w.keys.isNone then
    .error (.because .security "Secure update requires a key service")
  else if secure ∧ ¬ record.secure then
    .error (.because .security s!"ECU {ecu.toNat} does not support secure update")
  else
    let (inboxes, inbox) ← w.inboxes.claim ecu (max c.sessionQueue 1)
    return ({ w with registry := w.registry.setStatus ecu .updating, inboxes },
      { ecu, interface := record.interface, image, prior := record.status, inbox,
        dialogue := .start { ecu, secure, verifyHeader := c.verifyHeader } })

end VehicleGateway
