import VehicleGateway.Keys.Call

/-!
# The key service

The service stands between its callers and one secure element.  A single token keeps commands
apart: who holds it may use the element, and it passes to the others in the order in which they
asked.  The service keeps a note of every slot that it has loaded.

The element itself is not part of this module.  `step` says how a call goes on after an event, and
`CallStage.command?` which command is with the element.
-/

namespace VehicleGateway

/-- What the service knows of a slot.  The key can be unknown. -/
structure SlotNote where
  counter : Nat
  key : Option Key
  deriving DecidableEq

/-- The key service. -/
structure KeyService where
  /-- How long to wait for the token or for the element, in milliseconds. -/
  timeout : Nat
  notes : Dictionary KeySlot SlotNote := ∅
  /-- The element's identity, once it is known. -/
  identity : Option ElementId := none
  /-- The call that holds the token. -/
  holder : Option Nat := none
  /-- The calls that wait for the token, first come first. -/
  waiting : List Nat := []
  /-- All calls by number. -/
  calls : List KeyCall := []

/-- What happens to a call. -/
inductive KeyEvent where
  /-- The caller goes on. -/
  | go
  /-- The element answers. -/
  | answer (result : Except ElementFault Response)
  /-- The element took too long. -/
  | expire
  /-- The element stopped. -/
  | stopped
  /-- The token did not come in time. -/
  | giveUp

namespace KeyService

/-- A call by number. -/
def call? (s : KeyService) (n : Nat) : Option KeyCall :=
  s.calls[n]?

/-- Puts a call in place of the one with its number. -/
def put (s : KeyService) (n : Nat) (c : KeyCall) : KeyService :=
  { s with calls := s.calls.set n c }

/-- Adds a call.  Its number is the number of calls before. -/
def addCall (s : KeyService) (request : KeyRequest) : KeyService :=
  { s with calls := s.calls ++ [{ request }] }

/-- Passes the token on to the call that has waited longest. -/
def release (s : KeyService) : KeyService :=
  { s with holder := s.waiting.head?, waiting := s.waiting.tail }

/-- Ends a call, which gives back the token if it holds it. -/
def finish (s : KeyService) (n : Nat) (c : KeyCall) (outcome : KeyOutcome) : KeyService :=
  let s' := s.put n { c with stage := .ended outcome }
  if s.holder = some n then s'.release else s'

/-- Refuses a counter that does not exceed the one noted for the slot. -/
def checkCounter (s : KeyService) (slot : KeySlot) (counter : Nat) : Except KeyFault Unit :=
  match s.notes.get? slot with
  | some note =>
    if counter ≤ note.counter then .error (.notIncreasing slot counter note.counter) else .ok ()
  | none => .ok ()

/-- The key that authorizes a load: the master key, or zero for the first master key. -/
def authority (s : KeyService) (slot : KeySlot) (counter : Nat) : Except KeyFault Key :=
  match s.checkCounter slot counter with
  | .error fault => .error fault
  | .ok () =>
    match s.notes.get? .master with
    | some note =>
      match note.key with
      | some key => .ok key
      | none => .error .noAuthority
    | none => if slot = .master then .ok Block.zero else .error .noAuthority

/-- The counter of the next master key; counters are 32 bits wide. -/
def nextMasterCounter (s : KeyService) : Nat :=
  match s.notes.get? .master with
  | some note => (note.counter + 1) % 0x100000000
  | none => 1

/-- The master key as far as it is known, else zero. -/
def masterKey (s : KeyService) : Key :=
  ((s.notes.get? .master).bind (·.key)).getD Block.zero

/-- What is judged of a load before it asks for the token. -/
def judgeLoad (s : KeyService) (slot : KeySlot) (counter : Nat) : Except KeyFault Unit :=
  if !slot.guarded then .error (.badSlot slot)
  else if KeyOrder.maxCounter < counter then .error (.overflow counter)
  else (s.authority slot counter).map fun _ => ()

/-- Settles what a call fixes when it starts, and judges it. -/
def prepare (s : KeyService) (c : KeyCall) : Except KeyFault KeyCall :=
  let c' : KeyCall :=
    { c with counter := s.nextMasterCounter, authority := s.masterKey }
  match c'.load? with
  | some (slot, _, counter, _) => (s.judgeLoad slot counter).map fun _ => c'
  | none => .ok c'

/-- The counter noted for a slot. -/
def counter? (s : KeyService) (slot : KeySlot) : Option Nat :=
  (s.notes.get? slot).map (·.counter)

/-- Takes note of a slot that was loaded before. -/
def remember (s : KeyService) (slot : KeySlot) (key : Option Key) (counter : Nat) : KeyService :=
  { s with notes := s.notes.insert slot ⟨counter, key⟩ }

/-- A call takes the token if that is free, and else gets in line. -/
def queue (s : KeyService) (now n : Nat) (c : KeyCall) : KeyService :=
  match s.holder with
  | none => { s with holder := some n }.put n { c with stage := .granted }
  | some _ =>
    { s with waiting := s.waiting ++ [n] }.put n { c with stage := .queued (now + s.timeout) }

/-- A call starts.  What concerns the notes alone is done at once, without the token. -/
def enter (s : KeyService) (now n : Nat) (c : KeyCall) : KeyService :=
  match c.request with
  | .count slot => s.finish n c (.ok (.noted (s.counter? slot)))
  | .remember slot key counter => (s.remember slot key counter).finish n c (.ok .done)
  | _ =>
    match s.prepare c with
    | .error fault => s.finish n c (.error fault)
    | .ok c' => s.queue now n c'

/-- A call that needs the element's identity goes on when that is known. -/
def proceed (s : KeyService) (n : Nat) (c : KeyCall) (element : ElementId) : KeyService :=
  match c.load? with
  | some (slot, key, counter, flags) =>
    match KeyOrder.make c.authority .master slot key counter flags element with
    | .error fault => s.finish n c (.error (.element fault))
    | .ok order => s.put n { c with stage := .loading element order }
  | none =>
    match c.request with
    | .erase => s.put n { c with stage := .challenging element }
    | _ => s.finish n c (.ok (.identity element))

/-- A call that got the token uses it for the first time.  A load is judged once more. -/
def useToken (s : KeyService) (n : Nat) (c : KeyCall) : KeyService :=
  match c.request with
  | .ask command want => s.put n { c with stage := .asking command want }
  | _ =>
    -- Other calls may have loaded the slot, or the master key, while this one waited.
    let ready : Except KeyFault KeyCall :=
      match c.load? with
      | some (slot, _, counter, _) =>
        (s.authority slot counter).map fun key => { c with authority := key }
      | none => .ok c
    match ready with
    | .error fault => s.finish n c (.error fault)
    | .ok c' =>
      match s.identity with
      | some element => s.proceed n c' element
      | none => s.put n { c' with stage := .naming }

/-- Takes note of a key that the element has stored, if its receipt is right. -/
def confirm (s : KeyService) (n : Nat) (c : KeyCall) (element : ElementId) (receipt : KeyReceipt) :
    KeyService :=
  match c.load? with
  | none => s.finish n c (.error (.unexpected "LOAD_KEY"))
  | some (slot, key, counter, _) =>
    match KeyReceipt.make .master slot key counter element with
    | .error fault => s.finish n c (.error (.element fault))
    | .ok expected =>
      -- Only who knows the new key can have made the receipt.
      if expected ≠ receipt then s.finish n c (.error .unverified)
      else match s.checkCounter slot counter with
        | .error fault => s.finish n c (.error fault)
        | .ok () =>
          { s with notes := s.notes.insert slot ⟨counter, some key⟩ }.finish n c
            (.ok c.loadedAnswer)

/-- A call goes on with a response of the element. -/
def respond (s : KeyService) (n : Nat) (c : KeyCall) (r : Response) : KeyService :=
  match c.stage, r with
  | .asking command want, r =>
    if want.fits r then s.finish n c (.ok (.response r))
    else s.finish n c (.error (.unexpected command.name))
  | .naming, .identity element _ _ => { s with identity := some element }.proceed n c element
  | .naming, _ => s.finish n c (.error (.unexpected "GET_ID"))
  | .loading element _, .keyLoaded receipt => s.confirm n c element receipt
  | .loading _ _, _ => s.finish n c (.error (.unexpected "LOAD_KEY"))
  | .challenging element, .challenge challenge =>
    s.put n { c with stage := .authorizing (Element.debugProof c.authority challenge element) }
  | .challenging _, _ => s.finish n c (.error (.unexpected "DEBUG_CHAL"))
  | .authorizing _, .done => { s with notes := ∅ }.finish n c (.ok .done)
  | .authorizing _, _ => s.finish n c (.error (.unexpected "DEBUG_AUTH"))
  | _, _ => s

/-- An event for a call.  Events that do not fit its stage change nothing. -/
def stepCall (s : KeyService) (now n : Nat) (c : KeyCall) (event : KeyEvent) : KeyService :=
  match c.stage, event with
  | .entering, .go => s.enter now n c
  | .queued _, .go => if s.holder = some n then s.put n { c with stage := .granted } else s
  | .queued _, .giveUp =>
    if s.holder = some n then s
    else { s with waiting := s.waiting.erase n }.finish n c (.error .busy)
  | .granted, .go => s.useToken n c
  | .cancelling, .stopped => s.finish n c (.error (.timeout (s.timeout * 1000)))
  | stage, .expire => if stage.command?.isSome then s.put n { c with stage := .cancelling } else s
  | stage, .answer result =>
    if stage.command?.isSome then
      match result with
      | .ok r => s.respond n c r
      | .error fault => s.finish n c (.error (.element fault))
    else s
  | _, _ => s

/-- An event for the call with a number. -/
def step (s : KeyService) (now n : Nat) (event : KeyEvent) : KeyService :=
  match s.call? n with
  | some c => s.stepCall now n c event
  | none => s

/-- Starts a command at once, if the token is free.  The number of the call is that of `addCall`. -/
def start (s : KeyService) (command : Command) : Option KeyService :=
  match s.holder with
  | some _ => none
  | none =>
    some { s with
      holder := some s.calls.length
      calls := s.calls ++ [{ request := .ask command .anything, stage := .granted }] }

/-- Hands out the outcome of a call that ended; the second time there is none. -/
def take (s : KeyService) (n : Nat) : KeyService × Option KeyOutcome :=
  match s.call? n with
  | none => (s, none)
  | some c =>
    match c.outcome? with
    | none => (s, none)
    | some outcome =>
      if c.taken then (s, some (.error .closed))
      else (s.put n { c with taken := true }, some outcome)

end KeyService
end VehicleGateway
