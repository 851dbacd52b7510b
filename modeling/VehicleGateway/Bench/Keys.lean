import VehicleGateway.Clockwork
import VehicleGateway.Bench.Element

/-!
# A bench for the key service

A vault whose calls are actors.  The bench makes calls and waits for them, starts commands, or lets
calls run on their own.
-/

namespace VehicleGateway.Bench.Keys

/-- A call and how its answer is shown. -/
structure Asked where
  request : KeyRequest
  display : KeyAnswer → Finding := Finding.keyAnswer

/-- A random block that may be shown. -/
def revealed : KeyAnswer → Finding
  | .response (.random b) => .table [("random", Finding.block b)]
  | other => Finding.keyAnswer other

/-- Reads a call, or says why the order in it cannot be made. -/
def readCall (d : Document) : Except ElementFault Asked :=
  let s := Reading.slot d "slot"
  let data := d.bytes "data"
  let start := Reading.block d "iv"
  let key := Reading.block d "key"
  match d.str "do" with
  | "load_key" =>
    .ok { request := .load s key (d.nat "counter") (Reading.flags (d.field "flags")) }
  | "set_auth_key" => .ok { request := .setMaster key }
  | "erase_keys" => .ok { request := .erase }
  | "slot_counter" => .ok { request := .count s }
  | "restore_slot" =>
    .ok { request := .remember s (if d.has "key" then some key else none) (d.nat "counter") }
  | "get_uid" => .ok { request := .identify }
  | "random" =>
    .ok { request := .ask .random .random
          display := if d.flag "show" then revealed else Finding.keyAnswer }
  | "encrypt_ecb" => .ok { request := .ask (.encryptEach s data) .data }
  | "decrypt_ecb" => .ok { request := .ask (.decryptEach s data) .data }
  | "encrypt_cbc" => .ok { request := .ask (.encryptChain s start data) .data }
  | "decrypt_cbc" => .ok { request := .ask (.decryptChain s start data) .data }
  | "generate_mac" => .ok { request := .ask (.makeMac s data) .mac }
  | "verify_mac" => .ok { request := .ask (.checkMac s data (Reading.block d "mac")) .verdict }
  | "load_plain_ram_key" =>
    .ok { request := .ask (.loadPlainKey key) .done, display := fun _ => .okay }
  | _ => (Reading.command d).map fun c => { request := .ask c .anything }

/-- An order that cannot be made. -/
def notBuilt (f : ElementFault) : Finding := .table [("build", .fault (.element f))]

/-- The errors that an answer in place of the element's own can name. -/
def elementFaults : List (String × ElementFault) := [
  ("SequenceError", .sequence), ("KeyNotAvailable", .notAvailable), ("KeyInvalid", .notPermitted),
  ("KeyEmpty", .empty), ("KeyWriteProtected", .writeProtected), ("KeyUpdateError", .updateRejected),
  ("NoDebugging", .noDebugging), ("Busy", .busy), ("MemoryFailure", .memory),
  ("Cancelled", .cancelled), ("GeneralError", .general)]

/-- An element's error by name. -/
def readElementFault (d : Document) : ElementFault :=
  match d with
  | .text name => (elementFaults.lookup name).getD .general
  | _ => .length (d.nat "InvalidLength")

/-- An answer in place of the element's own. -/
def readStand (d : Document) : Stand :=
  let r := d.field "response"
  let result : Except ElementFault Response :=
    if r.has "data" then .ok (.data (r.bytes "data"))
    else if r.has "mac" then .ok (.mac (Reading.block r "mac"))
    else if r.has "verified" then .ok (.verified (r.flag "verified"))
    else if r.has "random" then .ok (.random (Reading.block r "random"))
    else if r.has "challenge" then .ok (.challenge (Reading.block r "challenge"))
    else if r.has "key_loaded" then
      let k := r.field "key_loaded"
      let (address, proof) := Reading.halves k "m4"
      .ok (.keyLoaded { address, proof, code := Reading.block k "m5" })
    else if r.has "id" then
      let k := r.field "id"
      .ok (.identity (Reading.identity k "uid") (k.octet "status") (Reading.block k "mac"))
    else if r.has "error" then .error (readElementFault (r.field "error"))
    else .ok .done
  { command := d.str "cmd", delay := d.nat "delay_ms", result }

/-- A vault with a clock. -/
structure Room where
  now : Nat := 0
  vault : Vault
  /-- The calls of the commands that were started. -/
  started : List Nat := []
  /-- The calls that run on their own. -/
  detached : List (Nat × (KeyAnswer → Finding)) := []

instance : Clockwork Room Nat where
  now := Room.now
  setNow r t := { r with now := t }
  actors r := List.range r.vault.service.calls.length
  step? r n := (r.vault.step? r.now n).map fun vault => { r with vault }
  due? r n := r.vault.due? n
  backlog _ _ := 0

namespace Room

/-- The number of the next call. -/
def next (r : Room) : Nat := r.vault.service.calls.length

/-- Whether a call has ended. -/
def ended (r : Room) (n : Nat) : Bool := (r.vault.outcome? n).isSome

/-- A room with the service changed. -/
def withService (r : Room) (service : KeyService) : Room :=
  { r with vault := { r.vault with service } }

/-- The outcome of a call, once. -/
def take (r : Room) (n : Nat) : Room × Option KeyOutcome :=
  let (service, outcome) := r.vault.service.take n
  (r.withService service, outcome)

/-- Waits for the end of a call and takes its outcome. -/
def wait (r : Room) (n : Nat) : Room × KeyOutcome :=
  let (r', outcome) := (Clockwork.run (fun r : Room => r.ended n) r).take n
  (r', outcome.getD (.error .closed))

/-- Makes a call and waits for its end.  The call moves before all others. -/
def call (r : Room) (request : KeyRequest) : Room × KeyOutcome :=
  let n := r.next
  let opened := { r with vault := r.vault.addCall request }
  (Clockwork.turn n Clockwork.bound Clockwork.takesPerTurn false opened).1.wait n

end Room

/-- Carries out a step. -/
def act (r : Room) (d : Document) : Room × Finding :=
  let handle := d.nat "handle"
  let service := r.vault.service
  match d.str "do" with
  | "start" =>
    match Reading.command d with
    | .error f => (r, notBuilt f)
    | .ok c =>
      match r.vault.start c with
      | none => (r, .fault (.key .busy))
      | some vault =>
        ({ r with vault, started := r.started ++ [r.next] },
          .table [("handle", .number r.started.length), ("name", .text c.name)])
  | "poll" =>
    match r.started[handle]? with
    | none => (r, .none)
    | some n =>
      match r.take n with
      | (r', none) => (r', .text "pending")
      | (r', some outcome) => (r', Finding.keyOutcome Finding.keyAnswer outcome)
  | "wait" =>
    match r.started[handle]? with
    | none => (r, .none)
    | some n =>
      let (r', outcome) := r.wait n
      (r', Finding.keyOutcome Finding.keyAnswer outcome)
  | "spawn" =>
    match readCall (d.field "call") with
    | .error f => (r, notBuilt f)
    | .ok asked =>
      ({ r with
          vault := r.vault.addCall asked.request
          detached := r.detached ++ [(r.next, asked.display)] },
        .table [("handle", .number r.detached.length)])
  | "finished" =>
    (r, Finding.maybe (fun (n, _) => .truth (r.ended n)) r.detached[handle]?)
  | "join" =>
    match r.detached[handle]? with
    | none => (r, .none)
    | some (n, display) =>
      let (r', outcome) := r.wait n
      (r', Finding.keyOutcome display outcome)
  | "advance" => (Clockwork.advance r (d.nat "ms"), .okay)
  | "override" =>
    let stand := readStand (if d.has "override" then d.field "override" else d)
    let device := { r.vault.device with stands := r.vault.device.stands ++ [stand] }
    ({ r with vault := { r.vault with device } }, .okay)
  | "timeout" => (r, .table [("ms", .number service.timeout)])
  | _ =>
    match readCall d with
    | .error f => (r, notBuilt f)
    | .ok asked =>
      let (r', outcome) := r.call asked.request
      (r', Finding.keyOutcome asked.display outcome)

/-- One step, with what is seen after it. -/
def step (r : Room) (d : Document) : Room × Finding :=
  let (acted, found) := act r d
  let r' := if d.flag "hold" then acted else Clockwork.settle acted
  (r', .table [("t", .number r'.now), ("r", found),
    ("mirror", Element.counters r'.vault.service.counter?),
    ("element", Element.counters r'.vault.device.element.counter?),
    ("cancels", .number r'.vault.device.cancels)])

/-- Runs a script. -/
def run (d : Document) : Finding :=
  let device : Device :=
    { element := Reading.element d, latency := d.nat "latency_ms",
      stands := (d.each "overrides").map readStand }
  let vault : Vault := { service := { timeout := d.nat "timeout_ms" 500 }, device }
  .table [("steps", .list (Script.run step { vault } (d.each "steps")))]

end VehicleGateway.Bench.Keys
