import VehicleGateway.Bench.Reading
import VehicleGateway.Firmware.Code

/-!
# Scripted ECUs

An ECU on a bench answers what is sent to it as its script says: a command with the answer to its
code, and a firmware frame with the answers for the number of the frame, or, where the script has
none, with what the handshake demands.
-/

namespace VehicleGateway.Bench

/-- An answer to a firmware frame. -/
structure ScriptedAnswer where
  data : Bytes
  delay : Nat
  id : Identifier

/-- The script of an ECU. -/
structure EcuScript where
  /-- The answers to the firmware frame of a number. -/
  replies : List (Nat × List ScriptedAnswer) := []
  /-- Whether frames without answers in `replies` are answered as the handshake demands. -/
  compliant : Bool := true
  challenge : Bytes := []
  /-- How long an answer that the handshake demands takes. -/
  delay : Nat := 0
  /-- The answers to commands by code. -/
  commands : List (UInt8 × Bytes) := []
  /-- The number of firmware frames so far. -/
  count : Nat := 0

/-- Scripted ECUs, and the frames that are on their way from them in the order of their planning. -/
structure Ecus where
  scripts : List (EcuNo × EcuScript) := []
  planned : List (Nat × Frame) := []

namespace EcuScript

/-- The answer that the handshake demands. -/
def demanded (s : EcuScript) (code : UInt8) (payload : Bytes) : Option Bytes :=
  if code = Firmware.chunk then some [Firmware.chunkTaken]
  else match payload with
    | [b] =>
      if b = Firmware.reset then some [Firmware.resetDone]
      else if b = Firmware.beginPlain then some [Firmware.ready]
      else if b = Firmware.beginSecure then some s.challenge
      else if b = Firmware.finish then some [Firmware.finished]
      else none
    | _ => none

/-- The answers to a firmware frame. -/
def answers (s : EcuScript) (ecu : EcuNo) (code : UInt8) (payload : Bytes) : List ScriptedAnswer :=
  match s.replies.lookup s.count with
  | some given => given
  | none =>
    if s.compliant then
      (s.demanded code payload).toList.map fun data =>
        { data, delay := s.delay, id := Identifier.firmware ecu Firmware.response }
    else []

end EcuScript

namespace Ecus

/-- The script of an ECU. -/
def script? (e : Ecus) (ecu : EcuNo) : Option EcuScript :=
  e.scripts.lookup ecu

/-- Gives an ECU another script. -/
def put (e : Ecus) (ecu : EcuNo) (s : EcuScript) : Ecus :=
  { e with scripts := e.scripts.map fun (n, old) => (n, if n = ecu then s else old) }

/-- Plans a frame. -/
def plan (e : Ecus) (due : Nat) (f : Frame) : Ecus :=
  { e with planned := e.planned ++ [(due, f)] }

/-- An ECU sees a frame that was sent to it. -/
def react (e : Ecus) (now : Nat) (f : Frame) : Ecus :=
  match (Message.significant f.id).heading with
  | .ok (.command ecu code) =>
    match (e.script? ecu).bind (·.commands.lookup code) with
    | some data => e.plan now { f with data }
    | none => e
  | .ok (.firmware ecu code) =>
    match e.script? ecu with
    | some s =>
      (s.answers ecu code f.data).foldl
        (fun e a => e.plan (now + a.delay) ⟨f.interface, a.id.raw, a.data⟩)
        (e.put ecu { s with count := s.count + 1 })
    | none => e
  | _ => e

/-- When the next planned frame is due. -/
def due? (e : Ecus) : Option Nat :=
  (e.planned.map (·.1)).min?

/-- The planned frame that is due first, if its time has come. -/
def emit? (e : Ecus) (now : Nat) : Option (Frame × Ecus) := do
  let due ← e.due?
  if now < due then none
  else
    let i ← e.planned.findIdx? (·.1 = due)
    let (_, f) ← e.planned[i]?
    some (f, { e with planned := e.planned.eraseIdx i })

end Ecus
end VehicleGateway.Bench

namespace VehicleGateway.Reading

open Bench

/-- The number that a name spells. -/
def number (name : String) : Nat := (name.toNat?).getD 0

/-- The script of an ECU. -/
def ecuScript (ecu : EcuNo) (d : Document) : EcuScript where
  replies := (d.field "replies").toEntries.map fun (n, given) =>
    (number n, given.toList.map fun a =>
      { data := a.bytes "data", delay := a.nat "delay_ms"
        id := if a.has "id" then ⟨a.quad "id"⟩
          else Identifier.firmware ecu Firmware.response })
  compliant := d.flag "compliant" true
  challenge := d.bytes "challenge"
  delay := d.nat "delay_ms"
  commands := (d.field "commands").toEntries.map fun (code, data) =>
    (.ofNat (number code), Document.unhex (data.toText?.getD ""))

/-- Scripted ECUs. -/
def ecus (d : Document) : Ecus where
  scripts := d.toEntries.map fun (n, script) =>
    (.ofNat (number n), ecuScript (.ofNat (number n)) script)

end VehicleGateway.Reading
