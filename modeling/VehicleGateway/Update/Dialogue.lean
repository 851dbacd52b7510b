import VehicleGateway.Firmware.Code
import VehicleGateway.Firmware.Header
import VehicleGateway.Update.Fault

/-!
# The dialogue of an update

An update is a dialogue with one ECU.  It checks the header record of the image, if there is one,
and then sends one frame after the other: reset, begin, the image in chunks, finish.  After each
frame it waits for the answer that the frame demands.  The first thing that goes wrong ends it.

The dialogue itself touches nothing.  `Dialogue.wish?` says what it needs next, and `Dialogue.hear`
how it goes on with what it is told.
-/

namespace VehicleGateway

/-- What is fixed when an update starts. -/
structure DialogueTerms where
  ecu : EcuNo
  /-- Whether chunks are encrypted. -/
  secure : Bool
  /-- Whether the header record of the image is checked, if there is one. -/
  verifyHeader : Bool
  deriving DecidableEq, Repr

/-- What an update got done. -/
structure Progress where
  /-- The number of chunks sent. -/
  chunks : Nat := 0
  /-- The number of image bytes sent. -/
  bytes : Nat := 0
  /-- Whether a chunk was filled up with zeros. -/
  padded : Bool := false
  /-- The version in a header that was checked and found right. -/
  version : Option UInt32 := none
  /-- Whether a header was checked and found wrong. -/
  headerRejected : Bool := false
  deriving DecidableEq, Repr

/-- The frames of an update. -/
inductive UpdateFrame where
  | reset
  | opening
  /-- A chunk with some bytes of the image. -/
  | chunk (used : Nat)
  | finish
  deriving DecidableEq, Repr

/-- How far a dialogue has come. -/
inductive DialoguePhase where
  /-- The header record is needed. -/
  | unopened
  /-- The image is read, to compare it with its header. -/
  | measuring (header : FirmwareHeader) (image : Bytes)
  /-- The tag of the image is checked. -/
  | checking (header : FirmwareHeader) (image : Bytes)
  /-- The next chunk is needed. -/
  | reading
  /-- A chunk is encrypted. -/
  | encrypting (used : Nat) (chunk : Bytes)
  /-- A frame is sent. -/
  | sending (frame : UpdateFrame) (payload : Bytes)
  /-- The answer to a frame is awaited. -/
  | awaiting (frame : UpdateFrame)
  | ended (result : Except UpdateFault Unit)

/-- An update as a dialogue. -/
structure Dialogue where
  terms : DialogueTerms
  phase : DialoguePhase
  stage : Stage := .idle
  /-- What the ECU wants to see at the end of each encrypted chunk. -/
  challenge : Bytes := []
  progress : Progress := {}

/-- What a dialogue needs next. -/
inductive Wish where
  | header
  | image (offset wanted : Nat)
  | verdict (image : Bytes) (tag : Vector UInt8 16)
  | cipher (data : Bytes)
  | send (code : UInt8) (payload : Bytes)
  | reply
  deriving DecidableEq

/-- What a dialogue is told. -/
inductive Tiding where
  | header (found : Option Bytes)
  | image (data : Bytes)
  | verdict (right : Bool)
  | cipher (data : Bytes)
  | sent
  | reply (payload : Bytes)
  /-- No answer came in time. -/
  | silence
  /-- What was needed could not be had. -/
  | failed (fault : UpdateFault)
  deriving DecidableEq

namespace UpdateFrame

/-- The code in the identifier of a frame. -/
def code : UpdateFrame → UInt8
  | chunk _ => Firmware.chunk
  | _ => Firmware.control

/-- The stage of an update that has sent a frame. -/
def stage (secure : Bool) : UpdateFrame → Stage
  | reset => .resetSent
  | opening => if secure then .awaitingChallenge else .beginSent
  | chunk _ => .transferring
  | finish => .endSent

/-- The byte that answers a frame, unless it is the beginning of an encrypted update. -/
def demanded : UpdateFrame → UInt8
  | reset => Firmware.resetDone
  | opening => Firmware.ready
  | chunk _ => Firmware.chunkTaken
  | finish => Firmware.finished

end UpdateFrame

namespace Dialogue

/-- The size of the pieces in which an image is read to compare it with its header. -/
def readSize : Nat := 4096

/-- What a dialogue needs next; nothing when it has ended. -/
def wish? (d : Dialogue) : Option Wish :=
  match d.phase with
  | .unopened => some .header
  | .measuring _ image => some (.image image.length readSize)
  | .checking header image => some (.verdict image header.tag)
  | .reading => some (.image d.progress.bytes Firmware.chunkSize)
  | .encrypting _ chunk => some (.cipher (chunk ++ d.challenge))
  | .sending frame payload => some (.send frame.code payload)
  | .awaiting _ => some .reply
  | .ended _ => none

/-- Ends a dialogue. -/
def close (d : Dialogue) (result : Except UpdateFault Unit) : Dialogue :=
  { d with phase := .ended result }

/-- Ends a dialogue with a fault. -/
def fail (d : Dialogue) (fault : UpdateFault) : Dialogue :=
  d.close (.error fault)

/-- Ends a dialogue because its image does not fit its header. -/
def reject (d : Dialogue) (reason : String) : Dialogue :=
  { d with progress := { d.progress with headerRejected := true } }.fail (.badHeader reason)

/-- Sends a frame with a single byte. -/
def sendByte (d : Dialogue) (frame : UpdateFrame) (b : UInt8) : Dialogue :=
  { d with phase := .sending frame [b] }

/-- Sends the first frame. -/
def sendReset (d : Dialogue) : Dialogue :=
  d.sendByte .reset Firmware.reset

/-- Sends the frame that announces the chunks. -/
def sendOpening (d : Dialogue) : Dialogue :=
  d.sendByte .opening (if d.terms.secure then Firmware.beginSecure else Firmware.beginPlain)

/-- Sends the last frame. -/
def sendFinish (d : Dialogue) : Dialogue :=
  d.sendByte .finish Firmware.finish

/-- A dialogue at its start. -/
def start (terms : DialogueTerms) : Dialogue :=
  let d : Dialogue := { terms, phase := .unopened }
  if terms.verifyHeader then d else d.sendReset

/-- Takes up a header record. -/
def openHeader (d : Dialogue) (data : Bytes) : Dialogue :=
  match FirmwareHeader.decode data with
  | .error fault => d.reject fault.message
  | .ok header =>
    if header.target ≠ d.terms.ecu then d.reject s!"image targets ECU {header.target.toNat}"
    else { d with phase := .measuring header [] }

/-- Compares the length of the image with its header. -/
def measure (d : Dialogue) (header : FirmwareHeader) (image : Bytes) : Dialogue :=
  if image.length ≠ header.length.toNat then
    d.reject s!"length {header.length.toNat} does not match image size {image.length}"
  else { d with phase := .checking header image }

/-- Takes up a piece of the image.  Nothing is read beyond what shows that the image is too long. -/
def gather (d : Dialogue) (header : FirmwareHeader) (image piece : Bytes) : Dialogue :=
  -- An empty piece is the end of the image.
  if piece.isEmpty then d.measure header image
  else if header.length.toNat < (image ++ piece).length then d.measure header (image ++ piece)
  else { d with phase := .measuring header (image ++ piece) }

/-- Takes up the verdict on the tag of the image. -/
def judge (d : Dialogue) (header : FirmwareHeader) (right : Bool) : Dialogue :=
  if right then
    { d with progress := { d.progress with version := some header.version } }.sendReset
  else d.reject "authentication tag mismatch"

/-- Takes up the next bytes of the image; a chunk that they do not fill is filled up with zeros. -/
def pack (d : Dialogue) (piece : Bytes) : Dialogue :=
  if piece.isEmpty then d.sendFinish
  else
    let chunk := Bytes.padTo piece Firmware.chunkSize
    let padded := d.progress.padded || piece.length < Firmware.chunkSize
    { d with
      progress := { d.progress with padded }
      phase := if d.terms.secure then .encrypting piece.length chunk
        else .sending (.chunk piece.length) chunk }

/-- A frame was sent. -/
def noteSent (d : Dialogue) (frame : UpdateFrame) : Dialogue :=
  let progress := match frame with
    | .chunk used =>
      { d.progress with chunks := d.progress.chunks + 1, bytes := d.progress.bytes + used }
    | _ => d.progress
  { d with phase := .awaiting frame, stage := frame.stage d.terms.secure, progress }

/-- Goes on after the answer that a frame demands. -/
def proceed (d : Dialogue) (frame : UpdateFrame) : Dialogue :=
  match frame with
  | .reset => d.sendOpening
  | .opening => { d with phase := .reading, stage := .transferring }
  -- A chunk that had to be filled up was the last one.
  | .chunk used => if used < Firmware.chunkSize then d.sendFinish else { d with phase := .reading }
  | .finish => d.close (.ok ())

/-- Takes up a challenge. -/
def accept (d : Dialogue) (payload : Bytes) : Dialogue :=
  if payload = [Firmware.refusal] then d.fail (.refused d.stage)
  else if payload.length ≠ Firmware.challengeSize then d.fail (.challengeLength payload.length)
  else { d with challenge := payload }.proceed .opening

/-- Takes up an answer to a frame. -/
def answer (d : Dialogue) (frame : UpdateFrame) (payload : Bytes) : Dialogue :=
  if frame = .opening ∧ d.terms.secure then d.accept payload
  else if payload = [frame.demanded] then d.proceed frame
  else if payload = [Firmware.refusal] then d.fail (.refused d.stage)
  else d.fail (.unexpected d.stage payload)

/-- How a dialogue goes on with what it is told.  What it did not ask for changes nothing. -/
def hear (d : Dialogue) (tiding : Tiding) : Dialogue :=
  match d.phase, tiding with
  | .ended _, _ => d
  | _, .failed fault => d.fail fault
  | .unopened, .header none => d.sendReset
  | .unopened, .header (some data) => d.openHeader data
  | .measuring header image, .image piece => d.gather header image piece
  | .checking header _, .verdict right => d.judge header right
  | .reading, .image piece => d.pack piece
  | .encrypting used _, .cipher data => { d with phase := .sending (.chunk used) data }
  | .sending frame _, .sent => d.noteSent frame
  | .awaiting frame, .reply payload => d.answer frame payload
  | .awaiting _, .silence => d.fail (.timeout d.stage)
  | _, _ => d

/-- A dialogue after all that it is told. -/
def hearAll (d : Dialogue) (tidings : List Tiding) : Dialogue :=
  tidings.foldl hear d

/-- The end of a dialogue. -/
def result? (d : Dialogue) : Option (Except UpdateFault Unit) :=
  match d.phase with
  | .ended result => some result
  | _ => none

theorem wish?_eq_none_iff (d : Dialogue) : d.wish? = none ↔ ∃ r, d.result? = some r := by
  unfold wish? result?
  split <;> simp_all

end Dialogue
end VehicleGateway
