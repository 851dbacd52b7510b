import Mathlib.Data.List.Forall2
import VehicleGateway.Proofs.Update.Trace

/-!
# The protocol of an update

What an update may show, said of a log and not of the session that leaves it.

* `Session.canonical` is the whole sequence of frames for the pieces that the image is read in.
* `Orderly` says that frames and answers take turns, and that nothing follows an answer that is not
  the one that a frame demands, or no answer at all.
* `Lawful` puts together what holds of every log, finished or not; `Finished` is what holds of the
  log of an update that succeeds, and of no other.
* `shown` is the stage that is published after a log.
-/

namespace VehicleGateway

/-! ## What stands in a log -/

namespace UpdateEvent

/-- The frames in a log. -/
def frames (log : List UpdateEvent) : List Frame :=
  log.filterMap fun
    | frame f => some f
    | _ => none

/-- The answers in a log. -/
def replies (log : List UpdateEvent) : List Bytes :=
  log.filterMap fun
    | reply payload => some payload
    | _ => none

/-- The pieces in a log, with the places that they were read at. -/
def pieces (log : List UpdateEvent) : List (Nat × Bytes) :=
  log.filterMap fun
    | piece offset data => some (offset, data)
    | _ => none

/-- The texts in a log that were encrypted, with what became of them. -/
def hiddens (log : List UpdateEvent) : List (Bytes × Bytes) :=
  log.filterMap fun
    | hidden plain cipher => some (plain, cipher)
    | _ => none

/-- The frames and answers in a log, and the answers that did not come. -/
def talk (log : List UpdateEvent) : List UpdateEvent :=
  log.filter fun
    | frame _ | reply _ | silence => true
    | _ => false

end UpdateEvent

open UpdateEvent (frames replies pieces hiddens talk)

namespace Session

/-- Whether a session encrypts its chunks. -/
def secure (s : Session) : Bool :=
  s.dialogue.terms.secure

/-! ## The frames -/

/-- The frame that asks the ECU to enter its loader. -/
def resetFrame (s : Session) : Frame :=
  s.frame Firmware.control [Firmware.reset]

/-- The byte that announces the chunks. -/
def openingByte (s : Session) : UInt8 :=
  if s.secure then Firmware.beginSecure else Firmware.beginPlain

/-- The frame that announces the chunks. -/
def openingFrame (s : Session) : Frame :=
  s.frame Firmware.control [s.openingByte]

/-- The frame that carries a chunk. -/
def chunkFrame (s : Session) (payload : Bytes) : Frame :=
  s.frame Firmware.chunk payload

/-- The frame that says that the image is complete. -/
def finishFrame (s : Session) : Frame :=
  s.frame Firmware.control [Firmware.finish]

/-- The frames for an image that is read in given pieces, and for what the pieces are sent as.  The
first piece that does not fill a chunk is the last one; if it is empty there is no chunk for it. -/
def body (s : Session) : (pieces payloads : List Bytes) → List Frame
  | [], _ => []
  | [] :: _, _ => [s.finishFrame]
  | _ :: _, [] => []
  | piece :: pieces, payload :: payloads =>
    s.chunkFrame payload ::
      if piece.length < Firmware.chunkSize then [s.finishFrame] else s.body pieces payloads

/-- All frames of an update. -/
def canonical (s : Session) (pieces payloads : List Bytes) : List Frame :=
  s.resetFrame :: s.openingFrame :: s.body pieces payloads

/-- What the pieces in a log are sent as: themselves, filled up with zeros, or what the key service
has made of them. -/
def payloads (s : Session) (log : List UpdateEvent) : List Bytes :=
  if s.secure then (hiddens log).map (·.2)
  else (pieces log).map fun p => Bytes.padTo p.2 Firmware.chunkSize

/-- The frames that are to be sent, as far as the pieces in a log go. -/
def script (s : Session) (log : List UpdateEvent) : List Frame :=
  s.canonical ((pieces log).map (·.2)) (s.payloads log)

/-! ## The answers -/

/-- Whether an answer is the one that the opening demands: a certain byte, or any challenge. -/
def Welcomes (s : Session) (payload : Bytes) : Prop :=
  if s.secure then payload.length = Firmware.challengeSize else payload = [Firmware.ready]

/-- Whether an answer is the one that a frame demands. -/
def Demands (s : Session) (f : Frame) (payload : Bytes) : Prop :=
  (f = s.resetFrame ∧ payload = [Firmware.resetDone]) ∨
    (f = s.openingFrame ∧ s.Welcomes payload) ∨
    ((∃ chunk, f = s.chunkFrame chunk) ∧ payload = [Firmware.chunkTaken]) ∨
    (f = s.finishFrame ∧ payload = [Firmware.finished])

/-- Frames and answers take turns.  A frame comes first, and every other one right after the answer
that the frame before it demands; any other answer, or none, is the end. -/
def Orderly (s : Session) : List UpdateEvent → Prop
  | [] => True
  | [.frame _] => True
  | [.frame _, .silence] => True
  | .frame f :: .reply payload :: rest => (s.Demands f payload ∧ s.Orderly rest) ∨ rest = []
  | _ => False

/-- The challenge in a log: the answer to the second frame. -/
def challengeIn (log : List UpdateEvent) : Bytes :=
  (replies log)[1]?.getD []

/-- Pieces that are read one after the other from a place on; only the last one may be too short for
a chunk. -/
def InOrder : (offset : Nat) → List (Nat × Bytes) → Prop
  | _, [] => True
  | offset, (place, data) :: rest =>
    place = offset ∧ (rest = [] ∨ Firmware.chunkSize ≤ data.length) ∧
      InOrder (offset + data.length) rest

/-- The texts that are to be encrypted for the pieces in a log: each with the challenge at its
end. -/
def texts (s : Session) (log : List UpdateEvent) : List Bytes :=
  if s.secure then
    ((pieces log).filter fun p => !p.2.isEmpty).map fun p =>
      Bytes.padTo p.2 Firmware.chunkSize ++ challengeIn log
  else []

/-- What holds of the log of every update, as far as it has come and however it ends. -/
structure Lawful (s : Session) (log : List UpdateEvent) : Prop where
  frames : frames log <+: s.script log
  pieces : InOrder 0 (pieces log)
  texts : (hiddens log).map (·.1) <+: s.texts log
  talk : s.Orderly (talk log)

/-- The whole sequence was sent, and each frame was answered as it demands. -/
def Finished (s : Session) (log : List UpdateEvent) : Prop :=
  UpdateEvent.frames log = s.script log ∧ s.finishFrame ∈ UpdateEvent.frames log ∧
    List.Forall₂ s.Demands (UpdateEvent.frames log) (replies log)

/-! ## The stage -/

/-- The stage after an event. -/
def shownAfter (s : Session) (stage : Stage) : UpdateEvent → Stage
  | .frame f =>
    if f = s.resetFrame then .resetSent
    else if f = s.openingFrame then if s.secure then .awaitingChallenge else .beginSent
    else if f = s.finishFrame then .endSent
    else .transferring
  | .reply payload =>
    match stage with
    | .beginSent => if payload = [Firmware.ready] then .transferring else stage
    | .awaitingChallenge =>
      if payload.length = Firmware.challengeSize then .transferring else stage
    | _ => stage
  | _ => stage

/-- The stage that is published after a log, as long as the session is not closed. -/
def shown (s : Session) (log : List UpdateEvent) : Stage :=
  log.foldl s.shownAfter .idle

/-! ## The frames are different from each other -/

theorem openingFrame_ne_resetFrame (s : Session) : s.openingFrame ≠ s.resetFrame := by
  unfold openingFrame resetFrame openingByte frame
  cases s.secure <;> simp [Firmware.beginSecure, Firmware.beginPlain, Firmware.reset]

theorem finishFrame_ne_resetFrame (s : Session) : s.finishFrame ≠ s.resetFrame := by
  simp [finishFrame, resetFrame, frame, Firmware.finish, Firmware.reset]

theorem finishFrame_ne_openingFrame (s : Session) : s.finishFrame ≠ s.openingFrame := by
  unfold openingFrame finishFrame openingByte frame
  cases s.secure <;> simp [Firmware.beginSecure, Firmware.beginPlain, Firmware.finish]

/-- A frame with a chunk has an identifier of its own. -/
theorem chunkFrame_ne_frame (s : Session) (chunk payload : Bytes) :
    s.chunkFrame chunk ≠ s.frame Firmware.control payload := by
  intro h
  have hid : (Identifier.firmware s.ecu Firmware.chunk).raw.toNat =
      (Identifier.firmware s.ecu Firmware.control).raw.toNat :=
    congrArg (fun f : Frame => f.id.toNat) h
  have hecu := s.ecu.toNat_lt
  simp only [Identifier.firmware, Identifier.assemble, Category.mark, Firmware.chunk,
    Firmware.control, UInt32.toNat_ofNat', UInt8.reduceToNat] at hid
  omega

end Session
end VehicleGateway
