import VehicleGateway.Proofs.Update.Account
import VehicleGateway.Storage.Memory

/-!
# Every update keeps to the protocol

An update that was started may find anything whenever it gets its turn: answers, wrong answers and
none, a storage, a bus or a key service that fails.  `update_keeps_protocol` says that what it
transmits is lawful in every such run, that it succeeds exactly when the whole sequence was sent and
answered, and which stage it publishes.
-/

namespace VehicleGateway

open UpdateEvent (frames replies pieces hiddens talk)

namespace Session

variable {σ : Type} [Storage σ]

omit [Storage σ] in
/-- What stands fast about a session that was just started. -/
theorem startUpdate_session {c : FirmwareConfig} {w w' : World σ} {ecu : EcuNo} {image : String}
    {secure : Bool} {s : Session} (h : w.startUpdate c ecu image secure = .ok (w', s)) :
    s.ecu = ecu ∧ s.image = image ∧ s.doing = .ready ∧
      s.dialogue = .start { ecu, secure, verifyHeader := c.verifyHeader } ∧
      s.dialogue.terms = { ecu, secure, verifyHeader := c.verifyHeader } := by
  obtain ⟨record, -, -, -, rfl⟩ := World.startUpdate_parts h
  refine ⟨rfl, rfl, rfl, rfl, ?_⟩
  unfold Dialogue.start
  dsimp only
  split <;> rfl

/-- The log of a session that was started goes with its dialogue. -/
theorem account_after {c : FirmwareConfig} {w w' : World σ} {ecu : EcuNo} {image : String}
    {secure : Bool} {s : Session} (h : w.startUpdate c ecu image secure = .ok (w', s))
    (worlds : List (World σ)) :
    (s.after c worlds).Coherent ∧ s.Account (s.log c worlds) (s.after c worlds).dialogue := by
  obtain ⟨-, -, hready, hdialogue, hterms⟩ := startUpdate_session h
  have hcoherent : s.Coherent := by simp [Coherent, hready]
  have hstart : s.Account [] s.dialogue := by
    have haccount := account_start hterms.symm
    rw [← hdialogue] at haccount
    exact haccount
  obtain ⟨hlast, haccount, -⟩ := after_induction (c := c) hcoherent [] hstart
    (fun _ _ t hd => account_hear hd t) worlds
  exact ⟨hlast, by simpa using haccount⟩

omit [Storage σ] in
/-- A session shows an end only when it is closed. -/
theorem stage_of_not_closed {s : Session} (h : s.doing ≠ .closed) : s.stage = s.dialogue.stage := by
  unfold stage result?
  cases hdoing : s.doing with
  | closed => exact absurd hdoing h
  | _ => rfl

omit [Storage σ] in
theorem stage_of_closed {s : Session} (hs : s.Coherent) (h : s.doing = .closed) :
    (s.stage = .complete ↔ s.dialogue.result? = some (.ok ())) ∧
      (s.stage = .failed ↔ s.dialogue.result? ≠ some (.ok ())) := by
  obtain ⟨result, hphase⟩ := hs.ended (.inr (.inr h))
  unfold stage result?
  rw [h]
  cases result with
  | ok u => simp [Dialogue.result?, hphase]
  | error fault => simp [Dialogue.result?, hphase]

/-- Whatever an update finds, its frames, its reads, the texts that it has encrypted and the order
of frames and answers are lawful.  It has succeeded exactly when the whole sequence of frames was
sent and each was answered as it demands; when it is closed it publishes that, and before the stage
that follows from what was seen of it. -/
theorem update_keeps_protocol (c : FirmwareConfig) {w w' : World σ} {ecu : EcuNo} {image : String}
    {secure : Bool} {s : Session} (hstart : w.startUpdate c ecu image secure = .ok (w', s))
    (worlds : List (World σ)) :
    s.Lawful (s.log c worlds) ∧
      ((s.after c worlds).dialogue.result? = some (.ok ()) ↔ s.Finished (s.log c worlds)) ∧
      ((s.after c worlds).doing = .closed →
        ((s.after c worlds).stage = .complete ↔ s.Finished (s.log c worlds)) ∧
          ((s.after c worlds).stage = .failed ↔ ¬ s.Finished (s.log c worlds))) ∧
      ((s.after c worlds).doing ≠ .closed →
        (s.after c worlds).stage = s.shown (s.log c worlds)) := by
  obtain ⟨hcoherent, haccount⟩ := account_after hstart worlds
  obtain ⟨hlawful, hfinished, hstage⟩ := haccount.sound
  refine ⟨hlawful, hfinished.symm, ?_, ?_⟩
  · intro hclosed
    obtain ⟨hcomplete, hfailed⟩ := stage_of_closed hcoherent hclosed
    exact ⟨hcomplete.trans hfinished.symm, hfailed.trans (not_congr hfinished.symm)⟩
  · intro hopen
    rw [stage_of_not_closed hopen, hstage]

/-- A world with one ECU and without any image. -/
def lonelyWorld : World Memory :=
  { registry := ⟨[{ protocol := .can, interface := 0 }]⟩, bus := { interfaces := 1 }
    storage := {} }

/-- A session that was started in that world. -/
def lonelySession : Session :=
  { ecu := 0, interface := 0, image := "image", prior := .normal, inbox := 0
    dialogue := .start { ecu := 0, secure := false, verifyHeader := true } }

/-- A plain update of the only ECU of a world sends its first frame in the third of its steps. -/
theorem lonely_update_keeps_protocol :
    (∃ w', lonelyWorld.startUpdate {} 0 "image" false = .ok (w', lonelySession)) ∧
      lonelySession.Lawful (lonelySession.log {} (List.replicate 3 lonelyWorld)) ∧
      frames (lonelySession.log {} (List.replicate 3 lonelyWorld)) = [lonelySession.resetFrame] ∧
      (lonelySession.after {} (List.replicate 3 lonelyWorld)).stage = .resetSent := by
  have hstart : ∃ w', lonelyWorld.startUpdate {} 0 "image" false = .ok (w', lonelySession) :=
    ⟨_, rfl⟩
  obtain ⟨w', hsession⟩ := hstart
  obtain ⟨hlawful, -, -, -⟩ :=
    update_keeps_protocol {} hsession (List.replicate 3 lonelyWorld)
  exact ⟨⟨w', hsession⟩, hlawful, rfl, rfl⟩

end Session
end VehicleGateway
