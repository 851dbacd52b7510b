import VehicleGateway.Proofs.Update.Trace

/-!
# What a session tells its dialogue

`Dialogue.hear` takes any tiding.  A session tells its dialogue only what it has found: an answer of
the storage, of the key service, of the bus or of the ECU.

* `Dialogue.Hears` lists what a tiding can do to a dialogue, and `Dialogue.hears` says that there is
  nothing else.
* `Session.Told` lists what a session can tell, with what it is doing and where its dialogue stands,
  and `step?_told` says that a step tells that or leaves the dialogue as it is.
* `moves_induction` is induction over the steps of a run with all that each of them found.
-/

namespace VehicleGateway

/-! ## What a tiding does to a dialogue -/

/-- Whether it is the answer of the ECU, or that there is none, that an update fails for. -/
def UpdateFault.ofEcu : UpdateFault → Bool
  | .timeout _ | .unexpected _ _ | .refused _ | .challengeLength _ => true
  | _ => false

namespace Dialogue

/-- Whether the header record is not done with yet. -/
def Early (d : Dialogue) : Prop :=
  match d.phase with
  | .unopened | .measuring _ _ | .checking _ _ => True
  | _ => False

/-- What a tiding can do to a dialogue. -/
inductive Hears (d : Dialogue) : Tiding → Dialogue → Prop where
  /-- It is nothing that the dialogue asked for. -/
  | ignored {t : Tiding} : Hears d t d
  | failed {fault : UpdateFault} (hopen : d.result? = none) : Hears d (.failed fault) (d.fail fault)
  | absent (hphase : d.phase = .unopened) : Hears d (.header none) d.sendReset
  | opened {data : Bytes} {header : FirmwareHeader} (hphase : d.phase = .unopened)
      (hdecode : FirmwareHeader.decode data = .ok header) (htarget : header.target = d.terms.ecu) :
    Hears d (.header (some data)) { d with phase := .measuring header [] }
  | gathered {header : FirmwareHeader} {image piece : Bytes}
      (hphase : d.phase = .measuring header image) :
    Hears d (.image piece) { d with phase := .measuring header (image ++ piece) }
  /-- The image has come to its end, and has the length that the header gives. -/
  | measured {header : FirmwareHeader} {image : Bytes} (hphase : d.phase = .measuring header image)
      (hlength : image.length = header.length.toNat) :
    Hears d (.image []) { d with phase := .checking header image }
  | verified {header : FirmwareHeader} {image : Bytes} (hphase : d.phase = .checking header image) :
    Hears d (.verdict true)
      ({ d with progress := { d.progress with version := some header.version } }.sendReset)
  | rejected {t : Tiding} (hearly : d.Early) (reason : String) : Hears d t (d.reject reason)
  | read {piece : Bytes} (hphase : d.phase = .reading) : Hears d (.image piece) (d.pack piece)
  | hidden {used : Nat} {chunk data : Bytes} (hphase : d.phase = .encrypting used chunk) :
    Hears d (.cipher data) { d with phase := .sending (.chunk used) data }
  | sent {frame : UpdateFrame} {payload : Bytes} (hphase : d.phase = .sending frame payload) :
    Hears d .sent (d.noteSent frame)
  /-- The ECU has answered as the frame demands, at the beginning with a challenge. -/
  | answered {frame : UpdateFrame} {payload : Bytes} (hphase : d.phase = .awaiting frame)
      (challenge : Bytes) : Hears d (.reply payload) ({ d with challenge }.proceed frame)
  | refused {frame : UpdateFrame} {t : Tiding} {fault : UpdateFault}
      (hphase : d.phase = .awaiting frame) (hfault : fault.ofEcu = true) : Hears d t (d.fail fault)

theorem hears_openHeader {d : Dialogue} (hphase : d.phase = .unopened) (data : Bytes) :
    Hears d (.header (some data)) (d.openHeader data) := by
  have hearly : d.Early := by simp [Early, hphase]
  unfold openHeader
  cases hdecode : FirmwareHeader.decode data with
  | error fault => exact .rejected hearly _
  | ok header =>
    dsimp only
    split
    case isTrue => exact .rejected hearly _
    case isFalse htarget => exact .opened hphase hdecode (Decidable.of_not_not htarget)

/-- What becomes of a piece of an image that is compared with its header. -/
theorem gather_cases (d : Dialogue) (header : FirmwareHeader) (image piece : Bytes) :
    (piece = [] ∧ image.length = header.length.toNat ∧
        d.gather header image piece = { d with phase := .checking header image }) ∨
      d.gather header image piece = { d with phase := .measuring header (image ++ piece) } ∨
      ∃ reason, d.gather header image piece = d.reject reason := by
  unfold gather
  split
  case isTrue hempty =>
    unfold measure
    split
    case isTrue => exact .inr (.inr ⟨_, rfl⟩)
    case isFalse hlength =>
      exact .inl ⟨List.isEmpty_iff.mp hempty, Decidable.of_not_not hlength, rfl⟩
  case isFalse =>
    split
    case isTrue hlong =>
      have hne : (image ++ piece).length ≠ header.length.toNat := by omega
      unfold measure
      rw [if_pos hne]
      exact .inr (.inr ⟨_, rfl⟩)
    case isFalse => exact .inr (.inl rfl)

theorem hears_gather {d : Dialogue} {header : FirmwareHeader} {image : Bytes}
    (hphase : d.phase = .measuring header image) (piece : Bytes) :
    Hears d (.image piece) (d.gather header image piece) := by
  rcases d.gather_cases header image piece with ⟨rfl, hlength, hnext⟩ | hnext | ⟨reason, hnext⟩
  · rw [hnext]
    exact .measured hphase hlength
  · rw [hnext]
    exact .gathered hphase
  · rw [hnext]
    exact .rejected (by simp [Early, hphase]) reason

theorem hears_answer {d : Dialogue} {frame : UpdateFrame} (hphase : d.phase = .awaiting frame)
    (payload : Bytes) : Hears d (.reply payload) (d.answer frame payload) := by
  unfold answer
  split
  case isTrue hsecure =>
    obtain ⟨rfl, -⟩ := hsecure
    unfold accept
    split
    case isTrue => exact .refused hphase rfl
    case isFalse =>
      split
      case isTrue => exact .refused hphase rfl
      case isFalse => exact .answered hphase payload
  case isFalse =>
    split
    case isTrue => exact .answered hphase d.challenge
    case isFalse =>
      split
      case isTrue => exact .refused hphase rfl
      case isFalse => exact .refused hphase rfl

/-- What a dialogue makes of a tiding. -/
theorem hears (d : Dialogue) (t : Tiding) : Hears d t (d.hear t) := by
  cases hphase : d.phase with
  | ended result =>
    simp only [hear, hphase]
    exact .ignored
  | unopened =>
    cases t with
    | failed fault =>
      simp only [hear, hphase]
      exact .failed (by simp [result?, hphase])
    | header found =>
      cases found with
      | none =>
        simp only [hear, hphase]
        exact .absent hphase
      | some data =>
        simp only [hear, hphase]
        exact hears_openHeader hphase data
    | _ =>
      simp only [hear, hphase]
      exact .ignored
  | measuring header image =>
    cases t with
    | failed fault =>
      simp only [hear, hphase]
      exact .failed (by simp [result?, hphase])
    | image piece =>
      simp only [hear, hphase]
      exact hears_gather hphase piece
    | _ =>
      simp only [hear, hphase]
      exact .ignored
  | checking header image =>
    cases t with
    | failed fault =>
      simp only [hear, hphase]
      exact .failed (by simp [result?, hphase])
    | verdict right =>
      simp only [hear, hphase]
      cases right with
      | true => exact .verified hphase
      | false => exact .rejected (by simp [Early, hphase]) _
    | _ =>
      simp only [hear, hphase]
      exact .ignored
  | reading =>
    cases t with
    | failed fault =>
      simp only [hear, hphase]
      exact .failed (by simp [result?, hphase])
    | image piece =>
      simp only [hear, hphase]
      exact .read hphase
    | _ =>
      simp only [hear, hphase]
      exact .ignored
  | encrypting used chunk =>
    cases t with
    | failed fault =>
      simp only [hear, hphase]
      exact .failed (by simp [result?, hphase])
    | cipher data =>
      simp only [hear, hphase]
      exact .hidden hphase
    | _ =>
      simp only [hear, hphase]
      exact .ignored
  | sending frame payload =>
    cases t with
    | failed fault =>
      simp only [hear, hphase]
      exact .failed (by simp [result?, hphase])
    | sent =>
      simp only [hear, hphase]
      exact .sent hphase
    | _ =>
      simp only [hear, hphase]
      exact .ignored
  | awaiting frame =>
    cases t with
    | failed fault =>
      simp only [hear, hphase]
      exact .failed (by simp [result?, hphase])
    | reply payload =>
      simp only [hear, hphase]
      exact hears_answer hphase payload
    | silence =>
      simp only [hear, hphase]
      exact .refused hphase rfl
    | _ =>
      simp only [hear, hphase]
      exact .ignored

variable {d d' : Dialogue} {t : Tiding}

theorem stage_noteSent (d : Dialogue) (frame : UpdateFrame) :
    (d.noteSent frame).stage.terminal = false := by
  cases frame with
  | opening =>
    simp only [noteSent, UpdateFrame.stage]
    split <;> rfl
  | reset | chunk used | finish => rfl

/-- A dialogue shows no end by itself. -/
theorem Hears.stage (h : Hears d t d') (hstage : d.stage.terminal = false) :
    d'.stage.terminal = false := by
  cases h with
  | read hphase =>
    unfold pack
    split <;> exact hstage
  | @sent frame payload hphase => exact d.stage_noteSent frame
  | @answered frame payload hphase challenge =>
    cases frame with
    | chunk used =>
      simp only [proceed]
      split <;> exact hstage
    | opening => rfl
    | reset | finish => exact hstage
  | _ => exact hstage

theorem result?_pack (d : Dialogue) (piece : Bytes) : (d.pack piece).result? = none := by
  unfold pack
  split
  case isTrue => rfl
  case isFalse => cases hsecure : d.terms.secure <;> simp [result?]

/-- An answer that is as demanded does not end a dialogue with a fault. -/
theorem proceed_ne_error (d : Dialogue) (frame : UpdateFrame) (fault : UpdateFault) :
    (d.proceed frame).result? ≠ some (.error fault) := by
  intro h
  cases frame with
  | chunk used =>
    by_cases hlast : used < Firmware.chunkSize <;>
      simp [proceed, hlast, sendFinish, sendByte, result?] at h
  | reset | opening | finish => cases h

/-- What makes a dialogue fail: what it is told, its header, or the ECU. -/
theorem Hears.fault (h : Hears d t d') (hopen : d.result? = none) {fault : UpdateFault}
    (hended : d'.result? = some (.error fault)) :
    t = .failed fault ∧ d'.progress = d.progress ∨
      (∃ reason, fault = .badHeader reason ∧ d.Early ∧ d' = d.reject reason) ∨
      fault.ofEcu = true ∧ d'.progress = d.progress := by
  cases h with
  | ignored =>
    rw [hopen] at hended
    cases hended
  | failed =>
    obtain rfl : _ = fault := by simpa [fail, close, result?] using hended
    exact .inl ⟨rfl, rfl⟩
  | rejected hearly reason =>
    obtain rfl : _ = fault := by simpa [reject, fail, close, result?] using hended
    exact .inr (.inl ⟨reason, rfl, hearly, rfl⟩)
  | refused hphase hfault =>
    obtain rfl : _ = fault := by simpa [fail, close, result?] using hended
    exact .inr (.inr ⟨hfault, rfl⟩)
  | read hphase =>
    rw [result?_pack] at hended
    cases hended
  | answered hphase challenge => exact absurd hended (proceed_ne_error _ _ _)
  | _ => cases hended

end Dialogue

/-! ## What a session tells -/

namespace Session

variable {σ : Type} [Storage σ]

/-- What a session can tell its dialogue at a step. -/
inductive Told (c : FirmwareConfig) (w : World σ) (s : Session) : Tiding → Prop where
  | header (hdoing : s.doing = .ready) (hphase : s.dialogue.phase = .unopened) :
    Told c w s (ofStorage .header (Storage.readHeader w.storage s.image))
  | measured {header : FirmwareHeader} {image : Bytes} (hdoing : s.doing = .ready)
      (hphase : s.dialogue.phase = .measuring header image) :
    Told c w s (ofStorage .image
      (Storage.readImage w.storage s.image image.length Dialogue.readSize))
  | read (hdoing : s.doing = .ready) (hphase : s.dialogue.phase = .reading) :
    Told c w s (ofStorage .image
      (Storage.readImage w.storage s.image s.dialogue.progress.bytes Firmware.chunkSize))
  | keyless (hdoing : s.doing = .ready) (hkeys : w.keys = none) :
    Told c w s (.failed .noKeyService)
  | refused {fault : BusFault} (hdoing : s.doing = .ready) : Told c w s (.failed (.bus fault))
  | landed {flight : Flight} {w' : World σ} {sent : Sent} (hdoing : s.doing = .flying flight)
      (hland : w.land? flight = some (w', sent)) : Told c w s (ofSent sent)
  | outcome {n : Nat} {vault : Vault} {outcome : KeyOutcome} (hdoing : s.doing = .calling n)
      (hkeys : w.keys = some vault) (houtcome : vault.outcome? n = some outcome) :
    Told c w s (ofKeys outcome)
  | reply {deadline : Nat} {m : Message} {inboxes : Inboxes}
      (hdoing : s.doing = .listening deadline)
      (htake : w.inboxes.take? s.inbox = some (m, inboxes)) (hanswer : isAnswer m = true) :
    Told c w s (.reply m.payload)
  /-- The inbox is shut. -/
  | shut {deadline : Nat} (hdoing : s.doing = .listening deadline)
      (hfinished : w.inboxes.finished s.inbox = true) : Told c w s (.failed .inboxClosed)
  | silence {deadline : Nat} (hdoing : s.doing = .listening deadline)
      (hlate : deadline ≤ w.now) : Told c w s .silence

/-- A session that turns to what its dialogue needs has its answer at once, or only when what it
turned to comes to its end. -/
theorem turnTo_told (c : FirmwareConfig) (w : World σ) (s : Session) {wish : Wish}
    (hdoing : s.doing = .ready) (hwish : s.dialogue.wish? = some wish) :
    (s.turnTo c w wish).2.dialogue = s.dialogue ∨
      ∃ t, Told c w s t ∧ (s.turnTo c w wish).2 = s.tell t := by
  unfold Dialogue.wish? at hwish
  cases hphase : s.dialogue.phase with
  | unopened =>
    simp only [hphase, Option.some.injEq] at hwish
    subst hwish
    exact .inr ⟨_, .header hdoing hphase, rfl⟩
  | measuring header image =>
    simp only [hphase, Option.some.injEq] at hwish
    subst hwish
    exact .inr ⟨_, .measured hdoing hphase, rfl⟩
  | reading =>
    simp only [hphase, Option.some.injEq] at hwish
    subst hwish
    exact .inr ⟨_, .read hdoing hphase, rfl⟩
  | checking header image =>
    simp only [hphase, Option.some.injEq] at hwish
    subst hwish
    cases hkeys : w.keys with
    | none =>
      refine .inr ⟨_, .keyless hdoing hkeys, ?_⟩
      simp only [turnTo, call, hkeys]
    | some vault =>
      refine .inl ?_
      simp only [turnTo, call, hkeys]
  | encrypting used chunk =>
    simp only [hphase, Option.some.injEq] at hwish
    subst hwish
    cases hkeys : w.keys with
    | none =>
      refine .inr ⟨_, .keyless hdoing hkeys, ?_⟩
      simp only [turnTo, call, hkeys]
    | some vault =>
      refine .inl ?_
      simp only [turnTo, call, hkeys]
  | sending frame payload =>
    simp only [hphase, Option.some.injEq] at hwish
    subst hwish
    cases hlaunch : w.launch c.ackTimeout (s.frame frame.code payload) with
    | error fault =>
      refine .inr ⟨.failed (.bus fault), .refused hdoing, ?_⟩
      simp only [turnTo, hlaunch]
      rfl
    | ok flight =>
      refine .inl ?_
      simp only [turnTo, hlaunch]
  | awaiting frame =>
    simp only [hphase, Option.some.injEq] at hwish
    subst hwish
    exact .inl rfl
  | ended result => simp [hphase] at hwish

/-- A step of a session leaves its dialogue as it is, or tells it what the session has found. -/
theorem step?_told {c : FirmwareConfig} {w w' : World σ} {s s' : Session}
    (h : s.step? c w = some (w', s')) :
    s'.dialogue = s.dialogue ∨ ∃ t, Told c w s t ∧ s' = s.tell t := by
  cases step?_cases h with
  | turn wish hdoing hwish => exact turnTo_told c w s hdoing hwish
  | land hdoing hland => exact .inr ⟨_, .landed hdoing hland, rfl⟩
  | outcome hdoing hkeys houtcome => exact .inr ⟨_, .outcome hdoing hkeys houtcome, rfl⟩
  | take hdoing htake =>
    split
    case isTrue hanswer => exact .inr ⟨_, .reply hdoing htake hanswer, rfl⟩
    case isFalse => exact .inl rfl
  | miss hdoing htake ht =>
    rcases ht with ⟨hfinished, rfl⟩ | ⟨hlate, rfl⟩
    · exact .inr ⟨_, .shut hdoing hfinished, rfl⟩
    · exact .inr ⟨_, .silence hdoing hlate, rfl⟩
  | release | carry | persist | close => exact .inl rfl

omit [Storage σ] in
theorem failed_of_ofStorage {α : Type} {f : α → Tiding} {answer : Except StorageFault α}
    {fault : UpdateFault} (hf : ∀ a, f a ≠ .failed fault)
    (h : ofStorage f answer = .failed fault) : ∃ reason, fault = .storage reason := by
  cases answer with
  | ok a => exact absurd h (hf a)
  | error reason => exact ⟨reason, (Tiding.failed.inj h).symm⟩

/-- The storage, the key service and the bus can fail a session, and an inbox that is shut. -/
theorem Told.failed_cases {c : FirmwareConfig} {w : World σ} {s : Session} {fault : UpdateFault}
    (h : Told c w s (.failed fault)) :
    (∃ reason, fault = .storage reason) ∨ (∃ reason, fault = .key reason) ∨
      fault = .noKeyService ∨ (∃ reason, fault = .bus reason) ∨
      fault = .inboxClosed ∧ w.inboxes.finished s.inbox = true ∧
        ∃ deadline, s.doing = .listening deadline := by
  generalize ht : Tiding.failed fault = t at h
  cases h with
  | header => exact .inl (failed_of_ofStorage (by simp) ht.symm)
  | measured => exact .inl (failed_of_ofStorage (by simp) ht.symm)
  | read => exact .inl (failed_of_ofStorage (by simp) ht.symm)
  | keyless => exact .inr (.inr (.inl (Tiding.failed.inj ht)))
  | refused => exact .inr (.inr (.inr (.inl ⟨_, Tiding.failed.inj ht⟩)))
  | @landed flight w' sent =>
    cases sent with
    | ok u => cases ht
    | error reason => exact .inr (.inr (.inr (.inl ⟨reason, Tiding.failed.inj ht⟩)))
  | @outcome n vault outcome =>
    have hkey : ∃ reason, ofKeys outcome = .failed (.key reason) ∨
        ∀ fault, ofKeys outcome ≠ .failed fault := by
      unfold ofKeys
      split
      · exact ⟨.closed, .inr (by simp)⟩
      · exact ⟨.closed, .inr (by simp)⟩
      · exact ⟨.closed, .inl rfl⟩
      · exact ⟨_, .inl rfl⟩
    obtain ⟨reason, hreason | hnone⟩ := hkey
    · exact .inr (.inl ⟨reason, Tiding.failed.inj (ht.trans hreason)⟩)
    · exact absurd ht.symm (hnone fault)
  | reply => cases ht
  | shut hdoing hfinished =>
    exact .inr (.inr (.inr (.inr ⟨Tiding.failed.inj ht, hfinished, _, hdoing⟩)))
  | silence => cases ht

omit [Storage σ] in
/-- An answer of the storage is told as it is, or it is a fault. -/
theorem ok_of_ofStorage {α : Type} {f : α → Tiding} {answer : Except StorageFault α} {t : Tiding}
    (h : t = ofStorage f answer) (ht : ∀ fault, t ≠ .failed fault) :
    ∃ a, answer = .ok a ∧ t = f a := by
  cases answer with
  | ok a => exact ⟨a, rfl, h⟩
  | error fault => exact absurd h (ht _)

omit [Storage σ] in
theorem verified_of_ofKeys {outcome : KeyOutcome} {right : Bool}
    (h : Tiding.verdict right = ofKeys outcome) : outcome = .ok (.response (.verified right)) := by
  unfold ofKeys at h
  split at h <;> cases h
  rfl

/-- A header record is told of when it was read. -/
theorem Told.of_header {c : FirmwareConfig} {w : World σ} {s : Session} {found : Option Bytes}
    (h : Told c w s (.header found)) :
    s.doing = .ready ∧ s.dialogue.phase = .unopened ∧
      Storage.readHeader w.storage s.image = .ok found := by
  generalize ht : Tiding.header found = t at h
  cases h with
  | header hdoing hphase =>
    obtain ⟨a, hread, hfound⟩ := ok_of_ofStorage ht (by simp)
    cases hfound
    exact ⟨hdoing, hphase, hread⟩
  | measured | read =>
    obtain ⟨a, -, hother⟩ := ok_of_ofStorage ht (by simp)
    cases hother
  | @landed flight w' sent => cases sent <;> cases ht
  | outcome =>
    unfold ofKeys at ht
    split at ht <;> cases ht
  | keyless | refused | reply | shut | silence => cases ht

/-- A piece of the image is told of when it was read, to be measured or to be sent. -/
theorem Told.of_image {c : FirmwareConfig} {w : World σ} {s : Session} {data : Bytes}
    (h : Told c w s (.image data)) :
    s.doing = .ready ∧
      ((∃ header image, s.dialogue.phase = .measuring header image ∧
          Storage.readImage w.storage s.image image.length Dialogue.readSize = .ok data) ∨
        s.dialogue.phase = .reading ∧
          Storage.readImage w.storage s.image s.dialogue.progress.bytes Firmware.chunkSize =
            .ok data) := by
  generalize ht : Tiding.image data = t at h
  cases h with
  | header =>
    obtain ⟨a, -, hother⟩ := ok_of_ofStorage ht (by simp)
    cases hother
  | @measured header image hdoing hphase =>
    obtain ⟨a, hread, hdata⟩ := ok_of_ofStorage ht (by simp)
    cases hdata
    exact ⟨hdoing, .inl ⟨header, image, hphase, hread⟩⟩
  | read hdoing hphase =>
    obtain ⟨a, hread, hdata⟩ := ok_of_ofStorage ht (by simp)
    cases hdata
    exact ⟨hdoing, .inr ⟨hphase, hread⟩⟩
  | @landed flight w' sent => cases sent <;> cases ht
  | outcome =>
    unfold ofKeys at ht
    split at ht <;> cases ht
  | keyless | refused | reply | shut | silence => cases ht

/-- A verdict is told of when the key service has given it. -/
theorem Told.of_verdict {c : FirmwareConfig} {w : World σ} {s : Session} {right : Bool}
    (h : Told c w s (.verdict right)) :
    ∃ n vault, s.doing = .calling n ∧ w.keys = some vault ∧
      vault.outcome? n = some (.ok (.response (.verified right))) := by
  generalize ht : Tiding.verdict right = t at h
  cases h with
  | header | measured | read =>
    obtain ⟨a, -, hother⟩ := ok_of_ofStorage ht (by simp)
    cases hother
  | @landed flight w' sent => cases sent <;> cases ht
  | outcome hdoing hkeys houtcome =>
    rw [verified_of_ofKeys ht] at houtcome
    exact ⟨_, _, hdoing, hkeys, houtcome⟩
  | keyless | refused | reply | shut | silence => cases ht

/-- What is true at the start, and stays true with each step, is true of the steps of every run and
of the session at its end. -/
theorem moves_induction {c : FirmwareConfig} {motive : List (Move σ) → Session → Prop}
    {s : Session} (before : List (Move σ)) (hs : s.Coherent) (hstart : motive before s)
    (hstep : ∀ before w s w' s', s.Coherent → motive before s → s.step? c w = some (w', s') →
      motive (before ++ [⟨w, s, w', s'⟩]) s') (worlds : List (World σ)) :
    motive (before ++ moves c s worlds) (s.after c worlds) := by
  -- The steps so far are in the statement, as each step comes after them.
  induction worlds generalizing s before with
  | nil =>
    rw [moves, after, List.append_nil]
    exact hstart
  | cons w later ih =>
    cases hnext : s.step? c w with
    | none =>
      simp only [moves, after, hnext]
      exact ih before hs hstart
    | some next =>
      obtain ⟨w', s'⟩ := next
      simp only [moves, after, hnext]
      have hcoherent := (step?_tells hs hnext).1
      have hmotive := hstep before w s w' s' hs hstart hnext
      have hlast := ih (before ++ [⟨w, s, w', s'⟩]) hcoherent hmotive
      rw [List.append_assoc] at hlast
      exact hlast

end Session
end VehicleGateway
