import VehicleGateway.Proofs.Message.Heading
import VehicleGateway.Proofs.Update.Outcome
import VehicleGateway.Proofs.Update.Tidings

/-!
# What an update has noted at its end

The record of an ECU after an update is made from what the dialogue has noted: how many chunks it
has sent, whether it has rejected the header of the image, and which version it has found right.
Here is what these notes stand for.

* `Dialogue.Tallies` compares them with the frames on the bus.  Frames of others may be among those;
  all that counts is that they belong to no update of the same ECU.
* `Dialogue.Blames` says that a header was rejected exactly if the update fails for it.
* `Session.Founded` goes back from a version to the step that has read the header (`Move.opened`)
  and to the one that had the key service's word for it (`Move.verified`).

Each holds at the start, is kept by a step, and so holds of all the steps that a session has taken
since its start, which is its `Session.Course`.
-/

namespace VehicleGateway

open UpdateEvent (frames replies)

namespace Move

variable {σ : Type}

/-- The header record that a step reads, if it is one. -/
def opened [Storage σ] (m : Move σ) : List FirmwareHeader :=
  match m.session.doing, m.session.dialogue.phase with
  | .ready, .unopened =>
    match Storage.readHeader m.before.storage m.session.image with
    | .ok (some data) => (FirmwareHeader.decode data).toOption.toList
    | _ => []
  | _, _ => []

/-- The header and the image of which the key service says at a step that the tag is right. -/
def verified (m : Move σ) : List (FirmwareHeader × Bytes) :=
  match m.session.doing, m.session.dialogue.phase with
  | .calling n, .checking header image =>
    match m.before.keys.bind (·.outcome? n) with
    | some (.ok (.response (.verified true))) => [(header, image)]
    | _ => []
  | _, _ => []

/-- The frames among what is seen of a step. -/
theorem frames_events [Storage σ] (m : Move σ) : frames m.events = m.transmitted := by
  have hsilence : frames (if m.givesUp then [.silence] else []) = [] := by
    split <;> rfl
  simp only [frames] at hsilence ⊢
  simp [events, hsilence, List.filterMap_map]

end Move

namespace Dialogue

variable {ecu : EcuNo} {sent : List Frame} {d d' : Dialogue} {t : Tiding}

/-! ## What a tiding does to the notes -/

theorem Early.result? (h : d.Early) : d.result? = none := by
  unfold Early at h
  unfold Dialogue.result?
  split
  case h_1 hphase => simp [hphase] at h
  case h_2 => rfl

/-- A dialogue that has ended hears nothing any more. -/
theorem hear_of_ended {result : Except UpdateFault Unit} (h : d.result? = some result)
    (t : Tiding) : d.hear t = d := by
  unfold Dialogue.result? at h
  split at h
  case h_1 hphase => simp only [hear, hphase]
  case h_2 => cases h

theorem progress_pack (d : Dialogue) (piece : Bytes) :
    (d.pack piece).progress = { d.progress with padded := (d.pack piece).progress.padded } := by
  unfold pack
  split <;> rfl

theorem progress_proceed (d : Dialogue) (frame : UpdateFrame) :
    (d.proceed frame).progress = d.progress := by
  cases frame with
  | chunk used =>
    unfold proceed
    dsimp only
    split <;> rfl
  | reset | opening | finish => rfl

/-- All but the header record is done after the first frame. -/
theorem not_early_pack (d : Dialogue) (piece : Bytes) : ¬ (d.pack piece).Early := by
  unfold pack
  split
  case isTrue => exact fun h => h
  case isFalse => cases hsecure : d.terms.secure <;> simp [Early]

theorem not_early_proceed (d : Dialogue) (frame : UpdateFrame) : ¬ (d.proceed frame).Early := by
  cases frame with
  | chunk used =>
    unfold proceed
    dsimp only
    split <;> exact fun h => h
  | reset | opening | finish => exact fun h => h

/-- Nothing leads back to the header record. -/
theorem Hears.early (h : Hears d t d') (hearly : d'.Early) : d.Early := by
  cases h with
  | ignored => exact hearly
  | absent hphase | opened hphase | gathered hphase | measured hphase | verified hphase =>
    simp [Early, hphase]
  | rejected hbefore => exact hbefore
  | read => exact absurd hearly (not_early_pack _ _)
  | answered => exact absurd hearly (not_early_proceed _ _)
  | failed | hidden | sent | refused => exact hearly.elim

/-- A chunk is counted when it was sent. -/
theorem Hears.chunks (h : Hears d t d') :
    d'.progress.chunks = d.progress.chunks ∨
      ∃ frame payload, d.phase = .sending frame payload ∧ t = .sent := by
  cases h with
  | read => exact .inl (by rw [progress_pack])
  | answered => exact .inl (by rw [progress_proceed])
  | sent hphase => exact .inr ⟨_, _, hphase, rfl⟩
  | _ => exact .inl rfl

/-- A header is rejected before anything else. -/
theorem Hears.rejection (h : Hears d t d') :
    d'.progress.headerRejected = d.progress.headerRejected ∨
      ∃ reason, d.Early ∧ d' = d.reject reason := by
  cases h with
  | rejected hearly reason => exact .inr ⟨reason, hearly, rfl⟩
  | read => exact .inl (by rw [progress_pack])
  | answered => exact .inl (by rw [progress_proceed])
  | @sent frame => cases frame <;> exact .inl rfl
  | _ => exact .inl rfl

/-- A version is noted when the tag of the image was found right. -/
theorem Hears.version (h : Hears d t d') :
    d'.progress.version = d.progress.version ∨
      ∃ header image, d.phase = .checking header image ∧ t = .verdict true ∧
        d'.progress.version = some header.version := by
  cases h with
  | verified hphase => exact .inr ⟨_, _, hphase, rfl, rfl⟩
  | read => exact .inl (by rw [progress_pack])
  | answered => exact .inl (by rw [progress_proceed])
  | @sent frame => cases frame <;> exact .inl rfl
  | _ => exact .inl rfl

/-! ## The notes and the bus -/

/-- The notes of a dialogue go with the frames that were sent since its start. -/
structure Tallies (ecu : EcuNo) (sent : List Frame) (d : Dialogue) : Prop where
  chunks : d.progress.chunks = sent.countP (·.isChunk ecu)
  early : d.Early → ∀ f ∈ sent, f.isUpdate ecu = false
  rejected : d.progress.headerRejected = true →
    d.result? ≠ none ∧ ∀ f ∈ sent, f.isUpdate ecu = false

theorem tallies_start (ecu : EcuNo) (terms : DialogueTerms) : (start terms).Tallies ecu [] := by
  unfold start
  dsimp only
  split <;> exact ⟨rfl, by simp, by simp [sendReset, sendByte]⟩

/-- A frame is seen only when one was to be sent and was sent. -/
theorem frames_shows (d : Dialogue) (carry : UInt8 → Bytes → Frame) (t : Tiding) :
    (∃ frame payload, d.phase = .sending frame payload ∧ t = .sent ∧
        frames (d.shows carry t) = [carry frame.code payload]) ∨
      frames (d.shows carry t) = [] ∧ ∀ frame payload, d.phase = .sending frame payload →
        t ≠ .sent := by
  unfold shows
  cases hphase : d.phase with
  | sending frame payload =>
    cases t with
    | sent => exact .inl ⟨frame, payload, rfl, rfl, rfl⟩
    | _ => exact .inr ⟨rfl, by simp⟩
  | _ => cases t <;> exact .inr ⟨rfl, by simp⟩

/-- An answer is seen only when it was waited for. -/
theorem replies_shows (d : Dialogue) (carry : UInt8 → Bytes → Frame) (t : Tiding) :
    (∃ frame payload, d.phase = .awaiting frame ∧ t = .reply payload ∧
        replies (d.shows carry t) = [payload]) ∨
      replies (d.shows carry t) = [] ∧ ∀ frame payload, d.phase = .awaiting frame →
        t ≠ .reply payload := by
  unfold shows
  cases hphase : d.phase with
  | awaiting frame =>
    cases t with
    | reply payload => exact .inl ⟨frame, payload, rfl, rfl, rfl⟩
    | _ => exact .inr ⟨rfl, by simp⟩
  | _ => cases t <;> exact .inr ⟨rfl, by simp⟩

/-- What a dialogue is told, with the frames that are seen of it. -/
theorem Tallies.hear (h : d.Tallies ecu sent) {carry : UInt8 → Bytes → Frame}
    (hcarry : ∀ code payload, (carry code payload).heading = .ok (.firmware ecu code))
    (t : Tiding) : (d.hear t).Tallies ecu (sent ++ frames (d.shows carry t)) := by
  rcases d.frames_shows carry t with ⟨frame, payload, hphase, rfl, hshown⟩ | ⟨hshown, hunsent⟩
  · have hheard : d.hear .sent = d.noteSent frame := by simp only [Dialogue.hear, hphase]
    have hopen : d.result? = none := by simp [result?, hphase]
    have hkept : d.progress.headerRejected = false := by
      cases hrejected : d.progress.headerRejected with
      | false => rfl
      | true => exact absurd hopen (h.rejected hrejected).1
    rw [hheard, hshown]
    constructor
    case chunks =>
      rw [List.countP_append, ← h.chunks]
      cases frame with
      | chunk used => simp [noteSent, Frame.isChunk, hcarry, UpdateFrame.code]
      | reset | opening | finish =>
        simp [noteSent, Frame.isChunk, hcarry, UpdateFrame.code, Firmware.control, Firmware.chunk]
    case early => exact fun hearly => hearly.elim
    case rejected =>
      intro hrejected
      cases frame with
      | _ => exact absurd (hkept.symm.trans hrejected) (by simp)
  · have hheard := d.hears t
    rw [hshown, List.append_nil]
    constructor
    case chunks =>
      rcases hheard.chunks with hsame | ⟨frame, payload, hphase, ht⟩
      · exact hsame.trans h.chunks
      · exact absurd ht (hunsent frame payload hphase)
    case early => exact fun hearly => h.early (hheard.early hearly)
    case rejected =>
      intro hrejected
      rcases hheard.rejection with hsame | ⟨reason, hearly, hreject⟩
      · obtain ⟨hended, hsilent⟩ := h.rejected (hsame.symm.trans hrejected)
        obtain ⟨result, hresult⟩ := Option.ne_none_iff_exists'.mp hended
        rw [hear_of_ended hresult]
        exact ⟨hended, hsilent⟩
      · refine ⟨?_, h.early hearly⟩
        rw [hreject]
        simp [reject, fail, close, result?]

/-- A header was rejected exactly if the update fails for it. -/
def Blames (d : Dialogue) : Prop :=
  d.progress.headerRejected = true ↔ ∃ reason, d.result? = some (.error (.badHeader reason))

theorem blames_start (terms : DialogueTerms) : (start terms).Blames := by
  unfold start
  dsimp only
  split <;> simp [Blames, sendReset, sendByte, result?]

/-- It is for the dialogue alone to find that a header is bad. -/
theorem Blames.hear (h : d.Blames) (ht : ∀ reason, t ≠ .failed (.badHeader reason)) :
    (d.hear t).Blames := by
  cases hresult : d.result? with
  | some result =>
    rw [hear_of_ended hresult]
    exact h
  | none =>
    have hkept : d.progress.headerRejected ≠ true := by
      rw [Blames.eq_1 d, hresult] at h
      simp [h]
    have hheard := d.hears t
    constructor
    · intro hrejected
      rcases hheard.rejection with hsame | ⟨reason, -, hreject⟩
      · exact absurd (hsame.symm.trans hrejected) hkept
      · refine ⟨reason, ?_⟩
        rw [hreject]
        rfl
    · rintro ⟨reason, hended⟩
      rcases hheard.fault hresult hended with
        ⟨hfailed, -⟩ | ⟨_, -, -, hreject⟩ | ⟨hecu, -⟩
      · exact absurd hfailed (ht reason)
      · rw [hreject]
        rfl
      · cases hecu

/-! ## Where a header comes from -/

theorem Hears.terms (h : Hears d t d') : d'.terms = d.terms := by
  cases h with
  | read =>
    unfold pack
    split <;> rfl
  | @answered frame =>
    cases frame with
    | chunk used =>
      unfold proceed
      dsimp only
      split <;> rfl
    | reset | opening | finish => rfl
  | _ => rfl

/-- An image is measured from its first byte on, piece by piece. -/
theorem Hears.measuring (h : Hears d t d') {header : FirmwareHeader} {image : Bytes}
    (hphase : d'.phase = .measuring header image) :
    d.phase = .measuring header image ∨
      (∃ data, d.phase = .unopened ∧ t = .header (some data) ∧
        FirmwareHeader.decode data = .ok header ∧ header.target = d.terms.ecu ∧ image = []) ∨
      ∃ found piece, d.phase = .measuring header found ∧ t = .image piece ∧
        image = found ++ piece := by
  have hearly : d'.Early := by simp [Early, hphase]
  cases h with
  | ignored => exact .inl hphase
  | opened hunopened hdecode htarget =>
    cases hphase
    exact .inr (.inl ⟨_, hunopened, rfl, hdecode, htarget, rfl⟩)
  | gathered hmeasuring =>
    cases hphase
    exact .inr (.inr ⟨_, _, hmeasuring, rfl, rfl⟩)
  | measured => cases hphase
  | read => exact absurd hearly (not_early_pack _ _)
  | answered => exact absurd hearly (not_early_proceed _ _)
  | failed | absent | verified | rejected | hidden | sent | refused => exact hearly.elim

/-- A tag is checked when the image has come to its end. -/
theorem Hears.checking (h : Hears d t d') {header : FirmwareHeader} {image : Bytes}
    (hphase : d'.phase = .checking header image) :
    d.phase = .checking header image ∨
      d.phase = .measuring header image ∧ t = .image [] ∧
        image.length = header.length.toNat := by
  have hearly : d'.Early := by simp [Early, hphase]
  cases h with
  | ignored => exact .inl hphase
  | measured hmeasuring hlength =>
    cases hphase
    exact .inr ⟨hmeasuring, rfl, hlength⟩
  | opened | gathered => cases hphase
  | read => exact absurd hearly (not_early_pack _ _)
  | answered => exact absurd hearly (not_early_proceed _ _)
  | failed | absent | verified | rejected | hidden | sent | refused => exact hearly.elim

end Dialogue

/-! ## The steps behind a version -/

namespace Session

variable {σ : Type} [Storage σ]

/-- Among some steps a header was read that is meant for an ECU and fits an image, and the key
service said that its tag is right. -/
structure Vouched (steps : List (Move σ)) (ecu : EcuNo) (header : FirmwareHeader)
    (image : Bytes) : Prop where
  opened : ∃ m ∈ steps, header ∈ m.opened
  target : header.target = ecu
  length : image.length = header.length.toNat
  verified : ∃ m ∈ steps, (header, image) ∈ m.verified

theorem Vouched.append {steps : List (Move σ)} {ecu : EcuNo} {header : FirmwareHeader}
    {image : Bytes} (h : Vouched steps ecu header image) (more : List (Move σ)) :
    Vouched (steps ++ more) ecu header image := by
  obtain ⟨m, hm, hopened⟩ := h.opened
  obtain ⟨m', hm', hverified⟩ := h.verified
  exact ⟨⟨m, List.mem_append_left more hm, hopened⟩, h.target, h.length,
    m', List.mem_append_left more hm', hverified⟩

/-- What a session has made of the header of its image goes back to its steps. -/
structure Founded (steps : List (Move σ)) (s : Session) : Prop where
  terms : s.dialogue.terms.ecu = s.ecu
  /-- The header that an image is compared with was read. -/
  header : ∀ header image, s.dialogue.phase = .measuring header image ∨
    s.dialogue.phase = .checking header image →
    header.target = s.ecu ∧ ∃ m ∈ steps, header ∈ m.opened
  length : ∀ header image, s.dialogue.phase = .checking header image →
    image.length = header.length.toNat
  version : ∀ v, s.dialogue.progress.version = some v →
    ∃ header image, Vouched steps s.ecu header image ∧ header.version = v
  /-- What was found right is noted, and there is nothing else to be found. -/
  noted : ∀ m ∈ steps, ∀ p ∈ m.verified,
    s.dialogue.progress.version = some p.1.version ∧ ¬ s.dialogue.Early

/-- With the word of the key service that a tag is right its version is noted. -/
theorem step?_of_verified {c : FirmwareConfig} {w w' : World σ} {s s' : Session}
    (h : s.step? c w = some (w', s')) {p : FirmwareHeader × Bytes}
    (hp : p ∈ Move.verified ⟨w, s, w', s'⟩) :
    s'.dialogue.progress.version = some p.1.version ∧ ¬ s'.dialogue.Early := by
  unfold Move.verified at hp
  split at hp
  case h_2 => cases hp
  case h_1 n header image hdoing hphase =>
    dsimp only at hdoing hphase hp
    split at hp
    case h_2 => cases hp
    case h_1 houtcome =>
      obtain rfl := List.mem_singleton.mp hp
      obtain ⟨vault, hkeys, hverdict⟩ := Option.bind_eq_some_iff.mp houtcome
      simp only [step?, hdoing, hkeys, hverdict, Option.some.injEq] at h
      obtain ⟨rfl, rfl⟩ := Prod.mk.inj h
      have hjudged : (s.tell (.verdict true)).dialogue = s.dialogue.judge header true := by
        simp only [tell, Dialogue.hear, hphase]
      show (s.tell (.verdict true)).dialogue.progress.version = _ ∧ ¬ _
      rw [ofKeys, hjudged]
      exact ⟨rfl, fun hearly => hearly.elim⟩

/-- A header that was read remains so with more steps. -/
theorem Founded.opened {steps : List (Move σ)} {s : Session} (h : Founded steps s)
    {header : FirmwareHeader} {image : Bytes} (hphase : s.dialogue.phase = .measuring header image ∨
      s.dialogue.phase = .checking header image) (more : List (Move σ)) :
    header.target = s.ecu ∧ ∃ m ∈ steps ++ more, header ∈ m.opened := by
  obtain ⟨htarget, m, hm, hopened⟩ := h.header header image hphase
  exact ⟨htarget, m, List.mem_append_left _ hm, hopened⟩

/-- What is found right at a step is noted, if what was noted before is kept. -/
theorem Founded.noted_append {c : FirmwareConfig} {steps : List (Move σ)} {w w' : World σ}
    {s s' : Session} (h : Founded steps s) (hstep : s.step? c w = some (w', s'))
    (hkept : ∀ v, s.dialogue.progress.version = some v → ¬ s.dialogue.Early →
      s'.dialogue.progress.version = some v ∧ ¬ s'.dialogue.Early) :
    ∀ m ∈ steps ++ [⟨w, s, w', s'⟩], ∀ p ∈ m.verified,
      s'.dialogue.progress.version = some p.1.version ∧ ¬ s'.dialogue.Early := by
  intro m hm p hp
  rcases List.mem_append.mp hm with hold | hnew
  · obtain ⟨hversion, hlate⟩ := h.noted m hold p hp
    exact hkept _ hversion hlate
  · obtain rfl := List.mem_singleton.mp hnew
    exact step?_of_verified hstep hp

/-- A step at which the dialogue is told nothing. -/
theorem Founded.still {c : FirmwareConfig} {steps : List (Move σ)} {w w' : World σ}
    {s s' : Session} (h : Founded steps s) (hstep : s.step? c w = some (w', s'))
    (hsame : s'.dialogue = s.dialogue) : Founded (steps ++ [⟨w, s, w', s'⟩]) s' := by
  have hecu : s'.ecu = s.ecu := by rw [step?_keeps hstep]
  constructor
  case terms => rw [hsame, hecu]; exact h.terms
  case header =>
    rw [hsame, hecu]
    exact fun header image hphase => h.opened hphase _
  case length => rw [hsame]; exact h.length
  case version =>
    rw [hsame, hecu]
    intro v hv
    obtain ⟨header, image, hvouched, hversion⟩ := h.version v hv
    exact ⟨header, image, hvouched.append _, hversion⟩
  case noted =>
    apply h.noted_append hstep
    rw [hsame]
    exact fun v hversion hlate => ⟨hversion, hlate⟩

/-- A step at which the dialogue is told something. -/
theorem Founded.tell {c : FirmwareConfig} {steps : List (Move σ)} {w w' : World σ} {s : Session}
    {t : Tiding} (h : Founded steps s) (htold : s.Told c w t)
    (hstep : s.step? c w = some (w', s.tell t)) :
    Founded (steps ++ [⟨w, s, w', s.tell t⟩]) (s.tell t) := by
  have hheard := s.dialogue.hears t
  have hmeasuring (header : FirmwareHeader) (image : Bytes)
      (hphase : (s.dialogue.hear t).phase = .measuring header image) :
      header.target = s.ecu ∧ ∃ m ∈ steps ++ [⟨w, s, w', s.tell t⟩], header ∈ m.opened := by
    rcases hheard.measuring hphase with
      hsame | ⟨data, hunopened, rfl, hdecode, htarget, -⟩ | ⟨found, piece, hfound, -, -⟩
    · exact h.opened (.inl hsame) _
    · obtain ⟨hready, -, hread⟩ := htold.of_header
      refine ⟨htarget.trans h.terms, _, List.mem_append_right _ (List.mem_singleton_self _), ?_⟩
      simp [Move.opened, hready, hunopened, hread, hdecode, Except.toOption]
    · exact h.opened (.inl hfound) _
  constructor
  case terms => exact (congrArg DialogueTerms.ecu hheard.terms).trans h.terms
  case header =>
    rintro header image (hphase | hphase)
    · exact hmeasuring header image hphase
    · rcases hheard.checking hphase with hsame | ⟨hfound, -⟩
      · exact h.opened (.inr hsame) _
      · exact h.opened (.inl hfound) _
  case length =>
    intro header image hphase
    rcases hheard.checking hphase with hsame | ⟨-, -, hlength⟩
    · exact h.length header image hsame
    · exact hlength
  case version =>
    intro v hv
    rcases hheard.version with hsame | ⟨header, image, hphase, rfl, hversion⟩
    · obtain ⟨header, image, hvouched, hversion⟩ := h.version v (hsame.symm.trans hv)
      exact ⟨header, image, hvouched.append _, hversion⟩
    · obtain ⟨n, vault, hcalling, hkeys, houtcome⟩ := htold.of_verdict
      obtain ⟨htarget, hopened⟩ := h.opened (.inr hphase) [⟨w, s, w', s.tell (.verdict true)⟩]
      refine ⟨header, image, ⟨hopened, htarget, h.length header image hphase, _,
        List.mem_append_right _ (List.mem_singleton_self _), ?_⟩, ?_⟩
      · simp [Move.verified, hcalling, hphase, hkeys, houtcome]
      · exact Option.some.inj (hversion.symm.trans hv)
  case noted =>
    apply h.noted_append hstep
    intro v hversion hlate
    refine ⟨?_, fun hearly => hlate (hheard.early hearly)⟩
    rcases hheard.version with hsame | ⟨header, image, hphase, -, -⟩
    · exact hsame.trans hversion
    · exact absurd (by simp [Dialogue.Early, hphase]) hlate

theorem Founded.step {c : FirmwareConfig} {steps : List (Move σ)} {w w' : World σ}
    {s s' : Session} (h : Founded steps s) (hstep : s.step? c w = some (w', s')) :
    Founded (steps ++ [⟨w, s, w', s'⟩]) s' := by
  rcases step?_told hstep with hsame | ⟨t, htold, rfl⟩
  · exact h.still hstep hsame
  · exact h.tell htold hstep

/-! ## Sessions with all their steps -/

/-- What holds of a session and of all steps that it has taken. -/
structure OnRecord (steps : List (Move σ)) (s : Session) : Prop where
  coherent : s.Coherent
  tallies : s.dialogue.Tallies s.ecu (steps.flatMap Move.transmitted)
  blames : s.dialogue.Blames
  founded : Founded steps s

theorem onRecord_start {c : FirmwareConfig} {w w' : World σ} {ecu : EcuNo} {image : String}
    {secure : Bool} {s : Session} (h : w.startUpdate c ecu image secure = .ok (w', s)) :
    OnRecord ([] : List (Move σ)) s := by
  obtain ⟨hecu, -, hready, hdialogue, hterms⟩ := startUpdate_session h
  have hearly (header : FirmwareHeader) (image : Bytes) :
      s.dialogue.phase ≠ .measuring header image ∧ s.dialogue.phase ≠ .checking header image := by
    rw [hdialogue, Dialogue.start]
    dsimp only
    split <;> simp [Dialogue.sendReset, Dialogue.sendByte]
  have hversion : s.dialogue.progress.version = none := by
    rw [hdialogue, Dialogue.start]
    dsimp only
    split <;> rfl
  constructor
  case coherent => simp [Coherent, hready]
  case tallies =>
    rw [hdialogue]
    exact Dialogue.tallies_start _ _
  case blames =>
    rw [hdialogue]
    exact Dialogue.blames_start _
  case founded =>
    constructor
    case terms => rw [hterms, hecu]
    case header =>
      rintro header image (hphase | hphase)
      · exact absurd hphase (hearly header image).1
      · exact absurd hphase (hearly header image).2
    case length => exact fun header image hphase => absurd hphase (hearly header image).2
    case version =>
      intro v hv
      rw [hversion] at hv
      cases hv
    case noted =>
      intro m hm
      cases hm

/-- The identifier of a session's frames names its ECU. -/
theorem heading_frame (s : Session) (code : UInt8) (payload : Bytes) :
    (s.frame code payload).heading = .ok (.firmware s.ecu code) :=
  Identifier.heading_firmware s.ecu code

theorem OnRecord.step {c : FirmwareConfig} {steps : List (Move σ)} {w w' : World σ}
    {s s' : Session} (h : OnRecord steps s) (hstep : s.step? c w = some (w', s')) :
    OnRecord (steps ++ [⟨w, s, w', s'⟩]) s' := by
  have hecu : s'.ecu = s.ecu := by rw [step?_keeps hstep]
  obtain ⟨hcoherent, htells⟩ := step?_tells h.coherent hstep
  refine ⟨hcoherent, ?_, ?_, h.founded.step hstep⟩
  · rw [List.flatMap_append, List.flatMap_singleton, ← Move.frames_events, hecu]
    rcases htells with ⟨hevents, hsame⟩ | ⟨t, hheard, hevents⟩
    · dsimp only at hsame
      rw [hevents, hsame]
      show s.dialogue.Tallies s.ecu (_ ++ [])
      rw [List.append_nil]
      exact h.tallies
    · dsimp only at hheard hevents
      rw [hevents, hheard]
      exact h.tallies.hear s.heading_frame t
  · rcases step?_told hstep with hsame | ⟨t, htold, rfl⟩
    · rw [hsame]
      exact h.blames
    · apply h.blames.hear
      rintro reason rfl
      rcases htold.failed_cases with
        ⟨_, hfault⟩ | ⟨_, hfault⟩ | hfault | ⟨_, hfault⟩ | ⟨hfault, -⟩ <;> cases hfault

/-- The steps that a session has taken since its start, in whatever worlds it has found. -/
def Course (c : FirmwareConfig) (start : Session) (steps : List (Move σ)) (s : Session) : Prop :=
  ∃ worlds, steps = start.moves c worlds ∧ s = start.after c worlds

theorem course_start (c : FirmwareConfig) (s : Session) : Course c s ([] : List (Move σ)) s :=
  ⟨[], rfl, rfl⟩

theorem Course.step {c : FirmwareConfig} {start s s' : Session} {steps : List (Move σ)}
    {w w' : World σ} (h : Course c start steps s) (hstep : s.step? c w = some (w', s')) :
    Course c start (steps ++ [⟨w, s, w', s'⟩]) s' := by
  obtain ⟨worlds, rfl, rfl⟩ := h
  exact ⟨worlds ++ [w], by rw [moves_append, hstep], by rw [after_append, hstep]⟩

/-- What holds of a session and its steps at its start, and is kept by a step, always holds. -/
theorem Course.induction {c : FirmwareConfig} {motive : List (Move σ) → Session → Prop}
    {start s : Session} {steps : List (Move σ)} (h : Course c start steps s)
    (hcoherent : start.Coherent) (hstart : motive [] start)
    (hstep : ∀ steps w s w' s', s.Coherent → motive steps s → s.step? c w = some (w', s') →
      motive (steps ++ [⟨w, s, w', s'⟩]) s') : motive steps s := by
  obtain ⟨worlds, rfl, rfl⟩ := h
  exact moves_induction [] hcoherent hstart hstep worlds

theorem Course.onRecord {c : FirmwareConfig} {x x' : World σ} {ecu : EcuNo} {image : String}
    {secure : Bool} {start s : Session} {steps : List (Move σ)} (h : Course c start steps s)
    (hstart : x.startUpdate c ecu image secure = .ok (x', start)) : OnRecord steps s :=
  h.induction (onRecord_start hstart).coherent (onRecord_start hstart)
    fun _ _ _ _ _ _ hrecord hstep => hrecord.step hstep

end Session
end VehicleGateway
