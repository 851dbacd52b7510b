import VehicleGateway.Proofs.Keys.Encryption
import VehicleGateway.Proofs.Update.Calling
import VehicleGateway.Proofs.Update.Outcome

/-!
# A world that does its part

A run without end, in which the session gets its turn again and again.

* `Cooperation` says what the rest of the world does for an update: time passes, the storage serves
  the image, the bus takes every frame in time, and the ECU gives the answer that a frame demands
  before the session gives up waiting for it.  `KeyCooperation` adds what an encrypted update needs
  of the keys.
* The lemmas say what becomes of each wish of a dialogue in such a run: `image_comes`, `frame_goes`,
  `reply_comes`, `cipher_comes`.
-/

namespace VehicleGateway

namespace Session

variable {σ : Type} [Storage σ]

/-- What the rest of the world does for an update with an image. -/
structure Cooperation (c : FirmwareConfig) (s : Session) (w : Nat → World σ) (image : Bytes) :
    Prop where
  /-- Time does not run backwards. -/
  forward : ∀ i, (w i).now ≤ (w (i + 1)).now
  /-- Every time comes. -/
  passes : ∀ time, ∃ i, time ≤ (w i).now
  /-- The storage keeps the image and serves it. -/
  image : ∀ i offset wanted,
    Storage.readImage (w i).storage s.image offset wanted = .ok (Bytes.window image offset wanted)
  /-- There is no header, or it is not checked. -/
  header : c.verifyHeader = false ∨ ∀ i, Storage.readHeader (w i).storage s.image = .ok none
  /-- The bus takes every frame, and fast enough. -/
  bus : ∀ i, (w i).bus.connected = true ∧ s.interface < (w i).bus.interfaces ∧
    (w i).bus.latency ≤ c.ackTimeout
  /-- Others only append to the inbox. -/
  inbox : ∀ i, ∃ new, (w (i + 1)).inboxes.items s.inbox =
    (s.left c w i).inboxes.items s.inbox ++ new
  /-- While the session waits for the answer to a frame, the first answer in its inbox is the one
  that the frame demands, and there is one when the time is up. -/
  reply : ∀ i frame deadline, (s.turn c w i).dialogue.phase = .awaiting frame →
    (s.turn c w i).doing = .listening deadline →
      (w i).inboxes.finished s.inbox = false ∧
      (∀ m, ((w i).inboxes.items s.inbox).find? isAnswer = some m → s.Answers frame m.payload) ∧
      (deadline ≤ (w i).now → ∃ m ∈ (w i).inboxes.items s.inbox, isAnswer m = true)

/-- What the keys and their users do for an encrypted update. -/
structure KeyCooperation (c : FirmwareConfig) (s : Session) (w : Nat → World σ) (key : Key) :
    Prop where
  /-- There is an element with a usable key that answers in time. -/
  serves : ∀ i, ∃ vault, (w i).keys = some vault ∧ vault.Serves c.updateKey key
  /-- Nothing is under way for calls that were not made. -/
  idle : ∀ i vault n, (w i).keys = some vault → vault.service.calls.length ≤ n →
    vault.underWay.get? n = none
  /-- The session's call has the token when its time to wait for it is up. -/
  token : ∀ i n vault, (s.turn c w i).doing = .calling n → (w i).keys = some vault →
    vault.TokenInTime (w i).now n
  /-- Others leave the session's call alone. -/
  untouched : ∀ i n vault vault', (s.turn c w (i + 1)).doing = .calling n →
    (s.left c w i).keys = some vault → (w (i + 1)).keys = some vault' → vault.Untouched n vault'

variable {c : FirmwareConfig} {s : Session} {w : Nat → World σ} {image : Bytes} {key : Key}

theorem Cooperation.time (h : Cooperation c s w image) : TimePasses w :=
  ⟨h.forward, h.passes⟩

/-! ## What becomes of a wish -/

variable {i : Nat} {d : Dialogue}

/-- A frame that fits the bus is transmitted. -/
theorem Cooperation.frame_goes (h : Cooperation c s w image) (hready : s.Ready c w i d)
    {frame : UpdateFrame} {payload : Bytes} (hphase : d.phase = .sending frame payload)
    (hfits : payload.length ≤ Message.maxPayload) :
    ∃ j, i < j ∧ s.Ready c w j (d.noteSent frame) := by
  obtain ⟨hconnected, hinterface, hlatency⟩ := h.bus i
  have hkeeps : (s.turn c w i).interface = s.interface := by rw [turn_keeps]
  have hstep := hready.step? (.send frame.code payload) (by simp [Dialogue.wish?, hphase])
  have hlaunch : (w i).launch c.ackTimeout ((s.turn c w i).frame frame.code payload) =
      .ok { frame := (s.turn c w i).frame frame.code payload
            arrival := (w i).now + (w i).bus.latency, limit := (w i).now + c.ackTimeout } := by
    have hinside : ¬ (w i).bus.interfaces ≤ s.interface := UInt8.not_le.mpr hinterface
    have hshort : ¬ Message.maxPayload < payload.length := not_lt.mpr hfits
    simp [World.launch, Bus.launch, Bus.refusal, hconnected, Session.frame, hkeeps, hinside, hshort]
  simp only [turnTo, hlaunch] at hstep
  obtain ⟨hflying, -⟩ := turn_succ hstep
  -- As long as the frame is on its way the session lands it as soon as it has arrived.
  have hland (k : Nat) (hk : s.turn c w k = s.turn c w (i + 1)) :
      (s.turn c w k).step? c (w k) =
        if (w i).now + (w i).bus.latency ≤ (w k).now then
          some ({ (w k) with
            bus := (w k).bus.transmit (w k).now ((s.turn c w i).frame frame.code payload) },
            (s.turn c w k).tell .sent)
        else none := by
    rw [hk, hflying]
    have hintime : (w i).now + (w i).bus.latency ≤ (w i).now + c.ackTimeout := by omega
    simp only [Session.step?, World.land?, Bus.land, hintime, if_true]
    split <;> rfl
  obtain ⟨j, hj, hsame, hmoves⟩ := h.time.goes_on (P := fun k => s.turn c w k = s.turn c w (i + 1))
    (i := i + 1) ((w i).now + (w i).bus.latency) rfl
    (fun k _ hk hwait => (turn_wait hwait).1.trans hk)
    (fun k _ hk htime => by rw [hland k hk, if_pos htime]; exact Option.some_ne_none _)
  have hgone : (w i).now + (w i).bus.latency ≤ (w j).now := by
    by_contra hearly
    rw [hland j hsame, if_neg hearly] at hmoves
    exact hmoves rfl
  have hsent := hland j hsame
  rw [if_pos hgone] at hsent
  have hdialogue : (s.turn c w j).dialogue = d := by
    rw [hsame, hflying]
    exact hready.1
  refine ⟨j + 1, by omega, ?_⟩
  simpa [Dialogue.hear, hphase] using ready_of_tell hsent hdialogue

omit [Storage σ] in
/-- The oldest message of an inbox can be taken out. -/
theorem take?_of_items {inboxes : Inboxes} {n : Nat} {m : Message} {rest : List Message}
    (h : inboxes.items n = m :: rest) :
    ∃ inboxes', inboxes.take? n = some (m, inboxes') ∧ inboxes'.items n = rest := by
  cases htake : inboxes.take? n with
  | none =>
    rw [Inboxes.items_of_take?_eq_none htake] at h
    cases h
  | some taken =>
    obtain ⟨m', inboxes'⟩ := taken
    obtain ⟨rfl, hrest⟩ := List.cons.inj ((Inboxes.items_of_take? htake).symm.trans h)
    exact ⟨inboxes', rfl, hrest⟩

/-- A session that listens at its turn takes up the answer that its frame demands, or it goes on
listening: its inbox is empty, or a message is passed over. -/
theorem Cooperation.listens (h : Cooperation c s w image) {k deadline : Nat} {frame : UpdateFrame}
    (hlistening : (s.turn c w k).doing = .listening deadline)
    (hphase : (s.turn c w k).dialogue.phase = .awaiting frame) :
    (∃ payload, s.Answers frame payload ∧
        s.Ready c w (k + 1) ((s.turn c w k).dialogue.answer frame payload)) ∨
      s.turn c w (k + 1) = s.turn c w k ∧
        ((w k).inboxes.items s.inbox = [] ∨
          ∃ m, isAnswer m = false ∧
            (w k).inboxes.items s.inbox = m :: (s.left c w k).inboxes.items s.inbox) := by
  obtain ⟨hopen, hfirst, hlate⟩ := h.reply k frame deadline hphase hlistening
  have hbox : (s.turn c w k).inbox = s.inbox := by rw [turn_keeps]
  have hstep : (s.turn c w k).step? c (w k) = (s.turn c w k).listen (w k) deadline := by
    simp only [Session.step?, hlistening]
  cases hitems : (w k).inboxes.items s.inbox with
  | nil =>
    -- The inbox is empty, so the time is not up.
    have hearly : ¬ deadline ≤ (w k).now := by
      intro htime
      obtain ⟨m, hm, -⟩ := hlate htime
      rw [hitems] at hm
      cases hm
    have hnone : (w k).inboxes.take? s.inbox = none := by
      cases htake : (w k).inboxes.take? s.inbox with
      | none => rfl
      | some taken =>
        have hcons := Inboxes.items_of_take? htake
        rw [hitems] at hcons
        cases hcons
    have hwait : (s.turn c w k).step? c (w k) = none := by
      rw [hstep, listen, hbox, hnone]
      simp [hopen, hearly]
    exact .inr ⟨(turn_wait hwait).1, .inl rfl⟩
  | cons m rest =>
    obtain ⟨inboxes', htake, hrest⟩ := take?_of_items hitems
    rw [listen, hbox, htake] at hstep
    cases hanswer : isAnswer m with
    | true =>
      have hright : s.Answers frame m.payload := hfirst m (by simp [hitems, hanswer])
      simp only [hanswer, if_true] at hstep
      refine .inl ⟨m.payload, hright, ?_⟩
      simpa [Dialogue.hear, hphase] using ready_of_tell hstep rfl
    | false =>
      simp only [hanswer, Bool.false_eq_true, if_false] at hstep
      obtain ⟨hsame, hleft⟩ := turn_succ hstep
      refine .inr ⟨hsame, .inr ⟨m, hanswer, ?_⟩⟩
      rw [hleft, hrest]

/-- An answer that is in the inbox is reached: the messages before it are passed over. -/
theorem Cooperation.answer_reached (h : Cooperation c s w image) {deadline : Nat}
    {frame : UpdateFrame} (before : List Message) :
    ∀ {k : Nat} {m : Message} {behind : List Message},
      (s.turn c w k).dialogue = d → (s.turn c w k).doing = .listening deadline →
      d.phase = .awaiting frame → isAnswer m = true →
      (w k).inboxes.items s.inbox = before ++ m :: behind →
      ∃ j payload, k < j ∧ s.Answers frame payload ∧ s.Ready c w j (d.answer frame payload) := by
  induction before with
  | nil =>
    intro k m behind hdialogue hlistening hphase hanswer hitems
    rcases h.listens hlistening (by rw [hdialogue]; exact hphase) with
      ⟨payload, hright, hready⟩ | ⟨-, hnil | ⟨m', hother, hcons⟩⟩
    · rw [hdialogue] at hready
      exact ⟨k + 1, payload, by omega, hright, hready⟩
    · rw [hitems] at hnil
      cases hnil
    · obtain ⟨rfl, -⟩ := List.cons.inj (hitems.symm.trans hcons)
      rw [hanswer] at hother
      cases hother
  | cons first before ih =>
    intro k m behind hdialogue hlistening hphase hanswer hitems
    rcases h.listens hlistening (by rw [hdialogue]; exact hphase) with
      ⟨payload, hright, hready⟩ | ⟨hsame, hnil | ⟨m', hother, hcons⟩⟩
    · rw [hdialogue] at hready
      exact ⟨k + 1, payload, by omega, hright, hready⟩
    · rw [hitems] at hnil
      cases hnil
    · obtain ⟨-, hleft⟩ := List.cons.inj (hitems.symm.trans hcons)
      obtain ⟨new, hnew⟩ := h.inbox k
      -- The first message is gone, and new ones come behind the answer.
      have hnext : (w (k + 1)).inboxes.items s.inbox = before ++ m :: (behind ++ new) := by
        rw [hnew, ← hleft]
        simp
      obtain ⟨j, payload, hj, hright, hready⟩ := ih (by rw [hsame]; exact hdialogue)
        (by rw [hsame]; exact hlistening) hphase hanswer hnext
      exact ⟨j, payload, by omega, hright, hready⟩

/-- The answer that a frame demands is taken up. -/
theorem Cooperation.reply_comes (h : Cooperation c s w image) (hready : s.Ready c w i d)
    {frame : UpdateFrame} (hphase : d.phase = .awaiting frame) :
    ∃ j payload, i < j ∧ s.Answers frame payload ∧ s.Ready c w j (d.answer frame payload) := by
  have hstep := hready.step? .reply (by simp [Dialogue.wish?, hphase])
  obtain ⟨hnext, -⟩ := turn_succ hstep
  have hlistening : (s.turn c w (i + 1)).doing = .listening ((w i).now + c.ackTimeout) := by
    rw [hnext]
  have hdialogue : (s.turn c w (i + 1)).dialogue = d := by
    rw [hnext]
    exact hready.1
  by_contra hnever
  -- Then it listens forever, past its deadline, and by then the answer is in the inbox.
  have hstays : ∀ n, s.turn c w (i + 1 + n) = s.turn c w (i + 1) := by
    intro n
    induction n with
    | zero => rfl
    | succ n ih =>
      rcases h.listens (k := i + 1 + n) (by rw [ih]; exact hlistening)
        (by rw [ih, hdialogue]; exact hphase) with ⟨payload, hright, hanswered⟩ | ⟨hsame, -⟩
      · rw [ih, hdialogue] at hanswered
        exact absurd ⟨_, payload, by omega, hright, hanswered⟩ hnever
      · exact hsame.trans ih
  obtain ⟨late, hlate⟩ := h.passes ((w i).now + c.ackTimeout)
  have htime : (w i).now + c.ackTimeout ≤ (w (i + 1 + late)).now :=
    hlate.trans (h.time.now_le (Nat.le_add_left late (i + 1)))
  obtain ⟨-, -, hthere⟩ := h.reply (i + 1 + late) frame _ (by rw [hstays, hdialogue]; exact hphase)
    (by rw [hstays]; exact hlistening)
  obtain ⟨m, hm, hanswer⟩ := hthere htime
  obtain ⟨before, behind, hitems⟩ := List.append_of_mem hm
  obtain ⟨j, payload, hj, hright, hreached⟩ := h.answer_reached before
    (by rw [hstays]; exact hdialogue) (by rw [hstays]; exact hlistening) hphase hanswer hitems
  exact hnever ⟨j, payload, by omega, hright, hreached⟩

/-! ## Encryption -/

variable {used : Nat} {chunk cipher : Bytes}

/-- While a chunk waits to be encrypted the keys do their part. -/
theorem KeyCooperation.keyHelp (hkeys : KeyCooperation c s w key)
    (hcipher : Block.encryptChain key Block.zero (chunk ++ d.challenge) = .ok cipher) :
    KeyHelp c s w d (.encryptChain c.updateKey Block.zero (chunk ++ d.challenge))
      (.data cipher) := by
  refine ⟨?_, ?_, ?_, ?_⟩
  · intro i _
    obtain ⟨vault, hvault, hserves⟩ := hkeys.serves i
    exact ⟨vault, hvault, hserves.replies hcipher⟩
  · exact fun i vault n _ hvault hn => hkeys.idle i vault n hvault hn
  · exact fun i n vault _ hdoing hvault => hkeys.token i n vault hdoing hvault
  · exact fun i n vault vault' _ hdoing hleft hvault =>
      hkeys.untouched i n vault vault' hdoing hleft hvault

end Session
end VehicleGateway
