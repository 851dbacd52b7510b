import VehicleGateway.Update.Session

/-!
# What a session can be seen to do

Between two steps of a session everybody else may do anything: put answers into its inbox or into
another, let time pass, lose the storage.  So a run of a session is given by the worlds that it
finds whenever it gets its turn, and nothing is assumed about them.

* `Session.moves` is the list of the steps that a session takes in such a run, and `Session.after`
  is the session at its end.
* `Move.events` is what can be seen of one step from outside: the frames that are new in the record
  of the bus, the answers that are gone from the inbox, the pieces of the image that were read, the
  chunks that the key service has encrypted, and that an answer did not come.
* `Session.log` is what is seen in the whole run.
* `World.startUpdate_parts` says with what a session begins.
* `Session.Step` lists what one step can be, and `step?_cases` says that there is nothing else.
* `step?_tells` says what one step shows: nothing, and the dialogue stays as it is, or the dialogue
  is told something and `Dialogue.shows` is what is seen of that.
-/

namespace VehicleGateway

/-- The messages in an inbox, the oldest first. -/
def Inboxes.items (i : Inboxes) (n : Nat) : List Message :=
  match i.boxes[n]? with
  | some box => box.items
  | none => []

/-- A step of a session: what it finds, and what it leaves. -/
structure Move (σ : Type) where
  before : World σ
  session : Session
  after : World σ
  next : Session

/-- Something that can be seen of a session. -/
inductive UpdateEvent where
  /-- A frame was transmitted. -/
  | frame (f : Frame)
  /-- An answer of the ECU was taken out of the inbox. -/
  | reply (payload : Bytes)
  /-- No answer came. -/
  | silence
  /-- The next piece of the image was read. -/
  | piece (offset : Nat) (data : Bytes)
  /-- The key service has encrypted a text. -/
  | hidden (plain cipher : Bytes)
  deriving DecidableEq

namespace Move

variable {σ : Type}

/-- The frames that a step transmits, the first one first. -/
def transmitted (m : Move σ) : List Frame :=
  let new := m.after.bus.record.length - m.before.bus.record.length
  (m.after.bus.record.take new).reverse.map (·.2)

/-- The answers that a step takes out of the session's inbox. -/
def consumed (m : Move σ) : List Bytes :=
  let found := m.before.inboxes.items m.session.inbox
  let left := m.after.inboxes.items m.session.inbox
  ((found.take (found.length - left.length)).filter Session.isAnswer).map (·.payload)

/-- The pieces that a step reads of the image, in order to send them. -/
def read [Storage σ] (m : Move σ) : List (Nat × Bytes) :=
  match m.session.doing, m.session.dialogue.phase with
  | .ready, .reading =>
    let offset := m.session.dialogue.progress.bytes
    match Storage.readImage m.before.storage m.session.image offset Firmware.chunkSize with
    | .ok data => [(offset, data)]
    | .error _ => []
  | _, _ => []

/-- The texts that the key service was asked to encrypt, and has encrypted. -/
def encrypted (m : Move σ) : List (Bytes × Bytes) :=
  match m.session.doing, m.session.dialogue.wish? with
  | .calling n, some (.cipher plain) =>
    match m.before.keys.bind (·.outcome? n) with
    | some (.ok (.response (.data cipher))) => [(plain, cipher)]
    | _ => []
  | _, _ => []

/-- Whether a step gives up waiting for an answer. -/
def givesUp (m : Move σ) : Bool :=
  match m.session.doing with
  | .listening _ => (m.before.inboxes.items m.session.inbox).isEmpty
  | _ => false

/-- What can be seen of a step. -/
def events [Storage σ] (m : Move σ) : List UpdateEvent :=
  m.transmitted.map .frame ++ m.consumed.map .reply ++ (if m.givesUp then [.silence] else []) ++
    m.read.map (fun p => .piece p.1 p.2) ++ m.encrypted.map fun p => .hidden p.1 p.2

end Move

namespace Session

variable {σ : Type} [Storage σ]

/-- The steps of a session that finds one after the other of some worlds.  Where it has to wait it
takes no step. -/
def moves (c : FirmwareConfig) : Session → List (World σ) → List (Move σ)
  | _, [] => []
  | s, w :: later =>
    match s.step? c w with
    | some (w', s') => ⟨w, s, w', s'⟩ :: moves c s' later
    | none => moves c s later

/-- A session that found one after the other of some worlds. -/
def after (c : FirmwareConfig) : Session → List (World σ) → Session
  | s, [] => s
  | s, w :: later =>
    match s.step? c w with
    | some (_, s') => after c s' later
    | none => after c s later

/-- What can be seen of a session that finds one after the other of some worlds. -/
def log (c : FirmwareConfig) (s : Session) (worlds : List (World σ)) : List UpdateEvent :=
  (moves c s worlds).flatMap Move.events

variable {c : FirmwareConfig}

/-- One more world brings one more step, unless the session has to wait. -/
theorem moves_append (s : Session) (worlds : List (World σ)) (x : World σ) :
    s.moves c (worlds ++ [x]) = s.moves c worlds ++
      match (s.after c worlds).step? c x with
      | some (x', s') => [⟨x, s.after c worlds, x', s'⟩]
      | none => [] := by
  induction worlds generalizing s with
  | nil => cases hstep : s.step? c x <;> simp [moves, after, hstep]
  | cons y later ih =>
    cases hstep : s.step? c y with
    | none =>
      simp only [List.cons_append, moves, after, hstep]
      exact ih s
    | some next =>
      simp only [List.cons_append, moves, after, hstep]
      rw [ih next.2]

theorem after_append (s : Session) (worlds : List (World σ)) (x : World σ) :
    s.after c (worlds ++ [x]) =
      match (s.after c worlds).step? c x with
      | some (_, s') => s'
      | none => s.after c worlds := by
  induction worlds generalizing s with
  | nil => cases hstep : s.step? c x <;> simp [after, hstep]
  | cons y later ih =>
    cases hstep : s.step? c y with
    | none =>
      simp only [List.cons_append, after, hstep]
      exact ih s
    | some next =>
      simp only [List.cons_append, after, hstep]
      exact ih next.2

end Session

/-! ## What one step can be -/

/-- What is seen when a dialogue is told something that it waits for. -/
def Dialogue.shows (d : Dialogue) (carry : UInt8 → Bytes → Frame) (t : Tiding) :
    List UpdateEvent :=
  match d.phase, t with
  | .sending frame payload, .sent => [.frame (carry frame.code payload)]
  | .awaiting _, .reply payload => [.reply payload]
  | .awaiting _, .silence => [.silence]
  | .awaiting _, .failed _ => [.silence]
  | .reading, .image data => [.piece d.progress.bytes data]
  | .encrypting _ chunk, .cipher data => [.hidden (chunk ++ d.challenge) data]
  | _, _ => []

namespace Move

variable {σ : Type}

theorem transmitted_of_bus_eq {m : Move σ} (h : m.after.bus = m.before.bus) :
    m.transmitted = [] := by
  simp [transmitted, h]

theorem consumed_of_items_eq {m : Move σ}
    (h : m.after.inboxes.items m.session.inbox = m.before.inboxes.items m.session.inbox) :
    m.consumed = [] := by
  simp [consumed, h]

theorem consumed_of_cons {m : Move σ} {a : Message}
    (h : m.before.inboxes.items m.session.inbox =
      a :: m.after.inboxes.items m.session.inbox) :
    m.consumed = if Session.isAnswer a then [a.payload] else [] := by
  simp only [consumed, h, List.length_cons, Nat.add_sub_cancel_left, List.take_succ_cons,
    List.take_zero, List.filter_cons, List.filter_nil]
  split <;> rfl

end Move

namespace Inboxes

/-- A message that is taken out is the oldest one, and the others stay. -/
theorem items_of_take? {i i' : Inboxes} {n : Nat} {a : Message} (h : i.take? n = some (a, i')) :
    i.items n = a :: i'.items n := by
  unfold take? at h
  cases hbox : i.boxes[n]? with
  | none => simp [hbox] at h
  | some box =>
    cases htake : box.take? with
    | none => simp [hbox, htake] at h
    | some taken =>
      obtain ⟨b, box'⟩ := taken
      obtain ⟨rfl, rfl⟩ : b = a ∧ i.modify n (fun _ => box') = i' := by
        simpa [hbox, htake] using h
      have hitems := Mailbox.items_take? htake
      simp [items, modify, hbox, hitems]

theorem inUse_of_take? {i i' : Inboxes} {n : Nat} {a : Message} (h : i.take? n = some (a, i')) :
    i'.inUse = i.inUse := by
  simp only [take?, Option.bind_eq_bind, Option.bind_eq_some_iff] at h
  obtain ⟨box, -, ⟨m, box'⟩, -, hnext⟩ := h
  cases hnext
  rfl

theorem items_of_take?_eq_none {i : Inboxes} {n : Nat} (h : i.take? n = none) :
    i.items n = [] := by
  unfold take? at h
  unfold items
  cases hbox : i.boxes[n]? with
  | none => rfl
  | some box =>
    cases htake : box.take? with
    | none =>
      unfold Mailbox.take? at htake
      split at htake
      case h_1 hnil => exact hnil
      case h_2 => cases htake
    | some taken => simp [hbox, htake] at h

/-- The messages inside stay when an ECU is released. -/
theorem items_release (i : Inboxes) (ecu : EcuNo) (n : Nat) :
    (i.release ecu).items n = i.items n := by
  unfold release
  cases hused : i.inUse.get? ecu with
  | none => rfl
  | some k =>
    simp only [items, modify, List.getElem?_modify]
    cases hbox : i.boxes[n]? with
    | none => rfl
    | some box => by_cases hk : k = n <;> simp [hk, Mailbox.dropSender]

end Inboxes

/-- Storing a record changes the storage only. -/
theorem World.persist_keeps {σ : Type} [Storage σ] (w : World σ) (ecu : EcuNo) :
    (w.persist ecu).bus = w.bus ∧ (w.persist ecu).inboxes = w.inboxes ∧
      (w.persist ecu).registry = w.registry := by
  unfold World.persist
  split <;> exact ⟨rfl, rfl, rfl⟩

/-- Storing a record is one write, and nothing where that is refused. -/
theorem World.persist_eq {σ : Type} [Storage σ] {w : World σ} {ecu : EcuNo} {record : EcuRecord}
    (hrecord : w.registry.get? ecu = some record) :
    w.persist ecu = { w with
      storage := match Storage.writeRecord w.storage ecu record.encode with
        | .ok stored => stored
        | .error _ => w.storage } := by
  have hone : w.registry.storeOne w.storage ecu =
      Storage.writeRecord w.storage ecu record.encode := by
    simp [Registry.storeOne, Registry.get, hrecord]
  unfold persist
  rw [hone]
  cases Storage.writeRecord w.storage ecu record.encode <;> rfl

/-- A transmission changes the bus only. -/
theorem World.land_keeps {σ : Type} {w w' : World σ} {flight : Flight} {sent : Sent}
    (h : w.land? flight = some (w', sent)) :
    w'.registry = w.registry ∧ w'.inboxes = w.inboxes := by
  unfold World.land? at h
  obtain ⟨landed, -, hnext⟩ := Option.map_eq_some_iff.mp h
  cases hnext
  exact ⟨rfl, rfl⟩

/-- What the start of an update makes of the world, and the session that it begins. -/
theorem World.startUpdate_parts {σ : Type} {c : FirmwareConfig} {w w' : World σ} {ecu : EcuNo}
    {image : String} {secure : Bool} {s : Session}
    (h : w.startUpdate c ecu image secure = .ok (w', s)) :
    ∃ record, w.registry.get? ecu = some record ∧ w.inboxes.inUse.get? ecu = none ∧
      w' = { w with
        registry := w.registry.setStatus ecu .updating
        inboxes := {
          boxes := w.inboxes.boxes ++ [{ depth := max c.sessionQueue 1 }]
          inUse := w.inboxes.inUse.insert ecu w.inboxes.boxes.length } } ∧
      s = {
        ecu, image
        interface := record.interface
        prior := record.status
        inbox := w.inboxes.boxes.length
        dialogue := .start { ecu, secure, verifyHeader := c.verifyHeader } } := by
  unfold World.startUpdate at h
  obtain ⟨record, hrecord, h⟩ := exists_of_bind_ok h
  split at h
  case isTrue => cases h
  split at h
  case isTrue => cases h
  obtain ⟨⟨inboxes, inbox⟩, hclaim, h⟩ := exists_of_bind_ok h
  obtain ⟨rfl, rfl⟩ := Prod.mk.inj (Except.ok.inj h)
  unfold Inboxes.claim at hclaim
  split at hclaim
  case isTrue => cases hclaim
  case isFalse hidle =>
    cases hclaim
    have hfree : w.inboxes.inUse.get? ecu = none := by
      simpa [Inboxes.active, Dictionary.contains] using hidle
    exact ⟨record, Registry.get?_of_get hrecord, hfree, rfl, rfl⟩

namespace Session

/-- What a session does goes with what its dialogue waits for. -/
def Coherent (s : Session) : Prop :=
  match s.doing, s.dialogue.phase with
  | .ready, _ => True
  | .flying flight, .sending frame payload => flight.frame = s.frame frame.code payload
  | .calling _, .checking _ _ => True
  | .calling _, .encrypting _ _ => True
  | .listening _, .awaiting _ => True
  | .released, .ended _ => True
  | .stored, .ended _ => True
  | .closed, .ended _ => True
  | _, _ => False

theorem frame_of_launch {σ : Type} {w : World σ} {wait : Nat} {f : Frame} {flight : Flight}
    (h : w.launch wait f = .ok flight) : flight.frame = f := by
  unfold World.launch Bus.launch at h
  split at h
  case h_1 => cases h
  case h_2 =>
    obtain rfl := Except.ok.inj h
    rfl

theorem coherent_tell (s : Session) (t : Tiding) : (s.tell t).Coherent := by
  simp [Coherent, tell]

/-- A session closes only when its dialogue has ended. -/
theorem Coherent.ended {s : Session} (hs : s.Coherent)
    (h : s.doing = .released ∨ s.doing = .stored ∨ s.doing = .closed) :
    ∃ result, s.dialogue.phase = .ended result := by
  unfold Coherent at hs
  cases hphase : s.dialogue.phase with
  | ended result => exact ⟨result, rfl⟩
  | _ => rcases h with h | h | h <;> simp [h, hphase] at hs

theorem Coherent.awaiting {s : Session} (hs : s.Coherent) {deadline : Nat}
    (hlistening : s.doing = .listening deadline) : ∃ frame, s.dialogue.phase = .awaiting frame := by
  unfold Coherent at hs
  rw [hlistening] at hs
  cases hphase : s.dialogue.phase with
  | awaiting frame => exact ⟨frame, rfl⟩
  | _ => simp [hphase] at hs

variable {σ : Type} [Storage σ]

/-! ## What a step can be -/

/-- What a step of a session can be. -/
inductive Step (c : FirmwareConfig) (w : World σ) (s : Session) : World σ → Session → Prop where
  /-- It turns to what its dialogue needs. -/
  | turn (wish : Wish) (hdoing : s.doing = .ready) (hwish : s.dialogue.wish? = some wish) :
    Step c w s (s.turnTo c w wish).1 (s.turnTo c w wish).2
  /-- It releases its ECU. -/
  | release (result : Except UpdateFault Unit) (hdoing : s.doing = .ready)
      (hended : s.dialogue.phase = .ended result) :
    Step c w s (s.release w result).1 (s.release w result).2
  /-- Its frame is on the bus, or did not get there. -/
  | land {flight : Flight} {w' : World σ} {sent : Sent} (hdoing : s.doing = .flying flight)
      (hland : w.land? flight = some (w', sent)) :
    Step c w s w' (s.tell (ofSent sent))
  /-- Its call has ended. -/
  | outcome {n : Nat} {vault : Vault} {outcome : KeyOutcome} (hdoing : s.doing = .calling n)
      (hkeys : w.keys = some vault) (houtcome : vault.outcome? n = some outcome) :
    Step c w s w (s.tell (ofKeys outcome))
  /-- It carries its call on. -/
  | carry {n : Nat} {vault vault' : Vault} (hdoing : s.doing = .calling n)
      (hkeys : w.keys = some vault) (hopen : vault.outcome? n = none)
      (hvault : vault.step? w.now n = some vault') :
    Step c w s { w with keys := some vault' } s
  /-- It takes a message out of its inbox. -/
  | take {deadline : Nat} {m : Message} {inboxes : Inboxes} (hdoing : s.doing = .listening deadline)
      (htake : w.inboxes.take? s.inbox = some (m, inboxes)) :
    Step c w s { w with inboxes } (if isAnswer m then s.tell (.reply m.payload) else s)
  /-- No message came. -/
  | miss {deadline : Nat} {t : Tiding} (hdoing : s.doing = .listening deadline)
      (htake : w.inboxes.take? s.inbox = none)
      (ht : w.inboxes.finished s.inbox = true ∧ t = .failed .inboxClosed ∨
        deadline ≤ w.now ∧ t = .silence) :
    Step c w s w (s.tell t)
  /-- It stores the record of its ECU. -/
  | persist (hdoing : s.doing = .released) :
    Step c w s (w.persist s.ecu) { s with doing := .stored }
  /-- It closes. -/
  | close (hdoing : s.doing = .stored) : Step c w s w { s with doing := .closed }

theorem step?_cases {c : FirmwareConfig} {w w' : World σ} {s s' : Session}
    (h : s.step? c w = some (w', s')) : Step c w s w' s' := by
  cases hdoing : s.doing with
  | ready =>
    simp only [step?, hdoing] at h
    cases hwish : s.dialogue.wish? with
    | some wish =>
      simp only [hwish, Option.some.injEq] at h
      have hturn := Step.turn (c := c) (w := w) wish hdoing hwish
      rw [h] at hturn
      exact hturn
    | none =>
      obtain ⟨result, hresult⟩ := s.dialogue.wish?_eq_none_iff.mp hwish
      have hended : s.dialogue.phase = .ended result := by
        unfold Dialogue.result? at hresult
        split at hresult
        case h_1 r hended => rw [hended, Option.some.inj hresult]
        case h_2 => cases hresult
      simp only [hwish, hresult, Option.some.injEq] at h
      obtain ⟨rfl, rfl⟩ := Prod.mk.inj h
      exact .release result hdoing hended
  | flying flight =>
    simp only [step?, hdoing, Option.map_eq_some_iff] at h
    obtain ⟨⟨landed, sent⟩, hland, hnext⟩ := h
    obtain ⟨rfl, rfl⟩ := Prod.mk.inj hnext
    exact .land hdoing hland
  | calling n =>
    simp only [step?, hdoing] at h
    cases hkeys : w.keys with
    | none => simp [hkeys] at h
    | some vault =>
      simp only [hkeys] at h
      cases houtcome : vault.outcome? n with
      | some outcome =>
        simp only [houtcome, Option.some.injEq] at h
        obtain ⟨rfl, rfl⟩ := Prod.mk.inj h
        exact .outcome hdoing hkeys houtcome
      | none =>
        simp only [houtcome, Option.map_eq_some_iff] at h
        obtain ⟨vault', hvault, hnext⟩ := h
        obtain ⟨rfl, rfl⟩ := Prod.mk.inj hnext
        exact .carry hdoing hkeys houtcome hvault
  | listening deadline =>
    simp only [step?, hdoing, listen] at h
    split at h
    case h_1 m inboxes htake =>
      obtain ⟨rfl, rfl⟩ := Prod.mk.inj (Option.some.inj h)
      exact .take hdoing htake
    case h_2 htake =>
      split at h
      case isTrue hfinished =>
        obtain ⟨rfl, rfl⟩ := Prod.mk.inj (Option.some.inj h)
        exact .miss hdoing htake (.inl ⟨hfinished, rfl⟩)
      split at h
      case isTrue hlate =>
        obtain ⟨rfl, rfl⟩ := Prod.mk.inj (Option.some.inj h)
        exact .miss hdoing htake (.inr ⟨hlate, rfl⟩)
      case isFalse => cases h
  | released =>
    simp only [step?, hdoing, Option.some.injEq] at h
    obtain ⟨rfl, rfl⟩ := Prod.mk.inj h
    exact .persist hdoing
  | stored =>
    simp only [step?, hdoing, Option.some.injEq] at h
    obtain ⟨rfl, rfl⟩ := Prod.mk.inj h
    exact .close hdoing
  | closed => simp [step?, hdoing] at h

/-- What a session turns to changes nothing but its call, its dialogue and what it is doing. -/
theorem turnTo_keeps (c : FirmwareConfig) (w : World σ) (s : Session) (wish : Wish) :
    (s.turnTo c w wish).1 = { w with keys := (s.turnTo c w wish).1.keys } ∧
      (s.turnTo c w wish).2 = { s with
        dialogue := (s.turnTo c w wish).2.dialogue, doing := (s.turnTo c w wish).2.doing } := by
  cases wish with
  | verdict image tag => simp only [turnTo, call]; split <;> exact ⟨rfl, rfl⟩
  | cipher data => simp only [turnTo, call]; split <;> exact ⟨rfl, rfl⟩
  | send code payload => simp only [turnTo]; split <;> exact ⟨rfl, rfl⟩
  | _ => exact ⟨rfl, rfl⟩

/-- A session keeps its ECU, its inbox and what else was fixed at its start. -/
theorem step?_keeps {c : FirmwareConfig} {w w' : World σ} {s s' : Session}
    (h : s.step? c w = some (w', s')) :
    s' = { s with dialogue := s'.dialogue, doing := s'.doing } := by
  cases step?_cases h with
  | turn wish => exact (turnTo_keeps c w s wish).2
  | take => split <;> rfl
  | _ => rfl

/-- Only a session that listens takes something out of its inbox. -/
theorem items_of_step? {c : FirmwareConfig} {w w' : World σ} {s s' : Session}
    (h : s.step? c w = some (w', s')) (hdeaf : ∀ deadline, s.doing ≠ .listening deadline)
    (n : Nat) : w'.inboxes.items n = w.inboxes.items n := by
  cases step?_cases h with
  | turn wish => rw [(turnTo_keeps c w s wish).1]
  | release result => exact Inboxes.items_release _ _ _
  | land hdoing hland => rw [(World.land_keeps hland).2]
  | take hdoing => exact absurd hdoing (hdeaf _)
  | persist => rw [(w.persist_keeps s.ecu).2.1]
  | _ => rfl

/-! ## What is seen of a step -/

/-- What is seen of a step that leaves the bus and the session's inbox alone. -/
theorem events_of_quiet {m : Move σ} (hbus : m.after.bus = m.before.bus)
    (hitems : m.after.inboxes.items m.session.inbox = m.before.inboxes.items m.session.inbox) :
    m.events = (if m.givesUp then [.silence] else []) ++
      m.read.map (fun p => .piece p.1 p.2) ++ m.encrypted.map fun p => .hidden p.1 p.2 := by
  simp [Move.events, Move.transmitted_of_bus_eq hbus, Move.consumed_of_items_eq hitems]

/-- What can be seen of a step: nothing, and the dialogue stays as it is, or what the dialogue is
told. -/
def Tells (m : Move σ) : Prop :=
  m.events = [] ∧ m.next.dialogue = m.session.dialogue ∨
    ∃ t, m.next.dialogue = m.session.dialogue.hear t ∧
      m.events = m.session.dialogue.shows m.session.frame t

/-- Nothing is seen of a session that turns to something, unless it reads a piece. -/
theorem events_of_ready {m : Move σ} (hready : m.session.doing = .ready)
    (hbus : m.after.bus = m.before.bus)
    (hitems : m.after.inboxes.items m.session.inbox = m.before.inboxes.items m.session.inbox) :
    m.events = m.read.map fun p => .piece p.1 p.2 := by
  rw [events_of_quiet hbus hitems]
  simp [Move.givesUp, Move.encrypted, hready]

theorem read_of_phase_ne {m : Move σ} (hphase : m.session.dialogue.phase ≠ .reading) :
    m.read = [] := by
  unfold Move.read
  split
  case h_1 hreading => exact absurd hreading hphase
  case h_2 => rfl

theorem call_tells (w : World σ) (s : Session) (command : Command) (want : Want)
    (hready : s.doing = .ready)
    (hphase : (∃ header image, s.dialogue.phase = .checking header image) ∨
      ∃ used chunk, s.dialogue.phase = .encrypting used chunk) :
    (s.call w command want).2.Coherent ∧
      Tells ⟨w, s, (s.call w command want).1, (s.call w command want).2⟩ := by
  have hread : s.dialogue.phase ≠ .reading := by
    rcases hphase with ⟨header, image, h⟩ | ⟨used, chunk, h⟩ <;> simp [h]
  cases hkeys : w.keys with
  | none =>
    simp only [call, hkeys]
    refine ⟨coherent_tell _ _, .inr ⟨_, rfl, ?_⟩⟩
    rw [events_of_ready hready rfl rfl, read_of_phase_ne hread]
    rcases hphase with ⟨header, image, h⟩ | ⟨used, chunk, h⟩ <;> simp [Dialogue.shows, h]
  | some vault =>
    simp only [call, hkeys]
    refine ⟨?_, .inl ⟨?_, rfl⟩⟩
    · rcases hphase with ⟨header, image, h⟩ | ⟨used, chunk, h⟩ <;> simp [Coherent, h]
    · rw [events_of_ready hready rfl rfl, read_of_phase_ne hread]
      rfl

theorem turnTo_tells (c : FirmwareConfig) (w : World σ) (s : Session) (wish : Wish)
    (hready : s.doing = .ready) (hwish : s.dialogue.wish? = some wish) :
    (s.turnTo c w wish).2.Coherent ∧
      Tells ⟨w, s, (s.turnTo c w wish).1, (s.turnTo c w wish).2⟩ := by
  unfold Dialogue.wish? at hwish
  cases hphase : s.dialogue.phase with
  | unopened =>
    simp only [hphase, Option.some.injEq] at hwish
    subst hwish
    refine ⟨coherent_tell _ _, .inr ⟨_, rfl, ?_⟩⟩
    rw [events_of_ready hready rfl rfl, read_of_phase_ne (by simp [hphase])]
    simp [Dialogue.shows, hphase]
  | measuring header image =>
    simp only [hphase, Option.some.injEq] at hwish
    subst hwish
    refine ⟨coherent_tell _ _, .inr ⟨_, rfl, ?_⟩⟩
    rw [events_of_ready hready rfl rfl, read_of_phase_ne (by simp [hphase])]
    simp [Dialogue.shows, hphase]
  | checking header image =>
    simp only [hphase, Option.some.injEq] at hwish
    subst hwish
    exact call_tells w s _ _ hready (.inl ⟨header, image, hphase⟩)
  | reading =>
    simp only [hphase, Option.some.injEq] at hwish
    subst hwish
    refine ⟨coherent_tell _ _, .inr ⟨_, rfl, ?_⟩⟩
    rw [events_of_ready hready rfl rfl]
    cases hread : Storage.readImage w.storage s.image s.dialogue.progress.bytes
      Firmware.chunkSize with
    | ok data => simp [Move.read, Dialogue.shows, hready, hphase, hread, ofStorage]
    | error fault => simp [Move.read, Dialogue.shows, hready, hphase, hread, ofStorage]
  | encrypting used chunk =>
    simp only [hphase, Option.some.injEq] at hwish
    subst hwish
    exact call_tells w s _ _ hready (.inr ⟨used, chunk, hphase⟩)
  | sending frame payload =>
    simp only [hphase, Option.some.injEq] at hwish
    subst hwish
    have hread : s.dialogue.phase ≠ .reading := by simp [hphase]
    cases hlaunch : w.launch c.ackTimeout (s.frame frame.code payload) with
    | ok flight =>
      simp only [turnTo, hlaunch]
      refine ⟨?_, .inl ⟨?_, rfl⟩⟩
      · simp only [Coherent, hphase]
        exact frame_of_launch hlaunch
      · rw [events_of_ready hready rfl rfl, read_of_phase_ne hread]
        rfl
    | error fault =>
      simp only [turnTo, hlaunch]
      refine ⟨coherent_tell _ _, .inr ⟨_, rfl, ?_⟩⟩
      rw [events_of_ready hready rfl rfl, read_of_phase_ne hread]
      simp [Dialogue.shows, hphase, ofSent]
  | awaiting frame =>
    simp only [hphase, Option.some.injEq] at hwish
    subst hwish
    refine ⟨by simp [turnTo, Coherent, hphase], .inl ⟨?_, rfl⟩⟩
    rw [events_of_ready hready rfl rfl, read_of_phase_ne (by simp [hphase])]
    rfl
  | ended result =>
    simp [hphase] at hwish

theorem land_tells {w w' : World σ} {s : Session} {flight : Flight} {sent : Sent}
    (hs : s.Coherent) (hflying : s.doing = .flying flight)
    (hland : w.land? flight = some (w', sent)) :
    Tells ⟨w, s, w', s.tell (ofSent sent)⟩ := by
  unfold Coherent at hs
  rw [hflying] at hs
  cases hphase : s.dialogue.phase with
  | sending frame payload =>
    simp only [hphase] at hs
    refine .inr ⟨_, rfl, ?_⟩
    unfold World.land? Bus.land at hland
    split at hland
    case isTrue =>
      split at hland
      case isTrue =>
        obtain ⟨rfl, rfl⟩ : _ = w' ∧ _ = sent := by simpa using hland
        simp [Move.events, Move.transmitted, Bus.transmit, Move.consumed, Move.givesUp, Move.read,
          Move.encrypted, Dialogue.shows, ofSent, hflying, hphase, hs]
      case isFalse => cases hland
    case isFalse =>
      split at hland
      case isTrue =>
        obtain ⟨rfl, rfl⟩ : w = w' ∧ _ = sent := by simpa using hland
        rw [events_of_quiet rfl rfl]
        simp [Move.givesUp, Move.read, Move.encrypted, Dialogue.shows, ofSent, hflying, hphase]
      case isFalse => cases hland
  | _ => simp [hphase] at hs

theorem take_tells {w : World σ} {s : Session} {deadline : Nat} {a : Message} {inboxes : Inboxes}
    (hs : s.Coherent) (hlistening : s.doing = .listening deadline)
    (htake : w.inboxes.take? s.inbox = some (a, inboxes)) :
    (if isAnswer a then s.tell (.reply a.payload) else s).Coherent ∧
      Tells ⟨w, s, { w with inboxes }, if isAnswer a then s.tell (.reply a.payload) else s⟩ := by
  obtain ⟨frame, hphase⟩ := hs.awaiting hlistening
  have hitems := Inboxes.items_of_take? htake
  have hconsumed (next : Session) :
      Move.consumed ⟨w, s, { w with inboxes }, next⟩ =
        if isAnswer a then [a.payload] else [] :=
    Move.consumed_of_cons hitems
  have hevents (next : Session) :
      Move.events ⟨w, s, { w with inboxes }, next⟩ =
        if isAnswer a then [.reply a.payload] else [] := by
    simp [Move.events, Move.transmitted_of_bus_eq, hconsumed, Move.givesUp, Move.read,
      Move.encrypted, hlistening, hitems, apply_ite (List.map UpdateEvent.reply)]
  by_cases ha : isAnswer a = true
  · simp only [ha, if_true] at hevents ⊢
    refine ⟨coherent_tell _ _, .inr ⟨_, rfl, ?_⟩⟩
    rw [hevents]
    simp [Dialogue.shows, hphase]
  · simp only [ha] at hevents ⊢
    exact ⟨hs, .inl ⟨hevents _, rfl⟩⟩

theorem miss_tells {w : World σ} {s : Session} {deadline : Nat} {t : Tiding}
    (hs : s.Coherent) (hlistening : s.doing = .listening deadline)
    (htake : w.inboxes.take? s.inbox = none) (ht : t = .failed .inboxClosed ∨ t = .silence) :
    Tells ⟨w, s, w, s.tell t⟩ := by
  obtain ⟨frame, hphase⟩ := hs.awaiting hlistening
  have hitems := Inboxes.items_of_take?_eq_none htake
  refine .inr ⟨t, rfl, ?_⟩
  rw [events_of_quiet rfl rfl]
  rcases ht with rfl | rfl <;>
    simp [Move.givesUp, Move.read, Move.encrypted, Dialogue.shows, hlistening, hitems, hphase]

omit [Storage σ] in
/-- As long as a call has not ended nothing was encrypted. -/
theorem encrypted_of_none {m : Move σ} {n : Nat} (hcalling : m.session.doing = .calling n)
    (h : m.before.keys.bind (·.outcome? n) = none) : m.encrypted = [] := by
  unfold Move.encrypted
  split
  case h_1 k plain hdoing hwish =>
    obtain rfl : n = k := by simpa [hcalling] using hdoing
    rw [h]
  case h_2 => rfl

/-- Nothing is seen of a session that has ended its dialogue and does nothing to bus and inbox. -/
theorem events_of_closing {m : Move σ}
    (hdoing : m.session.doing = .released ∨ m.session.doing = .stored)
    (hbus : m.after.bus = m.before.bus) (hinboxes : m.after.inboxes = m.before.inboxes) :
    m.events = [] := by
  rw [events_of_quiet hbus (by rw [hinboxes])]
  rcases hdoing with h | h <;> simp [Move.givesUp, Move.read, Move.encrypted, h]

theorem outcome_tells {w : World σ} {s : Session} {n : Nat} {vault : Vault} {outcome : KeyOutcome}
    (hs : s.Coherent) (hcalling : s.doing = .calling n) (hkeys : w.keys = some vault)
    (houtcome : vault.outcome? n = some outcome) :
    Tells ⟨w, s, w, s.tell (ofKeys outcome)⟩ := by
  refine .inr ⟨_, rfl, ?_⟩
  rw [events_of_quiet rfl rfl]
  unfold Coherent at hs
  rw [hcalling] at hs
  cases hphase : s.dialogue.phase with
  | checking header image =>
    simp [Move.givesUp, Move.read, Move.encrypted, Dialogue.wish?, Dialogue.shows, hcalling,
      hphase]
  | encrypting used chunk =>
    simp only [Move.givesUp, Move.read, Move.encrypted, Dialogue.wish?, Dialogue.shows,
      hcalling, hphase, hkeys, houtcome, Option.bind_some]
    -- Only a cipher text is seen.  By any other answer a dialogue is told no more than that it
    -- failed.
    cases outcome with
    | error fault => rfl
    | ok answer =>
      cases answer with
      | response r => cases r <;> rfl
      | _ => rfl
  | _ => simp [hphase] at hs

/-- A step of a session shows nothing, or what its dialogue is told. -/
theorem step?_tells {c : FirmwareConfig} {w w' : World σ} {s s' : Session} (hs : s.Coherent)
    (h : s.step? c w = some (w', s')) : s'.Coherent ∧ Tells ⟨w, s, w', s'⟩ := by
  cases step?_cases h with
  | turn wish hdoing hwish => exact turnTo_tells c w s wish hdoing hwish
  | release result hdoing hended =>
    refine ⟨by simp [release, Coherent, hended], .inl ⟨?_, rfl⟩⟩
    rw [events_of_ready hdoing rfl (Inboxes.items_release _ _ _),
      read_of_phase_ne (by simp [hended])]
    rfl
  | land hdoing hland => exact ⟨coherent_tell _ _, land_tells hs hdoing hland⟩
  | outcome hdoing hkeys houtcome =>
    exact ⟨coherent_tell _ _, outcome_tells hs hdoing hkeys houtcome⟩
  | carry hdoing hkeys hopen hvault =>
    refine ⟨hs, .inl ⟨?_, rfl⟩⟩
    rw [events_of_quiet rfl rfl, encrypted_of_none hdoing (by simp [hkeys, hopen])]
    simp [Move.givesUp, Move.read, hdoing]
  | take hdoing htake => exact take_tells hs hdoing htake
  | miss hdoing htake ht =>
    exact ⟨coherent_tell _ _, miss_tells hs hdoing htake (ht.imp (·.2) (·.2))⟩
  | persist hdoing =>
    obtain ⟨hbus, hinboxes, -⟩ := w.persist_keeps s.ecu
    obtain ⟨result, hphase⟩ := hs.ended (.inl hdoing)
    exact ⟨by simp [Coherent, hphase],
      .inl ⟨events_of_closing (.inl hdoing) hbus hinboxes, rfl⟩⟩
  | close hdoing =>
    obtain ⟨result, hphase⟩ := hs.ended (.inr (.inl hdoing))
    exact ⟨by simp [Coherent, hphase], .inl ⟨events_of_closing (.inr hdoing) rfl rfl, rfl⟩⟩

/-- What is true at the start, and stays true of a dialogue that is told anything, is true of every
session that is reached.  Its log says what the dialogue was told. -/
theorem after_induction {c : FirmwareConfig} {motive : List UpdateEvent → Dialogue → Prop}
    {s : Session} (hs : s.Coherent) (log : List UpdateEvent) (hstart : motive log s.dialogue)
    (hhear : ∀ log d t, motive log d → motive (log ++ d.shows s.frame t) (d.hear t))
    (worlds : List (World σ)) :
    (s.after c worlds).Coherent ∧ motive (log ++ s.log c worlds) (s.after c worlds).dialogue ∧
      s.after c worlds = { s with
        dialogue := (s.after c worlds).dialogue, doing := (s.after c worlds).doing } := by
  -- The log so far is in the statement, as each step adds to it what the dialogue is told.
  induction worlds generalizing s log with
  | nil => exact ⟨hs, by simpa [Session.log, moves, after] using hstart, rfl⟩
  | cons w later ih =>
    cases hstep : s.step? c w with
    | none =>
      simp only [Session.log, moves, after, hstep]
      exact ih hs log hstart hhear
    | some next =>
      obtain ⟨w', s'⟩ := next
      simp only [Session.log, moves, after, hstep, List.flatMap_cons]
      have hkeeps := step?_keeps hstep
      have hframe : s'.frame = s.frame := by rw [hkeeps]; rfl
      obtain ⟨hcoherent, htells⟩ := step?_tells hs hstep
      have hnext : motive (log ++ Move.events ⟨w, s, w', s'⟩) s'.dialogue := by
        rcases htells with ⟨hevents, hsame⟩ | ⟨t, hheard, hevents⟩
        · simp only at hsame
          rw [hevents, List.append_nil, hsame]
          exact hstart
        · simp only at hheard hevents
          rw [hevents, hheard]
          exact hhear log s.dialogue t hstart
      obtain ⟨hlast, hmotive, hsame⟩ := ih hcoherent _ hnext (by rw [hframe]; exact hhear)
      refine ⟨hlast, ?_, ?_⟩
      · rw [← List.append_assoc]
        exact hmotive
      · rw [hsame, hkeeps]

end Session
end VehicleGateway
