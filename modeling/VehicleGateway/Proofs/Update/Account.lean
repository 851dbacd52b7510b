import VehicleGateway.Proofs.Update.Protocol

/-!
# The log in each phase of an update

The log of an update has one form in each phase of its dialogue: a greeting, a round for every whole
chunk that was answered, and then as much of the next round, or of the end, as the phase has come
to.  `Account` says which form that is, and `account_hear` that it stays so whatever the dialogue is
told.
What the protocol promises is then read off the forms: `Account.sound` says that it is kept in each
of them.
-/

namespace VehicleGateway

open UpdateEvent (frames replies pieces hiddens talk)

/-- The part of an update in which whole chunks are sent. -/
structure Transfer where
  /-- The answer to the opening. -/
  welcome : Bytes
  /-- The pieces that were sent and answered, with what they were sent as. -/
  rounds : List (Bytes × Bytes)

namespace Session

/-- What is seen before a piece of the image is sent. -/
def taking (s : Session) (challenge : Bytes) (offset : Nat) (r : Bytes × Bytes) :
    List UpdateEvent :=
  .piece offset r.1 ::
    if s.secure then [.hidden (Bytes.padTo r.1 Firmware.chunkSize ++ challenge) r.2] else []

/-- What is seen of a piece that is sent and answered. -/
def round (s : Session) (challenge : Bytes) (offset : Nat) (r : Bytes × Bytes) :
    List UpdateEvent :=
  s.taking challenge offset r ++ [.frame (s.chunkFrame r.2), .reply [Firmware.chunkTaken]]

/-- What is seen of pieces that are sent and answered one after the other. -/
def allRounds (s : Session) (challenge : Bytes) : (offset : Nat) → List (Bytes × Bytes) →
    List UpdateEvent
  | _, [] => []
  | offset, r :: rest =>
    s.round challenge offset r ++ s.allRounds challenge (offset + r.1.length) rest

/-- What is seen of an update up to the answer to its opening. -/
def greeting (s : Session) (welcome : Bytes) : List UpdateEvent :=
  [.frame s.resetFrame, .reply [Firmware.resetDone], .frame s.openingFrame, .reply welcome]

/-- Whether something can be what a piece is sent as. -/
def Carries (s : Session) (r : Bytes × Bytes) : Prop :=
  s.secure = false → r.2 = Bytes.padTo r.1 Firmware.chunkSize

theorem shownAfter_chunkFrame (s : Session) (payload : Bytes) (stage : Stage) :
    s.shownAfter stage (.frame (s.chunkFrame payload)) = .transferring := by
  have hreset : s.chunkFrame payload ≠ s.resetFrame := s.chunkFrame_ne_frame _ _
  have hopening : s.chunkFrame payload ≠ s.openingFrame := s.chunkFrame_ne_frame _ _
  have hfinish : s.chunkFrame payload ≠ s.finishFrame := s.chunkFrame_ne_frame _ _
  simp [shownAfter, hreset, hopening, hfinish]

theorem shownAfter_finishFrame (s : Session) (stage : Stage) :
    s.shownAfter stage (.frame s.finishFrame) = .endSent := by
  simp [shownAfter, s.finishFrame_ne_resetFrame, s.finishFrame_ne_openingFrame]

theorem foldl_taking (s : Session) (challenge : Bytes) (offset : Nat) (r : Bytes × Bytes)
    (stage : Stage) : (s.taking challenge offset r).foldl s.shownAfter stage = stage := by
  unfold taking
  cases s.secure <;> rfl

theorem foldl_round (s : Session) (challenge : Bytes) (offset : Nat) (r : Bytes × Bytes)
    (stage : Stage) : (s.round challenge offset r).foldl s.shownAfter stage = .transferring := by
  rw [round, List.foldl_append, foldl_taking]
  simp only [List.foldl_cons, List.foldl_nil, shownAfter_chunkFrame]
  rfl

end Session

namespace Transfer

/-- The number of image bytes in pieces. -/
def bytesIn (rounds : List (Bytes × Bytes)) : Nat :=
  (rounds.flatMap (·.1)).length

/-- The number of image bytes sent. -/
def size (t : Transfer) : Nat :=
  bytesIn t.rounds

/-- The pieces sent, the last one included that did not fill a chunk. -/
def all (t : Transfer) (last : Option (Bytes × Bytes)) : List (Bytes × Bytes) :=
  t.rounds ++ last.toList

/-- What is seen of a transfer. -/
def log (t : Transfer) (s : Session) : List UpdateEvent :=
  s.greeting t.welcome ++ s.allRounds t.welcome 0 t.rounds

/-- The pieces of a transfer with their places. -/
def placed : (offset : Nat) → List (Bytes × Bytes) → List (Nat × Bytes)
  | _, [] => []
  | offset, r :: rest => (offset, r.1) :: placed (offset + r.1.length) rest

/-- The opening was answered as it demands, and only whole chunks were sent. -/
structure Valid (t : Transfer) (s : Session) : Prop where
  welcome : s.Welcomes t.welcome
  whole : ∀ r ∈ t.rounds, Firmware.chunkSize ≤ r.1.length
  carries : ∀ r ∈ t.rounds, s.Carries r

/-! ## What stands in the log of a transfer -/

variable {t : Transfer} {s : Session}

theorem placed_map_snd (offset : Nat) (rounds : List (Bytes × Bytes)) :
    (placed offset rounds).map (·.2) = rounds.map (·.1) := by
  induction rounds generalizing offset with
  | nil => rfl
  | cons r rest ih => simp only [placed, List.map_cons, ih]

/-- What the rounds of a transfer have of something that every round has in the same way. -/
theorem filterMap_allRounds {α : Type} (s : Session) (challenge : Bytes)
    (pick : UpdateEvent → Option α) (each : Bytes × Bytes → List α)
    (hround : ∀ offset r, (s.round challenge offset r).filterMap pick = each r)
    (offset : Nat) (rounds : List (Bytes × Bytes)) :
    (s.allRounds challenge offset rounds).filterMap pick = rounds.flatMap each := by
  induction rounds generalizing offset with
  | nil => rfl
  | cons r rest ih =>
    rw [Session.allRounds, List.filterMap_append, hround, ih, List.flatMap_cons]

theorem frames_log (t : Transfer) (s : Session) (tail : List UpdateEvent) :
    frames (t.log s ++ tail) =
      s.resetFrame :: s.openingFrame :: (t.rounds.map fun r => s.chunkFrame r.2) ++
        frames tail := by
  have hrounds : frames (s.allRounds t.welcome 0 t.rounds) =
      t.rounds.flatMap fun r => [s.chunkFrame r.2] := by
    apply filterMap_allRounds
    intro offset r
    unfold Session.round Session.taking
    cases s.secure <;> rfl
  simp only [frames] at hrounds ⊢
  simp [log, Session.greeting, hrounds, List.map_eq_flatMap]

theorem replies_log (t : Transfer) (s : Session) (tail : List UpdateEvent) :
    replies (t.log s ++ tail) =
      [Firmware.resetDone] :: t.welcome :: (t.rounds.map fun _ => [Firmware.chunkTaken]) ++
        replies tail := by
  have hrounds : replies (s.allRounds t.welcome 0 t.rounds) =
      t.rounds.flatMap fun _ => [[Firmware.chunkTaken]] := by
    apply filterMap_allRounds
    intro offset r
    unfold Session.round Session.taking
    cases s.secure <;> rfl
  simp only [replies] at hrounds ⊢
  simp [log, Session.greeting, hrounds, List.map_eq_flatMap]

theorem hiddens_log (t : Transfer) (s : Session) (tail : List UpdateEvent) :
    hiddens (t.log s ++ tail) =
      (if s.secure then
        t.rounds.map fun r => (Bytes.padTo r.1 Firmware.chunkSize ++ t.welcome, r.2)
      else []) ++ hiddens tail := by
  have hrounds : hiddens (s.allRounds t.welcome 0 t.rounds) = t.rounds.flatMap fun r =>
      if s.secure then [(Bytes.padTo r.1 Firmware.chunkSize ++ t.welcome, r.2)] else [] := by
    apply filterMap_allRounds
    intro offset r
    unfold Session.round Session.taking
    cases s.secure <;> rfl
  simp only [hiddens] at hrounds ⊢
  cases hsecure : s.secure <;>
    simp [log, Session.greeting, hrounds, hsecure, List.map_eq_flatMap]

theorem pieces_log (t : Transfer) (s : Session) (tail : List UpdateEvent) :
    pieces (t.log s ++ tail) = placed 0 t.rounds ++ pieces tail := by
  have hrounds (challenge : Bytes) (offset : Nat) (rounds : List (Bytes × Bytes)) :
      pieces (s.allRounds challenge offset rounds) = placed offset rounds := by
    induction rounds generalizing offset with
    | nil => rfl
    | cons r rest ih =>
      have hrest := ih (offset + r.1.length)
      unfold Session.allRounds Session.round Session.taking placed
      cases s.secure <;> simpa [pieces] using hrest
  have hlog := hrounds t.welcome 0 t.rounds
  simp only [pieces] at hlog ⊢
  simp [log, Session.greeting, hlog]

theorem talk_round (s : Session) (challenge : Bytes) (offset : Nat) (r : Bytes × Bytes)
    (tail : List UpdateEvent) :
    talk (s.round challenge offset r ++ tail) =
      .frame (s.chunkFrame r.2) :: .reply [Firmware.chunkTaken] :: talk tail := by
  unfold Session.round Session.taking
  cases s.secure <;> simp [talk]

/-- In a transfer frames and answers take turns. -/
theorem orderly_log (hvalid : t.Valid s) {tail : List UpdateEvent}
    (htail : s.Orderly (talk tail)) : s.Orderly (talk (t.log s ++ tail)) := by
  have hrounds (challenge : Bytes) (offset : Nat) (rounds : List (Bytes × Bytes)) :
      s.Orderly (talk (s.allRounds challenge offset rounds ++ tail)) := by
    induction rounds generalizing offset with
    | nil => exact htail
    | cons r rest ih =>
      rw [Session.allRounds, List.append_assoc, talk_round]
      exact .inl ⟨.inr (.inr (.inl ⟨⟨r.2, rfl⟩, rfl⟩)), ih _⟩
  have hturns : talk (t.log s ++ tail) =
      .frame s.resetFrame :: .reply [Firmware.resetDone] :: .frame s.openingFrame ::
        .reply t.welcome :: talk (s.allRounds t.welcome 0 t.rounds ++ tail) := by
    simp [log, Session.greeting, talk]
  rw [hturns]
  exact .inl ⟨.inl ⟨rfl, rfl⟩, .inl ⟨.inr (.inl ⟨rfl, hvalid.welcome⟩), hrounds _ _ _⟩⟩

/-- After a transfer the update is about its chunks. -/
theorem shown_log (hvalid : t.Valid s) (tail : List UpdateEvent) :
    s.shown (t.log s ++ tail) = tail.foldl s.shownAfter .transferring := by
  have hrounds (challenge : Bytes) (offset : Nat) (rounds : List (Bytes × Bytes)) :
      (s.allRounds challenge offset rounds).foldl s.shownAfter .transferring =
        .transferring := by
    induction rounds generalizing offset with
    | nil => rfl
    | cons r rest ih => rw [Session.allRounds, List.foldl_append, s.foldl_round, ih]
  have hgreeting : (s.greeting t.welcome).foldl s.shownAfter .idle = .transferring := by
    have hwelcome := hvalid.welcome
    unfold Session.Welcomes at hwelcome
    have hne := s.openingFrame_ne_resetFrame
    cases hsecure : s.secure <;>
      simp_all [Session.greeting, Session.shownAfter]
  rw [Session.shown, log, List.foldl_append, List.foldl_append, hgreeting, hrounds]

theorem inOrder_log (hvalid : t.Valid s) {tail : List (Nat × Bytes)}
    (htail : Session.InOrder t.size tail) :
    Session.InOrder 0 (placed 0 t.rounds ++ tail) := by
  have hrounds (offset : Nat) (rounds : List (Bytes × Bytes))
      (hwhole : ∀ r ∈ rounds, Firmware.chunkSize ≤ r.1.length)
      (hlast : Session.InOrder (offset + bytesIn rounds) tail) :
      Session.InOrder offset (placed offset rounds ++ tail) := by
    induction rounds generalizing offset with
    | nil => simpa [placed, bytesIn] using hlast
    | cons r rest ih =>
      obtain ⟨hr, hrest⟩ := List.forall_mem_cons.mp hwhole
      refine ⟨rfl, .inr hr, ih _ hrest ?_⟩
      simpa [bytesIn, Nat.add_assoc] using hlast
  exact hrounds 0 t.rounds hvalid.whole (by simpa [size] using htail)

/-- The frames that are to be sent for whole chunks are those of the chunks. -/
theorem body_append {rounds : List (Bytes × Bytes)}
    (hwhole : ∀ r ∈ rounds, Firmware.chunkSize ≤ r.1.length) (pieces payloads : List Bytes) :
    s.body (rounds.map (·.1) ++ pieces) (rounds.map (·.2) ++ payloads) =
      (rounds.map fun r => s.chunkFrame r.2) ++ s.body pieces payloads := by
  induction rounds with
  | nil => rfl
  | cons r rest ih =>
    obtain ⟨hr, hrest⟩ := List.forall_mem_cons.mp hwhole
    obtain ⟨piece, payload⟩ := r
    cases piece with
    | nil => simp [Firmware.chunkSize] at hr
    | cons b piece =>
      have hlong : ¬ (b :: piece).length < Firmware.chunkSize := Nat.not_lt.mpr hr
      simp only [List.map_cons, List.cons_append, Session.body, if_neg hlong, ih hrest]

theorem payloads_log (hvalid : t.Valid s) (tail : List UpdateEvent) :
    s.payloads (t.log s ++ tail) = t.rounds.map (·.2) ++ s.payloads tail := by
  cases hsecure : s.secure with
  | true => simp [Session.payloads, hsecure, hiddens_log]
  | false =>
    have hcarries : t.rounds.map (fun r => Bytes.padTo r.1 Firmware.chunkSize) =
        t.rounds.map (·.2) :=
      List.map_congr_left fun r hr => (hvalid.carries r hr hsecure).symm
    have hplaced := congrArg (List.map fun piece => Bytes.padTo piece Firmware.chunkSize)
      (placed_map_snd 0 t.rounds)
    simp only [List.map_map, Function.comp_def] at hplaced
    simp [Session.payloads, hsecure, pieces_log, hplaced, hcarries]

theorem script_log (hvalid : t.Valid s) (tail : List UpdateEvent) :
    s.script (t.log s ++ tail) =
      s.resetFrame :: s.openingFrame :: (t.rounds.map fun r => s.chunkFrame r.2) ++
        s.body ((pieces tail).map (·.2)) (s.payloads tail) := by
  simp only [Session.script, Session.canonical, payloads_log hvalid, pieces_log, List.map_append,
    placed_map_snd, body_append hvalid.whole, List.cons_append]

theorem challengeIn_log (t : Transfer) (s : Session) (tail : List UpdateEvent) :
    Session.challengeIn (t.log s ++ tail) = t.welcome := by
  simp [Session.challengeIn, replies_log]

theorem texts_log (hvalid : t.Valid s) (tail : List UpdateEvent) :
    s.texts (t.log s ++ tail) =
      if s.secure then
        (t.rounds.map fun r => Bytes.padTo r.1 Firmware.chunkSize ++ t.welcome) ++
          ((pieces tail).filter fun p => !p.2.isEmpty).map fun p =>
            Bytes.padTo p.2 Firmware.chunkSize ++ t.welcome
      else [] := by
  have hnonempty (offset : Nat) (rounds : List (Bytes × Bytes))
      (hwhole : ∀ r ∈ rounds, Firmware.chunkSize ≤ r.1.length) :
      ((placed offset rounds).filter fun p => !p.2.isEmpty) = placed offset rounds := by
    induction rounds generalizing offset with
    | nil => rfl
    | cons r rest ih =>
      obtain ⟨hr, hrest⟩ := List.forall_mem_cons.mp hwhole
      have hne : r.1.isEmpty = false := by
        cases hpiece : r.1 with
        | nil => simp [hpiece, Firmware.chunkSize] at hr
        | cons b piece => rfl
      simp [placed, hne, ih _ hrest]
  have hplaced := congrArg (List.map fun piece => Bytes.padTo piece Firmware.chunkSize ++ t.welcome)
    (placed_map_snd 0 t.rounds)
  simp only [List.map_map, Function.comp_def] at hplaced
  simp only [Session.texts, challengeIn_log, pieces_log, List.filter_append,
    hnonempty 0 _ hvalid.whole, List.map_append, hplaced]

/-- What comes after a transfer is lawful if it would be on its own. -/
theorem lawful_log (hvalid : t.Valid s) {tail : List UpdateEvent}
    (hframes : frames tail <+: s.body ((pieces tail).map (·.2)) (s.payloads tail))
    (hpieces : Session.InOrder t.size (pieces tail))
    (htexts : (hiddens tail).map (·.1) <+:
      if s.secure then
        ((pieces tail).filter fun p => !p.2.isEmpty).map fun p =>
          Bytes.padTo p.2 Firmware.chunkSize ++ t.welcome
      else [])
    (htalk : s.Orderly (talk tail)) : s.Lawful (t.log s ++ tail) where
  frames := by
    rw [frames_log, script_log hvalid]
    exact (List.prefix_append_right_inj _).mpr hframes
  pieces := by
    rw [pieces_log]
    exact inOrder_log hvalid hpieces
  texts := by
    rw [hiddens_log, texts_log hvalid]
    cases hsecure : s.secure with
    | true =>
      simp only [hsecure, if_true] at htexts
      simp only [if_true, List.map_append, List.map_map]
      exact (List.prefix_append_right_inj _).mpr htexts
    | false => simpa [hsecure] using htexts
  talk := orderly_log hvalid htalk

/-- An update is finished by what comes after its transfer. -/
theorem finished_log_iff (hvalid : t.Valid s) (tail : List UpdateEvent) :
    s.Finished (t.log s ++ tail) ↔
      frames tail = s.body ((pieces tail).map (·.2)) (s.payloads tail) ∧
        s.finishFrame ∈ frames tail ∧ List.Forall₂ s.Demands (frames tail) (replies tail) := by
  have hreset : s.Demands s.resetFrame [Firmware.resetDone] := .inl ⟨rfl, rfl⟩
  have hopening : s.Demands s.openingFrame t.welcome := .inr (.inl ⟨rfl, hvalid.welcome⟩)
  have hchunk (payload : Bytes) : s.Demands (s.chunkFrame payload) [Firmware.chunkTaken] :=
    .inr (.inr (.inl ⟨⟨payload, rfl⟩, rfl⟩))
  -- The frames of the rounds are answered as they demand, so it depends on the tail.
  have hrounds (rounds : List (Bytes × Bytes)) :
      List.Forall₂ s.Demands ((rounds.map fun r => s.chunkFrame r.2) ++ frames tail)
        ((rounds.map fun _ => [Firmware.chunkTaken]) ++ replies tail) ↔
      List.Forall₂ s.Demands (frames tail) (replies tail) := by
    induction rounds with
    | nil => rfl
    | cons r rest ih => simpa [List.forall₂_cons, hchunk] using ih
  have hmem : s.finishFrame ∉ t.rounds.map fun r => s.chunkFrame r.2 := by
    intro h
    obtain ⟨r, -, hr⟩ := List.mem_map.mp h
    exact s.chunkFrame_ne_frame _ _ hr
  have hother := s.finishFrame_ne_resetFrame
  have hother' := s.finishFrame_ne_openingFrame
  rw [Session.Finished, frames_log, replies_log, script_log hvalid]
  simp only [List.cons_append, List.cons.injEq, true_and, List.append_cancel_left_eq,
    List.mem_cons, List.mem_append, hmem, hother, hother', false_or, List.forall₂_cons, hreset,
    hopening, hrounds]

end Transfer

namespace Session

variable {s : Session} {t : Transfer} {d : Dialogue}

/-! ## The forms of a log -/

/-- What is seen when the last piece is read, and sent if it is not empty. -/
def closing (s : Session) (t : Transfer) : (last : Option (Bytes × Bytes)) → List UpdateEvent
  | none => [.piece t.size []]
  | some r => s.round t.welcome t.size r

/-- Whether a piece can be the last one that is sent. -/
def Closes (s : Session) (last : Option (Bytes × Bytes)) : Prop :=
  ∀ r ∈ last, r.1 ≠ [] ∧ r.1.length < Firmware.chunkSize ∧ s.Carries r

/-- What a dialogue has counted. -/
def Counts (d : Dialogue) (chunks bytes : Nat) (padded : Bool) : Prop :=
  d.progress.chunks = chunks ∧ d.progress.bytes = bytes ∧ d.progress.padded = padded

/-- The dialogue is in the middle of a transfer. -/
structure Underway (s : Session) (t : Transfer) (d : Dialogue) : Prop where
  valid : t.Valid s
  stage : d.stage = .transferring
  challenge : s.secure = true → d.challenge = t.welcome

/-- A log is the one that belongs to the phase of a dialogue. -/
def Account (s : Session) (log : List UpdateEvent) (d : Dialogue) : Prop :=
  d.terms = s.dialogue.terms ∧
    match d.phase with
    | .unopened | .measuring _ _ | .checking _ _ =>
      Counts d 0 0 false ∧ d.stage = .idle ∧ log = []
    | .sending .reset payload =>
      Counts d 0 0 false ∧ d.stage = .idle ∧ payload = [Firmware.reset] ∧ log = []
    | .awaiting .reset =>
      Counts d 0 0 false ∧ d.stage = .resetSent ∧ log = [.frame s.resetFrame]
    | .sending .opening payload =>
      Counts d 0 0 false ∧ d.stage = .resetSent ∧ payload = [s.openingByte] ∧
        log = [.frame s.resetFrame, .reply [Firmware.resetDone]]
    | .awaiting .opening =>
      Counts d 0 0 false ∧ d.stage = (if s.secure then .awaitingChallenge else .beginSent) ∧
        log = [.frame s.resetFrame, .reply [Firmware.resetDone], .frame s.openingFrame]
    | .reading =>
      ∃ t : Transfer, s.Underway t d ∧ Counts d t.rounds.length t.size false ∧ log = t.log s
    | .encrypting used chunk =>
      s.secure = true ∧ ∃ (t : Transfer) (piece : Bytes), s.Underway t d ∧ piece ≠ [] ∧
        used = piece.length ∧ chunk = Bytes.padTo piece Firmware.chunkSize ∧
        Counts d t.rounds.length t.size (piece.length < Firmware.chunkSize) ∧
        log = t.log s ++ [.piece t.size piece]
    | .sending (.chunk used) payload =>
      ∃ (t : Transfer) (piece : Bytes), s.Underway t d ∧ piece ≠ [] ∧ used = piece.length ∧
        s.Carries (piece, payload) ∧
        Counts d t.rounds.length t.size (piece.length < Firmware.chunkSize) ∧
        log = t.log s ++ s.taking t.welcome t.size (piece, payload)
    | .awaiting (.chunk used) =>
      ∃ (t : Transfer) (piece payload : Bytes), s.Underway t d ∧ piece ≠ [] ∧
        used = piece.length ∧ s.Carries (piece, payload) ∧
        Counts d (t.rounds.length + 1) (t.size + piece.length)
          (piece.length < Firmware.chunkSize) ∧
        log = t.log s ++
          (s.taking t.welcome t.size (piece, payload) ++ [.frame (s.chunkFrame payload)])
    | .sending .finish payload =>
      payload = [Firmware.finish] ∧ ∃ (t : Transfer) (last : Option (Bytes × Bytes)),
        s.Underway t d ∧ s.Closes last ∧
        Counts d (t.all last).length (Transfer.bytesIn (t.all last)) last.isSome ∧
        log = t.log s ++ s.closing t last
    | .awaiting .finish =>
      ∃ (t : Transfer) (last : Option (Bytes × Bytes)), t.Valid s ∧ d.stage = .endSent ∧
        s.Closes last ∧
        Counts d (t.all last).length (Transfer.bytesIn (t.all last)) last.isSome ∧
        log = t.log s ++ (s.closing t last ++ [.frame s.finishFrame])
    | .ended (.ok ()) =>
      ∃ (t : Transfer) (last : Option (Bytes × Bytes)), t.Valid s ∧ d.stage = .endSent ∧
        s.Closes last ∧
        Counts d (t.all last).length (Transfer.bytesIn (t.all last)) last.isSome ∧
        log = t.log s ++
          (s.closing t last ++ [.frame s.finishFrame, .reply [Firmware.finished]])
    | .ended (.error _) => s.Lawful log ∧ ¬ s.Finished log ∧ d.stage = s.shown log

/-! ## What the forms say -/

theorem body_single {piece : Bytes} (payload : Bytes) (hne : piece ≠ []) :
    s.body [piece] [payload] = s.chunkFrame payload ::
      if piece.length < Firmware.chunkSize then [s.finishFrame] else [] := by
  cases piece with
  | nil => exact absurd rfl hne
  | cons b piece =>
    simp only [body]

/-- After a piece was taken up and before the next one, a log is lawful if it has no other frames
than those for the piece. -/
theorem lawful_taking (hvalid : t.Valid s) {r : Bytes × Bytes} (hne : r.1 ≠ [])
    (hcarries : s.Carries r) {tail : List UpdateEvent} (hpieces : pieces tail = [])
    (hhiddens : hiddens tail = [])
    (hframes : frames tail <+: s.chunkFrame r.2 ::
      if r.1.length < Firmware.chunkSize then [s.finishFrame] else [])
    (htalk : s.Orderly (talk tail)) :
    s.Lawful (t.log s ++ (s.taking t.welcome t.size r ++ tail)) := by
  obtain ⟨piece, payload⟩ := r
  have hempty : piece.isEmpty = false := by simpa using hne
  unfold frames at hframes
  unfold pieces at hpieces
  unfold hiddens at hhiddens
  unfold talk at htalk
  apply Transfer.lawful_log hvalid
  · have hbody := s.body_single payload hne
    cases hsecure : s.secure with
    | true => simpa [frames, pieces, hiddens, taking, payloads, hsecure, hpieces, hhiddens, hbody]
    | false =>
      have hpayload := hcarries hsecure
      simp only at hpayload
      subst hpayload
      simpa [frames, pieces, hiddens, taking, payloads, hsecure, hpieces, hhiddens, hbody]
  · cases hsecure : s.secure <;> simp [pieces, taking, hsecure, hpieces, InOrder]
  · cases hsecure : s.secure <;>
      simp [pieces, hiddens, taking, hsecure, hpieces, hhiddens, hempty]
  · cases hsecure : s.secure <;> simpa [talk, taking, hsecure] using htalk

theorem finished_taking_iff (hvalid : t.Valid s) {r : Bytes × Bytes} (hne : r.1 ≠ [])
    (hcarries : s.Carries r) {tail : List UpdateEvent} (hpieces : pieces tail = [])
    (hhiddens : hiddens tail = []) :
    s.Finished (t.log s ++ (s.taking t.welcome t.size r ++ tail)) ↔
      frames tail = s.chunkFrame r.2 ::
          (if r.1.length < Firmware.chunkSize then [s.finishFrame] else []) ∧
        s.finishFrame ∈ frames tail ∧ List.Forall₂ s.Demands (frames tail) (replies tail) := by
  obtain ⟨piece, payload⟩ := r
  unfold pieces at hpieces
  unfold hiddens at hhiddens
  rw [Transfer.finished_log_iff hvalid]
  have hbody := s.body_single payload hne
  cases hsecure : s.secure with
  | true =>
    simp [frames, replies, pieces, hiddens, taking, payloads, hsecure, hpieces, hhiddens, hbody]
  | false =>
    have hpayload := hcarries hsecure
    simp only at hpayload
    subst hpayload
    simp [frames, replies, pieces, taking, payloads, hsecure, hpieces, hbody]

/-- After the end of the image was found, a log is lawful if it has no other frame than the last
one. -/
theorem lawful_empty (hvalid : t.Valid s) {tail : List UpdateEvent} (hpieces : pieces tail = [])
    (hhiddens : hiddens tail = []) (hframes : frames tail <+: [s.finishFrame])
    (htalk : s.Orderly (talk tail)) :
    s.Lawful (t.log s ++ (.piece t.size [] :: tail)) := by
  unfold frames at hframes
  unfold pieces at hpieces
  unfold hiddens at hhiddens
  unfold talk at htalk
  apply Transfer.lawful_log hvalid
  · simpa [frames, pieces, hpieces, body] using hframes
  · simp [pieces, hpieces, InOrder]
  · simp [pieces, hiddens, hpieces, hhiddens]
  · simpa [talk] using htalk

theorem finished_empty_iff (hvalid : t.Valid s) {tail : List UpdateEvent}
    (hpieces : pieces tail = []) :
    s.Finished (t.log s ++ (.piece t.size [] :: tail)) ↔
      frames tail = [s.finishFrame] ∧ s.finishFrame ∈ frames tail ∧
        List.Forall₂ s.Demands (frames tail) (replies tail) := by
  unfold pieces at hpieces
  rw [Transfer.finished_log_iff hvalid]
  simp [frames, replies, pieces, hpieces, body]

/-- Once the image was sent, a log is lawful if it has no other frame than the last one. -/
theorem lawful_closing (hvalid : t.Valid s) {last : Option (Bytes × Bytes)} (hlast : s.Closes last)
    {tail : List UpdateEvent} (hpieces : pieces tail = []) (hhiddens : hiddens tail = [])
    (hframes : frames tail <+: [s.finishFrame]) (htalk : s.Orderly (talk tail)) :
    s.Lawful (t.log s ++ (s.closing t last ++ tail)) := by
  cases last with
  | none => exact lawful_empty hvalid hpieces hhiddens hframes htalk
  | some r =>
    obtain ⟨hne, hshort, hcarries⟩ := hlast r rfl
    unfold closing round
    rw [List.append_assoc]
    apply lawful_taking hvalid hne hcarries
    · simpa [pieces] using hpieces
    · simpa [hiddens] using hhiddens
    · rw [if_pos hshort]
      simpa [frames, List.cons_prefix_cons] using hframes
    · exact .inl ⟨.inr (.inr (.inl ⟨⟨r.2, rfl⟩, rfl⟩)), htalk⟩

theorem finished_closing_iff (hvalid : t.Valid s) {last : Option (Bytes × Bytes)}
    (hlast : s.Closes last) {tail : List UpdateEvent} (hpieces : pieces tail = [])
    (hhiddens : hiddens tail = []) :
    s.Finished (t.log s ++ (s.closing t last ++ tail)) ↔
      frames tail = [s.finishFrame] ∧ s.finishFrame ∈ frames tail ∧
        List.Forall₂ s.Demands (frames tail) (replies tail) := by
  cases last with
  | none => exact finished_empty_iff hvalid hpieces
  | some r =>
    obtain ⟨hne, hshort, hcarries⟩ := hlast r rfl
    have hchunk : s.Demands (s.chunkFrame r.2) [Firmware.chunkTaken] :=
      .inr (.inr (.inl ⟨⟨r.2, rfl⟩, rfl⟩))
    have hother : s.finishFrame ≠ s.chunkFrame r.2 := (s.chunkFrame_ne_frame _ _).symm
    unfold closing round
    rw [List.append_assoc, finished_taking_iff hvalid hne hcarries (by simpa [pieces] using hpieces)
      (by simpa [hiddens] using hhiddens), if_pos hshort]
    simp [frames, replies, List.forall₂_cons, hchunk, hother]

theorem foldl_closing (s : Session) (t : Transfer) (last : Option (Bytes × Bytes)) :
    (s.closing t last).foldl s.shownAfter .transferring = .transferring := by
  cases last with
  | none => rfl
  | some r => exact s.foldl_round _ _ r _

theorem shown_taking (hvalid : t.Valid s) (r : Bytes × Bytes) (tail : List UpdateEvent) :
    s.shown (t.log s ++ (s.taking t.welcome t.size r ++ tail)) =
      tail.foldl s.shownAfter .transferring := by
  rw [Transfer.shown_log hvalid, List.foldl_append, foldl_taking]

theorem shown_closing (hvalid : t.Valid s) (last : Option (Bytes × Bytes))
    (tail : List UpdateEvent) :
    s.shown (t.log s ++ (s.closing t last ++ tail)) = tail.foldl s.shownAfter .transferring := by
  rw [Transfer.shown_log hvalid, List.foldl_append, foldl_closing]

/-- What the protocol says of a log and the dialogue that it belongs to. -/
structure Sound (s : Session) (log : List UpdateEvent) (d : Dialogue) : Prop where
  lawful : s.Lawful log
  finished : s.Finished log ↔ d.result? = some (.ok ())
  stage : d.stage = s.shown log

theorem Sound.of_open {log : List UpdateEvent} (h : s.Lawful log ∧ ¬ s.Finished log)
    (hresult : d.result? = none) (hstage : d.stage = s.shown log) : s.Sound log d :=
  ⟨h.1, by simp [h.2, hresult], hstage⟩

/-- Until its chunk was sent and answered, a piece does not finish the update. -/
theorem open_taking (hvalid : t.Valid s) {r : Bytes × Bytes} (hne : r.1 ≠ [])
    (hcarries : s.Carries r) {tail : List UpdateEvent} (hpieces : pieces tail = [])
    (hhiddens : hiddens tail = []) (hframes : frames tail <+: [s.chunkFrame r.2])
    (htalk : s.Orderly (talk tail)) :
    s.Lawful (t.log s ++ (s.taking t.welcome t.size r ++ tail)) ∧
      ¬ s.Finished (t.log s ++ (s.taking t.welcome t.size r ++ tail)) := by
  have hmore : [s.chunkFrame r.2] <+: s.chunkFrame r.2 ::
      if r.1.length < Firmware.chunkSize then [s.finishFrame] else [] :=
    List.cons_prefix_cons.mpr ⟨rfl, List.nil_prefix⟩
  refine ⟨lawful_taking hvalid hne hcarries hpieces hhiddens (hframes.trans hmore) htalk, ?_⟩
  rw [finished_taking_iff hvalid hne hcarries hpieces hhiddens]
  rintro ⟨-, hmem, -⟩
  exact s.chunkFrame_ne_frame _ _ (List.mem_singleton.mp (hframes.subset hmem)).symm

/-- Until the last frame is answered as it demands, the update is not finished. -/
theorem open_closing (hvalid : t.Valid s) {last : Option (Bytes × Bytes)} (hlast : s.Closes last)
    {tail : List UpdateEvent} (hpieces : pieces tail = []) (hhiddens : hiddens tail = [])
    (hframes : frames tail <+: [s.finishFrame]) (htalk : s.Orderly (talk tail))
    (hopen : ¬ List.Forall₂ s.Demands [s.finishFrame] (replies tail)) :
    s.Lawful (t.log s ++ (s.closing t last ++ tail)) ∧
      ¬ s.Finished (t.log s ++ (s.closing t last ++ tail)) := by
  refine ⟨lawful_closing hvalid hlast hpieces hhiddens hframes htalk, ?_⟩
  rw [finished_closing_iff hvalid hlast hpieces hhiddens]
  rintro ⟨hall, -, hanswered⟩
  rw [hall] at hanswered
  exact hopen hanswered

theorem lawful_greeting (log : List UpdateEvent) (hpieces : pieces log = [])
    (hhiddens : hiddens log = []) (hframes : frames log <+: [s.resetFrame, s.openingFrame])
    (htalk : s.Orderly (talk log)) : s.Lawful log ∧ ¬ s.Finished log := by
  refine ⟨⟨?_, by simp [hpieces, InOrder], by simp [hhiddens], htalk⟩, ?_⟩
  · simpa [script, canonical, body, hpieces] using hframes
  · rintro ⟨-, hmem, -⟩
    have hearly := hframes.subset hmem
    simp [s.finishFrame_ne_resetFrame, s.finishFrame_ne_openingFrame] at hearly

theorem sound_greeting {log : List UpdateEvent} (hpieces : pieces log = [])
    (hhiddens : hiddens log = []) (hframes : frames log <+: [s.resetFrame, s.openingFrame])
    (htalk : s.Orderly (talk log)) (hresult : d.result? = none) (hstage : d.stage = s.shown log) :
    s.Sound log d := by
  exact .of_open (lawful_greeting log hpieces hhiddens hframes htalk) hresult hstage

/-- At its end the log is as the protocol says. -/
theorem Account.sound_of_ended {log : List UpdateEvent} (h : s.Account log d)
    {result : Except UpdateFault Unit} (hphase : d.phase = .ended result) : s.Sound log d := by
  obtain ⟨-, h⟩ := h
  have hresult : d.result? = some result := by simp [Dialogue.result?, hphase]
  cases result with
  | ok u =>
    simp only [hphase] at h
    obtain ⟨t, last, hvalid, hstage, hlast, -, rfl⟩ := h
    have hlastReply : s.Demands s.finishFrame [Firmware.finished] :=
      .inr (.inr (.inr ⟨rfl, rfl⟩))
    refine ⟨lawful_closing hvalid hlast rfl rfl (List.prefix_refl _)
      (.inl ⟨hlastReply, trivial⟩), ?_, ?_⟩
    · rw [finished_closing_iff hvalid hlast rfl rfl]
      simp [hresult, frames, replies, hlastReply]
    · rw [shown_closing hvalid, hstage]
      simp only [List.foldl_cons, List.foldl_nil, shownAfter_finishFrame]
      rfl
  | error fault =>
    simp only [hphase] at h
    exact ⟨h.1, by simp [hresult, h.2.1], h.2.2⟩

/-- In each phase the log is as the protocol says. -/
theorem Account.sound {log : List UpdateEvent} (h : s.Account log d) : s.Sound log d := by
  by_cases hended : ∃ result, d.phase = .ended result
  case pos =>
    obtain ⟨result, hphase⟩ := hended
    exact h.sound_of_ended hphase
  obtain ⟨-, h⟩ := h
  -- In all other phases the dialogue has no result, so the end of the update must not be seen.
  have hresult : d.result? = none := by
    unfold Dialogue.result?
    split
    case h_1 result hphase => exact absurd ⟨result, hphase⟩ hended
    case h_2 => rfl
  cases hphase : d.phase with
  | unopened =>
    simp only [hphase] at h
    obtain ⟨-, hstage, rfl⟩ := h
    exact sound_greeting rfl rfl List.nil_prefix trivial hresult hstage
  | measuring header image =>
    simp only [hphase] at h
    obtain ⟨-, hstage, rfl⟩ := h
    exact sound_greeting rfl rfl List.nil_prefix trivial hresult hstage
  | checking header image =>
    simp only [hphase] at h
    obtain ⟨-, hstage, rfl⟩ := h
    exact sound_greeting rfl rfl List.nil_prefix trivial hresult hstage
  | reading =>
    simp only [hphase] at h
    obtain ⟨t, hunderway, -, rfl⟩ := h
    have hvalid := hunderway.valid
    rw [← List.append_nil (t.log s)]
    refine .of_open ⟨Transfer.lawful_log hvalid List.nil_prefix trivial List.nil_prefix trivial, ?_⟩
      hresult ?_
    · rw [Transfer.finished_log_iff hvalid]
      simp [frames]
    · rw [Transfer.shown_log hvalid, hunderway.stage]
      rfl
  | encrypting used chunk =>
    simp only [hphase] at h
    obtain ⟨hsecure, t, piece, hunderway, hne, -, -, -, rfl⟩ := h
    have hvalid := hunderway.valid
    refine .of_open ⟨Transfer.lawful_log hvalid List.nil_prefix ⟨rfl, .inl rfl, trivial⟩
      List.nil_prefix trivial, ?_⟩ hresult ?_
    · simp [Transfer.finished_log_iff hvalid, frames]
    · rw [Transfer.shown_log hvalid, hunderway.stage]
      rfl
  | sending frame payload =>
    cases frame with
    | reset =>
      simp only [hphase] at h
      obtain ⟨-, hstage, -, rfl⟩ := h
      exact sound_greeting rfl rfl List.nil_prefix trivial hresult hstage
    | opening =>
      simp only [hphase] at h
      obtain ⟨-, hstage, -, rfl⟩ := h
      refine sound_greeting rfl rfl ⟨[s.openingFrame], rfl⟩ (.inr rfl) hresult ?_
      simp [hstage, shown, shownAfter]
    | chunk used =>
      simp only [hphase] at h
      obtain ⟨t, piece, hunderway, hne, -, hcarries, -, rfl⟩ := h
      have hvalid := hunderway.valid
      rw [← List.append_nil (s.taking _ _ _)]
      refine .of_open (open_taking hvalid hne hcarries rfl rfl List.nil_prefix trivial) hresult ?_
      rw [shown_taking hvalid, hunderway.stage]
      rfl
    | finish =>
      simp only [hphase] at h
      obtain ⟨-, t, last, hunderway, hlast, -, rfl⟩ := h
      have hvalid := hunderway.valid
      rw [← List.append_nil (s.closing _ _)]
      refine .of_open (open_closing hvalid hlast rfl rfl List.nil_prefix trivial (by nofun))
        hresult ?_
      rw [shown_closing hvalid, hunderway.stage]
      rfl
  | awaiting frame =>
    cases frame with
    | reset =>
      simp only [hphase] at h
      obtain ⟨-, hstage, rfl⟩ := h
      refine sound_greeting rfl rfl ⟨[s.openingFrame], rfl⟩ trivial hresult ?_
      simp [hstage, shown, shownAfter]
    | opening =>
      simp only [hphase] at h
      obtain ⟨-, hstage, rfl⟩ := h
      refine sound_greeting rfl rfl ⟨[], rfl⟩ (.inl ⟨.inl ⟨rfl, rfl⟩, trivial⟩) hresult ?_
      simp [hstage, shown, shownAfter, s.openingFrame_ne_resetFrame]
    | chunk used =>
      simp only [hphase] at h
      obtain ⟨t, piece, payload, hunderway, hne, -, hcarries, -, rfl⟩ := h
      have hvalid := hunderway.valid
      refine .of_open (open_taking hvalid hne hcarries rfl rfl (List.prefix_refl _) trivial)
        hresult ?_
      rw [shown_taking hvalid, hunderway.stage]
      exact (s.shownAfter_chunkFrame payload .transferring).symm
    | finish =>
      simp only [hphase] at h
      obtain ⟨t, last, hvalid, hstage, hlast, -, rfl⟩ := h
      refine .of_open (open_closing hvalid hlast rfl rfl (List.prefix_refl _) trivial (by nofun))
        hresult ?_
      rw [shown_closing hvalid, hstage]
      exact (s.shownAfter_finishFrame .transferring).symm
  | ended result => exact absurd ⟨result, hphase⟩ hended

/-! ## What a dialogue is told -/

/-- Whether an answer is the one that a frame demands, for a dialogue that has sent it. -/
def Answers (s : Session) (frame : UpdateFrame) (payload : Bytes) : Prop :=
  match frame with
  | .opening => s.Welcomes payload
  | frame => payload = [frame.demanded]

/-- Whether an event is not the answer that a frame demands. -/
def Deviates (s : Session) (frame : UpdateFrame) : UpdateEvent → Prop
  | .silence => True
  | .reply payload => ¬ s.Answers frame payload
  | _ => False

theorem demands_finishFrame_iff (s : Session) (payload : Bytes) :
    s.Demands s.finishFrame payload ↔ payload = [Firmware.finished] := by
  have hreset := s.finishFrame_ne_resetFrame
  have hopening := s.finishFrame_ne_openingFrame
  have hchunk (chunk : Bytes) : s.finishFrame ≠ s.chunkFrame chunk :=
    (s.chunkFrame_ne_frame _ _).symm
  simp [Demands, hreset, hopening, hchunk]

/-- A dialogue that ends with a fault keeps its account. -/
theorem account_end {log : List UpdateEvent} (h : s.Account log d) (hopen : d.result? = none)
    {d' : Dialogue} (hterms : d'.terms = d.terms) (hstage : d'.stage = d.stage)
    {fault : UpdateFault} (hphase : d'.phase = .ended (.error fault)) : s.Account log d' := by
  unfold Account
  simp only [hphase]
  refine ⟨hterms.trans h.1, h.sound.lawful, ?_, hstage.trans h.sound.stage⟩
  rw [h.sound.finished, hopen]
  intro hnone
  cases hnone

theorem account_fail {log : List UpdateEvent} (h : s.Account log d) (hopen : d.result? = none)
    (fault : UpdateFault) : s.Account log (d.fail fault) :=
  account_end h hopen rfl rfl rfl

/-- An answer that was not demanded, or none, does not change the stage. -/
theorem shownAfter_deviates {frame : UpdateFrame} {e : UpdateEvent} (he : s.Deviates frame e)
    {stage : Stage} (hstage : frame = .opening ∧
        stage = (if s.secure then .awaitingChallenge else .beginSent) ∨
      stage ≠ .beginSent ∧ stage ≠ .awaitingChallenge) :
    s.shownAfter stage e = stage := by
  cases e with
  | silence => rfl
  | reply payload =>
    rcases hstage with ⟨rfl, rfl⟩ | ⟨hplain, hsecret⟩
    · have hwrong : ¬ s.Welcomes payload := he
      unfold Welcomes at hwrong
      cases hsecure : s.secure <;> simp_all [shownAfter]
    · cases stage <;> simp_all [shownAfter]
  | _ => exact he.elim

/-- A dialogue fails with its account when it is not answered as it demands. -/
theorem account_deviates {log : List UpdateEvent} {frame : UpdateFrame}
    (hphase : d.phase = .awaiting frame) (h : s.Account log d) {e : UpdateEvent}
    (he : s.Deviates frame e) (fault : UpdateFault) :
    s.Account (log ++ [e]) (d.fail fault) := by
  have hpieces (f : Frame) : pieces [.frame f, e] = [] := by
    cases e <;> simp_all [Deviates, pieces]
  have hhiddens (f : Frame) : hiddens [.frame f, e] = [] := by
    cases e <;> simp_all [Deviates, hiddens]
  have hframes (f : Frame) : frames [.frame f, e] = [f] := by
    cases e <;> simp_all [Deviates, frames]
  have hbegins (f : Frame) : frames [.frame f, e] <+: [f] :=
    (hframes f).symm ▸ List.prefix_refl [f]
  have htalk (f : Frame) : s.Orderly (talk [.frame f, e]) := by
    cases e with
    | silence => trivial
    | reply payload => exact .inr rfl
    | _ => exact he.elim
  have hsnoc : s.shown (log ++ [e]) = s.shownAfter d.stage e := by
    rw [shown, List.foldl_append, ← shown, ← h.sound.stage]
    rfl
  obtain ⟨hterms, h⟩ := h
  simp only [hphase] at h
  -- What has to be shown is the same after each frame: the log is open, and the stage stays.
  suffices hdone : (s.Lawful (log ++ [e]) ∧ ¬ s.Finished (log ++ [e])) ∧
      s.shownAfter d.stage e = d.stage from
    ⟨hterms, hdone.1.1, hdone.1.2, by rw [hsnoc]; exact hdone.2.symm⟩
  cases frame with
  | reset =>
    obtain ⟨-, hstage, rfl⟩ := h
    refine ⟨lawful_greeting _ (hpieces s.resetFrame) (hhiddens s.resetFrame) ?_
      (htalk s.resetFrame), ?_⟩
    · exact (hbegins s.resetFrame).trans ⟨[s.openingFrame], rfl⟩
    · exact shownAfter_deviates he (.inr (by simp [hstage]))
  | opening =>
    obtain ⟨-, hstage, rfl⟩ := h
    refine ⟨lawful_greeting _ (hpieces s.openingFrame) (hhiddens s.openingFrame) ?_ ?_, ?_⟩
    · exact List.cons_prefix_cons.mpr ⟨rfl, hbegins s.openingFrame⟩
    · exact .inl ⟨.inl ⟨rfl, rfl⟩, htalk s.openingFrame⟩
    · exact shownAfter_deviates he (.inl ⟨rfl, hstage⟩)
  | chunk used =>
    obtain ⟨t, piece, payload, hunderway, hne, -, hcarries, -, rfl⟩ := h
    rw [List.append_assoc, List.append_assoc, List.singleton_append]
    refine ⟨open_taking hunderway.valid hne hcarries (hpieces _) (hhiddens _) (hbegins _)
      (htalk _), ?_⟩
    exact shownAfter_deviates he (.inr (by simp [hunderway.stage]))
  | finish =>
    obtain ⟨t, last, hvalid, hstage, hlast, -, rfl⟩ := h
    rw [List.append_assoc, List.append_assoc, List.singleton_append]
    refine ⟨open_closing hvalid hlast (hpieces _) (hhiddens _) (hbegins _) (htalk _) ?_, ?_⟩
    · intro hanswered
      cases e with
      | silence => simp [replies] at hanswered
      | reply payload =>
        have hright : s.Demands s.finishFrame payload := by simpa [replies] using hanswered
        exact he ((s.demands_finishFrame_iff payload).mp hright)
      | _ => exact he.elim
    · exact shownAfter_deviates he (.inr (by simp [hstage]))

/-- Before the first frame nothing is seen, and what the dialogue says of the header changes nothing
in the account. -/
def Silent (s : Session) (log : List UpdateEvent) (d : Dialogue) : Prop :=
  d.terms = s.dialogue.terms ∧ Counts d 0 0 false ∧ d.stage = .idle ∧ log = []

theorem Silent.sendReset {log : List UpdateEvent} (h : s.Silent log d) :
    s.Account log d.sendReset := by
  obtain ⟨hterms, hcounts, hstage, rfl⟩ := h
  exact ⟨hterms, hcounts, hstage, rfl, rfl⟩

/-- The dialogue of an update starts with the empty log. -/
theorem account_start {terms : DialogueTerms} (hterms : terms = s.dialogue.terms) :
    s.Account [] (.start terms) := by
  have hsilent : s.Silent [] { terms, phase := .unopened } :=
    ⟨hterms, ⟨rfl, rfl, rfl⟩, rfl, rfl⟩
  unfold Dialogue.start
  by_cases hverify : terms.verifyHeader = true
  · simp only [hverify, if_true]
    exact hsilent
  · simp only [hverify]
    exact hsilent.sendReset

theorem Silent.reject {log : List UpdateEvent} (h : s.Silent log d) (reason : String) :
    s.Account log (d.reject reason) := by
  obtain ⟨hterms, hcounts, hstage, rfl⟩ := h
  obtain ⟨hlawful, hunfinished⟩ := s.lawful_greeting [] rfl rfl List.nil_prefix trivial
  exact ⟨hterms, hlawful, hunfinished, hstage⟩

theorem Silent.openHeader {log : List UpdateEvent} (h : s.Silent log d) (data : Bytes) :
    s.Account log (d.openHeader data) := by
  unfold Dialogue.openHeader
  split
  case h_1 => exact h.reject _
  split
  case isTrue => exact h.reject _
  case isFalse => exact h

theorem Silent.measure {log : List UpdateEvent} (h : s.Silent log d) (header : FirmwareHeader)
    (image : Bytes) : s.Account log (d.measure header image) := by
  unfold Dialogue.measure
  split
  case isTrue => exact h.reject _
  case isFalse => exact h

theorem Silent.gather {log : List UpdateEvent} (h : s.Silent log d) (header : FirmwareHeader)
    (image piece : Bytes) : s.Account log (d.gather header image piece) := by
  unfold Dialogue.gather
  split
  case isTrue => exact h.measure header image
  split
  case isTrue => exact h.measure header (image ++ piece)
  case isFalse => exact h

theorem Silent.judge {log : List UpdateEvent} (h : s.Silent log d) (header : FirmwareHeader)
    (right : Bool) : s.Account log (d.judge header right) := by
  unfold Dialogue.judge
  split
  case isTrue =>
    obtain ⟨hterms, hcounts, hstage, rfl⟩ := h
    exact ⟨hterms, hcounts, hstage, rfl, rfl⟩
  case isFalse => exact h.reject _

/-- A piece is taken up; if it is empty the image is complete. -/
theorem account_pack {log : List UpdateEvent} (hphase : d.phase = .reading) (h : s.Account log d)
    (piece : Bytes) : s.Account (log ++ [.piece d.progress.bytes piece]) (d.pack piece) := by
  obtain ⟨hterms, h⟩ := h
  simp only [hphase] at h
  obtain ⟨t, ⟨hvalid, hstage, hchallenge⟩, ⟨hchunks, hbytes, hpadded⟩, rfl⟩ := h
  unfold Dialogue.pack
  rw [hbytes, hpadded, hterms]
  split
  case isTrue hempty =>
    obtain rfl : piece = [] := by simpa using hempty
    refine ⟨hterms, rfl, t, none, ⟨hvalid, hstage, hchallenge⟩, ?_, ?_, rfl⟩
    · intro r hr
      cases hr
    · have hall : t.all none = t.rounds := List.append_nil _
      rw [hall]
      exact ⟨hchunks, hbytes, hpadded⟩
  case isFalse hempty =>
    have hne : piece ≠ [] := by simpa using hempty
    have hsecret : s.dialogue.terms.secure = s.secure := rfl
    dsimp only
    rw [hsecret]
    cases hsecure : s.secure with
    | true =>
      exact ⟨rfl, hsecure, t, piece, ⟨hvalid, hstage, hchallenge⟩, hne, rfl, rfl,
        ⟨hchunks, hbytes, by simp⟩, rfl⟩
    | false =>
      refine ⟨rfl, t, piece, ⟨hvalid, hstage, hchallenge⟩, hne, rfl, fun _ => rfl,
        ⟨hchunks, hbytes, by simp⟩, ?_⟩
      simp [taking, hsecure]

/-- A chunk was encrypted. -/
theorem account_hidden {log : List UpdateEvent} {used : Nat} {chunk : Bytes}
    (hphase : d.phase = .encrypting used chunk) (h : s.Account log d) (data : Bytes) :
    s.Account (log ++ [.hidden (chunk ++ d.challenge) data])
      { d with phase := .sending (.chunk used) data } := by
  obtain ⟨hterms, h⟩ := h
  simp only [hphase] at h
  obtain ⟨hsecure, t, piece, ⟨hvalid, hstage, hchallenge⟩, hne, hused, rfl, hcounts, rfl⟩ := h
  refine ⟨hterms, t, piece, ⟨hvalid, hstage, hchallenge⟩, hne, hused, ?_, hcounts, ?_⟩
  · intro hplain
    rw [hsecure] at hplain
    cases hplain
  · simp [taking, hsecure, hchallenge hsecure]

/-- A frame was sent. -/
theorem account_noteSent {log : List UpdateEvent} {frame : UpdateFrame} {payload : Bytes}
    (hphase : d.phase = .sending frame payload) (h : s.Account log d) :
    s.Account (log ++ [.frame (s.frame frame.code payload)]) (d.noteSent frame) := by
  obtain ⟨hterms, h⟩ := h
  simp only [hphase] at h
  cases frame with
  | reset =>
    obtain ⟨hcounts, hstage, rfl, rfl⟩ := h
    exact ⟨hterms, hcounts, rfl, rfl⟩
  | opening =>
    obtain ⟨hcounts, hstage, rfl, rfl⟩ := h
    refine ⟨hterms, hcounts, ?_, rfl⟩
    change (if d.terms.secure then _ else _) = _
    rw [hterms]
    rfl
  | chunk used =>
    obtain ⟨t, piece, ⟨hvalid, hstage, hchallenge⟩, hne, rfl, hcarries,
      ⟨hchunks, hbytes, hpadded⟩, rfl⟩ := h
    refine ⟨hterms, t, piece, payload, ⟨hvalid, rfl, hchallenge⟩, hne, rfl, hcarries,
      ⟨?_, ?_, hpadded⟩, ?_⟩
    · exact congrArg (· + 1) hchunks
    · exact congrArg (· + piece.length) hbytes
    · rw [List.append_assoc]
      rfl
  | finish =>
    obtain ⟨rfl, t, last, ⟨hvalid, hstage, hchallenge⟩, hlast, hcounts, rfl⟩ := h
    refine ⟨hterms, t, last, hvalid, rfl, hlast, hcounts, ?_⟩
    rw [List.append_assoc]
    rfl

/-- A chunk that fills its frame, and is answered, is one more round of the transfer. -/
theorem log_extend (s : Session) (t : Transfer) (r : Bytes × Bytes) :
    Transfer.log ⟨t.welcome, t.rounds ++ [r]⟩ s = t.log s ++ s.round t.welcome t.size r := by
  have hrounds (offset : Nat) (rounds : List (Bytes × Bytes)) :
      s.allRounds t.welcome offset (rounds ++ [r]) =
        s.allRounds t.welcome offset rounds ++
          s.round t.welcome (offset + Transfer.bytesIn rounds) r := by
    induction rounds generalizing offset with
    | nil => simp [allRounds, Transfer.bytesIn]
    | cons r' rest ih =>
      simp only [List.cons_append, allRounds, ih, List.append_assoc]
      simp [Transfer.bytesIn, Nat.add_assoc]
  simp [Transfer.log, hrounds, Transfer.size]

/-- A dialogue goes on after the answer that a frame demands. -/
theorem account_proceed {log : List UpdateEvent} {frame : UpdateFrame}
    (hphase : d.phase = .awaiting frame) (h : s.Account log d)
    (hplain : frame = .opening → s.secure = false) :
    s.Account (log ++ [.reply [frame.demanded]]) (d.proceed frame) := by
  obtain ⟨hterms, h⟩ := h
  simp only [hphase] at h
  cases frame with
  | reset =>
    obtain ⟨hcounts, hstage, rfl⟩ := h
    refine ⟨hterms, hcounts, hstage, ?_, rfl⟩
    rw [hterms]
    rfl
  | opening =>
    have hsecure := hplain rfl
    obtain ⟨hcounts, hstage, rfl⟩ := h
    refine ⟨hterms, ⟨[Firmware.ready], []⟩, ⟨⟨?_, ?_, ?_⟩, rfl, ?_⟩, hcounts, rfl⟩
    · simp [Welcomes, hsecure]
    · simp
    · simp
    · simp [hsecure]
  | chunk used =>
    obtain ⟨t, piece, payload, ⟨hvalid, hstage, hchallenge⟩, hne, rfl, hcarries,
      ⟨hchunks, hbytes, hpadded⟩, rfl⟩ := h
    unfold Dialogue.proceed
    dsimp only
    split
    -- A piece that does not fill its chunk is the last one; any other makes one more round.
    case isTrue hshort =>
      have hcounts : Counts d (t.all (some (piece, payload))).length
          (Transfer.bytesIn (t.all (some (piece, payload)))) true :=
        ⟨by simpa [Transfer.all] using hchunks,
          by simpa [Transfer.all, Transfer.bytesIn, Transfer.size] using hbytes,
          by simpa [hshort] using hpadded⟩
      refine ⟨hterms, rfl, t, some (piece, payload), ⟨hvalid, hstage, hchallenge⟩, ?_, hcounts, ?_⟩
      · intro r hr
        obtain rfl := Option.mem_some_iff.mp hr
        exact ⟨hne, hshort, hcarries⟩
      · rw [List.append_assoc, List.append_assoc]
        rfl
    case isFalse hlong =>
      have hcounts : Counts d (t.rounds ++ [(piece, payload)]).length
          (Transfer.bytesIn (t.rounds ++ [(piece, payload)])) false :=
        ⟨by simpa using hchunks, by simpa [Transfer.bytesIn, Transfer.size] using hbytes,
          by simpa [hlong] using hpadded⟩
      refine ⟨hterms, ⟨t.welcome, t.rounds ++ [(piece, payload)]⟩,
        ⟨⟨hvalid.welcome, ?_, ?_⟩, hstage, hchallenge⟩, hcounts, ?_⟩
      · intro r hr
        rcases List.mem_append.mp hr with hr | hr
        · exact hvalid.whole r hr
        · obtain rfl := List.mem_singleton.mp hr
          exact Nat.le_of_not_lt hlong
      · intro r hr
        rcases List.mem_append.mp hr with hr | hr
        · exact hvalid.carries r hr
        · obtain rfl := List.mem_singleton.mp hr
          exact hcarries
      · rw [log_extend, List.append_assoc, List.append_assoc]
        rfl
  | finish =>
    obtain ⟨t, last, hvalid, hstage, hlast, hcounts, rfl⟩ := h
    refine ⟨hterms, t, last, hvalid, hstage, hlast, hcounts, ?_⟩
    rw [List.append_assoc, List.append_assoc]
    rfl

/-- A dialogue takes up a challenge. -/
theorem account_accept {log : List UpdateEvent} (hphase : d.phase = .awaiting .opening)
    (h : s.Account log d) (hsecure : s.secure = true) (payload : Bytes) :
    s.Account (log ++ [.reply payload]) (d.accept payload) := by
  -- A refusal has one byte, so it has not the length of a challenge either.
  have hwrong (hlength : payload.length ≠ Firmware.challengeSize) :
      s.Deviates .opening (.reply payload) := by
    simpa [Deviates, Answers, Welcomes, hsecure] using hlength
  unfold Dialogue.accept
  split
  case isTrue hrefused =>
    subst hrefused
    exact account_deviates hphase h (hwrong (by decide)) _
  split
  case isTrue hlength => exact account_deviates hphase h (hwrong hlength) _
  case isFalse hlength =>
    obtain ⟨hterms, h⟩ := h
    simp only [hphase] at h
    obtain ⟨hcounts, hstage, rfl⟩ := h
    refine ⟨hterms, ⟨payload, []⟩, ⟨⟨?_, ?_, ?_⟩, rfl, fun _ => rfl⟩, hcounts, rfl⟩
    · simpa [Welcomes, hsecure] using hlength
    · simp
    · simp

/-- A dialogue takes up an answer. -/
theorem account_answer {log : List UpdateEvent} {frame : UpdateFrame}
    (hphase : d.phase = .awaiting frame) (h : s.Account log d) (payload : Bytes) :
    s.Account (log ++ [.reply payload]) (d.answer frame payload) := by
  have hsecret : d.terms.secure = s.secure := congrArg DialogueTerms.secure h.1
  unfold Dialogue.answer
  rw [hsecret]
  split
  case isTrue hchallenge =>
    obtain ⟨rfl, hsecure⟩ := hchallenge
    exact account_accept hphase h hsecure payload
  case isFalse hother =>
    have hplain : frame = .opening → s.secure = false := by
      intro hopening
      simpa [hopening] using hother
    have hwrong (hne : payload ≠ [frame.demanded]) : s.Deviates frame (.reply payload) := by
      cases frame with
      | opening =>
        intro hwelcome
        have hready : payload = [Firmware.ready] := by
          simpa [Answers, Welcomes, hplain rfl] using hwelcome
        exact hne hready
      | _ => exact hne
    split
    case isTrue hright =>
      subst hright
      exact account_proceed hphase h hplain
    split
    case isTrue hne hrefused => exact account_deviates hphase h (hwrong hne) _
    case isFalse hne _ => exact account_deviates hphase h (hwrong hne) _

/-- Whatever a dialogue is told, its account goes on. -/
theorem account_hear {log : List UpdateEvent} (h : s.Account log d) (tiding : Tiding) :
    s.Account (log ++ d.shows s.frame tiding) (d.hear tiding) := by
  cases hphase : d.phase with
  | unopened =>
    have hopen : d.result? = none := by simp [Dialogue.result?, hphase]
    have hsilent : s.Silent log d := by simpa [Account, Silent, hphase] using h
    cases tiding with
    | header found =>
      cases found with
      | none => simpa [Dialogue.shows, Dialogue.hear, hphase] using hsilent.sendReset
      | some data => simpa [Dialogue.shows, Dialogue.hear, hphase] using hsilent.openHeader data
    | failed fault => simpa [Dialogue.shows, Dialogue.hear, hphase] using account_fail h hopen fault
    | _ => simpa [Dialogue.shows, Dialogue.hear, hphase] using h
  | measuring header image =>
    have hopen : d.result? = none := by simp [Dialogue.result?, hphase]
    have hsilent : s.Silent log d := by simpa [Account, Silent, hphase] using h
    cases tiding with
    | image piece =>
      simpa [Dialogue.shows, Dialogue.hear, hphase] using hsilent.gather header image piece
    | failed fault => simpa [Dialogue.shows, Dialogue.hear, hphase] using account_fail h hopen fault
    | _ => simpa [Dialogue.shows, Dialogue.hear, hphase] using h
  | checking header image =>
    have hopen : d.result? = none := by simp [Dialogue.result?, hphase]
    have hsilent : s.Silent log d := by simpa [Account, Silent, hphase] using h
    cases tiding with
    | verdict right =>
      simpa [Dialogue.shows, Dialogue.hear, hphase] using hsilent.judge header right
    | failed fault => simpa [Dialogue.shows, Dialogue.hear, hphase] using account_fail h hopen fault
    | _ => simpa [Dialogue.shows, Dialogue.hear, hphase] using h
  | reading =>
    have hopen : d.result? = none := by simp [Dialogue.result?, hphase]
    cases tiding with
    | image piece => simpa [Dialogue.shows, Dialogue.hear, hphase] using account_pack hphase h piece
    | failed fault => simpa [Dialogue.shows, Dialogue.hear, hphase] using account_fail h hopen fault
    | _ => simpa [Dialogue.shows, Dialogue.hear, hphase] using h
  | encrypting used chunk =>
    have hopen : d.result? = none := by simp [Dialogue.result?, hphase]
    cases tiding with
    | cipher data =>
      simpa [Dialogue.shows, Dialogue.hear, hphase] using account_hidden hphase h data
    | failed fault => simpa [Dialogue.shows, Dialogue.hear, hphase] using account_fail h hopen fault
    | _ => simpa [Dialogue.shows, Dialogue.hear, hphase] using h
  | sending frame payload =>
    have hopen : d.result? = none := by simp [Dialogue.result?, hphase]
    cases tiding with
    | sent => simpa [Dialogue.shows, Dialogue.hear, hphase] using account_noteSent hphase h
    | failed fault => simpa [Dialogue.shows, Dialogue.hear, hphase] using account_fail h hopen fault
    | _ => simpa [Dialogue.shows, Dialogue.hear, hphase] using h
  | awaiting frame =>
    cases tiding with
    | reply payload =>
      simpa [Dialogue.shows, Dialogue.hear, hphase] using account_answer hphase h payload
    | silence =>
      simpa [Dialogue.shows, Dialogue.hear, hphase] using
        account_deviates hphase h (e := .silence) trivial (.timeout d.stage)
    | failed fault =>
      simpa [Dialogue.shows, Dialogue.hear, hphase] using
        account_deviates hphase h (e := .silence) trivial fault
    | _ => simpa [Dialogue.shows, Dialogue.hear, hphase] using h
  | ended result => simpa [Dialogue.shows, Dialogue.hear, hphase] using h

end Session
end VehicleGateway
