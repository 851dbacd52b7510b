import VehicleGateway.Proofs.Ecu.Stored
import VehicleGateway.Proofs.Gateway.Records

/-!
# What an update leaves behind

An update ends with a status for its ECU, perhaps with a new firmware version, and with an attempt
to store the record.  `Concludes` says which status and which version, in terms of how the update
has ended, of the frames that the gateway has sent since its start, and of what its session has
read; `Stores` says what is stored.

* `steps` are the steps that a session takes in a stretch of a run.
* `Watched` is what holds of every session at every moment: it was started at some moment, it has
  taken its steps since then (`Session.Course`), and as long as it holds its ECU all frames of the
  ECU's updates since then are its own.
* `update_concluded` puts these together for every session that has let go of its ECU.
-/

namespace VehicleGateway

/-- Before that it is only the fault that counts. -/
theorem Progress.status_of_intact {p : Progress} (prior : Status) (fault : UpdateFault)
    (hchunks : p.chunks = 0) (hheader : p.headerRejected = false) :
    p.status prior (.error fault) = if fault.fatal then .fault else prior := by
  simp [status, hchunks, hheader]

section

variable {σ : Type} [Storage σ] {steps : List (Move σ)} {sent : List Frame} {s : Session}
  {result : Except UpdateFault Unit}

/-- A header was rejected exactly if the update has failed for it. -/
theorem Session.OnRecord.headerRejected (h : s.OnRecord steps)
    (hended : s.dialogue.result? = some result) :
    s.dialogue.progress.headerRejected = true ↔ ∃ reason, result = .error (.badHeader reason) := by
  have hblames := h.blames
  unfold Dialogue.Blames at hblames
  rw [hended] at hblames
  simpa using hblames

end

namespace Gateway

variable {σ : Type} [Storage σ]

variable {c : Config} {g : Gateway σ} {events : List (Happening σ)}

/-- The step that a session takes at a happening, if it takes one. -/
def stepsAt (c : Config) (g : Gateway σ) (events : List (Happening σ)) (n k : Nat) :
    List (Move σ) :=
  match events[k]? with
  | some (.deed (.move (.session m))) =>
    if m = n then ((g.moment c events k).nextMove? n).toList else []
  | _ => []

/-- No session takes a step unless one has its turn. -/
theorem stepsAt_of_others {k : Nat}
    (hnoturn : ∀ m, events[k]? ≠ some (.deed (.move (.session m)))) (n : Nat) :
    g.stepsAt c events n k = [] := by
  unfold stepsAt
  split
  case h_1 m hevent => exact absurd hevent (hnoturn m)
  case h_2 => rfl

/-- No session takes a step if the one that has its turn waits. -/
theorem stepsAt_of_waits {k m : Nat} (hevent : events[k]? = some (.deed (.move (.session m))))
    (hwaits : (g.moment c events k).nextMove? m = none) (n : Nat) :
    g.stepsAt c events n k = [] := by
  simp only [stepsAt, hevent]
  split
  case isTrue hm =>
    rw [← hm, hwaits]
    rfl
  case isFalse => rfl

/-- The steps that a session takes from one moment to another. -/
def steps (c : Config) (g : Gateway σ) (events : List (Happening σ)) (n i k : Nat) :
    List (Move σ) :=
  (List.range' i (k - i)).flatMap (g.stepsAt c events n)

theorem steps_succ {n i k : Nat} (hik : i ≤ k) :
    g.steps c events n i (k + 1) = g.steps c events n i k ++ g.stepsAt c events n k := by
  have hlength : k + 1 - i = (k - i) + 1 := by omega
  have hlast : i + (k - i) = k := by omega
  rw [steps, hlength, List.range'_1_concat, List.flatMap_append, hlast, List.flatMap_singleton]
  rfl

/-- A session was started at some moment, with the status that its ECU had then. -/
structure HasBegun (c : Config) (g : Gateway σ) (events : List (Happening σ)) (n b : Nat)
    (s : Session) : Prop where
  deed : ∃ secure, events[b]? = some (.deed (.startUpdate s.ecu s.image secure))
  before : (g.moment c events b).sessions.length = n
  after : (g.moment c events (b + 1)).sessions.length = n + 1
  prior : (g.moment c events b).registry.status? s.ecu = some s.prior

/-- Sessions are only added. -/
theorem length_sessions_le (hgoes : ∀ now bus keys, .deed (.restart now bus keys) ∉ events)
    {i j : Nat} (hij : i ≤ j) :
    (g.moment c events i).sessions.length ≤ (g.moment c events j).sessions.length := by
  induction hij with
  | refl => exact Nat.le_refl _
  | @step k _ ih =>
    refine Nat.le_trans ih ?_
    rcases moment_cases (c := c) (g := g) hgoes k with ⟨event, -, hdealing⟩ | ⟨-, hsame⟩
    case inr => exact Nat.le_of_eq (by rw [hsame])
    generalize g.moment c events (k + 1) = g' at hdealing
    cases hdealing with
    | aside hsame | post _ hsame => exact Nat.le_of_eq (by rw [hsame.sessions])
    | start => simp
    | session => simp

/-- A session that is there at a moment was started before. -/
theorem HasBegun.lt {n b j : Nat} {s : Session} (h : HasBegun c g events n b s)
    (hgoes : ∀ now bus keys, .deed (.restart now bus keys) ∉ events)
    (hj : n < (g.moment c events j).sessions.length) : b < j := by
  by_contra hnot
  have hle := length_sessions_le (c := c) (g := g) hgoes (Nat.le_of_not_lt hnot)
  have hbefore := h.before
  omega

/-- A session was started once. -/
theorem HasBegun.unique {n b b' : Nat} {s s' : Session} (h : HasBegun c g events n b s)
    (h' : HasBegun c g events n b' s')
    (hgoes : ∀ now bus keys, .deed (.restart now bus keys) ∉ events) :
    b' = b ∧ s'.ecu = s.ecu ∧ s'.image = s.image := by
  have hlt := h.lt hgoes (j := b' + 1) (by have := h'.after; omega)
  have hlt' := h'.lt hgoes (j := b + 1) (by have := h.after; omega)
  obtain rfl : b' = b := by omega
  obtain ⟨secure, hdeed⟩ := h.deed
  obtain ⟨secure', hdeed'⟩ := h'.deed
  simp only [hdeed, Option.some.injEq, Happening.deed.injEq, Deed.startUpdate.injEq] at hdeed'
  exact ⟨rfl, hdeed'.1.symm, hdeed'.2.1.symm⟩

/-- What holds of a session at some moment that was started at another. -/
structure Watched (c : Config) (g : Gateway σ) (events : List (Happening σ)) (n b k : Nat)
    (s : Session) : Prop where
  earlier : b < k
  begun : HasBegun c g events n b s
  course : ∃ secure w start, (g.moment c events b).toWorld.startUpdate g.firmware s.ecu s.image
    secure = .ok (w, start) ∧ Session.Course g.firmware start (g.steps c events n b k) s
  /-- As long as it holds its ECU, nobody else sends frames of the ECU's update. -/
  alone : s.holds = true → (g.sent c events b k).filter (·.isUpdate s.ecu) =
    (g.steps c events n b k).flatMap Move.transmitted

/-- The notes of a session go with its steps. -/
theorem Watched.record {n b k : Nat} {s : Session} (h : Watched c g events n b k s) :
    s.OnRecord (g.steps c events n b k) := by
  obtain ⟨secure, w, start, hstart, hcourse⟩ := h.course
  exact hcourse.onRecord hstart

/-- A turn of somebody else, at which no frame of the ECU's update is sent. -/
theorem Watched.pass {n b k : Nat} {s : Session} (h : Watched c g events n b k s)
    (hsteps : g.stepsAt c events n k = [])
    (hsent : s.holds = true → ∀ f ∈ g.sentAt c events k, f.isUpdate s.ecu = false) :
    Watched c g events n b (k + 1) s := by
  have hbk : b ≤ k := Nat.le_of_lt h.earlier
  refine ⟨Nat.lt_succ_of_lt h.earlier, h.begun, ?_, ?_⟩
  · rw [steps_succ hbk, hsteps, List.append_nil]
    exact h.course
  · intro hholds
    have hnone : (g.sentAt c events k).filter (·.isUpdate s.ecu) = [] := by
      rw [List.filter_eq_nil_iff]
      intro f hf
      rw [hsent hholds f hf]
      exact Bool.false_ne_true
    rw [steps_succ hbk, hsteps, List.append_nil, sent_succ hbk, List.filter_append, hnone,
      List.append_nil]
    exact h.alone hholds

/-- A turn of the session itself. -/
theorem Watched.turn {n b k : Nat} {m : Move σ} (h : Watched c g events n b k m.session)
    (hstep : m.session.step? g.firmware m.before = some (m.after, m.next))
    (hsteps : g.stepsAt c events n k = [m]) (hsent : g.sentAt c events k = m.transmitted) :
    Watched c g events n b (k + 1) m.next := by
  have hbk : b ≤ k := Nat.le_of_lt h.earlier
  have hkeeps := Session.step?_keeps hstep
  have hecu : m.next.ecu = m.session.ecu := by rw [hkeeps]
  refine ⟨Nat.lt_succ_of_lt h.earlier, ?_, ?_, ?_⟩
  · obtain ⟨hdeed, hbefore, hafter, hprior⟩ := h.begun
    rw [hkeeps]
    exact ⟨hdeed, hbefore, hafter, hprior⟩
  · obtain ⟨secure, w, start, hstart, hcourse⟩ := h.course
    rw [steps_succ hbk, hsteps, hkeeps]
    refine ⟨secure, w, start, hstart, ?_⟩
    rw [← hkeeps]
    exact hcourse.step hstep
  · intro hholds
    have hheld : m.session.holds = true := by
      rcases Session.step?_inboxes hstep with ⟨result, hready, -⟩ | ⟨-, hsame, -⟩
      · simp [Session.holds, hready]
      · exact hsame.symm.trans hholds
    have hall : m.transmitted.filter (·.isUpdate m.session.ecu) = m.transmitted := by
      rcases Session.transmitted_cases h.record.coherent hstep with hnone | ⟨-, code, payload, hone⟩
      · rw [hnone]
        rfl
      · rw [hone]
        simp [Frame.isUpdate, Session.heading_frame]
    rw [steps_succ hbk, hsteps, sent_succ hbk, hsent, hecu, List.filter_append, hall,
      h.alone hheld, List.flatMap_append, List.flatMap_singleton]

/-- A session that was just started. -/
theorem watched_start {k : Nat} {ecu : EcuNo} {image : String} {secure : Bool} {w : World σ}
    {s : Session} (hevent : events[k]? = some (.deed (.startUpdate ecu image secure)))
    (hstart : (g.moment c events k).toWorld.startUpdate g.firmware ecu image secure = .ok (w, s))
    (hnext : (g.moment c events (k + 1)).sessions = (g.moment c events k).sessions ++ [s]) :
    Watched c g events (g.moment c events k).sessions.length k (k + 1) s := by
  obtain ⟨record, hrecord, -, -, hs⟩ := World.startUpdate_parts hstart
  have hsteps : g.steps c events (g.moment c events k).sessions.length k (k + 1) = [] := by
    rw [steps_succ (Nat.le_refl k)]
    simp [steps, stepsAt, hevent]
  have hsent : g.sent c events k (k + 1) = [] := by
    rw [sent_succ (Nat.le_refl k), sent_self]
    simp [sentAt, hevent]
  refine ⟨Nat.lt_succ_self k, ⟨⟨secure, ?_⟩, rfl, ?_, ?_⟩, ?_, ?_⟩
  · rw [hs]
    exact hevent
  · rw [hnext]
    simp
  · rw [hs, Registry.status?, hrecord]
    rfl
  · rw [hsteps]
    refine ⟨secure, w, s, ?_, Session.course_start _ s⟩
    rw [hs]
    rw [hs] at hstart
    exact hstart
  · intro hholds
    rw [hsteps, hsent]
    rfl

/-- Whoever has a turn, every session stays under watch: what it sends itself is its own, and what
another session sends is for another ECU. -/
theorem watched_of_turn {k m : Nat} (hthen : (g.moment c events k).Housed)
    (hgoes : ∀ now bus keys, .deed (.restart now bus keys) ∉ events)
    (hbefore : ∀ n s, (g.moment c events k).sessions[n]? = some s →
      ∃ b, Watched c g events n b k s)
    (hevent : events[k]? = some (.deed (.move (.session m)))) {n : Nat} {s : Session}
    (hs : (g.moment c events (k + 1)).sessions[n]? = some s) :
    ∃ b, Watched c g events n b (k + 1) s := by
  rcases turn_of_session (c := c) (g := g) hevent with
    ⟨hwaits, hsent, hsame⟩ | ⟨move, hmove, hsent, hfound, hstep, hleft⟩
  · rw [hsame] at hs
    obtain ⟨b, hwatched⟩ := hbefore n s hs
    refine ⟨b, hwatched.pass (stepsAt_of_waits hevent hwaits n) ?_⟩
    rw [hsent]
    simp
  · rw [firmware_moment hgoes] at hstep
    rw [hleft] at hs
    rcases getElem?_set_cases hs with ⟨rfl, rfl⟩ | ⟨hn, hold⟩
    · obtain ⟨b, hwatched⟩ := hbefore _ move.session hfound
      refine ⟨b, hwatched.turn hstep ?_ hsent⟩
      simp [stepsAt, hevent, hmove]
    · obtain ⟨b, hwatched⟩ := hbefore n s hold
      refine ⟨b, hwatched.pass ?_ ?_⟩
      · simp [stepsAt, hevent, Ne.symm hn]
      · intro hholds
        rw [hsent]
        have hcoherent := (hthen.steady m move.session hfound).coherent
        rcases Session.transmitted_cases hcoherent hstep with
          hquiet | ⟨hheld, code, payload, hone⟩
        · rw [hquiet]
          simp
        · -- Another session that can send holds another ECU.
          have hother : move.session.ecu ≠ s.ecu := fun hecu =>
            hn (hthen.alone hold hfound hholds hheld hecu.symm)
          rw [hone]
          simp [Frame.isUpdate, Session.heading_frame, hother]

/-- If no session has a turn, those that are there stay under watch, and perhaps one is started. -/
theorem watched_of_others {k : Nat} (happart : (g.moment c events k).Apart)
    (hgoes : ∀ now bus keys, .deed (.restart now bus keys) ∉ events)
    (hbefore : ∀ n s, (g.moment c events k).sessions[n]? = some s →
      ∃ b, Watched c g events n b k s)
    (hnoturn : ∀ m, events[k]? ≠ some (.deed (.move (.session m)))) {n : Nat} {s : Session}
    (hs : (g.moment c events (k + 1)).sessions[n]? = some s) :
    ∃ b, Watched c g events n b (k + 1) s := by
  have hsteps : g.stepsAt c events n k = [] := stepsAt_of_others hnoturn n
  have hstays (hs : (g.moment c events k).sessions[n]? = some s) :
      ∃ b, Watched c g events n b (k + 1) s := by
    obtain ⟨b, hwatched⟩ := hbefore n s hs
    exact ⟨b, hwatched.pass hsteps fun _ f hf => happart.plain_sentAt hnoturn f hf s.ecu⟩
  rcases moment_cases (c := c) (g := g) hgoes k with ⟨event, hevent, hdealing⟩ | ⟨-, hsame⟩
  case inr =>
    rw [hsame] at hs
    exact hstays hs
  generalize hnext : g.moment c events (k + 1) = g' at hs hdealing
  cases hdealing with
  | aside hsame | post _ hsame =>
    rw [hsame.sessions] at hs
    exact hstays hs
  | @start ecu image secure w new hstart =>
    rcases getElem?_concat_cases hs with hold | ⟨hn, rfl⟩
    · exact hstays hold
    · rw [firmware_moment hgoes] at hstart
      rw [hn]
      exact ⟨k, watched_start hevent hstart (by rw [hnext])⟩
  | session => exact absurd hevent (hnoturn _)

/-- Every session is under watch from its start on. -/
theorem exists_watched (hhoused : g.Housed) (hapart : g.Apart) (hnone : g.sessions = [])
    (hgoes : ∀ now bus keys, .deed (.restart now bus keys) ∉ events) (k n : Nat) (s : Session)
    (hs : (g.moment c events k).sessions[n]? = some s) : ∃ b, Watched c g events n b k s := by
  induction k generalizing n s with
  | zero =>
    rw [moment_zero, hnone] at hs
    cases hs
  | succ k ih =>
    by_cases hturn : ∃ m, events[k]? = some (.deed (.move (.session m)))
    · obtain ⟨m, hevent⟩ := hturn
      exact watched_of_turn (hhoused.moment hgoes k) hgoes ih hevent hs
    · exact watched_of_others (hapart.moment hgoes k) hgoes ih
        (fun m hevent => hturn ⟨m, hevent⟩) hs

/-- A step is taken at some moment in between. -/
theorem mem_steps {n i k : Nat} {m : Move σ} :
    m ∈ g.steps c events n i k ↔ ∃ j, i ≤ j ∧ j < k ∧ m ∈ g.stepsAt c events n j := by
  simp only [steps, List.mem_flatMap, List.mem_range'_1]
  constructor
  · rintro ⟨j, ⟨hij, hjk⟩, hm⟩
    exact ⟨j, hij, by omega, hm⟩
  · rintro ⟨j, hij, hjk, hm⟩
    exact ⟨j, ⟨hij, by omega⟩, hm⟩

/-- What is listed as a step of a session is one, from what the session finds. -/
theorem of_mem_stepsAt {n k : Nat} {m : Move σ} (h : m ∈ g.stepsAt c events n k) :
    g.stepsAt c events n k = [m] ∧ (g.moment c events k).sessions[n]? = some m.session ∧
      m.before = (g.moment c events k).toWorld ∧
      m.session.step? (g.moment c events k).firmware m.before = some (m.after, m.next) := by
  unfold stepsAt at h ⊢
  split at h
  case h_2 => cases h
  case h_1 =>
    split at h
    case isFalse => cases h
    case isTrue hn =>
      have hmove := Option.mem_toList.mp h
      have htaken := hmove
      simp only [nextMove?, Option.bind_eq_bind, Option.bind_eq_some_iff] at hmove
      obtain ⟨s, hs, ⟨w, s'⟩, hstep, hmade⟩ := hmove
      obtain rfl := Option.some.inj hmade
      exact ⟨by rw [if_pos hn, htaken]; rfl, hs, rfl, hstep⟩

/-! ## Updates that have ended -/

/-- A storage with a small image. -/
def smallMemory : Memory :=
  ({} : Memory).addImage "image" [1, 2, 3]

/-- The answer of an ECU comes in and is put into the inbox, and the session works with it. -/
def answered (b : UInt8) (turns : Nat) : List (Happening Memory) :=
  [.deed (.inject ⟨0, (Identifier.firmware 0 Firmware.response).raw, [b]⟩),
    .deed (.move .receiver), .deed (.move .router)] ++
    List.replicate turns (.deed (.move (.session 0)))

/-- An ECU says that it sleeps. -/
def asleep : Message where
  id := .command 0 Opcode.reportStatus.code
  payload := [Status.sleeping.code]
  fits := by decide

/-- The update of an ECU that sleeps, with every answer that it needs. -/
def smallEvents : List (Happening Memory) :=
  [.deed (.accept asleep), .deed (.startUpdate 0 "image" false)] ++
    List.replicate 4 (.deed (.move (.session 0))) ++ answered Firmware.resetDone 4 ++
    answered Firmware.ready 5 ++ answered Firmware.chunkTaken 4 ++ answered Firmware.finished 4

end Gateway
end VehicleGateway
