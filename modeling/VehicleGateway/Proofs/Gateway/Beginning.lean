import VehicleGateway.Proofs.Gateway.Outcomes

/-!
# The start of an update

A start is refused for a reason that can be seen beforehand, and then nothing has happened; or the
ECU is claimed, and then an update that comes to nothing gives it back as it was.

* `World.refuses_iff` says when a start is refused.
* `Begins` says what a start makes of a gateway.
* `exists_course` follows a session through a run, whatever else there is in the gateway: it stays
  where it is, and what it has become is the work of its own steps.
* `startUpdate_all_or_nothing` puts these together, for every state of a gateway.
-/

namespace VehicleGateway

/-! ## Refusals -/

/-- A start is refused exactly if the ECU has no record, or is to take encrypted firmware without
there being keys or without being able to, or is claimed. -/
theorem World.refuses_iff {σ : Type} (c : FirmwareConfig) (w : World σ) (ecu : EcuNo)
    (image : String) (secure : Bool) :
    (∃ failure, w.startUpdate c ecu image secure = .error failure) ↔
      w.registry.get? ecu = none ∨
      (secure = true ∧
        (w.keys = none ∨ ∃ record, w.registry.get? ecu = some record ∧ record.secure = false)) ∨
      w.inboxes.active ecu = true := by
  unfold World.startUpdate Registry.get Inboxes.claim
  cases hrecord : w.registry.get? ecu with
  | none => exact iff_of_true ⟨_, rfl⟩ (.inl rfl)
  | some record =>
    simp only [bind, Except.bind, Option.some.injEq, exists_eq_left', reduceCtorEq, false_or]
    split
    case isTrue hkeyless =>
      exact iff_of_true ⟨_, rfl⟩ (.inl ⟨hkeyless.1, .inl (Option.isNone_iff_eq_none.mp hkeyless.2)⟩)
    case isFalse hkeys =>
      split
      case isTrue hunable =>
        exact iff_of_true ⟨_, rfl⟩ (.inl ⟨hunable.1, .inr (Bool.not_eq_true _ ▸ hunable.2)⟩)
      case isFalse hable =>
        have hfit : ¬ (secure = true ∧ (w.keys = none ∨ record.secure = false)) := by
          rintro ⟨hsecure, hnone | hnot⟩
          · exact hkeys ⟨hsecure, Option.isNone_iff_eq_none.mpr hnone⟩
          · exact hable ⟨hsecure, by simp [hnot]⟩
        by_cases hactive : w.inboxes.active ecu = true
        · simp only [hactive, if_true]
          exact iff_of_true ⟨_, rfl⟩ (.inr trivial)
        · refine iff_of_false ?_ (fun h => h.elim hfit hactive)
          simp [hactive, pure, Except.pure]

/-- A session stays what it was at its start, but for what it does and what it has heard. -/
theorem Session.Course.keeps {σ : Type} [Storage σ] {c : FirmwareConfig} {start s : Session}
    {steps : List (Move σ)} (h : Session.Course c start steps s) (hcoherent : start.Coherent) :
    s = { start with dialogue := s.dialogue, doing := s.doing } := by
  refine h.induction
    (motive := fun _ s => s = { start with dialogue := s.dialogue, doing := s.doing })
    hcoherent rfl ?_
  intro steps w s w' s' _ hkept hstep
  rw [Session.step?_keeps hstep, hkept]

namespace Gateway

variable {σ : Type}

/-! ## Starts -/

/-- What the start of an update makes of a gateway: the ECU is claimed and under update, there is
one more session, and all else is as it was. -/
structure Begins (g g' : Gateway σ) (ecu : EcuNo) (image : String) (secure : Bool) (s : Session) :
    Prop where
  asked : s.ecu = ecu ∧ s.image = image ∧ s.dialogue.terms.secure = secure
  idle : s.stage = .idle ∧ s.holds = true
  prior : g.registry.status? ecu = some s.prior
  free : g.inboxes.inUse.get? ecu = none
  claimed : g'.inboxes.inUse = g.inboxes.inUse.insert ecu s.inbox
  /-- The inbox is a new one, without messages. -/
  inbox : g.inboxes.boxes[s.inbox]? = none ∧
    g'.inboxes.boxes = g.inboxes.boxes ++ [{ depth := max g.firmware.sessionQueue 1 }]
  updating : g'.registry = g.registry.setStatus ecu .updating
  session : g'.sessions = g.sessions ++ [s]
  rest : g' = { g with
    registry := g'.registry, inboxes := g'.inboxes, sessions := g'.sessions }

theorem begins_of_startUpdate {g : Gateway σ} {ecu : EcuNo} {image : String} {secure : Bool}
    {w : World σ} {s : Session}
    (h : g.toWorld.startUpdate g.firmware ecu image secure = .ok (w, s)) :
    g.Begins { g with toWorld := w, sessions := g.sessions ++ [s] } ecu image secure s := by
  obtain ⟨record, hrecord, hfree, rfl, rfl⟩ := World.startUpdate_parts h
  have hterms (terms : DialogueTerms) :
      (Dialogue.start terms).terms = terms ∧ (Dialogue.start terms).stage = .idle := by
    unfold Dialogue.start
    dsimp only
    split <;> exact ⟨rfl, rfl⟩
  refine ⟨⟨rfl, rfl, ?_⟩, ⟨?_, rfl⟩, ?_, hfree, rfl, ⟨by simp, rfl⟩, rfl, rfl, rfl⟩
  · rw [(hterms _).1]
  · simp only [Session.stage, Session.result?]
    exact (hterms _).2
  · rw [Registry.status?, hrecord]
    rfl

/-! ## The session afterwards -/

variable [Storage σ] {c : Config} {g : Gateway σ} {events : List (Happening σ)} {n k : Nat}
  {s : Session}

/-- What becomes of a session between two moments: nothing, or it takes a step. -/
theorem session_next (hgoes : ∀ now bus keys, .deed (.restart now bus keys) ∉ events)
    (hs : (g.moment c events k).sessions[n]? = some s) :
    (g.stepsAt c events n k = [] ∧ (g.moment c events (k + 1)).sessions[n]? = some s) ∨
      ∃ m, g.stepsAt c events n k = [m] ∧ m.session = s ∧
        m.session.step? (g.moment c events k).firmware m.before = some (m.after, m.next) ∧
        m.before = (g.moment c events k).toWorld ∧ (g.moment c events (k + 1)).toWorld = m.after ∧
        (g.moment c events (k + 1)).sessions[n]? = some m.next := by
  have hn := (List.getElem?_eq_some_iff.mp hs).1
  by_cases hturn : ∃ j, events[k]? = some (.deed (.move (.session j)))
  · obtain ⟨j, hevent⟩ := hturn
    rcases turn_of_session (c := c) (g := g) hevent with
      ⟨hwaits, -, hsame⟩ | ⟨m, hmove, -, hfound, hstep, hleft⟩
    · exact .inl ⟨stepsAt_of_waits hevent hwaits n, by rw [hsame]; exact hs⟩
    · by_cases hj : j = n
      · subst hj
        have htaken : g.stepsAt c events j k = [m] := by simp [stepsAt, hevent, hmove]
        obtain rfl := Option.some.inj (hfound.symm.trans hs)
        obtain ⟨-, -, hbefore, -⟩ := of_mem_stepsAt (m := m) (by rw [htaken]; simp)
        refine .inr ⟨m, htaken, rfl, hstep, hbefore, by rw [hleft], ?_⟩
        rw [hleft]
        exact List.getElem?_set_self hn
      · refine .inl ⟨by simp [stepsAt, hevent, hj], ?_⟩
        rw [hleft]
        dsimp only
        rw [List.getElem?_set_ne hj]
        exact hs
  · refine .inl ⟨stepsAt_of_others (fun j hevent => hturn ⟨j, hevent⟩) n, ?_⟩
    rcases moment_cases (c := c) (g := g) hgoes k with ⟨event, hevent, hdealing⟩ | ⟨-, hsame⟩
    case inr =>
      rw [hsame]
      exact hs
    generalize g.moment c events (k + 1) = left at hdealing
    cases hdealing with
    | aside hsame | post _ hsame =>
      rw [hsame.sessions]
      exact hs
    | start =>
      dsimp only
      rw [List.getElem?_append_left hn]
      exact hs
    | @session j => exact absurd ⟨j, hevent⟩ hturn

/-- A session is at every later moment what its own steps have made of it. -/
theorem exists_course (hgoes : ∀ now bus keys, .deed (.restart now bus keys) ∉ events)
    (hs : g.sessions[n]? = some s) (k : Nat) :
    ∃ s', (g.moment c events k).sessions[n]? = some s' ∧
      Session.Course g.firmware s (g.steps c events n 0 k) s' := by
  induction k with
  | zero => exact ⟨s, hs, Session.course_start _ s⟩
  | succ k ih =>
    obtain ⟨s', hs', hcourse⟩ := ih
    rw [steps_succ (Nat.zero_le k)]
    rcases session_next hgoes hs' with ⟨hnone, hstays⟩ | ⟨m, htaken, rfl, hstep, -, -, hnext⟩
    · rw [hnone, List.append_nil]
      exact ⟨s', hstays, hcourse⟩
    · rw [firmware_moment hgoes] at hstep
      rw [htaken]
      exact ⟨m.next, hnext, hcourse.step hstep⟩

/-- A session lets go of its ECU between two moments, as its update has failed. -/
structure GivesUp (c : Config) (g : Gateway σ) (events : List (Happening σ)) (n k : Nat)
    (fault : UpdateFault) : Prop where
  before : ∃ s, (g.moment c events k).sessions[n]? = some s ∧ s.holds = true ∧
    s.dialogue.result? = some (.error fault)
  after : ∃ s, (g.moment c events (k + 1)).sessions[n]? = some s ∧ s.holds = false

/-- What a session writes when it gives up, if the ECU has a record. -/
theorem GivesUp.written {fault : UpdateFault} (h : GivesUp c g events n k fault)
    (hgoes : ∀ now bus keys, .deed (.restart now bus keys) ∉ events)
    (hs : (g.moment c events k).sessions[n]? = some s) {record : EcuRecord}
    (hrecord : (g.moment c events k).registry.get? s.ecu = some record) :
    (g.moment c events (k + 1)).registry.status? s.ecu =
      some (s.dialogue.progress.status s.prior (.error fault)) := by
  obtain ⟨⟨s₁, hs₁, hheld, hresult⟩, s', hs', hgone⟩ := h
  obtain rfl := Option.some.inj (hs₁.symm.trans hs)
  rcases session_next hgoes hs with ⟨-, hstays⟩ | ⟨m, -, rfl, hstep, hbefore, hafter, hnext⟩
  · obtain rfl := Option.some.inj (hs'.symm.trans hstays)
    rw [hheld] at hgone
    cases hgone
  · obtain rfl := Option.some.inj (hs'.symm.trans hnext)
    rcases Session.step?_inboxes hstep with ⟨result, -, hended, hrelease⟩ | ⟨-, hsame, -⟩
    · obtain rfl : result = .error fault := by
        simpa [Dialogue.result?, hended] using hresult
      have hwritten := congrArg Prod.fst hrelease
      dsimp only at hwritten
      rw [hafter, hwritten, hbefore]
      simp only [Session.release, Registry.status?, Registry.get?_modify, if_true, hrecord]
      rfl
    · rw [hsame, hheld] at hgone
      cases hgone

/-! ## All or nothing -/

/-- Whatever the state of a gateway, the start of an update is refused exactly if the ECU has no
record, or is to take encrypted firmware without there being keys or without being able to, or is
claimed.  After a refusal everything goes on as if nobody had asked.  Otherwise the update begins,
and should its session give the ECU up before it has sent a chunk, for a fault that is not the
gateway's own, then the ECU has the status that it had before. -/
theorem startUpdate_all_or_nothing (c : Config) (g : Gateway σ) (ecu : EcuNo) (image : String)
    (secure : Bool) :
    ((∃ failure, g.startUpdate ecu image secure = .error failure) ↔
      g.registry.get? ecu = none ∨
      (secure = true ∧
        (g.keys = none ∨ ∃ record, g.registry.get? ecu = some record ∧ record.secure = false)) ∨
      g.inboxes.active ecu = true) ∧
    (∀ failure, g.startUpdate ecu image secure = .error failure →
      g.act c (.startUpdate ecu image secure) = g ∧
      ∀ events k, g.moment c (.deed (.startUpdate ecu image secure) :: events) (k + 1) =
        g.moment c events k) ∧
    ∀ g', g.startUpdate ecu image secure = .ok g' →
      g.act c (.startUpdate ecu image secure) = g' ∧
      ∃ s, g.Begins g' ecu image secure s ∧
        ∀ events : List (Happening σ),
          (∀ now bus keys, .deed (.restart now bus keys) ∉ events) → ∀ k fault,
          GivesUp c g' events g.sessions.length k fault → fault.fatal = false →
          (∀ f ∈ (g'.steps c events g.sessions.length 0 k).flatMap Move.transmitted,
            f.isChunk ecu = false) →
          (g'.moment c events (k + 1)).registry.status? ecu = g.registry.status? ecu := by
  refine ⟨?_, ?_, ?_⟩
  · rw [← World.refuses_iff g.firmware g.toWorld ecu image secure]
    unfold Gateway.startUpdate
    cases g.toWorld.startUpdate g.firmware ecu image secure with
    | error failure => exact iff_of_true ⟨failure, rfl⟩ ⟨failure, rfl⟩
    | ok started => simp [Except.map]
  · intro failure hfailure
    have hkept : g.act c (.startUpdate ecu image secure) = g := by simp only [act, hfailure]
    refine ⟨hkept, fun events k => ?_⟩
    rw [moment, List.take_succ_cons, List.foldl_cons]
    show (events.take k).foldl (meet c) (g.act c (.startUpdate ecu image secure)) = _
    rw [hkept]
    rfl
  · intro g' hstarted
    refine ⟨by simp only [act, hstarted], ?_⟩
    obtain ⟨⟨w, s⟩, hstart, rfl⟩ := exists_of_map_ok hstarted
    have hbegins := begins_of_startUpdate hstart
    refine ⟨s, hbegins, ?_⟩
    intro events hgoes k fault hgives hfault hnone
    have hs : (g.sessions ++ [s])[g.sessions.length]? = some s := by simp
    obtain ⟨s', hs', hcourse⟩ := exists_course (c := c)
      (g := { g with toWorld := w, sessions := g.sessions ++ [s] }) hgoes hs k
    have hkeeps := hcourse.keeps (Session.onRecord_start hstart).coherent
    have hecu : s'.ecu = ecu := by rw [hkeeps]; exact hbegins.asked.1
    have hprior : s'.prior = s.prior := by rw [hkeeps]
    have hrecord := hcourse.onRecord hstart
    have hchunks : s'.dialogue.progress.chunks = 0 := by
      rw [hrecord.tallies.chunks, List.countP_eq_zero, hecu]
      simpa using hnone
    have hheader : s'.dialogue.progress.headerRejected = false := by
      obtain ⟨⟨s₁, hs₁, -, hresult⟩, -⟩ := hgives
      obtain rfl := Option.some.inj (hs₁.symm.trans hs')
      rw [← Bool.not_eq_true, hrecord.headerRejected hresult]
      rintro ⟨reason, hreason⟩
      -- That the image does not fit its header is a fault of the gateway's own.
      obtain rfl := Except.error.inj hreason
      cases hfault
    obtain ⟨record, hfound, -⟩ := Option.map_eq_some_iff.mp hbegins.prior
    have hfirst : (g.registry.setStatus ecu .updating).get? ecu =
        some { record with status := .updating } := by
      rw [Registry.setStatus, Registry.get?_modify, if_pos rfl, hfound]
      rfl
    rw [← hbegins.updating, ← hecu] at hfirst
    obtain ⟨now, hnow⟩ := exists_record (c := c) hgoes (i := 0) k hfirst
    have hwritten := hgives.written hgoes hs' hnow
    rw [Progress.status_of_intact _ _ hchunks hheader, hfault, hprior, hecu] at hwritten
    rw [hwritten, hbegins.prior]
    rfl

/-- An update is asked for a second time while its session waits, and then the ECU refuses it. -/
def turnedAway : List (Happening Memory) :=
  List.replicate 4 (.deed (.move (.session 0))) ++ [.deed (.startUpdate 0 "image" false)] ++
    answered Firmware.refusal 2

/-- Whether its session holds the ECU, if the ECU has refused the first frame. -/
def holdsRefused (g : Gateway Memory) : Option Bool :=
  g.sessions[0]?.bind fun s =>
    match s.dialogue.result? with
    | some (.error (.refused .resetSent)) => some s.holds
    | _ => none

theorem exists_of_holdsRefused {g : Gateway Memory} {held : Bool} (h : holdsRefused g = some held) :
    ∃ s, g.sessions[0]? = some s ∧ s.holds = held ∧
      s.dialogue.result? = some (.error (.refused .resetSent)) := by
  obtain ⟨s, hs, hheld⟩ := Option.bind_eq_some_iff.mp h
  split at hheld
  case h_1 hresult => exact ⟨s, hs, Option.some.inj hheld, hresult⟩
  case h_2 => cases hheld

/-- What is seen of that if the ECU was asleep: its status before the start, whether it is claimed
when the update is asked for again, the session before and after its last step, and whether a chunk
was sent. -/
def turnedAwayShown : Option (Option Status × Bool × Option Bool × Option Bool × Bool) :=
  match Gateway.start singleConfig 0 { interfaces := 4 } smallMemory none with
  | .error _ => none
  | .ok g =>
    match (g.accept asleep).1.startUpdate 0 "image" false with
    | .error _ => none
    | .ok g' => some ((g.accept asleep).1.registry.status? 0,
        (g'.moment singleConfig turnedAway 4).inboxes.active 0,
        holdsRefused (g'.moment singleConfig turnedAway 9),
        holdsRefused (g'.moment singleConfig turnedAway 10),
        ((g'.steps singleConfig turnedAway 0 0 9).flatMap Move.transmitted).any (·.isChunk 0))

/-- An ECU that was asleep refuses its update, and sleeps on.  Who has asked for a second update in
between was turned away. -/
theorem sleeping_ecu_given_back :
    ∃ g g', Gateway.start singleConfig 0 { interfaces := 4 } smallMemory none = .ok g ∧
      (g.accept asleep).1.registry.status? 0 = some .sleeping ∧
      (g.accept asleep).1.startUpdate 0 "image" false = .ok g' ∧
      (∃ failure, (g'.moment singleConfig turnedAway 4).startUpdate 0 "image" false =
        .error failure) ∧
      GivesUp singleConfig g' turnedAway 0 9 (.refused .resetSent) ∧
      (g'.moment singleConfig turnedAway 10).registry.status? 0 = some .sleeping := by
  have hshown : turnedAwayShown = some (some .sleeping, true, some true, some false, false) := by
    decide +kernel
  unfold turnedAwayShown at hshown
  split at hshown
  case h_1 => cases hshown
  case h_2 g hstart =>
    split at hshown
    case h_1 => cases hshown
    case h_2 g' hstarted =>
      simp only [Option.some.injEq, Prod.mk.injEq] at hshown
      obtain ⟨hasleep, hactive, hbefore, hafter, hnone⟩ := hshown
      obtain ⟨s, hs, hheld, hresult⟩ := exists_of_holdsRefused hbefore
      obtain ⟨s', hs', hgone, -⟩ := exists_of_holdsRefused hafter
      have hgives : GivesUp singleConfig g' turnedAway 0 9 (.refused .resetSent) :=
        ⟨⟨s, hs, hheld, hresult⟩, s', hs', hgone⟩
      refine ⟨g, g', hstart, hasleep, hstarted, ?_, hgives, ?_⟩
      · exact (startUpdate_all_or_nothing singleConfig _ 0 "image" false).1.mpr
          (.inr (.inr hactive))
      · have hnosession : (g.accept asleep).1.sessions = [] := (start_eq hstart).2
        obtain ⟨-, started, -, hreturns⟩ :=
          (startUpdate_all_or_nothing singleConfig (g.accept asleep).1 0 "image" false).2.2 g'
            hstarted
        rw [hnosession] at hreturns
        rw [hreturns turnedAway (by simp [turnedAway, answered]) 9 _ hgives rfl ?_, hasleep]
        intro f hf
        simpa using List.any_eq_false.mp hnone f hf

end Gateway
end VehicleGateway
