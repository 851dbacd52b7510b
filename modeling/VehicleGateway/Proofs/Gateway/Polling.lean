import VehicleGateway.Proofs.Gateway.Outcomes

/-!
# Who is asked for its status

A round asks an ECU only if the ECU is not under update when its turn comes.  But before every
request except the first one a round may pause, and after the pause it does not look again.

* `Poller` says whose round it is, and `RoundFate` what can become of it: it goes on by its own steps
  only, which `Round.Goes` lists.
* `Turns` is the step at which a round looks at an ECU, and `Pauses` what holds until the pause is
  over; `Housed.updating_since` says that only an update that is started can put an ECU under update.
* `asked_updating_iff` is the result: an ECU that is asked is under update exactly if its update was
  started during the pause before the request, and still goes on.
* `paused_request_sent` is a round that asks an ECU under update.
-/

namespace VehicleGateway

/-! ## Rounds -/

namespace Round

variable {σ : Type} {t : RoundTerms} {w w' : World σ} {r r' : Round} {ecu : EcuNo}

/-- A round that asks an ECU does so, whether it has paused or has just looked at the ECU. -/
theorem next_of_asks? (h : r.asks? t w = some ecu) : r.next t w = .goesOn w (r.ask t w ecu) := by
  unfold asks? at h
  split at h
  case h_1 found rest later hrest hflight hpausing =>
    obtain ⟨hover, hsame⟩ := Option.ite_none_right_eq_some.mp h
    obtain rfl := Option.some.inj hsame
    simp only [next, hrest, hflight, hpausing, hover, if_true]
  case h_2 found rest hrest hflight hpausing =>
    obtain ⟨⟨hwanted, hpause⟩, hsame⟩ := Option.ite_none_right_eq_some.mp h
    obtain rfl := Option.some.inj hsame
    simp only [next, hrest, hflight, hpausing, visit, hwanted, hpause]
    rfl
  case h_3 => cases h

/-- An ECU is asked when the pause before it is over, or without a pause when it is found not to be
under update. -/
theorem asks?_cases (h : r.asks? t w = some ecu) : r.Faces ecu ∧
    ((∃ later, r.pausing = some later ∧ later ≤ w.now) ∨
      r.pausing = none ∧ wanted w.registry ecu = true) := by
  unfold asks? at h
  split at h
  case h_1 found rest later hrest hflight hpausing =>
    obtain ⟨hover, hsame⟩ := Option.ite_none_right_eq_some.mp h
    obtain rfl := Option.some.inj hsame
    exact ⟨⟨by rw [hrest]; rfl, hflight⟩, .inl ⟨later, hpausing, hover⟩⟩
  case h_2 found rest hrest hflight hpausing =>
    obtain ⟨⟨hwanted, -⟩, hsame⟩ := Option.ite_none_right_eq_some.mp h
    obtain rfl := Option.some.inj hsame
    exact ⟨⟨by rw [hrest]; rfl, hflight⟩, .inr ⟨hpausing, hwanted⟩⟩
  case h_3 => cases h

theorem pausing_ask (t : RoundTerms) (w : World σ) (r : Round) (ecu : EcuNo) :
    (r.ask t w ecu).pausing = none := by
  unfold ask
  split <;> rfl

/-- What is under way after an ECU was asked is the request to it. -/
theorem request_of_flight_ask {flight : Flight} (h : (r.ask t w ecu).flight = some flight) :
    Supervisor.request w t.timeout ecu .reportStatus = .ok flight := by
  unfold ask at h
  split at h
  case h_1 launched hrequest =>
    obtain rfl := Option.some.inj h
    exact hrequest
  case h_2 => cases h

/-- An ECU that is wanted has a status, and is not under update. -/
theorem status_of_wanted {registry : Registry} (h : wanted registry ecu = true) :
    ∃ status, registry.status? ecu = some status ∧ status ≠ .updating := by
  unfold wanted at h
  split at h
  case h_1 | h_2 => cases h
  case h_3 status hupdating hstatus => exact ⟨status, hstatus, fun hsame => hupdating (by rw [hsame])⟩

end Round

/-! ## Pollers -/

/-- Who asks the ECUs for their status. -/
inductive Poller where
  | heartbeat
  /-- An errand for a caller who waits. -/
  | errand

/-- The part that takes the steps of a round. -/
def Poller.part : Poller → Part
  | .heartbeat => .heartbeat
  | .errand => .errand

/-- The round that an errand is busy with. -/
def Errand.round? : Errand → Option Round
  | .polling round => some round
  | _ => none

namespace Gateway

variable {σ : Type} {g g' : Gateway σ}

/-- The round that a poller is busy with. -/
def round? (g : Gateway σ) : Poller → Option Round
  | .heartbeat => g.heartbeat.bind (·.round)
  | .errand => g.errand.bind Errand.round?

/-- The ECU whose request is handed to the bus at the next step of a poller. -/
def asked? (g : Gateway σ) (p : Poller) : Option EcuNo :=
  (g.round? p).bind (Round.asks? g.roundTerms g.toWorld)

/-- What can become of the round of a poller. -/
inductive RoundFate (g : Gateway σ) (p : Poller) (event : Happening σ) (g' : Gateway σ) : Prop where
  | same (hround : g'.round? p = g.round? p)
  | ended (hround : g'.round? p = none)
  | begins (hround : g'.round? p = some (Round.ofRegistry g.registry))
  | step {r r' : Round} {w : World σ} (hevent : event = .deed (.move p.part))
      (hfound : g.round? p = some r) (hnext : r.next g.roundTerms g.toWorld = .goesOn w r')
      (hround : g'.round? p = some r')

/-- A change that touches no round. -/
structure Aside (g g' : Gateway σ) : Prop where
  terms : g'.roundTerms = g.roundTerms
  heartbeat : g'.heartbeat = g.heartbeat
  errand : g'.errand = g.errand

/-- What something that happens does to the rounds. -/
structure RoundFates (g : Gateway σ) (event : Happening σ) (g' : Gateway σ) : Prop where
  terms : g'.roundTerms = g.roundTerms
  rounds : ∀ p, RoundFate g p event g'

theorem fates_of_rounds {event : Happening σ} (hterms : g'.roundTerms = g.roundTerms)
    (hheartbeat : RoundFate g .heartbeat event g') (herrand : RoundFate g .errand event g') :
    RoundFates g event g' := by
  refine ⟨hterms, fun p => ?_⟩
  cases p with
  | heartbeat => exact hheartbeat
  | errand => exact herrand

theorem fates_of_same {event : Happening σ} (hterms : g'.roundTerms = g.roundTerms)
    (hheartbeat : g'.heartbeat = g.heartbeat) (herrand : g'.errand = g.errand) :
    RoundFates g event g' := by
  refine fates_of_rounds hterms (.same ?_) (.same ?_)
  · simp only [round?, hheartbeat]
  · simp only [round?, herrand]

theorem Aside.fates (h : g.Aside g') (event : Happening σ) : RoundFates g event g' :=
  fates_of_same h.terms h.heartbeat h.errand

theorem aside_submit (g : Gateway σ) (m : Message) : g.Aside (g.submit m).1 := by
  unfold submit
  split <;> exact ⟨rfl, rfl, rfl⟩

theorem aside_takeUp (g : Gateway σ) (m : Message) : g.Aside (g.takeUp m).1 := by
  unfold takeUp
  split <;> exact ⟨rfl, rfl, rfl⟩

theorem aside_receiver (h : g.receiverStep? = some g') : g.Aside g' := by
  cases receiverStep?_cases h with
  | notice | malformed => exact ⟨rfl, rfl, rfl⟩
  | @submit arrivals rest f m =>
    obtain ⟨hterms, hheartbeat, herrand⟩ := aside_submit { g with arrivals := some rest } m
    exact ⟨hterms, hheartbeat, herrand⟩

theorem aside_router (h : g.routerStep? = some g') : g.Aside g' := by
  cases routerStep?_cases h with
  | stop | goOn | finish => exact ⟨rfl, rfl, rfl⟩
  | @settle m queue _ d hidle htake hup | @setOut m queue _ f hidle htake hup =>
    obtain ⟨hterms, hheartbeat, herrand⟩ := aside_takeUp { g with queue } m
    rw [hup] at hterms hheartbeat herrand
    exact ⟨hterms, hheartbeat, herrand⟩

/-- The heartbeat takes a step of its round, or ends it, or begins one. -/
theorem fates_heartbeat (h : g.heartbeatStep? = some g') :
    RoundFates g (.deed (.move .heartbeat)) g' := by
  cases heartbeatStep?_cases h with
  | @goOn beat round round' w hbeat hround hnext =>
    have hfound : g.round? .heartbeat = some round := by
      rw [round?, hbeat, Option.bind_some, hround]
    exact fates_of_rounds rfl (.step rfl hfound hnext rfl) (.same rfl)
  | finish => exact fates_of_rounds rfl (.ended rfl) (.same rfl)
  | begin => exact fates_of_rounds rfl (.begins rfl) (.same rfl)

/-- An errand takes a step of its round, or ends it; other errands have none. -/
theorem fates_errand (h : g.errandStep? = some g') : RoundFates g (.deed (.move .errand)) g' := by
  cases errandStep?_cases h with
  | land | polled | goOn | finish => exact fates_of_rounds rfl (.same rfl) (.ended rfl)
  | @poll round round' w herrand hnext =>
    have hfound : g.round? .errand = some round := by
      rw [round?, herrand, Option.bind_some, Errand.round?]
    exact fates_of_rounds rfl (.same rfl) (.step rfl hfound hnext rfl)
  | @settle m g' d herrand hup | @setOut m g' f herrand hup =>
    obtain ⟨hterms, hheartbeat, -⟩ := aside_takeUp g m
    rw [hup] at hterms hheartbeat
    refine fates_of_rounds hterms (.same ?_) (.ended rfl)
    exact congrArg (Option.bind · Heartbeat.round) hheartbeat

variable [Storage σ]

/-- The heartbeat, and the errand of a caller, take the steps of their round in the world that they
find, and wait where it waits. -/
theorem step?_of_round? {p : Poller} {r : Round} (hr : g.round? p = some r) :
    (r.next g.roundTerms g.toWorld = .waits → g.step? p.part = none) ∧
    (∀ w r', r.next g.roundTerms g.toWorld = .goesOn w r' →
      ∃ g', g.step? p.part = some g' ∧ g'.toWorld = w ∧ g'.round? p = some r') ∧
    ∀ n, r.next g.roundTerms g.toWorld = .ends n →
      ∃ g', g.step? p.part = some g' ∧ g'.toWorld = g.toWorld ∧ g'.round? p = none ∧
        (p = .errand → g'.errand = some (.ended (.polled n))) := by
  cases p with
  | heartbeat =>
    obtain ⟨beat, hbeat, hround⟩ := Option.bind_eq_some_iff.mp hr
    simp only [step?, Poller.part, heartbeatStep?, hbeat, Heartbeat.step?, hround,
      Option.bind_eq_bind, Option.bind_some]
    refine ⟨?_, ?_, ?_⟩
    · intro hnext
      rw [hnext]
      rfl
    · intro w r' hnext
      rw [hnext]
      exact ⟨_, rfl, rfl, rfl⟩
    · intro n hnext
      rw [hnext]
      refine ⟨_, rfl, rfl, rfl, ?_⟩
      intro hother
      cases hother
  | errand =>
    obtain ⟨errand, herrand, hround⟩ := Option.bind_eq_some_iff.mp hr
    obtain rfl : errand = .polling r := by
      cases errand with
      | polling round => rw [Option.some.inj hround]
      | _ => cases hround
    simp only [step?, Poller.part, errandStep?, herrand]
    refine ⟨?_, ?_, ?_⟩
    · intro hnext
      rw [hnext]
    · intro w r' hnext
      rw [hnext]
      exact ⟨_, rfl, rfl, rfl⟩
    · intro n hnext
      rw [hnext]
      exact ⟨_, rfl, rfl, rfl, fun _ => rfl⟩

/-- At its turn a poller asks the ECU that is to be asked. -/
theorem step?_of_asks? {p : Poller} {r : Round} {ecu : EcuNo} (hr : g.round? p = some r)
    (hasks : r.asks? g.roundTerms g.toWorld = some ecu) :
    ∃ g', g.step? p.part = some g' ∧
      g'.round? p = some (r.ask g.roundTerms g.toWorld ecu) := by
  obtain ⟨g', hstep, -, hround⟩ := (step?_of_round? hr).2.1 _ _ (Round.next_of_asks? hasks)
  exact ⟨g', hstep, hround⟩

theorem fates_step {p : Part} (h : g.step? p = some g') : RoundFates g (.deed (.move p)) g' := by
  cases p with
  | receiver => exact (aside_receiver h).fates _
  | router => exact (aside_router h).fates _
  | supervisor =>
    cases supervisorStep?_cases h with
    | apply => exact fates_of_same rfl rfl rfl
    | stop => exact fates_of_rounds rfl (.ended rfl) (.same rfl)
  | heartbeat => exact fates_heartbeat h
  | errand => exact fates_errand h
  | session n =>
    cases sessionStep?_cases h
    exact fates_of_same rfl rfl rfl
  | keyCall n =>
    cases keyCallStep?_cases h
    exact fates_of_same rfl rfl rfl

variable {c : Config} {events : List (Happening σ)} {p : Poller} {i j k : Nat} {ecu : EcuNo}

/-- Whatever happens, a round goes on by its own steps only. -/
theorem fates_meet (c : Config) (g : Gateway σ) (event : Happening σ)
    (hgoes : ∀ now bus keys, event ≠ .deed (.restart now bus keys)) :
    RoundFates g event (g.meet c event) := by
  cases event with
  | keys keys => exact fates_of_same rfl rfl rfl
  | deed deed =>
    simp only [meet]
    have hacts := acts_act c g deed
    generalize g.act c deed = g' at hacts ⊢
    cases hacts with
    | move hstep => exact fates_step hstep
    | submit m => exact (aside_submit g m).fates _
    | request ecu o =>
      refine fates_of_rounds rfl (.same rfl) (.ended ?_)
      simp only [request, round?, Option.bind_some]
      split <;> rfl
    | poll => exact fates_of_rounds rfl (.same rfl) (.begins rfl)
    | route m => exact fates_of_rounds rfl (.same rfl) (.ended rfl)
    | shutdown => exact fates_of_rounds rfl (.ended rfl) (.same rfl)
    | restart | misconfigured => exact absurd rfl (hgoes _ _ _)
    | waits | inject | start | refused | accept | callKeys | keyless | clock | others =>
      exact fates_of_same rfl rfl rfl

/-! ## A run -/

section Run

variable (hgoes : ∀ now bus keys, .deed (.restart now bus keys) ∉ events)

include hgoes

theorem fates_moment (k : Nat) :
    (∃ event, events[k]? = some event ∧
      RoundFates (g.moment c events k) event (g.moment c events (k + 1))) ∨
      events[k]? = none ∧ g.moment c events (k + 1) = g.moment c events k := by
  cases hevent : events[k]? with
  | none => exact .inr ⟨rfl, moment_of_none hevent⟩
  | some event =>
    refine .inl ⟨event, rfl, ?_⟩
    rw [moment_succ hevent]
    exact fates_meet c _ event (ne_restart_of_mem hgoes (List.mem_of_getElem? hevent))

/-- The times that rounds keep never change. -/
theorem roundTerms_moment (k : Nat) : (g.moment c events k).roundTerms = g.roundTerms := by
  refine moment_induction (P := fun g' => g'.roundTerms = g.roundTerms) rfl ?_ k
  intro g' event hmem hsame
  exact (fates_meet c g' event (ne_restart_of_mem hgoes hmem)).terms.trans hsame

end Run

/-- At a moment a poller has its turn and hands a request to an ECU to the bus. -/
structure Asks (c : Config) (g : Gateway σ) (events : List (Happening σ)) (p : Poller) (k : Nat)
    (ecu : EcuNo) : Prop where
  turn : events[k]? = some (.deed (.move p.part))
  asked : (g.moment c events k).asked? p = some ecu

/-- At a moment a poller has its turn and finds that the next ECU is not under update. -/
structure Turns (c : Config) (g : Gateway σ) (events : List (Happening σ)) (p : Poller) (j : Nat)
    (ecu : EcuNo) : Prop where
  turn : events[j]? = some (.deed (.move p.part))
  faces : ∃ r, (g.moment c events j).round? p = some r ∧ r.Faces ecu
  status : ∃ status, (g.moment c events j).registry.status? ecu = some status ∧ status ≠ .updating

/-- A poller has turned to an ECU at one moment, and pauses at least until another. -/
structure Pauses (c : Config) (g : Gateway σ) (events : List (Happening σ)) (p : Poller) (j k : Nat)
    (ecu : EcuNo) : Prop where
  earlier : j < k
  turns : Turns c g events p j ecu
  /-- There is a pause, and it is not the first request of the round. -/
  pause : 0 < g.roundTerms.pause ∧ ∃ r, (g.moment c events j).round? p = some r ∧ 0 < r.polled
  since : ∀ i, j < i → i ≤ k → ∃ r, (g.moment c events i).round? p = some r ∧ r.Faces ecu ∧
    r.pausing = some ((g.moment c events j).now + g.roundTerms.pause)

theorem Pauses.succ (h : Pauses c g events p j k ecu)
    (hround : (g.moment c events (k + 1)).round? p = (g.moment c events k).round? p) :
    Pauses c g events p j (k + 1) ecu := by
  refine ⟨Nat.lt_succ_of_lt h.earlier, h.turns, h.pause, ?_⟩
  intro i hji hik
  rcases Nat.lt_or_eq_of_le hik with hlt | rfl
  · exact h.since i hji (Nat.le_of_lt_succ hlt)
  · rw [hround]
    exact h.since k h.earlier (Nat.le_refl k)

/-- What a round that pauses, or has a request under way, has behind it. -/
structure RoundPast (c : Config) (g : Gateway σ) (events : List (Happening σ)) (p : Poller) (k : Nat)
    (r : Round) : Prop where
  paused : ∀ later, r.pausing = some later → ∃ j ecu, Pauses c g events p j k ecu
  flown : ∀ flight, r.flight = some flight → ∃ a ecu, a < k ∧ Asks c g events p a ecu ∧
    Supervisor.request (g.moment c events a).toWorld g.roundTerms.timeout ecu .reportStatus =
      .ok flight

theorem roundPast_of_none {r : Round} (hpausing : r.pausing = none) (hflight : r.flight = none) :
    RoundPast c g events p k r := by
  constructor
  · intro later hlater
    rw [hpausing] at hlater
    cases hlater
  · intro flight hflown
    rw [hflight] at hflown
    cases hflown

/-- A poller that asks an ECU has turned to it just now, or before a pause that is over. -/
theorem Asks.exists_turns (h : Asks c g events p k ecu) {r : Round}
    (hr : (g.moment c events k).round? p = some r) (hpast : RoundPast c g events p k r) :
    ∃ j, j ≤ k ∧ Turns c g events p j ecu ∧ (j = k ∨ Pauses c g events p j k ecu ∧
      (g.moment c events j).now + g.roundTerms.pause ≤ (g.moment c events k).now) := by
  obtain ⟨found, hfound, hasks⟩ := Option.bind_eq_some_iff.mp h.asked
  obtain rfl := Option.some.inj (hfound.symm.trans hr)
  obtain ⟨hfaces, ⟨later, hpausing, hover⟩ | ⟨-, hwanted⟩⟩ := Round.asks?_cases hasks
  · obtain ⟨j, turned, hpauses⟩ := hpast.paused later hpausing
    -- The round that pauses is still the one that has turned to the ECU.
    obtain ⟨r', hr', hfaces', hpausing'⟩ := hpauses.since k hpauses.earlier (Nat.le_refl k)
    obtain rfl := Option.some.inj (hr.symm.trans hr')
    obtain rfl := Option.some.inj (hfaces.head.symm.trans hfaces'.head)
    obtain rfl := Option.some.inj (hpausing.symm.trans hpausing')
    exact ⟨j, Nat.le_of_lt hpauses.earlier, hpauses.turns, .inr ⟨hpauses, hover⟩⟩
  · exact ⟨k, Nat.le_refl k, ⟨h.turn, ⟨found, hr, hfaces⟩, Round.status_of_wanted hwanted⟩,
      .inl rfl⟩

section Run

variable (hgoes : ∀ now bus keys, .deed (.restart now bus keys) ∉ events)

include hgoes

/-- After its turn a poller that asks has asked. -/
theorem Asks.round?_succ (h : Asks c g events p k ecu) {r : Round}
    (hr : (g.moment c events k).round? p = some r)
    (hasks : r.asks? (g.moment c events k).roundTerms (g.moment c events k).toWorld = some ecu) :
    (g.moment c events (k + 1)).round? p =
      some (r.ask g.roundTerms (g.moment c events k).toWorld ecu) := by
  obtain ⟨g', hstep, hround⟩ := step?_of_asks? hr hasks
  rw [moment_succ h.turn]
  simp only [meet, act, hstep, Option.getD_some]
  rw [hround, roundTerms_moment hgoes]

/-- A step of the round itself. -/
theorem roundPast_step {r r' : Round} {w : World σ}
    (hturn : events[k]? = some (.deed (.move p.part)))
    (hfound : (g.moment c events k).round? p = some r)
    (hnext : r.next (g.moment c events k).roundTerms (g.moment c events k).toWorld = .goesOn w r')
    (hround : (g.moment c events (k + 1)).round? p = some r') :
    RoundPast c g events p (k + 1) r' := by
  have hterms := roundTerms_moment (c := c) (g := g) hgoes k
  cases Round.next_cases hnext with
  | lands => exact roundPast_of_none rfl rfl
  | skips hfaces hpausing => exact roundPast_of_none hpausing hfaces.flight
  | @asks ecu hasks =>
    refine ⟨?_, ?_⟩
    · intro later hlater
      rw [Round.pausing_ask] at hlater
      cases hlater
    · intro flight hflight
      have hrequest := Round.request_of_flight_ask hflight
      rw [hterms] at hrequest
      exact ⟨k, ecu, Nat.lt_succ_self k, ⟨hturn, by simp [asked?, hfound, hasks]⟩, hrequest⟩
  | @pauses ecu hfaces hpausing hwanted hpolled hpause =>
    rw [hterms] at hpause hround ⊢
    refine ⟨?_, ?_⟩
    · intro later hlater
      refine ⟨k, ecu, Nat.lt_succ_self k,
        ⟨hturn, ⟨r, hfound, hfaces⟩, Round.status_of_wanted hwanted⟩,
        ⟨hpause, r, hfound, hpolled⟩, ?_⟩
      intro i hki hik
      obtain rfl : i = k + 1 := by omega
      exact ⟨_, hround, ⟨hfaces.head, hfaces.flight⟩, rfl⟩
    · intro flight hflown
      exact absurd (hfaces.flight.symm.trans hflown) (by simp)

theorem roundPast_moment (hnone : g.round? p = none) (k : Nat) (r : Round)
    (hr : (g.moment c events k).round? p = some r) : RoundPast c g events p k r := by
  induction k generalizing r with
  | zero =>
    rw [moment_zero, hnone] at hr
    cases hr
  | succ k ih =>
    have hstays (hround : (g.moment c events (k + 1)).round? p = (g.moment c events k).round? p) :
        RoundPast c g events p (k + 1) r := by
      obtain ⟨hpaused, hflown⟩ := ih r (hround.symm.trans hr)
      refine ⟨?_, ?_⟩
      · intro later hlater
        obtain ⟨j, ecu, hpauses⟩ := hpaused later hlater
        exact ⟨j, ecu, hpauses.succ hround⟩
      · intro flight hflight
        obtain ⟨a, ecu, ha, hasks⟩ := hflown flight hflight
        exact ⟨a, ecu, Nat.lt_succ_of_lt ha, hasks⟩
    rcases fates_moment (c := c) (g := g) hgoes k with ⟨event, hevent, hfates⟩ | ⟨-, hsame⟩
    case inr => exact hstays (by rw [hsame])
    cases hfates.rounds p with
    | same hround => exact hstays hround
    | ended hround =>
      rw [hround] at hr
      cases hr
    | begins hround =>
      obtain rfl := Option.some.inj (hround.symm.trans hr)
      exact roundPast_of_none rfl rfl
    | step hturn hfound hnext hround =>
      obtain rfl := Option.some.inj (hround.symm.trans hr)
      exact roundPast_step hgoes (by rw [hevent, hturn]) hfound hnext hround

end Run

/-! ## Updates -/

/-- Only the start of an update puts an ECU under update. -/
theorem Housed.starts_updating (h : g.Housed) {event : Happening σ} (hdealing : Dealing g event g')
    (hbefore : g.registry.status? ecu ≠ some .updating)
    (hafter : g'.registry.status? ecu = some .updating) :
    ∃ image secure w s, event = .deed (.startUpdate ecu image secure) ∧
      g.toWorld.startUpdate g.firmware ecu image secure = .ok (w, s) ∧
      g'.sessions = g.sessions ++ [s] := by
  cases hdealing with
  | aside hsame | post _ hsame => exact absurd ((hsame.updating ecu).mp hafter) hbefore
  | @start other image secure w s hstart =>
    obtain ⟨record, -, -, hw, -⟩ := World.startUpdate_parts hstart
    by_cases hsame : other = ecu
    · subst hsame
      exact ⟨image, secure, w, s, rfl, hstart, rfl⟩
    · exfalso
      apply hbefore
      rw [hw] at hafter
      unfold Registry.status? Registry.setStatus at hafter
      rwa [Registry.get?_modify, if_neg hsame] at hafter
  | @session n s s' w hs hstep =>
    exfalso
    apply hbefore
    rcases Session.step?_inboxes hstep with ⟨result, hready, -, hrelease⟩ | ⟨hregistry, -⟩
    · obtain ⟨rfl, rfl⟩ := Prod.mk.inj hrelease
      by_cases hsame : s.ecu = ecu
      · -- The ECU was held until now.
        subst hsame
        have hheld : s.holds = true := by simp [Session.holds, hready]
        exact h.updating _ _ ((h.tenant s.ecu s.inbox).mpr ⟨n, s, hs, hheld, rfl, rfl⟩)
      · change (g.registry.modify s.ecu _).status? ecu = some .updating at hafter
        unfold Registry.status? at hafter
        rwa [Registry.get?_modify, if_neg hsame] at hafter
    · rw [← hregistry]
      exact hafter

omit [Storage σ] in
/-- With the status that a session writes when it leaves, its ECU is not under update. -/
theorem Leaves.status_ne {n : Nat} {s : Session} (h : g.Leaves g' n s)
    (hprior : s.prior ≠ .updating) : g'.registry.status? s.ecu ≠ some .updating := by
  intro hupdating
  obtain ⟨result, -, hwritten⟩ := h.written
  obtain ⟨record, hrecord, hstatus⟩ := Option.map_eq_some_iff.mp hupdating
  rw [hwritten] at hrecord
  obtain ⟨found, -, rfl⟩ := Option.map_eq_some_iff.mp hrecord
  exact status_ne_updating hprior result hstatus

section Run

variable (hhoused : g.Housed) (hapart : g.Apart) (hnone : g.sessions = [])
  (hgoes : ∀ now bus keys, .deed (.restart now bus keys) ∉ events)

include hhoused hapart hnone hgoes

/-- An ECU that was not under update at one moment, and is at another, is held by a session that was
started in between. -/
theorem updating_since (hjk : j ≤ k)
    (hbefore : (g.moment c events j).registry.status? ecu ≠ some .updating)
    (hafter : (g.moment c events k).registry.status? ecu = some .updating) :
    ∃ i n s, j ≤ i ∧ i < k ∧ HasBegun c g events n i s ∧ s.ecu = ecu ∧ s.prior ≠ .updating ∧
      (g.moment c events k).sessions[n]? = some s ∧ s.holds = true := by
  induction hjk with
  | refl => exact absurd hafter hbefore
  | @step k hjk ih =>
    have hthen : (g.moment c events k).Housed := hhoused.moment hgoes k
    rcases moment_cases (c := c) (g := g) hgoes k with ⟨event, hevent, hdealing⟩ | ⟨-, hsame⟩
    case inr =>
      rw [hsame] at hafter ⊢
      obtain ⟨i, n, s, hji, hik, hsession⟩ := ih hafter
      exact ⟨i, n, s, hji, Nat.lt_succ_of_lt hik, hsession⟩
    by_cases hupdating : (g.moment c events k).registry.status? ecu = some .updating
    · obtain ⟨i, n, s, hji, hik, hbegun, hecu, hprior, hs, hheld⟩ := ih hupdating
      rcases hthen.stays_or_leaves hdealing hs hheld with
        ⟨s', hs', hecu', hheld', -⟩ | ⟨-, hleaves⟩
      · obtain ⟨b, hwatched⟩ := exists_watched hhoused hapart hnone hgoes (k + 1) n s' hs'
        obtain ⟨rfl, -, -⟩ := hbegun.unique hwatched.begun hgoes
        have hsame : s'.prior = s.prior := by
          have hstatus := hwatched.begun.prior
          rw [hecu', hbegun.prior] at hstatus
          exact (Option.some.inj hstatus).symm
        exact ⟨b, n, s', hji, Nat.lt_succ_of_lt hik, hwatched.begun, hecu'.trans hecu,
          by rw [hsame]; exact hprior, hs', hheld'⟩
      · rw [← hecu] at hafter
        exact absurd hafter (hleaves.status_ne hprior)
    · obtain ⟨image, secure, w, s, rfl, hstart, hsessions⟩ :=
        hthen.starts_updating hdealing hupdating hafter
      rw [firmware_moment hgoes] at hstart
      have hwatched := watched_start hevent hstart hsessions
      obtain ⟨record, hrecord, -, -, hs⟩ := World.startUpdate_parts hstart
      refine ⟨k, _, s, hjk, Nat.lt_succ_self k, hwatched.begun, by rw [hs], ?_, ?_, by rw [hs]; rfl⟩
      · intro hprior
        apply hupdating
        have hstatus := hwatched.begun.prior
        rw [hprior, hs] at hstatus
        exact hstatus
      · rw [hsessions]
        simp

end Run

theorem round?_start {now : Nat} {bus : Bus} {storage : σ} {keys : Option Vault}
    (h : Gateway.start c now bus storage keys = .ok g) (p : Poller) : g.round? p = none := by
  unfold Gateway.start at h
  split at h
  case h_1 | h_2 => cases h
  case h_3 =>
    obtain rfl := Except.ok.inj h
    cases p <;> rfl

/-- Every request of a round that is under way was handed to the bus when the round asked an ECU.
The round had turned to that ECU, when the ECU was not under update, just then or before a pause.
And the ECU is under update when it is asked exactly if its update was started during the pause, and
its session still holds it. -/
theorem asked_updating_iff {now : Nat} {bus : Bus} {storage : σ} {keys : Option Vault}
    (hstart : Gateway.start c now bus storage keys = .ok g)
    (hgoes : ∀ now bus keys, .deed (.restart now bus keys) ∉ events) (p : Poller) :
    (∀ k r flight, (g.moment c events k).round? p = some r → r.flight = some flight →
      ∃ a ecu, a < k ∧ Asks c g events p a ecu ∧
        Supervisor.request (g.moment c events a).toWorld g.roundTerms.timeout ecu .reportStatus =
          .ok flight) ∧
      ∀ k ecu, Asks c g events p k ecu →
        (∃ r, (g.moment c events k).round? p = some r ∧ (g.moment c events (k + 1)).round? p =
          some (r.ask g.roundTerms (g.moment c events k).toWorld ecu)) ∧
        ∃ j, Turns c g events p j ecu ∧
          (j = k ∨ Pauses c g events p j k ecu ∧
            (g.moment c events j).now + g.roundTerms.pause ≤ (g.moment c events k).now) ∧
          ((g.moment c events k).registry.status? ecu = some .updating ↔
            ∃ i n s, j < i ∧ i < k ∧ HasBegun c g events n i s ∧ s.ecu = ecu ∧
              (g.moment c events k).sessions[n]? = some s ∧ s.holds = true) := by
  have hidle := round?_start hstart p
  have hhoused := housed_start hstart
  have hpast (k : Nat) (r : Round) (hr : (g.moment c events k).round? p = some r) :
      RoundPast c g events p k r := roundPast_moment hgoes hidle k r hr
  refine ⟨fun k r flight hr => (hpast k r hr).flown flight, ?_⟩
  intro k ecu hasks
  obtain ⟨r, hr, hnext⟩ := Option.bind_eq_some_iff.mp hasks.asked
  obtain ⟨j, hjk, hturns, hpause⟩ := hasks.exists_turns hr (hpast k r hr)
  refine ⟨⟨r, hr, hasks.round?_succ hgoes hr hnext⟩, j, hturns, hpause, ?_, ?_⟩
  · intro hupdating
    obtain ⟨status, hstatus, hother⟩ := hturns.status
    have hbefore : (g.moment c events j).registry.status? ecu ≠ some .updating := by
      rw [hstatus]
      simpa using hother
    obtain ⟨i, n, s, hji, hik, hbegun, hecu, -, hs, hheld⟩ :=
      updating_since hhoused (apart_start hstart) (start_eq hstart).2 hgoes hjk hbefore hupdating
    refine ⟨i, n, s, Nat.lt_of_le_of_ne hji ?_, hik, hbegun, hecu, hs, hheld⟩
    -- At the moment `j` the poller had its turn.
    rintro rfl
    obtain ⟨secure, hdeed⟩ := hbegun.deed
    rw [hturns.turn] at hdeed
    cases hdeed
  · rintro ⟨i, n, s, -, -, -, rfl, hs, hheld⟩
    have hthen : (g.moment c events k).Housed := hhoused.moment hgoes k
    exact hthen.updating _ _ ((hthen.tenant s.ecu s.inbox).mpr ⟨n, s, hs, hheld, rfl, rfl⟩)

/-! ## A pause in which nothing happens, and one in which an update is started -/

/-- A configuration with two ECUs, and with a pause between two requests. -/
def twinConfig : Config where
  ecus := [{ protocol := .can, interface := 0 }, { protocol := .can, interface := 0 }]
  supervisor := { pause := 20 }

/-- The heartbeat begins a round, asks the first ECU and turns to the second one. -/
def turnEvents : List (Happening Memory) :=
  List.replicate 4 (.deed (.move .heartbeat))

/-- After the pause it asks the second ECU. -/
def pausedEvents : List (Happening Memory) :=
  turnEvents ++ [.deed (.clock 20), .deed (.move .heartbeat)]

/-- During the pause an update of the second ECU is started. -/
def overtakenEvents : List (Happening Memory) :=
  turnEvents ++ [.deed (.startUpdate 1 "image" false), .deed (.clock 20), .deed (.move .heartbeat),
    .deed (.move .heartbeat)]

/-- What is shown of a run of a gateway with two ECUs. -/
def twinShown {α : Type} (show? : Gateway Memory → α) : Option α :=
  match Gateway.start twinConfig 0 { interfaces := 4 } ({} : Memory) none with
  | .ok g => some (show? g)
  | .error _ => none

/-- What is shown is shown of a gateway that was started. -/
theorem exists_of_twinShown {α : Type} {show? : Gateway Memory → α} {a : α}
    (h : twinShown show? = some a) :
    ∃ g, Gateway.start twinConfig 0 { interfaces := 4 } ({} : Memory) none = .ok g ∧
      show? g = a := by
  unfold twinShown at h
  split at h
  case h_1 g hstart => exact ⟨g, hstart, Option.some.inj h⟩
  case h_2 => cases h

/-- If no update is started, the ECU that is asked after the pause is not under update. -/
theorem paused_request_awaited :
    ∃ g, Gateway.start twinConfig 0 { interfaces := 4 } ({} : Memory) none = .ok g ∧
      (∀ now bus keys, .deed (.restart now bus keys) ∉ pausedEvents) ∧
      Asks twinConfig g pausedEvents .heartbeat 5 1 ∧
      (g.moment twinConfig pausedEvents 5).registry.status? 1 ≠ some .updating ∧
      ∃ j, Turns twinConfig g pausedEvents .heartbeat j 1 := by
  have hshown : twinShown (fun g => (g.moment twinConfig pausedEvents 5).asked? .heartbeat) =
      some (some 1) := by decide +kernel
  obtain ⟨g, hstart, hasked⟩ := exists_of_twinShown hshown
  have hgoes : ∀ now bus keys, .deed (.restart now bus keys) ∉ pausedEvents := by
    simp [pausedEvents, turnEvents]
  have hasks : Asks twinConfig g pausedEvents .heartbeat 5 1 := ⟨rfl, hasked⟩
  obtain ⟨-, j, hturns, -, hupdating⟩ := (asked_updating_iff hstart hgoes .heartbeat).2 5 1 hasks
  refine ⟨g, hstart, hgoes, hasks, ?_, j, hturns⟩
  rw [Ne, hupdating]
  rintro ⟨i, n, s, -, -, hbegun, -⟩
  obtain ⟨secure, hdeed⟩ := hbegun.deed
  have hmem := List.mem_of_getElem? hdeed
  simp [pausedEvents, turnEvents] at hmem

/-- The frame of the request to the second ECU. -/
def twinRequest : Frame :=
  ⟨0, (Identifier.command 1 Opcode.reportStatus.code).raw, []⟩

/-- An update of the second ECU is started during the pause.  The ECU is under update when it is
asked after the pause all the same, and the request is sent. -/
theorem paused_request_sent :
    ∃ g, Gateway.start twinConfig 0 { interfaces := 4 } ({} : Memory) none = .ok g ∧
      (∀ now bus keys, .deed (.restart now bus keys) ∉ overtakenEvents) ∧
      Asks twinConfig g overtakenEvents .heartbeat 6 1 ∧
      (g.moment twinConfig overtakenEvents 6).registry.status? 1 = some .updating ∧
      g.sentAt twinConfig overtakenEvents 7 = [twinRequest] := by
  have hshown : twinShown (fun g => ((g.moment twinConfig overtakenEvents 6).asked? .heartbeat,
      (g.moment twinConfig overtakenEvents 6).registry.status? 1,
      g.sentAt twinConfig overtakenEvents 7)) =
      some (some 1, some .updating, [twinRequest]) := by decide +kernel
  obtain ⟨g, hstart, hall⟩ := exists_of_twinShown hshown
  obtain ⟨hasked, hrest⟩ := Prod.mk.inj hall
  obtain ⟨hstatus, hsent⟩ := Prod.mk.inj hrest
  exact ⟨g, hstart, by simp [overtakenEvents, turnEvents], ⟨rfl, hasked⟩, hstatus, hsent⟩

end Gateway
end VehicleGateway
