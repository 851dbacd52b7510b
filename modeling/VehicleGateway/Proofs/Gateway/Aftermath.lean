import VehicleGateway.Proofs.Gateway.Senders

/-!
# After a shutdown

A shutdown stops the receiver, the router, the supervisor and the heartbeat.  It does not stop the
sessions, nor what is done for a caller who waits.  This module says what a gateway that was shut
down still does by itself.

* `Happening.befalls` holds of what happens without anything new being asked of the gateway: frames
  and messages arrive, time passes, calls end, parts have their turns.
* `Stopped` is what a shutdown leaves of the parts, and nothing that befalls a gateway undoes it.
* `Follows` relates a gateway that was shut down to what becomes of it: there are no new sessions,
  and those that were over stay over.
* `SilentAt` says that nothing is sent or stored at one happening.  `silentAt_or_unfinished` names
  all that can break the silence.

What becomes of a session that is not over is said in `VehicleGateway.Proofs.Gateway.Lingering`.
-/

namespace VehicleGateway

/-- Whether something happens by itself, and is not asked of the gateway. -/
def Happening.befalls {σ : Type} : Happening σ → Bool
  | .keys _ => true
  | .deed (.move _) | .deed (.inject _) | .deed (.submit _) | .deed (.callKeys _)
  | .deed (.clock _) | .deed (.others _ _) => true
  | _ => false

/-- Whether all that is left to a session is to show its end. -/
def Session.over (s : Session) : Bool :=
  match s.doing with
  | .stored | .closed => true
  | _ => false

namespace Gateway

variable {σ : Type} {g₀ g g' : Gateway σ}

/-- Whether nothing is being done for a caller. -/
def idle (g : Gateway σ) : Bool :=
  match g.errand with
  | none | some (.ended _) => true
  | some _ => false

theorem errandStep?_of_idle (h : g.idle = true) : g.errandStep? = none := by
  unfold idle at h
  unfold errandStep?
  split at h
  case h_1 hnone => simp [hnone]
  case h_2 result hended => simp [hended]
  case h_3 => cases h

/-- The parts that a shutdown stops do not run. -/
structure Stopped (g : Gateway σ) : Prop where
  arrivals : g.arrivals = none
  items : g.queue.items = []
  reader : g.queue.hasReader = false
  halting : g.halting = false
  forwarding : g.forwarding = none
  supervising : g.supervising = false
  heartbeat : g.heartbeat = none

theorem stopped_shutdown [Storage σ] (g : Gateway σ) : g.shutdown.1.Stopped :=
  ⟨rfl, rfl, rfl, rfl, rfl, rfl, rfl⟩

namespace Stopped

/-- What befalls the other parts does not matter. -/
theorem of_same (h : g.Stopped) (harrivals : g'.arrivals = g.arrivals) (hqueue : g'.queue = g.queue)
    (hhalting : g'.halting = g.halting) (hforwarding : g'.forwarding = g.forwarding)
    (hsupervising : g'.supervising = g.supervising) (hheartbeat : g'.heartbeat = g.heartbeat) :
    g'.Stopped := by
  constructor
  case arrivals => rw [harrivals, h.arrivals]
  case items => rw [hqueue, h.items]
  case reader => rw [hqueue, h.reader]
  case halting => rw [hhalting, h.halting]
  case forwarding => rw [hforwarding, h.forwarding]
  case supervising => rw [hsupervising, h.supervising]
  case heartbeat => rw [hheartbeat, h.heartbeat]

/-- A message that is submitted is refused. -/
theorem submit_eq (h : g.Stopped) (m : Message) : (g.submit m).1 = g := by
  simp [submit, Mailbox.posting, h.reader]

/-- A message that is taken up for a caller starts no part again. -/
theorem takeUp (h : g.Stopped) (m : Message) : (g.takeUp m).1.Stopped := by
  unfold Gateway.takeUp
  split <;> exact h.of_same rfl rfl rfl rfl rfl rfl

theorem errandStep (h : g.Stopped) (hstep : g.errandStep? = some g') : g'.Stopped := by
  cases errandStep?_cases hstep with
  | land | poll | polled | goOn | finish => exact h.of_same rfl rfl rfl rfl rfl rfl
  | @settle m _ d herrand hup =>
    have hleft := h.takeUp m
    rw [hup] at hleft
    exact hleft.of_same rfl rfl rfl rfl rfl rfl
  | @setOut m _ f herrand hup =>
    have hleft := h.takeUp m
    rw [hup] at hleft
    exact hleft.of_same rfl rfl rfl rfl rfl rfl

end Stopped

/-! ## What becomes of a gateway that was shut down -/

/-- Between a gateway that was shut down and what becomes of it by itself. -/
structure Follows (g₀ g : Gateway σ) : Prop where
  stopped : g.Stopped
  sessions : ∀ (n : Nat) (s : Session), g.sessions[n]? = some s →
    ∃ s₀ : Session, g₀.sessions[n]? = some s₀ ∧ (s₀.over = true → s.over = true)
  idle : g₀.idle = true → g.idle = true

/-- A change of other things. -/
theorem Follows.of_same (h : g₀.Follows g) (hstopped : g'.Stopped)
    (hsessions : g'.sessions = g.sessions) (herrand : g'.errand = g.errand) : g₀.Follows g' := by
  refine ⟨hstopped, by rw [hsessions]; exact h.sessions, ?_⟩
  unfold Gateway.idle at *
  rw [herrand]
  exact h.idle

theorem follows_shutdown [Storage σ] (g : Gateway σ) : g.Follows g.shutdown.1 :=
  ⟨stopped_shutdown g, fun _ s hs => ⟨s, hs, id⟩, id⟩

variable [Storage σ]

/-- A session that is over sends nothing, stores nothing and stays over. -/
theorem step?_of_over {c : FirmwareConfig} {w w' : World σ} {s s' : Session} (hover : s.over = true)
    (hstep : s.step? c w = some (w', s')) : w' = w ∧ s'.over = true := by
  cases hdoing : s.doing with
  | stored =>
    simp only [Session.step?, hdoing, Option.some.injEq, Prod.mk.injEq] at hstep
    obtain ⟨rfl, rfl⟩ := hstep
    exact ⟨rfl, rfl⟩
  | closed => simp [Session.step?, hdoing] at hstep
  | _ => simp [Session.over, hdoing] at hover

/-- A step of a gateway that was shut down sends and stores nothing, unless it is one of a session
that was not over, or is done for a caller. -/
theorem Follows.step (h : g₀.Follows g) {p : Part} (hstep : g.step? p = some g') :
    g₀.Follows g' ∧ ((g'.bus = g.bus ∧ g'.storage = g.storage) ∨
      (∃ n s₀, p = .session n ∧ g₀.sessions[n]? = some s₀ ∧ Session.over s₀ = false) ∨
        p = .errand ∧ g₀.idle = false) := by
  have hstopped := h.stopped
  cases p with
  | receiver => simp [step?, receiverStep?, hstopped.arrivals] at hstep
  | router =>
    simp [step?, routerStep?, carryOn?, hstopped.halting, hstopped.forwarding, Mailbox.take?,
      hstopped.items] at hstep
  | supervisor => simp [step?, supervisorStep?, hstopped.supervising] at hstep
  | heartbeat => simp [step?, heartbeatStep?, hstopped.heartbeat] at hstep
  | keyCall n =>
    cases keyCallStep?_cases hstep
    exact ⟨h.of_same (hstopped.of_same rfl rfl rfl rfl rfl rfl) rfl rfl, .inl ⟨rfl, rfl⟩⟩
  | errand =>
    -- An errand that has a step to take was there from the beginning.
    have hbusy : g₀.idle = false := by
      cases hidle : g₀.idle with
      | false => rfl
      | true => cases (errandStep?_of_idle (h.idle hidle)).symm.trans hstep
    refine ⟨⟨hstopped.errandStep hstep, ?_, ?_⟩, .inr (.inr ⟨rfl, hbusy⟩)⟩
    · have hdealing : Dealing g (.deed (.move .errand)) g' := dealing_errand hstep
      cases hdealing with
      | aside hsame | post _ hsame =>
        rw [hsame.sessions]
        exact h.sessions
    · intro hidle
      rw [hidle] at hbusy
      cases hbusy
  | session n =>
    obtain @⟨s, s', w, hs, hsession⟩ := sessionStep?_cases hstep
    obtain ⟨s₀, hs₀, hover⟩ := h.sessions n s hs
    have hleft : s₀.over = true → w = g.toWorld ∧ s'.over = true := fun hended =>
      step?_of_over (hover hended) hsession
    refine ⟨⟨hstopped.of_same rfl rfl rfl rfl rfl rfl, ?_, h.idle⟩, ?_⟩
    · intro m t ht
      obtain ⟨rfl, rfl⟩ | ⟨hne, ht⟩ := getElem?_set_cases ht
      · exact ⟨s₀, hs₀, fun hended => (hleft hended).2⟩
      · exact h.sessions m t ht
    · cases hended : s₀.over with
      | false => exact .inr (.inl ⟨n, s₀, rfl, hs₀, hended⟩)
      | true =>
        left
        rw [(hleft hended).1]
        exact ⟨rfl, rfl⟩

theorem Follows.meet (c : Config) (h : g₀.Follows g) {event : Happening σ}
    (hbefalls : event.befalls = true) : g₀.Follows (g.meet c event) := by
  have hstopped := h.stopped
  cases event with
  | keys keys => exact h.of_same (hstopped.of_same rfl rfl rfl rfl rfl rfl) rfl rfl
  | deed deed =>
    simp only [Gateway.meet]
    have hacts := acts_act c g deed
    generalize g.act c deed = g' at hacts ⊢
    cases hacts with
    | waits | keyless => exact h
    | move hstep => exact (h.step hstep).1
    | inject f =>
      have harrivals : (g.inject f).arrivals = g.arrivals := by simp [inject, hstopped.arrivals]
      exact h.of_same (hstopped.of_same harrivals rfl rfl rfl rfl rfl) rfl rfl
    | submit m =>
      rw [hstopped.submit_eq]
      exact h
    | callKeys | clock | others => exact h.of_same (hstopped.of_same rfl rfl rfl rfl rfl rfl) rfl rfl
    | _ => cases hbefalls

/-! ## Silence -/

variable {c : Config} {events : List (Happening σ)}

/-- Neither is a frame sent nor is the storage written at one happening. -/
def SilentAt (c : Config) (g : Gateway σ) (events : List (Happening σ)) (k : Nat) : Prop :=
  g.sentAt c events k = [] ∧ ∀ p, events[k]? = some (.deed (.move p)) →
    (g.moment c events (k + 1)).storage = (g.moment c events k).storage

theorem Follows.moment (h : g₀.Follows g) (hbefalls : ∀ event ∈ events, event.befalls = true)
    (k : Nat) : g₀.Follows (g.moment c events k) := by
  refine moment_induction h ?_ k
  intro g' event hmem hfollows
  exact hfollows.meet c (hbefalls event hmem)

/-- What breaks the silence after a shutdown is a step of a session that was not over when the
gateway was shut down, or is done for a caller who had begun to wait before. -/
theorem silentAt_or_unfinished (hbefalls : ∀ event ∈ events, event.befalls = true) (k : Nat) :
    SilentAt c g.shutdown.1 events k ∨
      (∃ n s, events[k]? = some (.deed (.move (.session n))) ∧ g.sessions[n]? = some s ∧
        s.over = false) ∨
        events[k]? = some (.deed (.move .errand)) ∧ g.idle = false := by
  have hfollows := (follows_shutdown g).moment hbefalls k (c := c)
  cases hevent : events[k]? with
  | none => exact .inl ⟨by simp [sentAt, hevent], fun p hp => by simp [hevent] at hp⟩
  | some event =>
    by_cases hmove : ∃ p, event = .deed (.move p)
    case neg =>
      left
      refine ⟨?_, fun p hp => absurd ⟨p, Option.some.inj (hevent.symm.trans hp)⟩ hmove⟩
      unfold sentAt
      split
      case h_1 p hp => exact absurd ⟨p, Option.some.inj (hevent.symm.trans hp)⟩ hmove
      case h_2 => rfl
    case pos =>
      obtain ⟨p, rfl⟩ := hmove
      unfold SilentAt sentAt
      simp only [hevent, moment_succ hevent, Gateway.meet, act]
      cases hstep : (g.shutdown.1.moment c events k).step? p with
      | none => exact .inl ⟨by simp, fun _ _ => by simp⟩
      | some g' =>
        rcases (hfollows.step hstep).2 with ⟨hbus, hstorage⟩ | hsession | herrand
        · left
          simp [hbus, hstorage]
        · obtain ⟨n, s, rfl, hs, hopen⟩ := hsession
          exact .inr (.inl ⟨n, s, rfl, hs, hopen⟩)
        · obtain ⟨rfl, hbusy⟩ := herrand
          exact .inr (.inr ⟨rfl, hbusy⟩)

end Gateway
end VehicleGateway
