import VehicleGateway.Proofs.Gateway.Tenancy
import VehicleGateway.Proofs.Keys.Answers
import VehicleGateway.Proofs.Update.Calling
import VehicleGateway.Proofs.Update.Outcome

/-!
# Sessions and the element

A session asks the key service for the verdict on a tag and for cipher texts.  In a run in which all
others use the keys through the key service, too, what it is told is what the element has answered,
at a moment after the start of the session.

* `step?_keys` and `keys_meet` say what happens to the keys between one moment and the next:
  nothing, or one deed of a vault.
* `Consults` is what holds of a session that waits for the key service, and `consults_moment` says
  that it does so in every run.
-/

namespace VehicleGateway

/-- The keys after a change are those before it, or come out of them by something that is done with
the key service. -/
def KeysGoOn (found left : Option Vault) : Prop :=
  left = found ∨ ∃ vault d, found = some vault ∧ left = some (vault.act d)

/-- Keys that go on stay genuine. -/
theorem KeysGoOn.genuine {found left : Option Vault} (h : KeysGoOn found left)
    (hgenuine : ∀ vault, found = some vault → vault.Genuine) :
    ∀ vault, left = some vault → vault.Genuine := by
  intro vault hvault
  rcases h with hsame | ⟨before, d, hbefore, hleft⟩
  · exact hgenuine vault (hsame.symm.trans hvault)
  · obtain rfl := Option.some.inj (hleft.symm.trans hvault)
    exact (hgenuine before hbefore).act d

namespace Session

variable {σ : Type} [Storage σ] {c : FirmwareConfig} {w w' : World σ} {s s' : Session}

omit [Storage σ] in
theorem call_keys (w : World σ) (s : Session) (command : Command) (want : Want) :
    KeysGoOn w.keys (s.call w command want).1.keys := by
  unfold call
  split
  case h_1 => exact .inl rfl
  case h_2 vault hkeys => exact .inr ⟨vault, .call (.ask command want), hkeys, rfl⟩

/-- A step of a session does one thing with the key service at most. -/
theorem step?_keys (h : s.step? c w = some (w', s')) : KeysGoOn w.keys w'.keys := by
  cases step?_cases h with
  | turn wish =>
    cases wish with
    | verdict | cipher => exact call_keys _ _ _ _
    | send =>
      simp only [turnTo]
      split <;> exact .inl rfl
    | _ => exact .inl rfl
  | @carry n vault vault' _ hkeys _ hvault =>
    refine .inr ⟨vault, .turn w.now n, hkeys, ?_⟩
    simp only [Vault.act, hvault, Option.getD_some]
  | land hdoing hland =>
    obtain ⟨landed, -, hnext⟩ := Option.map_eq_some_iff.mp hland
    cases hnext
    exact .inl rfl
  | persist =>
    refine .inl ?_
    unfold World.persist
    split <;> rfl
  | _ => exact .inl rfl

/-- After its own step a session waits for the key service because it has just called, or as it did
before. -/
theorem step?_calling {m : Nat} {command : Command} {want : Want}
    (h : s.step? c w = some (w', s')) (hcalling : s'.doing = .calling m)
    (hasks : s'.dialogue.question? c.updateKey = some (command, want)) :
    (∃ vault, w.keys = some vault ∧ m = vault.service.calls.length ∧
      w'.keys = some (vault.addCall (.ask command want))) ∨ s' = s := by
  rcases calling_of_step h hcalling hasks with ⟨-, -, hcalled⟩ | ⟨hsame, -⟩
  · exact .inl hcalled
  · exact .inr hsame

end Session

namespace Gateway

variable {σ : Type} {g g' : Gateway σ}

/-! ## What happens to the keys -/

theorem keys_land {w w' : World σ} {flight : Flight} {sent : Sent}
    (h : w.land? flight = some (w', sent)) : w'.keys = w.keys := by
  obtain ⟨landed, -, hnext⟩ := Option.map_eq_some_iff.mp h
  cases hnext
  rfl

theorem keys_forwarding {w w' : World σ} {f f' : Forwarding} {timeout : Nat}
    (h : f.next w timeout = .goesOn w' f') : w'.keys = w.keys := by
  cases Forwarding.next_cases h with
  | lands hflight hland => exact keys_land hland
  | visits => rfl

theorem keys_round {w w' : World σ} {t : RoundTerms} {r r' : Round}
    (h : r.next t w = .goesOn w' r') : w'.keys = w.keys := by
  cases Round.next_cases h with
  | lands hflight hland => exact keys_land hland
  | asks | pauses | skips => rfl

theorem keys_takeUp (g : Gateway σ) (m : Message) : (g.takeUp m).1.keys = g.keys := by
  unfold takeUp
  cases hpath : Router.path g.routes g.toWorld g.tray m with
  | forwarding f => rfl
  | settled w tray d =>
    show w.keys = g.keys
    unfold Router.path at hpath
    split at hpath
    case h_1 | h_4 =>
      cases hpath
      rfl
    case h_2 =>
      split at hpath
      case h_1 =>
        cases hpath
        rfl
      case h_2 =>
        split at hpath <;> cases hpath
        rfl
    case h_3 => split at hpath <;> (cases hpath; rfl)

theorem keys_accept [Storage σ] (g : Gateway σ) (m : Message) : (g.accept m).1.keys = g.keys := by
  show (Supervisor.accept g.supervision.autoPersist g.toWorld m).1.keys = g.keys
  unfold Supervisor.accept
  split
  case h_1 => rfl
  case h_2 =>
    dsimp only
    unfold World.persist
    split
    case isTrue => split <;> rfl
    case isFalse => rfl

theorem keys_submit (g : Gateway σ) (m : Message) : (g.submit m).1.keys = g.keys := by
  unfold submit
  split <;> rfl

variable [Storage σ]

/-- A step of a part does one thing with the key service at most. -/
theorem keys_step {p : Part} (h : g.step? p = some g') : KeysGoOn g.keys g'.keys := by
  cases p with
  | receiver =>
    refine .inl ?_
    cases receiverStep?_cases h with
    | notice | malformed => rfl
    | @submit arrivals rest f m => exact keys_submit { g with arrivals := some rest } m
  | router =>
    refine .inl ?_
    cases routerStep?_cases h with
    | stop | finish => rfl
    | goOn hbusy hnext => exact keys_forwarding hnext
    | @settle m queue _ d hidle htake hup | @setOut m queue _ f hidle htake hup =>
      have hkept := keys_takeUp { g with queue } m
      rw [hup] at hkept
      exact hkept
  | supervisor =>
    refine .inl ?_
    cases supervisorStep?_cases h with
    | @apply m tray htake => exact keys_accept { g with tray } m
    | stop => rfl
  | heartbeat =>
    refine .inl ?_
    cases heartbeatStep?_cases h with
    | goOn hbeat hround hnext => exact keys_round hnext
    | finish | begin => rfl
  | errand =>
    refine .inl ?_
    cases errandStep?_cases h with
    | land herrand hland => exact keys_land hland
    | poll herrand hnext => exact keys_round hnext
    | @settle m _ d herrand hup | @setOut m _ f herrand hup =>
      have hkept := keys_takeUp g m
      rw [hup] at hkept
      exact hkept
    | goOn herrand hnext => exact keys_forwarding hnext
    | polled | finish => rfl
  | session n =>
    obtain ⟨-, hturn⟩ := sessionStep?_cases h
    exact Session.step?_keys hturn
  | keyCall n =>
    obtain @⟨vault, vault', hvault, hturn⟩ := keyCallStep?_cases h
    refine .inr ⟨vault, .turn g.now n, hvault, ?_⟩
    simp only [Vault.act, hturn, Option.getD_some]

/-- What a gateway meets does one thing with the key service at most, if others use the keys through
the key service. -/
theorem keys_meet (c : Config) (g : Gateway σ) (event : Happening σ)
    (hgoes : ∀ now bus keys, event ≠ .deed (.restart now bus keys))
    (hused : ∀ keys, event = .keys keys → KeysGoOn g.keys keys) :
    KeysGoOn g.keys (g.meet c event).keys := by
  cases event with
  | keys keys => exact hused keys rfl
  | deed deed =>
    simp only [Gateway.meet]
    have hacts := acts_act c g deed
    generalize g.act c deed = g' at hacts ⊢
    cases hacts with
    | move hstep => exact keys_step hstep
    | submit m => exact .inl (keys_submit g m)
    | accept m => exact .inl (keys_accept g m)
    | start hstart =>
      obtain ⟨record, -, inboxes, rfl, -⟩ := World.startUpdate_parts hstart
      exact .inl rfl
    | @callKeys request vault hkeys => exact .inr ⟨vault, .call request, hkeys, rfl⟩
    | restart | misconfigured => exact absurd rfl (hgoes _ _ _)
    | waits | inject | refused | request | poll | route | keyless | clock | others | shutdown =>
      exact .inl rfl

/-! ## Runs -/

variable {c : Config} {events : List (Happening σ)}

/-- In a run others use the keys through the key service, one deed at a time. -/
def KeysUsed (c : Config) (g : Gateway σ) (events : List (Happening σ)) : Prop :=
  ∀ k keys, events[k]? = some (.keys keys) → KeysGoOn (g.moment c events k).keys keys

/-- The element has a response for a command. -/
def Responds (g : Gateway σ) (command : Command) (r : Response) : Prop :=
  ∃ vault, g.keys = some vault ∧ (vault.device.element.execute command).2 = .ok r

/-- A session that waits for the key service waits for a call of its own.  What it can be told is
what the element has answered since the session was started. -/
def Consults (c : Config) (g : Gateway σ) (events : List (Happening σ)) (k n : Nat)
    (s : Session) : Prop :=
  ∀ m command want, s.doing = .calling m →
    s.dialogue.question? g.firmware.updateKey = some (command, want) →
    ∃ vault, (g.moment c events k).keys = some vault ∧ vault.Asks m command want ∧
      ∀ r, vault.outcome? m = some (.ok (.response r)) →
        ∃ j < k, n < (g.moment c events j).sessions.length ∧
          (g.moment c events j).Responds command r

theorem keys_moment (hgoes : ∀ now bus keys, .deed (.restart now bus keys) ∉ events)
    (hused : g.KeysUsed c events) (k : Nat) :
    KeysGoOn (g.moment c events k).keys (g.moment c events (k + 1)).keys := by
  cases hevent : events[k]? with
  | none =>
    rw [moment_of_none hevent]
    exact .inl rfl
  | some event =>
    rw [moment_succ hevent]
    apply keys_meet
    · exact ne_restart_of_mem hgoes (List.mem_of_getElem? hevent)
    · rintro keys rfl
      exact hused k keys hevent

theorem genuine_moment (hgenuine : ∀ vault, g.keys = some vault → vault.Genuine)
    (hgoes : ∀ now bus keys, .deed (.restart now bus keys) ∉ events)
    (hused : g.KeysUsed c events) (k : Nat) :
    ∀ vault, (g.moment c events k).keys = some vault → vault.Genuine := by
  induction k with
  | zero => exact hgenuine
  | succ k ih => exact (keys_moment hgoes hused k).genuine ih

/-- A session that stays as it is, while somebody does something with the key service. -/
theorem Consults.later {k n : Nat} {s : Session} (h : Consults c g events k n s)
    (hs : (g.moment c events k).sessions[n]? = some s)
    (hgenuine : ∀ vault, (g.moment c events k).keys = some vault → vault.Genuine)
    (hkeys : KeysGoOn (g.moment c events k).keys (g.moment c events (k + 1)).keys) :
    Consults c g events (k + 1) n s := by
  intro m command want hcalling hquestion
  obtain ⟨vault, hvault, hasks, hanswered⟩ := h m command want hcalling hquestion
  have hbefore (r : Response) (hr : vault.outcome? m = some (.ok (.response r))) :
      ∃ j < k + 1, n < (g.moment c events j).sessions.length ∧
        (g.moment c events j).Responds command r := by
    obtain ⟨j, hj, hn, hresponds⟩ := hanswered r hr
    exact ⟨j, Nat.lt_succ_of_lt hj, hn, hresponds⟩
  rcases hkeys with hsame | ⟨found, d, hfound, hleft⟩
  · exact ⟨vault, hsame.trans hvault, hasks, hbefore⟩
  · obtain rfl := Option.some.inj (hfound.symm.trans hvault)
    obtain ⟨hstill, hnew⟩ := hasks.act (hgenuine found hfound) d
    refine ⟨_, hleft, hstill, ?_⟩
    intro r hr
    rcases hnew r hr with hold | hnow
    · exact hbefore r hold
    · exact ⟨k, Nat.lt_succ_self k, (List.getElem?_eq_some_iff.mp hs).1, found, hfound, hnow⟩

/-- A session that has just had its turn. -/
theorem Consults.turn {k n : Nat} {s s' : Session} {w : World σ} (h : Consults c g events k n s)
    (hs : (g.moment c events k).sessions[n]? = some s)
    (hgenuine : ∀ vault, (g.moment c events k).keys = some vault → vault.Genuine)
    (hstep : s.step? g.firmware (g.moment c events k).toWorld = some (w, s'))
    (hleft : (g.moment c events (k + 1)).keys = w.keys) :
    Consults c g events (k + 1) n s' := by
  intro m command want hcalling hquestion
  rcases Session.step?_calling hstep hcalling hquestion with ⟨vault, hvault, rfl, hcall⟩ | rfl
  · refine ⟨_, hleft.trans hcall, (hgenuine vault hvault).asks_addCall command want, ?_⟩
    intro r hr
    rw [Vault.outcome?_addCall] at hr
    cases hr
  · have hkeys := Session.step?_keys hstep
    rw [← hleft] at hkeys
    exact h.later hs hgenuine hkeys m command want hcalling hquestion

/-- Whenever a session waits for the key service, what it can be told is what the element has
answered since its start. -/
theorem consults_moment (hgenuine : ∀ vault, g.keys = some vault → vault.Genuine)
    (hnone : g.sessions = [])
    (hgoes : ∀ now bus keys, .deed (.restart now bus keys) ∉ events)
    (hused : g.KeysUsed c events) (k n : Nat) (s : Session)
    (hs : (g.moment c events k).sessions[n]? = some s) : Consults c g events k n s := by
  induction k generalizing n s with
  | zero =>
    rw [moment_zero, hnone] at hs
    cases hs
  | succ k ih =>
    have hthen := genuine_moment hgenuine hgoes hused k
    have hkeys := keys_moment hgoes hused k
    have hstays (hs : (g.moment c events k).sessions[n]? = some s) :
        Consults c g events (k + 1) n s := (ih n s hs).later hs hthen hkeys
    rcases moment_cases (c := c) (g := g) hgoes k with ⟨event, -, hdealing⟩ | ⟨-, hsame⟩
    case inr =>
      rw [hsame] at hs
      exact hstays hs
    generalize hnext : g.moment c events (k + 1) = g' at hs hdealing
    cases hdealing with
    | aside hsame | post _ hsame =>
      rw [hsame.sessions] at hs
      exact hstays hs
    | start hstart =>
      rcases getElem?_concat_cases hs with hold | ⟨-, rfl⟩
      · exact hstays hold
      · obtain ⟨-, -, hready, -, -⟩ := Session.startUpdate_session hstart
        intro m command want hcalling
        exact nomatch hready.symm.trans hcalling
    | session hfound hstep =>
      rcases getElem?_set_cases hs with ⟨rfl, rfl⟩ | ⟨-, hold⟩
      · rw [firmware_moment hgoes] at hstep
        exact (ih _ _ hfound).turn hfound hthen hstep (by rw [hnext])
      · exact hstays hold

end Gateway
end VehicleGateway
