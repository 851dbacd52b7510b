import VehicleGateway.Proofs.Keys.Loading

/-!
# One call at a time

A vault that is used by one caller alone runs each call to its end before the next one is made.
Time passes as the element needs it, and nobody else has the token.

* `exists_outcome_run` says that the steps that a call is given are enough for any call.
* `Rested` is a vault between two calls.
* `Rested.call_load` says what becomes of a load: it succeeds exactly if the key is loadable, and
  leaves the vault at rest.
* `call_setMaster_fresh` says the same of the first master key of a new vault, and how long it
  takes.
-/

namespace VehicleGateway.Vault

variable {v v' : Vault} {now n fuel : Nat} {c : KeyCall} {slot : KeySlot} {key : Key}
  {counter : Nat} {flags : KeyFlags}

/-! ## The run of a call -/

/-- A call that has ended does nothing. -/
theorem step?_of_ended {outcome : KeyOutcome} (h : v.outcome? n = some outcome) (now : Nat) :
    v.step? now n = none := by
  obtain ⟨c, hget, hended⟩ := Option.bind_eq_some_iff.mp h
  simp [step?, hget, KeyService.stage_of_outcome? hended]

theorem run_of_step? (h : v.step? now n = some v') (fuel : Nat) :
    run n (fuel + 1) now v = run n fuel now v' := by
  simp only [run, h]

/-- A call that can do nothing yet waits. -/
theorem run_of_wait (hget : v.service.call? n = some c) (hopen : c.outcome? = none)
    (hnow : v.step? now n = none) {later : Nat} (hdue : v.due? n = some later) (fuel : Nat) :
    run n (fuel + 1) now v = run n fuel (max now later) v := by
  rw [run]
  simp only [hnow, outcome?_of_call? hget, hopen, hdue]

theorem run_of_ended {outcome : KeyOutcome} (h : v.outcome? n = some outcome) (fuel now : Nat) :
    run n fuel now v = (v, now) := by
  cases fuel with
  | zero => rfl
  | succ fuel => simp only [run, step?_of_ended h now, h]

theorem outcome?_of_command {command : Command} (hcommand : c.stage.command? = some command) :
    c.outcome? = none := by
  unfold KeyCall.outcome?
  split
  case h_1 hended => simp [hended, CallStage.command?] at hcommand
  case h_2 => rfl

theorem due?_of_command {command : Command} (hget : v.service.call? n = some c)
    (hcommand : c.stage.command? = some command) :
    v.due? n = (v.underWay.get? n).map fun i => min i.due i.limit := by
  simp only [due?, hget, Option.bind_eq_bind, Option.bind_some]
  cases hstage : c.stage with
  | queued limit => simp [hstage, CallStage.command?] at hcommand
  | _ => rfl

/-- A command that the element answers in time. -/
theorem step?_of_underWay {i : Invocation} (hget : v.service.call? n = some c)
    (hcommand : c.stage.command? = some i.command) (hunderWay : v.underWay.get? n = some i)
    (hstand : i.stand = none) (hprompt : i.due ≤ i.limit) (now : Nat) :
    v.step? now n = if i.due ≤ now then some (v.answered now n i.command) else none := by
  rw [step?_of_command hget hcommand, hunderWay]
  dsimp only
  rw [complete_eq_answered now hstand]
  by_cases hdue : i.due ≤ now
  · rw [if_pos ⟨hdue, hprompt⟩, if_pos hdue]
  · rw [if_neg (fun h => hdue h.1), if_neg (by omega), if_neg hdue]

/-- The run of a call up to the answer of the element, for which it may have to wait. -/
theorem run_of_underWay {i : Invocation} (hget : v.service.call? n = some c)
    (hcommand : c.stage.command? = some i.command) (hunderWay : v.underWay.get? n = some i)
    (hstand : i.stand = none) (hprompt : i.due ≤ i.limit) (hlater : now ≤ i.due) :
    ∃ steps ≤ 2, ∀ fuel,
      run n (fuel + steps) now v = run n fuel i.due (v.answered i.due n i.command) := by
  have hstep := step?_of_underWay hget hcommand hunderWay hstand hprompt
  have hanswer (fuel : Nat) :
      run n (fuel + 1) i.due v = run n fuel i.due (v.answered i.due n i.command) :=
    run_of_step? (by rw [hstep, if_pos (Nat.le_refl _)]) fuel
  rcases Nat.lt_or_eq_of_le hlater with hlater | rfl
  · refine ⟨2, Nat.le_refl 2, fun fuel => ?_⟩
    have hopen : c.outcome? = none := outcome?_of_command hcommand
    have hdue : v.due? n = some i.due := by
      rw [due?_of_command hget hcommand, hunderWay, Option.map_some, Nat.min_eq_left hprompt]
    rw [run_of_wait hget hopen (by rw [hstep, if_neg (by omega)]) hdue, Nat.max_eq_right hlater.le,
      hanswer]
  · exact ⟨1, by decide, hanswer⟩

/-- The run of a call through a command that the element answers in time. -/
theorem run_of_command {command : Command} (hget : v.service.call? n = some c)
    (hcommand : c.stage.command? = some command) (hunset : v.device.stands = [])
    (hidle : v.underWay.get? n = none) (hprompt : v.device.latency ≤ v.service.timeout)
    (now : Nat) : ∃ i, ∃ steps ≤ 3, ∀ fuel, run n (fuel + steps) now v =
      run n fuel (now + v.device.latency)
        ({ v with underWay := v.underWay.insert n i }.answered (now + v.device.latency) n
          command) := by
  obtain ⟨i, rfl, hstand, hdue, hlimit, hinvoke⟩ := exists_invocation hunset now n command
  have hgiven : v.step? now n = some { v with underWay := v.underWay.insert n i } := by
    rw [step?_of_command hget hcommand, hidle, hinvoke]
  have hanswered : ∃ steps ≤ 2, ∀ fuel,
      run n (fuel + steps) now { v with underWay := v.underWay.insert n i } = run n fuel i.due
        ({ v with underWay := v.underWay.insert n i }.answered i.due n i.command) :=
    run_of_underWay hget hcommand (Dictionary.get?_insert_self _ _ _) hstand (by omega) (by omega)
  obtain ⟨steps, hsteps, hrun⟩ := hanswered
  refine ⟨i, steps + 1, by omega, fun fuel => ?_⟩
  rw [← Nat.add_assoc, run_of_step? hgiven, hrun, hdue]

/-- What every turn of a call keeps, its run keeps. -/
theorem run_induction {P : Vault → Prop}
    (hstep : ∀ v now v', P v → v.step? now n = some v' → P v') (fuel now : Nat) (hv : P v) :
    P (run n fuel now v).1 := by
  induction fuel generalizing now v with
  | zero => exact hv
  | succ fuel ih =>
    unfold run
    cases hturn : v.step? now n with
    | some v' => exact ih now (hstep v now v' hv hturn)
    | none =>
      dsimp only
      split
      · exact ih _ hv
      · exact hv

/-- A call can do something at the latest when the time that it waits for has come. -/
theorem exists_step?_later (hget : v.service.call? n = some c) (hopen : c.outcome? = none)
    (hnow : v.step? now n = none) :
    ∃ later v', v.due? n = some later ∧ v.step? (max now later) n = some v' := by
  cases hdue : v.due? n with
  | none =>
    have hstep : ∃ v', v.step? now n = some v' := exists_step? hget hopen (by simp [hdue])
    simp [hnow] at hstep
  | some later =>
    obtain ⟨v', hstep⟩ : ∃ v', v.step? (max now later) n = some v' :=
      exists_step? hget hopen (by simp [hdue])
    exact ⟨later, v', rfl, hstep⟩

/-- A call ends within its run.  Each of its steps brings it closer to its end, and before each of
them there is at most one wait. -/
theorem exists_outcome_run (hget : v.service.call? n = some c) (hfuel : 2 * v.rank n < fuel)
    (now : Nat) : ∃ outcome, (run n fuel now v).1.outcome? n = some outcome := by
  induction hrank : v.rank n using Nat.strong_induction_on generalizing v c fuel now with
  | h rank ih =>
    subst hrank
    cases hopen : c.outcome? with
    | some outcome =>
      have hended : v.outcome? n = some outcome := (outcome?_of_call? hget).trans hopen
      rw [run_of_ended hended]
      exact ⟨outcome, hended⟩
    | none =>
      -- After one step of the call there is enough left for the others.
      have hrest {time : Nat} {w : Vault} {left : Nat} (hstep : v.step? time n = some w)
          (hleft : 2 * v.rank n ≤ left + 1) :
          ∃ outcome, (run n left time w).1.outcome? n = some outcome := by
        obtain ⟨d, hd, hcloser⟩ := closer_of_step? hstep
        exact ih _ hcloser hd (by omega) time rfl
      obtain ⟨left, rfl⟩ : ∃ left, fuel = left + 1 := ⟨fuel - 1, by omega⟩
      cases hturn : v.step? now n with
      | some w =>
        rw [run_of_step? hturn]
        exact hrest hturn (by omega)
      | none =>
        obtain ⟨later, w, hdue, hstep⟩ := exists_step?_later hget hopen hturn
        have hpositive : 0 < v.rank n := by
          obtain ⟨-, -, hcloser⟩ := closer_of_step? hstep
          omega
        obtain ⟨left, rfl⟩ : ∃ less, left = less + 1 := ⟨left - 1, by omega⟩
        rw [run_of_wait hget hopen hturn hdue, run_of_step? hstep]
        exact hrest hstep (by omega)

/-- Every call is made to its end. -/
theorem exists_outcome_call (hidle : v.underWay.get? v.service.calls.length = none) (now : Nat)
    (request : KeyRequest) : ∃ outcome,
      (v.call now request).1.outcome? v.service.calls.length = some outcome ∧
        (v.call now request).2.2 = outcome := by
  have hget : (v.addCall request).service.call? v.service.calls.length = some { request } :=
    KeyService.call?_addCall _ _
  have hrank : (v.addCall request).rank v.service.calls.length = 15 := by
    rw [rank_eq hget]
    simp [addCall, hidle, CallStage.distance]
  have henough : 2 * (v.addCall request).rank v.service.calls.length < callSteps := by
    rw [hrank]
    decide
  obtain ⟨outcome, houtcome⟩ := exists_outcome_run hget henough now
  exact ⟨outcome, houtcome, by simp only [call, houtcome, Option.getD_some]⟩

/-! ## Between two calls -/

/-- All calls but one have ended. -/
def OthersEnded (v : Vault) (n : Nat) : Prop :=
  ∀ m c, m ≠ n → v.service.call? m = some c → c.outcome? ≠ none

/-- All calls have ended, and the service knows what its element stores and waits long enough for
it. -/
structure Rested (v : Vault) : Prop where
  faithful : v.Faithful
  agrees : ∀ slot, v.service.Agrees v.device.element slot
  ended : ∀ n c, v.service.call? n = some c → c.outcome? ≠ none
  prompt : v.device.latency ≤ v.service.timeout

theorem OthersEnded.turn (h : v.OthersEnded n) (hstep : v.step? now n = some v') :
    v'.OthersEnded n := by
  obtain ⟨c, hget, hturn⟩ := turn_cases hstep
  intro m d hmn hd
  exact h m d hmn ((untouched_turn hget (Ne.symm hmn) hturn).call.symm.trans hd)

/-- A call that is alone need not wait for the token. -/
theorem OthersEnded.holder_eq (h : v.OthersEnded n) (horderly : v.service.Orderly) {m : Nat}
    (hholder : v.service.holder = some m) : m = n := by
  by_contra hmn
  obtain ⟨-, d, hd, hactive | ⟨limit, hqueued⟩⟩ := horderly.holder m hholder
  · have hnot := h m d hmn hd
    cases hstage : d.stage <;> simp_all [CallStage.active, KeyCall.outcome?]
  · exact h m d hmn hd (by simp [KeyCall.outcome?, hqueued])

theorem Rested.idle (h : v.Rested) : v.underWay.get? v.service.calls.length = none := by
  cases hunderWay : v.underWay.get? v.service.calls.length with
  | none => rfl
  | some i =>
    obtain ⟨-, d, hd, -⟩ := h.faithful.underWay _ i hunderWay
    exact absurd (KeyService.lt_of_call? hd) (Nat.lt_irrefl _)

theorem Rested.othersEnded_addCall (h : v.Rested) (request : KeyRequest) :
    (v.addCall request).OthersEnded v.service.calls.length := by
  intro m d hmn hd
  rcases (KeyService.call?_append v.service { request } m).mp hd with hd | ⟨rfl, -⟩
  · exact h.ended m d hd
  · exact absurd rfl hmn

/-- What a call alone keeps besides the keys. -/
structure Keeps (v v' : Vault) (n : Nat) : Prop where
  faithful : v'.Faithful
  make : SameMake v v'
  others : v'.OthersEnded n

theorem Keeps.turn {w : Vault} (h : Keeps v w n) (hstep : w.step? now n = some v') :
    Keeps v v' n := by
  have hmake := h.faithful.sameMake_turn hstep
  exact ⟨h.faithful.turn hstep, ⟨hmake.timeout.trans h.make.timeout,
    hmake.latency.trans h.make.latency, hmake.identity.trans h.make.identity⟩, h.others.turn hstep⟩

theorem Rested.keeps_addCall (h : v.Rested) (request : KeyRequest) :
    Keeps v (v.addCall request) v.service.calls.length :=
  ⟨h.faithful.act (.call request), ⟨rfl, rfl, rfl⟩, h.othersEnded_addCall request⟩

theorem Rested.keeps_call (h : v.Rested) (now : Nat) (request : KeyRequest) :
    Keeps v (v.call now request).1 v.service.calls.length :=
  run_induction (P := fun w => Keeps v w v.service.calls.length)
    (fun _ _ _ hkeeps hstep => hkeeps.turn hstep) callSteps now (h.keeps_addCall request)

/-- A vault is at rest again after a call, if notes and slots still agree. -/
theorem Rested.call (h : v.Rested) (now : Nat) (request : KeyRequest)
    (hagrees : ∀ slot, (v.call now request).1.service.Agrees (v.call now request).1.device.element
      slot) : (v.call now request).1.Rested := by
  have hkeeps := h.keeps_call now request
  refine ⟨hkeeps.faithful, hagrees, ?_, ?_⟩
  · intro m d hd
    by_cases hmn : m = v.service.calls.length
    · obtain ⟨outcome, houtcome, -⟩ := exists_outcome_call h.idle now request
      rw [← hmn, outcome?_of_call? hd] at houtcome
      simp [houtcome]
    · exact hkeeps.others m d hmn hd
  · rw [hkeeps.make.latency, hkeeps.make.timeout]
    exact h.prompt

/-! ## A load -/

/-- A call that is alone is about to load a key, or has ended as a load does. -/
def Loading (v : Vault) (n : Nat) (slot : KeySlot) (key : Key) (counter : Nat) (flags : KeyFlags)
    (u : Vault) : Prop :=
  (SameKeys v u ∧ ∃ c, u.Loads n slot key counter flags c) ∨
    ∃ w outcome, Keeps v w n ∧ u.outcome? n = some outcome ∧
      LoadSettled v w u n slot key counter flags outcome

theorem Loading.turn {u u' : Vault} (h : Loading v n slot key counter flags u)
    (hkeeps : Keeps v u n) (hagrees : ∀ slot, v.service.Agrees v.device.element slot)
    (hstep : u.step? now n = some u') : Loading v n slot key counter flags u' := by
  rcases h with ⟨hsame, c, hloads⟩ | ⟨w, outcome, -, hended, -⟩
  · cases hloads.turn hkeeps.faithful (hsame.agrees hagrees) hstep with
    | goesOn hloads' hkept => exact .inl ⟨hsame.trans hkept, _, hloads'⟩
    | ends houtcome hend => exact .inr ⟨u, _, hkeeps, houtcome, hend.settled hsame hkeeps.make⟩
  · cases (step?_of_ended hended now).symm.trans hstep

/-- A load of a key by a caller who is alone succeeds exactly if the key is loadable. -/
theorem Rested.call_load (h : v.Rested) (now : Nat) (slot : KeySlot) (key : Key) (counter : Nat)
    (flags : KeyFlags) :
    ∃ v' now' outcome, v.call now (.load slot key counter flags) = (v', now', outcome) ∧
      v'.Rested ∧ (outcome = .ok .done ↔ v.device.element.Loadable slot counter) ∧
      ∃ w, LoadSettled v w v' v.service.calls.length slot key counter flags outcome := by
  obtain ⟨outcome, houtcome, htold⟩ :=
    exists_outcome_call h.idle now (.load slot key counter flags)
  obtain ⟨-, hloading⟩ : Keeps v (v.call now (.load slot key counter flags)).1
        v.service.calls.length ∧
      Loading v v.service.calls.length slot key counter flags
        (v.call now (.load slot key counter flags)).1 := by
    refine run_induction
      (P := fun u => Keeps v u v.service.calls.length ∧
        Loading v v.service.calls.length slot key counter flags u) ?_ callSteps now ?_
    · exact fun u time u' ⟨hkeeps, hloading⟩ hstep =>
        ⟨hkeeps.turn hstep, hloading.turn hkeeps h.agrees hstep⟩
    · exact ⟨h.keeps_addCall _, .inl ⟨sameKeys_of_eq rfl rfl rfl, _, loads_addCall _ _ _ _ _⟩⟩
  rcases hloading with ⟨-, c, hloads⟩ | ⟨w, outcome', hbefore, hended, hsettled⟩
  · cases houtcome.symm.trans ((outcome?_of_call? hloads.get).trans hloads.running)
  obtain rfl := Option.some.inj (houtcome.symm.trans hended)
  -- Nobody else has the token, and the element is quick enough.
  have hbusy : outcome ≠ .error .busy := by
    intro hbusy
    obtain ⟨m, hmn, hholder⟩ := hsettled.busy hbusy
    exact hmn (hbefore.others.holder_eq hbefore.faithful.coherent.orderly hholder)
  have hlate (micros : Nat) : outcome ≠ .error (.timeout micros) := by
    intro hlate
    exact absurd (hsettled.late micros hlate) (Nat.not_lt.mpr h.prompt)
  refine ⟨_, _, outcome, by rw [← htold], h.call now _ ?_, hsettled.done_iff hbusy hlate, w,
    hsettled⟩
  rcases hsettled.told with hdone | ⟨fault, hfault⟩
  · obtain ⟨hslot, hnote, hothers, -⟩ := hsettled.stored hdone
    intro other
    by_cases hother : other = slot
    · subst hother
      exact .inr ⟨key, counter, flags, hnote, hslot⟩
    · obtain ⟨hslots, hnotes⟩ := hothers other hother
      unfold KeyService.Agrees
      rw [hslots, hnotes]
      exact h.agrees other
  · exact (hsettled.kept fault hfault).agrees h.agrees

/-! ## The first master key -/

section FirstMaster

variable (timeout : Nat) (identity : ElementId) (entropy : Nat → Block) (latency : Nat) (key : Key)

/-- A new vault while its first call sets the master key. -/
def setting (known : Option ElementId) (stage : CallStage) : Vault where
  service :=
    { timeout, identity := known, holder := some 0,
      calls := [{ request := .setMaster key, stage, counter := 1 }] }
  device := { element := Element.fresh identity entropy, latency }

/-- A new vault once its first call has set the master key. -/
def mastered : Vault where
  service :=
    { timeout, identity := some identity, notes := .insert ∅ .master ⟨1, some key⟩,
      calls := [{ request := .setMaster key, stage := .ended (.ok (.counter 1)), counter := 1 }] }
  device :=
    { element := { Element.fresh identity entropy with
        slots := .insert ∅ .master ⟨key, 1, {}⟩ }
      latency }

variable {timeout identity latency key}

/-- The element says who it is, and is to be given the order. -/
theorem run_setting_naming (hprompt : latency ≤ timeout) {order : KeyOrder}
    (hmake : KeyOrder.make Block.zero .master .master key 1 {} identity = .ok order) (now : Nat) :
    ∃ steps ≤ 3, ∀ fuel,
      run 0 (fuel + steps) now (setting timeout identity entropy latency key none .naming) =
        run 0 fuel (now + latency)
          (setting timeout identity entropy latency key (some identity)
            (.loading identity order)) := by
  have hget : (setting timeout identity entropy latency key none .naming).service.call? 0 =
      some { request := .setMaster key, stage := .naming, counter := 1 } := rfl
  obtain ⟨i, steps, hsteps, hrun⟩ := run_of_command hget rfl rfl rfl hprompt now
  refine ⟨steps, hsteps, fun fuel => (hrun fuel).trans (congrArg (run 0 fuel _) ?_)⟩
  refine (answered_of_identity (by exact hget) rfl _ _).trans ?_
  simp only [setting, KeyService.proceed, KeyCall.load?, Element.fresh, hmake]
  rfl

/-- The element carries out the order, and the key is noted. -/
theorem run_setting_loading (hprompt : latency ≤ timeout) {order : KeyOrder}
    (hmake : KeyOrder.make Block.zero .master .master key 1 {} identity = .ok order) (now : Nat) :
    ∃ steps ≤ 3, ∀ fuel,
      run 0 (fuel + steps) now
          (setting timeout identity entropy latency key (some identity) (.loading identity order)) =
        run 0 fuel (now + latency) (mastered timeout identity entropy latency key) := by
  have hget : (setting timeout identity entropy latency key (some identity)
      (.loading identity order)).service.call? 0 =
        some { request := .setMaster key, stage := .loading identity order, counter := 1 } := rfl
  obtain ⟨i, steps, hsteps, hrun⟩ := run_of_command hget rfl rfl rfl hprompt now
  refine ⟨steps, hsteps, fun fuel => (hrun fuel).trans (congrArg (run 0 fuel _) ?_)⟩
  have hblank : (Element.fresh identity entropy).Loadable .master 1 :=
    Element.loadable_of_blank fun _ => rfl
  obtain ⟨receipt, hreceipt, hloaded⟩ := Element.load_of_loadable hblank hmake
  have hnew : (setting timeout identity entropy latency key (some identity)
      (.loading identity order)).service.checkCounter .master 1 = .ok () := rfl
  -- The facts are about the parts of the vault, which have to be looked up in it first.
  refine (answered_of_loaded (by exact hget) rfl rfl (by exact hnew) hreceipt (by exact hloaded)
    _).trans ?_
  rfl

/-- The first caller of a new vault sets the master key, and is told its counter. -/
theorem call_setMaster_fresh (hprompt : latency ≤ timeout) (now : Nat) :
    (fresh timeout identity entropy latency).call now (.setMaster key) =
      (mastered timeout identity entropy latency key, now + latency + latency,
        .ok (.counter 1)) := by
  obtain ⟨order, hmake⟩ : ∃ order,
      KeyOrder.make Block.zero .master .master key 1 {} identity = .ok order :=
    ⟨_, KeyOrder.make_eq_signed .master .master Block.zero key 1 {} identity rfl rfl (by decide)⟩
  have hentered : ((fresh timeout identity entropy latency).addCall (.setMaster key)).step? now 0 =
      some (setting timeout identity entropy latency key none .granted) := rfl
  have hused : (setting timeout identity entropy latency key none .granted).step? now 0 =
      some (setting timeout identity entropy latency key none .naming) := rfl
  obtain ⟨k, hk, hnaming⟩ := run_setting_naming entropy hprompt hmake now
  obtain ⟨m, hm, hloading⟩ := run_setting_loading entropy hprompt hmake (now + latency)
  have hended : (mastered timeout identity entropy latency key).outcome? 0 =
      some (.ok (.counter 1)) := rfl
  have hrun : run 0 callSteps now
      ((fresh timeout identity entropy latency).addCall (.setMaster key)) =
        (mastered timeout identity entropy latency key, now + latency + latency) := by
    have hsteps : callSteps = 30 - k - m + m + k + 1 + 1 := by
      unfold callSteps
      omega
    rw [hsteps, run_of_step? hentered, run_of_step? hused, hnaming, hloading, run_of_ended hended]
  have hnew : (fresh timeout identity entropy latency).service.calls.length = 0 := rfl
  simp only [call, hnew, hrun, hended, Option.getD_some]

theorem rested_fresh (hprompt : latency ≤ timeout) :
    (fresh timeout identity entropy latency).Rested := by
  refine ⟨faithful_fresh timeout identity entropy latency, fun slot => .inl ⟨rfl, rfl⟩, ?_, hprompt⟩
  rintro _ _ ⟨⟩

theorem rested_mastered (hprompt : latency ≤ timeout) :
    (mastered timeout identity entropy latency key).Rested := by
  have hcall : ((fresh timeout identity entropy latency).call 0 (.setMaster key)).1 =
      mastered timeout identity entropy latency key :=
    congrArg Prod.fst (call_setMaster_fresh entropy hprompt 0)
  rw [← hcall]
  refine (rested_fresh entropy hprompt).call 0 (.setMaster key) ?_
  rw [hcall]
  intro slot
  by_cases hslot : slot = .master
  · subst hslot
    exact .inr ⟨key, 1, {}, rfl, rfl⟩
  · exact .inl ⟨Dictionary.get?_insert_of_ne _ hslot _, Dictionary.get?_insert_of_ne _ hslot _⟩

end FirstMaster

end VehicleGateway.Vault
