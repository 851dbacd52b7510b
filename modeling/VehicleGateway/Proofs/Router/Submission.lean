import Mathlib.Data.List.Basic
import VehicleGateway.Proofs.Router.Paths

/-!
# Submitted messages

A message that a caller submits is given by the gateways that it finds at its turns.  Nothing is
assumed about these but that time passes.

* `submission` is the errand of the caller in such a run, with the turns that it took.
* `exists_attempt` and `exists_attempts` carry a message past one destination and past all of them.
* `submission_takes_path`: every submission ends, on one of the paths of `Routed`.
* `carryOn?_of_take` and `carryOn?_of_forwarding`: the router treats what it takes from its queue as
  it treats what a caller submits.
-/

namespace VehicleGateway

/-! ## Queues and transmissions -/

theorem Inboxes.post_of_box {i : Inboxes} {ecu : EcuNo} {n : Nat} {box : Mailbox Message}
    (hsession : i.inUse.get? ecu = some n) (hbox : i.boxes[n]? = some box) (m : Message) :
    i.post ecu m = { i with boxes := i.boxes.set n (box.post m) } ∧
      i.posting ecu = box.posting := by
  constructor
  · have hmodify : i.boxes.modify n (·.post m) = i.boxes.set n (box.post m) := by
      rw [List.modify_eq_set_getElem?, hbox]
      rfl
    simp only [Inboxes.post, Inboxes.modify, hsession, hmodify]
  · simp [Inboxes.posting, hsession, hbox]

theorem Inboxes.post_of_none {i : Inboxes} {ecu : EcuNo}
    (hnone : (i.inUse.get? ecu).bind (i.boxes[·]?) = none) (m : Message) :
    i.post ecu m = i ∧ i.posting ecu = .gone := by
  constructor
  · cases hsession : i.inUse.get? ecu with
    | none => simp [Inboxes.post, hsession]
    | some n =>
      have hbox : i.boxes[n]? = none := by simpa [hsession] using hnone
      have hmodify : i.boxes.modify n (·.post m) = i.boxes := by
        rw [List.modify_eq_set_getElem?, hbox]
        rfl
      simp only [Inboxes.post, Inboxes.modify, hsession, hmodify]
  · simp [Inboxes.posting, hnone]

/-- The end of a transmission: in time, or given up. -/
theorem World.land_cases {σ : Type} {w w' : World σ} {flight : Flight} {sent : Sent}
    (h : w.land? flight = some (w', sent)) :
    (flight.arrival ≤ flight.limit ∧ flight.arrival ≤ w.now ∧ sent = .ok () ∧
      w' = { w with bus := w.bus.transmit w.now flight.frame }) ∨
    (flight.limit < flight.arrival ∧ flight.limit ≤ w.now ∧ w' = w ∧
      ∃ fault, sent = .error fault) := by
  unfold World.land? Bus.land at h
  split at h
  case isTrue hintime =>
    split at h
    case isTrue hnow =>
      cases h
      exact .inl ⟨hintime, hnow, rfl, rfl⟩
    case isFalse => cases h
  case isFalse hlate =>
    split at h
    case isTrue hnow =>
      cases h
      exact .inr ⟨Nat.lt_of_not_le hlate, hnow, rfl, _, rfl⟩
    case isFalse => cases h

/-- A transmission ends when it is due. -/
theorem World.exists_land {σ : Type} {w : World σ} {flight : Flight} (h : flight.due ≤ w.now) :
    ∃ w' sent, w.land? flight = some (w', sent) := by
  unfold Flight.due at h
  by_cases hintime : flight.arrival ≤ flight.limit
  · have hnow : flight.arrival ≤ w.now := by omega
    simp [World.land?, Bus.land, hintime, hnow]
  · have hnow : flight.limit ≤ w.now := by omega
    simp [World.land?, Bus.land, hintime, hnow]

namespace Gateway

variable {σ : Type}

/-! ## Runs -/

/-- A message that a caller has routed: where it stands, and the turns that it took. -/
structure Submission (σ : Type) where
  errand : Errand
  turns : List (Turn σ) := []

/-- A submission that finds a gateway.  Where it has to wait it takes no turn. -/
def Submission.next (s : Submission σ) (g : Gateway σ) : Submission σ :=
  let found := { g with errand := some s.errand }
  match found.errandStep? with
  | some left => { errand := left.errand.getD s.errand, turns := s.turns ++ [⟨found, left⟩] }
  | none => s

/-- The submission of a message that finds one after the other of some gateways. -/
def submission (m : Message) (w : Nat → Gateway σ) : Nat → Submission σ
  | 0 => { errand := .routing m }
  | i + 1 => (submission m w i).next (w i)

/-- However late it is waited for, every time comes. -/
def TimePasses (w : Nat → Gateway σ) : Prop :=
  ∀ time i, ∃ j, i ≤ j ∧ time ≤ (w j).now

/-! ## Settled at once -/

/-- What a gateway is after a message has found its way at once. -/
theorem errandStep?_of_settled {g : Gateway σ} {m : Message} {w : World σ} {tray : Mailbox Message}
    {d : Delivery} (hg : g.errand = some (.routing m))
    (hpath : Router.path g.routes g.toWorld g.tray m = .settled w tray d) :
    g.errandStep? = some { g with
      toWorld := w
      tray
      stats := g.stats.receive.count d
      errand := some (.ended (.delivered d)) } := by
  simp only [errandStep?, hg, takeUp, hpath]
  rfl

theorem errandStep?_of_route {g : Gateway σ} {m : Message} {f : Forwarding}
    (hg : g.errand = some (.routing m))
    (hpath : Router.path g.routes g.toWorld g.tray m = .forwarding f) :
    g.errandStep? = some { g with
      stats := g.stats.receive
      errand := some (.forwarding f) } := by
  simp only [errandStep?, hg, takeUp, hpath]

/-- A message that finds its way at once takes one of the paths. -/
theorem routed_of_settled {g : Gateway σ} {m : Message} {w : World σ} {tray : Mailbox Message}
    {d : Delivery} (hpath : Router.path g.routes g.toWorld g.tray m = .settled w tray d) :
    Routed m [⟨g, { g with
      toWorld := w
      tray
      stats := g.stats.receive.count d
      errand := some (.ended (.delivered d)) }⟩] d := by
  unfold Router.path at hpath
  split at hpath
  case h_1 fault hid =>
    cases hpath
    exact .malformed hid rfl
  case h_2 index hid =>
    split at hpath
    case h_1 hroute =>
      cases hpath
      refine .unrouted hid ?_ rfl
      intro route hsome
      rw [hroute] at hsome
      cases hsome
    case h_2 route hroute =>
      split at hpath
      case isTrue hempty =>
        cases hpath
        refine .unrouted hid ?_ rfl
        intro route' hsome
        obtain rfl := Option.some.inj (hroute.symm.trans hsome)
        exact List.isEmpty_iff.mp hempty
      case isFalse => cases hpath
  case h_3 ecu code hid =>
    split at hpath
    case isTrue hknown =>
      cases hpath
      have hlt : ecu.toNat < g.registry.records.length := of_decide_eq_true hknown
      exact .command hid (List.getElem?_eq_getElem hlt) (enqueued_post g.tray m .toSupervisor) rfl
    case isFalse hknown =>
      cases hpath
      have hle : g.registry.records.length ≤ ecu.toNat :=
        Nat.le_of_not_lt fun hlt => hknown (decide_eq_true hlt)
      exact .stray hid (List.getElem?_eq_none hle) rfl
  case h_4 ecu code hid =>
    cases hpath
    cases hbox : (g.inboxes.inUse.get? ecu).bind (g.inboxes.boxes[·]?) with
    | none =>
      obtain ⟨hpost, hposting⟩ := Inboxes.post_of_none hbox m
      rw [hpost, hposting]
      exact .noSession hid hbox rfl
    | some box =>
      obtain ⟨n, hsession, hn⟩ := Option.bind_eq_some_iff.mp hbox
      obtain ⟨hpost, hposting⟩ := Inboxes.post_of_box hsession hn m
      rw [hpost, hposting]
      exact .firmware hid hsession hn (enqueued_post box m (.toSession ecu)) rfl

/-! ## Destinations -/

/-- A message on its way when a destination has had its turn. -/
def onItsWay (m : Message) (rest : List EcuNo) (n : Nat) : Forwarding :=
  { id := m.id, payload := m.payload, rest, delivered := n }

theorem visit_of_unknown {w : World σ} {m : Message} {ecu : EcuNo} (timeout : Nat)
    (rest : List EcuNo) (n : Nat) (hrecord : w.registry.get? ecu = none) :
    (onItsWay m rest n).visit w timeout ecu = onItsWay m rest n := by
  simp only [Forwarding.visit, hrecord]

theorem visit_of_refusal {w : World σ} {m : Message} {ecu : EcuNo} {record : EcuRecord}
    {fault : BusFault} (timeout : Nat) (rest : List EcuNo) (n : Nat)
    (hrecord : w.registry.get? ecu = some record)
    (hrefusal : w.bus.refusal ⟨record.interface, m.id.raw, m.payload⟩ = some fault) :
    (onItsWay m rest n).visit w timeout ecu = onItsWay m rest n := by
  simp only [Forwarding.visit, hrecord, World.launch, Bus.launch, Forwarding.frame, onItsWay,
    hrefusal]
  rfl

theorem visit_of_taken {w : World σ} {m : Message} {ecu : EcuNo} {record : EcuRecord}
    (timeout : Nat) (rest : List EcuNo) (n : Nat) (hrecord : w.registry.get? ecu = some record)
    (hrefusal : w.bus.refusal ⟨record.interface, m.id.raw, m.payload⟩ = none) :
    (onItsWay m rest n).visit w timeout ecu = { onItsWay m rest n with flight := some {
      frame := ⟨record.interface, m.id.raw, m.payload⟩
      arrival := w.now + w.bus.latency
      limit := w.now + timeout } } := by
  simp only [Forwarding.visit, hrecord, World.launch, Bus.launch, Forwarding.frame, onItsWay,
    hrefusal]
  rfl

theorem route_of_forwarding {g : Gateway σ} {m : Message} {f : Forwarding}
    (hpath : Router.path g.routes g.toWorld g.tray m = .forwarding f) :
    ∃ index route, m.id.heading = .ok (.data index) ∧ g.routes.lookup index = some route ∧
      route.destinations ≠ [] ∧ f = onItsWay m route.destinations 0 := by
  unfold Router.path at hpath
  split at hpath
  case h_1 => cases hpath
  case h_2 index hid =>
    split at hpath
    case h_1 => cases hpath
    case h_2 route hroute =>
      split at hpath
      case isTrue => cases hpath
      case isFalse hsome =>
        cases hpath
        exact ⟨index, route, hid, hroute, fun hnil => hsome (List.isEmpty_iff.mpr hnil), rfl⟩
  case h_3 => split at hpath <;> cases hpath
  case h_4 => cases hpath

/-- A transmission that is due does not keep a message waiting. -/
theorem exists_errandStep? {g : Gateway σ} {f : Forwarding} (hg : g.errand = some (.forwarding f))
    (hdue : ∀ time, f.due? = some time → time ≤ g.now) : ∃ left, g.errandStep? = some left := by
  simp only [errandStep?, hg, Forwarding.next]
  cases hflight : f.flight with
  | none =>
    cases f.rest with
    | nil => exact ⟨_, rfl⟩
    | cons ecu rest => exact ⟨_, rfl⟩
  | some flight =>
    have hnow : flight.due ≤ g.now := hdue _ (by simp [Forwarding.due?, hflight])
    obtain ⟨w', sent, hland⟩ := World.exists_land (w := g.toWorld) hnow
    simp only [hland]
    exact ⟨_, rfl⟩

variable {w : Nat → Gateway σ}

theorem submission_succ {m : Message} {i : Nat} {s : Submission σ} (h : submission m w i = s) :
    submission m w (i + 1) = s.next (w i) := by
  rw [← h]
  rfl

/-- A message that waits no longer than to some time gets to its next turn. -/
theorem exists_turn (hpasses : TimePasses w) {m : Message} {i : Nat}
    {s : Submission σ} (hs : submission m w i = s)
    (hgoes : ∀ g : Gateway σ, g.errand = some s.errand →
      (∀ time, s.errand.due? = some time → time ≤ g.now) → ∃ left, g.errandStep? = some left) :
    ∃ j, ∃ t : Turn σ, t.found.errand = some s.errand ∧ t.found.errandStep? = some t.left ∧
      submission m w (j + 1) = ⟨t.left.errand.getD s.errand, s.turns ++ [t]⟩ := by
  by_contra hnever
  have hwaits (j : Nat) (hj : submission m w j = s) :
      errandStep? { w j with errand := some s.errand } = none := by
    cases hstep : errandStep? { w j with errand := some s.errand } with
    | none => rfl
    | some left =>
      refine absurd ⟨j, ⟨_, left⟩, rfl, hstep, ?_⟩ hnever
      simp only [submission_succ hj, Submission.next, hstep]
  -- Otherwise it never moves, also not in a gateway that is late enough.
  have hstays (n : Nat) : submission m w (i + n) = s := by
    induction n with
    | zero => exact hs
    | succ n ih =>
      rw [← Nat.add_assoc, submission_succ ih]
      simp only [Submission.next, hwaits (i + n) ih]
  obtain ⟨j, hij, hlate⟩ := hpasses (s.errand.due?.getD 0) i
  obtain ⟨n, rfl⟩ := Nat.exists_eq_add_of_le hij
  have hdue (time : Nat) (htime : s.errand.due? = some time) : time ≤ (w (i + n)).now := by
    simpa [htime] using hlate
  obtain ⟨left, hstep⟩ := hgoes { w (i + n) with errand := some s.errand } rfl hdue
  rw [hwaits (i + n) (hstays n)] at hstep
  cases hstep

/-- A transmission under way comes to its end. -/
theorem exists_landing (hpasses : TimePasses w) {m : Message} {i : Nat}
    {rest : List EcuNo} {n : Nat} {flight : Flight} {turns : List (Turn σ)}
    (hs : submission m w i =
      ⟨.forwarding { onItsWay m rest n with flight := some flight }, turns⟩) :
    ∃ j, ∃ t : Turn σ, ∃ reached : Bool,
      submission m w j = ⟨.forwarding (onItsWay m rest (reached.toNat + n)), turns ++ [t]⟩ ∧
        if reached then flight.arrival ≤ flight.limit ∧ flight.arrival ≤ t.found.now ∧
          t.Transmits flight.frame
        else flight.limit < flight.arrival ∧ flight.limit ≤ t.found.now ∧ t.Idle := by
  obtain ⟨j, t, hfound, hstep, hnext⟩ := exists_turn hpasses hs fun g hg hdue =>
    exists_errandStep? hg hdue
  simp only [errandStep?, hfound, Forwarding.next] at hstep
  cases hland : t.found.land? flight with
  | none => simp [hland] at hstep
  | some landed =>
    obtain ⟨w', sent⟩ := landed
    simp only [hland, Option.some.injEq] at hstep
    rw [← hstep] at hnext
    rcases World.land_cases hland with ⟨hintime, hnow, rfl, rfl⟩ | ⟨hlate, hnow, rfl, fault, rfl⟩
    · refine ⟨j + 1, t, true, ?_, hintime, hnow, _, hstep.symm⟩
      rw [Bool.toNat_true, Nat.add_comm 1 n]
      exact hnext
    · refine ⟨j + 1, t, false, ?_, hlate, hnow, _, hstep.symm⟩
      rw [Bool.toNat_false, Nat.zero_add]
      exact hnext

/-- A destination has its turn. -/
theorem exists_attempt (hpasses : TimePasses w) {m : Message} {i : Nat}
    {ecu : EcuNo} {rest : List EcuNo} {n : Nat} {turns : List (Turn σ)}
    (hs : submission m w i = ⟨.forwarding (onItsWay m (ecu :: rest) n), turns⟩) :
    ∃ j attempted reached, Attempt m ecu attempted reached ∧
      submission m w j =
        ⟨.forwarding (onItsWay m rest (reached.toNat + n)), turns ++ attempted⟩ := by
  obtain ⟨j, t, hfound, hstep, hnext⟩ := exists_turn hpasses hs fun g hg hdue =>
    exists_errandStep? hg hdue
  simp only [errandStep?, hfound, Forwarding.next, onItsWay, Option.some.injEq] at hstep
  have hidle : t.Idle := ⟨_, hstep.symm⟩
  rw [← hstep] at hnext
  have hvisited : submission m w (j + 1) = ⟨.forwarding
      ((onItsWay m rest n).visit t.found.toWorld t.found.sendTimeout ecu), turns ++ [t]⟩ := hnext
  cases hrecord : t.found.registry.get? ecu with
  | none =>
    rw [visit_of_unknown _ rest n hrecord] at hvisited
    refine ⟨j + 1, [t], false, .unknown hrecord hidle, ?_⟩
    rw [Bool.toNat_false, Nat.zero_add]
    exact hvisited
  | some record =>
    cases hrefusal : t.found.bus.refusal ⟨record.interface, m.id.raw, m.payload⟩ with
    | some fault =>
      rw [visit_of_refusal _ rest n hrecord hrefusal] at hvisited
      refine ⟨j + 1, [t], false, .refused hrecord hrefusal hidle, ?_⟩
      rw [Bool.toNat_false, Nat.zero_add]
      exact hvisited
    | none =>
      -- Only here a second turn is needed, at which the transmission ends.
      rw [visit_of_taken _ rest n hrecord hrefusal] at hvisited
      obtain ⟨k, t', reached, hlanded, hend⟩ := exists_landing hpasses hvisited
      rw [List.append_assoc] at hlanded
      cases reached with
      | true =>
        obtain ⟨hfast, htime, hsent⟩ := hend
        exact ⟨k, [t, t'], true, .sent hrecord hrefusal (Nat.le_of_add_le_add_left hfast) hidle
          htime hsent, hlanded⟩
      | false =>
        obtain ⟨hslow, htime, hidle'⟩ := hend
        exact ⟨k, [t, t'], false, .late hrecord hrefusal (Nat.lt_of_add_lt_add_left hslow) hidle
          htime hidle', hlanded⟩

/-- All destinations have their turns, and then the fate of the message is known. -/
theorem exists_attempts (hpasses : TimePasses w) {m : Message} {i : Nat}
    {ecus : List EcuNo} {n : Nat} {turns : List (Turn σ)}
    (hs : submission m w i = ⟨.forwarding (onItsWay m ecus n), turns⟩) :
    ∃ j attempted k last, Attempts m ecus attempted k ∧
      last.Counts (onItsWay m [] (k + n)).outcome ∧
      submission m w j =
        ⟨.ended (.delivered (onItsWay m [] (k + n)).outcome), turns ++ attempted ++ [last]⟩ := by
  induction ecus generalizing i n turns with
  | nil =>
    obtain ⟨j, t, hfound, hstep, hnext⟩ := exists_turn hpasses hs fun g hg hdue =>
      exists_errandStep? hg hdue
    simp only [errandStep?, hfound, Forwarding.next, onItsWay, Option.some.injEq] at hstep
    rw [← hstep] at hnext
    refine ⟨j + 1, [], 0, t, .nil, ?_, ?_⟩
    · rw [Nat.zero_add]
      exact hstep.symm
    · rw [Nat.zero_add, List.append_nil]
      exact hnext
  | cons ecu rest ih =>
    obtain ⟨j, attempted, reached, hfirst, hnext⟩ := exists_attempt hpasses hs
    obtain ⟨j', later, k, last, hrest, hcounts, hend⟩ := ih hnext
    have hk : reached.toNat + k + n = k + (reached.toNat + n) := by omega
    refine ⟨j', attempted ++ later, reached.toNat + k, last, .cons hfirst hrest, ?_, ?_⟩
    · rw [hk]
      exact hcounts
    · rw [hk, hend]
      simp only [List.append_assoc]

/-! ## The result -/

/-- An errand that has ended takes no more turns. -/
theorem Submission.next_of_ended {s : Submission σ} {result : ErrandResult}
    (h : s.errand = .ended result) (g : Gateway σ) : s.next g = s := by
  have hnone : errandStep? { g with errand := some s.errand } = none := by
    simp only [errandStep?, h]
  simp only [Submission.next, hnone]

theorem submission_of_ended {m : Message} {i : Nat} {result : ErrandResult}
    (h : (submission m w i).errand = .ended result) (n : Nat) :
    submission m w (i + n) = submission m w i := by
  induction n with
  | zero => rfl
  | succ n ih =>
    rw [← Nat.add_assoc, submission_succ ih]
    exact Submission.next_of_ended h _

/-- Where a message has gone to destinations, its fate is known by the number of those reached. -/
theorem routed_of_attempts {m : Message} {first last : Turn σ} {turns : List (Turn σ)}
    {index n : Nat} {route : Route} (hid : m.id.heading = .ok (.data index))
    (hroute : first.found.routes.lookup index = some route) (hsome : route.destinations ≠ [])
    (hfirst : first.TakesUp) (hattempts : Attempts m route.destinations turns n)
    (hlast : last.Counts (onItsWay m [] n).outcome) :
    Routed m (first :: turns ++ [last]) (onItsWay m [] n).outcome := by
  cases n with
  | zero => exact .unreached hid hroute hsome hfirst hattempts hlast
  | succ n => exact .forwarded hid hroute hsome hfirst hattempts (Nat.succ_pos n) hlast

theorem exists_routed (hpasses : TimePasses w) (m : Message) :
    ∃ i d, (submission m w i).errand = .ended (.delivered d) ∧
      Routed m (submission m w i).turns d := by
  have hmoves (g : Gateway σ) (hg : g.errand = some (.routing m)) :
      ∃ left, g.errandStep? = some left := by
    cases hpath : Router.path g.routes g.toWorld g.tray m with
    | settled w' tray d => exact ⟨_, errandStep?_of_settled hg hpath⟩
    | forwarding f => exact ⟨_, errandStep?_of_route hg hpath⟩
  obtain ⟨j, t, hfound, hstep, hnext⟩ :=
    exists_turn (i := 0) hpasses (s := ⟨.routing m, []⟩) rfl fun g hg _ => hmoves g hg
  cases hpath : Router.path t.found.routes t.found.toWorld t.found.tray m with
  | settled w' tray d =>
    have hleft := Option.some.inj (hstep.symm.trans (errandStep?_of_settled hfound hpath))
    have hrouted := routed_of_settled hpath
    rw [← hleft] at hrouted
    refine ⟨j + 1, d, ?_, ?_⟩
    · rw [hnext, hleft]
      rfl
    · rw [hnext]
      exact hrouted
  | forwarding f =>
    have hleft := Option.some.inj (hstep.symm.trans (errandStep?_of_route hfound hpath))
    obtain ⟨index, route, hid, hroute, hsome, rfl⟩ := route_of_forwarding hpath
    have hstarted : submission m w (j + 1) =
        ⟨.forwarding (onItsWay m route.destinations 0), [t]⟩ := by
      rw [hnext, hleft]
      rfl
    obtain ⟨k, attempted, n, last, hattempts, hcounts, hend⟩ := exists_attempts hpasses hstarted
    refine ⟨k, _, by rw [hend], ?_⟩
    rw [hend]
    exact routed_of_attempts hid hroute hsome ⟨_, hleft⟩ hattempts hcounts

/-- Every message that is submitted takes one of the paths, whatever it finds at its turns: it comes
to a fate that nothing changes any more; it is counted once when it is taken up, and by the counter
of its fate alone; and it is transmitted, with its own identifier and payload, as often as it
reaches a destination. -/
theorem submission_takes_path (m : Message) (w : Nat → Gateway σ)
    (hpasses : TimePasses w) :
    ∃ i d turns, (∀ n, submission m w (i + n) = ⟨.ended (.delivered d), turns⟩) ∧
      Routed m turns d ∧ (∀ d', Routed m turns d' → d' = d) ∧
      raised (·.received) turns = 1 ∧
      (∀ d', raised (·.number d') turns = if d'.kind = d.kind then 1 else 0) ∧
      (turns.flatMap Turn.frames).length = d.reached ∧
      ∀ f ∈ turns.flatMap Turn.frames, f.id = m.id.raw ∧ f.data = m.payload := by
  obtain ⟨i, d, hend, hrouted⟩ := exists_routed hpasses m
  have hstays (n : Nat) :
      submission m w (i + n) = ⟨.ended (.delivered d), (submission m w i).turns⟩ := by
    rw [submission_of_ended hend n, ← hend]
  have hreceived : raised (·.received) (submission m w i).turns = 1 := by
    have hcount (s : RouterStats) : (s.count d).received = s.received + 0 := s.received_count d
    have hboth := hrouted.raised (·.received) (a := 1) (fun s => rfl) hcount
    simpa using hboth
  have hcounted (d' : Delivery) :
      raised (·.number d') (submission m w i).turns = if d'.kind = d.kind then 1 else 0 := by
    have hboth := hrouted.raised (·.number d') (a := 0) (fun s => s.number_receive d')
      (fun s => s.number_count d d')
    rw [hboth]
    split <;> rfl
  exact ⟨i, d, _, hstays, hrouted, fun d' h => h.unique hrouted, hreceived, hcounted,
    hrouted.frames⟩

/-- A gateway at some time, with a slow bus of one interface.  The only route names an ECU twice,
one that does not exist, and one on an interface that does not exist. -/
def crossroads (now : Nat) : Gateway Unit where
  now
  registry := ⟨[{ protocol := .can, interface := 0 }, { protocol := .can, interface := 1 }]⟩
  bus := { interfaces := 1, latency := 3 }
  storage := ()
  routes := ⟨[{ label := "speed", destinations := [0, 7, 1, 0] }]⟩

/-- Data for the only route of the crossroads. -/
def speed : Message where
  id := ⟨0x01000000⟩
  payload := [1, 2, 3]
  fits := by decide

/-- The data is transmitted twice; the destinations that cannot be reached stop nothing. -/
theorem crossroads_forwards_speed :
    (∀ time i, ∃ j, i ≤ j ∧ time ≤ (crossroads j).now) ∧
    ∃ turns, submission speed crossroads 20 = ⟨.ended (.delivered (.forwarded 2)), turns⟩ ∧
      Routed speed turns (.forwarded 2) ∧ (turns.flatMap Turn.frames).length = 2 ∧
      raised (·.forwarded) turns = 1 := by
  have hpasses (time i : Nat) : ∃ j, i ≤ j ∧ time ≤ (crossroads j).now :=
    ⟨max i time, Nat.le_max_left i time, Nat.le_max_right i time⟩
  refine ⟨hpasses, ?_⟩
  obtain ⟨i, d, turns, hstays, hrouted, -, -, hcounted, hframes, -⟩ :=
    submission_takes_path speed crossroads hpasses
  have hended : (submission speed crossroads 20).errand = .ended (.delivered (.forwarded 2)) := rfl
  have hsame : submission speed crossroads 20 = ⟨.ended (.delivered d), turns⟩ := by
    rw [← submission_of_ended hended i, Nat.add_comm]
    exact hstays 20
  obtain rfl : d = .forwarded 2 := by simpa [hsame] using hended
  exact ⟨turns, hsame, hrouted, hframes, hcounted (.forwarded 0)⟩

/-! ## The router's own messages -/

/-- The router's message after a turn that it took as if it were a caller's. -/
def handBack (errand : Option Errand) (g : Gateway σ) : Gateway σ :=
  { g with
    errand
    forwarding := match g.errand with
      | some (.forwarding f) => some f
      | _ => none }

/-- The router takes a message from its queue up as it does for a caller. -/
theorem carryOn?_of_take {g : Gateway σ} {m : Message} {queue : Mailbox Message}
    (hg : g.forwarding = none) (hqueue : g.queue.take? = some (m, queue)) :
    g.carryOn? =
      (errandStep? { g with queue, errand := some (.routing m) }).map (handBack g.errand) := by
  simp only [carryOn?, errandStep?, takeUp, hg, hqueue, Option.bind_eq_bind, Option.bind_some]
  cases Router.path g.routes g.toWorld g.tray m with
  | settled w tray d => rfl
  | forwarding f => rfl

/-- The router forwards as it does for a caller. -/
theorem carryOn?_of_forwarding {g : Gateway σ} {f : Forwarding} (hg : g.forwarding = some f) :
    g.carryOn? =
      (errandStep? { g with errand := some (.forwarding f) }).map (handBack g.errand) := by
  simp only [carryOn?, hg, errandStep?]
  cases f.next g.toWorld g.sendTimeout with
  | waits => rfl
  | goesOn w f' => rfl
  | ends d => rfl

end Gateway
end VehicleGateway
