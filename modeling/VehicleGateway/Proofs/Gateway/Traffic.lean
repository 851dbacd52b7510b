import VehicleGateway.Proofs.Gateway.Run
import VehicleGateway.Proofs.Router.Submission
import VehicleGateway.Storage.Memory

/-!
# The traffic through the router

Frames come in, callers submit messages, and whoever gets a turn takes it.  `Traffic` is what is
seen of that at the two ends of the router: what it is offered, what it takes out of its queue, and
what leaves it for the supervisor, for the sessions and for the bus.  All of this is read off the
gateways before and after a deed, and not off the router's steps.

* `Ledger` says what an account of the traffic is: one entry for each message that the router is
  done with, and what was seen of the message that it still has in hand.
* `Balanced` is the invariant, with one lemma for each kind of deed that can change the account, and
  `SameRouting` for all others.
* `traffic_balanced`: as long as the receiver and the router run, everything that was offered is
  counted once, waits or is in hand; the messages are handled in their order, and none twice.

Nothing is said of frames that were lost before the receiver looked at them.
-/

namespace VehicleGateway

/-- Something for the router: a frame that the receiver takes, or a message of a caller. -/
inductive Offer where
  | frame (f : Frame)
  | message (m : Message)

/-- The message in an offer, if there is one. -/
def Offer.message? : Offer → Option Message
  | .frame f => (Message.ofFrame f).toOption
  | .message m => some m

/-- What is seen at the two ends of the router. -/
structure Traffic where
  /-- What the router is offered. -/
  offered : List Offer := []
  /-- The messages that it takes out of its queue. -/
  handled : List Message := []
  /-- The messages that it puts into the tray of the supervisor. -/
  trayed : List Message := []
  /-- The messages that it puts into the inboxes of the sessions. -/
  boxed : List Message := []
  /-- The frames that it transmits. -/
  transmitted : List Frame := []

/-- The traffic of two spans of time, one after the other. -/
def Traffic.append (t later : Traffic) : Traffic where
  offered := t.offered ++ later.offered
  handled := t.handled ++ later.handled
  trayed := t.trayed ++ later.trayed
  boxed := t.boxed ++ later.boxed
  transmitted := t.transmitted ++ later.transmitted

theorem Traffic.append_empty (t : Traffic) : t.append {} = t := by
  simp [append]

theorem Traffic.append_assoc (t later last : Traffic) :
    (t.append later).append last = t.append (later.append last) := by
  simp [append]

/-- The messages that are new in the inboxes. -/
def Inboxes.gained (found left : Inboxes) : List Message :=
  (List.range left.boxes.length).flatMap fun n =>
    (left.items n).drop (found.items n).length

/-- Whether a deed lets the receiver and the router run, and gives nobody else a message to
route. -/
def Deed.keepsRouting {σ : Type} : Deed σ → Bool
  | .route _ | .shutdown | .restart _ _ _ => false
  | _ => true

/-- A drop raises the counter of no other fate. -/
theorem RouterStats.number_drop_of_ne (s : RouterStats) (r : DropReason) {d : Delivery}
    (hd : ∀ reason, d ≠ .dropped reason) : (s.drop r).number d = s.number d := by
  cases d with
  | dropped reason => exact absurd rfl (hd reason)
  | forwarded | toSupervisor | toSession => cases r <;> rfl

namespace Gateway

variable {σ : Type}

/-- The frames that wait for the receiver. -/
def pending (g : Gateway σ) : List Frame :=
  (g.arrivals.map (·.frames)).getD []

/-- What is seen of a deed, in the gateways before and after it. -/
def traffic (found left : Gateway σ) : Deed σ → Traffic
  | .move .receiver =>
    { offered := (found.pending.take (found.pending.length - left.pending.length)).map .frame }
  | .submit m => { offered := [.message m] }
  | .move .router =>
    { handled := found.queue.items.take (found.queue.items.length - left.queue.items.length)
      trayed := left.tray.items.drop found.tray.items.length
      boxed := found.inboxes.gained left.inboxes
      transmitted := ((left.bus.record.take
        (left.bus.record.length - found.bus.record.length)).reverse).map (·.2) }
  | _ => {}

/-- What is seen of all that happens. -/
def trafficOf [Storage σ] (c : Config) (g : Gateway σ) : List (Deed σ) → Traffic
  | [] => {}
  | deed :: rest =>
    (g.traffic (g.act c deed) deed).append (trafficOf c (g.act c deed) rest)

/-- The number of messages that the router is busy with. -/
def inHand (g : Gateway σ) : Nat :=
  if g.forwarding.isSome then 1 else 0

end Gateway

/-! ## Accounts -/

/-- The number of destinations that a routing table lists for a message. -/
def RoutingTable.listings (routes : RoutingTable) (m : Message) : Nat :=
  match m.id.heading with
  | .ok (.data index) => ((routes.lookup index).map (·.destinations.length)).getD 0
  | _ => 0

/-- Whether some frames are a message as it came in. -/
def Message.Copies (m : Message) (frames : List Frame) : Prop :=
  ∀ f ∈ frames, f.id = m.id.raw ∧ f.data = m.payload

/-- A message that the router is done with: what became of it, and the frames with it. -/
structure Handling where
  message : Message
  fate : Delivery
  frames : List Frame := []

/-- The frames go with the fate: one for each destination that was reached, and no destination is
reached more often than it is listed. -/
structure Handling.Sound (routes : RoutingTable) (h : Handling) : Prop where
  copies : h.message.Copies h.frames
  reached : h.frames.length = h.fate.reached
  listed : h.fate.reached ≤ routes.listings h.message

/-- A message that the router still has in hand has left the frames `sent` so far. -/
structure Forwarding.Carries (routes : RoutingTable) (f : Forwarding) (m : Message)
    (sent : List Frame) : Prop where
  id : f.id = m.id
  payload : f.payload = m.payload
  copies : m.Copies sent
  delivered : sent.length = f.delivered
  /-- The destinations that are to come, and the one whose turn it is, were not reached yet. -/
  listed : f.delivered + f.rest.length + (if f.flight.isSome then 1 else 0) ≤ routes.listings m
  flight : ∀ flight, f.flight = some flight → m.Copies [flight.frame]

namespace Gateway

variable {σ : Type}

/-- An account of the traffic up to a gateway: the entries of the messages that the router is done
with, and the message that it has in hand, with the frames that it has sent of it. -/
structure Ledger (g : Gateway σ) (t : Traffic) (entries : List Handling)
    (current : Option (Message × List Frame)) : Prop where
  sound : ∀ h ∈ entries, h.Sound g.routes
  handled : t.handled = entries.map (·.message) ++ (current.map (·.1)).toList
  trayed : t.trayed = (entries.filter (·.fate = .toSupervisor)).map (·.message)
  boxed : t.boxed = (entries.filter (·.fate.kind = .toSession 0)).map (·.message)
  transmitted : t.transmitted = entries.flatMap (·.frames) ++ (current.map (·.2)).getD []
  counted : ∀ d, (∀ reason, d ≠ .dropped reason) →
    g.stats.number d = entries.countP (·.fate.kind = d.kind)
  underway : match g.forwarding, current with
    | none, none => True
    | some f, some (m, sent) => f.Carries g.routes m sent
    | _, _ => False

/-- What holds of a gateway whose receiver and router run, and of the traffic up to it. -/
structure Balanced (g : Gateway σ) (t : Traffic) : Prop where
  running : g.halting = false ∧ g.queue.hasReader = true
  /-- Nobody but the router has a message to route. -/
  alone : (∀ m, g.errand ≠ some (.routing m)) ∧ ∀ f, g.errand ≠ some (.forwarding f)
  counted : t.offered.length = g.stats.settled + g.queue.items.length + g.inHand
  order : (t.handled ++ g.queue.items).Sublist (t.offered.filterMap Offer.message?)
  ledger : ∃ entries current, g.Ledger t entries current

/-! ## Other deeds -/

/-- A change that leaves the router and its queue alone, and gives nobody else a message to
route. -/
structure SameRouting (g g' : Gateway σ) : Prop where
  routes : g'.routes = g.routes
  queue : g'.queue = g.queue
  stats : g'.stats = g.stats
  forwarding : g'.forwarding = g.forwarding
  halting : g'.halting = g.halting
  alone : ((∀ m, g.errand ≠ some (.routing m)) ∧ ∀ f, g.errand ≠ some (.forwarding f)) →
    (∀ m, g'.errand ≠ some (.routing m)) ∧ ∀ f, g'.errand ≠ some (.forwarding f)

variable {g g' : Gateway σ} {t : Traffic}

theorem SameRouting.refl (g : Gateway σ) : g.SameRouting g :=
  ⟨rfl, rfl, rfl, rfl, rfl, id⟩

/-- A change that leaves the router alone, and of which nothing is seen, keeps the balance. -/
theorem Balanced.of_same (h : g.Balanced t) (hsame : g.SameRouting g') : g'.Balanced t := by
  obtain ⟨hroutes, hqueue, hstats, hforwarding, hhalting, halone⟩ := hsame
  obtain ⟨entries, current, hledger⟩ := h.ledger
  refine ⟨?_, halone h.alone, ?_, ?_, entries, current, ?_⟩
  · rw [hhalting, hqueue]
    exact h.running
  · rw [inHand, hstats, hqueue, hforwarding]
    exact h.counted
  · rw [hqueue]
    exact h.order
  · obtain ⟨hsound, hhandled, htrayed, hboxed, htransmitted, hcounted, hunderway⟩ := hledger
    refine ⟨?_, hhandled, htrayed, hboxed, htransmitted, ?_, ?_⟩
    · rw [hroutes]
      exact hsound
    · rw [hstats]
      exact hcounted
    · rw [hroutes, hforwarding]
      exact hunderway

/-- A deed that leaves the router alone, and of which nothing is seen, keeps the balance. -/
theorem Balanced.of_unseen (h : g.Balanced t) {deed : Deed σ} (hseen : g.traffic g' deed = {})
    (hsame : g.SameRouting g') : g'.Balanced (t.append (g.traffic g' deed)) := by
  rw [hseen, t.append_empty]
  exact h.of_same hsame

/-- A request is no message to route. -/
theorem sameRouting_request (g : Gateway σ) (ecu : EcuNo) (o : Opcode) :
    g.SameRouting (g.request ecu o) := by
  refine ⟨rfl, rfl, rfl, rfl, rfl, fun _ => ⟨?_, ?_⟩⟩
  · intro m herrand
    simp only [request, Option.some.injEq] at herrand
    split at herrand <;> cases herrand
  · intro f herrand
    simp only [request, Option.some.injEq] at herrand
    split at herrand <;> cases herrand

theorem sameRouting_supervisor [Storage σ] (h : g.supervisorStep? = some g') :
    g.SameRouting g' := by
  cases supervisorStep?_cases h with
  | apply | stop => exact ⟨rfl, rfl, rfl, rfl, rfl, id⟩

theorem sameRouting_heartbeat (h : g.heartbeatStep? = some g') : g.SameRouting g' := by
  cases heartbeatStep?_cases h with
  | goOn | finish | begin => exact ⟨rfl, rfl, rfl, rfl, rfl, id⟩

/-- An errand that is no message to route does not become one. -/
theorem sameRouting_errand (h : g.errandStep? = some g')
    (halone : (∀ m, g.errand ≠ some (.routing m)) ∧ ∀ f, g.errand ≠ some (.forwarding f)) :
    g.SameRouting g' := by
  cases errandStep?_cases h with
  | land | poll | polled =>
    refine ⟨rfl, rfl, rfl, rfl, rfl, fun _ => ⟨?_, ?_⟩⟩ <;> simp [endErrand]
  | settle herrand | setOut herrand => exact absurd herrand (halone.1 _)
  | goOn herrand | finish herrand => exact absurd herrand (halone.2 _)

theorem sameRouting_session [Storage σ] {n : Nat} (h : g.sessionStep? n = some g') :
    g.SameRouting g' := by
  cases sessionStep?_cases h
  exact ⟨rfl, rfl, rfl, rfl, rfl, id⟩

theorem sameRouting_keyCall {n : Nat} (h : g.keyCallStep? n = some g') : g.SameRouting g' := by
  cases keyCallStep?_cases h
  exact ⟨rfl, rfl, rfl, rfl, rfl, id⟩

/-! ## What the router is offered -/

/-- An offer that is turned away is counted. -/
theorem Balanced.turnAway (h : g.Balanced t) (o : Offer) (reason : DropReason) :
    Balanced { g with stats := g.stats.drop reason } (t.append { offered := [o] }) := by
  obtain ⟨entries, current, hledger⟩ := h.ledger
  refine ⟨h.running, h.alone, ?_, ?_, entries, current, ?_⟩
  · have hcounted := h.counted
    have hsettled := g.stats.settled_count (.dropped reason)
    simp only [RouterStats.count] at hsettled
    simp only [Traffic.append, List.length_append, List.length_singleton, hsettled, inHand]
    simp only [inHand] at hcounted
    omega
  · have hmore : (t.offered.filterMap Offer.message?).Sublist
        ((t.offered ++ [o]).filterMap Offer.message?) :=
      (List.sublist_append_left _ _).filterMap _
    simpa [Traffic.append] using h.order.trans hmore
  · obtain ⟨hsound, hhandled, htrayed, hboxed, htransmitted, hcounted, hunderway⟩ := hledger
    refine ⟨hsound, ?_, ?_, ?_, ?_, ?_, hunderway⟩
    · simpa [Traffic.append] using hhandled
    · simpa [Traffic.append] using htrayed
    · simpa [Traffic.append] using hboxed
    · simpa [Traffic.append] using htransmitted
    · intro d hd
      rw [← hcounted d hd]
      exact RouterStats.number_drop_of_ne g.stats reason hd

/-- A message for which there is room waits behind the others. -/
theorem Balanced.enqueue (h : g.Balanced t) {o : Offer} {m : Message} (ho : o.message? = some m)
    (hroom : g.queue.posting = .queued) :
    Balanced { g with queue := g.queue.post m } (t.append { offered := [o] }) := by
  obtain ⟨entries, current, hledger⟩ := h.ledger
  have hitems : (g.queue.post m).items = g.queue.items ++ [m] := by
    rw [Mailbox.items_post, if_pos hroom]
  refine ⟨⟨h.running.1, ?_⟩, h.alone, ?_, ?_, entries, current, ?_⟩
  · simp only [Mailbox.post, hroom]
    exact h.running.2
  · have hcounted := h.counted
    simp only [Traffic.append, hitems, List.length_append, List.length_singleton, inHand]
    simp only [inHand] at hcounted
    omega
  · simp only [Traffic.append, hitems, List.append_nil, List.filterMap_append]
    rw [← List.append_assoc]
    have hlast : [o].filterMap Offer.message? = [m] := by simp [ho]
    rw [hlast]
    exact h.order.append (List.Sublist.refl _)
  · obtain ⟨hsound, hhandled, htrayed, hboxed, htransmitted, hcounted, hunderway⟩ := hledger
    refine ⟨hsound, ?_, ?_, ?_, ?_, hcounted, hunderway⟩
    · simpa [Traffic.append] using hhandled
    · simpa [Traffic.append] using htrayed
    · simpa [Traffic.append] using hboxed
    · simpa [Traffic.append] using htransmitted

/-- A message that is submitted waits or is counted, as the router runs. -/
theorem Balanced.submit (h : g.Balanced t) {o : Offer} {m : Message} (ho : o.message? = some m) :
    Balanced (g.submit m).1 (t.append { offered := [o] }) := by
  unfold Gateway.submit
  cases hposting : g.queue.posting with
  | queued => exact h.enqueue ho hposting
  | full => exact h.turnAway o .queueFull
  | gone =>
    -- The queue has a reader as long as the router runs.
    simp only [Mailbox.posting, h.running.2, Bool.not_true, Bool.false_eq_true, if_false]
      at hposting
    split at hposting <;> cases hposting

/-- A frame that the receiver takes waits as a message, or is counted. -/
theorem Balanced.receive (h : g.Balanced t) (f : Frame) :
    Balanced (g.receive f) (t.append { offered := [.frame f] }) := by
  unfold Gateway.receive
  cases hm : Message.ofFrame f with
  | error fault => exact h.turnAway (.frame f) .malformed
  | ok m =>
    apply h.submit
    simp [Offer.message?, hm, Except.toOption]

theorem arrivals_receive (g : Gateway σ) (f : Frame) : (g.receive f).arrivals = g.arrivals := by
  unfold Gateway.receive
  split
  · rfl
  · unfold Gateway.submit
    split <;> rfl

/-- A step of the receiver keeps the balance. -/
theorem Balanced.receiver (h : g.Balanced t) (hstep : g.receiverStep? = some g') :
    g'.Balanced (t.append (g.traffic g' (.move .receiver))) := by
  simp only [receiverStep?, Option.bind_eq_bind, Option.bind_eq_some_iff] at hstep
  obtain ⟨arrivals, harrivals, ⟨frame, rest⟩, hnext, hg'⟩ := hstep
  have htaken : Balanced { g with arrivals := some rest } t :=
    h.of_same ⟨rfl, rfl, rfl, rfl, rfl, id⟩
  have hpending : g.pending = arrivals.frames := by simp [pending, harrivals]
  unfold Arrivals.next? at hnext
  split at hnext
  case isTrue hmissed =>
    -- A notice takes no frame away.
    obtain ⟨rfl, rfl⟩ := Prod.mk.inj (Option.some.inj hnext)
    obtain rfl := Option.some.inj hg'
    have hnone : Gateway.pending { g with arrivals := some { arrivals with missed := false } } =
        g.pending := by
      rw [hpending]
      rfl
    simpa [traffic, hnone, Traffic.append_empty] using htaken
  case isFalse =>
    split at hnext
    case h_1 => cases hnext
    case h_2 f frames hframes =>
      obtain ⟨rfl, rfl⟩ := Prod.mk.inj (Option.some.inj hnext)
      obtain rfl := Option.some.inj hg'
      have hleft :
          (Gateway.receive { g with arrivals := some { arrivals with frames } } f).pending =
            frames := by
        simp [pending, arrivals_receive]
      have htraffic : g.traffic
          (Gateway.receive { g with arrivals := some { arrivals with frames } } f)
          (.move .receiver) = { offered := [.frame f] } := by
        simp [traffic, hleft, hpending, hframes]
      rw [htraffic]
      exact htaken.receive f

/-! ## What the router does -/

theorem listings_of_route {routes : RoutingTable} {m : Message} {index : Nat} {route : Route}
    (hid : m.id.heading = .ok (.data index)) (hroute : routes.lookup index = some route) :
    routes.listings m = route.destinations.length := by
  simp [RoutingTable.listings, hid, hroute]

theorem flatMap_range_of_one {α : Type} {f : Nat → List α} {n k : Nat} (hk : k < n)
    (hother : ∀ i, i ≠ k → f i = []) : (List.range n).flatMap f = f k := by
  induction n with
  | zero => omega
  | succ n ih =>
    rw [List.range_succ, List.flatMap_append, List.flatMap_singleton]
    by_cases hlast : k = n
    · subst hlast
      have hnone : (List.range k).flatMap f = [] := by
        rw [List.flatMap_eq_nil_iff]
        intro i hi
        exact hother i (Nat.ne_of_lt (List.mem_range.mp hi))
      rw [hnone, List.nil_append]
    · rw [ih (by omega), hother n (Ne.symm hlast), List.append_nil]

theorem gained_self (i : Inboxes) : i.gained i = [] := by
  simp [Inboxes.gained]

/-- An inbox gains the message for which it has room, and no other inbox gains anything. -/
theorem gained_post (i : Inboxes) (ecu : EcuNo) (m : Message) :
    i.gained (i.post ecu m) = if i.posting ecu = .queued then [m] else [] := by
  cases hbox : (i.inUse.get? ecu).bind (i.boxes[·]?) with
  | none =>
    obtain ⟨hpost, hposting⟩ := Inboxes.post_of_none hbox m
    rw [hpost, hposting, gained_self]
    rfl
  | some box =>
    obtain ⟨n, hsession, hn⟩ := Option.bind_eq_some_iff.mp hbox
    obtain ⟨hpost, hposting⟩ := Inboxes.post_of_box hsession hn m
    have hlt : n < i.boxes.length := (List.getElem?_eq_some_iff.mp hn).1
    have hfound : i.items n = box.items := by simp [Inboxes.items, hn]
    have hleft (k : Nat) : Inboxes.items { i with boxes := i.boxes.set n (box.post m) } k =
        if n = k then (box.post m).items else i.items k := by
      unfold Inboxes.items
      by_cases hk : n = k
      · subst hk
        simp [hlt]
      · simp [List.getElem?_set_ne hk, hk]
    rw [hpost, hposting, Inboxes.gained,
      flatMap_range_of_one (k := n) (by simpa using hlt)]
    · rw [hleft n, if_pos rfl, hfound, Mailbox.items_post]
      split <;> simp
    · intro k hk
      rw [hleft k, if_neg (Ne.symm hk), List.drop_length]

/-- A message that finds its way at once goes where its fate says, and nowhere else. -/
theorem seen_of_settled {m : Message} {w : World σ} {tray : Mailbox Message} {d : Delivery}
    (hpath : Router.path g.routes g.toWorld g.tray m = .settled w tray d) :
    tray.items.drop g.tray.items.length = (if d = .toSupervisor then [m] else []) ∧
      g.inboxes.gained w.inboxes = (if d.kind = .toSession 0 then [m] else []) ∧
      w.bus = g.bus ∧ d.reached = 0 := by
  unfold Router.path at hpath
  split at hpath
  case h_1 =>
    cases hpath
    exact ⟨by simp, by simp [gained_self, Delivery.kind], rfl, rfl⟩
  case h_2 =>
    split at hpath
    case h_1 =>
      cases hpath
      exact ⟨by simp, by simp [gained_self, Delivery.kind], rfl, rfl⟩
    case h_2 =>
      split at hpath <;> cases hpath
      exact ⟨by simp, by simp [gained_self, Delivery.kind], rfl, rfl⟩
  case h_3 =>
    split at hpath
    case isTrue =>
      cases hpath
      rw [Mailbox.items_post]
      cases hposting : g.tray.posting <;>
        simp [Router.ofPosting, gained_self, Delivery.kind, Delivery.reached]
    case isFalse =>
      cases hpath
      exact ⟨by simp, by simp [gained_self, Delivery.kind], rfl, rfl⟩
  case h_4 ecu code hid =>
    cases hpath
    rw [gained_post]
    cases hposting : g.inboxes.posting ecu <;>
      simp [Router.ofPosting, Delivery.kind, Delivery.reached]

/-- An entry more in an account. -/
theorem counted_of_settled {stats : RouterStats} {entries : List Handling} (h : Handling)
    (hcounted : ∀ d, (∀ reason, d ≠ .dropped reason) →
      stats.number d = entries.countP (·.fate.kind = d.kind))
    (d : Delivery) (hd : ∀ reason, d ≠ .dropped reason) :
    (stats.count h.fate).number d = (entries ++ [h]).countP (·.fate.kind = d.kind) := by
  rw [RouterStats.number_count, hcounted d hd, List.countP_append, List.countP_singleton]
  by_cases hkind : h.fate.kind = d.kind
  · simp [hkind]
  · simp [hkind, Ne.symm hkind]

theorem hasReader_of_take? {α : Type} {box box' : Mailbox α} {a : α}
    (h : box.take? = some (a, box')) : box'.hasReader = box.hasReader := by
  unfold Mailbox.take? at h
  split at h <;> cases h
  rfl

theorem Ledger.current_eq_none {entries : List Handling}
    {current : Option (Message × List Frame)} (h : g.Ledger t entries current)
    (hfree : g.forwarding = none) : current = none := by
  have hunderway := h.underway
  rw [hfree] at hunderway
  cases current with
  | none => rfl
  | some current => exact hunderway.elim

theorem Ledger.exists_current {entries : List Handling}
    {current : Option (Message × List Frame)} {f : Forwarding} (h : g.Ledger t entries current)
    (hbusy : g.forwarding = some f) :
    ∃ m sent, current = some (m, sent) ∧ f.Carries g.routes m sent := by
  have hunderway := h.underway
  rw [hbusy] at hunderway
  cases current with
  | none => exact hunderway.elim
  | some current => exact ⟨current.1, current.2, rfl, hunderway⟩

/-- A message that the router takes out of its queue, and that finds its way at once. -/
theorem Balanced.settle (h : g.Balanced t) {m : Message} {queue : Mailbox Message}
    (hfree : g.forwarding = none) (htake : g.queue.take? = some (m, queue)) {w : World σ}
    {tray : Mailbox Message} {d : Delivery}
    (hpath : Router.path g.routes g.toWorld g.tray m = .settled w tray d)
    (hg' : g' = { g with
      toWorld := w
      queue
      tray
      stats := g.stats.receive.count d }) :
    g'.Balanced (t.append (g.traffic g' (.move .router))) := by
  subst hg'
  have hitems := Mailbox.items_take? htake
  have hreader : queue.hasReader = true := by
    rw [hasReader_of_take? htake]
    exact h.running.2
  obtain ⟨htray, hboxes, hbus, hreached⟩ := seen_of_settled hpath
  obtain ⟨entries, current, hledger⟩ := h.ledger
  obtain rfl := hledger.current_eq_none hfree
  have htraffic : g.traffic
      { g with toWorld := w, queue, tray, stats := g.stats.receive.count d } (.move .router) =
        { handled := [m]
          trayed := if d = .toSupervisor then [m] else []
          boxed := if d.kind = .toSession 0 then [m] else [] } := by
    simp [traffic, hitems, htray, hboxes, hbus]
  rw [htraffic]
  refine ⟨⟨h.running.1, hreader⟩, h.alone, ?_, ?_, entries ++ [{ message := m, fate := d }], none,
    ?_⟩
  · have hcounted := h.counted
    have hsettled := g.stats.receive.settled_count d
    have hreceive : g.stats.receive.settled = g.stats.settled := rfl
    simp only [inHand, hitems, List.length_cons] at hcounted
    simp only [Traffic.append, List.append_nil, hsettled, hreceive, inHand]
    omega
  · have horder := h.order
    rw [hitems] at horder
    simpa [Traffic.append] using horder
  · obtain ⟨hsound, hhandled, htrayed, hboxed, htransmitted, hcounted, -⟩ := hledger
    constructor
    case sound =>
      intro entry hentry
      rcases List.mem_append.mp hentry with hold | hnew
      · exact hsound entry hold
      · obtain rfl := List.mem_singleton.mp hnew
        refine ⟨?_, hreached.symm, ?_⟩
        · intro f hf
          cases hf
        · rw [hreached]
          exact Nat.zero_le _
    case handled => simp [Traffic.append, hhandled]
    case trayed =>
      by_cases hd : d = .toSupervisor <;> simp [Traffic.append, htrayed, hd]
    case boxed =>
      by_cases hd : d.kind = .toSession 0 <;> simp [Traffic.append, hboxed, hd]
    case transmitted => simpa [Traffic.append] using htransmitted
    case counted =>
      intro d' hd'
      refine counted_of_settled { message := m, fate := d } ?_ d' hd'
      intro d'' hd''
      rw [RouterStats.number_receive]
      exact hcounted d'' hd''
    case underway =>
      simp only [hfree]

/-- A message that the router takes out of its queue, and that has to be transmitted. -/
theorem Balanced.takeUp (h : g.Balanced t) {m : Message} {queue : Mailbox Message}
    (hfree : g.forwarding = none) (htake : g.queue.take? = some (m, queue)) {f : Forwarding}
    (hpath : Router.path g.routes g.toWorld g.tray m = .forwarding f)
    (hg' : g' = { g with queue, stats := g.stats.receive, forwarding := some f }) :
    g'.Balanced (t.append (g.traffic g' (.move .router))) := by
  subst hg'
  have hitems := Mailbox.items_take? htake
  have hreader : queue.hasReader = true := by
    rw [hasReader_of_take? htake]
    exact h.running.2
  obtain ⟨index, route, hid, hroute, -, rfl⟩ := route_of_forwarding hpath
  obtain ⟨entries, current, hledger⟩ := h.ledger
  obtain rfl := hledger.current_eq_none hfree
  have htraffic : g.traffic
      { g with
        queue, stats := g.stats.receive
        forwarding := some (onItsWay m route.destinations 0) } (.move .router) =
        { handled := [m] } := by
    simp [traffic, hitems, gained_self]
  rw [htraffic]
  refine ⟨⟨h.running.1, hreader⟩, h.alone, ?_, ?_, entries, some (m, []), ?_⟩
  · have hcounted := h.counted
    have hreceive : g.stats.receive.settled = g.stats.settled := rfl
    simp only [inHand, hfree, hitems, List.length_cons, Option.isSome_none, Bool.false_eq_true,
      if_false] at hcounted
    simp only [Traffic.append, List.append_nil, hreceive, inHand, Option.isSome_some, if_true]
    omega
  · have horder := h.order
    rw [hitems] at horder
    simpa [Traffic.append] using horder
  · obtain ⟨hsound, hhandled, htrayed, hboxed, htransmitted, hcounted, -⟩ := hledger
    constructor
    case sound => exact hsound
    case handled => simp [Traffic.append, hhandled]
    case trayed => simpa [Traffic.append] using htrayed
    case boxed => simpa [Traffic.append] using hboxed
    case transmitted => simpa [Traffic.append] using htransmitted
    case counted =>
      intro d hd
      rw [RouterStats.number_receive]
      exact hcounted d hd
    case underway =>
      refine ⟨rfl, rfl, ?_, rfl, ?_, ?_⟩
      · intro f hf
        cases hf
      · rw [listings_of_route hid hroute]
        simp [onItsWay]
      · intro flight hflight
        cases hflight

/-- The turn of a destination changes no more than the transmission. -/
theorem visit_keeps (w : World σ) (timeout : Nat) (f : Forwarding) (ecu : EcuNo) :
    f.visit w timeout ecu = { f with flight := (f.visit w timeout ecu).flight } := by
  unfold Forwarding.visit
  split <;> rfl

/-- What is transmitted at the turn of a destination is the message. -/
theorem frame_of_visit {w : World σ} {timeout : Nat} {f : Forwarding} {ecu : EcuNo}
    {flight : Flight} (hfree : f.flight = none)
    (h : (f.visit w timeout ecu).flight = some flight) :
    ∃ interface, flight.frame = f.frame interface := by
  cases hrecord : w.registry.get? ecu with
  | none =>
    simp only [Forwarding.visit, hrecord, hfree] at h
    cases h
  | some record =>
    refine ⟨record.interface, ?_⟩
    simp only [Forwarding.visit, hrecord] at h
    cases hlaunch : w.launch timeout (f.frame record.interface) with
    | error fault =>
      rw [hlaunch] at h
      cases h
    | ok taken =>
      rw [hlaunch] at h
      obtain rfl : taken = flight := by simpa [Except.toOption] using h
      exact Session.frame_of_launch hlaunch

/-- A step on the way of a message in hand, with the frames that it transmits. -/
theorem carries_next {f f' : Forwarding} {w : World σ} {m : Message} {sent : List Frame}
    (h : f.Carries g.routes m sent) (hnext : f.next g.toWorld g.sendTimeout = .goesOn w f') :
    ∃ new, w.inboxes = g.inboxes ∧
      (w.bus.record.take (w.bus.record.length - g.bus.record.length)).reverse.map (·.2) = new ∧
      f'.Carries g.routes m (sent ++ new) := by
  obtain ⟨hid, hpayload, hcopies, hdelivered, hlisted, hflight⟩ := h
  cases Forwarding.next_cases hnext with
  | @lands flight _ landed hflying hland =>
    simp only [hflying, Option.isSome_some, if_true] at hlisted
    rcases World.land_cases hland with ⟨-, -, rfl, rfl⟩ | ⟨-, -, rfl, fault, rfl⟩
    · refine ⟨[flight.frame], rfl, by simp [Bus.transmit], hid, hpayload, ?_, ?_, ?_, ?_⟩
      · intro frame hframe
        rcases List.mem_append.mp hframe with hold | hnew
        · exact hcopies frame hold
        · exact hflight flight hflying frame hnew
      · simp [Forwarding.tally, hdelivered]
      · simp only [Forwarding.tally, Option.isSome_none, Bool.false_eq_true, if_false]
        omega
      · intro flight' hflight'
        cases hflight'
    · refine ⟨[], rfl, by simp, hid, hpayload, ?_, ?_, ?_, ?_⟩
      · simpa using hcopies
      · simpa [Forwarding.tally] using hdelivered
      · simp only [Forwarding.tally, Option.isSome_none, Bool.false_eq_true, if_false]
        omega
      · intro flight' hflight'
        cases hflight'
  | @visits ecu rest hflying hrest =>
    simp only [hflying, Option.isSome_none, Bool.false_eq_true, if_false] at hlisted
    rw [hrest, List.length_cons] at hlisted
    refine ⟨[], rfl, by simp, ?_⟩
    rw [List.append_nil]
    refine ⟨?_, ?_, hcopies, ?_, ?_, ?_⟩
    · rw [visit_keeps]
      exact hid
    · rw [visit_keeps]
      exact hpayload
    · rw [visit_keeps]
      exact hdelivered
    · rw [visit_keeps]
      dsimp only
      split <;> omega
    · intro flight hflight'
      have hnone : Forwarding.flight { f with rest } = none := hflying
      obtain ⟨interface, hframe⟩ := frame_of_visit hnone hflight'
      intro frame hmem
      obtain rfl := List.mem_singleton.mp hmem
      rw [hframe]
      exact ⟨congrArg Identifier.raw hid, hpayload⟩

/-- The message in hand goes on. -/
theorem Balanced.carryOn (h : g.Balanced t) {f f' : Forwarding} {w : World σ}
    (hbusy : g.forwarding = some f) (hnext : f.next g.toWorld g.sendTimeout = .goesOn w f')
    (hg' : g' = { g with toWorld := w, forwarding := some f' }) :
    g'.Balanced (t.append (g.traffic g' (.move .router))) := by
  subst hg'
  obtain ⟨entries, current, hledger⟩ := h.ledger
  obtain ⟨m, sent, rfl, hcarries⟩ := hledger.exists_current hbusy
  obtain ⟨new, hinboxes, hnew, hcarries'⟩ := carries_next hcarries hnext
  have htraffic : g.traffic { g with toWorld := w, forwarding := some f' } (.move .router) =
      { transmitted := new } := by
    simp [traffic, hinboxes, gained_self, ← hnew]
  rw [htraffic]
  refine ⟨h.running, h.alone, ?_, ?_, entries, some (m, sent ++ new), ?_⟩
  · have hcounted := h.counted
    simpa [Traffic.append, inHand, hbusy] using hcounted
  · simpa [Traffic.append] using h.order
  · obtain ⟨hsound, hhandled, htrayed, hboxed, htransmitted, hcounted, -⟩ := hledger
    refine ⟨hsound, ?_, ?_, ?_, ?_, hcounted, hcarries'⟩
    · simpa [Traffic.append] using hhandled
    · simpa [Traffic.append] using htrayed
    · simpa [Traffic.append] using hboxed
    · simp [Traffic.append, htransmitted]

/-- The fate of the message in hand is known. -/
theorem Balanced.finish (h : g.Balanced t) {f : Forwarding} {d : Delivery}
    (hbusy : g.forwarding = some f) (hnext : f.next g.toWorld g.sendTimeout = .ends d)
    (hg' : g' = { g with stats := g.stats.count d, forwarding := none }) :
    g'.Balanced (t.append (g.traffic g' (.move .router))) := by
  subst hg'
  obtain ⟨entries, current, hledger⟩ := h.ledger
  obtain ⟨m, sent, rfl, hcarries⟩ := hledger.exists_current hbusy
  have hd : d = f.outcome := by
    unfold Forwarding.next at hnext
    split at hnext
    · split at hnext <;> cases hnext
    · split at hnext <;> cases hnext
      rfl
  have hreached : d.reached = f.delivered := by
    rw [hd, Forwarding.outcome]
    split
    case isTrue hzero => exact hzero.symm
    case isFalse => rfl
  have hkind : d.kind = .forwarded 0 ∨ d = .dropped .sendFailed := by
    rw [hd, Forwarding.outcome]
    split
    case isTrue => exact .inr rfl
    case isFalse => exact .inl rfl
  have htray : d ≠ .toSupervisor := by
    rintro rfl
    rcases hkind with hkind | hkind <;> cases hkind
  have hbox : d.kind ≠ .toSession 0 := by
    rcases hkind with hkind | rfl
    · simp [hkind]
    · simp [Delivery.kind]
  have htraffic : g.traffic { g with stats := g.stats.count d, forwarding := none }
      (.move .router) = {} := by
    simp [traffic, gained_self]
  rw [htraffic, Traffic.append_empty]
  refine ⟨h.running, h.alone, ?_, h.order,
    entries ++ [{ message := m, fate := d, frames := sent }], none, ?_⟩
  · have hcounted := h.counted
    have hsettled := g.stats.settled_count d
    simp only [inHand, hbusy, Option.isSome_some, if_true] at hcounted
    simp only [hsettled, inHand, Option.isSome_none, Bool.false_eq_true, if_false]
    omega
  · obtain ⟨hsound, hhandled, htrayed, hboxed, htransmitted, hcounted, -⟩ := hledger
    constructor
    case sound =>
      intro entry hentry
      rcases List.mem_append.mp hentry with hold | hnew
      · exact hsound entry hold
      · obtain rfl := List.mem_singleton.mp hnew
        have hlisted : f.delivered ≤ g.routes.listings m :=
          Nat.le_trans (Nat.le_trans (Nat.le_add_right _ _) (Nat.le_add_right _ _)) hcarries.listed
        refine ⟨hcarries.copies, ?_, ?_⟩
        · rw [hreached]
          exact hcarries.delivered
        · rw [hreached]
          exact hlisted
    case handled => simpa using hhandled
    case trayed => simpa [htray] using htrayed
    case boxed => simpa [hbox] using hboxed
    case transmitted => simpa using htransmitted
    case counted =>
      exact counted_of_settled { message := m, fate := d, frames := sent } hcounted
    case underway => trivial

/-- A step of the router keeps the balance. -/
theorem Balanced.router (h : g.Balanced t) (hstep : g.routerStep? = some g') :
    g'.Balanced (t.append (g.traffic g' (.move .router))) := by
  unfold routerStep? at hstep
  rw [h.running.1] at hstep
  simp only [Bool.false_eq_true, if_false, carryOn?] at hstep
  cases hforwarding : g.forwarding with
  | some f =>
    simp only [hforwarding] at hstep
    cases hnext : f.next g.toWorld g.sendTimeout with
    | waits => simp [hnext] at hstep
    | goesOn w f' =>
      simp only [hnext, Option.some.injEq] at hstep
      exact h.carryOn hforwarding hnext hstep.symm
    | ends d =>
      simp only [hnext, Option.some.injEq] at hstep
      exact h.finish hforwarding hnext hstep.symm
  | none =>
    simp only [hforwarding, Option.bind_eq_bind, Option.bind_eq_some_iff] at hstep
    obtain ⟨⟨m, queue⟩, htake, hg'⟩ := hstep
    unfold Gateway.takeUp at hg'
    cases hpath : Router.path g.routes g.toWorld g.tray m with
    | settled w tray d =>
      simp only [hpath, Option.some.injEq] at hg'
      refine h.settle hforwarding htake hpath ?_
      rw [← hg', hforwarding]
      rfl
    | forwarding f =>
      simp only [hpath, Option.some.injEq] at hg'
      exact h.takeUp hforwarding htake hpath hg'.symm

/-! ## Runs -/

variable [Storage σ] {c : Config}

/-- Whatever happens keeps the balance, as long as the receiver and the router run. -/
theorem Balanced.act (h : g.Balanced t) (deed : Deed σ) (hkeeps : deed.keepsRouting = true) :
    (g.act c deed).Balanced (t.append (g.traffic (g.act c deed) deed)) := by
  have hacts := acts_act c g deed
  generalize g.act c deed = g' at hacts ⊢
  cases hacts with
  | @waits p =>
    -- Nothing is seen of a part that has to wait.
    have hnothing : g.traffic g (.move p) = {} := by
      cases p <;> simp [traffic, gained_self]
    rw [hnothing, Traffic.append_empty]
    exact h
  | @move p _ hstep =>
    cases p with
    | receiver => exact h.receiver hstep
    | router => exact h.router hstep
    | supervisor => exact h.of_unseen rfl (sameRouting_supervisor hstep)
    | heartbeat => exact h.of_unseen rfl (sameRouting_heartbeat hstep)
    | errand => exact h.of_unseen rfl (sameRouting_errand hstep h.alone)
    | session n => exact h.of_unseen rfl (sameRouting_session hstep)
    | keyCall n => exact h.of_unseen rfl (sameRouting_keyCall hstep)
  | submit m => exact h.submit rfl
  | refused | keyless => exact h.of_unseen rfl (SameRouting.refl g)
  | request ecu o => exact h.of_unseen rfl (sameRouting_request g ecu o)
  | poll =>
    refine h.of_unseen rfl ⟨rfl, rfl, rfl, rfl, rfl, fun _ => ⟨?_, ?_⟩⟩ <;> simp [Gateway.poll]
  | inject | start | accept | callKeys | clock | others =>
    exact h.of_unseen rfl ⟨rfl, rfl, rfl, rfl, rfl, id⟩
  | route | shutdown | restart | misconfigured => cases hkeeps

theorem Balanced.run (deeds : List (Deed σ)) (h : g.Balanced t)
    (hkeeps : ∀ deed ∈ deeds, deed.keepsRouting = true) :
    (g.run c deeds).Balanced (t.append (g.trafficOf c deeds)) := by
  induction deeds generalizing g t with
  | nil =>
    rw [trafficOf, t.append_empty]
    exact h
  | cons deed rest ih =>
    have hnext := h.act (c := c) deed (hkeeps deed List.mem_cons_self)
    rw [trafficOf, ← Traffic.append_assoc]
    exact ih hnext fun later hlater => hkeeps later (List.mem_cons_of_mem _ hlater)

/-- A gateway that was just started has seen no traffic. -/
theorem balanced_start {now : Nat} {bus : Bus} {storage : σ} {keys : Option Vault}
    (h : Gateway.start c now bus storage keys = .ok g) : g.Balanced {} := by
  unfold Gateway.start at h
  split at h
  case h_1 => cases h
  case h_2 => cases h
  case h_3 =>
    obtain rfl := Except.ok.inj h
    refine ⟨⟨rfl, rfl⟩, ⟨?_, ?_⟩, rfl, List.Sublist.refl _, [], none, ?_⟩
    · intro m herrand
      cases herrand
    · intro f herrand
      cases herrand
    · refine ⟨?_, rfl, rfl, rfl, rfl, ?_, trivial⟩
      · intro entry hentry
        cases hentry
      · intro d hd
        cases d with
        | dropped reason => exact absurd rfl (hd reason)
        | forwarded | toSupervisor | toSession => rfl

omit [Storage σ] in
/-- What is counted for the supervisor and for the sessions was put there. -/
theorem Ledger.received {entries : List Handling} {current : Option (Message × List Frame)}
    (h : g.Ledger t entries current) :
    g.stats.toSupervisor = t.trayed.length ∧ g.stats.toSession = t.boxed.length := by
  constructor
  · have hcounted := h.counted .toSupervisor (by simp)
    rw [h.trayed, List.length_map, ← List.countP_eq_length_filter]
    refine hcounted.trans (List.countP_congr ?_)
    intro entry _
    cases entry.fate <;> simp [Delivery.kind]
  · have hcounted := h.counted (.toSession 0) (by simp)
    rw [h.boxed, List.length_map, ← List.countP_eq_length_filter]
    exact hcounted

/-- Whatever comes in, and whoever takes turns with the receiver and the router: everything that the
router was offered is counted once, waits for it, or is in its hand.  What it has handled, followed
by what waits, are messages that it was offered, in the same order.  And there is an account of all
that left it, in which each message that it is done with stands once. -/
theorem traffic_balanced {now : Nat} {bus : Bus} {storage : σ} {keys : Option Vault}
    (hstart : Gateway.start c now bus storage keys = .ok g) (deeds : List (Deed σ))
    (hkeeps : ∀ deed ∈ deeds, deed.keepsRouting = true) :
    (g.trafficOf c deeds).offered.length =
        (g.run c deeds).stats.forwarded + (g.run c deeds).stats.toSupervisor +
          (g.run c deeds).stats.toSession + (g.run c deeds).stats.dropped +
          (g.run c deeds).queue.items.length + (g.run c deeds).inHand ∧
      ((g.trafficOf c deeds).handled ++ (g.run c deeds).queue.items).Sublist
        ((g.trafficOf c deeds).offered.filterMap Offer.message?) ∧
      (g.run c deeds).stats.toSupervisor = (g.trafficOf c deeds).trayed.length ∧
      (g.run c deeds).stats.toSession = (g.trafficOf c deeds).boxed.length ∧
      ∃ entries current, (g.run c deeds).Ledger (g.trafficOf c deeds) entries current := by
  have hbalanced := (balanced_start hstart).run (c := c) deeds hkeeps
  have hempty : Traffic.append {} (g.trafficOf c deeds) = g.trafficOf c deeds := by
    simp [Traffic.append]
  rw [hempty] at hbalanced
  obtain ⟨entries, current, hledger⟩ := hbalanced.ledger
  obtain ⟨htrayed, hboxed⟩ := hledger.received
  exact ⟨hbalanced.counted, hbalanced.order, htrayed, hboxed, entries, current, hledger⟩

/-- A configuration with two ECUs, and a route to both of them. -/
def routedConfig : Config :=
  { ecus := [{ protocol := .can, interface := 0 }, { protocol := .can, interface := 1 }]
    routes := [{ index := 0, label := "speed", destinations := [0, 1] }] }

/-- A frame comes in twice and is taken, a caller submits the same data, a frame of no category is
taken, and the router has transmitted the first message to one of its destinations. -/
def speedDeeds : List (Deed Memory) :=
  [.inject ⟨0, 0x01000000, [1, 2, 3]⟩, .inject ⟨0, 0x01000000, [1, 2, 3]⟩, .move .receiver,
    .submit speed, .inject ⟨0, 0, []⟩, .move .receiver, .move .receiver, .move .router,
    .move .router, .move .router]

/-- What is shown after that: the numbers of offers, of frames that were transmitted, of messages
that went nowhere, of those that wait, and of those in hand. -/
def speedShown : Option (Nat × Nat × Nat × Nat × Nat) :=
  match Gateway.start routedConfig 0 { interfaces := 4 } ({} : Memory) none with
  | .ok g =>
    let g' := g.run routedConfig speedDeeds
    let t := g.trafficOf routedConfig speedDeeds
    some (t.offered.length, t.transmitted.length, g'.stats.dropped, g'.queue.items.length,
      g'.inHand)
  | .error _ => none

/-- Of four offers one is counted as dropped, two wait, and one was sent to an ECU and is still in
hand.  So no other counter has moved. -/
theorem speed_balanced :
    ∃ g, Gateway.start routedConfig 0 { interfaces := 4 } ({} : Memory) none = .ok g ∧
      (∀ deed ∈ speedDeeds, deed.keepsRouting = true) ∧
      (g.trafficOf routedConfig speedDeeds).offered.length = 4 ∧
      (g.trafficOf routedConfig speedDeeds).transmitted.length = 1 ∧
      (g.run routedConfig speedDeeds).stats.forwarded = 0 ∧
      (g.run routedConfig speedDeeds).stats.toSupervisor = 0 ∧
      (g.run routedConfig speedDeeds).stats.toSession = 0 := by
  have hshown : speedShown = some (4, 1, 1, 2, 1) := by decide +kernel
  unfold speedShown at hshown
  split at hshown
  case h_2 => cases hshown
  case h_1 g hstart =>
    simp only [Option.some.injEq, Prod.mk.injEq] at hshown
    obtain ⟨hoffered, htransmitted, hdropped, hwaiting, hhand⟩ := hshown
    have hkeeps : ∀ deed ∈ speedDeeds, deed.keepsRouting = true := by
      simp [speedDeeds, Deed.keepsRouting]
    obtain ⟨hcounted, -⟩ := traffic_balanced hstart speedDeeds hkeeps
    rw [hoffered, hdropped, hwaiting, hhand] at hcounted
    refine ⟨g, hstart, hkeeps, hoffered, htransmitted, ?_, ?_, ?_⟩ <;> omega

end Gateway
end VehicleGateway
