import VehicleGateway.Gateway.Step

/-!
# The paths of messages

A message that is routed gets its turn now and then, and between two turns the rest of the gateway
does what it wants: records change, sessions come and go, the bus is lost, others transmit and
count.  So what a message does is said by its turns, each with the gateway that it finds and the one
that it leaves.

* `Attempt` says what may come of one destination, and `Attempts` that the destinations of a list
  have their attempts one after the other, once for each listing.
* `Routed` lists the paths: what the turns of a message have done to the gateways that it found, and
  what is said to have become of it.
* `Routed.raised` says what is counted on a path, and `Routed.frames` what is transmitted.
-/

namespace VehicleGateway

/-! ## Counters -/

/-- A fate without the particulars that are not counted. -/
def Delivery.kind : Delivery → Delivery
  | .forwarded _ => .forwarded 0
  | .toSession _ => .toSession 0
  | d => d

/-- The number of destinations that were reached. -/
def Delivery.reached : Delivery → Nat
  | .forwarded n => n
  | _ => 0

namespace RouterStats

/-- The counter of a fate. -/
def number (s : RouterStats) : Delivery → Nat
  | .forwarded _ => s.forwarded
  | .toSupervisor => s.toSupervisor
  | .toSession _ => s.toSession
  | .dropped .unrouted => s.unrouted
  | .dropped .malformed => s.malformed
  | .dropped .queueFull => s.queueFull
  | .dropped .noSession => s.noSession
  | .dropped .sendFailed => s.sendFailed

theorem number_receive (s : RouterStats) (d : Delivery) : s.receive.number d = s.number d := by
  cases d with
  | dropped r => cases r <;> rfl
  | forwarded | toSupervisor | toSession => rfl

theorem number_drop (s : RouterStats) (r r' : DropReason) :
    (s.drop r).number (.dropped r') = s.number (.dropped r') + if r' = r then 1 else 0 := by
  cases r <;> cases r' <;> rfl

/-- A fate raises its own counter, and no other. -/
theorem number_count (s : RouterStats) (d d' : Delivery) :
    (s.count d).number d' = s.number d' + if d'.kind = d.kind then 1 else 0 := by
  cases d with
  | dropped r =>
    cases d' with
    | dropped r' => simpa [count, Delivery.kind] using s.number_drop r r'
    | forwarded | toSupervisor | toSession => cases r <;> rfl
  | forwarded | toSupervisor | toSession =>
    cases d' with
    | dropped r' => cases r' <;> rfl
    | forwarded | toSupervisor | toSession => rfl

end RouterStats

namespace Gateway

variable {σ : Type}

/-! ## Turns -/

/-- A turn of a message: the gateway that it finds, and the gateway that it leaves. -/
structure Turn (σ : Type) where
  found : Gateway σ
  left : Gateway σ

namespace Turn

/-- A turn that changes nothing but where the message stands. -/
def Idle (t : Turn σ) : Prop :=
  ∃ e, t.left = { t.found with errand := some e }

/-- A turn that transmits a frame. -/
def Transmits (t : Turn σ) (f : Frame) : Prop :=
  ∃ e, t.left = { t.found with bus := t.found.bus.transmit t.found.now f, errand := some e }

/-- A turn at which a message is taken up, and put into a queue at most. -/
def Settles (t : Turn σ) (tray : Mailbox Message) (inboxes : Inboxes) (d : Delivery) : Prop :=
  t.left = { t.found with
    tray, inboxes
    stats := t.found.stats.receive.count d
    errand := some (.ended (.delivered d)) }

/-- A turn at which a message is taken up, and nothing else is done. -/
def TakesUp (t : Turn σ) : Prop :=
  ∃ e, t.left = { t.found with stats := t.found.stats.receive, errand := some e }

/-- A turn at which the fate of a message is counted, and nothing else is done. -/
def Counts (t : Turn σ) (d : Delivery) : Prop :=
  t.left = { t.found with
    stats := t.found.stats.count d
    errand := some (.ended (.delivered d)) }

/-- The frames that a turn transmits. -/
def frames (t : Turn σ) : List Frame :=
  (t.left.bus.record.take (t.left.bus.record.length - t.found.bus.record.length)).map (·.2)

end Turn

/-! ## Paths -/

/-- What may come of a message for a queue: the queue before and after it, and its fate. -/
inductive Enqueued (m : Message) (box : Mailbox Message) (reached : Delivery) :
    Mailbox Message → Delivery → Prop where
  | room (hreader : box.hasReader = true) (hroom : box.items.length < box.depth) :
      Enqueued m box reached { box with items := box.items ++ [m] } reached
  | full (hreader : box.hasReader = true) (hfull : box.depth ≤ box.items.length) :
      Enqueued m box reached box (.dropped .queueFull)
  /-- Nobody takes anything out of the queue any more. -/
  | gone (hreader : box.hasReader = false) : Enqueued m box reached box (.dropped .noSession)

/-- What may come of a destination: the turns that the message takes for it, and whether it is
reached. -/
inductive Attempt (m : Message) (ecu : EcuNo) : List (Turn σ) → Bool → Prop where
  | unknown {t : Turn σ} (hrecord : t.found.registry.get? ecu = none) (hidle : t.Idle) :
      Attempt m ecu [t] false
  | refused {t : Turn σ} {record : EcuRecord} {fault : BusFault}
      (hrecord : t.found.registry.get? ecu = some record)
      (hrefusal : t.found.bus.refusal ⟨record.interface, m.id.raw, m.payload⟩ = some fault)
      (hidle : t.Idle) : Attempt m ecu [t] false
  | sent {t t' : Turn σ} {record : EcuRecord}
      (hrecord : t.found.registry.get? ecu = some record)
      (hrefusal : t.found.bus.refusal ⟨record.interface, m.id.raw, m.payload⟩ = none)
      (hfast : t.found.bus.latency ≤ t.found.sendTimeout) (hidle : t.Idle)
      (htime : t.found.now + t.found.bus.latency ≤ t'.found.now)
      (hsent : t'.Transmits ⟨record.interface, m.id.raw, m.payload⟩) : Attempt m ecu [t, t'] true
  | late {t t' : Turn σ} {record : EcuRecord}
      (hrecord : t.found.registry.get? ecu = some record)
      (hrefusal : t.found.bus.refusal ⟨record.interface, m.id.raw, m.payload⟩ = none)
      (hslow : t.found.sendTimeout < t.found.bus.latency) (hidle : t.Idle)
      (htime : t.found.now + t.found.sendTimeout ≤ t'.found.now)
      (hidle' : t'.Idle) : Attempt m ecu [t, t'] false

/-- The attempts at a list of destinations, with the number of those that are reached. -/
inductive Attempts (m : Message) : List EcuNo → List (Turn σ) → Nat → Prop where
  | nil : Attempts m [] [] 0
  | cons {ecu : EcuNo} {rest : List EcuNo} {turns later : List (Turn σ)} {reached : Bool} {n : Nat}
      (hfirst : Attempt m ecu turns reached) (hrest : Attempts m rest later n) :
      Attempts m (ecu :: rest) (turns ++ later) (reached.toNat + n)

/-- The paths of a message: the turns that it took, and what became of it. -/
inductive Routed (m : Message) : List (Turn σ) → Delivery → Prop where
  | malformed {t : Turn σ} {fault : MessageFault} (hid : m.id.heading = .error fault)
      (hsettles : t.Settles t.found.tray t.found.inboxes (.dropped .malformed)) :
      Routed m [t] (.dropped .malformed)
  | unrouted {t : Turn σ} {index : Nat} (hid : m.id.heading = .ok (.data index))
      (hroute : ∀ route, t.found.routes.lookup index = some route → route.destinations = [])
      (hsettles : t.Settles t.found.tray t.found.inboxes (.dropped .unrouted)) :
      Routed m [t] (.dropped .unrouted)
  | unreached {first last : Turn σ} {turns : List (Turn σ)} {index : Nat} {route : Route}
      (hid : m.id.heading = .ok (.data index))
      (hroute : first.found.routes.lookup index = some route) (hsome : route.destinations ≠ [])
      (hfirst : first.TakesUp) (hattempts : Attempts m route.destinations turns 0)
      (hlast : last.Counts (.dropped .sendFailed)) :
      Routed m (first :: turns ++ [last]) (.dropped .sendFailed)
  | forwarded {first last : Turn σ} {turns : List (Turn σ)} {index n : Nat} {route : Route}
      (hid : m.id.heading = .ok (.data index))
      (hroute : first.found.routes.lookup index = some route) (hsome : route.destinations ≠ [])
      (hfirst : first.TakesUp) (hattempts : Attempts m route.destinations turns n) (hn : 0 < n)
      (hlast : last.Counts (.forwarded n)) : Routed m (first :: turns ++ [last]) (.forwarded n)
  | stray {t : Turn σ} {ecu : EcuNo} {code : UInt8} (hid : m.id.heading = .ok (.command ecu code))
      (hunknown : t.found.registry.get? ecu = none)
      (hsettles : t.Settles t.found.tray t.found.inboxes (.dropped .malformed)) :
      Routed m [t] (.dropped .malformed)
  | command {t : Turn σ} {ecu : EcuNo} {code : UInt8} {record : EcuRecord} {tray : Mailbox Message}
      {d : Delivery} (hid : m.id.heading = .ok (.command ecu code))
      (hknown : t.found.registry.get? ecu = some record)
      (hqueue : Enqueued m t.found.tray .toSupervisor tray d)
      (hsettles : t.Settles tray t.found.inboxes d) : Routed m [t] d
  | noSession {t : Turn σ} {ecu : EcuNo} {code : UInt8}
      (hid : m.id.heading = .ok (.firmware ecu code))
      (hnone : (t.found.inboxes.inUse.get? ecu).bind (t.found.inboxes.boxes[·]?) = none)
      (hsettles : t.Settles t.found.tray t.found.inboxes (.dropped .noSession)) :
      Routed m [t] (.dropped .noSession)
  | firmware {t : Turn σ} {ecu : EcuNo} {code : UInt8} {n : Nat} {box box' : Mailbox Message}
      {d : Delivery} (hid : m.id.heading = .ok (.firmware ecu code))
      (hsession : t.found.inboxes.inUse.get? ecu = some n)
      (hbox : t.found.inboxes.boxes[n]? = some box)
      (hqueue : Enqueued m box (.toSession ecu) box' d)
      (hsettles : t.Settles t.found.tray
        { t.found.inboxes with boxes := t.found.inboxes.boxes.set n box' } d) :
      Routed m [t] d

/-- By how much some turns have raised a counter. -/
def raised (counter : RouterStats → Nat) : List (Turn σ) → Int
  | [] => 0
  | t :: rest => counter t.left.stats - counter t.found.stats + raised counter rest

theorem enqueued_post (box : Mailbox Message) (m : Message) (reached : Delivery) :
    Enqueued m box reached (box.post m) (Router.ofPosting reached box.posting) := by
  cases hreader : box.hasReader with
  | false =>
    have hposting : box.posting = .gone := by simp [Mailbox.posting, hreader]
    simp only [Mailbox.post, hposting]
    exact .gone hreader
  | true =>
    by_cases hroom : box.items.length < box.depth
    · have hposting : box.posting = .queued := by simp [Mailbox.posting, hreader, hroom]
      simp only [Mailbox.post, hposting]
      exact .room hreader hroom
    · have hposting : box.posting = .full := by simp [Mailbox.posting, hreader, hroom]
      simp only [Mailbox.post, hposting]
      exact .full hreader (Nat.le_of_not_lt hroom)

/-! ## What paths have in common -/

theorem Turn.frames_of_same {t : Turn σ} (h : t.left.bus = t.found.bus) : t.frames = [] := by
  simp [Turn.frames, h]

theorem Turn.Transmits.frames {t : Turn σ} {f : Frame} (h : t.Transmits f) : t.frames = [f] := by
  obtain ⟨e, hleft⟩ := h
  simp [Turn.frames, hleft, Bus.transmit]

theorem Turn.Idle.frames {t : Turn σ} (h : t.Idle) : t.frames = [] := by
  obtain ⟨e, hleft⟩ := h
  exact Turn.frames_of_same (by rw [hleft])

theorem Turn.Idle.stats {t : Turn σ} (h : t.Idle) : t.left.stats = t.found.stats := by
  obtain ⟨e, hleft⟩ := h
  rw [hleft]

theorem Turn.Transmits.stats {t : Turn σ} {f : Frame} (h : t.Transmits f) :
    t.left.stats = t.found.stats := by
  obtain ⟨e, hleft⟩ := h
  rw [hleft]

theorem Attempt.frames {m : Message} {ecu : EcuNo} {turns : List (Turn σ)} {reached : Bool}
    (h : Attempt m ecu turns reached) :
    (turns.flatMap Turn.frames).length = reached.toNat ∧
      ∀ f ∈ turns.flatMap Turn.frames, f.id = m.id.raw ∧ f.data = m.payload := by
  cases h with
  | unknown hrecord hidle => simp [hidle.frames]
  | refused hrecord hrefusal hidle => simp [hidle.frames]
  | sent hrecord hrefusal hfast hidle htime hsent => simp [hidle.frames, hsent.frames]
  | late hrecord hrefusal hslow hidle htime hidle' => simp [hidle.frames, hidle'.frames]

/-- Nothing is counted for a single destination. -/
theorem Attempt.stats {m : Message} {ecu : EcuNo} {turns : List (Turn σ)} {reached : Bool}
    (h : Attempt m ecu turns reached) : ∀ t ∈ turns, t.left.stats = t.found.stats := by
  cases h with
  | unknown hrecord hidle => simpa using hidle.stats
  | refused hrecord hrefusal hidle => simpa using hidle.stats
  | sent hrecord hrefusal hfast hidle htime hsent => simpa using ⟨hidle.stats, hsent.stats⟩
  | late hrecord hrefusal hslow hidle htime hidle' => simpa using ⟨hidle.stats, hidle'.stats⟩

/-- As many frames are transmitted as destinations are reached. -/
theorem Attempts.frames {m : Message} {ecus : List EcuNo} {turns : List (Turn σ)} {n : Nat}
    (h : Attempts m ecus turns n) :
    (turns.flatMap Turn.frames).length = n ∧
      ∀ f ∈ turns.flatMap Turn.frames, f.id = m.id.raw ∧ f.data = m.payload := by
  induction h with
  | nil => simp
  | cons hfirst hrest ih =>
    obtain ⟨hlength, hframes⟩ := hfirst.frames
    rw [List.flatMap_append]
    refine ⟨by rw [List.length_append, hlength, ih.1], ?_⟩
    intro f hf
    exact (List.mem_append.mp hf).elim (hframes f) (ih.2 f)

theorem Attempts.stats {m : Message} {ecus : List EcuNo} {turns : List (Turn σ)} {n : Nat}
    (h : Attempts m ecus turns n) : ∀ t ∈ turns, t.left.stats = t.found.stats := by
  induction h with
  | nil => simp
  | cons hfirst hrest ih =>
    intro t ht
    exact (List.mem_append.mp ht).elim (hfirst.stats t) (ih t)

theorem raised_eq_zero {turns : List (Turn σ)} (counter : RouterStats → Nat)
    (h : ∀ t ∈ turns, t.left.stats = t.found.stats) : raised counter turns = 0 := by
  induction turns with
  | nil => rfl
  | cons t rest ih =>
    have hfirst := h t List.mem_cons_self
    have hrest := ih fun t ht => h t (List.mem_cons_of_mem _ ht)
    rw [raised, hrest, hfirst, Int.sub_self, Int.add_zero]

theorem raised_append (counter : RouterStats → Nat) (turns later : List (Turn σ)) :
    raised counter (turns ++ later) = raised counter turns + raised counter later := by
  induction turns with
  | nil => exact (Int.zero_add _).symm
  | cons t rest ih => rw [List.cons_append, raised, raised, ih, Int.add_assoc]

/-- A path is a single turn, or one with which the message is taken up, those of its destinations,
and one with which its fate is known. -/
theorem Routed.shape {m : Message} {turns : List (Turn σ)} {d : Delivery} (h : Routed m turns d) :
    (∃ t tray inboxes, turns = [t] ∧ t.Settles tray inboxes d ∧ d.reached = 0) ∨
    (∃ first between last ecus n, turns = first :: between ++ [last] ∧ first.TakesUp ∧
      Attempts m ecus between n ∧ last.Counts d ∧ d.reached = n) := by
  cases h with
  | malformed hid hsettles => exact .inl ⟨_, _, _, rfl, hsettles, rfl⟩
  | unrouted hid hroute hsettles => exact .inl ⟨_, _, _, rfl, hsettles, rfl⟩
  | unreached hid hroute hsome hfirst hattempts hlast =>
    exact .inr ⟨_, _, _, _, _, rfl, hfirst, hattempts, hlast, rfl⟩
  | forwarded hid hroute hsome hfirst hattempts hn hlast =>
    exact .inr ⟨_, _, _, _, _, rfl, hfirst, hattempts, hlast, rfl⟩
  | stray hid hunknown hsettles => exact .inl ⟨_, _, _, rfl, hsettles, rfl⟩
  | command hid hknown hqueue hsettles =>
    exact .inl ⟨_, _, _, rfl, hsettles, by cases hqueue <;> rfl⟩
  | noSession hid hnone hsettles => exact .inl ⟨_, _, _, rfl, hsettles, rfl⟩
  | firmware hid hsession hbox hqueue hsettles =>
    exact .inl ⟨_, _, _, rfl, hsettles, by cases hqueue <;> rfl⟩

/-- The last turn of a path says what has become of the message. -/
theorem Routed.delivered {m : Message} {turns : List (Turn σ)} {d : Delivery}
    (h : Routed m turns d) :
    ∃ t, turns.getLast? = some t ∧ t.left.errand = some (.ended (.delivered d)) := by
  rcases h.shape with ⟨t, tray, inboxes, rfl, hsettles, -⟩ |
    ⟨first, between, last, ecus, n, rfl, -, -, hlast, -⟩
  · exact ⟨t, rfl, by rw [hsettles]⟩
  · exact ⟨last, List.getLast?_concat, by rw [hlast]⟩

/-- No two things become of a message. -/
theorem Routed.unique {m : Message} {turns : List (Turn σ)} {d d' : Delivery}
    (h : Routed m turns d) (h' : Routed m turns d') : d = d' := by
  obtain ⟨t, hlast, ht⟩ := h.delivered
  obtain ⟨t', hlast', ht'⟩ := h'.delivered
  obtain rfl := Option.some.inj (hlast.symm.trans hlast')
  have hsame := ht.symm.trans ht'
  simpa using hsame

/-- Whichever path a message takes, it is counted once when it is taken up, and its fate once. -/
theorem Routed.raised {m : Message} {turns : List (Turn σ)} {d : Delivery} (h : Routed m turns d)
    (counter : RouterStats → Nat) {a b : Nat} (hreceive : ∀ s, counter s.receive = counter s + a)
    (hcount : ∀ s, counter (s.count d) = counter s + b) :
    Gateway.raised counter turns = a + b := by
  rcases h.shape with ⟨t, tray, inboxes, rfl, hsettles, -⟩ |
    ⟨first, between, last, ecus, n, rfl, ⟨e, hfirst⟩, hattempts, hlast, -⟩
  · have hboth : counter t.left.stats = counter t.found.stats + a + b := by
      rw [hsettles, hcount, hreceive]
    simp only [Gateway.raised]
    omega
  · have hup : counter first.left.stats = counter first.found.stats + a := by
      rw [hfirst, hreceive]
    have hend : counter last.left.stats = counter last.found.stats + b := by rw [hlast, hcount]
    have hbetween := raised_eq_zero counter hattempts.stats
    rw [List.cons_append, Gateway.raised, raised_append, hbetween, Gateway.raised, Gateway.raised]
    omega

/-- A message is transmitted once for each destination that it reaches, and as it came in. -/
theorem Routed.frames {m : Message} {turns : List (Turn σ)} {d : Delivery} (h : Routed m turns d) :
    (turns.flatMap Turn.frames).length = d.reached ∧
      ∀ f ∈ turns.flatMap Turn.frames, f.id = m.id.raw ∧ f.data = m.payload := by
  rcases h.shape with ⟨t, tray, inboxes, rfl, hsettles, hreached⟩ |
    ⟨first, between, last, ecus, n, rfl, ⟨e, hfirst⟩, hattempts, hlast, hreached⟩
  · have hnone : t.frames = [] := Turn.frames_of_same (by rw [hsettles])
    simp [hnone, hreached]
  · have hfirst' : first.frames = [] := Turn.frames_of_same (by rw [hfirst])
    have hlast' : last.frames = [] := Turn.frames_of_same (by rw [hlast])
    have hsame :
        (first :: between ++ [last]).flatMap Turn.frames = between.flatMap Turn.frames := by
      simp [hfirst', hlast']
    rw [hsame, hreached]
    exact hattempts.frames

end Gateway
end VehicleGateway
