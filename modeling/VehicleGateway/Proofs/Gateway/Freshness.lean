import VehicleGateway.Proofs.Gateway.Outcomes

/-!
# The frame that an answer is taken for

An answer does not say which frame it answers.  A session takes the oldest answer in its inbox for
one to the frame that it has sent last, and nothing empties the inbox when a frame is sent.

* `entries` are the messages in an inbox, each with the moment at which it was put there.
* `Move.Transmits` and `Move.Accepts` are the steps with which a frame is on the bus, and with which
  a session is content with an answer.
* `Waits` says what a session has done since it has transmitted a frame, and `Answered` since it has
  accepted an answer; `paced_moment` says that a session that goes on has one of the two behind it.
* `answer_fresh_iff` is the result: an accepted answer has come after the frame that it is taken for
  exactly if no answer was in the inbox when that frame was transmitted.
-/

namespace VehicleGateway

open UpdateEvent (frames replies)

/-! ## Inboxes -/

namespace Inboxes

variable {i i' : Inboxes} {n : Nat} {m : Message}

/-- A message that is posted is put at the end of an inbox, or is lost. -/
theorem items_post (i : Inboxes) (ecu : EcuNo) (m : Message) (n : Nat) :
    (i.post ecu m).items n = i.items n ∨ (i.post ecu m).items n = i.items n ++ [m] := by
  unfold post
  cases hused : i.inUse.get? ecu with
  | none => exact .inl rfl
  | some k =>
    simp only [items, modify, List.getElem?_modify]
    cases hbox : i.boxes[n]? with
    | none => exact .inl rfl
    | some box =>
      by_cases hk : k = n
      · simp only [hk, if_true, Option.map_eq_map, Option.map_some, Mailbox.items_post]
        by_cases hroom : box.posting = .queued
        · exact .inr (if_pos hroom)
        · exact .inl (if_neg hroom)
      · simp [hk]

/-- The other inboxes stay as they are when a message is taken out of one. -/
theorem items_take?_of_ne {k : Nat} (h : i.take? n = some (m, i')) (hk : n ≠ k) :
    i'.items k = i.items k := by
  simp only [take?, Option.bind_eq_bind, Option.bind_eq_some_iff] at h
  obtain ⟨box, -, ⟨a, box'⟩, -, hnext⟩ := h
  cases hnext
  simp only [items, modify, List.getElem?_modify, if_neg hk]
  cases i.boxes[k]? <;> rfl

/-- A new inbox is empty. -/
theorem items_concat (i : Inboxes) (depth : Nat) (inUse : Dictionary EcuNo Nat) (n : Nat) :
    Inboxes.items { boxes := i.boxes ++ [{ depth }], inUse } n = i.items n := by
  unfold items
  dsimp only
  rcases Nat.lt_trichotomy n i.boxes.length with hlt | rfl | hgt
  · rw [List.getElem?_append_left hlt]
  · simp
  · simp only [List.getElem?_eq_none (Nat.le_of_lt hgt)]
    rw [List.getElem?_eq_none (by simpa using Nat.succ_le_of_lt hgt)]

end Inboxes

/-! ## Steps of a session -/

namespace Move

variable {σ : Type}

/-- At a step a frame is put on the bus. -/
def Transmits (m : Move σ) (frame : UpdateFrame) : Prop :=
  ∃ payload, m.session.dialogue.phase = .sending frame payload ∧
    m.transmitted = [m.session.frame frame.code payload]

/-- At a step a message is taken out of the inbox for an answer to a frame, and it is one with which
the session goes on. -/
structure Accepts (m : Move σ) (frame : UpdateFrame) (answer : Message) : Prop where
  awaiting : m.session.dialogue.phase = .awaiting frame
  taken : m.before.inboxes.items m.session.inbox =
    answer :: m.after.inboxes.items m.session.inbox
  answer : Session.isAnswer answer = true
  goesOn : ∀ fault, m.next.dialogue.result? ≠ some (.error fault)

/-- The frame that a step puts on the bus. -/
def sent? (m : Move σ) : Option UpdateFrame :=
  match m.session.dialogue.phase with
  | .sending frame payload =>
    if m.transmitted = [m.session.frame frame.code payload] then some frame else none
  | _ => none

theorem sent?_eq_some_iff {m : Move σ} {frame : UpdateFrame} :
    m.sent? = some frame ↔ m.Transmits frame := by
  unfold sent? Transmits
  split
  case h_1 given payload hphase =>
    rw [hphase, Option.ite_none_right_eq_some, Option.some.injEq]
    constructor
    · rintro ⟨hsent, rfl⟩
      exact ⟨payload, rfl, hsent⟩
    · rintro ⟨payload', hsame, hsent⟩
      obtain ⟨rfl, rfl⟩ := DialoguePhase.sending.inj hsame
      exact ⟨hsent, rfl⟩
  case h_2 hother =>
    refine ⟨by simp, ?_⟩
    rintro ⟨payload, hphase, -⟩
    exact absurd hphase (hother frame payload)

instance (m : Move σ) (frame : UpdateFrame) : Decidable (m.Transmits frame) :=
  decidable_of_iff _ sent?_eq_some_iff

/-- The answer that a step accepts, and the frame that it is taken to answer. -/
def accepted? (m : Move σ) : Option (UpdateFrame × Message) :=
  match m.session.dialogue.phase, m.before.inboxes.items m.session.inbox,
      m.next.dialogue.result? with
  | .awaiting _, _, some (.error _) => none
  | .awaiting frame, answer :: rest, _ =>
    if rest = m.after.inboxes.items m.session.inbox ∧ Session.isAnswer answer then
      some (frame, answer)
    else none
  | _, _, _ => none

theorem accepted?_eq_some_iff {m : Move σ} {frame : UpdateFrame} {answer : Message} :
    m.accepted? = some (frame, answer) ↔ m.Accepts frame answer := by
  constructor
  · intro h
    unfold accepted? at h
    split at h
    case h_1 | h_3 => cases h
    case h_2 given first rest result hphase hitems hgoes =>
      obtain ⟨⟨hrest, hanswer⟩, hsame⟩ := Option.ite_none_right_eq_some.mp h
      obtain ⟨rfl, rfl⟩ := Prod.mk.inj (Option.some.inj hsame)
      exact ⟨hphase, by rw [hitems, hrest], hanswer, fun fault hfault => hgoes fault hfault⟩
  · rintro ⟨hphase, htaken, hanswer, hgoes⟩
    unfold accepted?
    rw [hphase, htaken]
    split
    case h_1 hfault => exact absurd hfault (hgoes _)
    case h_2 hform hitems _ =>
      obtain rfl := DialoguePhase.awaiting.inj hform
      obtain ⟨rfl, rfl⟩ := List.cons.inj hitems
      rw [if_pos ⟨rfl, hanswer⟩]
    case h_3 hother _ => exact (hother _ _ _ rfl rfl).elim

instance (m : Move σ) (frame : UpdateFrame) (answer : Message) :
    Decidable (m.Accepts frame answer) :=
  decidable_of_iff _ accepted?_eq_some_iff

/-- What is taken out of the inbox and is not seen is no answer. -/
theorem isAnswer_of_unseen {m : Move σ} {a : Message} (h : m.consumed = [])
    (htaken : m.before.inboxes.items m.session.inbox =
      a :: m.after.inboxes.items m.session.inbox) : Session.isAnswer a = false := by
  rw [consumed_of_cons htaken] at h
  cases hanswer : Session.isAnswer a with
  | false => rfl
  | true => simp [hanswer] at h

/-- What is seen of the inbox is an answer, and the oldest message. -/
theorem exists_of_consumed {m : Move σ} {payload : Bytes} (h : m.consumed = [payload])
    (htakes : m.after.inboxes.items m.session.inbox = m.before.inboxes.items m.session.inbox ∨
      ∃ a, m.before.inboxes.items m.session.inbox = a :: m.after.inboxes.items m.session.inbox) :
    ∃ a, m.before.inboxes.items m.session.inbox = a :: m.after.inboxes.items m.session.inbox ∧
      Session.isAnswer a = true := by
  rcases htakes with hsame | ⟨a, htaken⟩
  · rw [consumed_of_items_eq hsame] at h
    cases h
  · refine ⟨a, htaken, ?_⟩
    rw [consumed_of_cons htaken] at h
    by_contra hanswer
    rw [if_neg hanswer] at h
    cases h

/-- The answers among what is seen of a step. -/
theorem replies_events [Storage σ] (m : Move σ) : replies m.events = m.consumed := by
  have hframes : replies (m.transmitted.map .frame) = [] := by
    simp [replies, List.filterMap_map]
  have hsilence : replies (if m.givesUp then [.silence] else []) = [] := by
    split <;> rfl
  simp only [replies] at hframes hsilence ⊢
  simp [events, hsilence, hframes, List.filterMap_map]

end Move

namespace Dialogue

variable {d d' : Dialogue} {t : Tiding}

/-- A dialogue goes on after an answer, or has succeeded with the last one. -/
def Content (d : Dialogue) : Prop :=
  match d.phase with
  | .reading | .encrypting _ _ | .ended (.ok ()) => True
  | .sending frame _ => frame ≠ .reset
  | _ => False

theorem Content.not_error (h : d.Content) (fault : UpdateFault) :
    d.result? ≠ some (.error fault) := by
  unfold Content at h
  unfold result?
  split
  case h_1 result hphase =>
    intro hresult
    obtain rfl := Option.some.inj hresult
    simp [hphase] at h
  case h_2 => simp

theorem awaiting_ne_proceed (d : Dialogue) (frame frame' : UpdateFrame) :
    (d.proceed frame).phase ≠ .awaiting frame' := by
  cases frame with
  | chunk used =>
    unfold proceed
    dsimp only
    split <;> simp [sendFinish, sendByte]
  | _ => simp [proceed, sendOpening, sendByte, close]

/-- A dialogue that hears an answer does not wait for it any more. -/
theorem awaiting_ne_answer (d : Dialogue) (frame frame' : UpdateFrame) (payload : Bytes) :
    (d.answer frame payload).phase ≠ .awaiting frame' := by
  unfold answer accept
  split_ifs
  · simp [fail, close]
  · simp [fail, close]
  · exact awaiting_ne_proceed _ _ _
  · exact awaiting_ne_proceed _ _ _
  · simp [fail, close]
  · simp [fail, close]

/-- A dialogue begins to wait for an answer when a frame was sent. -/
theorem Hears.awaiting (h : Hears d t d') {frame : UpdateFrame}
    (hphase : d'.phase = .awaiting frame) :
    d' = d ∨ ∃ payload, d.phase = .sending frame payload ∧ t = .sent := by
  cases h with
  | ignored => exact .inl rfl
  | sent hsending =>
    cases hphase
    exact .inr ⟨_, hsending, rfl⟩
  | answered => exact absurd hphase (awaiting_ne_proceed _ _ _)
  | read =>
    exfalso
    revert hphase
    unfold pack
    split
    · simp [sendFinish, sendByte]
    · cases d.terms.secure <;> simp
  | failed | absent | opened | gathered | measured | verified | rejected | hidden | refused =>
    cases hphase

/-- Only an answer makes a dialogue content. -/
theorem Hears.content (h : Hears d t d') (hcontent : d'.Content) :
    d.Content ∨ ∃ frame payload, d.phase = .awaiting frame ∧ t = .reply payload := by
  cases h with
  | ignored => exact .inl hcontent
  | read hphase | hidden hphase => exact .inl (by simp [Content, hphase])
  | answered hphase => exact .inr ⟨_, _, hphase, rfl⟩
  | absent | verified => exact absurd rfl hcontent
  | failed | opened | gathered | measured | rejected | sent | refused => exact hcontent.elim

end Dialogue

namespace Session

variable {σ : Type} [Storage σ] {c : FirmwareConfig} {m : Move σ}

/-- What a step has to do with frames and answers. -/
inductive Bears (m : Move σ) : Prop where
  /-- It puts a frame on the bus. -/
  | sends {frame : UpdateFrame} (hsends : m.Transmits frame)
      (hphase : m.next.dialogue.phase = .awaiting frame)
  /-- It takes an answer out of the inbox. -/
  | takes {frame : UpdateFrame} {answer : Message} (hsilent : m.transmitted = [])
      (hphase : m.session.dialogue.phase = .awaiting frame)
      (htaken : m.before.inboxes.items m.session.inbox =
        answer :: m.after.inboxes.items m.session.inbox)
      (hanswer : isAnswer answer = true)
      (hnext : ∀ frame', m.next.dialogue.phase ≠ .awaiting frame')
  /-- It does neither. -/
  | other (hsilent : m.transmitted = [])
      (htaken : ∀ a, m.before.inboxes.items m.session.inbox =
        a :: m.after.inboxes.items m.session.inbox → isAnswer a = false)
      (hphase : ∀ frame, m.next.dialogue.phase = .awaiting frame →
        m.session.dialogue.phase = .awaiting frame)
      (hcontent : m.next.dialogue.Content → m.session.dialogue.Content)

/-- A step leaves the inboxes alone, or takes the oldest message out of the session's own. -/
theorem step?_takes (hs : m.session.Coherent)
    (h : m.session.step? c m.before = some (m.after, m.next)) :
    (∀ n, m.after.inboxes.items n = m.before.inboxes.items n) ∨
      (∃ frame, m.session.dialogue.phase = .awaiting frame) ∧
        (∃ a, m.before.inboxes.items m.session.inbox =
          a :: m.after.inboxes.items m.session.inbox) ∧
        ∀ n, n ≠ m.session.inbox → m.after.inboxes.items n = m.before.inboxes.items n := by
  by_cases hdeaf : ∀ deadline, m.session.doing ≠ .listening deadline
  · exact .inl (items_of_step? h hdeaf)
  push Not at hdeaf
  obtain ⟨deadline, hdoing⟩ := hdeaf
  rcases step?_inboxes h with ⟨result, hready, -⟩ | ⟨-, -, hsame | ⟨a, htake⟩⟩
  · simp [hdoing] at hready
  · exact .inl fun n => by rw [hsame]
  · exact .inr ⟨hs.awaiting hdoing, ⟨a, Inboxes.items_of_take? htake⟩,
      fun n hn => Inboxes.items_take?_of_ne htake (Ne.symm hn)⟩

theorem bears_of_step? (hs : m.session.Coherent)
    (h : m.session.step? c m.before = some (m.after, m.next)) : Bears m := by
  have hframes := m.frames_events
  have hreplies := m.replies_events
  rcases (step?_tells hs h).2 with ⟨hevents, hsame⟩ | ⟨t, hheard, hevents⟩
  · -- Nothing is seen, and the dialogue stays as it is.
    rw [hevents] at hframes hreplies
    refine .other hframes.symm (fun a => Move.isAnswer_of_unseen hreplies.symm) ?_ ?_
    · rw [hsame]
      exact fun _ => id
    · rw [hsame]
      exact id
  · rw [hevents] at hframes hreplies
    have hhears := m.session.dialogue.hears t
    rw [← hheard] at hhears
    rcases m.session.dialogue.frames_shows m.session.frame t with
      ⟨frame, payload, hphase, rfl, hshown⟩ | ⟨hshown, hunsent⟩
    · refine .sends ⟨payload, hphase, by rw [← hframes, hshown]⟩ ?_
      rw [hheard]
      simp only [Dialogue.hear, hphase, Dialogue.noteSent]
    rw [hshown] at hframes
    rcases m.session.dialogue.replies_shows m.session.frame t with
      ⟨frame, payload, hphase, rfl, hshown⟩ | ⟨hshown, hunheard⟩
    · -- The answer that the dialogue hears was the oldest message in the inbox.
      obtain ⟨a, htaken, hanswer⟩ := Move.exists_of_consumed (hreplies.symm.trans hshown)
        ((step?_takes hs h).imp (· _) (·.2.1))
      refine .takes hframes.symm hphase htaken hanswer ?_
      intro frame'
      rw [hheard]
      simp only [Dialogue.hear, hphase]
      exact Dialogue.awaiting_ne_answer _ _ _ _
    · refine .other hframes.symm (fun a => Move.isAnswer_of_unseen (hreplies.symm.trans hshown))
        ?_ ?_
      · intro frame hphase
        rcases hhears.awaiting hphase with hsame | ⟨payload, hsending, ht⟩
        · rw [← hsame]
          exact hphase
        · exact absurd ht (hunsent frame payload hsending)
      · intro hcontent
        rcases hhears.content hcontent with hbefore | ⟨frame, payload, hphase, ht⟩
        · exact hbefore
        · exact absurd ht (hunheard frame payload hphase)

end Session

namespace Gateway

variable {σ : Type} [Storage σ] {g g' : Gateway σ} {c : Config} {events : List (Happening σ)}
  {n k t inbox : Nat} {s : Session}

/-! ## The messages in an inbox -/

/-- The messages in an inbox, the oldest first, each with the moment at which it was put there. -/
def entries (c : Config) (g : Gateway σ) (events : List (Happening σ)) (inbox : Nat) :
    Nat → List (Message × Nat)
  | 0 => []
  | k + 1 =>
    let before := entries c g events inbox k
    let items := (g.moment c events (k + 1)).inboxes.items inbox
    -- An inbox gives away its oldest messages, and gets new ones at its end.
    before.drop (before.length - items.length) ++ (items.drop before.length).map (·, k)

/-- What happens leaves an inbox alone, puts a message at its end, or is a step of the inbox's own
session that takes out the oldest message. -/
theorem Dealing.items {event : Happening σ} (h : Dealing g event g')
    (hsteady : ∀ (n : Nat) (s : Session), g.sessions[n]? = some s → s.Coherent) (inbox : Nat) :
    g'.inboxes.items inbox = g.inboxes.items inbox ∨
      (∃ m, g'.inboxes.items inbox = g.inboxes.items inbox ++ [m]) ∨
      ∃ n m, event = .deed (.move (.session n)) ∧ g.nextMove? n = some m ∧
        m.session.inbox = inbox ∧ ∃ a, g.inboxes.items inbox = a :: g'.inboxes.items inbox := by
  cases h with
  | aside _ hinboxes => exact .inl (by rw [hinboxes])
  | @post _ _ m ecu code hid hsame hinboxes =>
    rw [hinboxes]
    exact (g.inboxes.items_post ecu m inbox).imp_right fun h => .inl ⟨m, h⟩
  | start hstart =>
    obtain ⟨record, -, -, rfl, -⟩ := World.startUpdate_parts hstart
    exact .inl (Inboxes.items_concat _ _ _ _)
  | @session n s s' w hs hstep =>
    rcases Session.step?_takes (m := ⟨g.toWorld, s, w, s'⟩) (hsteady n s hs) hstep with
      hsame | ⟨-, htaken, hother⟩
    · exact .inl (hsame inbox)
    · by_cases hown : s.inbox = inbox
      · refine .inr (.inr ⟨n, ⟨g.toWorld, s, w, s'⟩, rfl, ?_, hown, ?_⟩)
        · simp [nextMove?, hs, hstep]
        · rw [← hown]
          exact htaken
      · exact .inl (hother inbox (Ne.symm hown))

theorem entries_of_same (hentries : (g.entries c events inbox k).map (·.1) =
      (g.moment c events k).inboxes.items inbox)
    (h : (g.moment c events (k + 1)).inboxes.items inbox =
      (g.moment c events k).inboxes.items inbox) :
    g.entries c events inbox (k + 1) = g.entries c events inbox k := by
  have hlength := congrArg List.length hentries
  rw [List.length_map] at hlength
  rw [entries, h, ← hlength, ← hentries]
  simp

theorem entries_of_post {m : Message} (hentries : (g.entries c events inbox k).map (·.1) =
      (g.moment c events k).inboxes.items inbox)
    (h : (g.moment c events (k + 1)).inboxes.items inbox =
      (g.moment c events k).inboxes.items inbox ++ [m]) :
    g.entries c events inbox (k + 1) = g.entries c events inbox k ++ [(m, k)] := by
  rw [entries, h, ← hentries]
  simp [Nat.sub_eq_zero_of_le]

theorem entries_of_take {m : Message} (hentries : (g.entries c events inbox k).map (·.1) =
      (g.moment c events k).inboxes.items inbox)
    (h : (g.moment c events k).inboxes.items inbox =
      m :: (g.moment c events (k + 1)).inboxes.items inbox) :
    ∃ e, g.entries c events inbox k = (m, e) :: g.entries c events inbox (k + 1) := by
  rw [h] at hentries
  obtain ⟨⟨m', e⟩, rest, hform, hfirst, hrest⟩ := List.map_eq_cons_iff.mp hentries
  obtain rfl : m' = m := hfirst
  refine ⟨e, ?_⟩
  rw [entries, hform, ← hrest]
  simp

/-- What is in an inbox was put there before. -/
theorem entries_lt {x : Message × Nat} (hx : x ∈ g.entries c events inbox k) : x.2 < k := by
  induction k with
  | zero => cases hx
  | succ k ih =>
    rcases List.mem_append.mp hx with hold | hnew
    · exact Nat.lt_succ_of_lt (ih (List.mem_of_mem_drop hold))
    · obtain ⟨m, -, rfl⟩ := List.mem_map.mp hnew
      exact Nat.lt_succ_self k

/-! ## A run -/

/-- What a session was at the moment before: itself, or it has taken a step, or it was started. -/
theorem session_cases (hgoes : ∀ now bus keys, .deed (.restart now bus keys) ∉ events)
    (hs : (g.moment c events (k + 1)).sessions[n]? = some s) :
    (g.stepsAt c events n k = [] ∧ (g.moment c events k).sessions[n]? = some s) ∨
      (∃ m, g.stepsAt c events n k = [m] ∧ m.after = (g.moment c events (k + 1)).toWorld ∧
        m.next = s) ∨
      ∃ terms, s.dialogue = .start terms := by
  by_cases hturn : ∃ j, events[k]? = some (.deed (.move (.session j)))
  · obtain ⟨j, hevent⟩ := hturn
    rcases turn_of_session (c := c) (g := g) hevent with
      ⟨hwaits, -, hsame⟩ | ⟨m, hmove, -, -, -, hleft⟩
    · rw [hsame] at hs
      exact .inl ⟨stepsAt_of_waits hevent hwaits n, hs⟩
    · rw [hleft] at hs
      rcases getElem?_set_cases hs with ⟨rfl, rfl⟩ | ⟨hn, hold⟩
      · exact .inr (.inl ⟨m, by simp [stepsAt, hevent, hmove], by rw [hleft], rfl⟩)
      · exact .inl ⟨by simp [stepsAt, hevent, Ne.symm hn], hold⟩
  · have hnone : g.stepsAt c events n k = [] :=
      stepsAt_of_others (fun j hevent => hturn ⟨j, hevent⟩) n
    rcases moment_cases (c := c) (g := g) hgoes k with ⟨event, hevent, hdealing⟩ | ⟨-, hsame⟩
    case inr =>
      rw [hsame] at hs
      exact .inl ⟨hnone, hs⟩
    generalize g.moment c events (k + 1) = g' at hs hdealing
    cases hdealing with
    | aside hsame | post _ hsame =>
      rw [hsame.sessions] at hs
      exact .inl ⟨hnone, hs⟩
    | start hstart =>
      rcases getElem?_concat_cases hs with hold | ⟨-, rfl⟩
      · exact .inl ⟨hnone, hold⟩
      · obtain ⟨-, -, -, hdialogue, -⟩ := Session.startUpdate_session hstart
        exact .inr (.inr ⟨_, hdialogue⟩)
    | @session j => exact absurd ⟨j, hevent⟩ hturn

section Run

variable (hhoused : g.Housed) (hempty : ∀ inbox, g.inboxes.items inbox = [])
  (hgoes : ∀ now bus keys, .deed (.restart now bus keys) ∉ events)

include hhoused hgoes

/-- Between two moments an inbox stays as it is, or gets a message at its end, or its session takes
the oldest message out. -/
theorem items_cases (k inbox : Nat) :
    (g.moment c events (k + 1)).inboxes.items inbox = (g.moment c events k).inboxes.items inbox ∨
      (∃ m, (g.moment c events (k + 1)).inboxes.items inbox =
        (g.moment c events k).inboxes.items inbox ++ [m]) ∨
      ∃ n m, m ∈ g.stepsAt c events n k ∧ m.session.inbox = inbox ∧
        ∃ a, (g.moment c events k).inboxes.items inbox =
          a :: (g.moment c events (k + 1)).inboxes.items inbox := by
  have hsteady (n : Nat) (s : Session) (hs : (g.moment c events k).sessions[n]? = some s) :
      s.Coherent := ((hhoused.moment hgoes k).steady n s hs).coherent
  rcases moment_cases (c := c) (g := g) hgoes k with ⟨event, hevent, hdealing⟩ | ⟨-, hsame⟩
  case inr => exact .inl (by rw [hsame])
  rcases hdealing.items hsteady inbox with hsame | hposted | ⟨n, m, rfl, hmove, hown, htaken⟩
  · exact .inl hsame
  · exact .inr (.inl hposted)
  · refine .inr (.inr ⟨n, m, ?_, hown, htaken⟩)
    simp [stepsAt, hevent, hmove]

include hempty

theorem map_entries (inbox k : Nat) : (g.entries c events inbox k).map (·.1) =
    (g.moment c events k).inboxes.items inbox := by
  induction k with
  | zero => exact (hempty inbox).symm
  | succ k ih =>
    rcases items_cases (c := c) hhoused hgoes k inbox with
      hsame | ⟨m, hposted⟩ | ⟨-, -, -, -, a, htaken⟩
    · rw [entries_of_same ih hsame, hsame]
      exact ih
    · rw [entries_of_post ih hposted, hposted, List.map_append, ih]
      rfl
    · obtain ⟨e, hentries⟩ := entries_of_take ih htaken
      rw [hentries, htaken] at ih
      exact (List.cons.inj ih).2

end Run

/-! ## Frames and answers in turn -/

/-- After one moment and before another a session transmits nothing. -/
def Still (c : Config) (g : Gateway σ) (events : List (Happening σ)) (n i k : Nat) : Prop :=
  ∀ j, i < j → j < k → ∀ m ∈ g.stepsAt c events n j, m.transmitted = []

theorem Still.succ {i : Nat} (h : Still c g events n i k)
    (hsilent : ∀ m ∈ g.stepsAt c events n k, m.transmitted = []) :
    Still c g events n i (k + 1) := by
  intro j hij hj m hm
  rcases Nat.lt_or_eq_of_le (Nat.le_of_lt_succ hj) with hlt | rfl
  · exact h j hij hlt m hm
  · exact hsilent m hm

theorem still_succ_self (n k : Nat) : Still c g events n k (k + 1) := by
  intro j hkj hj
  omega

/-- From one moment to another messages that are no answers were taken out of an inbox, and messages
were put into it after a third. -/
def Flows (c : Config) (g : Gateway σ) (events : List (Happening σ)) (inbox t i k : Nat) : Prop :=
  ∃ passed later, g.entries c events inbox i ++ later = passed ++ g.entries c events inbox k ∧
    (∀ x ∈ passed, Session.isAnswer x.1 = false) ∧ ∀ x ∈ later, t < x.2

theorem Flows.trans {i j : Nat} (h : Flows c g events inbox t i j)
    (hnext : Flows c g events inbox t j k) : Flows c g events inbox t i k := by
  obtain ⟨passed, later, hflow, hpassed, hlater⟩ := h
  obtain ⟨passed', later', hflow', hpassed', hlater'⟩ := hnext
  refine ⟨passed ++ passed', later ++ later', ?_, ?_, ?_⟩
  · rw [← List.append_assoc, hflow, List.append_assoc, hflow', List.append_assoc]
  · exact List.forall_mem_append.mpr ⟨hpassed, hpassed'⟩
  · exact List.forall_mem_append.mpr ⟨hlater, hlater'⟩

theorem flows_of_eq {i : Nat}
    (h : g.entries c events inbox k = g.entries c events inbox i) :
    Flows c g events inbox t i k :=
  ⟨[], [], by simp [h], by simp, by simp⟩

/-- A session waits for an answer to the frame that it has transmitted at a moment. -/
structure Waits (c : Config) (g : Gateway σ) (events : List (Happening σ)) (n t k : Nat)
    (frame : UpdateFrame) (inbox : Nat) : Prop where
  earlier : t < k
  sent : ∃ m ∈ g.stepsAt c events n t, m.Transmits frame
  still : Still c g events n t k
  flows : Flows c g events inbox t t k

/-- A session has accepted an answer at a moment, and has transmitted nothing since. -/
structure Answered (c : Config) (g : Gateway σ) (events : List (Happening σ)) (n a k : Nat) :
    Prop where
  earlier : a < k
  accepted : ∃ m ∈ g.stepsAt c events n a, ∃ frame answer, m.Accepts frame answer
  still : Still c g events n a k

/-- What a session that waits, or goes on, has behind it. -/
structure Paced (c : Config) (g : Gateway σ) (events : List (Happening σ)) (n k : Nat)
    (s : Session) : Prop where
  waits : ∀ frame, s.dialogue.phase = .awaiting frame →
    ∃ t, Waits c g events n t k frame s.inbox
  answered : s.dialogue.Content → ∃ a, Answered c g events n a k

/-- A moment at which the session itself sends nothing and takes no answer. -/
theorem Paced.pass {s' : Session} (h : Paced c g events n k s) (hinbox : s'.inbox = s.inbox)
    (hsilent : ∀ m ∈ g.stepsAt c events n k, m.transmitted = [])
    (hflows : ∀ t, t < k → Flows c g events s.inbox t k (k + 1))
    (hphase : ∀ frame, s'.dialogue.phase = .awaiting frame → s.dialogue.phase = .awaiting frame)
    (hcontent : s'.dialogue.Content → s.dialogue.Content) : Paced c g events n (k + 1) s' := by
  constructor
  · intro frame hawaiting
    obtain ⟨t, hwaits⟩ := h.waits frame (hphase frame hawaiting)
    rw [hinbox]
    exact ⟨t, Nat.lt_succ_of_lt hwaits.earlier, hwaits.sent, hwaits.still.succ hsilent,
      hwaits.flows.trans (hflows t hwaits.earlier)⟩
  · intro hnow
    obtain ⟨a, hanswered⟩ := h.answered (hcontent hnow)
    exact ⟨a, Nat.lt_succ_of_lt hanswered.earlier, hanswered.accepted,
      hanswered.still.succ hsilent⟩

section Run

variable (hhoused : g.Housed) (hempty : ∀ inbox, g.inboxes.items inbox = [])
  (hgoes : ∀ now bus keys, .deed (.restart now bus keys) ∉ events)

include hhoused hempty hgoes

/-- While somebody else has a turn, the inbox of a session gets a message at most. -/
theorem flows_of_others (hs : (g.moment c events k).sessions[n]? = some s)
    (hsteps : g.stepsAt c events n k = []) (htk : t < k) :
    Flows c g events s.inbox t k (k + 1) := by
  have hentries := map_entries (c := c) hhoused hempty hgoes s.inbox k
  rcases items_cases (c := c) hhoused hgoes k s.inbox with
    hsame | ⟨m, hposted⟩ | ⟨j, m, hm, hinbox, -⟩
  · exact flows_of_eq (entries_of_same hentries hsame)
  · rw [Flows, entries_of_post hentries hposted]
    exact ⟨[], [(m, k)], by simp, by simp, by simpa using htk⟩
  · -- Nobody else has the session's inbox.
    obtain ⟨-, hfound, -, -⟩ := of_mem_stepsAt hm
    obtain rfl := (hhoused.moment hgoes k).own _ _ _ _ hfound hs hinbox
    rw [hsteps] at hm
    cases hm

/-- A step of the session itself. -/
theorem Paced.turn {m : Move σ} (hsteps : g.stepsAt c events n k = [m])
    (hafter : m.after = (g.moment c events (k + 1)).toWorld)
    (h : Paced c g events n k m.session) : Paced c g events n (k + 1) m.next := by
  have hm : m ∈ g.stepsAt c events n k := by rw [hsteps]; exact List.mem_singleton_self m
  obtain ⟨-, hfound, hbefore, hstep⟩ := of_mem_stepsAt hm
  have hcoherent := ((hhoused.moment hgoes k).steady _ _ hfound).coherent
  have hinbox : m.next.inbox = m.session.inbox := by rw [Session.step?_keeps hstep]
  have hentries := map_entries (c := c) hhoused hempty hgoes m.session.inbox k
  have hsame (hitems : ∀ j, m.after.inboxes.items j = m.before.inboxes.items j) :
      g.entries c events m.session.inbox (k + 1) = g.entries c events m.session.inbox k := by
    refine entries_of_same hentries ?_
    have hkept := hitems m.session.inbox
    rwa [hafter, hbefore] at hkept
  cases Session.bears_of_step? hcoherent hstep with
  | @sends frame hsends hphase =>
    refine ⟨?_, ?_⟩
    · intro frame' hawaiting
      obtain rfl := DialoguePhase.awaiting.inj (hphase.symm.trans hawaiting)
      refine ⟨k, Nat.lt_succ_self k, ⟨m, hm, hsends⟩, still_succ_self n k, ?_⟩
      rw [hinbox]
      rcases Session.step?_takes hcoherent hstep with hitems | ⟨⟨frame', hwaiting⟩, -⟩
      · exact flows_of_eq (hsame hitems)
      · obtain ⟨payload, hsending, -⟩ := hsends
        exact absurd (hsending.symm.trans hwaiting) (by simp)
    · intro hcontent
      simp [Dialogue.Content, hphase] at hcontent
  | takes hsilent hphase htaken hanswer hnext =>
    refine ⟨fun frame hawaiting => absurd hawaiting (hnext frame), ?_⟩
    intro hcontent
    exact ⟨k, Nat.lt_succ_self k,
      ⟨m, hm, _, _, ⟨hphase, htaken, hanswer, hcontent.not_error⟩⟩, still_succ_self n k⟩
  | other hsilent htaken hphase hcontent =>
    refine h.pass hinbox ?_ ?_ hphase hcontent
    · intro m' hm'
      rw [hsteps] at hm'
      rw [List.mem_singleton.mp hm']
      exact hsilent
    · intro t htk
      rcases Session.step?_takes hcoherent hstep with hitems | ⟨-, ⟨a, hitems⟩, -⟩
      · exact flows_of_eq (hsame hitems)
      · have hpassed := htaken a hitems
        rw [hafter, hbefore] at hitems
        obtain ⟨e, hform⟩ := entries_of_take hentries hitems
        exact ⟨[(a, e)], [], by simp [hform], by simpa using hpassed, by simp⟩

theorem paced_moment (hnone : g.sessions = []) (k n : Nat) (s : Session)
    (hs : (g.moment c events k).sessions[n]? = some s) : Paced c g events n k s := by
  induction k generalizing n s with
  | zero =>
    rw [moment_zero, hnone] at hs
    cases hs
  | succ k ih =>
    rcases session_cases (c := c) hgoes hs with
      ⟨hsteps, hold⟩ | ⟨m, hsteps, hafter, rfl⟩ | ⟨terms, hdialogue⟩
    · refine (ih n s hold).pass rfl ?_ ?_ (fun _ => id) id
      · simp [hsteps]
      · exact fun t htk => flows_of_others hhoused hempty hgoes hold hsteps htk
    · have hm : m ∈ g.stepsAt c events n k := by rw [hsteps]; exact List.mem_singleton_self m
      obtain ⟨-, hfound, -, -⟩ := of_mem_stepsAt hm
      exact Paced.turn hhoused hempty hgoes hsteps hafter (ih n m.session hfound)
    · -- A session that was just started has sent nothing yet.
      have hearly : (∀ frame, s.dialogue.phase ≠ .awaiting frame) ∧ ¬ s.dialogue.Content := by
        rw [hdialogue]
        unfold Dialogue.start
        dsimp only
        split <;> simp [Dialogue.Content, Dialogue.sendReset, Dialogue.sendByte]
      exact ⟨fun frame hphase => absurd hphase (hearly.1 frame), fun h => absurd h hearly.2⟩

/-- The answer that a session accepts has come after the frame if there was no answer before. -/
theorem Waits.fresh_iff {a e : Nat} {frame : UpdateFrame} {answer : Message}
    {rest : List (Message × Nat)} (h : Waits c g events n t a frame inbox)
    (hentries : g.entries c events inbox a = (answer, e) :: rest)
    (hanswer : Session.isAnswer answer = true) :
    t < e ↔ ∀ x ∈ (g.moment c events t).inboxes.items inbox, Session.isAnswer x = false := by
  obtain ⟨passed, later, hflow, hpassed, hlater⟩ := h.flows
  have hitems := map_entries (c := c) hhoused hempty hgoes inbox t
  rw [hentries] at hflow
  constructor
  · intro hlt x hx
    rw [← hitems] at hx
    obtain ⟨y, hy, rfl⟩ := List.mem_map.mp hx
    rcases List.append_eq_append_iff.mp hflow with ⟨more, hmore, -⟩ | ⟨left, hleft, hnext⟩
    · exact hpassed y (by rw [hmore]; exact List.mem_append_left _ hy)
    · cases left with
      | nil =>
        rw [List.append_nil] at hleft
        exact hpassed y (by rwa [← hleft])
      | cons z left =>
        -- Then the answer was there when the frame was sent.
        obtain ⟨rfl, -⟩ := List.cons.inj hnext
        have hthere : (answer, e) ∈ g.entries c events inbox t := by
          rw [hleft]
          simp
        exact absurd (entries_lt hthere) (Nat.not_lt_of_lt hlt)
  · intro hnone
    have hmem : (answer, e) ∈ g.entries c events inbox t ++ later := by
      rw [hflow]
      simp
    rcases List.mem_append.mp hmem with hold | hnew
    · have hx : answer ∈ (g.moment c events t).inboxes.items inbox := by
        rw [← hitems]
        exact List.mem_map.mpr ⟨_, hold, rfl⟩
      rw [hnone answer hx] at hanswer
      cases hanswer
    · exact hlater _ hnew

end Run

theorem items_start {now : Nat} {bus : Bus} {storage : σ} {keys : Option Vault}
    (h : Gateway.start c now bus storage keys = .ok g) (inbox : Nat) :
    g.inboxes.items inbox = [] := by
  unfold Gateway.start at h
  split at h
  case h_1 | h_2 => cases h
  case h_3 =>
    obtain rfl := Except.ok.inj h
    rfl

/-- At one moment a session transmits a frame, at another it accepts an answer to it, and in between
it transmits nothing. -/
structure Exchange (c : Config) (g : Gateway σ) (events : List (Happening σ)) (n t a : Nat)
    (frame : UpdateFrame) : Prop where
  earlier : t < a
  sent : ∃ m ∈ g.stepsAt c events n t, m.Transmits frame
  accepted : ∃ m ∈ g.stepsAt c events n a, ∃ answer, m.Accepts frame answer
  still : Still c g events n t a

/-- An answer that was accepted was an answer to a frame. -/
theorem Answered.exchange {a : Nat}
    (hpaced : ∀ k s, (g.moment c events k).sessions[n]? = some s → Paced c g events n k s)
    (h : Answered c g events n a k) :
    ∃ t frame, Exchange c g events n t a frame := by
  obtain ⟨m, hm, frame, answer, haccepts⟩ := h.accepted
  obtain ⟨-, hfound, -, -⟩ := of_mem_stepsAt hm
  obtain ⟨t, hwaits⟩ := (hpaced a m.session hfound).waits frame haccepts.awaiting
  exact ⟨t, frame, hwaits.earlier, hwaits.sent, ⟨m, hm, answer, haccepts⟩, hwaits.still⟩

/-- Every answer that a session accepts is taken for one to the frame that it has transmitted last,
and has come after that frame exactly if there was no answer in the inbox when that frame was
transmitted.  And a session transmits another frame, or succeeds, only after it has accepted an
answer to the frame that it has transmitted last. -/
theorem answer_fresh_iff {now : Nat} {bus : Bus} {storage : σ} {keys : Option Vault}
    (hstart : Gateway.start c now bus storage keys = .ok g)
    (hgoes : ∀ now bus keys, .deed (.restart now bus keys) ∉ events) (n : Nat) :
    (∀ a, ∀ m ∈ g.stepsAt c events n a, ∀ frame answer, m.Accepts frame answer →
      ∃ t e, Exchange c g events n t a frame ∧
        (g.entries c events m.session.inbox a).head? = some (answer, e) ∧
        (t < e ↔ ∀ x ∈ (g.moment c events t).inboxes.items m.session.inbox,
          Session.isAnswer x = false)) ∧
      (∀ k, ∀ m ∈ g.stepsAt c events n k, ∀ frame, m.Transmits frame → frame ≠ .reset →
        ∃ t a last, a < k ∧ Exchange c g events n t a last ∧ Still c g events n a k) ∧
      ∀ k s, (g.moment c events k).sessions[n]? = some s → s.dialogue.result? = some (.ok ()) →
        ∃ t a last, a < k ∧ Exchange c g events n t a last ∧ Still c g events n a k := by
  have hhoused := housed_start hstart
  have hempty := items_start hstart
  have hpaced (k : Nat) (s : Session) (hs : (g.moment c events k).sessions[n]? = some s) :=
    paced_moment hhoused hempty hgoes (start_eq hstart).2 k n s hs
  refine ⟨?_, ?_, ?_⟩
  · intro a m hm frame answer haccepts
    obtain ⟨-, hfound, hbefore, -⟩ := of_mem_stepsAt hm
    obtain ⟨t, hwaits⟩ := (hpaced a m.session hfound).waits frame haccepts.awaiting
    have hentries := map_entries (c := c) hhoused hempty hgoes m.session.inbox a
    have htaken := haccepts.taken
    rw [hbefore] at htaken
    rw [htaken] at hentries
    obtain ⟨⟨x, e⟩, rest, hform, hfirst, -⟩ := List.map_eq_cons_iff.mp hentries
    obtain rfl : x = answer := hfirst
    exact ⟨t, e, ⟨hwaits.earlier, hwaits.sent, ⟨m, hm, x, haccepts⟩, hwaits.still⟩,
      by rw [hform]; rfl, hwaits.fresh_iff hhoused hempty hgoes hform haccepts.answer⟩
  · intro k m hm frame htransmits hlater
    obtain ⟨-, hfound, -, -⟩ := of_mem_stepsAt hm
    obtain ⟨payload, hsending, -⟩ := htransmits
    have hcontent : m.session.dialogue.Content := by
      simpa [Dialogue.Content, hsending] using hlater
    obtain ⟨a, hanswered⟩ := (hpaced k m.session hfound).answered hcontent
    obtain ⟨t, last, hexchange⟩ := hanswered.exchange hpaced
    exact ⟨t, a, last, hanswered.earlier, hexchange, hanswered.still⟩
  · intro k s hs hended
    have hcontent : s.dialogue.Content := by
      unfold Dialogue.result? at hended
      split at hended
      case h_1 result hphase => simp [Dialogue.Content, hphase, Option.some.inj hended]
      case h_2 => cases hended
    obtain ⟨a, hanswered⟩ := (hpaced k s hs).answered hcontent
    obtain ⟨t, last, hexchange⟩ := hanswered.exchange hpaced
    exact ⟨t, a, last, hanswered.earlier, hexchange, hanswered.still⟩

/-! ## An answer that comes once, and one that comes twice -/

/-- The answer of an ECU to a chunk. -/
def chunkAnswer : Message where
  id := .firmware 0 Firmware.response
  payload := [Firmware.chunkTaken]
  fits := by decide

/-- Whether the answer to the only chunk of a small image is accepted at the moment 24, and no
answer was in the inbox when the chunk was sent. -/
def answersOnce (g : Gateway Memory) : Prop :=
  (∃ m ∈ g.stepsAt singleConfig smallEvents 0 24,
    m.Accepts (.chunk 3) chunkAnswer ∧ m.session.inbox = 0) ∧
  ∀ t ∈ List.range 24, (∃ m ∈ g.stepsAt singleConfig smallEvents 0 t, m.Transmits (.chunk 3)) →
    ∀ x ∈ (g.moment singleConfig smallEvents t).inboxes.items 0, Session.isAnswer x = false

instance (g : Gateway Memory) : Decidable (answersOnce g) :=
  inferInstanceAs (Decidable (_ ∧ _))

/-- Whether it is so in the end. -/
def onceShown : Option Bool :=
  match Gateway.start singleConfig 0 { interfaces := 4 } smallMemory none with
  | .ok g => some (answersOnce g)
  | .error _ => none

/-- The answer to the only chunk of a small image has come after the chunk. -/
theorem small_answer_fresh :
    ∃ g, Gateway.start singleConfig 0 { interfaces := 4 } smallMemory none = .ok g ∧
      (∀ now bus keys, .deed (.restart now bus keys) ∉ smallEvents) ∧
      ∃ t e, Exchange singleConfig g smallEvents 0 t 24 (.chunk 3) ∧
        (g.entries singleConfig smallEvents 0 24).head? = some (chunkAnswer, e) ∧ t < e := by
  have hshown : onceShown = some true := by decide +kernel
  unfold onceShown at hshown
  split at hshown
  case h_2 => cases hshown
  case h_1 g hstart =>
    obtain ⟨⟨m, hm, haccepts, hinbox⟩, hclean⟩ := of_decide_eq_true (Option.some.inj hshown)
    have hgoes : ∀ now bus keys, .deed (.restart now bus keys) ∉ smallEvents := by
      simp [smallEvents, answered]
    obtain ⟨haccepted, -⟩ := answer_fresh_iff hstart hgoes 0
    obtain ⟨t, e, hexchange, hentry, hfresh⟩ := haccepted 24 m hm _ _ haccepts
    rw [hinbox] at hentry hfresh
    exact ⟨g, hstart, hgoes, t, e, hexchange, hentry,
      hfresh.mpr (hclean t (List.mem_range.mpr hexchange.earlier) hexchange.sent)⟩

/-- A storage with an image of two chunks. -/
def doubledMemory : Memory :=
  ({} : Memory).addImage "image" (List.replicate 50 7)

/-- The ECU answers the first chunk twice, and the second one not at all. -/
def doubledEvents : List (Happening Memory) :=
  .deed (.startUpdate 0 "image" false) :: List.replicate 4 (.deed (.move (.session 0))) ++
    answered Firmware.resetDone 4 ++ answered Firmware.ready 5 ++
    answered Firmware.chunkTaken 0 ++ answered Firmware.chunkTaken 8

/-- Whether the second chunk is sent at the moment 29, its answer is accepted at 31 but has come at
25, and the last frame is sent at 33. -/
def answersTwice (g : Gateway Memory) : Prop :=
  (∃ m ∈ g.stepsAt singleConfig doubledEvents 0 29, m.Transmits (.chunk 2)) ∧
  (∀ m ∈ g.stepsAt singleConfig doubledEvents 0 30, m.transmitted = []) ∧
  (∃ m ∈ g.stepsAt singleConfig doubledEvents 0 31, m.Accepts (.chunk 2) chunkAnswer ∧
    (g.entries singleConfig doubledEvents m.session.inbox 31).head? = some (chunkAnswer, 25)) ∧
  ∃ m ∈ g.stepsAt singleConfig doubledEvents 0 33, m.Transmits .finish

instance (g : Gateway Memory) : Decidable (answersTwice g) :=
  inferInstanceAs (Decidable (_ ∧ _))

/-- Whether it is so in the end. -/
def twiceShown : Option Bool :=
  match Gateway.start singleConfig 0 { interfaces := 4 } doubledMemory none with
  | .ok g => some (answersTwice g)
  | .error _ => none

/-- The second answer to the first chunk has come at the moment 25, before the second chunk is sent
at 29.  It is accepted as the answer to the second chunk at 31, and at 33 the last frame is sent,
though the ECU has not answered the second chunk. -/
theorem doubled_answer_accepted :
    ∃ g, Gateway.start singleConfig 0 { interfaces := 4 } doubledMemory none = .ok g ∧
      (∀ now bus keys, .deed (.restart now bus keys) ∉ doubledEvents) ∧
      Exchange singleConfig g doubledEvents 0 29 31 (.chunk 2) ∧
      (∃ m ∈ g.stepsAt singleConfig doubledEvents 0 31, m.Accepts (.chunk 2) chunkAnswer ∧
        (g.entries singleConfig doubledEvents m.session.inbox 31).head? = some (chunkAnswer, 25)) ∧
      ∃ m ∈ g.stepsAt singleConfig doubledEvents 0 33, m.Transmits .finish := by
  have hshown : twiceShown = some true := by decide +kernel
  unfold twiceShown at hshown
  split at hshown
  case h_2 => cases hshown
  case h_1 g hstart =>
    obtain ⟨hsent, hsilent, haccepted, hfinish⟩ := of_decide_eq_true (Option.some.inj hshown)
    refine ⟨g, hstart, by simp [doubledEvents, answered], ⟨by decide, hsent, ?_, ?_⟩, haccepted,
      hfinish⟩
    · obtain ⟨m, hm, haccepts, -⟩ := haccepted
      exact ⟨m, hm, chunkAnswer, haccepts⟩
    · intro j hlow hhigh
      obtain rfl : j = 30 := by omega
      exact hsilent

end Gateway
end VehicleGateway
