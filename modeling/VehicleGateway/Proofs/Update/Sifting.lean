import VehicleGateway.Message.Opcode
import VehicleGateway.Proofs.Update.Trace
import VehicleGateway.Storage.Memory

/-!
# What is no answer

A session waits for an answer of its ECU until some time.  Whatever else is in its inbox it passes
over, one message after the other, and does not wait longer for it.

* `Settles` is a session that goes on until it has to wait, and `Runs` is one that does so at one
  instant after the other.  At an instant some time has come, others have done something, and some
  messages have come into the inbox.
* `sift` takes what is no answer out of the inbox.  A message that is passed over makes no
  difference to what is left then (`sift_of_skips`), and no other step depends on those messages
  (`step?_sift`).
* `Runs.wait` says of a wait when it began and how long it lasts at most.
* `junk_changes_nothing` puts both together for all runs of all sessions.
-/

namespace VehicleGateway

/-! ## Inboxes -/

namespace Inboxes

/-- The inboxes with nothing but answers in one of them. -/
def sift (i : Inboxes) (n : Nat) : Inboxes :=
  i.modify n fun box => { box with items := box.items.filter Session.isAnswer }

variable {i i' : Inboxes} {n : Nat} {m : Message}

theorem modify_modify (i : Inboxes) (n : Nat) (f g : Mailbox Message → Mailbox Message) :
    (i.modify n f).modify n g = i.modify n (g ∘ f) := by
  simp [modify, List.modify_modify_eq]

/-- What is taken out of an inbox, in terms of what is in it. -/
theorem take?_eq_some_iff : i.take? n = some (m, i') ↔
    ∃ box rest, i.boxes[n]? = some box ∧ box.items = m :: rest ∧
      i' = i.modify n fun _ => { box with items := rest } := by
  simp only [take?, Option.bind_eq_bind, Option.bind_eq_some_iff]
  constructor
  · rintro ⟨box, hbox, ⟨a, box'⟩, htaken, hnext⟩
    obtain ⟨rfl, rfl⟩ := Prod.mk.inj (Option.some.inj hnext)
    unfold Mailbox.take? at htaken
    split at htaken
    case h_1 => cases htaken
    case h_2 b rest hitems =>
      obtain ⟨rfl, rfl⟩ := Prod.mk.inj (Option.some.inj htaken)
      exact ⟨box, rest, hbox, hitems, rfl⟩
  · rintro ⟨box, rest, hbox, hitems, rfl⟩
    exact ⟨box, hbox, (m, { box with items := rest }), by simp [Mailbox.take?, hitems], rfl⟩

/-- A message that is no answer makes no difference to the answers. -/
theorem sift_of_take? (h : i.take? n = some (m, i')) (hm : Session.isAnswer m = false) :
    i'.sift n = i.sift n := by
  obtain ⟨box, rest, hbox, hitems, rfl⟩ := take?_eq_some_iff.mp h
  unfold sift
  rw [modify_modify]
  simp only [modify, Inboxes.mk.injEq, and_true]
  refine List.ext_getElem? fun k => ?_
  rw [List.getElem?_modify, List.getElem?_modify]
  by_cases hk : n = k
  · subst hk
    simp [hbox, hitems, hm]
  · simp [hk]

/-- An answer is taken out as if it were alone with the other answers. -/
theorem take?_sift (h : i.take? n = some (m, i')) (hm : Session.isAnswer m = true) :
    (i.sift n).take? n = some (m, i'.sift n) := by
  obtain ⟨box, rest, hbox, hitems, rfl⟩ := take?_eq_some_iff.mp h
  refine take?_eq_some_iff.mpr ⟨{ box with items := box.items.filter Session.isAnswer },
    rest.filter Session.isAnswer, ?_, ?_, ?_⟩
  · simp [sift, modify, hbox]
  · simp [hitems, hm]
  · simp only [sift, modify_modify]
    rfl

/-- Where there is nothing, there is no answer. -/
theorem sift_of_empty (h : i.take? n = none) : i.sift n = i := by
  have hitems := items_of_take?_eq_none h
  obtain ⟨boxes, inUse⟩ := i
  simp only [sift, modify, Inboxes.mk.injEq, and_true]
  refine List.ext_getElem? fun k => ?_
  rw [List.getElem?_modify]
  by_cases hk : n = k
  · subst hk
    cases hbox : boxes[n]? with
    | none => rfl
    | some box =>
      have hnil : box.items.filter Session.isAnswer = box.items := by
        have hnil : box.items = [] := by simpa [items, hbox] using hitems
        rw [hnil, List.filter_nil]
      simp only [Option.map_eq_map, Option.map_some, if_true, hnil]
  · simp [hk]

theorem sift_release (i : Inboxes) (n : Nat) (ecu : EcuNo) :
    (i.release ecu).sift n = (i.sift n).release ecu := by
  unfold release
  have hsame : (i.sift n).inUse = i.inUse := rfl
  rw [hsame]
  cases i.inUse.get? ecu with
  | none => rfl
  | some k =>
    simp only [sift, modify, Inboxes.mk.injEq, and_true]
    refine List.ext_getElem? fun j => ?_
    simp only [List.getElem?_modify]
    cases i.boxes[j]? with
    | none => rfl
    | some box => by_cases hn : n = j <;> by_cases hk : k = j <;> simp [hn, hk, Mailbox.dropSender]

end Inboxes

/-- The world with nothing but answers in one of the inboxes. -/
def World.sift {σ : Type} (w : World σ) (n : Nat) : World σ :=
  { w with inboxes := w.inboxes.sift n }

namespace Session

variable {σ : Type} [Storage σ] {c : FirmwareConfig} {w w' x : World σ} {s s' : Session}
  {sent : List (Nat × Frame)}

/-! ## Steps -/

/-- The next thing that a session does is to pass over a message. -/
def Skips (w : World σ) (s : Session) : Prop :=
  ∃ deadline m inboxes, s.doing = .listening deadline ∧
    w.inboxes.take? s.inbox = some (m, inboxes) ∧ isAnswer m = false

/-- That leaves everything as it is but the message. -/
theorem sift_of_skips (h : s.Skips w) : ∃ inboxes,
    s.step? c w = some ({ w with inboxes }, s) ∧ inboxes.sift s.inbox = w.inboxes.sift s.inbox ∧
      (w.inboxes.items s.inbox).length = (inboxes.items s.inbox).length + 1 := by
  obtain ⟨deadline, m, inboxes, hdoing, htake, hm⟩ := h
  refine ⟨inboxes, ?_, Inboxes.sift_of_take? htake hm, ?_⟩
  · simp [step?, hdoing, listen, htake, hm]
  · rw [Inboxes.items_of_take? htake, List.length_cons]

theorem turnTo_sift (c : FirmwareConfig) (w : World σ) (s : Session) (n : Nat) (wish : Wish) :
    s.turnTo c (w.sift n) wish = ((s.turnTo c w wish).1.sift n, (s.turnTo c w wish).2) := by
  cases wish with
  | header | image | reply => rfl
  | verdict image tag =>
    simp only [turnTo, call, World.sift]
    split <;> rfl
  | cipher data =>
    simp only [turnTo, call, World.sift]
    split <;> rfl
  | send code payload =>
    simp only [turnTo, World.launch, World.sift]
    split <;> rfl

/-- Any other step is the same with the answers alone. -/
theorem step?_sift (h : ¬ s.Skips w) : s.step? c (w.sift s.inbox) =
    (s.step? c w).map fun next => (next.1.sift s.inbox, next.2) := by
  cases hdoing : s.doing with
  | ready =>
    simp only [step?, hdoing]
    cases hwish : s.dialogue.wish? with
    | some wish => simp only [turnTo_sift, Option.map_some]
    | none =>
      cases hresult : s.dialogue.result? with
      | none => rfl
      | some result =>
        simp only [release, World.sift, Option.map_some, Inboxes.sift_release]
  | flying flight =>
    simp only [step?, hdoing, World.land?, World.sift, Option.map_map]
    rfl
  | calling n =>
    simp only [step?, hdoing, World.sift]
    cases hkeys : w.keys with
    | none => rfl
    | some vault =>
      simp only
      cases hended : vault.outcome? n with
      | some outcome => simp only [Option.map_some, hkeys]
      | none =>
        simp only [Option.map_map]
        rfl
  | listening deadline =>
    simp only [step?, hdoing, listen]
    cases htake : w.inboxes.take? s.inbox with
    | none =>
      have hsame : w.sift s.inbox = w := by
        rw [World.sift, Inboxes.sift_of_empty htake]
      rw [hsame, htake]
      simp only
      split
      case isTrue => simp only [Option.map_some, hsame]
      case isFalse =>
        split
        case isTrue => simp only [Option.map_some, hsame]
        case isFalse => rfl
    | some taken =>
      obtain ⟨m, inboxes⟩ := taken
      have hm : isAnswer m = true :=
        eq_true_of_ne_false fun hnot => h ⟨deadline, m, inboxes, hdoing, htake, hnot⟩
      have hsifted : (w.sift s.inbox).inboxes.take? s.inbox = some (m, inboxes.sift s.inbox) :=
        Inboxes.take?_sift htake hm
      simp only [hsifted, Option.map_some]
      rfl
  | released =>
    simp only [step?, hdoing, Option.map_some, World.persist]
    have hregistry : (w.sift s.inbox).registry = w.registry := rfl
    have hstorage : (w.sift s.inbox).storage = w.storage := rfl
    rw [hregistry, hstorage]
    split <;> rfl
  | stored | closed =>
    simp only [step?, hdoing]
    rfl

/-- A session that turns to an answer waits for it until the time is up. -/
theorem listening_turnTo {wish : Wish} {deadline : Nat}
    (h : (s.turnTo c w wish).2.doing = .listening deadline) : deadline = w.now + c.ackTimeout := by
  cases wish with
  | reply =>
    cases h
    rfl
  | header | image => cases h
  | verdict image tag =>
    simp only [turnTo, call] at h
    split at h <;> cases h
  | cipher data =>
    simp only [turnTo, call] at h
    split at h <;> cases h
  | send code payload =>
    simp only [turnTo] at h
    split at h <;> cases h

/-- A step takes no time. -/
theorem now_of_step? (h : s.step? c w = some (w', s')) : w'.now = w.now := by
  cases step?_cases h with
  | turn wish => rw [(turnTo_keeps c w s wish).1]
  | land hdoing hland =>
    obtain ⟨landed, -, hnext⟩ := Option.map_eq_some_iff.mp hland
    cases hnext
    rfl
  | persist =>
    unfold World.persist
    split <;> rfl
  | _ => rfl

/-! ## Until it has to wait -/

/-- A session goes on until it has to wait, and transmits some frames. -/
inductive Settles (c : FirmwareConfig) :
    World σ → Session → List (Nat × Frame) → World σ → Session → Prop where
  | waits {w : World σ} {s : Session} (h : s.step? c w = none) : Settles c w s [] w s
  | goesOn {w w₁ w' : World σ} {s s₁ s' : Session} {sent : List (Nat × Frame)}
      (h : s.step? c w = some (w₁, s₁)) (hlater : Settles c w₁ s₁ sent w' s') :
    Settles c w s ((Move.transmitted ⟨w, s, w₁, s₁⟩).map (w.now, ·) ++ sent) w' s'

namespace Settles

theorem inbox_eq (h : Settles c w s sent w' s') : s'.inbox = s.inbox := by
  induction h with
  | waits => rfl
  | goesOn hstep _ ih => rw [ih, step?_keeps hstep]

/-- It goes on in one way only. -/
theorem unique {sent' : List (Nat × Frame)} {x : World σ} {s₁ : Session}
    (h : Settles c w s sent w' s') (h' : Settles c w s sent' x s₁) :
    sent' = sent ∧ x = w' ∧ s₁ = s' := by
  induction h generalizing sent' x s₁ with
  | waits hwaits =>
    cases h' with
    | waits => exact ⟨rfl, rfl, rfl⟩
    | goesOn hstep => cases hwaits.symm.trans hstep
  | goesOn hstep _ ih =>
    cases h' with
    | waits hwaits => cases hstep.symm.trans hwaits
    | goesOn hstep' hlater' =>
      obtain ⟨rfl, rfl⟩ := Prod.mk.inj (Option.some.inj (hstep'.symm.trans hstep))
      obtain ⟨rfl, rfl, rfl⟩ := ih hlater'
      exact ⟨rfl, rfl, rfl⟩

/-- It comes as far with the answers alone. -/
theorem sift (h : Settles c w s sent w' s') :
    Settles c (w.sift s.inbox) s sent (w'.sift s.inbox) s' := by
  induction h with
  | @waits w s hwaits =>
    have hfit : ¬ s.Skips w := by
      intro hskips
      obtain ⟨inboxes, hstep, -⟩ := sift_of_skips (c := c) hskips
      cases hwaits.symm.trans hstep
    refine .waits ?_
    rw [step?_sift hfit, hwaits, Option.map_none]
  | @goesOn w w₁ w' s s₁ s' sent hstep hlater ih =>
    by_cases hskips : s.Skips w
    · obtain ⟨inboxes, hskip, hsifted, -⟩ := sift_of_skips (c := c) hskips
      obtain ⟨rfl, rfl⟩ := Prod.mk.inj (Option.some.inj (hskip.symm.trans hstep))
      -- A message that is passed over is not there without it, and nothing is sent.
      have hnone : Move.transmitted ⟨w, s, { w with inboxes }, s⟩ = [] :=
        Move.transmitted_of_bus_eq rfl
      rw [hnone, List.map_nil, List.nil_append]
      rw [World.sift, hsifted] at ih
      exact ih
    · have hinbox : s₁.inbox = s.inbox := by rw [step?_keeps hstep]
      rw [hinbox] at ih
      have hnext : s.step? c (w.sift s.inbox) = some (w₁.sift s.inbox, s₁) := by
        rw [step?_sift hskips, hstep, Option.map_some]
      have hgoes := goesOn hnext ih
      exact hgoes

/-- A session passes over what it can before it does anything else. -/
theorem exists_passed (c : FirmwareConfig) (w : World σ) (s : Session) :
    ∃ passed : World σ, passed.sift s.inbox = w.sift s.inbox ∧ ¬ s.Skips passed ∧
      ∀ sent w' s', Settles c passed s sent w' s' → Settles c w s sent w' s' := by
  -- There are only so many messages that it can pass over.
  induction hlength : (w.inboxes.items s.inbox).length generalizing w with
  | zero =>
    refine ⟨w, rfl, ?_, fun _ _ _ h => h⟩
    intro hskips
    obtain ⟨inboxes, -, -, hshorter⟩ := sift_of_skips (c := c) hskips
    omega
  | succ n ih =>
    by_cases hskips : s.Skips w
    case neg => exact ⟨w, rfl, hskips, fun _ _ _ h => h⟩
    obtain ⟨inboxes, hstep, hsifted, hshorter⟩ := sift_of_skips (c := c) hskips
    obtain ⟨passed, hsame, hfit, hsettles⟩ := ih { w with inboxes } (by simp only; omega)
    refine ⟨passed, ?_, hfit, ?_⟩
    · rw [hsame, World.sift, hsifted]
      rfl
    · intro sent w' s' h
      have hgoes := goesOn hstep (hsettles sent w' s' h)
      rw [Move.transmitted_of_bus_eq rfl] at hgoes
      exact hgoes

/-- With the answers alone it comes no farther. -/
theorem unsift (h : Settles c x s sent w' s') (hx : x = w.sift s.inbox) :
    ∃ left, Settles c w s sent left s' ∧ left.sift s.inbox = w' := by
  induction h generalizing w with
  | @waits x s hwaits =>
    obtain ⟨passed, hsame, hfit, hsettles⟩ := exists_passed c w s
    refine ⟨passed, hsettles _ _ _ (.waits ?_), hsame.trans hx.symm⟩
    rw [hx, ← hsame, step?_sift hfit] at hwaits
    exact Option.map_eq_none_iff.mp hwaits
  | @goesOn x x₁ w' s s₁ s' sent hstep hlater ih =>
    obtain ⟨passed, hsame, hfit, hsettles⟩ := exists_passed c w s
    have hnext := hstep
    rw [hx, ← hsame, step?_sift hfit] at hnext
    obtain ⟨⟨next, s₂⟩, hgoes, hmade⟩ := Option.map_eq_some_iff.mp hnext
    obtain ⟨rfl, rfl⟩ := Prod.mk.inj hmade
    have hinbox : s₂.inbox = s.inbox := by rw [step?_keeps hgoes]
    obtain ⟨left, hleft, hsifted⟩ := ih (by rw [hinbox])
    rw [hinbox] at hsifted
    refine ⟨left, ?_, hsifted⟩
    have hfirst := hsettles _ _ _ (goesOn hgoes hleft)
    -- The bus and the clock are the same with the answers alone.
    obtain rfl : x = passed.sift s.inbox := hx.trans hsame.symm
    exact hfirst

/-- A session that has come to rest waits for an answer only if it has time left, and if that wait
began just now it has all of it. -/
theorem wait (h : Settles c w s sent w' s') {deadline : Nat}
    (hlistening : s'.doing = .listening deadline) :
    w.now < deadline ∧ (s' = s ∨ deadline = w.now + c.ackTimeout) := by
  induction h with
  | @waits w s hwaits =>
    refine ⟨?_, .inl rfl⟩
    simp only [step?, hlistening, listen] at hwaits
    split at hwaits
    case h_1 => cases hwaits
    case h_2 =>
      split at hwaits
      case isTrue => cases hwaits
      case isFalse =>
        split at hwaits
        case isTrue => cases hwaits
        case isFalse hearly => exact Nat.lt_of_not_le hearly
  | @goesOn w w₁ w' s s₁ s' sent hstep hlater ih =>
    obtain ⟨hearly, hwait⟩ := ih hlistening
    rw [now_of_step? hstep] at hearly hwait
    refine ⟨hearly, ?_⟩
    rcases hwait with rfl | hbegan
    case inr => exact .inr hbegan
    -- A step after which the session listens is the one with which it begins to, or passes over
    -- a message.
    cases step?_cases hstep with
    | turn wish => exact .inr (listening_turnTo hlistening)
    | take hdoing htake =>
      split at hlistening
      case isTrue => cases hlistening
      case isFalse hjunk => exact .inl (if_neg hjunk)
    | carry => exact .inl rfl
    | release | land | outcome | miss | persist | close => cases hlistening

end Settles
end Session

/-! ## Instants -/

/-- What happens at some instant before a session has its turn. -/
structure Instant (σ : Type) where
  now : Nat
  /-- What everybody else does, who do not look into the inboxes. -/
  others : World σ → World σ := id
  /-- The messages that have come into the inbox of the session. -/
  messages : List Message := []
  /-- Whether nobody can put any more into it. -/
  closes : Bool := false

namespace Instant

variable {σ : Type}

/-- The world at an instant, for a session with the inbox `n`. -/
def come (i : Instant σ) (n : Nat) (w : World σ) : World σ :=
  { i.others { w with inboxes := {} } with
    now := i.now
    inboxes := w.inboxes.modify n fun box =>
      { box with
        items := box.items ++ i.messages
        hasSender := box.hasSender && !i.closes } }

/-- The instant without the messages that are no answers. -/
def sift (i : Instant σ) : Instant σ :=
  { i with messages := i.messages.filter Session.isAnswer }

theorem come_sift (i : Instant σ) (n : Nat) (w : World σ) :
    i.sift.come n (w.sift n) = (i.come n w).sift n := by
  have hinboxes : (w.inboxes.sift n).modify n (fun box =>
        { box with
          items := box.items ++ i.messages.filter Session.isAnswer
          hasSender := box.hasSender && !i.closes }) =
      Inboxes.sift (w.inboxes.modify n fun box =>
        { box with
          items := box.items ++ i.messages
          hasSender := box.hasSender && !i.closes }) n := by
    simp only [Inboxes.sift, Inboxes.modify_modify, Function.comp_def, List.filter_append]
  simp only [come, sift, World.sift, hinboxes]

end Instant

namespace Session

variable {σ : Type} [Storage σ] {c : FirmwareConfig} {w w' x : World σ} {s s' : Session}
  {instants : List (Instant σ)} {sent : List (Nat × Frame)}

/-- A session has its turn at one instant after the other, and transmits some frames at some
times. -/
inductive Runs (c : FirmwareConfig) :
    World σ → Session → List (Instant σ) → List (Nat × Frame) → World σ → Session → Prop where
  | stays (w : World σ) (s : Session) : Runs c w s [] [] w s
  | turn {w w₁ w' : World σ} {s s₁ s' : Session} {i : Instant σ} {later : List (Instant σ)}
      {sent sent' : List (Nat × Frame)} (h : Settles c (i.come s.inbox w) s sent w₁ s₁)
      (hlater : Runs c w₁ s₁ later sent' w' s') :
    Runs c w s (i :: later) (sent ++ sent') w' s'

namespace Runs

/-- A run has one outcome only. -/
theorem unique {sent' : List (Nat × Frame)} {s₁ : Session}
    (h : Runs c w s instants sent w' s') (h' : Runs c w s instants sent' x s₁) :
    sent' = sent ∧ x = w' ∧ s₁ = s' := by
  induction h generalizing sent' x s₁ with
  | stays =>
    cases h'
    exact ⟨rfl, rfl, rfl⟩
  | turn hsettles _ ih =>
    cases h' with
    | turn hsettles' hlater' =>
      obtain ⟨rfl, rfl, rfl⟩ := hsettles.unique hsettles'
      obtain ⟨rfl, rfl, rfl⟩ := ih hlater'
      exact ⟨rfl, rfl, rfl⟩

theorem sift (h : Runs c w s instants sent w' s') :
    Runs c (w.sift s.inbox) s (instants.map Instant.sift) sent (w'.sift s.inbox) s' := by
  induction h with
  | stays => exact .stays _ _
  | @turn w w₁ w' s s₁ s' i later sent sent' hsettles hlater ih =>
    have hfirst := hsettles.sift
    rw [← Instant.come_sift] at hfirst
    rw [hsettles.inbox_eq] at ih
    exact .turn hfirst ih

theorem unsift {sifted : List (Instant σ)} (h : Runs c x s sifted sent w' s')
    (hx : x = w.sift s.inbox) (hsifted : sifted = instants.map Instant.sift) :
    ∃ left, Runs c w s instants sent left s' ∧ left.sift s.inbox = w' := by
  induction h generalizing w instants with
  | stays x s =>
    obtain rfl := List.map_eq_nil_iff.mp hsifted.symm
    exact ⟨w, .stays _ _, hx.symm⟩
  | @turn x x₁ w' s s₁ s' i later sent sent' hsettles hlater ih =>
    obtain ⟨first, rest, rfl, rfl, hrest⟩ := List.map_eq_cons_iff.mp hsifted.symm
    rw [hx, Instant.come_sift] at hsettles
    obtain ⟨left, hleft, hmade⟩ := hsettles.unsift rfl
    obtain ⟨last, hlast, hends⟩ := ih (by rw [hsettles.inbox_eq, hmade]) hrest.symm
    rw [hsettles.inbox_eq] at hends
    exact ⟨last, .turn hleft hlast, hends⟩

/-- A session that still waits for an answer at the end of a run has time left.  It has waited since
the beginning, or since some instant, and will until the time that is configured has passed since
then. -/
theorem wait (h : Runs c w s instants sent w' s') {deadline : Nat}
    (hlistening : s'.doing = .listening deadline) :
    (∀ i ∈ instants.getLast?, i.now < deadline) ∧
      (s' = s ∨ ∃ before i after, instants = before ++ i :: after ∧
        deadline = i.now + c.ackTimeout ∧
        ∃ w₁ sent₁ sent₂, Runs c w s (before ++ [i]) sent₁ w₁ s' ∧
          Runs c w₁ s' after sent₂ w' s') := by
  induction h with
  | stays => exact ⟨by simp, .inl rfl⟩
  | @turn w w₁ w' s s₁ s' i later sent sent' hsettles hlater ih =>
    obtain ⟨hlast, hwait⟩ := ih hlistening
    constructor
    · cases later with
      | nil =>
        cases hlater
        have hearly : i.now < deadline := (hsettles.wait hlistening).1
        simpa using hearly
      | cons next rest =>
        rw [List.getLast?_cons_cons]
        exact hlast
    · rcases hwait with rfl | ⟨before, j, after, rfl, hdeadline, w₂, sent₁, sent₂, hfirst, hrest⟩
      · rcases (hsettles.wait hlistening).2 with rfl | hbegan
        · exact .inl rfl
        · exact .inr ⟨[], i, later, rfl, hbegan, w₁, _, sent', .turn hsettles (.stays _ _), hlater⟩
      · exact .inr ⟨i :: before, j, after, rfl, hdeadline, w₂, _, sent₂, .turn hsettles hfirst,
          hrest⟩

end Runs

/-- All messages that are no answers can be taken out of the inbox of a session, and out of all that
comes into it: the session transmits the same frames at the same times, and it and everything else
is then the same, its progress and its result included.  And however many such messages there are,
a wait ends when the time that is configured has passed since its beginning. -/
theorem junk_changes_nothing (c : FirmwareConfig) (w : World σ) (s : Session)
    (instants : List (Instant σ)) :
    (∀ sent x s', (∃ w', Runs c w s instants sent w' s' ∧ w'.sift s.inbox = x) ↔
      Runs c (w.sift s.inbox) s (instants.map Instant.sift) sent x s') ∧
    (∀ sent sent' w' x s' s₁, Runs c w s instants sent w' s' →
      Runs c (w.sift s.inbox) s (instants.map Instant.sift) sent' x s₁ →
      sent' = sent ∧ s₁.dialogue.progress = s'.dialogue.progress ∧ s₁.result? = s'.result? ∧
        s₁ = s' ∧ x = w'.sift s.inbox) ∧
    ∀ sent w' s' deadline, Runs c w s instants sent w' s' → s'.doing = .listening deadline →
      (∀ i ∈ instants.getLast?, i.now < deadline) ∧
      (s' = s ∨ ∃ before i after, instants = before ++ i :: after ∧
        deadline = i.now + c.ackTimeout ∧
        ∃ w₁ sent₁ sent₂, Runs c w s (before ++ [i]) sent₁ w₁ s' ∧
          Runs c w₁ s' after sent₂ w' s') := by
  refine ⟨?_, ?_, fun _ _ _ _ h hlistening => h.wait hlistening⟩
  · intro sent x s'
    constructor
    · rintro ⟨w', hruns, rfl⟩
      exact hruns.sift
    · exact fun hruns => hruns.unsift rfl rfl
  · intro sent sent' w' x s' s₁ hruns hsifted
    obtain ⟨rfl, rfl, rfl⟩ := hruns.sift.unique hsifted
    exact ⟨rfl, rfl, rfl, rfl, rfl⟩

/-- A message of an ECU that is no answer. -/
def chatter : Message where
  id := .command 0 Opcode.reportStatus.code
  payload := [Status.normal.code]
  fits := by decide

/-- A session that has reset its ECU and waits for the answer. -/
def waiting : Session where
  ecu := 0
  interface := 0
  image := "image"
  prior := .normal
  inbox := 0
  dialogue := (Dialogue.start { ecu := 0, secure := false, verifyHeader := false }).hear .sent
  doing := .listening 1000

/-- The world in which it waits. -/
def waitingWorld : World Memory where
  registry := ⟨[{ protocol := .can, interface := 0, status := .updating }]⟩
  bus := { interfaces := 1 }
  storage := {}
  inboxes := { boxes := [{ depth := 8 }], inUse := Dictionary.insert ∅ 0 0 }

/-- The ECU sends other messages all the time, also when the time is up. -/
def chattering : List (Instant Memory) :=
  [{ now := 500, messages := [chatter, chatter] }, { now := 999, messages := [chatter] },
    { now := 1000, messages := [chatter] }]

/-- The session fails when the time is up, as it does with an ECU that is silent. -/
theorem chatter_passed_over : ∃ sent w' s',
    Runs {} waitingWorld waiting chattering sent w' s' ∧
      s'.result? = some (.error (.timeout .resetSent)) ∧
      Runs {} (waitingWorld.sift 0) waiting [{ now := 500 }, { now := 999 }, { now := 1000 }] sent
        (w'.sift 0) s' := by
  -- At each instant the messages are passed over.  After the last one the session gives up, gives
  -- its ECU back, stores the record and closes.
  have hruns : ∃ sent w' s', Runs {} waitingWorld waiting chattering sent w' s' ∧
      s'.result? = some (.error (.timeout .resetSent)) :=
    ⟨_, _, _,
      .turn (.goesOn rfl (.goesOn rfl (.waits rfl)))
        (.turn (.goesOn rfl (.waits rfl))
          (.turn (.goesOn rfl (.goesOn rfl (.goesOn rfl (.goesOn rfl (.goesOn rfl (.waits rfl))))))
            (.stays _ _))), rfl⟩
  obtain ⟨sent, w', s', hruns, hresult⟩ := hruns
  have halone := ((junk_changes_nothing {} waitingWorld waiting chattering).1 sent _ s').mp
    ⟨w', hruns, rfl⟩
  exact ⟨sent, w', s', hruns, hresult, halone⟩

end Session
end VehicleGateway
