import VehicleGateway.Proofs.Update.Delivery
import VehicleGateway.Proofs.Update.Ending

/-!
# The image that is checked and the image that is sent

A session that finds a header record reads the image twice: at first to check it, and then, chunk by
chunk, to send it.  Others may replace the image at any time, also in between.

* `Examined` and `Faithful` are about the first reading: the image that is checked is put together
  from what was read (`Move.measured`), and nothing is seen of the session before.
* `Guarded` says that a session with a header record sends nothing without the word of the key
  service.  `Course.checks` has all three for every session.
* `Lawful.carried` is about the second reading: each chunk carries a piece that was read then.
* `Rereads` says that the second reading finds what was checked; then the chunks carry the image
  (`flatten_prefix`), and all of it at the end (`whole_of_account`).  `rereads_of_shows` says that
  it does so if the storage shows the same image all the time.
-/

namespace VehicleGateway

open UpdateEvent (frames pieces hiddens)

/-- Whatever a storage gives of an image is of these bytes. -/
def Storage.Shows {σ : Type} [Storage σ] (storage : σ) (name : String) (image : Bytes) : Prop :=
  ∀ offset wanted data, Storage.readImage storage name offset wanted = .ok data →
    data = Bytes.window image offset wanted

namespace Move

variable {σ : Type} [Storage σ]

/-- The header record that a step finds, whatever stands in it. -/
def records (m : Move σ) : List Bytes :=
  match m.session.doing, m.session.dialogue.phase with
  | .ready, .unopened =>
    match Storage.readHeader m.before.storage m.session.image with
    | .ok (some data) => [data]
    | _ => []
  | _, _ => []

/-- What a step reads of the image, in order to compare it with its header. -/
def measured (m : Move σ) : List Bytes :=
  match m.session.doing, m.session.dialogue.phase with
  | .ready, .measuring _ image =>
    match Storage.readImage m.before.storage m.session.image image.length Dialogue.readSize with
    | .ok data => [data]
    | .error _ => []
  | _, _ => []

end Move

namespace Dialogue

variable {d d' : Dialogue} {t : Tiding}

/-- Nothing is seen of a dialogue that is not done with the header record. -/
theorem shows_of_early (h : d.Early) (carry : UInt8 → Bytes → Frame) (t : Tiding) :
    d.shows carry t = [] := by
  unfold Early at h
  unfold shows
  split <;> simp_all

theorem shows_of_ended {result : Except UpdateFault Unit} (h : d.phase = .ended result)
    (carry : UInt8 → Bytes → Frame) (t : Tiding) : d.shows carry t = [] := by
  unfold shows
  split <;> simp_all

/-- A dialogue that has not taken up its header record never did. -/
theorem Hears.unopened (h : Hears d t d') (hphase : d'.phase = .unopened) :
    d.phase = .unopened := by
  have hearly : d'.Early := by simp [Early, hphase]
  cases h with
  | ignored => exact hphase
  | opened | gathered | measured => cases hphase
  | read => exact absurd hearly (not_early_pack _ _)
  | answered => exact absurd hearly (not_early_proceed _ _)
  | failed | absent | verified | rejected | hidden | sent | refused => exact hearly.elim

/-- A dialogue that compares an image with its header, or has ended. -/
def Withheld (d : Dialogue) : Prop :=
  (∃ header image, d.phase = .measuring header image ∨ d.phase = .checking header image) ∨
    ∃ result, d.phase = .ended result

theorem Withheld.shows (h : d.Withheld) (carry : UInt8 → Bytes → Frame) (t : Tiding) :
    d.shows carry t = [] := by
  rcases h with ⟨header, image, hphase | hphase⟩ | ⟨result, hphase⟩
  · exact shows_of_early (by simp [Early, hphase]) carry t
  · exact shows_of_early (by simp [Early, hphase]) carry t
  · exact shows_of_ended hphase carry t

theorem withheld_openHeader (d : Dialogue) (data : Bytes) : (d.openHeader data).Withheld := by
  unfold openHeader
  split
  case h_1 => exact .inr ⟨_, rfl⟩
  case h_2 header _ =>
    split
    case isTrue => exact .inr ⟨_, rfl⟩
    case isFalse => exact .inl ⟨header, [], .inl rfl⟩

/-- Nothing but the word that a tag is right lets a dialogue go on. -/
theorem Hears.withheld (h : Hears d t d') (hbefore : d.Withheld)
    (hnone : d'.progress.version = none) : d'.Withheld := by
  have hnever {P : Prop} (hother : ∀ header image, d.phase ≠ .measuring header image ∧
      d.phase ≠ .checking header image) (hopen : ∀ result, d.phase ≠ .ended result) : P := by
    rcases hbefore with ⟨header, image, hphase | hphase⟩ | ⟨result, hphase⟩
    · exact absurd hphase (hother header image).1
    · exact absurd hphase (hother header image).2
    · exact absurd hphase (hopen result)
  cases h with
  | ignored => exact hbefore
  | failed | rejected | refused => exact .inr ⟨_, rfl⟩
  | gathered => exact .inl ⟨_, _, .inl rfl⟩
  | opened => exact .inl ⟨_, _, .inl rfl⟩
  | measured => exact .inl ⟨_, _, .inr rfl⟩
  | verified => cases hnone
  | absent hphase | read hphase | hidden hphase | sent hphase | answered hphase =>
    exact hnever (by simp [hphase]) (by simp [hphase])

end Dialogue

namespace Session

variable {σ : Type} [Storage σ] {c : FirmwareConfig} {start s s' : Session} {steps : List (Move σ)}
  {w w' : World σ}

/-! ## The first reading -/

/-- A session that finds a header record takes it up. -/
theorem step?_of_records {data : Bytes} (h : s.step? c w = some (w', s'))
    (hdata : data ∈ Move.records ⟨w, s, w', s'⟩) :
    s.dialogue.phase = .unopened ∧ s' = s.tell (.header (some data)) := by
  unfold Move.records at hdata
  split at hdata
  case h_2 => cases hdata
  case h_1 hdoing hphase =>
    dsimp only at hdoing hphase hdata
    split at hdata
    case h_2 => cases hdata
    case h_1 record hread =>
      obtain rfl := List.mem_singleton.mp hdata
      simp only [step?, hdoing, Dialogue.wish?, hphase, turnTo, hread, ofStorage,
        Option.some.injEq] at h
      exact ⟨hphase, (Prod.mk.inj h).2.symm⟩

/-- At a step a piece of the image is measured, or the dialogue is told of no such piece. -/
theorem step?_measures (h : s.step? c w = some (w', s')) :
    (∃ header image piece, s.dialogue.phase = .measuring header image ∧
        Storage.readImage w.storage s.image image.length Dialogue.readSize = .ok piece ∧
        Move.measured ⟨w, s, w', s'⟩ = [piece] ∧
        s'.dialogue = s.dialogue.gather header image piece) ∨
      Move.measured ⟨w, s, w', s'⟩ = [] ∧ (s'.dialogue = s.dialogue ∨
        ∃ t, s'.dialogue = s.dialogue.hear t ∧ ∀ header image,
          s.dialogue.phase = .measuring header image → ∀ piece, t ≠ .image piece) := by
  by_cases hmeasures : s.doing = .ready ∧ ∃ header image, s.dialogue.phase = .measuring header image
  · obtain ⟨hready, header, image, hphase⟩ := hmeasures
    simp only [step?, hready, Dialogue.wish?, hphase, turnTo, Option.some.injEq] at h
    obtain ⟨rfl, rfl⟩ := Prod.mk.inj h
    cases hread : Storage.readImage w.storage s.image image.length Dialogue.readSize with
    | ok piece =>
      refine .inl ⟨header, image, piece, hphase, hread, ?_, ?_⟩
      · simp [Move.measured, hready, hphase, hread]
      · simp only [tell, ofStorage, Dialogue.hear, hphase]
    | error fault =>
      refine .inr ⟨by simp [Move.measured, hready, hphase, hread], .inr ⟨_, rfl, ?_⟩⟩
      simp [ofStorage]
  · refine .inr ⟨?_, ?_⟩
    · unfold Move.measured
      split
      case h_1 hready hphase => exact absurd ⟨hready, _, _, hphase⟩ hmeasures
      case h_2 => rfl
    · rcases step?_told h with hsame | ⟨t, htold, rfl⟩
      · exact .inl hsame
      · refine .inr ⟨t, rfl, ?_⟩
        rintro header image hphase piece rfl
        exact hmeasures ⟨htold.of_image.1, header, image, hphase⟩

/-- How an image is read that is compared with a header. -/
structure Examined (steps : List (Move σ)) (s : Session) : Prop where
  /-- Nothing is seen of a session before it is done with the header record. -/
  unseen : s.dialogue.Early → steps.flatMap Move.events = []
  /-- The image is not read before the header record. -/
  unread : s.dialogue.phase = .unopened → steps.flatMap Move.measured = []
  read : ∀ header image, s.dialogue.phase = .measuring header image ∨
    s.dialogue.phase = .checking header image → image = (steps.flatMap Move.measured).flatten

theorem examined_start (hdialogue : s.dialogue = .start s.dialogue.terms) :
    Examined ([] : List (Move σ)) s := by
  refine ⟨fun _ => rfl, fun _ => rfl, ?_⟩
  intro header image hphase
  rw [hdialogue, Dialogue.start] at hphase
  split at hphase <;> simp [Dialogue.sendReset, Dialogue.sendByte] at hphase

theorem Examined.step (h : Examined steps s) (hs : s.Coherent)
    (hstep : s.step? c w = some (w', s')) : Examined (steps ++ [⟨w, s, w', s'⟩]) s' := by
  obtain ⟨-, htells⟩ := step?_tells hs hstep
  have hunseen (hearly : s'.dialogue.Early) :
      (steps ++ [(⟨w, s, w', s'⟩ : Move σ)]).flatMap Move.events = [] := by
    rw [List.flatMap_append, List.flatMap_singleton]
    rcases htells with ⟨hevents, hsame⟩ | ⟨t, hheard, hevents⟩
    · dsimp only at hsame
      rw [hevents, h.unseen (by rwa [← hsame])]
      rfl
    · dsimp only at hheard hevents
      rw [hheard] at hearly
      have hbefore := (s.dialogue.hears t).early hearly
      rw [hevents, h.unseen hbefore, Dialogue.shows_of_early hbefore]
      rfl
  rcases step?_measures hstep with ⟨header, image, piece, hphase, -, hpiece, hgathered⟩ |
    ⟨hnothing, htold⟩
  · have hfound := h.read header image (.inl hphase)
    refine ⟨hunseen, ?_, ?_⟩
    all_goals
      rw [List.flatMap_append, List.flatMap_singleton, hpiece, hgathered]
      rcases s.dialogue.gather_cases header image piece with
        ⟨rfl, -, hnext⟩ | hnext | ⟨reason, hnext⟩ <;> rw [hnext]
    · simp
    · simp
    · simp [Dialogue.reject, Dialogue.fail, Dialogue.close]
    · rintro header' image' (hphase' | hphase') <;> cases hphase'
      simpa using hfound
    · rintro header' image' (hphase' | hphase') <;> cases hphase'
      simp [hfound]
    · rintro header' image' (hphase' | hphase') <;> cases hphase'
  · have hsame : (steps ++ [(⟨w, s, w', s'⟩ : Move σ)]).flatMap Move.measured =
        steps.flatMap Move.measured := by
      rw [List.flatMap_append, List.flatMap_singleton, hnothing, List.append_nil]
    rcases htold with hkept | ⟨t, hheard, hother⟩
    · refine ⟨hunseen, ?_, ?_⟩
      · rw [hsame, hkept]
        exact h.unread
      · rw [hsame, hkept]
        exact h.read
    · have hhears := s.dialogue.hears t
      rw [← hheard] at hhears
      refine ⟨hunseen, ?_, ?_⟩
      · rw [hsame]
        exact fun hunopened => h.unread (hhears.unopened hunopened)
      · rw [hsame]
        rintro header image (hphase | hphase)
        · rcases hhears.measuring hphase with hbefore | ⟨_, hunopened, -, -, -, rfl⟩ |
            ⟨found, piece, hfound, ht, -⟩
          · exact h.read header image (.inl hbefore)
          · rw [h.unread hunopened]
            rfl
          · exact absurd ht (hother header found hfound piece)
        · rcases hhears.checking hphase with hbefore | ⟨hfound, ht, -⟩
          · exact h.read header image (.inr hbefore)
          · exact absurd ht (hother header image hfound [])

/-- As long as the storage shows an image, what is compared with a header is of that image. -/
def Faithful (steps : List (Move σ)) (image : Bytes) (s : Session) : Prop :=
  (∀ m ∈ steps, Storage.Shows m.before.storage m.session.image image) →
    (∀ header found, s.dialogue.phase = .measuring header found → found <+: image) ∧
      ∀ header found, s.dialogue.phase = .checking header found → found = image

theorem Faithful.step {image : Bytes} (h : Faithful steps image s)
    (hstep : s.step? c w = some (w', s')) :
    Faithful (steps ++ [⟨w, s, w', s'⟩]) image s' := by
  intro hall
  obtain ⟨hshows, hnow⟩ := List.forall_mem_append.mp hall
  replace hnow : Storage.Shows w.storage s.image image := hnow _ (List.mem_singleton_self _)
  obtain ⟨hpart, hwhole⟩ := h hshows
  rcases step?_measures hstep with ⟨header, found, piece, hphase, hread, -, hgathered⟩ |
    ⟨-, hsame | ⟨t, hheard, hother⟩⟩
  · -- What was found so far is of the image, and the piece is what stands behind it.
    obtain ⟨rest, rfl⟩ := hpart header found hphase
    have hpiece := hnow _ _ _ hread
    simp only [Bytes.window, List.drop_left] at hpiece
    rw [hgathered]
    rcases s.dialogue.gather_cases header found piece with
      ⟨hend, -, hnext⟩ | hnext | ⟨reason, hnext⟩ <;> rw [hnext]
    · refine ⟨by simp, ?_⟩
      intro header' found' hchecking
      cases hchecking
      -- Nothing stands behind it, so it is all of the image.
      have hnil : rest = [] := by
        rw [hend] at hpiece
        cases rest with
        | nil => rfl
        | cons b rest => simp [Dialogue.readSize] at hpiece
      rw [hnil, List.append_nil]
    · refine ⟨?_, by simp⟩
      intro header' found' hmeasuring
      cases hmeasuring
      rw [hpiece]
      exact (List.prefix_append_right_inj _).mpr (List.take_prefix _ _)
    · simp [Dialogue.reject, Dialogue.fail, Dialogue.close]
  · rw [hsame]
    exact ⟨hpart, hwhole⟩
  · have hhears := s.dialogue.hears t
    rw [← hheard] at hhears
    refine ⟨?_, ?_⟩
    · intro header found hphase
      rcases hhears.measuring hphase with hbefore | ⟨_, -, -, -, -, rfl⟩ |
        ⟨before, piece, hbefore, ht, -⟩
      · exact hpart header found hbefore
      · exact List.nil_prefix
      · exact absurd ht (hother header before hbefore piece)
    · intro header found hphase
      rcases hhears.checking hphase with hbefore | ⟨hbefore, ht, -⟩
      · exact hwhole header found hbefore
      · exact absurd ht (hother header found hbefore [])

/-- Without the word that the tag is right, nothing is seen of a session with a header record. -/
def Guarded (steps : List (Move σ)) (s : Session) : Prop :=
  (∃ m ∈ steps, m.records ≠ []) → s.dialogue.progress.version = none →
    steps.flatMap Move.events = [] ∧ s.dialogue.Withheld

theorem Guarded.step (h : Guarded steps s) (hexamined : Examined steps s) (hs : s.Coherent)
    (hstep : s.step? c w = some (w', s')) : Guarded (steps ++ [⟨w, s, w', s'⟩]) s' := by
  obtain ⟨-, htells⟩ := step?_tells hs hstep
  rintro ⟨m, hm, hrecords⟩ hnone
  rw [List.flatMap_append, List.flatMap_singleton]
  rcases List.mem_append.mp hm with hold | hnew
  · rcases htells with ⟨hevents, hsame⟩ | ⟨t, hheard, hevents⟩
    · dsimp only at hsame
      rw [hsame] at hnone ⊢
      rw [hevents, List.append_nil]
      exact h ⟨m, hold, hrecords⟩ hnone
    · dsimp only at hheard hevents
      have hhears := s.dialogue.hears t
      rw [← hheard] at hhears
      have hbefore : s.dialogue.progress.version = none := by
        rcases hhears.version with hkept | ⟨header, image, -, -, hnoted⟩
        · exact hkept.symm.trans hnone
        · exact nomatch hnoted.symm.trans hnone
      obtain ⟨hunseen, hwithheld⟩ := h ⟨m, hold, hrecords⟩ hbefore
      refine ⟨?_, hhears.withheld hwithheld hnone⟩
      rw [hunseen, hevents, hwithheld.shows]
      rfl
  · obtain rfl := List.mem_singleton.mp hnew
    obtain ⟨data, hdata⟩ := List.exists_mem_of_ne_nil _ hrecords
    obtain ⟨hunopened, hnext⟩ := step?_of_records hstep hdata
    have hearly : s.dialogue.Early := by simp [Dialogue.Early, hunopened]
    constructor
    · rw [hexamined.unseen hearly]
      rcases htells with ⟨hevents, -⟩ | ⟨t, -, hevents⟩
      · exact hevents
      · rw [hevents, Dialogue.shows_of_early hearly]
        rfl
    · have hheard : s'.dialogue = s.dialogue.openHeader data := by
        rw [hnext]
        simp only [tell, Dialogue.hear, hunopened]
      rw [hheard]
      exact s.dialogue.withheld_openHeader data

/-- All that holds of a session and its steps when it comes to checking a header. -/
theorem Course.checks {x x' : World σ} {ecu : EcuNo} {name : String} {secure : Bool}
    (h : Course c start steps s) (hstart : x.startUpdate c ecu name secure = .ok (x', start)) :
    Examined steps s ∧ Guarded steps s ∧ ∀ image, Faithful steps image s := by
  obtain ⟨-, -, -, hdialogue, hterms⟩ := startUpdate_session hstart
  have hexamined : Examined ([] : List (Move σ)) start := by
    refine examined_start ?_
    rw [hterms]
    exact hdialogue
  have hphase (header : FirmwareHeader) (found : Bytes) :
      start.dialogue.phase ≠ .measuring header found ∧
        start.dialogue.phase ≠ .checking header found := by
    rw [hdialogue, Dialogue.start]
    split <;> simp [Dialogue.sendReset, Dialogue.sendByte]
  refine h.induction (motive := fun steps s => Examined steps s ∧ Guarded steps s ∧
    ∀ image, Faithful steps image s) (onRecord_start hstart).coherent ⟨hexamined, ?_, ?_⟩ ?_
  · rintro ⟨m, hm, -⟩
    cases hm
  · intro image _
    exact ⟨fun header found hmeasuring => absurd hmeasuring (hphase header found).1,
      fun header found hchecking => absurd hchecking (hphase header found).2⟩
  · rintro steps w s w' s' hs ⟨hexamined, hguarded, hfaithful⟩ hstep
    exact ⟨hexamined.step hs hstep, hguarded.step hexamined hs hstep,
      fun image => (hfaithful image).step hstep⟩

/-- The log of a session goes with its dialogue. -/
theorem Course.account {x x' : World σ} {ecu : EcuNo} {name : String} {secure : Bool}
    (h : Course c start steps s) (hstart : x.startUpdate c ecu name secure = .ok (x', start)) :
    start.Account (steps.flatMap Move.events) s.dialogue := by
  obtain ⟨worlds, rfl, rfl⟩ := h
  exact (account_after hstart worlds).2

/-! ## The second reading -/

/-- The pieces that are read in order to be sent are pieces of an image. -/
def Rereads (log : List UpdateEvent) (image : Bytes) : Prop :=
  ∀ p ∈ pieces log, p.2 = Bytes.window image p.1 Firmware.chunkSize

/-- Each chunk carries a piece that was read, filled up with zeros; if the update is encrypted, the
key service has made it of that and of the challenge. -/
def Carried (s : Session) (log : List UpdateEvent) : Prop :=
  ∀ data, s.chunkFrame data ∈ frames log → ∃ p ∈ pieces log, p.2 ≠ [] ∧
    if s.secure then
      (Bytes.padTo p.2 Firmware.chunkSize ++ challengeIn log, data) ∈ hiddens log
    else data = Bytes.padTo p.2 Firmware.chunkSize

/-- What is read at a step is what the storage gives then. -/
theorem of_mem_pieces {p : Nat × Bytes} (h : p ∈ pieces (steps.flatMap Move.events)) :
    ∃ m ∈ steps, p ∈ m.read ∧ Storage.readImage m.before.storage m.session.image p.1
      Firmware.chunkSize = .ok p.2 := by
  obtain ⟨m, hm, hseen⟩ := List.mem_flatMap.mp (mem_pieces.mp h)
  have hread := piece_mem_events.mp hseen
  refine ⟨m, hm, hread, ?_⟩
  unfold Move.read at hread
  split at hread
  case h_2 => cases hread
  case h_1 =>
    dsimp only at hread
    split at hread
    case h_2 => cases hread
    case h_1 data hdata =>
      obtain rfl := List.mem_singleton.mp hread
      exact hdata

theorem of_mem_hiddens {p : Bytes × Bytes} (h : p ∈ hiddens (steps.flatMap Move.events)) :
    ∃ m ∈ steps, p ∈ m.encrypted := by
  obtain ⟨m, hm, hseen⟩ := List.mem_flatMap.mp (mem_hiddens.mp h)
  exact ⟨m, hm, hidden_mem_events.mp hseen⟩

/-- As long as the storage shows an image, it is that image that is sent. -/
theorem rereads_of_shows {image : Bytes}
    (h : ∀ m ∈ steps, Storage.Shows m.before.storage m.session.image image) :
    Rereads (steps.flatMap Move.events) image := by
  intro p hp
  obtain ⟨m, hm, -, hread⟩ := of_mem_pieces hp
  exact h m hm _ _ _ hread

omit [Storage σ] in
/-- A chunk among the frames for some pieces is for one of them. -/
theorem of_mem_body {ps payloads : List Bytes} {data : Bytes}
    (h : s.chunkFrame data ∈ s.body ps payloads) :
    ∃ before piece after, ps = before ++ piece :: after ∧ piece ≠ [] ∧ (∀ q ∈ before, q ≠ []) ∧
      payloads[before.length]? = some data := by
  have hfinish : s.chunkFrame data ∉ [s.finishFrame] := fun hmem =>
    s.chunkFrame_ne_frame _ _ (List.mem_singleton.mp hmem)
  induction ps generalizing payloads with
  | nil => cases h
  | cons piece rest ih =>
    cases piece with
    | nil => exact absurd h hfinish
    | cons b piece =>
      cases payloads with
      | nil => cases h
      | cons payload payloads =>
        rcases List.mem_cons.mp h with hfirst | hlater
        · have hsame : data = payload := congrArg Frame.data hfirst
          exact ⟨[], b :: piece, rest, rfl, by simp, by simp, by simp [hsame]⟩
        · split at hlater
          case isTrue => exact absurd hlater hfinish
          case isFalse =>
            obtain ⟨before, found, after, rfl, hne, hfull, hpayload⟩ := ih hlater
            exact ⟨(b :: piece) :: before, found, after, rfl, hne, by simpa using hfull,
              by simpa using hpayload⟩

omit [Storage σ] in
theorem Lawful.carried {log : List UpdateEvent} (h : s.Lawful log) : s.Carried log := by
  intro data hdata
  have hbody :
      s.chunkFrame data ∈ s.body ((UpdateEvent.pieces log).map (·.2)) (s.payloads log) := by
    have hscript := h.frames.subset hdata
    rw [script, canonical, List.mem_cons, List.mem_cons] at hscript
    rcases hscript with hreset | hopening | hbody
    · exact absurd hreset (s.chunkFrame_ne_frame _ _)
    · exact absurd hopening (s.chunkFrame_ne_frame _ _)
    · exact hbody
  obtain ⟨before, piece, after, hpieces, hne, hfull, hpayload⟩ := of_mem_body hbody
  obtain ⟨front, back, hall, rfl, hback⟩ := List.map_eq_append_iff.mp hpieces
  obtain ⟨p, rest, rfl, rfl, -⟩ := List.map_eq_cons_iff.mp hback
  rw [List.length_map] at hpayload
  refine ⟨p, by simp [hall], hne, ?_⟩
  cases hsecure : s.secure with
  | false =>
    simp only [payloads, hsecure, hall] at hpayload
    simpa using hpayload.symm
  | true =>
    simp only [payloads, hsecure, if_true, List.getElem?_map, Option.map_eq_some_iff] at hpayload
    obtain ⟨⟨plain, cipher⟩, hhidden, rfl⟩ := hpayload
    -- The texts are those of the pieces that are not empty, and so are all pieces before this one.
    have htext : (s.texts log)[front.length]? = some plain := by
      obtain ⟨later, htexts⟩ := h.texts
      rw [← htexts, List.getElem?_append_left, List.getElem?_map, hhidden]
      · rfl
      · rw [List.length_map]
        exact (List.getElem?_eq_some_iff.mp hhidden).1
    have hfront : (front.filter fun q => !q.2.isEmpty) = front := by
      rw [List.filter_eq_self]
      intro q hq
      simpa using hfull q.2 (List.mem_map_of_mem hq)
    have hp : p.2.isEmpty = false := by simpa using hne
    simp only [Session.texts, hsecure, if_true, hall, List.filter_append, hfront,
      List.filter_cons, hp, Bool.not_false, List.map_append, List.map_cons] at htext
    rw [List.getElem?_append_right (by simp)] at htext
    simp only [List.length_map, Nat.sub_self, List.getElem?_cons_zero, Option.some.injEq] at htext
    rw [if_pos rfl, htext]
    exact List.mem_of_getElem? hhidden

omit [Storage σ] in
/-- Pieces of an image that are read in order are the beginning of what stands there. -/
theorem flatten_prefix {image : Bytes} {offset : Nat} {ps : List (Nat × Bytes)}
    (horder : InOrder offset ps)
    (htrue : ∀ p ∈ ps, p.2 = Bytes.window image p.1 Firmware.chunkSize) :
    (ps.map (·.2)).flatten <+: image.drop offset := by
  induction ps generalizing offset with
  | nil => exact List.nil_prefix
  | cons p rest ih =>
    obtain ⟨place, data⟩ := p
    obtain ⟨rfl, hfull, horder⟩ := horder
    obtain ⟨hdata, hrest⟩ := List.forall_mem_cons.mp htrue
    dsimp only [Bytes.window] at hdata
    simp only [List.map_cons, List.flatten_cons]
    rcases hfull with rfl | hlong
    · simpa [hdata] using List.take_prefix _ _
    · -- A whole chunk was read, so the next piece stands right behind it.
      have hlength := congrArg List.length hdata
      rw [List.length_take, List.length_drop] at hlength
      have hsize : data.length = Firmware.chunkSize := by omega
      have hsplit : image.drop place = data ++ image.drop (place + data.length) := by
        rw [← List.drop_drop, hsize, hdata, List.take_append_drop]
      rw [hsplit]
      exact (List.prefix_append_right_inj _).mpr (ih horder hrest)

omit [Storage σ] in
/-- When an update has succeeded, the pieces that it has read of an image are all of it, and the
chunks deliver it. -/
theorem whole_of_account {log : List UpdateEvent} {d : Dialogue} {image : Bytes}
    (h : s.Account log d) (hended : d.result? = some (.ok ())) (htrue : Rereads log image) :
    ((pieces log).map (·.2)).flatten = image ∧ d.progress.bytes = image.length ∧
      ∀ key, (s.secure = true → ∀ p ∈ hiddens log,
        Block.encryptChain key Block.zero p.1 = .ok p.2) → s.Delivers key log image := by
  have hlawful := h.sound.lawful
  have hphase : d.phase = .ended (.ok ()) := by
    unfold Dialogue.result? at hended
    split at hended
    case h_1 result hphase => rw [hphase, Option.some.inj hended]
    case h_2 => cases hended
  obtain ⟨-, hform⟩ := h
  simp only [hphase] at hform
  obtain ⟨t, last, hvalid, -, hlast, ⟨-, hbytes, -⟩, hlog⟩ := hform
  have hread := (finished_log t last hlog).2.1
  have hpieces := htrue
  unfold Rereads at hpieces
  rw [hread] at hpieces
  obtain ⟨-, hsize, -⟩ := image_read hvalid hlast hpieces
  refine ⟨?_, hbytes.trans hsize, fun key => delivers_of_finished hvalid hlast hlog htrue⟩
  have hprefix := flatten_prefix hlawful.pieces htrue
  rw [List.drop_zero] at hprefix
  refine hprefix.eq_of_length ?_
  rw [← hsize, hread, List.map_append, Transfer.placed_map_snd]
  cases last <;> simp [Transfer.bytesIn, Transfer.all, List.flatMap]

end Session
end VehicleGateway
