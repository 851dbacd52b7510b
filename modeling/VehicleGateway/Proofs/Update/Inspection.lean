import VehicleGateway.Proofs.Update.Checked

/-!
# The check of an image by its header record

What becomes of a session that finds a header record, in a run without end in which the storage
keeps the record and the image until the check is over, and an element has a key for tags.

* `RightRecord` says of the bytes of a record that they fit an ECU, an image and a key;
  `rightRecord_iff` reads it off the header.
* `Inspection` is what the rest of the world does for the check.  `reading_ends` follows the reading
  of the image, by induction on what is not read yet, and `verdict_comes` the check of its tag.
* `header_check_decides`: the session sends its first frame if the record is right; otherwise it
  sends none, and the status that it leaves its ECU with is `Status.corrupted`.
-/

namespace VehicleGateway

open UpdateEvent (frames)

/-! ## The record -/

/-- Bytes that are the record of a full update for an ECU, with the length of an image and its tag
under a key. -/
structure RightRecord (record : Bytes) (ecu : EcuNo) (image : Bytes) (key : Key) : Prop where
  size : record.length = 26
  opcode : record[0]? = some 1
  length : ∃ n : UInt32, Bytes.window record 5 4 = Bytes.ofWordBig n ∧ n.toNat = image.length
  target : record[9]? = some ecu
  tag : record.drop 10 = (Mac.tag key image).toList

namespace FirmwareHeader

variable {record image : Bytes} {ecu : EcuNo} {key : Key}

/-- The parts of the written form of a header. -/
theorem rightRecord_encode (h : FirmwareHeader) :
    RightRecord h.encode ecu image key ↔ h.opcode = fullUpdate ∧ h.target = ecu ∧
      h.length.toNat = image.length ∧ h.tag = Mac.tag key image := by
  have hwindow : Bytes.window h.encode 5 4 = Bytes.ofWordBig h.length := rfl
  have htag : h.encode.drop 10 = h.tag.toList := rfl
  have hspells {n : UInt32} (hn : Bytes.ofWordBig h.length = Bytes.ofWordBig n) : h.length = n := by
    simp only [Bytes.ofWordBig, List.cons.injEq] at hn
    rw [← Bytes.wordBig_bytes h.length, hn.1, hn.2.1, hn.2.2.1, hn.2.2.2.1, Bytes.wordBig_bytes]
  constructor
  · rintro ⟨-, hopcode, ⟨n, hn, himage⟩, htarget, hright⟩
    rw [hwindow] at hn
    rw [htag] at hright
    exact ⟨Option.some.inj hopcode, Option.some.inj htarget, by rw [hspells hn, himage],
      Vector.toList_inj.mp hright⟩
  · rintro ⟨hopcode, htarget, himage, hright⟩
    exact ⟨h.length_encode, congrArg some hopcode, ⟨h.length, hwindow, himage⟩,
      congrArg some htarget, by rw [htag, hright]⟩

/-- As many bytes as a header has are its written form, whatever stands in them. -/
theorem exists_encode (h : record.length = writtenLength) :
    ∃ header : FirmwareHeader, record = header.encode := by
  match record, h with
  | opcode :: v3 :: v2 :: v1 :: v0 :: l3 :: l2 :: l1 :: l0 :: target :: rest, h =>
    have hrest : rest.toArray.size = 16 := by
      simpa [writtenLength] using h
    refine ⟨⟨opcode, Bytes.wordBig v3 v2 v1 v0, Bytes.wordBig l3 l2 l1 l0, target,
      ⟨rest.toArray, hrest⟩⟩, ?_⟩
    simp [encode, Bytes.ofWordBig_wordBig]

/-- A record is right if it is a header that is meant for the ECU and has the length and the tag of
the image. -/
theorem rightRecord_iff : RightRecord record ecu image key ↔
    ∃ header, decode record = .ok header ∧ header.target = ecu ∧
      header.length.toNat = image.length ∧ header.tag = Mac.tag key image := by
  constructor
  · intro h
    obtain ⟨header, rfl⟩ := exists_encode h.size
    obtain ⟨hopcode, hfits⟩ := header.rightRecord_encode.mp h
    exact ⟨header, header.decode_encode hopcode, hfits⟩
  · rintro ⟨header, hdecode, hfits⟩
    obtain ⟨rfl, hopcode⟩ := encode_of_decode hdecode
    exact header.rightRecord_encode.mpr ⟨hopcode, hfits⟩

end FirmwareHeader

/-! ## The key -/

/-- The device is an element that answers by itself, has a key for tags in a slot and answers before
the service gives up. -/
structure Vault.Judges (v : Vault) (slot : KeySlot) (key : Key) : Prop where
  stands : v.device.stands = []
  key : v.device.element.macKey slot = .ok key
  latency : v.device.latency ≤ v.service.timeout

theorem Vault.Judges.replies {v : Vault} {slot : KeySlot} {key : Key} (h : v.Judges slot key)
    (image : Bytes) (tag : Vector UInt8 16) :
    v.Replies (.checkMac slot image tag) (.verified (Mac.verify key image tag.toList)) :=
  ⟨h.stands, by simp [Element.execute, h.key, Except.map], h.latency⟩

theorem Mac.verify_iff {key : Key} {image : Bytes} {tag : Vector UInt8 16} :
    Mac.verify key image tag.toList = true ↔ tag = Mac.tag key image := by
  rw [Mac.verify, decide_eq_true_iff, Vector.toList_inj, eq_comm]

namespace Session

variable {σ : Type} [Storage σ] {c : FirmwareConfig} {s : Session} {w : Nat → World σ}
  {record image : Bytes} {key : Key} {i j : Nat} {d : Dialogue}

/-! ## What is seen meanwhile -/

/-- A session that is not done with the header record never was. -/
theorem early_turn (h : (s.turn c w i).dialogue.Early) (hji : j ≤ i) :
    (s.turn c w j).dialogue.Early := by
  induction i with
  | zero =>
    obtain rfl := Nat.le_zero.mp hji
    exact h
  | succ i ih =>
    rcases Nat.lt_or_eq_of_le hji with hlt | rfl
    case inr => exact h
    refine ih ?_ (Nat.le_of_lt_succ hlt)
    cases hstep : (s.turn c w i).step? c (w i) with
    | none =>
      rw [(turn_wait hstep).1] at h
      exact h
    | some next =>
      obtain ⟨x', s'⟩ := next
      rw [(turn_succ hstep).1] at h
      rcases step?_told hstep with hsame | ⟨t, -, rfl⟩
      · rwa [hsame] at h
      · exact ((s.turn c w i).dialogue.hears t).early h

/-- Nothing is seen of a session that is not done with the header record or has ended. -/
theorem log_of_unseen (hcoherent : s.Coherent)
    (h : ∀ l, l < i → (s.turn c w l).dialogue.Early ∨
      ∃ result, (s.turn c w l).dialogue.phase = .ended result) :
    s.log c (found w i) = [] := by
  induction i with
  | zero => rfl
  | succ i ih =>
    have hfound : found w (i + 1) = found w i ++ [w i] := by simp [found, List.range_succ]
    rw [hfound, log_append, ih fun l hl => h l (Nat.lt_succ_of_lt hl), ← turn_eq_after,
      List.nil_append]
    split
    case h_2 => rfl
    case h_1 x' s' hstep =>
      rcases (step?_tells (coherent_turn hcoherent i) hstep).2 with ⟨hnothing, -⟩ | ⟨t, -, hshown⟩
      · exact hnothing
      · rw [hshown]
        rcases h i (Nat.lt_succ_self i) with hearly | ⟨result, hended⟩
        · exact Dialogue.shows_of_early hearly _ t
        · exact Dialogue.shows_of_ended hended _ t

/-- A session changes no record before it gives its ECU back. -/
theorem registry_of_step? {s s' : Session} {x x' : World σ} (hstep : s.step? c x = some (x', s'))
    (h : s.doing ≠ .ready ∨ ∀ result, s.dialogue.phase ≠ .ended result) :
    x'.registry = x.registry := by
  cases step?_cases hstep with
  | turn wish => rw [(turnTo_keeps c x s wish).1]
  | release result hdoing hended =>
    rcases h with h | h
    · exact absurd hdoing h
    · exact absurd hended (h result)
  | land hdoing hland => exact (World.land_keeps hland).1
  | persist => exact (x.persist_keeps s.ecu).2.2
  | _ => rfl

theorem registry_left (h : (s.turn c w i).doing ≠ .ready ∨
    ∀ result, (s.turn c w i).dialogue.phase ≠ .ended result) :
    (s.left c w i).registry = (w i).registry := by
  cases hstep : (s.turn c w i).step? c (w i) with
  | none => rw [(turn_wait hstep).2]
  | some next =>
    obtain ⟨x', s'⟩ := next
    rw [(turn_succ hstep).2]
    exact registry_of_step? hstep h

/-! ## The check -/

/-- What the rest of the world does for the check of an image, as long as the check goes on. -/
structure Inspection (c : FirmwareConfig) (s : Session) (w : Nat → World σ) (record image : Bytes)
    (key : Key) : Prop where
  time : TimePasses w
  /-- The storage keeps the record. -/
  record : ∀ i, (s.turn c w i).dialogue.Early →
    Storage.readHeader (w i).storage s.image = .ok (some record)
  /-- The storage keeps the image and serves it. -/
  image : ∀ i offset wanted, (s.turn c w i).dialogue.Early →
    Storage.readImage (w i).storage s.image offset wanted = .ok (Bytes.window image offset wanted)
  /-- There is an element with a usable key that answers in time. -/
  judges : ∀ i, (s.turn c w i).dialogue.Early →
    ∃ vault, (w i).keys = some vault ∧ vault.Judges c.updateKey key
  /-- Nothing is under way for calls that were not made. -/
  idle : ∀ i vault n, (s.turn c w i).dialogue.Early → (w i).keys = some vault →
    vault.service.calls.length ≤ n → vault.underWay.get? n = none
  /-- The session's call has the token when its time to wait for it is up. -/
  token : ∀ i n vault, (s.turn c w i).dialogue.Early → (s.turn c w i).doing = .calling n →
    (w i).keys = some vault → vault.TokenInTime (w i).now n
  /-- Others leave the session's call alone. -/
  untouched : ∀ i n vault vault', (s.turn c w (i + 1)).dialogue.Early →
    (s.turn c w (i + 1)).doing = .calling n → (s.left c w i).keys = some vault →
      (w (i + 1)).keys = some vault' → vault.Untouched n vault'

variable {header : FirmwareHeader}

theorem Inspection.early (hready : s.Ready c w i d) (hearly : d.Early) :
    (s.turn c w i).dialogue.Early := by
  rw [hready.1]
  exact hearly

/-- The record is found. -/
theorem Inspection.record_comes (h : Inspection c s w record image key)
    (hready : s.Ready c w i d) (hphase : d.phase = .unopened) :
    s.Ready c w (i + 1) (d.openHeader record) := by
  have hname : (s.turn c w i).image = s.image := by rw [turn_keeps]
  have hearly : d.Early := by simp [Dialogue.Early, hphase]
  have hstep := hready.step? .header (by simp [Dialogue.wish?, hphase])
  simp only [turnTo, hname, h.record i (Inspection.early hready hearly), ofStorage] at hstep
  simpa [Dialogue.hear, hphase] using ready_of_tell hstep hready.1

/-- A piece of the image is read. -/
theorem Inspection.piece_comes (h : Inspection c s w record image key) (hready : s.Ready c w i d)
    {part : Bytes} (hphase : d.phase = .measuring header part) :
    s.Ready c w (i + 1)
      (d.gather header part (Bytes.window image part.length Dialogue.readSize)) := by
  have hname : (s.turn c w i).image = s.image := by rw [turn_keeps]
  have hearly : d.Early := by simp [Dialogue.Early, hphase]
  have hstep := hready.step? (.image part.length Dialogue.readSize)
    (by simp [Dialogue.wish?, hphase])
  simp only [turnTo, hname, h.image i _ _ (Inspection.early hready hearly), ofStorage] at hstep
  simpa [Dialogue.hear, hphase] using ready_of_tell hstep hready.1

/-- The check has come to an end: every turn before was part of it. -/
def Inspected (c : FirmwareConfig) (s : Session) (w : Nat → World σ) (i j : Nat) : Prop :=
  i ≤ j ∧ ∀ l, i ≤ l → l < j → (s.turn c w l).dialogue.Early

theorem Inspected.next (hready : s.Ready c w i d) (hearly : d.Early) :
    Inspected c s w i (i + 1) := by
  refine ⟨Nat.le_succ i, ?_⟩
  intro l hil hl
  obtain rfl := Nat.le_antisymm (Nat.le_of_lt_succ hl) hil
  exact Inspection.early hready hearly

theorem Inspected.trans {k : Nat} (h : Inspected c s w i j) (hnext : Inspected c s w j k) :
    Inspected c s w i k := by
  refine ⟨h.1.trans hnext.1, ?_⟩
  intro l hil hlk
  rcases Nat.lt_or_ge l j with hlj | hjl
  · exact h.2 l hil hlj
  · exact hnext.2 l hjl hlk

/-- The image is read until its length is known to be right or wrong. -/
theorem Inspection.reading_ends (h : Inspection c s w record image key) {part rest : Bytes}
    (himage : image = part ++ rest) (hready : s.Ready c w i d)
    (hphase : d.phase = .measuring header part) :
    ∃ j, Inspected c s w i j ∧
      if image.length = header.length.toNat then
        s.Ready c w j { d with phase := .checking header image }
      else ∃ reason, s.Ready c w j (d.reject reason) := by
  induction hleft : rest.length using Nat.strong_induction_on generalizing part rest i d with
  | _ left ih =>
    have hearly : d.Early := by simp [Dialogue.Early, hphase]
    have hread := h.piece_comes hready hphase
    have hnext := Inspected.next hready hearly
    have hpiece : Bytes.window image part.length Dialogue.readSize =
        rest.take Dialogue.readSize := by
      rw [himage, Bytes.window, List.drop_left]
    rw [hpiece] at hread
    generalize hsome : rest.take Dialogue.readSize = piece at hread
    have hlonger : part.length + piece.length ≤ image.length := by
      rw [himage, ← hsome, List.length_append, List.length_take]
      omega
    unfold Dialogue.gather at hread
    split_ifs at hread with hend hlong
    · -- There is no more of the image.
      have hnil : rest = [] := by
        rw [List.isEmpty_iff.mp hend] at hsome
        simpa [Dialogue.readSize] using hsome
      have hwhole : part = image := by rw [himage, hnil, List.append_nil]
      rw [hwhole] at hread
      refine ⟨i + 1, hnext, ?_⟩
      unfold Dialogue.measure at hread
      by_cases hright : image.length = header.length.toNat
      · rw [if_neg (not_not_intro hright)] at hread
        rwa [if_pos hright]
      · rw [if_pos hright] at hread
        rw [if_neg hright]
        exact ⟨_, hread⟩
    · -- More of it was found than the header allows.
      rw [List.length_append] at hlong
      have hwrong : image.length ≠ header.length.toNat := by omega
      refine ⟨i + 1, hnext, ?_⟩
      rw [if_neg hwrong]
      unfold Dialogue.measure at hread
      rw [if_pos (by rw [List.length_append]; omega)] at hread
      exact ⟨_, hread⟩
    · -- There may be more of it.
      have hpos : piece ≠ [] := by simpa using hend
      have hless : (rest.drop Dialogue.readSize).length < left := by
        have := List.length_pos_iff.mpr hpos
        rw [← hsome, List.length_take] at this
        rw [List.length_drop]
        simp only [Dialogue.readSize] at this ⊢
        omega
      have hwhole : image = (part ++ piece) ++ rest.drop Dialogue.readSize := by
        rw [himage, ← hsome, List.append_assoc, List.take_append_drop]
      obtain ⟨j, hj, hreached⟩ := ih _ hless hwhole hread rfl rfl
      exact ⟨j, hnext.trans hj, hreached⟩

/-- While a tag is checked the element is there to help. -/
theorem Inspection.keyHelp (h : Inspection c s w record image key)
    (hphase : d.phase = .checking header image) :
    KeyHelp c s w d (.checkMac c.updateKey image header.tag)
      (.verified (Mac.verify key image header.tag.toList)) := by
  have hearly {i : Nat} (hdialogue : (s.turn c w i).dialogue = d) :
      (s.turn c w i).dialogue.Early := by
    rw [hdialogue]
    simp [Dialogue.Early, hphase]
  refine ⟨?_, ?_, ?_, ?_⟩
  · intro i hdialogue
    obtain ⟨vault, hvault, hjudges⟩ := h.judges i (hearly hdialogue)
    exact ⟨vault, hvault, hjudges.replies image header.tag⟩
  · intro i vault n hdialogue
    exact h.idle i vault n (hearly hdialogue)
  · intro i n vault hdialogue
    exact h.token i n vault (hearly hdialogue)
  · intro i n vault vault' hdialogue
    exact h.untouched i n vault vault' (hearly hdialogue)

/-- The dialogue is told whether the tag is right. -/
theorem Inspection.verdict_comes (h : Inspection c s w record image key)
    (hready : s.Ready c w i d) (hphase : d.phase = .checking header image) :
    ∃ j, Inspected c s w i j ∧
      s.Ready c w j (d.judge header (Mac.verify key image header.tag.toList)) := by
  obtain ⟨j, hij, hreached, hbefore⟩ := (h.keyHelp hphase).answer_comes h.time hready
    (Dialogue.question?_of_checking c.updateKey hphase) rfl
  refine ⟨j, ⟨Nat.le_of_lt hij, ?_⟩, ?_⟩
  · intro l hil hlj
    rw [hbefore l hil hlj]
    simp [Dialogue.Early, hphase]
  · simpa [ofKeys, Dialogue.hear, hphase] using hreached

/-- The check ends, with the first frame if the record is right. -/
theorem Inspection.check_ends (h : Inspection c s w record image key)
    (hready : s.Ready c w i d) (hphase : d.phase = .unopened) :
    ∃ j, Inspected c s w i j ∧
      (RightRecord record d.terms.ecu image key ∧
          (∃ d' : Dialogue, s.Ready c w j d'.sendReset) ∨
        ¬ RightRecord record d.terms.ecu image key ∧ ∃ reason, s.Ready c w j (d.reject reason)) := by
  have hopened := h.record_comes hready hphase
  have hfirst := Inspected.next hready (by simp [Dialogue.Early, hphase])
  rw [FirmwareHeader.rightRecord_iff]
  unfold Dialogue.openHeader at hopened
  cases hdecode : FirmwareHeader.decode record with
  | error fault =>
    rw [hdecode] at hopened
    exact ⟨i + 1, hfirst, .inr ⟨by simp, _, hopened⟩⟩
  | ok header =>
    simp only [hdecode] at hopened
    -- What is right of the record is right of this header.
    have hright : (∃ header', (Except.ok header : Except HeaderFault FirmwareHeader) = .ok header' ∧
        header'.target = d.terms.ecu ∧ header'.length.toNat = image.length ∧
          header'.tag = Mac.tag key image) ↔
        header.target = d.terms.ecu ∧ image.length = header.length.toNat ∧
          Mac.verify key image header.tag.toList = true := by
      rw [Mac.verify_iff]
      constructor
      · rintro ⟨header', hsame, htarget, hlength, htag⟩
        obtain rfl := Except.ok.inj hsame
        exact ⟨htarget, hlength.symm, htag⟩
      · rintro ⟨htarget, hlength, htag⟩
        exact ⟨header, rfl, htarget, hlength.symm, htag⟩
    rw [hright]
    split_ifs at hopened with hother
    case pos => exact ⟨i + 1, hfirst, .inr ⟨fun hall => hother hall.1, _, hopened⟩⟩
    have htarget : header.target = d.terms.ecu := Decidable.of_not_not hother
    obtain ⟨j, hj, hreached⟩ := h.reading_ends (List.nil_append image).symm hopened rfl
    split_ifs at hreached with hlength
    case neg =>
      obtain ⟨reason, hreached⟩ := hreached
      exact ⟨j, hfirst.trans hj, .inr ⟨fun hall => hlength hall.2.1, reason, hreached⟩⟩
    obtain ⟨k, hk, hjudged⟩ := h.verdict_comes hreached rfl
    refine ⟨k, (hfirst.trans hj).trans hk, ?_⟩
    unfold Dialogue.judge at hjudged
    split_ifs at hjudged with htag
    · exact .inl ⟨⟨htarget, hlength, htag⟩, _, hjudged⟩
    · exact .inr ⟨fun hall => htag hall.2.2, _, hjudged⟩

/-! ## After the check -/

/-- What a session shows and does to the records from the turn on at which it finds its header
rejected. -/
structure Rejected (c : FirmwareConfig) (s : Session) (w : Nat → World σ) (j : Nat)
    (reason : String) : Prop where
  ended : ∀ i, j ≤ i → (s.turn c w i).dialogue.phase = .ended (.error (.badHeader reason))
  shown : ∀ i, j + 3 ≤ i → (s.turn c w i).stage = .failed ∧
    (s.turn c w i).report? = some (.error (.badHeader reason))
  /-- The ECU is released with a status that says that its firmware cannot be trusted. -/
  written : ∀ r, (w j).registry.get? s.ecu = some r →
    (s.left c w j).registry.get? s.ecu = some { r with status := .corrupted }
  /-- After that the session changes no record. -/
  kept : ∀ i, j < i → (s.left c w i).registry = (w i).registry

omit [Storage σ] in
theorem windingUp_ne_ready (k : Nat) : windingUp k ≠ .ready := by
  match k with
  | 0 | 1 | _ + 2 => simp [windingUp]

theorem rejected_of_ready {reason : String} (hready : s.Ready c w j (d.reject reason)) :
    Rejected c s w j reason := by
  have hended : (d.reject reason).phase = .ended (.error (.badHeader reason)) := rfl
  have hafter (k : Nat) := session_winds_up hready hended k
  constructor
  case ended =>
    intro i hi
    rcases Nat.eq_or_lt_of_le hi with rfl | hlt
    · rw [hready.1, hended]
    · obtain ⟨k, rfl⟩ := Nat.exists_eq_add_of_le hlt
      rw [(hafter k).1, hended]
  case shown =>
    intro i hi
    obtain ⟨k, rfl⟩ := Nat.exists_eq_add_of_le hi
    have hlate : j + 3 + k = j + 1 + (k + 2) := by omega
    obtain ⟨hdialogue, hclosed⟩ := hafter (k + 2)
    rw [hlate]
    have hresult : (s.turn c w (j + 1 + (k + 2))).result? =
        some (.error (.badHeader reason)) := by
      simp [Session.result?, hclosed, windingUp, hdialogue, Dialogue.result?, hended]
    exact ⟨by simp [Session.stage, hresult], by simp [Session.report?, hresult, Except.map]⟩
  case written =>
    intro r hr
    have hown : (s.turn c w j).ecu = s.ecu := by rw [turn_keeps]
    have hstep : (s.turn c w j).step? c (w j) =
        some ((s.turn c w j).release (w j) (.error (.badHeader reason))) := by
      simp [Session.step?, hready.2, hready.1, Dialogue.wish?, Dialogue.result?, hended]
    rw [(turn_succ hstep).2]
    simp only [Registry.get?_modify, hown, if_true, hr, Option.map_some, hready.1]
    simp [EcuRecord.afterUpdate, Progress.status, Dialogue.reject, Dialogue.fail, Dialogue.close]
  case kept =>
    intro i hi
    obtain ⟨k, rfl⟩ := Nat.exists_eq_add_of_le hi
    refine registry_left (.inl ?_)
    rw [(hafter k).2]
    exact windingUp_ne_ready k

/-- A world that answers at once does its part for the check of an image. -/
theorem prompt_inspects {quiet : World σ} {vault : Vault}
    (hrecord : Storage.readHeader quiet.storage s.image = .ok (some record))
    (himage : ∀ offset wanted, Storage.readImage quiet.storage s.image offset wanted =
      .ok (Bytes.window image offset wanted))
    (hkeys : quiet.keys = some vault) (hrests : vault.Alone)
    (hkey : vault.device.element.macKey c.updateKey = .ok key)
    (hcalls : vault.service.calls = []) (hholder : vault.service.holder = none)
    (hstart : s.doing = .ready) (hcoherent : s.Coherent) :
    Inspection c s (promptWorld c quiet s) record image key := by
  -- During the check nothing but the verdict is asked for.
  have hanswered {i : Nat} (hearly : (s.turn c (promptWorld c quiet s) i).dialogue.Early) :
      Answered c quiet s vault i := by
    intro j hji command want hquestion
    have hbefore := early_turn hearly hji
    unfold Dialogue.question? at hquestion
    split at hquestion
    case h_1 header found hphase =>
      obtain ⟨rfl, rfl⟩ := Prod.mk.inj (Option.some.inj hquestion)
      have hjudges : vault.Judges c.updateKey key := ⟨hrests.stands, hkey, hrests.latency⟩
      exact ⟨_, rfl, (hjudges.replies found header.tag).answer⟩
    case h_2 hphase => simp [Dialogue.Early, hphase] at hbefore
    case h_3 => cases hquestion
  have hvault {i : Nat} (hearly : (s.turn c (promptWorld c quiet s) i).dialogue.Early) :=
    prompt_vault hkeys hrests hcalls hholder hstart hcoherent i (hanswered hearly)
  have hstorage (i : Nat) := (promptWorld_fixed c quiet s i).2.1
  refine ⟨timePasses_promptWorld c quiet s, ?_, ?_, ?_, ?_, ?_, ?_⟩
  · intro i _
    rw [hstorage]
    exact hrecord
  · intro i offset wanted _
    rw [hstorage]
    exact himage offset wanted
  · intro i hearly
    obtain ⟨v, hv, halone, hdevice, -⟩ := hvault hearly
    exact ⟨v, hv, halone.stands, by rw [hdevice]; exact hkey, halone.latency⟩
  · intro i v n hearly hv hn
    obtain ⟨v', hv', halone, -, -⟩ := hvault hearly
    obtain rfl : v = v' := Option.some.inj (hv.symm.trans hv')
    exact halone.idle n hn
  · intro i n v hearly hcalling hv
    obtain ⟨v', hv', halone, -, hform⟩ := hvault hearly
    obtain rfl : v = v' := Option.some.inj (hv.symm.trans hv')
    rcases hform with ⟨hidle, -⟩ | ⟨hbusy, -⟩
    · exact absurd hcalling (hidle n)
    · obtain rfl : n = 0 := Doing.calling.inj (hcalling.symm.trans hbusy)
      exact halone.tokenInTime
  · intro i n v v' _ hcalling hv hv'
    rw [promptWorld_succ] at hv'
    simp only [promptStill, hcalling] at hv'
    obtain rfl : v = v' := Option.some.inj (hv.symm.trans hv')
    exact ⟨rfl, rfl⟩

/-- The header of the small image. -/
def smallHeader : FirmwareHeader where
  opcode := FirmwareHeader.fullUpdate
  version := 7
  length := 50
  target := 0
  tag := Mac.tag Block.zero smallImage

/-- The small world with an image and that header. -/
def labelledWorld (image : Bytes) : World Memory :=
  { smallWorld with
    storage := (({} : Memory).addImage "image" image).addHeader "image" smallHeader.encode }

/-- A session that was started in such a world and checks the header. -/
def labelledSession : Session :=
  { smallSession with dialogue := .start { ecu := 0, secure := false, verifyHeader := true } }

/-- Such a world that answers at once. -/
def labelledRun (image : Bytes) : Nat → World Memory :=
  promptWorld {} (labelledWorld image) labelledSession

theorem inspection_labelledRun (image : Bytes) :
    Inspection {} labelledSession (labelledRun image) smallHeader.encode image Block.zero :=
  prompt_inspects rfl (fun _ _ => rfl) rfl
    ⟨rfl, Nat.zero_le _, Nat.zero_le _, fun _ _ => rfl, by simp [KeyService.call?],
      by simp [KeyService.call?]⟩
    rfl rfl rfl rfl trivial

end Session
end VehicleGateway
