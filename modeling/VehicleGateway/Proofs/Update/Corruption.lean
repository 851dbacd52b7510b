import VehicleGateway.Proofs.Cipher.Corruption
import VehicleGateway.Proofs.Update.Inspection

/-!
# Images that were corrupted in one block

An image whose header record has the tag of another one, from which it differs in one block only, does
not pass the check of its header.

* `corrupted_image_rejected`: a session that is let check such an image fails for its header.
* `Closed` and `Course.unseen_of_headed`: whatever the rest of the world does, a session that always
  finds a header record shows nothing without the word that a tag is right.
-/

namespace VehicleGateway

/-- A record with the tag of an image is not right for one that differs from it in one block. -/
theorem DifferInBlock.not_rightRecord {image altered record : Bytes} {key : Key} {ecu : EcuNo}
    (h : DifferInBlock image altered) (htag : record.drop 10 = (Mac.tag key image).toList) :
    ¬ RightRecord record ecu altered key := by
  intro hright
  exact Mac.tag_ne_of_differInBlock key h (Vector.toList_inj.mp (htag.symm.trans hright.tag))

namespace Dialogue

variable {d d' : Dialogue} {t : Tiding}

/-- A dialogue that has not taken up its header record, compares an image with it, or has ended. -/
def Closed (d : Dialogue) : Prop :=
  d.phase = .unopened ∨ d.Withheld

theorem Closed.shows (h : d.Closed) (carry : UInt8 → Bytes → Frame) (t : Tiding) :
    d.shows carry t = [] := by
  rcases h with hphase | hwithheld
  · exact shows_of_early (by simp [Early, hphase]) carry t
  · exact hwithheld.shows carry t

/-- Nothing but the word that a tag is right, or that there is no header record, lets a dialogue go
on. -/
theorem Hears.closed (h : Hears d t d') (hbefore : d.Closed) (hheader : t ≠ .header none)
    (hnone : d'.progress.version = none) : d'.Closed := by
  rcases hbefore with hphase | hwithheld
  case inr => exact .inr (h.withheld hwithheld hnone)
  have hother {phase : DialoguePhase} (hfound : d.phase = phase) : phase = .unopened :=
    hfound.symm.trans hphase
  cases h with
  | ignored => exact .inl hphase
  | failed | rejected => exact .inr (.inr ⟨_, rfl⟩)
  | absent => exact absurd rfl hheader
  | opened => exact .inr (.inl ⟨_, _, .inl rfl⟩)
  | gathered hfound | measured hfound | verified hfound | read hfound | hidden hfound
  | sent hfound | answered hfound | refused hfound => exact nomatch hother hfound

end Dialogue

namespace Session

variable {σ : Type} [Storage σ] {c : FirmwareConfig}

/-! ## A check that comes to its end -/

section Check

variable {s : Session} {w : Nat → World σ} {record image altered : Bytes} {key : Key} {i : Nat}
  {d : Dialogue}

/-- A record that is right for the image before it was corrupted is found to have the wrong tag. -/
theorem Inspection.mismatch_comes (h : Inspection c s w record altered key)
    (hready : s.Ready c w i d) (hphase : d.phase = .unopened) (hdiffer : DifferInBlock image altered)
    (hright : RightRecord record d.terms.ecu image key) :
    ∃ j, Inspected c s w i j ∧ s.Ready c w j (d.reject "authentication tag mismatch") := by
  obtain ⟨header, hdecode, htarget, hlength, htag⟩ := FirmwareHeader.rightRecord_iff.mp hright
  have hopened := h.record_comes hready hphase
  have hfirst := Inspected.next hready (by simp [Dialogue.Early, hphase])
  unfold Dialogue.openHeader at hopened
  rw [hdecode] at hopened
  dsimp only at hopened
  rw [if_neg (not_not_intro htarget)] at hopened
  obtain ⟨j, hj, hread⟩ := h.reading_ends (List.nil_append altered).symm hopened rfl
  rw [if_pos (hdiffer.length.symm.trans hlength.symm)] at hread
  obtain ⟨k, hk, hjudged⟩ := h.verdict_comes hread rfl
  rw [htag, Mac.verify_of_differInBlock key hdiffer] at hjudged
  exact ⟨k, (hfirst.trans hj).trans hk, hjudged⟩

/-- The check of an image by the tag of another one ends with a rejection. -/
theorem Inspection.rejection_comes (h : Inspection c s w record altered key)
    (hready : s.Ready c w i d) (hphase : d.phase = .unopened) (hdiffer : DifferInBlock image altered)
    (htag : record.drop 10 = (Mac.tag key image).toList) :
    ∃ j reason, Inspected c s w i j ∧ s.Ready c w j (d.reject reason) ∧
      (RightRecord record d.terms.ecu image key → reason = "authentication tag mismatch") := by
  by_cases hright : RightRecord record d.terms.ecu image key
  · obtain ⟨j, hj, hrejected⟩ := h.mismatch_comes hready hphase hdiffer hright
    exact ⟨j, _, hj, hrejected, fun _ => rfl⟩
  · obtain ⟨j, hj, ⟨hpasses, -⟩ | ⟨-, reason, hrejected⟩⟩ := h.check_ends hready hphase
    · exact absurd hpasses (hdiffer.not_rightRecord htag)
    · exact ⟨j, reason, hj, hrejected, fun hpasses => absurd hpasses hright⟩

/-- A session whose check ends with a rejection never shows anything. -/
theorem log_of_rejected {j : Nat} {reason : String} (hcoherent : s.Coherent)
    (hchecked : Inspected c s w 0 j) (hrejected : Rejected c s w j reason) (i : Nat) :
    s.log c (found w i) = [] := by
  refine log_of_unseen hcoherent fun l _ => ?_
  rcases Nat.lt_or_ge l j with hlj | hjl
  · exact .inl (hchecked.2 l (Nat.zero_le l) hlj)
  · exact .inr ⟨_, hrejected.ended l hjl⟩

/-- An image that was corrupted in one block is rejected, and nothing of it is sent. -/
theorem corrupted_image_rejected {x x' : World σ} {ecu : EcuNo} {name : String} {secure : Bool}
    (hstart : x.startUpdate c ecu name secure = .ok (x', s)) (hverify : c.verifyHeader = true)
    (h : Inspection c s w record altered key) (hdiffer : DifferInBlock image altered)
    (htag : record.drop 10 = (Mac.tag key image).toList) :
    ∃ j reason, Rejected c s w j reason ∧ (∀ i, s.log c (found w i) = []) ∧
      (RightRecord record ecu image key → reason = "authentication tag mismatch") := by
  obtain ⟨-, -, hready, hdialogue, hterms⟩ := startUpdate_session hstart
  have hunopened : s.dialogue.phase = .unopened := by
    rw [hdialogue]
    simp [Dialogue.start, hverify]
  have hfirst : s.Ready c w 0 s.dialogue := ⟨rfl, hready⟩
  obtain ⟨j, reason, hchecked, hended, hreason⟩ :=
    h.rejection_comes hfirst hunopened hdiffer htag
  rw [hterms] at hreason
  have hrejected := rejected_of_ready hended
  exact ⟨j, reason, hrejected, log_of_rejected (by simp [Coherent, hready]) hchecked hrejected,
    hreason⟩

end Check

/-! ## Whatever the rest of the world does -/

variable {start s s' : Session} {steps : List (Move σ)} {w w' : World σ}

/-- Without the word that a tag is right, nothing is seen of a session that always finds a header
record. -/
def Headed (steps : List (Move σ)) (s : Session) : Prop :=
  (∀ m ∈ steps, Storage.readHeader m.before.storage m.session.image ≠ .ok none) →
    s.dialogue.progress.version = none → steps.flatMap Move.events = [] ∧ s.dialogue.Closed

theorem Headed.step (h : Headed steps s) (hs : s.Coherent)
    (hstep : s.step? c w = some (w', s')) : Headed (steps ++ [⟨w, s, w', s'⟩]) s' := by
  intro hall hnone
  obtain ⟨hbefore, hnow⟩ := List.forall_mem_append.mp hall
  replace hnow : Storage.readHeader w.storage s.image ≠ .ok none :=
    hnow _ (List.mem_singleton_self _)
  obtain ⟨-, htells⟩ := step?_tells hs hstep
  -- What is heard is neither the word that a tag is right nor that there is no record.
  have hclosed : steps.flatMap Move.events = [] ∧ s.dialogue.Closed ∧ s'.dialogue.Closed := by
    rcases step?_told hstep with hsame | ⟨t, htold, rfl⟩
    · rw [hsame] at hnone ⊢
      obtain ⟨hunseen, hclosed⟩ := h hbefore hnone
      exact ⟨hunseen, hclosed, hclosed⟩
    · have hhears := s.dialogue.hears t
      have hearlier : s.dialogue.progress.version = none := by
        rcases hhears.version with hkept | ⟨header, found, -, -, hnoted⟩
        · exact hkept.symm.trans hnone
        · exact nomatch hnoted.symm.trans hnone
      obtain ⟨hunseen, hclosed⟩ := h hbefore hearlier
      refine ⟨hunseen, hclosed, hhears.closed hclosed ?_ hnone⟩
      rintro rfl
      exact hnow htold.of_header.2.2
  obtain ⟨hunseen, hclosed, hafter⟩ := hclosed
  refine ⟨?_, hafter⟩
  rw [List.flatMap_append, List.flatMap_singleton, hunseen, List.nil_append]
  rcases htells with ⟨hevents, -⟩ | ⟨t, -, hevents⟩
  · exact hevents
  · rw [hevents]
    exact hclosed.shows _ t

theorem Course.headed {x x' : World σ} {ecu : EcuNo} {name : String} {secure : Bool}
    (h : Course c start steps s) (hstart : x.startUpdate c ecu name secure = .ok (x', start))
    (hverify : c.verifyHeader = true) : Headed steps s := by
  obtain ⟨-, -, -, hdialogue, -⟩ := startUpdate_session hstart
  refine h.induction (onRecord_start hstart).coherent ?_
    fun steps w s w' s' hs hheaded hstep => hheaded.step hs hstep
  refine fun _ _ => ⟨rfl, .inl ?_⟩
  rw [hdialogue]
  simp [Dialogue.start, hverify]

omit [Storage σ] in
/-- An update of which nothing was seen has not succeeded. -/
theorem result?_ne_ok_of_unseen {d : Dialogue} (h : s.Account [] d) :
    d.result? ≠ some (.ok ()) := by
  intro hended
  -- Nothing was read, so whatever the image is, it would have been sent as a whole.
  have hread : Rereads [] [1] := nofun
  obtain ⟨hwhole, -, -⟩ := whole_of_account h hended hread
  cases hwhole

end Session
end VehicleGateway
