import VehicleGateway.Proofs.Gateway.Authentic
import VehicleGateway.Proofs.Update.Corruption

/-!
# Corrupted images in a gateway

A storage has an image of which one block was corrupted, with the header record of the image as it
was.  Whatever else happens, no session of the gateway sends anything of it.

* `Corrupted` is what is known of the storage and of the keys, and `Corrupted.tag_eq` what would
  follow if the image was found right.
* `corrupted_image_withheld` is about every session of every run.
* `corruption_refused` puts together what is known of the tags, of one session whose check comes to
  its end, and of the sessions of a gateway.
-/

namespace VehicleGateway

open Session (found smallImage)

/-- A header that was opened has its tag from the record. -/
theorem Move.tag_of_opened {σ : Type} [Storage σ] {m : Move σ} {header : FirmwareHeader}
    (h : header ∈ m.opened) : ∃ record,
      Storage.readHeader m.before.storage m.session.image = .ok (some record) ∧
        record.drop 10 = header.tag.toList := by
  unfold Move.opened at h
  split at h
  case h_2 => cases h
  case h_1 =>
    split at h
    case h_2 => cases h
    case h_1 record hread =>
      refine ⟨record, hread, ?_⟩
      cases hdecode : FirmwareHeader.decode record with
      | error fault => simp [hdecode, Except.toOption] at h
      | ok found =>
        rw [hdecode] at h
        obtain rfl : header = found := by simpa [Except.toOption] using h
        obtain ⟨rfl, -⟩ := FirmwareHeader.encode_of_decode hdecode
        rfl

namespace Gateway

variable {σ : Type} [Storage σ] {c : Config} {g : Gateway σ} {events : List (Happening σ)}
  {n k : Nat} {s : Session} {key : Key} {image altered : Bytes}

/-- Until some moment the storage has an image that was corrupted: the header record has the tag of
the image as it was.  Tags are checked with one key. -/
structure Corrupted (c : Config) (g : Gateway σ) (events : List (Happening σ)) (k : Nat)
    (name : String) (key : Key) (image altered : Bytes) : Prop where
  header : ∀ j < k, ∀ found, Storage.readHeader (g.moment c events j).storage name = .ok found →
    ∃ record, found = some record ∧ record.drop 10 = (Mac.tag key image).toList
  image : ∀ j < k, Storage.Shows (g.moment c events j).storage name altered
  key : ∀ j < k, ∀ vault other, (g.moment c events j).keys = some vault →
    vault.device.element.macKey g.firmware.updateKey = .ok other → other = key

/-! ## One session -/

/-- At its steps a session is the one that was started. -/
theorem Watched.at_step {b j : Nat} {m : Move σ} (h : Watched c g events n b k s) (hhoused : g.Housed)
    (hapart : g.Apart) (hnone : g.sessions = [])
    (hgoes : ∀ now bus keys, .deed (.restart now bus keys) ∉ events)
    (hm : m ∈ g.stepsAt c events n j) :
    Watched c g events n b j m.session ∧ m.session.image = s.image := by
  obtain ⟨-, hfound, -, -⟩ := of_mem_stepsAt hm
  obtain ⟨b', hthen⟩ := exists_watched hhoused hapart hnone hgoes j n _ hfound
  obtain ⟨rfl, -, hname⟩ := h.begun.unique hthen.begun hgoes
  exact ⟨hthen, hname⟩

section Steps

variable {b : Nat} (hgoes : ∀ now bus keys, .deed (.restart now bus keys) ∉ events)
  (hthen : ∀ j, ∀ m ∈ g.stepsAt c events n j,
    Watched c g events n b j m.session ∧ m.session.image = s.image)

include hthen

/-- What holds of the storage until some moment holds of what a session finds at its steps. -/
theorem forall_steps_of_storage {i : Nat} {P : σ → String → Prop} (hik : i ≤ k)
    (h : ∀ j < k, P (g.moment c events j).storage s.image) :
    ∀ m ∈ g.steps c events n b i, P m.before.storage m.session.image := by
  intro m hm
  obtain ⟨j, -, hji, hj⟩ := mem_steps.mp hm
  obtain ⟨-, -, hbefore, -⟩ := of_mem_stepsAt hj
  rw [(hthen j m hj).2, hbefore]
  exact h j (Nat.lt_of_lt_of_le hji hik)

/-- Before its start a session takes no steps. -/
theorem log_of_unseen (hunseen : g.log c events n b k = []) : g.log c events n 0 k = [] := by
  refine List.flatMap_eq_nil_iff.mpr fun m hm => ?_
  obtain ⟨j, -, hjk, hj⟩ := mem_steps.mp hm
  have hbj := Nat.le_of_lt (hthen j m hj).1.earlier
  exact List.flatMap_eq_nil_iff.mp hunseen m (mem_steps.mpr ⟨j, hbj, hjk, hj⟩)

include hgoes

/-- An image that was found right has the tag in the record, though it was corrupted. -/
theorem Corrupted.tag_eq {i : Nat} {m : Move σ} {header : FirmwareHeader} {checked : Bytes}
    (h : Corrupted c g events k s.image key image altered)
    (hconsults : Consults c g events i n m.session)
    (hm : m ∈ g.stepsAt c events n i) (hik : i < k) (hverified : (header, checked) ∈ m.verified) :
    Mac.tag key altered = Mac.tag key image := by
  obtain ⟨hwatched, -⟩ := hthen i m hm
  have hchecked := hwatched.checked hconsults hgoes hm hverified
  -- The image that was checked is the one in the storage.
  obtain ⟨-, -, hphase, -⟩ := of_mem_verified hverified
  obtain ⟨secure, w, start, hstart, hcourse⟩ := hwatched.course
  obtain ⟨-, -, hfaithful⟩ := hcourse.checks hstart
  have hshows := forall_steps_of_storage hthen (P := fun storage name =>
    Storage.Shows storage name altered) (Nat.le_of_lt hik) h.image
  have hsame : checked = altered := (hfaithful altered hshows).2 header checked hphase
  -- Its tag is the one in the record, and was checked with the key.
  obtain ⟨j, -, hji, vault, other, hvault, hother, htag⟩ := hchecked.tagged
  rw [firmware_moment hgoes] at hother
  rw [h.key j (hji.trans hik) vault other hvault hother, hsame] at htag
  obtain ⟨m', hm', hopened⟩ := hchecked.opened
  obtain ⟨record, hread, hrecord⟩ := Move.tag_of_opened hopened
  obtain ⟨record', hfound, hright⟩ := forall_steps_of_storage hthen (P := fun storage name =>
    ∀ found, Storage.readHeader storage name = .ok found →
      ∃ record, found = some record ∧ record.drop 10 = (Mac.tag key image).toList)
    (Nat.le_of_lt hik) h.header m' hm' _ hread
  obtain rfl := Option.some.inj hfound
  rw [htag]
  exact Vector.toList_inj.mp (hrecord.symm.trans hright)

/-- A session for an image that was corrupted in one block notes no version. -/
theorem Corrupted.version_eq_none (h : Corrupted c g events k s.image key image altered)
    (hwatched : Watched c g events n b k s)
    (hconsults : ∀ j, ∀ m ∈ g.stepsAt c events n j, Consults c g events j n m.session)
    (hdiffer : DifferInBlock image altered) : s.dialogue.progress.version = none := by
  cases hv : s.dialogue.progress.version with
  | none => rfl
  | some v =>
    obtain ⟨header, checked, hvouched, -⟩ := hwatched.record.founded.version v hv
    obtain ⟨m, hm, hverified⟩ := hvouched.verified
    obtain ⟨i, -, hik, hi⟩ := mem_steps.mp hm
    have htags := h.tag_eq hgoes hthen (hconsults i m hi) hi hik hverified
    exact absurd htags (Mac.tag_ne_of_differInBlock key hdiffer.symm)

end Steps

/-! ## Every session -/

/-- Whatever happens, nothing is seen of a session for an image that was corrupted in one block, and
it does not succeed. -/
theorem corrupted_image_withheld {now : Nat} {bus : Bus} {storage : σ} {keys : Option Vault}
    (hstart : Gateway.start c now bus storage keys = .ok g)
    (hgenuine : ∀ vault, keys = some vault → vault.Genuine)
    (hgoes : ∀ now bus keys, .deed (.restart now bus keys) ∉ events)
    (hused : g.KeysUsed c events) (hverify : c.firmware.verifyHeader = true)
    (hs : (g.moment c events k).sessions[n]? = some s) (hdiffer : DifferInBlock image altered)
    (h : Corrupted c g events k s.image key image altered) :
    g.log c events n 0 k = [] ∧ s.dialogue.progress.version = none ∧
      s.dialogue.result? ≠ some (.ok ()) := by
  have hhoused := housed_start hstart
  have hapart := apart_start hstart
  have hnone := (start_eq hstart).2
  obtain ⟨hkeys, hfirmware⟩ := start_parts hstart
  rw [← hkeys] at hgenuine
  rw [← hfirmware] at hverify
  obtain ⟨b, hwatched⟩ := exists_watched hhoused hapart hnone hgoes k n s hs
  have hthen (j : Nat) (m : Move σ) (hm : m ∈ g.stepsAt c events n j) :=
    hwatched.at_step hhoused hapart hnone hgoes hm
  have hconsults (j : Nat) (m : Move σ) (hm : m ∈ g.stepsAt c events n j) :
      Consults c g events j n m.session := by
    obtain ⟨-, hfound, -, -⟩ := of_mem_stepsAt hm
    exact consults_moment hgenuine hnone hgoes hused j n _ hfound
  have hversion := h.version_eq_none hgoes hthen hwatched hconsults hdiffer
  obtain ⟨secure, w, start, hstarted, hcourse⟩ := hwatched.course
  -- There is a header record whenever the session looks for one.
  have hheaded : ∀ m ∈ g.steps c events n b k,
      Storage.readHeader m.before.storage m.session.image ≠ .ok none := by
    refine forall_steps_of_storage hthen (P := fun storage name =>
      Storage.readHeader storage name ≠ .ok none) (Nat.le_refl k) fun j hj hread => ?_
    obtain ⟨record, hnothing, -⟩ := h.header j hj none hread
    cases hnothing
  obtain ⟨hunseen, -⟩ := hcourse.headed hstarted hverify hheaded hversion
  have haccount := hcourse.account hstarted
  rw [hunseen] at haccount
  exact ⟨log_of_unseen hthen hunseen, hversion, Session.result?_ne_ok_of_unseen haccount⟩

/-! ## The result -/

/-- Messages of one length that differ in one block have different tags, and the tag of the one is
not taken for that of the other.  So an image of which one block was corrupted does not pass the
check of its header.  A session that is let check it rejects it, for its tag if the header is
otherwise right, and sends nothing.  No session of a gateway ever sends anything for it. -/
theorem corruption_refused (key : Key) (image altered : Bytes)
    (hdiffer : DifferInBlock image altered) :
    (Mac.tag key image ≠ Mac.tag key altered ∧
      Mac.verify key altered (Mac.tag key image).toList = false ∧
      Mac.verify key image (Mac.tag key altered).toList = false) ∧
    (∀ (σ : Type) [Storage σ] (c : FirmwareConfig) (x x' : World σ) (ecu : EcuNo) (name : String)
        (secure : Bool) (s : Session) (w : Nat → World σ) (record : Bytes),
      x.startUpdate c ecu name secure = .ok (x', s) → c.verifyHeader = true →
      Session.Inspection c s w record altered key →
      record.drop 10 = (Mac.tag key image).toList →
      ∃ j reason, Session.Rejected c s w j reason ∧ (∀ i, s.log c (found w i) = []) ∧
        (RightRecord record ecu image key → reason = "authentication tag mismatch")) ∧
    ∀ (σ : Type) [Storage σ] (c : Config) (g : Gateway σ) (events : List (Happening σ))
        (now : Nat) (bus : Bus) (storage : σ) (keys : Option Vault) (n k : Nat) (s : Session),
      Gateway.start c now bus storage keys = .ok g →
      (∀ vault, keys = some vault → vault.Genuine) →
      (∀ now bus keys, .deed (.restart now bus keys) ∉ events) → g.KeysUsed c events →
      c.firmware.verifyHeader = true → (g.moment c events k).sessions[n]? = some s →
      Corrupted c g events k s.image key image altered →
      g.log c events n 0 k = [] ∧ s.dialogue.progress.version = none ∧
        s.dialogue.result? ≠ some (.ok ()) := by
  refine ⟨⟨Mac.tag_ne_of_differInBlock key hdiffer, Mac.verify_of_differInBlock key hdiffer,
    Mac.verify_of_differInBlock key hdiffer.symm⟩, ?_, ?_⟩
  · intro σ _ c x x' ecu name secure s w record hstart hverify hinspection htag
    exact Session.corrupted_image_rejected hstart hverify hinspection hdiffer htag
  · intro σ _ c g events now bus storage keys n k s hstart hgenuine hgoes hused hverify hs hstored
    exact corrupted_image_withheld hstart hgenuine hgoes hused hverify hs hdiffer hstored

/-- The update of an image that does not pass the check of its header. -/
def refusedEvents : List (Happening Memory) :=
  .deed (.startUpdate 0 "image" false) :: List.replicate 12 (.deed (.move (.session 0)))

/-- Whether a storage keeps an image with the header of the image 1, 2, 3 all the time, and the key
of zeros is used for tags. -/
def keepsImage (stored : Bytes) (g : Gateway Memory) : Bool :=
  (List.range 13).all fun j =>
    let g' := g.moment singleConfig refusedEvents j
    g'.storage.headers.get? "image" = some sealedHeader.encode ∧
      g'.storage.images.get? "image" = some stored ∧
      g'.keys.map (·.device.element.macKey g.firmware.updateKey) = some (.ok Block.zero)

theorem corrupted_of_keepsImage {g : Gateway Memory} {stored : Bytes}
    (h : keepsImage stored g = true) :
    Corrupted singleConfig g refusedEvents 13 "image" Block.zero [1, 2, 3] stored := by
  simp only [keepsImage, List.all_eq_true, List.mem_range, decide_eq_true_eq] at h
  have htag : sealedHeader.encode.drop 10 = (Mac.tag Block.zero [1, 2, 3]).toList := by
    decide +kernel
  constructor
  case header =>
    intro j hj found hread
    obtain ⟨hheader, -, -⟩ := h j hj
    simp only [Storage.readHeader, Memory.serve, hheader] at hread
    split at hread
    · cases hread
    · exact ⟨_, (Except.ok.inj hread).symm, htag⟩
  case image =>
    intro j hj
    exact shows_of_images (h j hj).2.1
  case key =>
    intro j hj vault other hvault hother
    obtain ⟨-, -, hkey⟩ := h j hj
    rw [hvault, Option.map_some, hother, Option.some.injEq] at hkey
    exact Except.ok.inj hkey

/-- What a test says of a gateway whose storage has the image 9, 2, 3 instead, and of the session
that was let check it. -/
def refusedShown (test : Gateway Memory → Session → Bool) : Option (Option Bool) :=
  match Gateway.start singleConfig 0 { interfaces := 4 } (sealedMemory [9, 2, 3])
    (some sealedVault) with
  | .ok g => some ((g.moment singleConfig refusedEvents 13).sessions[0]?.map (test g))
  | .error _ => none

theorem exists_of_refusedShown {test : Gateway Memory → Session → Bool}
    (h : refusedShown test = some (some true)) :
    ∃ g s, Gateway.start singleConfig 0 { interfaces := 4 } (sealedMemory [9, 2, 3])
        (some sealedVault) = .ok g ∧
      (g.moment singleConfig refusedEvents 13).sessions[0]? = some s ∧ test g s := by
  unfold refusedShown at h
  split at h
  case h_2 => cases h
  case h_1 g hstart =>
    obtain ⟨s, hs, htest⟩ := Option.map_eq_some_iff.mp (Option.some.inj h)
    exact ⟨g, s, hstart, hs, htest⟩

/-- The twentieth byte of an image of fifty bytes is corrupted, and the first one of three. -/
theorem corrupted_byte_refused :
    DifferInBlock smallImage (smallImage.set 19 0) ∧
    (∃ x', (Session.labelledWorld (smallImage.set 19 0)).startUpdate {} 0 "image" false =
      .ok (x', Session.labelledSession)) ∧
    (∃ j, Session.Rejected {} Session.labelledSession
      (Session.labelledRun (smallImage.set 19 0)) j "authentication tag mismatch") ∧
    DifferInBlock [1, 2, 3] [9, 2, 3] ∧
    ∃ g s, Gateway.start singleConfig 0 { interfaces := 4 } (sealedMemory [9, 2, 3])
        (some sealedVault) = .ok g ∧
      (g.moment singleConfig refusedEvents 13).sessions[0]? = some s ∧
      s.dialogue.result? = some (.error (.badHeader "authentication tag mismatch")) ∧
      g.log singleConfig refusedEvents 0 0 13 = [] := by
  have hsmall : DifferInBlock smallImage (smallImage.set 19 0) :=
    DifferInBlock.set (i := 19) (by decide) (by decide)
  have hsealed : DifferInBlock [1, 2, 3] [9, 2, 3] :=
    DifferInBlock.set (a := [1, 2, 3]) (i := 0) (x := 9) (by decide) (by decide)
  have hsession : ∃ x', (Session.labelledWorld (smallImage.set 19 0)).startUpdate {} 0 "image"
      false = .ok (x', Session.labelledSession) := ⟨_, rfl⟩
  refine ⟨hsmall, hsession, ?_, hsealed, ?_⟩
  · obtain ⟨x', hstart⟩ := hsession
    have hright : RightRecord Session.smallHeader.encode 0 smallImage Block.zero :=
      Session.smallHeader.rightRecord_encode.mpr ⟨rfl, rfl, rfl, rfl⟩
    obtain ⟨j, reason, hrejected, -, hreason⟩ :=
      (corruption_refused Block.zero _ _ hsmall).2.1 Memory {} _ x' 0 "image" false _ _ _ hstart
        rfl (Session.inspection_labelledRun _) hright.tag
    rw [hreason hright] at hrejected
    exact ⟨j, hrejected⟩
  · have hshown : refusedShown (fun g s => decide (keepsImage [9, 2, 3] g ∧ s.image = "image" ∧
        s.dialogue.result? = some (.error (.badHeader "authentication tag mismatch")))) =
          some (some true) := by decide +kernel
    obtain ⟨g, s, hstart, hs, htest⟩ := exists_of_refusedShown hshown
    obtain ⟨hkeeps, hname, hresult⟩ := of_decide_eq_true htest
    have hgenuine : ∀ vault, some sealedVault = some vault → vault.Genuine := by
      rintro vault ⟨⟩
      exact genuine_sealedVault
    have hgoes : ∀ now bus keys, .deed (.restart now bus keys) ∉ refusedEvents := by
      simp [refusedEvents]
    have hused : g.KeysUsed singleConfig refusedEvents := by
      intro k keys hevent
      have hmem := List.mem_of_getElem? hevent
      simp [refusedEvents] at hmem
    obtain ⟨hunseen, -, -⟩ := (corruption_refused Block.zero _ _ hsealed).2.2 Memory singleConfig g
      refusedEvents 0 _ _ _ 0 13 s hstart hgenuine hgoes hused rfl hs
      (by rw [hname]; exact corrupted_of_keepsImage hkeeps)
    exact ⟨g, s, hstart, hs, hresult, hunseen⟩

end Gateway
end VehicleGateway
