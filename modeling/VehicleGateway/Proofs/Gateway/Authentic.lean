import VehicleGateway.Proofs.Gateway.Consulting
import VehicleGateway.Proofs.Gateway.Outcomes
import VehicleGateway.Proofs.Update.Checked

/-!
# Authentic images

An update whose image has a header record sends nothing before it has read an image of the length in
the header, of which the element says that the tag in the header is right.  What it sends then is
read once more.  If others replace the image in between, they get something sent that nobody has
checked (`replaced_image_sent`); as long as the second reading finds what was checked, the ECU gets
that image, and all of it if the update succeeds (`authentic_image_sent`).

* `Tagged` is what the element says of a tag.
* `Checked` is what a session has found out at the moment at which it takes up the word of the key
  service.
* `Forwards` says what the chunks that it sends have to do with the image that was checked.
-/

namespace VehicleGateway

open UpdateEvent (frames pieces hiddens)

namespace Gateway

variable {σ : Type}

/-- The tag in a header is the authentication code of an image, under the key that the element holds
for updates. -/
def Tagged (g : Gateway σ) (header : FirmwareHeader) (image : Bytes) : Prop :=
  ∃ vault key, g.keys = some vault ∧ vault.device.element.macKey g.firmware.updateKey = .ok key ∧
    Mac.tag key image = header.tag

/-- The element calls a tag right only if it is. -/
theorem tagged_of_responds {g : Gateway σ} {header : FirmwareHeader} {image : Bytes}
    (h : g.Responds (.checkMac g.firmware.updateKey image header.tag) (.verified true)) :
    g.Tagged header image := by
  obtain ⟨vault, hkeys, hanswer⟩ := h
  simp only [Element.execute] at hanswer
  obtain ⟨key, hkey, hverified⟩ := exists_of_map_ok hanswer
  refine ⟨vault, key, hkeys, hkey, ?_⟩
  exact Vector.toList_inj.mp (of_decide_eq_true (Response.verified.inj hverified))

variable [Storage σ] {c : Config} {g : Gateway σ} {events : List (Happening σ)} {n b i j k : Nat}
  {s s' : Session} {header : FirmwareHeader} {image : Bytes}

/-- What is seen of a session from one moment to another. -/
def log (c : Config) (g : Gateway σ) (events : List (Happening σ)) (n i k : Nat) :
    List UpdateEvent :=
  (g.steps c events n i k).flatMap Move.events

/-- What a session that was started at one moment has found out at another. -/
structure Checked (c : Config) (g : Gateway σ) (events : List (Happening σ)) (n b i : Nat)
    (s : Session) (header : FirmwareHeader) (image : Bytes) : Prop where
  opened : ∃ m ∈ g.steps c events n b i, header ∈ m.opened
  target : header.target = s.ecu
  length : image.length = header.length.toNat
  /-- The image is put together from what the storage has given. -/
  read : image = ((g.steps c events n b i).flatMap Move.measured).flatten
  tagged : ∃ j, b < j ∧ j < i ∧ (g.moment c events j).Tagged header image
  /-- Nothing was sent, and nothing was read in order to be sent. -/
  unseen : g.log c events n b i = []

/-- What a session that has checked an image at the moment `i` has to do with that image until the
moment `k`. -/
structure Forwards (c : Config) (g : Gateway σ) (events : List (Happening σ)) (n b i k : Nat)
    (start s : Session) (image : Bytes) : Prop where
  /-- The frames and chunks are those of the pieces that the session reads, one after the other. -/
  lawful : start.Lawful (g.log c events n b k)
  carried : start.Carried (g.log c events n b k)
  /-- All of these pieces are read after the check. -/
  reread : ∀ p ∈ pieces (g.log c events n b k), ∃ j, i < j ∧ j < k ∧
    Storage.readImage (g.moment c events j).storage s.image p.1 Firmware.chunkSize = .ok p.2
  encrypted : ∀ p ∈ hiddens (g.log c events n b k), ∃ j, b < j ∧ j < k ∧
    (g.moment c events j).Responds (.encryptChain g.firmware.updateKey Block.zero p.1) (.data p.2)
  /-- If the pieces are those of the image, they are its beginning … -/
  part : Session.Rereads (g.log c events n b k) image →
    ((pieces (g.log c events n b k)).map (·.2)).flatten <+: image
  /-- … and all of it once the update has succeeded. -/
  whole : Session.Rereads (g.log c events n b k) image → s.dialogue.result? = some (.ok ()) →
    ((pieces (g.log c events n b k)).map (·.2)).flatten = image ∧
      s.dialogue.progress.bytes = image.length ∧
      ∀ key, (start.secure = true → ∀ p ∈ hiddens (g.log c events n b k),
        Block.encryptChain key Block.zero p.1 = .ok p.2) →
          start.Delivers key (g.log c events n b k) image
  /-- They are, if the stored image is not replaced while the session is in progress. -/
  kept : ∀ stored, (∀ j, b ≤ j → j < k →
    Storage.Shows (g.moment c events j).storage s.image stored) →
      image = stored ∧ Session.Rereads (g.log c events n b k) image

/-! ## One session -/

omit [Storage σ] in
/-- The word that a tag is right comes from the call of a session that checks it. -/
theorem of_mem_verified {m : Move σ} (h : (header, image) ∈ m.verified) :
    ∃ q, m.session.doing = .calling q ∧ m.session.dialogue.phase = .checking header image ∧
      m.before.keys.bind (·.outcome? q) = some (.ok (.response (.verified true))) := by
  unfold Move.verified at h
  split at h
  case h_2 => cases h
  case h_1 q found read hdoing hphase =>
    split at h
    case h_2 => cases h
    case h_1 houtcome =>
      obtain ⟨rfl, rfl⟩ := Prod.mk.inj (List.mem_singleton.mp h)
      exact ⟨q, hdoing, hphase, houtcome⟩

omit [Storage σ] in
/-- A cipher text comes from the call of a session that has a chunk encrypted. -/
theorem of_mem_encrypted {m : Move σ} {p : Bytes × Bytes} (slot : KeySlot)
    (h : p ∈ m.encrypted) :
    ∃ q, m.session.doing = .calling q ∧
      m.session.dialogue.question? slot = some (.encryptChain slot Block.zero p.1, .data) ∧
      m.before.keys.bind (·.outcome? q) = some (.ok (.response (.data p.2))) := by
  unfold Move.encrypted at h
  split at h
  case h_2 => cases h
  case h_1 q plain hdoing hwish =>
    split at h
    case h_2 => cases h
    case h_1 cipher houtcome =>
      obtain rfl := List.mem_singleton.mp h
      refine ⟨q, hdoing, ?_, houtcome⟩
      unfold Dialogue.wish? at hwish
      unfold Dialogue.question?
      split at hwish <;> simp_all

/-- What a session is told by the key service is what the element has answered since its start. -/
theorem Consults.responds (h : Consults c g events i n s) {q : Nat} {command : Command}
    {want : Want} {r : Response} (hcalling : s.doing = .calling q)
    (hquestion : s.dialogue.question? g.firmware.updateKey = some (command, want))
    (houtcome : (g.moment c events i).keys.bind (·.outcome? q) = some (.ok (.response r))) :
    ∃ j < i, n < (g.moment c events j).sessions.length ∧
      (g.moment c events j).Responds command r := by
  obtain ⟨vault, hkeys, -, hanswered⟩ := h q command want hcalling hquestion
  rw [hkeys, Option.bind_some] at houtcome
  exact hanswered r houtcome

/-- When a session takes up the word of the key service, it has checked its image. -/
theorem Watched.checked {m : Move σ} (h : Watched c g events n b i m.session)
    (hconsults : Consults c g events i n m.session)
    (hgoes : ∀ now bus keys, .deed (.restart now bus keys) ∉ events)
    (hm : m ∈ g.stepsAt c events n i) (hverified : (header, image) ∈ m.verified) :
    Checked c g events n b i m.session header image := by
  obtain ⟨-, -, hbefore, -⟩ := of_mem_stepsAt hm
  obtain ⟨q, hcalling, hphase, houtcome⟩ := of_mem_verified hverified
  obtain ⟨secure, w, start, hstart, hcourse⟩ := h.course
  obtain ⟨hexamined, -, -⟩ := hcourse.checks hstart
  have hfounded := h.record.founded
  obtain ⟨htarget, hopened⟩ := hfounded.header header image (.inr hphase)
  refine ⟨hopened, htarget, hfounded.length header image hphase,
    hexamined.read header image (.inr hphase), ?_,
    hexamined.unseen (by simp [Dialogue.Early, hphase])⟩
  have hquestion : m.session.dialogue.question? g.firmware.updateKey =
      some (.checkMac g.firmware.updateKey image header.tag, .verdict) := by
    simp only [Dialogue.question?, hphase]
  rw [hbefore] at houtcome
  obtain ⟨j, hji, hn, hresponds⟩ := hconsults.responds hcalling hquestion houtcome
  refine ⟨j, h.begun.lt hgoes hn, hji, tagged_of_responds ?_⟩
  rw [firmware_moment hgoes]
  exact hresponds

theorem Checked.congr (h : Checked c g events n b i s header image) (hecu : s'.ecu = s.ecu) :
    Checked c g events n b i s' header image :=
  ⟨h.opened, by rw [hecu]; exact h.target, h.length, h.read, h.tagged, h.unseen⟩

/-- What a session reads in order to send it, it reads after its check. -/
theorem lt_of_mem_read {m m' : Move σ} {p : Nat × Bytes} (hm : m ∈ g.stepsAt c events n i)
    (hverified : (header, image) ∈ m.verified) (hunseen : g.log c events n b i = [])
    (hbj : b ≤ j) (hm' : m' ∈ g.stepsAt c events n j) (hread : p ∈ m'.read) : i < j := by
  rcases Nat.lt_trichotomy i j with hlt | rfl | hgt
  · exact hlt
  · -- The step that ends the check reads nothing.
    obtain ⟨hlisted, -⟩ := of_mem_stepsAt hm
    obtain ⟨hlisted', -⟩ := of_mem_stepsAt hm'
    obtain rfl := List.singleton_inj.mp (hlisted.symm.trans hlisted')
    obtain ⟨-, -, hphase, -⟩ := of_mem_verified hverified
    rw [Session.read_of_phase_ne (by simp [hphase])] at hread
    cases hread
  · have hnothing := List.flatMap_eq_nil_iff.mp hunseen m' (mem_steps.mpr ⟨j, hbj, hgt, hm'⟩)
    have hseen := Session.piece_mem_events.mpr hread
    rw [hnothing] at hseen
    cases hseen

/-- After the check a session forwards what it reads, and that is the image that was checked if the
storage still has it. -/
theorem Watched.forwards {m : Move σ} {secure : Bool} {w : World σ} {start : Session}
    (hstart : (g.moment c events b).toWorld.startUpdate g.firmware s.ecu s.image secure =
      .ok (w, start))
    (hcourse : Session.Course g.firmware start (g.steps c events n b k) s)
    (hthen : ∀ j, ∀ m ∈ g.stepsAt c events n j, Watched c g events n b j m.session ∧
      m.session.image = s.image)
    (hconsults : ∀ j, ∀ m ∈ g.stepsAt c events n j, Consults c g events j n m.session)
    (hgoes : ∀ now bus keys, .deed (.restart now bus keys) ∉ events)
    (hm : m ∈ g.stepsAt c events n i) (hik : i < k) (hverified : (header, image) ∈ m.verified) :
    Forwards c g events n b i k start s image := by
  have haccount := hcourse.account hstart
  have hlawful := haccount.sound.lawful
  obtain ⟨hwatched, -⟩ := hthen i m hm
  obtain ⟨-, -, hphase, -⟩ := of_mem_verified hverified
  have hunseen := (hwatched.checked (hconsults i m hm) hgoes hm hverified).unseen
  constructor
  case lawful => exact hlawful
  case carried => exact hlawful.carried
  case reread =>
    intro p hp
    obtain ⟨m', hm', hread, hstored⟩ := Session.of_mem_pieces hp
    obtain ⟨j, hbj, hjk, hj⟩ := mem_steps.mp hm'
    obtain ⟨-, -, hbefore, -⟩ := of_mem_stepsAt hj
    rw [(hthen j m' hj).2, hbefore] at hstored
    exact ⟨j, lt_of_mem_read hm hverified hunseen hbj hj hread, hjk, hstored⟩
  case encrypted =>
    intro p hp
    obtain ⟨m', hm', hcipher⟩ := Session.of_mem_hiddens hp
    obtain ⟨j, hbj, hjk, hj⟩ := mem_steps.mp hm'
    obtain ⟨-, -, hbefore, -⟩ := of_mem_stepsAt hj
    obtain ⟨q, hcalling, hquestion, houtcome⟩ := of_mem_encrypted g.firmware.updateKey hcipher
    rw [hbefore] at houtcome
    obtain ⟨j', hj', hn, hresponds⟩ :=
      (hconsults j m' hj).responds hcalling hquestion houtcome
    exact ⟨j', hwatched.begun.lt hgoes hn, hj'.trans hjk, hresponds⟩
  case part =>
    intro htrue
    have hprefix := Session.flatten_prefix hlawful.pieces htrue
    rwa [List.drop_zero] at hprefix
  case whole => exact fun htrue hended => Session.whole_of_account haccount hended htrue
  case kept =>
    intro stored hshows
    have hfound (x : Nat) (hx : x ≤ k) (m' : Move σ) (hm' : m' ∈ g.steps c events n b x) :
        Storage.Shows m'.before.storage m'.session.image stored := by
      obtain ⟨j, hbj, hjx, hj⟩ := mem_steps.mp hm'
      obtain ⟨-, -, hbefore, -⟩ := of_mem_stepsAt hj
      rw [(hthen j m' hj).2, hbefore]
      exact hshows j hbj (Nat.lt_of_lt_of_le hjx hx)
    obtain ⟨secure', w', start', hstart', hcourse'⟩ := hwatched.course
    obtain ⟨-, -, hfaithful⟩ := hcourse'.checks hstart'
    have hsame : image = stored :=
      (hfaithful stored (hfound i (Nat.le_of_lt hik))).2 header image hphase
    refine ⟨hsame, ?_⟩
    rw [hsame]
    exact Session.rereads_of_shows (hfound k (Nat.le_refl k))

/-! ## Every session -/

theorem start_parts {now : Nat} {bus : Bus} {storage : σ} {keys : Option Vault}
    (h : Gateway.start c now bus storage keys = .ok g) :
    g.keys = keys ∧ g.firmware = c.firmware := by
  unfold Gateway.start at h
  split at h
  case h_1 | h_2 => cases h
  case h_3 =>
    obtain rfl := Except.ok.inj h
    exact ⟨rfl, rfl⟩

/-- A session that finds a header record sends nothing before it has noted the version in it.  A
session that has noted a version has checked an image, and forwards that image unless somebody has
replaced it. -/
theorem authentic_image_sent {now : Nat} {bus : Bus} {storage : σ} {keys : Option Vault}
    (hstart : Gateway.start c now bus storage keys = .ok g)
    (hgenuine : ∀ vault, keys = some vault → vault.Genuine)
    (hgoes : ∀ now bus keys, .deed (.restart now bus keys) ∉ events)
    (hused : g.KeysUsed c events) (hs : (g.moment c events k).sessions[n]? = some s) :
    ∃ b secure w start, b < k ∧ HasBegun c g events n b s ∧
      (g.moment c events b).toWorld.startUpdate g.firmware s.ecu s.image secure = .ok (w, start) ∧
      ((∃ m ∈ g.steps c events n b k, m.records ≠ []) → frames (g.log c events n b k) ≠ [] →
        s.dialogue.progress.version ≠ none) ∧
      ∀ v, s.dialogue.progress.version = some v → ∃ i header image, b < i ∧ i < k ∧
        header.version = v ∧ Checked c g events n b i s header image ∧
        Forwards c g events n b i k start s image := by
  have hhoused := housed_start hstart
  have hapart := apart_start hstart
  have hnone := (start_eq hstart).2
  rw [← (start_parts hstart).1] at hgenuine
  obtain ⟨b, hwatched⟩ := exists_watched hhoused hapart hnone hgoes k n s hs
  have hthen (j : Nat) (m : Move σ) (hm : m ∈ g.stepsAt c events n j) :
      Watched c g events n b j m.session ∧ m.session.ecu = s.ecu ∧ m.session.image = s.image := by
    obtain ⟨-, hfound, -, -⟩ := of_mem_stepsAt hm
    obtain ⟨b', hthen⟩ := exists_watched hhoused hapart hnone hgoes j n _ hfound
    obtain ⟨rfl, hecu, hname⟩ := hwatched.begun.unique hthen.begun hgoes
    exact ⟨hthen, hecu, hname⟩
  have hconsults (j : Nat) (m : Move σ) (hm : m ∈ g.stepsAt c events n j) :
      Consults c g events j n m.session := by
    obtain ⟨-, hfound, -, -⟩ := of_mem_stepsAt hm
    exact consults_moment hgenuine hnone hgoes hused j n _ hfound
  obtain ⟨secure, w, start, hstarted, hcourse⟩ := hwatched.course
  refine ⟨b, secure, w, start, hwatched.earlier, hwatched.begun, hstarted, ?_, ?_⟩
  · intro hrecords hsent hnone
    obtain ⟨-, hguarded, -⟩ := hcourse.checks hstarted
    obtain ⟨hunseen, -⟩ := hguarded hrecords hnone
    rw [log, hunseen] at hsent
    exact hsent rfl
  · intro v hv
    obtain ⟨header, image, hvouched, rfl⟩ := hwatched.record.founded.version v hv
    obtain ⟨m, hm, hverified⟩ := hvouched.verified
    obtain ⟨i, -, hik, hi⟩ := mem_steps.mp hm
    obtain ⟨hthere, hecu, -⟩ := hthen i m hi
    exact ⟨i, header, image, hthere.earlier, hik, rfl,
      (hthere.checked (hconsults i m hi) hgoes hi hverified).congr hecu.symm,
      Watched.forwards hstarted hcourse (fun j m hm => ⟨(hthen j m hm).1, (hthen j m hm).2.2⟩)
        hconsults hgoes hi hik hverified⟩

/-! ## A small image and its header -/

/-- The header of an image of three bytes. -/
def sealedHeader : FirmwareHeader where
  opcode := FirmwareHeader.fullUpdate
  version := 7
  length := 3
  target := 0
  tag := #v[205, 4, 68, 122, 250, 56, 228, 187, 25, 50, 249, 237, 86, 161, 30, 145]

/-- A storage with an image and that header. -/
def sealedMemory (image : Bytes) : Memory :=
  (({} : Memory).addImage "image" image).addHeader "image" sealedHeader.encode

/-- A vault with a key for updates. -/
def sealedVault : Vault where
  service := { timeout := 1 }
  device :=
    { element :=
        { identity := Vector.replicate 15 1, entropy := fun _ => Block.zero
          slots := (∅ : Dictionary KeySlot StoredKey).insert (.user 1) ⟨Block.zero, 1, {}⟩ } }

theorem genuine_sealedVault : sealedVault.Genuine :=
  ⟨rfl, fun _ _ => rfl⟩

/-- An update with every answer that it needs.  Once the session knows that the tag is right, and
before it sends anything, others put an image in place of the one that is stored. -/
def sealedEvents (stored : Bytes) : List (Happening Memory) :=
  .deed (.startUpdate 0 "image" false) :: List.replicate 9 (.deed (.move (.session 0))) ++
    [.deed (.others { interfaces := 4 } (sealedMemory stored))] ++
    List.replicate 3 (.deed (.move (.session 0))) ++ answered Firmware.resetDone 4 ++
    answered Firmware.ready 5 ++ answered Firmware.chunkTaken 4 ++ answered Firmware.finished 4

theorem not_restart_mem_sealedEvents (stored : Bytes) (now : Nat) (bus : Bus)
    (keys : Option Vault) : .deed (.restart now bus keys) ∉ sealedEvents stored := by
  simp [sealedEvents, answered]

/-- Nobody but the session uses the keys. -/
theorem keysUsed_sealedEvents (c : Config) (g : Gateway Memory) (stored : Bytes) :
    g.KeysUsed c (sealedEvents stored) := by
  intro k keys hevent
  have hmem := List.mem_of_getElem? hevent
  simp [sealedEvents, answered] at hmem

/-- An image in memory is what is shown of it. -/
theorem shows_of_images {memory : Memory} {name : String} {image : Bytes}
    (h : memory.images.get? name = some image) : Storage.Shows memory name image := by
  intro offset wanted data hread
  simp only [Storage.readImage, Memory.serve, h] at hread
  split at hread
  · cases hread
  · exact (Except.ok.inj hread).symm

/-- What a test says of that session in the end, if the image was 1, 2, 3 at first. -/
def sealedShown (stored : Bytes) (test : Gateway Memory → Session → Bool) :
    Option (Option Bool) :=
  match Gateway.start singleConfig 0 { interfaces := 4 } (sealedMemory [1, 2, 3])
    (some sealedVault) with
  | .ok g =>
    some ((g.moment singleConfig (sealedEvents stored) 43).sessions[0]?.map (test g))
  | .error _ => none

theorem exists_of_sealedShown {stored : Bytes} {test : Gateway Memory → Session → Bool}
    (h : sealedShown stored test = some (some true)) :
    ∃ g s, Gateway.start singleConfig 0 { interfaces := 4 } (sealedMemory [1, 2, 3])
        (some sealedVault) = .ok g ∧
      (g.moment singleConfig (sealedEvents stored) 43).sessions[0]? = some s ∧ test g s := by
  unfold sealedShown at h
  split at h
  case h_2 => cases h
  case h_1 g hstart =>
    obtain ⟨s, hs, htest⟩ := Option.map_eq_some_iff.mp (Option.some.inj h)
    exact ⟨g, s, hstart, hs, htest⟩

/-- Whether the update has succeeded with the version in the header, and the image was 1, 2, 3 all
the time. -/
def sendsStored (g : Gateway Memory) (s : Session) : Bool :=
  s.dialogue.result? = some (.ok ()) ∧ s.dialogue.progress.version = some sealedHeader.version ∧
  (List.range 43).all fun j =>
    (g.moment singleConfig (sealedEvents [1, 2, 3]) j).storage.images.get? s.image =
      some [1, 2, 3]

/-- An image that stays as it is was checked, and is sent as a whole. -/
theorem stored_image_sent :
    ∃ g, Gateway.start singleConfig 0 { interfaces := 4 } (sealedMemory [1, 2, 3])
        (some sealedVault) = .ok g ∧ sealedVault.Genuine ∧
      (∀ now bus keys, .deed (.restart now bus keys) ∉ sealedEvents [1, 2, 3]) ∧
      g.KeysUsed singleConfig (sealedEvents [1, 2, 3]) ∧
      ∃ s b i header,
        (g.moment singleConfig (sealedEvents [1, 2, 3]) 43).sessions[0]? = some s ∧
        header.version = sealedHeader.version ∧
        Checked singleConfig g (sealedEvents [1, 2, 3]) 0 b i s header [1, 2, 3] ∧
        ((pieces (g.log singleConfig (sealedEvents [1, 2, 3]) 0 b 43)).map (·.2)).flatten =
          [1, 2, 3] := by
  have hshown : sealedShown [1, 2, 3] sendsStored = some (some true) := by decide +kernel
  obtain ⟨g, s, hstart, hs, hsends⟩ := exists_of_sealedShown hshown
  simp only [sendsStored, decide_eq_true_eq, List.all_eq_true, List.mem_range] at hsends
  obtain ⟨hended, hversion, hstored⟩ := hsends
  have hgoes := not_restart_mem_sealedEvents [1, 2, 3]
  have hused := keysUsed_sealedEvents singleConfig g [1, 2, 3]
  have hgenuine : ∀ vault, some sealedVault = some vault → vault.Genuine := by
    rintro vault ⟨⟩
    exact genuine_sealedVault
  obtain ⟨b, secure, w, start, -, -, -, -, hchecks⟩ :=
    authentic_image_sent hstart hgenuine hgoes hused hs
  obtain ⟨i, header, image, -, -, hheader, hchecked, hforwards⟩ := hchecks _ hversion
  obtain ⟨rfl, hrereads⟩ := hforwards.kept [1, 2, 3] fun j _ hj => shows_of_images (hstored j hj)
  obtain ⟨hwhole, -, -⟩ := hforwards.whole hrereads hended
  exact ⟨g, hstart, genuine_sealedVault, hgoes, hused, s, b, i, header, hs, hheader, hchecked,
    hwhole⟩

/-- The report of that update. -/
def sealedReport : UpdateReport where
  ecu := 0
  image := "image"
  secure := false
  chunks := 1
  bytes := 3
  padded := true
  version := some sealedHeader.version

/-- Whether the update has been reported so, and has sent a chunk with the image 4, 5, 6, and the
element holds the key of zeros for updates. -/
def sendsReplaced (g : Gateway Memory) (s : Session) : Bool :=
  let g' := g.moment singleConfig (sealedEvents [4, 5, 6]) 43
  s.report? = some (.ok sealedReport) ∧
  frames (g.log singleConfig (sealedEvents [4, 5, 6]) 0 0 43) =
    [s.resetFrame, s.openingFrame, s.chunkFrame (Bytes.padTo [4, 5, 6] Firmware.chunkSize),
      s.finishFrame] ∧
  g'.keys.map (·.device.element.macKey g'.firmware.updateKey) = some (.ok Block.zero)

/-- Others put the image 4, 5, 6 in place of 1, 2, 3.  The update is reported with the version in
the header, and its chunk carries the new image, whose tag nobody has checked.  No chunk carries an
image that has the length and the tag in the header. -/
theorem replaced_image_sent :
    ∃ g, Gateway.start singleConfig 0 { interfaces := 4 } (sealedMemory [1, 2, 3])
        (some sealedVault) = .ok g ∧
      g.firmware.verifyHeader = true ∧ sealedVault.Genuine ∧
      (∀ now bus keys, .deed (.restart now bus keys) ∉ sealedEvents [4, 5, 6]) ∧
      g.KeysUsed singleConfig (sealedEvents [4, 5, 6]) ∧
      ∃ s, (g.moment singleConfig (sealedEvents [4, 5, 6]) 43).sessions[0]? = some s ∧
        s.report? = some (.ok sealedReport) ∧
        s.chunkFrame (Bytes.padTo [4, 5, 6] Firmware.chunkSize) ∈
          frames (g.log singleConfig (sealedEvents [4, 5, 6]) 0 0 43) ∧
        ∀ image, image.length = sealedHeader.length.toNat →
          (g.moment singleConfig (sealedEvents [4, 5, 6]) 43).Tagged sealedHeader image →
          s.chunkFrame (Bytes.padTo image Firmware.chunkSize) ∉
            frames (g.log singleConfig (sealedEvents [4, 5, 6]) 0 0 43) := by
  have hforged : Mac.tag Block.zero [4, 5, 6] ≠ sealedHeader.tag := by decide +kernel
  have hshown : sealedShown [4, 5, 6] sendsReplaced = some (some true) := by decide +kernel
  obtain ⟨g, s, hstart, hs, hsends⟩ := exists_of_sealedShown hshown
  simp only [sendsReplaced, decide_eq_true_eq] at hsends
  obtain ⟨hreport, hframes, hheld⟩ := hsends
  have hverifies : g.firmware.verifyHeader = true := by
    rw [(start_parts hstart).2]
    rfl
  refine ⟨g, hstart, hverifies, genuine_sealedVault, not_restart_mem_sealedEvents _,
    keysUsed_sealedEvents _ _ _, s, hs, hreport, ?_, ?_⟩
  · rw [hframes]
    simp
  · intro image hlength htagged hsent
    obtain ⟨vault, key, hkeys, hkey, htag⟩ := htagged
    rw [hkeys, Option.map_some, hkey, Option.some.injEq, Except.ok.injEq] at hheld
    rw [hframes] at hsent
    have hframe : s.chunkFrame (Bytes.padTo image Firmware.chunkSize) =
        s.chunkFrame (Bytes.padTo [4, 5, 6] Firmware.chunkSize) := by
      simpa [Session.resetFrame, Session.openingFrame, Session.finishFrame,
        Session.chunkFrame_ne_frame] using hsent
    have hpadded : Bytes.padTo image Firmware.chunkSize =
        Bytes.padTo [4, 5, 6] Firmware.chunkSize := congrArg Frame.data hframe
    have himage : image = [4, 5, 6] := (List.append_inj hpadded hlength).1
    rw [hheld, himage] at htag
    exact hforged htag

end Gateway
end VehicleGateway
