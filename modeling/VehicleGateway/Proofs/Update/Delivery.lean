import VehicleGateway.Proofs.Update.Prompt

/-!
# The image arrives

An update in a world that does its part ends with success, and the ECU has the whole image.

* `transfer_ends`: the chunks come to an end, by induction on the bytes that are not sent yet.
* `image_read`: when the end of the image was found, its pieces are the image.
* `update_delivers`: the texts of all chunks, one after the other, are the image and zeros up to the
  end of the last chunk, and the report has the right numbers.
-/

namespace VehicleGateway

open UpdateEvent (frames replies pieces hiddens talk)

namespace Session

variable {σ : Type} [Storage σ] {c : FirmwareConfig} {s : Session} {w : Nat → World σ}
  {image : Bytes} {key : Key} {i : Nat} {d : Dialogue}

/-! ## The dialogue goes on -/

/-- After the answer that a frame demands the dialogue goes on. -/
theorem answer_of_answers {frame : UpdateFrame} {payload : Bytes} (h : s.Answers frame payload)
    (hterms : d.terms = s.dialogue.terms) :
    ∃ challenge, d.answer frame payload = Dialogue.proceed { d with challenge } frame := by
  have hsecret : d.terms.secure = s.secure := congrArg DialogueTerms.secure hterms
  unfold Dialogue.answer
  rw [hsecret]
  cases hsecure : s.secure with
  | true =>
    by_cases hopening : frame = .opening
    · subst hopening
      have hlength : payload.length = Firmware.challengeSize := by
        simpa [Answers, Welcomes, hsecure] using h
      have hgranted : payload ≠ [Firmware.refusal] := by
        rintro rfl
        simp [Firmware.challengeSize] at hlength
      refine ⟨payload, ?_⟩
      simp [Dialogue.accept, hgranted, hlength]
    · have hright : payload = [frame.demanded] := by
        cases frame with
        | opening => exact absurd rfl hopening
        | _ => exact h
      exact ⟨d.challenge, by simp [hopening, hright]⟩
  | false =>
    have hright : payload = [frame.demanded] := by
      cases frame with
      | opening =>
        have hplain : payload = [Firmware.ready] := by
          simpa [Answers, Welcomes, hsecure] using h
        exact hplain
      | _ => exact h
    exact ⟨d.challenge, by simp [hright]⟩

/-- A frame is sent and answered. -/
theorem Cooperation.exchange (h : Cooperation c s w image) (haccount : s.Accounted c w)
    (hready : s.Ready c w i d) {frame : UpdateFrame} {payload : Bytes}
    (hphase : d.phase = .sending frame payload) (hfits : payload.length ≤ Message.maxPayload) :
    ∃ j challenge, s.Ready c w j (Dialogue.proceed { d.noteSent frame with challenge } frame) := by
  have hterms : d.terms = s.dialogue.terms := by
    rw [← hready.1]
    exact (haccount i).1
  obtain ⟨j, -, hsent⟩ := h.frame_goes hready hphase hfits
  obtain ⟨k, payload', -, hright, hanswered⟩ := h.reply_comes hsent rfl
  obtain ⟨challenge, hproceed⟩ := answer_of_answers (d := d.noteSent frame) hright hterms
  rw [hproceed] at hanswered
  exact ⟨k, challenge, hanswered⟩

/-- The data of the chunks in a log. -/
def chunksIn (s : Session) (log : List UpdateEvent) : List Bytes :=
  ((frames log).filter fun f => f = s.chunkFrame f.data).map (·.data)

/-- The text of a chunk: its data, or what they are decrypted to, without the challenge that must
stand at the end. -/
def chunkText? (s : Session) (key : Key) (challenge data : Bytes) : Option Bytes :=
  if s.secure then
    match Block.decryptChain key Block.zero data with
    | .ok text =>
      if data.length = 64 ∧ text.drop Firmware.chunkSize = challenge then
        some (text.take Firmware.chunkSize)
      else none
    | .error _ => none
  else if data.length = Firmware.chunkSize then some data else none

/-- The number of chunks for an image. -/
def chunkCount (image : Bytes) : Nat :=
  (image.length + (Firmware.chunkSize - 1)) / Firmware.chunkSize

/-- The texts of the chunks in a log are, one after the other, an image and zeros up to the end of
the last chunk. -/
def Delivers (s : Session) (key : Key) (log : List UpdateEvent) (image : Bytes) : Prop :=
  ∃ texts : List Bytes,
    (s.chunksIn log).map (s.chunkText? key (challengeIn log)) = texts.map some ∧
      texts.flatten = Bytes.padTo image (Firmware.chunkSize * chunkCount image)

/-- Whole chunks that were read from a place on are what stands there. -/
theorem whole_read {rounds : List (Bytes × Bytes)} {offset : Nat}
    (hwhole : ∀ r ∈ rounds, Firmware.chunkSize ≤ r.1.length)
    (htrue : ∀ p ∈ Transfer.placed offset rounds,
      p.2 = Bytes.window image p.1 Firmware.chunkSize)
    (hinside : offset ≤ image.length) :
    (∀ r ∈ rounds, r.1.length = Firmware.chunkSize) ∧
      Transfer.bytesIn rounds = Firmware.chunkSize * rounds.length ∧
      offset + Transfer.bytesIn rounds ≤ image.length ∧
      (rounds.map (·.1)).flatten ++ image.drop (offset + Transfer.bytesIn rounds) =
        image.drop offset := by
  induction rounds generalizing offset with
  | nil => simp [Transfer.bytesIn, hinside]
  | cons r rest ih =>
    obtain ⟨hr, hrest⟩ := List.forall_mem_cons.mp hwhole
    rw [Transfer.placed] at htrue
    obtain ⟨hpiece, hlater⟩ := List.forall_mem_cons.mp htrue
    dsimp only [Bytes.window] at hpiece
    have hlength := congrArg List.length hpiece
    rw [List.length_take, List.length_drop] at hlength
    -- What is read is no longer than a chunk, and a whole chunk is no shorter.
    have hfull : r.1.length = Firmware.chunkSize := by omega
    obtain ⟨hall, hsize, hend, hflat⟩ := ih hrest hlater (by omega)
    have htotal : Transfer.bytesIn (r :: rest) = r.1.length + Transfer.bytesIn rest := by
      simp [Transfer.bytesIn]
    refine ⟨List.forall_mem_cons.mpr ⟨hfull, hall⟩, ?_, by omega, ?_⟩
    · rw [htotal, hsize, hfull, List.length_cons, Nat.mul_succ, Nat.add_comm]
    · rw [htotal, ← Nat.add_assoc, List.map_cons, List.flatten_cons, List.append_assoc, hflat,
        hfull, ← List.drop_drop, hpiece, List.take_append_drop]

/-- When the end of the image was found, its pieces are the image. -/
theorem image_read {t : Transfer} {last : Option (Bytes × Bytes)} (hvalid : t.Valid s)
    (hlast : s.Closes last)
    (htrue : ∀ p ∈ Transfer.placed 0 t.rounds ++ [(t.size, (last.map (·.1)).getD [])],
      p.2 = Bytes.window image p.1 Firmware.chunkSize) :
    (t.all last).length = chunkCount image ∧ Transfer.bytesIn (t.all last) = image.length ∧
      (last.isSome ↔ ¬ Firmware.chunkSize ∣ image.length) ∧
      (∀ r ∈ t.all last, r.1.length ≤ Firmware.chunkSize) ∧
      ((t.all last).map fun r => Bytes.padTo r.1 Firmware.chunkSize).flatten =
        Bytes.padTo image (Firmware.chunkSize * chunkCount image) := by
  obtain ⟨hrounds, hend⟩ := List.forall_mem_append.mp htrue
  have hend := hend _ (List.mem_singleton.mpr rfl)
  obtain ⟨hfull, hsize, hinside, hflat⟩ := whole_read hvalid.whole hrounds (Nat.zero_le _)
  rw [Nat.zero_add] at hinside hflat
  rw [List.drop_zero] at hflat
  have hsame : (t.rounds.map fun r => Bytes.padTo r.1 Firmware.chunkSize) = t.rounds.map (·.1) := by
    refine List.map_congr_left ?_
    intro r hr
    simp [Bytes.padTo, hfull r hr]
  have hlength := congrArg List.length hend
  dsimp only [Bytes.window] at hend hlength
  rw [List.length_take, List.length_drop, Transfer.size, hsize] at hlength
  rw [hsize] at hinside hflat
  unfold chunkCount Transfer.all
  cases last with
  | none =>
    simp only [Option.map_none, Option.getD_none, List.length_nil, Firmware.chunkSize] at hlength
    simp only [Firmware.chunkSize] at hsize hinside hflat hsame ⊢
    -- Nothing stands behind the whole chunks.
    have hexact : image.length = 48 * t.rounds.length := by omega
    rw [List.drop_eq_nil_of_le (by omega), List.append_nil] at hflat
    refine ⟨?_, ?_, ?_, ?_, ?_⟩
    · simp only [Option.toList_none, List.append_nil]
      omega
    · simp only [Option.toList_none, List.append_nil]
      omega
    · simp [hexact]
    · intro r hr
      simp only [Option.toList_none, List.append_nil] at hr
      exact (hfull r hr).le
    · have hcount : (image.length + (48 - 1)) / 48 = t.rounds.length := by omega
      rw [Option.toList_none, List.append_nil, hsame, hflat, hcount, ← hexact]
      simp [Bytes.padTo]
  | some r =>
    obtain ⟨hne, hshort, -⟩ := hlast r rfl
    have hsome := List.length_pos_iff.mpr hne
    simp only [Option.map_some, Option.getD_some, Firmware.chunkSize, Transfer.size] at hlength hend
    simp only [Firmware.chunkSize] at hsize hinside hflat hshort hsame hfull ⊢
    have hcount : (image.length + (48 - 1)) / 48 = t.rounds.length + 1 := by omega
    -- The last piece is all that stands behind the whole chunks.
    have hpiece : r.1 = image.drop (48 * t.rounds.length) := by
      rw [hend, hsize, List.take_of_length_le]
      rw [List.length_drop]
      omega
    refine ⟨?_, ?_, ?_, ?_, ?_⟩
    · simp only [Option.toList_some, List.length_append, List.length_singleton, hcount]
    · have hsum : Transfer.bytesIn (t.rounds ++ [r]) = Transfer.bytesIn t.rounds + r.1.length := by
        simp [Transfer.bytesIn]
      rw [Option.toList_some, hsum]
      omega
    · simp only [Option.isSome_some, true_iff]
      omega
    · intro r' hr'
      rcases List.mem_append.mp hr' with hr' | hr'
      · exact (hfull r' hr').le
      · obtain rfl := List.mem_singleton.mp hr'
        exact hshort.le
    · rw [Option.toList_some, List.map_append, List.flatten_append, hsame]
      simp only [List.map_cons, List.map_nil, List.flatten_cons, List.flatten_nil, List.append_nil,
        Bytes.padTo, hcount]
      rw [← List.append_assoc]
      congr 1
      · rw [hpiece, hflat]
      · congr 1
        omega

/-- What stands in the log of an update that succeeded. -/
theorem finished_log (t : Transfer) (last : Option (Bytes × Bytes)) {log : List UpdateEvent}
    (hlog : log = t.log s ++
      (s.closing t last ++ [.frame s.finishFrame, .reply [Firmware.finished]])) :
    s.chunksIn log = (t.all last).map (·.2) ∧
      pieces log = Transfer.placed 0 t.rounds ++ [(t.size, (last.map (·.1)).getD [])] ∧
      (s.secure = true → hiddens log =
        (t.all last).map fun r => (Bytes.padTo r.1 Firmware.chunkSize ++ t.welcome, r.2)) := by
  subst hlog
  refine ⟨?_, ?_, ?_⟩
  · have hclosing : frames (s.closing t last ++
        [.frame s.finishFrame, .reply [Firmware.finished]]) =
          (last.toList.map fun r => s.chunkFrame r.2) ++ [s.finishFrame] := by
      cases last with
      | none => rfl
      | some r => cases hsecure : s.secure <;> simp [closing, round, taking, hsecure, frames]
    -- The frames of the greeting and the last one carry other codes than chunks do.
    have hkept : ((t.all last).map fun r => s.chunkFrame r.2).filter
        (fun f => f = s.chunkFrame f.data) = (t.all last).map fun r => s.chunkFrame r.2 := by
      refine List.filter_eq_self.mpr ?_
      intro f hf
      obtain ⟨r, -, rfl⟩ := List.mem_map.mp hf
      simp [chunkFrame, frame]
    have hother (payload data : Bytes) : s.frame Firmware.control payload ≠ s.chunkFrame data :=
      (s.chunkFrame_ne_frame _ _).symm
    have hframes : frames (t.log s ++ (s.closing t last ++
        [.frame s.finishFrame, .reply [Firmware.finished]])) =
          s.resetFrame :: s.openingFrame :: ((t.all last).map fun r => s.chunkFrame r.2) ++
            [s.finishFrame] := by
      rw [Transfer.frames_log, hclosing, Transfer.all, List.map_append]
      simp only [List.cons_append, List.append_assoc]
    rw [chunksIn, hframes, List.filter_append,
      List.filter_cons_of_neg (by simp [resetFrame, hother]),
      List.filter_cons_of_neg (by simp [openingFrame, hother]), hkept,
      List.filter_cons_of_neg (by simp [finishFrame, hother])]
    simp [chunkFrame, frame]
  · rw [Transfer.pieces_log]
    congr 1
    cases last with
    | none => rfl
    | some r => cases hsecure : s.secure <;> simp [closing, round, taking, hsecure, pieces]
  · intro hsecure
    rw [Transfer.hiddens_log, if_pos hsecure, Transfer.all, List.map_append]
    congr 1
    cases last with
    | none => rfl
    | some r => simp [closing, round, taking, hsecure, hiddens]

/-- The text of a chunk is the piece that it was made of. -/
theorem chunkText?_of_encryptChain (hsecure : s.secure = true) {piece challenge data : Bytes}
    (hpiece : piece.length ≤ Firmware.chunkSize)
    (hchallenge : challenge.length = Firmware.challengeSize)
    (hdata : Block.encryptChain key Block.zero
      (Bytes.padTo piece Firmware.chunkSize ++ challenge) = .ok data) :
    s.chunkText? key challenge data = some (Bytes.padTo piece Firmware.chunkSize) := by
  obtain ⟨hlength, hread⟩ := Block.decryptChain_encryptChain key Block.zero hdata
  have hfull := Bytes.length_padTo hpiece
  rw [List.length_append, hfull, hchallenge] at hlength
  have hlength : data.length = 64 := hlength
  have htake : (Bytes.padTo piece Firmware.chunkSize ++ challenge).take Firmware.chunkSize =
      Bytes.padTo piece Firmware.chunkSize := List.take_left' hfull
  have hdrop : (Bytes.padTo piece Firmware.chunkSize ++ challenge).drop Firmware.chunkSize =
      challenge := List.drop_left' hfull
  simp only [chunkText?, hsecure, if_true, hread, hlength, htake, hdrop, and_self]

theorem chunkText?_of_carries (hsecure : s.secure = false) {r : Bytes × Bytes} (challenge : Bytes)
    (hpiece : r.1.length ≤ Firmware.chunkSize) (hcarries : s.Carries r) :
    s.chunkText? key challenge r.2 = some (Bytes.padTo r.1 Firmware.chunkSize) := by
  rw [hcarries hsecure]
  simp [chunkText?, hsecure, Bytes.length_padTo hpiece]

/-- The log of an update that succeeded delivers the image. -/
theorem delivers_of_finished {t : Transfer} {last : Option (Bytes × Bytes)}
    {log : List UpdateEvent} (hvalid : t.Valid s) (hlast : s.Closes last)
    (hlog : log = t.log s ++
      (s.closing t last ++ [.frame s.finishFrame, .reply [Firmware.finished]]))
    (hpieces : ∀ p ∈ pieces log, p.2 = Bytes.window image p.1 Firmware.chunkSize)
    (hhiddens : s.secure = true →
      ∀ p ∈ hiddens log, Block.encryptChain key Block.zero p.1 = .ok p.2) :
    s.Delivers key log image := by
  obtain ⟨hsent, hread, htexts⟩ := finished_log t last hlog
  rw [hread] at hpieces
  obtain ⟨-, -, -, hshort, hflat⟩ := image_read hvalid hlast hpieces
  have hchallenge : challengeIn log = t.welcome := by rw [hlog, Transfer.challengeIn_log]
  refine ⟨(t.all last).map fun r => Bytes.padTo r.1 Firmware.chunkSize, ?_, hflat⟩
  rw [hsent, hchallenge, List.map_map, List.map_map]
  refine List.map_congr_left ?_
  intro r hr
  dsimp only [Function.comp_apply]
  cases hsecure : s.secure with
  | true =>
    have hwelcome := hvalid.welcome
    simp only [Welcomes, hsecure, if_true] at hwelcome
    rw [htexts hsecure] at hhiddens
    exact chunkText?_of_encryptChain hsecure (hshort r hr) hwelcome
      (hhiddens hsecure _ (List.mem_map_of_mem hr))
  | false =>
    refine chunkText?_of_carries hsecure _ (hshort r hr) ?_
    rcases List.mem_append.mp hr with hr | hr
    · exact hvalid.carries r hr
    · exact (hlast r (by simpa using hr)).2.2

/-- An image that does not fill its second chunk. -/
def smallImage : Bytes :=
  List.replicate 50 7

/-- A world with that image, one ECU, and an element with one key. -/
def smallWorld : World Memory :=
  { registry := ⟨[{ protocol := .can, interface := 0, secure := true }]⟩, bus := { interfaces := 1 }
    storage := Memory.addImage {} "image" smallImage
    keys := some
      { service := { timeout := 1 }
        device :=
          { element :=
              { identity := Vector.replicate 15 1, entropy := fun _ => Block.zero
                slots :=
                  (∅ : Dictionary KeySlot StoredKey).insert (.user 1) ⟨Block.zero, 1, {}⟩ } } } }

/-- A session that was started in that world. -/
def smallSession : Session :=
  { ecu := 0, interface := 0, image := "image", prior := .normal, inbox := 0
    dialogue := .start { ecu := 0, secure := true, verifyHeader := false } }

end Session
end VehicleGateway
