import VehicleGateway.Proofs.Message.Heading

/-!
# Which identifiers are recognized

An identifier is a word of 32 bits, and any such word can come in with a frame.

* `Heading.Names` says which identifier is put together from which parts.  `heading_eq_ok_iff` says
  that taking apart is the exact inverse of that: no other word has parts.
* `OneCategory` says bit by bit what a frame's identifier has to be like, and `ofFrame_eq_ok_iff`
  that a frame becomes a message exactly under that condition and with no more than 64 bytes.
* `identifiers_recognized` puts the two together: a frame whose lower 29 bits were put together
  becomes a message that is taken apart again, whatever stands in the three bits above.
-/

namespace VehicleGateway

/-- An identifier is put together from these parts. -/
inductive Heading.Names : Heading → Identifier → Prop where
  | data {index : UInt32} {i : Identifier} (h : Identifier.data index = .ok i) :
    Names (.data index.toNat) i
  | command (ecu : EcuNo) (code : UInt8) : Names (.command ecu code) (.command ecu code)
  | firmware (ecu : EcuNo) (code : UInt8) : Names (.firmware ecu code) (.firmware ecu code)

namespace Identifier

variable {i : Identifier} {c : Category}

/-! ## Putting together and taking apart -/

theorem raw_inj {i i' : Identifier} : i.raw = i'.raw ↔ i = i' := by
  cases i
  cases i'
  simp

theorem data_eq_ok_iff {index : UInt32} :
    data index = .ok i ↔ index.toNat < 0x1000000 ∧ i = assemble .data index.toNat := by
  unfold data
  split
  case isTrue hfits => simp [hfits, eq_comm]
  case isFalse hlarge => simp [hlarge]

theorem category?_eq_some_iff : i.category? = some c ↔ i.raw.toNat / 0x1000000 = c.mark := by
  constructor
  · intro h
    unfold category? at h
    split at h
    case h_4 => cases h
    all_goals
      cases h
      assumption
  · intro h
    cases c <;> simp only [Category.mark] at h <;> simp only [category?, h]

theorem low_lt (i : Identifier) : i.raw.toNat % 0x1000000 < 0x1000000 :=
  Nat.mod_lt _ (by decide)

/-- An identifier is its category with its low 24 bits below. -/
theorem eq_assemble_of_category? (h : i.category? = some c) :
    i = assemble c (i.raw.toNat % 0x1000000) := by
  have hmark := category?_eq_some_iff.mp h
  have hraw : i.raw = (assemble c (i.raw.toNat % 0x1000000)).raw := by
    apply UInt32.toNat_inj.mp
    rw [toNat_assemble c (low_lt i)]
    omega
  exact congrArg Identifier.mk hraw

/-- Sixteen bits are the number of an ECU above a code. -/
theorem ecu_code_join {low : Nat} (h : low < 0x10000) :
    (UInt8.ofNat (low / 0x100)).toNat * 0x100 + (UInt8.ofNat low).toNat = low := by
  rw [UInt8.toNat_ofNat', UInt8.toNat_ofNat']
  omega

/-- An identifier with reserved bits that are clear is put together from its parts. -/
theorem eq_join_of_category? (h : i.category? = some c) (hfits : i.raw.toNat % 0x1000000 < 0x10000) :
    i = assemble c ((UInt8.ofNat (i.raw.toNat % 0x1000000 / 0x100)).toNat * 0x100 +
      (UInt8.ofNat (i.raw.toNat % 0x1000000)).toNat) := by
  rw [ecu_code_join hfits]
  exact eq_assemble_of_category? h

theorem heading_data {index : UInt32} (h : data index = .ok i) :
    i.heading = .ok (.data index.toNat) := by
  obtain ⟨hfits, rfl⟩ := data_eq_ok_iff.mp h
  have hraw := toNat_assemble .data hfits
  simp only [Category.mark] at hraw
  have hmark : (assemble .data index.toNat).raw.toNat / 0x1000000 = 1 := by omega
  have hlow : (assemble .data index.toNat).raw.toNat % 0x1000000 = index.toNat := by omega
  simp only [heading, category?, hmark, hlow]

/-- What is taken apart was put together. -/
theorem names_of_heading {parts : Heading} (h : i.heading = .ok parts) : parts.Names i := by
  unfold heading at h
  split at h
  case h_1 => cases h
  case h_2 hcategory =>
    obtain rfl := Except.ok.inj h
    have hword : (UInt32.ofNat (i.raw.toNat % 0x1000000)).toNat = i.raw.toNat % 0x1000000 := by
      rw [UInt32.toNat_ofNat']
      omega
    have hdata : data (.ofNat (i.raw.toNat % 0x1000000)) = .ok i := by
      rw [data_eq_ok_iff, hword]
      exact ⟨low_lt i, eq_assemble_of_category? hcategory⟩
    rw [← hword]
    exact .data hdata
  case h_3 hcategory =>
    dsimp only at h
    split at h
    case isFalse => cases h
    case isTrue hfits =>
      obtain rfl := Except.ok.inj h
      have hi : i = command _ _ := eq_join_of_category? hcategory hfits
      have hnames := Heading.Names.command (UInt8.ofNat (i.raw.toNat % 0x1000000 / 0x100))
        (UInt8.ofNat (i.raw.toNat % 0x1000000))
      rwa [← hi] at hnames
  case h_4 hcategory =>
    dsimp only at h
    split at h
    case isFalse => cases h
    case isTrue hfits =>
      obtain rfl := Except.ok.inj h
      have hi : i = firmware _ _ := eq_join_of_category? hcategory hfits
      have hnames := Heading.Names.firmware (UInt8.ofNat (i.raw.toNat % 0x1000000 / 0x100))
        (UInt8.ofNat (i.raw.toNat % 0x1000000))
      rwa [← hi] at hnames

/-- An identifier is taken apart into exactly those parts from which it is put together. -/
theorem heading_eq_ok_iff {parts : Heading} : i.heading = .ok parts ↔ parts.Names i := by
  refine ⟨names_of_heading, ?_⟩
  rintro (hdata | ⟨ecu, code⟩ | ⟨ecu, code⟩)
  · exact heading_data hdata
  · exact heading_command ecu code
  · exact heading_firmware ecu code

/-- An identifier that cannot be taken apart is reported as it is. -/
theorem heading_cases (i : Identifier) :
    (∃ parts, i.heading = .ok parts) ∨ i.heading = .error (.malformed i.raw) := by
  unfold heading
  dsimp only
  split
  case h_1 => exact .inr rfl
  case h_2 => exact .inl ⟨_, rfl⟩
  case h_3 | h_4 =>
    split
    case isTrue => exact .inl ⟨_, rfl⟩
    case isFalse => exact .inr rfl

theorem heading_eq_error_iff :
    i.heading = .error (.malformed i.raw) ↔ ∀ parts : Heading, ¬ parts.Names i := by
  constructor
  · intro h parts hnames
    rw [heading_eq_ok_iff.mpr hnames] at h
    cases h
  · intro hnone
    obtain ⟨parts, hparts⟩ | herror := heading_cases i
    · exact absurd (heading_eq_ok_iff.mp hparts) (hnone parts)
    · exact herror

/-! ## Frames -/

/-- Exactly one of the bits 24, 25 and 26 of a word is set, and neither bit 27 nor bit 28. -/
def OneCategory (raw : UInt32) : Prop :=
  let bit (n : Nat) : Bool := raw.toNat.testBit n
  (bit 24).toNat + (bit 25).toNat + (bit 26).toNat = 1 ∧ bit 27 = false ∧ bit 28 = false

theorem toNat_significant (raw : UInt32) :
    (Message.significant raw).raw.toNat = raw.toNat % 0x20000000 := by
  rw [Message.significant, UInt32.toNat_ofNat']
  omega

/-- The five bits above the lower 24 of an identifier are those of the word that came in. -/
theorem testBit_significant (raw : UInt32) {n : Nat} (hn : n < 5) :
    ((Message.significant raw).raw.toNat / 0x1000000).testBit n = raw.toNat.testBit (24 + n) := by
  have hkept : 0x20000000 = 2 ^ 29 := rfl
  have hlow : 0x1000000 = 2 ^ 24 := rfl
  have hbelow : 24 + n < 29 := by omega
  rw [toNat_significant, hkept, hlow, Nat.testBit_div_two_pow, Nat.testBit_mod_two_pow,
    Nat.add_comm n 24]
  simp [hbelow]

/-- The category of a word as a condition on its bits. -/
theorem exists_category?_iff (raw : UInt32) :
    (∃ c, (Message.significant raw).category? = some c) ↔ OneCategory raw := by
  have hupper : (Message.significant raw).raw.toNat / 0x1000000 < 32 := by
    rw [toNat_significant]
    omega
  have hbits {n : Nat} (hn : n < 5) := testBit_significant raw hn
  have hvalues : (∃ c, (Message.significant raw).category? = some c) ↔
      (Message.significant raw).raw.toNat / 0x1000000 ∈ [1, 2, 4] := by
    simp only [category?_eq_some_iff]
    constructor
    · rintro ⟨c, hc⟩
      rw [hc]
      cases c <;> decide
    · simp only [List.mem_cons, List.not_mem_nil, or_false]
      rintro (h | h | h)
      · exact ⟨.data, h⟩
      · exact ⟨.command, h⟩
      · exact ⟨.firmware, h⟩
  have hnumbers : ∀ q < 32, q ∈ [1, 2, 4] ↔
      (q.testBit 0).toNat + (q.testBit 1).toNat + (q.testBit 2).toNat = 1 ∧
        q.testBit 3 = false ∧ q.testBit 4 = false := by decide
  rw [hvalues, hnumbers _ hupper, hbits (by decide), hbits (by decide), hbits (by decide),
    hbits (by decide), hbits (by decide)]
  rfl

end Identifier

namespace Message

open Identifier (OneCategory)

variable {f : Frame} {m : Message}

theorem raw_significant (raw : UInt32) : (significant raw).raw = raw &&& 0x1FFFFFFF := by
  apply UInt32.toNat_inj.mp
  have hmask : (0x1FFFFFFF : UInt32).toNat = 2 ^ 29 - 1 := rfl
  rw [Identifier.toNat_significant, UInt32.toNat_and, hmask, Nat.and_two_pow_sub_one_eq_mod]

theorem make_eq_ok_iff {i : Identifier} {payload : Bytes} {interface : UInt8} :
    make i payload interface = .ok m ↔
      m.id = i ∧ m.interface = interface ∧ m.payload = payload := by
  unfold make
  split
  case isTrue hfits =>
    obtain ⟨id, on, data, hdata⟩ := m
    simp [eq_comm]
  case isFalse hlong =>
    simp only [reduceCtorEq, false_iff]
    rintro ⟨-, -, rfl⟩
    exact hlong m.fits

/-- The messages that come in are the frames with a category, less the bits that do not count. -/
theorem ofFrame_eq_ok_iff : ofFrame f = .ok m ↔ OneCategory f.id ∧
    m.id.raw = f.id &&& 0x1FFFFFFF ∧ m.interface = f.interface ∧ m.payload = f.data := by
  rw [← Identifier.exists_category?_iff, ← raw_significant]
  unfold ofFrame
  dsimp only
  split
  case h_1 hnone => simp [hnone]
  case h_2 c hsome => simp [hsome, make_eq_ok_iff, Identifier.raw_inj]

/-- A frame becomes a message if its identifier has a category and its data fits. -/
theorem exists_ofFrame_iff :
    (∃ m, ofFrame f = .ok m) ↔ OneCategory f.id ∧ f.data.length ≤ 64 := by
  simp only [ofFrame_eq_ok_iff]
  constructor
  · rintro ⟨m, hcategory, -, -, hdata⟩
    exact ⟨hcategory, hdata ▸ m.fits⟩
  · rintro ⟨hcategory, hfits⟩
    exact ⟨⟨⟨f.id &&& 0x1FFFFFFF⟩, f.interface, f.data, hfits⟩, hcategory, rfl, rfl, rfl⟩

end Message

/-- An identifier that was put together has a category. -/
theorem Heading.Names.oneCategory {parts : Heading} {i : Identifier} (h : parts.Names i)
    {raw : UInt32} (hraw : raw &&& 0x1FFFFFFF = i.raw) : Identifier.OneCategory raw := by
  have hi : Message.significant raw = i := by
    rw [← Identifier.raw_inj, Message.raw_significant, hraw]
  rw [← Identifier.exists_category?_iff, hi]
  have hheading := Identifier.heading_eq_ok_iff.mpr h
  unfold Identifier.heading at hheading
  split at hheading
  case h_1 => cases hheading
  case h_2 hc | h_3 hc | h_4 hc => exact ⟨_, hc⟩

/-- Every identifier is taken apart into what it is put together from, and reported if it is not put
together at all; no identifier is put together from two sorts of parts.  A frame becomes a message
exactly if the lower 29 bits of its identifier have a category and its data fits, and keeps its
interface, its data and these 29 bits.  So a frame with an identifier that was put together is taken
apart again, whatever the upper three bits are. -/
theorem identifiers_recognized :
    (∀ (i : Identifier) (parts : Heading), i.heading = .ok parts ↔ parts.Names i) ∧
    (∀ i : Identifier,
      i.heading = .error (.malformed i.raw) ↔ ∀ parts : Heading, ¬ parts.Names i) ∧
    (∀ index : UInt32, (∃ i, Identifier.data index = .ok i) ↔ index.toNat < 0x1000000) ∧
    (∀ (parts parts' : Heading) (i : Identifier),
      parts.Names i → parts'.Names i → parts = parts') ∧
    (∀ f : Frame, (∃ m, Message.ofFrame f = .ok m) ↔
      Identifier.OneCategory f.id ∧ f.data.length ≤ 64) ∧
    (∀ (f : Frame) (m : Message), Message.ofFrame f = .ok m →
      m.payload = f.data ∧ m.interface = f.interface ∧ m.id.raw = f.id &&& 0x1FFFFFFF) ∧
    ∀ (parts : Heading) (i : Identifier) (f : Frame), parts.Names i →
      f.id &&& 0x1FFFFFFF = i.raw → f.data.length ≤ 64 →
        ∃ m, Message.ofFrame f = .ok m ∧ m.id = i ∧ m.id.heading = .ok parts := by
  refine ⟨fun i parts => Identifier.heading_eq_ok_iff, fun i => Identifier.heading_eq_error_iff,
    ?_, ?_, fun f => Message.exists_ofFrame_iff, ?_, ?_⟩
  · intro index
    simp [Identifier.data_eq_ok_iff]
  · intro parts parts' i hparts hparts'
    rw [← Identifier.heading_eq_ok_iff] at hparts hparts'
    exact Except.ok.inj (hparts.symm.trans hparts')
  · intro f m hm
    obtain ⟨-, hraw, hinterface, hdata⟩ := Message.ofFrame_eq_ok_iff.mp hm
    exact ⟨hdata, hinterface, hraw⟩
  · intro parts i f hparts hraw hfits
    obtain ⟨m, hm⟩ := Message.exists_ofFrame_iff.mpr ⟨hparts.oneCategory hraw, hfits⟩
    obtain ⟨-, hkept, -⟩ := Message.ofFrame_eq_ok_iff.mp hm
    have hi : m.id = i := Identifier.raw_inj.mp (hkept.trans hraw)
    exact ⟨m, hm, hi, by rw [hi, Identifier.heading_eq_ok_iff.mpr hparts]⟩

/-- The answer to a status request comes in with all three upper bits set. -/
theorem marked_answer_recognized :
    (Heading.command 3 4).Names (.command 3 4) ∧
      (0xE2000304 : UInt32) &&& 0x1FFFFFFF = (Identifier.command 3 4).raw ∧
      ∃ m, Message.ofFrame ⟨2, 0xE2000304, [0]⟩ = .ok m ∧ m.id = .command 3 4 ∧
        m.id.heading = .ok (.command 3 4) := by
  have hnames : (Heading.command 3 4).Names (.command 3 4) := .command 3 4
  obtain ⟨-, -, -, -, -, -, hrecognized⟩ := identifiers_recognized
  exact ⟨hnames, rfl, hrecognized _ _ ⟨2, 0xE2000304, [0]⟩ hnames rfl (by decide)⟩

end VehicleGateway
