import VehicleGateway.Proofs.Keys.ElementRun

/-!
# Keys of which nothing is seen

The master key neither encrypts nor makes codes, and the key of the boot slot and the keys that make
codes only do not encrypt.  So two elements that differ in such keys alone cannot be told apart by
whoever uses them for the one or the other.

* `DiffersOnlyIn` says that two elements are the same but for the bytes of hidden keys.
* `Command.Spares` says of a command that it has no use for hidden keys.  `DiffersOnlyIn.execute`
  says that its answer is then the same and that the elements stay as they are to each other, and
  `DiffersOnlyIn.history_eq` says so of a run.
* `hidden_keys_unseen` is the whole, for every run of two elements in any state.
-/

namespace VehicleGateway

/-- The same key but for its bytes, and these are the same too unless the key is hidden. -/
structure StoredKey.SameBut (hidden : KeyFlags → Prop) (stored stored' : StoredKey) : Prop where
  counter : stored'.counter = stored.counter
  flags : stored'.flags = stored.flags
  key : ¬ hidden stored.flags → stored'.key = stored.key

namespace Command

/-- Whether a command encrypts or decrypts, or uses no stored key at all. -/
def ciphers : Command → Bool
  | .encryptEach .. | .decryptEach .. | .encryptChain .. | .decryptChain .. | .random
  | .loadPlainKey _ | .debugChallenge => true
  | _ => false

/-- Whether a command makes or checks a code. -/
def macs : Command → Bool
  | .makeMac .. | .checkMac .. => true
  | _ => false

/-- A command that has no use for hidden keys: it ciphers, and keys of users are hidden only if they
make codes, or it makes codes, and only the master key is hidden. -/
def Spares (hidden : KeySlot → KeyFlags → Prop) (c : Command) : Prop :=
  (c.ciphers = true ∧ ∀ n flags, hidden (.user n) flags → flags.macOnly = true) ∨
    (c.macs = true ∧ ∀ slot flags, hidden slot flags → slot = .master)

end Command

namespace Element

/-- Two elements that are the same but for the bytes of hidden keys. -/
structure DiffersOnlyIn (hidden : KeySlot → KeyFlags → Prop) (e e' : Element) : Prop where
  identity : e'.identity = e.identity
  slots : ∀ slot, Option.Rel (StoredKey.SameBut (hidden slot)) (e.slots.get? slot)
    (e'.slots.get? slot)
  plainKey : e'.plainKey = e.plainKey
  challenge : e'.challenge = e.challenge
  entropy : e'.entropy = e.entropy
  drawn : e'.drawn = e.drawn

/-- The master key is hidden. -/
def masterHidden (slot : KeySlot) (_ : KeyFlags) : Prop :=
  slot = .master

/-- The keys that make codes only are hidden: that of the boot slot, and those of users with the
flag. -/
def codeKeysHidden (slot : KeySlot) (flags : KeyFlags) : Prop :=
  slot = .bootMac ∨ (∃ n, slot = .user n) ∧ flags.macOnly = true

variable {hidden : KeySlot → KeyFlags → Prop} {e e' : Element} {c : Command}
  {actions : List ElementAction}

theorem cipherKey_user (e : Element) (n : UInt8) : e.cipherKey (.user n) =
    match e.slots.get? (.user n) with
    | none => .error .empty
    | some stored => if stored.flags.macOnly then .error .notPermitted else .ok stored.key := rfl

/-- The slots other than those of the master key and of the key in the clear make codes with the key
that they hold. -/
theorem macKey_of_ne (e : Element) {slot : KeySlot} (hram : slot ≠ .ram)
    (hmaster : slot ≠ .master) : e.macKey slot = match e.slots.get? slot with
      | some stored => .ok stored.key
      | none => .error .empty := by
  cases slot with
  | ram => exact absurd rfl hram
  | master => exact absurd rfl hmaster
  | bootMac | user n => rfl

theorem DiffersOnlyIn.cipherKey_eq (h : DiffersOnlyIn hidden e e')
    (hhidden : ∀ n flags, hidden (.user n) flags → flags.macOnly = true) (slot : KeySlot) :
    e'.cipherKey slot = e.cipherKey slot := by
  cases slot with
  | ram => simp only [cipherKey, h.plainKey]
  | master | bootMac => rfl
  | user n =>
    have hslot := h.slots (.user n)
    rw [cipherKey_user, cipherKey_user]
    generalize e.slots.get? (.user n) = present, e'.slots.get? (.user n) = present' at hslot
    cases hslot with
    | none => rfl
    | @some stored stored' hsame =>
      simp only [hsame.flags]
      split
      case isTrue => rfl
      case isFalse hplain => rw [hsame.key fun hh => hplain (hhidden n stored.flags hh)]

theorem DiffersOnlyIn.macKey_eq (h : DiffersOnlyIn hidden e e')
    (hhidden : ∀ slot flags, hidden slot flags → slot = .master) (slot : KeySlot) :
    e'.macKey slot = e.macKey slot := by
  by_cases hram : slot = .ram
  · subst hram
    simp only [macKey, h.plainKey]
  by_cases hmaster : slot = .master
  · subst hmaster
    rfl
  have hslot := h.slots slot
  rw [e'.macKey_of_ne hram hmaster, e.macKey_of_ne hram hmaster]
  generalize e.slots.get? slot = present, e'.slots.get? slot = present' at hslot
  cases hslot with
  | none => rfl
  | @some stored stored' hsame => simp only [hsame.key fun hh => hmaster (hhidden slot _ hh)]

/-- A command that has no use for hidden keys shows nothing of them, and changes nothing about
them. -/
theorem DiffersOnlyIn.execute (h : DiffersOnlyIn hidden e e') (hc : c.Spares hidden) :
    (e'.execute c).2 = (e.execute c).2 ∧ DiffersOnlyIn hidden (e.execute c).1 (e'.execute c).1 := by
  rcases hc with ⟨hciphers, hhidden⟩ | ⟨hmacs, hhidden⟩
  · cases c with
    | encryptEach slot _ | decryptEach slot _ | encryptChain slot _ _ | decryptChain slot _ _ =>
      exact ⟨by simp only [Element.execute, h.cipherKey_eq hhidden], h⟩
    | random =>
      exact ⟨by simp only [Element.execute, h.entropy, h.drawn],
        { h with drawn := congrArg (· + 1) h.drawn }⟩
    | loadPlainKey key => exact ⟨rfl, { h with plainKey := rfl }⟩
    | debugChallenge =>
      have hdrawn : e'.entropy e'.drawn = e.entropy e.drawn := by rw [h.entropy, h.drawn]
      exact ⟨by simp only [Element.execute, hdrawn],
        { h with challenge := congrArg some hdrawn, drawn := congrArg (· + 1) h.drawn }⟩
    | makeMac | checkMac | loadKey | identify | debugAuthorize => cases hciphers
  · cases c with
    | makeMac slot _ | checkMac slot _ _ =>
      exact ⟨by simp only [Element.execute, h.macKey_eq hhidden], h⟩
    | _ => cases hmacs

theorem DiffersOnlyIn.cancel (h : DiffersOnlyIn hidden e e') :
    DiffersOnlyIn hidden e.cancel e'.cancel :=
  { h with challenge := rfl }

/-- Nothing is seen of hidden keys in a run of commands that have no use for them. -/
theorem DiffersOnlyIn.history_eq (h : DiffersOnlyIn hidden e e')
    (hactions : ∀ c, .command c ∈ actions → c.Spares hidden) :
    e'.history actions = e.history actions := by
  induction actions generalizing e e' with
  | nil => rfl
  | cons a later ih =>
    have hlater : ∀ c, .command c ∈ later → c.Spares hidden := fun c hc => hactions c (.tail _ hc)
    cases a with
    | command c =>
      obtain ⟨hanswer, hafter⟩ := h.execute (hactions c List.mem_cons_self)
      simp only [history, event, hanswer, act, ih hafter hlater]
    | cancel => exact congrArg (ElementEvent.cancelled :: ·) (ih h.cancel hlater)

/-- Two elements in any state that differ in the bytes of the master key alone answer a run of
ciphers and codes alike.  If they differ in the keys alone that make codes only, they answer a run
of ciphers alike, whatever the slots.  So none of these keys is ever one with which a slot encrypts,
and the master key makes no codes either. -/
theorem hidden_keys_unseen (e e' : Element) (actions : List ElementAction) :
    (DiffersOnlyIn masterHidden e e' →
      (∀ c, .command c ∈ actions → c.ciphers = true ∨ c.macs = true) →
        e'.history actions = e.history actions) ∧
    (DiffersOnlyIn codeKeysHidden e e' →
      (∀ c, .command c ∈ actions → c.ciphers = true) →
        e'.history actions = e.history actions) ∧
    (∀ key, e.macKey .master ≠ .ok key) ∧
    ∀ slot stored key, e.slots.get? slot = some stored → slot ≠ .ram →
      (masterHidden slot stored.flags ∨ codeKeysHidden slot stored.flags) →
        e.cipherKey slot ≠ .ok key := by
  refine ⟨?_, ?_, nofun, ?_⟩
  · intro h hactions
    refine h.history_eq fun c hc => ?_
    rcases hactions c hc with hciphers | hmacs
    · exact .inl ⟨hciphers, fun n flags hhidden => nomatch hhidden⟩
    · exact .inr ⟨hmacs, fun slot flags hhidden => hhidden⟩
  · intro h hactions
    refine h.history_eq fun c hc => .inl ⟨hactions c hc, ?_⟩
    rintro n flags (hboot | ⟨-, hflag⟩)
    · cases hboot
    · exact hflag
  · rintro slot stored key hstored hram (rfl | rfl | ⟨⟨n, rfl⟩, hflag⟩)
    · nofun
    · nofun
    · simp [cipherKey_user, hstored, hflag]

/-! ## An element with two keys -/

/-- An element with a master key, and with the first user's key, which makes codes only. -/
def twoKeys (master code : Key) : Element :=
  { fresh (Vector.replicate 15 1) fun _ => Block.zero with
    slots := ⟨[(.master, ⟨master, 1, {}⟩), (.user 1, ⟨code, 7, { macOnly := true }⟩)]⟩ }

theorem differsOnlyIn_twoKeys {master master' code code' : Key}
    (hmaster : ¬ hidden .master {} → master' = master)
    (hcode : ¬ hidden (.user 1) { macOnly := true } → code' = code) :
    DiffersOnlyIn hidden (twoKeys master code) (twoKeys master' code') where
  identity := rfl
  plainKey := rfl
  challenge := rfl
  entropy := rfl
  drawn := rfl
  slots slot := by
    simp only [twoKeys, Dictionary.get?, Dictionary.look]
    split
    case isTrue h =>
      subst h
      exact .some ⟨rfl, rfl, hmaster⟩
    case isFalse =>
      split
      case isTrue h =>
        subst h
        exact .some ⟨rfl, rfl, hcode⟩
      case isFalse => exact .none

/-- A run that enciphers, makes codes and begins to debug. -/
def codingRun : List ElementAction :=
  [.command (.encryptEach .master []), .command (.makeMac (.user 1) [5]), .cancel,
    .command .debugChallenge]

/-- A run that deciphers and draws. -/
def cipherRun : List ElementAction :=
  [.command (.decryptEach (.user 1) []), .command .random]

/-- The one run shows nothing of the master key, the other one nothing of the key for codes. -/
theorem two_keys_unseen :
    (twoKeys (Vector.replicate 16 3) Block.zero).history codingRun =
        (twoKeys (Vector.replicate 16 2) Block.zero).history codingRun ∧
      (twoKeys Block.zero (Vector.replicate 16 3)).history cipherRun =
        (twoKeys Block.zero (Vector.replicate 16 2)).history cipherRun ∧
      ∀ key, (twoKeys Block.zero (Vector.replicate 16 2)).cipherKey (.user 1) ≠ .ok key := by
  obtain ⟨hmaster, -⟩ := hidden_keys_unseen (twoKeys (Vector.replicate 16 2) Block.zero)
    (twoKeys (Vector.replicate 16 3) Block.zero) codingRun
  obtain ⟨-, hcodes, -, hneither⟩ := hidden_keys_unseen (twoKeys Block.zero (Vector.replicate 16 2))
    (twoKeys Block.zero (Vector.replicate 16 3)) cipherRun
  have hkey : masterHidden .master {} := rfl
  have hcode : codeKeysHidden (.user 1) { macOnly := true } := .inr ⟨⟨1, rfl⟩, rfl⟩
  refine ⟨?_, ?_, fun key => hneither (.user 1) _ key rfl (by decide) (.inr hcode)⟩
  · refine hmaster (differsOnlyIn_twoKeys (fun h => absurd hkey h) fun _ => rfl) ?_
    intro c hc
    simp only [codingRun, List.mem_cons, ElementAction.command.injEq, reduceCtorEq,
      List.not_mem_nil, false_or, or_false] at hc
    rcases hc with rfl | rfl | rfl
    · exact .inl rfl
    · exact .inr rfl
    · exact .inl rfl
  · refine hcodes (differsOnlyIn_twoKeys (fun _ => rfl) fun h => absurd hcode h) ?_
    intro c hc
    simp only [cipherRun, List.mem_cons, ElementAction.command.injEq, List.not_mem_nil,
      or_false] at hc
    rcases hc with rfl | rfl <;> rfl

end Element
end VehicleGateway
