import VehicleGateway.Config.Written
import VehicleGateway.Keys.Provision
import VehicleGateway.Proofs.Config.Slots
import VehicleGateway.Proofs.Keys.Rested

/-!
# Which of the configured keys are loaded

A configuration may list any number of keys for one slot, under any counters and with any flags.
Nothing of that is checked beforehand, so what becomes of a list shows only when the keys are
loaded one after the other.

* `InOrder` says of a list that each key is loadable after those before it, in terms of the list
  alone, and `Holds` that a vault has the keys of a list and no others.
* `Holds.loadable_iff` says what a single key depends on, and `loadsFront_loadKeys` what becomes of
  a list.
* `provisioned_in_order` says that all configured keys are loaded exactly if they are in order, and
  otherwise those before the first one that is not.
-/

namespace VehicleGateway

namespace ProvisionedKey

variable {keys : List ProvisionedKey} {k : ProvisionedKey} {slot : KeySlot} {counter : Nat}

/-- The last of the keys that go into a slot. -/
def last (slot : KeySlot) (keys : List ProvisionedKey) : Option ProvisionedKey :=
  keys.reverse.find? fun k => k.slot = slot

theorem last_concat (slot : KeySlot) (keys : List ProvisionedKey) (k : ProvisionedKey) :
    last slot (keys ++ [k]) = if k.slot = slot then some k else last slot keys := by
  by_cases hslot : k.slot = slot <;> simp [last, hslot]

/-- Keys can be loaded in the order in which they are listed. -/
structure InOrder (keys : List ProvisionedKey) : Prop where
  /-- Counters have 28 bits. -/
  fit : ∀ k ∈ keys, k.counter ≤ 2 ^ 28 - 1
  increasing : keys.Pairwise fun earlier later =>
    earlier.slot = later.slot → earlier.counter < later.counter
  /-- No key comes after one that keeps its slot from being written. -/
  writable : keys.Pairwise fun earlier later =>
    earlier.slot = later.slot → earlier.flags.writeProtection = false

instance (keys : List ProvisionedKey) : Decidable (InOrder keys) :=
  decidable_of_iff
    ((∀ k ∈ keys, k.counter ≤ 2 ^ 28 - 1) ∧
      (keys.Pairwise fun earlier later =>
        earlier.slot = later.slot → earlier.counter < later.counter) ∧
      keys.Pairwise fun earlier later =>
        earlier.slot = later.slot → earlier.flags.writeProtection = false)
    ⟨fun ⟨hfit, hincreasing, hwritable⟩ => ⟨hfit, hincreasing, hwritable⟩,
      fun ⟨hfit, hincreasing, hwritable⟩ => ⟨hfit, hincreasing, hwritable⟩⟩

theorem inOrder_nil : InOrder [] :=
  ⟨by simp, .nil, .nil⟩

/-- A list stays in order with one more key if the key fits behind each of the others. -/
theorem inOrder_concat_iff : InOrder (keys ++ [k]) ↔ InOrder keys ∧ k.counter ≤ 2 ^ 28 - 1 ∧
    ∀ earlier ∈ keys, earlier.slot = k.slot →
      earlier.counter < k.counter ∧ earlier.flags.writeProtection = false := by
  constructor
  · rintro ⟨hfit, hincreasing, hwritable⟩
    obtain ⟨hincreasing, -, hnewer⟩ := List.pairwise_append.mp hincreasing
    obtain ⟨hwritable, -, hopen⟩ := List.pairwise_append.mp hwritable
    refine ⟨⟨fun a ha => hfit a (List.mem_append_left _ ha), hincreasing, hwritable⟩,
      hfit k (by simp), fun a ha hslot => ⟨?_, ?_⟩⟩
    · exact hnewer a ha k (by simp) hslot
    · exact hopen a ha k (by simp) hslot
  · rintro ⟨⟨hfit, hincreasing, hwritable⟩, hsmall, hafter⟩
    refine ⟨?_, ?_, ?_⟩
    · intro a ha
      rcases List.mem_append.mp ha with ha | ha
      · exact hfit a ha
      · rwa [List.mem_singleton.mp ha]
    · refine List.pairwise_append.mpr ⟨hincreasing, by simp, fun a ha b hb hslot => ?_⟩
      obtain rfl := List.mem_singleton.mp hb
      exact (hafter a ha hslot).1
    · refine List.pairwise_append.mpr ⟨hwritable, by simp, fun a ha b hb hslot => ?_⟩
      obtain rfl := List.mem_singleton.mp hb
      exact (hafter a ha hslot).2

/-- The front of a list that is in order is in order. -/
theorem InOrder.of_append {front rest : List ProvisionedKey} (h : InOrder (front ++ rest)) :
    InOrder front :=
  ⟨fun a ha => h.fit a (List.mem_append_left rest ha), (List.pairwise_append.mp h.increasing).1,
    (List.pairwise_append.mp h.writable).1⟩

/-- Of a list that is in order, only the last key of a slot matters for the next one. -/
theorem InOrder.last_iff (h : InOrder keys) :
    (∀ earlier, last slot keys = some earlier →
      earlier.counter < counter ∧ earlier.flags.writeProtection = false) ↔
    ∀ earlier ∈ keys, earlier.slot = slot →
      earlier.counter < counter ∧ earlier.flags.writeProtection = false := by
  constructor
  · intro hlast a ha hslot
    cases hfound : last slot keys with
    | none =>
      have hnone := List.find?_eq_none.mp hfound a (List.mem_reverse.mpr ha)
      simp [hslot] at hnone
    | some b =>
      obtain ⟨hnewer, hopen⟩ := hlast b hfound
      obtain ⟨hb, later, before, hsplit, hlater⟩ := List.find?_eq_some_iff_append.mp hfound
      have hkeys : keys = before.reverse ++ b :: later.reverse := by
        simpa using congrArg List.reverse hsplit
      -- Those before it have given way to it, and behind it none goes into the slot.
      rw [hkeys] at ha
      rcases List.mem_append.mp ha with ha | ha
      · have hincreasing := h.increasing
        have hwritable := h.writable
        rw [hkeys] at hincreasing hwritable
        have hbslot : b.slot = slot := by simpa using hb
        have hsame : a.slot = b.slot := hslot.trans hbslot.symm
        have hless := (List.pairwise_append.mp hincreasing).2.2 a ha b (by simp) hsame
        exact ⟨hless.trans hnewer, (List.pairwise_append.mp hwritable).2.2 a ha b (by simp) hsame⟩
      · rcases List.mem_cons.mp ha with rfl | ha
        · exact ⟨hnewer, hopen⟩
        · have hnot := hlater a (List.mem_reverse.mp ha)
          simp [hslot] at hnot
  · intro hall a hfound
    have hslot : a.slot = slot := by simpa using List.find?_some hfound
    exact hall a (List.mem_reverse.mp (List.mem_of_find?_eq_some hfound)) hslot

end ProvisionedKey

namespace Vault

open ProvisionedKey

variable {v v' : Vault} {now : Nat} {master key : Key} {keys : List ProvisionedKey}
  {k : ProvisionedKey}

/-- A vault holds a master key and the keys of a list: the element stores the last key of each slot,
the service has noted it, and there is nothing else. -/
structure Holds (v : Vault) (master : Key) (keys : List ProvisionedKey) : Prop where
  master : v.device.element.slots.get? .master = some ⟨master, 1, {}⟩ ∧
    v.service.notes.get? .master = some ⟨1, some master⟩
  loaded : ∀ slot k, last slot keys = some k → ∃ key, k.value = .ok key ∧
    v.device.element.slots.get? slot = some ⟨key, k.counter, k.flags⟩ ∧
    v.service.notes.get? slot = some ⟨k.counter, some key⟩
  nothing : ∀ slot, slot ≠ .master → last slot keys = none →
    v.device.element.slots.get? slot = none ∧ v.service.notes.get? slot = none
  plainKey : v.device.element.plainKey = none

theorem Holds.congr (h : v.Holds master keys) (hsame : SameKeys v v') : v'.Holds master keys := by
  refine ⟨?_, ?_, ?_, hsame.plainKey.trans h.plainKey⟩
  · rw [hsame.slots, hsame.notes]
    exact h.master
  · intro slot k hlast
    rw [hsame.slots, hsame.notes]
    exact h.loaded slot k hlast
  · intro slot hslot hlast
    rw [hsame.slots, hsame.notes]
    exact h.nothing slot hslot hlast

/-- One more key has been loaded. -/
theorem Holds.concat (h : v.Holds master keys) (hkmaster : k.slot ≠ .master)
    (hvalue : k.value = .ok key)
    (hslot : v'.device.element.slots.get? k.slot = some ⟨key, k.counter, k.flags⟩)
    (hnote : v'.service.notes.get? k.slot = some ⟨k.counter, some key⟩)
    (hothers : ∀ other, other ≠ k.slot →
      v'.device.element.slots.get? other = v.device.element.slots.get? other ∧
        v'.service.notes.get? other = v.service.notes.get? other)
    (hplainKey : v'.device.element.plainKey = v.device.element.plainKey) :
    v'.Holds master (keys ++ [k]) := by
  refine ⟨?_, ?_, ?_, hplainKey.trans h.plainKey⟩
  · obtain ⟨hslots, hnotes⟩ := hothers .master hkmaster.symm
    rw [hslots, hnotes]
    exact h.master
  · intro slot a hlast
    rw [last_concat] at hlast
    split at hlast
    case isTrue hsame =>
      obtain rfl := Option.some.inj hlast
      subst hsame
      exact ⟨key, hvalue, hslot, hnote⟩
    case isFalse hother =>
      obtain ⟨hslots, hnotes⟩ := hothers slot (Ne.symm hother)
      rw [hslots, hnotes]
      exact h.loaded slot a hlast
  · intro slot hmaster hlast
    rw [last_concat] at hlast
    split at hlast
    case isTrue => cases hlast
    case isFalse hother =>
      obtain ⟨hslots, hnotes⟩ := hothers slot (Ne.symm hother)
      rw [hslots, hnotes]
      exact h.nothing slot hmaster hlast

/-- What can be loaded next depends on the list of those that were loaded. -/
theorem Holds.loadable_iff (h : v.Holds master keys) (horder : InOrder keys)
    (hplace : k.slot = .bootMac ∨ ∃ m : UInt8, k.slot = .user m ∧ 1 ≤ m.toNat ∧ m.toNat ≤ 10) :
    v.device.element.Loadable k.slot k.counter ↔ InOrder (keys ++ [k]) := by
  have hmaster := KeySlot.ne_master_of_place hplace
  have hstored : (∀ stored, v.device.element.slots.get? k.slot = some stored →
      stored.counter < k.counter ∧ stored.flags.writeProtection = false) ↔
      ∀ earlier, last k.slot keys = some earlier →
        earlier.counter < k.counter ∧ earlier.flags.writeProtection = false := by
    cases hlast : last k.slot keys with
    | none =>
      obtain ⟨hslot, -⟩ := h.nothing k.slot hmaster hlast
      simp [hslot]
    | some a =>
      obtain ⟨key, -, hslot, -⟩ := h.loaded k.slot a hlast
      simp [hslot]
  rw [inOrder_concat_iff, ← horder.last_iff, ← hstored]
  constructor
  · intro hloadable
    refine ⟨horder, hloadable.fits, fun stored hget => ⟨?_, ?_⟩⟩
    · exact hloadable.newer stored hget
    · exact hloadable.writable stored hget
  · rintro ⟨-, hfits, hfree⟩
    refine ⟨.inr hplace, hfits, fun stored hget => (hfree stored hget).1,
      .inr ⟨_, h.master.1⟩, fun stored hget => (hfree stored hget).2⟩

/-- The first key of a list is loaded, and then the rest, or it is refused and the rest is left. -/
theorem loadKeys_cons (hvalue : k.value = .ok key) (rest : List ProvisionedKey) {now' : Nat}
    {outcome : KeyOutcome}
    (hcall : v.call now (.load k.slot key k.counter k.flags) = (v', now', outcome)) :
    v.loadKeys now (k :: rest) =
      match outcome with
      | .error fault => (v', now', .error fault.failure)
      | .ok _ => v'.loadKeys now' rest := by
  simp only [loadKeys, hvalue, request, hcall]
  cases outcome <;> rfl

/-- What becomes of a list of keys, some of which have been loaded: the others are loaded, too, or
those before the first one that is not in order. -/
inductive LoadsFront (master : Key) (before keys : List ProvisionedKey) :
    Vault × Nat × Except Failure Unit → Prop where
  | all {v : Vault} {now : Nat} (horder : InOrder (before ++ keys))
      (hholds : v.Holds master (before ++ keys)) : LoadsFront master before keys (v, now, .ok ())
  | front {v : Vault} {now : Nat} {failure : Failure} {front rest : List ProvisionedKey}
      {k : ProvisionedKey} (hkeys : keys = front ++ k :: rest) (horder : InOrder (before ++ front))
      (hnot : ¬ InOrder (before ++ front ++ [k])) (hholds : v.Holds master (before ++ front)) :
      LoadsFront master before keys (v, now, .error failure)

/-- The keys of a list are loaded up to the first one that is not in order.  A key that is refused
changes nothing, so that those before it stay. -/
theorem loadsFront_loadKeys {before : List ProvisionedKey} (h : v.Rested)
    (hholds : v.Holds master before) (horder : InOrder before)
    (hkeys : ∀ k ∈ keys, (∃ key, k.value = .ok key) ∧
      (k.slot = .bootMac ∨ ∃ m : UInt8, k.slot = .user m ∧ 1 ≤ m.toNat ∧ m.toNat ≤ 10))
    (now : Nat) : LoadsFront master before keys (v.loadKeys now keys) := by
  -- What has been loaded so far is carried along, and grows by one key at a time.
  induction keys generalizing v before now with
  | nil =>
    refine .all ?_ ?_
    · rwa [List.append_nil]
    · rwa [List.append_nil]
  | cons k rest ih =>
    obtain ⟨⟨key, hvalue⟩, hplace⟩ := hkeys k List.mem_cons_self
    obtain ⟨v', now', outcome, hcall, hrested, hdone, w, hsettled⟩ :=
      h.call_load now k.slot key k.counter k.flags
    rw [loadKeys_cons hvalue rest hcall]
    rw [hholds.loadable_iff horder hplace] at hdone
    rcases hsettled.told with rfl | ⟨fault, rfl⟩
    · have horder' : InOrder (before ++ [k]) := hdone.mp rfl
      obtain ⟨hslot, hnote, hothers, hplainKey⟩ := hsettled.stored rfl
      have hholds' := hholds.concat (KeySlot.ne_master_of_place hplace) hvalue hslot hnote hothers
        hplainKey
      have hrest := ih hrested hholds' horder'
        (fun a ha => hkeys a (List.mem_cons_of_mem k ha)) now'
      generalize v'.loadKeys now' rest = result at hrest ⊢
      cases hrest with
      | all hall hheld =>
        rw [List.append_assoc] at hall hheld
        exact .all hall hheld
      | @front _ _ _ front after a hsplit hin hout hheld =>
        rw [List.append_assoc before] at hin hout hheld
        have hcut : k :: rest = [k] ++ front ++ a :: after := congrArg (k :: ·) hsplit
        exact .front hcut hin hout hheld
    · refine .front (List.nil_append _).symm ?_ ?_ ?_
      · rwa [List.append_nil]
      · rw [List.append_nil]
        exact fun hin => nomatch hdone.mpr hin
      · rw [List.append_nil]
        exact hholds.congr (hsettled.kept fault rfl)

/-- A new vault with a master key holds no other key. -/
theorem holds_mastered (timeout : Nat) (identity : ElementId) (entropy : Nat → Block)
    (latency : Nat) (master : Key) :
    (mastered timeout identity entropy latency master).Holds master [] := by
  refine ⟨⟨rfl, rfl⟩, ?_, ?_, rfl⟩
  · rintro slot k ⟨⟩
  · intro slot hslot _
    exact ⟨Dictionary.get?_insert_of_ne _ hslot _, Dictionary.get?_insert_of_ne _ hslot _⟩

/-- On a new vault the master key is set, and then the list is loaded. -/
theorem provision_fresh {c : KeyConfig} (hmaster : c.master = .ok (some master)) {timeout : Nat}
    {identity : ElementId} (entropy : Nat → Block) {latency : Nat} (hprompt : latency ≤ timeout)
    (now : Nat) : (fresh timeout identity entropy latency).provision now c =
      match (mastered timeout identity entropy latency master).loadKeys (now + latency + latency)
        c.keys with
      | (v, now, done) => (v, now, done.map fun _ => c.keys.length) := by
  simp only [provision, hmaster, call_setMaster_fresh entropy hprompt, KeyOutcome.loaded]

/-- Let a configuration be read and accepted that has a master key, and let a new vault be given it
whose element answers in time.  All keys are loaded exactly if they are in order; then the caller is
told how many they are.  If they are not in order, the caller is told of a failure, and what is
loaded is the master key and the keys before the first one that is not in order.  In either case the
notes of the service are those of what the element stores. -/
theorem provisioned_in_order {n : Notation} {d : Document} {c : KeyConfig}
    (hread : Config.readKeys n d = some c) (hcheck : c.check = .ok ())
    (hmaster : c.master = .ok (some master)) (timeout : Nat) (identity : ElementId)
    (entropy : Nat → Block) (latency : Nat) (hprompt : latency ≤ timeout) (now : Nat) :
    (∀ k ∈ c.keys, k.slot = .bootMac ∨
      ∃ m : UInt8, k.slot = .user m ∧ 1 ≤ m.toNat ∧ m.toNat ≤ 10) ∧
    (((fresh timeout identity entropy latency).provision now c).2.2 = .ok c.keys.length ↔
      InOrder c.keys) ∧
    (∀ count, ((fresh timeout identity entropy latency).provision now c).2.2 = .ok count →
      count = c.keys.length ∧
        ((fresh timeout identity entropy latency).provision now c).1.Holds master c.keys) ∧
    ∀ failure, ((fresh timeout identity entropy latency).provision now c).2.2 = .error failure →
      ∃ front k rest, c.keys = front ++ k :: rest ∧ InOrder front ∧ ¬ InOrder (front ++ [k]) ∧
        ((fresh timeout identity entropy latency).provision now c).1.Holds master front := by
  have hloads := loadsFront_loadKeys (rested_mastered entropy hprompt)
    (holds_mastered timeout identity entropy latency master) inOrder_nil
    (fun k hk => KeyConfig.place_of_accepted hread hcheck hk) (now + latency + latency)
  refine ⟨fun k hk => (KeyConfig.place_of_accepted hread hcheck hk).2, ?_⟩
  rw [provision_fresh hmaster entropy hprompt]
  generalize (mastered timeout identity entropy latency master).loadKeys (now + latency + latency)
    c.keys = result at hloads ⊢
  cases hloads with
  | all horder hholds =>
    refine ⟨iff_of_true rfl horder, ?_, ?_⟩
    · rintro count ⟨⟩
      exact ⟨rfl, hholds⟩
    · rintro failure ⟨⟩
  | front hkeys horder hnot hholds =>
    refine ⟨iff_of_false ?_ ?_, ?_, ?_⟩
    · rintro ⟨⟩
    · -- If all were in order, so would be those up to the key that is refused.
      intro hall
      rw [hkeys, List.append_cons] at hall
      exact hnot hall.of_append
    · rintro count ⟨⟩
    · rintro _ ⟨⟩
      exact ⟨_, _, _, hkeys, horder, hnot, hholds⟩

/-- A key that keeps its slot from being written, a key for another slot, and one that comes too
late for the first slot. -/
def latecomer : KeyConfig where
  masterKey := some "000102030405060708090a0b0c0d0e0f"
  keys :=
    [{ slot := .user 1, key := "101112131415161718191a1b1c1d1e1f", counter := 1,
       flags := { writeProtection := true } },
     { slot := .bootMac, key := "202122232425262728292a2b2c2d2e2f", counter := 7 },
     { slot := .user 1, key := "303132333435363738393a3b3c3d3e3f", counter := 2 }]

/-- The master key of a configuration that passes. -/
def acceptedMaster (c : KeyConfig) : Option Key :=
  match c.check, c.master with
  | .ok (), .ok (some master) => some master
  | _, _ => none

theorem of_acceptedMaster {c : KeyConfig} (h : acceptedMaster c = some master) :
    c.check = .ok () ∧ c.master = .ok (some master) := by
  unfold acceptedMaster at h
  split at h
  case h_1 hcheck hmaster =>
    obtain rfl := Option.some.inj h
    exact ⟨hcheck, hmaster⟩
  case h_2 => cases h

/-- The configuration passes, but its last key is refused, and the two before it are loaded. -/
theorem latecomer_refused :
    ∃ master failure, Config.readKeys .json (Config.keysTree latecomer) = some latecomer ∧
      latecomer.check = .ok () ∧ latecomer.master = .ok (some master) ∧
      ((fresh 500 ElementId.wildcard (fun _ => Block.zero) 2).provision 0 latecomer).2.2 =
        .error failure ∧
      ((fresh 500 ElementId.wildcard (fun _ => Block.zero) 2).provision 0 latecomer).1.Holds
        master (latecomer.keys.take 2) := by
  have hread : Config.readKeys .json (Config.keysTree latecomer) = some latecomer := by
    decide +kernel
  have haccepted : (acceptedMaster latecomer).isSome := by decide +kernel
  obtain ⟨master, hmaster⟩ := Option.isSome_iff_exists.mp haccepted
  obtain ⟨hcheck, hmaster⟩ := of_acceptedMaster hmaster
  obtain ⟨-, hiff, hdone, hfails⟩ := provisioned_in_order hread hcheck hmaster 500
    ElementId.wildcard (fun _ => Block.zero) 2 (by decide) 0
  generalize (fresh 500 ElementId.wildcard (fun _ => Block.zero) 2).provision 0 latecomer = result
    at hiff hdone hfails ⊢
  cases hresult : result.2.2 with
  | ok count =>
    obtain ⟨rfl, -⟩ := hdone count hresult
    exact absurd (hiff.mp hresult) (by decide)
  | error failure =>
    refine ⟨master, failure, hread, hcheck, hmaster, rfl, ?_⟩
    obtain ⟨front, k, rest, hkeys, horder, hnot, hholds⟩ := hfails failure hresult
    have hnext : front ++ [k] = latecomer.keys.take (front.length + 1) := by
      rw [hkeys, List.append_cons front k rest]
      exact (List.take_left' List.length_append).symm
    have hshort : front.length < 3 := by
      have hlength := congrArg List.length hkeys
      rw [List.length_append, List.length_cons] at hlength
      have hthree : latecomer.keys.length = 3 := rfl
      omega
    have hlast : ∀ n < 3, ¬ InOrder (latecomer.keys.take (n + 1)) → n = 2 := by decide
    rw [hnext] at hnot
    have hfront : front = latecomer.keys.take 2 := by
      rw [← hlast front.length hshort hnot, hkeys]
      exact List.take_left.symm
    rwa [hfront] at hholds

end Vault
end VehicleGateway
