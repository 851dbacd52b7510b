import VehicleGateway.Proofs.Gateway.Run
import VehicleGateway.Storage.Memory

/-!
# Who is under update

An ECU has the status `updating` as long as a session holds it, and that is what keeps the heartbeat
away from it and its answers from changing its status.

* `Kept` is the invariant: who is `updating` is held by a session, sessions hold different ECUs, and
  each knows a status to go back to.  `Kept.act` says that everything keeps it but a new start.
* `attended_iff`: in a history of starts and restarts every ECU that is `updating` is held by a
  session exactly if no restart has found an ECU `updating` in the storage.
* `restart_strands_ecu`: a gateway that is shut down during an update leaves such a record behind,
  and the next one has an ECU under update that nobody updates.
-/

namespace VehicleGateway

namespace Gateway

variable {σ : Type}

/-- Every ECU with the status `updating` has a session that holds its place. -/
def Attended (g : Gateway σ) : Prop :=
  ∀ ecu, g.registry.status? ecu = some .updating →
    ∃ s ∈ g.sessions, s.ecu = ecu ∧ s.holds = true ∧ g.inboxes.inUse.get? ecu = some s.inbox

/-- What holds of a gateway whose ECUs are under update only in sessions. -/
structure Kept (g : Gateway σ) : Prop where
  attended : ∀ ecu, g.registry.status? ecu = some .updating →
    ∃ (n : Nat) (l : Lease), g.leases[n]? = some l ∧ l.held = true ∧ l.ecu = ecu
  /-- Who holds an ECU has its place. -/
  place : ∀ (n : Nat) (l : Lease), g.leases[n]? = some l → l.held = true →
    g.inboxes.inUse.get? l.ecu = some l.inbox
  alone : ∀ (n m : Nat) (l l' : Lease), g.leases[n]? = some l → g.leases[m]? = some l' →
    l.held = true → l'.held = true → l.ecu = l'.ecu → n = m
  /-- The status to go back to is another one. -/
  prior : ∀ (n : Nat) (l : Lease), g.leases[n]? = some l → l.held = true → l.prior ≠ .updating

variable {g g' : Gateway σ}

theorem Kept.isAttended (h : g.Kept) : g.Attended := by
  intro ecu hupdating
  obtain ⟨n, l, hl, hheld, rfl⟩ := h.attended ecu hupdating
  have hplace := h.place n l hl hheld
  obtain ⟨s, hs, rfl⟩ := List.mem_map.mp (List.mem_of_getElem? hl)
  exact ⟨s, hs, rfl, hheld, hplace⟩

theorem Kept.of_quiet (h : g.Kept) (hquiet : g.Quiet g') : g'.Kept := by
  obtain ⟨hupdating, hinUse, hleases⟩ := hquiet
  refine ⟨?_, ?_, ?_, ?_⟩
  · rw [hleases]
    exact fun ecu hecu => h.attended ecu ((hupdating ecu).mp hecu)
  · rw [hleases, hinUse]
    exact h.place
  · rw [hleases]
    exact h.alone
  · rw [hleases]
    exact h.prior

/-- What the start of an update changes. -/
theorem startUpdate_eq {ecu : EcuNo} {image : String} {secure : Bool}
    (h : g.startUpdate ecu image secure = .ok g') :
    ∃ (record : EcuRecord) (inbox : Nat), g.registry.get? ecu = some record ∧
      g.inboxes.active ecu = false ∧ g'.registry = g.registry.setStatus ecu .updating ∧
      g'.inboxes.inUse = g.inboxes.inUse.insert ecu inbox ∧
      g'.leases = g.leases ++ [⟨ecu, inbox, record.status, true⟩] := by
  obtain ⟨⟨w, s⟩, hstart, rfl⟩ := exists_of_map_ok h
  obtain ⟨record, hrecord, hfree, rfl, rfl⟩ := World.startUpdate_parts hstart
  refine ⟨record, g.inboxes.boxes.length, hrecord, ?_, rfl, rfl, ?_⟩
  · simp [Inboxes.active, Dictionary.contains, hfree]
  · simp [leases, Session.lease, Session.holds]

theorem getElem?_concat_cases {α : Type} {l : List α} {n : Nat} {a b : α}
    (h : (l ++ [a])[n]? = some b) : l[n]? = some b ∨ n = l.length ∧ b = a := by
  rw [List.getElem?_append] at h
  split at h
  case isTrue => exact .inl h
  case isFalse hlong =>
    rw [List.getElem?_singleton] at h
    split at h
    case isTrue hlast => exact .inr ⟨by omega, (Option.some.inj h).symm⟩
    case isFalse => cases h

/-- The start of an update. -/
theorem Kept.startUpdate (h : g.Kept) {ecu : EcuNo} {image : String} {secure : Bool}
    (hstart : g.startUpdate ecu image secure = .ok g') : g'.Kept := by
  obtain ⟨record, inbox, hrecord, hactive, hregistry, hinUse, hleases⟩ := startUpdate_eq hstart
  -- Nobody holds the ECU before.
  have hfree (n : Nat) (l : Lease) (hl : g.leases[n]? = some l) (hheld : l.held = true) :
      l.ecu ≠ ecu := by
    rintro rfl
    have hplace := h.place n l hl hheld
    simp [Inboxes.active, Dictionary.contains, hplace] at hactive
  have hcases (n : Nat) (l : Lease) (hl : g'.leases[n]? = some l) :
      g.leases[n]? = some l ∨ n = g.leases.length ∧ l = ⟨ecu, inbox, record.status, true⟩ := by
    rw [hleases] at hl
    exact getElem?_concat_cases hl
  refine ⟨?_, ?_, ?_, ?_⟩
  · intro other hother
    by_cases hsame : other = ecu
    · subst hsame
      exact ⟨g.leases.length, ⟨other, inbox, record.status, true⟩, by simp [hleases], rfl, rfl⟩
    · have hbefore : g.registry.status? other = some .updating := by
        rw [hregistry] at hother
        unfold Registry.status? Registry.setStatus at hother
        rwa [Registry.get?_modify, if_neg (Ne.symm hsame)] at hother
      obtain ⟨n, l, hl, hheld, rfl⟩ := h.attended other hbefore
      have hn := (List.getElem?_eq_some_iff.mp hl).1
      exact ⟨n, l, by rw [hleases, List.getElem?_append_left hn]; exact hl, hheld, rfl⟩
  · intro n l hl hheld
    rw [hinUse]
    rcases hcases n l hl with hold | ⟨-, rfl⟩
    · rw [Dictionary.get?_insert_of_ne _ (hfree n l hold hheld)]
      exact h.place n l hold hheld
    · exact Dictionary.get?_insert_self _ _ _
  · intro n m l l' hl hl' hheld hheld' hsame
    rcases hcases n l hl with hold | ⟨hn, rfl⟩
    · rcases hcases m l' hl' with hold' | ⟨-, rfl⟩
      · exact h.alone n m l l' hold hold' hheld hheld' hsame
      · exact absurd hsame (hfree n l hold hheld)
    · rcases hcases m l' hl' with hold' | ⟨hm, -⟩
      · exact absurd hsame.symm (hfree m l' hold' hheld')
      · rw [hn, hm]
  · intro n l hl hheld
    rcases hcases n l hl with hold | ⟨-, rfl⟩
    · exact h.prior n l hold hheld
    · -- An ECU that was under update before would be held.
      intro hupdating
      have hbefore : g.registry.status? ecu = some .updating := by
        simp only at hupdating
        simp [Registry.status?, hrecord, hupdating]
      obtain ⟨n', l', hl', hheld', hecu⟩ := h.attended ecu hbefore
      exact hfree n' l' hl' hheld' hecu

/-- After an update nobody is under update who was not before. -/
theorem status_ne_updating {p : Progress} {prior : Status} (hprior : prior ≠ .updating)
    (result : Except UpdateFault Unit) : p.status prior result ≠ .updating := by
  unfold Progress.status
  split
  · simp
  · split
    · simp
    · split
      · simp
      · exact hprior

/-- The release of an ECU. -/
theorem Kept.release (h : g.Kept) {n : Nat} {s : Session} (result : Except UpdateFault Unit)
    (hs : g.sessions[n]? = some s) (hholds : s.holds = true) :
    Kept { g with
      toWorld := (s.release g.toWorld result).1
      sessions := g.sessions.set n (s.release g.toWorld result).2 } := by
  have hlease : g.leases[n]? = some s.lease := by simp [leases, hs]
  have hplace : g.inboxes.inUse.get? s.ecu = some s.inbox := h.place n s.lease hlease hholds
  have hinUse : (g.inboxes.release s.ecu).inUse = g.inboxes.inUse.erase s.ecu := by
    simp [Inboxes.release, hplace]
  -- Who still holds an ECU did so before, and it is another one.
  have hcases (m : Nat) (l : Lease)
      (hl : ((g.sessions.set n (s.release g.toWorld result).2).map Session.lease)[m]? = some l)
      (hheld : l.held = true) : g.leases[m]? = some l ∧ l.ecu ≠ s.ecu := by
    rw [List.map_set, List.getElem?_set] at hl
    split at hl
    case isTrue hsame =>
      split at hl
      case isTrue =>
        obtain rfl := Option.some.inj hl
        simp [Session.lease, Session.holds, Session.release] at hheld
      case isFalse => cases hl
    case isFalse hother =>
      exact ⟨hl, fun hecu => hother (h.alone n m s.lease l hlease hl hholds hheld hecu.symm)⟩
  refine ⟨?_, ?_, ?_, ?_⟩
  · intro ecu hupdating
    change (g.registry.modify s.ecu _).status? ecu = some .updating at hupdating
    unfold Registry.status? at hupdating
    rw [Registry.get?_modify] at hupdating
    split at hupdating
    case isTrue hsame =>
      cases hrecord : g.registry.get? ecu with
      | none => simp [hrecord] at hupdating
      | some record =>
        simp only [hrecord, Option.map_some, Option.some.injEq, EcuRecord.afterUpdate] at hupdating
        exact absurd hupdating (status_ne_updating (h.prior n s.lease hlease hholds) result)
    case isFalse hother =>
      obtain ⟨m, l, hl, hheld, rfl⟩ := h.attended ecu hupdating
      refine ⟨m, l, ?_, hheld, rfl⟩
      change ((g.sessions.set n (s.release g.toWorld result).2).map Session.lease)[m]? = some l
      rw [List.map_set, List.getElem?_set_ne]
      · exact hl
      · rintro rfl
        obtain rfl := Option.some.inj (hlease.symm.trans hl)
        exact hother rfl
  · intro m l hl hheld
    obtain ⟨hold, hother⟩ := hcases m l hl hheld
    change (g.inboxes.release s.ecu).inUse.get? l.ecu = some l.inbox
    rw [hinUse, Dictionary.get?_erase_of_ne _ hother]
    exact h.place m l hold hheld
  · intro m k l l' hl hl' hheld hheld' hsame
    exact h.alone m k l l' (hcases m l hl hheld).1 (hcases k l' hl' hheld').1 hheld hheld' hsame
  · intro m l hl hheld
    exact h.prior m l (hcases m l hl hheld).1 hheld

variable [Storage σ] {c : Config}

/-- Everything but a new start keeps the invariant. -/
theorem Kept.act (h : g.Kept) (deed : Deed σ)
    (hgoes : ∀ now bus keys, deed ≠ .restart now bus keys) : (g.act c deed).Kept := by
  rcases act_cases c g deed with
    hquiet | ⟨ecu, image, secure, -, hstart⟩ | ⟨n, s, result, hs, hholds, hrelease⟩ |
      ⟨now, bus, keys, hrestart⟩
  · exact h.of_quiet hquiet
  · exact h.startUpdate hstart
  · rw [hrelease]
    exact h.release result hs hholds
  · exact absurd hrestart (hgoes now bus keys)

/-! ## Starts -/

/-- What a gateway is after a start. -/
theorem start_eq {now : Nat} {bus : Bus} {storage : σ} {keys : Option Vault}
    (h : Gateway.start c now bus storage keys = .ok g) :
    g.registry = (c.registry.restore storage).1 ∧ g.sessions = [] := by
  unfold Gateway.start at h
  split at h
  · cases h
  · cases h
  · obtain rfl := Except.ok.inj h
    exact ⟨rfl, rfl⟩

/-- Whether a start succeeds is a matter of the configuration. -/
theorem start_again {now : Nat} {bus : Bus} {storage : σ} {keys : Option Vault}
    (h : Gateway.start c now bus storage keys = .ok g)
    (now' : Nat) (bus' : Bus) (storage' : σ) (keys' : Option Vault) :
    ∃ g', Gateway.start c now' bus' storage' keys' = .ok g' := by
  unfold Gateway.start at h ⊢
  split at h
  · cases h
  · cases h
  · exact ⟨_, rfl⟩

/-- A start is good exactly if nobody is under update in the storage. -/
theorem kept_start_iff {now : Nat} {bus : Bus} {storage : σ} {keys : Option Vault}
    (h : Gateway.start c now bus storage keys = .ok g) :
    (∀ ecu, (c.registry.restore storage).1.status? ecu ≠ some .updating) ↔ g.Kept := by
  obtain ⟨hregistry, hsessions⟩ := start_eq h
  rw [← hregistry]
  constructor
  · intro hnone
    have hleases (n : Nat) : g.leases[n]? = none := by simp [leases, hsessions]
    refine ⟨fun ecu hecu => absurd hecu (hnone ecu), ?_, ?_, ?_⟩
    · intro n l hl
      simp [hleases] at hl
    · intro n m l l' hl
      simp [hleases] at hl
    · intro n l hl
      simp [hleases] at hl
  · intro hkept ecu hecu
    obtain ⟨s, hs, -⟩ := hkept.isAttended ecu hecu
    rw [hsessions] at hs
    cases hs

/-- Nothing is taken over from a storage without records. -/
theorem restore_of_empty {storage : σ} (r : Registry)
    (hempty : ∀ ecu data, Storage.readRecord storage ecu ≠ .ok (some data)) :
    (r.restore storage).1 = r := by
  have heach (ecus : List EcuNo) (found : Restored) :
      (Registry.restoreEach (Storage.readRecord storage) ecus r found).1 = r := by
    induction ecus generalizing found with
    | nil => rfl
    | cons ecu rest ih =>
      unfold Registry.restoreEach
      cases hread : Storage.readRecord storage ecu with
      | error fault => rfl
      | ok data? =>
        cases data? with
        | none => exact ih _
        | some data => exact absurd hread (hempty ecu data)
  exact heach _ _

/-- A configuration puts nobody under update. -/
theorem configured_ne_updating (c : Config) (ecu : EcuNo) :
    c.registry.status? ecu ≠ some .updating := by
  intro h
  simp only [Registry.status?, Registry.get?, Config.registry, List.getElem?_map, Option.map_map,
    Option.map_eq_some_iff] at h
  obtain ⟨configured, -, hstatus⟩ := h
  cases hstatus

theorem run_append (c : Config) (g : Gateway σ) (before after : List (Deed σ)) :
    g.run c (before ++ after) = (g.run c before).run c after :=
  List.foldl_append

/-- In a history that began without records, whoever is under update is always held by a session
exactly if no restart has found anybody under update in the storage. -/
theorem attended_iff (c : Config) {now : Nat} {bus : Bus} {storage : σ} {keys : Option Vault}
    {g : Gateway σ} (hstart : Gateway.start c now bus storage keys = .ok g)
    (hempty : ∀ ecu data, Storage.readRecord storage ecu ≠ .ok (some data))
    (deeds : List (Deed σ)) :
    (∀ k ≤ deeds.length, (g.run c (deeds.take k)).Attended) ↔
      ∀ k now' bus' keys', deeds[k]? = some (.restart now' bus' keys') → ∀ ecu,
        (c.registry.restore (g.run c (deeds.take k)).storage).1.status? ecu ≠ some .updating := by
  have hnext (k : Nat) (deed : Deed σ) (hdeed : deeds[k]? = some deed) :
      g.run c (deeds.take (k + 1)) = (g.run c (deeds.take k)).act c deed := by
    rw [List.take_add_one, hdeed, run_append]
    rfl
  have hrestart (k now' : Nat) (bus' : Bus) (keys' : Option Vault)
      (hdeed : deeds[k]? = some (.restart now' bus' keys')) :
      ∃ g', Gateway.start c now' bus' (g.run c (deeds.take k)).storage keys' = .ok g' ∧
        g.run c (deeds.take (k + 1)) = g' := by
    obtain ⟨g', hagain⟩ := start_again hstart now' bus' (g.run c (deeds.take k)).storage keys'
    refine ⟨g', hagain, ?_⟩
    rw [hnext k _ hdeed]
    simp only [act, hagain]
  constructor
  · intro hattended k now' bus' keys' hdeed ecu hecu
    obtain ⟨g', hagain, hrun⟩ := hrestart k now' bus' keys' hdeed
    obtain ⟨hregistry, hsessions⟩ := start_eq hagain
    have hk := (List.getElem?_eq_some_iff.mp hdeed).1
    have hthere := hattended (k + 1) hk
    rw [hrun] at hthere
    -- There are no sessions after a restart that could hold the ECU.
    obtain ⟨s, hs, -⟩ := hthere ecu (by rw [hregistry]; exact hecu)
    rw [hsessions] at hs
    cases hs
  · intro hclean
    -- The invariant holds at the start, a restart makes it anew, and everything else keeps it.
    have hkept : ∀ k ≤ deeds.length, (g.run c (deeds.take k)).Kept := by
      intro k
      induction k with
      | zero =>
        intro _
        refine (kept_start_iff hstart).mp ?_
        intro ecu
        rw [restore_of_empty c.registry hempty]
        exact configured_ne_updating c ecu
      | succ k ih =>
        intro hk
        have hdeed : deeds[k]? = some deeds[k] := List.getElem?_eq_getElem hk
        by_cases hgoes : ∃ now' bus' keys', deeds[k] = .restart now' bus' keys'
        · obtain ⟨now', bus', keys', hsame⟩ := hgoes
          rw [hsame] at hdeed
          obtain ⟨g', hagain, hrun⟩ := hrestart k now' bus' keys' hdeed
          rw [hrun]
          exact (kept_start_iff hagain).mp (hclean k now' bus' keys' hdeed)
        · rw [hnext k _ hdeed]
          exact (ih (by omega)).act _ fun now' bus' keys' hsame => hgoes ⟨now', bus', keys', hsame⟩
    exact fun k hk => (hkept k hk).isAttended

/-- A configuration with one ECU. -/
def singleConfig : Config :=
  { ecus := [{ protocol := .can, interface := 0 }] }

/-- What is shown after a history that began with that configuration and without records: the status
of the ECU, and the number of sessions. -/
def singleHistory (deeds : List (Deed Memory)) : Option (Option Status × Nat) :=
  match Gateway.start singleConfig 0 { interfaces := 4 } ({} : Memory) none with
  | .ok g => some ((g.run singleConfig deeds).registry.status? 0,
      (g.run singleConfig deeds).sessions.length)
  | .error _ => none

theorem exists_singleHistory {deeds : List (Deed Memory)} {status : Option Status} {n : Nat}
    (h : singleHistory deeds = some (status, n)) :
    ∃ g, Gateway.start singleConfig 0 { interfaces := 4 } ({} : Memory) none = .ok g ∧
      (g.run singleConfig deeds).registry.status? 0 = status ∧
      (g.run singleConfig deeds).sessions.length = n := by
  unfold singleHistory at h
  split at h
  case h_1 g hstart =>
    obtain ⟨hstatus, hn⟩ := Prod.mk.inj (Option.some.inj h)
    exact ⟨g, hstart, hstatus, hn⟩
  case h_2 => cases h

theorem readRecord_empty (ecu : EcuNo) (data : Bytes) :
    Storage.readRecord ({} : Memory) ecu ≠ .ok (some data) := by
  intro h
  cases h

/-- An update that was started and goes on: the ECU is under update, and held. -/
theorem single_update_attended :
    ∃ g, Gateway.start singleConfig 0 { interfaces := 4 } ({} : Memory) none = .ok g ∧
      (g.run singleConfig [.startUpdate 0 "image" false, .shutdown]).registry.status? 0 =
        some .updating ∧
      ∀ k ≤ 2, (g.run singleConfig
        (([.startUpdate 0 "image" false, .shutdown] : List (Deed Memory)).take k)).Attended := by
  have hhistory : singleHistory [.startUpdate 0 "image" false, .shutdown] =
      some (some .updating, 1) := by decide +kernel
  obtain ⟨g, hstart, hstatus, -⟩ := exists_singleHistory hhistory
  refine ⟨g, hstart, hstatus, ?_⟩
  refine (attended_iff singleConfig hstart readRecord_empty
    [.startUpdate 0 "image" false, .shutdown]).mpr ?_
  intro k now' bus' keys' hrestart
  rcases k with _ | _ | k <;> simp at hrestart

/-- An update is started, the gateway is shut down and started again: the ECU is under update, and
there is no session. -/
theorem restart_strands_ecu :
    ∃ g, Gateway.start singleConfig 0 { interfaces := 4 } ({} : Memory) none = .ok g ∧
      (g.run singleConfig [.startUpdate 0 "image" false, .shutdown,
        .restart 0 { interfaces := 4 } none]).registry.status? 0 = some .updating ∧
      ¬ (g.run singleConfig [.startUpdate 0 "image" false, .shutdown,
        .restart 0 { interfaces := 4 } none]).Attended := by
  have hhistory : singleHistory [.startUpdate 0 "image" false, .shutdown,
      .restart 0 { interfaces := 4 } none] = some (some .updating, 0) := by decide +kernel
  obtain ⟨g, hstart, hstatus, hnone⟩ := exists_singleHistory hhistory
  refine ⟨g, hstart, hstatus, ?_⟩
  intro hattended
  obtain ⟨s, hs, -⟩ := hattended 0 hstatus
  rw [List.eq_nil_of_length_eq_zero hnone] at hs
  cases hs

/-! ## Stranded ECUs -/

/-- An ECU is under update, and no session holds it. -/
def Stranded (g : Gateway σ) (ecu : EcuNo) : Prop :=
  g.registry.status? ecu = some .updating ∧ ∀ l ∈ g.leases, l.held = true → l.ecu ≠ ecu

/-- Nothing helps a stranded ECU but an update of it, or a new start. -/
theorem Stranded.act {ecu : EcuNo} (h : g.Stranded ecu) (deed : Deed σ)
    (hother : ∀ image secure, deed ≠ .startUpdate ecu image secure)
    (hgoes : ∀ now bus keys, deed ≠ .restart now bus keys) : (g.act c deed).Stranded ecu := by
  obtain ⟨hstatus, hnobody⟩ := h
  rcases act_cases c g deed with
    hquiet | ⟨other, image, secure, rfl, hstart⟩ | ⟨n, s, result, hs, hholds, hrelease⟩ |
      ⟨now, bus, keys, hrestart⟩
  · exact ⟨(hquiet.updating ecu).mpr hstatus, by rw [hquiet.leases]; exact hnobody⟩
  · have hne : other ≠ ecu := by
      rintro rfl
      exact hother image secure rfl
    obtain ⟨record, inbox, -, -, hregistry, -, hleases⟩ := startUpdate_eq hstart
    refine ⟨?_, ?_⟩
    · unfold Registry.status? at hstatus ⊢
      rw [hregistry, Registry.setStatus, Registry.get?_modify, if_neg hne]
      exact hstatus
    · intro l hl hheld
      rw [hleases] at hl
      rcases List.mem_append.mp hl with hl | hl
      · exact hnobody l hl hheld
      · obtain rfl := List.mem_singleton.mp hl
        exact hne
  · have hne : s.ecu ≠ ecu :=
      hnobody s.lease (List.mem_map_of_mem (List.mem_of_getElem? hs)) hholds
    rw [hrelease]
    refine ⟨?_, ?_⟩
    · change (g.registry.modify s.ecu _).status? ecu = some .updating
      unfold Registry.status? at hstatus ⊢
      rw [Registry.get?_modify, if_neg hne]
      exact hstatus
    · intro l hl hheld
      obtain ⟨s', hs', rfl⟩ := List.mem_map.mp hl
      rcases List.mem_or_eq_of_mem_set hs' with hold | rfl
      · exact hnobody s'.lease (List.mem_map_of_mem hold) hheld
      · exact hne
  · exact absurd hrestart (hgoes now bus keys)

/-- A stranded ECU stays under update, whatever it answers, until an update of it is started or the
gateway is. -/
theorem Stranded.run {ecu : EcuNo} (deeds : List (Deed σ)) (h : g.Stranded ecu)
    (hother : ∀ image secure, .startUpdate ecu image secure ∉ deeds)
    (hgoes : ∀ now bus keys, .restart now bus keys ∉ deeds) : (g.run c deeds).Stranded ecu := by
  induction deeds generalizing g with
  | nil => exact h
  | cons deed rest ih =>
    refine ih (h.act deed ?_ ?_) ?_ ?_
    · rintro image secure rfl
      exact hother image secure List.mem_cons_self
    · rintro now bus keys rfl
      exact hgoes now bus keys List.mem_cons_self
    · exact fun image secure hmem => hother image secure (List.mem_cons_of_mem _ hmem)
    · exact fun now bus keys hmem => hgoes now bus keys (List.mem_cons_of_mem _ hmem)

omit [Storage σ] in
/-- A stranded ECU is not asked for its status. -/
theorem Stranded.not_wanted {ecu : EcuNo} (h : g.Stranded ecu) :
    Round.wanted g.registry ecu = false := by
  simp [Round.wanted, h.1]

end Gateway
end VehicleGateway
