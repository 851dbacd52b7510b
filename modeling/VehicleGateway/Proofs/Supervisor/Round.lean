import Mathlib.Data.List.Basic
import VehicleGateway.Proofs.Gateway.Parts
import VehicleGateway.Proofs.Registry.Restoring
import VehicleGateway.Proofs.Router.Submission

/-!
# Rounds of status requests

A round gets its turn now and then, and between two turns the rest of the gateway does what it wants:
the status and the interface of an ECU change, the bus is lost or slow, time passes.  So a round is
followed through the worlds that it finds, one after the other, about which nothing is assumed but
that time passes, and that records are neither added nor removed, as they never are in a gateway
(`Gateway.size_moment`).

* `Request`, `Asked` and `Visits` say what the turns of a round can be: for one request, for one ECU
  that is asked, and for the ECUs of a list one after the other.
* `call` is a round that finds some worlds, with the turns that it took; `exists_turn` says that it
  does not wait for ever, and `exists_visits` carries it past all ECUs.
* `round_visits_all` is the result.

The heartbeat and the errand of a caller take the steps of such a round (`Gateway.step?_of_round?`).
-/

namespace VehicleGateway

namespace Registry

/-- As long as no number is given twice, the numbers ascend. -/
theorem pairwise_lt_numbers {r : Registry} (hsize : r.size ≤ 256) :
    r.numbers.Pairwise (· < ·) := by
  refine List.pairwise_map.mpr (List.pairwise_lt_range.imp_of_mem fun {i j} hi hj hlt => ?_)
  rw [List.mem_range] at hi hj
  rw [UInt8.lt_iff_toNat_lt, UInt8.toNat_ofNat', UInt8.toNat_ofNat', Nat.mod_eq_of_lt (by omega),
    Nat.mod_eq_of_lt (by omega)]
  exact hlt

/-- Registries of one size have the same numbers. -/
theorem numbers_of_size_eq {r r' : Registry} (h : r.size = r'.size) : r.numbers = r'.numbers := by
  rw [numbers, numbers, h]

end Registry

namespace Round

variable {σ : Type}

/-! ## Turns -/

/-- A turn of a round: the world that it finds, and the world that it leaves. -/
structure Turn (σ : Type) where
  found : World σ
  left : World σ

namespace Turn

/-- A turn that changes nothing. -/
def Idle (x : Turn σ) : Prop :=
  x.left = x.found

/-- A turn that transmits a frame, and changes nothing else. -/
def Transmits (x : Turn σ) (f : Frame) : Prop :=
  x.left = { x.found with bus := x.found.bus.transmit x.found.now f }

/-- The frames that a turn transmits. -/
def frames (x : Turn σ) : List Frame :=
  (x.left.bus.record.take (x.left.bus.record.length - x.found.bus.record.length)).map (·.2)

theorem Idle.frames {x : Turn σ} (h : x.Idle) : x.frames = [] := by
  unfold Idle at h
  simp [Turn.frames, h]

theorem Transmits.frames {x : Turn σ} {f : Frame} (h : x.Transmits f) : x.frames = [f] := by
  unfold Transmits at h
  simp [Turn.frames, h, Bus.transmit]

end Turn

/-- What may come of the request to an ECU.  It is handed to the bus once, on the interface that the
ECU has at that moment: the bus refuses it, transmits it, or is too slow. -/
inductive Request (t : RoundTerms) (ecu : EcuNo) : List (Turn σ) → Prop where
  | refused {x : Turn σ} {record : EcuRecord} {fault : BusFault}
      (hrecord : x.found.registry.get? ecu = some record)
      (hrefusal : x.found.bus.refusal (Supervisor.requestFrame record ecu .reportStatus) =
        some fault)
      (hidle : x.Idle) : Request t ecu [x]
  | sent {x y : Turn σ} {record : EcuRecord} (hrecord : x.found.registry.get? ecu = some record)
      (hrefusal : x.found.bus.refusal (Supervisor.requestFrame record ecu .reportStatus) = none)
      (hfast : x.found.bus.latency ≤ t.timeout) (hidle : x.Idle)
      (htime : x.found.now + x.found.bus.latency ≤ y.found.now)
      (hsent : y.Transmits (Supervisor.requestFrame record ecu .reportStatus)) :
      Request t ecu [x, y]
  | late {x y : Turn σ} {record : EcuRecord} (hrecord : x.found.registry.get? ecu = some record)
      (hrefusal : x.found.bus.refusal (Supervisor.requestFrame record ecu .reportStatus) = none)
      (hslow : t.timeout < x.found.bus.latency) (hidle : x.Idle)
      (htime : x.found.now + t.timeout ≤ y.found.now) (hidle' : y.Idle) : Request t ecu [x, y]

/-- An ECU that is found not to be under update when its turn begins is asked, and before that there
is the pause, unless the ECU is the first one asked. -/
inductive Asked (t : RoundTerms) (polled : Nat) (ecu : EcuNo) : List (Turn σ) → Prop where
  | atOnce {x : Turn σ} {turns : List (Turn σ)} {status : Status}
      (hstatus : x.found.registry.status? ecu = some status) (hother : status ≠ .updating)
      (hpause : polled = 0 ∨ t.pause = 0) (hrequest : Request t ecu (x :: turns)) :
      Asked t polled ecu (x :: turns)
  | afterPause {look x : Turn σ} {turns : List (Turn σ)} {status : Status}
      (hstatus : look.found.registry.status? ecu = some status) (hother : status ≠ .updating)
      (hidle : look.Idle) (hpolled : 0 < polled)
      (htime : look.found.now + t.pause ≤ x.found.now) (hrequest : Request t ecu (x :: turns)) :
      Asked t polled ecu (look :: x :: turns)

/-- The turns of a round that has asked some ECUs before, for a list of ECUs one after the other: an
ECU is passed over if it is under update when its turn begins, and asked otherwise.  The last list
is that of the ECUs asked. -/
inductive Visits (t : RoundTerms) : Nat → List EcuNo → List (Turn σ) → List EcuNo → Prop where
  | nil {polled : Nat} : Visits t polled [] [] []
  | passedOver {polled : Nat} {ecu : EcuNo} {rest asked : List EcuNo} {x : Turn σ}
      {later : List (Turn σ)} (hstatus : x.found.registry.status? ecu = some .updating)
      (hidle : x.Idle) (hrest : Visits t polled rest later asked) :
      Visits t polled (ecu :: rest) (x :: later) asked
  | asked {polled : Nat} {ecu : EcuNo} {rest asked : List EcuNo} {turns later : List (Turn σ)}
      (hfirst : Asked t polled ecu turns) (hrest : Visits t (polled + 1) rest later asked) :
      Visits t polled (ecu :: rest) (turns ++ later) (ecu :: asked)

/-- The identifier of the request to an ECU. -/
def requestId (ecu : EcuNo) : UInt32 :=
  (Identifier.command ecu Opcode.reportStatus.code).raw

section Visits

variable {t : RoundTerms} {polled : Nat} {ecu : EcuNo} {turns : List (Turn σ)}

/-- A request is transmitted once at most. -/
theorem Request.frames (h : Request t ecu turns) :
    ((turns.flatMap Turn.frames).map (·.id)).Sublist [requestId ecu] := by
  cases h with
  | refused hrecord hrefusal hidle => simp [hidle.frames]
  | sent hrecord hrefusal hfast hidle htime hsent =>
    simp [hidle.frames, hsent.frames, Supervisor.requestFrame, requestId]
  | late hrecord hrefusal hslow hidle htime hidle' => simp [hidle.frames, hidle'.frames]

theorem Asked.frames (h : Asked t polled ecu turns) :
    ((turns.flatMap Turn.frames).map (·.id)).Sublist [requestId ecu] := by
  cases h with
  | atOnce hstatus hother hpause hrequest => exact hrequest.frames
  | afterPause hstatus hother hidle hpolled htime hrequest =>
    rw [List.flatMap_cons, hidle.frames, List.nil_append]
    exact hrequest.frames

/-- The ECUs asked are asked in the order of their turns, each once. -/
theorem Visits.sublist {ecus asked : List EcuNo} (h : Visits t polled ecus turns asked) :
    asked.Sublist ecus := by
  induction h with
  | nil => exact .slnil
  | passedOver hstatus hidle hrest ih => exact ih.cons _
  | asked hfirst hrest ih => exact ih.cons_cons _

/-- The frames transmitted are requests to the ECUs asked, one at most for each. -/
theorem Visits.frames {ecus asked : List EcuNo} (h : Visits t polled ecus turns asked) :
    ((turns.flatMap Turn.frames).map (·.id)).Sublist (asked.map requestId) := by
  induction h with
  | nil => exact .slnil
  | passedOver hstatus hidle hrest ih =>
    rw [List.flatMap_cons, hidle.frames, List.nil_append]
    exact ih
  | asked hfirst hrest ih =>
    rw [List.flatMap_append, List.map_append]
    exact hfirst.frames.append ih

end Visits

/-! ## Calls -/

/-- A round that was called for: where it stands, the number it has ended with, and the turns that it
took. -/
structure Call (σ : Type) where
  round : Round
  result : Option Nat := none
  turns : List (Turn σ) := []

/-- A call that finds a world.  Where the round has to wait it takes no turn. -/
def Call.next (t : RoundTerms) (c : Call σ) (w : World σ) : Call σ :=
  match c.result with
  | some _ => c
  | none =>
    match c.round.next t w with
    | .waits => c
    | .goesOn w' r' => { round := r', turns := c.turns ++ [⟨w, w'⟩] }
    | .ends n => { c with result := some n }

/-- A call that finds one after the other of some worlds. -/
def call (t : RoundTerms) (w : Nat → World σ) : Nat → Call σ
  | 0 => { round := ofRegistry (w 0).registry }
  | i + 1 => (call t w i).next t (w i)

section Call

variable {t : RoundTerms} {w : Nat → World σ} {i : Nat} {c : Call σ}

theorem call_succ (h : call t w i = c) : call t w (i + 1) = c.next t (w i) := by
  rw [← h]
  rfl

/-- What becomes of a call that finds a world. -/
theorem Call.next_cases (t : RoundTerms) (c : Call σ) (w : World σ) :
    (c.next t w).turns = c.turns ∨
      ∃ w' r', c.round.next t w = .goesOn w' r' ∧ (c.next t w).turns = c.turns ++ [⟨w, w'⟩] := by
  unfold next
  split
  case h_1 => exact .inl rfl
  case h_2 =>
    split
    case h_1 | h_3 => exact .inl rfl
    case h_2 w' r' hnext => exact .inr ⟨w', r', hnext, rfl⟩

theorem Call.next_of_goesOn {w' : World σ} {r' : Round} {x : World σ} (hresult : c.result = none)
    (h : c.round.next t x = .goesOn w' r') :
    c.next t x = { round := r', turns := c.turns ++ [⟨x, w'⟩] } := by
  simp only [next, hresult, h]

/-- The turns are taken in the worlds that are found, in their order. -/
theorem found_call (t : RoundTerms) (w : Nat → World σ) (i : Nat) :
    ((call t w i).turns.map (·.found)).Sublist ((List.range i).map w) := by
  induction i with
  | zero => exact .slnil
  | succ i ih =>
    rw [List.range_succ, List.map_append]
    rcases (call t w i).next_cases t (w i) with hsame | ⟨w', r', -, hturns⟩
    · rw [call, hsame]
      exact ih.trans (List.sublist_append_left _ _)
    · rw [call, hturns, List.map_append]
      exact ih.append (List.Sublist.refl _)

/-- A step of a round changes nothing but the record of the bus. -/
theorem next_keeps {x w' : World σ} {r r' : Round} (h : r.next t x = .goesOn w' r') :
    w' = { x with bus := w'.bus } := by
  cases next_cases h with
  | asks | pauses | skips => rfl
  | lands hflight hland =>
    rcases World.land_cases hland with ⟨-, -, -, rfl⟩ | ⟨-, -, rfl, -⟩ <;> rfl

theorem left_call (t : RoundTerms) (w : Nat → World σ) (i : Nat) :
    ∀ x ∈ (call t w i).turns, x.left = { x.found with bus := x.left.bus } := by
  induction i with
  | zero => simp [call]
  | succ i ih =>
    intro x hx
    rcases (call t w i).next_cases t (w i) with hsame | ⟨w', r', hnext, hturns⟩
    · rw [call, hsame] at hx
      exact ih x hx
    · rw [call, hturns, List.mem_append, List.mem_singleton] at hx
      rcases hx with hx | rfl
      · exact ih x hx
      · exact next_keeps hnext

/-- A call that has ended stays as it is. -/
theorem call_of_result {n : Nat} (h : (call t w i).result = some n) (m : Nat) :
    call t w (i + m) = call t w i := by
  induction m with
  | zero => rfl
  | succ m ih =>
    rw [← Nat.add_assoc, call_succ ih, Call.next, h]

/-! ## One turn -/

/-- An ECU with a record is wanted if it is not under update. -/
theorem wanted_of_record {registry : Registry} {ecu : EcuNo} {record : EcuRecord}
    (h : registry.get? ecu = some record) :
    wanted registry ecu = decide (record.status ≠ .updating) := by
  rw [wanted, Registry.status?, h, Option.map_some]
  cases record.status <;> rfl

/-- A round that is due does not wait. -/
theorem next_ne_waits {r : Round} {x : World σ} (h : ∀ time, r.due? = some time → time ≤ x.now) :
    r.next t x ≠ .waits := by
  unfold next
  split
  case h_1 => exact nofun
  case h_2 =>
    split
    case h_1 flight hflight =>
      obtain ⟨w', sent, hland⟩ := World.exists_land (h _ (by rw [due?, hflight]))
      simp only [hland]
      exact nofun
    case h_2 later hflight hpausing =>
      have hover : later ≤ x.now := h _ (by rw [due?, hflight, hpausing])
      rw [if_pos hover]
      exact nofun
    case h_3 => exact nofun

variable (hpasses : ∀ time i, ∃ j, i ≤ j ∧ time ≤ (w j).now)

include hpasses

/-- A call gets to its next turn. -/
theorem exists_turn (hc : call t w i = c) : ∃ j, call t w j = c ∧ c.round.next t (w j) ≠ .waits := by
  by_contra hnever
  have hwaits (j : Nat) (hj : call t w j = c) : c.round.next t (w j) = .waits := by
    by_contra hmoves
    exact hnever ⟨j, hj, hmoves⟩
  -- Otherwise it never moves, also not in a world that is late enough.
  have hstays (n : Nat) : call t w (i + n) = c := by
    induction n with
    | zero => exact hc
    | succ n ih =>
      rw [← Nat.add_assoc, call_succ ih, Call.next, hwaits _ ih]
      split <;> rfl
  obtain ⟨j, hij, hlate⟩ := hpasses (c.round.due?.getD 0) i
  obtain ⟨n, rfl⟩ := Nat.exists_eq_add_of_le hij
  refine next_ne_waits ?_ (hwaits _ (hstays n))
  intro time htime
  simpa [htime] using hlate

/-! ## One ECU -/

/-- A transmission under way comes to its end. -/
theorem exists_landing {ecu : EcuNo} {rest : List EcuNo} {polled : Nat} {flight : Flight}
    {turns : List (Turn σ)} (hc : call t w i = {
      round := { rest := ecu :: rest, polled, flight := some flight }, turns }) :
    ∃ j x, call t w j = { round := { rest, polled := polled + 1 }, turns := turns ++ [x] } ∧
      ((flight.arrival ≤ flight.limit ∧ flight.arrival ≤ x.found.now ∧ x.Transmits flight.frame) ∨
        flight.limit < flight.arrival ∧ flight.limit ≤ x.found.now ∧ x.Idle) := by
  obtain ⟨j, hj, hmoves⟩ := exists_turn hpasses hc
  cases hland : (w j).land? flight with
  | none => simp [next, hland] at hmoves
  | some landed =>
    obtain ⟨w', sent⟩ := landed
    have hnext : Round.next t (w j) { rest := ecu :: rest, polled, flight := some flight } =
        .goesOn w' { rest, polled := polled + 1 } := by
      simp only [next, hland]
      rfl
    refine ⟨j + 1, ⟨w j, w'⟩, (call_succ hj).trans (Call.next_of_goesOn rfl hnext), ?_⟩
    rcases World.land_cases hland with ⟨hintime, hnow, -, hleft⟩ | ⟨hlate, hnow, hleft, -⟩
    · exact .inl ⟨hintime, hnow, hleft⟩
    · exact .inr ⟨hlate, hnow, hleft⟩

/-- A round that asks an ECU comes to the end of the request. -/
theorem exists_request {ecu : EcuNo} {rest : List EcuNo} {polled : Nat} {pausing : Option Nat}
    {turns : List (Turn σ)} {record : EcuRecord}
    (hc : call t w i = { round := { rest := ecu :: rest, polled, pausing }, turns })
    (hnext : Round.next t (w i) { rest := ecu :: rest, polled, pausing } =
      .goesOn (w i) (Round.ask t (w i) { rest := ecu :: rest, polled, pausing } ecu))
    (hrecord : (w i).registry.get? ecu = some record) :
    ∃ j later, Request t ecu (⟨w i, w i⟩ :: later) ∧ call t w j =
      { round := { rest, polled := polled + 1 }, turns := turns ++ ⟨w i, w i⟩ :: later } := by
  have hasked := (call_succ hc).trans (Call.next_of_goesOn rfl hnext)
  simp only [ask, Supervisor.request, Registry.get, hrecord, World.launch, Bus.launch] at hasked
  cases hrefusal : (w i).bus.refusal (Supervisor.requestFrame record ecu .reportStatus) with
  | some fault =>
    simp only [hrefusal] at hasked
    exact ⟨i + 1, [], .refused hrecord hrefusal rfl, hasked⟩
  | none =>
    -- Only here a second turn is needed, at which the transmission ends.
    simp only [hrefusal] at hasked
    obtain ⟨j, x, hlanded, hend⟩ := exists_landing hpasses hasked
    rw [List.append_assoc] at hlanded
    refine ⟨j, [x], ?_, hlanded⟩
    rcases hend with ⟨hfast, htime, hsent⟩ | ⟨hslow, htime, hidle⟩
    · exact .sent hrecord hrefusal (Nat.le_of_add_le_add_left hfast) rfl htime hsent
    · exact .late hrecord hrefusal (Nat.lt_of_add_lt_add_left hslow) rfl htime hidle

/-- A round that pauses asks the ECU when the pause is over. -/
theorem exists_pause_end {ecu : EcuNo} {rest : List EcuNo} {polled later : Nat}
    {turns : List (Turn σ)}
    (hc : call t w i = { round := { rest := ecu :: rest, polled, pausing := some later }, turns }) :
    ∃ j, call t w j = { round := { rest := ecu :: rest, polled, pausing := some later }, turns } ∧
      later ≤ (w j).now := by
  obtain ⟨j, hj, hmoves⟩ := exists_turn hpasses hc
  refine ⟨j, hj, ?_⟩
  by_contra hearly
  exact hmoves (by simp only [next, hearly, if_false])

/-- An ECU has its turn. -/
theorem exists_visit {ecu : EcuNo} {rest : List EcuNo} {polled : Nat} {turns : List (Turn σ)}
    (hknown : ∀ i, ∃ record, (w i).registry.get? ecu = some record)
    (hc : call t w i = { round := { rest := ecu :: rest, polled }, turns }) :
    ∃ j, (∃ x, x.found.registry.status? ecu = some .updating ∧ x.Idle ∧
        call t w j = { round := { rest, polled }, turns := turns ++ [x] }) ∨
      ∃ visited, Asked t polled ecu visited ∧
        call t w j = { round := { rest, polled := polled + 1 }, turns := turns ++ visited } := by
  obtain ⟨record, hrecord⟩ := hknown i
  have hstatus : (w i).registry.status? ecu = some record.status := by
    rw [Registry.status?, hrecord, Option.map_some]
  have hwanted := wanted_of_record hrecord
  by_cases hupdating : record.status = .updating
  · rw [hupdating] at hstatus hwanted
    have hnext : Round.next t (w i) { rest := ecu :: rest, polled } =
        .goesOn (w i) { rest, polled } := by
      simp only [next, visit, hwanted]
      rfl
    exact ⟨i + 1, .inl ⟨⟨w i, w i⟩, hstatus, rfl,
      (call_succ hc).trans (Call.next_of_goesOn rfl hnext)⟩⟩
  rw [decide_eq_true hupdating] at hwanted
  by_cases hpause : 0 < polled ∧ 0 < t.pause
  · have hnext : Round.next t (w i) { rest := ecu :: rest, polled } = .goesOn (w i)
        { rest := ecu :: rest, polled, pausing := some ((w i).now + t.pause) } := by
      simp only [next, visit, hwanted, hpause]
      rfl
    obtain ⟨k, hk, hover⟩ := exists_pause_end hpasses
      ((call_succ hc).trans (Call.next_of_goesOn rfl hnext))
    -- After the pause it is asked on the interface that it has then, whatever its status is by now.
    obtain ⟨record', hrecord'⟩ := hknown k
    obtain ⟨j, later, hrequest, hj⟩ :=
      exists_request hpasses hk (by simp only [next, hover, if_true]) hrecord'
    rw [List.append_assoc] at hj
    have hasked : Asked t polled ecu (⟨w i, w i⟩ :: ⟨w k, w k⟩ :: later) :=
      .afterPause hstatus hupdating rfl hpause.1 hover hrequest
    exact ⟨j, .inr ⟨_, hasked, hj⟩⟩
  · have hnext : Round.next t (w i) { rest := ecu :: rest, polled } =
        .goesOn (w i) (Round.ask t (w i) { rest := ecu :: rest, polled } ecu) := by
      simp only [next, visit, hwanted, hpause]
      rfl
    obtain ⟨j, later, hrequest, hj⟩ := exists_request hpasses hc hnext hrecord
    exact ⟨j, .inr ⟨_, .atOnce hstatus hupdating (by omega) hrequest, hj⟩⟩

/-- All ECUs have their turns, and then the round ends with the number of those asked. -/
theorem exists_visits {ecus : List EcuNo} {polled : Nat} {turns : List (Turn σ)}
    (hknown : ∀ i, ∀ ecu ∈ ecus, ∃ record, (w i).registry.get? ecu = some record)
    (hc : call t w i = { round := { rest := ecus, polled }, turns }) :
    ∃ j visited asked, Visits t polled ecus visited asked ∧
      (call t w j).result = some (polled + asked.length) ∧
      (call t w j).turns = turns ++ visited := by
  induction ecus generalizing i polled turns with
  | nil =>
    have hend : call t w (i + 1) =
        { round := { rest := [], polled }, result := some polled, turns } := call_succ hc
    refine ⟨i + 1, [], [], .nil, ?_, ?_⟩
    · rw [hend]
      rfl
    · rw [hend, List.append_nil]
  | cons ecu rest ih =>
    have hrest (i : Nat) (other : EcuNo) (h : other ∈ rest) := hknown i other (.tail _ h)
    obtain ⟨j, ⟨x, hstatus, hidle, hj⟩ | ⟨visited, hasked, hj⟩⟩ :=
      exists_visit hpasses (fun i => hknown i ecu (.head _)) hc
    · obtain ⟨k, later, asked, hvisits, hresult, hturns⟩ := ih hrest hj
      rw [List.append_assoc] at hturns
      exact ⟨k, _, _, .passedOver hstatus hidle hvisits, hresult, hturns⟩
    · obtain ⟨k, later, asked, hvisits, hresult, hturns⟩ := ih hrest hj
      rw [List.append_assoc] at hturns
      refine ⟨k, _, _, .asked hasked hvisits, ?_, hturns⟩
      rw [hresult, List.length_cons, Nat.add_assoc, Nat.add_comm 1]

end Call

/-! ## The result -/

/-- A round ends, whatever it finds at its turns, and nothing changes its result any more.  It visits
all ECUs in ascending order.  An ECU that is under update when its turn begins is passed over.  Every
other one is asked once, whatever comes of the requests, on the interface that it has when it is
asked, and after the pause if another one was asked before.  The result is the number of ECUs asked.
A round changes nothing but that its requests are transmitted. -/
theorem round_visits_all (t : RoundTerms) (w : Nat → World σ)
    (hsize : (w 0).registry.size ≤ 256)
    (hfixed : ∀ i, (w i).registry.size = (w 0).registry.size)
    (hpasses : ∀ time i, ∃ j, i ≤ j ∧ time ≤ (w j).now) :
    ∃ i turns asked, Visits t 0 (w 0).registry.numbers turns asked ∧
      (∀ n, (call t w (i + n)).result = some asked.length ∧ (call t w (i + n)).turns = turns) ∧
      (w 0).registry.numbers.Pairwise (· < ·) ∧
      (∀ i ecu, ecu ∈ (w 0).registry.numbers ↔ ∃ record, (w i).registry.get? ecu = some record) ∧
      asked.Sublist (w 0).registry.numbers ∧
      ((turns.flatMap Turn.frames).map (·.id)).Sublist (asked.map requestId) ∧
      (turns.map (·.found)).Sublist ((List.range i).map w) ∧
      ∀ x ∈ turns, x.left = { x.found with bus := x.left.bus } := by
  have hknown (i : Nat) (ecu : EcuNo) : ecu ∈ (w 0).registry.numbers ↔
      ∃ record, (w i).registry.get? ecu = some record := by
    rw [← Registry.numbers_of_size_eq (hfixed i), Registry.exists_get?_iff]
  have hfirst : call t w 0 =
      { round := { rest := (w 0).registry.numbers, polled := 0 }, turns := [] } := rfl
  obtain ⟨i, turns, asked, hvisits, hresult, hturns⟩ :=
    exists_visits hpasses (fun i ecu hecu => (hknown i ecu).mp hecu) hfirst
  rw [Nat.zero_add] at hresult
  rw [List.nil_append] at hturns
  refine ⟨i, turns, asked, hvisits, ?_, Registry.pairwise_lt_numbers hsize, hknown,
    hvisits.sublist, hvisits.frames, ?_, ?_⟩
  · intro n
    rw [call_of_result hresult n]
    exact ⟨hresult, hturns⟩
  · rw [← hturns]
    exact found_call t w i
  · rw [← hturns]
    exact left_call t w i

/-- A pause between two requests, and a longest time for one. -/
def briefTerms : RoundTerms :=
  { pause := 5, timeout := 10 }

/-- A world with three ECUs at some time.  The second one is under update at first.  The third one is
moved to an interface that does not exist. -/
def shifting (now : Nat) : World Unit where
  now
  registry := ⟨[{ protocol := .can, interface := 0 },
    { protocol := .can, interface := 0, status := if now < 5 then .updating else .normal },
    { protocol := .can, interface := if now < 5 then 0 else 1 }]⟩
  bus := { interfaces := 1, latency := 2 }
  storage := ()

/-- The second ECU is passed over, and the third one is asked after a pause, in vain. -/
theorem shifting_visits_all : (shifting 0).registry.size ≤ 256 ∧
    (∀ i, (shifting i).registry.size = (shifting 0).registry.size) ∧
    (∀ time i, ∃ j, i ≤ j ∧ time ≤ (shifting j).now) ∧
    (call briefTerms shifting 11).result = some 2 ∧
    ∃ turns asked, (call briefTerms shifting 11).turns = turns ∧ asked.length = 2 ∧
      Visits briefTerms 0 (shifting 0).registry.numbers turns asked := by
  have hsize : (shifting 0).registry.size ≤ 256 := by decide
  have hfixed (i : Nat) : (shifting i).registry.size = (shifting 0).registry.size := rfl
  have hpasses (time i : Nat) : ∃ j, i ≤ j ∧ time ≤ (shifting j).now :=
    ⟨max i time, Nat.le_max_left i time, Nat.le_max_right i time⟩
  have hended : (call briefTerms shifting 11).result = some 2 := by decide
  obtain ⟨i, turns, asked, hvisits, hstays, -⟩ :=
    round_visits_all briefTerms shifting hsize hfixed hpasses
  obtain ⟨hresult, hturns⟩ := hstays 11
  rw [Nat.add_comm, call_of_result hended] at hresult hturns
  rw [hended] at hresult
  exact ⟨hsize, hfixed, hpasses, hended, turns, asked, hturns, (Option.some.inj hresult).symm,
    hvisits⟩

end Round

end VehicleGateway
