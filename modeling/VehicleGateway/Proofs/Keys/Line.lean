import VehicleGateway.Proofs.Keys.Token

/-!
# The line for the token

A call that is queued is in line for the token, or the token has just been passed on to it; and
nobody is in line for a token that is free.  So a call that gives up waiting does so while another
call has the token.

`Lined` says this of a service, and `Lined.act` that whatever happens to the service keeps it.
-/

namespace VehicleGateway
namespace KeyService

variable {s s' : KeyService} {now n m : Nat} {c c' : KeyCall} {e : KeyEvent} {outcome : KeyOutcome}

/-- Who is queued has the token or is in line for it, and a token that is free has no line. -/
structure Lined (s : KeyService) : Prop where
  free : s.holder = none → s.waiting = []
  queued : ∀ n c limit, s.call? n = some c → c.stage = .queued limit →
    s.holder = some n ∨ n ∈ s.waiting

/-- Who is queued without the token waits for another call. -/
theorem Lined.exists_holder (h : s.Lined) {limit : Nat} (hget : s.call? n = some c)
    (hstage : c.stage = .queued limit) (hholder : s.holder ≠ some n) :
    ∃ m, m ≠ n ∧ s.holder = some m := by
  have hwaits := (h.queued n c limit hget hstage).resolve_left hholder
  cases hheld : s.holder with
  | none =>
    rw [h.free hheld] at hwaits
    cases hwaits
  | some m => exact ⟨m, fun hmn => hholder (hmn ▸ hheld), rfl⟩

/-- The line does not depend on what is noted or known. -/
theorem Lined.congr (h : s.Lined) (hholder : s'.holder = s.holder)
    (hwaiting : s'.waiting = s.waiting) (hcalls : s'.calls = s.calls) : s'.Lined := by
  refine ⟨?_, ?_⟩
  · rw [hholder, hwaiting]
    exact h.free
  · unfold call?
    rw [hholder, hwaiting, hcalls]
    exact h.queued

/-- A call in another stage.  If it is queued it is in line. -/
theorem lined_put (hget : s.call? n = some c) (hfree : s.holder = none → s.waiting = [])
    (hothers : ∀ m d limit, n ≠ m → s.call? m = some d → d.stage = .queued limit →
      s.holder = some m ∨ m ∈ s.waiting)
    (hstage : ∀ limit, c'.stage = .queued limit → s.holder = some n ∨ n ∈ s.waiting) :
    (s.put n c').Lined := by
  refine ⟨hfree, ?_⟩
  intro m d limit hm hqueued
  by_cases hnm : n = m
  · subst hnm
    obtain rfl := Option.some.inj ((call?_put hget c').symm.trans hm)
    exact hstage limit hqueued
  · exact hothers m d limit hnm (by rwa [call?_put_of_ne _ _ hnm] at hm) hqueued

theorem Lined.put (h : s.Lined) (hget : s.call? n = some c)
    (hstage : ∀ limit, c'.stage ≠ .queued limit) : (s.put n c').Lined :=
  lined_put hget h.free (fun m d limit _ => h.queued m d limit)
    fun limit hqueued => absurd hqueued (hstage limit)

/-- A call ends, which may have left the line before, and passes the token on if it has it. -/
theorem lined_finish (hget : s.call? n = some c) (hfree : s.holder = none → s.waiting = [])
    (hothers : ∀ m d limit, n ≠ m → s.call? m = some d → d.stage = .queued limit →
      s.holder = some m ∨ m ∈ s.waiting) (c' : KeyCall) (outcome : KeyOutcome) :
    (s.finish n c' outcome).Lined := by
  have hput : (s.put n { c' with stage := .ended outcome }).Lined :=
    lined_put hget hfree hothers (by simp)
  rw [finish_eq]
  split
  case isFalse => exact hput
  case isTrue hholder =>
    refine ⟨?_, ?_⟩
    · intro hnone
      change s.waiting.head? = none at hnone
      change s.waiting.tail = []
      rw [List.head?_eq_none_iff.mp hnone]
      rfl
    · intro m d limit hm hqueued
      change s.waiting.head? = some m ∨ m ∈ s.waiting.tail
      have hm' : (s.put n { c' with stage := .ended outcome }).call? m = some d := hm
      have hne : n ≠ m := by
        rintro rfl
        obtain rfl := Option.some.inj ((call?_put hget _).symm.trans hm')
        cases hqueued
      have hmem : m ∈ s.waiting := by
        rcases hput.queued m d limit hm' hqueued with hheld | hmem
        · exact absurd (Option.some.inj (hholder.symm.trans hheld)) hne
        · exact hmem
      -- Who was first in line has the token now.
      cases hwaiting : s.waiting with
      | nil => simp [hwaiting] at hmem
      | cons first rest =>
        rcases List.mem_cons.mp (hwaiting ▸ hmem) with rfl | hrest
        · exact .inl rfl
        · exact .inr hrest

theorem Lined.finish (h : s.Lined) (hget : s.call? n = some c) (c' : KeyCall)
    (outcome : KeyOutcome) : (s.finish n c' outcome).Lined :=
  lined_finish hget h.free (fun m d limit _ => h.queued m d limit) c' outcome

/-- A call that gives up leaves the line and ends. -/
theorem Lined.leave (h : s.Lined) (hget : s.call? n = some c) (c' : KeyCall)
    (outcome : KeyOutcome) :
    ({ s with waiting := s.waiting.erase n }.finish n c' outcome).Lined := by
  refine lined_finish (s := { s with waiting := s.waiting.erase n }) hget ?_ ?_ c' outcome
  · intro hnone
    change s.waiting.erase n = []
    rw [h.free hnone]
    rfl
  · intro m d limit hne hm hqueued
    rcases h.queued m d limit hm hqueued with hheld | hmem
    · exact .inl hheld
    · exact .inr ((List.mem_erase_of_ne (Ne.symm hne)).mpr hmem)

theorem Lined.proceeds {c₀ : KeyCall} (h : s.Lined) (hget : s.call? n = some c₀)
    (hproceeds : s.Proceeds n c c' s') : s'.Lined := by
  cases hproceeds with
  | ends => exact h.finish hget _ _
  | gives stage hcommand =>
    refine h.put hget ?_
    rintro limit rfl
    cases hcommand

/-- An event keeps the line. -/
theorem Lined.move (h : s.Lined) (hget : s.call? n = some c) (hmove : Move s now n c e c' s') :
    s'.Lined := by
  cases hmove with
  | stay => exact h
  | seize _ _ hfree =>
    refine lined_put (s := { s with holder := some n }) hget (by simp) ?_ (by simp)
    intro m d limit _ hm hqueued
    rcases h.queued m d limit hm hqueued with hheld | hmem
    · cases hfree.symm.trans hheld
    · exact .inr hmem
  | line _ _ hheld =>
    refine lined_put (s := { s with waiting := s.waiting ++ [n] }) hget (by simp [hheld]) ?_ ?_
    · intro m d limit _ hm hqueued
      exact (h.queued m d limit hm hqueued).imp_right (List.mem_append_left _)
    · exact fun _ _ => .inr (List.mem_append_right _ (List.mem_singleton_self n))
  | grant | expire => exact h.put hget (by simp)
  | answer _ hproof => exact h.put hget (by simp [hproof])
  | giveUp => exact h.leave hget _ _
  | use _ _ hproceeds => exact h.proceeds hget hproceeds
  | @name element status mac c' s' _ hproceeds =>
    have hknown : Lined { s with identity := some element } := h.congr rfl rfl rfl
    exact hknown.proceeds hget hproceeds
  | @note slot key counter =>
    have hnoted : (s.remember slot key counter).Lined := h.congr rfl rfl rfl
    exact hnoted.finish hget _ _
  | @confirm element order receipt slot key counter flags =>
    have hnoted : Lined { s with notes := s.notes.insert slot ⟨counter, some key⟩ } :=
      h.congr rfl rfl rfl
    exact hnoted.finish hget _ _
  | erase =>
    have herased : Lined { s with notes := ∅ } := h.congr rfl rfl rfl
    exact herased.finish hget _ _
  | _ => exact h.finish hget _ _

/-- A new call that is not queued. -/
theorem lined_append {d : KeyCall} (hfree : s'.holder = none → s'.waiting = [])
    (hcalls : s'.calls = s.calls ++ [d]) (hstage : ∀ limit, d.stage ≠ .queued limit)
    (hothers : ∀ m c limit, s.call? m = some c → c.stage = .queued limit →
      s'.holder = some m ∨ m ∈ s'.waiting) : s'.Lined := by
  refine ⟨hfree, ?_⟩
  intro m c limit hm hqueued
  rw [call?, hcalls] at hm
  rcases (call?_append s d m).mp hm with hold | ⟨-, rfl⟩
  · exact hothers m c limit hold hqueued
  · exact absurd hqueued (hstage limit)

/-- Whatever happens to a service, its line stays as it should. -/
theorem Lined.act (h : s.Lined) (d : KeyDeed) : (s.act d).Lined := by
  cases d with
  | call request => exact lined_append h.free rfl (by simp) h.queued
  | start command =>
    change ((s.start command).getD s).Lined
    unfold start
    split
    case h_1 => exact h
    case h_2 hfree =>
      refine lined_append (s := s) (by simp) rfl (by simp) ?_
      intro m c limit hm hqueued
      rcases h.queued m c limit hm hqueued with hheld | hmem
      · cases hfree.symm.trans hheld
      · exact .inr hmem
  | event now n e =>
    change (s.step now n e).Lined
    cases hget : s.call? n with
    | none => simpa [step, hget] using h
    | some c =>
      obtain ⟨c', hmove, -⟩ := step_cases hget now e
      exact h.move hget hmove
  | take n =>
    change (s.take n).1.Lined
    rcases take_cases s n with ⟨hsame, -⟩ | ⟨c, outcome, hget, hended, hsame | hsame⟩
    · rwa [hsame]
    · rwa [hsame]
    · rw [hsame]
      exact h.put hget (by simp [hended])
  | drop n =>
    change (s.abandon n).Lined
    rcases abandon_cases s n with hsame | ⟨c, hget, -, hsame⟩
    · rwa [hsame]
    · rw [hsame]
      exact h.leave hget _ _

theorem lined_new (timeout : Nat) : Lined { timeout } :=
  ⟨fun _ => rfl, fun _ _ _ hget => nomatch hget⟩

end KeyService
end VehicleGateway
