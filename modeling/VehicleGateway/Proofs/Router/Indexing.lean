import Mathlib.Data.List.Perm.Basic
import Mathlib.Data.List.Sort
import VehicleGateway.Router.Table

/-!
# Routing tables from routes that name their index

Routes with an index are first put in ascending order, which fails where an index stands twice or a
destination is unknown, and then counted through, which fails at the first gap.

* `arrange_eq_ok_iff` says that the first step is a sorting: what comes out is in ascending order
  and holds the routes that went in.
* `dense_eq_ok_iff` says that the second accepts exactly the numbers from the expected one on.
* `numbered_routes_tabled` puts them together.  The table is that of the indices, in whatever order
  the routes stand.
-/

namespace VehicleGateway.RoutingTable

variable {ecus expected : Nat} {index : UInt32} {route : Route} {entries : List Route}
  {l l' placed placed' routes routes' : List (UInt32 × Route)}

/-- In ascending order of the indices, none of which stands twice. -/
def Ascending (routes : List (UInt32 × Route)) : Prop :=
  routes.Pairwise fun r r' => r.1 < r'.1

/-- Every destination is the number of an ECU. -/
def Known (ecus : Nat) (routes : List (UInt32 × Route)) : Prop :=
  ∀ r ∈ routes, ∀ ecu ∈ r.2.destinations, ecu.toNat < ecus

/-- There is one ascending order. -/
theorem Ascending.eq_of_perm (h : Ascending l) (h' : Ascending l') (hperm : l.Perm l') : l = l' :=
  hperm.eq_of_pairwise (fun _ _ _ _ hlt hlt' => absurd hlt' (UInt32.lt_asymm hlt)) h h'

/-- Where routes can be brought into ascending order, no two have the same index. -/
theorem Ascending.pairwise_ne_of_perm (h : Ascending l) (hperm : l.Perm routes) :
    routes.Pairwise fun r r' => r.1 ≠ r'.1 :=
  hperm.pairwise (h.imp fun hlt => UInt32.ne_of_lt hlt) fun hne => hne.symm

/-! ## Putting in order -/

theorem exists_place (route : Route) (hnew : ∀ r ∈ placed, r.1 ≠ index) :
    ∃ placed', place index route placed = .ok placed' := by
  induction placed with
  | nil => exact ⟨_, rfl⟩
  | cons first rest ih =>
    unfold place
    split
    case isTrue => exact ⟨_, rfl⟩
    case isFalse =>
      rw [if_neg (hnew first List.mem_cons_self).symm]
      obtain ⟨placed', hplaced'⟩ := ih fun r hr => hnew r (.tail _ hr)
      exact ⟨_, congrArg (Except.map _) hplaced'⟩

theorem of_place (hplaced : Ascending placed) (h : place index route placed = .ok placed') :
    Ascending placed' ∧ placed'.Perm ((index, route) :: placed) := by
  induction placed generalizing placed' with
  | nil =>
    obtain rfl := Except.ok.inj h
    exact ⟨List.pairwise_singleton _ _, .refl _⟩
  | cons first rest ih =>
    obtain ⟨hfirst, hrest⟩ := List.pairwise_cons.mp hplaced
    unfold place at h
    split at h
    case isTrue hlt =>
      obtain rfl := Except.ok.inj h
      refine ⟨List.pairwise_cons.mpr ⟨?_, hplaced⟩, .refl _⟩
      intro r hr
      rcases List.mem_cons.mp hr with rfl | hr
      · exact hlt
      · exact UInt32.lt_trans hlt (hfirst r hr)
    case isFalse hge =>
      split at h
      case isTrue => cases h
      case isFalse hne =>
        obtain ⟨rest', hrest', rfl⟩ := exists_of_map_ok h
        obtain ⟨hascending, hperm⟩ := ih hrest hrest'
        refine ⟨List.pairwise_cons.mpr ⟨?_, hascending⟩, (hperm.cons first).trans (.swap _ _ _)⟩
        intro r hr
        rcases List.mem_cons.mp (hperm.mem_iff.mp hr) with rfl | hr
        · exact UInt32.lt_of_le_of_ne (UInt32.not_lt.mp hge) (Ne.symm hne)
        · exact hfirst r hr

/-- Sorting succeeds exactly on routes with known destinations that have an ascending order, and
yields that order. -/
theorem arrange_eq_ok_iff (hplaced : Ascending placed) :
    arrange ecus placed routes = .ok l ↔
      Known ecus routes ∧ Ascending l ∧ l.Perm (placed ++ routes) := by
  induction routes generalizing placed with
  | nil =>
    refine ⟨?_, ?_⟩
    · intro h
      obtain rfl := Except.ok.inj h
      exact ⟨List.forall_mem_nil _, hplaced, by simp⟩
    · rintro ⟨-, hl, hperm⟩
      rw [List.append_nil] at hperm
      exact congrArg Except.ok (hplaced.eq_of_perm hl hperm.symm)
  | cons first rest ih =>
    obtain ⟨index, route⟩ := first
    unfold arrange
    split
    case h_1 ecu hfound =>
      -- A destination that is found to be unknown is one.
      refine ⟨nofun, ?_⟩
      rintro ⟨hknown, -⟩
      have hlt := hknown _ List.mem_cons_self ecu (List.mem_of_find?_eq_some hfound)
      have hge := List.find?_some hfound
      simp only [decide_eq_true_eq] at hge
      omega
    case h_2 hnone =>
      have hfirst : ∀ ecu ∈ route.destinations, ecu.toNat < ecus := by
        simpa using hnone
      have hknown : Known ecus ((index, route) :: rest) ↔ Known ecus rest := by
        simp only [Known, List.forall_mem_cons]
        exact ⟨And.right, fun h => ⟨hfirst, h⟩⟩
      rw [hknown]
      split
      case h_1 fault hfault =>
        refine ⟨nofun, ?_⟩
        rintro ⟨-, hl, hperm⟩
        have hdistinct := (List.pairwise_append.mp (hl.pairwise_ne_of_perm hperm)).2.2
        obtain ⟨placed', hplaced'⟩ := exists_place route
          fun r hr => hdistinct r hr _ List.mem_cons_self
        cases hfault.symm.trans hplaced'
      case h_2 placed' hplaced' =>
        obtain ⟨hascending, hperm⟩ := of_place hplaced hplaced'
        rw [ih hascending,
          ((hperm.append_right rest).trans List.perm_middle.symm).congr_right]

/-! ## Counting through -/

theorem dense_eq_ok_iff : dense expected placed = .ok entries ↔
    placed.map (·.1.toNat) = List.range' expected placed.length ∧
      entries = placed.map (·.2) := by
  induction placed generalizing expected entries with
  | nil => simp [dense, eq_comm]
  | cons first rest ih =>
    obtain ⟨index, route⟩ := first
    simp only [List.map_cons, List.length_cons, List.range'_succ, List.cons.injEq]
    unfold dense
    split
    case isFalse hne => simp [hne]
    case isTrue heq =>
      refine ⟨?_, ?_⟩
      · intro h
        obtain ⟨entries', hentries', rfl⟩ := exists_of_map_ok h
        obtain ⟨hrange, rfl⟩ := ih.mp hentries'
        exact ⟨⟨heq, hrange⟩, rfl⟩
      · rintro ⟨⟨-, hrange⟩, rfl⟩
        rw [ih.mpr ⟨hrange, rfl⟩]
        rfl

theorem ascending_of_map_eq_range {n : Nat} (h : l.map (·.1.toNat) = List.range n) :
    Ascending l := by
  have hrange := List.pairwise_lt_range (n := n)
  rw [← h] at hrange
  exact (List.pairwise_map.mp hrange).imp UInt32.lt_iff_toNat_lt.mpr

/-- A table comes of routes exactly if they can be put in order so that each stands at the place
that it names, and all their destinations are known. -/
theorem ofIndexed_eq_ok_iff {t : RoutingTable} : ofIndexed routes ecus = .ok t ↔
    Known ecus routes ∧ ∃ l : List (UInt32 × Route), l.Perm routes ∧
      l.map (·.1.toNat) = List.range l.length ∧ t = ⟨l.map (·.2)⟩ := by
  have harrange (l : List (UInt32 × Route)) : arrange ecus [] routes = .ok l ↔
      Known ecus routes ∧ Ascending l ∧ l.Perm routes := arrange_eq_ok_iff .nil
  refine ⟨?_, ?_⟩
  · intro h
    obtain ⟨l, hl, h⟩ := exists_of_bind_ok h
    obtain ⟨entries, hentries, h⟩ := exists_of_bind_ok h
    obtain rfl := Except.ok.inj h
    obtain ⟨hknown, -, hperm⟩ := (harrange l).mp hl
    obtain ⟨hrange, rfl⟩ := dense_eq_ok_iff.mp hentries
    exact ⟨hknown, l, hperm, by rw [hrange, List.range_eq_range'], rfl⟩
  · rintro ⟨hknown, l, hperm, hrange, rfl⟩
    have hl := (harrange l).mpr ⟨hknown, ascending_of_map_eq_range hrange, hperm⟩
    have hentries : dense 0 l = .ok (l.map (·.2)) :=
      dense_eq_ok_iff.mpr ⟨by rw [hrange, List.range_eq_range'], rfl⟩
    simp [ofIndexed, hl, hentries, bind, Except.bind, pure, Except.pure]

/-- Which table comes of routes does not depend on their order. -/
theorem ofIndexed_congr {t : RoutingTable} (hperm : routes'.Perm routes) :
    ofIndexed routes' ecus = .ok t ↔ ofIndexed routes ecus = .ok t := by
  have hknown : Known ecus routes' ↔ Known ecus routes :=
    forall_congr' fun r => imp_congr_left hperm.mem_iff
  simp only [ofIndexed_eq_ok_iff, hknown, hperm.congr_right]

/-- Routes whose indices can be rearranged can be rearranged themselves. -/
theorem exists_perm_of_map_perm {indices : List Nat}
    (h : (routes.map (·.1.toNat)).Perm indices) :
    ∃ l : List (UInt32 × Route), l.Perm routes ∧ l.map (·.1.toNat) = indices := by
  have hcomp := congrFun (congrFun
    (List.eq_map_comp_perm fun r : UInt32 × Route => r.1.toNat) indices) routes
  obtain ⟨l, rfl, hl⟩ := hcomp.mpr h.symm
  exact ⟨l, hl, rfl⟩

/-- The routes at the places that they name are found by their index. -/
theorem lookup_of_placed (hrange : l.map (·.1.toNat) = List.range l.length) {r : UInt32 × Route}
    (hr : r ∈ l) : lookup ⟨l.map (·.2)⟩ r.1.toNat = some r.2 := by
  obtain ⟨i, hi, rfl⟩ := List.mem_iff_getElem.mp hr
  have hplace : (l[i]).1.toNat = i := by
    have hsame : (l.map (·.1.toNat))[i]? = (List.range l.length)[i]? := by rw [hrange]
    simpa [hi] using hsame
  simp [lookup, hplace, hi]

/-- Routes make a table exactly if their indices are the numbers from zero on, each once, and their
destinations are known.  The table has one place for each route, and a route is found by its index.
In whatever order the routes stand, the table is the same, if there is one. -/
theorem numbered_routes_tabled (routes : List (UInt32 × Route)) (ecus : Nat) :
    ((∃ t, ofIndexed routes ecus = .ok t) ↔
      (routes.map (·.1.toNat)).Perm (List.range routes.length) ∧
        ∀ r ∈ routes, ∀ ecu ∈ r.2.destinations, ecu.toNat < ecus) ∧
    (∀ t, ofIndexed routes ecus = .ok t →
      t.size = routes.length ∧
      (∀ r ∈ routes, t.lookup r.1.toNat = some r.2) ∧
      (∀ i < routes.length, ∃ r ∈ routes, r.1.toNat = i ∧ t.lookup i = some r.2) ∧
      ∀ i, routes.length ≤ i → t.lookup i = none) ∧
    ∀ routes', routes'.Perm routes →
      ∀ t, ofIndexed routes' ecus = .ok t ↔ ofIndexed routes ecus = .ok t := by
  refine ⟨⟨?_, ?_⟩, ?_, fun routes' hperm t => ofIndexed_congr hperm⟩
  · rintro ⟨t, h⟩
    obtain ⟨hknown, l, hperm, hrange, -⟩ := ofIndexed_eq_ok_iff.mp h
    refine ⟨?_, hknown⟩
    rw [← hperm.length_eq, ← hrange]
    exact (hperm.map _).symm
  · rintro ⟨hperm, hknown⟩
    obtain ⟨l, hl, hrange⟩ := exists_perm_of_map_perm hperm
    rw [← hl.length_eq] at hrange
    exact ⟨_, ofIndexed_eq_ok_iff.mpr ⟨hknown, l, hl, hrange, rfl⟩⟩
  · intro t h
    obtain ⟨-, l, hperm, hrange, rfl⟩ := ofIndexed_eq_ok_iff.mp h
    have hfound (r : UInt32 × Route) (hr : r ∈ routes) :=
      lookup_of_placed hrange (hperm.mem_iff.mpr hr)
    refine ⟨by simp [size, hperm.length_eq], hfound, ?_, ?_⟩
    · intro i hi
      have hmem : i ∈ l.map (·.1.toNat) := by simpa [hrange, hperm.length_eq] using hi
      obtain ⟨r, hr, rfl⟩ := List.mem_map.mp hmem
      have hr := hperm.mem_iff.mp hr
      exact ⟨r, hr, rfl, hfound r hr⟩
    · intro i hi
      simpa [lookup, hperm.length_eq] using hi

/-- Two routes, of which the second one comes first. -/
def doorAndSpeed : List (UInt32 × Route) :=
  [(1, { label := "door_state", destinations := [0] }),
   (0, { label := "wheel_speed", destinations := [0, 1] })]

theorem door_and_speed_tabled : ∃ t, ofIndexed doorAndSpeed 2 = .ok t ∧ t.size = 2 ∧
    t.lookup 0 = some { label := "wheel_speed", destinations := [0, 1] } ∧
    t.lookup 1 = some { label := "door_state", destinations := [0] } ∧ t.lookup 2 = none ∧
    ofIndexed doorAndSpeed.reverse 2 = .ok t := by
  obtain ⟨hmade, hfound, horder⟩ := numbered_routes_tabled doorAndSpeed 2
  obtain ⟨t, ht⟩ := hmade.mpr ⟨by decide, by simp [doorAndSpeed]⟩
  obtain ⟨hsize, hlookup, -, hbeyond⟩ := hfound t ht
  exact ⟨t, ht, hsize, hlookup (0, _) (.tail _ (.head _)), hlookup (1, _) (.head _),
    hbeyond 2 (Nat.le_refl 2), (horder _ (List.reverse_perm _) t).mpr ht⟩

end VehicleGateway.RoutingTable
