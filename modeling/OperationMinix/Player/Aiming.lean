import OperationMinix.Player.Trigger
import OperationMinix.Runs.Scan
import Mathlib.Data.List.Perm.Basic

/-!
# Aiming

For every bullet, `fire` goes through the players that it may hit and keeps one of them in
`hit_target`.  A target takes the place of the one before it even if it is farther away, by
less than `0.2`, so the one that is kept need not be the nearest.  And `hit` is assigned
where a target is found or a wall is in the way: where there is neither, it holds what the
memory held before.

## Main definitions

* `Sighting`, `search` — what the search reads of the targets, and the search for any such.
* `AimsNearest`, `OrderFree` — the target is the nearest one, and its distance is the same
  in every order of the enemies.
* `MissSpares` — a bullet that misses hurts nobody and follows no pointer to a target.

## Main results

* `aimOf_player` — the bullets of the local player use this search.
* `search_nearest_iff` — **when the nearest target is hit.**
* `miss_spares_iff` — **a shot that misses hurts nobody exactly when** no bullet without a
  target finds the flag set.
-/

namespace OperationMinix

set_option linter.unusedSectionVars false

open Runs

section

variable {K : Type*} [Field K] [LinearOrder K]

/-! ### The search -/

/-- What the search for a target reads of a player: that it is alive, and what `hit_player`
returns and stores. -/
structure Sighting (K : Type*) where
  alive : Bool
  inView : Bool
  dist : K
  deriving DecidableEq, Repr

/-- A player that a shot can hit, if nothing is in the way. -/
def Sighting.Eligible (range : K) (s : Sighting K) : Prop := s.alive ∧ s.inView ∧ s.dist ≤ range

instance (range : K) (s : Sighting K) : Decidable (s.Eligible range) :=
  inferInstanceAs (Decidable (_ ∧ _ ∧ _))

/-- `aimAt`, of what has been read of a target. -/
def aimAtSighting (range : K) (a : Aim K) (c : PlayerRef × Sighting K) : Aim K :=
  if c.2.alive ∧ c.2.inView ∧ c.2.dist ≤ range ∧ (a.dist < 0 ∨ c.2.dist < a.dist + 1 / 5) then
    { hit := true, target := some c.1, dist := c.2.dist }
  else a

/-- The enemies, with what has been read of them. -/
def candidates (ss : List (Sighting K)) : List (PlayerRef × Sighting K) :=
  ss.zipIdx.map fun c => (.enemy c.2, c.1)

/-- The search of a bullet of the local player through the array of the enemies, when `hit`
holds `hit₀` before it. -/
def search (range : K) (hit₀ : Bool) (ss : List (Sighting K)) : Aim K :=
  (candidates ss).foldl (aimAtSighting range) { hit := hit₀, target := none, dist := -1 }

/-! ### Statements -/

/-- Where a target is to be had, the one that is found is as near as any. -/
def AimsNearest (range : K) (ss : List (Sighting K)) : Prop :=
  ∀ hit₀, ∀ t ∈ ss, t.Eligible range →
    ∃ j s, (search range hit₀ ss).target = some (.enemy j) ∧ ss[j]? = some s ∧
      s.Eligible range ∧ s.dist ≤ t.dist

/-- In every order of the enemies, the distance of the target is the same, and so is what
the test for a wall in front of it gives. -/
def OrderFree (range : K) (ss : List (Sighting K)) : Prop :=
  ∀ hit₀, ∀ ss' : List (Sighting K), ss'.Perm ss →
    (search range hit₀ ss').dist = (search range hit₀ ss).dist ∧
      ∀ ray : RayHit K, (ray.hit ∧ ray.distance < (search range hit₀ ss').dist) ↔
        (ray.hit ∧ ray.distance < (search range hit₀ ss).dist)

/-- The enemies that can be hit. -/
def eligible (range : K) (ss : List (Sighting K)) : List (Sighting K) :=
  ss.filter fun s => s.Eligible range

/-! ### The search as a scan -/

/-- The variables of the search when `best` is the target so far. -/
def Aim.of (hit₀ : Bool) : Option (PlayerRef × Sighting K) → Aim K
  | none => { hit := hit₀, target := none, dist := -1 }
  | some c => { hit := true, target := some c.1, dist := c.2.dist }

variable [IsStrictOrderedRing K]

theorem aimAtSighting_of (range : K) (hit₀ : Bool) {best : Option (PlayerRef × Sighting K)}
    (hbest : ∀ c ∈ best, 0 ≤ c.2.dist) (c : PlayerRef × Sighting K) :
    aimAtSighting range (Aim.of hit₀ best) c =
      Aim.of hit₀ (if c.2.Eligible range then Scan.pick (fun c => c.2.dist) (1 / 5) best c
        else best) := by
  unfold aimAtSighting
  by_cases hc : c.2.Eligible range
  · rw [if_pos hc]
    obtain ⟨halive, hview, hrange⟩ := hc
    cases best with
    | none => simp [Aim.of, Scan.pick, halive, hview, hrange]
    | some b =>
      have hb : ¬ b.2.dist < 0 := not_lt_of_ge (hbest b rfl)
      by_cases hclose : c.2.dist < b.2.dist + 1 / 5
      · rw [Scan.pick_some, if_pos hclose, if_pos ⟨halive, hview, hrange, Or.inr hclose⟩]
        rfl
      · rw [Scan.pick_some, if_neg hclose, if_neg]
        rintro ⟨-, -, -, h | h⟩
        · exact hb h
        · exact hclose h
  · rw [if_neg hc, if_neg]
    rintro ⟨h1, h2, h3, -⟩
    exact hc ⟨h1, h2, h3⟩

/-- The search is a scan of the targets that can be hit. -/
theorem foldl_aimAtSighting (range : K) (hit₀ : Bool) :
    ∀ (cs : List (PlayerRef × Sighting K)) (best : Option (PlayerRef × Sighting K)),
      (∀ c ∈ cs, 0 ≤ c.2.dist) → (∀ c ∈ best, 0 ≤ c.2.dist) →
      cs.foldl (aimAtSighting range) (Aim.of hit₀ best) =
        Aim.of hit₀ ((cs.filter fun c => c.2.Eligible range).foldl
          (Scan.pick (fun c => c.2.dist) (1 / 5)) best) := by
  intro cs
  induction cs with
  | nil => intro best _ _; rfl
  | cons c cs ih =>
    intro best hcs hbest
    have htail : ∀ x ∈ cs, 0 ≤ x.2.dist := fun x hx => hcs x (List.mem_cons_of_mem c hx)
    rw [List.foldl_cons, aimAtSighting_of range hit₀ hbest, List.filter_cons]
    by_cases hc : c.2.Eligible range
    · rw [if_pos hc, if_pos (by simpa using hc), List.foldl_cons]
      refine ih _ htail fun x hx => ?_
      rcases Scan.foldl_pick_mem [c] best x hx with hmem | hx
      · rw [List.mem_singleton.mp hmem]
        exact hcs c List.mem_cons_self
      · exact hbest x hx
    · rw [if_neg hc, if_neg (by simpa using hc)]
      exact ih _ htail hbest

/-- The candidates that can be hit. -/
def inSight (range : K) (ss : List (Sighting K)) : List (PlayerRef × Sighting K) :=
  (candidates ss).filter fun c => c.2.Eligible range

theorem mem_candidates {ss : List (Sighting K)} {c : PlayerRef × Sighting K} :
    c ∈ candidates ss ↔ ∃ j, c.1 = .enemy j ∧ ss[j]? = some c.2 := by
  unfold candidates
  rw [List.mem_map]
  constructor
  · rintro ⟨⟨s, j⟩, hmem, rfl⟩
    exact ⟨j, rfl, List.mem_zipIdx_iff_getElem?.mp hmem⟩
  · obtain ⟨r, s⟩ := c
    rintro ⟨j, rfl, hj⟩
    exact ⟨(s, j), List.mem_zipIdx_iff_getElem?.mpr hj, rfl⟩

theorem candidates_snd (ss : List (Sighting K)) : (candidates ss).map Prod.snd = ss := by
  unfold candidates
  rw [List.map_map]
  exact List.zipIdx_map_fst 0 ss

theorem inSight_snd (range : K) (ss : List (Sighting K)) :
    (inSight range ss).map Prod.snd = eligible range ss := by
  have h := List.filter_map (f := Prod.snd) (p := fun s : Sighting K => decide (s.Eligible range))
    (l := candidates ss)
  rw [candidates_snd] at h
  exact h.symm

theorem mem_eligible {range : K} {ss : List (Sighting K)} {s : Sighting K} :
    s ∈ eligible range ss ↔ s ∈ ss ∧ s.Eligible range := by
  simp [eligible]

section

variable {range : K} {ss : List (Sighting K)} (hss : ∀ s ∈ ss, 0 ≤ s.dist)
include hss

theorem search_eq (hit₀ : Bool) :
    search range hit₀ ss =
      Aim.of hit₀ (Scan.scan (fun c => c.2.dist) (1 / 5) (inSight range ss)) := by
  refine foldl_aimAtSighting range hit₀ (candidates ss) none (fun c hc => ?_) nofun
  obtain ⟨j, -, hj⟩ := mem_candidates.mp hc
  exact hss _ (List.mem_of_getElem? hj)

/-- The target of the search, by what the scan of the enemies keeps. -/
theorem search_of_scan (hit₀ : Bool) {a : Sighting K}
    (ha : Scan.scan Sighting.dist (1 / 5) (eligible range ss) = some a) :
    ∃ j, search range hit₀ ss = { hit := true, target := some (.enemy j), dist := a.dist } ∧
      ss[j]? = some a ∧ a.Eligible range := by
  rw [← inSight_snd, Scan.scan_map, Option.map_eq_some_iff] at ha
  obtain ⟨c, hc, rfl⟩ := ha
  obtain ⟨hmem, helig⟩ := List.mem_filter.mp (Scan.scan_mem hc)
  obtain ⟨j, hj, hget⟩ := mem_candidates.mp hmem
  refine ⟨j, ?_, hget, by simpa using helig⟩
  rw [search_eq hss, hc, Aim.of, hj]

theorem search_of_scan_none (hit₀ : Bool)
    (ha : Scan.scan Sighting.dist (1 / 5) (eligible range ss) = none) :
    search range hit₀ ss = { hit := hit₀, target := none, dist := -1 } := by
  rw [← inSight_snd, Scan.scan_map, Option.map_eq_none_iff] at ha
  rw [search_eq hss, ha, Aim.of]

/-- The search finds the nearest target when the scan keeps it. -/
theorem aimsNearest_iff_scan :
    AimsNearest range ss ↔ ∀ t ∈ eligible range ss,
      ∃ a, Scan.scan Sighting.dist (1 / 5) (eligible range ss) = some a ∧ a.dist ≤ t.dist := by
  constructor
  · intro h t ht
    obtain ⟨hmem, helig⟩ := mem_eligible.mp ht
    obtain ⟨j, s, htarget, hj, -, hle⟩ := h false t hmem helig
    cases hscan : Scan.scan Sighting.dist (1 / 5) (eligible range ss) with
    | none =>
      rw [search_of_scan_none hss false hscan] at htarget
      cases htarget
    | some a =>
      obtain ⟨i, hsearch, hi, -⟩ := search_of_scan hss false hscan
      rw [hsearch] at htarget
      obtain rfl : i = j := PlayerRef.enemy.inj (Option.some.inj htarget)
      obtain rfl : a = s := Option.some.inj (hi.symm.trans hj)
      exact ⟨a, rfl, hle⟩
  · intro h hit₀ t hmem helig
    obtain ⟨a, hscan, hle⟩ := h t (mem_eligible.mpr ⟨hmem, helig⟩)
    obtain ⟨j, hsearch, hj, ha⟩ := search_of_scan hss hit₀ hscan
    exact ⟨j, a, by rw [hsearch], hj, ha, hle⟩

/-- Where the enemies that can be hit are spaced, their order plays no role. -/
theorem orderFree_of_spaced (h : Scan.Spaced Sighting.dist (1 / 5) (eligible range ss)) :
    OrderFree range ss := by
  intro hit₀ ss' hperm
  have hss' : ∀ s ∈ ss', 0 ≤ s.dist := fun s hs => hss s (hperm.mem_iff.mp hs)
  have hscan := Scan.scan_spaced (by norm_num) h
    (show (eligible range ss').Perm (eligible range ss) from hperm.filter _)
  have hdist : (search range hit₀ ss').dist = (search range hit₀ ss).dist := by
    cases hs : Scan.scan Sighting.dist (1 / 5) (eligible range ss) with
    | none =>
      rw [hs, Option.map_none, Option.map_eq_none_iff] at hscan
      rw [search_of_scan_none hss hit₀ hs, search_of_scan_none hss' hit₀ hscan]
    | some a =>
      rw [hs, Option.map_some, Option.map_eq_some_iff] at hscan
      obtain ⟨b, hb, hba⟩ := hscan
      obtain ⟨i, hsearch, -⟩ := search_of_scan hss hit₀ hs
      obtain ⟨j, hsearch', -⟩ := search_of_scan hss' hit₀ hb
      rw [hsearch, hsearch']
      exact hba
  refine ⟨hdist, fun ray => ?_⟩
  rw [hdist]

/-- An enemy that is close behind the nearest one is hit when it is the last of the array. -/
theorem spaced_of_orderFree (hnear : AimsNearest range ss) (hfree : OrderFree range ss) :
    Scan.Spaced Sighting.dist (1 / 5) (eligible range ss) := by
  intro a ha hmin b hb
  by_contra hclose
  rw [not_or, not_le] at hclose
  obtain ⟨c, hscan, hca⟩ := (aimsNearest_iff_scan hss).mp hnear a ha
  have hc : c.dist = a.dist := le_antisymm hca (hmin c (Scan.scan_mem hscan))
  obtain ⟨i, hsearch, -⟩ := search_of_scan hss false hscan
  obtain ⟨front, back, rfl⟩ := List.append_of_mem (mem_eligible.mp hb).1
  have hperm : (front ++ back ++ [b]).Perm (front ++ b :: back) := by
    rw [List.append_assoc]
    exact (List.perm_append_singleton b back).append_left front
  have hlast : eligible range (front ++ back ++ [b]) = eligible range (front ++ back) ++ [b] := by
    simp [eligible, (mem_eligible.mp hb).2]
  have hrotate : Scan.scan Sighting.dist (1 / 5) (eligible range (front ++ back ++ [b])) =
      some b := by
    rw [hlast]
    refine Scan.scan_rotate fun x hx => lt_of_lt_of_le hclose.2 ?_
    have hx' := mem_eligible.mp hx
    have hxa := hmin x (mem_eligible.mpr ⟨by
      rcases List.mem_append.mp hx'.1 with h | h <;> simp [h], hx'.2⟩)
    linarith
  obtain ⟨j, hsearch', -⟩ := search_of_scan
    (fun s hs => hss s (hperm.mem_iff.mp hs)) false hrotate
  have hdist := (hfree false _ hperm).1
  rw [hsearch, hsearch', hc] at hdist
  exact hclose.1 hdist

end

/-- **The target of a shot.**  The search finds the nearest enemy that can be hit exactly when
all that can be hit and stand behind the last nearest one in the array are at least `0.2`
farther away.  It does so, with a distance that does not depend on the order of the array,
exactly when no enemy that can be hit is farther away than the nearest by less than that. -/
theorem search_nearest_iff (range : K) (ss : List (Sighting K)) (hss : ∀ s ∈ ss, 0 ≤ s.dist) :
    (AimsNearest range ss ↔
      eligible range ss = [] ∨ Scan.LastNearest Sighting.dist (1 / 5) (eligible range ss)) ∧
    (AimsNearest range ss ∧ OrderFree range ss ↔
      Scan.Spaced Sighting.dist (1 / 5) (eligible range ss)) := by
  have hnear : AimsNearest range ss ↔
      eligible range ss = [] ∨ Scan.LastNearest Sighting.dist (1 / 5) (eligible range ss) :=
    (aimsNearest_iff_scan hss).trans (Scan.scan_nearest_iff (by norm_num) _)
  refine ⟨hnear, ?_, ?_⟩
  · rintro ⟨h, hfree⟩
    exact spaced_of_orderFree hss h hfree
  · intro h
    refine ⟨hnear.mpr ?_, orderFree_of_spaced hss h⟩
    by_cases hempty : eligible range ss = []
    · exact Or.inl hempty
    · exact Or.inr (h.lastNearest hempty)

end

/-- Two enemies in front of the player, one behind the other by a tenth. -/
def oneBehind : List (Sighting ℚ) := [⟨true, true, 1⟩, ⟨true, true, 11 / 10⟩]

/-- Two enemies that are well apart, the nearer one first. -/
theorem search_nearest_iff_apart :
    AimsNearest 10 [⟨true, true, 1⟩, ⟨true, true, (3 : ℚ)⟩] ∧
      OrderFree 10 [⟨true, true, 1⟩, ⟨true, true, (3 : ℚ)⟩] := by
  refine (search_nearest_iff 10 [⟨true, true, 1⟩, ⟨true, true, (3 : ℚ)⟩] ?_).2.mpr ?_
  · decide +kernel
  · unfold Scan.Spaced
    decide +kernel

/-- The farther one of two enemies is hit, and in the other order the nearer one. -/
theorem oneBehind_not_aimsNearest : ¬ AimsNearest 10 oneBehind ∧ ¬ OrderFree 10 oneBehind := by
  constructor
  · intro h
    obtain ⟨j, s, htarget, hj, -, hle⟩ := h false ⟨true, true, 1⟩ (by decide +kernel)
      (by decide +kernel)
    have hfar : (search 10 false oneBehind).target = some (.enemy 1) := by decide +kernel
    obtain rfl : 1 = j := PlayerRef.enemy.inj (Option.some.inj (hfar.symm.trans htarget))
    obtain rfl : (⟨true, true, 11 / 10⟩ : Sighting ℚ) = s := Option.some.inj hj
    revert hle
    decide +kernel
  · intro h
    have hdist := (h false oneBehind.reverse (List.reverse_perm _)).1
    revert hdist
    decide +kernel

section

variable {K : Type*} [Field K] [LinearOrder K] [FloorRing K]

/-! ### The search in a shot -/

/-- How far a shot of a player goes. -/
def shotRange (ply : PlayerInfo K) : K := ((ply.gunAt ply.gunIndex).gun.range : ℚ)

/-- What the search reads of a player. -/
def sighting (l : Libm K) (ply : PlayerInfo K) (target : PlayerInfo K) : Sighting K where
  alive := target.health > 0
  inView := (hitPlayer l ply target).1
  dist := (hitPlayer l ply target).2

theorem aimAt_eq (l : Libm K) (w : World K) (ply : PlayerInfo K) (a : Aim K) (r : PlayerRef) :
    aimAt l w ply a r = aimAtSighting (shotRange ply) a
      (r, sighting l ply (w.get r)) := by
  simp [aimAt, aimAtSighting, sighting, shotRange]

theorem candidates_sightings (l : Libm K) (w : World K) (ply : PlayerInfo K) :
    candidates (w.enemies.map (sighting l ply)) =
      ((List.range w.enemies.length).map PlayerRef.enemy).map fun r =>
        (r, sighting l ply (w.get r)) := by
  refine List.ext_getElem (by simp [candidates]) fun i h1 h2 => ?_
  have hi : i < w.enemies.length := by simpa [candidates] using h1
  simp [candidates, World.get, hi]

/-- What the search of a bullet leaves in `hit`, `hit_target` and `dist`. -/
def aimOf (e : Env K) (ref : PlayerRef) (i : ℕ) (w : World K) : Aim K :=
  (targets w (w.get ref)).foldl (aimAt e.libm w (w.get ref))
    { hit := e.unassignedHit w i, target := none, dist := -1 }

/-- The search of a bullet of the local player is the search through the enemies. -/
theorem aimOf_player (e : Env K) {ref : PlayerRef} (i : ℕ) {w : World K}
    (href : (w.get ref).type = .player) :
    aimOf e ref i w = search (shotRange (w.get ref))
      (e.unassignedHit w i) (w.enemies.map (sighting e.libm (w.get ref))) := by
  rw [search, candidates_sightings, List.foldl_map, aimOf, targets, if_pos href]
  congr 1
  funext a r
  exact aimAt_eq e.libm w (w.get ref) a r

/-! ### A miss -/

/-- The ray that looks for a wall in front of a bullet. -/
def wallRay (e : Env K) (ref : PlayerRef) (w : World K) : RayHit K :=
  e.shootRay w.map (w.get ref).position (w.get ref).direction
    (shotRange (w.get ref))

/-- What a bullet finds in `hit` at its end. -/
def hitFlag (e : Env K) (ref : PlayerRef) (i : ℕ) (w : World K) : Bool :=
  if (wallRay e ref w).hit ∧ (wallRay e ref w).distance < (aimOf e ref i w).dist then false
  else (aimOf e ref i w).hit

/-- The pointer that a bullet follows, if `hit` is set at its end. -/
def followed (e : Env K) (ref : PlayerRef) (i : ℕ) (w : World K) : Option (Option PlayerRef) :=
  if hitFlag e ref i w then some (aimOf e ref i w).target else none

/-- **A bullet is the search, the test for a wall, and what is done to the target.** -/
theorem bullet_eq (e : Env K) (ref : PlayerRef) (i : ℕ) (w : World K) :
    bullet e ref i w = (followed e ref i w).elim w fun target =>
      strike ((w.get ref).gunAt (w.get ref).gunIndex).gun.damage true target w := by
  have hbullet : bullet e ref i w = strike ((w.get ref).gunAt (w.get ref).gunIndex).gun.damage
      (hitFlag e ref i w) (aimOf e ref i w).target w := rfl
  rw [hbullet, followed]
  cases hitFlag e ref i w with
  | false => rfl
  | true => rfl

/-- No player can be hit. -/
def NoTarget (e : Env K) (ref : PlayerRef) (w : World K) : Prop :=
  ∀ r ∈ targets w (w.get ref),
    ¬ (sighting e.libm (w.get ref) (w.get r)).Eligible (shotRange (w.get ref))

/-- A bullet misses: no player can be hit, or a wall is nearer than the one that is chosen. -/
def Misses (e : Env K) (ref : PlayerRef) (i : ℕ) (w : World K) : Prop :=
  NoTarget e ref w ∨
    ((wallRay e ref w).hit ∧ (wallRay e ref w).distance < (aimOf e ref i w).dist)

/-- If the bullet misses, it follows no pointer to a target, and everybody is as before. -/
def MissSpares (e : Env K) (ref : PlayerRef) (i : ℕ) (w : World K) : Prop :=
  Misses e ref i w → followed e ref i w = none ∧
    ∀ s, ((bullet e ref i w).get s).health = (w.get s).health ∧
      ((bullet e ref i w).get s).armor = (w.get s).armor

/-- The memory of `hit` held that something was hit, and nothing changes this: no player can
be hit, and there is no wall that is nearer than `-1`, the distance of no target. -/
def FlagLeft (e : Env K) (ref : PlayerRef) (i : ℕ) (w : World K) : Prop :=
  NoTarget e ref w ∧ e.unassignedHit w i = true ∧
    ¬ ((wallRay e ref w).hit ∧ (wallRay e ref w).distance < -1)

/-- Without a target, the variables of the search keep what they hold. -/
theorem aimOf_noTarget {e : Env K} {ref : PlayerRef} {w : World K} (h : NoTarget e ref w) (i : ℕ) :
    aimOf e ref i w = { hit := e.unassignedHit w i, target := none, dist := -1 } := by
  have hfold : ∀ (rs : List PlayerRef) (a : Aim K), (∀ r ∈ rs,
      ¬ (sighting e.libm (w.get ref) (w.get r)).Eligible (shotRange (w.get ref))) →
      rs.foldl (aimAt e.libm w (w.get ref)) a = a := by
    intro rs
    induction rs with
    | nil => intro a _; rfl
    | cons r rs ih =>
      intro a hrs
      have hr : aimAt e.libm w (w.get ref) a r = a := by
        rw [aimAt_eq, aimAtSighting, if_neg]
        rintro ⟨h1, h2, h3, -⟩
        exact hrs r List.mem_cons_self ⟨h1, h2, h3⟩
      rw [List.foldl_cons, hr]
      exact ih a fun s hs => hrs s (List.mem_cons_of_mem r hs)
  exact hfold _ _ h

theorem hitFlag_noTarget {e : Env K} {ref : PlayerRef} {i : ℕ} {w : World K}
    (h : NoTarget e ref w) :
    hitFlag e ref i w = true ↔ e.unassignedHit w i = true ∧
      ¬ ((wallRay e ref w).hit ∧ (wallRay e ref w).distance < -1) := by
  rw [hitFlag, aimOf_noTarget h]
  by_cases hwall : (wallRay e ref w).hit ∧ (wallRay e ref w).distance < -1
  · simp [hwall]
  · rw [if_neg hwall]
    simp [hwall]

/-- **A bullet that misses hurts nobody**, unless the flag was left. -/
theorem missSpares_iff (e : Env K) (ref : PlayerRef) (i : ℕ) (w : World K) :
    MissSpares e ref i w ↔ ¬ FlagLeft e ref i w := by
  constructor
  · rintro hspares ⟨hnone, hleft⟩
    have hfollowed := (hspares (Or.inl hnone)).1
    rw [followed, if_pos ((hitFlag_noTarget hnone).mpr hleft)] at hfollowed
    cases hfollowed
  · intro hleft hmiss
    have hflag : hitFlag e ref i w = false := by
      rcases hmiss with hnone | hwall
      · rw [← Bool.not_eq_true, hitFlag_noTarget hnone]
        exact fun h => hleft ⟨hnone, h⟩
      · exact if_pos hwall
    have hfollowed : followed e ref i w = none := by rw [followed, hflag]; rfl
    refine ⟨hfollowed, fun s => ?_⟩
    rw [bullet_eq, hfollowed]
    exact ⟨rfl, rfl⟩

/-- The bullets of a shot, each with the world it is fired in: `fireLoop`, with a record. -/
def bullets (e : Env K) (ref : PlayerRef) : ℕ → ℕ → World K → List (ℕ × World K)
  | 0, _, _ => []
  | n + 1, i, w =>
    if ((w.get ref).gunAt (w.get ref).gunIndex).currAmmo > 0 then
      (i, w) :: bullets e ref n (i + 1) ((bullet e ref i w).modify ref fun p =>
        p.modifyGun fun g => { g with currAmmo := g.currAmmo - 1 })
    else []

/-- The bullets of one call of `fire`. -/
def shotBullets (e : Env K) (ref : PlayerRef) (w : World K) : List (ℕ × World K) :=
  let gunInst := (w.get ref).gunAt (w.get ref).gunIndex
  if gunInst.state ≠ .ready then []
  else bullets e ref gunInst.gun.ammoPerFire 0
    (w.modify ref fun p => p.modifyGun fun g => { g with currAnim := 1 })

/-! ### The null pointer -/

section

variable [IsStrictOrderedRing K]

/-- Where a player can be hit, one is found. -/
theorem aimOf_target {e : Env K} {ref : PlayerRef} {w : World K} (h : ¬ NoTarget e ref w) (i : ℕ) :
    (aimOf e ref i w).target ≠ none := by
  have hfold : ∀ (rs : List PlayerRef) (a : Aim K), (a.target ≠ none ∨ a.dist < 0 ∧ ∃ r ∈ rs,
      (sighting e.libm (w.get ref) (w.get r)).Eligible (shotRange (w.get ref))) →
      (rs.foldl (aimAt e.libm w (w.get ref)) a).target ≠ none := by
    intro rs
    induction rs with
    | nil =>
      rintro a (ha | ⟨-, r, hr, -⟩)
      · exact ha
      · cases hr
    | cons s rs ih =>
      intro a ha
      rw [List.foldl_cons, aimAt_eq]
      apply ih
      unfold aimAtSighting
      split
      · exact Or.inl (Option.some_ne_none s)
      · next hskip =>
        rcases ha with ha | ⟨hdist, r, hr, helig⟩
        · exact Or.inl ha
        · rcases List.mem_cons.mp hr with rfl | hr
          · exact absurd ⟨helig.1, helig.2.1, helig.2.2, Or.inl hdist⟩ hskip
          · exact Or.inr ⟨hdist, r, hr, helig⟩
  simp only [NoTarget, not_forall, not_not] at h
  obtain ⟨r, hr, helig⟩ := h
  refine hfold _ _ (Or.inr ⟨?_, r, hr, helig⟩)
  exact neg_one_lt_zero

/-- The flag is left exactly when a bullet follows the null pointer. -/
theorem flagLeft_iff (e : Env K) (ref : PlayerRef) (i : ℕ) (w : World K) :
    FlagLeft e ref i w ↔ followed e ref i w = some none := by
  by_cases hnone : NoTarget e ref w
  · have hflag := hitFlag_noTarget (i := i) hnone
    rw [followed, aimOf_noTarget hnone]
    by_cases h : hitFlag e ref i w = true
    · rw [if_pos h]
      exact ⟨fun _ => rfl, fun _ => ⟨hnone, hflag.mp h⟩⟩
    · rw [if_neg h]
      exact ⟨fun hleft => absurd (hflag.mpr hleft.2) h, nofun⟩
  · refine ⟨fun hleft => absurd hleft.1 hnone, fun hfollowed => ?_⟩
    rw [followed] at hfollowed
    split at hfollowed
    · exact absurd (Option.some.inj hfollowed) (aimOf_target hnone i)
    · cases hfollowed

theorem nullTarget_modify (w : World K) (r : PlayerRef) (f : PlayerInfo K → PlayerInfo K) :
    (w.modify r f).nullTarget = w.nullTarget := by
  cases r <;> rfl

theorem nullTarget_bullet (e : Env K) (ref : PlayerRef) (i : ℕ) (w : World K) :
    (bullet e ref i w).nullTarget = true ↔ w.nullTarget = true ∨ FlagLeft e ref i w := by
  rw [flagLeft_iff, bullet_eq]
  cases hfollowed : followed e ref i w with
  | none => simp
  | some target =>
    cases target with
    | none => simp [strike]
    | some r => simp [strike, nullTarget_modify]

/-- **A shot follows the null pointer exactly when** the flag is left for one of its bullets. -/
theorem nullTarget_fireLoop (e : Env K) (ref : PlayerRef) : ∀ (n i : ℕ) (w : World K),
    (fireLoop e ref n i w).nullTarget = true ↔
      w.nullTarget = true ∨ ∃ b ∈ bullets e ref n i w, FlagLeft e ref b.1 b.2 := by
  intro n
  induction n with
  | zero => intro i w; simp [fireLoop, bullets]
  | succ n ih =>
    intro i w
    rw [fireLoop, bullets]
    split
    · rw [ih, nullTarget_modify, nullTarget_bullet, List.exists_mem_cons_iff, or_assoc]
    · simp

end

/-- **A shot that misses.**  Every bullet of a shot that misses leaves everybody as before and
follows no pointer to a target exactly when none of the bullets that find no target has the
flag left. -/
theorem miss_spares_iff (e : Env K) (ref : PlayerRef) (w : World K) :
    (∀ b ∈ shotBullets e ref w, MissSpares e ref b.1 b.2) ↔
      ∀ b ∈ shotBullets e ref w, ¬ FlagLeft e ref b.1 b.2 :=
  forall₂_congr fun b _ => missSpares_iff e ref b.1 b.2

end

/-- The player of the first level, ready to shoot, with nobody in front of it. -/
def aloneWorld : World ℚ :=
  { emptyWorld with
    player := { PlayerInfo.zero with
      type := .player, health := 100, maxHealth := 100
      guns := [{ createGunInstance 0 10 0 with state := .ready }] } }

/-- A stack that holds something else than zero where `hit` is. -/
def dirtyStack : Env ℚ := { openField with unassignedHit := fun _ _ => true }

/-- A shot at nobody follows the null pointer. -/
theorem dirtyStack_not_spares :
    ¬ ∀ b ∈ shotBullets dirtyStack .player aloneWorld, MissSpares dirtyStack .player b.1 b.2 := by
  intro h
  have hmem :
      (0, aloneWorld.modify .player fun p => p.modifyGun fun g => { g with currAnim := 1 }) ∈
      shotBullets dirtyStack .player aloneWorld := List.mem_cons_self
  refine (missSpares_iff _ _ _ _).mp (h _ hmem) ⟨nofun, rfl, ?_⟩
  rintro ⟨hwall, -⟩
  cases hwall

end OperationMinix
