import OperationMinix.Lib.VideoGraphics
import OperationMinix.Player.World
import OperationMinix.Runs.Insertion

/-!
# The order in which things are painted

`setup_renders` collects what is to be painted in an array that is not initialised, and
`renders_insert_sorted` keeps it sorted, the farthest first.  The value that is displaced
last is the garbage of the slot behind the sorted part: whatever it holds, the loop that
shifts the values ends there.

## Main definitions

* `rendersInsertSorted`, `setupRenders` — the two functions; they are `none` when they read
  or write behind the array.
* `paintable` — the values that are inserted at all.

## Main results

* `insertRender_append` — what the loops do to a sorted part with garbage behind it.
* `rendersInsertSorted_spec` — **one call is one insertion**, and writes one more slot.
* `painters_order` — **the array is sorted after any number of calls**, and there are slots
  enough for everything on the map.
-/

namespace OperationMinix

open Runs

set_option linter.unusedSectionVars false

section

variable {K : Type*} [Field K] [LinearOrder K]

/-- `render_t`. -/
structure Render (K : Type*) where
  hasSprite : Bool
  sprite : Option Sprite
  color : Color
  endPos : ℤ × ℤ
  offset : ℤ × ℤ
  boundingBox : ℤ × ℤ
  distance : K
  factor : K

/-- `renders[i] = value`, inside of the array. -/
def setRender (renders : List (Render K)) (i : ℕ) (value : Render K) : Option (List (Render K)) :=
  if i < renders.length then some (renders.set i value) else none

/-- The inner loop of `renders_insert_sorted`, with `n` slots left: `val` takes the place of
what is there, which takes the next place. -/
def shiftRenders : ℕ → ℕ → Render K → List (Render K) → Option (List (Render K))
  | 0, _, _, renders => some renders
  | n + 1, j, val, renders => do
    let temp ← renders[j]?
    let renders ← setRender renders j val
    if temp.distance ≤ 0 then some renders else shiftRenders n (j + 1) temp renders

/-- The outer loop of `renders_insert_sorted`, with `n` slots left. -/
def insertRender (size : ℕ) (value : Render K) :
    ℕ → ℕ → List (Render K) → Option (List (Render K))
  | 0, _, renders => some renders
  | n + 1, i, renders =>
    -- the last slot holds nothing yet
    if i = size - 1 then do
      let renders ← setRender renders i value
      insertRender size value n (i + 1) renders
    else do
      let render ← renders[i]?
      if render.distance < value.distance then shiftRenders (size - i) i value renders
      else insertRender size value n (i + 1) renders

/-- `renders_insert_sorted`, of the array and its `size`. -/
def rendersInsertSorted (value : Render K) (r : List (Render K) × ℕ) :
    Option (List (Render K) × ℕ) :=
  if value.distance ≤ 0 then some r
  else do
    let size := r.2 + 1
    let renders ← insertRender size value size 0 r.1
    some (renders, size)

/-- The body of the first loop of `setup_renders`; `renderPlayer` is `render_player`, with the
sprite of the player, its health and its armour, or `none` when it does not return `OK`. -/
def setupPlayer (renderPlayer : PlayerInfo K → Option (Render K × Render K × Render K))
    (r : List (Render K) × ℕ) (enemy : PlayerInfo K) : Option (List (Render K) × ℕ) :=
  if enemy.shouldRender then
    match renderPlayer enemy with
    | none => some r
    | some (playerRender, healthRender, armorRender) => do
      let r ← rendersInsertSorted playerRender r
      let r ← rendersInsertSorted healthRender r
      rendersInsertSorted armorRender r
  else some r

/-- The body of the second loop of `setup_renders`; `renderPickup` is `render_pickup`. -/
def setupPickup (renderPickup : Pickup K → Option (Render K)) (r : List (Render K) × ℕ)
    (pickup : Pickup K) : Option (List (Render K) × ℕ) :=
  if pickup.pickedUp then some r
  else
    match renderPickup pickup with
    | none => some r
    | some pickupRender => rendersInsertSorted pickupRender r

/-- `setup_renders`; the first slot of the pickups is not used. -/
def setupRenders (renderPlayer : PlayerInfo K → Option (Render K × Render K × Render K))
    (renderPickup : Pickup K → Option (Render K)) (w : World K) (renders : List (Render K)) :
    Option (List (Render K) × ℕ) := do
  let r ← w.enemies.foldlM (setupPlayer renderPlayer) (renders, 0)
  (w.pickups.pickups.drop 1).foldlM (setupPickup renderPickup) r

/-! ### One insertion -/

theorem setRender_append (front rest : List (Render K)) (a value : Render K) :
    setRender (front ++ a :: rest) front.length value = some (front ++ value :: rest) := by
  simp [setRender]

theorem getElem?_front (front rest : List (Render K)) (a : Render K) :
    (front ++ a :: rest)[front.length]? = some a := by
  simp

/-- The values of the sorted part move by one, and the garbage behind it is overwritten. -/
theorem shiftRenders_append : ∀ (sorted front rest : List (Render K)) (garbage val : Render K),
    (∀ a ∈ sorted, 0 < a.distance) →
    shiftRenders (sorted.length + 1) front.length val (front ++ (sorted ++ garbage :: rest)) =
      some (front ++ val :: (sorted ++ rest)) := by
  intro sorted
  induction sorted with
  | nil =>
    intro front rest garbage val _
    simp [shiftRenders, setRender]
  | cons a sorted ih =>
    intro front rest garbage val hpos
    have ha : ¬ a.distance ≤ 0 := not_le_of_gt (hpos a List.mem_cons_self)
    have hnext := ih (front ++ [val]) rest garbage a fun b hb => hpos b (List.mem_cons_of_mem a hb)
    rw [List.length_append, List.length_singleton, List.append_assoc, List.append_assoc] at hnext
    rw [List.length_cons, shiftRenders, List.cons_append, getElem?_front]
    simp only [Option.bind_eq_bind, Option.bind_some, setRender_append, if_neg ha]
    exact hnext

/-- **The loops of `renders_insert_sorted`**, with garbage behind the sorted part. -/
theorem insertRender_append {size : ℕ} {value : Render K} : ∀ (sorted front rest : List (Render K))
    (garbage : Render K), (∀ a ∈ sorted, 0 < a.distance) →
    size = front.length + (sorted.length + 1) →
    insertRender size value (sorted.length + 1) front.length
        (front ++ (sorted ++ garbage :: rest)) =
      some (front ++ (Insertion.insert Render.distance value sorted ++ rest)) := by
  intro sorted
  induction sorted with
  | nil =>
    intro front rest garbage _ hsize
    have hlast : front.length = size - 1 := by simp at hsize; omega
    rw [List.length_nil, insertRender, if_pos hlast, List.nil_append, setRender_append]
    rfl
  | cons a sorted ih =>
    intro front rest garbage hpos hsize
    rw [List.length_cons] at hsize
    have hlast : front.length ≠ size - 1 := by omega
    have htail : ∀ b ∈ sorted, 0 < b.distance := fun b hb => hpos b (List.mem_cons_of_mem a hb)
    rw [List.length_cons, insertRender, if_neg hlast, List.cons_append, getElem?_front]
    simp only [Option.bind_eq_bind, Option.bind_some]
    rw [Insertion.insert_cons]
    split
    · -- `value` goes here, and everything from here on moves
      have hleft : size - front.length = (a :: sorted).length + 1 := by
        rw [List.length_cons]
        omega
      rw [hleft]
      exact shiftRenders_append (a :: sorted) front rest garbage value hpos
    · have hnext := ih (front ++ [a]) rest garbage htail (by simp; omega)
      rw [List.length_append, List.length_singleton, List.append_assoc, List.append_assoc] at hnext
      exact hnext

/-- The values that are inserted at all. -/
def paintable (vs : List (Render K)) : List (Render K) := vs.filter fun v => 0 < v.distance

/-- The array `r` holds `sorted`, and behind it what `renders` holds there. -/
structure Holds (renders : List (Render K)) (r : List (Render K) × ℕ) (sorted : List (Render K)) :
    Prop where
  size : r.2 = sorted.length
  array : r.1 = sorted ++ renders.drop sorted.length

variable {renders sorted : List (Render K)} {r : List (Render K) × ℕ}

/-- **One call is one insertion**, and it needs one more slot. -/
theorem rendersInsertSorted_spec (hr : Holds renders r sorted)
    (hpos : ∀ a ∈ sorted, 0 < a.distance) {value : Render K} (hvalue : 0 < value.distance)
    (hroom : sorted.length < renders.length) :
    ∃ r', rendersInsertSorted value r = some r' ∧
      Holds renders r' (Insertion.insert Render.distance value sorted) := by
  obtain ⟨array, size⟩ := r
  obtain ⟨rfl, rfl⟩ : size = sorted.length ∧ array = sorted ++ renders.drop sorted.length :=
    ⟨hr.size, hr.array⟩
  have hinsert : insertRender (sorted.length + 1) value (sorted.length + 1) 0
      (sorted ++ renders[sorted.length] :: renders.drop (sorted.length + 1)) =
        some (Insertion.insert Render.distance value sorted ++ renders.drop (sorted.length + 1)) :=
    insertRender_append sorted [] _ _ hpos (by simp)
  rw [← List.drop_eq_getElem_cons hroom] at hinsert
  refine ⟨(Insertion.insert Render.distance value sorted ++ renders.drop (sorted.length + 1),
    sorted.length + 1), ?_, ?_, ?_⟩
  · rw [rendersInsertSorted, if_neg (not_le_of_gt hvalue)]
    simp only [hinsert, Option.bind_eq_bind, Option.bind_some]
  · exact (Insertion.length_insert value sorted).symm
  · rw [Insertion.length_insert]

/-! ### All insertions -/

/-- The array holds what can be painted of the values that have been inserted. -/
def Lists (renders : List (Render K)) (r : List (Render K) × ℕ) (vs : List (Render K)) : Prop :=
  Holds renders r (Insertion.sort Render.distance (paintable vs))

theorem paintable_append (us vs : List (Render K)) :
    paintable (us ++ vs) = paintable us ++ paintable vs := List.filter_append _ _

theorem distance_pos {us : List (Render K)} :
    ∀ a ∈ Insertion.sort Render.distance (paintable us), 0 < a.distance := by
  intro a ha
  have hmem := (Insertion.sort_perm (d := Render.distance) (paintable us)).mem_iff.mp ha
  simpa using (List.mem_filter.mp hmem).2

theorem Lists.insert {us : List (Render K)} (h : Lists renders r us) (value : Render K)
    (hroom : (paintable (us ++ [value])).length ≤ renders.length) :
    ∃ r', rendersInsertSorted value r = some r' ∧ Lists renders r' (us ++ [value]) := by
  unfold Lists at h ⊢
  rw [paintable_append] at hroom ⊢
  by_cases hvalue : 0 < value.distance
  · have hlast : paintable [value] = [value] := by simp [paintable, hvalue]
    rw [hlast, List.length_append, List.length_singleton] at hroom
    rw [hlast, Insertion.sort_append_singleton]
    refine rendersInsertSorted_spec h distance_pos hvalue ?_
    rw [Insertion.length_sort]
    exact hroom
  · have hlast : paintable [value] = [] := by simp [paintable, hvalue]
    rw [hlast, List.append_nil]
    exact ⟨r, if_pos (not_lt.mp hvalue), h⟩

/-- **Any number of calls.** -/
theorem Lists.foldlM : ∀ (vs us : List (Render K)) (r : List (Render K) × ℕ), Lists renders r us →
    (paintable (us ++ vs)).length ≤ renders.length →
    ∃ r', vs.foldlM (fun r v => rendersInsertSorted v r) r = some r' ∧
      Lists renders r' (us ++ vs) := by
  intro vs
  induction vs with
  | nil =>
    intro us r h _
    rw [List.append_nil]
    exact ⟨r, rfl, h⟩
  | cons v vs ih =>
    intro us r h hroom
    rw [← List.singleton_append, ← List.append_assoc] at hroom ⊢
    have hone : (paintable (us ++ [v])).length ≤ renders.length := by
      rw [paintable_append, List.length_append] at hroom
      omega
    obtain ⟨r', hr', hlists⟩ := h.insert v hone
    obtain ⟨r'', hr'', hall⟩ := ih (us ++ [v]) r' hlists hroom
    refine ⟨r'', ?_, hall⟩
    rw [List.singleton_append, List.foldlM_cons, hr']
    exact hr''

theorem Lists.start (renders : List (Render K)) : Lists renders (renders, 0) [] :=
  ⟨rfl, by simp [paintable, Insertion.sort]⟩

/-! ### What is on the map -/

/-- What `setup_renders` inserts for a player. -/
def playerValues (renderPlayer : PlayerInfo K → Option (Render K × Render K × Render K))
    (enemy : PlayerInfo K) : List (Render K) :=
  if enemy.shouldRender then
    match renderPlayer enemy with
    | none => []
    | some (playerRender, healthRender, armorRender) => [playerRender, healthRender, armorRender]
  else []

/-- What `setup_renders` inserts for a pickup. -/
def pickupValues (renderPickup : Pickup K → Option (Render K)) (pickup : Pickup K) :
    List (Render K) :=
  if pickup.pickedUp then [] else (renderPickup pickup).toList

/-- All that `setup_renders` inserts. -/
def renderValues (renderPlayer : PlayerInfo K → Option (Render K × Render K × Render K))
    (renderPickup : Pickup K → Option (Render K)) (w : World K) : List (Render K) :=
  w.enemies.flatMap (playerValues renderPlayer) ++
    (w.pickups.pickups.drop 1).flatMap (pickupValues renderPickup)

theorem foldlM_flatMap {A B S : Type*} (f : S → B → Option S) (g : A → List B) :
    ∀ (l : List A) (s : S),
      (l.flatMap g).foldlM f s = l.foldlM (fun s a => (g a).foldlM f s) s := by
  intro l
  induction l with
  | nil => intro s; rfl
  | cons a l ih =>
    intro s
    rw [List.flatMap_cons, List.foldlM_append, List.foldlM_cons]
    exact congrArg _ (funext ih)

theorem setupRenders_eq (renderPlayer : PlayerInfo K → Option (Render K × Render K × Render K))
    (renderPickup : Pickup K → Option (Render K)) (w : World K) (renders : List (Render K)) :
    setupRenders renderPlayer renderPickup w renders =
      (renderValues renderPlayer renderPickup w).foldlM (fun r v => rendersInsertSorted v r)
        (renders, 0) := by
  have hplayer : setupPlayer renderPlayer = fun r enemy =>
      (playerValues renderPlayer enemy).foldlM (fun r v => rendersInsertSorted v r) r := by
    funext r enemy
    unfold setupPlayer playerValues
    split
    · cases renderPlayer enemy with
      | none => rfl
      | some values => simp
    · rfl
  have hpickup : setupPickup renderPickup = fun r pickup =>
      (pickupValues renderPickup pickup).foldlM (fun r v => rendersInsertSorted v r) r := by
    funext r pickup
    unfold setupPickup pickupValues
    split
    · rfl
    · cases renderPickup pickup with
      | none => rfl
      | some value => simp
  rw [setupRenders, renderValues, List.foldlM_append, foldlM_flatMap, hplayer, hpickup]
  exact congrArg _ (funext fun r => (foldlM_flatMap _ _ _ r).symm)

theorem length_playerValues (renderPlayer : PlayerInfo K → Option (Render K × Render K × Render K))
    (enemy : PlayerInfo K) : (playerValues renderPlayer enemy).length ≤ 3 := by
  unfold playerValues
  split
  · split <;> simp
  · simp

theorem length_pickupValues (renderPickup : Pickup K → Option (Render K)) (pickup : Pickup K) :
    (pickupValues renderPickup pickup).length ≤ 1 := by
  unfold pickupValues
  split
  · simp
  · cases renderPickup pickup <;> simp

theorem length_flatMap_le {A B : Type*} {g : A → List B} {k : ℕ} (hg : ∀ a, (g a).length ≤ k) :
    ∀ l : List A, (l.flatMap g).length ≤ k * l.length := by
  intro l
  induction l with
  | nil => simp
  | cons a l ih =>
    have hone := hg a
    rw [List.flatMap_cons, List.length_append, List.length_cons, Nat.mul_succ]
    omega

/-- Three values for every enemy and one for every pickup are enough. -/
theorem length_renderValues (renderPlayer : PlayerInfo K → Option (Render K × Render K × Render K))
    (renderPickup : Pickup K → Option (Render K)) (w : World K) :
    (renderValues renderPlayer renderPickup w).length ≤
      3 * w.enemies.length + w.pickups.pickups.length := by
  have hplayers := length_flatMap_le (length_playerValues renderPlayer) w.enemies
  have hpickups := length_flatMap_le (length_pickupValues renderPickup) (w.pickups.pickups.drop 1)
  rw [List.length_drop] at hpickups
  rw [renderValues, List.length_append]
  omega

/-- The first `size` values of an array that was `renders` are what can be painted of `vs`, the
farthest first and values that are equally far in the order of `vs`; the rest of the array is
as it was. -/
structure InPaintersOrder (renders vs : List (Render K)) (r : List (Render K) × ℕ) : Prop where
  size : r.2 = (paintable vs).length
  sorted : (r.1.take r.2).Pairwise fun a b => b.distance ≤ a.distance
  perm : (r.1.take r.2).Perm (paintable vs)
  stable : ∀ k, (r.1.take r.2).filter (fun v => v.distance = k) =
    (paintable vs).filter fun v => v.distance = k
  rest : r.1.drop r.2 = renders.drop r.2

theorem Lists.inPaintersOrder {vs : List (Render K)} (h : Lists renders r vs) :
    InPaintersOrder renders vs r := by
  have hlength : r.2 = (Insertion.sort Render.distance (paintable vs)).length := h.size
  have htake : r.1.take r.2 = Insertion.sort Render.distance (paintable vs) := by
    rw [h.array, hlength, List.take_left]
  have hdrop : r.1.drop r.2 = renders.drop r.2 := by
    rw [h.array, hlength, List.drop_left]
  refine ⟨hlength.trans (Insertion.length_sort _), ?_, ?_, fun k => ?_, hdrop⟩
  · rw [htake]
    exact Insertion.sort_sorted _
  · rw [htake]
    exact Insertion.sort_perm _
  · rw [htake]
    exact Insertion.sort_stable _ k

/-- **Painter's order.**  Whatever the array holds at first, after any calls of
`renders_insert_sorted` its first `size` values are those with a positive distance, sorted;
an array of just this size is not left, and what is behind `size` is not written.  The array
that `render_game` reserves has slots enough for `setup_renders`. -/
theorem painters_order :
    (∀ renders vs : List (Render K), (paintable vs).length ≤ renders.length →
      ∃ r, vs.foldlM (fun r v => rendersInsertSorted v r) (renders, 0) = some r ∧
        InPaintersOrder renders vs r) ∧
    ∀ (renderPlayer : PlayerInfo K → Option (Render K × Render K × Render K))
      (renderPickup : Pickup K → Option (Render K)) (w : World K) (renders : List (Render K)),
      renders.length = 3 * w.enemies.length + w.pickups.pickups.length →
      ∃ r, setupRenders renderPlayer renderPickup w renders = some r ∧
        InPaintersOrder renders (renderValues renderPlayer renderPickup w) r := by
  have hcalls : ∀ renders vs : List (Render K), (paintable vs).length ≤ renders.length →
      ∃ r, vs.foldlM (fun r v => rendersInsertSorted v r) (renders, 0) = some r ∧
        InPaintersOrder renders vs r := by
    intro renders vs hroom
    obtain ⟨r, hr, hlists⟩ := Lists.foldlM vs [] (renders, 0) (.start renders) hroom
    exact ⟨r, hr, hlists.inPaintersOrder⟩
  refine ⟨hcalls, fun renderPlayer renderPickup w renders hlen => ?_⟩
  rw [setupRenders_eq]
  refine hcalls renders _ ?_
  have hvalues := length_renderValues renderPlayer renderPickup w
  have hfilter := List.length_filter_le (fun v : Render K => decide (0 < v.distance))
    (renderValues renderPlayer renderPickup w)
  unfold paintable
  omega

end

/-- Something to paint at a distance. -/
def renderAt (distance : ℚ) : Render ℚ :=
  { hasSprite := false, sprite := none, color := 0, endPos := (0, 0), offset := (0, 0)
    boundingBox := (0, 0), distance, factor := 1 }

/-- Two things and one behind the camera, in an array of two slots, and an empty map. -/
theorem painters_order_two :
    (∃ r, [renderAt 1, renderAt (-1), renderAt 2].foldlM (fun r v => rendersInsertSorted v r)
        ([renderAt 7, renderAt 0], 0) = some r ∧
      InPaintersOrder [renderAt 7, renderAt 0] [renderAt 1, renderAt (-1), renderAt 2] r) ∧
    ∃ r, setupRenders (fun _ => none) (fun _ => none) emptyWorld [] = some r ∧
      InPaintersOrder [] (renderValues (fun _ => none) (fun _ => none) emptyWorld) r :=
  ⟨painters_order.1 [renderAt 7, renderAt 0] [renderAt 1, renderAt (-1), renderAt 2]
    (by decide +kernel),
    painters_order.2 (fun _ => none) (fun _ => none) emptyWorld [] rfl⟩

end OperationMinix
