import Mathlib.Algebra.Order.Group.Int
import Mathlib.Data.List.Range
import Mathlib.Order.Interval.Set.UnorderedInterval
import Mathlib.Tactic.Linarith

/-!
# Interpolation — a straight way between two points, in steps

The way from one point to another is divided into as many parts as it is long, and the points are
those after every so many parts, rounded down, and the end.  `Interpolates` says what such a path
should be, and `interpolates_path` that this one is.
-/

namespace Raster

/-! ## One coordinate -/

/-- After `s` parts of a way of length `d` that is divided into `n`. -/
def along (a d n s : ℤ) : ℤ :=
  a + d * s / n

section Along

variable {a d n s t : ℤ}

@[simp] theorem along_zero : along a d n 0 = a := by
  rw [along, mul_zero, Int.zero_ediv, add_zero]

theorem eq_zero_of_parts (h : |d| ≤ n) (hn : n = 0) : d = 0 := by
  rw [hn] at h
  exact abs_eq_zero.1 (le_antisymm h (abs_nonneg d))

/-- All parts of the way are the way, also where there is none to go. -/
theorem along_full (h : |d| ≤ n) : along a d n n = a + d := by
  by_cases hn : n = 0
  · rw [eq_zero_of_parts h hn, along, zero_mul, Int.zero_ediv]
  · rw [along, Int.mul_ediv_cancel d hn]

theorem along_le_along (hd : 0 ≤ d) (hn : 0 ≤ n) (hst : s ≤ t) : along a d n s ≤ along a d n t := by
  rcases hn.eq_or_lt with rfl | hpos
  · rw [along, along, Int.ediv_zero, Int.ediv_zero]
  · have hmul : d * s ≤ d * t := mul_le_mul_of_nonneg_left hst hd
    exact add_le_add le_rfl (Int.ediv_le_ediv hpos hmul)

theorem along_le_along_of_nonpos (hd : d ≤ 0) (hn : 0 ≤ n) (hst : s ≤ t) :
    along a d n t ≤ along a d n s := by
  rcases hn.eq_or_lt with rfl | hpos
  · rw [along, along, Int.ediv_zero, Int.ediv_zero]
  · have hmul : d * t ≤ d * s := mul_le_mul_of_nonpos_left hst hd
    exact add_le_add le_rfl (Int.ediv_le_ediv hpos hmul)

/-- A part is no longer than one. -/
theorem along_jump (h : |d| ≤ n) (hst : s ≤ t) : |along a d n t - along a d n s| ≤ t - s := by
  have hsub : 0 ≤ t - s := sub_nonneg.2 hst
  rcases (abs_nonneg d).trans h |>.eq_or_lt with hn | hpos
  · rw [eq_zero_of_parts h hn.symm, along, along, zero_mul, zero_mul, sub_self, abs_zero]
    exact hsub
  · rcases abs_le.1 h with ⟨hlow, hhigh⟩
    have hne : n ≠ 0 := ne_of_gt hpos
    -- Above and below by a whole number of divisors.
    have hbelow : d * t ≤ d * s + (t - s) * n := by
      have hmul : d * (t - s) ≤ n * (t - s) := mul_le_mul_of_nonneg_right hhigh hsub
      linarith
    have habove : d * s + -(t - s) * n ≤ d * t := by
      have hmul : -n * (t - s) ≤ d * (t - s) := mul_le_mul_of_nonneg_right hlow hsub
      linarith
    have hup := Int.ediv_le_ediv hpos hbelow
    have hdown := Int.ediv_le_ediv hpos habove
    rw [Int.add_mul_ediv_right _ _ hne] at hup hdown
    rw [along, along, abs_le]
    constructor
    · linarith
    · linarith

end Along

/-! ## The parts after which there is a point -/

/-- How many multiples of the step are there from zero up to but not including the end. -/
def steps (stop step : ℤ) : ℕ :=
  ((stop + step - 1) / step).toNat

/-- The multiples of the step below the end. -/
def multiples (stop step : ℤ) : List ℤ :=
  (List.range (steps stop step)).map fun k : ℕ => (k : ℤ) * step

/-- The multiples of the step below the end, and the end. -/
def marks (stop step : ℤ) : List ℤ :=
  multiples stop step ++ [stop]

section Marks

variable {stop step : ℤ}

theorem lt_steps_iff (hstep : 1 ≤ step) (k : ℕ) : k < steps stop step ↔ (k : ℤ) * step < stop := by
  rw [steps, Int.lt_toNat, ← Int.add_one_le_iff, Int.le_ediv_iff_mul_le (by linarith), add_mul,
    one_mul]
  constructor
  · intro h
    linarith
  · intro h
    linarith

theorem head?_marks (hstop : 0 ≤ stop) (hstep : 1 ≤ step) : (marks stop step).head? = some 0 := by
  cases hn : steps stop step with
  | zero =>
      -- Nothing is below the end, which is zero itself.
      have hzero : ¬ ((0 : ℕ) : ℤ) * step < stop := by
        rw [← lt_steps_iff hstep, hn]
        exact lt_irrefl 0
      have hstop' : stop = 0 := by
        rw [Nat.cast_zero, zero_mul] at hzero
        exact le_antisymm (not_lt.1 hzero) hstop
      rw [marks, multiples, hn, hstop']
      rfl
  | succ n =>
      rw [marks, multiples, hn, List.range_succ_eq_map]
      simp

theorem getLast?_marks : (marks stop step).getLast? = some stop := by
  rw [marks, List.getLast?_append]
  rfl

theorem mem_marks (hstop : 0 ≤ stop) (hstep : 1 ≤ step) {s : ℤ} (hs : s ∈ marks stop step) :
    0 ≤ s ∧ s ≤ stop := by
  rcases List.mem_append.1 hs with hmultiple | hend
  · rcases List.mem_map.1 hmultiple with ⟨k, hk, rfl⟩
    have hlt := (lt_steps_iff hstep k).1 (List.mem_range.1 hk)
    exact ⟨mul_nonneg (Int.natCast_nonneg k) (by linarith), hlt.le⟩
  · rw [List.mem_singleton.1 hend]
    exact ⟨hstop, le_rfl⟩

/-- From one mark to the next it is at most a step; the last one may be shorter. -/
theorem isChain_marks (hstep : 1 ≤ step) :
    (marks stop step).IsChain fun s t => s ≤ t ∧ t - s ≤ step := by
  have hnext (k : ℕ) : ((k + 1 : ℕ) : ℤ) * step = (k : ℤ) * step + step := by
    rw [Nat.cast_succ, add_mul, one_mul]
  refine List.isChain_append.2 ⟨?_, List.isChain_singleton _, ?_⟩
  · rw [multiples, List.isChain_map, List.isChain_range]
    intro k _
    rw [hnext]
    constructor
    · linarith
    · linarith
  · intro s hs t ht
    cases hn : steps stop step with
    | zero =>
        rw [multiples, hn] at hs
        cases hs
    | succ n =>
        have hlast : (n : ℤ) * step = s := by
          rw [multiples, hn, List.range_succ, List.map_append, List.getLast?_append] at hs
          exact Option.some.inj hs
        have hbelow : (n : ℤ) * step < stop := by
          rw [← lt_steps_iff hstep, hn]
          exact Nat.lt_succ_self n
        have habove : stop ≤ (n : ℤ) * step + step := by
          rw [← hnext, ← not_lt, ← lt_steps_iff hstep, hn]
          exact lt_irrefl _
        have hstop : stop = t := Option.some.inj ht
        rw [← hlast, ← hstop]
        constructor
        · linarith
        · linarith

theorem pairwise_marks (hstep : 1 ≤ step) : (marks stop step).Pairwise (· ≤ ·) := by
  refine List.isChain_iff_pairwise.1 ((isChain_marks hstep).imp ?_)
  exact fun _ _ h => h.1

end Marks

/-! ## Two coordinates -/

/-- From `p` to `q` it is not away from the target. -/
def Toward (start target p q : ℤ) : Prop :=
  (start ≤ target → p ≤ q) ∧ (target ≤ start → q ≤ p)

/-- A path from one point to another: it stays between them, turns back in neither axis, and goes
by at most a step in each. -/
structure Interpolates (start target : ℤ × ℤ) (step : ℤ) (path : List (ℤ × ℤ)) : Prop where
  starts : path.head? = some start
  ends : path.getLast? = some target
  inside : ∀ p ∈ path, p.1 ∈ Set.uIcc start.1 target.1 ∧ p.2 ∈ Set.uIcc start.2 target.2
  toward : path.Pairwise fun p q => Toward start.1 target.1 p.1 q.1 ∧ Toward start.2 target.2 p.2 q.2
  jumps : path.IsChain fun p q => |q.1 - p.1| ≤ step ∧ |q.2 - p.2| ≤ step

/-- The point after `s` of `n` parts. -/
def point (start target : ℤ × ℤ) (n s : ℤ) : ℤ × ℤ :=
  (along start.1 (target.1 - start.1) n s, along start.2 (target.2 - start.2) n s)

/-- The longer of the two ways. -/
def extent (start target : ℤ × ℤ) : ℤ :=
  max |target.1 - start.1| |target.2 - start.2|

def path (start target : ℤ × ℤ) (step : ℤ) : List (ℤ × ℤ) :=
  (marks (extent start target) step).map (point start target (extent start target))

section Path

variable {start target : ℤ × ℤ} {step : ℤ}

theorem extent_nonneg : 0 ≤ extent start target :=
  le_max_of_le_left (abs_nonneg _)

theorem le_extent_fst : |target.1 - start.1| ≤ extent start target :=
  le_max_left _ _

theorem le_extent_snd : |target.2 - start.2| ≤ extent start target :=
  le_max_right _ _

theorem point_zero {n : ℤ} : point start target n 0 = start := by
  rw [point, along_zero, along_zero]

theorem point_extent : point start target (extent start target) (extent start target) = target := by
  rw [point, along_full le_extent_fst, along_full le_extent_snd, add_sub_cancel, add_sub_cancel]

theorem toward_along {a b n s t : ℤ} (hn : 0 ≤ n) (hst : s ≤ t) :
    Toward a b (along a (b - a) n s) (along a (b - a) n t) :=
  ⟨fun h => along_le_along (sub_nonneg.2 h) hn hst,
    fun h => along_le_along_of_nonpos (sub_nonpos.2 h) hn hst⟩

/-- A coordinate between its first and its last value. -/
theorem along_mem_uIcc {a b n s : ℤ} (h : |b - a| ≤ n) (hlow : 0 ≤ s) (hhigh : s ≤ n) :
    along a (b - a) n s ∈ Set.uIcc a b := by
  have hn : 0 ≤ n := hlow.trans hhigh
  have hbefore := @toward_along a b n 0 s hn hlow
  have hafter := @toward_along a b n s n hn hhigh
  rw [along_zero] at hbefore
  rw [along_full h, add_sub_cancel] at hafter
  rcases le_total a b with hab | hba
  · rw [Set.uIcc_of_le hab]
    exact ⟨hbefore.1 hab, hafter.1 hab⟩
  · rw [Set.uIcc_of_ge hba]
    exact ⟨hafter.2 hba, hbefore.2 hba⟩

theorem interpolates_path (hstep : 1 ≤ step) :
    Interpolates start target step (path start target step) where
  starts := by
    rw [path, List.head?_map, head?_marks extent_nonneg hstep, Option.map_some, point_zero]
  ends := by
    rw [path, List.getLast?_map, getLast?_marks, Option.map_some, point_extent]
  inside := by
    intro p hp
    rcases List.mem_map.1 hp with ⟨s, hs, rfl⟩
    rcases mem_marks extent_nonneg hstep hs with ⟨hlow, hhigh⟩
    constructor
    · exact along_mem_uIcc le_extent_fst hlow hhigh
    · exact along_mem_uIcc le_extent_snd hlow hhigh
  toward := by
    refine List.pairwise_map.2 ((pairwise_marks hstep).imp ?_)
    intro s t hst
    exact ⟨toward_along extent_nonneg hst, toward_along extent_nonneg hst⟩
  jumps := by
    refine (List.isChain_map _).2 ((isChain_marks hstep).imp ?_)
    rintro s t ⟨hst, hle⟩
    constructor
    · exact (along_jump le_extent_fst hst).trans hle
    · exact (along_jump le_extent_snd hst).trans hle

end Path

end Raster
