import Mathlib.Algebra.Order.Floor.Ring
import Mathlib.Data.List.Range
import Mathlib.Tactic.FieldSimp
import Mathlib.Tactic.Linarith

/-!
# Uniform grids on a line

A grid cuts a line from `start` on into `count` cells of the same width.  `cell` is the index of the
cell nearest to a position, which is the cell that contains it where there is one.  A search for the
first cell whose upper end lies above the position finds this cell, for every position in front of
the end of the grid.
-/

/-- Finitely many cells of one width, side by side. -/
structure UniformGrid (K : Type*) [Field K] [LinearOrder K] where
  /-- The lower end of the first cell. -/
  start : K
  /-- The width of the cells. -/
  width : K
  /-- How many cells there are. -/
  count : ℕ
  /-- The cells have a width. -/
  width_pos : 0 < width
  /-- There is a cell. -/
  count_pos : 0 < count

namespace UniformGrid

variable {K : Type*} [Field K] [LinearOrder K] (g : UniformGrid K)

/-- The upper end of the last cell. -/
def finish : K := g.start + g.width * g.count

/-- The middle of a cell. -/
def centre (i : ℕ) : K := g.start + i * g.width + g.width / 2

/-- The first cell whose upper end lies above the position. -/
def search (v : K) : Option ℕ :=
  (List.range g.count).find? fun i => v < g.start + g.width * (i + 1)

/-- The cell nearest to a position. -/
def cell [FloorRing K] (v : K) : ℕ := min (g.count - 1) ⌊(v - g.start) / g.width⌋.toNat

/-- The nearest cell is a cell of the grid. -/
lemma cell_lt_count [FloorRing K] (v : K) : g.cell v < g.count := by
  have hpos := g.count_pos
  unfold cell
  omega

variable [IsStrictOrderedRing K]

/-- No cell has its upper end above a position behind the grid. -/
lemma search_eq_none {v : K} (h : g.finish ≤ v) : g.search v = none := by
  unfold search
  rw [List.find?_eq_none]
  intro i hi
  have hcount : (i : K) + 1 ≤ g.count := by
    exact_mod_cast List.mem_range.mp hi
  have hbound := mul_le_mul_of_nonneg_left hcount g.width_pos.le
  unfold finish at h
  simpa using le_trans (by linarith) h

variable [FloorRing K]

/-- The upper end of a cell lies above the position exactly if it is not in front of the cell that
contains the position. -/
lemma lt_upper_iff (v : K) (i : ℕ) :
    v < g.start + g.width * (i + 1) ↔ ⌊(v - g.start) / g.width⌋.toNat ≤ i := by
  have hwidth := g.width_pos
  rw [Int.toNat_le, ← Int.lt_add_one_iff, Int.floor_lt, div_lt_iff₀ hwidth, sub_lt_iff_lt_add']
  push_cast
  rw [mul_comm]

/-- **The search finds the nearest cell** of every position in front of the end of the grid. -/
theorem search_eq_cell {v : K} (h : v < g.finish) : g.search v = some (g.cell v) := by
  have hcell : ⌊(v - g.start) / g.width⌋.toNat ≤ g.count - 1 := by
    rw [← g.lt_upper_iff]
    have hcast : ((g.count - 1 : ℕ) : K) + 1 = g.count := by
      rw [← Nat.cast_succ, Nat.succ_eq_add_one, Nat.sub_add_cancel g.count_pos]
    rw [hcast]
    exact h
  have hlt := g.cell_lt_count v
  unfold search
  rw [List.find?_range_eq_some]
  unfold cell at hlt ⊢
  rw [min_eq_right hcell] at hlt ⊢
  refine ⟨?_, List.mem_range.mpr hlt, fun j hj => ?_⟩
  · exact decide_eq_true ((g.lt_upper_iff v _).mpr le_rfl)
  · simpa [g.lt_upper_iff] using hj

end UniformGrid
