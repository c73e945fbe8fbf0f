import NaoSoccer.Foundation.LabelledRun
import NaoSoccer.Foundation.Painting
import NaoSoccer.Tools.PixelStatistics

/-!
# Pruning a color table

`AnnotationAnalyzer` lists the cells of a color, the ones that spoil most pixels first, and can take
the first ones of the list out of the table: they become undefined.  The list of a color is kept
once it has been made.  The cells that were taken out stand on a stack, from which `undo` gives them
their color back and puts them in front of the list again.

A list of the undefined cells is not kept up to date when cells become undefined, and removing cells
from that very list shortens it and changes no cell.

The pointers to cells are the cells themselves.  Scores are quotients of counts in `double`; they
matter for the order of `std::sort` only, so the model takes any rearrangement of the list, and for
the comparison of a proportion with a percentage any test of the index and the number of cells.
-/

namespace NaoSoccer

open CountedLoop NarrowLoop ColorTableMethods Painting LabelledRun

/-- `YUV`, without the score -/
structure YUV where
  y : ℕ
  u : ℕ
  v : ℕ
  color : Color
  fpcount : ℕ
  tpcount : ℕ

/-- The place of the cell in a table. -/
def YUV.cell (point : YUV) : ℕ := cellIndex point.y point.u point.v

/-- `yuv->fpcount++` -/
def YUV.countFalse (point : YUV) : YUV := { point with fpcount := point.fpcount + 1 }

/-- `yuv->tpcount++` -/
def YUV.countTrue (point : YUV) : YUV := { point with tpcount := point.tpcount + 1 }

/-- `LUT_SIZE` -/
abbrev lutSize : ℕ := 128 * 128 * 128

/-- What may happen instead of a return. -/
inductive PruningFault
  | endless
  | nullPointer

/-- The fields of `AnnotationAnalyzer` for pruning; the last list on the stack comes first. -/
structure TablePruning extends AnnotationAnalyzer where
  pruningCache : Color → Option (List YUV)
  pruningStack : List (List YUV)

/-- A call.  A percentage is given as the test whether the proportion of an index exceeds it. -/
inductive PruningAct
  | getCriticalPoints (query : Color)
  | removeCriticalPoints (query : Color) (exceeds : ℕ → ℕ → Bool)
  | undo

namespace TablePruning

variable (methods : SelectionMethods) (sort : List YUV → List YUV) (passes : ℕ)

/-- The values of the loops over the table. -/
def steps : List ℕ := (List.range 128).map (2 * ·)

/-- The cells of a color in the order of the loops in `getCriticalPoints`. -/
def coloredCells (query : Color) (table : ColorTable) : List YUV :=
  steps.flatMap fun y => steps.flatMap fun u =>
    (steps.filter fun v => yuv2color table y u v = query.value).map fun v => ⟨y, u, v, query, 0, 0⟩

/-- The body of the loops over false and true positives: the cell of a pixel is found in `fpmap_`
and counts it. -/
def countPixel (f : LogImage) (count : YUV → YUV) (points : List YUV) (p : Point) :
    Except PruningFault (List YUV) :=
  if p.x ≥ f.width ∨ p.y ≥ f.height then .ok points
  else
    let yuv := xy2yuv f.image p.x p.y f.width
    let cell := cellIndex yuv.1.toNat yuv.2.1.toNat yuv.2.2.toNat
    if points.any (·.cell = cell) then
      .ok (points.map fun point => if point.cell = cell then count point else point)
    else .error .nullPointer

/-- The body of the loop over the images in `getCriticalPoints`. -/
def countImage (query : Color) (a : AnnotationAnalyzer) (points : List YUV) (image : LogImage × ℕ) :
    Except PruningFault (List YUV) := do
  let points ← (a.falsePositives methods query image.2 image.1).foldlM
    (countPixel image.1 YUV.countFalse) points
  (a.truePositives methods query image.2 image.1).foldlM (countPixel image.1 YUV.countTrue) points

/-- `AnnotationAnalyzer::getCriticalPoints` -/
def getCriticalPoints (query : Color) (s : TablePruning) :
    Except PruningFault (List YUV × TablePruning) :=
  match s.pruningCache query with
  | some points => .ok (points, s)
  | none =>
    match s.table with
    | none => .ok ([], s)
    | some table => do
      let counted ← forEach 16 .endless s.images.zipIdx
        (countImage methods query s.toAnnotationAnalyzer) passes 0 (coloredCells query table)
      let points := sort counted
      return (points, { s with pruningCache := Function.update s.pruningCache query (some points) })

/-- `ColorTableMethods::assignColor` on `table_` -/
def assign (point : YUV) (c : Color) (s : TablePruning) : TablePruning :=
  { s with table := s.table.map fun table => assignColor table point.y point.u point.v c }

/-- `pruningCache_[query]` is changed. -/
def changeCache (query : Color) (change : List YUV → List YUV) (s : TablePruning) : TablePruning :=
  { s with
    pruningCache := Function.update s.pruningCache query
      (some (change ((s.pruningCache query).getD []))) }

/-- The loop of `removeCriticalPoints`, with what has been removed so far. -/
def removeLoop (query : Color) (exceeds : ℕ → Bool) : ℕ → Bool → List YUV →
    TablePruning × List YUV → TablePruning × List YUV
  | _, _, [], result => result
  | i, remove, point :: points, result =>
    let remove := if exceeds i then false else remove
    removeLoop query exceeds (i + 1) remove points
      (if remove then
        ((result.1.assign point .c_UNDEFINED).changeCache query List.tail, result.2 ++ [point])
      else result)

/-- `AnnotationAnalyzer::removeCriticalPoints` -/
def removeCriticalPoints (query : Color) (exceeds : ℕ → ℕ → Bool) (s : TablePruning) :
    Except PruningFault TablePruning :=
  match s.table with
  | none => .ok s
  | some _ => do
    let (points, s) ← s.getCriticalPoints methods sort passes query
    let (s, removed) := removeLoop query (fun i => exceeds i points.length) 0 true points (s, [])
    return { s with pruningStack := removed :: s.pruningStack }

/-- `AnnotationAnalyzer::undo` -/
def undo (s : TablePruning) : TablePruning :=
  match s.table with
  | none => s
  | some _ =>
    match s.pruningStack with
    | [] => s
    | last :: stack => last.foldr
      (fun point s => (s.assign point point.color).changeCache point.color (point :: ·))
      { s with pruningStack := stack }

/-- One call. -/
def call : PruningAct → TablePruning → Except PruningFault TablePruning
  | .getCriticalPoints query, s => (s.getCriticalPoints methods sort passes query).map Prod.snd
  | .removeCriticalPoints query exceeds, s =>
    s.removeCriticalPoints methods sort passes query exceeds
  | .undo, s => .ok s.undo

/-! ## Cells -/

/-- The place of a cell in digits. -/
lemma cellIndex_eq (y u v : ℕ) : cellIndex y u v = (y / 2 * 128 + u / 2) * 128 + v / 2 := by
  rw [cellIndex, Nat.shiftLeft_eq, Nat.shiftLeft_eq, Nat.shiftRight_eq_div_pow,
    Nat.shiftRight_eq_div_pow, Nat.shiftRight_eq_div_pow]
  omega

/-- The numbers below a product in two digits. -/
lemma range_mul (m n : ℕ) :
    List.range (m * n) = (List.range m).flatMap fun i => (List.range n).map (i * n + ·) := by
  induction m with
  | zero => rw [Nat.zero_mul, List.range_zero, List.flatMap_nil]
  | succ m ih =>
    rw [Nat.succ_mul, List.range_add, ih, List.range_succ, List.flatMap_append, List.flatMap_singleton]

/-- **The loops find the cells of the color in the order of their places.** -/
lemma cells_coloredCells (query : Color) (table : ColorTable) :
    (coloredCells query table).map YUV.cell =
      (List.range lutSize).filter fun k => table k = query.value := by
  have hindex (y u v : ℕ) : cellIndex (2 * y) (2 * u) (2 * v) = (y * 128 + u) * 128 + v := by
    rw [cellIndex_eq]
    omega
  rw [lutSize, range_mul, range_mul]
  simp only [coloredCells, steps, List.flatMap_map, List.map_flatMap, List.filter_map, List.map_map,
    List.filter_flatMap, List.flatMap_assoc]
  refine List.flatMap_congr fun y _ => List.flatMap_congr fun u _ => ?_
  refine (List.map_congr_left fun v _ => hindex y u v).trans (congrArg _ ?_)
  refine List.filter_congr fun v _ => ?_
  change decide (table (cellIndex (2 * y) (2 * u) (2 * v)) = query.value) = _
  rw [hindex]
  rfl

/-- The cells of a table. -/
def cells : Set ℕ := {k | k < lutSize}

/-- A list of the cells of a color. -/
structure CellsOf (t : ColorTable) (c : Color) (points : List YUV) : Prop where
  color : ∀ point ∈ points, point.color = c
  lists : Lists cells t c.value (points.map YUV.cell)

/-- The loops find the cells of the color. -/
lemma cellsOf_coloredCells (query : Color) (table : ColorTable) :
    CellsOf table query (coloredCells query table) := by
  refine ⟨fun point hpoint => ?_, ?_⟩
  · obtain ⟨y, -, hpoint⟩ := List.mem_flatMap.mp hpoint
    obtain ⟨u, -, hpoint⟩ := List.mem_flatMap.mp hpoint
    obtain ⟨v, -, rfl⟩ := List.mem_map.mp hpoint
    rfl
  · rw [cells_coloredCells]
    refine ⟨List.nodup_range.filter _, fun k => ?_⟩
    rw [List.mem_filter, List.mem_range, decide_eq_true_iff]
    rfl

/-- A list of as many cells in any order, with other counts. -/
lemma CellsOf.perm {t : ColorTable} {c : Color} {points points' : List YUV} (h : CellsOf t c points)
    (hperm : (points'.map fun point => (point.cell, point.color)).Perm
      (points.map fun point => (point.cell, point.color))) : CellsOf t c points' := by
  refine ⟨fun point hpoint => ?_, h.lists.perm ?_⟩
  · obtain ⟨point', hpoint', heq⟩ := List.mem_map.mp (hperm.subset (List.mem_map_of_mem hpoint))
    exact (congrArg Prod.snd heq).symm.trans (h.color point' hpoint')
  · have hfst := hperm.map Prod.fst
    rw [List.map_map, List.map_map] at hfst
    exact hfst

/-! ## Counting pixels -/

/-- Counting changes neither the cells nor their colors. -/
def SameCells (points points' : List YUV) : Prop :=
  (points'.map fun point => (point.cell, point.color)) =
    points.map fun point => (point.cell, point.color)

variable {methods : SelectionMethods} {sort : List YUV → List YUV} {passes : ℕ}

/-- The cells are the same. -/
lemma SameCells.map_cell {points points' : List YUV} (h : SameCells points points') :
    points'.map YUV.cell = points.map YUV.cell := by
  have hfst := congrArg (List.map Prod.fst) h
  rw [List.map_map, List.map_map] at hfst
  exact hfst

/-- The values of a pixel belong to a cell of the table. -/
lemma cellIndex_mem_cells (y u v : UInt8) : cellIndex y.toNat u.toNat v.toNat ∈ cells := by
  have hy := y.toNat_lt
  have hu := u.toNat_lt
  have hv := v.toNat_lt
  show cellIndex y.toNat u.toNat v.toNat < lutSize
  rw [cellIndex_eq, lutSize]
  omega

/-- The cell and the color stay when a false positive is counted. -/
lemma countFalse_same (point : YUV) :
    point.countFalse.cell = point.cell ∧ point.countFalse.color = point.color := ⟨rfl, rfl⟩

/-- So they do for a true positive. -/
lemma countTrue_same (point : YUV) :
    point.countTrue.cell = point.cell ∧ point.countTrue.color = point.color := ⟨rfl, rfl⟩

/-- A pixel of the color finds its cell. -/
lemma exists_countPixel {t : ColorTable} {query : Color} {f : LogImage} {count : YUV → YUV}
    (hcount : ∀ point, (count point).cell = point.cell ∧ (count point).color = point.color)
    {points points' : List YUV} (hpoints : CellsOf t query points) (hsame : SameCells points points')
    {p : Point} (hp : f.colorAt t p = query.value) :
    ∃ points'', countPixel f count points' p = .ok points'' ∧ SameCells points points'' := by
  unfold countPixel
  by_cases hrange : p.x ≥ f.width ∨ p.y ≥ f.height
  · rw [if_pos hrange]
    exact ⟨points', rfl, hsame⟩
  · rw [if_neg hrange]
    dsimp only
    rw [if_pos]
    · refine ⟨_, rfl, ?_⟩
      rw [SameCells, List.map_map, ← hsame]
      refine List.map_congr_left fun point _ => ?_
      rw [Function.comp_apply]
      split
      · rw [(hcount point).1, (hcount point).2]
      · rfl
    · have hlisted := (hpoints.lists.mem_iff _).mpr ⟨cellIndex_mem_cells _ _ _, hp⟩
      rw [← hsame.map_cell] at hlisted
      obtain ⟨point, hpoint, hcell⟩ := List.mem_map.mp hlisted
      exact List.any_eq_true.mpr ⟨point, hpoint, decide_eq_true hcell⟩

/-- **The pixels of an image are counted**, and no pointer is null. -/
lemma exists_countImage {t : ColorTable} {query : Color} {a : AnnotationAnalyzer}
    (htable : a.table = some t) {points points' : List YUV} (hpoints : CellsOf t query points)
    (hsame : SameCells points points') (image : LogImage × ℕ) :
    ∃ points'', countImage methods query a points' image = .ok points'' ∧
      SameCells points points'' := by
  obtain ⟨points₁, hfalse, hsame₁⟩ := exists_foldlM_eq_ok
    (a.falsePositives methods query image.2 image.1) (countPixel image.1 YUV.countFalse)
    (SameCells points) (fun p hp _ h => exists_countPixel countFalse_same hpoints h
      ((AnnotationAnalyzer.mem_falsePositives htable).mp hp).1.2) hsame
  obtain ⟨points₂, htrue, hsame₂⟩ := exists_foldlM_eq_ok
    (a.truePositives methods query image.2 image.1) (countPixel image.1 YUV.countTrue)
    (SameCells points) (fun p hp _ h => exists_countPixel countTrue_same hpoints h
      (AnnotationAnalyzer.colorAt_of_mem_truePositives htable hp)) hsame₁
  exact ⟨points₂, by rw [countImage, hfalse, Outcome.ok_bind, htrue], hsame₂⟩

/-! ## Lists of cells -/

variable {s : TablePruning} {t : ColorTable}

/-- The kept lists are right for the table. -/
def Kept (t : ColorTable) (s : TablePruning) : Prop :=
  ∀ c points, s.pruningCache c = some points → CellsOf t c points

variable (methods) in
/-- **The spec of `getCriticalPoints`**: it returns a right list and keeps it. -/
lemma exists_getCriticalPoints (hsort : ∀ points, (sort points).Perm points)
    (htable : s.table = some t) (himages : s.images.length < 2 ^ 16)
    (hpasses : s.images.length < passes) (hkept : s.Kept t) (query : Color) :
    ∃ points, s.getCriticalPoints methods sort passes query = .ok (points,
        { s with pruningCache := Function.update s.pruningCache query (some points) }) ∧
      CellsOf t query points := by
  unfold getCriticalPoints
  cases hcached : s.pruningCache query with
  | some points =>
    have hsame : Function.update s.pruningCache query (some points) = s.pruningCache :=
      hcached ▸ Function.update_eq_self query s.pruningCache
    exact ⟨points, by rw [hsame], hkept query points hcached⟩
  | none =>
    rw [htable]
    dsimp only
    have hcolored := cellsOf_coloredCells query t
    have hlength : s.images.zipIdx.length = s.images.length := List.length_zipIdx
    obtain ⟨counted, hcounted, hsame⟩ := exists_foldlM_eq_ok s.images.zipIdx
      (countImage methods query s.toAnnotationAnalyzer) (SameCells (coloredCells query t))
      (fun image _ _ h => exists_countImage htable hcolored h image) rfl
    rw [forEach_eq_foldlM (hlength ▸ himages) (hlength ▸ hpasses), hcounted]
    refine ⟨sort counted, rfl, hcolored.perm ?_⟩
    rw [← hsame]
    exact (hsort counted).map _

/-! ## Removing and restoring -/

/-- The cells of a list. -/
abbrev places (points : List YUV) : List ℕ := points.map YUV.cell

/-- Once the percentage is reached nothing more is removed. -/
lemma removeLoop_false (query : Color) (exceeds : ℕ → Bool) (i : ℕ) (points : List YUV)
    (result : TablePruning × List YUV) :
    removeLoop query exceeds i false points result = result := by
  induction points generalizing i with
  | nil => rfl
  | cons point points ih =>
    rw [removeLoop, ite_self]
    exact ih (i + 1)

/-- Nothing is removed. -/
lemma remove_nothing {query : Color} {points removed : List YUV} (htable : s.table = some t)
    (hcached : s.pruningCache query = some points) :
    (s, removed) = ({ s with
      table := some (paint (places (points.take 0)) Color.c_UNDEFINED.value t)
      pruningCache := Function.update s.pruningCache query (some (points.drop 0)) },
      removed ++ points.take 0) := by
  have htable' : some (paint (places (points.take 0)) Color.c_UNDEFINED.value t) = s.table :=
    htable.symm
  have hcache : Function.update s.pruningCache query (some (points.drop 0)) = s.pruningCache :=
    hcached ▸ Function.update_eq_self query s.pruningCache
  rw [htable', hcache, List.take_zero, List.append_nil]

/-- **The spec of the loop in `removeCriticalPoints`**: it paints the first cells and takes them out
of the list. -/
lemma exists_removeLoop {query : Color} {points : List YUV} (exceeds : ℕ → Bool) (i : ℕ)
    (removed : List YUV) (htable : s.table = some t) (hcached : s.pruningCache query = some points) :
    ∃ n, (exceeds i = true → n = 0) ∧ ((∀ i, exceeds i = false) → n = points.length) ∧
      removeLoop query exceeds i true points (s, removed) =
        ({ s with
            table := some (paint (places (points.take n)) Color.c_UNDEFINED.value t)
            pruningCache := Function.update s.pruningCache query (some (points.drop n)) },
          removed ++ points.take n) := by
  induction points generalizing i s t removed with
  | nil => exact ⟨0, fun _ => rfl, fun _ => rfl, remove_nothing htable hcached⟩
  | cons point points ih =>
    by_cases hexceeds : exceeds i = true
    · refine ⟨0, fun _ => rfl, fun h => absurd hexceeds (by rw [h]; exact Bool.false_ne_true), ?_⟩
      rw [removeLoop, if_pos hexceeds, if_neg Bool.false_ne_true, removeLoop_false]
      exact remove_nothing htable hcached
    · have hpainted : ((s.assign point .c_UNDEFINED).changeCache query List.tail).table =
          some (Function.update t point.cell Color.c_UNDEFINED.value) := by
        rw [changeCache, assign, htable]
        rfl
      have hshorter : ((s.assign point .c_UNDEFINED).changeCache query List.tail).pruningCache =
          Function.update s.pruningCache query (some points) := by
        show Function.update s.pruningCache query (some ((s.pruningCache query).getD []).tail) = _
        rw [hcached]
        rfl
      obtain ⟨n, -, hall, hloop⟩ := ih (i + 1) (removed ++ [point]) hpainted
        (by rw [hshorter, Function.update_self])
      refine ⟨n + 1, fun h => absurd h hexceeds, fun h => congrArg Nat.succ (hall h), ?_⟩
      rw [removeLoop, if_neg hexceeds, if_pos rfl, hloop, hshorter, Function.update_idem,
        List.append_assoc]
      rfl

/-- **The spec of `removeCriticalPoints`**: it paints the first cells of the list, takes them out of
it and puts them on the stack. -/
lemma exists_removeCriticalPoints (hsort : ∀ points, (sort points).Perm points)
    (htable : s.table = some t) (himages : s.images.length < 2 ^ 16)
    (hpasses : s.images.length < passes) (hkept : s.Kept t) (query : Color)
    (exceeds : ℕ → ℕ → Bool) :
    ∃ points n, CellsOf t query points ∧ (exceeds 0 points.length = true → n = 0) ∧
      ((∀ i, exceeds i points.length = false) → n = points.length) ∧
      s.removeCriticalPoints methods sort passes query exceeds = .ok { s with
        table := some (paint (places (points.take n)) Color.c_UNDEFINED.value t)
        pruningCache := Function.update s.pruningCache query (some (points.drop n))
        pruningStack := points.take n :: s.pruningStack } := by
  obtain ⟨points, hget, hpoints⟩ := exists_getCriticalPoints methods hsort htable
    himages hpasses hkept query
  obtain ⟨n, hzero, hall, hloop⟩ := exists_removeLoop (fun i => exceeds i points.length) 0 []
    (s := { s with pruningCache := Function.update s.pruningCache query (some points) }) htable
    (Function.update_self _ _ _)
  refine ⟨points, n, hpoints, hzero, hall, ?_⟩
  rw [removeCriticalPoints]
  split
  next hnone => exact absurd (htable.symm.trans hnone) (by simp)
  next =>
    rw [hget, Outcome.ok_bind]
    dsimp only
    rw [hloop]
    dsimp only
    rw [Function.update_idem, List.nil_append]
    rfl

/-- **The spec of `undo`**: it paints the cells of the last list and puts them in front of the list
of their color. -/
lemma undo_of_cons {c : Color} {last points : List YUV} {stack : List (List YUV)}
    (htable : s.table = some t) (hstack : s.pruningStack = last :: stack)
    (hcolor : ∀ point ∈ last, point.color = c) (hcached : s.pruningCache c = some points) :
    s.undo = { s with
      table := some (paint (places last) c.value t)
      pruningCache := Function.update s.pruningCache c (some (last ++ points))
      pruningStack := stack } := by
  have hfold : ∀ last : List YUV, (∀ point ∈ last, point.color = c) →
      last.foldr (fun point s => (s.assign point point.color).changeCache point.color (point :: ·))
        { s with pruningStack := stack } = { s with
          table := some (paint (places last) c.value t)
          pruningCache := Function.update s.pruningCache c (some (last ++ points))
          pruningStack := stack } := by
    intro last hcolor
    induction last with
    | nil =>
      have hcache : Function.update s.pruningCache c (some ([] ++ points)) = s.pruningCache :=
        hcached ▸ Function.update_eq_self c s.pruningCache
      have htable' : some (paint (places []) c.value t) = s.table := htable.symm
      rw [hcache, htable']
      rfl
    | cons point last ih =>
      obtain ⟨hpoint, hlast⟩ := List.forall_mem_cons.mp hcolor
      rw [List.foldr_cons, ih hlast, hpoint, changeCache, assign]
      dsimp only
      rw [Function.update_self, Function.update_idem]
      have hpaint : Option.map (fun table => assignColor table point.y point.u point.v c)
          (some (paint (places last) c.value t)) =
            some (paint (places (point :: last)) c.value t) :=
        congrArg some (update_paint point.cell (places last) c.value t)
      rw [hpaint]
      rfl
  rw [undo, htable, hstack]
  exact hfold last hcolor

/-! ## Histories -/

/-- A state of a history: the analyzer, and for each list on the stack the table as it was before
the cells of the list were removed. -/
abbrev History := Except PruningFault (TablePruning × List (Option ColorTable))

/-- The tables to which the calls of `undo` should lead. -/
def snapshot : PruningAct → TablePruning → List (Option ColorTable) → List (Option ColorTable)
  | .getCriticalPoints _, _, snapshots => snapshots
  | .removeCriticalPoints _ _, s, snapshots => s.table :: snapshots
  | .undo, _, snapshots => snapshots.tail

variable (methods sort passes) in
/-- One call in a history. -/
def step (act : PruningAct) (history : History) : History := do
  let (s, snapshots) ← history
  let s' ← s.call methods sort passes act
  return (s', snapshot act s snapshots)

variable (methods sort passes) in
/-- **What a call should do**: it returns, `undo` leads back to the table before the cells were
removed, and each list that is kept has exactly the cells of its color, each once. -/
def CallRight (act : PruningAct) (history : History) : Prop :=
  ∃ s snapshots s', history = .ok (s, snapshots) ∧ s.call methods sort passes act = .ok s' ∧
    (act = .undo → ∀ table ∈ snapshots.head?, s'.table = table) ∧
    ∀ t, s'.table = some t → ∀ c points, s'.pruningCache c = some points →
      Lists cells t c.value (places points)

/-- When a call is safe: cells are removed only if their color is not the undefined one and the
undefined cells have not been listed, and they are restored only if these have not been listed. -/
def SafeCall : PruningAct → TablePruning → Prop
  | .getCriticalPoints _, _ => True
  | .removeCriticalPoints query exceeds, s =>
    (query ≠ .c_UNDEFINED ∧ s.pruningCache .c_UNDEFINED = none) ∨
      ∀ t, s.table = some t → {k ∈ cells | t k = query.value}.ncard = 0 ∨
        exceeds 0 {k ∈ cells | t k = query.value}.ncard = true
  | .undo, s => s.pruningCache .c_UNDEFINED = none ∨ ∀ last ∈ s.pruningStack.head?, last = []

/-- The lists on the stack lead back through the tables. -/
inductive Undoable (s : TablePruning) :
    ColorTable → List (List YUV) → List (Option ColorTable) → Prop
  | nil (t : ColorTable) : Undoable s t [] []
  | cons {t t' : ColorTable} {c : Color} {last : List YUV} {stack : List (List YUV)}
      {snapshots : List (Option ColorTable)} (hcolor : ∀ point ∈ last, point.color = c)
      (hnodup : (places last).Nodup) (hcells : ∀ k ∈ places last, k ∈ cells)
      (hundefined : ∀ k ∈ places last, t k = Color.c_UNDEFINED.value)
      (hdefined : last ≠ [] → c ≠ .c_UNDEFINED ∧ (s.pruningCache c).isSome = true)
      (hback : paint (places last) c.value t = t') (hrest : Undoable s t' stack snapshots) :
      Undoable s t (last :: stack) (some t' :: snapshots)

/-- What holds in a history that is safe. -/
structure Inv (images : List LogImage) (s : TablePruning) (snapshots : List (Option ColorTable)) :
    Prop where
  images : s.images = images
  exists_table : ∃ t, s.table = some t ∧ s.Kept t ∧ s.Undoable t s.pruningStack snapshots

/-- What has been kept stays on the way back, as long as lists are not dropped. -/
lemma Undoable.mono {s s' : TablePruning} {t : ColorTable} {stack : List (List YUV)}
    {snapshots : List (Option ColorTable)} (h : s.Undoable t stack snapshots)
    (hmono : ∀ c, (s.pruningCache c).isSome = true → (s'.pruningCache c).isSome = true) :
    s'.Undoable t stack snapshots := by
  induction h with
  | nil t => exact .nil t
  | cons hcolor hnodup hcells hundefined hdefined hback _ ih =>
    exact .cons hcolor hnodup hcells hundefined
      (fun hne => ⟨(hdefined hne).1, hmono _ (hdefined hne).2⟩) hback ih

/-- A list that is put into the map leaves those of other colors there. -/
lemma isSome_update (cache : Color → Option (List YUV)) (query : Color) (points : List YUV) :
    ∀ c, (cache c).isSome = true →
      (Function.update cache query (some points) c).isSome = true := by
  intro c hc
  by_cases heq : c = query
  · rw [heq, Function.update_self]
    rfl
  · rwa [Function.update_of_ne heq]

/-- Right lists, with one more. -/
lemma kept_update {t : ColorTable} {cache : Color → Option (List YUV)} {query : Color}
    {points : List YUV} (hpoints : CellsOf t query points)
    (hother : ∀ c, c ≠ query → ∀ points, cache c = some points → CellsOf t c points) :
    ∀ c points', Function.update cache query (some points) c = some points' →
      CellsOf t c points' := by
  intro c points' h
  by_cases heq : c = query
  · subst heq
    rw [Function.update_self] at h
    exact Option.some.inj h ▸ hpoints
  · rw [Function.update_of_ne heq] at h
    exact hother c heq points' h

section Step

variable {images : List LogImage} {snapshots : List (Option ColorTable)}

/-- `getCriticalPoints` returns and leaves the invariant. -/
lemma Inv.getCriticalPoints (hsort : ∀ points, (sort points).Perm points)
    (himages : images.length < 2 ^ 16) (hpasses : images.length < passes)
    (h : s.Inv images snapshots) (query : Color) :
    ∃ s', s.call methods sort passes (.getCriticalPoints query) = .ok s' ∧
      s'.Inv images snapshots := by
  obtain ⟨himg, t, htable, hkept, hundo⟩ := h
  obtain ⟨points, hget, hpoints⟩ := exists_getCriticalPoints methods hsort htable
    (himg ▸ himages) (himg ▸ hpasses) hkept query
  refine ⟨{ s with pruningCache := Function.update s.pruningCache query (some points) }, ?_, himg, t,
    htable, kept_update hpoints fun c _ => hkept c, hundo.mono (isSome_update _ _ _)⟩
  rw [call, hget]
  rfl

/-- What is removed is nothing, or the color is defined and the undefined cells are not listed. -/
lemma take_eq_nil_or {query : Color} {exceeds : ℕ → ℕ → Bool} {points : List YUV} {n : ℕ}
    (htable : s.table = some t) (hpoints : CellsOf t query points)
    (hzero : exceeds 0 points.length = true → n = 0)
    (hsafe : s.SafeCall (.removeCriticalPoints query exceeds)) :
    points.take n = [] ∨ query ≠ .c_UNDEFINED ∧ s.pruningCache .c_UNDEFINED = none := by
  rcases hsafe with hdefined | hnothing
  · exact Or.inr hdefined
  · have hlength : points.length = {k ∈ cells | t k = query.value}.ncard := by
      rw [← List.length_map YUV.cell]
      exact length_eq_ncard hpoints.lists.nodup hpoints.lists.mem_iff
    rcases hnothing t htable with hnone | hexceeds
    · rw [← hlength] at hnone
      exact Or.inl (by rw [List.eq_nil_of_length_eq_zero hnone, List.take_nil])
    · rw [← hlength] at hexceeds
      exact Or.inl (by rw [hzero hexceeds, List.take_zero])

/-- The lists after the first cells of one have been removed. -/
lemma kept_remove {cache : Color → Option (List YUV)} {query : Color} {points : List YUV} {n : ℕ}
    (hpoints : CellsOf t query points)
    (hother : ∀ c, c ≠ query → ∀ points, cache c = some points → CellsOf t c points)
    (hsafe : points.take n = [] ∨ query ≠ .c_UNDEFINED ∧ cache .c_UNDEFINED = none) :
    ∀ c points', Function.update cache query (some (points.drop n)) c = some points' →
      CellsOf (paint (places (points.take n)) Color.c_UNDEFINED.value t) c points' := by
  rcases hsafe with hnil | ⟨hdefined, hunlisted⟩
  · have hdrop : points.drop n = points := by
      have hsplit := List.take_append_drop n points
      rwa [hnil, List.nil_append] at hsplit
    rw [hdrop, hnil]
    exact kept_update hpoints hother
  · have hplaces : places (points.take n) = (places points).take n := List.map_take
    rw [hplaces]
    refine kept_update ⟨fun point hpoint => ?_, ?_⟩ fun c hc points' hpoints' => ?_
    · exact hpoints.color point (List.mem_of_mem_drop hpoint)
    · rw [List.map_drop]
      exact hpoints.lists.paint_take (fun heq => hdefined (Color.value_injective heq).symm) n
    · obtain ⟨hcolor, hlists⟩ := hother c hc points' hpoints'
      refine ⟨hcolor, hlists.paint_of_ne (fun k hk heq => ?_) fun heq => ?_⟩
      · have hold := ((hpoints.lists.mem_iff k).mp (List.mem_of_mem_take hk)).2
        exact hc (Color.value_injective (heq.symm.trans hold))
      · rw [← Color.value_injective heq, hunlisted] at hpoints'
        exact absurd hpoints' (by simp)

/-- `removeCriticalPoints` returns and leaves the invariant, with the table on the way back. -/
lemma Inv.removeCriticalPoints (hsort : ∀ points, (sort points).Perm points)
    (himages : images.length < 2 ^ 16) (hpasses : images.length < passes)
    (h : s.Inv images snapshots) {query : Color} {exceeds : ℕ → ℕ → Bool}
    (hsafe : s.SafeCall (.removeCriticalPoints query exceeds)) :
    ∃ s', s.call methods sort passes (.removeCriticalPoints query exceeds) = .ok s' ∧
      s'.Inv images (s.table :: snapshots) := by
  obtain ⟨himg, t, htable, hkept, hundo⟩ := h
  obtain ⟨points, n, hpoints, hzero, -, hremove⟩ := exists_removeCriticalPoints hsort htable
    (himg ▸ himages) (himg ▸ hpasses) hkept query exceeds
  have hnothing := take_eq_nil_or htable hpoints hzero hsafe
  have hmem : ∀ k ∈ places (points.take n), k ∈ cells ∧ t k = query.value := by
    intro k hk
    rw [places, List.map_take] at hk
    exact (hpoints.lists.mem_iff k).mp (List.mem_of_mem_take hk)
  refine ⟨_, hremove, himg, _, rfl, kept_remove hpoints (fun c _ => hkept c) hnothing, ?_⟩
  rw [htable]
  refine .cons (fun point hpoint => hpoints.color point (List.mem_of_mem_take hpoint)) ?_
    (fun k hk => (hmem k hk).1) (fun k hk => paint_of_mem hk) (fun hne => ⟨?_, ?_⟩)
    (paint_paint (fun k hk => (hmem k hk).2) _) (hundo.mono (isSome_update _ _ _))
  · rw [places, List.map_take]
    exact hpoints.lists.nodup.sublist (List.take_sublist _ _)
  · exact (hnothing.resolve_left hne).1
  · dsimp only
    rw [Function.update_self]
    rfl

/-- `undo` leads back to the table, and leaves the invariant. -/
lemma Inv.undo (h : s.Inv images snapshots) (hsafe : s.SafeCall .undo) :
    (∀ table ∈ snapshots.head?, s.undo.table = table) ∧ s.undo.Inv images snapshots.tail := by
  obtain ⟨himg, t, htable, hkept, hundo⟩ := h
  generalize hstack : s.pruningStack = stack at hundo
  cases hundo with
  | nil =>
    have hsame : s.undo = s := by
      rw [TablePruning.undo, htable, hstack]
    rw [hsame]
    refine ⟨fun table htable => absurd htable (by simp), himg, t, htable, hkept, ?_⟩
    rw [hstack]
    exact .nil t
  | @cons _ t' c last stack snapshots hcolor hnodup hcells hundefined hdefined hback hrest =>
    by_cases hlast : last = []
    · have hsame : s.undo = { s with pruningStack := stack } := by
        rw [TablePruning.undo, htable, hstack, hlast]
        rfl
      have ht : t = t' := by
        rw [← hback, hlast]
        rfl
      rw [hsame]
      refine ⟨fun table hhead => ?_, himg, t', ht ▸ htable, ht ▸ hkept, hrest.mono fun _ h => h⟩
      rw [← Option.some.inj hhead, ← ht]
      exact htable
    · obtain ⟨hne, hsome⟩ := hdefined hlast
      obtain ⟨points, hcached⟩ := Option.isSome_iff_exists.mp hsome
      have hunlisted : s.pruningCache .c_UNDEFINED = none :=
        hsafe.resolve_right fun hnil => hlast (hnil last (by rw [hstack]; rfl))
      have hold {b : Color} (hb : b ≠ .c_UNDEFINED) : ∀ k ∈ places last, t k ≠ b.value :=
        fun k hk heq => hb (Color.value_injective (heq.symm.trans (hundefined k hk)))
      rw [undo_of_cons htable hstack hcolor hcached]
      refine ⟨fun table hhead => ?_, himg, t', congrArg some hback, ?_, ?_⟩
      · rw [← Option.some.inj hhead, ← hback]
      · rw [← hback]
        refine kept_update ⟨fun point hpoint => ?_, ?_⟩ fun b hb points' hpoints' => ?_
        · rcases List.mem_append.mp hpoint with hpoint | hpoint
          · exact hcolor point hpoint
          · exact (hkept c points hcached).color point hpoint
        · rw [List.map_append]
          exact (hkept c points hcached).lists.append_paint hnodup hcells (hold hne)
        · obtain ⟨hcolor', hlists⟩ := hkept b points' hpoints'
          have hb' : b ≠ .c_UNDEFINED := by
            rintro rfl
            exact absurd (hunlisted.symm.trans hpoints') (by simp)
          exact ⟨hcolor', hlists.paint_of_ne (hold hb') fun heq =>
            hb (Color.value_injective heq).symm⟩
      · exact hrest.mono (isSome_update _ _ _)

/-- **A safe call does what it should**, and leaves the invariant. -/
lemma Inv.call (hsort : ∀ points, (sort points).Perm points) (himages : images.length < 2 ^ 16)
    (hpasses : images.length < passes) (h : s.Inv images snapshots) {act : PruningAct}
    (hsafe : s.SafeCall act) :
    ∃ s', s.call methods sort passes act = .ok s' ∧ s'.Inv images (snapshot act s snapshots) ∧
      (act = .undo → ∀ table ∈ snapshots.head?, s'.table = table) := by
  cases act with
  | getCriticalPoints query =>
    obtain ⟨s', hcall, hinv⟩ := h.getCriticalPoints hsort himages hpasses query
    exact ⟨s', hcall, hinv, fun hact => absurd hact (by simp)⟩
  | removeCriticalPoints query exceeds =>
    obtain ⟨s', hcall, hinv⟩ := h.removeCriticalPoints hsort himages hpasses hsafe
    exact ⟨s', hcall, hinv, fun hact => absurd hact (by simp)⟩
  | undo =>
    obtain ⟨hback, hinv⟩ := h.undo hsafe
    exact ⟨s.undo, rfl, hinv, fun _ => hback⟩

end Step

/-- **Pruning can be undone, and the lists stay right, in every safe history**: one in which, for a
color with cells, cells are only removed while the undefined cells have not been listed, and never
the undefined ones, and cells are only restored while the undefined ones have not been listed. -/
theorem callRight_of_guarded (methods : SelectionMethods) (sort : List YUV → List YUV)
    (hsort : ∀ points, (sort points).Perm points) (a : AnnotationAnalyzer) (t : ColorTable)
    (htable : a.table = some t) (himages : a.images.length < 2 ^ 16) (passes : ℕ)
    (hpasses : a.images.length < passes) (acts : List PruningAct)
    (hsafe : Guarded (step methods sort passes)
      (fun act history => ∀ s snapshots, history = .ok (s, snapshots) → s.SafeCall act)
      (.ok (⟨a, fun _ => none, []⟩, [])) acts) :
    ∀ before act after, acts = before ++ act :: after →
      CallRight methods sort passes act
        (run (step methods sort passes) (.ok (⟨a, fun _ => none, []⟩, [])) before) := by
  rintro before act after rfl
  obtain ⟨hbefore, hact, -⟩ := (guarded_append _).mp hsafe
  have hinv : ∃ s snapshots, run (step methods sort passes)
      (.ok (⟨a, fun _ => none, []⟩, [])) before = .ok (s, snapshots) ∧ s.Inv a.images snapshots := by
    refine run_invariant (I := fun history => ∃ s snapshots, history = .ok (s, snapshots) ∧
      s.Inv a.images snapshots) (fun act history hsafe h => ?_) ⟨_, _, rfl, ?_⟩ hbefore
    · obtain ⟨s, snapshots, rfl, h⟩ := h
      obtain ⟨s', hcall, hinv, -⟩ := h.call hsort himages hpasses (hsafe s snapshots rfl)
      refine ⟨s', snapshot act s snapshots, ?_, hinv⟩
      rw [step, Outcome.ok_bind]
      dsimp only
      rw [hcall]
      rfl
    · exact ⟨rfl, t, htable, fun c points h => absurd h (by simp), .nil t⟩
  obtain ⟨s, snapshots, hrun, h⟩ := hinv
  obtain ⟨s', hcall, hinv, hback⟩ := h.call hsort himages hpasses (hact s snapshots hrun)
  obtain ⟨-, t', htable', hkept, -⟩ := hinv
  refine ⟨s, snapshots, s', hrun, hcall, hback, fun t'' ht'' c points hpoints => ?_⟩
  obtain rfl := Option.some.inj (htable'.symm.trans ht'')
  exact (hkept c points hpoints).lists

/-- Orange cells are removed. -/
theorem callRight_of_guarded_orange :
    CallRight VisionAnnotation.centerMethods id 2 (.removeCriticalPoints .c_ORANGE fun _ _ => false)
      (.ok (⟨ AnnotationAnalyzer.orangeLog [], fun _ => none, []⟩, [])) := by
  refine callRight_of_guarded VisionAnnotation.centerMethods id (fun _ => .refl _)
    ( AnnotationAnalyzer.orangeLog []) (fun _ => 3) rfl (by decide) 2 (by decide)
    [.removeCriticalPoints .c_ORANGE fun _ _ => false] ⟨fun s snapshots h => Or.inl ⟨by decide, ?_⟩,
      trivial⟩ [] _ [] rfl
  cases h
  rfl

/-- When all undefined cells are removed, none of them is listed any more. -/
theorem not_callRight :
    ¬ ∀ (methods : SelectionMethods) (sort : List YUV → List YUV),
      (∀ points, (sort points).Perm points) → ∀ (a : AnnotationAnalyzer) (t : ColorTable),
        a.table = some t → a.images.length < 2 ^ 16 → ∀ passes, a.images.length < passes →
          ∀ acts before act after, acts = before ++ act :: after →
            CallRight methods sort passes act
              (run (step methods sort passes) (.ok (⟨a, fun _ => none, []⟩, [])) before) := by
  intro h
  let start : TablePruning := ⟨⟨[], [], some fun _ => 0⟩, fun _ => none, []⟩
  obtain ⟨s, snapshots, s', hstart, hcall, -, hlists⟩ := h VisionAnnotation.centerMethods id
    (fun _ => .refl _) start.toAnnotationAnalyzer (fun _ => 0) rfl (by decide) 1 (by decide)
    [.removeCriticalPoints .c_UNDEFINED fun _ _ => false] [] _ [] rfl
  obtain ⟨rfl, rfl⟩ : start = s ∧ [] = snapshots := Prod.mk.inj (Except.ok.inj hstart)
  have hkept : start.Kept fun _ => 0 := fun c points hnone => absurd hnone (by simp [start])
  have hpasses : start.images.length < 1 := Nat.one_pos
  obtain ⟨points, n, -, -, hall, hremove⟩ := exists_removeCriticalPoints (fun _ => .refl _) rfl
    (by decide) hpasses hkept .c_UNDEFINED fun _ _ => false
  obtain rfl := Except.ok.inj (hremove.symm.trans hcall)
  have hkeptLast : Function.update start.pruningCache Color.c_UNDEFINED (some (points.drop n))
      Color.c_UNDEFINED = some (points.drop n) := Function.update_self _ _ _
  have hlast := hlists _ rfl .c_UNDEFINED (points.drop n) hkeptLast
  rw [hall fun _ => rfl, List.drop_length, List.take_length] at hlast
  have hmem := (hlast.mem_iff 0).mpr ⟨Nat.mul_pos (by decide) (by decide), ?_⟩
  · exact absurd hmem List.not_mem_nil
  · rw [paint_apply, ite_eq_left_iff]
    exact fun _ => rfl

end TablePruning

end NaoSoccer
