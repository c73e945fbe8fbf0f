import NaoSoccer.Common.VisionAnnotation
import NaoSoccer.Foundation.KeyedMemo
import NaoSoccer.Foundation.LabelledRun
import Mathlib.Data.Int.Range

/-!
# Polygons with caches

`Polygon` answers whether it encloses a point by the even-odd rule and keeps the answers in a map,
under a key that packs both coordinates into 32 bits.  It also keeps the list of all enclosed points
once it has computed it.

A negative `y` has ones in its upper half, so that nothing of `x` is left in the key, and
`addVertex` throws away neither the map nor the list.

The product in the even-odd test is a parameter, since an `int` may be too narrow for it.  The
memory for the coordinates, which `addVertex` allocates anew each time, always holds those of the
vertices.
-/

namespace NaoSoccer

open KeyedMemo LabelledRun

/-- `Polygon` -/
structure Polygon where
  vertices : List Point
  left : ℤ
  right : ℤ
  top : ℤ
  bottom : ℤ
  pointCache : BitVec 32 → Option Bool
  enclosed : List Point

/-- The points of a box, column by column. -/
def Point.box (left right bottom top : ℤ) : List Point :=
  (Int.range left (right + 1)).flatMap fun i => (Int.range bottom (top + 1)).map fun j => ⟨i, j⟩

/-- The points of a box are those between its bounds. -/
lemma Point.mem_box {left right bottom top : ℤ} {q : Point} :
    q ∈ box left right bottom top ↔ left ≤ q.x ∧ q.x ≤ right ∧ bottom ≤ q.y ∧ q.y ≤ top := by
  simp only [box, List.mem_flatMap, List.mem_map, Int.mem_range_iff]
  constructor
  · rintro ⟨i, hi, j, hj, rfl⟩
    dsimp only
    omega
  · rintro ⟨hleft, hright, hbottom, htop⟩
    exact ⟨q.x, by omega, q.y, by omega, rfl⟩

/-- No point is twice in a box. -/
lemma Point.nodup_box (left right bottom top : ℤ) : (box left right bottom top).Nodup := by
  have hrange : ∀ m n : ℤ, (Int.range m n).Nodup := fun m n =>
    List.nodup_range.map fun a b h => by omega
  refine List.nodup_flatMap.mpr ⟨fun i _ => ?_, ?_⟩
  · exact (hrange bottom (top + 1)).map fun a b h => congrArg Point.y h
  · refine (hrange left (right + 1)).imp fun {a b} hne q ha hb => ?_
    obtain ⟨_, _, rfl⟩ := List.mem_map.mp ha
    obtain ⟨_, _, hq⟩ := List.mem_map.mp hb
    exact hne (congrArg Point.x hq).symm

namespace Polygon

/-! ## The even-odd rule -/

variable (mul : ℤ → ℤ → ℤ)

/-- The test for one edge in `Polygon::enclosesPoint`. -/
def crosses (vi vj test : Point) : Bool :=
  (decide (vi.y > test.y) != decide (vj.y > test.y)) &&
    decide (test.x < (mul (vj.x - vi.x) (test.y - vi.y)).tdiv (vj.y - vi.y) + vi.x)

/-- The loop over the vertices behind the vertex `vj`. -/
def crossings (test : Point) : Point → List Point → Bool → Bool
  | _, [], c => c
  | vj, vi :: vertices, c =>
    crossings test vi vertices (if crosses mul vi vj test then !c else c)

/-- `Polygon::enclosesPoint(nvert, vertx, verty, testx, testy)` -/
def evenOdd (vertices : List Point) (test : Point) : Bool :=
  match vertices.getLast? with
  | none => false
  | some vj => crossings mul test vj vertices false

/-! ## Bounds -/

/-- `Polygon::getTop` -/
def getTop (vertices : List Point) : ℤ :=
  vertices.foldl (fun top v => if top < v.y then v.y else top) 0

/-- `Polygon::getBottom` -/
def getBottom (vertices : List Point) : ℤ :=
  vertices.foldl (fun bottom v => if bottom > v.y then v.y else bottom) 0

/-- `Polygon::getLeft` -/
def getLeft (vertices : List Point) : ℤ :=
  vertices.foldl (fun left v => if left > v.x then v.x else left) 0

/-- `Polygon::getRight` -/
def getRight (vertices : List Point) : ℤ :=
  vertices.foldl (fun right v => if right < v.x then v.x else right) 0

/-- `Polygon::setBounds` -/
def setBounds (p : Polygon) : Polygon :=
  { p with
    left := getLeft p.vertices
    top := getTop p.vertices
    right := getRight p.vertices
    bottom := getBottom p.vertices }

/-- `Polygon::Polygon(vertices)`; the bounds hold anything before they are set. -/
def ofVertices (garbage : Polygon) (vertices : List Point) : Polygon :=
  setBounds { garbage with vertices := vertices, pointCache := fun _ => none, enclosed := [] }

/-- `Polygon::Polygon()`, which does not set the bounds. -/
def new (garbage : Polygon) : Polygon :=
  { garbage with vertices := [], pointCache := fun _ => none, enclosed := [] }

/-- `Polygon::addVertex` -/
def addVertex (x y : ℤ) (p : Polygon) : Polygon :=
  setBounds { p with vertices := p.vertices ++ [⟨x, y⟩] }

/-! ## Questions -/

/-- `(x << 16) | y` -/
def lookup (q : Point) : BitVec 32 := BitVec.ofInt 32 q.x <<< 16 ||| BitVec.ofInt 32 q.y

/-- The point is in the bounding box. -/
def InBounds (p : Polygon) (q : Point) : Prop :=
  p.left ≤ q.x ∧ q.x ≤ p.right ∧ p.bottom ≤ q.y ∧ q.y ≤ p.top

instance (p : Polygon) (q : Point) : Decidable (p.InBounds q) := inferInstanceAs (Decidable (_ ∧ _))

/-- `Polygon::enclosesPoint` -/
def enclosesPoint (q : Point) (p : Polygon) : Bool × Polygon :=
  if p.InBounds q then
    let answer := ask lookup (evenOdd mul p.vertices) q p.pointCache
    (answer.1, { p with pointCache := answer.2 })
  else (false, p)

/-- The points that the loops of `Polygon::enclosedPoints` go through. -/
def candidates (vertices : List Point) : List Point :=
  Point.box (getLeft vertices) (getRight vertices) (getBottom vertices) (getTop vertices)

/-- The loops of `Polygon::enclosedPoints`. -/
def collect : List Point → Polygon → Polygon
  | [], p => p
  | q :: qs, p =>
    let answer := p.enclosesPoint mul q
    collect qs (if answer.1 then { answer.2 with enclosed := answer.2.enclosed ++ [q] }
      else answer.2)

/-- `Polygon::enclosedPoints` -/
def enclosedPoints (p : Polygon) : List Point × Polygon :=
  if p.enclosed.length > 0 then (p.enclosed, p)
  else
    let p' := collect mul (candidates p.vertices) p
    (p'.enclosed, p')

end Polygon

/-- A call of a `Polygon`. -/
inductive PolygonAct
  | addVertex (x y : ℤ)
  | enclosesPoint (q : Point)
  | enclosedPoints

namespace Polygon

variable (mul : ℤ → ℤ → ℤ)

/-- One call. -/
def step : PolygonAct → Polygon → Polygon
  | .addVertex x y, p => p.addVertex x y
  | .enclosesPoint q, p => (p.enclosesPoint mul q).2
  | .enclosedPoints, p => (p.enclosedPoints mul).2

/-! ## What the calls are for -/

/-- What should be answered for a point: the even-odd test on the vertices, in the bounding box. -/
def Encloses (p : Polygon) (q : Point) : Prop :=
  p.InBounds q ∧ evenOdd mul p.vertices q = true

/-- What a call should return. -/
def AnswersRight : PolygonAct → Polygon → Prop
  | .addVertex _ _, _ => True
  | .enclosesPoint q, p => (p.enclosesPoint mul q).1 = true ↔ p.Encloses mul q
  | .enclosedPoints, p => ∀ q, q ∈ (p.enclosedPoints mul).1 ↔ p.Encloses mul q

/-- The coordinates are below `2 ^ 15`. -/
def Small (q : Point) : Prop := -2 ^ 15 < q.x ∧ q.x < 2 ^ 15 ∧ -2 ^ 15 < q.y ∧ q.y < 2 ^ 15

instance : DecidablePred Small := fun _ => inferInstanceAs (Decidable (_ ∧ _))

/-- The coordinates of a call are. -/
def SmallAct : PolygonAct → Prop
  | .addVertex x y => Small ⟨x, y⟩
  | .enclosesPoint q => Small q
  | .enclosedPoints => True

instance : DecidablePred SmallAct
  | .addVertex x y => inferInstanceAs (Decidable (Small ⟨x, y⟩))
  | .enclosesPoint q => inferInstanceAs (Decidable (Small q))
  | .enclosedPoints => inferInstanceAs (Decidable True)

/-- When a call is safe: no vertex is added once a point of the bounding box has been asked for, and
neither a point of it with a negative `y` nor a vertex with one is looked at. -/
def SafeAct : PolygonAct → Polygon → Prop
  | .addVertex _ _, p => p.pointCache = fun _ => none
  | .enclosesPoint q, p => p.InBounds q → 0 ≤ q.y
  | .enclosedPoints, p => ∀ v ∈ p.vertices, 0 ≤ v.y

/-! ## Keys -/

/-- The points on whose keys one can rely. -/
def upper : Set Point := {q | Small q ∧ 0 ≤ q.y}

/-- The key of such a point has `x` above `y`. -/
lemma toNat_lookup {q : Point} (hq : q ∈ upper) :
    (lookup q).toNat = (q.x % 2 ^ 16).toNat * 2 ^ 16 + q.y.toNat := by
  obtain ⟨⟨-, -, -, hy⟩, hpos⟩ := hq
  have hylt : q.y.toNat < 2 ^ 16 := by omega
  have hymod : (q.y % (2 ^ 32 : ℕ)).toNat = q.y.toNat := by omega
  have hxmod : ((q.x % (2 ^ 32 : ℕ)).toNat <<< 16) % 2 ^ 32 = (q.x % 2 ^ 16).toNat <<< 16 := by
    rw [Nat.shiftLeft_eq, Nat.shiftLeft_eq]
    omega
  rw [lookup, BitVec.toNat_or, BitVec.toNat_shiftLeft, BitVec.toNat_ofInt, BitVec.toNat_ofInt,
    hymod, hxmod, ← Nat.shiftLeft_add_eq_or_of_lt hylt, Nat.shiftLeft_eq]

/-- **No two of them share a key.** -/
lemma injOn_lookup : Set.InjOn lookup upper := by
  rintro ⟨x, y⟩ hq ⟨x', y'⟩ hq' heq
  have hkey := congrArg BitVec.toNat heq
  rw [toNat_lookup hq, toNat_lookup hq'] at hkey
  obtain ⟨⟨hx, hx2, -, hy⟩, hpos⟩ := hq
  obtain ⟨⟨hx', hx2', -, hy'⟩, hpos'⟩ := hq'
  dsimp only at *
  rw [Point.mk.injEq]
  omega

/-! ## The bounding box -/

/-- A loop that looks for a bound finds a coordinate or stays where it began. -/
lemma foldl_bound {coord : Point → ℤ} {better : ℤ → Point → Prop} [∀ b v, Decidable (better b v)]
    (vertices : List Point) (b : ℤ) :
    vertices.foldl (fun b v => if better b v then coord v else b) b = b ∨
      ∃ v ∈ vertices, vertices.foldl (fun b v => if better b v then coord v else b) b =
        coord v := by
  induction vertices generalizing b with
  | nil => exact Or.inl rfl
  | cons v vertices ih =>
    rw [List.foldl_cons]
    rcases ih (if better b v then coord v else b) with h | ⟨w, hw, h⟩
    · by_cases hbetter : better b v
      · rw [if_pos hbetter] at h ⊢
        exact Or.inr ⟨v, List.mem_cons_self, h⟩
      · rw [if_neg hbetter] at h ⊢
        exact Or.inl h
    · exact Or.inr ⟨w, List.mem_cons_of_mem v hw, h⟩

/-- The left bound is zero or that of a vertex. -/
lemma getLeft_eq (vertices : List Point) :
    getLeft vertices = 0 ∨ ∃ v ∈ vertices, getLeft vertices = v.x := foldl_bound vertices 0

/-- The right bound is. -/
lemma getRight_eq (vertices : List Point) :
    getRight vertices = 0 ∨ ∃ v ∈ vertices, getRight vertices = v.x := foldl_bound vertices 0

/-- The lower bound is. -/
lemma getBottom_eq (vertices : List Point) :
    getBottom vertices = 0 ∨ ∃ v ∈ vertices, getBottom vertices = v.y := foldl_bound vertices 0

/-- The upper bound is. -/
lemma getTop_eq (vertices : List Point) :
    getTop vertices = 0 ∨ ∃ v ∈ vertices, getTop vertices = v.y := foldl_bound vertices 0

/-- If no vertex is out of reach, then no point of the box is. -/
lemma mem_upper_of_mem_candidates {vertices : List Point} (hsmall : ∀ v ∈ vertices, Small v)
    (hpos : ∀ v ∈ vertices, 0 ≤ v.y) {q : Point} (hq : q ∈ candidates vertices) : q ∈ upper := by
  obtain ⟨hleft, hright, hbottom, htop⟩ := Point.mem_box.mp hq
  have hleft' : -2 ^ 15 < getLeft vertices := by
    rcases getLeft_eq vertices with h | ⟨v, hv, h⟩
    · rw [h]
      omega
    · rw [h]
      exact (hsmall v hv).1
  have hright' : getRight vertices < 2 ^ 15 := by
    rcases getRight_eq vertices with h | ⟨v, hv, h⟩
    · rw [h]
      omega
    · rw [h]
      exact (hsmall v hv).2.1
  have hbottom' : 0 ≤ getBottom vertices := by
    rcases getBottom_eq vertices with h | ⟨v, hv, h⟩
    · rw [h]
    · rw [h]
      exact hpos v hv
  have htop' : getTop vertices < 2 ^ 15 := by
    rcases getTop_eq vertices with h | ⟨v, hv, h⟩
    · rw [h]
      omega
    · rw [h]
      exact (hsmall v hv).2.2.2
  refine ⟨⟨?_, ?_, ?_, ?_⟩, ?_⟩ <;> omega

/-! ## The loops through the box -/

variable {mul : ℤ → ℤ → ℤ}

/-- **What the loops leave**: the points of the box are asked for in order. -/
lemma collect_eq (qs : List Point) (p : Polygon) :
    collect mul qs p =
      let answer := filterAsk lookup (evenOdd mul p.vertices) (qs.filter fun q => p.InBounds q)
        p.pointCache
      { p with pointCache := answer.2, enclosed := p.enclosed ++ answer.1 } := by
  induction qs generalizing p with
  | nil =>
    show p = { p with pointCache := p.pointCache, enclosed := p.enclosed ++ [] }
    rw [List.append_nil]
  | cons q qs ih =>
    by_cases hq : p.InBounds q
    · rw [collect, enclosesPoint, if_pos hq, List.filter_cons_of_pos (by simpa using hq), filterAsk]
      dsimp only
      cases (ask lookup (evenOdd mul p.vertices) q p.pointCache).1 with
      | true =>
        rw [if_pos rfl, if_pos rfl, ih]
        dsimp only
        rw [List.append_assoc, List.singleton_append]
        rfl
      | false =>
        rw [if_neg Bool.false_ne_true, if_neg Bool.false_ne_true, ih]
        rfl
    · rw [collect, enclosesPoint, if_neg hq, List.filter_cons_of_neg (by simpa using hq)]
      exact ih p

/-! ## Histories -/

/-- What holds in a run that is safe. -/
structure Inv (mul : ℤ → ℤ → ℤ) (p : Polygon) : Prop where
  bounds : p.vertices ≠ [] → p.setBounds = p
  small : ∀ v ∈ p.vertices, Small v
  sound : Sound lookup (evenOdd mul p.vertices) upper p.pointCache
  enclosed : p.enclosed ≠ [] → ∀ q, q ∈ p.enclosed ↔ p.Encloses mul q
  unasked : p.pointCache = (fun _ => none) → p.enclosed = []

/-- A polygon without vertices has the invariant, whatever its bounds are. -/
lemma inv_new (garbage : Polygon) : (new garbage).Inv mul where
  bounds h := absurd rfl h
  small _ hv := absurd hv List.not_mem_nil
  sound := sound_empty
  enclosed h := absurd rfl h
  unasked _ := rfl

/-- So has one that has been made from vertices. -/
lemma inv_ofVertices {garbage : Polygon} {vertices : List Point}
    (hsmall : ∀ v ∈ vertices, Small v) : (ofVertices garbage vertices).Inv mul where
  bounds _ := rfl
  small := hsmall
  sound := sound_empty
  enclosed h := absurd rfl h
  unasked _ := rfl

/-- Only points of the box are enclosed. -/
lemma Inv.mem_candidates {p : Polygon} (h : p.Inv mul) {q : Point} (hq : p.Encloses mul q) :
    q ∈ candidates p.vertices := by
  obtain ⟨hbounds, hodd⟩ := hq
  have hne : p.vertices ≠ [] := by
    intro hnil
    rw [hnil] at hodd
    exact absurd hodd Bool.false_ne_true
  rw [← h.bounds hne] at hbounds
  exact Point.mem_box.mpr hbounds

/-- A vertex that is added before any question leaves the invariant. -/
lemma Inv.addVertex {p : Polygon} (h : p.Inv mul) {x y : ℤ} (hsmall : Small ⟨x, y⟩)
    (hunasked : p.pointCache = fun _ => none) : (p.addVertex x y).Inv mul where
  bounds _ := rfl
  small v hv := by
    rcases List.mem_append.mp hv with hv | hv
    · exact h.small v hv
    · rw [List.mem_singleton.mp hv]
      exact hsmall
  sound := by
    show Sound lookup _ upper p.pointCache
    rw [hunasked]
    exact sound_empty
  enclosed hne := absurd (h.unasked hunasked) hne
  unasked := h.unasked

/-- **A question for a point** is answered right, and leaves the invariant. -/
lemma Inv.enclosesPoint {p : Polygon} (h : p.Inv mul) {q : Point} (hsmall : Small q)
    (hpos : p.InBounds q → 0 ≤ q.y) :
    ((p.enclosesPoint mul q).1 = true ↔ p.Encloses mul q) ∧ (p.enclosesPoint mul q).2.Inv mul := by
  unfold Polygon.enclosesPoint
  by_cases hq : p.InBounds q
  · obtain ⟨hanswer, hsound⟩ := h.sound.ask injOn_lookup ⟨hsmall, hpos hq⟩
    rw [if_pos hq]
    dsimp only
    refine ⟨?_, ?_⟩
    · rw [hanswer, Encloses, and_iff_right hq]
    · refine ⟨fun hne => ?_, h.small, hsound, h.enclosed, fun hnone => ?_⟩
      · have hbounds := h.bounds hne
        rw [← hbounds]
        rfl
      · have hkey : (ask lookup (evenOdd mul p.vertices) q p.pointCache).2 (lookup q) = _ :=
          ask_snd_key
        change (ask lookup (evenOdd mul p.vertices) q p.pointCache).2 = _ at hnone
        rw [hnone] at hkey
        exact absurd hkey (by simp)
  · rw [if_neg hq, Encloses]
    exact ⟨⟨fun hfalse => absurd hfalse Bool.false_ne_true, fun hin => absurd hin.1 hq⟩, h⟩

/-- **A question for all points** is answered right, and leaves the invariant. -/
lemma Inv.enclosedPoints {p : Polygon} (h : p.Inv mul) (hpos : ∀ v ∈ p.vertices, 0 ≤ v.y) :
    (∀ q, q ∈ (p.enclosedPoints mul).1 ↔ p.Encloses mul q) ∧ (p.enclosedPoints mul).2.Inv mul := by
  unfold Polygon.enclosedPoints
  by_cases hlen : p.enclosed.length > 0
  · rw [if_pos hlen]
    exact ⟨h.enclosed (List.ne_nil_of_length_pos hlen), h⟩
  · have hnil : p.enclosed = [] := List.eq_nil_of_length_eq_zero (by omega)
    have hupper : ∀ q ∈ (candidates p.vertices).filter fun q => p.InBounds q, q ∈ upper :=
      fun q hq => mem_upper_of_mem_candidates h.small hpos (List.mem_of_mem_filter hq)
    obtain ⟨hanswer, hsound⟩ := h.sound.filterAsk injOn_lookup hupper
    rw [if_neg hlen, collect_eq, hnil]
    dsimp only
    rw [hanswer, List.nil_append]
    have hmem : ∀ q, q ∈ ((candidates p.vertices).filter fun q => p.InBounds q).filter
        (evenOdd mul p.vertices) ↔ p.Encloses mul q := by
      intro q
      rw [List.mem_filter, List.mem_filter, decide_eq_true_iff]
      constructor
      · rintro ⟨⟨-, hbounds⟩, hodd⟩
        exact ⟨hbounds, hodd⟩
      · intro hq
        exact ⟨⟨h.mem_candidates hq, hq.1⟩, hq.2⟩
    refine ⟨hmem, fun hne => ?_, h.small, hsound, fun _ => hmem, fun hnone => ?_⟩
    · have hbounds := h.bounds hne
      rw [← hbounds]
      rfl
    · dsimp only at hnone ⊢
      rw [← hanswer, filterAsk_eq_filter, hnone]
      exact List.filter_eq_nil_iff.mpr fun _ _ => by simp

/-- A safe call returns what it should, and leaves the invariant. -/
lemma Inv.step {p : Polygon} (h : p.Inv mul) {act : PolygonAct} (hsmall : SmallAct act)
    (hsafe : SafeAct act p) : AnswersRight mul act p ∧ (p.step mul act).Inv mul := by
  cases act with
  | addVertex x y => exact ⟨trivial, h.addVertex hsmall hsafe⟩
  | enclosesPoint q => exact h.enclosesPoint hsmall hsafe
  | enclosedPoints => exact h.enclosedPoints hsafe

/-- A polygon as a constructor leaves it. -/
def IsNew (p : Polygon) : Prop :=
  ∃ garbage, p = new garbage ∨ ∃ vertices, (∀ v ∈ vertices, Small v) ∧ p = ofVertices garbage vertices

/-- **The caches are not seen in a safe history**: every answer is that of the even-odd test on the
vertices of the moment. -/
theorem answersRight_of_guarded (mul : ℤ → ℤ → ℤ) (p : Polygon) (hnew : p.IsNew)
    (acts : List PolygonAct) (hsmall : ∀ act ∈ acts, SmallAct act)
    (hsafe : Guarded (step mul) SafeAct p acts) :
    ∀ before act after, acts = before ++ act :: after →
      AnswersRight mul act (run (step mul) p before) := by
  rintro before act after rfl
  have hinv : p.Inv mul := by
    obtain ⟨garbage, rfl | ⟨vertices, hvertices, rfl⟩⟩ := hnew
    · exact inv_new garbage
    · exact inv_ofVertices hvertices
  obtain ⟨hbefore, ⟨hsmallAct, hsafeAct⟩, -⟩ := (guarded_append _).mp (hsafe.and_forall hsmall)
  have hrun : (run (step mul) p before).Inv mul :=
    run_invariant (fun _ _ hallowed h => (h.step hallowed.1 hallowed.2).2) hinv hbefore
  exact (hrun.step hsmallAct hsafeAct).1

/-- A triangle that is built, asked for a point and then for all of them. -/
theorem answersRight_of_guarded_triangle :
    AnswersRight (· * ·) .enclosedPoints (run (step (· * ·)) (new ⟨[], 0, 0, 0, 0, fun _ => none, []⟩)
      [.addVertex 0 0, .addVertex 10 0, .addVertex 0 10, .enclosesPoint ⟨1, 1⟩]) :=
  answersRight_of_guarded (· * ·) _ ⟨_, Or.inl rfl⟩
    [.addVertex 0 0, .addVertex 10 0, .addVertex 0 10, .enclosesPoint ⟨1, 1⟩, .enclosedPoints]
    (by decide) ⟨rfl, rfl, rfl, fun _ => by decide,
      (by decide : ∀ v ∈ [(⟨0, 0⟩ : Point), ⟨10, 0⟩, ⟨0, 10⟩], 0 ≤ v.y), trivial⟩ _ _ [] rfl

/-- Two points of a row with a negative `y` have one key, so the answer for the first one is given
for the second one too. -/
theorem not_answersRight :
    ¬ ∀ p : Polygon, p.IsNew → ∀ acts : List PolygonAct, (∀ act ∈ acts, SmallAct act) →
      ∀ before act after, acts = before ++ act :: after →
        AnswersRight (· * ·) act (run (step (· * ·)) p before) := by
  intro h
  let triangle := ofVertices ⟨[], 0, 0, 0, 0, fun _ => none, []⟩ [⟨0, -10⟩, ⟨10, -10⟩, ⟨0, 0⟩]
  have hanswer := h triangle ⟨_, Or.inr ⟨_, by decide, rfl⟩⟩
    [.enclosesPoint ⟨1, -8⟩, .enclosesPoint ⟨9, -8⟩] (by decide) [.enclosesPoint ⟨1, -8⟩] _ [] rfl
  have hodd := (hanswer.mp (by decide)).2
  exact absurd hodd (by decide)

end Polygon

end NaoSoccer
