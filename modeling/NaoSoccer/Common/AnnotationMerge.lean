import NaoSoccer.Common.AnnotationFrames

/-!
# Copying annotations with the frames of a log

When frames of one log are appended to another, `mergeAnnotations` copies the annotations that reach
into these frames.  Each copy is cut to the frames and moved with them, unless an equal annotation
of the target ends at the first new frame, which is made longer instead.

The cut takes the number of frames of the whole annotation, so the copy of an annotation that begins
in front of the copied frames is too long, and so is that of one that begins inside and ends behind
them.  An equal annotation should end one frame earlier to be made longer, and annotations are equal
whatever the shapes of their selections are.  `mergeAnnotations_merges_iff` says when the frames are
right where none is made longer.

Counters of 32 bits are taken to be large enough.
-/

namespace NaoSoccer

open NarrowLoop

namespace NamedAnnotation

/-- `VisionAnnotation::copy`.  The loop over the selections counts in 16 bits. -/
def copy (passes : ℕ) (address : ℕ → ℕ) (v : NamedAnnotation) : Except Unit NamedAnnotation := do
  let selections ← forEach 16 () v.selections
    (appending fun copied s => .ok (s.copy (address copied.length))) passes 0 []
  return { v with selections := selections }

/-- What `VisionAnnotation::operator==` compares. -/
structure Compared where
  name : String
  color : Color
  camera : CameraType
  isSample : Bool
  centerPoints : List (Σ _ : ℤ, Point)
  /-- `Selection::operator==` compares the offsets. -/
  offsets : List (List (Σ _ : ℤ, Point))
  deriving DecidableEq

/-- What is compared of an annotation. -/
def compared (v : NamedAnnotation) : Compared where
  name := v.name
  color := v.color
  camera := v.camera
  isSample := v.isSample
  centerPoints := sortedEntries v.centerPoints
  offsets := v.selections.map fun s => sortedEntries s.offsets

/-- `VisionAnnotation::operator==` -/
def equals (v other : NamedAnnotation) : Bool :=
  decide (v.compared = other.compared)

/-- The annotation reaches into the copied frames. -/
def reachesInto (sourceMinFrame targetRange : ℤ) (v : NamedAnnotation) : Bool :=
  v.minFrame ≤ sourceMinFrame + targetRange - 1 && sourceMinFrame ≤ v.maxFrame

/-- How `mergeAnnotations` cuts and moves a copy. -/
def moveTo (sourceMinFrame targetMinFrame targetRange : ℤ) (v : NamedAnnotation) :
    NamedAnnotation :=
  let frameOffset := targetMinFrame - sourceMinFrame
  let newMinFrame := max sourceMinFrame v.minFrame
  let annotationRange := v.maxFrame - v.minFrame + 1
  let range := min annotationRange targetRange
  { v with
    toVisionAnnotation := v.toVisionAnnotation.remapCenterPoints frameOffset
    minFrame := newMinFrame + frameOffset
    maxFrame := newMinFrame + frameOffset + range - 1 }

end NamedAnnotation

namespace AnnotationGroup

variable (sourceMinFrame targetMinFrame targetRange : ℤ)

/-- A pass of the second loop of `AnnotationGroup::mergeAnnotations`. -/
def mergeOne (vannotations : List NamedAnnotation) ( annotation : NamedAnnotation) :
    List NamedAnnotation :=
  match vannotations.findIdx? fun va =>
      va.maxFrame = targetMinFrame && va.equals annotation with
  | some i => vannotations.modify i fun va => va.setMaxFrame (targetMinFrame + targetRange - 1)
  | none => vannotations ++ [ annotation.moveTo sourceMinFrame targetMinFrame targetRange]

/-- `AnnotationGroup::mergeAnnotations`: the source annotations, which are copied before anything is
changed, and the group.  The new selections get the addresses of the given function. -/
def mergeAnnotations {φ : Type} (passes : ℕ) (address : ℕ → ℕ → ℕ)
    (annotations : List NamedAnnotation) (g : AnnotationGroup φ) :
    Except Unit (List NamedAnnotation × AnnotationGroup φ) := do
  let toMerge ←
    (annotations.filter fun annotation => annotation.reachesInto sourceMinFrame targetRange).foldlM
      (appending fun copied annotation => annotation.copy passes (address copied.length)) []
  return (annotations,
    { g with
      vannotations := toMerge.foldl (mergeOne sourceMinFrame targetMinFrame targetRange)
        g.vannotations })

end AnnotationGroup

/-! ## What should be copied -/

/-- What is annotated: the name, the color, the camera and the shapes of the selections. -/
def NamedAnnotation.label (v : NamedAnnotation) :
    String × Color × CameraType × List SelectionShape :=
  (v.name, v.color, v.camera, v.selections.map Selection.shape)

/-- One of the annotations with this label is for the frame. -/
def AnnotatedAt (vs : List NamedAnnotation)
    (label : String × Color × CameraType × List SelectionShape) (frame : ℤ) : Prop :=
  ∃ v ∈ vs, v.label = label ∧ frame ∈ v.frames

/-- The call ends.  The new frames are annotated as the frames they come from are by the source, all
other frames as they were before, and the source annotations are what they were. -/
def MergesFrames {φ : Type} (address : ℕ → ℕ → ℕ) (s t r : ℤ) (annotations : List NamedAnnotation)
    (g : AnnotationGroup φ) : Prop :=
  ∃ passes annotations' g', g.mergeAnnotations s t r passes address annotations =
      .ok (annotations', g') ∧
    (∀ label k, t ≤ k → k < t + r →
      (AnnotatedAt g'.vannotations label k ↔ AnnotatedAt annotations label (s + (k - t)))) ∧
    (∀ label k, ¬ (t ≤ k ∧ k < t + r) →
      (AnnotatedAt g'.vannotations label k ↔ AnnotatedAt g.vannotations label k)) ∧
    annotations' = annotations

/-! ## Copies -/

namespace NamedAnnotation

/-- The copy whose selections have the address zero. -/
def copied (v : NamedAnnotation) : NamedAnnotation :=
  { v with selections := v.selections.map (Selection.copy 0) }

/-- The annotation is a copy, with selections at some addresses. -/
structure IsCopy (v w : NamedAnnotation) : Prop where
  minFrame : w.minFrame = v.minFrame
  maxFrame : w.maxFrame = v.maxFrame
  label : w.label = v.label
  compared : w.compared = v.copied.compared
  compared_moveTo : ∀ s t r, (w.moveTo s t r).compared = (v.copied.moveTo s t r).compared

/-- Selections that are copied have the same shapes and no offsets. -/
lemma isCopy_of_selections {v : NamedAnnotation} {selections : List Selection}
    (h : List.Forall₂ (fun s s' : Selection => s'.shape = s.shape ∧ s'.offsets = ∅) v.selections
      selections) : IsCopy v { v with selections := selections } := by
  have hmap {β : Type} (f : Selection → β)
      (hf : ∀ s s' : Selection, s'.shape = s.shape ∧ s'.offsets = ∅ → f s' = f (s.copy 0)) :
      selections.map f = (v.selections.map (Selection.copy 0)).map f := by
    refine List.forall₂_eq_eq_eq ▸ ?_
    rw [List.forall₂_map_left_iff, List.forall₂_map_right_iff, List.forall₂_map_right_iff]
    exact h.flip.imp fun s' s => hf s s'
  have hshapes := hmap Selection.shape fun s s' hs => hs.1
  have hoffsets := hmap (fun s => sortedEntries s.offsets) fun s s' hs =>
    congrArg sortedEntries hs.2
  rw [List.map_map] at hshapes
  exact ⟨rfl, rfl, congrArg (fun shapes => (v.name, v.color, v.camera, shapes)) hshapes,
    congrArg (Compared.mk v.name v.color v.camera v.isSample _) hoffsets,
    fun s t r => congrArg (Compared.mk v.name v.color v.camera v.isSample _) hoffsets⟩

/-- What is copied can be counted, and the copy is one. -/
lemma isCopy_of_copy {passes : ℕ} {address : ℕ → ℕ} {v w : NamedAnnotation}
    (h : v.copy passes address = .ok w) : v.selections.length < 2 ^ 16 ∧ IsCopy v w := by
  obtain ⟨selections, hselections, hw⟩ := Outcome.bind_eq_ok_iff.mp h
  obtain rfl := Except.ok.inj hw
  obtain ⟨hshort, hloop⟩ := foldlM_of_forEach_ok hselections
  obtain ⟨copied, hcopied, hforall⟩ := forall₂_of_foldlM_appending hloop
  obtain rfl : selections = copied := hcopied
  refine ⟨hshort, isCopy_of_selections (hforall.imp fun s s' hs => ?_)⟩
  obtain ⟨ys, hs⟩ := hs
  obtain rfl := Except.ok.inj hs
  exact ⟨rfl, rfl⟩

/-- An annotation whose selections can be counted is copied. -/
lemma exists_copy (address : ℕ → ℕ) {v : NamedAnnotation} (hshort : v.selections.length < 2 ^ 16)
    {passes : ℕ} (hpasses : v.selections.length < passes) :
    ∃ w, v.copy passes address = .ok w := by
  obtain ⟨selections, hselections, -⟩ := forEach_appending (w := 16) () (g := id)
    (f := fun copied s => .ok ( Selection.copy (address copied.length) s)) (R := fun _ _ => True)
    hshort (fun s _ _ => ⟨_, rfl, trivial⟩) hpasses
  rw [List.map_id] at hselections
  refine ⟨{ v with selections := selections }, ?_⟩
  rw [copy, hselections]
  rfl

/-- The frames of the source that the copy of an annotation is for. -/
def cut (s r : ℤ) (v : NamedAnnotation) : Set ℤ :=
  Set.Icc (max s v.minFrame) (max s v.minFrame + min (v.maxFrame - v.minFrame + 1) r - 1)

/-- The frames of a copy come from those that it is cut to. -/
lemma IsCopy.mem_frames_moveTo {v w : NamedAnnotation} (h : IsCopy v w) (s t r k : ℤ) :
    k ∈ (w.moveTo s t r).frames ↔ s + (k - t) ∈ v.cut s r := by
  rw [frames_eq_Icc, cut, Set.mem_Icc, Set.mem_Icc]
  unfold moveTo
  dsimp only
  rw [h.minFrame, h.maxFrame]
  omega

/-- The copy of an annotation is for all of its frames that are copied. -/
lemma mem_cut_of_mem_frames {s r j : ℤ} {v : NamedAnnotation} (hj : j ∈ v.frames) (hs : s ≤ j)
    (hr : j < s + r) : v.reachesInto s r = true ∧ j ∈ v.cut s r := by
  rw [frames_eq_Icc, Set.mem_Icc] at hj
  constructor
  · unfold reachesInto
    rw [Bool.and_eq_true, decide_eq_true_eq, decide_eq_true_eq]
    omega
  · unfold cut
    rw [Set.mem_Icc]
    omega

end NamedAnnotation

/-! ## The two loops -/

/-- No annotation that reaches into the copied frames meets an equal one that ends at the first new
frame, neither in the group nor among the copies. -/
structure Unmatched (s t r : ℤ) (annotations vannotations : List NamedAnnotation) : Prop where
  group : ∀ va ∈ vannotations, va.maxFrame = t →
    ∀ a ∈ annotations, a.reachesInto s r = true → va.equals a.copied = false
  copies : (annotations.filter fun a => a.reachesInto s r).Pairwise fun b a =>
    (b.copied.moveTo s t r).maxFrame = t → (b.copied.moveTo s t r).equals a.copied = false

namespace AnnotationGroup

variable {s t r : ℤ}

/-- An annotation that meets no equal one is appended. -/
lemma mergeOne_of_unmatched {vs : List NamedAnnotation} {m : NamedAnnotation}
    (h : ∀ va ∈ vs, va.maxFrame = t → va.equals m = false) :
    mergeOne s t r vs m = vs ++ [m.moveTo s t r] := by
  have hnone : vs.findIdx? (fun va => va.maxFrame = t && va.equals m) = none := by
    rw [List.findIdx?_eq_none_iff]
    intro va hva
    by_cases hmax : va.maxFrame = t
    · rw [h va hva hmax, Bool.and_false]
    · rw [decide_eq_false hmax, Bool.false_and]
  unfold mergeOne
  rw [hnone]

/-- **The second loop** appends all copies if none of them meets an equal annotation. -/
lemma foldl_mergeOne {as ms : List NamedAnnotation}
    (hcopies : List.Forall₂ NamedAnnotation.IsCopy as ms) {vs : List NamedAnnotation}
    (hvs : ∀ va ∈ vs, va.maxFrame = t → ∀ a ∈ as, va.equals a.copied = false)
    (has : as.Pairwise fun b a => (b.copied.moveTo s t r).maxFrame = t →
      (b.copied.moveTo s t r).equals a.copied = false) :
    ms.foldl (mergeOne s t r) vs = vs ++ ms.map fun m => m.moveTo s t r := by
  induction hcopies generalizing vs with
  | nil => rw [List.foldl_nil, List.map_nil, List.append_nil]
  | @cons a m as ms hcopy _ ih =>
    have hequals (va : NamedAnnotation) : va.equals m = va.equals a.copied := by
      unfold NamedAnnotation.equals
      rw [hcopy.compared]
    have hmoved (b : NamedAnnotation) :
        (m.moveTo s t r).equals b = (a.copied.moveTo s t r).equals b := by
      unfold NamedAnnotation.equals
      rw [hcopy.compared_moveTo]
    have hmax : (m.moveTo s t r).maxFrame = (a.copied.moveTo s t r).maxFrame := by
      unfold NamedAnnotation.moveTo
      dsimp only
      rw [hcopy.minFrame, hcopy.maxFrame]
      rfl
    obtain ⟨hfirst, hrest⟩ := List.pairwise_cons.mp has
    rw [List.foldl_cons, mergeOne_of_unmatched fun va hva heq => ?_, ih ?_ hrest, List.map_cons,
      List.append_assoc]
    · rfl
    · intro va hva heq b hb
      rcases List.mem_append.mp hva with hva | hva
      · exact hvs va hva heq b (List.mem_cons_of_mem _ hb)
      · obtain rfl := List.mem_singleton.mp hva
        rw [hmoved]
        exact hfirst b hb (hmax ▸ heq)
    · rw [hequals]
      exact hvs va hva heq a List.mem_cons_self

variable {φ : Type} {address : ℕ → ℕ → ℕ} {annotations : List NamedAnnotation}
  {g : AnnotationGroup φ}

/-- The call ends if the selections of all annotations that are copied can be counted. -/
lemma exists_mergeAnnotations (address : ℕ → ℕ → ℕ) (g : AnnotationGroup φ)
    (hshort : ∀ a ∈ annotations, a.reachesInto s r = true → a.selections.length < 2 ^ 16) :
    ∃ passes result, g.mergeAnnotations s t r passes address annotations = .ok result := by
  have hcopies (a) (ha : a ∈ annotations.filter fun a => a.reachesInto s r) (ys : List NamedAnnotation) :
      ∃ w, NamedAnnotation.copy (2 ^ 16) (address ys.length) a = .ok w ∧ True := by
    obtain ⟨hmem, hreaches⟩ := List.mem_filter.mp ha
    obtain ⟨w, hw⟩ := NamedAnnotation.exists_copy (address ys.length) (hshort a hmem hreaches)
      (hshort a hmem hreaches)
    exact ⟨w, hw, trivial⟩
  obtain ⟨ms, hms, -⟩ := foldlM_appending (g := id)
    (f := fun copied annotation => NamedAnnotation.copy (2 ^ 16) (address copied.length) annotation)
    (R := fun _ _ => True) hcopies []
  rw [List.map_id, List.nil_append] at hms
  refine ⟨2 ^ 16, (annotations,
    { g with vannotations := ms.foldl (mergeOne s t r) g.vannotations }), ?_⟩
  rw [mergeAnnotations, hms]
  rfl

/-- **What a call does** that ends: the selections of all annotations that are copied can be
counted, and if no copy meets an equal annotation, all are appended. -/
lemma mergeAnnotations_eq {passes : ℕ} {result : List NamedAnnotation × AnnotationGroup φ}
    (h : g.mergeAnnotations s t r passes address annotations = .ok result)
    (hmatch : Unmatched s t r annotations g.vannotations) :
    (∀ a ∈ annotations, a.reachesInto s r = true → a.selections.length < 2 ^ 16) ∧
    ∃ ms, List.Forall₂ NamedAnnotation.IsCopy (annotations.filter fun a => a.reachesInto s r) ms ∧
      result = (annotations,
        { g with vannotations := g.vannotations ++ ms.map fun m => m.moveTo s t r }) := by
  obtain ⟨ms, hms, hresult⟩ := Outcome.bind_eq_ok_iff.mp h
  obtain ⟨copied, hcopied, hforall⟩ := forall₂_of_foldlM_appending hms
  obtain rfl : ms = copied := hcopied
  have hcopies := hforall.imp fun a w (hw : ∃ _, _) =>
    ( NamedAnnotation.isCopy_of_copy hw.choose_spec).2
  constructor
  · intro a ha hreaches
    obtain ⟨ys, w, hw⟩ := body_of_foldlM_appending hms a (List.mem_filter.mpr ⟨ha, hreaches⟩)
    exact ( NamedAnnotation.isCopy_of_copy hw).1
  · refine ⟨ms, hcopies, ?_⟩
    rw [← Except.ok.inj hresult, foldl_mergeOne hcopies ?_ hmatch.copies]
    intro va hva heq a ha
    exact hmatch.group va hva heq a (List.mem_filter.mp ha).1 (List.mem_filter.mp ha).2

end AnnotationGroup

/-! ## The frames of the copies -/

section Frames

variable {s t r : ℤ} {annotations : List NamedAnnotation}

/-- A frame is annotated in the old annotations or in the copies that are cut to it. -/
lemma annotatedAt_append_iff {vs ms : List NamedAnnotation}
    (hcopies : List.Forall₂ NamedAnnotation.IsCopy
      (annotations.filter fun a => a.reachesInto s r) ms)
    (label : String × Color × CameraType × List SelectionShape) (k : ℤ) :
    AnnotatedAt (vs ++ ms.map fun m => m.moveTo s t r) label k ↔ AnnotatedAt vs label k ∨
      ∃ a ∈ annotations, a.reachesInto s r = true ∧ a.label = label ∧ s + (k - t) ∈ a.cut s r := by
  have hmoved {as ms : List NamedAnnotation}
      (h : List.Forall₂ NamedAnnotation.IsCopy as ms) :
      (∃ m ∈ ms, m.label = label ∧ k ∈ (m.moveTo s t r).frames) ↔
        ∃ a ∈ as, a.label = label ∧ s + (k - t) ∈ a.cut s r := by
    induction h with
    | nil => simp
    | cons hcopy _ ih =>
      rw [List.exists_mem_cons_iff, List.exists_mem_cons_iff, ih, hcopy.label,
        hcopy.mem_frames_moveTo]
  unfold AnnotatedAt
  constructor
  · rintro ⟨v, hv, hlabel, hk⟩
    rcases List.mem_append.mp hv with hv | hv
    · exact Or.inl ⟨v, hv, hlabel, hk⟩
    · obtain ⟨m, hm, rfl⟩ := List.mem_map.mp hv
      obtain ⟨a, ha, hcut⟩ := (hmoved hcopies).mp ⟨m, hm, hlabel, hk⟩
      obtain ⟨ha, hreaches⟩ := List.mem_filter.mp ha
      exact Or.inr ⟨a, ha, hreaches, hcut⟩
  · rintro (⟨v, hv, hlabel, hk⟩ | ⟨a, ha, hreaches, hcut⟩)
    · exact ⟨v, List.mem_append_left _ hv, hlabel, hk⟩
    · obtain ⟨m, hm, hlabel, hk⟩ :=
        (hmoved hcopies).mpr ⟨a, List.mem_filter.mpr ⟨ha, hreaches⟩, hcut⟩
      exact ⟨_, List.mem_append_right _ (List.mem_map_of_mem hm), hlabel, hk⟩

variable {φ : Type} {g : AnnotationGroup φ}

/-- **The frames are right** exactly if every copy is for copied frames only, and for no frame that
the source does not annotate alike. -/
lemma mergesFrames_iff_cut (address : ℕ → ℕ → ℕ)
    (ht : ∀ va ∈ g.vannotations, ∀ k ∈ va.frames, k < t)
    (hmatch : Unmatched s t r annotations g.vannotations) :
    MergesFrames address s t r annotations g ↔
      ∀ a ∈ annotations, a.reachesInto s r = true → a.selections.length < 2 ^ 16 ∧
        ∀ j ∈ a.cut s r, j < s + r ∧ AnnotatedAt annotations a.label j := by
  have hold {label k} (hk : t ≤ k) : ¬ AnnotatedAt g.vannotations label k := by
    rintro ⟨va, hva, -, hmem⟩
    exact absurd (ht va hva k hmem) (not_lt.mpr hk)
  have hfrom {a : NamedAnnotation} {j : ℤ} (hj : j ∈ a.cut s r) : s ≤ j := by
    unfold NamedAnnotation.cut at hj
    rw [Set.mem_Icc] at hj
    omega
  constructor
  · rintro ⟨passes, annotations', g', hmerge, hwindow, houtside, -⟩ a ha hreaches
    obtain ⟨hshort, ms, hcopies, hresult⟩ := AnnotationGroup.mergeAnnotations_eq hmerge hmatch
    obtain ⟨-, rfl⟩ := Prod.mk.inj hresult
    refine ⟨hshort a ha hreaches, fun j hj => ?_⟩
    have hback : s + (t + (j - s) - t) = j := by omega
    have hle : t ≤ t + (j - s) := by have := hfrom hj; omega
    have hcopied : AnnotatedAt (g.vannotations ++ ms.map fun m => m.moveTo s t r) a.label
        (t + (j - s)) :=
      (annotatedAt_append_iff hcopies a.label (t + (j - s))).mpr
        (Or.inr ⟨a, ha, hreaches, rfl, by rw [hback]; exact hj⟩)
    by_cases hlt : j < s + r
    · rw [hwindow a.label _ hle (by omega), hback] at hcopied
      exact ⟨hlt, hcopied⟩
    · exact absurd ((houtside a.label _ (by omega)).mp hcopied) (hold hle)
  · intro h
    obtain ⟨passes, result, hmerge⟩ := AnnotationGroup.exists_mergeAnnotations (t := t) address g
      fun a ha hreaches => (h a ha hreaches).1
    obtain ⟨-, ms, hcopies, rfl⟩ := AnnotationGroup.mergeAnnotations_eq hmerge hmatch
    refine ⟨passes, annotations, _, hmerge, fun label k hk hlt => ?_, fun label k hout => ?_, rfl⟩
    · rw [annotatedAt_append_iff hcopies, or_iff_right (hold hk)]
      constructor
      · rintro ⟨a, ha, hreaches, rfl, hj⟩
        exact ((h a ha hreaches).2 _ hj).2
      · rintro ⟨a, ha, hlabel, hj⟩
        obtain ⟨hreaches, hcut⟩ :=
          NamedAnnotation.mem_cut_of_mem_frames hj (by omega) (by omega : _ < s + r)
        exact ⟨a, ha, hreaches, hlabel, hcut⟩
    · rw [annotatedAt_append_iff hcopies]
      refine or_iff_left ?_
      rintro ⟨a, ha, hreaches, -, hj⟩
      have hlt := ((h a ha hreaches).2 _ hj).1
      have hle := hfrom hj
      omega

/-- **Merging copies the right frames** exactly if, among the annotations that reach into the copied
frames, none has too many selections to be copied, none begins behind the first of these frames and
ends behind the last, and where one begins in front of them, the frames behind its end that its copy
is for are annotated alike by others.  This is so for calls in which no copy meets an equal
annotation that ends at the first new frame. -/
theorem mergeAnnotations_merges_iff (address : ℕ → ℕ → ℕ)
    (ht : ∀ va ∈ g.vannotations, ∀ k ∈ va.frames, k < t)
    (hmatch : Unmatched s t r annotations g.vannotations) :
    MergesFrames address s t r annotations g ↔
      ∀ a ∈ annotations, a.reachesInto s r = true → a.selections.length < 2 ^ 16 ∧
        (a.minFrame ≤ s ∨ a.maxFrame < s + r) ∧
        (a.minFrame < s → ∀ j, a.maxFrame < j →
          j ≤ s + min (a.maxFrame - a.minFrame + 1) r - 1 → AnnotatedAt annotations a.label j) := by
  rw [mergesFrames_iff_cut address ht hmatch]
  refine forall₃_congr fun a ha hreaches => and_congr_right fun _ => ?_
  have hreach := hreaches
  unfold NamedAnnotation.reachesInto at hreach
  rw [Bool.and_eq_true, decide_eq_true_eq, decide_eq_true_eq] at hreach
  have hcut (j : ℤ) : j ∈ a.cut s r ↔ max s a.minFrame ≤ j ∧
      j ≤ max s a.minFrame + min (a.maxFrame - a.minFrame + 1) r - 1 := Set.mem_Icc
  constructor
  · intro h
    constructor
    · by_contra hnot
      have hlt := (h (s + r) ((hcut _).mpr (by omega))).1
      omega
    · exact fun hmin j hmax hj => (h j ((hcut j).mpr (by omega))).2
  · rintro ⟨hends, hextra⟩ j hj
    rw [hcut] at hj
    refine ⟨by omega, ?_⟩
    by_cases hmax : j ≤ a.maxFrame
    · refine ⟨a, ha, rfl, ?_⟩
      rw [ NamedAnnotation.frames_eq_Icc, Set.mem_Icc]
      omega
    · exact hextra (by omega) j (by omega) (by omega)

/-- The annotation of the ball, for the frames 3 to 9, is the only one of its group, and it meets no
equal one when frames are appended behind frame 9. -/
lemma ballGroup_unmatched (s r : ℤ) {t : ℤ} (ht : 9 < t) :
    (∀ va ∈ (ballGroup (pointPolygon 2)).vannotations, ∀ k ∈ va.frames, k < t) ∧
      Unmatched s t r [annotatedBall (pointPolygon 2)]
        (ballGroup (pointPolygon 2)).vannotations := by
  have hball {va : NamedAnnotation} (hva : va ∈ (ballGroup (pointPolygon 2)).vannotations) :
      va.maxFrame = 9 := by
    rw [List.mem_singleton.mp hva]
    rfl
  refine ⟨fun va hva k hk => ?_, fun va hva heq => ?_, ?_⟩
  · rw [ NamedAnnotation.frames_eq_Icc, Set.mem_Icc, hball hva] at hk
    omega
  · rw [hball hva] at heq
    omega
  · exact (List.pairwise_singleton _ _).sublist List.filter_sublist

/-- The whole annotation of the ball is appended to its group. -/
theorem mergeAnnotations_merges_ball :
    MergesFrames (fun n i => 100 * n + i) 0 10 20 [annotatedBall (pointPolygon 2)]
      (ballGroup (pointPolygon 2)) :=
  (mergeAnnotations_merges_iff (fun n i => 100 * n + i)
    (ballGroup_unmatched 0 20 (by decide)).1 (ballGroup_unmatched 0 20 (by decide)).2).mpr (by
      intro a ha _
      rw [List.mem_singleton.mp ha]
      refine ⟨(by decide : 2 < 2 ^ 16), Or.inr (by decide), fun hmin => ?_⟩
      exact absurd hmin (by decide))

/-- Of the annotation of the ball the frames from 5 on are copied: five frames are annotated, and
the copy is for seven. -/
theorem not_mergeAnnotations_merges :
    ((annotatedBall (pointPolygon 2)).moveTo 5 10 20).frames = Set.Icc 10 16 ∧
      ¬ MergesFrames (fun n i => 100 * n + i) 5 10 20 [annotatedBall (pointPolygon 2)]
        (ballGroup (pointPolygon 2)) := by
  refine ⟨ NamedAnnotation.frames_eq_Icc _, fun h => ?_⟩
  obtain ⟨hold, hmatch⟩ := ballGroup_unmatched 5 20 (t := 10) (by decide)
  obtain ⟨-, hcut⟩ := (mergesFrames_iff_cut _ hold hmatch).mp h _ List.mem_cons_self (by decide)
  obtain ⟨-, a, ha, -, hframe⟩ := hcut 10 (Set.mem_Icc.mpr (by decide))
  rw [List.mem_singleton.mp ha, NamedAnnotation.frames_eq_Icc, Set.mem_Icc] at hframe
  exact absurd hframe (by decide)

end Frames

end NaoSoccer
