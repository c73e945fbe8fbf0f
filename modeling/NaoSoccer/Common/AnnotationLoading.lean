import NaoSoccer.Common.AnnotationGroup

/-!
# Loading a file into a group

`YamlConfig::loadFromFile` reads a document into an object that is there already, and returns
`false` if the library throws.  An `AnnotationGroup` puts every annotation at the end of its lists
as soon as it has been read, so those in front of a fault stay in the group.

An enumeration that does not know a name, or a camera, throws a `std::runtime_error`, which is not
caught.  A number is cast to a color; what becomes of one that no color has is a parameter.  What
the parser makes of a text is one too.
-/

namespace NaoSoccer

open NarrowLoop

/-- How `loadFromFile` ends. -/
inductive LoadResult
  | returned (success : Bool)
  | threw
  | endless
  deriving DecidableEq, Repr

/-- The fault is a `YAML::Exception`. -/
def YamlFault.isException : YamlFault → Bool
  | .keyNotFound | .invalidScalar | .badSubscript => true
  | .endless | .invalidColor | .invalidCamera => false

/-- How `loadFromFile` ends when a fault ends the reading. -/
def YamlFault.result (fault : YamlFault) : LoadResult :=
  if fault.isException then .returned false
  else if fault = .endless then .endless
  else .threw

/-- What `operator>>` makes of a string.  A number that an `int` does not hold is a fault. -/
def Color.read (cast : ℕ → Color) (s : String) : Except YamlFault Color :=
  if isNumber s then
    if number s < 2 ^ 31 then .ok ((all[number s]?).getD (cast (number s))) else .error .invalidColor
  else
    match all.find? fun color => color.getName = s with
    | some color => .ok color
    | none => .error .invalidColor

/-- What `VisionAnnotation::deserialize` reads. -/
structure AnnotationFields where
  name : String
  minFrame : ℤ
  maxFrame : ℤ
  color : Color
  camera : CameraType
  isSample : Bool
  centerPoints : Option (List CenterPointNode)
  selections : List SelectionNode

variable {S φ : Type} (c : Scalars S φ) (passes : ℕ) (cast : ℕ → Color)

namespace AnnotationFields

/-- The reading in `VisionAnnotation::deserialize`, into an annotation with `isSample_` set to
something. -/
def read (isSample : Bool) (node : YamlNode S) : Except YamlFault AnnotationFields := do
  let name ← Scalars.scanAt c.readString "name" node
  let minFrame ← Scalars.scanAt c.readInt "minFrame" node
  let maxFrame ← Scalars.scanAt c.readInt "maxFrame" node
  let color ← Scalars.scanAt c.readString "color" node >>= Color.read cast
  let camera ← Scalars.scanAt c.readString "camera" node >>= CameraType.fromString
  let isSample ← match node.findValue "isSample" with
    | some pSample => Scalars.scan c.readBool pSample
    | none => .ok isSample
  let centerPoints ← match node.findValue "centerPoints" with
    | some pCenterPoints => do
      let items ← pCenterPoints.elements
      let points ← forEach 16 .endless items
        (appending fun _ item => CenterPointNode.deserialize c item) passes 0 []
      .ok (some points)
    | none => .ok none
  let selections ← node.get "selections"
  let items ← selections.elements
  let nodes ← forEach 16 .endless items
    (appending fun _ item => SelectionNode.deserialize c passes item) passes 0 []
  return ⟨name, minFrame, maxFrame, color, camera, isSample, centerPoints, nodes⟩

/-- The annotation that is made of what has been read. -/
def toAnnotation (address : ℕ → ℕ) (fields : AnnotationFields) : NamedAnnotation where
  toVisionAnnotation := VisionAnnotation.empty.deserialize
    ⟨fields.centerPoints, fields.selections.mapIdx fun i node => (address i, node)⟩
  name := fields.name
  minFrame := fields.minFrame
  maxFrame := fields.maxFrame
  color := fields.color
  camera := fields.camera
  isSample := fields.isSample

end AnnotationFields

namespace AnnotationGroup

/-- `vannotations_.push_back(annotation)`; an annotation that becomes the `n`-th has its selections
at the addresses `address n`. -/
def pushVision (address : ℕ → ℕ → ℕ) (g : AnnotationGroup φ) (fields : AnnotationFields) :
    AnnotationGroup φ :=
  { g with vannotations := g.vannotations ++ [fields.toAnnotation (address g.vannotations.length)] }

/-- `lannotations_.push_back(annotation)` -/
def pushLocalization (g : AnnotationGroup φ) (a : LocalizationAnnotation φ) : AnnotationGroup φ :=
  { g with lannotations := g.lannotations ++ [a] }

/-- The first loop of `AnnotationGroup::deserialize`, with what is in the group when a fault ends
it. -/
def deserializeVision (address : ℕ → ℕ → ℕ) (isSample : Bool) (node : YamlNode S)
    (g : AnnotationGroup φ) : Except (YamlFault × AnnotationGroup φ) (AnnotationGroup φ) := do
  let vitems ← (node.get "vision_annotations" >>= YamlNode.elements).mapError (·, g)
  forEach 16 (.endless, g) vitems
    (keeping ( AnnotationFields.read c passes cast isSample) (pushVision address)) passes 0 g

/-- The second loop. -/
def deserializeLocalization (node : YamlNode S) (g : AnnotationGroup φ) :
    Except (YamlFault × AnnotationGroup φ) (AnnotationGroup φ) := do
  let litems ← (node.get "localization_annotations" >>= YamlNode.elements).mapError (·, g)
  forEach 16 (.endless, g) litems
    (keeping ( LocalizationAnnotation.deserialize c) pushLocalization) passes 0 g

/-- `AnnotationGroup::deserialize` -/
def deserializeInto (address : ℕ → ℕ → ℕ) (isSample : Bool) (node : YamlNode S)
    (g : AnnotationGroup φ) : Except (YamlFault × AnnotationGroup φ) (AnnotationGroup φ) := do
  let g ← deserializeVision c passes cast address isSample node g
  deserializeLocalization c passes node g

/-- `YamlConfig::loadFromFile`, of a file that need not be there; `parse` has no result if the
parser throws. -/
def loadFromFile (parse : String → Option (YamlNode S)) (address : ℕ → ℕ → ℕ)
    (isSample : Bool) (file : Option String) (g : AnnotationGroup φ) :
    LoadResult × AnnotationGroup φ :=
  match file with
  | none => (.returned false, g)
  | some text =>
    match parse text with
    | none => (.returned false, g)
    | some doc =>
      match deserializeInto c passes cast address isSample doc g with
      | .ok g' => (.returned true, g')
      | .error (fault, g') => (fault.result, g')

/-! ## What should hold -/

/-- Nothing has been put into the group when the library throws: the first annotation that cannot be
read is the first one of all, and if all of the vision can be read but not the list of the others,
then there are none. -/
structure Clean (isSample : Bool) (doc : YamlNode S) (vitems : List (YamlNode S)) : Prop where
  vision : ∀ before fault,
    FirstFault 16 ( AnnotationFields.read c passes cast isSample) vitems before fault →
      fault.isException = true → before = []
  list : vitems.length < 2 ^ 16 →
    (∀ item ∈ vitems, ∃ fields, AnnotationFields.read c passes cast isSample item = .ok fields) →
      ∀ fault, doc.get "localization_annotations" >>= YamlNode.elements = .error fault →
        fault.isException = true → vitems = []
  localization : vitems.length < 2 ^ 16 →
    (∀ item ∈ vitems, ∃ fields, AnnotationFields.read c passes cast isSample item = .ok fields) →
      ∀ litems, doc.get "localization_annotations" >>= YamlNode.elements = .ok litems →
        ∀ before fault, FirstFault 16 ( LocalizationAnnotation.deserialize c) litems before fault →
          fault.isException = true → vitems = [] ∧ before = []

variable {c passes cast} {address : ℕ → ℕ → ℕ} {isSample : Bool}

/-- Only a fault that is caught makes `loadFromFile` return `false`. -/
lemma result_eq_iff {fault : YamlFault} :
    fault.result = .returned false ↔ fault.isException = true := by
  cases fault <;> decide

variable (address) in
/-- The numbers of annotations after some have been pushed. -/
lemma length_foldl_push (g : AnnotationGroup φ) (fields : List AnnotationFields)
    (annotations : List ( LocalizationAnnotation φ)) :
    let g' := annotations.foldl pushLocalization (fields.foldl (pushVision address) g)
    g'.vannotations.length = g.vannotations.length + fields.length ∧
      g'.lannotations.length = g.lannotations.length + annotations.length := by
  have hvision : ∀ (fields : List AnnotationFields) (g : AnnotationGroup φ),
      (fields.foldl (pushVision address) g).vannotations.length =
          g.vannotations.length + fields.length ∧
        (fields.foldl (pushVision address) g).lannotations = g.lannotations := by
    intro fields
    induction fields with
    | nil => exact fun g => ⟨rfl, rfl⟩
    | cons field fields ih =>
      intro g
      obtain ⟨hlength, hsame⟩ := ih (pushVision address g field)
      refine ⟨hlength.trans ?_, hsame⟩
      rw [pushVision, List.length_append, List.length_singleton, List.length_cons]
      omega
  have hlocalization : ∀ (annotations : List ( LocalizationAnnotation φ)) (g : AnnotationGroup φ),
      (annotations.foldl pushLocalization g).lannotations.length =
          g.lannotations.length + annotations.length ∧
        (annotations.foldl pushLocalization g).vannotations = g.vannotations := by
    intro annotations
    induction annotations with
    | nil => exact fun g => ⟨rfl, rfl⟩
    | cons a annotations ih =>
      intro g
      obtain ⟨hlength, hsame⟩ := ih (pushLocalization g a)
      refine ⟨hlength.trans ?_, hsame⟩
      rw [pushLocalization, List.length_append, List.length_singleton, List.length_cons]
      omega
  obtain ⟨hlength, hsame⟩ := hvision fields g
  obtain ⟨hlength', hsame'⟩ := hlocalization annotations (fields.foldl (pushVision address) g)
  dsimp only
  rw [hlength', hsame', hsame]
  exact ⟨hlength, rfl⟩

variable (address) in
/-- The group is as before exactly if nothing has been pushed. -/
lemma foldl_push_eq_self_iff (g : AnnotationGroup φ) (fields : List AnnotationFields)
    (annotations : List ( LocalizationAnnotation φ)) :
    annotations.foldl pushLocalization (fields.foldl (pushVision address) g) = g ↔
      fields = [] ∧ annotations = [] := by
  constructor
  · intro h
    obtain ⟨hvision, hlocalization⟩ := length_foldl_push address g fields annotations
    rw [h] at hvision hlocalization
    exact ⟨List.eq_nil_of_length_eq_zero (by omega), List.eq_nil_of_length_eq_zero (by omega)⟩
  · rintro ⟨rfl, rfl⟩
    rfl

/-! ## When a rejected file is ignored -/

variable {doc : YamlNode S} {g : AnnotationGroup φ}

variable (address doc g) in
/-- What the second loop leaves of a group when it ends with a fault that is caught. -/
lemma deserializeLocalization_iff (hpasses : 2 ^ 16 < passes) (fields : List AnnotationFields) :
    (∀ fault g', deserializeLocalization c passes doc (fields.foldl (pushVision address) g) =
        .error (fault, g') → fault.isException = true → g' = g) ↔
      (∀ fault, doc.get "localization_annotations" >>= YamlNode.elements = .error fault →
        fault.isException = true → fields = []) ∧
      ∀ litems, doc.get "localization_annotations" >>= YamlNode.elements = .ok litems →
        ∀ before fault, FirstFault 16 ( LocalizationAnnotation.deserialize c) litems before fault →
          fault.isException = true → fields = [] ∧ before = [] := by
  unfold deserializeLocalization
  cases doc.get "localization_annotations" >>= YamlNode.elements with
  | error fault =>
    have hsame := foldl_push_eq_self_iff address g fields []
    rw [and_iff_left rfl] at hsame
    constructor
    · intro h
      refine ⟨fun fault' hfault hcaught => ?_, fun litems hlitems => absurd hlitems (by simp)⟩
      obtain rfl := Except.error.inj hfault
      exact hsame.mp (h fault _ rfl hcaught)
    · rintro ⟨hnil, -⟩ fault' g' herror hcaught
      obtain ⟨rfl, rfl⟩ := Prod.mk.inj (Except.error.inj herror)
      exact hsame.mpr (hnil fault rfl hcaught)
  | ok litems =>
    refine (forEach_keeping_error_iff hpasses
      (P := fun fault : YamlFault => fault.isException = true) ?_).trans ?_
    · exact Bool.false_ne_true
    constructor
    · intro h
      refine ⟨fun fault hfault => absurd hfault (by simp), fun litems' hlitems => ?_⟩
      obtain rfl := Except.ok.inj hlitems
      intro before fault hfirst hcaught
      obtain ⟨annotations, hannotations⟩ := exists_forall₂_of_read hfirst.readable
      have hnil := (foldl_push_eq_self_iff address g fields annotations).mp
        (h before fault annotations hfirst hannotations hcaught)
      refine ⟨hnil.1, List.eq_nil_of_length_eq_zero ?_⟩
      rw [hannotations.length_eq, hnil.2]
      rfl
    · rintro ⟨-, hnil⟩ before fault annotations hfirst hannotations hcaught
      obtain ⟨hfields, rfl⟩ := hnil litems rfl before fault hfirst hcaught
      cases hannotations
      exact (foldl_push_eq_self_iff address g fields []).mpr ⟨hfields, rfl⟩

/-- What is so of all faults of two steps is so of those of the first, and of those of the second
where the first one leads. -/
lemma forall_bind_error_iff {ε α β : Type} {x : Except ε α} {f : α → Except ε β} {P : ε → Prop} :
    (∀ e, x >>= f = .error e → P e) ↔
      (∀ e, x = .error e → P e) ∧ ∀ a, x = .ok a → ∀ e, f a = .error e → P e := by
  cases x with
  | error e => simp
  | ok a => simp

/-- **What the reading leaves of a group** when the list of the vision annotations is there. -/
lemma clean_iff (hpasses : 2 ^ 16 < passes) {vitems : List (YamlNode S)} :
    (∀ error, forEach 16 ( YamlFault.endless, g) vitems
          (keeping ( AnnotationFields.read c passes cast isSample) (pushVision address)) passes 0 g >>=
        deserializeLocalization c passes doc = .error error →
      error.1.isException = true → error.2 = g) ↔ Clean c passes cast isSample doc vitems := by
  have hnil {fields : List AnnotationFields} {items : List (YamlNode S)}
      (h : List.Forall₂ (fun item fields => AnnotationFields.read c passes cast isSample item =
        .ok fields) items fields) : fields = [] ↔ items = [] := by
    rw [← List.length_eq_zero_iff, ← h.length_eq, List.length_eq_zero_iff]
  have hsame (fields : List AnnotationFields) :
      fields.foldl (pushVision address) g = g ↔ fields = [] := by
    have hpush := foldl_push_eq_self_iff address g fields []
    rwa [and_iff_left rfl] at hpush
  rw [forall_bind_error_iff, Prod.forall]
  refine (and_congr_left' (forEach_keeping_error_iff hpasses
    (P := fun fault : YamlFault => fault.isException = true) ?_)).trans ?_
  · exact Bool.false_ne_true
  constructor
  · rintro ⟨hvision, hlocalization⟩
    have hsecond : vitems.length < 2 ^ 16 →
        (∀ item ∈ vitems, ∃ fields, AnnotationFields.read c passes cast isSample item = .ok fields) →
          (∀ fault, doc.get "localization_annotations" >>= YamlNode.elements = .error fault →
            fault.isException = true → vitems = []) ∧
          ∀ litems, doc.get "localization_annotations" >>= YamlNode.elements = .ok litems →
            ∀ before fault, FirstFault 16 ( LocalizationAnnotation.deserialize c) litems before fault →
              fault.isException = true → vitems = [] ∧ before = [] := by
      intro hshort hread
      obtain ⟨fields, hfields⟩ := exists_forall₂_of_read hread
      have hafter := hlocalization _ ((forEach_keeping_eq_ok_iff hpasses).mpr
        ⟨hshort, fields, hfields, rfl⟩)
      rw [← hnil hfields]
      exact (deserializeLocalization_iff address doc g hpasses fields).mp fun fault g' herror =>
        hafter (fault, g') herror
    refine ⟨fun before fault hfirst hcaught => ?_, fun hshort hread => (hsecond hshort hread).1,
      fun hshort hread => (hsecond hshort hread).2⟩
    obtain ⟨fields, hfields⟩ := exists_forall₂_of_read hfirst.readable
    exact (hnil hfields).mp ((hsame fields).mp (hvision before fault fields hfirst hfields hcaught))
  · intro hclean
    refine ⟨fun before fault fields hfirst hfields hcaught => ?_, fun g' hloop error herror => ?_⟩
    · exact (hsame fields).mpr ((hnil hfields).mpr (hclean.vision before fault hfirst hcaught))
    · obtain ⟨hshort, fields, hfields, rfl⟩ := (forEach_keeping_eq_ok_iff hpasses).mp hloop
      have hread := exists_read_of_forall₂ hfields
      refine (deserializeLocalization_iff address doc g hpasses fields).mpr ?_ error.1 error.2 herror
      rw [hnil hfields]
      exact ⟨hclean.list hshort hread, hclean.localization hshort hread⟩

/-- Scalars that are told apart. -/
def treeScalars : Scalars (ℤ ⊕ String) ℤ where
  emitInt := .inl
  readInt := Sum.getLeft?
  emitBool b := .inl (if b then 1 else 0)
  readBool s := s.getLeft?.map (· ≠ 0)
  emitString := .inr
  readString := Sum.getRight?
  emitFloat := .inl
  readFloat := Sum.getLeft?

/-- An annotation without selections. -/
def ballDocument : YamlNode (ℤ ⊕ String) :=
  .map [("name", .scalar (.inr "ball")), ("minFrame", .scalar (.inl 0)),
    ("maxFrame", .scalar (.inl 9)), ("color", .scalar (.inr "c_ORANGE")),
    ("camera", .scalar (.inr "TOP")), ("selections", .seq [])]

/-- A file with annotations of the vision only is loaded into an empty group. -/
def loadVision (items : List (YamlNode (ℤ ⊕ String))) : LoadResult × AnnotationGroup ℤ :=
  loadFromFile treeScalars 65537 (fun _ => .c_UNDEFINED)
    (fun _ => some (.map [("vision_annotations", .seq items)])) (fun _ _ => 0) false (some "") empty

end AnnotationGroup

end NaoSoccer
