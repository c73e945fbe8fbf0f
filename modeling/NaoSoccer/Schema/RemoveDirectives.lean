import NaoSoccer.Schema.DirectivePlaces

/-!
# The SWIG header

`Generator.write_swig` parses a header, lets `SchemaForest.remove_directives` cut the directives out
of the tree and writes the value of what is left.  `remove_directives` looks up all declarations
first; in each it keeps only the class and the semicolon among the children, and then walks over the
member declarations with a lookup that is still running while it cuts their directives.

The tree that is left is `strip` of the parse tree, so the header that is written has all tokens but
those that are removed.  It is `withoutDirectives`, what the header should be, exactly if every
name, parenthesis and semicolon that goes with a directive is a token of its own: the tokenizer
glues a newline to a parenthesis or a semicolon that it follows directly, and such a newline is lost
with the token.
-/

namespace NaoSoccer

open scoped List
open ParseNode

namespace SchemaForest

/-! ## The source's operations -/

/-- `node.children = children` -/
def setChildren (node : ℕ) (children : List ℕ) (all : List (ParseNode String Text)) :
    List (ParseNode String Text) :=
  all.modify node fun current => { current with children := children }

/-- The branches of the inner loop of `SchemaForest.remove_directives`; `none` is an
`IndexError`. -/
def removeDirective (d : ℕ) (all : List (ParseNode String Text)) :
    Option (List (ParseNode String Text)) :=
  all[d]?.bind fun node =>
    if node.symbol = "SchemaField" then
      let children := node.children.drop 2
      if children.length < 2 then none
      else some (setChildren d (children.eraseIdx (children.length - 2)) all)
    else some (setChildren d [] all)

/-- The body of the inner loop of `SchemaForest.remove_directives`. -/
def removeMember (declaration : ℕ) (all : List (ParseNode String Text)) :
    Option (List (ParseNode String Text)) :=
  all[declaration]?.bind fun node => node.children[0]?.bind fun d => removeDirective d all

/-- The body of the outer loop of `SchemaForest.remove_directives`. -/
def unwrap (root : ℕ) (all : List (ParseNode String Text)) :
    Option (List (ParseNode String Text)) :=
  all[root]?.bind fun node =>
    node.children[2]?.bind fun definition => node.children[4]?.bind fun semicolon =>
      (lookup ⟨"MemberDeclaration", none, none⟩ removeMember root
        (setChildren root [definition, semicolon] all)).map LookupState.nodes

/-- The roots in `SchemaForest.get_trees` and `SchemaForest.remove_directives`. -/
def getTrees (all : List (ParseNode String Text)) : Option (List ℕ) :=
  (lookup ⟨"SchemaDeclaration", none, none⟩ (fun _ => some) 0 all).map fun st =>
    st.yielded.filter fun node => all[node]?.any fun current => current.children.length > 0

/-- `SchemaForest.remove_directives` -/
def removeDirectives (all : List (ParseNode String Text)) :
    Option (List (ParseNode String Text)) :=
  (getTrees all).bind fun roots => roots.foldlM (fun all root => unwrap root all) all

/-- The text that `Generator.write_swig` writes for a header with declarations. -/
def swig (all : List (ParseNode String Text)) : Option Text :=
  (removeDirectives all).bind (getValue 0)

/-- Changing the children of one node changes no other node. -/
lemma getElem?_setChildren_ne {node n : ℕ} (children : List ℕ)
    (all : List (ParseNode String Text)) (hn : n ≠ node) :
    (setChildren node children all)[n]? = all[n]? :=
  List.getElem?_modify_ne _ _ hn.symm

/-- Changing the children of a node changes nothing else of it. -/
lemma getElem?_setChildren {node : ℕ} {children : List ℕ} {all : List (ParseNode String Text)}
    {current : ParseNode String Text} (h : all[node]? = some current) :
    (setChildren node children all)[node]? = some { current with children := children } := by
  rw [setChildren, List.getElem?_modify_eq, h]
  rfl

/-! ## What `strip` does at the places of a declaration -/

/-- The field that is declared is kept. -/
lemma strip_contents (f : Forest String Text) : strip .contents f = f := by
  induction f with
  | nil => rfl
  | cons node symbol value children rest ihchildren ihrest =>
    rw [strip, Place.below, if_neg (by decide), ihchildren, ihrest]

/-- Nothing of a directive is kept. -/
lemma strip_directive (f : Forest String Text) : strip .directive f = .nil := by
  induction f with
  | nil => rfl
  | cons node symbol value children rest _ ih =>
    have hremoved : (Place.directive.below symbol).IsRemoved := by
      rw [Place.below]
      split
      · exact Or.inl rfl
      · exact Or.inr rfl
    rw [strip, if_pos hremoved, ih]

/-- In a class only what is below the member declarations is changed. -/
lemma strip_inside (f : Forest String Text) :
    strip .inside f = f.editAt "MemberDeclaration" (strip .member) := by
  induction f with
  | nil => rfl
  | cons node symbol value children rest ihchildren ihrest =>
    rw [strip, Forest.editAt, Place.below]
    split
    · rw [if_neg (by decide), ihrest]
    · rw [if_neg (by decide), ihchildren, ihrest]

/-- What is kept of a field is as it was. -/
lemma holds_strip_field {all : List (ParseNode String Text)} {f : Forest String Text}
    (h : f.Holds all) : (strip .field f).Holds all := by
  induction f with
  | nil => trivial
  | cons node symbol value children rest _ ih =>
    obtain ⟨hnode, hchildren, hrest⟩ := h
    rw [strip, Place.below]
    split
    · rw [if_pos (by decide)]
      exact ih hrest
    · rw [if_neg (by decide), strip_contents]
      exact ⟨hnode, hchildren, ih hrest⟩

/-- Outside of the declarations no node is removed. -/
lemma roots_strip_outside (f : Forest String Text) : (strip .outside f).roots = f.roots := by
  induction f with
  | nil => rfl
  | cons node symbol value children rest _ ih =>
    have hkept : ¬ (Place.outside.below symbol).IsRemoved := by
      rw [Place.below]
      split <;> decide
    rw [strip, if_neg hkept, Forest.roots, Forest.roots, ih]

/-- If the declarations are stripped and no other node is changed, the whole forest is. -/
lemma holds_strip_outside {all all' : List (ParseNode String Text)} {f : Forest String Text}
    (h : f.Holds all)
    (houter : ∀ n ∈ f.outer "SchemaDeclaration", all'[n]? = all[n]?)
    (hdeclarations : ∀ t ∈ f.subtrees "SchemaDeclaration",
      (Forest.cons t.node "SchemaDeclaration" t.value (strip .declaration t.children) .nil).Holds
        all') : (strip .outside f).Holds all' := by
  induction f with
  | nil => trivial
  | cons node symbol value children rest ihchildren ihrest =>
    obtain ⟨hnode, hchildren, hrest⟩ := h
    rw [Forest.outer] at houter
    rw [Forest.subtrees] at hdeclarations
    rw [strip, Place.below]
    by_cases hsymbol : symbol = "SchemaDeclaration"
    · rw [if_pos hsymbol] at houter hdeclarations ⊢
      obtain ⟨htree, hothers⟩ := List.forall_mem_cons.mp hdeclarations
      rw [if_neg (by decide), hsymbol]
      exact ⟨htree.1, htree.2.1, ihrest hrest houter hothers⟩
    · rw [if_neg hsymbol] at houter hdeclarations ⊢
      obtain ⟨hself, hothers⟩ := List.forall_mem_cons.mp houter
      rw [List.forall_mem_append] at hothers hdeclarations
      rw [if_neg (by decide)]
      refine ⟨?_, ihchildren hchildren hothers.1 hdeclarations.1,
        ihrest hrest hothers.2 hdeclarations.2⟩
      rw [hself, hnode, roots_strip_outside]

/-! ## One directive -/

/-- The branches of `remove_directives` for a directive cut its children as `strip` does. -/
lemma removeDirective_eq {d : ℕ} {directive : String} {value : Option Text}
    {children : Forest String Text} {all : List (ParseNode String Text)}
    (hnode : all[d]? = some ⟨directive, value, children.roots⟩)
    (hderivation : Derivation SchemaParser.grammar (.cons d directive value children .nil)) :
    removeDirective d all =
      some (setChildren d (strip (Place.member.below directive) children).roots all) := by
  rw [removeDirective, hnode, Option.bind_some, Place.below]
  by_cases hfield : directive = "SchemaField"
  · rw [if_pos hfield, if_pos hfield]
    subst hfield
    obtain ⟨n₀, v₀, c₀, f₀, rfl, h₀⟩ :=
      Forest.exists_cons (SchemaParser.symbols_schemaField hderivation)
    obtain ⟨n₁, v₁, c₁, f₁, rfl, h₁⟩ := Forest.exists_cons h₀
    obtain ⟨n₂, v₂, c₂, f₂, rfl, h₂⟩ := Forest.exists_cons h₁
    obtain ⟨n₃, v₃, c₃, f₃, rfl, h₃⟩ := Forest.exists_cons h₂
    obtain ⟨n₄, v₄, c₄, f₄, rfl, h₄⟩ := Forest.exists_cons h₃
    obtain ⟨n₅, v₅, c₅, f₅, rfl, h₅⟩ := Forest.exists_cons h₄
    obtain ⟨n₆, v₆, c₆, f₆, rfl, h₆⟩ := Forest.exists_cons h₅
    obtain ⟨n₇, v₇, c₇, f₇, rfl, h₇⟩ := Forest.exists_cons h₆
    obtain ⟨n₈, v₈, c₈, f₈, rfl, h₈⟩ := Forest.exists_cons h₇
    obtain ⟨n₉, v₉, c₉, f₉, rfl, h₉⟩ := Forest.exists_cons h₈
    obtain ⟨n₁₀, v₁₀, c₁₀, f₁₀, rfl, h₁₀⟩ := Forest.exists_cons h₉
    obtain rfl := Forest.eq_nil_of_symbols h₁₀
    simp [Forest.roots, strip, Place.below, Place.IsRemoved]
  · rw [if_neg hfield, if_neg hfield, strip_directive]
    rfl

/-- **One member declaration**: the body of the inner loop changes what is below it as `strip`
does, and nothing else. -/
lemma edits_removeMember {t : Forest.Subtree String Text}
    (hderivation : Derivation SchemaParser.grammar (t.tree "MemberDeclaration")) :
    Edits "MemberDeclaration" removeMember (strip .member) t where
  run := by
    intro all hholds hnodup
    obtain ⟨directive, -, hsymbols⟩ := SchemaParser.symbols_memberDeclaration hderivation
    obtain ⟨node, value, children⟩ := t
    obtain ⟨d, value', children', f, rfl, hf⟩ := Forest.exists_cons hsymbols
    obtain rfl := Forest.eq_nil_of_symbols hf
    obtain ⟨hnode, ⟨hd, hchildren, -⟩, -⟩ := hholds
    obtain ⟨hnodeMem, hnodes⟩ := List.nodup_cons.mp hnodup
    have hne : node ≠ d := fun heq => hnodeMem (heq ▸ List.mem_cons_self)
    have hdMem : d ∉ children'.nodes := fun hmem =>
      (List.nodup_cons.mp hnodes).1 (List.mem_append_left _ hmem)
    have hstrip : strip .member (.cons d directive value' children' .nil) =
        .cons d directive value' (strip (Place.member.below directive) children') .nil := by
      have hkept : ¬ (Place.member.below directive).IsRemoved := by
        rw [Place.below]
        split <;> decide
      rw [strip, if_neg hkept, strip]
    have hbelow : (strip (Place.member.below directive) children').Holds all := by
      rw [Place.below]
      split
      · exact holds_strip_field hchildren
      · rw [strip_directive]
        trivial
    refine ⟨setChildren d (strip (Place.member.below directive) children').roots all, ?_, ?_, ?_⟩
    · rw [removeMember, hnode]
      exact removeDirective_eq hd hderivation.children
    · rw [hstrip]
      refine ⟨?_, ⟨getElem?_setChildren hd, ?_, trivial⟩, trivial⟩
      · rw [getElem?_setChildren_ne _ _ hne]
        exact hnode
      · refine hbelow.congr fun n hn => getElem?_setChildren_ne _ _ fun heq => hdMem ?_
        exact heq ▸ (nodes_strip_sublist _ _).subset hn
    · exact fun n hn => getElem?_setChildren_ne _ _ fun heq => hn (heq ▸ List.mem_cons_self)
  nodes := nodes_strip_sublist _ _
  notMem := fun hmem => SchemaParser.notMem_labels_memberDeclaration hderivation
    ((labels_strip_sublist _ _).subset hmem)

/-! ## One declaration -/

/-- **One declaration**: the body of the outer loop strips it and changes no node outside of it. -/
lemma unwrap_eq {t : Forest.Subtree String Text} {all : List (ParseNode String Text)}
    (hderivation : Derivation SchemaParser.grammar (t.tree "SchemaDeclaration"))
    (hholds : (t.tree "SchemaDeclaration").Holds all) (hnodup : t.nodes.Nodup) :
    ∃ all', unwrap t.node all = some all' ∧
      (Forest.cons t.node "SchemaDeclaration" t.value (strip .declaration t.children) .nil).Holds
        all' ∧ ∀ n ∉ t.nodes, all'[n]? = all[n]? := by
  have hsymbols := SchemaParser.symbols_schemaDeclaration hderivation
  have hchildrenDerivation := hderivation.children
  obtain ⟨root, value, children⟩ := t
  obtain ⟨n₀, v₀, c₀, f₀, rfl, h₀⟩ := Forest.exists_cons hsymbols
  obtain ⟨n₁, v₁, c₁, f₁, rfl, h₁⟩ := Forest.exists_cons h₀
  obtain ⟨n₂, v₂, c₂, f₂, rfl, h₂⟩ := Forest.exists_cons h₁
  obtain ⟨n₃, v₃, c₃, f₃, rfl, h₃⟩ := Forest.exists_cons h₂
  obtain ⟨n₄, v₄, c₄, f₄, rfl, h₄⟩ := Forest.exists_cons h₃
  obtain rfl := Forest.eq_nil_of_symbols h₄
  -- what is left of the declaration before the walk over its members
  set kept : Forest String Text :=
    .cons n₂ "SchemaDefinition" v₂ c₂ (.cons n₄ "SEMICOLON" v₄ c₄ .nil) with hkept
  have hstrip : strip .declaration (.cons n₀ "SchemaDeclarationFunction" v₀ c₀
      (.cons n₁ "LPAREN" v₁ c₁ (.cons n₂ "SchemaDefinition" v₂ c₂ (.cons n₃ "RPAREN" v₃ c₃
        (.cons n₄ "SEMICOLON" v₄ c₄ .nil))))) = strip .inside kept := by
    simp [hkept, strip, Place.below, Place.IsRemoved]
  obtain ⟨hroot, ⟨-, -, -, -, hdefinition, hdefinitionChildren, -, -, hsemicolon⟩, -⟩ := hholds
  have hkeptDerivation : Derivation SchemaParser.grammar kept := by
    have hfirst := hchildrenDerivation.rest.rest.head
    have hlast := hchildrenDerivation.rest.rest.rest.rest
    exact derivation_append.mpr ⟨hfirst, hlast⟩
  have hsublist : kept.nodes.Sublist (Forest.cons n₀ "SchemaDeclarationFunction" v₀ c₀
      (.cons n₁ "LPAREN" v₁ c₁ (.cons n₂ "SchemaDefinition" v₂ c₂ (.cons n₃ "RPAREN" v₃ c₃
        (.cons n₄ "SEMICOLON" v₄ c₄ .nil))))).nodes := by
    have hlast := Forest.nodes_rest_sublist n₃ "RPAREN" v₃ c₃ (.cons n₄ "SEMICOLON" v₄ c₄ .nil)
    refine List.Sublist.trans ?_ ((Forest.nodes_rest_sublist _ _ _ _ _).trans
      (Forest.nodes_rest_sublist _ _ _ _ _))
    exact ((List.Sublist.refl c₂.nodes).append hlast).cons_cons n₂
  have hrootMem : root ∉ kept.nodes := fun hmem =>
    (List.nodup_cons.mp hnodup).1 (hsublist.subset hmem)
  have htree : (Forest.cons root "SchemaDeclaration" value kept .nil).Holds
      (setChildren root [n₂, n₄] all) := by
    have hkeptHolds : kept.Holds all := ⟨hdefinition, hdefinitionChildren, hsemicolon⟩
    refine ⟨getElem?_setChildren hroot, hkeptHolds.congr fun n hn => ?_, trivial⟩
    exact getElem?_setChildren_ne _ _ fun heq => hrootMem (heq ▸ hn)
  have htreeNodup : (Forest.cons root "SchemaDeclaration" value kept .nil).nodes.Nodup := by
    rw [Forest.nodes, Forest.nodes, List.append_nil]
    exact hnodup.sublist (hsublist.cons_cons root)
  have hedits : ∀ s ∈ (Forest.cons root "SchemaDeclaration" value kept .nil).subtrees
      "MemberDeclaration", Edits "MemberDeclaration" removeMember (strip .member) s := by
    intro s hs
    rw [Forest.subtrees, if_neg (by decide), Forest.subtrees, List.append_nil] at hs
    exact edits_removeMember (hkeptDerivation.subtree s hs)
  obtain ⟨st, hrun, -, hst, hframe⟩ := lookup_eq htree htreeNodup hedits
  refine ⟨st.nodes, ?_, ?_, fun n hn => ?_⟩
  · rw [unwrap, hroot]
    show (lookup ⟨"MemberDeclaration", none, none⟩ removeMember root
      (setChildren root [n₂, n₄] all)).map LookupState.nodes = some st.nodes
    rw [hrun]
    rfl
  · rw [hstrip, strip_inside]
    exact hst
  · have hn : n ∉ root :: kept.nodes := fun hmem => hn ((hsublist.cons_cons root).subset hmem)
    have hne : n ≠ root := fun heq => hn (heq ▸ List.mem_cons_self)
    rw [hframe n (by rwa [Forest.nodes, Forest.nodes, List.append_nil]),
      getElem?_setChildren_ne _ _ hne]

/-! ## All declarations -/

/-- **The outer loop** strips the declarations one after the other. -/
lemma foldlM_unwrap {trees : List (Forest.Subtree String Text)}
    {all : List (ParseNode String Text)}
    (hderivation : ∀ t ∈ trees, Derivation SchemaParser.grammar (t.tree "SchemaDeclaration"))
    (hholds : ∀ t ∈ trees, (t.tree "SchemaDeclaration").Holds all)
    (hnodup : (trees.flatMap Forest.Subtree.nodes).Nodup) :
    ∃ all', (trees.map Forest.Subtree.node).foldlM (fun all root => unwrap root all) all =
        some all' ∧
      (∀ t ∈ trees, (Forest.cons t.node "SchemaDeclaration" t.value
        (strip .declaration t.children) .nil).Holds all') ∧
      ∀ n ∉ trees.flatMap Forest.Subtree.nodes, all'[n]? = all[n]? := by
  induction trees generalizing all with
  | nil => exact ⟨all, rfl, fun t ht => absurd ht List.not_mem_nil, fun _ _ => rfl⟩
  | cons t trees ih =>
    obtain ⟨htDerivation, hderivation⟩ := List.forall_mem_cons.mp hderivation
    obtain ⟨htHolds, hholds⟩ := List.forall_mem_cons.mp hholds
    rw [List.flatMap_cons, List.nodup_append] at hnodup
    obtain ⟨htNodup, hnodup, hdisjoint⟩ := hnodup
    have hapart : ∀ s ∈ trees, ∀ n ∈ s.nodes, n ∉ t.nodes := fun s hs n hn hmem =>
      hdisjoint n hmem n (List.mem_flatMap_of_mem hs hn) rfl
    obtain ⟨all₁, hunwrap, hstripped, hframe⟩ := unwrap_eq htDerivation htHolds htNodup
    have hholds₁ : ∀ s ∈ trees, (s.tree "SchemaDeclaration").Holds all₁ := by
      intro s hs
      refine (hholds s hs).congr fun n hn => hframe n (hapart s hs n ?_)
      rwa [Forest.Subtree.tree, Forest.nodes, Forest.nodes, List.append_nil] at hn
    obtain ⟨all', hfold, hothers, hframe'⟩ := ih hderivation hholds₁ hnodup
    refine ⟨all', ?_, ?_, ?_⟩
    · rw [List.map_cons, List.foldlM_cons, hunwrap]
      exact hfold
    · refine List.forall_mem_cons.mpr ⟨hstripped.congr fun n hn => hframe' n fun hmem => ?_, hothers⟩
      rw [Forest.nodes, Forest.nodes, List.append_nil] at hn
      exact hdisjoint n (((nodes_strip_sublist _ _).cons_cons t.node).subset hn) n hmem rfl
    · intro n hn
      rw [List.flatMap_cons, List.mem_append, not_or] at hn
      rw [hframe' n hn.2, hframe n hn.1]

/-- A lookup without a body changes nothing. -/
lemma edits_none {t : Forest.Subtree String Text}
    (hderivation : Derivation SchemaParser.grammar (t.tree "SchemaDeclaration")) :
    Edits "SchemaDeclaration" (fun _ => some) id t where
  run := fun all hholds _ => ⟨all, rfl, hholds, fun _ _ => rfl⟩
  nodes := List.Sublist.refl _
  notMem := SchemaParser.notMem_labels_schemaDeclaration hderivation

variable {label : String} {tree : Forest.Subtree String Text}
  {all : List (ParseNode String Text)}

/-- **The declarations that are looked up** are those of the parse tree, in some order. -/
lemma getTrees_eq (hholds : (tree.tree label).Holds all) (hnodup : tree.nodes.Nodup)
    (hderivation : Derivation SchemaParser.grammar (tree.tree label)) (hroot : tree.node = 0) :
    ∃ trees, trees ~ (tree.tree label).subtrees "SchemaDeclaration" ∧
      getTrees all = some (trees.map Forest.Subtree.node) := by
  have hnodes : (tree.tree label).nodes.Nodup := by
    rw [Forest.Subtree.tree, Forest.nodes, Forest.nodes, List.append_nil]
    exact hnodup
  obtain ⟨st, hrun, hyielded, -, -⟩ := lookup_eq hholds hnodes
    (fun t ht => edits_none (hderivation.subtree t ht))
  obtain ⟨trees, hmap, hperm⟩ : ∃ trees, st.yielded = trees.map Forest.Subtree.node ∧
      trees ~ (tree.tree label).subtrees "SchemaDeclaration" := by
    have hcomp := congrFun (congrFun (List.eq_map_comp_perm Forest.Subtree.node) st.yielded)
      ((tree.tree label).subtrees "SchemaDeclaration")
    exact hcomp.mpr hyielded
  refine ⟨trees, hperm, ?_⟩
  have hlookup : lookup ⟨"SchemaDeclaration", none, none⟩ (fun _ => some) 0 all = some st :=
    hroot ▸ hrun
  rw [getTrees, hlookup, Option.map_some, hmap]
  refine congrArg some (List.filter_eq_self.mpr fun node hnode => ?_)
  obtain ⟨t, ht, rfl⟩ := List.mem_map.mp hnode
  have ht := hperm.subset ht
  have hlength : t.children.roots.length = 5 := by
    rw [← Forest.length_symbols,
      SchemaParser.symbols_schemaDeclaration (hderivation.subtree t ht)]
    rfl
  rw [(hholds.subtree t ht).1]
  simp [hlength]

/-- **`remove_directives` strips the parse tree.** -/
theorem removeDirectives_eq (hholds : (tree.tree label).Holds all) (hnodup : tree.nodes.Nodup)
    (hderivation : Derivation SchemaParser.grammar (tree.tree label)) (hroot : tree.node = 0) :
    ∃ all', removeDirectives all = some all' ∧ (strip .outside (tree.tree label)).Holds all' := by
  obtain ⟨trees, hperm, htrees⟩ := getTrees_eq hholds hnodup hderivation hroot
  have hnodes : ((tree.tree label).outer "SchemaDeclaration" ++
      trees.flatMap Forest.Subtree.nodes).Nodup := by
    have hall := (tree.tree label).nodes_perm "SchemaDeclaration"
    have htreeNodes : (tree.tree label).nodes = tree.nodes := by
      rw [Forest.Subtree.tree, Forest.nodes, Forest.nodes, List.append_nil]
      rfl
    rw [htreeNodes] at hall
    exact ((hperm.flatMap_right _).append_left _).nodup_iff.mpr (hall.nodup_iff.mp hnodup)
  obtain ⟨-, hdeclarations, hdisjoint⟩ := List.nodup_append.mp hnodes
  obtain ⟨all', hfold, hstripped, hframe⟩ := foldlM_unwrap
    (fun t ht => hderivation.subtree t (hperm.subset ht))
    (fun t ht => hholds.subtree t (hperm.subset ht)) hdeclarations
  refine ⟨all', ?_, ?_⟩
  · rw [removeDirectives, htrees]
    exact hfold
  · refine holds_strip_outside hholds (fun n hn => hframe n fun hmem => ?_)
      fun t ht => hstripped t (hperm.symm.subset ht)
    exact hdisjoint n hn n hmem rfl

/-- **The SWIG header** has the texts of all tokens that are not removed. -/
theorem swig_eq (hholds : (tree.tree label).Holds all) (hnodup : tree.nodes.Nodup)
    (hderivation : Derivation SchemaParser.grammar (tree.tree label)) (hroot : tree.node = 0) :
    swig all = some (keptText (placedTokens .outside (tree.tree label))) := by
  obtain ⟨all', hremove, hstrip⟩ := removeDirectives_eq hholds hnodup hderivation hroot
  set stripped : Forest.Subtree String Text :=
    ⟨tree.node, tree.value, strip (Place.outside.below label) tree.children⟩ with hstripped
  have htree : strip .outside (tree.tree label) = stripped.tree label := by
    have hkept : ¬ (Place.outside.below label).IsRemoved := by
      rw [Place.below]
      split <;> decide
    rw [Forest.Subtree.tree, strip, if_neg hkept, strip]
    rfl
  have hstrippedNodup : stripped.nodes.Nodup :=
    hnodup.sublist ((nodes_strip_sublist _ _).cons_cons tree.node)
  have htext := text_strip .outside hderivation
  rw [htree, Forest.Subtree.tree, Forest.text, Forest.text, List.append_nil] at htext
  rw [swig, hremove, ← htext, ← hroot]
  exact getValue_eq (htree ▸ hstrip) hstrippedNodup

end SchemaForest

end NaoSoccer
