import NaoSoccer.Schema.Parser
import Mathlib.Data.List.Perm.Subperm

/-!
# Forests of parse nodes

The parser builds its tree by changing nodes that refer to each other.  A `Forest` is the tree as a
value: an ordered list of trees, written as the root of its first tree, the forest of that root's
children, and the forest of the trees beside it.  Each root carries the place of its node in the
list of all nodes, and `Forest.Holds` says that the nodes there are the forest.

`Derivation` says that a forest derives its tokens by the rules of a grammar.
-/

namespace NaoSoccer

open scoped List

/-- An ordered list of parse trees. -/
inductive Forest (σ τ : Type*)
  /-- No tree. -/
  | nil
  /-- A tree, given by its root and the root's children, and the trees beside it. -/
  | cons (node : ℕ) (symbol : σ) (value : Option τ) (children rest : Forest σ τ)

variable {σ τ : Type*}

namespace Forest

/-- The symbols of the roots. -/
def symbols : Forest σ τ → List σ
  | nil => []
  | cons _ symbol _ _ rest => symbol :: rest.symbols

/-- The places of the roots. -/
def roots : Forest σ τ → List ℕ
  | nil => []
  | cons node _ _ _ rest => node :: rest.roots

/-- The places of all nodes. -/
def nodes : Forest σ τ → List ℕ
  | nil => []
  | cons node _ _ children rest => node :: (children.nodes ++ rest.nodes)

/-- The tokens attached to the nodes, from left to right. -/
def tokens : Forest σ τ → List (Token σ τ)
  | nil => []
  | cons _ symbol value children rest =>
    (value.map fun v => Token.mk symbol v).toList ++ children.tokens ++ rest.tokens

/-- The trees of one forest, then those of another. -/
def append : Forest σ τ → Forest σ τ → Forest σ τ
  | nil, other => other
  | cons node symbol value children rest, other =>
    cons node symbol value children (rest.append other)

/-- The nodes in the list are the forest. -/
def Holds (all : List (ParseNode σ τ)) : Forest σ τ → Prop
  | nil => True
  | cons node symbol value children rest =>
    all[node]? = some ⟨symbol, value, children.roots⟩ ∧ children.Holds all ∧ rest.Holds all

/-! ## Concatenation -/

/-- The symbols of a concatenation. -/
@[simp] lemma symbols_append (f other : Forest σ τ) :
    (f.append other).symbols = f.symbols ++ other.symbols := by
  induction f with
  | nil => rfl
  | cons node symbol value children rest _ ih => exact congrArg (symbol :: ·) ih

/-- The roots of a concatenation. -/
@[simp] lemma roots_append (f other : Forest σ τ) :
    (f.append other).roots = f.roots ++ other.roots := by
  induction f with
  | nil => rfl
  | cons node symbol value children rest _ ih => exact congrArg (node :: ·) ih

/-- The nodes of a concatenation. -/
@[simp] lemma nodes_append (f other : Forest σ τ) :
    (f.append other).nodes = f.nodes ++ other.nodes := by
  induction f with
  | nil => rfl
  | cons node symbol value children rest _ ih => simp [append, nodes, ih]

/-- What stands beside a tree has only nodes of the forest. -/
lemma nodes_rest_sublist (node : ℕ) (symbol : σ) (value : Option τ) (children rest : Forest σ τ) :
    rest.nodes.Sublist (cons node symbol value children rest).nodes :=
  (List.sublist_append_right _ _).cons node

/-- The tokens of a concatenation. -/
@[simp] lemma tokens_append (f other : Forest σ τ) :
    (f.append other).tokens = f.tokens ++ other.tokens := by
  induction f with
  | nil => rfl
  | cons node symbol value children rest _ ih => simp [append, tokens, ih]

/-- A concatenation is in the list of nodes exactly when both parts are. -/
@[simp] lemma holds_append {all : List (ParseNode σ τ)} {f other : Forest σ τ} :
    (f.append other).Holds all ↔ f.Holds all ∧ other.Holds all := by
  induction f with
  | nil => exact ⟨fun h => ⟨trivial, h⟩, fun h => h.2⟩
  | cons node symbol value children rest _ ih => simp [append, Holds, ih, and_assoc]

/-- A forest whose first root has a symbol has a first tree. -/
lemma exists_cons {f : Forest σ τ} {symbol : σ} {symbols : List σ}
    (h : f.symbols = symbol :: symbols) :
    ∃ node value children rest, f = cons node symbol value children rest ∧
      rest.symbols = symbols := by
  cases f with
  | nil => exact absurd h.symm (List.cons_ne_nil _ _)
  | cons node symbol' value children rest =>
    obtain ⟨rfl, hrest⟩ := List.cons.inj h
    exact ⟨node, value, children, rest, rfl, hrest⟩

/-- A forest without roots is empty. -/
lemma eq_nil_of_symbols {f : Forest σ τ} (h : f.symbols = []) : f = nil := by
  cases f with
  | nil => rfl
  | cons => exact absurd h (List.cons_ne_nil _ _)

/-- As many symbols as roots. -/
lemma length_symbols (f : Forest σ τ) : f.symbols.length = f.roots.length := by
  induction f with
  | nil => rfl
  | cons node symbol value children rest _ ih => exact congrArg (· + 1) ih

/-- A forest can be divided wherever its list of roots can. -/
lemma exists_append {f : Forest σ τ} {left right : List ℕ} (h : f.roots = left ++ right) :
    ∃ first second : Forest σ τ,
      f = first.append second ∧ first.roots = left ∧ second.roots = right := by
  induction left generalizing f with
  | nil => exact ⟨nil, f, rfl, rfl, h⟩
  | cons n left ih =>
    cases f with
    | nil => exact absurd h.symm (List.cons_ne_nil _ _)
    | cons node symbol value children rest =>
      obtain ⟨rfl, hrest⟩ := List.cons.inj h
      obtain ⟨first, second, rfl, rfl, rfl⟩ := ih hrest
      exact ⟨cons node symbol value children first, second, rfl, rfl, rfl⟩

/-! ## Forests in a list of nodes -/

/-- Nodes that are the same all over a forest hold it as well. -/
lemma Holds.congr {all all' : List (ParseNode σ τ)} {f : Forest σ τ} (h : f.Holds all)
    (hall : ∀ n ∈ f.nodes, all'[n]? = all[n]?) : f.Holds all' := by
  induction f with
  | nil => trivial
  | cons node symbol value children rest ihchildren ihrest =>
    obtain ⟨hnode, hchildren, hrest⟩ := h
    refine ⟨?_, ihchildren hchildren ?_, ihrest hrest ?_⟩
    · rw [hall node List.mem_cons_self, hnode]
    · exact fun n hn => hall n (List.mem_cons_of_mem _ (List.mem_append_left _ hn))
    · exact fun n hn => hall n (List.mem_cons_of_mem _ (List.mem_append_right _ hn))

/-- A list of nodes holds at most one forest with given roots. -/
lemma Holds.unique {all : List (ParseNode σ τ)} {f other : Forest σ τ} (h : f.Holds all)
    (hother : other.Holds all) (hroots : f.roots = other.roots) : f = other := by
  induction f generalizing other with
  | nil =>
    cases other with
    | nil => rfl
    | cons => exact absurd hroots (by simp [roots])
  | cons node symbol value children rest ihchildren ihrest =>
    cases other with
    | nil => exact absurd hroots (by simp [roots])
    | cons node' symbol' value' children' rest' =>
      obtain ⟨rfl, hrestRoots⟩ := List.cons.inj hroots
      obtain ⟨hnode, hchildren, hrest⟩ := h
      obtain ⟨hnode', hchildren', hrest'⟩ := hother
      have hnodes := Option.some.inj (hnode.symm.trans hnode')
      obtain ⟨rfl, rfl, hchildrenRoots⟩ := ParseNode.mk.inj hnodes
      rw [ihchildren hchildren hchildren' hchildrenRoots, ihrest hrest hrest' hrestRoots]

/-- The nodes of a forest are places in the list that holds it. -/
lemma Holds.lt_length {all : List (ParseNode σ τ)} {f : Forest σ τ} (h : f.Holds all) :
    ∀ n ∈ f.nodes, n < all.length := by
  induction f with
  | nil => exact fun n hn => absurd hn List.not_mem_nil
  | cons node symbol value children rest ihchildren ihrest =>
    obtain ⟨hnode, hchildren, hrest⟩ := h
    intro n hn
    rcases List.mem_cons.mp hn with rfl | hn
    · exact (List.getElem?_eq_some_iff.mp hnode).1
    · rcases List.mem_append.mp hn with hn | hn
      · exact ihchildren hchildren n hn
      · exact ihrest hrest n hn

/-- A forest that shares no nodes has at most as many as the list that holds it. -/
lemma Holds.length_nodes_le {all : List (ParseNode σ τ)} {f : Forest σ τ} (h : f.Holds all)
    (hnodup : f.nodes.Nodup) : f.nodes.length ≤ all.length := by
  have hsubset : f.nodes ⊆ List.range all.length := fun n hn =>
    List.mem_range.mpr (h.lt_length n hn)
  exact (hnodup.subperm hsubset).length_le.trans_eq List.length_range

/-! ## Trees with a given symbol -/

/-- The symbols of all nodes. -/
def labels : Forest σ τ → List σ
  | nil => []
  | cons _ symbol _ children rest => symbol :: (children.labels ++ rest.labels)

/-- A tree without the symbol of its root. -/
structure Subtree (σ τ : Type*) where
  /-- The place of the root. -/
  node : ℕ
  /-- The text of its token, if it has one. -/
  value : Option τ
  /-- What is below the root. -/
  children : Forest σ τ

/-- All nodes of a tree. -/
def Subtree.nodes (t : Subtree σ τ) : List ℕ := t.node :: t.children.nodes

/-- The tree, for a symbol, as a forest. -/
def Subtree.tree (symbol : σ) (t : Subtree σ τ) : Forest σ τ :=
  cons t.node symbol t.value t.children nil

variable [DecidableEq σ]

/-- The outermost trees whose roots have a given symbol, from left to right. -/
def subtrees (symbol : σ) : Forest σ τ → List (Subtree σ τ)
  | nil => []
  | cons node label value children rest =>
    if label = symbol then ⟨node, value, children⟩ :: rest.subtrees symbol
    else children.subtrees symbol ++ rest.subtrees symbol

/-- The nodes outside of the trees whose roots have a given symbol. -/
def outer (symbol : σ) : Forest σ τ → List ℕ
  | nil => []
  | cons node label _ children rest =>
    if label = symbol then rest.outer symbol
    else node :: (children.outer symbol ++ rest.outer symbol)

/-- The trees with a given symbol in a concatenation. -/
@[simp] lemma subtrees_append (symbol : σ) (f other : Forest σ τ) :
    (f.append other).subtrees symbol = f.subtrees symbol ++ other.subtrees symbol := by
  induction f with
  | nil => rfl
  | cons node label value children rest _ ih =>
    rw [append, subtrees, subtrees]
    split
    · rw [ih, List.cons_append]
    · rw [ih, List.append_assoc]

/-- A forest without the symbol has no trees with it. -/
lemma subtrees_eq_nil {symbol : σ} {f : Forest σ τ} (h : symbol ∉ f.labels) :
    f.subtrees symbol = [] := by
  induction f with
  | nil => rfl
  | cons node label value children rest ihchildren ihrest =>
    obtain ⟨hne, hlabels⟩ := List.ne_and_not_mem_of_not_mem_cons h
    rw [List.mem_append, not_or] at hlabels
    rw [subtrees, if_neg (Ne.symm hne), ihchildren hlabels.1, ihrest hlabels.2, List.append_nil]

/-- **Every node** is outside of the trees with a given symbol or in one of them. -/
lemma nodes_perm (symbol : σ) (f : Forest σ τ) :
    f.nodes ~ f.outer symbol ++ (f.subtrees symbol).flatMap Subtree.nodes := by
  induction f with
  | nil => exact List.Perm.refl _
  | cons node label value children rest ihchildren ihrest =>
    rw [nodes, outer, subtrees]
    split
    · rw [List.flatMap_cons]
      calc (node :: children.nodes) ++ rest.nodes
        _ ~ (node :: children.nodes) ++
            (rest.outer symbol ++ (rest.subtrees symbol).flatMap Subtree.nodes) :=
          ihrest.append_left _
        _ ~ rest.outer symbol ++ ((node :: children.nodes) ++
            (rest.subtrees symbol).flatMap Subtree.nodes) := List.perm_append_comm_assoc _ _ _
    · rw [List.flatMap_append, List.cons_append, List.append_assoc]
      refine List.Perm.cons node ?_
      calc children.nodes ++ rest.nodes
        _ ~ (children.outer symbol ++ (children.subtrees symbol).flatMap Subtree.nodes) ++
            (rest.outer symbol ++ (rest.subtrees symbol).flatMap Subtree.nodes) :=
          ihchildren.append ihrest
        _ = children.outer symbol ++ ((children.subtrees symbol).flatMap Subtree.nodes ++
            (rest.outer symbol ++ (rest.subtrees symbol).flatMap Subtree.nodes)) :=
          List.append_assoc _ _ _
        _ ~ children.outer symbol ++ (rest.outer symbol ++
            ((children.subtrees symbol).flatMap Subtree.nodes ++
              (rest.subtrees symbol).flatMap Subtree.nodes)) :=
          (List.perm_append_comm_assoc _ _ _).append_left _

/-- A tree with a given symbol is in the list of nodes that holds the forest. -/
lemma Holds.subtree {all : List (ParseNode σ τ)} {symbol : σ} {f : Forest σ τ} (h : f.Holds all) :
    ∀ t ∈ f.subtrees symbol, (t.tree symbol).Holds all := by
  induction f with
  | nil => exact fun t ht => absurd ht List.not_mem_nil
  | cons node label value children rest ihchildren ihrest =>
    obtain ⟨hnode, hchildren, hrest⟩ := h
    intro t ht
    rw [subtrees] at ht
    split at ht
    next hlabel =>
      rcases List.mem_cons.mp ht with rfl | ht
      · exact ⟨hlabel ▸ hnode, hchildren, trivial⟩
      · exact ihrest hrest t ht
    · rcases List.mem_append.mp ht with ht | ht
      · exact ihchildren hchildren t ht
      · exact ihrest hrest t ht

end Forest

/-! ## Derivations -/

/-- The forest derives its tokens by the rules of the grammar. -/
inductive Derivation (g : Grammar σ) : Forest σ τ → Prop
  /-- The forest without trees does. -/
  | nil : Derivation g .nil
  /-- The empty string is a leaf without a token. -/
  | empty {node rest} : Derivation g rest → Derivation g (.cons node g.emptyString none .nil rest)
  /-- A terminal is a leaf with a token. -/
  | leaf {node t value rest} : t ∈ g.terminals → Derivation g rest →
      Derivation g (.cons node t (some value) .nil rest)
  /-- A nonterminal that is left without children derives the empty string. -/
  | childless {node A rest} : A ∈ g.nonterminals → g.Nullable A → Derivation g rest →
      Derivation g (.cons node A none .nil rest)
  /-- The children of a nonterminal are, in order, the symbols of one of its rules. -/
  | expanded {node A children rest} : (A, children.symbols) ∈ g.rules → Derivation g children →
      Derivation g rest → Derivation g (.cons node A none children rest)

/-- A concatenation derives its tokens exactly when both parts do. -/
lemma derivation_append {g : Grammar σ} {f other : Forest σ τ} :
    Derivation g (f.append other) ↔ Derivation g f ∧ Derivation g other := by
  induction f with
  | nil => exact ⟨fun h => ⟨Derivation.nil, h⟩, fun h => h.2⟩
  | cons node symbol value children rest _ ih =>
    constructor
    · intro h
      cases h with
      | empty h => exact ⟨Derivation.empty (ih.mp h).1, (ih.mp h).2⟩
      | leaf ht h => exact ⟨Derivation.leaf ht (ih.mp h).1, (ih.mp h).2⟩
      | childless hA hnull h => exact ⟨Derivation.childless hA hnull (ih.mp h).1, (ih.mp h).2⟩
      | expanded hrule hc h => exact ⟨Derivation.expanded hrule hc (ih.mp h).1, (ih.mp h).2⟩
    · rintro ⟨h, hother⟩
      cases h with
      | empty h => exact Derivation.empty (ih.mpr ⟨h, hother⟩)
      | leaf ht h => exact Derivation.leaf ht (ih.mpr ⟨h, hother⟩)
      | childless hA hnull h => exact Derivation.childless hA hnull (ih.mpr ⟨h, hother⟩)
      | expanded hrule hc h => exact Derivation.expanded hrule hc (ih.mpr ⟨h, hother⟩)

/-- What is below a node is a derivation. -/
lemma Derivation.children {g : Grammar σ} {node : ℕ} {X : σ} {value : Option τ}
    {children rest : Forest σ τ} (h : Derivation g (.cons node X value children rest)) :
    Derivation g children := by
  cases h with
  | empty _ | leaf _ _ | childless _ _ _ => exact Derivation.nil
  | expanded _ hchildren _ => exact hchildren

/-- What stands beside a tree is a derivation. -/
lemma Derivation.rest {g : Grammar σ} {node : ℕ} {X : σ} {value : Option τ}
    {children rest : Forest σ τ} (h : Derivation g (.cons node X value children rest)) :
    Derivation g rest := by
  cases h with
  | empty h | leaf _ h | childless _ _ h | expanded _ _ h => exact h

/-- The first tree of a derivation is one. -/
lemma Derivation.head {g : Grammar σ} {node : ℕ} {X : σ} {value : Option τ}
    {children rest : Forest σ τ} (h : Derivation g (.cons node X value children rest)) :
    Derivation g (.cons node X value children .nil) := by
  cases h with
  | empty _ => exact Derivation.empty Derivation.nil
  | leaf ht _ => exact Derivation.leaf ht Derivation.nil
  | childless hA hnull _ => exact Derivation.childless hA hnull Derivation.nil
  | expanded hrule hchildren _ => exact Derivation.expanded hrule hchildren Derivation.nil

/-- The symbols below a node are those of a rule. -/
lemma Derivation.rule_of_mem_symbols {g : Grammar σ} {node : ℕ} {X Y : σ} {value : Option τ}
    {children rest : Forest σ τ} (h : Derivation g (.cons node X value children rest))
    (hY : Y ∈ children.symbols) : (X, children.symbols) ∈ g.rules := by
  cases h with
  | empty _ | leaf _ _ | childless _ _ _ => exact absurd hY List.not_mem_nil
  | expanded hrule _ _ => exact hrule

/-- Nothing is below a token. -/
lemma Derivation.children_eq_nil {g : Grammar σ} {node : ℕ} {X : σ} {value : τ}
    {children rest : Forest σ τ} (h : Derivation g (.cons node X (some value) children rest)) :
    children = .nil := by
  cases h with
  | leaf _ _ => rfl

/-- The trees with a given symbol are derivations. -/
lemma Derivation.subtree [DecidableEq σ] {g : Grammar σ} {symbol : σ} {f : Forest σ τ}
    (h : Derivation g f) : ∀ t ∈ f.subtrees symbol, Derivation g (t.tree symbol) := by
  induction f with
  | nil => exact fun t ht => absurd ht List.not_mem_nil
  | cons node label value children rest ihchildren ihrest =>
    intro t ht
    rw [Forest.subtrees] at ht
    split at ht
    next hlabel =>
      rcases List.mem_cons.mp ht with rfl | ht
      · exact hlabel ▸ h.head
      · exact ihrest h.rest t ht
    · rcases List.mem_append.mp ht with ht | ht
      · exact ihchildren h.children t ht
      · exact ihrest h.rest t ht

/-- Symbols that no rule brings in from elsewhere are not below other symbols. -/
lemma Derivation.notMem_labels {g : Grammar σ} {upper : List σ} {f : Forest σ τ}
    (h : Derivation g f)
    (hrules : ∀ rule ∈ g.rules, rule.1 ∉ upper → ∀ X ∈ rule.2, X ∉ upper)
    (hsymbols : ∀ X ∈ f.symbols, X ∉ upper) : ∀ X ∈ f.labels, X ∉ upper := by
  induction h with
  | nil => exact hsymbols
  | empty _ ih | leaf _ _ ih | childless _ _ _ ih =>
    obtain ⟨hX, hrest⟩ := List.forall_mem_cons.mp hsymbols
    exact List.forall_mem_cons.mpr ⟨hX, ih hrest⟩
  | expanded hrule _ _ ihchildren ih =>
    obtain ⟨hX, hrest⟩ := List.forall_mem_cons.mp hsymbols
    refine List.forall_mem_cons.mpr ⟨hX, fun Y hY => ?_⟩
    rcases List.mem_append.mp hY with hY | hY
    · exact ihchildren (hrules _ hrule hX) Y hY
    · exact ih hrest Y hY

/-- A nonterminal that does not derive the empty string has been expanded by one of its rules. -/
lemma Derivation.rule_of_not_nullable {g : Grammar σ} {node : ℕ} {A : σ} {value : Option τ}
    {children rest : Forest σ τ} (h : Derivation g (.cons node A value children rest))
    (hA : A ∈ g.nonterminals) (hnull : ¬ g.Nullable A) :
    value = none ∧ (A, children.symbols) ∈ g.rules ∧ Derivation g children := by
  cases h with
  | empty _ => exact absurd hA g.emptyString_notMem_nonterminals
  | leaf ht _ => exact absurd hA (g.notMem_nonterminals A ht)
  | childless _ hnull' _ => exact absurd hnull' hnull
  | expanded hrule hchildren _ => exact ⟨rfl, hrule, hchildren⟩

/-- A nonterminal with tokens has been expanded, and has them from its children. -/
lemma Derivation.rule_of_tokens {g : Grammar σ} {node : ℕ} {A : σ} {value : Option τ}
    {children : Forest σ τ} (h : Derivation g (.cons node A value children .nil))
    (hA : A ∈ g.nonterminals) (htokens : (Forest.cons node A value children .nil).tokens ≠ []) :
    (A, children.symbols) ∈ g.rules ∧ children.tokens ≠ [] := by
  cases h with
  | empty _ => exact absurd hA g.emptyString_notMem_nonterminals
  | leaf ht _ => exact absurd hA (g.notMem_nonterminals A ht)
  | childless _ _ _ => exact absurd rfl htokens
  | expanded hrule _ _ => exact ⟨hrule, by simpa [Forest.tokens] using htokens⟩

/-- The empty string has no tokens. -/
lemma Derivation.tokens_of_empty {g : Grammar σ} {node : ℕ} {value : Option τ}
    {children : Forest σ τ} (h : Derivation g (.cons node g.emptyString value children .nil)) :
    (Forest.cons node g.emptyString value children .nil).tokens = [] := by
  cases h with
  | empty _ => rfl
  | leaf ht _ => exact absurd ht g.emptyString_notMem_terminals
  | childless hA _ _ => exact absurd hA g.emptyString_notMem_nonterminals
  | expanded hrule _ _ => exact absurd (g.rule_mem _ hrule) g.emptyString_notMem_nonterminals

/-- A terminal has a token. -/
lemma Derivation.value_of_terminal {g : Grammar σ} {node : ℕ} {t : σ} {value : Option τ}
    {children rest : Forest σ τ} (h : Derivation g (.cons node t value children rest))
    (ht : t ∈ g.terminals) : ∃ text, value = some text := by
  cases h with
  | empty _ => exact absurd ht g.emptyString_notMem_terminals
  | leaf _ _ => exact ⟨_, rfl⟩
  | childless hA _ _ => exact absurd hA (g.notMem_nonterminals t ht)
  | expanded hrule _ _ => exact absurd (g.rule_mem _ hrule) (g.notMem_nonterminals t ht)

/-- A node with a token is a terminal. -/
lemma Derivation.mem_terminals {g : Grammar σ} {node : ℕ} {X : σ} {value : τ}
    {children rest : Forest σ τ} (h : Derivation g (.cons node X (some value) children rest)) :
    X ∈ g.terminals := by
  cases h with
  | leaf ht _ => exact ht

/-- The nodes hold a tree, rooted in the first of them and without shared nodes, that derives the
tokens from the start symbol of the grammar. -/
def IsParseTree (g : Grammar σ) (all : List (ParseNode σ τ)) (tokens : List (Token σ τ)) : Prop :=
  ∃ value children, let tree := Forest.cons 0 g.start value children .nil
    tree.Holds all ∧ tree.nodes.Nodup ∧ Derivation g tree ∧ tree.tokens = tokens

end NaoSoccer
