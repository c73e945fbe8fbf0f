import NaoSoccer.Foundation.Text
import NaoSoccer.Schema.ParseForest
import Mathlib.Data.List.Perm.Basic

/-!
# Looking up and reading parse nodes

`ParseNode.lookup` is a generator: it walks over a tree level by level and yields the nodes with a
given symbol, and the loop over it may change nodes between two of its steps.  `lookup` here runs
the generator together with the body of that loop.  `lookup_eq` says what a loop does that changes
only what is below the children of the nodes it gets: it does the same as a recursion over the tree,
although the generator visits the nodes in another order and reads the child lists while they
change.

`ParseNode.buildValue` stores in every node the text of the tokens below it.
-/

namespace NaoSoccer

open scoped List

variable {σ τ : Type*}

namespace ParseNode

/-! ## The source's operations -/

section Lookup

variable [DecidableEq σ]

/-- The arguments of `ParseNode.lookup`. -/
structure LookupArgs (σ : Type*) where
  /-- The symbol to look for. -/
  symbol : σ
  /-- Nodes at a smaller depth are not yielded. -/
  minDepth : Option ℕ
  /-- The search ends behind this depth. -/
  maxDepth : Option ℕ

/-- The local state of `ParseNode.lookup` and what the loop over it has seen and done. -/
structure LookupState (σ τ : Type*) where
  /-- What is left of the nodes of this level. -/
  cnodes : List ℕ
  /-- The nodes of the next level. -/
  nnodes : List ℕ
  /-- The number of levels so far that had the symbol. -/
  depth : ℕ
  /-- This level has the symbol. -/
  found : Bool
  /-- The nodes that were yielded. -/
  yielded : List ℕ
  /-- All nodes. -/
  nodes : List (ParseNode σ τ)

/-- The inner loop of `ParseNode.lookup` at one node, with the body of the loop over the generator,
which may raise an exception. -/
def visit (args : LookupArgs σ)
    (body : ℕ → List (ParseNode σ τ) → Option (List (ParseNode σ τ))) (node : ℕ)
    (st : LookupState σ τ) : Option (LookupState σ τ) :=
  st.nodes[node]?.bind fun current =>
    let isFound : Bool := current.symbol = args.symbol
    let yields := isFound && args.minDepth.all (· ≤ st.depth)
    (if yields then body node st.nodes else some st.nodes).bind fun nodes =>
      -- the generator goes on, and reads the children as the body has left them
      nodes[node]?.map fun current =>
        { st with
          nnodes := st.nnodes ++ current.children,
          found := st.found || isFound,
          yielded := if yields then st.yielded ++ [node] else st.yielded,
          nodes := nodes }

/-- The loops of `ParseNode.lookup`; `none` also when the given number of passes is not enough. -/
def lookupLoop (args : LookupArgs σ)
    (body : ℕ → List (ParseNode σ τ) → Option (List (ParseNode σ τ))) :
    ℕ → LookupState σ τ → Option (LookupState σ τ)
  | 0, _ => none
  | fuel + 1, st =>
    match st.cnodes with
    | [] =>
      let depth := if st.found then st.depth + 1 else st.depth
      if args.maxDepth.any (· < depth) ∨ st.nnodes = [] then some st
      else lookupLoop args body fuel
        { st with cnodes := st.nnodes, nnodes := [], depth := depth, found := false }
    | node :: cnodes =>
      (visit args body node { st with cnodes := cnodes }).bind (lookupLoop args body fuel)

/-- The loop over `ParseNode.lookup` at a node; no tree needs more passes. -/
def lookup (args : LookupArgs σ)
    (body : ℕ → List (ParseNode σ τ) → Option (List (ParseNode σ τ)))
    (self : ℕ) (all : List (ParseNode σ τ)) : Option (LookupState σ τ) :=
  lookupLoop args body (2 * all.length + 2) ⟨[], [self], 0, false, [], all⟩

end Lookup

/-- The loop body of `ParseNode.buildValue`, after the recursive call. -/
def addValue (self child : ℕ) (all : List (ParseNode σ Text)) : List (ParseNode σ Text) :=
  let value := (all[child]?.bind ParseNode.value).getD []
  all.modify self fun node => { node with value := some (node.value.getD [] ++ value) }

/-- `ParseNode.buildValue` -/
def buildValue : ℕ → ℕ → List (ParseNode σ Text) → Option (List (ParseNode σ Text))
  | 0, _, _ => none
  | fuel + 1, self, all => do
    let node ← all[self]?
    if node.value ≠ none then some all
    else
      node.children.foldlM
        (fun all child => (buildValue fuel child all).map (addValue self child))
        (all.set self { node with value := some [] })

/-- `ParseNode.getValue`; no tree needs more recursive calls. -/
def getValue (self : ℕ) (all : List (ParseNode σ Text)) : Option Text :=
  (buildValue (all.length + 1) self all).bind fun all => all[self]?.bind ParseNode.value

/-! ## What a lookup does -/

end ParseNode

namespace Forest

variable [DecidableEq σ]

/-- What is below the outermost nodes with a given symbol is changed. -/
def editAt (symbol : σ) (edit : Forest σ τ → Forest σ τ) : Forest σ τ → Forest σ τ
  | nil => nil
  | cons node label value children rest =>
    cons node label value (if label = symbol then edit children else children.editAt symbol edit)
      (rest.editAt symbol edit)

/-- The roots stay. -/
@[simp] lemma roots_editAt (symbol : σ) (edit : Forest σ τ → Forest σ τ) (f : Forest σ τ) :
    (f.editAt symbol edit).roots = f.roots := by
  induction f with
  | nil => rfl
  | cons node label value children rest _ ih => exact congrArg (node :: ·) ih

/-- A change of a concatenation. -/
@[simp] lemma editAt_append (symbol : σ) (edit : Forest σ τ → Forest σ τ) (f other : Forest σ τ) :
    (f.append other).editAt symbol edit =
      (f.editAt symbol edit).append (other.editAt symbol edit) := by
  induction f with
  | nil => rfl
  | cons node label value children rest _ ih =>
    rw [append, editAt, editAt, append, ih]

/-- A forest without the symbol stays as it is. -/
lemma editAt_eq_self {symbol : σ} {edit : Forest σ τ → Forest σ τ} {f : Forest σ τ}
    (h : symbol ∉ f.labels) : f.editAt symbol edit = f := by
  induction f with
  | nil => rfl
  | cons node label value children rest ihchildren ihrest =>
    obtain ⟨hne, hlabels⟩ := List.ne_and_not_mem_of_not_mem_cons h
    rw [List.mem_append, not_or] at hlabels
    rw [editAt, if_neg (Ne.symm hne), ihchildren hlabels.1, ihrest hlabels.2]

end Forest

namespace ParseNode

variable [DecidableEq σ]

/-- The body of a loop changes what is below the tree as `edit` does, and nothing else. -/
structure Edits (symbol : σ)
    (body : ℕ → List (ParseNode σ τ) → Option (List (ParseNode σ τ)))
    (edit : Forest σ τ → Forest σ τ) (t : Forest.Subtree σ τ) : Prop where
  /-- What the body does. -/
  run : ∀ all, (t.tree symbol).Holds all → t.nodes.Nodup → ∃ all', body t.node all = some all' ∧
    (Forest.cons t.node symbol t.value (edit t.children) .nil).Holds all' ∧
      ∀ n ∉ t.children.nodes, all'[n]? = all[n]?
  /-- No nodes are added. -/
  nodes : (edit t.children).nodes.Sublist t.children.nodes
  /-- The symbol does not stand below itself. -/
  notMem : symbol ∉ (edit t.children).labels

/-- The loop has yielded the nodes with the symbol and has changed what is below each as `edit`
does, and nothing else. -/
structure LooksUp (args : LookupArgs σ) (edit : Forest σ τ → Forest σ τ) (pending : Forest σ τ)
    (st st' : LookupState σ τ) : Prop where
  /-- The nodes are yielded in some order, and each once. -/
  yielded : ∃ yielded, st'.yielded = st.yielded ++ yielded ∧
    yielded ~ (pending.subtrees args.symbol).map Forest.Subtree.node
  /-- What is below them has changed. -/
  holds : (pending.editAt args.symbol edit).Holds st'.nodes
  /-- Nothing else has. -/
  frame : ∀ n ∉ pending.nodes, st'.nodes[n]? = st.nodes[n]?

variable {args : LookupArgs σ} {body : ℕ → List (ParseNode σ τ) → Option (List (ParseNode σ τ))}
  {edit : Forest σ τ → Forest σ τ}

/-- A visit at the first of the pending trees gives its root other children: either what the body
has left, with no more nodes to yield, or the same as before. -/
structure Visits (args : LookupArgs σ) (edit : Forest σ τ → Forest σ τ)
    (t : Forest.Subtree σ τ) (label : σ) (children' : Forest σ τ) (st st' : LookupState σ τ) :
    Prop where
  /-- The nodes of this level are not changed. -/
  cnodes : st'.cnodes = st.cnodes
  /-- The children are to be visited on the next level. -/
  nnodes : st'.nnodes = st.nnodes ++ children'.roots
  /-- The root is yielded if it has the symbol. -/
  yielded : st'.yielded = st.yielded ++ (if label = args.symbol then [t.node] else [])
  /-- The root has the new children. -/
  holds : (Forest.cons t.node label t.value children' .nil).Holds st'.nodes
  /-- They have no new nodes. -/
  sublist : children'.nodes.Sublist t.children.nodes
  /-- Nothing but what was below the root is changed. -/
  frame : ∀ n ∉ t.children.nodes, st'.nodes[n]? = st.nodes[n]?
  /-- The trees with the symbol are the root's own tree or those below it. -/
  subtrees : (t.tree label).subtrees args.symbol =
    (if label = args.symbol then [t] else []) ++ children'.subtrees args.symbol
  /-- What is left to be changed is below the new children. -/
  editAt : (t.tree label).editAt args.symbol edit =
    .cons t.node label t.value (children'.editAt args.symbol edit) .nil

/-- **One visit** does what the body of the loop does. -/
lemma visit_eq (hmin : args.minDepth = none) (st : LookupState σ τ) {t : Forest.Subtree σ τ}
    {label : σ} (hholds : (t.tree label).Holds st.nodes) (hnodup : t.nodes.Nodup)
    (hedits : label = args.symbol → Edits args.symbol body edit t) :
    ∃ st' children', visit args body t.node st = some st' ∧
      Visits args edit t label children' st st' := by
  obtain ⟨hnode, hchildren, -⟩ := hholds
  by_cases hlabel : label = args.symbol
  · have ht := hedits hlabel
    subst hlabel
    obtain ⟨all, hrun, hall, hframe⟩ := ht.run st.nodes ⟨hnode, hchildren, trivial⟩ hnodup
    refine ⟨⟨st.cnodes, st.nnodes ++ (edit t.children).roots, st.depth, true,
      st.yielded ++ [t.node], all⟩, edit t.children, ?_, rfl, rfl, ?_, hall, ht.nodes, hframe, ?_,
      ?_⟩
    · simp [visit, hnode, hmin, hrun, hall.1]
    · rw [if_pos rfl]
    · rw [Forest.Subtree.tree, Forest.subtrees, if_pos rfl, if_pos rfl,
        Forest.subtrees_eq_nil ht.notMem]
      rfl
    · rw [Forest.Subtree.tree, Forest.editAt, if_pos rfl, Forest.editAt_eq_self ht.notMem,
        Forest.editAt]
  · refine ⟨⟨st.cnodes, st.nnodes ++ t.children.roots, st.depth, st.found, st.yielded, st.nodes⟩,
      t.children, ?_, rfl, rfl, ?_, ⟨hnode, hchildren, trivial⟩, List.Sublist.refl _,
      fun _ _ => rfl, ?_, ?_⟩
    · simp [visit, hnode, hlabel]
    · rw [if_neg hlabel, List.append_nil]
    · rw [Forest.Subtree.tree, Forest.subtrees, if_neg hlabel, if_neg hlabel, Forest.subtrees,
        List.append_nil, List.nil_append]
    · rw [Forest.Subtree.tree, Forest.editAt, if_neg hlabel, Forest.editAt]

namespace Visits

variable {t : Forest.Subtree σ τ} {label : σ} {children' rest : Forest σ τ}
  {st st₁ st' : LookupState σ τ}

/-- What is left to visit has only nodes that were left before. -/
lemma subperm (h : Visits args edit t label children' st st₁) :
    (rest.append children').nodes <+~ t.children.nodes ++ rest.nodes := by
  rw [Forest.nodes_append]
  exact (h.sublist.append_left _).subperm.trans List.perm_append_comm.subperm

/-- What is left to visit shares no nodes. -/
lemma nodup (h : Visits args edit t label children' st st₁)
    (hnodup : ((t.tree label).append rest).nodes.Nodup) :
    (rest.append children').nodes.Nodup := by
  have happend : (t.children.nodes ++ rest.nodes).Nodup := (List.nodup_cons.mp hnodup).2
  rw [Forest.nodes_append]
  exact (List.perm_append_comm.nodup_iff.mp happend).sublist (h.sublist.append_left _)

/-- What is left to visit is in the list of nodes. -/
lemma holds_append (h : Visits args edit t label children' st st₁)
    (hnodup : ((t.tree label).append rest).nodes.Nodup) (hrest : rest.Holds st.nodes) :
    (rest.append children').Holds st₁.nodes := by
  have hdisjoint := (List.nodup_append.mp (List.nodup_cons.mp hnodup).2).2.2
  refine Forest.holds_append.mpr ⟨hrest.congr fun n hn => ?_, h.holds.2.1⟩
  exact h.frame n fun hmem => hdisjoint n hmem n hn rfl

/-- What is left to visit has no other trees with the symbol. -/
lemma mem_subtrees (h : Visits args edit t label children' st st₁) :
    ∀ s ∈ (rest.append children').subtrees args.symbol,
      s ∈ ((t.tree label).append rest).subtrees args.symbol := by
  intro s hs
  rw [Forest.subtrees_append] at hs
  rw [Forest.subtrees_append, h.subtrees]
  rcases List.mem_append.mp hs with hs | hs
  · exact List.mem_append_right _ hs
  · exact List.mem_append_left _ (List.mem_append_right _ hs)

/-- **The step lemma of a lookup**: a visit of the first of the pending trees and a loop over what
is left then do what a loop over all pending trees does. -/
lemma looksUp (h : Visits args edit t label children' st st₁)
    (hnodup : ((t.tree label).append rest).nodes.Nodup)
    (hlooks : LooksUp args edit (rest.append children') st₁ st') :
    LooksUp args edit ((t.tree label).append rest) st st' where
  yielded := by
    obtain ⟨later, hlater, hperm⟩ := hlooks.yielded
    refine ⟨(if label = args.symbol then [t.node] else []) ++ later, ?_, ?_⟩
    · rw [hlater, h.yielded, List.append_assoc]
    · have hhead : (if label = args.symbol then [t] else []).map Forest.Subtree.node =
          if label = args.symbol then [t.node] else [] := by
        split <;> rfl
      rw [Forest.subtrees_append, h.subtrees, List.append_assoc, List.map_append, hhead]
      refine List.Perm.append_left _ (hperm.trans ?_)
      rw [Forest.subtrees_append, List.map_append, List.map_append]
      exact List.perm_append_comm
  holds := by
    have hnotMem : t.node ∉ (rest.append children').nodes := fun hmem =>
      (List.nodup_cons.mp hnodup).1 (h.subperm.subset hmem)
    have hafter := hlooks.holds
    rw [Forest.editAt_append, Forest.holds_append] at hafter
    rw [Forest.editAt_append, h.editAt]
    refine ⟨?_, hafter.2, hafter.1⟩
    rw [hlooks.frame t.node hnotMem, Forest.roots_editAt]
    exact h.holds.1
  frame := by
    intro n hn
    obtain ⟨-, hn⟩ := List.ne_and_not_mem_of_not_mem_cons hn
    rw [hlooks.frame n fun hmem => hn (h.subperm.subset hmem)]
    exact h.frame n fun hmem => hn (List.mem_append_left _ hmem)

end Visits

/-- **The loop over a lookup**: from the trees whose roots are still to be visited, it does what the
recursion `editAt` does on them, in whatever order it visits their nodes. -/
theorem lookupLoop_eq (hmin : args.minDepth = none) (hmax : args.maxDepth = none) {fuel : ℕ}
    {st : LookupState σ τ} {pending : Forest σ τ} (hroots : pending.roots = st.cnodes ++ st.nnodes)
    (hholds : pending.Holds st.nodes) (hnodup : pending.nodes.Nodup)
    (hedits : ∀ t ∈ pending.subtrees args.symbol, Edits args.symbol body edit t)
    (hfuel : 2 * pending.nodes.length + (if st.cnodes = [] then 2 else 1) ≤ fuel) :
    ∃ st', lookupLoop args body fuel st = some st' ∧ LooksUp args edit pending st st' := by
  induction fuel generalizing st pending with
  | zero => split at hfuel <;> omega
  | succ fuel ih =>
    obtain ⟨cnodes, nnodes, depth, found, yielded, all⟩ := st
    cases cnodes with
    | nil =>
      rw [lookupLoop]
      simp only [hmax, Option.any_none, Bool.false_eq_true, false_or]
      rw [if_pos rfl] at hfuel
      cases nnodes with
      | nil =>
        cases pending with
        | nil =>
          refine ⟨_, if_pos rfl, ⟨[], (List.append_nil _).symm, List.Perm.refl _⟩, trivial, ?_⟩
          exact fun _ _ => rfl
        | cons => exact absurd hroots (by simp [Forest.roots])
      | cons node nnodes =>
        -- the next level begins, with the same trees pending
        rw [if_neg (List.cons_ne_nil _ _)]
        have hroots' : pending.roots = (node :: nnodes) ++ [] := by
          rw [hroots, List.append_nil]
          rfl
        obtain ⟨st', hrun, hst'⟩ := @ih ⟨node :: nnodes, [], _, false, yielded, all⟩ pending
          hroots' hholds hnodup hedits (by rw [if_neg (List.cons_ne_nil _ _)]; omega)
        exact ⟨st', hrun, hst'.yielded, hst'.holds, hst'.frame⟩
    | cons node cnodes =>
      cases pending with
      | nil => exact absurd hroots (by simp [Forest.roots])
      | cons node' label value children rest =>
        obtain ⟨rfl, hrest⟩ := List.cons.inj hroots
        obtain ⟨t, rfl, rfl, rfl⟩ : ∃ t : Forest.Subtree σ τ,
            t.node = node' ∧ t.value = value ∧ t.children = children :=
          ⟨⟨node', value, children⟩, rfl, rfl, rfl⟩
        change ((t.tree label).append rest).Holds all at hholds
        change ((t.tree label).append rest).nodes.Nodup at hnodup
        change ∀ s ∈ ((t.tree label).append rest).subtrees args.symbol,
          Edits args.symbol body edit s at hedits
        obtain ⟨hhead, hrestHolds⟩ := Forest.holds_append.mp hholds
        have hheadNodup : t.nodes.Nodup :=
          hnodup.sublist (List.Sublist.cons_cons _ (List.sublist_append_left _ _))
        have hheadEdits : label = args.symbol → Edits args.symbol body edit t := by
          intro hlabel
          refine hedits t ?_
          rw [Forest.subtrees_append, Forest.Subtree.tree, Forest.subtrees, if_pos hlabel]
          exact List.mem_append_left _ List.mem_cons_self
        obtain ⟨st₁, children', hvisit, h⟩ :=
          visit_eq hmin ⟨cnodes, nnodes, depth, found, yielded, all⟩ hhead hheadNodup hheadEdits
        have hroots' : (rest.append children').roots = st₁.cnodes ++ st₁.nnodes := by
          rw [Forest.roots_append, hrest, h.cnodes, h.nnodes, ← List.append_assoc]
          rfl
        have hfuel' : 2 * (rest.append children').nodes.length +
            (if st₁.cnodes = [] then 2 else 1) ≤ fuel := by
          have hlength : (rest.append children').nodes.length ≤
              (t.children.nodes ++ rest.nodes).length := h.subperm.length_le
          have hpending : (Forest.cons t.node label t.value t.children rest).nodes.length =
              (t.children.nodes ++ rest.nodes).length + 1 := List.length_cons
          rw [if_neg (List.cons_ne_nil _ _)] at hfuel
          split <;> omega
        obtain ⟨st', hrun, hlooks⟩ := ih hroots' (h.holds_append hnodup hrestHolds)
          (h.nodup hnodup) (fun s hs => hedits s (h.mem_subtrees s hs)) hfuel'
        have hall := h.looksUp hnodup hlooks
        refine ⟨st', ?_, hall.yielded, hall.holds, hall.frame⟩
        rw [lookupLoop]
        show (visit args body t.node ⟨cnodes, nnodes, depth, found, yielded, all⟩).bind _ = _
        rw [hvisit]
        exact hrun

/-- **A lookup in a tree** yields the nodes with the symbol, each once, and does what the recursion
`editAt` does. -/
theorem lookup_eq {symbol : σ} {all : List (ParseNode σ τ)} {node : ℕ} {label : σ}
    {value : Option τ} {children : Forest σ τ}
    (hholds : (Forest.cons node label value children .nil).Holds all)
    (hnodup : (Forest.cons node label value children .nil).nodes.Nodup)
    (hedits : ∀ t ∈ (Forest.cons node label value children .nil).subtrees symbol,
      Edits symbol body edit t) :
    ∃ st', lookup ⟨symbol, none, none⟩ body node all = some st' ∧
      st'.yielded ~ ((Forest.cons node label value children .nil).subtrees symbol).map
        Forest.Subtree.node ∧
      ((Forest.cons node label value children .nil).editAt symbol edit).Holds st'.nodes ∧
      ∀ n ∉ (Forest.cons node label value children .nil).nodes, st'.nodes[n]? = all[n]? := by
  have hfuel := hholds.length_nodes_le hnodup
  obtain ⟨st', hrun, hlooks⟩ := @lookupLoop_eq σ τ _ ⟨symbol, none, none⟩ body edit rfl rfl
    (2 * all.length + 2) ⟨[], [node], 0, false, [], all⟩ _ rfl hholds hnodup hedits
    (by rw [if_pos rfl]; omega)
  obtain ⟨yielded, hyielded, hperm⟩ := hlooks.yielded
  refine ⟨st', hrun, ?_, hlooks.holds, hlooks.frame⟩
  rw [hyielded]
  exact hperm

end ParseNode

/-! ## The text of a tree -/

/-- The texts of the tokens of a forest, one after the other; what is below a token is not read. -/
def Forest.text : Forest σ Text → Text
  | nil => []
  | cons _ _ value children rest => value.getD children.text ++ rest.text

namespace ParseNode

/-- With the given number of recursive calls `buildValue` stores the text of every smaller tree in
its root and changes no node outside of the tree. -/
def BuildsValues (σ : Type*) (fuel : ℕ) : Prop :=
  ∀ (t : Forest.Subtree σ Text) (label : σ) (all : List (ParseNode σ Text)),
    (t.tree label).Holds all → t.nodes.Nodup → t.children.nodes.length < fuel →
      ∃ all', buildValue fuel t.node all = some all' ∧
        all'[t.node]?.bind ParseNode.value = some (t.value.getD t.children.text) ∧
        ∀ n ∉ t.nodes, all'[n]? = all[n]?

/-- Adding the value of a child to that of its parent changes no other node. -/
lemma getElem?_addValue_ne {self child n : ℕ} (all : List (ParseNode σ Text)) (hn : n ≠ self) :
    (addValue self child all)[n]? = all[n]? :=
  List.getElem?_modify_ne _ _ hn.symm

/-- Adding the value of a child to that of its parent. -/
lemma value_addValue {self child : ℕ} {all : List (ParseNode σ Text)} {acc text : Text}
    (hself : all[self]?.bind ParseNode.value = some acc)
    (hchild : all[child]?.bind ParseNode.value = some text) :
    (addValue self child all)[self]?.bind ParseNode.value = some (acc ++ text) := by
  obtain ⟨node, hnode, hvalue⟩ := Option.bind_eq_some_iff.mp hself
  rw [addValue, List.getElem?_modify_eq, hnode, hchild]
  simp [hvalue]

/-- **The loop of `buildValue`** over the children appends their texts to the value of the
parent. -/
lemma foldlM_addValue {fuel self : ℕ} (hbuilds : BuildsValues σ fuel) {f : Forest σ Text}
    {all : List (ParseNode σ Text)} {acc : Text}
    (hself : all[self]?.bind ParseNode.value = some acc) (hholds : f.Holds all)
    (hnodup : (self :: f.nodes).Nodup) (hfuel : f.nodes.length ≤ fuel) :
    ∃ all', f.roots.foldlM
        (fun all child => (buildValue fuel child all).map (addValue self child)) all = some all' ∧
      all'[self]?.bind ParseNode.value = some (acc ++ f.text) ∧
      ∀ n ∉ self :: f.nodes, all'[n]? = all[n]? := by
  induction f generalizing all acc with
  | nil => exact ⟨all, rfl, by rw [hself, Forest.text, List.append_nil], fun _ _ => rfl⟩
  | cons node label value children rest _ ih =>
    obtain ⟨hnode, hchildren, hrest⟩ := hholds
    obtain ⟨hselfMem, hnodes⟩ := List.nodup_cons.mp hnodup
    have htree : (node :: children.nodes).Nodup :=
      hnodes.sublist (List.Sublist.cons_cons _ (List.sublist_append_left _ _))
    have hrestMem {n : ℕ} (hn : n ∈ rest.nodes) : n ∉ node :: children.nodes := by
      rw [Forest.nodes, ← List.cons_append] at hnodes
      exact fun hmem => (List.nodup_append.mp hnodes).2.2 n hmem n hn rfl
    have hself' : self ∉ node :: children.nodes := fun hmem => hselfMem (by
      rw [Forest.nodes, ← List.cons_append]
      exact List.mem_append_left _ hmem)
    have hselfRest : self ∉ rest.nodes := fun hmem => hselfMem
      (List.mem_cons_of_mem _ (List.mem_append_right _ hmem))
    have hlength : (Forest.cons node label value children rest).nodes.length =
        children.nodes.length + rest.nodes.length + 1 := by
      rw [Forest.nodes, List.length_cons, List.length_append]
    obtain ⟨all₁, hbuild, hvalue, hframe⟩ := hbuilds ⟨node, value, children⟩ label all
      ⟨hnode, hchildren, trivial⟩ htree (by show children.nodes.length < fuel; omega)
    have hself₁ : all₁[self]?.bind ParseNode.value = some acc := by
      rw [hframe self hself', hself]
    have hrest₁ : rest.Holds (addValue self node all₁) := by
      refine hrest.congr fun n hn => ?_
      have hne : n ≠ self := fun heq => hselfRest (heq ▸ hn)
      rw [getElem?_addValue_ne all₁ hne, hframe n (hrestMem hn)]
    obtain ⟨all', hfold, hvalue', hframe'⟩ := ih (value_addValue hself₁ hvalue) hrest₁
      (List.nodup_cons.mpr ⟨hselfRest, (List.nodup_append.mp (List.nodup_cons.mp hnodes).2).2.1⟩)
      (by omega)
    refine ⟨all', ?_, ?_, ?_⟩
    · rw [Forest.roots, List.foldlM_cons, hbuild]
      exact hfold
    · rw [hvalue', Forest.text, List.append_assoc]
    · intro n hn
      obtain ⟨hne, hn⟩ := List.ne_and_not_mem_of_not_mem_cons hn
      rw [Forest.nodes, ← List.cons_append, List.mem_append, not_or] at hn
      rw [hframe' n (List.not_mem_cons_of_ne_of_not_mem hne hn.2),
        getElem?_addValue_ne all₁ hne, hframe n hn.1]

/-- **`buildValue` stores the text of a tree** in its root. -/
theorem buildsValues (fuel : ℕ) : BuildsValues σ fuel := by
  induction fuel with
  | zero => exact fun _ _ _ _ _ hfuel => absurd hfuel (Nat.not_lt_zero _)
  | succ fuel ih =>
    rintro ⟨node, value, children⟩ label all ⟨hnode, hchildren, -⟩ hnodup hfuel
    cases value with
    | some text =>
      refine ⟨all, ?_, ?_, fun _ _ => rfl⟩
      · simp [buildValue, hnode]
      · rw [hnode]
        rfl
    | none =>
      have hlt : node < all.length := (List.getElem?_eq_some_iff.mp hnode).1
      have hnotMem : node ∉ children.nodes := (List.nodup_cons.mp hnodup).1
      have hself : (all.set node ⟨label, some [], children.roots⟩)[node]?.bind ParseNode.value =
          some [] := by
        rw [List.getElem?_set_self hlt]
        rfl
      have hchildren' : children.Holds (all.set node ⟨label, some [], children.roots⟩) := by
        refine hchildren.congr fun n hn => List.getElem?_set_ne ?_
        exact fun heq => hnotMem (heq ▸ hn)
      obtain ⟨all', hfold, hvalue, hframe⟩ :=
        foldlM_addValue ih hself hchildren' hnodup (Nat.le_of_lt_succ hfuel)
      refine ⟨all', ?_, hvalue, fun n hn => ?_⟩
      · rw [buildValue, hnode]
        exact hfold
      · rw [hframe n hn, List.getElem?_set_ne]
        exact fun heq => hn (heq ▸ List.mem_cons_self)

/-- **`getValue`** returns the text of the tree. -/
theorem getValue_eq {t : Forest.Subtree σ Text} {label : σ} {all : List (ParseNode σ Text)}
    (hholds : (t.tree label).Holds all) (hnodup : t.nodes.Nodup) :
    getValue t.node all = some (t.value.getD t.children.text) := by
  have hfuel : t.children.nodes.length < all.length + 1 := by
    have hlength := hholds.length_nodes_le (hnodup.sublist (by simp [Forest.Subtree.tree,
      Forest.nodes, Forest.Subtree.nodes]))
    simp only [Forest.Subtree.tree, Forest.nodes, List.length_cons, List.length_append] at hlength
    omega
  obtain ⟨all', hbuild, hvalue, -⟩ := buildsValues _ t label all hholds hnodup hfuel
  rw [getValue, hbuild]
  exact hvalue

end ParseNode

end NaoSoccer
