import NaoSoccer.Schema.NodeLookup

/-!
# The first level with a symbol

A loop over `ParseNode.lookup` that changes no nodes gets them level by level.  The depth counts the
levels that had the symbol, so with `max_depth=0` the search ends behind the first of them, and
`lookupSingle` takes the first node on it.  `FirstLevel` finds that level by recursion over the
levels of a forest.
-/

namespace NaoSoccer

variable {σ τ : Type*}

/-! ## Levels -/

namespace Forest

/-- The trees right below the roots. -/
def nextLevel : Forest σ τ → Forest σ τ
  | nil => nil
  | cons _ _ _ children rest => children.append rest.nextLevel

/-- Nothing is added by the forest without trees. -/
@[simp] lemma append_nil (f : Forest σ τ) : f.append nil = f := by
  induction f with
  | nil => rfl
  | cons node symbol value children rest _ ih => rw [append, ih]

/-- Concatenation is associative. -/
lemma append_assoc (f g h : Forest σ τ) : (f.append g).append h = f.append (g.append h) := by
  induction f with
  | nil => rfl
  | cons node symbol value children rest _ ih => rw [append, append, append, ih]

/-- The next level of a concatenation. -/
@[simp] lemma nextLevel_append (f g : Forest σ τ) : (f.append g).nextLevel = f.nextLevel.append g.nextLevel := by
  induction f with
  | nil => rfl
  | cons node symbol value children rest _ ih => rw [append, nextLevel, nextLevel, ih, append_assoc]

/-- The nodes are the roots and those of the next level and behind. -/
lemma length_nodes (f : Forest σ τ) :
    f.nodes.length = f.roots.length + f.nextLevel.nodes.length := by
  induction f with
  | nil => rfl
  | cons node symbol value children rest _ ih =>
    simp only [nodes, roots, nextLevel, nodes_append, List.length_cons, List.length_append, ih]
    omega

/-- The next level is in the list of nodes. -/
lemma Holds.nextLevel {all : List (ParseNode σ τ)} {f : Forest σ τ} (h : f.Holds all) :
    f.nextLevel.Holds all := by
  induction f with
  | nil => trivial
  | cons node symbol value children rest _ ih =>
    obtain ⟨-, hchildren, hrest⟩ := h
    exact holds_append.mpr ⟨hchildren, ih hrest⟩

/-- The symbols of a concatenation. -/
lemma labels_append (f g : Forest σ τ) : (f.append g).labels = f.labels ++ g.labels := by
  induction f with
  | nil => rfl
  | cons node symbol value children rest _ ih => simp [append, labels, ih]

/-- The symbols of the roots are among all. -/
lemma symbols_subset_labels (f : Forest σ τ) : f.symbols ⊆ f.labels := by
  induction f with
  | nil => exact List.Subset.refl _
  | cons node symbol value children rest _ ih =>
    exact List.cons_subset_cons _ (List.Subset.trans ih (List.subset_append_right _ _))

/-- The symbols of the next level and behind are among all. -/
lemma labels_nextLevel_subset (f : Forest σ τ) : f.nextLevel.labels ⊆ f.labels := by
  induction f with
  | nil => exact List.Subset.refl _
  | cons node symbol value children rest _ ih =>
    rw [nextLevel, labels_append, labels]
    refine List.append_subset.mpr ⟨?_, ?_⟩
    · exact List.Subset.trans (List.subset_append_left _ _) (List.subset_cons_self _ _)
    · exact List.Subset.trans ih
        (List.Subset.trans (List.subset_append_right _ _) (List.subset_cons_self _ _))

variable [DecidableEq σ]

/-- The roots with a symbol. -/
def rootsWith (symbol : σ) : Forest σ τ → List ℕ
  | nil => []
  | cons node label _ _ rest =>
    if label = symbol then node :: rest.rootsWith symbol else rest.rootsWith symbol

/-- The roots with a symbol in a concatenation. -/
lemma rootsWith_append (symbol : σ) (f g : Forest σ τ) :
    (f.append g).rootsWith symbol = f.rootsWith symbol ++ g.rootsWith symbol := by
  induction f with
  | nil => rfl
  | cons node label value children rest _ ih =>
    rw [append, rootsWith, rootsWith]
    split
    · rw [ih, List.cons_append]
    · exact ih

/-- There are none if no root has the symbol. -/
lemma rootsWith_eq_nil {symbol : σ} {f : Forest σ τ} (h : symbol ∉ f.symbols) :
    f.rootsWith symbol = [] := by
  induction f with
  | nil => rfl
  | cons node label value children rest _ ih =>
    obtain ⟨hne, hrest⟩ := List.ne_and_not_mem_of_not_mem_cons h
    rw [rootsWith, if_neg (Ne.symm hne), ih hrest]

/-- These are the nodes with the symbol on the first level that has it. -/
inductive FirstLevel (symbol : σ) : Forest σ τ → List ℕ → Prop
  /-- The roots have it. -/
  | here {f} : symbol ∈ f.symbols → FirstLevel symbol f (f.rootsWith symbol)
  /-- No root has it, so it is the first level below the roots. -/
  | deeper {f nodes} : symbol ∉ f.symbols → FirstLevel symbol f.nextLevel nodes →
      FirstLevel symbol f nodes

namespace FirstLevel

variable {symbol : σ} {f g : Forest σ τ} {nodes : List ℕ}

/-- Trees without the symbol can stand in front. -/
lemma append_left (h : FirstLevel symbol g nodes) (hf : symbol ∉ f.labels) :
    FirstLevel symbol (f.append g) nodes := by
  induction h generalizing f with
  | @here g hg =>
    have hroots := rootsWith_eq_nil (mt (symbols_subset_labels f ·) hf)
    have happend : FirstLevel symbol (f.append g) ((f.append g).rootsWith symbol) :=
      here (by rw [symbols_append]; exact List.mem_append_right _ hg)
    rwa [rootsWith_append, hroots, List.nil_append] at happend
  | @deeper g nodes hg _ ih =>
    refine deeper ?_ ?_
    · rw [symbols_append, List.mem_append, not_or]
      exact ⟨mt (symbols_subset_labels f ·) hf, hg⟩
    · rw [nextLevel_append]
      exact ih (mt (labels_nextLevel_subset f ·) hf)

/-- Trees without the symbol can stand behind. -/
lemma append_right (h : FirstLevel symbol f nodes) (hg : symbol ∉ g.labels) :
    FirstLevel symbol (f.append g) nodes := by
  induction h generalizing g with
  | @here f hf =>
    have hroots := rootsWith_eq_nil (mt (symbols_subset_labels g ·) hg)
    have happend : FirstLevel symbol (f.append g) ((f.append g).rootsWith symbol) :=
      here (by rw [symbols_append]; exact List.mem_append_left _ hf)
    rwa [rootsWith_append, hroots, List.append_nil] at happend
  | @deeper f nodes hf _ ih =>
    refine deeper ?_ ?_
    · rw [symbols_append, List.mem_append, not_or]
      exact ⟨hf, mt (symbols_subset_labels g ·) hg⟩
    · rw [nextLevel_append]
      exact ih (mt (labels_nextLevel_subset g ·) hg)

/-- A root without the symbol. -/
lemma under (h : FirstLevel symbol f nodes) {node : ℕ} {label : σ} {value : Option τ}
    (hlabel : symbol ≠ label) : FirstLevel symbol (cons node label value f nil) nodes := by
  refine deeper (fun hmem => hlabel (List.mem_singleton.mp hmem)) ?_
  rw [nextLevel, nextLevel, append_nil]
  exact h

/-- There is a level to search. -/
lemma roots_ne_nil (h : FirstLevel symbol f nodes) : f.roots ≠ [] := by
  induction h with
  | @here f hf =>
    rw [← List.length_pos_iff, ← length_symbols]
    exact List.length_pos_of_mem hf
  | @deeper f nodes _ _ ih =>
    intro hroots
    cases f with
    | nil => exact ih rfl
    | cons => exact absurd hroots (List.cons_ne_nil _ _)

/-- The first tree has the symbol at its root, and the others do not have it. -/
lemma head {node : ℕ} {value : Option τ} (hg : symbol ∉ g.symbols) :
    FirstLevel symbol (cons node symbol value f g) [node] := by
  have hhere : FirstLevel symbol (cons node symbol value f g)
      ((cons node symbol value f g).rootsWith symbol) := here List.mem_cons_self
  rwa [rootsWith, if_pos rfl, rootsWith_eq_nil hg] at hhere

end FirstLevel

end Forest

/-! ## Lookups without a loop body -/

namespace ParseNode

open Forest

variable [DecidableEq σ]

/-- The body of a loop that changes no nodes. -/
def keep : ℕ → List (ParseNode σ τ) → Option (List (ParseNode σ τ)) := fun _ all => some all

/-- All nodes that a lookup yields. -/
def lookupAll (args : LookupArgs σ) (self : ℕ) (all : List (ParseNode σ τ)) : Option (List ℕ) :=
  (lookup args keep self all).map LookupState.yielded

/-- `ParseNode.lookupSingle`; without a node it raises `StopIteration`. -/
def lookupSingle (symbol : σ) (self : ℕ) (all : List (ParseNode σ τ)) : Option ℕ :=
  (lookupAll ⟨symbol, none, none⟩ self all).bind List.head?

/-- `ParseNode.lookupValue` -/
def lookupValue (symbol : σ) (self : ℕ) (all : List (ParseNode σ Text)) : Option Text :=
  (lookupSingle symbol self all).bind fun node => getValue node all

section Levels

variable {args : LookupArgs σ} {all : List (ParseNode σ τ)} {f : Forest σ τ}

/-- A visit without a loop body: the children are for the next level, and the node is yielded if it
has the symbol. -/
lemma visit_keep (hmin : ∀ depth, args.minDepth.all (· ≤ depth) = true) {st : LookupState σ τ}
    {node : ℕ} {current : ParseNode σ τ} (h : st.nodes[node]? = some current) :
    visit args keep node st = some { st with
      nnodes := st.nnodes ++ current.children
      found := st.found || decide (current.symbol = args.symbol)
      yielded := st.yielded ++ if current.symbol = args.symbol then [node] else [] } := by
  rw [visit, h, Option.bind_some, hmin]
  by_cases hsymbol : current.symbol = args.symbol
  · simp [hsymbol, keep, h]
  · simp [hsymbol, h]

/-- **One level**: the children of its nodes are the next level, and the nodes with the symbol are
yielded. -/
lemma lookupLoop_level (hmin : ∀ depth, args.minDepth.all (· ≤ depth) = true) (h : f.Holds all)
    (fuel : ℕ) (nnodes : List ℕ) (depth : ℕ) (found : Bool) (yielded : List ℕ) :
    lookupLoop args keep (f.roots.length + fuel) ⟨f.roots, nnodes, depth, found, yielded, all⟩ =
      lookupLoop args keep fuel ⟨[], nnodes ++ f.nextLevel.roots, depth,
        found || decide (args.symbol ∈ f.symbols), yielded ++ f.rootsWith args.symbol, all⟩ := by
  induction f generalizing nnodes found yielded with
  | nil => simp [roots, nextLevel, symbols, rootsWith]
  | cons node label value children rest _ ih =>
    obtain ⟨hnode, -, hrest⟩ := h
    have hvisit : visit args keep node ⟨rest.roots, nnodes, depth, found, yielded, all⟩ =
        some ⟨rest.roots, nnodes ++ children.roots, depth, found || decide (label = args.symbol),
          yielded ++ if label = args.symbol then [node] else [], all⟩ := by
      rw [visit_keep hmin hnode]
    have hfound : (found || decide (label = args.symbol) || decide (args.symbol ∈ rest.symbols)) =
        (found || decide (args.symbol ∈ (cons node label value children rest).symbols)) := by
      simp [symbols, Bool.or_assoc, eq_comm]
    have hyielded : (yielded ++ if label = args.symbol then [node] else []) ++
        rest.rootsWith args.symbol =
          yielded ++ (cons node label value children rest).rootsWith args.symbol := by
      rw [rootsWith]
      split <;> simp
    rw [roots, List.length_cons, Nat.add_right_comm, lookupLoop]
    show (visit args keep node ⟨rest.roots, nnodes, depth, found, yielded, all⟩).bind _ = _
    rw [hvisit, Option.bind_some, ih hrest, nextLevel, roots_append, hfound, hyielded,
      List.append_assoc]

/-- The depth behind a level. -/
def depthBehind (depth : ℕ) (found : Bool) : ℕ := if found then depth + 1 else depth

/-- A search that has come to the end of a level ends there, or it goes over the next one. -/
lemma lookupLoop_next (hmin : ∀ depth, args.minDepth.all (· ≤ depth) = true) (h : f.Holds all)
    {fuel : ℕ} (hfuel : 2 * f.nodes.length + 1 ≤ fuel) (depth : ℕ) (found : Bool)
    (yielded : List ℕ) :
    (args.maxDepth.any (· < depthBehind depth found) = true ∨ f.roots = []) ∧
        lookupLoop args keep fuel ⟨[], f.roots, depth, found, yielded, all⟩ =
          some ⟨[], f.roots, depth, found, yielded, all⟩ ∨
      ¬ args.maxDepth.any (· < depthBehind depth found) = true ∧
        f.nextLevel.nodes.length < f.nodes.length ∧
        ∃ fuel', 2 * f.nextLevel.nodes.length + 1 ≤ fuel' ∧
          lookupLoop args keep fuel ⟨[], f.roots, depth, found, yielded, all⟩ =
            lookupLoop args keep fuel' ⟨[], f.nextLevel.roots, depthBehind depth found,
              decide (args.symbol ∈ f.symbols), yielded ++ f.rootsWith args.symbol, all⟩ := by
  obtain ⟨fuel, rfl⟩ := Nat.exists_eq_add_of_le' (Nat.one_le_of_lt hfuel)
  rw [lookupLoop]
  show _ ∧ (if args.maxDepth.any (· < depthBehind depth found) = true ∨ f.roots = [] then _ else _) =
    _ ∨ _ ∧ _ ∧ ∃ fuel', _ ∧ (if args.maxDepth.any (· < depthBehind depth found) = true ∨
      f.roots = [] then _ else _) = _
  by_cases hstop : args.maxDepth.any (· < depthBehind depth found) = true ∨ f.roots = []
  · exact Or.inl ⟨hstop, if_pos hstop⟩
  · have hlength := length_nodes f
    have hpos : 0 < f.roots.length := List.length_pos_of_ne_nil (not_or.mp hstop).2
    obtain ⟨fuel, rfl⟩ := Nat.exists_eq_add_of_le (show f.roots.length ≤ fuel by omega)
    refine Or.inr ⟨(not_or.mp hstop).1, by omega, fuel, by omega, ?_⟩
    rw [if_neg hstop]
    exact lookupLoop_level hmin h fuel [] (depthBehind depth found) false yielded

/-- **The lookup comes to an end**, and what it has yielded stays. -/
lemma exists_lookupLoop (hmin : ∀ depth, args.minDepth.all (· ≤ depth) = true) {fuel : ℕ}
    (h : f.Holds all) (hfuel : 2 * f.nodes.length + 1 ≤ fuel) (depth : ℕ) (found : Bool)
    (yielded : List ℕ) :
    ∃ st', lookupLoop args keep fuel ⟨[], f.roots, depth, found, yielded, all⟩ = some st' ∧
      yielded <+: st'.yielded := by
  induction hn : f.nodes.length using Nat.strongRecOn generalizing f fuel depth found yielded with
  | ind n ih =>
    rcases lookupLoop_next hmin h hfuel depth found yielded with
      ⟨-, hrun⟩ | ⟨-, hlt, fuel', hfuel', hrun⟩
    · exact ⟨_, hrun, List.prefix_refl yielded⟩
    · obtain ⟨st', hrest, hyielded⟩ := ih _ (hn ▸ hlt) h.nextLevel hfuel'
        (depthBehind depth found) (decide (args.symbol ∈ f.symbols))
        (yielded ++ f.rootsWith args.symbol) rfl
      exact ⟨st', hrun.trans hrest, (List.prefix_append _ _).trans hyielded⟩

/-- **The search on the first level with the symbol**: its nodes with the symbol are the first that
are yielded, and the only ones if the depth is limited to zero. -/
lemma lookupLoop_firstLevel (hmin : ∀ depth, args.minDepth.all (· ≤ depth) = true)
    (hmax : args.maxDepth = none ∨ args.maxDepth = some 0) {nodes : List ℕ}
    (hlevel : FirstLevel args.symbol f nodes) (h : f.Holds all) {fuel : ℕ}
    (hfuel : 2 * f.nodes.length + 1 ≤ fuel) :
    ∃ st', lookupLoop args keep fuel ⟨[], f.roots, 0, false, [], all⟩ = some st' ∧
      nodes <+: st'.yielded ∧ (args.maxDepth = some 0 → st'.yielded = nodes) := by
  have hgoes : ¬ args.maxDepth.any (· < depthBehind 0 false) = true := by
    rcases hmax with hmax | hmax <;> simp [hmax, depthBehind]
  induction hlevel generalizing fuel with
  | @here f hf =>
    rcases lookupLoop_next hmin h hfuel 0 false [] with
      ⟨hstop, -⟩ | ⟨-, -, fuel', hfuel', hrun⟩
    · exact absurd (hstop.resolve_left hgoes) (FirstLevel.here hf).roots_ne_nil
    · rw [hrun, List.nil_append, decide_eq_true hf]
      -- the next level is not searched if the depth is limited
      rcases hmax with hmax | hmax
      · obtain ⟨st', hrest, hyielded⟩ := exists_lookupLoop hmin h.nextLevel hfuel' 0 true
          (f.rootsWith args.symbol)
        exact ⟨st', hrest, hyielded, fun hzero => absurd (hmax.symm.trans hzero) (by simp)⟩
      · rcases lookupLoop_next hmin h.nextLevel hfuel' 0 true (f.rootsWith args.symbol) with
          ⟨-, hrest⟩ | ⟨hlimit, -⟩
        · exact ⟨_, hrest, List.prefix_refl _, fun _ => rfl⟩
        · exact absurd (by simp [hmax, depthBehind]) hlimit
  | @deeper f nodes hf hlevel ih =>
    rcases lookupLoop_next hmin h hfuel 0 false [] with
      ⟨hstop, -⟩ | ⟨-, -, fuel', hfuel', hrun⟩
    · exact absurd (hstop.resolve_left hgoes) (FirstLevel.deeper hf hlevel).roots_ne_nil
    · rw [hrun, rootsWith_eq_nil hf, decide_eq_false hf]
      exact ih h.nextLevel hfuel'

/-- A search for a symbol that is not there yields nothing. -/
lemma lookupLoop_absent (hmin : ∀ depth, args.minDepth.all (· ≤ depth) = true)
    (habsent : args.symbol ∉ f.labels) (h : f.Holds all) {fuel : ℕ}
    (hfuel : 2 * f.nodes.length + 1 ≤ fuel) :
    ∃ st', lookupLoop args keep fuel ⟨[], f.roots, 0, false, [], all⟩ = some st' ∧
      st'.yielded = [] := by
  induction hn : f.nodes.length using Nat.strongRecOn generalizing f fuel with
  | ind n ih =>
    have hroots : args.symbol ∉ f.symbols := mt (symbols_subset_labels f ·) habsent
    rcases lookupLoop_next hmin h hfuel 0 false [] with
      ⟨-, hrun⟩ | ⟨-, hlt, fuel', hfuel', hrun⟩
    · exact ⟨_, hrun, rfl⟩
    · rw [hrun, rootsWith_eq_nil hroots, decide_eq_false hroots]
      exact ih _ (hn ▸ hlt) (mt (labels_nextLevel_subset f ·) habsent) h.nextLevel hfuel' rfl

end Levels

variable {all : List (ParseNode σ τ)} {t : Subtree σ τ} {label symbol : σ}

omit [DecidableEq σ] in
/-- A tree has enough passes for a lookup at its root. -/
lemma lookup_passes (h : (t.tree label).Holds all) (hnodup : t.nodes.Nodup) :
    2 * (t.tree label).nodes.length + 1 ≤ 2 * all.length + 2 := by
  have hnodes : (t.tree label).nodes = t.nodes := by
    rw [Subtree.tree, Forest.nodes, Forest.nodes, List.append_nil, Subtree.nodes]
  have hlength := h.length_nodes_le (hnodes ▸ hnodup)
  omega

/-- **`lookup` with both depths zero** yields the nodes on the first level with the symbol. -/
lemma lookupAll_zero {nodes : List ℕ} (hlevel : FirstLevel symbol (t.tree label) nodes)
    (h : (t.tree label).Holds all) (hnodup : t.nodes.Nodup) :
    lookupAll ⟨symbol, some 0, some 0⟩ t.node all = some nodes := by
  obtain ⟨st', hrun, -, hyielded⟩ := @lookupLoop_firstLevel σ τ _ ⟨symbol, some 0, some 0⟩ all
    (t.tree label) (fun depth => by simp) (Or.inr rfl) nodes hlevel h _
    (lookup_passes h hnodup)
  rw [lookupAll, lookup]
  exact (congrArg (Option.map LookupState.yielded) hrun).trans
    (congrArg some (hyielded rfl))

/-- A symbol that is not there is not yielded. -/
lemma lookupAll_absent (habsent : symbol ∉ (t.tree label).labels) (h : (t.tree label).Holds all)
    (hnodup : t.nodes.Nodup) : lookupAll ⟨symbol, some 0, some 0⟩ t.node all = some [] := by
  obtain ⟨st', hrun, hyielded⟩ := @lookupLoop_absent σ τ _ ⟨symbol, some 0, some 0⟩ all
    (t.tree label) (fun depth => by simp) habsent h _ (lookup_passes h hnodup)
  rw [lookupAll, lookup]
  exact (congrArg (Option.map LookupState.yielded) hrun).trans (congrArg some hyielded)

/-- **`lookupSingle`** finds the first node on the first level with the symbol. -/
lemma lookupSingle_eq {node : ℕ} {nodes : List ℕ}
    (hlevel : FirstLevel symbol (t.tree label) (node :: nodes)) (h : (t.tree label).Holds all)
    (hnodup : t.nodes.Nodup) : lookupSingle symbol t.node all = some node := by
  obtain ⟨st', hrun, ⟨more, hyielded⟩, -⟩ := @lookupLoop_firstLevel σ τ _ ⟨symbol, none, none⟩ all
    (t.tree label) (fun _ => rfl) (Or.inl rfl) _ hlevel h _ (lookup_passes h hnodup)
  have hall : lookupAll ⟨symbol, none, none⟩ t.node all = some st'.yielded :=
    congrArg (Option.map LookupState.yielded) hrun
  rw [lookupSingle, hall, Option.bind_some, ← hyielded]
  rfl

end ParseNode

end NaoSoccer
