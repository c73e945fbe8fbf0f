import NaoSoccer.Schema.Parser

/-!
# What the first and follow sets of the parser are

The sets computed by `Parser.build` are compared with the relations `Begins` and `Follows` of the
grammar.  They are the ones for the notion `HasEmptyRule`, not those of the textbook:
`lookupFirstSet` takes the empty string out of the set of a symbol that it passes over and never
puts it back, so that a list of symbols which can all be passed over does not count as one that
can be passed over, and a nonterminal does only if the empty string itself is one of its rules.

Each table is characterised in two steps.  Every update keeps a sound table sound, and a table
that a whole sweep leaves as it is has all that the updates would add.
-/

namespace NaoSoccer

open Saturation Grammar

variable {σ : Type*} [DecidableEq σ] {g : Grammar σ}

namespace Parser

/-! ## First sets -/

/-- An entry of the set of `X` is a pair with `X`. -/
@[simp] lemma mem_setOf {sets : Finset (σ × σ)} {X s : σ} : s ∈ setOf sets X ↔ (X, s) ∈ sets := by
  simp [setOf]

section LookupFirstSet

variable {firstSets : Finset (σ × σ)} {X s : σ} {ss : List σ}

/-- The first set of a list that begins with a terminal. -/
lemma lookupFirstSet_terminal (hX : X ∈ g.terminals) :
    lookupFirstSet g firstSets (X :: ss) = {X} := if_pos hX

/-- The first set of a list that begins with the empty string. -/
lemma lookupFirstSet_empty : lookupFirstSet g firstSets (g.emptyString :: ss) = {g.emptyString} := by
  rw [lookupFirstSet, if_neg g.emptyString_notMem_terminals,
    if_neg g.emptyString_notMem_nonterminals, if_pos rfl]

/-- The first set of a list that begins with a nonterminal. -/
lemma mem_lookupFirstSet_nonterminal (hX : X ∈ g.nonterminals) (hs : s ≠ g.emptyString) :
    s ∈ lookupFirstSet g firstSets (X :: ss) ↔
      (X, s) ∈ firstSets ∨
        (X, g.emptyString) ∈ firstSets ∧ s ∈ lookupFirstSet g firstSets ss := by
  rw [lookupFirstSet, if_neg (notMem_terminals hX), if_pos hX]
  by_cases hempty : (X, g.emptyString) ∈ firstSets
  · simp [hempty, hs]
  · simp [hempty]

/-- Symbols other than the empty string never have it in their first set. -/
lemma emptyString_notMem_lookupFirstSet (hss : g.emptyString ∉ ss) :
    g.emptyString ∉ lookupFirstSet g firstSets ss := by
  induction ss with
  | nil => exact Finset.notMem_empty _
  | cons X ss ih =>
    obtain ⟨hX, hss⟩ := List.ne_and_not_mem_of_not_mem_cons hss
    rw [lookupFirstSet]
    split
    · exact fun h => hX (Finset.mem_singleton.mp h)
    · split
      · split
        next hempty => exact hempty
        next =>
          intro h
          rcases Finset.mem_union.mp h with h | h
          · exact Finset.notMem_erase _ _ h
          · exact ih hss h
      · rw [if_neg fun h => hX h.symm]
        exact Finset.notMem_empty _

end LookupFirstSet

/-- Every entry of the table is justified by a rule: the empty string by a rule that is the empty
string, a terminal by a rule that begins with it. -/
def FirstSound (g : Grammar σ) (firstSets : Finset (σ × σ)) : Prop :=
  ∀ A s, (A, s) ∈ firstSets →
    s = g.emptyString ∧ (A, [g.emptyString]) ∈ g.rules ∨
      ∃ r, (A, r) ∈ g.rules ∧ g.Begins g.HasEmptyRule r s

namespace FirstSound

variable {firstSets : Finset (σ × σ)}

omit [DecidableEq σ] in
/-- In a sound table the empty string stands for a rule. -/
lemma hasEmptyRule (h : FirstSound g firstSets) {A : σ} (hA : (A, g.emptyString) ∈ firstSets) :
    (A, [g.emptyString]) ∈ g.rules := by
  rcases h A _ hA with ⟨-, hrule⟩ | ⟨r, -, hbegins⟩
  · exact hrule
  · exact absurd hbegins.mem_terminals g.emptyString_notMem_terminals

omit [DecidableEq σ] in
/-- In a sound table any other entry is a terminal with which a rule begins. -/
lemma begins (h : FirstSound g firstSets) {A s : σ} (hA : (A, s) ∈ firstSets)
    (hs : s ≠ g.emptyString) : ∃ r, (A, r) ∈ g.rules ∧ g.Begins g.HasEmptyRule r s := by
  rcases h A s hA with ⟨heq, -⟩ | hrule
  · exact absurd heq hs
  · exact hrule

/-- With a sound table, what is looked up for a list of symbols is what the list begins with. -/
lemma lookup (h : FirstSound g firstSets) {ss : List σ} {s : σ}
    (hs : s ∈ lookupFirstSet g firstSets ss) (hne : s ≠ g.emptyString) :
    g.Begins g.HasEmptyRule ss s := by
  induction ss with
  | nil => exact absurd hs (Finset.notMem_empty _)
  | cons X ss ih =>
    by_cases ht : X ∈ g.terminals
    · rw [lookupFirstSet_terminal ht, Finset.mem_singleton] at hs
      rw [hs]
      exact Begins.terminal ht
    by_cases hX : X ∈ g.nonterminals
    · rcases (mem_lookupFirstSet_nonterminal hX hne).mp hs with hfirst | ⟨hempty, hrest⟩
      · obtain ⟨r, hrule, hbegins⟩ := h.begins hfirst hne
        exact Begins.expand hrule hbegins
      · exact Begins.skip (Or.inr (h.hasEmptyRule hempty)) (ih hrest)
    · rw [lookupFirstSet, if_neg ht, if_neg hX] at hs
      split at hs
      · exact absurd (Finset.mem_singleton.mp hs) hne
      · exact absurd hs (Finset.notMem_empty _)

/-- Adding the first set of a rule keeps the table sound. -/
lemma addFirst (h : FirstSound g firstSets) {rule : σ × List σ} (hrule : rule ∈ g.rules) :
    FirstSound g (addFirst g rule firstSets) := by
  obtain ⟨A, r⟩ := rule
  intro B s hs
  rcases Finset.mem_union.mp hs with hold | hnew
  · exact h B s hold
  obtain ⟨s', hs', heq⟩ := Finset.mem_image.mp hnew
  obtain ⟨rfl, rfl⟩ := Prod.mk.inj heq
  by_cases hempty : s' = g.emptyString
  · subst hempty
    have hr : r = [g.emptyString] := by
      by_contra hr
      exact emptyString_notMem_lookupFirstSet (emptyString_notMem_rule hrule hr) hs'
    exact Or.inl ⟨rfl, hr ▸ hrule⟩
  · exact Or.inr ⟨r, hrule, h.lookup hs' hempty⟩

end FirstSound

/-- A sweep keeps the table sound. -/
lemma FirstSound.sweep {firstSets : Finset (σ × σ)} (h : FirstSound g firstSets) :
    FirstSound g (sweep (g.rules.map (Parser.addFirst g)) firstSets) := by
  refine sweep_induction (P := FirstSound g) ?_ h
  intro update hupdate s hs
  obtain ⟨rule, hrule, rfl⟩ := List.mem_map.mp hupdate
  exact hs.addFirst hrule

omit [DecidableEq σ] in
/-- The empty table is sound. -/
lemma firstSound_empty : FirstSound g ∅ := fun _ _ h => absurd h (Finset.notMem_empty _)

/-- **The first sets are sound.** -/
theorem firstSound_build (g : Grammar σ) : FirstSound g (buildFirstSets g) :=
  saturate_induction (fun _ h => h.sweep) firstSound_empty

/-- All pairs that a first-set table can hold. -/
def firstBound (g : Grammar σ) : Finset (σ × σ) :=
  g.nonterminals.toFinset ×ˢ insert g.emptyString g.terminals.toFinset

/-- A sound table holds only these pairs. -/
lemma FirstSound.subset {firstSets : Finset (σ × σ)} (h : FirstSound g firstSets) :
    firstSets ⊆ firstBound g := by
  rintro ⟨A, s⟩ hentry
  rw [firstBound, Finset.mem_product, List.mem_toFinset, Finset.mem_insert, List.mem_toFinset]
  rcases h A s hentry with ⟨rfl, hrule⟩ | ⟨r, hrule, hbegins⟩
  · exact ⟨g.rule_mem _ hrule, Or.inl rfl⟩
  · exact ⟨g.rule_mem _ hrule, Or.inr hbegins.mem_terminals⟩

/-- Updates of the first sets only add. -/
lemma le_firstUpdate : ∀ update ∈ g.rules.map (addFirst g), ∀ s, s ≤ update s := by
  intro update hupdate s
  obtain ⟨rule, -, rfl⟩ := List.mem_map.mp hupdate
  exact Finset.subset_union_left

/-- The loop of `buildFirstSets` ends: a further sweep changes nothing. -/
lemma sweep_buildFirstSets (g : Grammar σ) :
    sweep (g.rules.map (addFirst g)) (buildFirstSets g) = buildFirstSets g := by
  refine saturate_fixed (firstBound g) (fun _ h => FirstSound.subset h) (le_sweep le_firstUpdate)
    (fun _ h => FirstSound.sweep h) firstSound_empty ?_
  rw [firstBound, Finset.card_product, Finset.card_empty, Nat.add_zero]
  refine Nat.mul_le_mul (List.toFinset_card_le _) ((Finset.card_insert_le _ _).trans ?_)
  exact Nat.add_le_add_right (List.toFinset_card_le _) 1

/-- The first sets are closed: the set of a nonterminal has what its rules give. -/
lemma lookupFirstSet_rule_subset {A : σ} {r : List σ} (h : (A, r) ∈ g.rules) {s : σ}
    (hs : s ∈ lookupFirstSet g (buildFirstSets g) r) : (A, s) ∈ buildFirstSets g := by
  have hfix : addFirst g (A, r) (buildFirstSets g) = buildFirstSets g :=
    update_eq_of_sweep_eq le_firstUpdate (sweep_buildFirstSets g) (List.mem_map_of_mem h)
  rw [← hfix]
  exact Finset.mem_union_right _ (Finset.mem_image_of_mem _ hs)

/-- **The empty string in a first set**: it is there exactly for the nonterminals of which it is a
rule. -/
theorem emptyString_mem_first_iff {A : σ} :
    (A, g.emptyString) ∈ buildFirstSets g ↔ (A, [g.emptyString]) ∈ g.rules := by
  refine ⟨(firstSound_build g).hasEmptyRule, fun h => lookupFirstSet_rule_subset h ?_⟩
  rw [lookupFirstSet_empty]
  exact Finset.mem_singleton_self _

/-- **First sets**: for symbols other than the empty string, the terminals looked up are those with
which the symbols begin when only symbols with a rule for the empty string are passed over. -/
theorem mem_lookupFirstSet_iff {ss : List σ} (hss : g.emptyString ∉ ss) {t : σ} :
    t ∈ lookupFirstSet g (buildFirstSets g) ss ↔ g.Begins g.HasEmptyRule ss t := by
  constructor
  · intro ht
    refine (firstSound_build g).lookup ht fun heq => ?_
    exact emptyString_notMem_lookupFirstSet hss (heq ▸ ht)
  · intro h
    induction h with
    | terminal hmem =>
      rw [lookupFirstSet_terminal hmem]
      exact Finset.mem_singleton_self _
    | @expand A r ss t hrule hbegins ih =>
      have hr : r ≠ [g.emptyString] := fun heq => not_begins_empty (heq ▸ hbegins)
      have hne : t ≠ g.emptyString := ne_emptyString_of_terminal hbegins.mem_terminals
      refine (mem_lookupFirstSet_nonterminal (g.rule_mem _ hrule) hne).mpr (Or.inl ?_)
      exact lookupFirstSet_rule_subset hrule (ih (emptyString_notMem_rule hrule hr))
    | @skip X ss t hX hbegins ih =>
      obtain ⟨hne, hss⟩ := List.ne_and_not_mem_of_not_mem_cons hss
      have hrule : (X, [g.emptyString]) ∈ g.rules := hX.resolve_left fun heq => hne heq.symm
      refine (mem_lookupFirstSet_nonterminal (g.rule_mem _ hrule)
        (ne_emptyString_of_terminal hbegins.mem_terminals)).mpr (Or.inr ⟨?_, ih hss⟩)
      exact emptyString_mem_first_iff.mpr hrule

/-! ## Follow sets -/

/-- Every entry of the table is a terminal that follows the symbol. -/
def FollowSound (g : Grammar σ) (followSets : Finset (σ × σ)) : Prop :=
  ∀ X t, (X, t) ∈ followSets → X ≠ g.emptyString ∧ g.Follows g.HasEmptyRule X t

/-- An update of the follow sets adds to what it is given and keeps a sound table sound. -/
structure FollowUpdate (g : Grammar σ) (update : Finset (σ × σ) → Finset (σ × σ)) : Prop where
  /-- Nothing is taken out. -/
  le : ∀ followSets, followSets ⊆ update followSets
  /-- A sound table stays sound. -/
  sound : ∀ followSets, FollowSound g followSets → FollowSound g (update followSets)

/-- Copying a follow set only adds. -/
lemma subset_copyFollow (A X : σ) (followSets : Finset (σ × σ)) :
    followSets ⊆ copyFollow A X followSets := Finset.subset_union_left

/-- What follows the one symbol is copied to the other. -/
lemma mem_copyFollow {A X t : σ} {followSets : Finset (σ × σ)} (h : (A, t) ∈ followSets) :
    (X, t) ∈ copyFollow A X followSets :=
  Finset.mem_union_right _ (Finset.mem_image_of_mem _ (mem_setOf.mpr h))

/-- Copying keeps the table sound if what follows the one symbol follows the other. -/
lemma FollowSound.copyFollow {followSets : Finset (σ × σ)} (h : FollowSound g followSets)
    {A X : σ} (hX : X ≠ g.emptyString)
    (hcopy : ∀ t, g.Follows g.HasEmptyRule A t → g.Follows g.HasEmptyRule X t) :
    FollowSound g (copyFollow A X followSets) := by
  intro Y t ht
  rcases Finset.mem_union.mp ht with hold | hnew
  · exact h Y t hold
  obtain ⟨s, hs, heq⟩ := Finset.mem_image.mp hnew
  obtain ⟨rfl, rfl⟩ := Prod.mk.inj heq
  exact ⟨hX, hcopy s (h A s (mem_setOf.mp hs)).2⟩

section AddRight

variable {A : σ}

/-- Steps 2.1 and 2.2 only add. -/
lemma subset_addRight {firstSets : Finset (σ × σ)} (ss : List σ) (followSets : Finset (σ × σ)) :
    followSets ⊆ addRight g firstSets A ss followSets := by
  induction ss generalizing followSets with
  | nil => exact Finset.Subset.refl _
  | cons X ss ih =>
    rw [addRight]
    refine Finset.Subset.trans ?_ (ih _)
    split
    · exact Finset.subset_union_left.trans (subset_copyFollow _ _ _)
    · exact Finset.subset_union_left

/-- Steps 2.1 and 2.2 keep the table sound. -/
lemma FollowSound.addRight {α ss : List σ} (hrule : (A, α ++ ss) ∈ g.rules)
    (hss : g.emptyString ∉ ss) {followSets : Finset (σ × σ)} (h : FollowSound g followSets) :
    FollowSound g (addRight g (buildFirstSets g) A ss followSets) := by
  induction ss generalizing α followSets with
  | nil => exact h
  | cons X ss ih =>
    obtain ⟨hX, hss⟩ := List.ne_and_not_mem_of_not_mem_cons hss
    rw [Parser.addRight, if_neg (emptyString_notMem_lookupFirstSet hss)]
    have hrest : (A, (α ++ [X]) ++ ss) ∈ g.rules := by
      rw [List.append_assoc]
      exact hrule
    refine ih hrest hss ?_
    intro Y t ht
    rcases Finset.mem_union.mp ht with hold | hnew
    · exact h Y t hold
    obtain ⟨s, hs, heq⟩ := Finset.mem_image.mp hnew
    obtain ⟨rfl, rfl⟩ := Prod.mk.inj heq
    exact ⟨hX.symm, Follows.right hrule
      ((mem_lookupFirstSet_iff hss).mp (Finset.mem_filter.mp hs).1)⟩

/-- Step 2.1 adds the first set of the symbols to the right. -/
lemma mem_addRight {firstSets : Finset (σ × σ)} {α β : List σ} {X t : σ}
    (ht : t ∈ lookupFirstSet g firstSets β) (hmem : t ∈ g.terminals)
    (followSets : Finset (σ × σ)) :
    (X, t) ∈ addRight g firstSets A (α ++ X :: β) followSets := by
  induction α generalizing followSets with
  | nil =>
    rw [List.nil_append, addRight]
    refine subset_addRight _ _ ?_
    have hadd : (X, t) ∈ followSets ∪
        ((lookupFirstSet g firstSets β).filter (· ∈ g.terminals)).image fun s => (X, s) :=
      Finset.mem_union_right _ (Finset.mem_image_of_mem _ (Finset.mem_filter.mpr ⟨ht, hmem⟩))
    split
    · exact subset_copyFollow _ _ _ hadd
    · exact hadd
  | cons Y α ih => exact ih _

end AddRight

section Inherit

variable {A : σ}

/-- Step 2.3 only adds. -/
lemma subset_inherit {firstSets : Finset (σ × σ)} (ss : List σ) (followSets : Finset (σ × σ)) :
    followSets ⊆ inherit g firstSets A ss followSets := by
  induction ss generalizing followSets with
  | nil => exact Finset.Subset.refl _
  | cons X ss ih =>
    rw [inherit]
    split
    · exact ih followSets
    split
    · exact subset_copyFollow _ _ _
    · exact (subset_copyFollow _ _ _).trans (ih _)

/-- Step 2.3 keeps the table sound; `passed` are the symbols that it has come past. -/
lemma FollowSound.inherit {ss passed : List σ} (hrule : (A, ss.reverse ++ passed) ∈ g.rules)
    (hpassed : ∀ Y ∈ passed, g.HasEmptyRule Y) {followSets : Finset (σ × σ)}
    (h : FollowSound g followSets) :
    FollowSound g (inherit g (buildFirstSets g) A ss followSets) := by
  induction ss generalizing passed followSets with
  | nil => exact h
  | cons X ss ih =>
    have hrule : (A, ss.reverse ++ X :: passed) ∈ g.rules := by
      rw [List.reverse_cons, List.append_assoc] at hrule
      exact hrule
    have hcons (hX : g.HasEmptyRule X) : ∀ Y ∈ X :: passed, g.HasEmptyRule Y :=
      List.forall_mem_cons.mpr ⟨hX, hpassed⟩
    rw [Parser.inherit]
    split
    next hX => exact ih hrule (hcons (Or.inl hX)) h
    next hX =>
      have hcopy := h.copyFollow hX fun t ht => Follows.inherit hrule hpassed ht
      split
      · exact hcopy
      next hgo =>
        obtain ⟨-, hempty⟩ := not_or.mp hgo
        refine ih hrule (hcons (Or.inr ?_)) hcopy
        exact emptyString_mem_first_iff.mp (mem_setOf.mp (not_not.mp hempty))

/-- Step 2.3 reaches a symbol if all symbols to its right are passed over. -/
lemma mem_inherit {firstSets : Finset (σ × σ)} {α β : List σ} {X t : σ}
    (hβ : ∀ Y ∈ β, Y ∉ g.terminals ∧ (Y, g.emptyString) ∈ firstSets) (hX : X ≠ g.emptyString)
    {followSets : Finset (σ × σ)} (ht : (A, t) ∈ followSets) :
    (X, t) ∈ inherit g firstSets A (β ++ X :: α) followSets := by
  induction β generalizing followSets with
  | nil =>
    rw [List.nil_append, inherit, if_neg hX]
    split
    · exact mem_copyFollow ht
    · exact subset_inherit _ _ (mem_copyFollow ht)
  | cons Y β ih =>
    obtain ⟨⟨hterminal, hempty⟩, hβ⟩ := List.forall_mem_cons.mp hβ
    rw [List.cons_append, inherit]
    split
    · exact ih hβ ht
    rw [if_neg (not_or.mpr ⟨hterminal, not_not.mpr (mem_setOf.mpr hempty)⟩)]
    exact ih hβ (subset_copyFollow _ _ _ ht)

end Inherit

omit [DecidableEq σ] in
/-- A list with more than one element is no singleton. -/
lemma ne_singleton_of_length {r : List σ} {X : σ} (h : r.length > 1) : r ≠ [X] := by
  rintro rfl
  exact absurd h (lt_irrefl 1)

/-- All updates of a pass over the follow sets add and keep the table sound. -/
lemma followUpdate_of_mem {update : Finset (σ × σ) → Finset (σ × σ)}
    (h : update ∈ followUpdates g (buildFirstSets g)) : FollowUpdate g update := by
  rcases List.mem_append.mp h with h | h
  · obtain ⟨⟨A, r⟩, hrule, rfl⟩ := List.mem_map.mp h
    by_cases hlength : r.length > 1
    · constructor
      · intro s
        rw [addRule, if_pos hlength]
        exact subset_addRight _ _
      · intro s hs
        rw [addRule, if_pos hlength]
        exact FollowSound.addRight (α := []) hrule
          (emptyString_notMem_rule hrule (ne_singleton_of_length hlength)) hs
    · constructor
      · intro s
        rw [addRule, if_neg hlength]
      · intro s hs
        rwa [addRule, if_neg hlength]
  · obtain ⟨⟨A, r⟩, hrule, rfl⟩ := List.mem_map.mp h
    refine ⟨fun s => subset_inherit _ _, fun s hs => ?_⟩
    have hrule : (A, r.reverse.reverse ++ []) ∈ g.rules := by
      rw [List.reverse_reverse, List.append_nil]
      exact hrule
    exact FollowSound.inherit hrule (fun Y hY => absurd hY List.not_mem_nil) hs

/-- A pass keeps the table sound. -/
lemma FollowSound.sweep {followSets : Finset (σ × σ)} (h : FollowSound g followSets) :
    FollowSound g (sweep (followUpdates g (buildFirstSets g)) followSets) :=
  sweep_induction (fun _ hupdate => (followUpdate_of_mem hupdate).sound) h

omit [DecidableEq σ] in
/-- The empty table is sound. -/
lemma followSound_empty : FollowSound g ∅ := fun _ _ h => absurd h (Finset.notMem_empty _)

/-- **The follow sets are sound.** -/
theorem followSound_build (g : Grammar σ) :
    FollowSound g (buildFollowSets g (buildFirstSets g)) :=
  saturate_induction (fun _ h => h.sweep) followSound_empty

/-- All pairs that a follow-set table can hold. -/
def followBound (g : Grammar σ) : Finset (σ × σ) :=
  (g.terminals ++ g.nonterminals).toFinset ×ˢ g.terminals.toFinset

/-- A sound table holds only these pairs. -/
lemma FollowSound.subset {followSets : Finset (σ × σ)} (h : FollowSound g followSets) :
    followSets ⊆ followBound g := by
  rintro ⟨X, t⟩ hentry
  obtain ⟨hX, hfollows⟩ := h X t hentry
  rw [followBound, Finset.mem_product, List.mem_toFinset, List.mem_append, List.mem_toFinset]
  exact ⟨hfollows.symbol_mem hX, hfollows.mem_terminals⟩

/-- The loop of `buildFollowSets` ends: a further pass changes nothing. -/
lemma sweep_buildFollowSets (g : Grammar σ) :
    sweep (followUpdates g (buildFirstSets g)) (buildFollowSets g (buildFirstSets g)) =
      buildFollowSets g (buildFirstSets g) := by
  refine saturate_fixed (followBound g) (fun _ h => FollowSound.subset h)
    (le_sweep fun _ hupdate => (followUpdate_of_mem hupdate).le) (fun _ h => FollowSound.sweep h)
    followSound_empty ?_
  rw [followBound, Finset.card_product, Finset.card_empty, Nat.add_zero, ← List.length_append]
  exact Nat.mul_le_mul (List.toFinset_card_le _) (List.toFinset_card_le _)

/-- No update changes the finished follow sets. -/
lemma update_buildFollowSets {update : Finset (σ × σ) → Finset (σ × σ)}
    (h : update ∈ followUpdates g (buildFirstSets g)) :
    update (buildFollowSets g (buildFirstSets g)) = buildFollowSets g (buildFirstSets g) :=
  update_eq_of_sweep_eq (fun _ hupdate => (followUpdate_of_mem hupdate).le)
    (sweep_buildFollowSets g) h

/-- **Follow sets**: the terminals in the set of a symbol are those that follow it when only symbols
with a rule for the empty string are passed over. -/
theorem mem_follow_iff {X t : σ} (hX : X ≠ g.emptyString) :
    (X, t) ∈ buildFollowSets g (buildFirstSets g) ↔ g.Follows g.HasEmptyRule X t := by
  refine ⟨fun h => (followSound_build g X t h).2, fun h => ?_⟩
  induction h with
  | @right A α X β t hrule hbegins =>
    have hlength : (α ++ X :: β).length > 1 := by
      cases β with
      | nil => cases hbegins
      | cons Y β =>
        rw [List.length_append, List.length_cons, List.length_cons]
        omega
    have hβ : g.emptyString ∉ β := fun hmem =>
      emptyString_notMem_rule hrule (ne_singleton_of_length hlength) (by simp [hmem])
    have hupdate : addRule g (buildFirstSets g) (A, α ++ X :: β) ∈
        followUpdates g (buildFirstSets g) :=
      List.mem_append_left _ (List.mem_map_of_mem hrule)
    rw [← update_buildFollowSets hupdate, addRule, if_pos hlength]
    exact mem_addRight ((mem_lookupFirstSet_iff hβ).mpr hbegins) hbegins.mem_terminals _
  | @inherit A α X β t hrule hβ _ ih =>
    have hne : α ++ X :: β ≠ [g.emptyString] := by
      intro heq
      have hmem : X ∈ [g.emptyString] := heq ▸ List.mem_append_right α List.mem_cons_self
      exact hX (List.mem_singleton.mp hmem)
    have hrest : ∀ Y ∈ β.reverse,
        Y ∉ g.terminals ∧ (Y, g.emptyString) ∈ buildFirstSets g := by
      intro Y hY
      have hY : Y ∈ β := List.mem_reverse.mp hY
      have hYne : Y ≠ g.emptyString := by
        rintro rfl
        exact emptyString_notMem_rule hrule hne (by simp [hY])
      have hempty := (hβ Y hY).resolve_left hYne
      exact ⟨notMem_terminals (g.rule_mem _ hempty), emptyString_mem_first_iff.mpr hempty⟩
    have hA := ih (ne_emptyString_of_nonterminal (g.rule_mem _ hrule))
    have hupdate : inherit g (buildFirstSets g) A (α ++ X :: β).reverse ∈
        followUpdates g (buildFirstSets g) :=
      List.mem_append_right _
        (List.mem_map_of_mem (f := fun rule : σ × List σ =>
          inherit g (buildFirstSets g) rule.1 rule.2.reverse) hrule)
    rw [← update_buildFollowSets hupdate, List.reverse_append, List.reverse_cons,
      List.append_assoc, List.singleton_append]
    exact mem_inherit hrest hX hA

end Parser

end NaoSoccer
