import NaoSoccer.Foundation.SententialForms
import NaoSoccer.Schema.ParserCompleteness

/-!
# The sets of the parser and those of the grammar

The first set of a nonterminal should have the terminals with which its words begin, and the empty
string if it derives the empty word.  Its follow set should have the terminals that stand directly
behind it in a sentential form.

The sets that `Parser.build` computes pass over a nonterminal only for a rule of its own for the
empty string, so they are right exactly for grammars in which no nonterminal derives the empty word
in any other way.
-/

namespace NaoSoccer

open Grammar

variable {σ : Type*} [DecidableEq σ] {g : Grammar σ}

namespace Parser

/-- **The sets are right**: they have the terminals, and the empty string, that the derivations of
the grammar give. -/
structure SetsCorrect (p : Parser σ) : Prop where
  /-- A terminal is in a first set if a word of the nonterminal begins with it. -/
  first_iff : ∀ X ∈ p.grammar.nonterminals, ∀ t ∈ p.grammar.terminals,
    t ∈ setOf p.firstSets X ↔ ∃ w, p.grammar.Derives [X] (t :: w)
  /-- The empty string is in a first set if the nonterminal derives the empty word. -/
  empty_iff : ∀ X ∈ p.grammar.nonterminals,
    p.grammar.emptyString ∈ setOf p.firstSets X ↔ p.grammar.Derives [X] []
  /-- A terminal is in a follow set if it stands directly behind the nonterminal in a form. -/
  follow_iff : ∀ X ∈ p.grammar.nonterminals, ∀ t ∈ p.grammar.terminals,
    t ∈ setOf p.followSets X ↔ ∃ α β, p.grammar.DerivesForm [p.grammar.start] (α ++ X :: t :: β)

/-- A first set has the terminals with which its nonterminal begins. -/
lemma mem_first_iff {X t : σ} (hX : X ∈ g.nonterminals) (ht : t ∈ g.terminals) :
    (X, t) ∈ buildFirstSets g ↔ g.Begins g.HasEmptyRule [X] t := by
  have hne : g.emptyString ∉ [X] := fun hmem =>
    ne_emptyString_of_nonterminal hX (List.mem_singleton.mp hmem).symm
  have hnil : t ∉ lookupFirstSet g (buildFirstSets g) [] := Finset.notMem_empty t
  rw [← mem_lookupFirstSet_iff hne,
    mem_lookupFirstSet_nonterminal hX (ne_emptyString_of_terminal ht)]
  tauto

omit [DecidableEq σ] in
/-- If only symbols with a rule for it derive the empty word, these are all that may be passed
over. -/
lemma nullable_eq_hasEmptyRule
    (hrules : ∀ A ∈ g.nonterminals, g.Derives [A] [] → (A, [g.emptyString]) ∈ g.rules) :
    g.Nullable = g.HasEmptyRule := by
  funext X
  refine propext ⟨fun h => ?_, HasEmptyRule.nullable⟩
  rcases nullable_iff.mp h with hempty | ⟨r, hrule, -⟩
  · exact Or.inl hempty
  · exact Or.inr (hrules X (g.rule_mem _ hrule) (derives_nil_iff.mpr h))

/-- **The first and follow sets are right exactly if the empty word is derived by empty rules
only**: in a grammar whose nonterminals all derive words and stand in sentential forms, the sets
that `build` computes are the right ones if and only if every nonterminal that derives the empty
word has the empty string as a rule of its own. -/
theorem setsCorrect_build_iff (g : Grammar σ) (hreachable : ∀ A ∈ g.nonterminals, g.Reachable A)
    (hproductive : ∀ A ∈ g.nonterminals, g.Productive A) :
    (build g).SetsCorrect ↔
      ∀ A ∈ g.nonterminals, g.Derives [A] [] → (A, [g.emptyString]) ∈ g.rules := by
  constructor
  · intro h A hA hderives
    exact emptyString_mem_first_iff.mp (mem_setOf.mp ((h.empty_iff A hA).mpr hderives))
  · intro hrules
    have hnullable := nullable_eq_hasEmptyRule hrules
    constructor
    · intro X hX t ht
      have hbegins : g.Begins g.HasEmptyRule [X] t ↔ ∃ w, g.Derives [X] (t :: w) := by
        rw [← hnullable]
        constructor
        · exact fun h => h.derives hproductive
            (List.forall_mem_singleton.mpr (Or.inr (Or.inr hX)))
        · rintro ⟨w, hw⟩
          exact hw.begins rfl
      exact mem_setOf.trans ((mem_first_iff hX ht).trans hbegins)
    · intro X hX
      have hempty : (X, [g.emptyString]) ∈ g.rules ↔ g.Derives [X] [] := by
        refine ⟨fun hrule => ?_, hrules X hX⟩
        exact derives_nil_iff.mpr (HasEmptyRule.nullable (Or.inr hrule))
      exact mem_setOf.trans (emptyString_mem_first_iff.trans hempty)
    · intro X hX t ht
      have hne : X ≠ g.emptyString := ne_emptyString_of_nonterminal hX
      have hfollows := follows_iff hreachable hne ht
      rw [hnullable] at hfollows
      exact mem_setOf.trans ((mem_follow_iff hne).trans hfollows)

/-! ## A grammar with right sets, and one without -/

/-- The grammar `chainGrammar` with a rule for the empty string in the place of the chain. -/
def directGrammar : Grammar String where
  emptyString := "EMPTY_STRING"
  start := "START"
  terminals := ["b", "c"]
  nonterminals := ["START", "A"]
  rules := [("START", ["A", "b"]), ("A", ["c"]), ("A", ["EMPTY_STRING"])]
  emptyString_notMem_terminals := chainGrammar.emptyString_notMem_terminals
  emptyString_notMem_nonterminals := by decide
  notMem_nonterminals := by decide
  start_mem := by decide
  rule_mem := by decide
  rule_symbols := by decide

/-- The sets of the grammar are right. -/
theorem setsCorrect_directGrammar : (build directGrammar).SetsCorrect := by
  have hA : directGrammar.Derives ["A"] [] := Derives.expand (r := ["EMPTY_STRING"]) (u := [])
    (by decide) (Derives.empty Derives.nil) Derives.nil
  have hAb : directGrammar.Derives ["A", "b"] ["b"] := by
    refine Derives.expand (r := ["EMPTY_STRING"]) (u := []) (by decide)
      (Derives.empty Derives.nil) ?_
    exact Derives.terminal (by decide) Derives.nil
  refine (setsCorrect_build_iff directGrammar ?_ ?_).mpr ?_
  · intro A hmem
    have hcases : A = "START" ∨ A = "A" := by simpa [directGrammar] using hmem
    rcases hcases with rfl | rfl
    · exact ⟨[], [], Relation.ReflTransGen.refl⟩
    · exact ⟨[], ["b"], Relation.ReflTransGen.single
        (Rewrites.rule (r := ["A", "b"]) (α := []) (β := []) (by decide) (by decide))⟩
  · intro A hmem
    have hcases : A = "START" ∨ A = "A" := by simpa [directGrammar] using hmem
    rcases hcases with rfl | rfl
    · exact ⟨_, Derives.expand (r := ["A", "b"]) (by decide) hAb Derives.nil⟩
    · exact ⟨_, hA⟩
  · intro A hmem hderives
    have hcases : A = "START" ∨ A = "A" := by simpa [directGrammar] using hmem
    rcases hcases with rfl | rfl
    · rcases nullable_iff.mp (derives_nil_iff.mp hderives) with heq | ⟨r, hrule, hr⟩
      · exact absurd heq (by decide)
      · obtain rfl : r = ["A", "b"] := by simpa [directGrammar] using hrule
        exact absurd (hr "b" (by simp)) (not_nullable_of_terminal (by decide))
    · decide

/-- **A chain of nonterminals that derive the empty word**: all nonterminals of `chainGrammar` stand
in forms and derive words, and its sets are not right. -/
theorem not_setsCorrect_chainGrammar :
    (∀ A ∈ chainGrammar.nonterminals, chainGrammar.Reachable A) ∧
      (∀ A ∈ chainGrammar.nonterminals, chainGrammar.Productive A) ∧
      ¬ (build chainGrammar).SetsCorrect := by
  have hB : chainGrammar.Derives ["B"] [] := Derives.expand (r := ["EMPTY_STRING"]) (u := [])
    (by decide) (Derives.empty Derives.nil) Derives.nil
  have hA : chainGrammar.Derives ["A"] [] :=
    Derives.expand (r := ["B"]) (u := []) (by decide) hB Derives.nil
  have hstart : chainGrammar.Rewrites ["START"] ["A", "b"] :=
    Rewrites.rule (r := ["A", "b"]) (α := []) (β := []) (by decide) (by decide)
  have hchain : chainGrammar.Rewrites ["A", "b"] ["B", "b"] :=
    Rewrites.rule (r := ["B"]) (α := []) (β := ["b"]) (by decide) (by decide)
  refine ⟨?_, ?_, fun h => ?_⟩
  · intro A hmem
    have hcases : A = "START" ∨ A = "A" ∨ A = "B" := by simpa [chainGrammar] using hmem
    rcases hcases with rfl | rfl | rfl
    · exact ⟨[], [], Relation.ReflTransGen.refl⟩
    · exact ⟨[], ["b"], Relation.ReflTransGen.single hstart⟩
    · exact ⟨[], ["b"], (Relation.ReflTransGen.single hstart).tail hchain⟩
  · intro A hmem
    have hcases : A = "START" ∨ A = "A" ∨ A = "B" := by simpa [chainGrammar] using hmem
    rcases hcases with rfl | rfl | rfl
    · exact ⟨_, chain_derives hB⟩
    · exact ⟨_, hA⟩
    · exact ⟨_, hB⟩
  · have hrule := emptyString_mem_first_iff.mp (mem_setOf.mp ((h.empty_iff "A" (by decide)).mpr hA))
    exact absurd hrule (by decide)

end Parser

end NaoSoccer
