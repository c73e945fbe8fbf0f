import NaoSoccer.Foundation.Grammar
import Mathlib.Logic.Relation

/-!
# Sentential forms

A sentential form is what is left of the start symbol after some nonterminals have been replaced by
their rules, in any order and at any place.  The empty string leaves nothing behind, so it stands in
no form.

The sets of a predictive parser are defined by derivations: with which terminals the words of a
symbol begin, and which terminals stand directly behind a symbol in a form.  The relations `Begins`
and `Follows` for the symbols that derive the empty word say the same, if every nonterminal derives
a word and stands in a form.
-/

namespace Grammar

variable {σ : Type*} (g : Grammar σ)

/-- One nonterminal of a form is replaced by one of its rules. -/
inductive Rewrites : List σ → List σ → Prop
  /-- It is replaced by the symbols of the rule. -/
  | rule {A r α β} : (A, r) ∈ g.rules → r ≠ [g.emptyString] →
      Rewrites (α ++ A :: β) (α ++ (r ++ β))
  /-- It is replaced by the empty string. -/
  | erase {A α β} : (A, [g.emptyString]) ∈ g.rules → Rewrites (α ++ A :: β) (α ++ β)

/-- The second form comes from the first one by replacing nonterminals. -/
def DerivesForm : List σ → List σ → Prop := Relation.ReflTransGen g.Rewrites

/-- The symbol stands in some sentential form. -/
def Reachable (A : σ) : Prop := ∃ α β, g.DerivesForm [g.start] (α ++ A :: β)

/-- The symbol derives some word. -/
def Productive (A : σ) : Prop := ∃ w, g.Derives [A] w

variable {g}

/-! ## Forms in a context -/

/-- What is rewritten can stand behind other symbols. -/
lemma Rewrites.append_left {ss ss' : List σ} (h : g.Rewrites ss ss') (pre : List σ) :
    g.Rewrites (pre ++ ss) (pre ++ ss') := by
  cases h with
  | rule hrule hne =>
    rw [← List.append_assoc, ← List.append_assoc]
    exact Rewrites.rule hrule hne
  | erase hrule =>
    rw [← List.append_assoc, ← List.append_assoc]
    exact Rewrites.erase hrule

/-- What is rewritten can stand in front of other symbols. -/
lemma Rewrites.append_right {ss ss' : List σ} (h : g.Rewrites ss ss') (post : List σ) :
    g.Rewrites (ss ++ post) (ss' ++ post) := by
  cases h with
  | rule hrule hne =>
    rw [List.append_assoc, List.cons_append, List.append_assoc, List.append_assoc]
    exact Rewrites.rule hrule hne
  | erase hrule =>
    rw [List.append_assoc, List.cons_append, List.append_assoc]
    exact Rewrites.erase hrule

/-- What is derived is derived between any other symbols. -/
lemma DerivesForm.context {ss ss' : List σ} (h : g.DerivesForm ss ss') (pre post : List σ) :
    g.DerivesForm (pre ++ (ss ++ post)) (pre ++ (ss' ++ post)) := by
  induction h with
  | refl => exact Relation.ReflTransGen.refl
  | tail _ hstep ih => exact ih.tail ((hstep.append_right post).append_left pre)

/-- The first symbol derives one form and the others another. -/
lemma DerivesForm.cons {X : σ} {ss ss₁ ss₂ : List σ} (hX : g.DerivesForm [X] ss₁)
    (hss : g.DerivesForm ss ss₂) : g.DerivesForm (X :: ss) (ss₁ ++ ss₂) := by
  have hfirst := hX.context [] ss
  have hrest := hss.context ss₁ []
  rw [List.append_nil, List.append_nil] at hrest
  exact hfirst.trans hrest

/-- A nonterminal derives what its rule derives. -/
lemma DerivesForm.expand {A : σ} {r ss : List σ} (hrule : (A, r) ∈ g.rules)
    (hne : r ≠ [g.emptyString]) (h : g.DerivesForm r ss) : g.DerivesForm [A] ss := by
  have hstep : g.Rewrites ([] ++ A :: []) ([] ++ (r ++ [])) := Rewrites.rule hrule hne
  rw [List.append_nil] at hstep
  exact Relation.ReflTransGen.head hstep h

/-! ## Symbols that derive the empty word -/

/-- A symbol that derives the empty word can be erased. -/
lemma Nullable.derivesForm {X : σ} (h : g.Nullable X) (hne : X ≠ g.emptyString) :
    g.DerivesForm [X] [] := by
  induction h with
  | empty => exact absurd rfl hne
  | @rule A r hrule hr ih =>
    by_cases hempty : r = [g.emptyString]
    · subst hempty
      exact Relation.ReflTransGen.single (Rewrites.erase (α := []) (β := []) hrule)
    · refine DerivesForm.expand hrule hempty ?_
      have hsymbols : ∀ Y ∈ r, g.DerivesForm [Y] [] := fun Y hY =>
        ih Y hY fun heq => emptyString_notMem_rule hrule hempty (heq ▸ hY)
      clear hrule hr ih hempty
      induction r with
      | nil => exact Relation.ReflTransGen.refl
      | cons Y r ihr =>
        exact DerivesForm.cons (hsymbols Y List.mem_cons_self)
          (ihr fun Z hZ => hsymbols Z (List.mem_cons_of_mem _ hZ))

/-- Symbols that all derive the empty word can be erased. -/
lemma derivesForm_nil {ss : List σ} (h : ∀ X ∈ ss, g.Nullable X) (hne : g.emptyString ∉ ss) :
    g.DerivesForm ss [] := by
  induction ss with
  | nil => exact Relation.ReflTransGen.refl
  | cons X ss ih =>
    obtain ⟨hX, hss⟩ := List.ne_and_not_mem_of_not_mem_cons hne
    exact DerivesForm.cons ((h X List.mem_cons_self).derivesForm hX.symm)
      (ih (fun Y hY => h Y (List.mem_cons_of_mem _ hY)) hss)

/-- A symbol that derives the empty word can be put in front of any symbols. -/
lemma Nullable.derives_cons {X : σ} (h : g.Nullable X) {ss w : List σ} (hss : g.Derives ss w) :
    g.Derives (X :: ss) w := by
  induction h generalizing ss w with
  | empty => exact Derives.empty hss
  | @rule A r hrule hr ih =>
    refine Derives.expand (u := []) hrule ?_ hss
    clear hrule hr
    induction r with
    | nil => exact Derives.nil
    | cons Y r ihr =>
      exact ih Y List.mem_cons_self (ihr fun Z hZ => ih Z (List.mem_cons_of_mem _ hZ))

/-- What derives the empty word has only symbols that do. -/
lemma Derives.nullable {ss w : List σ} (h : g.Derives ss w) (hw : w = []) :
    ∀ X ∈ ss, g.Nullable X := by
  induction h with
  | nil => exact fun X hX => absurd hX List.not_mem_nil
  | empty _ ih => exact List.forall_mem_cons.mpr ⟨Nullable.empty, ih hw⟩
  | terminal => exact absurd hw (List.cons_ne_nil _ _)
  | expand hrule _ _ ihr ihss =>
    obtain ⟨hu, hw⟩ := List.append_eq_nil_iff.mp hw
    exact List.forall_mem_cons.mpr ⟨Nullable.rule hrule (ihr hu), ihss hw⟩

/-- A symbol derives the empty word by a derivation exactly if it is nullable. -/
lemma derives_nil_iff {X : σ} : g.Derives [X] [] ↔ g.Nullable X :=
  ⟨fun h => h.nullable rfl X List.mem_cons_self, fun h => h.derives_cons Derives.nil⟩

/-! ## How words begin -/

/-- A concatenation begins as its first part does, or as the second one if the first is passed
over. -/
lemma begins_append_iff {N : σ → Prop} {ss ss' : List σ} {t : σ} :
    g.Begins N (ss ++ ss') t ↔
      g.Begins N ss t ∨ (∀ X ∈ ss, N X) ∧ g.Begins N ss' t := by
  induction ss with
  | nil =>
    simp only [List.nil_append, List.not_mem_nil, IsEmpty.forall_iff, implies_true, true_and]
    exact ⟨Or.inr, fun h => h.resolve_left not_begins_nil⟩
  | cons X ss ih =>
    rw [List.cons_append, begins_cons_iff, begins_cons_iff, ih, List.forall_mem_cons, and_or_left,
      and_assoc, or_assoc, or_assoc]

/-- A derived word begins as its symbols do. -/
lemma Derives.begins {ss w : List σ} (h : g.Derives ss w) {t : σ} {v : List σ} (hw : w = t :: v) :
    g.Begins g.Nullable ss t := by
  induction h generalizing v with
  | nil => exact absurd hw.symm (List.cons_ne_nil _ _)
  | empty _ ih => exact Begins.skip Nullable.empty (ih hw)
  | terminal hmem _ _ =>
    obtain ⟨rfl, -⟩ := List.cons.inj hw
    exact Begins.terminal hmem
  | @expand A r u ss w hrule hr _ ihr ihss =>
    cases u with
    | nil => exact Begins.skip (Nullable.rule hrule (hr.nullable rfl)) (ihss hw)
    | cons s u =>
      obtain ⟨rfl, -⟩ := List.cons.inj hw
      exact Begins.expand hrule (ihr rfl)

/-- Symbols of a grammar whose nonterminals derive words derive a word themselves. -/
lemma exists_derives (hproductive : ∀ A ∈ g.nonterminals, g.Productive A) {ss : List σ}
    (hss : ∀ X ∈ ss, X = g.emptyString ∨ X ∈ g.terminals ∨ X ∈ g.nonterminals) :
    ∃ w, g.Derives ss w := by
  induction ss with
  | nil => exact ⟨[], Derives.nil⟩
  | cons X ss ih =>
    obtain ⟨hX, hss⟩ := List.forall_mem_cons.mp hss
    obtain ⟨w, hw⟩ := ih hss
    rcases hX with rfl | hX | hX
    · exact ⟨w, Derives.empty hw⟩
    · exact ⟨X :: w, Derives.terminal hX hw⟩
    · obtain ⟨u, hu⟩ := hproductive X hX
      cases hu with
      | empty => exact ⟨w, Derives.empty hw⟩
      | terminal ht _ => exact ⟨X :: w, Derives.terminal ht hw⟩
      | expand hrule hr _ => exact ⟨_, Derives.expand hrule hr hw⟩

/-- The symbols of a rule are of the three kinds. -/
lemma symbol_kind_of_mem_rule {A : σ} {r : List σ} (hrule : (A, r) ∈ g.rules) :
    ∀ X ∈ r, X = g.emptyString ∨ X ∈ g.terminals ∨ X ∈ g.nonterminals := by
  intro X hX
  by_cases hempty : X = g.emptyString
  · exact Or.inl hempty
  · exact Or.inr (symbol_mem_of_mem_rule hrule hX hempty)

/-- **How words begin**: if all nonterminals derive words, symbols that begin with a terminal derive
a word that does. -/
theorem Begins.derives (hproductive : ∀ A ∈ g.nonterminals, g.Productive A) {ss : List σ} {t : σ}
    (h : g.Begins g.Nullable ss t)
    (hss : ∀ X ∈ ss, X = g.emptyString ∨ X ∈ g.terminals ∨ X ∈ g.nonterminals) :
    ∃ w, g.Derives ss (t :: w) := by
  induction h with
  | terminal hmem =>
    obtain ⟨w, hw⟩ := exists_derives hproductive (List.forall_mem_cons.mp hss).2
    exact ⟨w, Derives.terminal hmem hw⟩
  | expand hrule _ ih =>
    obtain ⟨u, hu⟩ := ih (symbol_kind_of_mem_rule hrule)
    obtain ⟨w, hw⟩ := exists_derives hproductive (List.forall_mem_cons.mp hss).2
    exact ⟨u ++ w, Derives.expand hrule hu hw⟩
  | skip hX _ ih =>
    obtain ⟨w, hw⟩ := ih (List.forall_mem_cons.mp hss).2
    exact ⟨w, hX.derives_cons hw⟩

/-- Symbols that begin with a terminal derive a form that does. -/
lemma Begins.derivesForm {ss : List σ} {t : σ} (h : g.Begins g.Nullable ss t)
    (hne : g.emptyString ∉ ss) : ∃ β, g.DerivesForm ss (t :: β) := by
  induction h with
  | @terminal t ss _ => exact ⟨ss, Relation.ReflTransGen.refl⟩
  | @expand A r ss t hrule hbegins ih =>
    have hr : r ≠ [g.emptyString] := fun heq => not_begins_empty (heq ▸ hbegins)
    obtain ⟨β, hβ⟩ := ih (emptyString_notMem_rule hrule hr)
    exact ⟨β ++ ss, (DerivesForm.expand hrule hr hβ).cons Relation.ReflTransGen.refl⟩
  | skip hX _ ih =>
    obtain ⟨hne, hss⟩ := List.ne_and_not_mem_of_not_mem_cons hne
    obtain ⟨β, hβ⟩ := ih hss
    exact ⟨β, (hX.derivesForm hne.symm).cons hβ⟩

/-! ## What stands behind a symbol -/

/-- All symbols of the form are followed by what the form has behind them. -/
def FollowedIn (g : Grammar σ) (form : List σ) : Prop :=
  ∀ γ X rest t, form = γ ++ X :: rest → g.Begins g.Nullable rest t → g.Follows g.Nullable X t

/-- A symbol of a concatenation stands in its first part or in its second one. -/
lemma append_eq_append_cons {ss ss' γ rest : List σ} {X : σ} (h : ss ++ ss' = γ ++ X :: rest) :
    (∃ c, ss = γ ++ X :: c ∧ rest = c ++ ss') ∨ ∃ a, γ = ss ++ a ∧ ss' = a ++ X :: rest := by
  rcases List.append_eq_append_iff.mp h with ⟨a, hγ, hss'⟩ | ⟨c, hss, hc⟩
  · exact Or.inr ⟨a, hγ, hss'⟩
  · rcases List.cons_eq_append_iff.mp hc with ⟨rfl, hrest⟩ | ⟨c, rfl, hrest⟩
    · rw [List.append_nil] at hss
      exact Or.inr ⟨[], by rw [List.append_nil, hss], hrest⟩
    · exact Or.inl ⟨c, hss, hrest⟩

/-- **The step lemma**: when a nonterminal of a form is replaced, what stands behind the symbols of
the new form still follows them. -/
lemma FollowedIn.replace {A : σ} {r α β : List σ} (hrule : (A, r) ∈ g.rules)
    (h : g.FollowedIn (α ++ A :: β)) : g.FollowedIn (α ++ (r ++ β)) := by
  intro γ X rest t hform hbegins
  -- the symbol stands in front of the rule, in it or behind it
  rcases append_eq_append_cons hform with ⟨c, rfl, rfl⟩ | ⟨a, rfl, hrest⟩
  · refine h γ X (c ++ A :: β) t (by rw [List.append_assoc, List.cons_append]) ?_
    rw [begins_append_iff, begins_append_iff] at hbegins
    rw [begins_append_iff, begins_cons_iff]
    rcases hbegins with hc | ⟨hc, hr | ⟨hr, hβ⟩⟩
    · exact Or.inl hc
    · exact Or.inr ⟨hc, Or.inr (Or.inl ⟨r, hrule, hr⟩)⟩
    · exact Or.inr ⟨hc, Or.inr (Or.inr ⟨Nullable.rule hrule hr, hβ⟩)⟩
  · rcases append_eq_append_cons hrest with ⟨d, rfl, rfl⟩ | ⟨b, rfl, rfl⟩
    · rcases begins_append_iff.mp hbegins with hd | ⟨hd, hβ⟩
      · exact Follows.right hrule hd
      · exact Follows.inherit hrule hd (h α A β t rfl hβ)
    · refine h (α ++ A :: b) X rest t ?_ hbegins
      rw [List.append_assoc, List.cons_append]

/-- In every form of the start symbol, what stands behind a symbol follows it. -/
lemma followedIn_of_derivesForm {form : List σ} (h : g.DerivesForm [g.start] form) :
    g.FollowedIn form := by
  induction h with
  | refl =>
    intro γ X rest t hform hbegins
    rcases List.cons_eq_append_iff.mp hform with ⟨rfl, hrest⟩ | ⟨γ, rfl, hrest⟩
    · obtain ⟨-, rfl⟩ := List.cons.inj hrest
      exact absurd hbegins not_begins_nil
    · exact absurd hrest (by simp)
  | tail _ hstep ih =>
    cases hstep with
    | rule hrule _ => exact ih.replace hrule
    | @erase A α β hrule =>
      -- the symbol for the empty string begins with nothing, so it may as well stand there
      intro γ X rest t hform hbegins
      have hempty := ih.replace hrule
      rcases append_eq_append_cons hform with ⟨c, rfl, rfl⟩ | ⟨a, rfl, rfl⟩
      · refine hempty γ X (c ++ ([g.emptyString] ++ β)) t
          (by rw [List.append_assoc, List.cons_append]) ?_
        rw [begins_append_iff] at hbegins ⊢
        exact hbegins.imp_right fun hβ => ⟨hβ.1, Begins.skip Nullable.empty hβ.2⟩
      · exact hempty (α ++ ([g.emptyString] ++ a)) X rest t (by simp) hbegins

/-- A rule with a symbol besides the empty string is not the empty string, nor has it. -/
lemma rule_ne_empty {A X : σ} {r : List σ} (hrule : (A, r) ∈ g.rules) (hX : X ∈ r)
    (hne : X ≠ g.emptyString) : r ≠ [g.emptyString] ∧ g.emptyString ∉ r := by
  have hr : r ≠ [g.emptyString] := by
    rintro rfl
    exact hne (List.mem_singleton.mp hX)
  exact ⟨hr, emptyString_notMem_rule hrule hr⟩

/-- What follows a symbol stands behind it in some form. -/
lemma Follows.exists_form (hreachable : ∀ A ∈ g.nonterminals, g.Reachable A) {X t : σ}
    (h : g.Follows g.Nullable X t) (hX : X ≠ g.emptyString) :
    ∃ α β, g.DerivesForm [g.start] (α ++ X :: t :: β) := by
  induction h with
  | @right A α X β t hrule hbegins =>
    obtain ⟨hne, hmem⟩ := rule_ne_empty hrule (by simp) hX
    have hβ : g.emptyString ∉ β := fun hβ => hmem (by simp [hβ])
    obtain ⟨γ, δ, hform⟩ := hreachable A (g.rule_mem _ hrule)
    obtain ⟨β', hβ'⟩ := hbegins.derivesForm hβ
    refine ⟨γ ++ α, β' ++ δ, ?_⟩
    have hstep := hform.tail (Rewrites.rule hrule hne)
    have hrest := hβ'.context (γ ++ α ++ [X]) δ
    simp only [List.append_assoc, List.cons_append, List.nil_append] at hstep hrest ⊢
    exact hstep.trans hrest
  | @inherit A α X β t hrule hβ _ ih =>
    obtain ⟨hne, hmem⟩ := rule_ne_empty hrule (by simp) hX
    have hβne : g.emptyString ∉ β := fun hβ => hmem (by simp [hβ])
    obtain ⟨γ, δ, hform⟩ := ih (ne_emptyString_of_nonterminal (g.rule_mem _ hrule))
    refine ⟨γ ++ α, δ, ?_⟩
    have hstep := hform.tail (Rewrites.rule hrule hne)
    have hrest := (derivesForm_nil hβ hβne).context (γ ++ α ++ [X]) (t :: δ)
    simp only [List.append_assoc, List.cons_append, List.nil_append] at hstep hrest ⊢
    exact hstep.trans hrest

/-- **What stands behind a symbol**: if all nonterminals stand in forms, the terminals that follow a
symbol are those that stand directly behind it in a form. -/
theorem follows_iff (hreachable : ∀ A ∈ g.nonterminals, g.Reachable A) {X t : σ}
    (hX : X ≠ g.emptyString) (ht : t ∈ g.terminals) :
    g.Follows g.Nullable X t ↔ ∃ α β, g.DerivesForm [g.start] (α ++ X :: t :: β) :=
  ⟨fun h => h.exists_form hreachable hX, fun ⟨α, β, h⟩ =>
    followedIn_of_derivesForm h α X (t :: β) t rfl (Begins.terminal ht)⟩

end Grammar
