import NaoSoccer.Schema.TokenScan
import Mathlib.Data.List.Infix

/-!
# Identifiers in the schema tokenizer

A run of word characters should become one token of kind `SIMPLE_IDENTIFIER`.  The tokenizer of the
schema files does so in most places, with four exceptions: the name of a token kind is cut off
wherever it is completed, an access modifier is a token as soon as a character behind it is read, a
newline behind an identifier becomes a part of it, and once a character has been read that stands in
no other expression, everything up to the next separator is one `EXPRESSION`.

`covered_iff` says that these are all.
-/

namespace NaoSoccer

namespace SchemaTokenizer

open Tokenizer

/-! ## The table -/

/-- The access modifiers. -/
def modifiers : List Text := ["public".toList, "private".toList, "protected".toList]

/-- The characters that only an `EXPRESSION` has. -/
def isOperatorChar (c : Char) : Bool :=
  !isWordChar c && !isSpaceChar c && !separators.contains c && c != '=' && c != ';'

/-- **The entries of the table**: names of functions and modifiers, single characters, identifiers,
white space, and expressions. -/
lemma mem_expressions {t : String} {e : Pattern} (h : (t, e) ∈ expressions) :
    (∃ text, e = .literal text ∧ (text = t.toList ∨ text ∈ modifiers) ∧
      ∀ c ∈ text, isWordChar c = true) ∨
    (∃ text, e = .literal text ∧ ∀ c ∈ text, isWordChar c = false ∧ isOperatorChar c = false) ∨
    (t = "SIMPLE_IDENTIFIER" ∧ e = .plus isWordChar) ∨
    (t = "WHITESPACE" ∧ e = .plus isSpaceChar) ∨
    (t = "EXPRESSION" ∧ e = .plus fun c => !separators.contains c) := by
  rcases List.mem_append.mp h with hfunction | hother
  · obtain ⟨function, hmem, heq⟩ := List.mem_map.mp hfunction
    obtain ⟨rfl, rfl⟩ := Prod.mk.inj heq
    have hwords : ∀ f ∈ functions, f.toList.all isWordChar = true := by decide
    exact Or.inl ⟨_, rfl, Or.inl rfl, List.all_eq_true.mp (hwords function hmem)⟩
  · simp only [List.mem_cons, List.not_mem_nil, or_false, Prod.mk.injEq] at hother
    rcases hother with ⟨rfl, rfl⟩ | ⟨rfl, rfl⟩ | ⟨rfl, rfl⟩ | ⟨rfl, rfl⟩ | ⟨rfl, rfl⟩ | ⟨rfl, rfl⟩ |
      ⟨rfl, rfl⟩ | ⟨rfl, rfl⟩ | ⟨rfl, rfl⟩ | ⟨rfl, rfl⟩ | ⟨rfl, rfl⟩ | ⟨rfl, rfl⟩ | ⟨rfl, rfl⟩ |
      ⟨rfl, rfl⟩ | ⟨rfl, rfl⟩ | ⟨rfl, rfl⟩ | ⟨rfl, rfl⟩
    all_goals first
      | exact Or.inl ⟨_, rfl, Or.inr (by decide), List.all_eq_true.mp (by decide)⟩
      | exact Or.inr (Or.inl ⟨_, rfl, List.forall_mem_singleton.mpr (by decide)⟩)
      | exact Or.inr (Or.inr (Or.inl ⟨rfl, rfl⟩))
      | exact Or.inr (Or.inr (Or.inr (Or.inl ⟨rfl, rfl⟩)))
      | exact Or.inr (Or.inr (Or.inr (Or.inr ⟨rfl, rfl⟩)))

/-- The names of the kinds are words of two letters or more, and no expression matches the empty
text. -/
lemma entry_facts : ∀ entry ∈ expressions, 2 ≤ entry.1.toList.length ∧
    entry.1.toList.all isWordChar = true ∧ entry.2.reMatch [] = false := by
  decide

/-- The table is well named. -/
lemma wellNamed : WellNamed expressions where
  two_le t e h := (entry_facts (t, e) h).1
  word t e h := List.all_eq_true.mp (entry_facts (t, e) h).2.1
  not_reMatch_nil t e h := (entry_facts (t, e) h).2.2

/-! ## Matches -/

/-- A match that does not end in a newline is one of the whole text. -/
lemma fullmatch_of_reMatch {e : Pattern} {v : Text} {c : Char} (hc : c ≠ '\n')
    (h : e.reMatch (v ++ [c]) = true) : e.fullmatch (v ++ [c]) = true := by
  rw [Pattern.reMatch, List.getLast?_concat, Bool.or_eq_true_iff] at h
  rcases h with h | h
  · exact h
  · rw [Bool.and_eq_true, beq_iff_eq, Option.some_inj] at h
    exact absurd h.1 hc

/-- Words do not have a newline. -/
lemma ne_newline_of_word {c : Char} (hc : isWordChar c = true) : c ≠ '\n' := by
  rintro rfl
  exact absurd hc (by decide)

/-- The expression of the kind `EXPRESSION` matches the texts without separators. -/
lemma reMatch_expression {v : Text} (hv : v ≠ []) (h : ∀ c ∈ v, c ∉ separators) :
    (Pattern.plus fun c => !separators.contains c).reMatch v = true := by
  rw [Pattern.reMatch, Bool.or_eq_true_iff]
  refine Or.inl ?_
  rw [Pattern.fullmatch, Bool.and_eq_true, Bool.not_eq_true', List.isEmpty_eq_false_iff]
  refine ⟨hv, List.all_eq_true.mpr fun c hc => ?_⟩
  rw [Bool.not_eq_true', List.contains_eq_mem, decide_eq_false_iff_not]
  exact h c hc

/-- What the expression of the kind `EXPRESSION` matches has no separators: a newline is none. -/
lemma notMem_separators_of_reMatch {v : Text}
    (h : (Pattern.plus fun c => !separators.contains c).reMatch v = true) :
    v ≠ [] ∧ ∀ c ∈ v, c ∉ separators := by
  induction v using List.reverseRecOn with
  | nil => exact absurd h (by decide)
  | append_singleton v d _ =>
    have hplus {x : Text} (hx : (Pattern.plus fun c => !separators.contains c).fullmatch x = true) :
        ∀ c ∈ x, c ∉ separators := by
      rw [Pattern.fullmatch, Bool.and_eq_true, List.all_eq_true] at hx
      intro c hc
      simpa using hx.2 c hc
    refine ⟨List.append_ne_nil_of_right_ne_nil _ (List.cons_ne_nil _ _), ?_⟩
    rw [Pattern.reMatch, List.getLast?_concat, List.dropLast_concat, Bool.or_eq_true_iff] at h
    rcases h with h | h
    · exact hplus h
    · rw [Bool.and_eq_true, beq_iff_eq, Option.some_inj] at h
      refine List.forall_mem_append.mpr ⟨hplus h.2, fun c hc => ?_⟩
      rw [List.mem_singleton.mp hc, h.1]
      decide

/-- **Only expressions have operators.** -/
lemma expression_of_reMatch {t : String} {e : Pattern} {v : Text} {o : Char}
    (ht : (t, e) ∈ expressions) (hmatch : e.reMatch v = true) (ho : o ∈ v)
    (hoperator : isOperatorChar o = true) :
    t = "EXPRESSION" ∧ e = .plus fun c => !separators.contains c := by
  have hnewline : o ≠ '\n' := by
    rintro rfl
    exact absurd hoperator (by decide)
  -- the whole text, or all of it but a newline, is matched, and the operator stands there
  obtain ⟨x, hx, hox⟩ : ∃ x, e.fullmatch x = true ∧ o ∈ x := by
    rw [Pattern.reMatch, Bool.or_eq_true_iff] at hmatch
    rcases hmatch with hmatch | hmatch
    · exact ⟨v, hmatch, ho⟩
    · rw [Bool.and_eq_true, beq_iff_eq] at hmatch
      obtain ⟨w, rfl⟩ := List.getLast?_eq_some_iff.mp hmatch.1
      rw [List.dropLast_concat] at hmatch
      rcases List.mem_append.mp ho with hw | hlast
      · exact ⟨w, hmatch.2, hw⟩
      · exact absurd (List.mem_singleton.mp hlast) hnewline
  have hnot : isWordChar o = false ∧ isSpaceChar o = false := by
    simp only [isOperatorChar, Bool.and_eq_true, Bool.not_eq_true'] at hoperator
    exact ⟨hoperator.1.1.1.1, hoperator.1.1.1.2⟩
  have hall {cls : Char → Bool} (h : (Pattern.plus cls).fullmatch x = true) : cls o = true := by
    rw [Pattern.fullmatch, Bool.and_eq_true, List.all_eq_true] at h
    exact h.2 o hox
  rcases mem_expressions ht with ⟨text, rfl, -, hwords⟩ | ⟨text, rfl, hothers⟩ | ⟨-, rfl⟩ |
    ⟨-, rfl⟩ | hexpression
  · rw [← beq_iff_eq.mp hx] at hwords
    exact absurd (hwords o hox) (by rw [hnot.1]; decide)
  · rw [← beq_iff_eq.mp hx] at hothers
    exact absurd hoperator (by rw [(hothers o hox).2]; decide)
  · exact absurd (hall hx) (by rw [hnot.1]; decide)
  · exact absurd (hall hx) (by rw [hnot.2]; decide)
  · exact hexpression

/-- Every character is matched, and by another expression than `EXPRESSION` if it is none of an
operator. -/
lemma exists_reMatch_singleton (c : Char) : ∃ t e, (t, e) ∈ expressions ∧ e.reMatch [c] = true ∧
    (t = "EXPRESSION" → isOperatorChar c = true) := by
  have hplus (cls : Char → Bool) (h : cls c = true) : (Pattern.plus cls).reMatch [c] = true := by
    simp [Pattern.reMatch, Pattern.fullmatch, h]
  by_cases hword : isWordChar c = true
  · exact ⟨"SIMPLE_IDENTIFIER", _, by simp [expressions], hplus _ hword,
      fun h => absurd h (by decide)⟩
  · by_cases hspace : isSpaceChar c = true
    · exact ⟨"WHITESPACE", _, by simp [expressions], hplus _ hspace, fun h => absurd h (by decide)⟩
    · by_cases hfixed : c ∈ '=' :: ';' :: separators
      · have hall : ('=' :: ';' :: separators).all (fun c => expressions.any fun entry =>
            entry.2.reMatch [c] && entry.1 != "EXPRESSION") = true := by decide
        obtain ⟨entry, hmem, hentry⟩ := List.any_eq_true.mp (List.all_eq_true.mp hall c hfixed)
        rw [Bool.and_eq_true, bne_iff_ne] at hentry
        exact ⟨entry.1, entry.2, hmem, hentry.1, fun h => absurd h hentry.2⟩
      · simp only [List.mem_cons, not_or] at hfixed
        refine ⟨"EXPRESSION", _, by simp [expressions],
          hplus (fun c => !separators.contains c) ?_, fun _ => ?_⟩
        · simpa using hfixed.2.2
        · simp [isOperatorChar, hword, hspace, hfixed]

/-! ## The open text -/

/-- The text that is open behind a beginning. -/
def openText (pre : Text) : Text := (run expressions [] pre).2

/-- The text begins with an operator, so only expressions match it. -/
def BeginsExpression (v : Text) : Prop := ∃ o r, v = o :: r ∧ isOperatorChar o = true

/-- No name of a kind stands in the open text. -/
lemma nameFree_openText (pre : Text) : NameFree expressions (openText pre) :=
  wellNamed.nameFree_run pre

/-- One more character. -/
lemma openText_concat (pre : Text) (c : Char) :
    openText (pre ++ [c]) = (step expressions (openText pre) c).cvalue := by
  rw [openText, run_concat]
  rfl

/-- The open text is the end of what has been read. -/
lemma openText_suffix (pre : Text) : openText pre <:+ pre :=
  ⟨values (run expressions [] pre).1, values_run expressions [] pre⟩

/-- **The open text** is matched by an expression, and by one of another kind than `EXPRESSION` if it
does not begin with an operator. -/
lemma openText_cases (pre : Text) : openText pre = [] ∨ ∃ t e, (t, e) ∈ expressions ∧
    e.reMatch (openText pre) = true ∧ (t = "EXPRESSION" → BeginsExpression (openText pre)) := by
  induction pre using List.reverseRecOn with
  | nil => exact Or.inl rfl
  | append_singleton pre c ih =>
    have hsingle : ∃ t e, (t, e) ∈ expressions ∧ e.reMatch [c] = true ∧
        (t = "EXPRESSION" → BeginsExpression [c]) := by
      obtain ⟨t, e, ht, hmatch, hoperator⟩ := exists_reMatch_singleton c
      exact ⟨t, e, ht, hmatch, fun h => ⟨c, [], rfl, hoperator h⟩⟩
    rw [openText_concat]
    rcases step_cases (nameFree_openText pre) c with
      ⟨t, e, -, -, -, hstep⟩ | ⟨t, e, exp, -, -, hstep⟩ | ⟨hstep, -, hkeep⟩
    · rw [hstep]
      exact Or.inr hsingle
    · rw [hstep]
      exact Or.inl rfl
    · rw [hstep]
      refine Or.inr ?_
      rcases ih with hnil | ⟨t, e, ht, hmatch, hexpression⟩
      · rw [hnil]
        exact hsingle
      · refine ⟨t, e, ht, hkeep t e ht hmatch, fun h => ?_⟩
        obtain ⟨o, r, hopen, ho⟩ := hexpression h
        exact ⟨o, r ++ [c], by rw [hopen]; rfl, ho⟩

/-- An open text that begins with an operator has no separators. -/
lemma notMem_separators_openText {pre : Text} (h : BeginsExpression (openText pre)) :
    ∀ c ∈ openText pre, c ∉ separators := by
  obtain ⟨o, r, hopen, ho⟩ := h
  rcases openText_cases pre with hnil | ⟨t, e, ht, hmatch, -⟩
  · rw [hnil] at hopen
    exact absurd hopen.symm (List.cons_ne_nil _ _)
  · have hmem : o ∈ openText pre := by
      rw [hopen]
      exact List.mem_cons_self
    obtain ⟨-, rfl⟩ := expression_of_reMatch ht hmatch hmem ho
    exact (notMem_separators_of_reMatch hmatch).2

/-- **An expression goes on** with every character that is no separator and completes no name. -/
lemma step_expression {v : Text} {c : Char} (hfree : NameFree expressions v)
    (hbegins : BeginsExpression v) (hv : ∀ d ∈ v, d ∉ separators) (hc : c ∉ separators)
    (hname : ∀ t e, (t, e) ∈ expressions → ¬ t.toList <:+ v ++ [c]) :
    step expressions v c = ⟨v, v ++ [c], []⟩ := by
  rcases step_cases hfree c with
    ⟨t, e, ht, hmatch, hnot, -⟩ | ⟨t, e, exp, ht, hexp, -⟩ | ⟨hstep, -, -⟩
  · obtain ⟨o, r, rfl, ho⟩ := hbegins
    obtain ⟨-, rfl⟩ := expression_of_reMatch ht hmatch List.mem_cons_self ho
    refine absurd (reMatch_expression (List.append_ne_nil_of_right_ne_nil _ ?_) ?_) hnot
    · exact List.cons_ne_nil _ _
    · exact List.forall_mem_append.mpr ⟨hv, List.forall_mem_singleton.mpr hc⟩
  · exact absurd ⟨exp, hexp.symm⟩ (hname t e ht)
  · exact hstep

/-- An operator begins an expression, or it goes on with one. -/
lemma beginsExpression_step {pre : Text} {o : Char} (ho : isOperatorChar o = true) :
    BeginsExpression (step expressions (openText pre) o).cvalue := by
  have hword : isWordChar o = false := by
    simp only [isOperatorChar, Bool.and_eq_true, Bool.not_eq_true'] at ho
    exact ho.1.1.1.1
  rcases step_cases (nameFree_openText pre) o with
    ⟨t, e, -, -, -, hstep⟩ | ⟨t, e, exp, ht, hexp, -⟩ | ⟨hstep, -, hkeep⟩
  · rw [hstep]
    exact ⟨o, [], rfl, ho⟩
  · exact absurd ⟨exp, hexp.symm⟩ (wellNamed.not_suffix_concat ht hword)
  · rw [hstep]
    rcases openText_cases pre with hnil | ⟨t, e, ht, hmatch, hexpression⟩
    · rw [hnil]
      exact ⟨o, [], rfl, ho⟩
    · have hnext := hkeep t e ht hmatch
      obtain ⟨p, r, hopen, hp⟩ := hexpression
        (expression_of_reMatch ht hnext (List.mem_append_right _ List.mem_cons_self) ho).1
      exact ⟨p, r ++ [o], by rw [hopen]; rfl, hp⟩

/-- The end of the text is inside of an expression: an operator stands there with no separator and
no name of a kind behind it. -/
def InExpression (pre : Text) : Prop :=
  ∃ u o r, pre = u ++ o :: r ∧ isOperatorChar o = true ∧ (∀ c ∈ r, c ∉ separators) ∧
    NameFree expressions r

/-- **Where the tokenizer is inside of an expression.** -/
lemma beginsExpression_openText_iff (pre : Text) :
    BeginsExpression (openText pre) ↔ InExpression pre := by
  constructor
  · intro h
    have hseparators := notMem_separators_openText h
    have hfree := nameFree_openText pre
    obtain ⟨u, hu⟩ := openText_suffix pre
    obtain ⟨o, r, hopen, ho⟩ := h
    rw [hopen] at hseparators hfree hu
    exact ⟨u, o, r, hu.symm, ho, fun c hc => hseparators c (List.mem_cons_of_mem _ hc),
      hfree.of_infix (List.suffix_cons o r).isInfix⟩
  · rintro ⟨u, o, r, rfl, ho, hseparators, hfree⟩
    rw [← List.singleton_append, ← List.append_assoc]
    have hoperator : EndsOutside (u ++ [o]) := by
      refine endsOutside_concat ?_
      simp only [isOperatorChar, Bool.and_eq_true, Bool.not_eq_true'] at ho
      exact ho.1.1.1.1
    induction r using List.reverseRecOn with
    | nil =>
      rw [List.append_nil, openText_concat]
      exact beginsExpression_step ho
    | append_singleton r c ih =>
      have hbegins := ih (fun d hd => hseparators d (List.mem_append_left _ hd))
        (hfree.of_infix (List.prefix_append r [c]).isInfix)
      have hstep := step_expression (nameFree_openText _) hbegins
        (notMem_separators_openText hbegins) (hseparators c (List.mem_append_right _ List.mem_cons_self)) fun t e ht hsuffix => by
          obtain ⟨x, hx⟩ := openText_suffix (u ++ [o] ++ r)
          have hname : t.toList <:+ u ++ [o] ++ (r ++ [c]) := by
            rw [← List.append_assoc, ← hx, List.append_assoc]
            exact hsuffix.trans (List.suffix_append _ _)
          exact hfree t e ht (wellNamed.suffix_of_suffix_append ht hoperator hname).isInfix
      rw [← List.append_assoc, openText_concat, hstep]
      obtain ⟨p, x, hopen, hp⟩ := hbegins
      exact ⟨p, x ++ [c], by rw [hopen]; rfl, hp⟩

/-! ## Words -/

/-- All characters are in words. -/
def IsWord (w : Text) : Prop := ∀ c ∈ w, isWordChar c = true

/-- No name of a kind stands in the text, and no modifier at its beginning. -/
structure Plain (w : Text) : Prop where
  nameFree : NameFree expressions w
  not_modifier : ∀ m ∈ modifiers, ¬ m <+: w

/-- What a text begins with is plain if the text is. -/
lemma Plain.of_append {x y : Text} (h : Plain (x ++ y)) : Plain x where
  nameFree := h.nameFree.of_infix (List.prefix_append x y).isInfix
  not_modifier m hm hinitial := h.not_modifier m hm (hinitial.trans (List.prefix_append x y))

/-- White space is not in words. -/
lemma not_isSpaceChar_of_word {c : Char} (hc : isWordChar c = true) : isSpaceChar c = false := by
  rw [Bool.eq_false_iff]
  intro hspace
  simp only [isSpaceChar, Bool.or_eq_true, beq_iff_eq] at hspace
  rcases hspace with ((((rfl | rfl) | rfl) | rfl) | rfl) | rfl
  all_goals exact absurd hc (by decide)

/-- Separators are not in words. -/
lemma notMem_separators_of_word {c : Char} (hc : isWordChar c = true) : c ∉ separators := by
  have hall : separators.all (fun c => !isWordChar c) = true := by decide
  intro hmem
  have hnot := List.all_eq_true.mp hall c hmem
  rw [hc] at hnot
  exact absurd hnot (by decide)

/-- A word is matched as a whole. -/
lemma fullmatch_of_word {e : Pattern} {w : Text} (hw : IsWord w) (hne : w ≠ [])
    (h : e.reMatch w = true) : e.fullmatch w = true := by
  obtain ⟨x, c, rfl⟩ := (List.eq_nil_or_concat w).resolve_left hne
  rw [List.concat_eq_append] at hw h ⊢
  exact fullmatch_of_reMatch
    (ne_newline_of_word (hw c (List.mem_append_right _ List.mem_cons_self))) h

/-- **What matches a plain word**: an expression for a class of characters that has all of words. -/
lemma plus_of_reMatch {t : String} {e : Pattern} {w : Text} (ht : (t, e) ∈ expressions)
    (hw : IsWord w) (hne : w ≠ []) (hplain : Plain w) (h : e.reMatch w = true) :
    ∃ cls, e = .plus cls ∧ ∀ c, isWordChar c = true → cls c = true := by
  have hmatch := fullmatch_of_word hw hne h
  obtain ⟨c, hc⟩ := List.exists_mem_of_ne_nil w hne
  rcases mem_expressions ht with ⟨text, rfl, hname, -⟩ | ⟨text, rfl, hothers⟩ | ⟨-, rfl⟩ |
    ⟨-, rfl⟩ | ⟨-, rfl⟩
  · rw [← beq_iff_eq.mp hmatch] at hname
    rcases hname with hname | hmodifier
    · exact absurd (hname ▸ List.infix_rfl) (hplain.nameFree t _ ht)
    · exact absurd List.prefix_rfl (hplain.not_modifier w hmodifier)
  · rw [← beq_iff_eq.mp hmatch] at hothers
    exact absurd (hw c hc) (by rw [(hothers c hc).1]; decide)
  · exact ⟨_, rfl, fun _ => id⟩
  · rw [Pattern.fullmatch, Bool.and_eq_true, List.all_eq_true] at hmatch
    exact absurd (hmatch.2 c hc) (by rw [not_isSpaceChar_of_word (hw c hc)]; decide)
  · refine ⟨_, rfl, fun d hd => ?_⟩
    simpa using notMem_separators_of_word hd

/-- It goes on to match with every character of a word. -/
lemma reMatch_concat {t : String} {e : Pattern} {w : Text} {c : Char} (ht : (t, e) ∈ expressions)
    (hw : IsWord w) (hne : w ≠ []) (hplain : Plain w) (h : e.reMatch w = true)
    (hc : isWordChar c = true) : e.reMatch (w ++ [c]) = true := by
  obtain ⟨cls, rfl, hcls⟩ := plus_of_reMatch ht hw hne hplain h
  rw [Pattern.reMatch, Bool.or_eq_true_iff]
  refine Or.inl ?_
  rw [Pattern.fullmatch, Bool.and_eq_true, Bool.not_eq_true', List.isEmpty_eq_false_iff]
  refine ⟨List.append_ne_nil_of_right_ne_nil _ (List.cons_ne_nil _ _), List.all_eq_true.mpr ?_⟩
  exact List.forall_mem_append.mpr
    ⟨fun d hd => hcls d (hw d hd), List.forall_mem_singleton.mpr (hcls c hc)⟩

/-- **A plain word stays open.** -/
lemma step_word {w : Text} {c : Char} (hw : IsWord w) (hne : w ≠ []) (hc : isWordChar c = true)
    (hplain : Plain (w ++ [c])) : step expressions w c = ⟨w, w ++ [c], []⟩ := by
  have hstart : Plain w := hplain.of_append
  rcases step_cases hstart.nameFree c with
    ⟨t, e, ht, hmatch, hnot, -⟩ | ⟨t, e, exp, ht, hexp, -⟩ | ⟨hstep, -, -⟩
  · exact absurd (reMatch_concat ht hw hne hstart hmatch hc) hnot
  · exact absurd (hexp ▸ (List.suffix_append exp t.toList).isInfix) (hplain.nameFree t e ht)
  · exact hstep

/-- **A word begins a token** behind an open text that is no expression and does not end in a
word. -/
lemma step_boundary {pre : Text} {c : Char} (hpre : EndsOutside pre) (hexp : ¬ InExpression pre)
    (hc : isWordChar c = true) : (step expressions (openText pre) c).cvalue = [c] := by
  have hv : EndsOutside (openText pre) := hpre.of_suffix (openText_suffix pre)
  rw [← beginsExpression_openText_iff] at hexp
  rcases step_cases (nameFree_openText pre) c with
    ⟨t, e, -, -, -, hstep⟩ | ⟨t, e, exp, ht, hcut, -⟩ | ⟨hstep, -, hkeep⟩
  · rw [hstep]
  · have hsuffix := wellNamed.suffix_of_suffix_append ht hv ⟨exp, hcut.symm⟩
    exact absurd hsuffix.isInfix (wellNamed.nameFree_singleton c t e ht)
  · rw [hstep]
    rcases openText_cases pre with hnil | ⟨t, e, ht, hmatch, hexpression⟩
    · rw [hnil]
      rfl
    · -- no expression matches the end of another token and a word behind it
      exfalso
      have hnext := fullmatch_of_reMatch (ne_newline_of_word hc) (hkeep t e ht hmatch)
      rcases List.eq_nil_or_concat (openText pre) with hnil | ⟨x, d, hopen⟩
      · rw [hnil] at hmatch
        exact absurd hmatch (by rw [wellNamed.not_reMatch_nil t e ht]; decide)
      rw [List.concat_eq_append] at hopen
      have hd : isWordChar d = false := hv d (by rw [hopen, List.getLast?_concat])
      rw [hopen] at hnext
      have hdmem : d ∈ x ++ [d] ++ [c] := by simp
      have hcmem : c ∈ x ++ [d] ++ [c] := by simp
      have hall {cls : Char → Bool} (h : (Pattern.plus cls).fullmatch (x ++ [d] ++ [c]) = true) :
          cls d = true ∧ cls c = true := by
        rw [Pattern.fullmatch, Bool.and_eq_true, List.all_eq_true] at h
        exact ⟨h.2 d hdmem, h.2 c hcmem⟩
      rcases mem_expressions ht with ⟨text, rfl, -, hwords⟩ | ⟨text, rfl, hothers⟩ | ⟨-, rfl⟩ |
        ⟨-, rfl⟩ | ⟨hname, -⟩
      · rw [← beq_iff_eq.mp hnext] at hwords
        exact absurd (hwords d hdmem) (by rw [hd]; decide)
      · rw [← beq_iff_eq.mp hnext] at hothers
        exact absurd hc (by rw [(hothers c hcmem).1]; decide)
      · exact absurd (hall hnext).1 (by rw [hd]; decide)
      · exact absurd (hall hnext).2 (by rw [not_isSpaceChar_of_word hc]; decide)
      · exact hexp (hexpression hname)

/-- **A plain word is open as a whole** behind the places where a word begins a token. -/
lemma openText_word {pre w : Text} (hpre : EndsOutside pre) (hexp : ¬ InExpression pre)
    (hw : IsWord w) (hne : w ≠ []) (hplain : Plain w) : openText (pre ++ w) = w := by
  induction w using List.reverseRecOn with
  | nil => exact absurd rfl hne
  | append_singleton w c ih =>
    have hc : isWordChar c = true := hw c (List.mem_append_right _ List.mem_cons_self)
    rw [← List.append_assoc, openText_concat]
    rcases eq_or_ne w [] with rfl | hw'
    · rw [List.append_nil]
      exact step_boundary hpre hexp hc
    · have hwords : IsWord w := fun d hd => hw d (List.mem_append_left _ hd)
      rw [ih hwords hw' hplain.of_append, step_word hwords hw' hc hplain]

/-- **Inside of an expression** a word without names becomes a part of it. -/
lemma openText_expression {pre w : Text} (hpre : EndsOutside pre) (hexp : InExpression pre)
    (hw : IsWord w) (hfree : NameFree expressions w) : openText (pre ++ w) = openText pre ++ w := by
  rw [← beginsExpression_openText_iff] at hexp
  have hv : EndsOutside (openText pre) := hpre.of_suffix (openText_suffix pre)
  induction w using List.reverseRecOn with
  | nil => rw [List.append_nil, List.append_nil]
  | append_singleton w c ih =>
    have hwords : IsWord w := fun d hd => hw d (List.mem_append_left _ hd)
    have hfree' : NameFree expressions w := hfree.of_infix (List.prefix_append w [c]).isInfix
    rw [← List.append_assoc, openText_concat, ih hwords hfree', ← List.append_assoc]
    rw [step_expression]
    · exact wellNamed.nameFree_append hv (nameFree_openText pre) hfree'
    · obtain ⟨o, r, hopen, ho⟩ := hexp
      exact ⟨o, r ++ w, by rw [hopen]; rfl, ho⟩
    · refine List.forall_mem_append.mpr ⟨notMem_separators_openText hexp, fun d hd => ?_⟩
      exact notMem_separators_of_word (hwords d hd)
    · exact notMem_separators_of_word (hw c (List.mem_append_right _ List.mem_cons_self))
    · intro t e ht hsuffix
      rw [List.append_assoc] at hsuffix
      exact hfree t e ht (wellNamed.suffix_of_suffix_append ht hv hsuffix).isInfix

/-! ## The token of a word -/

/-- The table up to identifiers has fixed texts. -/
lemma exists_identifier_entry : ∃ before after : Expressions,
    expressions = before ++ ("SIMPLE_IDENTIFIER", .plus isWordChar) :: after ∧
      ∀ t e, (t, e) ∈ before → (t, e) ∈ expressions ∧ ∀ cls, e ≠ .plus cls := by
  refine ⟨expressions.take 24, expressions.drop 25, rfl, fun t e ht => ?_⟩
  have hmem : (t, e) ∈ expressions := List.mem_of_mem_take ht
  have hkinds : ∀ entry ∈ expressions.take 24, entry.1 ≠ "SIMPLE_IDENTIFIER" ∧
      entry.1 ≠ "WHITESPACE" ∧ entry.1 ≠ "EXPRESSION" := by decide
  obtain ⟨hword, hspace, hexpression⟩ := hkinds (t, e) ht
  refine ⟨hmem, fun cls hcls => ?_⟩
  rcases mem_expressions hmem with ⟨text, rfl, -⟩ | ⟨text, rfl, -⟩ | ⟨rfl, -⟩ | ⟨rfl, -⟩ | ⟨rfl, -⟩
  · exact Pattern.noConfusion hcls
  · exact Pattern.noConfusion hcls
  · exact hword rfl
  · exact hspace rfl
  · exact hexpression rfl

/-- A plain word is matched by the expression for identifiers. -/
lemma reMatch_identifier {w : Text} (hw : IsWord w) (hne : w ≠ []) :
    (Pattern.plus isWordChar).reMatch w = true := by
  rw [Pattern.reMatch, Bool.or_eq_true_iff]
  refine Or.inl ?_
  rw [Pattern.fullmatch, Bool.and_eq_true, Bool.not_eq_true', List.isEmpty_eq_false_iff]
  exact ⟨hne, List.all_eq_true.mpr hw⟩

/-- **A plain word that is open becomes an identifier** at the end of the text and in front of every
character but one of a word and a newline. -/
lemma scan_word {w post : Text} (hw : IsWord w) (hne : w ≠ []) (hplain : Plain w)
    (hpost : ∀ c, post.head? = some c → isWordChar c = false) (hnewline : post.head? ≠ some '\n') :
    ∃ us, scan expressions w post = ⟨"SIMPLE_IDENTIFIER", w⟩ :: us := by
  obtain ⟨before, after, htable, hbefore⟩ := exists_identifier_entry
  have hmatch := reMatch_identifier hw hne
  have hno (t : String) (e : Pattern) (ht : (t, e) ∈ before) : ¬ e.reMatch w = true := by
    intro h
    obtain ⟨hmem, hfixed⟩ := hbefore t e ht
    obtain ⟨cls, hcls, -⟩ := plus_of_reMatch hmem hw hne hplain h
    exact hfixed cls hcls
  have hname (t : String) (e : Pattern) (ht : (t, e) ∈ before) : ¬ t.toList <:+: w :=
    hplain.nameFree t e (hbefore t e ht).1
  cases post with
  | nil =>
    have haccepts : Tokenizer.Accepts true "SIMPLE_IDENTIFIER" (.plus isWordChar) ⟨w, w, []⟩ :=
      Or.inl ⟨rfl, hmatch⟩
    have hcheck : checkToken true expressions ⟨w, w, []⟩ =
        accept "SIMPLE_IDENTIFIER" ⟨w, w, []⟩ := by
      rw [htable, checkToken_append, checkToken, if_pos haccepts]
      intro t e ht
      refine ⟨?_, fun hsuffix => hname t e ht hsuffix.isInfix⟩
      rintro (⟨-, h⟩ | ⟨h, -⟩ | h)
      · exact hno t e ht h
      · exact hno t e ht h
      · exact hname t e ht (h ▸ List.infix_rfl)
    rw [scan, hcheck, tokens_accept]
    exact ⟨[], rfl⟩
  | cons c post =>
    have hc : isWordChar c = false := hpost c rfl
    have hnot : ¬ (Pattern.plus isWordChar).reMatch (w ++ [c]) = true := by
      intro h
      have hfull := fullmatch_of_reMatch (fun heq => hnewline (by rw [heq]; rfl)) h
      rw [Pattern.fullmatch, Bool.and_eq_true, List.all_eq_true] at hfull
      exact absurd (hfull.2 c (List.mem_append_right _ List.mem_cons_self)) (by rw [hc]; decide)
    have haccepts : Tokenizer.Accepts false "SIMPLE_IDENTIFIER" (.plus isWordChar) ⟨w, w ++ [c], []⟩ :=
      Or.inr (Or.inl ⟨hmatch, hnot⟩)
    have hcheck : step expressions w c = accept "SIMPLE_IDENTIFIER" ⟨w, w ++ [c], []⟩ := by
      rw [step]
      rw [htable, checkToken_append, checkToken, if_pos haccepts]
      intro t e ht
      refine ⟨?_, wellNamed.not_suffix_concat (hbefore t e ht).1 hc⟩
      rintro (⟨h, -⟩ | ⟨h, -⟩ | h)
      · exact absurd h Bool.false_ne_true
      · exact hno t e ht h
      · exact hname t e ht (h ▸ List.infix_rfl)
    rw [scan, hcheck, tokens_accept]
    exact ⟨_, rfl⟩

/-- The name of the kind of identifiers, without its last letter. -/
def nameStem : Text := "SIMPLE_IDENTIFIE".toList

/-- **The name of the kind of identifiers is cut off** behind every text that does not end in a
word. -/
lemma step_name {exp : Text} (hexp : EndsOutside exp)
    (hfree : NameFree expressions (exp ++ nameStem))
    (hkeep : ∀ t e, (t, e) ∈ expressions → e.reMatch (exp ++ nameStem) = true →
      e.reMatch (exp ++ nameStem ++ ['R']) = true) :
    step expressions (exp ++ nameStem) 'R' =
      ⟨exp ++ nameStem, [], cutTokens exp "SIMPLE_IDENTIFIER"⟩ := by
  have hname : nameStem ++ ['R'] = "SIMPLE_IDENTIFIER".toList := by decide
  have hnames : ∀ entry ∈ expressions, entry.1.toList <:+ "SIMPLE_IDENTIFIER".toList →
      entry.1 = "SIMPLE_IDENTIFIER" := by decide
  rcases step_cases hfree 'R' with
    ⟨t, e, ht, hmatch, hnot, -⟩ | ⟨t, e, exp', ht, hcut, hstep⟩ | ⟨-, hopen, -⟩
  · exact absurd (hkeep t e ht hmatch) hnot
  · rw [List.append_assoc, hname] at hcut
    have hsuffix := wellNamed.suffix_of_suffix_append ht hexp ⟨exp', hcut.symm⟩
    have heq : t = "SIMPLE_IDENTIFIER" := hnames (t, e) ht hsuffix
    subst heq
    rw [hstep, List.append_cancel_right hcut]
  · refine absurd ?_ (hopen "SIMPLE_IDENTIFIER" (.plus isWordChar) (by simp [expressions]))
    rw [List.append_assoc, hname]
    exact (List.suffix_append exp _).isInfix

/-! ## Identifiers -/

/-- The text is a maximal run of word characters between two others. -/
structure IsRun (pre w post : Text) : Prop where
  word : IsWord w
  ne_nil : w ≠ []
  endsOutside : EndsOutside pre
  head : ∀ c, post.head? = some c → isWordChar c = false

/-- The run is one of the keywords. -/
def IsKeyword (w : Text) : Prop := w ∈ functions.map String.toList ∨ w ∈ modifiers

/-- **One token covers the run**, and it is an identifier with the run as its value: the tokens in
front of it spell what stands in front of the run. -/
def Covered (pre w post : Text) : Prop :=
  ∃ ts us, tokenize (pre ++ w ++ post) = ts ++ ⟨"SIMPLE_IDENTIFIER", w⟩ :: us ∧ values ts = pre

/-- The run is not where the tokenizer reads it otherwise. -/
def KeptWhole (pre w post : Text) : Prop :=
  w = "SIMPLE_IDENTIFIER".toList ∨
    Plain w ∧ post.head? ≠ some '\n' ∧ ¬ InExpression pre

variable {pre w post : Text}

/-- The tokens of a text without comments. -/
lemma tokenize_append (hcomments : removeComments (pre ++ w ++ post) = pre ++ w ++ post) :
    tokenize (pre ++ w ++ post) = (run expressions [] (pre ++ w)).1 ++
      scan expressions (openText (pre ++ w)) post := by
  rw [tokenize, tokenize_eq_scan, hcomments, scan_append]
  rfl

/-- A plain word is covered. -/
lemma covered_of_plain (hcomments : removeComments (pre ++ w ++ post) = pre ++ w ++ post)
    (hrun : IsRun pre w post) (hplain : Plain w) (hnewline : post.head? ≠ some '\n')
    (hexp : ¬ InExpression pre) : Covered pre w post := by
  have hopen := openText_word hrun.endsOutside hexp hrun.word hrun.ne_nil hplain
  obtain ⟨us, hscan⟩ := scan_word hrun.word hrun.ne_nil hplain hrun.head hnewline
  refine ⟨(run expressions [] (pre ++ w)).1, us, ?_, ?_⟩
  · rw [tokenize_append hcomments, hopen, hscan]
  · have hspell := values_run expressions [] (pre ++ w)
    rw [List.nil_append] at hspell
    change _ ++ openText (pre ++ w) = _ at hspell
    rw [hopen] at hspell
    exact List.append_cancel_right hspell

/-- The name of the kind of identifiers is covered anywhere. -/
lemma covered_name (hpre : EndsOutside pre)
    (hcomments : removeComments (pre ++ "SIMPLE_IDENTIFIER".toList ++ post) =
      pre ++ "SIMPLE_IDENTIFIER".toList ++ post) :
    Covered pre "SIMPLE_IDENTIFIER".toList post := by
  have hname : "SIMPLE_IDENTIFIER".toList = nameStem ++ ['R'] := by decide
  have hword : ∀ c ∈ nameStem, isWordChar c = true := List.all_eq_true.mp (by decide)
  have hne : nameStem ≠ [] := by decide
  have hfree : ∀ entry ∈ expressions, ¬ entry.1.toList <:+: nameStem := by decide
  have hplain : Plain nameStem := ⟨fun t e h => hfree (t, e) h, by decide⟩
  -- inside of an expression the part in front is cut off with the name, elsewhere it is a token
  obtain ⟨exp, hopen, hexp, hkeep⟩ : ∃ exp, openText (pre ++ nameStem) = exp ++ nameStem ∧
      EndsOutside exp ∧ ∀ t e, (t, e) ∈ expressions → e.reMatch (exp ++ nameStem) = true →
        e.reMatch (exp ++ nameStem ++ ['R']) = true := by
    by_cases hin : InExpression pre
    · refine ⟨openText pre, openText_expression hpre hin hword hplain.nameFree,
        hpre.of_suffix (openText_suffix pre), fun t e ht hmatch => ?_⟩
      obtain ⟨o, r, hopen, ho⟩ := (beginsExpression_openText_iff pre).mpr hin
      have hmem : o ∈ openText pre ++ nameStem := by
        rw [hopen]
        exact List.mem_cons_self
      obtain ⟨-, rfl⟩ := expression_of_reMatch ht hmatch hmem ho
      refine reMatch_expression (List.append_ne_nil_of_right_ne_nil _ (List.cons_ne_nil _ _)) ?_
      exact List.forall_mem_append.mpr ⟨(notMem_separators_of_reMatch hmatch).2,
        List.forall_mem_singleton.mpr (by decide)⟩
    · refine ⟨[], openText_word hpre hin hword hne hplain, fun c hc => absurd hc (by simp),
        fun t e ht hmatch => ?_⟩
      exact reMatch_concat ht hword hne hplain hmatch (by decide)
  have hstep := step_name hexp (hopen ▸ nameFree_openText (pre ++ nameStem)) hkeep
  refine ⟨(run expressions [] (pre ++ nameStem)).1 ++
    if exp = [] then [] else [⟨"EXPRESSION", exp⟩], scan expressions [] post, ?_, ?_⟩
  · rw [tokenize, tokenize_eq_scan, hcomments, scan_append, hname, ← List.append_assoc, run_concat]
    change (_ ++ (step expressions (openText (pre ++ nameStem)) 'R').tokens) ++
      scan expressions (step expressions (openText (pre ++ nameStem)) 'R').cvalue post = _
    rw [hopen, hstep, cutTokens, hname]
    simp only [List.append_assoc, List.singleton_append]
  · have hspell := values_run expressions [] (pre ++ nameStem)
    change _ ++ openText (pre ++ nameStem) = pre ++ nameStem at hspell
    rw [hopen, ← List.append_assoc] at hspell
    have hexpValues : values (if exp = [] then [] else [⟨"EXPRESSION", exp⟩]) = exp := by
      split
      · next hnil => exact hnil.symm
      · exact List.append_nil exp
    rw [values_append, hexpValues]
    exact List.append_cancel_right hspell

/-- A text of two pieces that is open has come about from the first one being open. -/
lemma openText_of_append {s v x : Text} (hv : v ≠ []) (h : openText (s ++ x) = v ++ x) :
    openText s = v := by
  induction x using List.reverseRecOn with
  | nil => simpa using h
  | append_singleton x c ih =>
    refine ih ?_
    rw [← List.append_assoc, openText_concat, ← List.append_assoc] at h
    rcases step_cases (nameFree_openText (s ++ x)) c with
      ⟨t, e, -, -, -, hstep⟩ | ⟨t, e, exp, -, -, hstep⟩ | ⟨hstep, -, -⟩
    · rw [hstep] at h
      have hnil : v ++ x = [] := List.append_cancel_right (h.symm.trans (List.nil_append [c]).symm)
      exact absurd (List.append_eq_nil_iff.mp hnil).1 hv
    · rw [hstep] at h
      exact absurd h.symm (List.append_ne_nil_of_right_ne_nil _ (List.cons_ne_nil _ _))
    · rw [hstep] at h
      exact List.append_cancel_right h

/-- The modifiers are in the table. -/
lemma exists_modifier_entry {m : Text} (hm : m ∈ modifiers) :
    ∃ t, (t, Pattern.literal m) ∈ expressions := by
  simp only [modifiers, List.mem_cons, List.not_mem_nil, or_false] at hm
  rcases hm with rfl | rfl | rfl
  · exact ⟨"PUBLIC", by simp [expressions]⟩
  · exact ⟨"PRIVATE", by simp [expressions]⟩
  · exact ⟨"PROTECTED", by simp [expressions]⟩

/-- A modifier does not stay open in front of the rest of a word. -/
lemma not_prefix_of_openText {m : Text} (hm : m ∈ modifiers) (hword : IsWord w) (hne : w ≠ m)
    (hopen : openText (pre ++ w) = w) : ¬ m <+: w := by
  rintro ⟨x, rfl⟩
  have hnil : m ≠ [] := by
    have hall : ∀ m ∈ modifiers, m ≠ [] := by decide
    exact hall m hm
  cases x with
  | nil => exact hne (List.append_nil m)
  | cons d x =>
    have hd : isWordChar d = true := hword d (List.mem_append_right _ List.mem_cons_self)
    rw [← List.append_assoc] at hopen
    have hbefore : openText (pre ++ m) = m := openText_of_append hnil hopen
    rw [← List.singleton_append, ← List.append_assoc, ← List.append_assoc] at hopen
    have hafter : openText (pre ++ m ++ [d]) = m ++ [d] :=
      openText_of_append (List.append_ne_nil_of_left_ne_nil hnil _) hopen
    rw [openText_concat, hbefore] at hafter
    rcases step_cases (hbefore ▸ nameFree_openText (pre ++ m)) d with
      ⟨t, e, -, -, -, hstep⟩ | ⟨t, e, exp, -, -, hstep⟩ | ⟨hstep, -, hkeep⟩
    · rw [hstep] at hafter
      exact hnil (List.append_cancel_right (hafter.symm.trans (List.nil_append [d]).symm))
    · rw [hstep] at hafter
      exact absurd hafter.symm (List.append_ne_nil_of_right_ne_nil _ (List.cons_ne_nil _ _))
    · -- the expression of the modifier matches it, and nothing longer
      obtain ⟨t, ht⟩ := exists_modifier_entry hm
      have hself : (Pattern.literal m).reMatch m = true := by
        simp [Pattern.reMatch, Pattern.fullmatch]
      have hlonger := fullmatch_of_reMatch (ne_newline_of_word hd) (hkeep t _ ht hself)
      exact absurd (beq_iff_eq.mp hlonger) (by simp)

/-- A word without names does not end an expression. -/
lemma InExpression.append_word (h : InExpression pre) (hpre : EndsOutside pre) (hword : IsWord w)
    (hfree : NameFree expressions w) : InExpression (pre ++ w) := by
  obtain ⟨u, o, r, rfl, ho, hseparators, hr⟩ := h
  refine ⟨u, o, r ++ w, by simp, ho, ?_, ?_⟩
  · exact List.forall_mem_append.mpr
      ⟨hseparators, fun c hc => notMem_separators_of_word (hword c hc)⟩
  · refine wellNamed.nameFree_append (hpre.of_suffix ?_) hr hfree
    exact (List.suffix_cons o r).trans (List.suffix_append u _)

/-- **A run is one identifier exactly if** it is the name of that kind, or it has no name of a kind
and does not begin with a modifier, no newline stands behind it, and the text in front of it does
not end inside of an expression. -/
theorem covered_iff (hcomments : removeComments (pre ++ w ++ post) = pre ++ w ++ post)
    (hrun : IsRun pre w post) (hkeyword : ¬ IsKeyword w) :
    Covered pre w post ↔ KeptWhole pre w post := by
  constructor
  · rintro ⟨ts, us, htokens, rfl⟩
    rw [tokenize, tokenize_eq_scan, hcomments] at htokens
    rcases wellNamed.token_cases htokens with
      ⟨e, rest, ht, -, hread, htext, hnext⟩ | hexpression | hname
    · have hopen : openText (values ts ++ w) = w := by
        rw [openText, hread]
      obtain rfl : post = rest := List.append_cancel_left htext
      have hfree : NameFree expressions w := hopen ▸ nameFree_openText (values ts ++ w)
      refine Or.inr ⟨⟨hfree, fun m hm => ?_⟩, fun hnewline => ?_, fun hexp => ?_⟩
      · exact not_prefix_of_openText hm hrun.word (fun heq => hkeyword (Or.inr (heq ▸ hm))) hopen
      · have he : e = .plus isWordChar := by simpa [expressions, functions] using ht
        subst he
        refine hnext '\n' hnewline ?_
        rw [Pattern.reMatch, List.getLast?_concat, List.dropLast_concat, Bool.or_eq_true_iff]
        refine Or.inr ?_
        rw [beq_self_eq_true, Bool.true_and]
        exact fullmatch_of_word hrun.word hrun.ne_nil (reMatch_identifier hrun.word hrun.ne_nil)
      · have hlonger := hexp.append_word hrun.endsOutside hrun.word hfree
        obtain ⟨o, r, hbegins, ho⟩ := (beginsExpression_openText_iff _).mpr hlonger
        rw [hopen] at hbegins
        have hword := hrun.word o (by rw [hbegins]; exact List.mem_cons_self)
        simp only [isOperatorChar, hword, Bool.not_true, Bool.false_and] at ho
        exact absurd ho Bool.false_ne_true
    · exact absurd hexpression (by decide : "SIMPLE_IDENTIFIER" ≠ "EXPRESSION")
    · exact Or.inl hname
  · rintro (rfl | ⟨hplain, hnewline, hexp⟩)
    · exact covered_name hrun.endsOutside hcomments
    · exact covered_of_plain hcomments hrun hplain hnewline hexp

/-- A word in parentheses. -/
theorem covered_iff_count :
    Covered ['('] "count".toList [')'] ↔ KeptWhole ['('] "count".toList [')'] :=
  covered_iff (by decide)
    ⟨List.all_eq_true.mp (by decide), by decide, endsOutside_concat (v := []) (c := '(') (by decide),
      fun c hc => by obtain rfl := Option.some.inj hc; decide⟩
    (by unfold IsKeyword; decide)

/-- **Not every run is an identifier**: of `publicity` the modifier is cut off. -/
theorem not_covered_publicity :
    ¬ ∀ pre w post : Text, removeComments (pre ++ w ++ post) = pre ++ w ++ post →
      IsRun pre w post → ¬ IsKeyword w → Covered pre w post := by
  intro h
  have hrun : IsRun [] "publicity".toList [] :=
    ⟨List.all_eq_true.mp (by decide), by decide, fun c hc => absurd hc (by simp),
      fun c hc => absurd hc (by simp)⟩
  obtain ⟨ts, us, htokens, -⟩ := h [] "publicity".toList [] (by decide) hrun
    (by unfold IsKeyword; decide)
  have hread : tokenize ([] ++ "publicity".toList ++ []) =
      [⟨"PUBLIC", "public".toList⟩, ⟨"SIMPLE_IDENTIFIER", "ity".toList⟩] := by decide
  have hmem : (⟨"SIMPLE_IDENTIFIER", "publicity".toList⟩ : Token String Text) ∈
      tokenize ([] ++ "publicity".toList ++ []) := by
    rw [htokens]
    exact List.mem_append_right _ List.mem_cons_self
  rw [hread] at hmem
  revert hmem
  decide

end SchemaTokenizer

end NaoSoccer
