import NaoSoccer.Schema.IdentifierTokens
import NaoSoccer.Schema.TypeGrammar

/-!
# The tokens of a type name

The tokenizer of type names has an expression for words, one for white space, and one for each
punctuation mark.  A mark is a token of its own, and so is a word that has no name of a kind in it;
from other words the names are cut off.
-/

namespace NaoSoccer

namespace TypeTokenizer

open Tokenizer
open SchemaTokenizer (isWordChar isSpaceChar IsWord)

/-! ## The table -/

/-- The kinds of the punctuation marks. -/
def marks : List (String × Char) :=
  [("LPAREN", '('), ("RPAREN", ')'), ("LANGLE", '<'), ("RANGLE", '>'), ("COMMA", ','),
    ("COLON", ':')]

/-- **The entries of the table.** -/
lemma mem_expressions {t : String} {e : Pattern} (h : (t, e) ∈ expressions) :
    (∃ c, (t, c) ∈ marks ∧ e = .literal [c]) ∨ (t = "SIMPLE_IDENTIFIER" ∧ e = .plus isWordChar) ∨
      (t = "WHITESPACE" ∧ e = .plus isSpaceChar) := by
  simp only [expressions, List.mem_cons, List.not_mem_nil, or_false, Prod.mk.injEq] at h
  rcases h with ⟨rfl, rfl⟩ | ⟨rfl, rfl⟩ | ⟨rfl, rfl⟩ | ⟨rfl, rfl⟩ | ⟨rfl, rfl⟩ | ⟨rfl, rfl⟩ |
    ⟨rfl, rfl⟩ | ⟨rfl, rfl⟩
  all_goals first
    | exact Or.inl ⟨_, by decide, rfl⟩
    | exact Or.inr (Or.inl ⟨rfl, rfl⟩)
    | exact Or.inr (Or.inr ⟨rfl, rfl⟩)

/-- The marks are in the table. -/
lemma mark_mem {t : String} {c : Char} (h : (t, c) ∈ marks) : (t, .literal [c]) ∈ expressions := by
  simp only [marks, List.mem_cons, List.not_mem_nil, or_false, Prod.mk.injEq] at h
  rcases h with ⟨rfl, rfl⟩ | ⟨rfl, rfl⟩ | ⟨rfl, rfl⟩ | ⟨rfl, rfl⟩ | ⟨rfl, rfl⟩ | ⟨rfl, rfl⟩ <;>
    simp [expressions]

/-- A mark is neither in words nor white space, and it has one kind. -/
lemma mark_facts : ∀ mark ∈ marks, isWordChar mark.2 = false ∧ isSpaceChar mark.2 = false ∧
    mark.2 ≠ '\n' ∧ ∀ mark' ∈ marks, mark'.2 = mark.2 → mark' = mark := by
  decide

/-- The names of the kinds are words of two letters or more, and no expression matches the empty
text. -/
lemma entry_facts : ∀ entry ∈ expressions, 2 ≤ entry.1.toList.length ∧
    entry.1.toList.all isWordChar = true ∧ entry.2.reMatch [] = false := by
  decide

/-- The table is well named. -/
lemma wellNamed : WellNamed expressions where
  two_le t e h := (entry_facts (t, e) h).1
  word t e h := List.all_eq_true.mp (entry_facts (t, e) h).2.1
  not_reMatch_nil t e h := (entry_facts (t, e) h).2.2

/-! ## Marks and words -/

/-- A character that an expression matches is its mark, in words, or white space. -/
lemma kind_of_reMatch_mark {t t' : String} {c : Char} {e : Pattern} (hmark : (t, c) ∈ marks)
    (ht : (t', e) ∈ expressions) (hmatch : e.reMatch [c] = true) : t' = t := by
  obtain ⟨hword, hspace, hnewline, hunique⟩ := mark_facts (t, c) hmark
  have hfull : e.fullmatch [c] = true := SchemaTokenizer.fullmatch_of_reMatch (v := []) hnewline hmatch
  rcases mem_expressions ht with ⟨d, hd, rfl⟩ | ⟨-, rfl⟩ | ⟨-, rfl⟩
  · have heq : [c] = [d] := beq_iff_eq.mp hfull
    exact congrArg Prod.fst (hunique (t', d) hd (List.cons.inj heq).1.symm)
  · simp [Pattern.fullmatch, hword] at hfull
  · simp [Pattern.fullmatch, hspace] at hfull

/-- **A mark is a token** unless a newline stands behind it. -/
lemma scan_mark {t : String} {c : Char} {s : Text} (hmark : (t, c) ∈ marks)
    (hs : s.head? ≠ some '\n') :
    scan expressions [] (c :: s) = ⟨t, [c]⟩ :: scan expressions [] s := by
  obtain ⟨hword, -, hnewline, -⟩ := mark_facts (t, c) hmark
  have hmatch : (Pattern.literal [c]).reMatch [c] = true := by
    simp [Pattern.reMatch, Pattern.fullmatch]
  rw [wellNamed.scan_nil_cons]
  refine wellNamed.scan_token (wellNamed.nameFree_singleton c) (mark_mem hmark) hmatch
    (fun t' e' ht' hmatch' => kind_of_reMatch_mark hmark ht' hmatch') fun d hd => ⟨fun h => ?_, ?_⟩
  · have hfull := SchemaTokenizer.fullmatch_of_reMatch (v := [c])
      (fun heq => hs (by rw [hd, heq])) h
    simp [Pattern.fullmatch] at hfull
  · intro t' e' ht' hsuffix
    have hsingle := wellNamed.suffix_of_suffix_append ht' (endsOutside_concat (v := []) hword) hsuffix
    exact wellNamed.nameFree_singleton d t' e' ht' hsingle.isInfix

/-- The expression of words matches them. -/
lemma kind_of_reMatch_word {t : String} {e : Pattern} {w : Text}
    (hw : IsWord w) (hne : w ≠ []) (ht : (t, e) ∈ expressions)
    (hmatch : e.reMatch w = true) : t = "SIMPLE_IDENTIFIER" := by
  have hfull := SchemaTokenizer.fullmatch_of_word hw hne hmatch
  obtain ⟨c, hc⟩ := List.exists_mem_of_ne_nil w hne
  rcases mem_expressions ht with ⟨d, hd, rfl⟩ | ⟨rfl, -⟩ | ⟨-, rfl⟩
  · have hword := hw c hc
    rw [beq_iff_eq.mp hfull, List.mem_singleton] at hc
    rw [hc, (mark_facts (t, d) hd).1] at hword
    exact absurd hword (by decide)
  · rfl
  · rw [Pattern.fullmatch, Bool.and_eq_true, List.all_eq_true] at hfull
    have hspace := SchemaTokenizer.not_isSpaceChar_of_word (hw c hc)
    exact absurd (hfull.2 c hc) (by rw [hspace]; decide)

/-- What comes behind a word in a type name: no character of a word, and no newline. -/
def EndsWord (s : Text) : Prop := ∀ c, s.head? = some c → isWordChar c = false ∧ c ≠ '\n'

/-- An open word without names becomes an identifier. -/
lemma scan_open {v s : Text} (hv : IsWord v) (hne : v ≠ []) (hfree : NameFree expressions v)
    (hs : EndsWord s) :
    scan expressions v s = ⟨"SIMPLE_IDENTIFIER", v⟩ :: scan expressions [] s := by
  refine wellNamed.scan_token hfree (e := .plus isWordChar) (by simp [expressions])
    (SchemaTokenizer.reMatch_identifier hv hne)
    (fun t e ht hmatch => kind_of_reMatch_word hv hne ht hmatch) fun c hc => ⟨fun h => ?_, ?_⟩
  · obtain ⟨hword, hnewline⟩ := hs c hc
    have hfull := SchemaTokenizer.fullmatch_of_reMatch hnewline h
    rw [Pattern.fullmatch, Bool.and_eq_true, List.all_eq_true] at hfull
    exact absurd (hfull.2 c (List.mem_append_right _ List.mem_cons_self)) (by rw [hword]; decide)
  · exact fun t e ht => wellNamed.not_suffix_concat ht (hs c hc).1

/-- **A word** stays open if no name of a kind stands in it; otherwise the first name is cut off and
the rest is read like a word of its own. -/
lemma run_word {w : Text} (hw : IsWord w) :
    NameFree expressions w ∧ run expressions [] w = ([], w) ∨
      ∃ exp t e rest, (t, e) ∈ expressions ∧ w = exp ++ t.toList ++ rest ∧
        run expressions [] w = (cutTokens exp t ++ (run expressions [] rest).1,
          (run expressions [] rest).2) := by
  induction w using List.reverseRecOn with
  | nil => exact Or.inl ⟨wellNamed.nameFree_nil, rfl⟩
  | append_singleton w c ih =>
    have hstart : IsWord w := fun d hd => hw d (List.mem_append_left _ hd)
    rw [run_concat]
    rcases ih hstart with ⟨hfree, hrun⟩ | ⟨exp, t, e, rest, ht, rfl, hrun⟩
    · rw [hrun]
      rcases step_cases hfree c with
        ⟨t, e, ht, hmatch, hnot, -⟩ | ⟨t, e, exp, ht, hcut, hstep⟩ | ⟨hstep, hfree', -⟩
      · have hne : w ≠ [] := by
          rintro rfl
          exact absurd hmatch (by rw [wellNamed.not_reMatch_nil t e ht]; decide)
        obtain rfl := kind_of_reMatch_word hstart hne ht hmatch
        obtain rfl : e = .plus isWordChar := by simpa [expressions] using ht
        exact absurd (SchemaTokenizer.reMatch_identifier hw (by simp)) hnot
      · refine Or.inr ⟨exp, t, e, [], ht, by rw [List.append_nil, hcut], ?_⟩
        rw [hstep]
        simp [run]
      · rw [hstep]
        exact Or.inl ⟨hfree', rfl⟩
    · refine Or.inr ⟨exp, t, e, rest ++ [c], ht, by simp, ?_⟩
      rw [hrun, run_concat, List.append_assoc]

/-- The tokens of a word. -/
def wordTokens (w : Text) : List (Token String Text) := scan expressions [] w

/-- A text is scanned as far as it has been read, and then what is open. -/
lemma scan_eq_run (v s : Text) : scan expressions v s =
    (run expressions v s).1 ++ scan expressions (run expressions v s).2 [] := by
  have hsplit : scan expressions v (s ++ []) = (run expressions v s).1 ++
      scan expressions (run expressions v s).2 [] := scan_append v s []
  rwa [List.append_nil] at hsplit

/-- **A word and what comes behind it** are scanned one after the other. -/
lemma scan_word_append {w s : Text} (hw : IsWord w) (hs : EndsWord s) :
    scan expressions [] (w ++ s) = wordTokens w ++ scan expressions [] s := by
  have hopen : IsWord (run expressions [] w).2 := by
    have hspell := values_run expressions [] w
    rw [List.nil_append] at hspell
    intro c hc
    refine hw c ?_
    rw [← hspell]
    exact List.mem_append_right _ hc
  have hfree := wellNamed.nameFree_run w
  rw [wordTokens, scan_append, scan_eq_run [] w, List.append_assoc]
  congr 1
  generalize (run expressions [] w).2 = v at hopen hfree
  rcases eq_or_ne v [] with rfl | hne
  · rw [wellNamed.scan_nil]
    rfl
  · rw [scan_open hopen hne hfree hs, scan_open hopen hne hfree (fun c hc => absurd hc (by simp)),
      wellNamed.scan_nil]
    rfl

/-- **The tokens of a word**: an identifier, or a name that is cut off and the tokens of the rest. -/
lemma wordTokens_cases {w : Text} (hw : IsWord w) (hne : w ≠ []) :
    NameFree expressions w ∧ wordTokens w = [⟨"SIMPLE_IDENTIFIER", w⟩] ∨
      ∃ exp t e rest, (t, e) ∈ expressions ∧ w = exp ++ t.toList ++ rest ∧
        wordTokens w = cutTokens exp t ++ wordTokens rest := by
  rcases run_word hw with ⟨hfree, hrun⟩ | ⟨exp, t, e, rest, ht, hcut, hrun⟩
  · refine Or.inl ⟨hfree, ?_⟩
    rw [wordTokens, scan_eq_run, hrun, scan_open hw hne hfree (fun c hc => absurd hc (by simp)),
      wellNamed.scan_nil]
    rfl
  · refine Or.inr ⟨exp, t, e, rest, ht, hcut, ?_⟩
    rw [wordTokens, scan_eq_run, hrun, List.append_assoc, ← scan_eq_run]
    rfl

/-- A word without names is an identifier. -/
lemma wordTokens_of_nameFree {w : Text} (hw : IsWord w) (hne : w ≠ [])
    (hfree : NameFree expressions w) : wordTokens w = [⟨"SIMPLE_IDENTIFIER", w⟩] := by
  rcases wordTokens_cases hw hne with ⟨-, htokens⟩ | ⟨exp, t, e, rest, ht, rfl, -⟩
  · exact htokens
  · exact absurd ⟨exp, rest, rfl⟩ (hfree t e ht)

/-- What is cut off spells the text and the name. -/
lemma cutTokens_spell {t : String} {e : Pattern} (ht : (t, e) ∈ expressions) (exp : Text) :
    values (cutTokens exp t) = exp ++ t.toList ∧ ∀ token ∈ cutTokens exp t, token.value ≠ [] := by
  have hname := wellNamed.ne_nil ht
  unfold cutTokens
  split
  · next hnil =>
    rw [hnil]
    exact ⟨List.append_nil _, List.forall_mem_singleton.mpr hname⟩
  · next hexp =>
    refine ⟨by rw [values_append, values_singleton, values_singleton], ?_⟩
    exact List.forall_mem_cons.mpr ⟨hexp, List.forall_mem_singleton.mpr hname⟩

/-- **The tokens of a word spell it**, and none of them is empty. -/
lemma wordTokens_spell {w : Text} (hw : IsWord w) :
    values (wordTokens w) = w ∧ ∀ token ∈ wordTokens w, token.value ≠ [] := by
  induction hn : w.length using Nat.strongRecOn generalizing w with
  | ind n ih =>
    rcases eq_or_ne w [] with rfl | hne
    · rw [wordTokens, wellNamed.scan_nil]
      exact ⟨rfl, fun token htoken => absurd htoken List.not_mem_nil⟩
    · rcases wordTokens_cases hw hne with ⟨-, htokens⟩ | ⟨exp, t, e, rest, ht, rfl, htokens⟩
      · rw [htokens, values_singleton]
        exact ⟨rfl, List.forall_mem_singleton.mpr hne⟩
      · have hpos := wellNamed.two_le t e ht
        obtain ⟨hrest, hnonempty⟩ := ih rest.length (by simp [← hn]; omega)
          (fun c hc => hw c (List.mem_append_right _ hc)) rfl
        obtain ⟨hcut, hcutNonempty⟩ := cutTokens_spell ht exp
        rw [htokens, values_append, hrest, hcut]
        exact ⟨rfl, List.forall_mem_append.mpr ⟨hcutNonempty, hnonempty⟩⟩

end TypeTokenizer

end NaoSoccer
