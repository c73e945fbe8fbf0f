import NaoSoccer.Schema.Tokenizer

/-!
# The tokenizer as a scan

Between two characters `tokenize` remembers only the text since the last token, which is *open*.
`scan v s` are the tokens that it still emits when `v` is open and `s` is left to read, so a claim
about a place in the middle of a text is one about the open text there.

A character does one of three things (`step_cases`): the open text becomes a token, a name of a kind
at its end is cut off, or the text stays open.  As long as it is open no name stands in it.
-/

namespace NaoSoccer

namespace Tokenizer

open SchemaTokenizer (isWordChar isSpaceChar)

variable {expressions : Expressions}

/-! ## The scan -/

/-- The state after the next character, from an open text and without tokens. -/
def step (expressions : Expressions) (v : Text) (c : Char) : Tokenizer :=
  checkToken false expressions ⟨v, v ++ [c], []⟩

/-- The tokens that are emitted from now on, when a text is open and another one is left to read. -/
def scan (expressions : Expressions) : Text → Text → List (Token String Text)
  | v, [] => (checkToken true expressions ⟨v, v, []⟩).tokens
  | v, c :: s => (step expressions v c).tokens ++ scan expressions (step expressions v c).cvalue s

/-- The tokens so far are only added to. -/
lemma checkToken_tokens (force : Bool) (expressions : Expressions) (p v : Text)
    (ts : List (Token String Text)) :
    (checkToken force expressions ⟨p, v, ts⟩).cvalue =
        (checkToken force expressions ⟨p, v, []⟩).cvalue ∧
      (checkToken force expressions ⟨p, v, ts⟩).tokens =
        ts ++ (checkToken force expressions ⟨p, v, []⟩).tokens := by
  induction expressions with
  | nil => exact ⟨rfl, (List.append_nil ts).symm⟩
  | cons entry expressions ih =>
    obtain ⟨t, e⟩ := entry
    have haccepts : Accepts force t e ⟨p, v, ts⟩ ↔ Accepts force t e ⟨p, v, []⟩ := Iff.rfl
    rw [checkToken, checkToken]
    simp only [haccepts]
    split
    · unfold accept
      cases v.getLast? with
      | none => exact ⟨rfl, rfl⟩
      | some c => exact ⟨rfl, rfl⟩
    · split
      · exact ⟨rfl, by simp [split]⟩
      · exact ih

/-- The loop of `tokenize` from a state between two characters. -/
lemma foldl_readChar (expressions : Expressions) (s v : Text) (ts : List (Token String Text)) :
    (checkToken true expressions (s.foldl (readChar expressions) ⟨v, v, ts⟩)).tokens =
      ts ++ scan expressions v s := by
  induction s generalizing v ts with
  | nil => exact (checkToken_tokens true expressions v v ts).2
  | cons c s ih =>
    obtain ⟨hcvalue, htokens⟩ := checkToken_tokens false expressions v (v ++ [c]) ts
    have hread : readChar expressions ⟨v, v, ts⟩ c = ⟨(step expressions v c).cvalue,
        (step expressions v c).cvalue, ts ++ (step expressions v c).tokens⟩ := by
      rw [step, ← hcvalue, ← htokens]
      rfl
    rw [List.foldl_cons, hread, ih, scan, List.append_assoc]

/-- `tokenize` is a scan of the text without its comments. -/
lemma tokenize_eq_scan (expressions : Expressions) (s : Text) :
    tokenize expressions s = scan expressions [] (removeComments s) :=
  (foldl_readChar expressions (removeComments s) [] []).trans (List.nil_append _)

/-- The tokens that a text adds and the text that is open behind it. -/
def run (expressions : Expressions) : Text → Text → List (Token String Text) × Text
  | v, [] => ([], v)
  | v, c :: s =>
    let rest := run expressions (step expressions v c).cvalue s
    ((step expressions v c).tokens ++ rest.1, rest.2)

/-- A scan can be stopped anywhere. -/
lemma scan_append (v s s' : Text) : scan expressions v (s ++ s') =
    (run expressions v s).1 ++ scan expressions (run expressions v s).2 s' := by
  induction s generalizing v with
  | nil => rfl
  | cons c s ih => rw [List.cons_append, scan, run, ih, List.append_assoc]

/-- One more character. -/
lemma run_concat (v s : Text) (c : Char) : run expressions v (s ++ [c]) =
    ((run expressions v s).1 ++ (step expressions (run expressions v s).2 c).tokens,
      (step expressions (run expressions v s).2 c).cvalue) := by
  induction s generalizing v with
  | nil => simp [run]
  | cons d s ih => simp [run, ih]

/-- A character adds itself to what the tokens and the open text spell. -/
lemma values_step (v : Text) (c : Char) :
    values (step expressions v c).tokens ++ (step expressions v c).cvalue = v ++ [c] := by
  unfold step
  rcases checkToken_cases false expressions ⟨v, v ++ [c], []⟩ with
    ⟨t, e, -, -, hcheck⟩ | ⟨t, e, -, hsuffix, hcheck⟩ | ⟨hcheck, -⟩
  · rw [hcheck, accept_append t _ rfl, List.nil_append, values_singleton]
  · rw [hcheck, values_split hsuffix]
    exact List.append_nil _
  · rw [hcheck]
    rfl

/-- The tokens and the text that is open behind them spell what has been read. -/
lemma values_run (expressions : Expressions) (v s : Text) :
    values (run expressions v s).1 ++ (run expressions v s).2 = v ++ s := by
  induction s using List.reverseRecOn with
  | nil => exact (List.append_nil v).symm
  | append_singleton s c ih =>
    rw [run_concat, values_append, List.append_assoc, values_step, ← List.append_assoc, ih,
      List.append_assoc]

/-- **Where a token comes from**: the end of the text emits it, or a character does. -/
lemma exists_step_of_mem_scan {v s : Text} {ts us : List (Token String Text)}
    {token : Token String Text} (h : scan expressions v s = ts ++ token :: us) :
    (∃ as bs, scan expressions (run expressions v s).2 [] = as ++ token :: bs ∧
      ts = (run expressions v s).1 ++ as) ∨
    ∃ s₁ c s₂ as bs, s = s₁ ++ c :: s₂ ∧
      (step expressions (run expressions v s₁).2 c).tokens = as ++ token :: bs ∧
      ts = (run expressions v s₁).1 ++ as := by
  induction s generalizing v ts with
  | nil => exact Or.inl ⟨ts, us, h, rfl⟩
  | cons c s ih =>
    rw [scan, List.append_eq_append_iff] at h
    rcases h with ⟨as, rfl, hrest⟩ | ⟨bs, htokens, hrest⟩
    · rcases ih hrest with ⟨bs, cs, hend, rfl⟩ | ⟨s₁, d, s₂, bs, cs, rfl, hstep, rfl⟩
      · exact Or.inl ⟨bs, cs, hend, (List.append_assoc _ _ _).symm⟩
      · exact Or.inr ⟨c :: s₁, d, s₂, bs, cs, rfl, hstep, (List.append_assoc _ _ _).symm⟩
    · cases bs with
      | nil =>
        -- the token is the first one of the rest
        rw [List.append_nil] at htokens
        rcases ih (show scan expressions _ s = [] ++ token :: us from hrest.symm) with
          ⟨bs, cs, hend, has⟩ | ⟨s₁, d, s₂, bs, cs, rfl, hstep, has⟩
        · refine Or.inl ⟨bs, cs, hend, ?_⟩
          rw [run, List.append_assoc, ← has, List.append_nil, htokens]
        · refine Or.inr ⟨c :: s₁, d, s₂, bs, cs, rfl, hstep, ?_⟩
          rw [run, List.append_assoc, ← has, List.append_nil, htokens]
      | cons first bs =>
        obtain ⟨rfl, -⟩ := List.cons.inj hrest
        exact Or.inr ⟨[], c, s, ts, bs, rfl, htokens, rfl⟩

/-! ## Names of kinds -/

/-- No name of a kind stands in the text. -/
def NameFree (expressions : Expressions) (v : Text) : Prop :=
  ∀ t e, (t, e) ∈ expressions → ¬ t.toList <:+: v

/-- What stands in a text without names has none. -/
lemma NameFree.of_infix {v x : Text} (h : NameFree expressions v) (hx : x <:+: v) :
    NameFree expressions x :=
  fun t e ht hsub => h t e ht (hsub.trans hx)

/-- A text without names, and one more character that does not complete one. -/
lemma NameFree.concat {v : Text} {c : Char} (h : NameFree expressions v)
    (hsuffix : ∀ t e, (t, e) ∈ expressions → ¬ t.toList <:+ v ++ [c]) :
    NameFree expressions (v ++ [c]) := by
  intro t e ht hsub
  rcases List.infix_concat_iff.mp hsub with hsuf | hinf
  · exact hsuffix t e ht hsuf
  · exact h t e ht hinf

/-- No word goes on behind the end of the text. -/
def EndsOutside (v : Text) : Prop := ∀ c, v.getLast? = some c → isWordChar c = false

/-- A text that ends in a character that is not in words. -/
lemma endsOutside_concat {v : Text} {c : Char} (hc : isWordChar c = false) :
    EndsOutside (v ++ [c]) := by
  intro d hd
  rw [List.getLast?_concat, Option.some_inj] at hd
  exact hd ▸ hc

/-- The end of a text is its own. -/
lemma EndsOutside.of_suffix {v x : Text} (hx : EndsOutside x) (h : v <:+ x) : EndsOutside v := by
  obtain ⟨u, rfl⟩ := h
  intro c hc
  refine hx c ?_
  rw [List.getLast?_append, hc]
  rfl

/-- The names of the kinds are words of two letters or more, and no expression matches the empty
text. -/
structure WellNamed (expressions : Expressions) : Prop where
  /-- No name is a single letter. -/
  two_le : ∀ t e, (t, e) ∈ expressions → 2 ≤ t.toList.length
  /-- Names are words. -/
  word : ∀ t e, (t, e) ∈ expressions → ∀ c ∈ t.toList, isWordChar c = true
  /-- Tokens have a text. -/
  not_reMatch_nil : ∀ t e, (t, e) ∈ expressions → e.reMatch [] = false

namespace WellNamed

variable (h : WellNamed expressions)

include h

/-- A name is not empty. -/
lemma ne_nil {t : String} {e : Pattern} (ht : (t, e) ∈ expressions) : t.toList ≠ [] := by
  intro hnil
  have hlength := h.two_le t e ht
  rw [hnil] at hlength
  exact absurd hlength (by decide)

/-- No name stands in the empty text. -/
lemma nameFree_nil : NameFree expressions [] :=
  fun _ _ ht hsub => h.ne_nil ht (List.eq_nil_of_infix_nil hsub)

/-- No name stands in a text of one character. -/
lemma nameFree_singleton (c : Char) : NameFree expressions [c] := by
  intro t e ht hsub
  have hlength := hsub.length_le
  have hle := h.two_le t e ht
  rw [List.length_singleton] at hlength
  omega

/-- A name at the end of a text stands behind every character that is not in words. -/
lemma suffix_of_suffix_append {t : String} {e : Pattern} {v x : Text} (ht : (t, e) ∈ expressions)
    (hv : EndsOutside v) (hsuffix : t.toList <:+ v ++ x) : t.toList <:+ x := by
  rcases List.suffix_or_suffix_of_suffix hsuffix (List.suffix_append v x) with hx | ⟨y, hy⟩
  · exact hx
  · rcases List.eq_nil_or_concat y with rfl | ⟨z, c, rfl⟩
    · exact ⟨[], hy.symm⟩
    · -- the last character of `v` would stand in the name
      rw [← hy, List.suffix_append_self_iff] at hsuffix
      have hlast : v.getLast? = some c := by
        obtain ⟨u, rfl⟩ := hsuffix
        simp
      have hc := h.word t e ht c (by simp [← hy])
      rw [hv c hlast] at hc
      exact absurd hc (by decide)

/-- No name ends in a character that is not in words. -/
lemma not_suffix_concat {t : String} {e : Pattern} {v : Text} {c : Char}
    (ht : (t, e) ∈ expressions) (hc : isWordChar c = false) : ¬ t.toList <:+ v ++ [c] := by
  intro hsuffix
  rw [← List.append_nil (v ++ [c])] at hsuffix
  have hnil := h.suffix_of_suffix_append ht (endsOutside_concat hc) hsuffix
  exact h.ne_nil ht (List.eq_nil_of_suffix_nil hnil)

/-- Characters that are not in words complete no name. -/
lemma nameFree_append_outside {v x : Text} (hfree : NameFree expressions v)
    (hx : ∀ c ∈ x, isWordChar c = false) : NameFree expressions (v ++ x) := by
  induction x using List.reverseRecOn with
  | nil => rwa [List.append_nil]
  | append_singleton x c ih =>
    rw [← List.append_assoc]
    refine NameFree.concat (ih fun d hd => hx d (List.mem_append_left _ hd)) fun t e ht => ?_
    exact h.not_suffix_concat ht (hx c (List.mem_append_right _ List.mem_cons_self))

/-- No name stands in a text without names and a word without names behind it. -/
lemma nameFree_append {v x : Text} (hv : EndsOutside v) (hfree : NameFree expressions v)
    (hx : NameFree expressions x) : NameFree expressions (v ++ x) := by
  induction x using List.reverseRecOn with
  | nil => rwa [List.append_nil]
  | append_singleton x c ih =>
    rw [← List.append_assoc]
    refine NameFree.concat (ih (hx.of_infix (List.prefix_append x [c]).isInfix)) ?_
    intro t e ht hsuffix
    rw [List.append_assoc] at hsuffix
    exact hx t e ht (h.suffix_of_suffix_append ht hv hsuffix).isInfix

end WellNamed

/-! ## What a character does -/

/-- What is emitted when a name is cut off behind a text. -/
def cutTokens (exp : Text) (t : String) : List (Token String Text) :=
  (if exp = [] then [] else [⟨"EXPRESSION", exp⟩]) ++ [⟨t, t.toList⟩]

/-- Kinds that accept nothing and that the text does not end in are passed over. -/
lemma checkToken_append {force : Bool} {before after : Expressions} {z : Tokenizer}
    (h : ∀ t e, (t, e) ∈ before → ¬ Accepts force t e z ∧ ¬ t.toList <:+ z.cvalue) :
    checkToken force (before ++ after) z = checkToken force after z := by
  induction before with
  | nil => rfl
  | cons entry before ih =>
    obtain ⟨haccepts, hsuffix⟩ := h entry.1 entry.2 List.mem_cons_self
    rw [List.cons_append, checkToken, if_neg haccepts, if_neg, ih]
    · exact fun t e ht => h t e (List.mem_cons_of_mem _ ht)
    · exact fun hname => hsuffix (List.isSuffixOf_iff_suffix.mp hname)

/-- **What the next character can do** when a text without names is open: it ends a token, it
completes a name, or it stays open too. -/
lemma step_cases {v : Text} (hfree : NameFree expressions v) (c : Char) :
    (∃ t e, (t, e) ∈ expressions ∧ e.reMatch v = true ∧ ¬ e.reMatch (v ++ [c]) = true ∧
      step expressions v c = ⟨[c], [c], [⟨t, v⟩]⟩) ∨
    (∃ t e exp, (t, e) ∈ expressions ∧ v ++ [c] = exp ++ t.toList ∧
      step expressions v c = ⟨v, [], cutTokens exp t⟩) ∨
    (step expressions v c = ⟨v, v ++ [c], []⟩ ∧ NameFree expressions (v ++ [c]) ∧
      ∀ t e, (t, e) ∈ expressions → e.reMatch v = true → e.reMatch (v ++ [c]) = true) := by
  rcases checkToken_cases false expressions ⟨v, v ++ [c], []⟩ with
    ⟨t, e, ht, haccepts, hcheck⟩ | ⟨t, e, ht, ⟨exp, hexp⟩, hcheck⟩ | ⟨hcheck, hall⟩
  · refine Or.inl ⟨t, e, ht, ?_⟩
    rcases haccepts with ⟨hforce, -⟩ | ⟨hmatch, hnot⟩ | heq
    · exact absurd hforce Bool.false_ne_true
    · exact ⟨hmatch, hnot, hcheck.trans (accept_append t _ rfl)⟩
    · exact absurd heq fun heq => hfree t e ht (heq ▸ List.infix_rfl)
  · change exp ++ t.toList = v ++ [c] at hexp
    refine Or.inr (Or.inl ⟨t, e, exp, ht, hexp.symm, hcheck.trans ?_⟩)
    have htake : (v ++ [c]).take ((v ++ [c]).length - t.toList.length) = exp := by
      rw [← hexp, List.length_append, Nat.add_sub_cancel, List.take_left]
    rw [split, htake]
    rfl
  · refine Or.inr (Or.inr ⟨hcheck, hfree.concat fun t e ht => (hall t e ht).2, ?_⟩)
    intro t e ht hmatch
    by_contra hnot
    exact (hall t e ht).1 (Or.inr (Or.inl ⟨hmatch, hnot⟩))

/-- **What the end of the text can do**: an expression matches what is open and ends it, or none
does and it is dropped. -/
lemma flush_cases {v : Text} (hfree : NameFree expressions v) :
    (∃ t e, (t, e) ∈ expressions ∧ e.reMatch v = true ∧ scan expressions v [] = [⟨t, v⟩]) ∨
      scan expressions v [] = [] ∧ ∀ t e, (t, e) ∈ expressions → e.reMatch v = false := by
  rcases checkToken_cases true expressions ⟨v, v, []⟩ with
    ⟨t, e, ht, haccepts, hcheck⟩ | ⟨t, e, ht, hsuffix, -⟩ | ⟨hcheck, hall⟩
  · refine Or.inl ⟨t, e, ht, ?_, ?_⟩
    · rcases haccepts with ⟨-, hmatch⟩ | ⟨hmatch, hnot⟩ | heq
      · exact hmatch
      · exact hmatch
      · exact absurd heq fun heq => hfree t e ht (heq ▸ List.infix_rfl)
    · rw [scan, hcheck, tokens_accept]
      rfl
  · exact absurd hsuffix.isInfix (hfree t e ht)
  · refine Or.inr ⟨by rw [scan, hcheck], fun t e ht => ?_⟩
    rw [Bool.eq_false_iff]
    exact fun hmatch => (hall t e ht).1 (Or.inl ⟨rfl, hmatch⟩)

/-- A token that is cut off behind a text is the text or the name of a kind. -/
lemma eq_of_mem_cutTokens {exp : Text} {t : String} {as bs : List (Token String Text)}
    {token : Token String Text} (h : cutTokens exp t = as ++ token :: bs) :
    token.token = "EXPRESSION" ∨ token.value = token.token.toList := by
  have hmem : token ∈ cutTokens exp t := by
    rw [h]
    exact List.mem_append_right _ List.mem_cons_self
  rcases List.mem_append.mp hmem with hexp | hname
  · split at hexp
    · exact absurd hexp List.not_mem_nil
    · rw [List.mem_singleton.mp hexp]
      exact Or.inl rfl
  · rw [List.mem_singleton.mp hname]
    exact Or.inr rfl

namespace WellNamed

variable (h : WellNamed expressions)

include h

/-- No name stands in the open text. -/
lemma nameFree_run (s : Text) : NameFree expressions (run expressions [] s).2 := by
  induction s using List.reverseRecOn with
  | nil => exact h.nameFree_nil
  | append_singleton s c ih =>
    rw [run_concat]
    rcases step_cases ih c with ⟨t, e, -, -, -, hstep⟩ | ⟨t, e, exp, -, -, hstep⟩ | ⟨hstep, hfree, -⟩
    · rw [hstep]
      exact h.nameFree_singleton c
    · rw [hstep]
      exact h.nameFree_nil
    · rw [hstep]
      exact hfree

/-- **What a token is**: a text that is open at some place and that an expression of its kind
matches, but not with the next character; or a piece that is cut off. -/
lemma token_cases {s : Text} {ts us : List (Token String Text)} {token : Token String Text}
    (hscan : scan expressions [] s = ts ++ token :: us) :
    (∃ e rest, (token.token, e) ∈ expressions ∧ e.reMatch token.value = true ∧
      run expressions [] (values ts ++ token.value) = (ts, token.value) ∧
      s = values ts ++ token.value ++ rest ∧
      ∀ c, rest.head? = some c → ¬ e.reMatch (token.value ++ [c]) = true) ∨
    token.token = "EXPRESSION" ∨ token.value = token.token.toList := by
  rcases exists_step_of_mem_scan hscan with
    ⟨as, bs, hend, rfl⟩ | ⟨s₁, c, s₂, as, bs, rfl, htokens, rfl⟩
  · rcases flush_cases (h.nameFree_run s) with ⟨t, e, ht, hmatch, hflush⟩ | ⟨hflush, -⟩
    · rw [hflush, List.singleton_eq_append_iff] at hend
      rcases hend with ⟨rfl, heq⟩ | ⟨-, heq⟩
      · obtain ⟨rfl, -⟩ := List.cons.inj heq
        refine Or.inl ⟨e, [], ht, hmatch, ?_, ?_, fun c hc => absurd hc (by simp)⟩
        · rw [List.append_nil, values_run expressions]
          rfl
        · rw [List.append_nil, List.append_nil, values_run expressions]
          rfl
      · exact absurd heq (List.cons_ne_nil _ _)
    · rw [hflush] at hend
      exact absurd hend.symm (List.append_ne_nil_of_right_ne_nil _ (List.cons_ne_nil _ _))
  · rcases step_cases (h.nameFree_run s₁) c with
      ⟨t, e, ht, hmatch, hnot, hstep⟩ | ⟨t, e, exp, -, -, hstep⟩ | ⟨hstep, -, -⟩
    · rw [hstep, List.singleton_eq_append_iff] at htokens
      rcases htokens with ⟨rfl, heq⟩ | ⟨-, heq⟩
      · obtain ⟨rfl, -⟩ := List.cons.inj heq
        have hspell := values_run expressions [] s₁
        refine Or.inl ⟨e, c :: s₂, ht, hmatch, ?_, ?_, ?_⟩
        · rw [List.append_nil, hspell]
          rfl
        · rw [List.append_nil, hspell]
          rfl
        · intro d hd
          rw [List.head?_cons, Option.some_inj] at hd
          exact hd ▸ hnot
      · exact absurd heq (List.cons_ne_nil _ _)
    · rw [hstep] at htokens
      exact Or.inr (eq_of_mem_cutTokens htokens)
    · rw [hstep] at htokens
      exact absurd htokens.symm (List.append_ne_nil_of_right_ne_nil _ (List.cons_ne_nil _ _))

/-- The first character stays open. -/
lemma step_nil (c : Char) : step expressions [] c = ⟨[], [c], []⟩ := by
  rcases step_cases h.nameFree_nil c with
    ⟨t, e, ht, hmatch, -, -⟩ | ⟨t, e, exp, ht, hcut, -⟩ | ⟨hstep, -, -⟩
  · exact absurd hmatch (by rw [h.not_reMatch_nil t e ht]; decide)
  · have hsuffix : t.toList <:+ [c] := ⟨exp, hcut.symm⟩
    exact absurd hsuffix.isInfix (h.nameFree_singleton c t e ht)
  · exact hstep

/-- A scan with nothing open begins with the first character. -/
lemma scan_nil_cons (c : Char) (s : Text) :
    scan expressions [] (c :: s) = scan expressions [c] s := by
  rw [scan, h.step_nil]
  rfl

/-- There is nothing to emit. -/
lemma scan_nil : scan expressions [] [] = [] := by
  rcases flush_cases h.nameFree_nil with ⟨t, e, ht, hmatch, -⟩ | ⟨hscan, -⟩
  · exact absurd hmatch (by rw [h.not_reMatch_nil t e ht]; decide)
  · exact hscan

/-- **A text of one kind becomes a token** where the expression of the kind stops matching, and the
scan goes on with nothing open. -/
lemma scan_token {t : String} {e : Pattern} {v s : Text} (hfree : NameFree expressions v)
    (ht : (t, e) ∈ expressions) (hmatch : e.reMatch v = true)
    (hkind : ∀ t' e', (t', e') ∈ expressions → e'.reMatch v = true → t' = t)
    (hnext : ∀ c, s.head? = some c → ¬ e.reMatch (v ++ [c]) = true ∧
      ∀ t' e', (t', e') ∈ expressions → ¬ t'.toList <:+ v ++ [c]) :
    scan expressions v s = ⟨t, v⟩ :: scan expressions [] s := by
  cases s with
  | nil =>
    rcases flush_cases hfree with ⟨t', e', ht', hmatch', hscan⟩ | ⟨-, hnone⟩
    · rw [hscan, h.scan_nil, hkind t' e' ht' hmatch']
    · exact absurd (hnone t e ht) (by rw [hmatch]; decide)
  | cons c s =>
    obtain ⟨hstops, hname⟩ := hnext c rfl
    rcases step_cases hfree c with
      ⟨t', e', ht', hmatch', -, hstep⟩ | ⟨t', e', exp, ht', hcut, -⟩ | ⟨-, -, hkeep⟩
    · rw [scan, hstep, h.scan_nil_cons, hkind t' e' ht' hmatch']
      rfl
    · exact absurd ⟨exp, hcut.symm⟩ (hname t' e' ht')
    · exact absurd (hkeep t e ht hmatch) hstops

/-- If every character is matched by an expression, so is the open text. -/
lemma reMatch_run {s : Text}
    (hchar : ∀ c ∈ s, ∃ t e, (t, e) ∈ expressions ∧ e.reMatch [c] = true) :
    (run expressions [] s).2 = [] ∨
      ∃ t e, (t, e) ∈ expressions ∧ e.reMatch (run expressions [] s).2 = true := by
  induction s using List.reverseRecOn with
  | nil => exact Or.inl rfl
  | append_singleton s c ih =>
    have hlast := hchar c (List.mem_append_right _ List.mem_cons_self)
    rw [run_concat]
    rcases step_cases (h.nameFree_run s) c with
      ⟨t, e, -, -, -, hstep⟩ | ⟨t, e, exp, -, -, hstep⟩ | ⟨hstep, -, hkeep⟩
    · rw [hstep]
      exact Or.inr hlast
    · rw [hstep]
      exact Or.inl rfl
    · rw [hstep]
      rcases ih fun d hd => hchar d (List.mem_append_left _ hd) with hnil | ⟨t, e, ht, hmatch⟩
      · rw [hnil]
        exact Or.inr hlast
      · exact Or.inr ⟨t, e, ht, hkeep t e ht hmatch⟩

/-- **If every character is matched by an expression, nothing is lost.** -/
lemma values_scan {s : Text}
    (hchar : ∀ c ∈ s, ∃ t e, (t, e) ∈ expressions ∧ e.reMatch [c] = true) :
    values (scan expressions [] s) = s := by
  have hspell := values_run expressions [] s
  have hscan : scan expressions [] (s ++ []) = (run expressions [] s).1 ++
      scan expressions (run expressions [] s).2 [] := scan_append [] s []
  have hflush : values (scan expressions (run expressions [] s).2 []) =
      (run expressions [] s).2 := by
    rcases flush_cases (h.nameFree_run s) with ⟨t, e, -, -, hflush⟩ | ⟨hflush, hnone⟩
    · rw [hflush, values_singleton]
    · rcases h.reMatch_run hchar with hnil | ⟨t, e, ht, hmatch⟩
      · rw [hnil, h.scan_nil]
        rfl
      · exact absurd hmatch (by rw [hnone t e ht]; decide)
  rw [List.append_nil] at hscan
  rw [hscan, values_append, hflush, hspell, List.nil_append]

end WellNamed

end Tokenizer

end NaoSoccer
