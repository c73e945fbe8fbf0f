import NaoSoccer.Schema.Tokenizer

/-!
# Comments in one pass and in two

C++ finds comments in one pass: the first opener that is reached wins, and openers inside of a
comment mean nothing.  `Tokenizer.remove_comments` makes two passes, `//` comments first.  So a `//`
inside of a block comment takes the rest of its line with it, the end of the comment included, and
so does the `/` of an end with another `/` behind it.  Where no end is hidden like this, both
remove the same.

A block comment without an end is no comment in either reading.
-/

namespace NaoSoccer

/-! ## The rule -/

/-- Where a scan of a source text is. -/
inductive CommentMode
  /-- Outside of comments. -/
  | code
  /-- In a comment up to the end of the line. -/
  | line
  /-- In a comment up to the next `*/`. -/
  | block
  deriving DecidableEq

/-- What a scan from left to right leaves of a text without literals. -/
def stripComments : CommentMode → Text → Text
  | _, [] => []
  | .code, '/' :: '/' :: s => stripComments .line s
  | .code, '/' :: '*' :: s =>
    if hasCommentEnd s then stripComments .block s else '/' :: stripComments .code ('*' :: s)
  | .code, c :: s => c :: stripComments .code s
  | .line, c :: s => if c = '\n' then c :: stripComments .code s else stripComments .line s
  | .block, '*' :: '/' :: s => stripComments .code s
  | .block, _ :: s => stripComments .block s

/-- No end of a block comment that the scan reaches is hidden: it has no `//` in front of it on its
line inside of the comment, which the flag notes, and no `/` behind it. -/
def EndsVisible : CommentMode → Bool → Text → Prop
  | _, _, [] => True
  | .code, _, '/' :: '/' :: s => EndsVisible .line false s
  | .code, _, '/' :: '*' :: s =>
    if hasCommentEnd s then EndsVisible .block false s else EndsVisible .code false ('*' :: s)
  | .code, _, _ :: s => EndsVisible .code false s
  | .line, _, c :: s => EndsVisible (if c = '\n' then .code else .line) false s
  | .block, slashes, '*' :: '/' :: s =>
    slashes = false ∧ s.head? ≠ some '/' ∧ EndsVisible .code false s
  | .block, _, '/' :: '/' :: s => EndsVisible .block true s
  | .block, slashes, c :: s => EndsVisible .block (slashes && c ≠ '\n') s

/-- What the two passes of `remove_comments` leave of the rest of a text; in a block comment the
first pass is inside of a `//` where the flag says so. -/
def twoPasses : CommentMode → Bool → Text → Text
  | .code, _, s => removeBlockComments false (removeLineComments false s)
  | .line, _, s => removeBlockComments false (removeLineComments true s)
  | .block, slashes, s => removeBlockComments true (removeLineComments slashes s)

/-! ## One character of each pass -/

/-- A text that does not begin with two characters. -/
lemma not_begins {c first second : Char} {s : Text}
    (h : ∀ rest, c = first → s = second :: rest → False) :
    ¬ (c = first ∧ s.head? = some second) := by
  rintro ⟨hc, hhead⟩
  obtain ⟨rest, hrest⟩ := List.head?_eq_some_iff.mp hhead
  exact h rest hc hrest

/-- A character that does not begin a `//`. -/
lemma removeLineComments_cons {c : Char} {s : Text} (h : ¬ (c = '/' ∧ s.head? = some '/')) :
    removeLineComments false (c :: s) = c :: removeLineComments false s := by
  rw [removeLineComments]
  rintro rest rfl rfl
  exact h ⟨rfl, rfl⟩

/-- A character that does not begin a block comment. -/
lemma removeBlockComments_cons {c : Char} {s : Text} (h : ¬ (c = '/' ∧ s.head? = some '*')) :
    removeBlockComments false (c :: s) = c :: removeBlockComments false s := by
  rw [removeBlockComments]
  rintro rest rfl rfl
  exact h ⟨rfl, rfl⟩

/-- A text without slashes has no comments. -/
lemma removeComments_of_notMem {s : Text} (h : '/' ∉ s) : removeComments s = s := by
  have hline : removeLineComments false s = s := by
    induction s with
    | nil => rfl
    | cons c s ih =>
      obtain ⟨hc, hs⟩ := List.ne_and_not_mem_of_not_mem_cons h
      rw [removeLineComments_cons fun heq => hc heq.1.symm, ih hs]
  rw [removeComments, hline]
  clear hline
  induction s with
  | nil => rfl
  | cons c s ih =>
    obtain ⟨hc, hs⟩ := List.ne_and_not_mem_of_not_mem_cons h
    rw [removeBlockComments_cons fun heq => hc heq.1.symm, ih hs]

/-- A character that does not end a block comment. -/
lemma removeBlockComments_inside {c : Char} {s : Text} (h : ¬ (c = '*' ∧ s.head? = some '/')) :
    removeBlockComments true (c :: s) = removeBlockComments true s := by
  rw [removeBlockComments]
  rintro rest rfl rfl
  exact h ⟨rfl, rfl⟩

/-- A text that does not begin with a slash still begins with the same character. -/
lemma head?_removeLineComments {s : Text} (h : s.head? ≠ some '/') :
    (removeLineComments false s).head? = s.head? := by
  rcases s with _ | ⟨c, s⟩
  · rfl
  · rw [removeLineComments_cons fun heq => h (by rw [heq.1]; rfl)]
    rfl

/-- The rest of a text whose first character is code. -/
lemma endsVisible_code {slashes : Bool} {c : Char} {s : Text}
    (hline : ∀ rest, c = '/' → s = '/' :: rest → False)
    (hblock : ∀ rest, c = '/' → s = '*' :: rest → False)
    (h : EndsVisible .code slashes (c :: s)) : EndsVisible .code false s := by
  rw [EndsVisible] at h
  · exact h
  · exact hline
  · exact hblock

/-- The rest of a text whose first character is inside of a block comment. -/
lemma endsVisible_block {slashes : Bool} {c : Char} {s : Text}
    (hstar : ∀ rest, c = '*' → s = '/' :: rest → False)
    (hslash : ∀ rest, c = '/' → s = '/' :: rest → False)
    (h : EndsVisible .block slashes (c :: s)) : EndsVisible .block (slashes && c ≠ '\n') s := by
  rw [EndsVisible] at h
  · exact h
  · exact hstar
  · exact hslash

/-- An end of a comment stands in front or behind the first character. -/
lemma hasCommentEnd_cons {c : Char} {s : Text} :
    hasCommentEnd (c :: s) = true ↔ c = '*' ∧ s.head? = some '/' ∨ hasCommentEnd s = true := by
  by_cases h : c = '*' ∧ s.head? = some '/'
  · obtain ⟨rfl, hhead⟩ := h
    obtain ⟨rest, rfl⟩ := List.head?_eq_some_iff.mp hhead
    simp [hasCommentEnd]
  · rw [hasCommentEnd, or_iff_right h]
    rintro rest rfl rfl
    exact h ⟨rfl, rfl⟩

/-- Removing line comments makes no end of a block comment. -/
lemma hasCommentEnd_of_removeLineComments {inside : Bool} {s : Text}
    (h : hasCommentEnd (removeLineComments inside s) = true) : hasCommentEnd s = true := by
  induction inside, s using removeLineComments.induct with
  | case1 => exact absurd h Bool.false_ne_true
  | case2 s ih =>
    rw [removeLineComments, if_pos rfl, hasCommentEnd_cons] at h
    rcases h with ⟨hstar, -⟩ | h
    · exact absurd hstar (by decide)
    · exact hasCommentEnd_cons.mpr (Or.inr (ih h))
  | case3 c s hc ih =>
    rw [removeLineComments, if_neg hc] at h
    exact hasCommentEnd_cons.mpr (Or.inr (ih h))
  | case4 s ih =>
    rw [removeLineComments] at h
    exact hasCommentEnd_cons.mpr (Or.inr (hasCommentEnd_cons.mpr (Or.inr (ih h))))
  | case5 c s hslashes ih =>
    rw [removeLineComments_cons (not_begins hslashes), hasCommentEnd_cons] at h
    refine hasCommentEnd_cons.mpr (h.imp ?_ ih)
    rintro ⟨hstar, hhead⟩
    refine ⟨hstar, ?_⟩
    by_contra hnot
    rw [head?_removeLineComments hnot] at hhead
    exact hnot hhead

/-- **A visible end of a block comment stays** when line comments are removed. -/
lemma hasCommentEnd_removeLineComments {slashes : Bool} {s : Text}
    (h : EndsVisible .block slashes s) (hend : hasCommentEnd s = true) :
    hasCommentEnd (removeLineComments slashes s) = true := by
  generalize hmode : CommentMode.block = mode at h
  induction mode, slashes, s using EndsVisible.induct with
  | case1 mode slashes => exact absurd hend Bool.false_ne_true
  | case2 | case3 | case4 | case5 | case6 => exact absurd hmode (by simp)
  | case7 slashes s ih =>
    obtain ⟨rfl, hhead, -⟩ := h
    rw [removeLineComments_cons (by simp), removeLineComments_cons (by simp [hhead])]
    exact hasCommentEnd_cons.mpr (Or.inl ⟨rfl, rfl⟩)
  | case8 slashes s ih =>
    rw [hasCommentEnd_cons, or_iff_right (by simp), hasCommentEnd_cons,
      or_iff_right (by simp)] at hend
    cases slashes with
    | false => exact ih hend rfl h
    | true => exact ih hend rfl h
  | case9 slashes c s hstar hslash ih =>
    rw [hasCommentEnd_cons, or_iff_right (not_begins hstar)] at hend
    have hrest := ih hend rfl (endsVisible_block hstar hslash h)
    cases slashes with
    | false =>
      rw [removeLineComments_cons (not_begins hslash)]
      exact hasCommentEnd_cons.mpr (Or.inr hrest)
    | true =>
      rw [removeLineComments]
      split
      next hc =>
        rw [hc] at hrest
        exact hasCommentEnd_cons.mpr (Or.inr hrest)
      next hc =>
        simpa [hc] using hrest

/-- **Two passes remove what one pass removes**, from wherever the scan is. -/
theorem twoPasses_eq {mode : CommentMode} {slashes : Bool} {s : Text}
    (h : EndsVisible mode slashes s) (hend : mode = .block → hasCommentEnd s = true) :
    twoPasses mode slashes s = stripComments mode s := by
  induction mode, slashes, s using EndsVisible.induct with
  | case1 mode slashes =>
    cases mode <;> simp [twoPasses, removeLineComments, removeBlockComments, stripComments]
  | case2 x s ih =>
    rw [EndsVisible] at h
    rw [stripComments, ← ih h (by simp), twoPasses, removeLineComments, twoPasses]
  | case3 x s hcomment ih =>
    rw [EndsVisible, if_pos hcomment] at h
    have hstays := hasCommentEnd_removeLineComments h hcomment
    rw [stripComments, if_pos hcomment, ← ih h fun _ => hcomment, twoPasses, twoPasses,
      removeLineComments_cons (by simp), removeLineComments_cons (by simp), removeBlockComments,
      if_pos hstays]
  | case4 x s hcomment ih =>
    rw [EndsVisible, if_neg hcomment] at h
    have hnone : ¬ hasCommentEnd (removeLineComments false s) = true :=
      mt hasCommentEnd_of_removeLineComments hcomment
    rw [stripComments, if_neg hcomment, ← ih h (by simp), twoPasses, twoPasses,
      removeLineComments_cons (by simp), removeLineComments_cons (by simp), removeBlockComments,
      if_neg hnone]
  | case5 x c s hline hblock ih =>
    have hcode : stripComments .code (c :: s) = c :: stripComments .code s := by
      rw [stripComments]
      · exact hline
      · exact hblock
    have hhead : ¬ (c = '/' ∧ (removeLineComments false s).head? = some '*') := by
      rintro ⟨hc, hstar⟩
      rw [head?_removeLineComments fun hs => not_begins hline ⟨hc, hs⟩] at hstar
      exact not_begins hblock ⟨hc, hstar⟩
    rw [hcode, ← ih (endsVisible_code hline hblock h) (by simp), twoPasses, twoPasses,
      removeLineComments_cons (not_begins hline), removeBlockComments_cons hhead]
  | case6 x c s ih =>
    rw [EndsVisible] at h
    have hrest := ih h (by split <;> simp)
    rw [twoPasses, removeLineComments, stripComments]
    split
    next hc =>
      rw [if_pos hc] at hrest
      rw [removeBlockComments_cons (by simp [hc]), ← hrest, twoPasses]
    next hc =>
      rw [if_neg hc] at hrest
      rw [← hrest, twoPasses]
  | case7 slashes s ih =>
    obtain ⟨rfl, hhead, h⟩ := h
    rw [stripComments, ← ih h (by simp), twoPasses, twoPasses, removeLineComments_cons (by simp),
      removeLineComments_cons (by simp [hhead]), removeBlockComments]
  | case8 x s ih =>
    have hrest := hend rfl
    rw [hasCommentEnd_cons, or_iff_right (by simp), hasCommentEnd_cons,
      or_iff_right (by simp)] at hrest
    have hskip : stripComments .block ('/' :: '/' :: s) = stripComments .block s := by
      simp [stripComments]
    have hpass : removeLineComments x ('/' :: '/' :: s) = removeLineComments true s := by
      cases x <;> simp [removeLineComments]
    rw [EndsVisible] at h
    rw [hskip, ← ih h fun _ => hrest, twoPasses, twoPasses, hpass]
  | case9 slashes c s hstar hslash ih =>
    have hrest := hend rfl
    rw [hasCommentEnd_cons, or_iff_right (not_begins hstar)] at hrest
    have hskip : stripComments .block (c :: s) = stripComments .block s := by
      rw [stripComments]
      exact hstar
    rw [hskip, ← ih (endsVisible_block hstar hslash h) fun _ => hrest, twoPasses, twoPasses]
    cases slashes with
    | false =>
      have hhead : ¬ (c = '*' ∧ (removeLineComments false s).head? = some '/') := by
        rintro ⟨hc, hend⟩
        have hne : s.head? ≠ some '/' := fun hs => not_begins hstar ⟨hc, hs⟩
        rw [head?_removeLineComments hne] at hend
        exact hne hend
      rw [removeLineComments_cons (not_begins hslash), removeBlockComments_inside hhead,
        Bool.false_and]
    | true =>
      rw [removeLineComments]
      split
      next hc =>
        rw [removeBlockComments_inside (by simp [hc])]
        simp [hc]
      next hc => simp [hc]

/-- **Where no end of a block comment is hidden**, `remove_comments` agrees with the scan. -/
theorem removeComments_eq_of_endsVisible {s : Text} (h : EndsVisible .code false s) :
    removeComments s = stripComments .code s :=
  twoPasses_eq h (by simp)

/-- A block comment, a line comment and code between them. -/
theorem removeComments_eq_of_endsVisible_both :
    removeComments "/* a */ x // y".toList = stripComments .code "/* a */ x // y".toList :=
  removeComments_eq_of_endsVisible (by simp [EndsVisible, hasCommentEnd])

-- with a hidden end both can still leave the same, here the text of an opener without an end
example : removeComments "/*a//*//*a".toList = stripComments .code "/*a//*//*a".toList := by
  decide +kernel

/-- The text has no quotes, so no literals. -/
def LiteralFree (s : Text) : Prop := ∀ c ∈ s, c ≠ '\x22' ∧ c ≠ '\x27'

/-- A `//` in a block comment hides its end from `remove_comments`. -/
theorem not_removeComments_eq_hidden :
    ¬ ∀ s, LiteralFree s → removeComments s = stripComments .code s := by
  intro h
  have hfree : LiteralFree "/* // */ x".toList := by
    have hall : ("/* // */ x".toList).all (fun c => c ≠ '\x22' ∧ c ≠ '\x27') = true := by
      decide
    exact fun c hc => of_decide_eq_true (List.all_eq_true.mp hall c hc)
  exact absurd (h _ hfree) (by decide +kernel)

end NaoSoccer
