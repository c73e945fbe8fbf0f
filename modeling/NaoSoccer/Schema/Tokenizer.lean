import NaoSoccer.Foundation.Text
import NaoSoccer.Schema.Parser

/-!
# The tokenizer

`Tokenizer.tokenize` walks over a text one character at a time.  `cvalue` is the text read since
the last token and `pvalue` the same without the last character.  After each character
`checkToken` goes through the token kinds and emits `pvalue` as a token of the first kind whose
expression matches `pvalue` but not `cvalue`, so a token ends where its expression stops matching.
A text that ends in the *name* of a kind is also cut off there.

The expressions of the schema tokenizer are fixed texts and nonempty runs of a class of characters,
which is all that `Pattern` has.  They are matched with `^` and `$` around them, and `$` also
matches before a newline at the end, so `Pattern.reMatch` lets one newline pass.

`tokenize_values` says that the tokens spell the text without its comments: no character is lost
and none is invented.
-/

namespace NaoSoccer

/-! ## Regular expressions -/

/-- A regular expression of a tokenizer. -/
inductive Pattern
  /-- A fixed text. -/
  | literal (text : Text)
  /-- One or more characters of a class. -/
  | plus (cls : Char → Bool)

namespace Pattern

/-- The expression matches the whole text. -/
def fullmatch : Pattern → Text → Bool
  | literal text, s => s == text
  | plus cls, s => !s.isEmpty && s.all cls

/-- `re.match('^' + e + '$', s, re.DOTALL)`: the expression matches the text, or all of it but a
newline at the end. -/
def reMatch (e : Pattern) (s : Text) : Bool :=
  e.fullmatch s || s.getLast? == some '\n' && e.fullmatch s.dropLast

end Pattern

/-! ## Comments -/

/-- What `re.sub` leaves when it removes `//.*$` in every line; the flag says that the text begins
inside of a comment. -/
def removeLineComments : Bool → Text → Text
  | _, [] => []
  | true, c :: s => if c = '\n' then c :: removeLineComments false s else removeLineComments true s
  | false, '/' :: '/' :: s => removeLineComments true s
  | false, c :: s => c :: removeLineComments false s

/-- The text has the end of a comment. -/
def hasCommentEnd : Text → Bool
  | [] => false
  | '*' :: '/' :: _ => true
  | _ :: s => hasCommentEnd s

/-- What `re.sub` leaves when it removes `/\*.*?\*/`, across lines; the flag says that the text
begins inside of a comment.  A comment that does not end is no match and stays. -/
def removeBlockComments : Bool → Text → Text
  | _, [] => []
  | true, '*' :: '/' :: s => removeBlockComments false s
  | true, _ :: s => removeBlockComments true s
  | false, '/' :: '*' :: s =>
    if hasCommentEnd s then removeBlockComments true s
    else '/' :: removeBlockComments false ('*' :: s)
  | false, c :: s => c :: removeBlockComments false s

/-- `Tokenizer.remove_comments` -/
def removeComments (s : Text) : Text := removeBlockComments false (removeLineComments false s)

/-! ## Tokens -/

/-- The expressions of a tokenizer with the names of their kinds, in order. -/
abbrev Expressions := List (String × Pattern)

/-- The fields of a `Tokenizer` that `tokenize` changes. -/
structure Tokenizer where
  /-- The text before the last character was read. -/
  pvalue : Text
  /-- The text read since the last token. -/
  cvalue : Text
  /-- The tokens so far. -/
  tokens : List (Token String Text)

namespace Tokenizer

/-- The first three tests for a kind in `checkToken`: `pvalue` is a token of it. -/
def Accepts (force : Bool) (t : String) (e : Pattern) (z : Tokenizer) : Prop :=
  (force ∧ e.reMatch z.cvalue) ∨ (e.reMatch z.pvalue ∧ ¬ e.reMatch z.cvalue) ∨
    t.toList = z.pvalue

instance (force : Bool) (t : String) (e : Pattern) (z : Tokenizer) :
    Decidable (Accepts force t e z) :=
  inferInstanceAs (Decidable (_ ∨ _))

/-- A token with the text `pvalue`; the last character, if there is one, is kept for the next. -/
def accept (t : String) (z : Tokenizer) : Tokenizer :=
  let tokens := z.tokens ++ [⟨t, z.pvalue⟩]
  match z.cvalue.getLast? with
  | none => { z with tokens := tokens }
  | some c => ⟨[c], [c], tokens⟩

/-- `cvalue` ends in the name of a kind: what stands before it is an expression. -/
def split (t : String) (z : Tokenizer) : Tokenizer :=
  let exp := z.cvalue.take (z.cvalue.length - t.toList.length)
  { z with
    cvalue := []
    tokens := z.tokens ++ (if exp = [] then [] else [⟨"EXPRESSION", exp⟩]) ++ [⟨t, t.toList⟩] }

/-- `checkToken` in `Tokenizer.tokenize`. -/
def checkToken (force : Bool) : Expressions → Tokenizer → Tokenizer
  | [], z => z
  | (t, e) :: expressions, z =>
    if Accepts force t e z then accept t z
    else if t.toList.isSuffixOf z.cvalue then split t z
    else checkToken force expressions z

/-- One pass of the loop in `Tokenizer.tokenize`. -/
def readChar (expressions : Expressions) (z : Tokenizer) (c : Char) : Tokenizer :=
  let z' := checkToken false expressions { z with cvalue := z.cvalue ++ [c] }
  { z' with pvalue := z'.cvalue }

/-- `Tokenizer.tokenize` -/
def tokenize (expressions : Expressions) (s : Text) : List (Token String Text) :=
  (checkToken true expressions
    ((removeComments s).foldl (readChar expressions) ⟨[], [], []⟩)).tokens

end Tokenizer

/-- The texts of a list of tokens, one after the other. -/
def values (tokens : List (Token String Text)) : Text := tokens.flatMap Token.value

namespace Tokenizer

/-! ## What one call of `checkToken` does -/

/-- The texts of a concatenation. -/
@[simp] lemma values_append (ts us : List (Token String Text)) :
    values (ts ++ us) = values ts ++ values us := List.flatMap_append

/-- The text of a single token. -/
@[simp] lemma values_singleton (t : Token String Text) : values [t] = t.value :=
  List.append_nil _

/-- **What `checkToken` can do**: it accepts `pvalue` as a token, it cuts off the name of a kind,
or it changes nothing, and then no kind accepts `pvalue` and `cvalue` ends in no name. -/
lemma checkToken_cases (force : Bool) (expressions : Expressions) (z : Tokenizer) :
    (∃ t e, (t, e) ∈ expressions ∧ Accepts force t e z ∧
      checkToken force expressions z = accept t z) ∨
    (∃ t e, (t, e) ∈ expressions ∧ t.toList <:+ z.cvalue ∧
      checkToken force expressions z = split t z) ∨
    (checkToken force expressions z = z ∧ ∀ t e, (t, e) ∈ expressions →
      ¬ Accepts force t e z ∧ ¬ t.toList <:+ z.cvalue) := by
  induction expressions with
  | nil => exact Or.inr (Or.inr ⟨rfl, fun t e h => absurd h List.not_mem_nil⟩)
  | cons entry expressions ih =>
    obtain ⟨t, e⟩ := entry
    rw [checkToken]
    split
    next haccepts => exact Or.inl ⟨t, e, List.mem_cons_self, haccepts, rfl⟩
    next hnot =>
      split
      next hsuffix =>
        refine Or.inr (Or.inl ⟨t, e, List.mem_cons_self, ?_, rfl⟩)
        exact List.isSuffixOf_iff_suffix.mp hsuffix
      next hsuffix =>
        rcases ih with ⟨u, e', hmem, h⟩ | ⟨u, e', hmem, h⟩ | ⟨hz, hall⟩
        · exact Or.inl ⟨u, e', List.mem_cons_of_mem _ hmem, h⟩
        · exact Or.inr (Or.inl ⟨u, e', List.mem_cons_of_mem _ hmem, h⟩)
        · refine Or.inr (Or.inr ⟨hz, fun u e' hmem => ?_⟩)
          rcases List.mem_cons.mp hmem with heq | hmem
          · obtain ⟨rfl, rfl⟩ := Prod.mk.inj heq
            exact ⟨hnot, fun h => hsuffix (List.isSuffixOf_iff_suffix.mpr h)⟩
          · exact hall u e' hmem

/-- Accepting emits `pvalue`. -/
lemma tokens_accept (t : String) (z : Tokenizer) :
    (accept t z).tokens = z.tokens ++ [⟨t, z.pvalue⟩] := by
  rw [accept]
  split <;> rfl

/-- Accepting emits `pvalue` and keeps the last character of `cvalue`. -/
lemma accept_append (t : String) (z : Tokenizer) {p : Text} {c : Char}
    (h : z.cvalue = p ++ [c]) :
    accept t z = ⟨[c], [c], z.tokens ++ [⟨t, z.pvalue⟩]⟩ := by
  simp [accept, h]

/-- Cutting off the name of a kind emits all of `cvalue`. -/
lemma values_split {t : String} {z : Tokenizer} (h : t.toList <:+ z.cvalue) :
    values (split t z).tokens = values z.tokens ++ z.cvalue := by
  obtain ⟨exp, hexp⟩ := h
  have htake : z.cvalue.take (z.cvalue.length - t.toList.length) = exp := by
    rw [← hexp, List.length_append, Nat.add_sub_cancel, List.take_left]
  rw [split, htake, values_append, values_append, values_singleton]
  split
  next hnil =>
    rw [← hexp, hnil]
    exact congrArg (· ++ t.toList) (List.append_nil _)
  next =>
    rw [values_singleton, List.append_assoc, hexp]

/-! ## The whole loop -/

/-- The state between two characters: `pvalue` is `cvalue`, and what it holds is the beginning of
a token. -/
structure Ready (expressions : Expressions) (z : Tokenizer) : Prop where
  /-- Both windows show the same text. -/
  pvalue_eq : z.pvalue = z.cvalue
  /-- An expression matches the text, if there is any. -/
  isMatch : z.cvalue = [] ∨ ∃ t e, (t, e) ∈ expressions ∧ e.reMatch z.cvalue = true

variable {expressions : Expressions}

/-- **Reading a character** keeps the state ready and accounts for the character: the tokens and
the text that is still open spell one character more. -/
lemma ready_readChar (hchar : ∀ c, ∃ t e, (t, e) ∈ expressions ∧ e.reMatch [c] = true)
    {z : Tokenizer} (h : Ready expressions z) (c : Char) :
    Ready expressions (readChar expressions z c) ∧
      values (readChar expressions z c).tokens ++ (readChar expressions z c).cvalue =
        values z.tokens ++ z.cvalue ++ [c] := by
  set z' : Tokenizer := { z with cvalue := z.cvalue ++ [c] } with hz'
  have hread : readChar expressions z c =
      { checkToken false expressions z' with
        pvalue := (checkToken false expressions z').cvalue } := rfl
  rw [hread]
  rcases checkToken_cases false expressions z' with
    ⟨t, e, -, -, hcheck⟩ | ⟨t, e, -, hsuffix, hcheck⟩ | ⟨hcheck, hall⟩
  · rw [hcheck, accept_append t z' (p := z.cvalue) rfl]
    refine ⟨⟨rfl, Or.inr (hchar c)⟩, ?_⟩
    rw [values_append, values_singleton, hz', h.pvalue_eq]
  · rw [hcheck]
    refine ⟨⟨rfl, Or.inl rfl⟩, ?_⟩
    show values (split t z').tokens ++ [] = _
    rw [values_split hsuffix, List.append_nil, List.append_assoc]
  · rw [hcheck]
    refine ⟨⟨rfl, Or.inr ?_⟩, (List.append_assoc _ _ _).symm⟩
    -- nothing was emitted, so every expression that matched before still does
    rcases h.isMatch with hnil | ⟨t, e, hmem, hmatch⟩
    · show ∃ t e, (t, e) ∈ expressions ∧ e.reMatch (z.cvalue ++ [c]) = true
      rw [hnil]
      exact hchar c
    · refine ⟨t, e, hmem, ?_⟩
      by_contra hnot
      refine (hall t e hmem).1 (Or.inr (Or.inl ⟨?_, hnot⟩))
      show e.reMatch z.pvalue = true
      rw [h.pvalue_eq]
      exact hmatch

/-- Reading a text keeps the state ready and accounts for all its characters. -/
lemma ready_foldl (hchar : ∀ c, ∃ t e, (t, e) ∈ expressions ∧ e.reMatch [c] = true) (s : Text)
    {z : Tokenizer} (h : Ready expressions z) :
    Ready expressions (s.foldl (readChar expressions) z) ∧
      values (s.foldl (readChar expressions) z).tokens ++
        (s.foldl (readChar expressions) z).cvalue = values z.tokens ++ z.cvalue ++ s := by
  induction s generalizing z with
  | nil => exact ⟨h, (List.append_nil _).symm⟩
  | cons c s ih =>
    obtain ⟨hready, hvalues⟩ := ready_readChar hchar h c
    obtain ⟨hready', hvalues'⟩ := ih hready
    refine ⟨hready', ?_⟩
    rw [List.foldl_cons, hvalues', hvalues, List.append_assoc]
    rfl

/-- The flush at the end emits the text that is still open. -/
lemma values_flush {z : Tokenizer} (h : Ready expressions z) :
    values (checkToken true expressions z).tokens = values z.tokens ++ z.cvalue := by
  rcases checkToken_cases true expressions z with
    ⟨t, e, -, -, hcheck⟩ | ⟨t, e, -, hsuffix, hcheck⟩ | ⟨hcheck, hall⟩
  · rw [hcheck, tokens_accept, values_append, values_singleton, h.pvalue_eq]
  · rw [hcheck]
    exact values_split hsuffix
  · rw [hcheck]
    rcases h.isMatch with hnil | ⟨t, e, hmem, hmatch⟩
    · rw [hnil, List.append_nil]
    · exact absurd (Or.inl ⟨rfl, hmatch⟩) (hall t e hmem).1

/-- The tokens spell the text without comments, if every character is matched by an expression. -/
theorem values_tokenize (hchar : ∀ c, ∃ t e, (t, e) ∈ expressions ∧ e.reMatch [c] = true)
    (s : Text) : values (tokenize expressions s) = removeComments s := by
  have hstart : Ready expressions ⟨[], [], []⟩ := ⟨rfl, Or.inl rfl⟩
  obtain ⟨hready, hvalues⟩ := ready_foldl hchar (removeComments s) hstart
  rw [tokenize, values_flush hready, hvalues]
  rfl

/-! ## Kinds and texts of tokens -/

/-- The kind is one of the tokenizer's, or it is the one that is cut off in front of a name. -/
def IsKind (expressions : Expressions) (t : String) : Prop :=
  t = "EXPRESSION" ∨ t ∈ expressions.map Prod.fst

/-- One call of `checkToken` emits only tokens of these kinds. -/
lemma isKind_checkToken {force : Bool} {z : Tokenizer}
    (h : ∀ token ∈ z.tokens, IsKind expressions token.token) :
    ∀ token ∈ (checkToken force expressions z).tokens, IsKind expressions token.token := by
  rcases checkToken_cases force expressions z with
    ⟨t, e, hmem, -, hcheck⟩ | ⟨t, e, hmem, -, hcheck⟩ | ⟨hcheck, -⟩
  · rw [hcheck, tokens_accept]
    refine List.forall_mem_append.mpr ⟨h, fun token htoken => ?_⟩
    rw [List.mem_singleton.mp htoken]
    exact Or.inr (List.mem_map_of_mem hmem)
  · rw [hcheck]
    refine List.forall_mem_append.mpr ⟨List.forall_mem_append.mpr ⟨h, fun token htoken => ?_⟩,
      fun token htoken => ?_⟩
    · split at htoken
      · exact absurd htoken List.not_mem_nil
      · rw [List.mem_singleton.mp htoken]
        exact Or.inl rfl
    · rw [List.mem_singleton.mp htoken]
      exact Or.inr (List.mem_map_of_mem hmem)
  · rw [hcheck]
    exact h

/-- All tokens have one of these kinds. -/
theorem isKind_tokenize (expressions : Expressions) (s : Text) :
    ∀ token ∈ tokenize expressions s, IsKind expressions token.token := by
  have hrun : ∀ (s : Text) (z : Tokenizer), (∀ token ∈ z.tokens, IsKind expressions token.token) →
      ∀ token ∈ (s.foldl (readChar expressions) z).tokens, IsKind expressions token.token := by
    intro s
    induction s with
    | nil => exact fun z h => h
    | cons c s ih => exact fun z h => ih (readChar expressions z c) (isKind_checkToken h)
  exact isKind_checkToken (hrun (removeComments s) ⟨[], [], []⟩
    fun token htoken => absurd htoken List.not_mem_nil)

/-- The token has one of the kinds of the tokenizer and stands for some text. -/
structure IsToken (expressions : Expressions) (token : Token String Text) : Prop where
  /-- The kind is one of the tokenizer's. -/
  kind : token.token ∈ expressions.map Prod.fst
  /-- The text is not empty. -/
  value_ne : token.value ≠ []

section

variable (hkind : "EXPRESSION" ∈ expressions.map Prod.fst)
  (hempty : ∀ t e, (t, e) ∈ expressions → t.toList ≠ [] ∧ e.reMatch [] = false)

include hkind hempty

/-- One call of `checkToken` emits only tokens; at the end of the text both windows show the
same. -/
lemma isToken_checkToken {force : Bool} {z : Tokenizer}
    (hforce : force = true → z.pvalue = z.cvalue)
    (h : ∀ token ∈ z.tokens, IsToken expressions token) :
    ∀ token ∈ (checkToken force expressions z).tokens, IsToken expressions token := by
  rcases checkToken_cases force expressions z with
    ⟨t, e, hmem, haccepts, hcheck⟩ | ⟨t, e, hmem, -, hcheck⟩ | ⟨hcheck, -⟩
  · have hvalue : z.pvalue ≠ [] := by
      obtain ⟨ht, he⟩ := hempty t e hmem
      intro hnil
      rcases haccepts with ⟨hf, hmatch⟩ | ⟨hmatch, -⟩ | heq
      · rw [← hforce hf, hnil, he] at hmatch
        exact absurd hmatch Bool.false_ne_true
      · rw [hnil, he] at hmatch
        exact absurd hmatch Bool.false_ne_true
      · exact ht (heq.trans hnil)
    rw [hcheck, tokens_accept]
    intro token htoken
    rcases List.mem_append.mp htoken with htoken | htoken
    · exact h token htoken
    · rw [List.mem_singleton.mp htoken]
      exact ⟨List.mem_map_of_mem hmem, hvalue⟩
  · rw [hcheck]
    intro token htoken
    rcases List.mem_append.mp htoken with htoken | htoken
    · rcases List.mem_append.mp htoken with htoken | htoken
      · exact h token htoken
      · split at htoken
        · exact absurd htoken List.not_mem_nil
        next hne =>
          rw [List.mem_singleton.mp htoken]
          exact ⟨hkind, hne⟩
    · rw [List.mem_singleton.mp htoken]
      exact ⟨List.mem_map_of_mem hmem, (hempty t e hmem).1⟩
  · rw [hcheck]
    exact h

/-- All tokens have one of the kinds of the tokenizer and stand for some text. -/
theorem isToken_tokenize (s : Text) :
    ∀ token ∈ tokenize expressions s, IsToken expressions token := by
  have hrun : ∀ (s : Text) (z : Tokenizer), z.pvalue = z.cvalue →
      (∀ token ∈ z.tokens, IsToken expressions token) →
        (s.foldl (readChar expressions) z).pvalue = (s.foldl (readChar expressions) z).cvalue ∧
          ∀ token ∈ (s.foldl (readChar expressions) z).tokens, IsToken expressions token := by
    intro s
    induction s with
    | nil => exact fun z hz h => ⟨hz, h⟩
    | cons c s ih =>
      intro z hz h
      exact ih (readChar expressions z c) rfl
        (isToken_checkToken hkind hempty (fun hf => absurd hf Bool.false_ne_true) h)
  obtain ⟨hwindows, htokens⟩ := hrun (removeComments s) ⟨[], [], []⟩ rfl
    fun token htoken => absurd htoken List.not_mem_nil
  exact isToken_checkToken hkind hempty (fun _ => hwindows) htokens

end

end Tokenizer

/-! ## The schema tokenizer -/

namespace SchemaTokenizer

/-- `tokenizer.functions` in `build_tokenizer`. -/
def functions : List String :=
  ["DECLARE_INTERNAL_SCHEMA", "DECLARE_EXTERNAL_SCHEMA", "SCHEMA_FIELD", "SCHEMA_METHODS",
    "NO_SCHEMA", "SCHEMA_SERIALIZATION", "SCHEMA_DESERIALIZATION", "SCHEMA_PRE_SERIALIZATION",
    "SCHEMA_POST_SERIALIZATION", "SCHEMA_PRE_DESERIALIZATION", "SCHEMA_POST_DESERIALIZATION"]

/-- The class `\w`. -/
def isWordChar (c : Char) : Bool :=
  ('a' ≤ c && c ≤ 'z') || ('A' ≤ c && c ≤ 'Z') || ('0' ≤ c && c ≤ '9') || c == '_'

/-- The class `\s`. -/
def isSpaceChar (c : Char) : Bool :=
  c == ' ' || c == '\t' || c == '\n' || c == '\r' || c == '\x0b' || c == '\x0c'

/-- The characters that no expression has: comma, parentheses, braces, colon, angles, minus. -/
def separators : List Char := [',', '(', ')', '\x7b', '\x7d', ':', '<', '>', '-']

/-- `tokenizer.expressions` in `build_tokenizer`. -/
def expressions : Expressions :=
  functions.map (fun function => (function, .literal function.toList)) ++
  [("LPAREN", .literal ['(']),
    ("PUBLIC", .literal "public".toList),
    ("PRIVATE", .literal "private".toList),
    ("PROTECTED", .literal "protected".toList),
    ("RPAREN", .literal [')']),
    ("LBRACKET", .literal ['\x7b']),
    ("RBRACKET", .literal ['\x7d']),
    ("LANGLE", .literal ['<']),
    ("RANGLE", .literal ['>']),
    ("COMMA", .literal [',']),
    ("COLON", .literal [':']),
    ("SEMICOLON", .literal [';']),
    ("EQUALS", .literal ['=']),
    ("SIMPLE_IDENTIFIER", .plus isWordChar),
    ("WHITESPACE", .plus isSpaceChar),
    ("NEGATION", .literal ['-']),
    ("EXPRESSION", .plus fun c => !separators.contains c)]

/-- `SchemaTokenizer.tokenize` -/
def tokenize (s : Text) : List (Token String Text) := Tokenizer.tokenize expressions s

/-- Every character is matched by an expression of the schema tokenizer. -/
lemma exists_reMatch (c : Char) : ∃ t e, (t, e) ∈ expressions ∧ e.reMatch [c] = true := by
  by_cases hc : c ∈ separators
  · have hliteral {t : String} (hmem : (t, Pattern.literal [c]) ∈ expressions) :
        ∃ t e, (t, e) ∈ expressions ∧ e.reMatch [c] = true :=
      ⟨t, _, hmem, by simp [Pattern.reMatch, Pattern.fullmatch]⟩
    simp only [separators, List.mem_cons, List.not_mem_nil, or_false] at hc
    rcases hc with rfl | rfl | rfl | rfl | rfl | rfl | rfl | rfl | rfl
    · exact hliteral (t := "COMMA") (by simp [expressions])
    · exact hliteral (t := "LPAREN") (by simp [expressions])
    · exact hliteral (t := "RPAREN") (by simp [expressions])
    · exact hliteral (t := "LBRACKET") (by simp [expressions])
    · exact hliteral (t := "RBRACKET") (by simp [expressions])
    · exact hliteral (t := "COLON") (by simp [expressions])
    · exact hliteral (t := "LANGLE") (by simp [expressions])
    · exact hliteral (t := "RANGLE") (by simp [expressions])
    · exact hliteral (t := "NEGATION") (by simp [expressions])
  · refine ⟨"EXPRESSION", .plus fun c => !separators.contains c, by simp [expressions], ?_⟩
    simp [Pattern.reMatch, Pattern.fullmatch, hc]

/-- Every token of a header has one of the kinds of the schema tokenizer and stands for some
text. -/
lemma isToken_tokenize (s : Text) : ∀ token ∈ tokenize s, Tokenizer.IsToken expressions token := by
  have hempty : ∀ entry ∈ expressions, entry.1.toList ≠ [] ∧ entry.2.reMatch [] = false := by
    decide +kernel
  exact Tokenizer.isToken_tokenize (by decide +kernel) (fun t e h => hempty (t, e) h) s

/-- **The tokenizer loses and invents nothing**: the texts of the tokens, one after the other, are
the text without its comments. -/
theorem tokenize_values (s : Text) : values (tokenize s) = removeComments s :=
  Tokenizer.values_tokenize exists_reMatch s

example : tokenize "f( x // y".toList =
    [⟨"SIMPLE_IDENTIFIER", ['f']⟩, ⟨"LPAREN", ['(']⟩, ⟨"WHITESPACE", [' ']⟩,
      ⟨"SIMPLE_IDENTIFIER", ['x']⟩, ⟨"WHITESPACE", [' ']⟩] := by
  decide +kernel

end SchemaTokenizer

end NaoSoccer
