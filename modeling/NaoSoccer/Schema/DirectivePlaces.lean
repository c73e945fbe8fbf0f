import NaoSoccer.Schema.NodeLookup
import NaoSoccer.Schema.SchemaGrammar
import Mathlib.Data.List.Flatten

/-!
# What a header is without its directives

The SWIG header is to be the header without its schema directives: of a declaration and of a
`SCHEMA_FIELD` the name and the parentheses are deleted, of every other member directive all from
the name to the semicolon.  `Place` says where in such a construct a node of the parse tree stands,
and `placedTokens` gives every token of a tree its place.  From that `withoutDirectives` is the text
that should be left: a name, parenthesis or semicolon is deleted as it is written in the header, and
whatever else the token has stays.

`strip` deletes whole tokens.  The two are the same exactly if every name, parenthesis and semicolon
that is deleted is a token without anything else.
-/

namespace NaoSoccer

/-- Where in the construct of a schema a list of sibling nodes stands. -/
inductive Place
  /-- Outside of all declarations. -/
  | outside
  /-- Directly in a declaration. -/
  | declaration
  /-- In the class that is declared. -/
  | inside
  /-- Directly in a member declaration. -/
  | member
  /-- Directly in a `SCHEMA_FIELD`. -/
  | field
  /-- In the field that is declared. -/
  | contents
  /-- Directly in another directive. -/
  | directive
  /-- In the name, in a parenthesis or in the semicolon of a directive. -/
  | marker
  /-- In a directive that is deleted. -/
  | deleted
  deriving DecidableEq

namespace Place

/-- The place of what is below a node with the given symbol. -/
def below (symbol : String) : Place → Place
  | outside => if symbol = "SchemaDeclaration" then declaration else outside
  | declaration =>
    if symbol ∈ ["SchemaDeclarationFunction", "LPAREN", "RPAREN"] then marker else inside
  | inside => if symbol = "MemberDeclaration" then member else inside
  | member => if symbol = "SchemaField" then field else directive
  | field => if symbol ∈ ["SCHEMA_FIELD", "LPAREN", "RPAREN"] then marker else contents
  | contents => contents
  | directive => if symbol = "SEMICOLON" then marker else deleted
  | marker => marker
  | deleted => deleted

/-- Tokens at this place are not in the SWIG header. -/
def IsRemoved (place : Place) : Prop := place = marker ∨ place = deleted

instance (place : Place) : Decidable place.IsRemoved := inferInstanceAs (Decidable (_ ∨ _))

/-- What is below a node that is removed is removed. -/
lemma IsRemoved.below {place : Place} (h : place.IsRemoved) (symbol : String) :
    place.below symbol = place := by
  rcases h with rfl | rfl <;> rfl

end Place

/-! ## The text that should be left -/

/-- The tokens of a forest with their places. -/
def placedTokens : Place → Forest String Text → List (Place × Token String Text)
  | _, .nil => []
  | place, .cons _ symbol value children rest =>
    (value.map fun text => (place.below symbol, Token.mk symbol text)).toList ++
      placedTokens (place.below symbol) children ++ placedTokens place rest

/-- The text by which a kind of token is written in a header, if there is just one. -/
def spelling (kind : String) : Text :=
  match SchemaTokenizer.expressions.lookup kind with
  | some (.literal text) => text
  | _ => []

/-- What a token has beyond the spelling of its kind. -/
def leftover (token : Token String Text) : Text :=
  if spelling token.token <+: token.value then token.value.drop (spelling token.token).length
  else token.value

/-- What should be left of a token. -/
def Place.textLeft : Place → Token String Text → Text
  | .marker, token => leftover token
  | .deleted, _ => []
  | _, token => token.value

/-- The text of a header without its directives. -/
def withoutDirectives (f : Forest String Text) : Text :=
  (placedTokens .outside f).flatMap fun entry => entry.1.textLeft entry.2

/-- The tokens that are names, parentheses and semicolons of directives. -/
def markers (f : Forest String Text) : List (Token String Text) :=
  ((placedTokens .outside f).filter fun entry => entry.1 = .marker).map Prod.snd

/-! ## The text without whole tokens -/

/-- The forest without the trees that are removed. -/
def strip : Place → Forest String Text → Forest String Text
  | _, .nil => .nil
  | place, .cons node symbol value children rest =>
    if (place.below symbol).IsRemoved then strip place rest
    else .cons node symbol value (strip (place.below symbol) children) (strip place rest)

/-- What is left of a token if tokens are only removed as a whole. -/
def Place.textKept (place : Place) (token : Token String Text) : Text :=
  if place.IsRemoved then [] else token.value

/-- The text of the tokens that are not removed. -/
def keptText (tokens : List (Place × Token String Text)) : Text :=
  tokens.flatMap fun entry => entry.1.textKept entry.2

/-- The tokens with places are all tokens. -/
lemma map_snd_placedTokens (place : Place) (f : Forest String Text) :
    (placedTokens place f).map Prod.snd = f.tokens := by
  induction f generalizing place with
  | nil => rfl
  | cons node symbol value children rest ihchildren ihrest =>
    rw [placedTokens, Forest.tokens, List.map_append, List.map_append, ihchildren, ihrest]
    cases value <;> rfl

/-- The names, parentheses and semicolons of directives are tokens of the header. -/
lemma markers_subset_tokens (f : Forest String Text) : markers f ⊆ f.tokens := by
  intro token htoken
  obtain ⟨entry, hentry, rfl⟩ := List.mem_map.mp htoken
  rw [← map_snd_placedTokens .outside f]
  exact List.mem_map_of_mem (List.mem_filter.mp hentry).1

/-- The symbols at and below the names, parentheses and semicolons of directives. -/
def markerSymbols : List String :=
  ["SchemaDeclarationFunction", "DECLARE_INTERNAL_SCHEMA", "DECLARE_EXTERNAL_SCHEMA",
    "SCHEMA_FIELD", "LPAREN", "RPAREN", "SEMICOLON"]

/-- Which symbols begin a name, a parenthesis or a semicolon of a directive. -/
lemma mem_markerSymbols_of_below {place : Place} {symbol : String} (hne : place ≠ .marker)
    (h : place.below symbol = .marker) : symbol ∈ markerSymbols := by
  cases place with
  | marker => exact absurd rfl hne
  | contents | deleted => exact absurd h (by rw [Place.below]; decide)
  | outside | inside | member =>
    rw [Place.below] at h
    split at h <;> exact absurd h (by decide)
  | declaration =>
    rw [Place.below] at h
    split at h
    next hmem =>
      have hsubset : ["SchemaDeclarationFunction", "LPAREN", "RPAREN"] ⊆ markerSymbols := by
        decide
      exact hsubset hmem
    next => exact absurd h (by decide)
  | field =>
    rw [Place.below] at h
    split at h
    next hmem =>
      have hsubset : ["SCHEMA_FIELD", "LPAREN", "RPAREN"] ⊆ markerSymbols := by
        decide
      exact hsubset hmem
    next => exact absurd h (by decide)
  | directive =>
    rw [Place.below] at h
    split at h
    next heq =>
      rw [heq]
      decide
    next => exact absurd h (by decide)

/-- **Every name, parenthesis and semicolon** that is deleted has a kind with one spelling. -/
lemma token_mem_markerSymbols {place : Place} {f : Forest String Text}
    (h : Derivation SchemaParser.grammar f)
    (hsymbols : place = .marker → ∀ X ∈ f.symbols, X ∈ markerSymbols) :
    ∀ token, (Place.marker, token) ∈ placedTokens place f → token.token ∈ markerSymbols := by
  have hrules : ∀ A ∈ markerSymbols, ∀ rule ∈ SchemaParser.grammar.rulesOf A,
      ∀ X ∈ rule, X ∈ markerSymbols := by
    simp only [SchemaParser.rulesOf_eq]
    decide +kernel
  induction f generalizing place with
  | nil => exact fun token htoken => absurd htoken List.not_mem_nil
  | cons node symbol value children rest ihchildren ihrest =>
    have hsymbol : place.below symbol = .marker → symbol ∈ markerSymbols := by
      intro hplace
      by_cases hmarker : place = .marker
      · exact hsymbols hmarker symbol List.mem_cons_self
      · exact mem_markerSymbols_of_below hmarker hplace
    have hchildren : place.below symbol = .marker → ∀ X ∈ children.symbols, X ∈ markerSymbols :=
      fun hplace X hX => hrules _ (hsymbol hplace) _
        (Grammar.mem_rulesOf.mpr (h.rule_of_mem_symbols hX)) X hX
    intro token htoken
    rw [placedTokens] at htoken
    rcases List.mem_append.mp htoken with htoken | htoken
    · rcases List.mem_append.mp htoken with htoken | htoken
      · cases value with
        | none => exact absurd htoken List.not_mem_nil
        | some text =>
          obtain ⟨hplace, rfl⟩ := Prod.mk.inj (List.mem_singleton.mp htoken)
          exact hsymbol hplace.symm
      · exact ihchildren h.children hchildren token htoken
    · exact ihrest h.rest (fun hplace X hX => hsymbols hplace X (List.mem_cons_of_mem _ hX)) token
        htoken

/-- Nothing is kept of a tree that is removed. -/
lemma keptText_removed {place : Place} (h : place.IsRemoved) (f : Forest String Text) :
    keptText (placedTokens place f) = [] := by
  induction f with
  | nil => rfl
  | cons node symbol value children rest ihchildren ihrest =>
    rw [placedTokens, h.below, keptText, List.flatMap_append, List.flatMap_append]
    change _ ++ keptText (placedTokens place children) ++ keptText (placedTokens place rest) = _
    rw [ihchildren, ihrest, List.append_nil, List.append_nil]
    cases value with
    | none => rfl
    | some text => simp [Place.textKept, h]

/-- **The text of the stripped forest** is that of the tokens that are not removed. -/
lemma text_strip {g : Grammar String} (place : Place) {f : Forest String Text}
    (h : Derivation g f) : (strip place f).text = keptText (placedTokens place f) := by
  induction f generalizing place with
  | nil => rfl
  | cons node symbol value children rest ihchildren ihrest =>
    have happend : keptText (placedTokens place (.cons node symbol value children rest)) =
        keptText ((value.map fun text => (place.below symbol, Token.mk symbol text)).toList) ++
          keptText (placedTokens (place.below symbol) children) ++
          keptText (placedTokens place rest) := by
      rw [placedTokens, keptText, List.flatMap_append, List.flatMap_append]
      rfl
    rw [happend, strip]
    split
    next hremoved =>
      rw [keptText_removed hremoved, List.append_nil, ihrest _ h.rest]
      cases value with
      | none => rfl
      | some text => simp [keptText, Place.textKept, hremoved]
    next hkept =>
      rw [Forest.text, ihchildren _ h.children, ihrest _ h.rest]
      cases value with
      | none => rfl
      | some text =>
        obtain rfl := h.children_eq_nil
        simp [keptText, Place.textKept, hkept, placedTokens]

/-- The roots of a stripped forest. -/
lemma nodes_strip_sublist (place : Place) (f : Forest String Text) :
    (strip place f).nodes.Sublist f.nodes := by
  induction f generalizing place with
  | nil => exact List.Sublist.refl _
  | cons node symbol value children rest ihchildren ihrest =>
    rw [strip]
    split
    · exact ((ihrest place).trans (List.sublist_append_right _ _)).cons _
    · exact ((ihchildren _).append (ihrest place)).cons_cons _

/-- Stripping brings in no symbols. -/
lemma labels_strip_sublist (place : Place) (f : Forest String Text) :
    (strip place f).labels.Sublist f.labels := by
  induction f generalizing place with
  | nil => exact List.Sublist.refl _
  | cons node symbol value children rest ihchildren ihrest =>
    rw [strip]
    split
    · exact ((ihrest place).trans (List.sublist_append_right _ _)).cons _
    · exact ((ihchildren _).append (ihrest place)).cons_cons _

/-! ## When whole tokens are enough -/

/-- If one of two ways to shorten texts leaves parts of what the other leaves, they leave the same
of all texts together only if they leave the same of each. -/
lemma flatMap_eq_iff {α β : Type*} {short long : α → List β} {l : List α}
    (h : ∀ x ∈ l, (short x).Sublist (long x)) :
    l.flatMap short = l.flatMap long ↔ ∀ x ∈ l, short x = long x := by
  induction l with
  | nil => simp
  | cons x l ih =>
    obtain ⟨hx, hl⟩ := List.forall_mem_cons.mp h
    rw [List.flatMap_cons, List.flatMap_cons, List.forall_mem_cons, ← ih hl]
    constructor
    · intro heq
      have hle := (List.Sublist.flatMap_right l hl).length_le
      have hlength := congrArg List.length heq
      rw [List.length_append, List.length_append] at hlength
      have hxle := hx.length_le
      exact List.append_inj heq (by omega)
    · rintro ⟨hx, hl⟩
      rw [hx, hl]

/-- Nothing is left of a token exactly if it is spelled as its kind. -/
lemma leftover_eq_nil_iff {token : Token String Text} (h : token.value ≠ []) :
    leftover token = [] ↔ token.value = spelling token.token := by
  rw [leftover]
  split
  next hbegin =>
    rw [List.drop_eq_nil_iff]
    constructor
    · intro hlength
      exact (hbegin.eq_of_length_le hlength).symm
    · intro heq
      rw [heq]
  next hbegin =>
    refine ⟨fun hnil => absurd hnil h, fun heq => absurd ?_ hbegin⟩
    rw [heq]

/-- **The tokens that are not removed spell the header without its directives** exactly if every
name, parenthesis and semicolon of a directive is spelled as its kind. -/
theorem keptText_eq_iff {f : Forest String Text} (h : ∀ token ∈ f.tokens, token.value ≠ []) :
    keptText (placedTokens .outside f) = withoutDirectives f ↔
      ∀ token ∈ markers f, token.value = spelling token.token := by
  have hvalue : ∀ entry ∈ placedTokens .outside f, entry.2.value ≠ [] := by
    intro entry hentry
    refine h entry.2 ?_
    rw [← map_snd_placedTokens .outside f]
    exact List.mem_map_of_mem hentry
  have hsublist : ∀ entry ∈ placedTokens .outside f,
      (entry.1.textKept entry.2).Sublist (entry.1.textLeft entry.2) := by
    rintro ⟨place, token⟩ -
    cases place <;> simp [Place.textKept, Place.textLeft, Place.IsRemoved]
  rw [keptText, withoutDirectives, flatMap_eq_iff hsublist]
  constructor
  · intro hall token htoken
    obtain ⟨⟨place, token'⟩, hentry, rfl⟩ := List.mem_map.mp htoken
    obtain ⟨hentry, hplace⟩ := List.mem_filter.mp hentry
    obtain rfl : place = .marker := of_decide_eq_true hplace
    exact (leftover_eq_nil_iff (hvalue _ hentry)).mp (hall _ hentry).symm
  · rintro hall ⟨place, token⟩ hentry
    cases place with
    | marker =>
      have hmem : token ∈ markers f :=
        List.mem_map.mpr ⟨_, List.mem_filter.mpr ⟨hentry, decide_eq_true rfl⟩, rfl⟩
      exact ((leftover_eq_nil_iff (hvalue _ hentry)).mpr (hall token hmem)).symm
    | _ => rfl

example : leftover ⟨"RPAREN", [')']⟩ = [] := by decide +kernel

end NaoSoccer
