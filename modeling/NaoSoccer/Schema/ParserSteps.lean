import NaoSoccer.Schema.ParserSoundness

/-!
# The passes of the parser

What `Parser.parse` returns depends on the symbols of the stack and on the kinds of the tokens that
are left, and each pass of its loop changes these in one of a few ways.  `EndsIn` says how the loop
ends from all states with given symbols and kinds, and has one lemma for each kind of pass.
-/

namespace NaoSoccer

variable {σ τ : Type*} [DecidableEq σ]

namespace Parser

/-! ## The number of passes -/

/-- More passes do not change the result. -/
lemma parseLoop_succ {p : Parser σ} {fuel : ℕ} {st : ParseState σ τ} {result : ParseResult σ τ}
    (h : parseLoop p fuel st = some result) : parseLoop p (fuel + 1) st = some result := by
  induction fuel generalizing st with
  | zero => exact absurd h (by simp [parseLoop])
  | succ fuel ih =>
    obtain ⟨nodes, stack, tokens⟩ := st
    rw [parseLoop] at h ⊢
    rcases tokens with _ | ⟨token, tokens⟩
    · exact h
    rcases stack with _ | ⟨top, stack⟩
    · exact h
    dsimp only at h ⊢
    split at h
    next hempty =>
      rw [if_pos hempty]
      exact ih h
    next hempty =>
      rw [if_neg hempty]
      split at h
      next hmatch =>
        rw [if_pos hmatch]
        exact ih h
      next hmatch =>
        rw [if_neg hmatch]
        split at h
        next ht =>
          rw [if_pos ht]
          exact h
        next ht =>
          rw [if_neg ht]
          split at h
          next hA =>
            rw [if_pos hA]
            exact h
          next hA =>
            rw [if_neg hA]
            split at h
            · exact h
            · exact ih h

/-- A larger number of passes does not change the result. -/
lemma parseLoop_of_le {p : Parser σ} {fuel fuel' : ℕ} {st : ParseState σ τ}
    {result : ParseResult σ τ} (hle : fuel ≤ fuel') (h : parseLoop p fuel st = some result) :
    parseLoop p fuel' st = some result := by
  induction hle with
  | refl => exact h
  | step _ ih => exact parseLoop_succ ih

/-- **The loop has one result**, whatever number of passes it is given. -/
lemma parseLoop_unique {p : Parser σ} {fuel fuel' : ℕ} {st : ParseState σ τ}
    {result result' : ParseResult σ τ} (h : parseLoop p fuel st = some result)
    (h' : parseLoop p fuel' st = some result') : result = result' := by
  rcases Nat.le_total fuel fuel' with hle | hle
  · exact Option.some.inj ((parseLoop_of_le hle h).symm.trans h')
  · exact Option.some.inj (h.symm.trans (parseLoop_of_le hle h'))

/-! ## One pass -/

/-- From every state with these symbols on the stack and these kinds of tokens left, the loop comes
to a result of this kind. -/
def EndsIn (p : Parser σ) (Q : ParseResult σ τ → Prop) (ss ts : List σ) : Prop :=
  ∀ st : ParseState σ τ, st.stack.map ParseSymbol.symbol = ss → st.tokens.map Token.token = ts →
    ∃ fuel result, parseLoop p fuel st = some result ∧ Q result

namespace EndsIn

variable {p : Parser σ} {Q : ParseResult σ τ → Prop} {ss ts : List σ} {t : σ}

/-- At the end of the input the second loop decides. -/
lemma finish (h : ∀ nodes (stack : List (ParseSymbol σ)), stack.map ParseSymbol.symbol = ss →
    Q (drain p nodes stack)) : EndsIn p Q ss [] := by
  rintro ⟨nodes, stack, tokens⟩ hstack htokens
  obtain rfl : tokens = [] := List.map_eq_nil_iff.mp htokens
  exact ⟨1, _, rfl, h nodes stack hstack⟩

/-- With tokens and no stack the parser fails. -/
lemma noStack (h : Q .failed) : EndsIn p Q [] (t :: ts) := by
  rintro ⟨nodes, stack, tokens⟩ hstack htokens
  obtain rfl : stack = [] := List.map_eq_nil_iff.mp hstack
  obtain ⟨token, tokens, rfl, -, -⟩ := List.map_eq_cons_iff.mp htokens
  exact ⟨1, _, rfl, h⟩

/-- A pass that pops the empty string. -/
lemma skip (h : EndsIn p Q ss (t :: ts)) : EndsIn p Q (p.grammar.emptyString :: ss) (t :: ts) := by
  rintro ⟨nodes, stack, tokens⟩ hstack htokens
  obtain ⟨top, stack, rfl, htop, hrest⟩ := List.map_eq_cons_iff.mp hstack
  obtain ⟨token, tokens, rfl, -, -⟩ := List.map_eq_cons_iff.mp htokens
  obtain ⟨fuel, result, hrun, hresult⟩ := h ⟨nodes, stack, token :: tokens⟩ hrest htokens
  refine ⟨fuel + 1, result, ?_, hresult⟩
  rw [parseLoop]
  dsimp only
  rw [if_pos htop]
  exact hrun

/-- A pass that takes a token. -/
lemma take (hne : t ≠ p.grammar.emptyString) (h : EndsIn p Q ss ts) :
    EndsIn p Q (t :: ss) (t :: ts) := by
  rintro ⟨nodes, stack, tokens⟩ hstack htokens
  obtain ⟨top, stack, rfl, htop, hrest⟩ := List.map_eq_cons_iff.mp hstack
  obtain ⟨token, tokens, rfl, htoken, htokens⟩ := List.map_eq_cons_iff.mp htokens
  obtain ⟨fuel, result, hrun, hresult⟩ := h ⟨nodes.modify top.node fun node =>
    { node with value := some token.value }, stack, tokens⟩ hrest htokens
  refine ⟨fuel + 1, result, ?_, hresult⟩
  rw [parseLoop]
  dsimp only
  rw [if_neg (htop ▸ hne), if_pos (htop.trans htoken.symm)]
  exact hrun

/-- A pass that expands the top. -/
lemma expand {A : σ} {rule : List σ} (hempty : A ≠ p.grammar.emptyString) (hne : A ≠ t)
    (ht : t ∈ p.grammar.terminals) (hA : A ∈ p.grammar.nonterminals)
    (hlookup : p.lookupRule t A = some rule) (h : EndsIn p Q (rule ++ ss) (t :: ts)) :
    EndsIn p Q (A :: ss) (t :: ts) := by
  rintro ⟨nodes, stack, tokens⟩ hstack htokens
  obtain ⟨top, stack, rfl, htop, hrest⟩ := List.map_eq_cons_iff.mp hstack
  obtain ⟨token, tokens, rfl, htoken, -⟩ := List.map_eq_cons_iff.mp htokens
  have hstack' : (Parser.expand ⟨nodes, top :: stack, token :: tokens⟩ top.node stack rule).stack.map
      ParseSymbol.symbol = rule ++ ss := by
    rw [Parser.expand, List.map_append, map_symbol_parseSymbols, hrest]
  obtain ⟨fuel, result, hrun, hresult⟩ := h _ hstack' htokens
  refine ⟨fuel + 1, result, ?_, hresult⟩
  rw [parseLoop]
  dsimp only
  rw [htop, htoken, if_neg hempty, if_neg hne, if_neg (not_not.mpr ht), if_neg (not_not.mpr hA),
    hlookup]
  exact hrun

/-- A pass in which the table has nothing for the top. -/
lemma noRule {A : σ} (hempty : A ≠ p.grammar.emptyString) (hne : A ≠ t)
    (h : t ∉ p.grammar.terminals ∨ A ∉ p.grammar.nonterminals ∨ p.lookupRule t A = none)
    (hfailed : Q .failed) : EndsIn p Q (A :: ss) (t :: ts) := by
  rintro ⟨nodes, stack, tokens⟩ hstack htokens
  obtain ⟨top, stack, rfl, htop, hrest⟩ := List.map_eq_cons_iff.mp hstack
  obtain ⟨token, tokens, rfl, htoken, -⟩ := List.map_eq_cons_iff.mp htokens
  refine ⟨1, .failed, ?_, hfailed⟩
  rw [parseLoop]
  dsimp only
  rw [htop, htoken, if_neg hempty, if_neg hne]
  rcases h with ht | hA | hlookup
  · rw [if_pos ht]
  · rw [if_pos hA, ite_self]
  · rw [hlookup, ite_self, ite_self]

end EndsIn

end Parser

end NaoSoccer
