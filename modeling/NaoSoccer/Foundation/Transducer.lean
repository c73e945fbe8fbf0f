import Mathlib.Data.List.Basic

/-!
# Transducers

A transducer is a function `step : σ → α → σ × List β`: in a state it takes one symbol, goes to
another state and emits any number of symbols.  `feed` gives it a list of symbols, and `feedBlocks`
the same symbols in several lists, each from the state that the list before it left.

Two facts make coders that are written as transducers easy to reason about.  How the input is cut
into blocks does not matter (`feedBlocks_eq_feed`), and symbols that a transducer skips may be
filtered out first (`feed_filter`).

A decoder inverts an encoder if it follows it symbol by symbol, up to some symbols that are still
pending: this is `Follows`, and `Follows.feed` carries it over to whole lists.
-/

namespace Transducer

variable {σ τ α β : Type*}

/-- The state after all symbols of a list, and what they emit. -/
def feed (step : σ → α → σ × List β) (s : σ) : List α → σ × List β
  | [] => (s, [])
  | a :: as =>
    let first := step s a
    let rest := feed step first.1 as
    (rest.1, first.2 ++ rest.2)

/-- The state after several lists of symbols, and what they emit. -/
def feedBlocks (step : σ → α → σ × List β) (s : σ) : List (List α) → σ × List β
  | [] => (s, [])
  | block :: blocks =>
    let first := feed step s block
    let rest := feedBlocks step first.1 blocks
    (rest.1, first.2 ++ rest.2)

section Feed

variable {step : σ → α → σ × List β}

/-- Without symbols nothing happens. -/
@[simp] lemma feed_nil (s : σ) : feed step s [] = (s, []) := rfl

/-- The first symbol is taken first. -/
lemma feed_cons (s : σ) (a : α) (as : List α) :
    feed step s (a :: as) =
      ((feed step (step s a).1 as).1, (step s a).2 ++ (feed step (step s a).1 as).2) := rfl

/-- Two lists one after the other are their concatenation. -/
lemma feed_append (s : σ) (as bs : List α) :
    feed step s (as ++ bs) =
      ((feed step (feed step s as).1 bs).1,
        (feed step s as).2 ++ (feed step (feed step s as).1 bs).2) := by
  induction as generalizing s with
  | nil => simp
  | cons a as ih => simp only [List.cons_append, feed_cons, ih, List.append_assoc]

/-- How the symbols are cut into blocks does not matter. -/
theorem feedBlocks_eq_feed (s : σ) (blocks : List (List α)) :
    feedBlocks step s blocks = feed step s blocks.flatten := by
  induction blocks generalizing s with
  | nil => rfl
  | cons block blocks ih =>
    rw [feedBlocks, List.flatten_cons, feed_append]
    simp only [ih]

/-- Symbols that change no state and emit nothing may be left out. -/
theorem feed_filter {p : α → Bool} (hskip : ∀ s a, p a = false → step s a = (s, [])) (s : σ)
    (as : List α) : feed step s (as.filter p) = feed step s as := by
  induction as generalizing s with
  | nil => rfl
  | cons a as ih =>
    cases ha : p a with
    | true => simp only [List.filter_cons_of_pos ha, feed_cons, ih]
    | false =>
      rw [List.filter_cons_of_neg (by simp [ha]), ih, feed_cons, hskip s a ha]
      simp

/-- An invariant of the states that every symbol keeps. -/
theorem feed_invariant {I : σ → Prop} (hstep : ∀ s a, I s → I (step s a).1) {s : σ} (hs : I s)
    (as : List α) : I (feed step s as).1 := by
  induction as generalizing s with
  | nil => exact hs
  | cons a as ih => exact ih (hstep s a hs)

/-- What holds of everything that a symbol emits holds of everything that a list emits. -/
theorem feed_forall {P : β → Prop} (hstep : ∀ s a, ∀ b ∈ (step s a).2, P b) (s : σ)
    (as : List α) : ∀ b ∈ (feed step s as).2, P b := by
  induction as generalizing s with
  | nil => exact fun _ hb => nomatch hb
  | cons a as ih =>
    rw [feed_cons]
    exact List.forall_mem_append.mpr ⟨hstep s a, ih _⟩

/-- If no symbol emits more than `k` symbols, a list of `n` emits at most `k * n`. -/
theorem length_feed_le {k : ℕ} (hstep : ∀ s a, (step s a).2.length ≤ k) (s : σ) (as : List α) :
    (feed step s as).2.length ≤ k * as.length := by
  induction as generalizing s with
  | nil => simp
  | cons a as ih =>
    have hfirst := hstep s a
    have hrest := ih (step s a).1
    rw [feed_cons, List.length_append, List.length_cons, Nat.mul_succ]
    omega

end Feed

/-- **A decoder follows an encoder**: in related states, what the encoder emits for a symbol makes
the decoder emit the symbols that were pending and this one, but for those that are pending then. -/
def Follows (enc : σ → α → σ × List β) (dec : τ → β → τ × List α)
    (R : σ → List α → τ → Prop) : Prop :=
  ∀ s pending t a, R s pending t →
    ∃ pending', pending ++ [a] = (feed dec t (enc s a).2).2 ++ pending' ∧
      R (enc s a).1 pending' (feed dec t (enc s a).2).1

/-- A decoder that follows an encoder turns the code of a list back into the list, but for the
symbols that are pending at its end. -/
theorem Follows.feed {enc : σ → α → σ × List β} {dec : τ → β → τ × List α}
    {R : σ → List α → τ → Prop} (h : Follows enc dec R) {s : σ} {pending : List α} {t : τ}
    (hR : R s pending t) (as : List α) :
    ∃ pending', pending ++ as =
        (Transducer.feed dec t (Transducer.feed enc s as).2).2 ++ pending' ∧
      R (Transducer.feed enc s as).1 pending'
        (Transducer.feed dec t (Transducer.feed enc s as).2).1 := by
  induction as generalizing s pending t with
  | nil => exact ⟨pending, by simp, hR⟩
  | cons a as ih =>
    obtain ⟨mid, hmid, hRmid⟩ := h s pending t a hR
    obtain ⟨last, hlast, hRlast⟩ := ih hRmid
    refine ⟨last, ?_, ?_⟩
    · calc pending ++ a :: as = pending ++ [a] ++ as := by simp
        _ = (Transducer.feed dec t (enc s a).2).2 ++ (mid ++ as) := by
          rw [hmid, List.append_assoc]
        _ = _ := by
          rw [hlast, feed_cons, feed_append]
          simp only [List.append_assoc]
    · rw [feed_cons, feed_append]
      exact hRlast

end Transducer
