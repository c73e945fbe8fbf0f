import Mathlib.Data.Set.Function
import Mathlib.Logic.Function.Basic

/-!
# Memo tables with keys

A function is asked through a table of the answers so far, which stands under a key that is computed
of the argument.  An answer, once it is in the table, stays.

The table is `Sound` on a set of arguments if what it has for their keys is right.  If no two of
them share a key, then every answer is right (`Sound.ask`).  If some do, `filterAsk_eq_filter` says
what is selected from a list all the same: the arguments whose keys have a positive answer in the
table that is left.
-/

namespace KeyedMemo

variable {α κ β : Type*} [DecidableEq κ]

/-- The answer for one argument, and the table behind it. -/
def ask (key : α → κ) (f : α → β) (a : α) (table : κ → Option β) : β × (κ → Option β) :=
  match table (key a) with
  | some b => (b, table)
  | none => (f a, Function.update table (key a) (some (f a)))

/-- The arguments of a list for which the answer is positive, and the table behind it. -/
def filterAsk (key : α → κ) (f : α → Bool) : List α → (κ → Option Bool) →
    List α × (κ → Option Bool)
  | [], table => ([], table)
  | a :: as, table =>
    let answer := ask key f a table
    let rest := filterAsk key f as answer.2
    (if answer.1 then a :: rest.1 else rest.1, rest.2)

variable {key : α → κ}

/-! ## What is in the table -/

section Ask

variable {f : α → β} {a : α} {table : κ → Option β}

/-- An answer that is in the table. -/
lemma ask_of_some {b : β} (h : table (key a) = some b) : ask key f a table = (b, table) := by
  rw [ask, h]

/-- An answer that is not in the table is put there. -/
lemma ask_of_none (h : table (key a) = none) :
    ask key f a table = (f a, Function.update table (key a) (some (f a))) := by
  rw [ask, h]

/-- The answer is that of the table, or else that of the function. -/
lemma ask_fst : (ask key f a table).1 = (table (key a)).getD (f a) := by
  cases h : table (key a) with
  | some b => rw [ask_of_some h, Option.getD_some]
  | none => rw [ask_of_none h, Option.getD_none]

/-- The answer is in the table afterwards. -/
lemma ask_snd_key : (ask key f a table).2 (key a) = some (ask key f a table).1 := by
  cases h : table (key a) with
  | some b =>
    rw [ask_of_some h]
    exact h
  | none =>
    rw [ask_of_none h]
    exact Function.update_self _ _ _

/-- What was in the table stays there. -/
lemma ask_snd_of_some {k : κ} {b : β} (h : table k = some b) :
    (ask key f a table).2 k = some b := by
  cases ha : table (key a) with
  | some b' =>
    rw [ask_of_some ha]
    exact h
  | none =>
    have hne : k ≠ key a := by
      rintro rfl
      rw [ha] at h
      exact absurd h (by simp)
    rw [ask_of_none ha]
    exact (Function.update_of_ne hne _ _).trans h

/-- What is in the table afterwards was there or is the answer for the argument. -/
lemma eq_of_ask_snd {k : κ} {b : β} (h : (ask key f a table).2 k = some b) :
    table k = some b ∨ key a = k ∧ f a = b := by
  cases ha : table (key a) with
  | some b' =>
    rw [ask_of_some ha] at h
    exact Or.inl h
  | none =>
    rw [ask_of_none ha] at h
    change Function.update table (key a) (some (f a)) k = some b at h
    by_cases hk : k = key a
    · subst hk
      rw [Function.update_self] at h
      exact Or.inr ⟨rfl, Option.some.inj h⟩
    · rw [Function.update_of_ne hk] at h
      exact Or.inl h

end Ask

/-! ## Right answers -/

/-- What the table has for the keys of some arguments is right. -/
def Sound (key : α → κ) (f : α → β) (D : Set α) (table : κ → Option β) : Prop :=
  ∀ a ∈ D, ∀ b, table (key a) = some b → b = f a

variable {D : Set α}

omit [DecidableEq κ] in
/-- An empty table is right. -/
lemma sound_empty {f : α → β} : Sound key f D fun _ => none := by
  intro a _ b h
  exact absurd h (by simp)

/-- **Where keys are not shared every answer is right**, and the table stays so. -/
lemma Sound.ask {f : α → β} {table : κ → Option β} (h : Sound key f D table)
    (hkey : Set.InjOn key D) {a : α} (ha : a ∈ D) :
    (ask key f a table).1 = f a ∧ Sound key f D (ask key f a table).2 := by
  constructor
  · cases hentry : table (key a) with
    | some b =>
      rw [ask_of_some hentry]
      exact h a ha b hentry
    | none => rw [ask_of_none hentry]
  · intro a' ha' b hb
    rcases eq_of_ask_snd hb with hold | ⟨hk, rfl⟩
    · exact h a' ha' b hold
    · rw [hkey ha ha' hk]

section Filter

variable {f : α → Bool}

/-- Where keys are not shared the right arguments are selected, and the table stays right. -/
lemma Sound.filterAsk {table : κ → Option Bool} (h : Sound key f D table)
    (hkey : Set.InjOn key D) {as : List α} (has : ∀ a ∈ as, a ∈ D) :
    (filterAsk key f as table).1 = as.filter f ∧ Sound key f D (filterAsk key f as table).2 := by
  induction as generalizing table with
  | nil => exact ⟨rfl, h⟩
  | cons a as ih =>
    obtain ⟨ha, has⟩ := List.forall_mem_cons.mp has
    obtain ⟨hanswer, hsound⟩ := h.ask hkey ha
    obtain ⟨hrest, hsound'⟩ := ih hsound has
    refine ⟨?_, hsound'⟩
    rw [KeyedMemo.filterAsk, List.filter_cons, ← hrest, hanswer]

/-! ## Answers under shared keys -/

/-- What was in the table stays there. -/
lemma filterAsk_snd_of_some {as : List α} {table : κ → Option Bool} {k : κ} {b : Bool}
    (h : table k = some b) : (filterAsk key f as table).2 k = some b := by
  induction as generalizing table with
  | nil => exact h
  | cons a as ih => exact ih (ask_snd_of_some h)

/-- What is in the table afterwards was there or is the answer for one of the arguments. -/
lemma eq_of_filterAsk_snd {as : List α} {table : κ → Option Bool} {k : κ} {b : Bool}
    (h : (filterAsk key f as table).2 k = some b) :
    table k = some b ∨ ∃ a ∈ as, key a = k ∧ f a = b := by
  induction as generalizing table with
  | nil => exact Or.inl h
  | cons a as ih =>
    rcases ih h with hask | ⟨a', ha', hk⟩
    · rcases eq_of_ask_snd hask with hold | hnew
      · exact Or.inl hold
      · exact Or.inr ⟨a, List.mem_cons_self, hnew⟩
    · exact Or.inr ⟨a', List.mem_cons_of_mem a ha', hk⟩

/-- The keys of all arguments are in the table afterwards. -/
lemma isSome_filterAsk_snd {as : List α} {table : κ → Option Bool} :
    ∀ a ∈ as, ((filterAsk key f as table).2 (key a)).isSome = true := by
  induction as generalizing table with
  | nil => exact fun a ha => absurd ha List.not_mem_nil
  | cons a as ih =>
    refine List.forall_mem_cons.mpr ⟨?_, ih⟩
    rw [filterAsk, filterAsk_snd_of_some ask_snd_key]
    rfl

/-- **The arguments that are selected** are those whose keys have a positive answer in the table
that is left. -/
lemma filterAsk_eq_filter (as : List α) (table : κ → Option Bool) :
    (filterAsk key f as table).1 =
      as.filter fun a => (filterAsk key f as table).2 (key a) = some true := by
  induction as generalizing table with
  | nil => rfl
  | cons a as ih =>
    have hanswer : (filterAsk key f (a :: as) table).2 (key a) =
        some (ask key f a table).1 := by
      rw [filterAsk]
      exact filterAsk_snd_of_some ask_snd_key
    rw [List.filter_cons, hanswer]
    show (if (ask key f a table).1 then a :: (filterAsk key f as (ask key f a table).2).1
        else (filterAsk key f as (ask key f a table).2).1) = _
    rw [ih]
    cases (ask key f a table).1 <;> rfl

/-- If the keys of all arguments are in the table, it alone says what is selected. -/
lemma filterAsk_eq_filter_of_isSome {as : List α} {table : κ → Option Bool}
    (h : ∀ a ∈ as, (table (key a)).isSome = true) :
    (filterAsk key f as table).1 = as.filter fun a => table (key a) = some true := by
  rw [filterAsk_eq_filter]
  refine List.filter_congr fun a ha => ?_
  obtain ⟨b, hb⟩ := Option.isSome_iff_exists.mp (h a ha)
  rw [hb, filterAsk_snd_of_some hb]

/-- **A selection is what single questions say exactly if** no two arguments with one key, for which
there is no answer yet, are told apart. -/
lemma forall_ask_iff_mem_filterAsk {as : List α} {table : κ → Option Bool} :
    (∀ a ∈ as, (ask key f a table).1 = true ↔ a ∈ (filterAsk key f as table).1) ↔
      ∀ a ∈ as, ∀ a' ∈ as, key a = key a' → table (key a) = none → f a = f a' := by
  have hmem {a : α} (ha : a ∈ as) : a ∈ (filterAsk key f as table).1 ↔
      (filterAsk key f as table).2 (key a) = some true := by
    rw [filterAsk_eq_filter, List.mem_filter, and_iff_right ha, decide_eq_true_iff]
  constructor
  · intro h a ha a' ha' hkey hnone
    have hanswer := (h a ha).trans (hmem ha)
    have hanswer' := (h a' ha').trans (hmem ha')
    rw [ask_of_none hnone] at hanswer
    rw [ask_of_none (hkey ▸ hnone), ← hkey] at hanswer'
    exact Bool.eq_iff_iff.mpr (hanswer.trans hanswer'.symm)
  · intro h a ha
    rw [hmem ha]
    cases hentry : table (key a) with
    | some b =>
      rw [ask_of_some hentry, filterAsk_snd_of_some hentry, Option.some_inj]
    | none =>
      have hsome : ((filterAsk key f as table).2 (key a)).isSome = true := isSome_filterAsk_snd a ha
      obtain ⟨b, hb⟩ := Option.isSome_iff_exists.mp hsome
      rw [ask_of_none hentry, hb, Option.some_inj]
      rcases eq_of_filterAsk_snd hb with hold | ⟨a', ha', hkey, hf⟩
      · exact absurd (hentry.symm.trans hold) (by simp)
      · rw [h a ha a' ha' hkey.symm hentry, hf]

end Filter

end KeyedMemo
