import NaoSoccer.Foundation.Outcome
import Mathlib.Algebra.Group.Nat.Defs
import Mathlib.Data.List.Forall2

/-!
# Loops with a narrow counter

A loop over a list whose counter has `w` bits, while the length of the list has more.  The counter
wraps, so the loop visits every element of a list that is shorter than `2 ^ w`, in order and once,
and never ends on a longer one, unless its body fails.
-/

namespace NarrowLoop

universe u v

variable {ε : Type u} {α : Type v} {β : Type v}

/-- `for (i = 0; i < xs.size(); i++)` with a counter of `w` bits, from the index `i` on; `endless`
is the outcome when the given number of passes is not enough. -/
def forEach (w : ℕ) (endless : ε) (xs : List α) (body : β → α → Except ε β) :
    ℕ → ℕ → β → Except ε β
  | 0, _, _ => .error endless
  | passes + 1, i, b =>
    match xs[i]? with
    | none => .ok b
    | some a => body b a >>= forEach w endless xs body passes ((i + 1) % 2 ^ w)

variable {w : ℕ} {endless : ε} {xs : List α} {body : β → α → Except ε β}

/-- From an index on, the loop runs over the rest of a short list. -/
lemma forEach_eq_foldlM_drop (hshort : xs.length < 2 ^ w) {passes i : ℕ}
    (hpasses : xs.length < i + passes) (hi : i ≤ xs.length) (b : β) :
    forEach w endless xs body passes i b = (xs.drop i).foldlM body b := by
  induction passes generalizing i b with
  | zero => exact absurd hpasses (by omega)
  | succ passes ih =>
    rw [forEach]
    rcases Nat.eq_or_lt_of_le hi with heq | hlt
    · rw [List.getElem?_eq_none (Nat.le_of_eq heq.symm), List.drop_of_length_le (Nat.le_of_eq heq.symm)]
      rfl
    · rw [List.getElem?_eq_getElem hlt, List.drop_eq_getElem_cons hlt, List.foldlM_cons,
        Nat.mod_eq_of_lt (by omega : i + 1 < 2 ^ w)]
      exact congrArg _ (funext fun b => ih (by omega) hlt b)

/-- **On a short list the loop visits every element once, in order.** -/
theorem forEach_eq_foldlM (hshort : xs.length < 2 ^ w) {passes : ℕ} (hpasses : xs.length < passes)
    (b : β) : forEach w endless xs body passes 0 b = xs.foldlM body b := by
  have h : forEach w endless xs body passes 0 b = (xs.drop 0).foldlM body b :=
    forEach_eq_foldlM_drop hshort (by omega) (Nat.zero_le _) b
  rwa [List.drop_zero] at h

/-- **On a long list the loop never ends**, whatever number of passes it is given. -/
theorem forEach_ne_ok (hlong : 2 ^ w ≤ xs.length) {passes i : ℕ} (hi : i < 2 ^ w) (b b' : β) :
    forEach w endless xs body passes i b ≠ .ok b' := by
  induction passes generalizing i b with
  | zero => exact nofun
  | succ passes ih =>
    rw [forEach, List.getElem?_eq_getElem (Nat.lt_of_lt_of_le hi hlong)]
    intro h
    obtain ⟨c, -, hc⟩ := Outcome.bind_eq_ok_iff.mp h
    exact ih (Nat.mod_lt _ (Nat.two_pow_pos w)) c hc

/-- A loop that has ended has had enough passes. -/
lemma forEach_ok_passes {passes i : ℕ} {b b' : β}
    (h : forEach w endless xs body passes i b = .ok b') (hi : i ≤ xs.length)
    (hshort : xs.length < 2 ^ w) : xs.length < i + passes := by
  induction passes generalizing i b with
  | zero => exact absurd h nofun
  | succ passes ih =>
    rw [forEach] at h
    rcases Nat.eq_or_lt_of_le hi with heq | hlt
    · omega
    · rw [List.getElem?_eq_getElem hlt, Nat.mod_eq_of_lt (by omega : i + 1 < 2 ^ w)] at h
      obtain ⟨c, -, hc⟩ := Outcome.bind_eq_ok_iff.mp h
      have := ih hc hlt
      omega

/-- A loop that has ended is one over a short list, which it has visited. -/
lemma foldlM_of_forEach_ok {passes : ℕ} {b b' : β}
    (h : forEach w endless xs body passes 0 b = .ok b') :
    xs.length < 2 ^ w ∧ xs.foldlM body b = .ok b' := by
  have hshort : xs.length < 2 ^ w := by
    by_contra hlong
    exact forEach_ne_ok (Nat.le_of_not_lt hlong) (Nat.two_pow_pos w) b b' h
  have hpasses := forEach_ok_passes h (Nat.zero_le _) hshort
  rw [Nat.zero_add] at hpasses
  exact ⟨hshort, forEach_eq_foldlM hshort hpasses b ▸ h⟩

/-- If the body succeeds where an invariant holds and keeps it, so does the loop over a list. -/
lemma exists_foldlM_eq_ok (as : List α) (body : β → α → Except ε β) (I : β → Prop)
    (h : ∀ a ∈ as, ∀ b, I b → ∃ b', body b a = .ok b' ∧ I b') {b : β} (hb : I b) :
    ∃ b', as.foldlM body b = .ok b' ∧ I b' := by
  induction as generalizing b with
  | nil => exact ⟨b, rfl, hb⟩
  | cons a as ih =>
    obtain ⟨ha, has⟩ := List.forall_mem_cons.mp h
    obtain ⟨c, hbody, hc⟩ := ha b hb
    obtain ⟨b', hrest, hb'⟩ := ih has hc
    exact ⟨b', by rw [List.foldlM_cons, hbody, Outcome.ok_bind, hrest], hb'⟩

/-! ## Loops that keep what they have -/

section Keeping

variable {γ : Type v}

/-- The body reads an element and puts it to what it has; if the element cannot be read, it hands
that over with the fault. -/
def keeping (read : α → Except ε γ) (push : β → γ → β) (b : β) (a : α) : Except (ε × β) β :=
  match read a with
  | .ok y => .ok (push b y)
  | .error e => .error (e, b)

variable {read : α → Except ε γ} {push : β → γ → β}

/-- The loop over a list reads all of it, or up to the first element that cannot be read. -/
lemma foldlM_keeping_cases (read : α → Except ε γ) (push : β → γ → β) (as : List α) (b : β) :
    (∃ ys, List.Forall₂ (fun a y => read a = .ok y) as ys ∧
        as.foldlM (keeping read push) b = .ok (ys.foldl push b)) ∨
      ∃ before a after e ys, as = before ++ a :: after ∧
        List.Forall₂ (fun a y => read a = .ok y) before ys ∧ read a = .error e ∧
        as.foldlM (keeping read push) b = .error (e, ys.foldl push b) := by
  induction as generalizing b with
  | nil => exact Or.inl ⟨[], .nil, rfl⟩
  | cons a as ih =>
    cases hread : read a with
    | error e =>
      refine Or.inr ⟨[], a, as, e, [], rfl, .nil, hread, ?_⟩
      rw [List.foldlM_cons, keeping, hread]
      rfl
    | ok y =>
      have hcons : (a :: as).foldlM (keeping read push) b =
          as.foldlM (keeping read push) (push b y) := by
        rw [List.foldlM_cons, keeping, hread]
        rfl
      rw [hcons]
      rcases ih (push b y) with ⟨ys, hys, hloop⟩ | ⟨before, a', after, e, ys, rfl, hys, he, hloop⟩
      · exact Or.inl ⟨y :: ys, .cons hread hys, hloop⟩
      · exact Or.inr ⟨a :: before, a', after, e, y :: ys, rfl, .cons hread hys, he, hloop⟩

/-- What has been read can be read. -/
lemma exists_read_of_forall₂ {as : List α} {ys : List γ}
    (h : List.Forall₂ (fun a y => read a = .ok y) as ys) : ∀ a ∈ as, ∃ y, read a = .ok y := by
  induction h with
  | nil => exact fun a ha => absurd ha List.not_mem_nil
  | cons ha _ ih => exact List.forall_mem_cons.mpr ⟨⟨_, ha⟩, ih⟩

/-- Of the elements that a counter of `w` bits reaches, `before` can be read, and the next one fails
with `e`. -/
def FirstFault (w : ℕ) (read : α → Except ε γ) (xs before : List α) (e : ε) : Prop :=
  ∃ a after, xs.take (2 ^ w) = before ++ a :: after ∧ (∀ b ∈ before, ∃ y, read b = .ok y) ∧
    read a = .error e

/-- What comes before the first fault can be read. -/
lemma FirstFault.readable {before : List α} {e : ε} (h : FirstFault w read xs before e) :
    ∀ b ∈ before, ∃ y, read b = .ok y := by
  obtain ⟨_, _, -, hbefore, -⟩ := h
  exact hbefore

/-- There is one first fault at most. -/
lemma FirstFault.unique {before before' : List α} {e e' : ε} (h : FirstFault w read xs before e)
    (h' : FirstFault w read xs before' e') : before = before' ∧ e = e' := by
  obtain ⟨a, after, hsplit, hbefore, he⟩ := h
  obtain ⟨a', after', hsplit', hbefore', he'⟩ := h'
  rw [hsplit] at hsplit'
  clear hsplit
  induction before generalizing before' with
  | nil =>
    cases before' with
    | nil =>
      obtain ⟨rfl, -⟩ := List.cons.inj hsplit'
      exact ⟨rfl, Except.error.inj (he.symm.trans he')⟩
    | cons b before' =>
      obtain ⟨rfl, -⟩ := List.cons.inj hsplit'
      obtain ⟨y, hy⟩ := hbefore' a List.mem_cons_self
      exact absurd (he.symm.trans hy) (by simp)
  | cons b before ih =>
    cases before' with
    | nil =>
      obtain ⟨rfl, -⟩ := List.cons.inj hsplit'
      obtain ⟨y, hy⟩ := hbefore b List.mem_cons_self
      exact absurd (he'.symm.trans hy) (by simp)
    | cons b' before' =>
      obtain ⟨rfl, hrest⟩ := List.cons.inj hsplit'
      obtain ⟨rfl, rfl⟩ := ih (fun b hb => hbefore b (List.mem_cons_of_mem _ hb)) hrest
        fun b hb => hbefore' b (List.mem_cons_of_mem _ hb)
      exact ⟨rfl, rfl⟩

/-- Where everything can be read there is no fault. -/
lemma not_firstFault {before : List α} {e : ε}
    (h : ∀ a ∈ xs.take (2 ^ w), ∃ y, read a = .ok y) : ¬ FirstFault w read xs before e := by
  rintro ⟨a, after, hsplit, -, he⟩
  obtain ⟨y, hy⟩ := h a (by rw [hsplit]; exact List.mem_append_right _ List.mem_cons_self)
  exact absurd (he.symm.trans hy) (by simp)

/-- A fault in the elements that the counter reaches ends the loop. -/
lemma forEach_eq_error_of_foldlM {e : ε} {passes i : ℕ} {b : β}
    (h : ((xs.take (2 ^ w)).drop i).foldlM body b = .error e) (hpasses : 2 ^ w ≤ i + passes)
    (hi : i < 2 ^ w) : forEach w endless xs body passes i b = .error e := by
  induction passes generalizing i b with
  | zero => exact absurd hpasses (by omega)
  | succ passes ih =>
    have hlt : i < (xs.take (2 ^ w)).length := by
      by_contra hge
      rw [List.drop_of_length_le (Nat.le_of_not_lt hge)] at h
      exact absurd h (by simp [pure, Except.pure])
    have hget : (xs.take (2 ^ w))[i]? = xs[i]? := List.getElem?_take_of_lt hi
    rw [List.drop_eq_getElem_cons hlt, List.foldlM_cons] at h
    rw [forEach, ← hget, List.getElem?_eq_getElem hlt]
    dsimp only
    cases hbody : body b (xs.take (2 ^ w))[i] with
    | error e' =>
      rw [hbody] at h
      exact h
    | ok b' =>
      rw [hbody, Outcome.ok_bind] at h
      have hnext : i + 1 < 2 ^ w := by
        by_contra hge
        have hlength := List.length_take_le (2 ^ w) xs
        rw [List.drop_of_length_le (by omega)] at h
        exact absurd h (by simp [pure, Except.pure])
      rw [Outcome.ok_bind, Nat.mod_eq_of_lt hnext]
      exact ih h (by omega) hnext

/-- If the body never fails on the elements that the counter reaches, a long loop does not end. -/
lemma forEach_eq_endless (hlong : 2 ^ w ≤ xs.length)
    (h : ∀ a ∈ xs.take (2 ^ w), ∀ b, ∃ b', body b a = .ok b') {passes i : ℕ} (hi : i < 2 ^ w)
    (b : β) : forEach w endless xs body passes i b = .error endless := by
  induction passes generalizing i b with
  | zero => rfl
  | succ passes ih =>
    have hlt : i < xs.length := Nat.lt_of_lt_of_le hi hlong
    obtain ⟨b', hb'⟩ := h xs[i] (List.mem_take_iff_getElem.mpr ⟨i, by omega, rfl⟩) b
    rw [forEach, List.getElem?_eq_getElem hlt]
    dsimp only
    rw [hb', Outcome.ok_bind]
    exact ih (Nat.mod_lt _ (Nat.two_pow_pos w)) b'

/-- **What becomes of a loop that keeps what it has**: it reads all of a short list, it ends at the
first element that cannot be read, or it does not end. -/
lemma forEach_keeping_cases (read : α → Except ε γ) (push : β → γ → β) (endless : ε × β)
    (xs : List α) (b : β) {passes : ℕ} (hpasses : 2 ^ w < passes) :
    (∃ ys, xs.length < 2 ^ w ∧ List.Forall₂ (fun a y => read a = .ok y) xs ys ∧
        forEach w endless xs (keeping read push) passes 0 b = .ok (ys.foldl push b)) ∨
      (∃ before e ys, FirstFault w read xs before e ∧
        List.Forall₂ (fun a y => read a = .ok y) before ys ∧
        forEach w endless xs (keeping read push) passes 0 b = .error (e, ys.foldl push b)) ∨
      2 ^ w ≤ xs.length ∧ (∀ a ∈ xs.take (2 ^ w), ∃ y, read a = .ok y) ∧
        forEach w endless xs (keeping read push) passes 0 b = .error endless := by
  rcases foldlM_keeping_cases read push (xs.take (2 ^ w)) b with
    ⟨ys, hys, hloop⟩ | ⟨before, a, after, e, ys, hsplit, hys, he, hloop⟩
  · rcases Nat.lt_or_ge xs.length (2 ^ w) with hshort | hlong
    · rw [List.take_of_length_le (Nat.le_of_lt hshort)] at hys hloop
      refine Or.inl ⟨ys, hshort, hys, ?_⟩
      rw [forEach_eq_foldlM hshort (by omega), hloop]
    · have hread := exists_read_of_forall₂ hys
      refine Or.inr (Or.inr ⟨hlong, hread, forEach_eq_endless hlong (fun a ha b => ?_)
        (Nat.two_pow_pos w) b⟩)
      obtain ⟨y, hy⟩ := hread a ha
      exact ⟨push b y, by rw [keeping, hy]⟩
  · refine Or.inr (Or.inl ⟨before, e, ys, ⟨a, after, hsplit, exists_read_of_forall₂ hys, he⟩, hys, ?_⟩)
    exact forEach_eq_error_of_foldlM hloop (by omega) (Nat.two_pow_pos w)

/-- If everything can be read, there is what is read. -/
lemma exists_forall₂_of_read {as : List α} (h : ∀ a ∈ as, ∃ y, read a = .ok y) :
    ∃ ys, List.Forall₂ (fun a y => read a = .ok y) as ys := by
  induction as with
  | nil => exact ⟨[], .nil⟩
  | cons a as ih =>
    obtain ⟨⟨y, hy⟩, has⟩ := List.forall_mem_cons.mp h
    obtain ⟨ys, hys⟩ := ih has
    exact ⟨y :: ys, .cons hy hys⟩

/-- What is read of a list is one thing. -/
lemma eq_of_forall₂_read {as : List α} {ys ys' : List γ}
    (h : List.Forall₂ (fun a y => read a = .ok y) as ys)
    (h' : List.Forall₂ (fun a y => read a = .ok y) as ys') : ys = ys' :=
  List.right_unique_forall₂' (fun _ _ _ hy hy' => Except.ok.inj (hy.symm.trans hy')) h h'

/-- **When the loop ends well**: it has read all of a short list. -/
lemma forEach_keeping_eq_ok_iff {endless : ε × β} {xs : List α} {b b' : β} {passes : ℕ}
    (hpasses : 2 ^ w < passes) :
    forEach w endless xs (keeping read push) passes 0 b = .ok b' ↔
      xs.length < 2 ^ w ∧ ∃ ys, List.Forall₂ (fun a y => read a = .ok y) xs ys ∧
        ys.foldl push b = b' := by
  constructor
  · intro h
    rcases forEach_keeping_cases read push endless xs b hpasses with
      ⟨ys, hshort, hys, hloop⟩ | ⟨_, _, _, _, _, hloop⟩ | ⟨_, _, hloop⟩
    · exact ⟨hshort, ys, hys, Except.ok.inj (hloop.symm.trans h)⟩
    · exact absurd (hloop.symm.trans h) (by simp)
    · exact absurd (hloop.symm.trans h) (by simp)
  · rintro ⟨hshort, ys, hys, rfl⟩
    rcases forEach_keeping_cases read push endless xs b hpasses with
      ⟨ys', -, hys', hloop⟩ | ⟨_, _, _, hfirst, _, _⟩ | ⟨hlong, _, _⟩
    · rw [hloop, eq_of_forall₂_read hys hys']
    · refine absurd hfirst (not_firstFault fun a ha => ?_)
      exact exists_read_of_forall₂ hys a (List.mem_of_mem_take ha)
    · omega

/-- **When the loop leaves something behind**: what it has at a fault of some kind is what was there
before, exactly if this is so at the first fault. -/
lemma forEach_keeping_error_iff {endless : ε × β} {xs : List α} {b b₀ : β} {passes : ℕ}
    (hpasses : 2 ^ w < passes) {P : ε → Prop} (hendless : ¬ P endless.1) :
    (∀ e b', forEach w endless xs (keeping read push) passes 0 b = .error (e, b') → P e →
        b' = b₀) ↔
      ∀ before e ys, FirstFault w read xs before e →
        List.Forall₂ (fun a y => read a = .ok y) before ys → P e → ys.foldl push b = b₀ := by
  rcases forEach_keeping_cases read push endless xs b hpasses with
    ⟨ys, _, hys, hloop⟩ | ⟨before, e, ys, hfirst, hys, hloop⟩ | ⟨_, hread, hloop⟩
  · refine iff_of_true (fun e b' h => absurd (hloop.symm.trans h) (by simp)) fun _ _ _ hfirst => ?_
    exact absurd hfirst (not_firstFault fun a ha =>
      exists_read_of_forall₂ hys a (List.mem_of_mem_take ha))
  · constructor
    · intro h before' e' ys' hfirst' hys' hP
      obtain ⟨rfl, rfl⟩ := hfirst.unique hfirst'
      rw [← eq_of_forall₂_read hys hys']
      exact h e _ hloop hP
    · intro h e' b' herror hP
      obtain ⟨rfl, rfl⟩ := Prod.mk.inj (Except.error.inj (hloop.symm.trans herror))
      exact h before e ys hfirst hys hP
  · refine iff_of_true (fun e b' h hP => ?_) fun _ _ _ hfirst => absurd hfirst (not_firstFault hread)
    rw [hloop] at h
    exact absurd (congrArg Prod.fst (Except.error.inj h) ▸ hP) hendless

end Keeping

/-! ## Loops that append -/

section Append

variable {γ : Type v} {f : List γ → α → Except ε γ}

/-- The body appends what it makes of each element. -/
def appending (f : List γ → α → Except ε γ) (ys : List γ) (a : α) : Except ε (List γ) :=
  f ys a >>= fun y => .ok (ys ++ [y])

/-- If the body makes something of the image of every element, the loop makes it of all of them, in
order. -/
lemma foldlM_appending {δ : Type v} {g : δ → α} {R : δ → γ → Prop} {ds : List δ}
    (h : ∀ d ∈ ds, ∀ ys, ∃ y, f ys (g d) = .ok y ∧ R d y) (ys : List γ) :
    ∃ zs, (ds.map g).foldlM (appending f) ys = .ok (ys ++ zs) ∧ List.Forall₂ R ds zs := by
  induction ds generalizing ys with
  | nil => exact ⟨[], congrArg Except.ok (List.append_nil ys).symm, List.Forall₂.nil⟩
  | cons d ds ih =>
    obtain ⟨hd, hds⟩ := List.forall_mem_cons.mp h
    obtain ⟨y, hy, hR⟩ := hd ys
    obtain ⟨zs, hzs, hforall⟩ := ih hds (ys ++ [y])
    refine ⟨y :: zs, ?_, List.Forall₂.cons hR hforall⟩
    rw [List.map_cons, List.foldlM_cons, appending, hy, Outcome.ok_bind, Outcome.ok_bind, hzs,
      List.append_assoc]
    rfl

/-- If the body makes of the image of every element what a function says, so does the loop. -/
lemma foldlM_appending_map {δ : Type v} {g : δ → α} {k : δ → γ} {ds : List δ}
    (h : ∀ d ∈ ds, ∀ ys, f ys (g d) = .ok (k d)) (ys : List γ) :
    (ds.map g).foldlM (appending f) ys = .ok (ys ++ ds.map k) := by
  obtain ⟨zs, hzs, hforall⟩ := foldlM_appending (R := fun d y => k d = y)
    (fun d hd ys => ⟨k d, h d hd ys, rfl⟩) ys
  rw [← List.forall₂_map_left_iff (R := Eq), List.forall₂_eq_eq_eq] at hforall
  rw [hzs, hforall]

/-- If the loop succeeds, it has appended what its body makes of each element. -/
lemma forall₂_of_foldlM_appending {xs : List α} {ys zs : List γ}
    (h : xs.foldlM (appending f) ys = .ok zs) :
    ∃ zs', zs = ys ++ zs' ∧ List.Forall₂ (fun a y => ∃ ys', f ys' a = .ok y) xs zs' := by
  induction xs generalizing ys with
  | nil =>
    cases h
    exact ⟨[], (List.append_nil _).symm, List.Forall₂.nil⟩
  | cons a xs ih =>
    rw [List.foldlM_cons] at h
    obtain ⟨ys', hhead, hrest⟩ := Outcome.bind_eq_ok_iff.mp h
    obtain ⟨y, hy, happend⟩ := Outcome.bind_eq_ok_iff.mp hhead
    obtain rfl : ys ++ [y] = ys' := Except.ok.inj happend
    obtain ⟨zs', rfl, hforall⟩ := ih hrest
    refine ⟨y :: zs', ?_, List.Forall₂.cons ⟨ys, hy⟩ hforall⟩
    rw [List.append_assoc]
    rfl

/-- If the loop succeeds, its body does on every element. -/
lemma body_of_foldlM_appending {xs : List α} {ys zs : List γ}
    (h : xs.foldlM (appending f) ys = .ok zs) : ∀ a ∈ xs, ∃ ys' y, f ys' a = .ok y := by
  obtain ⟨zs', -, hforall⟩ := forall₂_of_foldlM_appending h
  clear h
  induction hforall with
  | nil => exact fun a ha => absurd ha List.not_mem_nil
  | cons hy _ ih =>
    obtain ⟨ys', hy⟩ := hy
    exact List.forall_mem_cons.mpr ⟨⟨ys', _, hy⟩, ih⟩

/-- **A short loop that appends** makes of the images of a list what its body makes of each. -/
lemma forEach_appending {δ : Type v} (endless : ε) {g : δ → α} {R : δ → γ → Prop} {ds : List δ}
    (hshort : ds.length < 2 ^ w) (h : ∀ d ∈ ds, ∀ ys, ∃ y, f ys (g d) = .ok y ∧ R d y)
    {passes : ℕ} (hpasses : ds.length < passes) :
    ∃ zs, forEach w endless (ds.map g) (appending f) passes 0 [] = .ok zs ∧
      List.Forall₂ R ds zs := by
  rw [← List.length_map g] at hshort hpasses
  rw [forEach_eq_foldlM hshort hpasses]
  exact foldlM_appending h []

/-- A short loop that appends what a function says. -/
lemma forEach_appending_map {δ : Type v} (endless : ε) {g : δ → α} {k : δ → γ} {ds : List δ}
    (hshort : ds.length < 2 ^ w) (h : ∀ d ∈ ds, ∀ ys, f ys (g d) = .ok (k d)) {passes : ℕ}
    (hpasses : ds.length < passes) :
    forEach w endless (ds.map g) (appending f) passes 0 [] = .ok (ds.map k) := by
  rw [← List.length_map g] at hshort hpasses
  rw [forEach_eq_foldlM hshort hpasses]
  exact foldlM_appending_map h []

/-- A loop whose body appends what a function has for each element. -/
lemma foldlM_append {g : α → List γ} (xs : List α) (ys : List γ) :
    xs.foldlM (fun ys a => (.ok (ys ++ g a) : Except ε (List γ))) ys = .ok (ys ++ xs.flatMap g) := by
  induction xs generalizing ys with
  | nil => exact congrArg Except.ok (List.append_nil ys).symm
  | cons a xs ih =>
    rw [List.foldlM_cons, Outcome.ok_bind, ih, List.flatMap_cons, List.append_assoc]

/-- **A loop that concatenates** ends exactly on a short list, and then it has the concatenation. -/
lemma exists_forEach_append_iff {g : α → List γ} {zs : List γ} :
    (∃ passes, forEach w endless xs (fun ys a => .ok (ys ++ g a)) passes 0 [] = .ok zs) ↔
      xs.length < 2 ^ w ∧ xs.flatMap g = zs := by
  constructor
  · rintro ⟨passes, h⟩
    obtain ⟨hshort, hfold⟩ := foldlM_of_forEach_ok h
    rw [foldlM_append, List.nil_append] at hfold
    exact ⟨hshort, Except.ok.inj hfold⟩
  · rintro ⟨hshort, rfl⟩
    refine ⟨xs.length + 1, ?_⟩
    rw [forEach_eq_foldlM hshort (Nat.lt_succ_self _), foldlM_append, List.nil_append]

end Append

end NarrowLoop
