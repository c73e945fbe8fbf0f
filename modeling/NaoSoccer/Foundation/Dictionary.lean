import Mathlib.Data.List.AList
import Mathlib.Data.List.Perm.Subperm

/-!
# Dictionaries

A dictionary is an `AList`, which has each key once.  Entries are stored one after the other, and a
later one replaces an earlier one of the same key, so the dictionary has the last value of every
key (`lookup_store`).
-/

namespace Dictionary

open scoped List

variable {K V : Type*} [DecidableEq K]

/-- The entries are stored one after the other. -/
def store (dict : AList fun _ : K => V) (entries : List (K × V)) : AList fun _ : K => V :=
  entries.foldl (fun dict entry => dict.insert entry.1 entry.2) dict

/-- The value in the last entry with a key. -/
def lastValue : List (K × V) → K → Option V
  | [], _ => none
  | entry :: entries, key =>
    (lastValue entries key).or (if entry.1 = key then some entry.2 else none)

/-- The test whether two dictionaries have the same keys. -/
def SameKeys (dict other : AList fun _ : K => V) : Prop :=
  dict.keys.length = other.keys.length ∧ ∀ key ∈ dict.keys, key ∈ other

instance (dict other : AList fun _ : K => V) : Decidable (SameKeys dict other) :=
  inferInstanceAs (Decidable (_ ∧ _))

variable {dict other : AList fun _ : K => V} {entries : List (K × V)} {key : K}

/-- **The last value of a key is stored**, or its old one if there is none. -/
lemma lookup_store : (store dict entries).lookup key =
    (lastValue entries key).or (dict.lookup key) := by
  induction entries generalizing dict with
  | nil => rfl
  | cons entry entries ih =>
    rw [store, List.foldl_cons, ← store, ih, lastValue, Option.or_assoc]
    congr 1
    split
    next heq =>
      rw [← heq, AList.lookup_insert]
      rfl
    next hne =>
      rw [AList.lookup_insert_ne (Ne.symm hne)]
      rfl

/-- The keys are those of the entries and the old ones. -/
lemma mem_store : key ∈ store dict entries ↔ key ∈ entries.map Prod.fst ∨ key ∈ dict := by
  induction entries generalizing dict with
  | nil => exact (or_iff_right List.not_mem_nil).symm
  | cons entry entries ih =>
    rw [store, List.foldl_cons, ← store, ih, AList.mem_insert, List.map_cons, List.mem_cons,
      or_left_comm, or_assoc]

/-- The last value is the value of an entry. -/
lemma mem_of_lastValue {value : V} (h : lastValue entries key = some value) :
    (key, value) ∈ entries := by
  induction entries with
  | nil => exact absurd h (by simp [lastValue])
  | cons entry entries ih =>
    rw [lastValue, Option.or_eq_some_iff] at h
    rcases h with h | ⟨-, h⟩
    · exact List.mem_cons_of_mem _ (ih h)
    · split at h
      next heq =>
        rw [← heq, ← Option.some.inj h]
        exact List.mem_cons_self
      · exact absurd h (by simp)

/-- A key of an entry has a last value. -/
lemma exists_lastValue (h : key ∈ entries.map Prod.fst) :
    ∃ value, lastValue entries key = some value := by
  have hmem : key ∈ store (∅ : AList fun _ : K => V) entries := mem_store.mpr (Or.inl h)
  obtain ⟨value, hvalue⟩ := Option.isSome_iff_exists.mp (AList.lookup_isSome.mpr hmem)
  rw [lookup_store, AList.lookup_empty, Option.or_none] at hvalue
  exact ⟨value, hvalue⟩

/-- A dictionary can be written as its entries, in any order. -/
lemma lastValue_of_perm (h : entries ~ dict.entries.map fun entry => (entry.1, entry.2)) :
    lastValue entries key = dict.lookup key := by
  have hmem {value : V} : (key, value) ∈ entries ↔ value ∈ dict.lookup key := by
    rw [h.mem_iff, AList.mem_lookup_iff, List.mem_map]
    exact ⟨fun ⟨entry, hentry, heq⟩ => by
      obtain ⟨rfl, rfl⟩ := Prod.mk.inj heq
      exact hentry, fun hentry => ⟨_, hentry, rfl⟩⟩
  rcases hlast : lastValue entries key with _ | value
  · symm
    rw [Option.eq_none_iff_forall_not_mem]
    intro value hvalue
    have hkey : key ∈ entries.map Prod.fst := List.mem_map_of_mem (hmem.mpr hvalue)
    obtain ⟨value', hvalue'⟩ := exists_lastValue hkey
    rw [hlast] at hvalue'
    exact absurd hvalue' (by simp)
  · exact (hmem.mp (mem_of_lastValue hlast)).symm

omit [DecidableEq K] in
/-- **The test is passed by the dictionaries with the same keys.** -/
lemma sameKeys_iff : SameKeys dict other ↔ ∀ key, key ∈ dict ↔ key ∈ other := by
  constructor
  · rintro ⟨hlength, hsubset⟩ key
    have hperm : dict.keys ~ other.keys :=
      (dict.keys_nodup.subperm hsubset).perm_of_length_le (Nat.le_of_eq hlength.symm)
    exact hperm.mem_iff
  · intro h
    have hperm : dict.keys ~ other.keys :=
      (List.perm_ext_iff_of_nodup dict.keys_nodup other.keys_nodup).mpr h
    exact ⟨hperm.length_eq, fun key hkey => (h key).mp hkey⟩

end Dictionary
