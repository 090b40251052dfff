import Mathlib.Logic.Function.Basic
import Mathlib.Tactic.SplitIfs

/-!
# Finite tables as partial functions

`Table K V` is the content of a hash map: `m k` is the value stored under `k`, if any. Equality is equality of
contents. `insert`, `remove`, `retain`, `containsKey` and `empty` are the operations the programs use.

`InverseOf rev m f` : `rev` is the reverse map of `m`, from a mark of each value to its key; insertions under a new mark
and removals on both sides keep it exact.
-/

namespace Lib

/-- The content of a hash map. -/
abbrev Table (K V : Type) := K → Option V

namespace Table

variable {K V : Type}

def empty : Table K V := fun _ => none

def containsKey (m : Table K V) (k : K) : Bool := (m k).isSome

/-- Keep the entries satisfying `p`. -/
def retain (m : Table K V) (p : K → V → Bool) : Table K V := fun k => (m k).filter (p k)

@[simp] theorem empty_apply (k : K) : (empty : Table K V) k = none := rfl

theorem retain_eq_some {m : Table K V} {p : K → V → Bool} {k : K} {v : V} :
    m.retain p k = some v ↔ m k = some v ∧ p k v = true := by
  simp [retain, Option.filter_eq_some_iff]

variable [DecidableEq K]

def insert (m : Table K V) (k : K) (v : V) : Table K V := Function.update m k (some v)

def remove (m : Table K V) (k : K) : Table K V := Function.update m k none

@[simp] theorem insert_self (m : Table K V) (k : K) (v : V) : m.insert k v k = some v := by
  simp [insert]

theorem insert_ne (m : Table K V) {k k' : K} (v : V) (h : k' ≠ k) : m.insert k v k' = m k' := by
  simp [insert, h]

theorem insert_apply (m : Table K V) (k k' : K) (v : V) :
    m.insert k v k' = if k' = k then some v else m k' := by
  by_cases h : k' = k
  · subst h; simp
  · simp [h, insert_ne]

@[simp] theorem remove_self (m : Table K V) (k : K) : m.remove k k = none := by
  simp [remove]

theorem remove_ne (m : Table K V) {k k' : K} (h : k' ≠ k) : m.remove k k' = m k' := by
  simp [remove, h]

theorem remove_apply (m : Table K V) (k k' : K) : m.remove k k' = if k' = k then none else m k' := by
  by_cases h : k' = k
  · subst h; simp
  · simp [h, remove_ne]

/-- Removing a key that is not there. -/
theorem remove_eq_self {m : Table K V} {k : K} (h : m k = none) : m.remove k = m := by
  funext k'
  rw [remove_apply]
  split_ifs with he
  · rw [he, h]
  · rfl

theorem remove_insert (m : Table K V) (k : K) (v : V) : (m.remove k).insert k v = m.insert k v := by
  simp [insert, remove]

theorem remove_ne_none {m : Table K V} {k k' : K} : m.remove k k' ≠ none ↔ m k' ≠ none ∧ k' ≠ k := by
  rw [remove_apply]
  split_ifs with he <;> simp [he]

theorem insert_ne_none {m : Table K V} {k k' : K} {v : V} : m.insert k v k' ≠ none ↔ m k' ≠ none ∨ k' = k := by
  rw [insert_apply]
  split_ifs with he <;> simp [he]

end Table

/-! ## Reverse maps -/

/-- `rev` leads from the mark `f v` of every value back to its key, and nowhere else. -/
def InverseOf {K V N : Type} (rev : Table N K) (m : Table K V) (f : V → N) : Prop :=
  ∀ n k, rev n = some k ↔ ∃ v, m k = some v ∧ f v = n

namespace InverseOf

variable {K V N : Type} {rev : Table N K} {m : Table K V} {f : V → N}

/-- The mark tells values under different keys apart. -/
theorem key_unique (h : InverseOf rev m f) {k k' : K} {v v' : V} (hk : m k = some v) (hk' : m k' = some v')
    (he : f v = f v') : k = k' := by
  have hv := (h (f v) k).mpr ⟨v, hk, rfl⟩
  have hv' := (h (f v) k').mpr ⟨v', hk', he.symm⟩
  exact Option.some.inj (hv.symm.trans hv')

variable [DecidableEq K] [DecidableEq N]

theorem insert (h : InverseOf rev m f) {k : K} {v : V} (hk : m k = none)
    (hnew : ∀ k' v', m k' = some v' → f v' ≠ f v) : InverseOf (rev.insert (f v) k) (m.insert k v) f := by
  intro n k'
  rw [Table.insert_apply, Table.insert_apply]
  by_cases hk' : k' = k
  · subst hk'
    rw [if_pos rfl]
    split_ifs with hn
    · exact ⟨fun _ => ⟨v, rfl, hn.symm⟩, fun _ => rfl⟩
    · refine ⟨fun hr => ?_, ?_⟩
      · obtain ⟨v', hv', -⟩ := (h n k').mp hr
        rw [hk] at hv'
        cases hv'
      · rintro ⟨v', hv', rfl⟩
        exact absurd (congrArg f (Option.some.inj hv')).symm hn
  · rw [if_neg hk']
    split_ifs with hn
    · refine ⟨fun hr => absurd (Option.some.inj hr).symm hk', ?_⟩
      rintro ⟨v', hv', hf⟩
      exact absurd (hf.trans hn) (hnew k' v' hv')
    · exact h n k'

/-- An insertion that keeps the reverse map exact was of a new mark. -/
theorem new_of_insert {k : K} {v : V} (h : InverseOf (rev.insert (f v) k) (m.insert k v) f) {k' : K} {v' : V}
    (hk' : m k' = some v') (hne : k' ≠ k) : f v' ≠ f v := by
  intro he
  have hk'' : m.insert k v k' = some v' := by rw [Table.insert_ne _ _ hne, hk']
  exact hne (h.key_unique hk'' (Table.insert_self _ _ _) he)

theorem remove (h : InverseOf rev m f) {k : K} {v : V} (hk : m k = some v) :
    InverseOf (rev.remove (f v)) (m.remove k) f := by
  intro n k'
  rw [Table.remove_apply, Table.remove_apply]
  by_cases hk' : k' = k
  · subst hk'
    rw [if_pos rfl]
    split_ifs with hn
    · simp
    · refine ⟨fun hr => ?_, by simp⟩
      obtain ⟨v', hv', rfl⟩ := (h n k').mp hr
      exact absurd (congrArg f (Option.some.inj (hv'.symm.trans hk))) hn
  · rw [if_neg hk']
    split_ifs with hn
    · refine ⟨by simp, ?_⟩
      rintro ⟨v', hv', hf⟩
      exact absurd (h.key_unique hv' hk (hf.trans hn)) hk'
    · exact h n k'

omit [DecidableEq N] in
theorem retain (h : InverseOf rev m f) (k : K) : InverseOf (rev.retain fun _ k' => k' != k) (m.remove k) f := by
  intro n k'
  rw [Table.retain_eq_some, bne_iff_ne, h n k', Table.remove_apply]
  split_ifs with he <;> simp [he]

end InverseOf

end Lib
