import Mathlib.Algebra.BigOperators.Group.List.Basic
import Mathlib.Algebra.GroupWithZero.Nat

/-!
# Calls under way

The calls of a system as a list, each at its own index; a step moves one of them.

* `getElem?_set_cases`, `mem_set_of_ne`, `map_set_eq` : the others stay as they were; `getElem?_snoc_cases` : so they do
  when a call is added;
* `sum_map_set` : a measure summed over the calls changes by that of the one that moves; `countP_set_add` : so does a
  count of calls; `flatMap_set_perm` : so does what they hold together;
* `filterMap_of_unique` : what the calls yield, when only one of them can yield something.
-/

namespace Lib

variable {A : Type} {l : List A} {i : Nat} {a b : A}

/-- The call at an index after one of them moved. -/
theorem getElem?_set_cases (h : l[i]? = some a) {j : Nat} {c : A} (hc : (l.set i b)[j]? = some c) :
    (j = i ∧ c = b) ∨ (j ≠ i ∧ l[j]? = some c) := by
  have hlt : i < l.length := (List.getElem?_eq_some_iff.mp h).1
  by_cases hj : j = i
  · subst hj
    rw [List.getElem?_set_self hlt] at hc
    exact Or.inl ⟨rfl, (Option.some.inj hc).symm⟩
  · rw [List.getElem?_set_ne (Ne.symm hj)] at hc
    exact Or.inr ⟨hj, hc⟩

/-- The call at an index after one more was added. -/
theorem getElem?_snoc_cases {j : Nat} {c : A} (hc : (l ++ [a])[j]? = some c) :
    l[j]? = some c ∨ (j = l.length ∧ c = a) := by
  rcases Nat.lt_or_ge j l.length with hlt | hge
  · rw [List.getElem?_append_left hlt] at hc
    exact Or.inl hc
  · rw [List.getElem?_append_right hge, List.getElem?_singleton] at hc
    split_ifs at hc with hj
    exact Or.inr ⟨by omega, (Option.some.inj hc).symm⟩

theorem mem_set_self (h : l[i]? = some a) (b : A) : b ∈ l.set i b :=
  List.mem_set (List.getElem?_eq_some_iff.mp h).1 b

/-- A call other than the one that moves is still there. -/
theorem mem_set_of_ne (h : l[i]? = some a) (b : A) {c : A} (hc : c ∈ l) (hne : c ≠ a) : c ∈ l.set i b := by
  obtain ⟨j, hj⟩ := List.getElem?_of_mem hc
  have hji : i ≠ j := by
    rintro rfl
    exact hne (Option.some.inj (hj.symm.trans h))
  exact List.mem_of_getElem? ((List.getElem?_set_ne hji).trans hj)

/-- What all calls keep is kept by the list. -/
theorem map_set_eq {B : Type} (f : A → B) (h : l[i]? = some a) (b : A) (hb : f b = f a) :
    (l.set i b).map f = l.map f := by
  have hlt : i < l.length := (List.getElem?_eq_some_iff.mp h).1
  rw [List.map_set]
  refine List.ext_getElem? fun j => ?_
  by_cases hj : j = i
  · subst hj
    rw [List.getElem?_set_self (by simpa using hlt), List.getElem?_map, h, Option.map_some, hb]
  · rw [List.getElem?_set_ne (Ne.symm hj)]

theorem sum_map_set (f : A → Nat) (h : l[i]? = some a) (b : A) :
    ((l.set i b).map f).sum + f a = (l.map f).sum + f b := by
  induction l generalizing i with
  | nil => simp at h
  | cons c l ih =>
    cases i with
    | zero =>
      obtain rfl : c = a := by simpa using h
      simp
      omega
    | succ i =>
      have hi := ih (by simpa using h)
      simp only [List.set_cons_succ, List.map_cons, List.sum_cons]
      omega

theorem countP_set_add (p : A → Bool) (h : l[i]? = some a) (b : A) :
    (l.set i b).countP p + (if p a then 1 else 0) = l.countP p + (if p b then 1 else 0) := by
  obtain ⟨hlt, hget⟩ := List.getElem?_eq_some_iff.mp h
  have hpos : p a = true → 0 < l.countP p := fun ha => List.countP_pos_iff.mpr ⟨a, List.mem_of_getElem? h, ha⟩
  rw [List.countP_set hlt, hget]
  by_cases ha : p a = true
  · have hlt := hpos ha
    rw [if_pos ha]
    omega
  · rw [if_neg ha]
    omega

/-- What the calls hold together, after one of them moved. -/
theorem flatMap_set_perm {B : Type} (f : A → List B) (h : l[i]? = some a) (b : A) :
    ((l.set i b).flatMap f ++ f a).Perm (l.flatMap f ++ f b) := by
  induction l generalizing i with
  | nil => simp at h
  | cons c l ih =>
    cases i with
    | zero =>
      obtain rfl : c = a := by simpa using h
      rw [List.set_cons_zero, List.flatMap_cons, List.flatMap_cons, List.append_assoc, List.append_assoc]
      calc f b ++ (l.flatMap f ++ f c)
        _ |>.Perm ((l.flatMap f ++ f c) ++ f b) := List.perm_append_comm
        _ |>.Perm (f c ++ l.flatMap f ++ f b) := List.perm_append_comm.append_right _
        _ = f c ++ (l.flatMap f ++ f b) := List.append_assoc ..
    | succ i =>
      rw [List.set_cons_succ, List.flatMap_cons, List.flatMap_cons, List.append_assoc, List.append_assoc]
      exact (ih (by simpa using h)).append_left _

theorem filterMap_of_unique {B : Type} {f : A → Option B} (h : l[i]? = some a)
    (hunique : ∀ j b, l[j]? = some b → (f b).isSome = true → j = i) : l.filterMap f = (f a).toList := by
  induction l generalizing i with
  | nil => simp at h
  | cons c l ih =>
    cases i with
    | zero =>
      obtain rfl : c = a := by simpa using h
      have hnil : l.filterMap f = [] := by
        refine List.filterMap_eq_nil_iff.mpr fun b hb => ?_
        obtain ⟨j, hj⟩ := List.getElem?_of_mem hb
        by_contra hne
        have hzero := hunique (j + 1) b (by simpa using hj) (Option.isSome_iff_ne_none.mpr hne)
        omega
      cases hc : f c <;> simp [hc, hnil]
    | succ i =>
      have hc : f c = none := by
        by_contra hne
        have hzero := hunique 0 c (by simp) (Option.isSome_iff_ne_none.mpr hne)
        omega
      rw [List.filterMap_cons_none hc]
      refine ih (by simpa using h) fun j b hj hb => ?_
      have hsucc := hunique (j + 1) b (by simpa using hj) hb
      omega

end Lib
