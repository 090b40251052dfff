import Mathlib.Data.List.Basic

/-!
# Sliding windows

A queue in order, of which a part at the front goes out of date as time passes.

* `dropWhile_eq_filter` : popping off the front what is out of date leaves exactly what is not;
* `filter_filter_of_imp` : what is out of date stays so, so it may be popped early.
-/

namespace Lib

variable {α : Type} {r : α → α → Prop} {p q : α → Bool} {l : List α}

/-- Where everything behind a current element is current, popping off the front leaves what is current. -/
theorem dropWhile_eq_filter (h : l.Pairwise r) (hp : ∀ a b, r a b → p a = true → p b = true) :
    l.dropWhile (fun a => !p a) = l.filter p := by
  induction l with
  | nil => rfl
  | cons a l ih =>
    obtain ⟨ha, hl⟩ := List.pairwise_cons.mp h
    cases hcur : p a with
    | false => simp [hcur, ih hl]
    | true =>
      have hall : ∀ b ∈ a :: l, p b = true := by
        intro b hb
        rcases List.mem_cons.mp hb with rfl | hb
        · exact hcur
        · exact hp a b (ha b hb) hcur
      rw [List.filter_eq_self.mpr hall]
      simp [hcur]

/-- What is current later is current now. -/
theorem filter_filter_of_imp (h : ∀ a ∈ l, q a = true → p a = true) : (l.filter p).filter q = l.filter q := by
  rw [List.filter_filter]
  refine List.filter_congr fun a ha => ?_
  cases hq : q a with
  | false => rfl
  | true => simp [h a ha hq]

end Lib
