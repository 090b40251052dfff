import Mathlib.Logic.Relation

/-!
# Threads that wait for each other's locks

A thread waits for another when it asks for a lock the other holds. Where the locks have ranks, and every thread asks
only for locks above those it holds, no thread waits for itself, neither directly nor through others.
-/

namespace Lib

variable {T L : Type}

/-- `t` asks for a lock that `u` holds. -/
def Waits (request : T → Option L) (holds : T → L → Prop) (t u : T) : Prop := ∃ l, request t = some l ∧ holds u l

/-- In every state the locks can be ranked so that threads only ask upwards. -/
def AsksUpwards (request : T → Option L) (holds : T → L → Prop) (rank : L → Nat) : Prop :=
  ∀ t l l', request t = some l → holds t l' → rank l' < rank l

namespace AsksUpwards

variable {request : T → Option L} {holds : T → L → Prop} {rank : L → Nat}

/-- Along a chain of waiting threads the ranks go up. -/
theorem rank_le (h : AsksUpwards request holds rank) {t u : T} (hwaits : Relation.TransGen (Waits request holds) t u) :
    ∃ l l', request t = some l ∧ holds u l' ∧ rank l ≤ rank l' := by
  induction hwaits with
  | single hwait =>
    obtain ⟨l, hrequest, hholds⟩ := hwait
    exact ⟨l, l, hrequest, hholds, Nat.le_refl _⟩
  | @tail u v _ hwait ih =>
    obtain ⟨l, l', hrequest, hholds, hle⟩ := ih
    obtain ⟨l'', hrequest', hholds'⟩ := hwait
    have hlt := h u l'' l' hrequest' hholds
    exact ⟨l, l'', hrequest, hholds', by omega⟩

theorem acyclic (h : AsksUpwards request holds rank) (t : T) : ¬Relation.TransGen (Waits request holds) t t := by
  intro hcycle
  obtain ⟨l, l', hrequest, hholds, hle⟩ := h.rank_le hcycle
  have hlt := h t l l' hrequest hholds
  omega

end AsksUpwards

end Lib
