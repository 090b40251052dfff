import Mathlib.Data.List.Basic
import Mathlib.Logic.Function.Basic

/-!
# Channels between the members of a group

`Links N M` : one first-in-first-out queue of messages from each member to each other one.

* `Links.broadcast` : a sender appends messages to its queue to every other member;
* `Links.pop` : the oldest message of one queue is taken off.
-/

namespace Lib

/-- The messages under way, oldest first: `q a b` are those from `a` to `b`. -/
abbrev Links (N M : Type) := N → N → List M

namespace Links

variable {N M : Type} [DecidableEq N]

def empty : Links N M := fun _ _ => []

/-- `sender` sends the messages to every other member. -/
def broadcast (q : Links N M) (members : List N) (sender : N) (msgs : List M) : Links N M :=
  fun a b => if a = sender ∧ b ≠ sender ∧ b ∈ members then q a b ++ msgs else q a b

/-- The queue from `a` to `b` is now `rest`. -/
def pop (q : Links N M) (a b : N) (rest : List M) : Links N M :=
  fun a' b' => if a' = a ∧ b' = b then rest else q a' b'

variable {q : Links N M} {members : List N} {sender : N} {msgs : List M}

theorem broadcast_to {b : N} (hb : b ≠ sender) (hmem : b ∈ members) :
    q.broadcast members sender msgs sender b = q sender b ++ msgs := by
  simp [broadcast, hb, hmem]

theorem broadcast_of_ne {a : N} (b : N) (ha : a ≠ sender) : q.broadcast members sender msgs a b = q a b := by
  simp [broadcast, ha]

theorem mem_broadcast {a b : N} {m : M} (h : m ∈ q.broadcast members sender msgs a b) :
    m ∈ q a b ∨ (a = sender ∧ b ≠ sender ∧ m ∈ msgs) := by
  unfold broadcast at h
  split at h
  case isTrue hc =>
    rcases List.mem_append.mp h with h | h
    · exact Or.inl h
    · exact Or.inr ⟨hc.1, hc.2.1, h⟩
  case isFalse => exact Or.inl h

theorem pop_self {a b : N} {rest : List M} : q.pop a b rest a b = rest := by
  simp [pop]

theorem pop_of_ne {a b a' b' : N} {rest : List M} (h : ¬(a' = a ∧ b' = b)) : q.pop a b rest a' b' = q a' b' := by
  simp [pop, h]

/-- Nothing is added when a message is taken off. -/
theorem mem_pop {a b a' b' : N} {m₀ m : M} {rest : List M} (hq : q a b = m₀ :: rest) (h : m ∈ q.pop a b rest a' b') :
    m ∈ q a' b' := by
  by_cases hc : a' = a ∧ b' = b
  · obtain ⟨rfl, rfl⟩ := hc
    rw [pop_self] at h
    simp [hq, h]
  · rwa [pop_of_ne hc] at h

end Links

end Lib
