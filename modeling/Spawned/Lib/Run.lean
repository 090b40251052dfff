import Mathlib.Data.List.Basic
import Mathlib.Data.List.Induction

/-!
# Runs of a labelled transition system

`Run Step s₀ τ s` : from `s₀` the system takes the steps `τ` and is then in `s`. The history `τ` records, oldest first,
each label with the state in which the step was taken, so that a condition on steps is a condition on its entries.

* `Run.inv` : what every step keeps holds after every run; `Run.inv_of_steps` when only the steps meeting a condition
  keep it, and the run takes no other; `Run.inv_history` when it speaks of the history too;
* `Run.mem_split` : an entry of the history splits the run at its step; `Run.before`, `Run.after` : the run up to it, and
  where it leads;
* `Run.countP_le` : how often a step happens that has to be cleared first, once nothing clears it any more;
  `Run.countP_add_le` : how often one happens that lowers a measure;
* `EachStep` : what holds of every step, with those before it;
* `play` : the run of a deterministic system on a list of labels; `tryPlay` where a step may be refused.
-/

namespace Lib

variable {S A : Type}

/-- `τ` are the steps of a run from `s₀` to `s`. -/
inductive Run (Step : S → A → S → Prop) (s₀ : S) : List (S × A) → S → Prop
  | nil : Run Step s₀ [] s₀
  | snoc {τ : List (S × A)} {s : S} {a : A} {s' : S} :
      Run Step s₀ τ s → Step s a s' → Run Step s₀ (τ ++ [(s, a)]) s'

namespace Run

variable {Step : S → A → S → Prop} {s₀ s : S} {τ : List (S × A)}

/-- An invariant of the steps holds after every run. -/
theorem inv {I : S → Prop} (h₀ : I s₀) (hs : ∀ s a s', I s → Step s a s' → I s') (h : Run Step s₀ τ s) : I s := by
  induction h with
  | nil => exact h₀
  | snoc _ hstep ih => exact hs _ _ _ ih hstep

/-- An invariant of the steps that meet `P` holds after every run that takes only such steps. -/
theorem inv_of_steps {P : S → A → Prop} {I : S → Prop} (h₀ : I s₀)
    (hs : ∀ s a s', I s → P s a → Step s a s' → I s') (h : Run Step s₀ τ s) (hP : ∀ x ∈ τ, P x.1 x.2) : I s := by
  induction h with
  | nil => exact h₀
  | @snoc τ s a s' _ hstep ih =>
    refine hs _ _ _ (ih fun x hx => hP x (by simp [hx])) ?_ hstep
    exact hP (s, a) (by simp)

/-- An invariant of the state and the history. -/
theorem inv_history {I : List (S × A) → S → Prop} (h₀ : I [] s₀)
    (hs : ∀ τ s a s', I τ s → Step s a s' → I (τ ++ [(s, a)]) s') (h : Run Step s₀ τ s) : I τ s := by
  induction h with
  | nil => exact h₀
  | snoc _ hstep ih => exact hs _ _ _ _ ih hstep

/-- Where every step from a state that keeps the invariant lowers a measure, a run takes no more steps than its measure
at the start. -/
theorem length_le {I : S → Prop} (μ : S → Nat) (h₀ : I s₀) (hs : ∀ s a s', I s → Step s a s' → I s')
    (hμ : ∀ s a s', I s → Step s a s' → μ s' < μ s) (h : Run Step s₀ τ s) : τ.length + μ s ≤ μ s₀ := by
  induction h with
  | nil => simp
  | @snoc τ s a s' hr hstep ih =>
    have hlt := hμ _ _ _ (hr.inv h₀ hs) hstep
    rw [List.length_append, List.length_singleton]
    omega

/-- The steps `E` are taken only where they are cleared, and use the clearance up. From a state after which nothing clears
them they are taken once at most, and never if they are not cleared there. -/
theorem countP_le {F C : S → Prop} [DecidablePred C] {E : S × A → Bool} (hF : ∀ s a s', F s → Step s a s' → F s')
    (hC : ∀ s a s', F s → Step s a s' → C s' → C s ∧ E (s, a) = false) (hE : ∀ s a s', Step s a s' → E (s, a) = true → C s)
    (h : Run Step s₀ τ s) (h₀ : F s₀) : τ.countP E ≤ if C s₀ then 1 else 0 := by
  suffices hle : τ.countP E + (if C s then 1 else 0) ≤ if C s₀ then 1 else 0 by omega
  induction h with
  | nil => simp
  | @snoc τ s a s' hr hstep ih =>
    have hclear := hC s a s' (hr.inv h₀ hF) hstep
    have huse := hE s a s' hstep
    rw [List.countP_append, List.countP_singleton]
    by_cases hc' : C s'
    · obtain ⟨hc, he⟩ := hclear hc'
      rw [if_pos hc] at ih
      rw [if_pos hc', he]
      simpa using ih
    · by_cases he : E (s, a) = true
      · rw [if_pos (huse he)] at ih
        rw [if_neg hc', he]
        simpa using ih
      · rw [if_neg hc', if_neg he]
        omega

/-- Steps that lower a measure, which the other steps do not raise, are taken no more often than its value at the start. -/
theorem countP_add_le {I : S → Prop} (μ : S → Nat) {E : S × A → Bool} (h₀ : I s₀)
    (hs : ∀ s a s', I s → Step s a s' → I s') (hle : ∀ s a s', I s → Step s a s' → μ s' ≤ μ s)
    (hlt : ∀ s a s', I s → Step s a s' → E (s, a) = true → μ s' < μ s) (h : Run Step s₀ τ s) :
    τ.countP E + μ s ≤ μ s₀ := by
  induction h with
  | nil => simp
  | @snoc τ s a s' hr hstep ih =>
    have hI := hr.inv h₀ hs
    have hle' := hle _ _ _ hI hstep
    rw [List.countP_append, List.countP_singleton]
    by_cases he : E (s, a) = true
    · have hlt' := hlt _ _ _ hI hstep he
      rw [if_pos he]
      omega
    · rw [if_neg he]
      omega

theorem append {σ : List (S × A)} {u : S} (h : Run Step s₀ τ s) (h' : Run Step s σ u) : Run Step s₀ (τ ++ σ) u := by
  induction h' with
  | nil => simpa using h
  | snoc _ hstep ih =>
    rw [← List.append_assoc]
    exact ih.snoc hstep

theorem single {a : A} {s' : S} (h : Step s a s') : Run Step s [(s, a)] s' := Run.nil.snoc h

theorem cons {a : A} {s' : S} (h : Step s₀ a s') (h' : Run Step s' τ s) : Run Step s₀ ((s₀, a) :: τ) s :=
  (single h).append h'

/-- An entry of the history is a step of the run, taken in the state its prefix reaches. -/
theorem mem_split (h : Run Step s₀ τ s) {x : S × A} (hx : x ∈ τ) :
    ∃ τ₁ τ₂ s', τ = τ₁ ++ x :: τ₂ ∧ Run Step s₀ τ₁ x.1 ∧ Step x.1 x.2 s' := by
  induction h with
  | nil => cases hx
  | @snoc τ s a s' hr hstep ih =>
    rcases List.mem_append.mp hx with hx | hx
    · obtain ⟨τ₁, τ₂, u, rfl, h₁, h₂⟩ := ih hx
      exact ⟨τ₁, τ₂ ++ [(s, a)], u, by simp, h₁, h₂⟩
    · obtain rfl : x = (s, a) := by simpa using hx
      exact ⟨τ, [], s', rfl, hr, hstep⟩

/-- The last step of a run. -/
theorem snoc_inv {x : S × A} (h : Run Step s₀ (τ ++ [x]) s) : Run Step s₀ τ x.1 ∧ Step x.1 x.2 s := by
  generalize hσ : τ ++ [x] = σ at h
  cases h with
  | nil => simp at hσ
  | snoc hr hstep =>
    obtain ⟨rfl, rfl⟩ := List.append_inj' hσ rfl |>.imp id List.singleton_inj.mp
    exact ⟨hr, hstep⟩

/-- The run up to one of its steps, and that step. -/
theorem before {τ₁ τ₂ : List (S × A)} {x : S × A} (h : Run Step s₀ (τ₁ ++ x :: τ₂) s) :
    Run Step s₀ τ₁ x.1 ∧ ∃ s', Step x.1 x.2 s' := by
  induction τ₂ using List.reverseRecOn generalizing s with
  | nil =>
    obtain ⟨hr, hstep⟩ := h.snoc_inv
    exact ⟨hr, s, hstep⟩
  | append_singleton τ₂ y ih =>
    rw [← List.cons_append, ← List.append_assoc] at h
    exact ih h.snoc_inv.1

/-- The state one of its steps leads to is the one the next step is taken in, or the last. -/
theorem after {τ₁ τ₂ : List (S × A)} {x : S × A} (h : Run Step s₀ (τ₁ ++ x :: τ₂) s) :
    ∃ s' ∈ τ₂.map (·.1) ++ [s], Step x.1 x.2 s' := by
  induction τ₂ using List.reverseRecOn generalizing s with
  | nil => exact ⟨s, by simp, h.snoc_inv.2⟩
  | append_singleton τ₂ y ih =>
    rw [← List.cons_append, ← List.append_assoc] at h
    obtain ⟨s', hs', hstep⟩ := ih h.snoc_inv.1
    exact ⟨s', List.mem_append_left _ (by simpa using hs'), hstep⟩

theorem nil_inv (h : Run Step s₀ [] s) : s = s₀ := by
  generalize hτ : ([] : List (S × A)) = τ at h
  cases h with
  | nil => rfl
  | snoc => simp at hτ

end Run

/-- Some step of a run that took one step more. -/
theorem exists_mem_snoc {P : S × A → Prop} {τ : List (S × A)} {x : S × A} :
    (∃ y ∈ τ ++ [x], P y) ↔ (∃ y ∈ τ, P y) ∨ P x := by
  simp [or_and_right, exists_or]

/-- `P` holds of every step of the history, together with the steps before it. -/
def EachStep {X : Type} (P : List X → X → Prop) (τ : List X) : Prop := ∀ τ₁ x τ₂, τ = τ₁ ++ x :: τ₂ → P τ₁ x

section EachStep

variable {X : Type} {P : List X → X → Prop}

@[simp] theorem eachStep_nil : EachStep P [] := by
  intro τ₁ x τ₂ h
  simp at h

@[simp] theorem eachStep_snoc {τ : List X} {x : X} : EachStep P (τ ++ [x]) ↔ EachStep P τ ∧ P τ x := by
  constructor
  · intro h
    refine ⟨fun τ₁ y τ₂ he => h τ₁ y (τ₂ ++ [x]) (by simp [he]), h τ x [] rfl⟩
  · rintro ⟨h, hx⟩ τ₁ y τ₂ he
    rcases List.eq_nil_or_concat τ₂ with rfl | ⟨σ, z, rfl⟩
    · obtain ⟨rfl, hy⟩ := List.append_inj' he rfl
      obtain rfl := List.singleton_inj.mp hy
      exact hx
    · have he' : τ ++ [x] = (τ₁ ++ y :: σ) ++ [z] := by simpa using he
      exact h τ₁ y σ (List.append_inj' he' rfl).1

/-- The steps of `σ` come after those of `τ`. -/
theorem eachStep_append {τ σ : List X} : EachStep P (τ ++ σ) ↔ EachStep P τ ∧ EachStep (fun σ₁ x => P (τ ++ σ₁) x) σ := by
  induction σ using List.reverseRecOn with
  | nil => simp
  | append_singleton σ x ih => rw [← List.append_assoc, eachStep_snoc, eachStep_snoc, ih, and_assoc]

end EachStep

/-! ## Deterministic systems -/

/-- The history and the last state when the labels `as` are played from `s₀`. -/
def play (next : S → A → S) (s₀ : S) (as : List A) : List (S × A) × S :=
  as.foldl (fun p a => (p.1 ++ [(p.2, a)], next p.2 a)) ([], s₀)

theorem run_play (next : S → A → S) (s₀ : S) (as : List A) :
    Run (fun s a s' => s' = next s a) s₀ (play next s₀ as).1 (play next s₀ as).2 := by
  unfold play
  suffices h : ∀ τ s, Run (fun s a s' => s' = next s a) s₀ τ s →
      Run (fun s a s' => s' = next s a) s₀
        (as.foldl (fun p a => (p.1 ++ [(p.2, a)], next p.2 a)) (τ, s)).1
        (as.foldl (fun p a => (p.1 ++ [(p.2, a)], next p.2 a)) (τ, s)).2 from h [] s₀ .nil
  induction as with
  | nil => exact fun _ _ h => h
  | cons a as ih => exact fun τ s h => ih _ _ (h.snoc rfl)

/-- The history and the last state when the labels `as` are played from `s₀`, each of them accepted. -/
def tryPlay (next : S → A → Option S) (s₀ : S) (as : List A) : Option (List (S × A) × S) :=
  as.foldlM (fun p a => (next p.2 a).map fun s' => (p.1 ++ [(p.2, a)], s')) ([], s₀)

theorem run_foldlM (next : S → A → Option S) {s₀ s : S} {τ : List (S × A)} {p : List (S × A) × S} (as : List A)
    (hr : Run (fun s a s' => next s a = some s') s₀ τ s)
    (hp : as.foldlM (fun p a => (next p.2 a).map fun s' => (p.1 ++ [(p.2, a)], s')) (τ, s) = some p) :
    Run (fun s a s' => next s a = some s') s₀ p.1 p.2 := by
  induction as generalizing τ s with
  | nil =>
    cases hp
    exact hr
  | cons a as ih =>
    obtain ⟨q, hq, hp⟩ := Option.bind_eq_some_iff.mp ((List.foldlM_cons ..).symm.trans hp)
    obtain ⟨s', hs', rfl⟩ := Option.map_eq_some_iff.mp hq
    exact ih (hr.snoc hs') hp

theorem run_tryPlay (next : S → A → Option S) (s₀ : S) (as : List A) (h : (tryPlay next s₀ as).isSome) :
    Run (fun s a s' => next s a = some s') s₀ ((tryPlay next s₀ as).get h).1 ((tryPlay next s₀ as).get h).2 :=
  run_foldlM next as .nil (Option.some_get h).symm

theorem map_snd_foldlM (next : S → A → Option S) {s : S} {τ : List (S × A)} {p : List (S × A) × S} (as : List A)
    (hp : as.foldlM (fun p a => (next p.2 a).map fun s' => (p.1 ++ [(p.2, a)], s')) (τ, s) = some p) :
    p.1.map (·.2) = τ.map (·.2) ++ as := by
  induction as generalizing τ s with
  | nil =>
    cases hp
    simp
  | cons a as ih =>
    obtain ⟨q, hq, hp⟩ := Option.bind_eq_some_iff.mp ((List.foldlM_cons ..).symm.trans hp)
    obtain ⟨s', -, rfl⟩ := Option.map_eq_some_iff.mp hq
    simpa using ih hp

/-- The labels of the history are those that were played. -/
theorem forall_mem_tryPlay (next : S → A → Option S) (s₀ : S) (as : List A) {P : A → Prop}
    (h : (tryPlay next s₀ as).isSome) (hP : ∀ a ∈ as, P a) : ∀ x ∈ ((tryPlay next s₀ as).get h).1, P x.2 := by
  intro x hx
  refine hP x.2 ?_
  have hmap := map_snd_foldlM next as (Option.some_get h).symm
  rw [List.map_nil, List.nil_append] at hmap
  rw [← hmap]
  exact List.mem_map_of_mem hx

end Lib
