import Mathlib.Data.List.Forall2
import Mathlib.Logic.Basic

/-!
# Programs that call their environment

`Prog E A α` is a program that makes calls `e : E`, each answered by some `A e`, and returns an `α`.

* `Exec p τ a` : `p` can make the answered calls `τ` and return `a`; `exec_pure`, `exec_op`, `exec_bind` and
  `exec_bind_pure` peel a `do` block apart, so a program is read through its inversion lemma and never unfolded twice;
* `exec_foldlM` : a loop over a list, by the executions of its rounds;
* `Calls P p` : every call the program can make satisfies `P` (`Calls.bind`, `Calls.of_exec`);
* `lift ι out p` : the program with its calls made through a larger interface (`exec_of_lift`; `exec_lift` where the answers
  are the same);
* `interp f p` : the program with each call replaced by a program (`interp_op`, `interp_bind`);
* `run` : the program against a fixed answering strategy, which sees the calls answered so far; it is an `Exec`
  (`exec_run`);
* `except_bind_eq_ok`, `except_mapError_eq_ok` : the same peeling for a program that makes no calls and may fail.
-/

namespace Lib

theorem except_bind_eq_ok {ε α β : Type} {x : Except ε α} {f : α → Except ε β} {b : β} :
    x >>= f = .ok b ↔ ∃ a, x = .ok a ∧ f a = .ok b := by
  cases x with
  | error e => exact ⟨fun h => (by cases h), fun ⟨_, h, _⟩ => (by cases h)⟩
  | ok a => exact ⟨fun h => ⟨a, rfl, h⟩, fun ⟨_, rfl, h⟩ => h⟩

theorem except_mapError_eq_ok {ε ε' α : Type} {x : Except ε α} {f : ε → ε'} {a : α} :
    x.mapError f = .ok a ↔ x = .ok a := by
  cases x <;> simp [Except.mapError]

/-- A program making calls in `E` answered from `A`, and returning an `α`. -/
inductive Prog (E : Type) (A : E → Type) (α : Type) : Type
  | pure (a : α)
  | call (e : E) (k : A e → Prog E A α)

/-- An answered call. -/
structure Call (E : Type) (A : E → Type) where
  op : E
  ans : A op

/-- The answered calls of a run, oldest first. -/
abbrev Trace (E : Type) (A : E → Type) := List (Call E A)

namespace Prog

variable {E : Type} {A : E → Type} {α β : Type}

def bind : Prog E A α → (α → Prog E A β) → Prog E A β
  | .pure a, f => f a
  | .call e k, f => .call e (fun x => (k x).bind f)

instance : Monad (Prog E A) where
  pure := .pure
  bind := bind

/-- The program that makes the one call `e` and returns its answer. -/
def op (e : E) : Prog E A (A e) := .call e .pure

@[simp] theorem pure_bind' (a : α) (f : α → Prog E A β) : (Pure.pure a >>= f) = f a := rfl

@[simp] theorem op_bind (e : E) (f : A e → Prog E A β) : (op e >>= f) = .call e f := rfl

theorem bind_assoc' {γ : Type} (p : Prog E A α) (f : α → Prog E A β) (g : β → Prog E A γ) :
    (p >>= f) >>= g = p >>= fun a => f a >>= g := by
  induction p with
  | pure a => rfl
  | call e k ih => exact congrArg (Prog.call e) (funext ih)

/-! ## Executions -/

/-- `p` can make the answered calls `τ` and return `a`. -/
def Exec : Prog E A α → Trace E A → α → Prop
  | .pure a, τ, b => τ = [] ∧ b = a
  | .call e k, τ, b => ∃ x τ', τ = ⟨e, x⟩ :: τ' ∧ (k x).Exec τ' b

@[simp] theorem exec_call {e : E} {k : A e → Prog E A α} {τ : Trace E A} {b : α} :
    Exec (.call e k) τ b ↔ ∃ x τ', τ = ⟨e, x⟩ :: τ' ∧ (k x).Exec τ' b := Iff.rfl

@[simp] theorem exec_op {e : E} {τ : Trace E A} {x : A e} : Exec (op e) τ x ↔ τ = [⟨e, x⟩] := by
  constructor
  · rintro ⟨y, τ', rfl, rfl, rfl⟩
    rfl
  · rintro rfl
    exact ⟨x, [], rfl, rfl, rfl⟩

theorem exec_op_bind {e : E} {f : A e → Prog E A β} {τ : Trace E A} {b : β} :
    Exec (op e >>= f) τ b ↔ ∃ x τ', τ = ⟨e, x⟩ :: τ' ∧ (f x).Exec τ' b := Iff.rfl

theorem exec_bind {p : Prog E A α} {f : α → Prog E A β} {τ : Trace E A} {b : β} :
    Exec (p >>= f) τ b ↔ ∃ τ₁ a τ₂, τ = τ₁ ++ τ₂ ∧ p.Exec τ₁ a ∧ (f a).Exec τ₂ b := by
  induction p generalizing τ with
  | pure a =>
    constructor
    · intro h
      exact ⟨[], a, τ, rfl, ⟨rfl, rfl⟩, h⟩
    · rintro ⟨τ₁, c, τ₂, rfl, ⟨rfl, rfl⟩, h⟩
      exact h
  | call e k ih =>
    constructor
    · rintro ⟨x, τ', rfl, h⟩
      obtain ⟨τ₁, a, τ₂, rfl, h₁, h₂⟩ := (ih x).mp h
      exact ⟨⟨e, x⟩ :: τ₁, a, τ₂, rfl, ⟨x, τ₁, rfl, h₁⟩, h₂⟩
    · rintro ⟨τ₁, a, τ₂, rfl, ⟨x, τ', rfl, h₁⟩, h₂⟩
      exact ⟨x, τ' ++ τ₂, rfl, (ih x).mpr ⟨τ', a, τ₂, rfl, h₁, h₂⟩⟩

/-- The last line of a `do` block only packs the result. -/
theorem exec_bind_pure {p : Prog E A α} {f : α → β} {τ : Trace E A} {b : β} :
    Exec (p >>= fun a => Pure.pure (f a)) τ b ↔ ∃ a, p.Exec τ a ∧ b = f a := by
  rw [exec_bind]
  constructor
  · rintro ⟨τ₁, a, τ₂, rfl, h₁, rfl, rfl⟩
    exact ⟨a, by rwa [List.append_nil], rfl⟩
  · rintro ⟨a, h, rfl⟩
    exact ⟨τ, a, [], (List.append_nil τ).symm, h, rfl, rfl⟩

/-- A loop that asks for each element in turn and adds the answer to what it has. -/
theorem exec_foldlM {T X : Type} (ask : T → Prog E A X) (add : β → T → X → β) {ts : List T} {b b' : β} {τ : Trace E A} :
    (ts.foldlM (fun b t => ask t >>= fun x => Pure.pure (add b t x)) b).Exec τ b' ↔
      ∃ os : List (Trace E A × X), List.Forall₂ (fun t o => (ask t).Exec o.1 o.2) ts os ∧ τ = (os.map (·.1)).flatten ∧
        b' = (ts.zip os).foldl (fun b p => add b p.1 p.2.2) b := by
  induction ts generalizing b τ with
  | nil =>
    constructor
    · rintro ⟨rfl, rfl⟩
      exact ⟨[], .nil, rfl, rfl⟩
    · rintro ⟨os, hos, rfl, rfl⟩
      cases hos
      exact ⟨rfl, rfl⟩
  | cons t ts ih =>
    rw [List.foldlM_cons, exec_bind]
    constructor
    · rintro ⟨τ₁, c, τ₂, rfl, h₁, h₂⟩
      obtain ⟨x, hx, rfl⟩ := exec_bind_pure.mp h₁
      obtain ⟨os, hos, rfl, rfl⟩ := ih.mp h₂
      exact ⟨(τ₁, x) :: os, .cons hx hos, rfl, rfl⟩
    · rintro ⟨os, hos, rfl, rfl⟩
      cases hos with
      | @cons _ o _ os hx hos =>
        exact ⟨o.1, add b t o.2, (os.map (·.1)).flatten, rfl, exec_bind_pure.mpr ⟨o.2, hx, rfl⟩, ih.mpr ⟨os, hos, rfl, rfl⟩⟩

/-- A continuation that returns whatever the program can return adds nothing. -/
theorem bind_eq_self {p : Prog E A α} {f : α → Prog E A α} (h : ∀ τ a, p.Exec τ a → f a = Pure.pure a) :
    p >>= f = p := by
  induction p with
  | pure a => exact h [] a ⟨rfl, rfl⟩
  | call e k ih =>
    refine congrArg (Prog.call e) (funext fun x => ih x fun τ a ha => ?_)
    exact h (⟨e, x⟩ :: τ) a ⟨x, τ, rfl, ha⟩

/-- After the answered calls `τ` the program `p` goes on as `q`. -/
def Reaches (p : Prog E A α) (τ : Trace E A) (q : Prog E A α) : Prop :=
  ∀ σ b, q.Exec σ b → p.Exec (τ ++ σ) b

theorem Reaches.refl (p : Prog E A α) : p.Reaches [] p := fun _ _ h => h

theorem Reaches.answer {p : Prog E A α} {τ : Trace E A} {e : E} {k : A e → Prog E A α} (h : p.Reaches τ (.call e k))
    (x : A e) : p.Reaches (τ ++ [⟨e, x⟩]) (k x) := by
  intro σ b hk
  rw [List.append_assoc]
  exact h _ b ⟨x, σ, rfl, hk⟩

theorem Reaches.exec {p : Prog E A α} {τ : Trace E A} {a : α} (h : p.Reaches τ (.pure a)) : p.Exec τ a := by
  have hp := h [] a ⟨rfl, rfl⟩
  rwa [List.append_nil] at hp

/-! ## What a program can call -/

/-- Every call the program can make satisfies `P`. -/
def Calls (P : E → Prop) : Prog E A α → Prop
  | .pure _ => True
  | .call e k => P e ∧ ∀ x, (k x).Calls P

@[simp] theorem calls_pure (P : E → Prop) (a : α) : Calls P (Pure.pure a : Prog E A α) := trivial

@[simp] theorem calls_op {P : E → Prop} {e : E} : Calls P (op e : Prog E A (A e)) ↔ P e := by
  simp [op, Calls]

theorem Calls.bind {P : E → Prop} {p : Prog E A α} {f : α → Prog E A β} (hp : p.Calls P)
    (hf : ∀ a, (f a).Calls P) : (p >>= f).Calls P := by
  induction p with
  | pure a => exact hf a
  | call e k ih => exact ⟨hp.1, fun x => ih x (hp.2 x)⟩

theorem Calls.mono {P Q : E → Prop} {p : Prog E A α} (hp : p.Calls P) (h : ∀ e, P e → Q e) : p.Calls Q := by
  induction p with
  | pure a => trivial
  | call e k ih => exact ⟨h e hp.1, fun x => ih x (hp.2 x)⟩

theorem Calls.of_exec {P : E → Prop} {p : Prog E A α} (hp : p.Calls P) {τ : Trace E A} {a : α}
    (h : p.Exec τ a) : ∀ c ∈ τ, P c.op := by
  induction p generalizing τ with
  | pure b =>
    obtain ⟨rfl, -⟩ := h
    intro c hc
    cases hc
  | call e k ih =>
    obtain ⟨x, τ', rfl, h⟩ := h
    intro c hc
    rcases List.mem_cons.mp hc with rfl | hc
    · exact hp.1
    · exact ih x (hp.2 x) h c hc

/-! ## Calling through a larger interface -/

section Lift

variable {F : Type} {B : F → Type} (ι : E → F) (out : ∀ e, B (ι e) → A e)

/-- The program with each call `e` made as `ι e`, whose answer is read by `out`. -/
def lift : Prog E A α → Prog F B α
  | .pure a => .pure a
  | .call e k => .call (ι e) fun x => (k (out e x)).lift

/-- What it returns, the program itself can return. -/
theorem exec_of_lift {p : Prog E A α} {τ : Trace F B} {a : α} (h : (p.lift ι out).Exec τ a) : ∃ σ, p.Exec σ a := by
  induction p generalizing τ with
  | pure b => exact ⟨[], rfl, h.2⟩
  | call e k ih =>
    obtain ⟨x, τ', -, h⟩ := h
    obtain ⟨σ, hσ⟩ := ih (out e x) h
    exact ⟨⟨e, out e x⟩ :: σ, out e x, σ, rfl, hσ⟩

end Lift

/-! ## Calls that are programs themselves -/

section Interp

variable {F : Type} {B : F → Type} (f : (e : E) → Prog F B (A e))

/-- The program with each call `e` made by `f e`. -/
def interp : Prog E A α → Prog F B α
  | .pure a => .pure a
  | .call e k => f e >>= fun x => (k x).interp

end Interp

/-! ## Running against a strategy -/

/-- A strategy answers a call from the calls answered before it. -/
abbrev Strategy (E : Type) (A : E → Type) := Trace E A → (e : E) → A e

/-- Run against a strategy, extending the calls answered so far. -/
def run (ora : Strategy E A) : Prog E A α → Trace E A → α × Trace E A
  | .pure a, τ => (a, τ)
  | .call e k, τ => (k (ora τ e)).run ora (τ ++ [⟨e, ora τ e⟩])

theorem exec_run (ora : Strategy E A) (p : Prog E A α) (τ₀ : Trace E A) :
    ∃ τ, (p.run ora τ₀).2 = τ₀ ++ τ ∧ p.Exec τ (p.run ora τ₀).1 := by
  induction p generalizing τ₀ with
  | pure a => exact ⟨[], by simp [run], rfl, rfl⟩
  | call e k ih =>
    obtain ⟨τ, h₁, h₂⟩ := ih (ora τ₀ e) (τ₀ ++ [⟨e, ora τ₀ e⟩])
    exact ⟨⟨e, ora τ₀ e⟩ :: τ, by simpa [run] using h₁, ora τ₀ e, τ, rfl, h₂⟩

/-- Whatever the environment answers, the program runs to its end. -/
theorem exec_answers (answer : ∀ e, A e) (p : Prog E A α) : ∃ τ a, p.Exec τ a ∧ ∀ c ∈ τ, c.ans = answer c.op := by
  induction p with
  | pure a => exact ⟨[], a, ⟨rfl, rfl⟩, by simp⟩
  | call e k ih =>
    obtain ⟨τ, a, h, hτ⟩ := ih (answer e)
    exact ⟨⟨e, answer e⟩ :: τ, a, ⟨_, τ, rfl, h⟩, List.forall_mem_cons.mpr ⟨rfl, hτ⟩⟩

end Prog

end Lib
