import Spawned.Lib.Run
import Spawned.Supervisor.DynamicStep

/-!
# The global registry

`register`, `whereis` and `unregister` on the store of `registry.rs`, and the registry as a supervisor shares it: its own
calls and those of all other parties follow each other in any order (`Registry.Step`). The names the supervisor has
registered and not given up are kept beside the store (`held`); the other parties leave those alone.

* `Sound` : the store has every held name under the handle it was registered with;
* `heldAfter` : which names are held after the supervisor's own calls;
* `vacant_run` : a name the supervisor gave up last is vacant until somebody takes it.
-/

namespace Spawned

open Lib

/-- What is stored under a name: a child handle, or a value of another type. -/
inductive RegValue
  | handle (handle : ChildHandle)
  | other
deriving DecidableEq, Repr

abbrev RegStore := Table String RegValue

namespace RegStore

def register (store : RegStore) (name : String) (value : RegValue) : Except RegistryError Unit × RegStore :=
  match store name with
  | some _ => (.error (.alreadyRegistered name), store)
  | none => (.ok (), store.insert name value)

/-- `whereis::<ChildHandle>`: nothing when the stored value has another type. -/
def whereis (store : RegStore) (name : String) : Option ChildHandle :=
  match store name with
  | some (.handle handle) => some handle
  | _ => none

def unregister (store : RegStore) (name : String) : RegStore := store.remove name

theorem register_apply_ne {store : RegStore} {name name' : String} {value : RegValue} (h : name' ≠ name) :
    (store.register name value).2 name' = store name' := by
  unfold register
  cases store name with
  | some _ => rfl
  | none => exact Table.insert_ne _ _ h

theorem register_eq_ok {store store' : RegStore} {name : String} {value : RegValue}
    (h : store.register name value = (.ok (), store')) : store name = none ∧ store' = store.insert name value := by
  unfold register at h
  cases hs : store name with
  | some _ => simp [hs] at h
  | none =>
    rw [hs] at h
    exact ⟨rfl, (Prod.mk.inj h).2.symm⟩

/-- A registration does not replace anything. -/
theorem register_of_some {store : RegStore} {name name' : String} {value value' : RegValue}
    (h : store name' = some value') : (store.register name value).2 name' = some value' := by
  by_cases hn : name' = name
  · subst hn
    simp [register, h]
  · rw [register_apply_ne hn, h]

end RegStore

/-- The store, with the names the supervisor holds. -/
structure Registry where
  store : RegStore
  held : Table String ChildHandle

/-- A call on the registry, by the supervisor or by another party. -/
inductive RegMove
  | own (effect : Effect)
  | register (name : String) (value : RegValue)
  | unregister (name : String)

/-- The supervisor's own calls. -/
def RegMove.effect : RegMove → Option Effect
  | .own effect => some effect
  | _ => none

namespace Registry

variable {r r' : Registry} {name : String} {handle : ChildHandle}

/-- The transitions. The other parties do not unregister a name the supervisor holds. -/
inductive Step : Registry → RegMove → Registry → Prop
  | registered {r : Registry} {name : String} {handle : ChildHandle} {store : RegStore}
      (h : r.store.register name (.handle handle) = (.ok (), store)) :
      Step r (.own (.registered name handle)) ⟨store, r.held.insert name handle⟩
  | refused {r : Registry} {name : String} {handle : ChildHandle} {err : RegistryError}
      (h : (r.store.register name (.handle handle)).1 = .error err) : Step r (.own (.refused name)) r
  | unregistered {r : Registry} {name : String} :
      Step r (.own (.unregistered name)) ⟨r.store.unregister name, r.held.remove name⟩
  | elsewhere {r : Registry} {effect : Effect} (hr : ∀ name handle, effect ≠ .registered name handle)
      (hf : ∀ name, effect ≠ .refused name) (hu : ∀ name, effect ≠ .unregistered name) : Step r (.own effect) r
  | register {r : Registry} {name : String} {value : RegValue} :
      Step r (.register name value) { r with store := (r.store.register name value).2 }
  | unregister {r : Registry} {name : String} (h : r.held name = none) :
      Step r (.unregister name) { r with store := r.store.unregister name }

/-- What the supervisor's own calls in a log were. -/
def owned (log : List (Registry × RegMove)) : List Effect := log.filterMap (·.2.effect)

@[simp] theorem owned_nil : owned [] = [] := rfl

theorem owned_snoc (log : List (Registry × RegMove)) (x : Registry × RegMove) :
    owned (log ++ [x]) = owned log ++ x.2.effect.toList := by
  cases h : x.2.effect <;> simp [owned, h]

/-! ## Held names -/

/-- The store has every held name. -/
def Sound (r : Registry) : Prop := ∀ name handle, r.held name = some handle → r.store name = some (.handle handle)

theorem Sound.step {move : RegMove} (h : Sound r) (hstep : Step r move r') : Sound r' := by
  cases hstep with
  | @registered name handle store hreg =>
    obtain ⟨-, rfl⟩ := RegStore.register_eq_ok hreg
    intro name' handle' hheld
    dsimp only at hheld ⊢
    rw [Table.insert_apply] at hheld ⊢
    split_ifs at hheld ⊢
    · rw [Option.some.inj hheld]
    · exact h name' handle' hheld
  | refused | elsewhere => exact h
  | unregistered =>
    intro name' handle' hheld
    dsimp only [RegStore.unregister] at hheld ⊢
    rw [Table.remove_apply] at hheld ⊢
    split_ifs at hheld ⊢
    exact h name' handle' hheld
  | register => exact fun name' handle' hheld => RegStore.register_of_some (h name' handle' hheld)
  | @unregister name hfree =>
    intro name' handle' hheld
    have hn : name' ≠ name := by
      rintro rfl
      rw [show r.held name' = some handle' from hheld] at hfree
      cases hfree
    exact (Table.remove_ne _ hn).trans (h name' handle' hheld)

theorem Sound.run {log : List (Registry × RegMove)} (h : Sound r) (hrun : Run Step r log r') : Sound r' :=
  hrun.inv h fun _ _ _ hs hstep => hs.step hstep

theorem Sound.whereis (h : Sound r) (hheld : r.held name = some handle) : r.store.whereis name = some handle := by
  simp [RegStore.whereis, h name handle hheld]

/-- The held names after one of the supervisor's own calls. -/
def heldStep (held : Table String ChildHandle) : Effect → Table String ChildHandle
  | .registered name handle => held.insert name handle
  | .unregistered name => held.remove name
  | _ => held

def heldAfter (held : Table String ChildHandle) (effs : List Effect) : Table String ChildHandle :=
  effs.foldl heldStep held

theorem heldAfter_append (held : Table String ChildHandle) (effs effs' : List Effect) :
    heldAfter held (effs ++ effs') = heldAfter (heldAfter held effs) effs' := List.foldl_append

theorem held_step {move : RegMove} (hstep : Step r move r') : r'.held = heldAfter r.held move.effect.toList := by
  cases hstep with
  | registered | refused | unregistered | register | unregister => rfl
  | @elsewhere effect hr hf hu =>
    cases effect with
    | registered name handle => exact absurd rfl (hr name handle)
    | unregistered name => exact absurd rfl (hu name)
    | _ => rfl

theorem held_run {log : List (Registry × RegMove)} (hrun : Run Step r log r') :
    r'.held = heldAfter r.held (owned log) := by
  refine hrun.inv_history (I := fun log r' => r'.held = heldAfter r.held (owned log)) rfl fun log x move y ih hstep => ?_
  rw [held_step hstep, ih, owned_snoc, heldAfter_append]

/-! ## Vacant names -/

/-- A name the supervisor gave up last is vacant, unless another party has registered it since. -/
theorem vacant_run {log : List (Registry × RegMove)} (hrun : Run Step r log r')
    (hlast : (owned log).getLast? = some (.unregistered name)) (hothers : ∀ x ∈ log, ∀ value, x.2 ≠ .register name value) :
    r'.store name = none := by
  refine hrun.inv_history (I := fun log r' => (owned log).getLast? = some (.unregistered name) →
    (∀ x ∈ log, ∀ value, x.2 ≠ .register name value) → r'.store name = none) (fun h => by simp at h) ?_ hlast hothers
  intro log x move y ih hstep hlast hothers
  rw [owned_snoc] at hlast
  have hold := fun h => ih h fun x hx => hothers x (List.mem_append_left _ hx)
  cases hstep with
  | registered | refused => simp [RegMove.effect] at hlast
  | unregistered =>
    have heq := hlast
    simp only [RegMove.effect, Option.toList_some, List.getLast?_append, List.getLast?_singleton, Option.some_or,
      Option.some.injEq, Effect.unregistered.injEq] at heq
    rw [heq]
    exact Table.remove_self _ _
  | elsewhere hr hf hu =>
    simp only [RegMove.effect, Option.toList_some, List.getLast?_append, List.getLast?_singleton, Option.some_or,
      Option.some.injEq] at hlast
    exact absurd hlast (hu name)
  | @register name' value =>
    have hne : name ≠ name' := by
      rintro rfl
      exact hothers (x, .register name value) (by simp) value rfl
    dsimp only
    rw [RegStore.register_apply_ne hne]
    exact hold (by simpa [RegMove.effect] using hlast)
  | @unregister name' =>
    dsimp only [RegStore.unregister]
    rw [Table.remove_apply]
    split_ifs
    · rfl
    · exact hold (by simpa [RegMove.effect] using hlast)

end Registry

end Spawned
