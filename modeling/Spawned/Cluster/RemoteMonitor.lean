import Mathlib.Data.Finset.Basic
import Mathlib.Tactic.SplitIfs
import Spawned.Exit
import Spawned.Lib.Calls

/-!
# Remote monitors at the broker

The broker of the target's node gets monitors and demonitors from other nodes for an actor that it has spawned, while the
actor exits: it completes, and `propagate_child_exit` takes it from the `handles` and puts it into the `exited` table.

* `Life` : the exit of the actor;
* `MonitorPc.next` : `apply_monitor` and its wait task, by the locks they take;
* `MonitorAct.next` : any number of monitors and demonitors;
* `Answering` : a monitor under a reference of its own is answered once; every step keeps it (`Answering.step`).
-/

namespace Spawned.BrokerExit

/-- Where `propagate_child_exit` is: before it, between the `handles` and the `exited` table, before the `ChildExit` to
the parent, and after it. -/
inductive PropagatePc
  | idle
  | unregistered
  | publish
  | done
deriving DecidableEq, Repr

/-- The exit of the actor. -/
structure Life where
  /-- `exit_reason` of the handle is set -/
  completed : Bool := false
  propagate : PropagatePc := .idle
deriving DecidableEq, Repr

/-- The actor is in the `handles`. -/
def Life.registered (life : Life) : Bool := life.propagate = .idle

/-- The actor is in the `exited` table. -/
def Life.exited (life : Life) : Bool := life.propagate = .publish || life.propagate = .done

structure MonitorKey where
  owner : ActorAddress
  monitorRef : Nat
deriving DecidableEq, Repr

/-- Where a monitor is: in `apply_monitor`, which looks for the actor in the `handles` and, if it is not there, in the
`exited` table; which inserts the monitor and then looks whether the actor has completed; or in its wait task. -/
inductive MonitorPc
  | handles
  | exited
  | insert
  | check
  | remove
  | down
  | waiting
  | notify
  | done
  /-- `Monitor: unknown local target actor` -/
  | refused
deriving DecidableEq, Repr

/-- The next step of a monitor: where it is then, the table of monitors, and the `Down`s it publishes. A monitor in the
table is active: only a demonitor clears its flag, after it has taken it out. -/
def MonitorPc.next (life : Life) (table : Finset MonitorKey) (key : MonitorKey) :
    MonitorPc → Option (MonitorPc × Finset MonitorKey × List MonitorKey)
  | .handles => some (if life.registered then .insert else .exited, table, [])
  | .exited => some (if life.exited then .down else .refused, table, [])
  | .insert => some (.check, Insert.insert key table, [])
  | .check => some (if life.completed then .remove else .waiting, table, [])
  | .remove => some (.down, table.erase key, [])
  | .down => some (.done, table, [key])
  | .waiting =>
    if life.completed then some (if key ∈ table then .notify else .done, table.erase key, []) else none
  | .notify => some (.done, table, [key])
  | .done => none
  | .refused => none

structure MonitorCall where
  key : MonitorKey
  pc : MonitorPc := .handles
  /-- a demonitor has taken it from the table -/
  demonitored : Bool := false
deriving DecidableEq, Repr

/-- The monitors of the actor, and the table, which has those of other actors too. -/
structure Monitors where
  table : Finset MonitorKey := ∅
  calls : List MonitorCall := []
  /-- published -/
  downs : List MonitorKey := []

inductive MonitorAct
  | monitor (key : MonitorKey)
  | call (i : Nat)
  | demonitor (key : MonitorKey)
  /-- a monitor of another actor goes into the table, or out of it -/
  | otherInsert (key : MonitorKey)
  | otherRemove (key : MonitorKey)
deriving DecidableEq, Repr

/-- A step of one of them, if it can take one. -/
def MonitorAct.next (life : Life) (m : Monitors) : MonitorAct → Option Monitors
  | .monitor key => some { m with calls := m.calls ++ [{ key }] }
  | .call i => do
    let call ← m.calls[i]?
    let (pc, table, downs) ← call.pc.next life m.table call.key
    some { table, calls := m.calls.set i { call with pc }, downs := m.downs ++ downs }
  | .demonitor key =>
    some
      { m with
        table := m.table.erase key
        calls := m.calls.map fun call =>
          if call.key = key ∧ key ∈ m.table then { call with demonitored := true } else call }
  | .otherInsert key => some { m with table := insert key m.table }
  | .otherRemove key => some { m with table := m.table.erase key }

theorem MonitorAct.next_call {life : Life} {m m' : Monitors} {i : Nat} (h : (MonitorAct.call i).next life m = some m') :
    ∃ call pc table downs, m.calls[i]? = some call ∧
      call.pc.next life m.table call.key = some (pc, table, downs) ∧
      m' = { table, calls := m.calls.set i { call with pc }, downs := m.downs ++ downs } := by
  obtain ⟨call, hcall, h⟩ := Option.bind_eq_some_iff.mp h
  obtain ⟨⟨pc, table, downs⟩, hnext, h⟩ := Option.bind_eq_some_iff.mp h
  exact ⟨call, pc, table, downs, hcall, hnext, (Option.some.inj h).symm⟩

/-- A reference is used for one monitor, and no monitor looks into the `exited` table while the actor is in neither. -/
def MonitorAct.Clear (life : Life) (m : Monitors) : MonitorAct → Prop
  | .monitor key => key ∉ m.calls.map (·.key) ∧ key ∉ m.table
  | .call i => ∀ call ∈ m.calls[i]?, call.pc = .exited → life.propagate ≠ .unregistered
  | .demonitor _ => True
  | .otherInsert key => key ∉ m.calls.map (·.key)
  | .otherRemove key => key ∉ m.calls.map (·.key)

instance (life : Life) (m : Monitors) : (act : MonitorAct) → Decidable (act.Clear life m)
  | .monitor key => inferInstanceAs (Decidable (key ∉ _ ∧ key ∉ m.table))
  | .call i => inferInstanceAs (Decidable (∀ call ∈ m.calls[i]?, _))
  | .demonitor _ => inferInstanceAs (Decidable True)
  | .otherInsert key => inferInstanceAs (Decidable (key ∉ _))
  | .otherRemove key => inferInstanceAs (Decidable (key ∉ _))

/-! ## One answer for each -/

/-- What holds of a monitor, given whether it is in the table, and how often it was answered. -/
def MonitorPc.Holds (life : Life) (inTable : Prop) (answers : Nat) (demonitored : Bool) : MonitorPc → Prop
  | .handles => ¬inTable ∧ answers = 0
  | .exited => ¬inTable ∧ answers = 0 ∧ life.registered = false
  | .insert => ¬inTable ∧ answers = 0
  | .check => answers = 0 ∧ (demonitored = false → inTable)
  | .remove => answers = 0
  | .down => ¬inTable ∧ answers = 0
  | .waiting => answers = 0 ∧ (demonitored = false → inTable)
  | .notify => ¬inTable ∧ answers = 0
  | .done => ¬inTable ∧ answers ≤ 1 ∧ (demonitored = false → answers = 1)
  | .refused => False

theorem MonitorPc.Holds.answers_le {pc : MonitorPc} {life : Life} {inTable : Prop} {answers : Nat} {demonitored : Bool}
    (h : pc.Holds life inTable answers demonitored) : answers ≤ 1 := by
  cases pc <;> simp only [MonitorPc.Holds] at h <;> omega

/-- A demonitor takes the monitor from the table. -/
theorem MonitorPc.Holds.demonitor {pc : MonitorPc} {life : Life} {inTable : Prop} {answers : Nat} {demonitored : Bool}
    (h : pc.Holds life inTable answers demonitored) : pc.Holds life False answers true := by
  cases pc with
  | handles => exact ⟨not_false, h.2⟩
  | exited => exact ⟨not_false, h.2⟩
  | insert => exact ⟨not_false, h.2⟩
  | check => exact ⟨h.1, by simp⟩
  | remove => exact h
  | down => exact ⟨not_false, h.2⟩
  | waiting => exact ⟨h.1, by simp⟩
  | notify => exact ⟨not_false, h.2⟩
  | done => exact ⟨not_false, h.2.1, by simp⟩
  | refused => exact h

/-- The monitors have references of their own, and each is answered at most once, and not before its time. -/
structure Answering (life : Life) (m : Monitors) : Prop where
  nodup : (m.calls.map (·.key)).Nodup
  known : ∀ key ∈ m.downs, key ∈ m.calls.map (·.key)
  holds : ∀ call ∈ m.calls, call.pc.Holds life (call.key ∈ m.table) (m.downs.count call.key) call.demonitored

/-- A step of a monitor touches nothing of the others. -/
theorem MonitorPc.next_others {life : Life} {table table' : Finset MonitorKey} {key : MonitorKey} {pc pc' : MonitorPc}
    {downs : List MonitorKey} (h : pc.next life table key = some (pc', table', downs)) :
    (∀ other, other ≠ key → (other ∈ table' ↔ other ∈ table)) ∧ ∀ other ∈ downs, other = key := by
  cases pc <;> simp only [MonitorPc.next, Option.some.injEq, Prod.mk.injEq, reduceCtorEq] at h
  case waiting =>
    split at h
    · obtain ⟨-, rfl, rfl⟩ := by simpa using h
      exact ⟨fun other hne => by simp [hne], by simp⟩
    · cases h
  all_goals
    obtain ⟨-, rfl, rfl⟩ := h
    exact ⟨fun other hne => by simp [hne], by simp⟩

/-- A step of a monitor keeps what holds of it. -/
theorem MonitorPc.holds_next {life : Life} {table table' : Finset MonitorKey} {key : MonitorKey} {pc pc' : MonitorPc}
    {downs : List MonitorKey} {answers : Nat} {demonitored : Bool}
    (hholds : pc.Holds life (key ∈ table) answers demonitored)
    (hclear : pc = .exited → life.propagate ≠ .unregistered)
    (h : pc.next life table key = some (pc', table', downs)) :
    pc'.Holds life (key ∈ table') (answers + downs.count key) demonitored := by
  cases pc with
  | handles =>
    obtain ⟨rfl, rfl, rfl⟩ := by simpa [MonitorPc.next] using h
    cases hreg : life.registered with
    | true => exact hholds
    | false => exact ⟨hholds.1, hholds.2, hreg⟩
  | exited =>
    obtain ⟨rfl, rfl, rfl⟩ := by simpa [MonitorPc.next] using h
    have hexited : life.exited = true := by
      have hreg := hholds.2.2
      have hne := hclear rfl
      cases hp : life.propagate <;> simp_all [Life.registered, Life.exited]
    rw [if_pos hexited]
    exact ⟨hholds.1, hholds.2.1⟩
  | insert =>
    obtain ⟨rfl, rfl, rfl⟩ := by simpa [MonitorPc.next] using h
    exact ⟨hholds.2, fun _ => by simp⟩
  | check =>
    obtain ⟨rfl, rfl, rfl⟩ := by simpa [MonitorPc.next] using h
    cases life.completed with
    | true => exact hholds.1
    | false => exact hholds
  | remove =>
    obtain ⟨rfl, rfl, rfl⟩ := by simpa [MonitorPc.next] using h
    exact ⟨by simp, hholds⟩
  | down =>
    obtain ⟨rfl, rfl, rfl⟩ := by simpa [MonitorPc.next] using h
    have hzero := hholds.2
    simp [MonitorPc.Holds, hholds.1, hzero]
  | waiting =>
    obtain ⟨-, rfl, rfl, rfl⟩ := by simpa [MonitorPc.next] using h
    by_cases hin : key ∈ table
    · rw [if_pos hin]
      exact ⟨by simp, hholds.1⟩
    · have hzero : answers = 0 := hholds.1
      rw [if_neg hin]
      refine ⟨by simp, by simp [hzero], fun hnot => absurd (hholds.2 hnot) hin⟩
  | notify =>
    obtain ⟨rfl, rfl, rfl⟩ := by simpa [MonitorPc.next] using h
    have hzero := hholds.2
    simp [MonitorPc.Holds, hholds.1, hzero]
  | done => cases h
  | refused => cases h

namespace Answering

open Lib

variable {life life' : Life} {m m' : Monitors}

theorem init (life : Life) : Answering life {} := ⟨by simp, by simp, by simp⟩

/-- The exit of the actor goes on. -/
theorem age (h : Answering life m) (hlife : life.registered = false → life'.registered = false) :
    Answering life' m := by
  refine ⟨h.nodup, h.known, fun call hcall => ?_⟩
  have hholds := h.holds call hcall
  cases hpc : call.pc <;> rw [hpc] at hholds
  case exited => exact ⟨hholds.1, hholds.2.1, hlife hholds.2.2⟩
  all_goals exact hholds

theorem monitor (h : Answering life m) {key : MonitorKey} (hnew : key ∉ m.calls.map (·.key)) (htable : key ∉ m.table) :
    Answering life { m with calls := m.calls ++ [{ key }] } := by
  refine ⟨?_, ?_, fun call hcall => ?_⟩
  · rw [List.map_append, List.nodup_append]
    refine ⟨h.nodup, by simp, ?_⟩
    rintro k hk k' hk' rfl
    obtain rfl : k = key := by simpa using hk'
    exact hnew hk
  · intro k hk
    rw [List.map_append]
    exact List.mem_append_left _ (h.known k hk)
  · rcases List.mem_append.mp hcall with hcall | hcall
    · exact h.holds call hcall
    · obtain rfl : call = { key } := by simpa using hcall
      refine ⟨htable, List.count_eq_zero.mpr fun hk => hnew (h.known key hk)⟩

/-- Other monitors come and go. -/
theorem table (h : Answering life m) {table : Finset MonitorKey}
    (htable : ∀ key ∈ m.calls.map (·.key), key ∈ table ↔ key ∈ m.table) : Answering life { m with table } := by
  refine ⟨h.nodup, h.known, fun call hcall => ?_⟩
  have hiff := htable call.key (List.mem_map_of_mem hcall)
  have hholds := h.holds call hcall
  rw [← propext hiff] at hholds
  exact hholds

theorem demonitor (h : Answering life m) (key : MonitorKey) :
    Answering life
      { m with
        table := m.table.erase key
        calls := m.calls.map fun call =>
          if call.key = key ∧ key ∈ m.table then { call with demonitored := true } else call } := by
  have hkeys : (m.calls.map fun call =>
      if call.key = key ∧ key ∈ m.table then { call with demonitored := true } else call).map (·.key) =
        m.calls.map (·.key) := by
    rw [List.map_map]
    refine List.map_congr_left fun call _ => ?_
    simp only [Function.comp_apply]
    split <;> rfl
  refine ⟨by simpa only [hkeys] using h.nodup, by simpa only [hkeys] using h.known, fun call hcall => ?_⟩
  obtain ⟨call, hold, rfl⟩ := List.mem_map.mp hcall
  have hholds := h.holds call hold
  by_cases hin : call.key = key ∧ key ∈ m.table
  · rw [if_pos hin]
    have hgone : (call.key ∈ m.table.erase key) = False := by simp [hin.1]
    show call.pc.Holds life (call.key ∈ m.table.erase key) _ true
    rw [hgone]
    exact hholds.demonitor
  · rw [if_neg hin]
    have hsame : (call.key ∈ m.table.erase key) = (call.key ∈ m.table) := by
      refine propext ⟨Finset.mem_of_mem_erase, fun hmem => Finset.mem_erase.mpr ⟨fun he => hin ⟨he, he ▸ hmem⟩, hmem⟩⟩
    show call.pc.Holds life (call.key ∈ m.table.erase key) _ call.demonitored
    rw [hsame]
    exact hholds

/-- The keys differ, so a step of one monitor leaves the others as they were. -/
theorem call (h : Answering life m) {i : Nat} {call : MonitorCall} {pc : MonitorPc} {table : Finset MonitorKey}
    {downs : List MonitorKey} (hcall : m.calls[i]? = some call)
    (hclear : call.pc = .exited → life.propagate ≠ .unregistered)
    (hnext : call.pc.next life m.table call.key = some (pc, table, downs)) :
    Answering life { table, calls := m.calls.set i { call with pc }, downs := m.downs ++ downs } := by
  obtain ⟨htable, hdowns⟩ := MonitorPc.next_others hnext
  have hmem := List.mem_of_getElem? hcall
  have hlt : i < m.calls.length := (List.getElem?_eq_some_iff.mp hcall).1
  have hkeys : (m.calls.set i { call with pc }).map (·.key) = m.calls.map (·.key) :=
    map_set_eq (·.key) hcall { call with pc } rfl
  refine ⟨by rw [hkeys]; exact h.nodup, ?_, fun other hother => ?_⟩
  · intro key hkey
    rw [hkeys]
    rcases List.mem_append.mp hkey with hkey | hkey
    · exact h.known key hkey
    · rw [hdowns key hkey]
      exact List.mem_map_of_mem hmem
  · obtain ⟨j, hj⟩ := List.getElem?_of_mem hother
    rw [List.count_append]
    rcases getElem?_set_cases hcall hj with ⟨-, rfl⟩ | ⟨hne, hj⟩
    · exact MonitorPc.holds_next (h.holds call hmem) hclear hnext
    · have hkey : other.key ≠ call.key := by
        intro he
        refine hne.symm (List.getElem?_inj (by simpa using hlt) h.nodup |>.mp ?_)
        rw [List.getElem?_map, List.getElem?_map, hcall, hj, Option.map_some, Option.map_some, he]
      have hzero : downs.count other.key = 0 := List.count_eq_zero.mpr fun hin => hkey (hdowns _ hin)
      have hholds := h.holds other (List.mem_of_getElem? hj)
      rw [hzero, Nat.add_zero, propext (htable other.key hkey)]
      exact hholds

theorem step (h : Answering life m) {act : MonitorAct} (hclear : act.Clear life m) (hs : act.next life m = some m') :
    Answering life m' := by
  cases act with
  | monitor key =>
    obtain rfl := Option.some.inj hs
    exact h.monitor hclear.1 hclear.2
  | call i =>
    obtain ⟨call, pc, table, downs, hcall, hnext, rfl⟩ := MonitorAct.next_call hs
    exact h.call hcall (hclear call hcall) hnext
  | demonitor key =>
    obtain rfl := Option.some.inj hs
    exact h.demonitor key
  | otherInsert key =>
    obtain rfl := Option.some.inj hs
    refine h.table fun k hk => ?_
    have hne : k ≠ key := fun he => hclear (he ▸ hk)
    simp [hne]
  | otherRemove key =>
    obtain rfl := Option.some.inj hs
    refine h.table fun k hk => ?_
    have hne : k ≠ key := fun he => hclear (he ▸ hk)
    simp [hne]

end Answering

end Spawned.BrokerExit
