import Mathlib.Data.List.AList
import Spawned.Lib.Table

/-!
# Maps of maps

A table whose values are maps themselves, as programs keep sets of members under each key. The inner maps are finite
and can be tested for emptiness, which is how such programs decide when a key goes.

* `Inner` : an inner map, with `upsert` (modify or insert) and `retain`;
* `Nested.Has m k a` : `a` is in the inner map of `k`; `Nested.Holds` : with which value;
* `Nested.upsertIn`, `Nested.onInner`, `Nested.onEvery`, `Nested.dropEmpty` : the operations, each with a lemma that says
  what it does to `Has`;
* `Nested.Filled` : no inner map is empty; `Nested.FilledBut key` : save possibly the one of `key`;
* `Nested.get m k a` : the value of `a` in the inner map of `k`, with the same lemmas for what the operations do to it.
-/

namespace Lib

/-- A map inside a map. -/
abbrev Inner (A V : Type) := AList fun _ : A => V

/-- A map of maps. -/
abbrev Nested (K A V : Type) := Table K (Inner A V)

namespace Inner

variable {A V : Type}

def isEmpty (m : Inner A V) : Bool := m.entries.isEmpty

/-- Keep the entries whose value satisfies `p`. -/
def retain (m : Inner A V) (p : V → Bool) : Inner A V :=
  ⟨m.entries.filter fun e => p e.2, m.nodupKeys.sublist List.filter_sublist⟩

theorem isEmpty_iff {m : Inner A V} : m.isEmpty = true ↔ ∀ a, a ∉ m := by
  constructor
  · intro h a ha
    rw [isEmpty, List.isEmpty_iff] at h
    rw [AList.mem_keys, AList.keys, h] at ha
    cases ha
  · intro h
    rw [isEmpty, List.isEmpty_iff]
    refine List.eq_nil_iff_forall_not_mem.mpr fun e he => h e.1 ?_
    exact List.mem_keys_of_mem he

theorem isEmpty_eq_false_iff {m : Inner A V} : m.isEmpty = false ↔ ∃ a, a ∈ m := by
  rw [← Bool.not_eq_true, isEmpty_iff]
  simp

variable [DecidableEq A]

/-- `entry(a).and_modify(f).or_insert(v)`. -/
def upsert (m : Inner A V) (a : A) (f : V → V) (v : V) : Inner A V :=
  AList.insert a ((m.lookup a).elim v f) m

theorem mem_upsert {m : Inner A V} {a a' : A} {f : V → V} {v : V} : a' ∈ m.upsert a f v ↔ a' = a ∨ a' ∈ m :=
  AList.mem_insert m

theorem mem_iff_lookup {m : Inner A V} {a : A} : a ∈ m ↔ ∃ v, m.lookup a = some v := by
  rw [← AList.lookup_isSome, Option.isSome_iff_exists]

theorem lookup_retain {m : Inner A V} {p : V → Bool} {a : A} {v : V} :
    (m.retain p).lookup a = some v ↔ m.lookup a = some v ∧ p v = true := by
  rw [← Option.mem_def, ← Option.mem_def, AList.mem_lookup_iff, AList.mem_lookup_iff, retain, List.mem_filter]

theorem mem_retain {m : Inner A V} {p : V → Bool} {a : A} :
    a ∈ m.retain p ↔ ∃ v, m.lookup a = some v ∧ p v = true := by
  rw [mem_iff_lookup]
  exact exists_congr fun v => lookup_retain

theorem lookup_replace {m : Inner A V} {a a' : A} {v : V} :
    (m.replace a v).lookup a' = if a' = a then (m.lookup a').map fun _ => v else m.lookup a' := by
  obtain ⟨entries, hnodup⟩ := m
  show List.dlookup a' (List.kreplace a v entries) =
    if a' = a then (List.dlookup a' entries).map fun _ => v else List.dlookup a' entries
  clear hnodup
  induction entries with
  | nil => simp [List.kreplace]
  | cons e entries ih =>
    obtain ⟨b, w⟩ := e
    by_cases hb : a = b
    · subst hb
      have hhead : List.kreplace a v (⟨a, w⟩ :: entries) = ⟨a, v⟩ :: entries := by
        rw [List.kreplace, List.lookmap_cons_some]
        simp
      rw [hhead]
      by_cases ha : a' = a
      · subst ha
        simp
      · rw [if_neg ha, List.dlookup_cons_ne _ _ ha, List.dlookup_cons_ne _ _ ha]
    · have htail : List.kreplace a v (⟨b, w⟩ :: entries) = ⟨b, w⟩ :: List.kreplace a v entries := by
        rw [List.kreplace, List.lookmap_cons_none]
        simp [hb]
      rw [htail]
      by_cases ha : a' = b
      · subst ha
        simp [Ne.symm hb]
      · rw [List.dlookup_cons_ne _ _ ha, List.dlookup_cons_ne _ _ ha, ih]

end Inner

namespace Nested

variable {K A V : Type}

/-- `a` is in the inner map of `k`. -/
def Has (m : Nested K A V) (k : K) (a : A) : Prop := ∃ inner, m k = some inner ∧ a ∈ inner

/-- The inner map of `k` is missing or empty. -/
def vacant (m : Nested K A V) (k : K) : Bool := (m k).elim true Inner.isEmpty

/-- Every inner map, changed in place. -/
def onEvery (m : Nested K A V) (g : K → Inner A V → Inner A V) : Nested K A V := fun k => (m k).map (g k)

/-- Without the empty inner maps. -/
def dropEmpty (m : Nested K A V) : Nested K A V := m.retain fun _ inner => !inner.isEmpty

/-- No inner map is empty. -/
def Filled (m : Nested K A V) : Prop := ∀ k inner, m k = some inner → ∃ a, a ∈ inner

/-- No inner map is empty, save possibly the one of `key`. -/
def FilledBut (key : K) (m : Nested K A V) : Prop := ∀ k inner, k ≠ key → m k = some inner → ∃ a, a ∈ inner

theorem Filled.but {m : Nested K A V} (h : m.Filled) (key : K) : m.FilledBut key :=
  fun k inner _ hk => h k inner hk

theorem vacant_iff {m : Nested K A V} {k : K} : m.vacant k = true ↔ ∀ a, ¬m.Has k a := by
  unfold vacant Has
  cases hk : m k with
  | none => simp
  | some inner =>
    simp only [Option.elim_some, Inner.isEmpty_iff, Option.some.injEq]
    constructor
    · rintro h a ⟨_, rfl, ha⟩
      exact h a ha
    · exact fun h a ha => h a ⟨inner, rfl, ha⟩

theorem vacant_eq_false_iff {m : Nested K A V} {k : K} : m.vacant k = false ↔ ∃ a, m.Has k a := by
  rw [← Bool.not_eq_true, vacant_iff]
  simp

@[simp] theorem not_has_empty {k : K} {a : A} : ¬Has (Table.empty : Nested K A V) k a := by
  simp [Has]

theorem filled_empty : Filled (Table.empty : Nested K A V) := by
  intro k inner h
  cases h

theorem has_onEvery {m : Nested K A V} {g : K → Inner A V → Inner A V} {k : K} {a : A} :
    (m.onEvery g).Has k a ↔ ∃ inner, m k = some inner ∧ a ∈ g k inner := by
  simp [Has, onEvery]

theorem has_retain {m : Nested K A V} {p : K → Inner A V → Bool} {k : K} {a : A} :
    Has (Table.retain m p) k a ↔ ∃ inner, m k = some inner ∧ p k inner = true ∧ a ∈ inner := by
  simp only [Has, Table.retain_eq_some, and_assoc]

@[simp] theorem has_dropEmpty {m : Nested K A V} {k : K} {a : A} : m.dropEmpty.Has k a ↔ m.Has k a := by
  refine has_retain.trans (exists_congr fun inner => and_congr_right fun _ => and_iff_right_of_imp fun ha => ?_)
  rw [Bool.not_eq_true', Inner.isEmpty_eq_false_iff]
  exact ⟨a, ha⟩

theorem filled_retain {m : Nested K A V} {p : K → Inner A V → Bool} (h : ∀ k inner, p k inner = true → ∃ a, a ∈ inner) :
    Filled (Table.retain m p) :=
  fun k inner hk => h k inner (Table.retain_eq_some.mp hk).2

theorem filled_dropEmpty (m : Nested K A V) : m.dropEmpty.Filled :=
  filled_retain fun _ _ hp => Inner.isEmpty_eq_false_iff.mp (by simpa using hp)

/-! ## Operations on the inner map of one key -/

variable [DecidableEq K]

/-- The inner map of `k`, if any, changed in place. -/
def onInner (m : Nested K A V) (k : K) (g : Inner A V → Inner A V) : Nested K A V :=
  (m k).elim m fun inner => m.insert k (g inner)

theorem onInner_apply (m : Nested K A V) (k k' : K) (g : Inner A V → Inner A V) :
    m.onInner k g k' = if k' = k then (m k').map g else m k' := by
  unfold onInner
  cases hk : m k with
  | none =>
    split_ifs with he
    · rw [Option.elim_none, he, hk]
      rfl
    · rfl
  | some inner =>
    rw [Option.elim_some, Table.insert_apply]
    split_ifs with he
    · rw [he, hk]
      rfl
    · rfl

theorem insert_eq_onInner {m : Nested K A V} {k : K} {inner : Inner A V} (g : Inner A V → Inner A V)
    (hk : m k = some inner) : Table.insert m k (g inner) = m.onInner k g := by
  simp only [onInner, hk, Option.elim_some]

theorem has_onInner {m : Nested K A V} {k k' : K} {g : Inner A V → Inner A V} {a : A} :
    (m.onInner k g).Has k' a ↔ if k' = k then ∃ inner, m k' = some inner ∧ a ∈ g inner else m.Has k' a := by
  simp only [Has, onInner_apply]
  split_ifs with he <;> simp

theorem has_remove {m : Nested K A V} {k k' : K} {a : A} : Has (Table.remove m k) k' a ↔ k' ≠ k ∧ m.Has k' a := by
  simp only [Has, Table.remove_apply]
  split_ifs with he <;> simp [he]

/-- Removing the key of an inner map without entries changes no membership. -/
theorem has_remove_vacant {m : Nested K A V} {k k' : K} {a : A} (h : m.vacant k = true) :
    Has (Table.remove m k) k' a ↔ m.Has k' a := by
  rw [has_remove, and_iff_right_of_imp]
  rintro ha rfl
  exact vacant_iff.mp h a ha

theorem filledBut_onInner {m : Nested K A V} (h : m.Filled) {k : K} {g : Inner A V → Inner A V} :
    (m.onInner k g).FilledBut k := by
  intro k' inner hne hk'
  rw [onInner_apply, if_neg hne] at hk'
  exact h k' inner hk'

theorem FilledBut.remove {m : Nested K A V} {k : K} (h : m.FilledBut k) : Filled (Table.remove m k) := by
  intro k' inner hk'
  rw [Table.remove_apply] at hk'
  split_ifs at hk' with he
  exact h k' inner he hk'

/-- An inner map that is not vacant is not empty. -/
theorem FilledBut.of_not_vacant {m : Nested K A V} {k : K} (h : m.FilledBut k) (hk : m.vacant k = false) : m.Filled := by
  intro k' inner hk'
  by_cases he : k' = k
  · subst he
    obtain ⟨a, inner', hinner, ha⟩ := vacant_eq_false_iff.mp hk
    rw [hk'] at hinner
    cases hinner
    exact ⟨a, ha⟩
  · exact h k' inner he hk'

variable [DecidableEq A]

/-- `a` is in the inner map of `k`, with the value `v`. -/
def Holds (m : Nested K A V) (k : K) (a : A) (v : V) : Prop := ∃ inner, m k = some inner ∧ inner.lookup a = some v

omit [DecidableEq K] in
theorem has_iff_holds {m : Nested K A V} {k : K} {a : A} : m.Has k a ↔ ∃ v, m.Holds k a v := by
  simp only [Has, Holds, Inner.mem_iff_lookup]
  exact ⟨fun ⟨inner, hk, v, hv⟩ => ⟨v, inner, hk, hv⟩, fun ⟨v, inner, hk, hv⟩ => ⟨inner, hk, v, hv⟩⟩

instance (m : Nested K A V) (k : K) (a : A) : Decidable (m.Has k a) :=
  decidable_of_iff ((m k).any fun inner => decide (a ∈ inner)) (by
    unfold Has
    cases m k <;> simp)

omit [DecidableEq K] in
/-- The values of one inner map, tested one by one. -/
theorem all_holds_iff {m : Nested K A V} {k : K} {p : V → Bool} :
    ((m k).all fun inner => inner.entries.all fun e => p e.2) = true ↔ ∀ a v, m.Holds k a v → p v = true := by
  have hentry : ∀ (inner : Inner A V) (a : A) (v : V), inner.lookup a = some v ↔ Sigma.mk a v ∈ inner.entries :=
    fun inner a v => AList.mem_lookup_iff
  unfold Holds
  cases m k with
  | none => simp
  | some inner =>
    simp only [Option.all_some, List.all_eq_true, Option.some.injEq, exists_eq_left', hentry]
    exact ⟨fun h a v hv => h ⟨a, v⟩ hv, fun h e he => h e.1 e.2 he⟩

/-- `entry(k).or_default().entry(a).and_modify(f).or_insert(v)`. -/
def upsertIn (m : Nested K A V) (k : K) (a : A) (f : V → V) (v : V) : Nested K A V :=
  m.insert k (((m k).getD ∅).upsert a f v)

theorem has_upsertIn {m : Nested K A V} {k k' : K} {a a' : A} {f : V → V} {v : V} :
    (m.upsertIn k a f v).Has k' a' ↔ (k' = k ∧ a' = a) ∨ m.Has k' a' := by
  simp only [Has, upsertIn, Table.insert_apply]
  split_ifs with he
  · subst he
    simp only [Option.some.injEq, exists_eq_left', Inner.mem_upsert, true_and]
    cases hk : m k' with
    | none => simp
    | some inner => simp
  · simp [he]

theorem filled_upsertIn {m : Nested K A V} (h : m.Filled) {k : K} {a : A} {f : V → V} {v : V} :
    (m.upsertIn k a f v).Filled := by
  intro k' inner hk'
  rw [upsertIn, Table.insert_apply] at hk'
  split_ifs at hk' with he
  · obtain rfl := Option.some.inj hk'
    exact ⟨a, Inner.mem_upsert.mpr (Or.inl rfl)⟩
  · exact h k' inner hk'

theorem has_onInner_erase {m : Nested K A V} {k k' : K} {a a' : A} :
    (m.onInner k fun inner => inner.erase a).Has k' a' ↔ m.Has k' a' ∧ ¬(k' = k ∧ a' = a) := by
  rw [has_onInner]
  split_ifs with he
  · simp only [he, true_and, Has, AList.mem_erase]
    constructor
    · rintro ⟨inner, hk, hne, ha⟩
      exact ⟨⟨inner, hk, ha⟩, hne⟩
    · rintro ⟨⟨inner, hk, ha⟩, hne⟩
      exact ⟨inner, hk, hne, ha⟩
  · simp [he]

/-- `a` goes from the inner map of `k`, and `k` with the last one. -/
def eraseIn (m : Nested K A V) (k : K) (a : A) : Nested K A V :=
  let erased := m.onInner k fun inner => inner.erase a
  if erased.vacant k then Table.remove erased k else erased

theorem has_eraseIn {m : Nested K A V} {k k' : K} {a a' : A} :
    (m.eraseIn k a).Has k' a' ↔ m.Has k' a' ∧ ¬(k' = k ∧ a' = a) := by
  rw [← has_onInner_erase]
  simp only [eraseIn]
  split_ifs with hvacant
  · exact has_remove_vacant hvacant
  · rfl

theorem filled_eraseIn {m : Nested K A V} (h : m.Filled) {k : K} {a : A} : (m.eraseIn k a).Filled := by
  simp only [eraseIn]
  split_ifs with hvacant
  · exact (filledBut_onInner h).remove
  · exact (filledBut_onInner h).of_not_vacant (by simpa using hvacant)

omit [DecidableEq K] in
/-- `a` goes from every inner map whose key satisfies `p`. -/
theorem has_onEvery_erase_of {m : Nested K A V} (p : K → Prop) [DecidablePred p] {k : K} {a a' : A} :
    (m.onEvery fun k inner => if p k then inner.erase a else inner).Has k a' ↔ m.Has k a' ∧ ¬(p k ∧ a' = a) := by
  rw [has_onEvery]
  by_cases hp : p k
  · simp only [hp, if_true, true_and, AList.mem_erase, Has]
    constructor
    · rintro ⟨inner, hk, hne, ha⟩
      exact ⟨⟨inner, hk, ha⟩, hne⟩
    · rintro ⟨⟨inner, hk, ha⟩, hne⟩
      exact ⟨inner, hk, hne, ha⟩
  · simp [hp, Has]

omit [DecidableEq K] in
theorem has_onEvery_erase {m : Nested K A V} {k : K} {a a' : A} :
    (m.onEvery fun _ inner => inner.erase a).Has k a' ↔ m.Has k a' ∧ a' ≠ a := by
  have h := @has_onEvery_erase_of K A V _ m (fun _ => True) _ k a a'
  simpa using h

/-- A replaced value changes no membership. -/
theorem has_onInner_replace {m : Nested K A V} {k k' : K} {a a' : A} {v : V} :
    (m.onInner k fun inner => inner.replace a v).Has k' a' ↔ m.Has k' a' := by
  rw [has_onInner]
  split_ifs with he <;> simp [Has]

theorem filled_onInner_replace {m : Nested K A V} (h : m.Filled) {k : K} {a : A} {v : V} :
    (m.onInner k fun inner => inner.replace a v).Filled := by
  intro k' inner hk'
  rw [onInner_apply] at hk'
  split_ifs at hk' with he
  · obtain ⟨inner', hinner', rfl⟩ := Option.map_eq_some_iff.mp hk'
    obtain ⟨b, hb⟩ := h k' inner' hinner'
    exact ⟨b, AList.mem_replace.mpr hb⟩
  · exact h k' inner hk'

theorem has_onInner_retain {m : Nested K A V} {k k' : K} {p : V → Bool} {a : A} :
    (m.onInner k fun inner => inner.retain p).Has k' a ↔ ∃ v, m.Holds k' a v ∧ (k' = k → p v = true) := by
  rw [has_onInner]
  split_ifs with he
  · simp only [he, Inner.mem_retain, Holds, true_imp_iff]
    exact ⟨fun ⟨inner, hk, v, hv, hp⟩ => ⟨v, ⟨inner, hk, hv⟩, hp⟩, fun ⟨v, ⟨inner, hk, hv⟩, hp⟩ => ⟨inner, hk, v, hv, hp⟩⟩
  · simp [he, has_iff_holds]

/-! ## Values -/

/-- The value of `a` in the inner map of `k`. -/
def get (m : Nested K A V) (k : K) (a : A) : Option V := (m k).bind fun inner => inner.lookup a

omit [DecidableEq K] in
theorem get_eq_some {m : Nested K A V} {k : K} {a : A} {v : V} : m.get k a = some v ↔ m.Holds k a v := by
  simp [get, Holds, Option.bind_eq_some_iff]

omit [DecidableEq K] in
theorem get_eq_none {m : Nested K A V} {k : K} {a : A} : m.get k a = none ↔ ¬m.Has k a := by
  rw [has_iff_holds, not_exists, Option.eq_none_iff_forall_ne_some]
  exact forall_congr' fun v => not_congr get_eq_some

theorem get_onInner {m : Nested K A V} {k k' : K} {g : Inner A V → Inner A V} {a : A} :
    (m.onInner k g).get k' a = if k' = k then (m k').bind fun inner => (g inner).lookup a else m.get k' a := by
  simp only [get, onInner_apply]
  split_ifs
  · rw [Option.bind_map]
    rfl
  · rfl

theorem get_onInner_erase {m : Nested K A V} {k k' : K} {a a' : A} :
    (m.onInner k fun inner => inner.erase a).get k' a' = if k' = k ∧ a' = a then none else m.get k' a' := by
  rw [get_onInner]
  by_cases hk : k' = k
  · by_cases ha : a' = a
    · subst ha
      simp [hk]
    · simp only [hk, ha, if_true, and_false, if_false, get]
      exact Option.bind_congr fun inner _ => AList.lookup_erase_ne ha
  · simp [hk]

theorem get_onInner_replace {m : Nested K A V} {k k' : K} {a a' : A} {v : V} :
    (m.onInner k fun inner => inner.replace a v).get k' a' =
      if k' = k ∧ a' = a then (m.get k' a').map fun _ => v else m.get k' a' := by
  rw [get_onInner]
  by_cases hk : k' = k
  · simp only [hk, if_true, true_and, get, Inner.lookup_replace]
    split_ifs with ha
    · rw [Option.map_bind]
      rfl
    · rfl
  · simp [hk]

theorem get_onInner_retain {m : Nested K A V} {k k' : K} {a : A} {p : V → Bool} :
    (m.onInner k fun inner => inner.retain p).get k' a = if k' = k then (m.get k' a).filter p else m.get k' a := by
  rw [get_onInner]
  split_ifs with hk
  · refine Option.ext fun v => ?_
    simp only [get, Option.bind_eq_some_iff, Option.filter_eq_some_iff, Inner.lookup_retain]
    exact ⟨fun ⟨inner, hk, hv, hp⟩ => ⟨⟨inner, hk, hv⟩, hp⟩, fun ⟨⟨inner, hk, hv⟩, hp⟩ => ⟨inner, hk, hv, hp⟩⟩
  · rfl

/-- An entry that is kept. -/
theorem get_onInner_retain_of_holds {m : Nested K A V} {k k' : K} {a : A} {p : V → Bool}
    (h : ∀ v, m.Holds k a v → p v = true) : (m.onInner k fun inner => inner.retain p).get k' a = m.get k' a := by
  rw [get_onInner_retain]
  split_ifs with hk
  · subst hk
    refine Option.ext fun v => ?_
    rw [Option.filter_eq_some_iff]
    exact and_iff_left_of_imp fun hv => h v (get_eq_some.mp hv)
  · rfl

theorem get_upsertIn {m : Nested K A V} {k k' : K} {a a' : A} {f : V → V} {v : V} :
    (m.upsertIn k a f v).get k' a' = if k' = k ∧ a' = a then some ((m.get k a).elim v f) else m.get k' a' := by
  simp only [get, upsertIn, Table.insert_apply, Inner.upsert]
  by_cases hk : k' = k
  · subst hk
    by_cases ha : a' = a
    · subst ha
      rw [if_pos rfl, if_pos ⟨rfl, rfl⟩, Option.bind_some, AList.lookup_insert]
      cases m k' <;> rfl
    · rw [if_pos rfl, if_neg fun h => ha h.2, Option.bind_some, AList.lookup_insert_ne ha]
      cases m k' <;> rfl
  · simp [hk]

theorem get_remove_vacant {m : Nested K A V} {k k' : K} {a : A} (h : m.vacant k = true) :
    get (Table.remove m k) k' a = m.get k' a := by
  by_cases hk : k' = k
  · subst hk
    rw [get_eq_none.mpr (vacant_iff.mp h a), get, Table.remove_self, Option.bind_none]
  · rw [get, Table.remove_ne _ hk, get]

omit [DecidableEq K] in
/-- Entries of inner maps that are kept. -/
theorem get_retain {m : Nested K A V} {p : K → Inner A V → Bool} {k : K} {a : A}
    (h : ∀ inner, m k = some inner → a ∈ inner → p k inner = true) : get (Table.retain m p) k a = m.get k a := by
  cases hk : m k with
  | none => simp [get, Table.retain, hk]
  | some inner =>
    simp only [get, Table.retain, hk, Option.bind_some, Option.filter_some]
    by_cases ha : a ∈ inner
    · rw [if_pos (h inner hk ha), Option.bind_some]
    · split_ifs
      · rfl
      · rw [Option.bind_none, AList.lookup_eq_none.mpr ha]

/-! What is there after an operation that takes entries out was there before it. -/

theorem get_of_get_onInner_erase {m : Nested K A V} {k k' : K} {a a' : A} {v : V}
    (h : (m.onInner k fun inner => inner.erase a).get k' a' = some v) : m.get k' a' = some v := by
  rw [get_onInner_erase] at h
  split_ifs at h
  exact h

theorem get_of_get_onInner_retain {m : Nested K A V} {k k' : K} {a : A} {p : V → Bool} {v : V}
    (h : (m.onInner k fun inner => inner.retain p).get k' a = some v) : m.get k' a = some v := by
  rw [get_onInner] at h
  split_ifs at h
  · obtain ⟨inner, hinner, hv⟩ := Option.bind_eq_some_iff.mp h
    exact Option.bind_eq_some_iff.mpr ⟨inner, hinner, (Inner.lookup_retain.mp hv).1⟩
  · exact h

theorem get_of_get_remove {m : Nested K A V} {k k' : K} {a : A} {v : V} (h : get (Table.remove m k) k' a = some v) :
    m.get k' a = some v := by
  obtain ⟨inner, hinner, hv⟩ := Option.bind_eq_some_iff.mp h
  rw [Table.remove_apply] at hinner
  split_ifs at hinner
  exact Option.bind_eq_some_iff.mpr ⟨inner, hinner, hv⟩

omit [DecidableEq K] in
theorem get_of_get_retain {m : Nested K A V} {p : K → Inner A V → Bool} {k : K} {a : A} {v : V}
    (h : get (Table.retain m p) k a = some v) : m.get k a = some v := by
  obtain ⟨inner, hinner, hv⟩ := Option.bind_eq_some_iff.mp h
  exact Option.bind_eq_some_iff.mpr ⟨inner, (Table.retain_eq_some.mp hinner).1, hv⟩

omit [DecidableEq K] in
@[simp] theorem get_dropEmpty {m : Nested K A V} {k : K} {a : A} : m.dropEmpty.get k a = m.get k a := by
  refine get_retain fun inner _ ha => ?_
  rw [Bool.not_eq_true', Inner.isEmpty_eq_false_iff]
  exact ⟨a, ha⟩

omit [DecidableEq K] in
theorem get_onEvery {m : Nested K A V} {g : K → Inner A V → Inner A V} {k : K} {a : A}
    (h : ∀ inner, m k = some inner → (g k inner).lookup a = inner.lookup a) : (m.onEvery g).get k a = m.get k a := by
  cases hk : m k with
  | none => simp [get, onEvery, hk]
  | some inner => simp [get, onEvery, hk, h inner hk]

omit [DecidableEq K] in
theorem get_of_get_onEvery {m : Nested K A V} {g : K → Inner A V → Inner A V} {k : K} {a : A} {v : V}
    (hg : ∀ inner, (g k inner).lookup a = some v → inner.lookup a = some v) (h : (m.onEvery g).get k a = some v) :
    m.get k a = some v := by
  obtain ⟨changed, hchanged, hv⟩ := Option.bind_eq_some_iff.mp h
  obtain ⟨inner, hinner, rfl⟩ := Option.map_eq_some_iff.mp hchanged
  exact Option.bind_eq_some_iff.mpr ⟨inner, hinner, hg inner hv⟩

end Nested

end Lib
