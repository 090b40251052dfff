import Mathlib.Data.List.Induction
import Mathlib.Order.MinMax
import Spawned.Lib.Window
import Spawned.Supervisor.Logic

/-!
# The restart window and the restart delay

`IntensityTracker` sees only the times `record_restart` is called with, and `RestartBackoff` only the number of the
attempt. Both are set against what they are for.

* `IntensityTracker.accepted` : the times accepted so far, of which the tracker keeps a part;
* `restart_window_exact` : a call is rejected exactly when the window that ends with it is full;
* `SupervisorLogic.backoffNth` : the delays of consecutive calls of `backoff_delay` for one child;
* `exponential_backoff_iff` : where the delay is the formula's.
-/

namespace Spawned

open Lib

/-! ## The window -/

namespace IntensityTracker

/-- The tracker after calls at these times. -/
def after (t : IntensityTracker) (nows : List Instant) : IntensityTracker :=
  nows.foldl (fun t now => (t.recordRestart now).2) t

/-- Those of the times that are accepted. -/
def accepted (t : IntensityTracker) : List Instant → List Instant
  | [] => []
  | now :: nows =>
    if (t.recordRestart now).1 then now :: (t.recordRestart now).2.accepted nows else (t.recordRestart now).2.accepted nows

/-- How many of the times lie in the closed interval of this length that ends at `now`. -/
def recent (within : Duration) (now : Instant) (times : List Instant) : Nat := times.countP fun t => now - t ≤ within

/-- How many of the times lie in `[start, start + within]`. -/
def between (within : Duration) (start : Instant) (times : List Instant) : Nat :=
  times.countP fun t => start ≤ t ∧ t ≤ start + within

variable {t : IntensityTracker} {now : Instant} {nows : List Instant}

theorem after_snoc : t.after (nows ++ [now]) = ((t.after nows).recordRestart now).2 := by
  simp [after]

theorem accepted_snoc : t.accepted (nows ++ [now]) =
    t.accepted nows ++ if ((t.after nows).recordRestart now).1 then [now] else [] := by
  induction nows generalizing t with
  | nil =>
    simp only [List.nil_append, accepted]
    rfl
  | cons first nows ih =>
    simp only [List.cons_append, accepted]
    rw [ih]
    split <;> rfl

/-- Accepted times are times of calls. -/
theorem accepted_sublist : (t.accepted nows).Sublist nows := by
  induction nows generalizing t with
  | nil => exact .slnil
  | cons first nows ih =>
    unfold accepted
    split
    · exact ih.cons_cons _
    · exact ih.cons _

@[simp] theorem recordRestart_intensity : (t.recordRestart now).2.intensity = t.intensity := by
  unfold recordRestart
  dsimp only
  split <;> rfl

@[simp] theorem after_intensity : (t.after nows).intensity = t.intensity := by
  induction nows using List.reverseRecOn with
  | nil => rfl
  | append_singleton nows now ih => rw [after_snoc, recordRestart_intensity, ih]

/-- The times still in the window at `now`. -/
def current (within : Duration) (now : Instant) (times : List Instant) : List Instant :=
  times.filter fun t => now - t ≤ within

theorem length_current {within : Duration} {times : List Instant} :
    (current within now times).length = recent within now times := List.countP_eq_length_filter.symm

/-- What `record_restart` decides by, for timestamps in order. -/
theorem recordRestart_eq (h : t.restartTimestamps.Pairwise (· ≤ ·)) :
    t.recordRestart now =
      if t.intensity.maxRestarts ≤ recent t.intensity.within now t.restartTimestamps then
        (false, { t with restartTimestamps := current t.intensity.within now t.restartTimestamps })
      else (true, { t with restartTimestamps := current t.intensity.within now t.restartTimestamps ++ [now] }) := by
  have hpop : t.restartTimestamps.dropWhile (fun front => t.intensity.within < now - front) =
      current t.intensity.within now t.restartTimestamps := by
    rw [current, ← dropWhile_eq_filter h]
    · congr 1
      funext front
      rw [← decide_not, decide_eq_decide, Nat.not_le]
    · intro a b hab ha
      rw [decide_eq_true_eq] at ha ⊢
      exact le_trans (Nat.sub_le_sub_left hab now) ha
  unfold recordRestart
  simp only [hpop, length_current]

/-- What the tracker keeps of the accepted times: a part of them, in order, that no later window misses. -/
structure Keeps (times : List Instant) (t : IntensityTracker) (last : Instant) : Prop where
  sublist : t.restartTimestamps.Sublist times
  current : ∀ now, last ≤ now →
    current t.intensity.within now t.restartTimestamps = current t.intensity.within now times

/-- Times out of the window now are out of every later window. -/
theorem current_current {within : Duration} {times : List Instant} {later : Instant} (h : now ≤ later) :
    current within later (current within now times) = current within later times := by
  refine filter_filter_of_imp fun a _ ha => ?_
  rw [decide_eq_true_eq] at ha ⊢
  exact le_trans (Nat.sub_le_sub_right h a) ha

theorem Keeps.recordRestart {times : List Instant} {last : Instant} (h : Keeps times t last) (hlast : last ≤ now)
    (htimes : times.Pairwise (· ≤ ·)) :
    (t.recordRestart now).1 = decide (recent t.intensity.within now times < t.intensity.maxRestarts) ∧
      Keeps (times ++ if (t.recordRestart now).1 then [now] else []) (t.recordRestart now).2 now := by
  have hsorted := htimes.sublist h.sublist
  have hrecent : recent t.intensity.within now t.restartTimestamps = recent t.intensity.within now times := by
    rw [← length_current, h.current now hlast, length_current]
  have hkept : (IntensityTracker.current t.intensity.within now t.restartTimestamps).Sublist times :=
    List.filter_sublist.trans h.sublist
  have hlater : ∀ later, now ≤ later →
      IntensityTracker.current t.intensity.within later
          (IntensityTracker.current t.intensity.within now t.restartTimestamps) =
        IntensityTracker.current t.intensity.within later times := by
    intro later hnow
    rw [h.current now hlast, current_current hnow]
  rw [recordRestart_eq hsorted, hrecent]
  split
  case isTrue hfull =>
    refine ⟨by simp [hfull], ?_, ?_⟩
    · simpa using hkept
    · simpa using hlater
  case isFalse hroom =>
    refine ⟨by simpa using hroom, ?_, ?_⟩
    · exact hkept.append_right [now]
    · intro later hnow
      have happend := congrArg (· ++ IntensityTracker.current t.intensity.within later [now]) (hlater later hnow)
      simpa [IntensityTracker.current, List.filter_append] using happend

/-- The times of the calls in order; then the tracker keeps what it needs. -/
theorem keeps_after {i : RestartIntensity} (h : (nows ++ [now]).Pairwise (· ≤ ·)) :
    Keeps ((IntensityTracker.mk i []).accepted nows) ((IntensityTracker.mk i []).after nows) now := by
  induction nows using List.reverseRecOn generalizing now with
  | nil => exact ⟨.slnil, fun _ _ => rfl⟩
  | append_singleton nows last ih =>
    have hbefore : (nows ++ [last]).Pairwise (· ≤ ·) := h.sublist (List.sublist_append_left _ _)
    have hle : last ≤ now := (List.pairwise_append.mp h).2.2 last (by simp) now (by simp)
    have hkeeps := ih hbefore
    have hsorted := (hbefore.sublist (List.sublist_append_left _ _)).sublist
      (accepted_sublist (t := IntensityTracker.mk i []))
    obtain ⟨-, hnext⟩ := hkeeps.recordRestart le_rfl hsorted
    rw [after_snoc, accepted_snoc]
    exact ⟨hnext.sublist, fun later hlater => hnext.current later (le_trans hle hlater)⟩

/-! ## What the tracker is for -/

/-- The accepted times after one more call: the window that ends with it has room, or not. -/
def admitAt (i : RestartIntensity) (times : List Instant) (now : Instant) : List Instant :=
  if recent i.within now times < i.maxRestarts then times ++ [now] else times

/-- For times in order the accepted times are decided by the windows alone. -/
theorem accepted_eq_foldl {i : RestartIntensity} (h : nows.Pairwise (· ≤ ·)) :
    (IntensityTracker.mk i []).accepted nows = nows.foldl (admitAt i) [] := by
  induction nows using List.reverseRecOn with
  | nil => rfl
  | append_singleton nows now ih =>
    have hnows : nows.Pairwise (· ≤ ·) := h.sublist (List.sublist_append_left _ _)
    obtain ⟨hdecided, -⟩ := (keeps_after (i := i) h).recordRestart le_rfl (hnows.sublist accepted_sublist)
    rw [after_intensity] at hdecided
    rw [accepted_snoc, List.foldl_append, ← ih hnows, hdecided]
    simp only [List.foldl_cons, List.foldl_nil, admitAt, decide_eq_true_eq]
    split <;> simp

theorem rejected_iff {i : RestartIntensity} (h : (nows ++ [now]).Pairwise (· ≤ ·)) :
    (((IntensityTracker.mk i []).after nows).recordRestart now).1 = false ↔
      i.maxRestarts ≤ recent i.within now ((IntensityTracker.mk i []).accepted nows) := by
  have hnows : nows.Pairwise (· ≤ ·) := h.sublist (List.sublist_append_left _ _)
  obtain ⟨hdecided, -⟩ := (keeps_after (i := i) h).recordRestart le_rfl (hnows.sublist accepted_sublist)
  rw [hdecided, after_intensity, decide_eq_false_iff_not, Nat.not_lt]

/-- An interval with `now` in it lies in the window that ends at `now`. -/
theorem between_le_recent {within : Duration} {start : Instant} {times : List Instant} (hnow : now ≤ start + within) :
    between within start times ≤ recent within now times := by
  refine List.countP_mono_left fun t _ ht => ?_
  rw [decide_eq_true_eq] at ht ⊢
  exact Nat.sub_le_iff_le_add'.mpr (le_trans hnow (Nat.add_le_add_right ht.1 within))

theorem between_admit {i : RestartIntensity} {start : Instant} {times : List Instant}
    (h : between i.within start times ≤ i.maxRestarts) : between i.within start (admitAt i times now) ≤ i.maxRestarts := by
  unfold admitAt
  split
  case isFalse => exact h
  case isTrue hroom =>
    by_cases hin : start ≤ now ∧ now ≤ start + i.within
    · have hle : between i.within start times ≤ recent i.within now times := between_le_recent hin.2
      have hone : between i.within start (times ++ [now]) = between i.within start times + 1 := by
        simp [between, hin]
      omega
    · have hsame : between i.within start (times ++ [now]) = between i.within start times := by
        simpa [between] using fun h₁ h₂ => hin ⟨h₁, h₂⟩
      omega

theorem between_foldl_admit {i : RestartIntensity} {start : Instant} :
    between i.within start (nows.foldl (admitAt i) []) ≤ i.maxRestarts := by
  induction nows using List.reverseRecOn with
  | nil => exact Nat.zero_le _
  | append_singleton nows now ih =>
    rw [List.foldl_append]
    exact between_admit ih

/-- The window that ends at `now` is an interval of its length, unless time has not run that long. -/
theorem recent_lt_between (within : Duration) {times : List Instant} (h : ∀ t ∈ times, t ≤ now) :
    recent within now times < between within (now - within) (times ++ [now]) := by
  have hle : recent within now times ≤ between within (now - within) times := by
    refine List.countP_mono_left fun t ht hrecent => ?_
    rw [decide_eq_true_eq] at hrecent ⊢
    have htnow := h t ht
    exact ⟨Nat.sub_le_iff_le_add.mpr (Nat.sub_le_iff_le_add'.mp hrecent), le_trans htnow (Nat.le_add_of_sub_le le_rfl)⟩
  have hself : now - within ≤ now ∧ now ≤ now - within + within := ⟨Nat.sub_le _ _, Nat.le_add_of_sub_le le_rfl⟩
  have hone : between within (now - within) (times ++ [now]) = between within (now - within) times + 1 := by
    simp [between, hself.2]
  omega

/-- **The restart window is exact.** For calls at times in order the next call is rejected exactly when the window that
ends with it holds `max_restarts` accepted times, and a rejected call is as if it had not been made; so no closed interval
of length `within` holds more accepted times, and a call is accepted whenever that would stay so. -/
theorem restart_window_exact (i : RestartIntensity) (nows : List Instant) (now : Instant)
    (h : (nows ++ [now]).Pairwise (· ≤ ·)) :
    ((((IntensityTracker.mk i []).after nows).recordRestart now).1 = false ↔
      i.maxRestarts ≤ recent i.within now ((IntensityTracker.mk i []).accepted nows)) ∧
    ((((IntensityTracker.mk i []).after nows).recordRestart now).1 = false →
      ∀ later, (nows ++ now :: later).Pairwise (· ≤ ·) →
        (IntensityTracker.mk i []).accepted (nows ++ now :: later) = (IntensityTracker.mk i []).accepted (nows ++ later)) ∧
    (∀ start, between i.within start ((IntensityTracker.mk i []).accepted (nows ++ [now])) ≤ i.maxRestarts) ∧
    ((∀ start, between i.within start ((IntensityTracker.mk i []).accepted nows ++ [now]) ≤ i.maxRestarts) →
      (((IntensityTracker.mk i []).after nows).recordRestart now).1 = true) := by
  have hnows : nows.Pairwise (· ≤ ·) := h.sublist (List.sublist_append_left _ _)
  have hrejected := rejected_iff (i := i) h
  refine ⟨hrejected, ?_, ?_, ?_⟩
  · intro hfalse later hlater
    have hskip : (nows ++ later).Pairwise (· ≤ ·) :=
      hlater.sublist ((List.Sublist.refl nows).append (List.sublist_cons_self now later))
    have hfull := hrejected.mp hfalse
    rw [accepted_eq_foldl hnows] at hfull
    rw [accepted_eq_foldl hlater, accepted_eq_foldl hskip, List.foldl_append, List.foldl_append, List.foldl_cons,
      admitAt, if_neg (Nat.not_lt.mpr hfull)]
  · intro start
    rw [accepted_eq_foldl h]
    exact between_foldl_admit
  · intro hroom
    by_contra hne
    have hfull := hrejected.mp (Bool.not_eq_true _ ▸ hne)
    have hbefore : ∀ t ∈ (IntensityTracker.mk i []).accepted nows, t ≤ now := fun t ht =>
      (List.pairwise_append.mp h).2.2 t (accepted_sublist.subset ht) now (by simp)
    have hlt := recent_lt_between i.within hbefore
    have hle := hroom (now - i.within)
    omega

/-- The third restart within five seconds is rejected where two are allowed, also when one falls on the bound. -/
theorem restart_window_exact_third :
    ((((IntensityTracker.mk ⟨2, 5⟩ []).after [0, 3]).recordRestart 5).1 = false ↔
      2 ≤ recent 5 5 ((IntensityTracker.mk ⟨2, 5⟩ []).accepted [0, 3])) ∧
    (((IntensityTracker.mk ⟨2, 5⟩ []).after [0, 3]).recordRestart 5).1 = false :=
  ⟨(restart_window_exact ⟨2, 5⟩ [0, 3] 5 (by decide)).1, by decide⟩

end IntensityTracker

/-! ## The delay -/

/-- The formula of `RestartBackoff::Exponential`: doubled with every attempt, and at most `max`. -/
def exponentialFormula (base max : Duration) (attempt : Nat) : Duration := min (base * 2 ^ (attempt - 1)) max

namespace SupervisorLogic

/-- The engine after `n` consecutive calls of `backoff_delay` for a child. -/
def backoffAfter (l : SupervisorLogic) (childId : String) (policy : RestartBackoff) : Nat → SupervisorLogic
  | 0 => l
  | n + 1 => ((l.backoffAfter childId policy n).backoffDelay childId policy).2

/-- What the call after them returns. -/
def backoffNth (l : SupervisorLogic) (childId : String) (policy : RestartBackoff) (n : Nat) : Duration :=
  ((l.backoffAfter childId policy n).backoffDelay childId policy).1

end SupervisorLogic

section Backoff

variable {base max attempt : Nat} {l : SupervisorLogic} {childId : String} {policy : RestartBackoff}

/-- The product saturates at the largest duration only, and `max` is none larger. -/
theorem delayForAttempt_exponential (hmax : max ≤ Duration.MAX) (attempt : Nat) :
    (RestartBackoff.exponential base max).delayForAttempt attempt = min (base * 2 ^ min (attempt - 1) 20) max := by
  show min (min (base * 2 ^ min (attempt - 1) 20) Duration.MAX) max = _
  rw [min_assoc, min_eq_right hmax]

/-- The delay never goes down. -/
theorem delayForAttempt_le (hmax : max ≤ Duration.MAX) {later : Nat} (h : attempt ≤ later) :
    (RestartBackoff.exponential base max).delayForAttempt attempt ≤
      (RestartBackoff.exponential base max).delayForAttempt later := by
  rw [delayForAttempt_exponential hmax, delayForAttempt_exponential hmax]
  have hshift : min (attempt - 1) 20 ≤ min (later - 1) 20 := by omega
  have hmul : base * 2 ^ min (attempt - 1) 20 ≤ base * 2 ^ min (later - 1) 20 :=
    Nat.mul_le_mul_left _ (Nat.pow_le_pow_right (by decide) hshift)
  exact min_le_min hmul le_rfl

/-- From attempt 21 on the delay does not change. -/
theorem delayForAttempt_late (hmax : max ≤ Duration.MAX) (h : 21 ≤ attempt) :
    (RestartBackoff.exponential base max).delayForAttempt attempt = min (base * 2 ^ 20) max := by
  rw [delayForAttempt_exponential hmax, min_eq_right (by omega : 20 ≤ attempt - 1)]

/-- From attempt 22 on the formula asks for at least twice what the delay stays at. -/
theorem two_mul_le_formula (base : Nat) (h : 22 ≤ attempt) : base * 2 ^ 20 * 2 ≤ base * 2 ^ (attempt - 1) := by
  have hpow : 2 ^ 21 ≤ 2 ^ (attempt - 1) := Nat.pow_le_pow_right (by decide) (by omega)
  calc base * 2 ^ 20 * 2 = base * 2 ^ 21 := by rw [Nat.mul_assoc]; rfl
    _ ≤ base * 2 ^ (attempt - 1) := Nat.mul_le_mul_left _ hpow

theorem delayForAttempt_eq_iff (hmax : max ≤ Duration.MAX) (attempt : Nat) :
    (RestartBackoff.exponential base max).delayForAttempt attempt = exponentialFormula base max attempt ↔
      attempt ≤ 21 ∨ base = 0 ∨ max ≤ base * 2 ^ 20 := by
  rw [delayForAttempt_exponential hmax, exponentialFormula]
  by_cases hearly : attempt ≤ 21
  · rw [min_eq_left (by omega : attempt - 1 ≤ 20)]
    simp [hearly]
  · have hdouble := two_mul_le_formula base (by omega : 22 ≤ attempt)
    rw [min_eq_right (by omega : 20 ≤ attempt - 1)]
    rcases Nat.le_total max (base * 2 ^ 20) with hcap | hcap
    · have hcap' : max ≤ base * 2 ^ (attempt - 1) := by omega
      rw [min_eq_right hcap, min_eq_right hcap']
      exact iff_of_true rfl (Or.inr (Or.inr hcap))
    · have hwanted : (min (base * 2 ^ (attempt - 1)) max : Nat) = base * 2 ^ 20 ↔
          attempt ≤ 21 ∨ base = 0 ∨ max ≤ base * 2 ^ 20 := by
        have hzero : base = 0 → base * 2 ^ (attempt - 1) = 0 := fun h => by rw [h, Nat.zero_mul]
        generalize base * 2 ^ (attempt - 1) = wanted at hdouble hzero ⊢
        omega
      rw [min_eq_left hcap]
      exact eq_comm.trans hwanted

/-- The counter of a child after consecutive calls, saturating like a `u32`. -/
theorem backoffAttempts_backoffAfter (hpolicy : policy ≠ .none) (n : Nat) :
    min (((l.backoffAfter childId policy n).backoffAttempts childId).getD 0 + 1) (2 ^ 32 - 1) =
      min ((l.backoffAttempts childId).getD 0 + n + 1) (2 ^ 32 - 1) := by
  induction n with
  | zero => rfl
  | succ n ih =>
    simp only [SupervisorLogic.backoffAfter, SupervisorLogic.backoffDelay, if_neg hpolicy, Table.insert_self,
      Option.getD_some]
    omega

theorem backoffNth_eq (hpolicy : policy ≠ .none) (n : Nat) :
    l.backoffNth childId policy n =
      policy.delayForAttempt (min ((l.backoffAttempts childId).getD 0 + n + 1) (2 ^ 32 - 1)) := by
  rw [← backoffAttempts_backoffAfter hpolicy, SupervisorLogic.backoffNth, SupervisorLogic.backoffDelay, if_neg hpolicy]

/-- The delays of consecutive calls end at `max` where the capped shift reaches it. -/
theorem backoffNth_reaches_iff (hmax : max ≤ Duration.MAX) :
    (∃ n, ∀ m ≥ n, l.backoffNth childId (.exponential base max) m = max) ↔ max ≤ base * 2 ^ 20 := by
  have hlate : ∀ m ≥ 20, l.backoffNth childId (.exponential base max) m = min (base * 2 ^ 20) max := by
    intro m hm
    rw [backoffNth_eq (by simp)]
    exact delayForAttempt_late hmax (by omega)
  constructor
  · rintro ⟨n, hn⟩
    have heq := hn (n + 20) (by omega)
    rw [hlate _ (by omega)] at heq
    exact min_eq_right_iff.mp heq
  · intro hle
    refine ⟨20, fun m hm => ?_⟩
    rw [hlate m hm, min_eq_right hle]

/-- **Exponential backoff follows its formula** exactly while the shift is not capped, or where the capped delay has
already reached `max`. The delays of consecutive calls for one child never go down and nothing overflows: the shift fits a
`u32` and the products saturate; they end at `max` exactly where `base * 2^20` is that large. -/
theorem exponential_backoff_iff (base max : Duration) (hmax : max ≤ Duration.MAX) :
    (∀ attempt, 1 ≤ attempt → attempt < 2 ^ 32 →
      ((RestartBackoff.exponential base max).delayForAttempt attempt = exponentialFormula base max attempt ↔
        attempt ≤ 21 ∨ base = 0 ∨ max ≤ base * 2 ^ 20)) ∧
    (∀ (l : SupervisorLogic) (childId : String),
      (∀ n m, n ≤ m → l.backoffNth childId (.exponential base max) n ≤ l.backoffNth childId (.exponential base max) m) ∧
      (0 < base → ((∃ n, ∀ m ≥ n, l.backoffNth childId (.exponential base max) m = max) ↔ max ≤ base * 2 ^ 20))) ∧
    ∀ attempt, min (attempt - 1) 20 < 32 ∧ 2 ^ min (attempt - 1) 20 < 2 ^ 32 ∧
      (RestartBackoff.exponential base max).delayForAttempt attempt ≤ Duration.MAX := by
  refine ⟨fun attempt _ _ => delayForAttempt_eq_iff hmax attempt, fun l childId => ⟨fun n m h => ?_, fun _ => ?_⟩,
    fun attempt => ?_⟩
  · rw [backoffNth_eq (by simp), backoffNth_eq (by simp)]
    exact delayForAttempt_le hmax (by omega)
  · exact backoffNth_reaches_iff hmax
  · have hshift : min (attempt - 1) 20 < 32 := by omega
    refine ⟨hshift, Nat.pow_lt_pow_right (by decide) hshift, ?_⟩
    rw [delayForAttempt_exponential hmax]
    exact le_trans (min_le_right _ _) hmax

/-- A delay doubled from 1 ms, at most a minute. -/
theorem exponential_backoff_iff_minute :
    (RestartBackoff.exponential 1000000 60000000000).delayForAttempt 30 =
      exponentialFormula 1000000 60000000000 30 :=
  ((exponential_backoff_iff 1000000 60000000000 (by decide)).1 30 (by decide) (by decide)).mpr (by decide)

/-- Doubled from 1 ms and at most an hour, the delay stays at about 17 minutes: at attempt 23 the formula gives an hour. -/
theorem exponential_backoff_stays_below_max :
    (RestartBackoff.exponential 1000000 3600000000000).delayForAttempt 23 = 1048576000000 ∧
      exponentialFormula 1000000 3600000000000 23 = 3600000000000 ∧
      ¬∃ n, ∀ m ≥ n, (SupervisorLogic.new .oneForOne {}).backoffNth "a" (.exponential 1000000 3600000000000) m =
        3600000000000 := by
  refine ⟨by decide, by decide, fun h => ?_⟩
  have hle := (backoffNth_reaches_iff (by decide)).mp h
  exact absurd hle (by decide)

end Backoff

end Spawned
