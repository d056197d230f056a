import Mathlib.Data.List.Basic
import Mathlib.Data.List.Induction
import Mathlib.Data.Nat.Init

/-!
# Repeating countdowns

A timer of period `n` that is restarted now and then. It expires at the ticks at which the ticks
since the last restart are a multiple of `n` (`expires_iff`), so how often it has expired is a
function of the restarts and the ticks alone, `expiries`; without a restart it is the ticks divided
by `n`.
-/

namespace Countdown

/-- What happens to a timer. -/
inductive Op where
  | restart
  | tick
  deriving DecidableEq, Repr

/-- The ticks since the last restart, one operation later. -/
def sinceNext (since : ℕ) : Op → ℕ
  | .restart => 0
  | .tick => since + 1

/-- The ticks since the last restart, or since the start. -/
def since (ops : List Op) : ℕ := ops.foldl sinceNext 0

/-- One more expiry, if the timer expires. -/
def expiriesNext (n since : ℕ) : Op → ℕ
  | .restart => 0
  | .tick => if n ∣ since + 1 then 1 else 0

/-- **How often a timer of period `n` has expired.** -/
def expiries (n : ℕ) (ops : List Op) : ℕ :=
  (ops.foldl (fun c op => (sinceNext c.1 op, c.2 + expiriesNext n c.1 op)) (0, 0)).2

/-- What is left of the period. -/
def left (n since : ℕ) : ℕ := n - since % n

variable {n : ℕ}

theorem since_concat (ops : List Op) (op : Op) :
    since (ops ++ [op]) = sinceNext (since ops) op := List.foldl_concat _ _ _ _

theorem expiries_concat (n : ℕ) (ops : List Op) (op : Op) :
    expiries n (ops ++ [op]) = expiries n ops + expiriesNext n (since ops) op := by
  have hsince : ∀ c : ℕ × ℕ, (ops.foldl (fun c op =>
      (sinceNext c.1 op, c.2 + expiriesNext n c.1 op)) c).1 = ops.foldl sinceNext c.1 := by
    intro c
    induction ops generalizing c with
    | nil => rfl
    | cons op ops ih => exact ih _
  unfold expiries
  rw [List.foldl_concat]
  dsimp only
  rw [hsince]
  rfl

@[simp] theorem left_zero (n : ℕ) : left n 0 = n := by simp [left]

/-- **When a timer expires**: at the last tick of its period. -/
theorem expires_iff (hn : 0 < n) (since : ℕ) : left n since = 1 ↔ n ∣ since + 1 := by
  obtain ⟨m, rfl⟩ : ∃ m, n = m + 1 := ⟨n - 1, by omega⟩
  have hlt := Nat.mod_lt since hn
  rw [Nat.dvd_iff_mod_eq_zero, Nat.succ_mod_succ_eq_zero_iff]
  unfold left
  omega

/-- What is left after a tick. -/
theorem left_succ (hn : 0 < n) (since : ℕ) :
    left n (since + 1) = if left n since = 1 then n else left n since - 1 := by
  have hlt := Nat.mod_lt since hn
  split_ifs with h
  · have hmod := Nat.mod_eq_zero_of_dvd ((expires_iff hn since).mp h)
    rw [left, hmod, Nat.sub_zero]
  · unfold left at h ⊢
    rw [← Nat.mod_add_mod, Nat.mod_eq_of_lt (by omega)]
    omega

theorem since_le_length (ops : List Op) : since ops ≤ ops.length := by
  induction ops using List.reverseRecOn with
  | nil => exact Nat.le_refl 0
  | append_singleton ops op ih =>
    rw [since_concat, List.length_append]
    cases op with
    | restart => exact Nat.zero_le _
    | tick => exact Nat.succ_le_succ ih

theorem since_replicate (k : ℕ) : since (List.replicate k .tick) = k := by
  induction k with
  | zero => rfl
  | succ k ih => rw [List.replicate_succ', since_concat, ih, sinceNext]

/-- A timer that is never restarted. -/
theorem expiries_replicate (n k : ℕ) : expiries n (List.replicate k .tick) = k / n := by
  induction k with
  | zero => exact (Nat.zero_div n).symm
  | succ k ih =>
    rw [List.replicate_succ', expiries_concat, ih, since_replicate, Nat.succ_div]
    rfl

/-- **A timer never expires just when it never runs for its whole period.** -/
theorem expiries_eq_zero_iff (hn : 0 < n) (ops : List Op) :
    expiries n ops = 0 ↔ ∀ p, p <+: ops → since p < n := by
  induction ops using List.reverseRecOn with
  | nil =>
    refine iff_of_true rfl ?_
    intro p hp
    rw [List.prefix_nil.mp hp]
    exact hn
  | append_singleton ops op ih =>
    have hlast : since ops < n →
        (expiriesNext n (since ops) op = 0 ↔ sinceNext (since ops) op < n) := by
      intro hlt
      cases op with
      | restart => exact iff_of_true rfl hn
      | tick =>
        show (if n ∣ since ops + 1 then 1 else 0) = 0 ↔ since ops + 1 < n
        by_cases h : n ∣ since ops + 1
        · have hle := Nat.le_of_dvd (Nat.succ_pos _) h
          rw [if_pos h]
          exact iff_of_false Nat.one_ne_zero (Nat.not_lt.mpr hle)
        · have hne : since ops + 1 ≠ n := fun heq => h (heq ▸ Nat.dvd_refl n)
          rw [if_neg h]
          exact iff_of_true rfl (by omega)
    rw [expiries_concat, Nat.add_eq_zero_iff, ih]
    constructor
    · rintro ⟨hbefore, hzero⟩ p hp
      rcases List.prefix_concat_iff.mp hp with rfl | hp
      · rw [since_concat]
        exact (hlast (hbefore ops List.prefix_rfl)).mp hzero
      · exact hbefore p hp
    · intro h
      have hbefore : ∀ p, p <+: ops → since p < n :=
        fun p hp => h p (hp.trans (List.prefix_append _ _))
      refine ⟨hbefore, (hlast (hbefore ops List.prefix_rfl)).mpr ?_⟩
      rw [← since_concat]
      exact h _ List.prefix_rfl

end Countdown
