import Mathlib.Data.ENat.Lattice
import Mathlib.Data.List.Iterate

/-!
# Enumerations with an end mark

A collection is often given by a function from each element to the next, with an element
`stop` that stands before the first and after the last. `enumerate next stop n a` collects
from `a` on until `stop` or until `n` are collected, so it ends also where `next` never
reaches `stop`. `Lists next stop a as` says that what comes after `a` is `as`, and no more:
then every bound collects an initial segment of `as` (`Lists.enumerate_eq`).

`total` is how many elements there are before `stop`, perhaps infinitely many. Whatever
`next` is, `enumerate` collects the elements in order, as many as there are up to the bound
(`enumerate_eq_iterate`, `length_enumerate`).

`succIn` is the function that enumerates a list without repetitions.
-/

namespace Enumeration

universe u

variable {α : Type u} {next : α → α} {stop : α}

/-- After `a` come the elements of `as` in order, and then `stop`. -/
def Lists (next : α → α) (stop : α) : α → List α → Prop
  | a, [] => next a = stop
  | a, b :: bs => next a = b ∧ b ≠ stop ∧ Lists next stop b bs

variable [DecidableEq α]

/-- The first `n` elements from `a` on, up to `stop`. -/
def enumerate (next : α → α) (stop : α) : ℕ → α → List α
  | 0, _ => []
  | n + 1, a => if a ≠ stop then a :: enumerate next stop n (next a) else []

theorem length_enumerate_le (next : α → α) (stop : α) (n : ℕ) (a : α) :
    (enumerate next stop n a).length ≤ n := by
  induction n generalizing a with
  | zero => exact Nat.le_refl 0
  | succ n ih =>
    unfold enumerate
    split_ifs
    · exact Nat.succ_le_succ (ih _)
    · exact Nat.zero_le _

/-- How many elements are reached from `a` on before `stop`. -/
noncomputable def total (next : α → α) (stop a : α) : ℕ∞ :=
  ⨅ (n : ℕ) (_ : next^[n] a = stop), (n : ℕ∞)

omit [DecidableEq α] in
theorem natCast_le_total {n : ℕ} {a : α} :
    (n : ℕ∞) ≤ total next stop a ↔ ∀ i < n, next^[i] a ≠ stop := by
  simp only [total, le_iInf_iff, Nat.cast_le]
  constructor
  · intro h i hi hstop
    exact absurd (h i hstop) (by omega)
  · intro h i hstop
    by_contra hlt
    exact h i (by omega) hstop

theorem le_length_enumerate {n k : ℕ} {a : α} :
    k ≤ (enumerate next stop n a).length ↔ k ≤ n ∧ ∀ i < k, next^[i] a ≠ stop := by
  induction n generalizing k a with
  | zero =>
    simp only [enumerate, List.length_nil, Nat.le_zero]
    constructor
    · rintro rfl
      exact ⟨rfl, by simp⟩
    · exact And.left
  | succ n ih =>
    cases k with
    | zero => simp
    | succ k =>
      rw [Nat.forall_lt_succ_left]
      by_cases h : a = stop
      · simp [enumerate, h]
      · simp [enumerate, h, ih]

/-- As many are collected as there are, up to the bound. -/
theorem length_enumerate (n : ℕ) (a : α) :
    ((enumerate next stop n a).length : ℕ∞) = min (n : ℕ∞) (total next stop a) := by
  obtain ⟨hle, hne⟩ := le_length_enumerate.mp (Nat.le_refl (enumerate next stop n a).length)
  refine le_antisymm (le_min (Nat.cast_le.mpr hle) (natCast_le_total.mpr hne)) ?_
  rcases Nat.eq_or_lt_of_le hle with heq | hlt
  · rw [heq]
    exact min_le_left _ _
  · -- one more would be collected, were the next one not `stop`
    have hstop : next^[(enumerate next stop n a).length] a = stop := by
      by_contra hcons
      have hmore := le_length_enumerate.mpr
        ⟨hlt, Nat.forall_lt_succ_right.mpr ⟨hne, hcons⟩⟩
      omega
    exact (min_le_right _ _).trans (iInf₂_le_of_le _ hstop le_rfl)

/-- The elements are collected in order. -/
theorem enumerate_eq_iterate (n : ℕ) (a : α) :
    enumerate next stop n a = List.iterate next a (enumerate next stop n a).length := by
  induction n generalizing a with
  | zero => rfl
  | succ n ih =>
    unfold enumerate
    split_ifs
    · rw [List.length_cons, List.iterate, ← ih]
    · rfl

/-- A bounded collection is an initial segment of what is enumerated. -/
theorem Lists.enumerate_eq {a : α} {as : List α} (h : Lists next stop a as) (n : ℕ) :
    enumerate next stop n (next a) = as.take n := by
  induction n generalizing a as with
  | zero => rfl
  | succ n ih =>
    cases as with
    | nil => simp [enumerate, show next a = stop from h]
    | cons b bs =>
      obtain ⟨hb, hne, hbs⟩ := h
      simp [enumerate, hb, hne, ih hbs]

/-- The element after `a` in `as`, the first when `a` is `stop`, and `stop` after the last. -/
def succIn (as : List α) (stop a : α) : α :=
  if a = stop then as.headD stop else (as.drop (as.idxOf a + 1)).headD stop

/-- After an element comes what stands after it in the list. -/
theorem succIn_mid {pre rest : List α} {a : α} (ha : a ≠ stop) (hpre : a ∉ pre) :
    succIn (pre ++ a :: rest) stop a = rest.headD stop := by
  simp [succIn, ha, List.idxOf_append_of_notMem hpre]

theorem lists_succIn_of_mem {pre rest : List α} {a : α} (hnodup : (pre ++ a :: rest).Nodup)
    (hstop : stop ∉ pre ++ a :: rest) :
    Lists (succIn (pre ++ a :: rest) stop) stop a rest := by
  have ha : a ≠ stop := by
    rintro rfl
    exact hstop (by simp)
  have hpre : a ∉ pre := fun hmem => (List.nodup_append.mp hnodup).2.2 a hmem a (by simp) rfl
  induction rest generalizing pre a with
  | nil => exact succIn_mid ha hpre
  | cons b bs ih =>
    have hb : b ≠ stop := by
      rintro rfl
      exact hstop (by simp)
    have hsplit : pre ++ a :: b :: bs = pre ++ [a] ++ b :: bs := by simp
    refine ⟨succIn_mid ha hpre, hb, ?_⟩
    rw [hsplit] at hnodup hstop ⊢
    exact ih hnodup hstop hb
      fun hmem => (List.nodup_append.mp hnodup).2.2 b hmem b (by simp) rfl

/-- **A list without repetitions is enumerated by `succIn`.** -/
theorem lists_succIn {as : List α} (hnodup : as.Nodup) (hstop : stop ∉ as) :
    Lists (succIn as stop) stop stop as := by
  cases as with
  | nil => simp [Lists, succIn]
  | cons b bs =>
    exact ⟨by simp [succIn], fun hb => hstop (by simp [hb]),
      (lists_succIn_of_mem hnodup hstop : Lists (succIn ([] ++ b :: bs) stop) stop b bs)⟩

end Enumeration
