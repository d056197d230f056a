import Mathlib.Data.List.Destutter

/-!
# Stuttering lists

A list with runs of equal neighbours collapsed is `List.destutter (· ≠ ·)`. These are
its laws for a list that grows at the end, as a log does: only whether the last entry
is repeated matters.
-/

namespace Stutter

universe u

variable {α : Type u} [DecidableEq α]

/-- Collapsing keeps the last entry. -/
theorem getLast?_destutter' (l : List α) :
    ∀ a, (l.destutter' (· ≠ ·) a).getLast? = (a :: l).getLast? := by
  induction l with
  | nil => intro a; rfl
  | cons b l ih =>
    intro a
    rw [List.getLast?_cons_cons]
    by_cases hab : a = b
    · subst hab
      rw [List.destutter'_cons_neg _ (not_not_intro rfl), ih]
    · rw [List.destutter'_cons_pos _ hab, ← ih b]
      obtain ⟨c, t, hct⟩ := List.exists_cons_of_ne_nil (List.destutter'_ne_nil l (· ≠ ·) (a := b))
      rw [hct, List.getLast?_cons_cons]

theorem getLast?_destutter (l : List α) : (l.destutter (· ≠ ·)).getLast? = l.getLast? := by
  cases l with
  | nil => rfl
  | cons a l => rw [List.destutter_cons', getLast?_destutter']

theorem destutter'_concat (x : α) (l : List α) :
    ∀ a, (l ++ [x]).destutter' (· ≠ ·) a =
      if (a :: l).getLast? = some x then l.destutter' (· ≠ ·) a
      else l.destutter' (· ≠ ·) a ++ [x] := by
  induction l with
  | nil =>
    intro a
    by_cases hax : a = x <;> simp [hax]
  | cons b l ih =>
    intro a
    rw [List.cons_append, List.getLast?_cons_cons]
    by_cases hab : a = b
    · subst hab
      rw [List.destutter'_cons_neg _ (not_not_intro rfl),
        List.destutter'_cons_neg _ (not_not_intro rfl), ih]
    · rw [List.destutter'_cons_pos _ hab, List.destutter'_cons_pos _ hab, ih]
      split_ifs <;> rfl

/-- A new entry shows after collapsing just when it differs from the last. -/
theorem destutter_concat (l : List α) (x : α) :
    (l ++ [x]).destutter (· ≠ ·) =
      if l.getLast? = some x then l.destutter (· ≠ ·) else l.destutter (· ≠ ·) ++ [x] := by
  cases l with
  | nil => rfl
  | cons a l => rw [List.cons_append, List.destutter_cons', destutter'_concat, List.destutter_cons']

/-- Repeating the last entry shows nothing. -/
theorem destutter_append_replicate_of_last {l : List α} {x : α} (h : l.getLast? = some x) (k : ℕ) :
    (l ++ List.replicate k x).destutter (· ≠ ·) = l.destutter (· ≠ ·) := by
  induction k generalizing l with
  | zero => simp
  | succ k ih =>
    rw [List.replicate_succ, ← List.singleton_append, ← List.append_assoc,
      ih (List.getLast?_concat ..), destutter_concat, if_pos h]

/-- Several copies of a new entry show as one. -/
theorem destutter_append_replicate_of_ne {l : List α} {x : α} (h : l.getLast? ≠ some x) (k : ℕ) :
    (l ++ List.replicate (k + 1) x).destutter (· ≠ ·) = l.destutter (· ≠ ·) ++ [x] := by
  rw [List.replicate_succ, ← List.singleton_append, ← List.append_assoc,
    destutter_append_replicate_of_last (List.getLast?_concat ..), destutter_concat, if_neg h]

/-! ### Logs that follow a list of values -/

/-- Collapsed, the log is the values `xs`, and it ends with `x`. -/
structure Shown (l xs : List α) (x : α) : Prop where
  last : l.getLast? = some x
  collapsed : l.destutter (· ≠ ·) = xs

/-- Collapsed, the log is the values `xs` but for the last, `x`, which is still to come. -/
structure Due (l xs : List α) (x : α) : Prop where
  last : l.getLast? ≠ some x
  collapsed : l.destutter (· ≠ ·) ++ [x] = xs

theorem Shown.repeat {l xs : List α} {x : α} (h : Shown l xs x) (k : ℕ) :
    Shown (l ++ List.replicate k x) xs x := by
  refine ⟨?_, by rw [destutter_append_replicate_of_last h.last, h.collapsed]⟩
  rw [List.getLast?_append, List.getLast?_replicate]
  split_ifs
  · exact h.last
  · rfl

theorem Due.show {l xs : List α} {x : α} (h : Due l xs x) (k : ℕ) :
    Shown (l ++ List.replicate (k + 1) x) xs x := by
  refine ⟨?_, by rw [destutter_append_replicate_of_ne h.last, h.collapsed]⟩
  rw [List.getLast?_append, List.getLast?_replicate, if_neg (Nat.succ_ne_zero k)]
  rfl

end Stutter
