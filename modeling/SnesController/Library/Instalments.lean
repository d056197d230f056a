import Mathlib.Algebra.BigOperators.Group.List.Basic
import Mathlib.Algebra.Ring.Nat
import Mathlib.Logic.Function.Basic

/-!
# Debts paid in instalments

Debts wait in a queue. A debt is opened with a first payment, and if that does not cover it the
rest waits as an item at the end of the queue; later payments go to the oldest item, which stays
with less owed or is paid off. `amount` is what an item still owes.

`Balanced` says of one debt that it is waiting at most once, and that what was paid for it and
what it still owes make up its total. Opening establishes it (`balanced_of_opens`), and every
payment and every other opening keeps it (`Balanced.pays`, `Balanced.opens`), however the
payments are split.
-/

namespace Instalments

universe u v

variable {ι : Type u} {β : Type v} [DecidableEq ι]

/-- What was paid for each debt, and the items that wait, oldest first. -/
structure Books (ι : Type u) (β : Type v) where
  paid : ι → ℕ
  waiting : List (ι × β)

/-- The items waiting for a debt. -/
def itemsOf (i : ι) (w : List (ι × β)) : List β := (w.filter (·.1 = i)).map Prod.snd

@[simp] theorem itemsOf_nil (i : ι) : itemsOf i ([] : List (ι × β)) = [] := rfl

@[simp] theorem itemsOf_cons_self (i : ι) (x : β) (w : List (ι × β)) :
    itemsOf i ((i, x) :: w) = x :: itemsOf i w := by
  simp [itemsOf]

theorem itemsOf_cons_of_ne {i j : ι} (h : j ≠ i) (x : β) (w : List (ι × β)) :
    itemsOf i ((j, x) :: w) = itemsOf i w := by
  simp [itemsOf, h]

@[simp] theorem itemsOf_append (i : ι) (w w' : List (ι × β)) :
    itemsOf i (w ++ w') = itemsOf i w ++ itemsOf i w' := by
  simp [itemsOf]

theorem itemsOf_eq_nil {i : ι} {w : List (ι × β)} (h : ∀ d ∈ w, d.1 ≠ i) : itemsOf i w = [] := by
  simpa [itemsOf] using h

variable (amount : β → ℕ)

/-- **A payment** to the oldest item. -/
inductive Pays : Books ι β → Books ι β → Prop where
  /-- It is paid off. -/
  | off {b : Books ι β} {i : ι} {x : β} {w : List (ι × β)} : b.waiting = (i, x) :: w →
      Pays b ⟨Function.update b.paid i (b.paid i + amount x), w⟩
  /-- It is paid in part, and waits as `y`. -/
  | part {b : Books ι β} {i : ι} {x : β} {w : List (ι × β)} (y : β) (j : ℕ) :
      b.waiting = (i, x) :: w → amount y + j = amount x →
      Pays b ⟨Function.update b.paid i (b.paid i + j), (i, y) :: w⟩

/-- **A debt is opened**, of which nothing was paid. -/
inductive Opens (i : ι) (total : ℕ) : Books ι β → Books ι β → Prop where
  /-- It is paid at once. -/
  | off {b : Books ι β} : Opens i total b ⟨Function.update b.paid i total, b.waiting⟩
  /-- The rest waits as `y`. -/
  | part {b : Books ι β} (y : β) (j : ℕ) : amount y + j = total →
      Opens i total b ⟨Function.update b.paid i j, b.waiting ++ [(i, y)]⟩

/-- **A debt is accounted for**: it waits at most once, and what was paid and what is owed are
its total. -/
structure Balanced (b : Books ι β) (i : ι) (total : ℕ) : Prop where
  once : (itemsOf i b.waiting).length ≤ 1
  conserved : b.paid i + ((itemsOf i b.waiting).map amount).sum = total

variable {amount} {b b' : Books ι β} {i j : ι} {total total' : ℕ}

/-- A payment keeps every debt accounted for, whichever it goes to. -/
theorem Balanced.pays (h : Balanced amount b i total) (hp : Pays amount b b') :
    Balanced amount b' i total := by
  obtain ⟨honce, hconserved⟩ := h
  cases hp with
  | @off k x w hw =>
    rw [hw] at honce hconserved
    by_cases hk : k = i
    · subst hk
      simp only [itemsOf_cons_self, List.length_cons, List.map_cons, List.sum_cons]
        at honce hconserved
      refine ⟨by dsimp only; omega, ?_⟩
      simp only [Function.update_self]
      omega
    · rw [itemsOf_cons_of_ne hk] at honce hconserved
      refine ⟨honce, ?_⟩
      simpa only [Function.update_of_ne (Ne.symm hk)] using hconserved
  | @part k x w y m hw hy =>
    rw [hw] at honce hconserved
    by_cases hk : k = i
    · subst hk
      simp only [itemsOf_cons_self, List.length_cons, List.map_cons, List.sum_cons]
        at honce hconserved
      refine ⟨by simpa using honce, ?_⟩
      simp only [Function.update_self, itemsOf_cons_self, List.map_cons, List.sum_cons]
      omega
    · rw [itemsOf_cons_of_ne hk] at honce hconserved
      constructor
      · simpa only [itemsOf_cons_of_ne hk] using honce
      · simpa only [itemsOf_cons_of_ne hk, Function.update_of_ne (Ne.symm hk)] using hconserved

/-- So does the opening of another. -/
theorem Balanced.opens (h : Balanced amount b i total) (hne : j ≠ i)
    (ho : Opens amount j total' b b') : Balanced amount b' i total := by
  obtain ⟨honce, hconserved⟩ := h
  cases ho with
  | off =>
    refine ⟨honce, ?_⟩
    simpa only [Function.update_of_ne (Ne.symm hne)] using hconserved
  | part y m hy =>
    have hitems : itemsOf i (b.waiting ++ [(j, y)]) = itemsOf i b.waiting := by
      rw [itemsOf_append, itemsOf_cons_of_ne hne, itemsOf_nil, List.append_nil]
    constructor
    · simpa only [hitems] using honce
    · simpa only [hitems, Function.update_of_ne (Ne.symm hne)] using hconserved

/-- A debt that did not wait before is accounted for once it is opened. -/
theorem balanced_of_opens (hfresh : ∀ d ∈ b.waiting, d.1 ≠ i)
    (ho : Opens amount i total b b') : Balanced amount b' i total := by
  have hnone := itemsOf_eq_nil hfresh
  cases ho with
  | off =>
    constructor
    · simp [hnone]
    · simp [hnone]
  | part y m hy =>
    have hitems : itemsOf i (b.waiting ++ [(i, y)]) = [y] := by
      rw [itemsOf_append, hnone, itemsOf_cons_self, itemsOf_nil, List.nil_append]
    constructor
    · simp [hitems]
    · simp only [hitems, Function.update_self, List.map_cons, List.map_nil, List.sum_cons,
        List.sum_nil]
      omega

/-- Who waits after a payment waited before. -/
theorem Pays.owner_mem (h : Pays amount b b') {d : ι × β} (hd : d ∈ b'.waiting) :
    ∃ d' ∈ b.waiting, d'.1 = d.1 := by
  cases h with
  | off hw => exact ⟨d, by rw [hw]; exact List.mem_cons_of_mem _ hd, rfl⟩
  | @part k x w y m hw hy =>
    rw [hw]
    rcases List.mem_cons.mp hd with rfl | hd
    · exact ⟨(k, x), List.mem_cons_self, rfl⟩
    · exact ⟨d, List.mem_cons_of_mem _ hd, rfl⟩

/-- Who waits after an opening waited before, or was opened. -/
theorem Opens.owner_mem (h : Opens amount i total b b') {d : ι × β} (hd : d ∈ b'.waiting) :
    d ∈ b.waiting ∨ d.1 = i := by
  cases h with
  | off => exact .inl hd
  | part y m hy =>
    rcases List.mem_append.mp hd with hd | hd
    · exact .inl hd
    · rw [List.mem_singleton.mp hd]
      exact .inr rfl

end Instalments
