import Mathlib.Data.List.Perm.Subperm
import Mathlib.Data.List.Nodup

/-!
# Bounded rosters

A roster is a list kept of some known elements, with room for `capacity`: `IsRoster` says that
it lists no element twice and only known ones, and that it leaves none out while there is
room. Then it is complete whenever there are no more known elements than it has room for
(`IsRoster.mem_of_length_le`). The rules say how the known elements and the roster may change.
-/

namespace Roster

universe u

variable {α : Type u} {capacity : ℕ} {known known' listed : List α} {a : α}

/-- `listed` is a roster of `known`. -/
structure IsRoster (capacity : ℕ) (known listed : List α) : Prop where
  nodup : listed.Nodup
  subset : ∀ a ∈ listed, a ∈ known
  length_le : listed.length ≤ capacity
  covers : listed.length < capacity → ∀ a ∈ known, a ∈ listed

/-- A roster is complete when all that is known has room in it. -/
theorem IsRoster.mem_of_length_le (h : IsRoster capacity known listed)
    (hle : known.length ≤ capacity) (ha : a ∈ known) : a ∈ listed := by
  rcases Nat.lt_or_ge listed.length capacity with hlt | hge
  · exact h.covers hlt a ha
  · have hperm : listed.Perm known :=
      (h.nodup.subperm h.subset).perm_of_length_le (Nat.le_trans hle hge)
    exact hperm.symm.subset ha

/-- An initial segment is a roster. -/
theorem isRoster_take (hnodup : known.Nodup) : IsRoster capacity known (known.take capacity) where
  nodup := hnodup.sublist (List.take_sublist _ _)
  subset _ h := List.mem_of_mem_take h
  length_le := List.length_take_le _ _
  covers hlt a ha := by
    rw [List.length_take] at hlt
    rw [List.take_of_length_le (by omega)]
    exact ha

theorem IsRoster.congr (h : IsRoster capacity known listed) (hmem : ∀ b, b ∈ known' ↔ b ∈ known) :
    IsRoster capacity known' listed :=
  ⟨h.nodup, fun b hb => (hmem b).mpr (h.subset b hb), h.length_le,
    fun hlt b hb => h.covers hlt b ((hmem b).mp hb)⟩

/-- An element that is not listed yet is added where there is room. -/
theorem IsRoster.add (h : IsRoster capacity known listed) (hlt : listed.length < capacity)
    (hnew : a ∉ listed) (hmem : ∀ b, b ∈ known' ↔ b ∈ known ∨ b = a) :
    IsRoster capacity known' (listed ++ [a]) where
  nodup := by
    simp only [List.nodup_append, List.mem_singleton]
    refine ⟨h.nodup, List.nodup_singleton a, fun b hb c hc hbc => hnew ?_⟩
    rwa [← hc, ← hbc]
  subset b hb := by
    rw [hmem]
    rcases List.mem_append.mp hb with hb | hb
    · exact .inl (h.subset b hb)
    · exact .inr (List.mem_singleton.mp hb)
  length_le := by
    rw [List.length_append]
    exact hlt
  covers _ b hb := by
    rw [List.mem_append, List.mem_singleton]
    exact ((hmem b).mp hb).imp_left (h.covers hlt b)

/-- A full roster leaves out what becomes known. -/
theorem IsRoster.full (h : IsRoster capacity known listed) (hge : capacity ≤ listed.length)
    (hmem : ∀ b, b ∈ known' ↔ b ∈ known ∨ b = a) : IsRoster capacity known' listed :=
  ⟨h.nodup, fun b hb => (hmem b).mpr (.inl (h.subset b hb)), h.length_le,
    fun hlt => absurd hlt (Nat.not_lt_of_le hge)⟩

/-- What is not listed may be forgotten. -/
theorem IsRoster.forget (h : IsRoster capacity known listed) (ha : a ∉ listed)
    (hmem : ∀ b, b ∈ known' ↔ b ∈ known ∧ b ≠ a) : IsRoster capacity known' listed := by
  refine ⟨h.nodup, fun b hb => (hmem b).mpr ⟨h.subset b hb, ?_⟩, h.length_le,
    fun hlt b hb => h.covers hlt b ((hmem b).mp hb).1⟩
  rintro rfl
  exact ha hb

end Roster
