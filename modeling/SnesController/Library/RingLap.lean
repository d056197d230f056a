import SnesController.Library.RingBuffer

/-!
# Rings that take one entry too many

A ring of `n` slots whose test for fullness is off by one takes `n + 1` entries. The entry too many
lies in the slot of the oldest, so that slot is both the first and the last of the queue, and
writing it writes both. `lapPush`, `lapPop` and `lapHead` are what the operations of the ring then
do to the queue; up to `n` entries they are those of a queue.
-/

namespace RingBuffer

universe u

variable {α : Type u} {n : ℕ} {r : RingBuffer α} {P : α → Prop}

/-- Append an entry. When every slot is taken it takes the place of the oldest as well. -/
def lapPush (n : ℕ) (x : α) (q : List α) : List α :=
  if q.length = n then x :: q.tail ++ [x] else q ++ [x]

/-- Drop the oldest entry and leave `x` in its slot, which is that of the newest as well when one
entry too many is held. -/
def lapPop (n : ℕ) (x : α) (q : List α) : List α :=
  if q.length = n + 1 then q.tail.dropLast ++ [x] else q.tail

/-- Write the oldest entry, which is the newest as well when one entry too many is held. -/
def lapHead (n : ℕ) (x : α) (q : List α) : List α :=
  if q.length = n + 1 then x :: q.tail.dropLast ++ [x] else x :: q.tail

/-- The entries between the oldest and the end of the lap. -/
def middle (n : ℕ) (r : RingBuffer α) : List α :=
  (List.range (n - 1)).map fun i => r.slots ((r.rp + (i + 1)) % n)

/-- The slots of the middle are not the oldest entry's. -/
theorem middle_setHead (hr : r.rp < n) (x : α) : (r.setHead x).middle n = r.middle n := by
  apply List.map_congr_left
  intro i hi
  have hi' : i < n - 1 := List.mem_range.mp hi
  exact Function.update_of_ne (slot_succ_ne hr (by omega)) _ _

/-- With every slot taken, the next to be written is the oldest entry's. -/
theorem Aligned.wp_eq_rp (h : r.Aligned n) (hc : r.count = n) : r.wp = r.rp := by
  rw [h.wp_eq, hc, Nat.add_mod_right, Nat.mod_eq_of_lt h.rp_lt]

theorem queue_full (h : r.Aligned n) (hc : r.count = n) :
    r.queue n = r.slots r.rp :: r.middle n := by
  rw [queue_eq_cons ⟨h, Nat.le_of_eq hc⟩ (hc ▸ Nat.zero_lt_of_lt h.rp_lt), hc]
  rfl

/-- A lap from the slot after the oldest entry's ends in the oldest entry's. -/
theorem map_lap (h : r.rp < n) :
    ((List.range n).map fun i => r.slots ((r.rp + (i + 1)) % n)) =
      r.middle n ++ [r.slots r.rp] := by
  obtain ⟨m, rfl⟩ : ∃ m, n = m + 1 := ⟨n - 1, by omega⟩
  rw [List.range_succ, List.map_append, List.map_singleton, Nat.add_mod_right, Nat.mod_eq_of_lt h]
  rfl

/-- One entry too many: the queue ends as it begins. -/
theorem queue_over (h : r.Aligned n) (hc : r.count = n + 1) :
    r.queue n = r.slots r.rp :: r.middle n ++ [r.slots r.rp] := by
  unfold queue
  rw [hc, List.range_succ_eq_map, List.map_cons, List.map_map, Nat.add_zero,
    Nat.mod_eq_of_lt h.rp_lt, List.cons_append, ← map_lap h.rp_lt]
  rfl

/-! ### The operations -/

theorem queue_lapPush (h : r.Aligned n) (hc : r.count ≤ n) (x : α) :
    (r.push n x).queue n = lapPush n x (r.queue n) := by
  unfold lapPush
  rw [length_queue]
  split_ifs with hfull
  · have hover : (r.push n x).count = n + 1 := congrArg (· + 1) hfull
    have hslot : (r.push n x).slots (r.push n x).rp = x := by
      simp [push, h.wp_eq_rp hfull]
    have hmiddle : (r.push n x).middle n = r.middle n := by
      rw [← middle_setHead h.rp_lt x]
      simp only [middle, push, setHead, h.wp_eq_rp hfull]
    rw [queue_over (h.push x) hover, hslot, hmiddle, queue_full h hfull]
    rfl
  · exact queue_push ⟨h, hc⟩ (by omega) x

theorem queue_lapPop (h : r.Aligned n) (hc : 0 < r.count) (hle : r.count ≤ n + 1) (x : α) :
    (r.pop n x).queue n = lapPop n x (r.queue n) := by
  unfold lapPop
  rw [length_queue]
  split_ifs with hover
  · have hlap : _ = (r.setHead x).middle n ++ [(r.setHead x).slots r.rp] := map_lap h.rp_lt
    have hslot : (r.setHead x).slots r.rp = x := Function.update_self ..
    rw [middle_setHead h.rp_lt, hslot] at hlap
    rw [queue_over h hover, List.cons_append, List.tail_cons, List.dropLast_concat, ← hlap]
    unfold queue pop
    rw [hover, Nat.add_sub_cancel]
    apply List.map_congr_left
    intro i _
    exact congrArg (Function.update r.slots r.rp x) (next_add_mod h.rp_lt)
  · exact queue_pop ⟨h, by omega⟩ hc x

theorem queue_lapHead (h : r.Aligned n) (hc : 0 < r.count) (hle : r.count ≤ n + 1) (x : α) :
    (r.setHead x).queue n = lapHead n x (r.queue n) := by
  unfold lapHead
  rw [length_queue]
  split_ifs with hover
  · have hset : (r.setHead x).Aligned n := ⟨h.rp_lt, h.wp_lt, h.wp_eq⟩
    have hslot : (r.setHead x).slots (r.setHead x).rp = x := Function.update_self ..
    rw [queue_over hset hover, hslot, middle_setHead h.rp_lt, queue_over h hover]
    simp only [List.cons_append, List.tail_cons, List.dropLast_concat]
  · exact queue_setHead ⟨h, by omega⟩ hc x

/-- Popping keeps `P` of the entries even of an overfull ring, where what is left in the slot has
it. -/
theorem Live.pop_leaving (h : r.Live n P) (hc : 0 < r.count) {x : α} (hx : P x) :
    (r.pop n x).Live n P := by
  refine ⟨h.toAligned.pop hc x, ?_⟩
  intro i hi
  have hi' : i < r.count - 1 := hi
  show P (Function.update r.slots r.rp x ((next n r.rp + i) % n))
  rw [next_add_mod h.rp_lt]
  by_cases hrp : (r.rp + (i + 1)) % n = r.rp
  · rw [hrp, Function.update_self]
    exact hx
  · rw [Function.update_of_ne hrp]
    exact h.all (i + 1) (by omega)

end RingBuffer
