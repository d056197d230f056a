import Mathlib.Data.List.Basic
import Mathlib.Data.Nat.ModEq
import Mathlib.Logic.Function.Basic

/-!
# Ring buffers and bounded queues

A ring of `n` slots with a read index, a write index and a count, and what it
means: the queue of the slots `rp, rp+1, …, rp+count–1 (mod n)`, oldest first. While
`RingBuffer.WF` holds, writing at the write index appends to the queue (`queue_push`),
advancing the read index drops the oldest entry (`queue_pop`) and writing at the read
index changes the oldest entry alone (`queue_setHead`).

The second part is the queue on its own: `FifoStep` is what a bounded queue may do
in one step, and `conserve` says that whatever it has done, it holds exactly the
entries pushed and not yet popped, in the order they were pushed, all of them as they
were pushed but for the oldest, which may have been advanced.
-/

universe u v

/-- A ring: its slots, where to read, where to write, and how many entries it holds. -/
structure RingBuffer (α : Type u) where
  /-- The slots; only those below the capacity are used. -/
  slots : ℕ → α
  /-- The read index. -/
  rp : ℕ
  /-- The write index. -/
  wp : ℕ
  /-- How many entries are held. -/
  count : ℕ

namespace RingBuffer

variable {α : Type u} {n : ℕ}

/-- The next index. -/
def next (n i : ℕ) : ℕ := if i + 1 = n then 0 else i + 1

/-- The two indices and the count agree. -/
structure Aligned (n : ℕ) (r : RingBuffer α) : Prop where
  rp_lt : r.rp < n
  wp_lt : r.wp < n
  wp_eq : r.wp = (r.rp + r.count) % n

/-- And the ring holds no more entries than it has slots. -/
structure WF (n : ℕ) (r : RingBuffer α) : Prop extends Aligned n r where
  count_le : r.count ≤ n

/-- The entries held, oldest first. -/
def queue (n : ℕ) (r : RingBuffer α) : List α :=
  (List.range r.count).map fun i => r.slots ((r.rp + i) % n)

/-- Write `x` at the write index. -/
def push (n : ℕ) (x : α) (r : RingBuffer α) : RingBuffer α :=
  { r with slots := Function.update r.slots r.wp x, wp := next n r.wp, count := r.count + 1 }

/-- Advance the read index, leaving `x` in the slot. -/
def pop (n : ℕ) (x : α) (r : RingBuffer α) : RingBuffer α :=
  { r with slots := Function.update r.slots r.rp x, rp := next n r.rp, count := r.count - 1 }

/-- Write `x` at the read index. -/
def setHead (x : α) (r : RingBuffer α) : RingBuffer α :=
  { r with slots := Function.update r.slots r.rp x }

theorem next_lt {i : ℕ} (h : i < n) : next n i < n := by
  unfold next
  split_ifs <;> omega

theorem next_eq_mod {i : ℕ} (h : i < n) : next n i = (i + 1) % n := by
  unfold next
  split_ifs with hi
  · rw [hi, Nat.mod_self]
  · rw [Nat.mod_eq_of_lt (by omega)]

/-- One more than an index, taken round the ring. -/
theorem next_add_mod {i j : ℕ} (h : i < n) : (next n i + j) % n = (i + (j + 1)) % n := by
  rw [next_eq_mod h, Nat.mod_add_mod, Nat.add_right_comm, Nat.add_assoc]

/-- Distinct offsets within the capacity are distinct slots. -/
theorem slot_ne {b i j : ℕ} (hi : i < n) (hj : j < n) (hij : i ≠ j) :
    (b + i) % n ≠ (b + j) % n := by
  intro h
  have hmod : i % n = j % n := Nat.ModEq.add_left_cancel' b h
  rw [Nat.mod_eq_of_lt hi, Nat.mod_eq_of_lt hj] at hmod
  exact hij hmod

/-- A slot past the first is not the first. -/
theorem slot_succ_ne {b i : ℕ} (hb : b < n) (hi : i + 1 < n) : (b + (i + 1)) % n ≠ b := by
  have hne := slot_ne (b := b) hi (by omega : 0 < n) (by omega)
  rwa [Nat.add_zero b, Nat.mod_eq_of_lt hb] at hne

variable {r : RingBuffer α}

@[simp] theorem length_queue : (r.queue n).length = r.count := by simp [queue]

theorem queue_eq_nil_iff : r.queue n = [] ↔ r.count = 0 := by
  rw [← List.length_eq_zero_iff, length_queue]

/-- A nonempty queue begins with the entry at the read index. -/
theorem queue_eq_cons (h : r.WF n) (hc : 0 < r.count) :
    r.queue n = r.slots r.rp ::
      (List.range (r.count - 1)).map fun i => r.slots ((r.rp + (i + 1)) % n) := by
  obtain ⟨c, hc'⟩ : ∃ c, r.count = c + 1 := ⟨r.count - 1, by omega⟩
  unfold queue
  rw [hc', List.range_succ_eq_map, List.map_cons, List.map_map, Nat.add_zero,
    Nat.mod_eq_of_lt h.rp_lt]
  rfl

theorem head_of_queue_eq_cons {x : α} {q : List α} (h : r.WF n) (hq : r.queue n = x :: q) :
    r.slots r.rp = x := by
  have hc : 0 < r.count := by rw [← length_queue (n := n), hq]; simp
  rw [queue_eq_cons h hc] at hq
  exact (List.cons.inj hq).1

/-! ### The operations keep the ring well formed -/

theorem Aligned.push (h : r.Aligned n) (x : α) : (r.push n x).Aligned n where
  rp_lt := h.rp_lt
  wp_lt := next_lt h.wp_lt
  wp_eq := by
    show next n r.wp = (r.rp + (r.count + 1)) % n
    rw [next_eq_mod h.wp_lt, h.wp_eq, Nat.mod_add_mod, Nat.add_assoc]

theorem Aligned.pop (h : r.Aligned n) (hc : 0 < r.count) (x : α) : (r.pop n x).Aligned n where
  rp_lt := next_lt h.rp_lt
  wp_lt := h.wp_lt
  wp_eq := by
    show r.wp = (next n r.rp + (r.count - 1)) % n
    rw [next_add_mod h.rp_lt, Nat.sub_add_cancel hc]
    exact h.wp_eq

theorem WF.push (h : r.WF n) (hc : r.count < n) (x : α) : (r.push n x).WF n :=
  ⟨h.toAligned.push x, hc⟩

theorem WF.pop (h : r.WF n) (hc : 0 < r.count) (x : α) : (r.pop n x).WF n :=
  ⟨h.toAligned.pop hc x, Nat.le_trans (Nat.sub_le _ _) h.count_le⟩

theorem WF.setHead (h : r.WF n) (x : α) : (r.setHead x).WF n :=
  ⟨⟨h.rp_lt, h.wp_lt, h.wp_eq⟩, h.count_le⟩

/-! ### What the operations do to the queue -/

/-- Writing at the write index appends, while a slot is free. -/
theorem queue_push (h : r.WF n) (hc : r.count < n) (x : α) :
    (r.push n x).queue n = r.queue n ++ [x] := by
  unfold queue push
  rw [List.range_succ, List.map_append]
  congr 1
  · refine List.map_congr_left fun i hi => Function.update_of_ne ?_ _ _
    have hi' := List.mem_range.mp hi
    rw [h.wp_eq]
    exact slot_ne (by omega) hc (by omega)
  · simp only [List.map_cons, List.map_nil]
    rw [← h.wp_eq, Function.update_self]

/-- Advancing the read index drops the oldest entry. -/
theorem queue_pop (h : r.WF n) (hc : 0 < r.count) (x : α) :
    (r.pop n x).queue n = (r.queue n).tail := by
  rw [queue_eq_cons h hc, List.tail_cons]
  apply List.map_congr_left
  intro i hi
  have hi' : i < r.count - 1 := List.mem_range.mp hi
  have hle := h.count_le
  show Function.update r.slots r.rp x ((next n r.rp + i) % n) = _
  rw [next_add_mod h.rp_lt]
  exact Function.update_of_ne (slot_succ_ne h.rp_lt (by omega)) _ _

/-- Writing at the read index changes the oldest entry alone. -/
theorem queue_setHead (h : r.WF n) (hc : 0 < r.count) (x : α) :
    (r.setHead x).queue n = x :: (r.queue n).tail := by
  rw [queue_eq_cons h hc, queue_eq_cons (h.setHead x) hc, List.tail_cons]
  simp only [setHead, Function.update_self, List.cons.injEq, true_and]
  apply List.map_congr_left
  intro i hi
  have hi' : i < r.count - 1 := List.mem_range.mp hi
  have hle := h.count_le
  exact Function.update_of_ne (slot_succ_ne h.rp_lt (by omega)) _ _

/-- Popping without touching the slot: for labels kept beside the entries. -/
theorem queue_pop_self (h : r.WF n) (hc : 0 < r.count) :
    queue n { r with rp := next n r.rp, count := r.count - 1 } = (r.queue n).tail := by
  rw [← queue_pop h hc (r.slots r.rp)]
  simp only [pop, Function.update_eq_self]

/-! ### Labels -/

section Labels

variable {ι : Type v}

/-- The ring with a label beside each slot. -/
def labelled (r : RingBuffer α) (label : ℕ → ι) : RingBuffer (ι × α) :=
  ⟨fun i => (label i, r.slots i), r.rp, r.wp, r.count⟩

theorem WF.labelled (h : r.WF n) (label : ℕ → ι) : (r.labelled label).WF n :=
  ⟨⟨h.rp_lt, h.wp_lt, h.wp_eq⟩, h.count_le⟩

/-- A label and a slot are written together. -/
theorem update_label (label : ℕ → ι) (slots : ℕ → α) (i : ℕ) (l : ι) (x : α) :
    (fun j => (Function.update label i l j, Function.update slots i x j)) =
      Function.update (fun j => (label j, slots j)) i (l, x) := by
  funext j
  by_cases hj : j = i
  · simp [hj]
  · simp [hj]

theorem labelled_push (r : RingBuffer α) (label : ℕ → ι) (l : ι) (x : α) :
    (r.push n x).labelled (Function.update label r.wp l) =
      (r.labelled label).push n (l, x) := by
  unfold labelled push
  rw [update_label]

/-- Where only the slot is written, the label stays. -/
theorem update_slot (label : ℕ → ι) (slots : ℕ → α) (i : ℕ) (x : α) :
    (fun j => (label j, Function.update slots i x j)) =
      Function.update (fun j => (label j, slots j)) i (label i, x) := by
  rw [← update_label, Function.update_eq_self]

theorem labelled_pop (r : RingBuffer α) (label : ℕ → ι) (x : α) :
    (r.pop n x).labelled label = (r.labelled label).pop n (label r.rp, x) := by
  unfold labelled pop
  rw [update_slot]

theorem labelled_setHead (r : RingBuffer α) (label : ℕ → ι) (x : α) :
    (r.setHead x).labelled label = (r.labelled label).setHead (label r.rp, x) := by
  unfold labelled setHead
  rw [update_slot]

end Labels

/-! ### What every entry held has -/

/-- Every entry held has `P`, even in a ring that holds more entries than it has slots. -/
structure Live (n : ℕ) (P : α → Prop) (r : RingBuffer α) : Prop extends Aligned n r where
  all : ∀ i < r.count, P (r.slots ((r.rp + i) % n))

variable {P : α → Prop}

theorem Live.head (h : r.Live n P) (hc : 0 < r.count) : P (r.slots r.rp) := by
  have h0 := h.all 0 hc
  rwa [Nat.add_zero, Nat.mod_eq_of_lt h.rp_lt] at h0

theorem Live.push (h : r.Live n P) {x : α} (hx : P x) : (r.push n x).Live n P := by
  refine ⟨h.toAligned.push x, ?_⟩
  intro i hi
  show P (Function.update r.slots r.wp x ((r.rp + i) % n))
  by_cases hwp : (r.rp + i) % n = r.wp
  · rw [hwp, Function.update_self]
    exact hx
  · rw [Function.update_of_ne hwp]
    refine h.all i (Nat.lt_of_le_of_ne (Nat.le_of_lt_succ hi) ?_)
    rintro rfl
    exact hwp h.wp_eq.symm

/-- Popping leaves `P` to the entries that stay, whatever is left in the slot, while the ring
is not overfull. -/
theorem Live.pop (h : r.Live n P) (hc : 0 < r.count) (hle : r.count ≤ n) (x : α) :
    (r.pop n x).Live n P := by
  refine ⟨h.toAligned.pop hc x, ?_⟩
  intro i hi
  have hi' : i < r.count - 1 := hi
  show P (Function.update r.slots r.rp x ((next n r.rp + i) % n))
  rw [next_add_mod h.rp_lt, Function.update_of_ne (slot_succ_ne h.rp_lt (by omega))]
  exact h.all (i + 1) (by omega)

/-- Popping without touching the slot, even of an overfull ring. -/
theorem Live.pop_self (h : r.Live n P) (hc : 0 < r.count) :
    Live n P { r with rp := next n r.rp, count := r.count - 1 } := by
  have halign := h.toAligned.pop hc (r.slots r.rp)
  refine ⟨⟨halign.rp_lt, halign.wp_lt, halign.wp_eq⟩, ?_⟩
  intro i hi
  have hi' : i < r.count - 1 := hi
  show P (r.slots ((next n r.rp + i) % n))
  rw [next_add_mod h.rp_lt]
  exact h.all (i + 1) (by omega)

theorem Live.setHead (h : r.Live n P) {x : α} (hx : P x) : (r.setHead x).Live n P := by
  refine ⟨⟨h.rp_lt, h.wp_lt, h.wp_eq⟩, ?_⟩
  intro i hi
  show P (Function.update r.slots r.rp x ((r.rp + i) % n))
  by_cases hrp : (r.rp + i) % n = r.rp
  · rw [hrp, Function.update_self]
    exact hx
  · rw [Function.update_of_ne hrp]
    exact h.all i hi

/-! ### The bounded queue -/

/-- What a bounded queue is asked to do, and what comes of it. -/
inductive FifoAct (α : Type u) where
  /-- An entry is appended. -/
  | push (x : α)
  /-- There is no room. -/
  | full
  /-- The oldest entry is taken. -/
  | pop
  /-- The oldest entry is advanced and kept. -/
  | advance
  /-- There is nothing to take. -/
  | empty

/-- The steps of a queue of capacity `n`; `adv` is how an entry may be advanced. -/
inductive FifoStep (n : ℕ) (adv : α → α → Prop) : List α → FifoAct α → List α → Prop where
  | push {q : List α} {x : α} : q.length < n → FifoStep n adv q (.push x) (q ++ [x])
  | full {q : List α} : q.length = n → FifoStep n adv q .full q
  | pop {q : List α} {x : α} : FifoStep n adv (x :: q) .pop q
  | advance {q : List α} {x y : α} : adv x y → FifoStep n adv (x :: q) .advance (y :: q)
  | empty : FifoStep n adv [] .empty []

/-- `q` is `p`, but for an advance of its oldest entry. -/
def Advanced (adv : α → α → Prop) : List α → List α → Prop
  | [], q => q = []
  | x :: p, q => ∃ y, adv x y ∧ q = y :: p

/-- What has been pushed, and how much of it popped. -/
structure FifoLog (α : Type u) where
  /-- The entries pushed, in order. -/
  pushed : List α
  /-- How many were popped. -/
  popped : ℕ

/-- The log after an act. -/
def FifoLog.record (l : FifoLog α) : FifoAct α → FifoLog α
  | .push x => { l with pushed := l.pushed ++ [x] }
  | .pop => { l with popped := l.popped + 1 }
  | .full | .advance | .empty => l

/-- The entries pushed and not popped. -/
def FifoLog.held (l : FifoLog α) : List α := l.pushed.drop l.popped

/-- **Nothing is lost, duplicated or reordered**: a step of the queue keeps it equal
to what was pushed and not popped, but for an advance of the oldest entry. -/
theorem conserve {adv : α → α → Prop} (hrefl : ∀ x, adv x x)
    (htrans : ∀ x y z, adv x y → adv y z → adv x z) {l : FifoLog α} {a : FifoAct α} {q q' : List α}
    (hle : l.popped ≤ l.pushed.length) (h : Advanced adv l.held q) (hs : FifoStep n adv q a q') :
    (l.record a).popped ≤ (l.record a).pushed.length ∧ Advanced adv (l.record a).held q' := by
  cases hs with
  | @push q x _ =>
    refine ⟨by simp only [FifoLog.record, List.length_append]; omega, ?_⟩
    have hheld : (l.record (.push x)).held = l.held ++ [x] := by
      simp only [FifoLog.held, FifoLog.record]
      exact List.drop_append_of_le_length hle
    rw [hheld]
    cases hl : l.held with
    | nil =>
      rw [hl] at h
      subst h
      exact ⟨x, hrefl x, rfl⟩
    | cons y p =>
      rw [hl] at h
      obtain ⟨y', hy, rfl⟩ := h
      exact ⟨y', hy, rfl⟩
  | full _ => exact ⟨hle, h⟩
  | @pop q' x =>
    cases hl : l.held with
    | nil => rw [hl] at h; exact absurd h (List.cons_ne_nil _ _)
    | cons y p =>
      rw [hl] at h
      obtain ⟨y', -, hq⟩ := h
      obtain ⟨-, rfl⟩ := List.cons.inj hq
      have hlt : l.popped < l.pushed.length := by
        by_contra hge
        rw [FifoLog.held, List.drop_eq_nil_of_le (by omega)] at hl
        cases hl
      have hheld : (l.record .pop).held = q' := by
        simp only [FifoLog.held, FifoLog.record] at hl ⊢
        rw [← List.tail_drop, hl, List.tail_cons]
      refine ⟨hlt, ?_⟩
      rw [hheld]
      cases q' with
      | nil => rfl
      | cons z q' => exact ⟨z, hrefl z, rfl⟩
  | @advance q x y hxy =>
    refine ⟨hle, ?_⟩
    cases hl : l.held with
    | nil => rw [hl] at h; exact absurd h (List.cons_ne_nil _ _)
    | cons z p =>
      rw [hl] at h
      obtain ⟨z', hz, hq⟩ := h
      obtain ⟨rfl, rfl⟩ := List.cons.inj hq
      rw [show (l.record .advance).held = z :: q from hl]
      exact ⟨y, htrans z x y hz hxy, rfl⟩
  | empty => exact ⟨hle, h⟩

end RingBuffer
