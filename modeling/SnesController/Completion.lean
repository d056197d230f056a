import SnesController.MemorySafety
import SnesController.Library.Ranking

/-!
# The main loop comes through

An interrupt may change what `buffer_dequeue` reads next, but not what it holds in its locals. How
many statements are left is bounded by the locals alone (`Statement.rank`), so in every run the main
loop comes to the end of its handler within 22 of its own statements, however many interrupts come
in between (`preempted_comesThrough`).
-/

namespace SnesController

open EventRun Interleaving

variable {sdk : Sdk}

/-- At most so many statements to the end of the handler: four for a pass that copies two bytes. -/
def Statement.rank : Statement → ℕ
  | .empty => 22
  | .element => 21
  | .arguments _ => 20
  | .copy f i _ => 8 + 4 * (2 - f.offset) + (3 - i)
  | .send f _ => 8 + 4 * (2 - f.offset)
  | .sent _ => 7
  | .clear => 6
  | .advance => 5
  | .load => 4
  | .store _ => 3
  | .keep _ _ => 2
  | .wrap => 2
  | .rest => 1

/-- None is left of an idle main loop. -/
def statementsLeft (m : Preempted sdk) : ℕ :=
  match m.frame with
  | none => 0
  | some f => f.next.rank

theorem idle_of_statementsLeft (m : Preempted sdk) (h : statementsLeft m = 0) :
    m.frame = none := by
  obtain ⟨s, frame⟩ := m
  cases frame with
  | none => rfl
  | some f =>
    obtain ⟨tx, u, next⟩ := f
    have hrank : next.rank = 0 := h
    cases next <;> simp [Statement.rank] at hrank

/-- The pass goes on with one offset less to go, or is over. -/
theorem rank_passed {f : SendFrame} (hf : f.Whole) (errCode : ErrCode) (data : List UInt8) :
    (f.passed errCode).rank < (Statement.send f data).rank := by
  have hoffset := hf.offset_le
  have hu : u16 (f.offset + 1) = f.offset + 1 := u16_of_lt (by omega)
  unfold SendFrame.passed
  rw [hu, hf.dataLen]
  split_ifs with herr hmore <;> simp only [Statement.rank] <;> omega

/-- **A statement of the main loop** leaves fewer to come. -/
theorem statementsLeft_statement {s : State sdk} {f : DequeueFrame} (h : LocalsFit f.next) :
    statementsLeft (statement s f) < f.next.rank := by
  obtain ⟨tx, u, next⟩ := f
  cases next with
  | empty =>
    simp only [statement, statementsLeft]
    split_ifs <;> decide
  | element =>
    simp only [statement, statementsLeft]
    split_ifs <;> simp only [Statement.rank] <;> decide
  | arguments p =>
    simp only [statement, statementsLeft, Statement.rank]
    omega
  | copy c i data =>
    obtain ⟨hwhole, hi, -⟩ := h
    have hl := hwhole.dataLen
    simp only [statement]
    split_ifs with hmore <;> simp only [statementsLeft, Statement.rank] <;> omega
  | send c data => exact rank_passed h.1 _ data
  | sent c =>
    simp only [statement]
    split_ifs <;> simp only [statementsLeft, Statement.rank] <;> decide
  | keep | clear | advance | load | store | wrap | rest => exact Nat.lt_succ_self _

/-- A slice, while the main loop is in a handler. -/
theorem wears_slice {m : Preempted sdk} (h : SafeInv m) (hbusy : m.frame ≠ none)
    (sl : Slice Input) :
    Wears (firmware sdk).slice statementsLeft (· == .thread) m sl := by
  obtain ⟨s, frame⟩ := m
  cases frame with
  | none => exact absurd rfl hbusy
  | some f =>
    cases sl with
    | thread => exact Nat.le_sub_one_of_lt (statementsLeft_statement h.locals)
    | event i =>
      have htaken := slice_taken ⟨s, some f⟩ i
      unfold Wears
      generalize (firmware sdk).slice ⟨s, some f⟩ (.event i) = m' at htaken ⊢
      cases htaken with
      | busy => exact Nat.le_refl _
      | interrupt => exact Nat.le_refl _
      | begun txFlag hidle => cases hidle
      | whole hidle => cases hidle

theorem statementsLeft_le {m : Preempted sdk} (h : SafeInv m) : statementsLeft m ≤ 22 := by
  obtain ⟨s, frame⟩ := m
  cases frame with
  | none => exact Nat.zero_le _
  | some f =>
    obtain ⟨tx, u, next⟩ := f
    show next.rank ≤ 22
    cases next <;> simp only [Statement.rank] <;> omega

/-- **The main loop always comes through**: after any run, however it goes on, by the time the main
loop has executed 22 more statements it has been at the end of its handler. -/
theorem preempted_comesThrough (link : sdk.Link) (pm : sdk.Pm) (uart : sdk.Uart)
    (slices : List (Slice Input)) {more : List (Slice Input)} (hmany : 22 ≤ more.count .thread) :
    ∃ p, p <+: more ∧
      (run (firmware sdk).slice (preemptedBoot link pm uart) (slices ++ p)).frame = none := by
  have hsafe := safeInv_run link pm uart slices
  have hreached := reaches (G := fun m : Preempted sdk => m.frame = none)
    (fun _ sl h => SafeInv.slice h sl) (fun _ sl h hbusy => wears_slice h hbusy sl)
    idle_of_statementsLeft hsafe ((statementsLeft_le hsafe).trans hmany)
  simp only [run_append]
  exact hreached

/-- Frames without end, while a change with copies left over is transmitted. -/
theorem preempted_comesThrough_frames :
    ∃ p, p <+: (List.replicate 22 [Slice.event (frame 0 2), .thread]).flatten ∧
      (run (firmware (device 1)).slice (preemptedBoot (deviceLink 1) (devicePm 1) (deviceUart 1))
        ([.event (frame 0 1), .event (txComplete 1)] ++ p)).frame = none :=
  preempted_comesThrough (deviceLink 1) (devicePm 1) (deviceUart 1)
    [.event (frame 0 1), .event (txComplete 1)] (by decide)

end SnesController
