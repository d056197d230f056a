import SnesController.Library.EventRun
import Mathlib.Data.List.Basic

/-!
# A thread and its interrupts

A machine that handles every event to completion, `handler : S → E → S`, is a simplification of what
a processor does. There the handlers of some events run in the thread, statement by statement, and
those of the others are interrupts: they run to completion between any two statements of the thread.

`Program` has both views. `dispatch` begins the handler of an event in the thread and `statement`
executes one statement of it. A run is a list of slices, each a statement of the thread or an event.

`sequential` connects the two views: if every handler of the thread that is left alone comes to what
`handler` says, then so does every run in which the events come while the thread is idle.
-/

namespace Interleaving

open EventRun

universe u v w

variable {S : Type u} {E : Type v} {F : Type w}

/-- The state, and the stack frame of the thread while it is in a handler. -/
structure Machine (S : Type u) (F : Type w) where
  state : S
  frame : Option F

/-- **A slice of a run.** -/
inductive Slice (E : Type v) where
  /-- The thread executes a statement. -/
  | thread
  /-- An event: it interrupts the thread, or the thread takes it up. -/
  | event (e : E)
  deriving DecidableEq

/-- The events of a run. -/
def events (slices : List (Slice E)) : List E :=
  slices.filterMap fun
    | .thread => none
    | .event e => some e

theorem events_concat_thread (slices : List (Slice E)) :
    events (slices ++ [.thread]) = events slices := by
  simp [events]

theorem events_concat_event (slices : List (Slice E)) (e : E) :
    events (slices ++ [.event e]) = events slices ++ [e] := by
  simp [events]

/-- **A program**, with both views of its handlers. -/
structure Program (S : Type u) (E : Type v) (F : Type w) where
  /-- The events whose handlers are interrupts. -/
  interrupts : E → Bool
  /-- The handler of an event, run to completion. -/
  handler : S → E → S
  /-- The thread takes up an event. -/
  dispatch : S → E → Machine S F
  /-- The thread executes a statement. -/
  statement : S → F → Machine S F

namespace Program

variable (P : Program S E F)

/-- **One slice.** An idle thread executes nothing, and a busy one takes up no event. -/
def slice (m : Machine S F) : Slice E → Machine S F
  | .thread =>
    match m.frame with
    | none => m
    | some f => P.statement m.state f
  | .event e =>
    if P.interrupts e then { m with state := P.handler m.state e }
    else
      match m.frame with
      | none => P.dispatch m.state e
      | some _ => m

/-- Left alone, the thread comes to the end of its handler in the state `s`. -/
def Finishes (m : Machine S F) (s : S) : Prop :=
  ∃ n, run P.slice m (List.replicate n .thread) = ⟨s, none⟩

/-- The events come while the thread is idle. -/
def Sequential (m : Machine S F) : Slice E → Prop
  | .thread => True
  | .event _ => m.frame = none

instance (m : Machine S F) : (sl : Slice E) → Decidable (Sequential m sl)
  | .thread => isTrue trivial
  | .event _ => inferInstanceAs (Decidable (m.frame = none))

variable {P} {m : Machine S F} {s s' : S} {f : F}

theorem slice_interrupt {e : E} (h : P.interrupts e = true) :
    P.slice m (.event e) = { m with state := P.handler m.state e } := if_pos h

theorem slice_dispatch {e : E} (h : P.interrupts e = false) :
    P.slice ⟨s, none⟩ (.event e) = P.dispatch s e :=
  if_neg (by rw [h]; exact Bool.false_ne_true)

theorem slice_busy {e : E} (h : P.interrupts e = false) :
    P.slice ⟨s, some f⟩ (.event e) = ⟨s, some f⟩ :=
  if_neg (by rw [h]; exact Bool.false_ne_true)

/-- An idle thread stays idle. -/
theorem run_idle (n : ℕ) : run P.slice ⟨s, none⟩ (List.replicate n .thread) = ⟨s, none⟩ := by
  induction n with
  | zero => rfl
  | succ n ih => rwa [List.replicate_succ, run_cons]

theorem finishes_idle : P.Finishes ⟨s, none⟩ s := ⟨0, rfl⟩

theorem Finishes.eq_of_idle (h : P.Finishes ⟨s, none⟩ s') : s' = s := by
  obtain ⟨n, hn⟩ := h
  rw [run_idle] at hn
  exact (congrArg Machine.state hn).symm

/-- A statement in front. -/
theorem Finishes.statement (h : P.Finishes (P.statement s f) s') :
    P.Finishes ⟨s, some f⟩ s' := by
  obtain ⟨n, hn⟩ := h
  exact ⟨n + 1, by rwa [List.replicate_succ, run_cons]⟩

/-- What the thread comes to does not change as it goes on. -/
theorem Finishes.thread (h : P.Finishes m s) : P.Finishes (P.slice m .thread) s := by
  obtain ⟨n, hn⟩ := h
  cases n with
  | zero =>
    rw [List.replicate_zero, run_nil] at hn
    subst hn
    exact finishes_idle
  | succ n => exact ⟨n, hn⟩

/-- **Run to completion.** If the thread, left alone, comes to what the handler says from every
state where an invariant of the handlers holds, then a run whose events come while the thread is
idle comes to what the handlers say, one after the other. -/
theorem sequential {I : S → Prop} (hI : ∀ s e, I s → I (P.handler s e))
    (hdispatch : ∀ s e, I s → P.interrupts e = false → P.Finishes (P.dispatch s e) (P.handler s e))
    (hm : P.Finishes m s) (hs : I s) {slices : List (Slice E)}
    (h : Along P.slice Sequential m slices) :
    P.Finishes (run P.slice m slices) (run P.handler s (events slices)) := by
  induction slices generalizing m s with
  | nil => exact hm
  | cons sl slices ih =>
    obtain ⟨hsl, hrest⟩ := h
    cases sl with
    | thread => exact ih hm.thread hs hrest
    | event e =>
      obtain ⟨t, frame⟩ := m
      obtain rfl : frame = none := hsl
      obtain rfl := hm.eq_of_idle
      have hnext : P.Finishes (P.slice ⟨s, none⟩ (.event e)) (P.handler s e) := by
        cases he : P.interrupts e with
        | true =>
          rw [slice_interrupt he]
          exact finishes_idle
        | false =>
          rw [slice_dispatch he]
          exact hdispatch s e hs he
      exact ih hnext (hI s e hs) hrest

end Program

end Interleaving
