import Mathlib.Data.List.Basic
import Mathlib.Data.List.Infix

/-!
# Runs of event-driven machines

A machine here is a step function `S → E → S`: it is handed one input at a time
and runs its handler to completion before the next. A run is the list of inputs
it was handed.

`Along K s es` says that every step of the run of `es` from `s` meets `K`, a
predicate on the state before the step and the input. It is used three ways: for
what a run is assumed to be (`A`), for the condition under which the machine does
what it should (`K`), and for what it should do (`T`). `Along.run_inv` is the
induction rule for invariants. `along_iff_of_inv` is the rule for *exact*
conditions: when an invariant that `K` keeps makes `T` and `K` say the same of
every single step, they say the same of every run.

`observed` runs a machine together with a history that is computed by watching it.
-/

namespace EventRun

universe u v w

variable {S : Type u} {E : Type v} {H : Type w}

/-- The state after the inputs `es`. -/
def run (step : S → E → S) (s : S) (es : List E) : S := es.foldl step s

@[simp] theorem run_nil (step : S → E → S) (s : S) : run step s [] = s := rfl

@[simp] theorem run_cons (step : S → E → S) (s : S) (e : E) (es : List E) :
    run step s (e :: es) = run step (step s e) es := rfl

theorem run_append (step : S → E → S) (s : S) (es fs : List E) :
    run step s (es ++ fs) = run step (run step s es) fs := List.foldl_append

theorem run_concat (step : S → E → S) (s : S) (es : List E) (e : E) :
    run step s (es ++ [e]) = step (run step s es) e := run_append step s es [e]

/-- What commutes with the steps commutes with the runs. -/
theorem run_map {T : Type w} {step : S → E → S} {step' : T → E → T} {f : S → T}
    (h : ∀ s e, f (step s e) = step' (f s) e) (s : S) (es : List E) :
    f (run step s es) = run step' (f s) es := by
  induction es generalizing s with
  | nil => rfl
  | cons e es ih => rw [run_cons, run_cons, ih, h]

/-- Every step of the run of `es` from `s` meets `K`. -/
def Along (step : S → E → S) (K : S → E → Prop) : S → List E → Prop
  | _, [] => True
  | s, e :: es => K s e ∧ Along step K (step s e) es

instance decidableAlong (step : S → E → S) (K : S → E → Prop) [∀ s e, Decidable (K s e)] :
    ∀ (s : S) (es : List E), Decidable (Along step K s es)
  | _, [] => isTrue trivial
  | s, e :: es =>
    have := decidableAlong step K (step s e) es
    inferInstanceAs (Decidable (K s e ∧ Along step K (step s e) es))

variable {step : S → E → S} {A K T : S → E → Prop} {I : S → Prop}

theorem along_append {s : S} {es fs : List E} :
    Along step K s (es ++ fs) ↔ Along step K s es ∧ Along step K (run step s es) fs := by
  induction es generalizing s with
  | nil => simp [Along]
  | cons e es ih => simp only [List.cons_append, Along, run_cons, ih, and_assoc]

theorem along_concat {s : S} {es : List E} {e : E} :
    Along step K s (es ++ [e]) ↔ Along step K s es ∧ K (run step s es) e := by
  simp [along_append, Along]

/-- The steps of a run, each after the prefix that leads to it. -/
theorem along_iff_steps {s : S} {es : List E} :
    Along step K s es ↔ ∀ p e, p ++ [e] <+: es → K (run step s p) e := by
  constructor
  · rintro h p e ⟨fs, rfl⟩
    exact (along_concat.mp (along_append.mp h).1).2
  · intro h
    induction es using List.reverseRecOn with
    | nil => trivial
    | append_singleton es e ih =>
      exact along_concat.mpr ⟨ih fun p e' hp => h p e' (hp.trans (List.prefix_append es [e])),
        h es e List.prefix_rfl⟩

theorem along_true (s : S) (es : List E) : Along step (fun _ _ => True) s es := by
  induction es generalizing s with
  | nil => trivial
  | cons e es ih => exact ⟨trivial, ih _⟩

/-- What is asked of the inputs alone. -/
theorem along_inputs {Q : E → Prop} {s : S} {es : List E} :
    Along step (fun _ e => Q e) s es ↔ ∀ e ∈ es, Q e := by
  induction es generalizing s with
  | nil => simp [Along]
  | cons e es ih => simp only [Along, ih, List.forall_mem_cons]

theorem along_and {s : S} {es : List E} :
    Along step (fun s e => A s e ∧ K s e) s es ↔ Along step A s es ∧ Along step K s es := by
  induction es generalizing s with
  | nil => exact (and_self_iff).symm
  | cons e es ih =>
    simp only [Along, ih]
    exact and_and_and_comm

/-- **The induction rule**: what holds at the start and is kept by every step of
the kind the run is made of holds at its end. -/
theorem Along.run_inv (hI : ∀ s e, I s → A s e → I (step s e)) {s : S} {es : List E}
    (hA : Along step A s es) (hs : I s) : I (run step s es) := by
  induction es generalizing s with
  | nil => exact hs
  | cons e es ih => exact ih hA.2 (hI s e hs hA.1)

/-- What every step of the kind does, from a state where the invariant holds, it
does all along the run. -/
theorem Along.of_inv (hI : ∀ s e, I s → A s e → I (step s e)) (hT : ∀ s e, I s → A s e → T s e)
    {s : S} {es : List E} (hA : Along step A s es) (hs : I s) : Along step T s es := by
  induction es generalizing s with
  | nil => trivial
  | cons e es ih => exact ⟨hT s e hs hA.1, ih hA.2 (hI s e hs hA.1)⟩

/-- **The exact condition**: if `K` keeps the invariant, and where the invariant
holds a step does `T` just when it meets `K`, then a run does `T` all along just
when it meets `K` all along. -/
theorem along_iff_of_inv (hI : ∀ s e, I s → A s e → K s e → I (step s e))
    (hTK : ∀ s e, I s → A s e → (T s e ↔ K s e)) {s : S} {es : List E}
    (hA : Along step A s es) (hs : I s) : Along step T s es ↔ Along step K s es := by
  induction es generalizing s with
  | nil => exact Iff.rfl
  | cons e es ih =>
    have hhead := hTK s e hs hA.1
    constructor
    · rintro ⟨hT, hrest⟩
      have hK := hhead.mp hT
      exact ⟨hK, (ih hA.2 (hI s e hs hA.1 hK)).mp hrest⟩
    · rintro ⟨hK, hrest⟩
      exact ⟨hhead.mpr hK, (ih hA.2 (hI s e hs hA.1 hK)).mpr hrest⟩

/-- What holds of every state of a run holds at its start and after each of its steps. -/
theorem forall_states_iff {P : S → Prop} {s : S} {es : List E} :
    (∀ p, p <+: es → P (run step s p)) ↔ P s ∧ Along step (fun s e => P (step s e)) s es := by
  rw [along_iff_steps]
  constructor
  · intro h
    refine ⟨h [] List.nil_prefix, ?_⟩
    intro p e hp
    rw [← run_concat step]
    exact h _ hp
  · rintro ⟨hs, h⟩ p hp
    rcases List.eq_nil_or_concat p with rfl | ⟨p', e, rfl⟩
    · exact hs
    · rw [List.concat_eq_append] at hp ⊢
      rw [run_concat]
      exact h p' e hp

/-- **The exact condition for states**: what every state of a run should be like holds of
them all just when every step of the run meets `K`. -/
theorem states_iff_of_inv {P : S → Prop} (hI : ∀ s e, I s → A s e → K s e → I (step s e))
    (hPK : ∀ s e, I s → A s e → (P (step s e) ↔ K s e)) {s : S} {es : List E}
    (hA : Along step A s es) (hs : I s) (hP : P s) :
    (∀ p, p <+: es → P (run step s p)) ↔ Along step K s es := by
  rw [forall_states_iff, along_iff_of_inv hI hPK hA hs]
  exact and_iff_right hP

/-! ### Histories -/

/-- The machine together with a history: `observe` sees the state before, the input
and the state after. -/
def observed (step : S → E → S) (observe : H → S → E → S → H) (c : S × H) (e : E) : S × H :=
  (step c.1 e, observe c.2 c.1 e (step c.1 e))

/-- A history does not disturb the machine. -/
@[simp] theorem run_observed_fst (observe : H → S → E → S → H) (c : S × H) (es : List E) :
    (run (observed step observe) c es).1 = run step c.1 es := by
  induction es generalizing c with
  | nil => rfl
  | cons e es ih => exact ih (observed step observe c e)

/-- So a predicate on the machine's own steps holds along a run with a history just
when it holds along the run without. -/
theorem along_observed {observe : H → S → E → S → H} {c : S × H} {es : List E} :
    Along (observed step observe) (fun c e => K c.1 e) c es ↔ Along step K c.1 es := by
  induction es generalizing c with
  | nil => exact Iff.rfl
  | cons e es ih => exact and_congr Iff.rfl ih

end EventRun
