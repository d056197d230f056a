import SnesController.Library.EventRun

/-!
# Hidden inputs

A machine whose steps also depend on a value that nothing in the run decides, such as what a
variable that was never assigned happens to hold. `Indifferent step obs s es` compares two runs
of the same inputs `es`, each with hidden values of its own: at every step they show the same.

`indifferent_iff_along` is the rule for the exact condition. When a step either does not depend
on its hidden value or can show two things, what the machine shows does not depend on the hidden
values exactly when every step is of the first kind.
-/

namespace HiddenInput

open EventRun

universe u v w x

variable {S : Type u} {E : Type v} {U : Type w} {O : Type x}

/-- An input, with the hidden value in each of two runs. -/
structure Twin (E : Type v) (U : Type w) where
  input : E
  fst : U
  snd : U

/-- Two runs at once. -/
def twinStep (step : S → E → U → S) (c : S × S) (t : Twin E U) : S × S :=
  (step c.1 t.input t.fst, step c.2 t.input t.snd)

/-- The two runs show the same. -/
def Same (obs : S → E → U → O) (c : S × S) (t : Twin E U) : Prop :=
  obs c.1 t.input t.fst = obs c.2 t.input t.snd

/-- **What a run of `es` from `s` shows does not depend on the hidden values.** -/
def Indifferent (step : S → E → U → S) (obs : S → E → U → O) (s : S) (es : List E) : Prop :=
  ∀ ts : List (Twin E U), ts.map Twin.input = es → Along (twinStep step) (Same obs) (s, s) ts

variable {step : S → E → U → S} {obs : S → E → U → O} {I : S → Prop} {D : S → E → Prop} {u₀ : U}

/-- The inputs `es` with the value `u` in both runs. -/
theorem map_input_twins (es : List E) (u : U) :
    (es.map fun e => (⟨e, u, u⟩ : Twin E U)).map Twin.input = es := by
  rw [List.map_map]
  exact List.map_id es

/-- The first step of an indifferent run is. -/
theorem Indifferent.head {s : S} {e : E} {es : List E}
    (h : Indifferent step obs s (e :: es)) (u u' : U) : obs s e u = obs s e u' := by
  have hrun := h (⟨e, u, u'⟩ :: es.map fun e => ⟨e, u, u⟩)
    (congrArg (e :: ·) (map_input_twins es u))
  exact hrun.1

/-- So is what follows it. -/
theorem Indifferent.tail {s : S} {e : E} {es : List E} (h : Indifferent step obs s (e :: es))
    (u : U) : Indifferent step obs (step s e u) es := by
  intro ts hts
  have hrun := h (⟨e, u, u⟩ :: ts) (congrArg (e :: ·) hts)
  exact hrun.2

/-- **The exact condition**: if the steps that meet `D` do not depend on the hidden value, and
the others, where the invariant holds, can show two things, then what a run shows does not depend
on the hidden values just when all its steps meet `D`. -/
theorem indifferent_iff_along (hI : ∀ s e, I s → I (step s e u₀))
    (hdet : ∀ s e, D s e → ∀ u, step s e u = step s e u₀ ∧ obs s e u = obs s e u₀)
    (hdiff : ∀ s e, I s → ¬ D s e → ∃ u u', obs s e u ≠ obs s e u') {s : S} (hs : I s)
    (es : List E) :
    Indifferent step obs s es ↔ Along (fun s e => step s e u₀) D s es := by
  induction es generalizing s with
  | nil =>
    refine ⟨fun _ => trivial, ?_⟩
    intro _ ts hts
    rw [List.map_eq_nil_iff] at hts
    rw [hts]
    trivial
  | cons e es ih =>
    constructor
    · intro h
      refine ⟨?_, (ih (hI s e hs)).mp (h.tail u₀)⟩
      by_contra hD
      obtain ⟨u, u', hne⟩ := hdiff s e hs hD
      exact hne (h.head u u')
    · rintro ⟨hD, hrest⟩ ts hts
      cases ts with
      | nil => cases hts
      | cons t ts =>
        obtain ⟨rfl, hrest'⟩ := List.cons.inj hts
        obtain ⟨hfst, hfst'⟩ := hdet s t.input hD t.fst
        obtain ⟨hsnd, hsnd'⟩ := hdet s t.input hD t.snd
        refine ⟨hfst'.trans hsnd'.symm, ?_⟩
        show Along _ _ (step s t.input t.fst, step s t.input t.snd) ts
        rw [hfst, hsnd]
        exact (ih (hI s t.input hs)).mpr hrest ts hrest'

end HiddenInput
