import SnesController.Library.EventRun

/-!
# Ranking

A rank that no step raises and that some inputs lower, until it is nought: `Wears` says that of one
step, `worn_le` that a run lowers the rank by one for every such input it holds, `worn_out` that
enough of them wear it out, and `reaches` that then a goal has been passed.
-/

namespace EventRun

universe u v

variable {S : Type u} {E : Type v} {step : S → E → S} {rank : S → ℕ} {lowers : E → Bool}

/-- **A step does not raise the rank**, and lowers it by one or more for an input that lowers. -/
def Wears (step : S → E → S) (rank : S → ℕ) (lowers : E → Bool) (s : S) (e : E) : Prop :=
  rank (step s e) ≤ rank s - (lowers e).toNat

theorem worn_le {s : S} {es : List E} (h : Along step (Wears step rank lowers) s es) :
    rank (run step s es) ≤ rank s - es.countP lowers := by
  induction es generalizing s with
  | nil => exact Nat.le_refl _
  | cons e es ih =>
    obtain ⟨hhead, hrest⟩ := h
    have hle := ih hrest
    unfold Wears at hhead
    rw [run_cons, List.countP_cons]
    cases he : lowers e with
    | true =>
      rw [he, Bool.toNat_true] at hhead
      rw [if_pos rfl]
      omega
    | false =>
      rw [he, Bool.toNat_false] at hhead
      rw [if_neg Bool.false_ne_true]
      omega

/-- **Enough inputs that lower it wear the rank out.** -/
theorem worn_out {s : S} {es : List E} (h : Along step (Wears step rank lowers) s es)
    (hmany : rank s ≤ es.countP lowers) : rank (run step s es) = 0 := by
  have hle := worn_le h
  omega

/-- **Enough of them reach a goal**, if short of it every step wears the rank, which is nought only
at the goal. -/
theorem reaches {I G : S → Prop} (hI : ∀ s e, I s → I (step s e))
    (hwears : ∀ s e, I s → ¬ G s → Wears step rank lowers s e) (hgoal : ∀ s, rank s = 0 → G s)
    {s : S} (hs : I s) {es : List E} (hmany : rank s ≤ es.countP lowers) :
    ∃ p, p <+: es ∧ G (run step s p) := by
  by_contra hno
  have hshort : ∀ p, p <+: es → ¬ G (run step s p) := fun p hp hg => hno ⟨p, hp, hg⟩
  have halong : Along step (Wears step rank lowers) s es := by
    refine along_iff_steps.mpr ?_
    intro p e hp
    exact hwears _ e (Along.run_inv (fun s e h _ => hI s e h) (along_true s p) hs)
      (hshort p ((List.prefix_append p [e]).trans hp))
  exact hshort es List.prefix_rfl (hgoal _ (worn_out halong hmany))

end EventRun
