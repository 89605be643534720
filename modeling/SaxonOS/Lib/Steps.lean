import Mathlib.Logic.Relation

/-!
# Machines that halt or stand still

A machine takes steps from state to state until it halts with a result. Where each step makes
a measure smaller or changes nothing at all, it halts exactly if it never gets to a state that
it does not leave.
-/

namespace Lib

variable {σ ρ : Type*}

/-- The result after at most `n` steps. -/
def runSteps (step : σ → ρ ⊕ σ) : Nat → σ → Option ρ
  | 0, _ => none
  | n + 1, s =>
    match step s with
    | .inl r => some r
    | .inr s' => runSteps step n s'

def Halts (step : σ → ρ ⊕ σ) (s : σ) : Prop := ∃ n r, runSteps step n s = some r

/-- The states that a run from `s` passes. -/
def Passes (step : σ → ρ ⊕ σ) : σ → σ → Prop :=
  Relation.ReflTransGen fun s s' => step s = .inr s'

variable {step : σ → ρ ⊕ σ} {s s' : σ}

lemma halts_of_inl {r : ρ} (h : step s = .inl r) : Halts step s :=
  ⟨1, r, by rw [runSteps, h]⟩

lemma halts_iff_of_inr (h : step s = .inr s') : Halts step s ↔ Halts step s' := by
  constructor
  · rintro ⟨n, r, hr⟩
    cases n with
    | zero => cases hr
    | succ n =>
      rw [runSteps, h] at hr
      exact ⟨n, r, hr⟩
  · rintro ⟨n, r, hr⟩
    refine ⟨n + 1, r, ?_⟩
    rw [runSteps, h]
    exact hr

lemma Passes.halts_iff (h : Passes step s s') : Halts step s ↔ Halts step s' := by
  induction h with
  | refl => rfl
  | tail _ hstep ih => rw [ih, halts_iff_of_inr hstep]

lemma not_halts_of_still (h : step s = .inr s) : ¬Halts step s := by
  rintro ⟨n, r, hr⟩
  induction n with
  | zero => cases hr
  | succ n ih =>
    rw [runSteps, h] at hr
    exact ih hr

lemma Passes.keeps {P : σ → Prop} (hkeep : ∀ s s', P s → step s = .inr s' → P s')
    (h : Passes step s s') (hs : P s) : P s' := by
  induction h with
  | refl => exact hs
  | tail _ hstep ih => exact hkeep _ _ ih hstep

/-- A run has at most one result. -/
lemma Passes.result_unique {t t' : σ} {r r' : ρ} (h : Passes step s t) (hr : step t = .inl r)
    (h' : Passes step s t') (hr' : step t' = .inl r') : r = r' := by
  induction h using Relation.ReflTransGen.head_induction_on with
  | refl =>
    rcases h'.cases_head with rfl | ⟨u, hu, -⟩
    · exact Sum.inl.inj (hr.symm.trans hr')
    · rw [hr] at hu
      cases hu
  | head hstep _ ih =>
    rcases h'.cases_head with rfl | ⟨u, hu, hrest⟩
    · rw [hstep] at hr'
      cases hr'
    · obtain rfl := Sum.inr.inj (hstep.symm.trans hu)
      exact ih hrest

theorem halts_iff_never_still {P : σ → Prop} {measure : σ → Nat}
    (hkeep : ∀ s s', P s → step s = .inr s' → P s')
    (hless : ∀ s s', P s → step s = .inr s' → s' = s ∨ measure s' < measure s) (hs : P s) :
    Halts step s ↔ ∀ s', Passes step s s' → step s' ≠ .inr s' := by
  constructor
  · intro hhalts s' hpass hstill
    exact not_halts_of_still hstill (hpass.halts_iff.mp hhalts)
  · intro hmoves
    induction hm : measure s using Nat.strongRecOn generalizing s with
    | ind m ih =>
      cases hstep : step s with
      | inl r => exact halts_of_inl hstep
      | inr s' =>
        rw [halts_iff_of_inr hstep]
        rcases hless s s' hs hstep with rfl | hlt
        · exact absurd hstep (hmoves s' .refl)
        · apply ih (measure s') (hm ▸ hlt) (hkeep s s' hs hstep) _ rfl
          intro t ht
          exact hmoves t (.head hstep ht)

end Lib
