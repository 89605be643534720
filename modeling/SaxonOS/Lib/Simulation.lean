import SaxonOS.Lib.Run

/-!
# Simulation of runs

A system refines another one through a relation of their states if each of its steps is matched by
a step with the same label. Its runs are then runs of the other system. The condition on the steps
is what the environment of the system has to keep to.
-/

namespace Lib

variable {σ τ ι : Type*} {step : σ → ι → σ → Prop} {astep : τ → ι → τ → Prop} {R : τ → σ → Prop}
  {C : σ → ι → Prop} {s₀ s : σ} {a₀ a : τ} {tr : List (σ × ι)} {atr : List (τ × ι)}

/-- The labels of a run, the latest first. -/
def labels (tr : List (σ × ι)) : List ι := tr.map Prod.snd

/-- A run goes on from where another one ended. -/
lemma Run.append {s' : σ} {tr' : List (σ × ι)} (hr : Run step s₀ tr s) (hr' : Run step s tr' s') :
    Run step s₀ (tr' ++ tr) s' := by
  induction hr' with
  | nil => exact hr
  | cons _ hs ih => exact ih.cons hs

theorem Run.simulates (hr : Run step s₀ tr s) (h₀ : R a₀ s₀)
    (hstep : ∀ a s op s', R a s → C s op → step s op s' → ∃ a', astep a op a' ∧ R a' s')
    (hC : ∀ p ∈ tr, C p.1 p.2) :
    ∃ atr a, Run astep a₀ atr a ∧ labels atr = labels tr ∧ R a s := by
  induction hr with
  | nil => exact ⟨[], a₀, .nil, rfl, h₀⟩
  | @cons tr s s' op hr hs ih =>
    obtain ⟨atr, a, har, hlab, hR⟩ := ih fun p hp => hC p (List.mem_cons_of_mem _ hp)
    obtain ⟨a', has, hR'⟩ := hstep a s op s' hR (hC _ List.mem_cons_self) hs
    refine ⟨(a, op) :: atr, a', har.cons has, ?_, hR'⟩
    rw [labels, List.map_cons, ← labels, hlab]
    rfl

section

variable {ε α β : Type*} {A : α → β → Prop} {x : Except ε α} {y : Except ε β}

lemma Agree.ok_left (h : Agree A x y) {a : α} (hx : x = .ok a) : ∃ b, y = .ok b ∧ A a b := by
  cases h with
  | ok h =>
    obtain rfl := Except.ok.inj hx
    exact ⟨_, rfl, h⟩
  | error e => cases hx

lemma Agree.ok_right (h : Agree A x y) {b : β} (hy : y = .ok b) : ∃ a, x = .ok a ∧ A a b := by
  cases h with
  | ok h =>
    obtain rfl := Except.ok.inj hy
    exact ⟨_, rfl, h⟩
  | error e => cases hy

/-- One of them goes on and cannot fail any more. -/
lemma Agree.then.{v} {ε β : Type*} {α γ : Type v} {A : α → β → Prop} {B : γ → β → Prop}
    {x : Except ε α} {y : Except ε β} {g : α → Except ε γ} (h : Agree A x y)
    (hg : ∀ a b, A a b → ∃ c, g a = .ok c ∧ B c b) : Agree B (x >>= g) y := by
  cases h with
  | ok h =>
    obtain ⟨c, hc, hB⟩ := hg _ _ h
    change Agree B (g _) _
    rw [hc]
    exact .ok hB
  | error e => exact .error e

end

end Lib
