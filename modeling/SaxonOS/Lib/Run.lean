import Mathlib.Data.List.Basic

/-!
# Runs of a labelled transition system

A run records, for every step, the state before it and the label taken, latest step
first. Invariants are proved once for a step and lifted to every run by
`Run.invariant`; `Run.visited` and `Run.prefix_of_mem` recover the states passed on
the way.
-/

namespace Lib

variable {σ ι : Type*}

/-- Runs of `step` from `s₀`, with the steps taken and the state reached. -/
inductive Run (step : σ → ι → σ → Prop) (s₀ : σ) : List (σ × ι) → σ → Prop
  | nil : Run step s₀ [] s₀
  | cons {tr : List (σ × ι)} {s s' : σ} {op : ι} :
      Run step s₀ tr s → step s op s' → Run step s₀ ((s, op) :: tr) s'

variable {step : σ → ι → σ → Prop} {s₀ : σ} {tr : List (σ × ι)} {s : σ}

/-- An invariant kept by every step that meets the condition `C` holds at the end of every
run whose steps all meet it. -/
theorem Run.invariant {I : σ → Prop} {C : σ → ι → Prop} (hr : Run step s₀ tr s) (h₀ : I s₀)
    (hstep : ∀ s op s', I s → C s op → step s op s' → I s')
    (hC : ∀ p ∈ tr, C p.1 p.2) : I s := by
  induction hr with
  | nil => exact h₀
  | cons hr hs ih =>
    have hI := ih (fun p hp => hC p (List.mem_cons_of_mem _ hp))
    exact hstep _ _ _ hI (hC _ List.mem_cons_self) hs

/-- Every state a run passes is itself reached by a run, with a suffix of the steps. -/
theorem Run.prefix_of_mem (hr : Run step s₀ tr s) {p : σ × ι} (hp : p ∈ tr) :
    ∃ tr' s', Run step s₀ tr' p.1 ∧ step p.1 p.2 s' ∧ (p :: tr') <:+ tr := by
  induction hr with
  | nil => simp at hp
  | cons hr hs ih =>
    rcases List.mem_cons.mp hp with rfl | hp
    · exact ⟨_, _, hr, hs, List.suffix_refl _⟩
    · obtain ⟨tr', s', hr', hs', hsuf⟩ := ih hp
      exact ⟨tr', s', hr', hs', hsuf.trans (List.suffix_cons _ _)⟩

/-- The invariant holds in every state passed on the way. -/
theorem Run.visited {I : σ → Prop} {C : σ → ι → Prop} (hr : Run step s₀ tr s) (h₀ : I s₀)
    (hstep : ∀ s op s', I s → C s op → step s op s' → I s')
    (hC : ∀ p ∈ tr, C p.1 p.2) : ∀ p ∈ tr, I p.1 := by
  intro p hp
  obtain ⟨tr', _, hr', -, hsuf⟩ := hr.prefix_of_mem hp
  refine hr'.invariant h₀ hstep (fun q hq => hC q (hsuf.subset ?_))
  exact List.mem_cons_of_mem _ hq

/-- When, under an invariant that steps with `P` keep, `P` and `Q` say the same of a step,
they say the same of a whole run. -/
theorem Run.forall_iff {I : σ → Prop} {P Q : σ → ι → Prop} (hr : Run step s₀ tr s) (h₀ : I s₀)
    (hstep : ∀ s op s', I s → step s op s' → (P s op ↔ Q s op) ∧ (P s op → I s')) :
    (∀ p ∈ tr, P p.1 p.2) ↔ ∀ p ∈ tr, Q p.1 p.2 := by
  have hkeep : ∀ s op s', I s → P s op → step s op s' → I s' :=
    fun s op s' hI hP hs => (hstep s op s' hI hs).2 hP
  induction hr with
  | nil => simp
  | @cons tr s s' op hr hs ih =>
    simp only [List.forall_mem_cons]
    constructor
    · rintro ⟨hP, hall⟩
      have hI := hr.invariant h₀ hkeep hall
      exact ⟨(hstep s op s' hI hs).1.mp hP, ih.mp hall⟩
    · rintro ⟨hQ, hall⟩
      have hI := hr.invariant h₀ hkeep (ih.mpr hall)
      exact ⟨(hstep s op s' hI hs).1.mpr hQ, ih.mpr hall⟩

/-- Executing a list of labels with a partial step function, first label first. The result
holds the steps taken, latest first, and the last state. -/
def execTrace (exec : σ → ι → Option σ) : σ → List ι → Option (List (σ × ι) × σ)
  | s, [] => some ([], s)
  | s, op :: ops =>
    (exec s op).bind fun s' => (execTrace exec s' ops).map fun r => (r.1 ++ [(s, op)], r.2)

/-- A completed execution is a run. -/
lemma Run.of_execTrace {exec : σ → ι → Option σ} {ops : List ι} {r : List (σ × ι) × σ}
    (hr : Run (fun s op s' => exec s op = some s') s₀ tr s) (h : execTrace exec s ops = some r) :
    Run (fun s op s' => exec s op = some s') s₀ (r.1 ++ tr) r.2 := by
  induction ops generalizing s tr r with
  | nil =>
    obtain rfl := Option.some.inj h
    exact hr
  | cons op ops ih =>
    obtain ⟨s1, h1, h2⟩ := Option.bind_eq_some_iff.mp h
    obtain ⟨r', hr', rfl⟩ := Option.map_eq_some_iff.mp h2
    simpa using ih (hr.cons h1) hr'

lemma run_of_execTrace {exec : σ → ι → Option σ} {ops : List ι} {r : List (σ × ι) × σ}
    (h : execTrace exec s₀ ops = some r) :
    Run (fun s op s' => exec s op = some s') s₀ r.1 r.2 := by
  simpa using Run.of_execTrace Run.nil h

/-- An execution that has been checked is a run with what has been checked. -/
lemma exists_run_of_decide {exec : σ → ι → Option σ} {ops : List ι}
    {C : List (σ × ι) × σ → Prop} [DecidablePred C]
    (h : ((execTrace exec s₀ ops).map fun r => decide (C r)) = some true) :
    ∃ r, Run (fun s op s' => exec s op = some s') s₀ r.1 r.2 ∧ C r := by
  obtain ⟨r, hexec, hC⟩ := Option.map_eq_some_iff.mp h
  exact ⟨r, run_of_execTrace hexec, of_decide_eq_true hC⟩

/-- The steps an execution attempts, with the state before each. Only the last one may fail. -/
def attempts (exec : σ → ι → Option σ) : σ → List ι → List (σ × ι)
  | _, [] => []
  | s, op :: ops =>
    (s, op) :: match exec s op with
      | some s' => attempts exec s' ops
      | none => []

lemma mem_of_attempts {exec : σ → ι → Option σ} {ops : List ι} {p : σ × ι}
    (h : p ∈ attempts exec s ops) : p.2 ∈ ops := by
  induction ops generalizing s with
  | nil => cases h
  | cons op ops ih =>
    rcases List.mem_cons.mp h with rfl | h
    · exact List.mem_cons_self
    · split at h
      · exact List.mem_cons_of_mem _ (ih h)
      · cases h

/-- What an observer sees of an execution: a view of the state after every step, `none` for
the step that fails. -/
def outputs {ο : Type*} (exec : σ → ι → Option σ) (out : σ → ο) : σ → List ι → List (Option ο)
  | _, [] => []
  | s, op :: ops =>
    match exec s op with
    | some s' => some (out s') :: outputs exec out s' ops
    | none => [none]

/-- Two executions whose steps fail together or keep the relation `R` look the same to an
observer. The index of `R` is the number of steps to come. -/
theorem outputs_eq {ο : Type*} {exec : σ → ι → Option σ} {out : σ → ο} {R : ℕ → σ → σ → Prop}
    {C : σ → ι → Prop} {P : ο → Prop} {s₁ s₂ : σ} {ops : List ι}
    (hout : ∀ n s₁ s₂, R n s₁ s₂ → out s₁ = out s₂ ∧ P (out s₁))
    (hstep : ∀ n s₁ s₂ op, R (n + 1) s₁ s₂ → C s₁ op → (exec s₁ op = none ∧ exec s₂ op = none) ∨
      ∃ s₁' s₂', exec s₁ op = some s₁' ∧ exec s₂ op = some s₂' ∧ R n s₁' s₂')
    (hR : R ops.length s₁ s₂) (hC : ∀ p ∈ attempts exec s₁ ops, C p.1 p.2) :
    outputs exec out s₁ ops = outputs exec out s₂ ops ∧
      ∀ o, some o ∈ outputs exec out s₁ ops → P o := by
  induction ops generalizing s₁ s₂ with
  | nil => exact ⟨rfl, by simp [outputs]⟩
  | cons op ops ih =>
    have hop : C s₁ op := hC (s₁, op) (by simp [attempts])
    rcases hstep ops.length s₁ s₂ op hR hop with ⟨h₁, h₂⟩ | ⟨s₁', s₂', h₁, h₂, hR'⟩
    · simp [outputs, h₁, h₂]
    · have hrest : ∀ p ∈ attempts exec s₁' ops, C p.1 p.2 := by
        intro p hp
        exact hC p (by simp [attempts, h₁, hp])
      obtain ⟨heq, hP⟩ := ih hR' hrest
      obtain ⟨ho, hPo⟩ := hout _ _ _ hR'
      simp only [outputs, h₁, h₂, ho, heq, true_and]
      intro o hmem
      rcases List.mem_cons.mp hmem with hh | hmem
      · rw [Option.some.inj hh, ← ho]
        exact hPo
      · exact hP o (heq ▸ hmem)

lemma eq_ok_of_toOption {ε α : Type*} {e : Except ε α} {a : α} (h : e.toOption = some a) :
    e = .ok a := by
  cases e with
  | error _ => cases h
  | ok _ => exact congrArg Except.ok (Option.some.inj h)

lemma bind_eq_ok.{v} {ε : Type*} {α β : Type v} {e : Except ε α} {f : α → Except ε β} {b : β}
    (h : e >>= f = .ok b) : ∃ a, e = .ok a ∧ f a = .ok b := by
  cases e with
  | error _ => cases h
  | ok a => exact ⟨a, rfl, h⟩

/-- A sequence fails with `e` only where one of its parts does. -/
lemma bind_ne_error.{v} {ε : Type*} {α β : Type v} {x : Except ε α} {f : α → Except ε β} {e : ε}
    (hx : x ≠ .error e) (hf : ∀ a, x = .ok a → f a ≠ .error e) : x >>= f ≠ .error e := by
  cases x with
  | error e' => exact fun h => hx (congrArg Except.error (Except.error.inj h))
  | ok a => exact hf a rfl

/-- Two computations agree: both succeed with related values or both fail alike. -/
inductive Agree {ε α β : Type*} (R : α → β → Prop) : Except ε α → Except ε β → Prop
  | ok {a : α} {b : β} (h : R a b) : Agree R (.ok a) (.ok b)
  | error (e : ε) : Agree R (.error e) (.error e)

lemma Agree.bind.{v} {ε : Type*} {α β α' β' : Type v} {R : α → β → Prop} {S : α' → β' → Prop}
    {x : Except ε α} {y : Except ε β} {f : α → Except ε α'} {g : β → Except ε β'}
    (h : Agree R x y) (hf : ∀ a b, x = .ok a → y = .ok b → R a b → Agree S (f a) (g b)) :
    Agree S (x >>= f) (y >>= g) := by
  cases h with
  | ok h => exact hf _ _ rfl rfl h
  | error e => exact .error e

lemma Agree.refl {ε α : Type*} (x : Except ε α) : Agree (fun a b => a = b) x x := by
  cases x with
  | ok a => exact .ok rfl
  | error e => exact .error e

end Lib
