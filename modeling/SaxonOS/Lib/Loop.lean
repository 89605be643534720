import Mathlib.Logic.Basic
import Mathlib.Tactic.ByContra
import Mathlib.Data.Nat.Find

/-!
# Nested loops with a budget

`while (guard) body` and `for (k = 0; k < n && live; k++) body` over a state, where the body
and the guard may fail. The `while` loop takes a budget of turns and is `stuck` without one.
What it comes to for every large enough budget is what it settles to, and a loop nest is
followed along the states after each turn of its inner body.
-/

namespace Lib

variable {σ ε : Type*}

def whileLoop (stuck : ε) (guard : σ → Except ε Bool) (body : σ → Except ε σ) :
    Nat → σ → Except ε σ
  | fuel, s =>
    match guard s with
    | .error e => .error e
    | .ok false => .ok s
    | .ok true =>
      match fuel with
      | 0 => .error stuck
      | fuel + 1 =>
        match body s with
        | .error e => .error e
        | .ok s' => whileLoop stuck guard body fuel s'

/-- The turns `k`, `k + 1`, … of a `for` loop that has `n` of them left. -/
def forLoop (live : σ → Bool) (body : Nat → σ → Except ε σ) : Nat → Nat → σ → Except ε σ
  | 0, _, s => .ok s
  | n + 1, k, s =>
    if live s then
      match body k s with
      | .error e => .error e
      | .ok s' => forLoop live body n (k + 1) s'
    else .ok s

/-- Every large enough budget gives `r`. -/
def Settles (f : Nat → Except ε σ) (r : Except ε σ) : Prop := ∃ n, ∀ fuel, n ≤ fuel → f fuel = r

lemma Settles.unique {f : Nat → Except ε σ} {r r' : Except ε σ} (h : Settles f r)
    (h' : Settles f r') : r = r' := by
  obtain ⟨n, hn⟩ := h
  obtain ⟨m, hm⟩ := h'
  rw [← hn (max n m) (Nat.le_max_left n m), hm (max n m) (Nat.le_max_right n m)]

section While

variable {stuck : ε} {guard : σ → Except ε Bool} {body : σ → Except ε σ} {s : σ}

lemma whileLoop_mono {fuel d : Nat} {r : Except ε σ} (hr : r ≠ .error stuck)
    (h : whileLoop stuck guard body fuel s = r) : whileLoop stuck guard body (fuel + d) s = r := by
  induction fuel generalizing s with
  | zero =>
    unfold whileLoop at h ⊢
    split at h
    · exact h
    · exact h
    · exact absurd h.symm hr
  | succ fuel ih =>
    rw [Nat.add_right_comm]
    unfold whileLoop at h ⊢
    split at h
    · exact h
    · exact h
    · cases hb : body s with
      | error e => simpa only [hb] using h
      | ok s' =>
        simp only [hb] at h ⊢
        exact ih h

/-- Before it settles the loop is stuck. -/
lemma Settles.all {r : Except ε σ} (h : Settles (fun fuel => whileLoop stuck guard body fuel s) r)
    (fuel : Nat) : whileLoop stuck guard body fuel s = .error stuck ∨
      whileLoop stuck guard body fuel s = r := by
  by_cases hr : whileLoop stuck guard body fuel s = .error stuck
  · exact .inl hr
  · right
    obtain ⟨n, hn⟩ := h
    rw [← whileLoop_mono (d := n) hr rfl]
    exact hn (fuel + n) (Nat.le_add_left n fuel)

/-- A property of the stuck loop holds at every budget exactly if the result has it. -/
lemma Settles.forall_iff {r : Except ε σ} {P : Except ε σ → Prop} (hstuck : P (.error stuck))
    (h : Settles (fun fuel => whileLoop stuck guard body fuel s) r) :
    (∀ fuel, P (whileLoop stuck guard body fuel s)) ↔ P r := by
  constructor
  · intro hP
    obtain ⟨n, hn⟩ := h
    rw [← hn n (Nat.le_refl n)]
    exact hP n
  · intro hr fuel
    rcases h.all fuel with hs | hs
    · rw [hs]
      exact hstuck
    · rw [hs]
      exact hr

lemma settles_of_guard_false (h : guard s = .ok false) :
    Settles (fun fuel => whileLoop stuck guard body fuel s) (.ok s) := by
  refine ⟨0, fun fuel _ => ?_⟩
  unfold whileLoop
  rw [h]

lemma settles_of_guard_error {e : ε} (h : guard s = .error e) :
    Settles (fun fuel => whileLoop stuck guard body fuel s) (.error e) := by
  refine ⟨0, fun fuel _ => ?_⟩
  unfold whileLoop
  rw [h]

/-- A turn that changes nothing is repeated for ever. -/
lemma settles_of_idle (h : guard s = .ok true) (hb : body s = .ok s) :
    Settles (fun fuel => whileLoop stuck guard body fuel s) (.error stuck) := by
  refine ⟨0, fun fuel _ => ?_⟩
  induction fuel with
  | zero => simp [whileLoop, h]
  | succ fuel ih =>
    dsimp only at ih ⊢
    rw [whileLoop, h]
    dsimp only
    rw [hb]
    exact ih (Nat.zero_le fuel)

/-- The states of a loop that takes `j` turns and leaves. -/
lemma settles_of_path {path : Nat → σ} {j : Nat} (hguard : ∀ i < j, guard (path i) = .ok true)
    (hbody : ∀ i < j, body (path i) = .ok (path (i + 1))) (hlast : guard (path j) = .ok false) :
    Settles (fun fuel => whileLoop stuck guard body fuel (path 0)) (.ok (path j)) := by
  induction j generalizing path with
  | zero => exact settles_of_guard_false hlast
  | succ j ih =>
    obtain ⟨n, hn⟩ := ih (fun i hi => hguard (i + 1) (by omega))
      (fun i hi => hbody (i + 1) (by omega)) hlast
    refine ⟨n + 1, fun fuel hf => ?_⟩
    obtain ⟨d, rfl⟩ : ∃ d, fuel = d + 1 := ⟨fuel - 1, by omega⟩
    dsimp only
    rw [whileLoop, hguard 0 (Nat.succ_pos j)]
    dsimp only
    rw [hbody 0 (Nat.succ_pos j)]
    exact hn d (by omega)

/-- A loop whose guard always holds and whose body never fails. -/
lemma whileLoop_forever {f : σ → σ} (hguard : ∀ s, guard s = .ok true)
    (hbody : ∀ s, body s = .ok (f s)) (fuel : Nat) (s : σ) :
    whileLoop stuck guard body fuel s = .error stuck := by
  induction fuel generalizing s with
  | zero => rw [whileLoop, hguard]
  | succ fuel ih =>
    rw [whileLoop, hguard]
    dsimp only
    rw [hbody]
    exact ih (f s)

end While

/-! ### A `for` loop inside a `while` loop -/

section Nest

variable (stuck : ε) (guard : σ → Except ε Bool) (live : σ → Bool) (body : Nat → σ → Except ε σ)
  (n : Nat)

def loopNest : Nat → σ → Except ε σ := whileLoop stuck guard (forLoop live body n 0)

/-- The nest with the turns `k`, …, `n - 1` of the inner loop to come. -/
def resume (k : Nat) (s : σ) (fuel : Nat) : Except ε σ :=
  match forLoop live body (n - k) k s with
  | .error e => .error e
  | .ok s' => loopNest stuck guard live body n fuel s'

/-- The nest in the state `s`, reached after `j` turns of the inner body. -/
def atTurn (j : Nat) (s : σ) (fuel : Nat) : Except ε σ :=
  if j % n = 0 then loopNest stuck guard live body n fuel s
  else resume stuck guard live body n (j % n) s fuel

variable {stuck guard live body n} {j : Nat} {s s' : σ}

lemma resume_full : resume stuck guard live body n n s =
    fun fuel => loopNest stuck guard live body n fuel s := by
  funext fuel
  simp [resume, forLoop]

lemma resume_dead {k : Nat} (h : live s = false) : resume stuck guard live body n k s =
    fun fuel => loopNest stuck guard live body n fuel s := by
  funext fuel
  cases hk : n - k <;> simp [resume, forLoop, hk, h]

lemma resume_turn {k : Nat} (hk : k < n) (hl : live s = true) (hb : body k s = .ok s') :
    resume stuck guard live body n k s = resume stuck guard live body n (k + 1) s' := by
  funext fuel
  obtain ⟨d, hd⟩ : ∃ d, n - k = d + 1 := ⟨n - k - 1, by omega⟩
  have hd' : n - (k + 1) = d := by omega
  simp [resume, hd, hd', forLoop, hl, hb]

lemma resume_error {k : Nat} {e : ε} (hk : k < n) (hl : live s = true) (hb : body k s = .error e)
    (fuel : Nat) : resume stuck guard live body n k s fuel = .error e := by
  obtain ⟨d, hd⟩ : ∃ d, n - k = d + 1 := ⟨n - k - 1, by omega⟩
  simp [resume, hd, forLoop, hl, hb]

lemma loopNest_guard_true (hg : guard s = .ok true) (fuel : Nat) :
    loopNest stuck guard live body n (fuel + 1) s = resume stuck guard live body n 0 s fuel := by
  rw [loopNest, whileLoop, hg]
  rfl

lemma atTurn_outer (hj : j % n = 0) : atTurn stuck guard live body n j s =
    fun fuel => loopNest stuck guard live body n fuel s := by
  funext fuel
  rw [atTurn, if_pos hj]

lemma atTurn_inner (hj : j % n ≠ 0) : atTurn stuck guard live body n j s =
    resume stuck guard live body n (j % n) s := by
  funext fuel
  rw [atTurn, if_neg hj]

variable (stuck live body) in
lemma atTurn_succ (hg : j % n = 0 → guard s = .ok true) : ∃ e, ∀ fuel,
    atTurn stuck guard live body n j s (fuel + e) =
      resume stuck guard live body n (j % n) s fuel := by
  by_cases hj : j % n = 0
  · refine ⟨1, fun fuel => ?_⟩
    rw [atTurn_outer hj, hj]
    exact loopNest_guard_true (hg hj) fuel
  · refine ⟨0, fun fuel => ?_⟩
    rw [atTurn_inner hj, Nat.add_zero]

lemma resume_mod (hn : 0 < n) : resume stuck guard live body n (j % n + 1) s =
    atTurn stuck guard live body n (j + 1) s := by
  have hmod : (j + 1) % n = (j % n + 1) % n := by rw [Nat.mod_add_mod]
  funext fuel
  rcases Nat.eq_or_lt_of_le (Nat.succ_le_of_lt (Nat.mod_lt j hn)) with he | hl
  · have hz : (j + 1) % n = 0 := by rw [hmod, ← Nat.succ_eq_add_one, he, Nat.mod_self]
    rw [atTurn_outer hz, ← Nat.succ_eq_add_one, he, resume_full]
  · have hz : (j + 1) % n = j % n + 1 := by rw [hmod, Nat.mod_eq_of_lt hl]
    rw [atTurn_inner (by omega), hz]

/-! ### Following the nest along its states -/

/-- The turn `j` of the inner body is taken, from `path j` to `path (j + 1)`. -/
structure Turn (guard : σ → Except ε Bool) (live : σ → Bool) (body : Nat → σ → Except ε σ) (n : Nat)
    (path : Nat → σ) (j : Nat) : Prop where
  guard : j % n = 0 → guard (path j) = .ok true
  live : live (path j) = true
  body : body (j % n) (path j) = .ok (path (j + 1))

variable {path : Nat → σ}

variable (stuck) in
lemma loopNest_follow (hn : 0 < n) (h : ∀ i < j, Turn guard live body n path i) :
    ∃ e, ∀ fuel, loopNest stuck guard live body n (fuel + e) (path 0) =
      atTurn stuck guard live body n j (path j) fuel := by
  induction j with
  | zero =>
    refine ⟨0, fun fuel => ?_⟩
    rw [atTurn_outer (Nat.zero_mod n), Nat.add_zero]
  | succ j ih =>
    obtain ⟨e, he⟩ := ih (fun i hi => h i (by omega))
    have ht := h j (by omega)
    obtain ⟨d, hd⟩ := atTurn_succ stuck live body ht.guard
    refine ⟨d + e, fun fuel => ?_⟩
    rw [← Nat.add_assoc, he, hd, resume_turn (Nat.mod_lt j hn) ht.live ht.body, resume_mod hn]

lemma settles_of_follow (hn : 0 < n) (h : ∀ i < j, Turn guard live body n path i) {r : Except ε σ}
    (hr : Settles (atTurn stuck guard live body n j (path j)) r) :
    Settles (fun fuel => loopNest stuck guard live body n fuel (path 0)) r := by
  obtain ⟨e, he⟩ := loopNest_follow stuck hn h
  obtain ⟨d, hd⟩ := hr
  refine ⟨d + e, fun fuel hf => ?_⟩
  obtain ⟨c, rfl⟩ := Nat.exists_eq_add_of_le hf
  dsimp only
  rw [show d + e + c = d + c + e by omega, he]
  exact hd (d + c) (Nat.le_add_right d c)

lemma settles_of_dead (hn : 0 < n) (h : ∀ i < j, Turn guard live body n path i)
    (hl : live (path j) = false) {r : Except ε σ}
    (hr : Settles (fun fuel => loopNest stuck guard live body n fuel (path j)) r) :
    Settles (fun fuel => loopNest stuck guard live body n fuel (path 0)) r := by
  apply settles_of_follow hn h
  by_cases hj : j % n = 0
  · rwa [atTurn_outer hj]
  · rwa [atTurn_inner hj, resume_dead hl]

/-- All turns are taken and the guard then ends the nest. -/
lemma settles_done (hn : 0 < n) (h : ∀ i < j, Turn guard live body n path i)
    (hl : live (path j) = false) (hg : guard (path j) = .ok false) :
    Settles (fun fuel => loopNest stuck guard live body n fuel (path 0)) (.ok (path j)) :=
  settles_of_dead hn h hl (settles_of_guard_false hg)

/-- All turns are taken and the guard still holds: the inner loop has nothing left to do. -/
lemma settles_stuck (hn : 0 < n) (h : ∀ i < j, Turn guard live body n path i)
    (hl : live (path j) = false) (hg : guard (path j) = .ok true) :
    Settles (fun fuel => loopNest stuck guard live body n fuel (path 0)) (.error stuck) := by
  apply settles_of_dead hn h hl
  apply settles_of_idle hg
  cases n with
  | zero => cases hn
  | succ n => simp [forLoop, hl]

lemma settles_dead_error {e : ε} (hn : 0 < n) (h : ∀ i < j, Turn guard live body n path i)
    (hl : live (path j) = false) (hg : guard (path j) = .error e) :
    Settles (fun fuel => loopNest stuck guard live body n fuel (path 0)) (.error e) :=
  settles_of_dead hn h hl (settles_of_guard_error hg)

/-- The guard ends the nest before the turn `j`. -/
lemma settles_short (hn : 0 < n) (h : ∀ i < j, Turn guard live body n path i) (hj : j % n = 0)
    (hg : guard (path j) = .ok false) :
    Settles (fun fuel => loopNest stuck guard live body n fuel (path 0)) (.ok (path j)) := by
  apply settles_of_follow hn h
  rw [atTurn_outer hj]
  exact settles_of_guard_false hg

lemma settles_guard_error {e : ε} (hn : 0 < n) (h : ∀ i < j, Turn guard live body n path i)
    (hj : j % n = 0) (hg : guard (path j) = .error e) :
    Settles (fun fuel => loopNest stuck guard live body n fuel (path 0)) (.error e) := by
  apply settles_of_follow hn h
  rw [atTurn_outer hj]
  exact settles_of_guard_error hg

/-- The body fails in the turn `j`. -/
lemma settles_body_error {e : ε} (hn : 0 < n) (h : ∀ i < j, Turn guard live body n path i)
    (hg : j % n = 0 → guard (path j) = .ok true) (hl : live (path j) = true)
    (hb : body (j % n) (path j) = .error e) :
    Settles (fun fuel => loopNest stuck guard live body n fuel (path 0)) (.error e) := by
  apply settles_of_follow hn h
  obtain ⟨d, hd⟩ := atTurn_succ stuck live body hg
  refine ⟨d, fun fuel hf => ?_⟩
  obtain ⟨c, rfl⟩ := Nat.exists_eq_add_of_le hf
  rw [Nat.add_comm d c, hd]
  exact resume_error (Nat.mod_lt j hn) hl hb c

/-- When the nest may neither end before the turn `m` nor fail, it takes all turns up to there. -/
lemma turns_of_settled {P : Except ε σ → Prop} {m : Nat} (hn : 0 < n)
    (hP : ∀ r, Settles (fun fuel => loopNest stuck guard live body n fuel (path 0)) r → P r)
    (hshort : ∀ j < m, ¬ P (.ok (path j))) (herror : ∀ e, e ≠ stuck → ¬ P (.error e))
    (hlive : ∀ j < m, live (path j) = true) (hguard : ∀ j < m, guard (path j) ≠ .error stuck)
    (hbody : ∀ j < m, body (j % n) (path j) = .ok (path (j + 1)) ∨
      ∃ e, e ≠ stuck ∧ body (j % n) (path j) = .error e) :
    ∀ j < m, Turn guard live body n path j := by
  intro j
  induction j using Nat.strongRecOn with
  | ind j ih =>
    intro hj
    have hbefore : ∀ i < j, Turn guard live body n path i := fun i hi => ih i hi (by omega)
    have hg : j % n = 0 → guard (path j) = .ok true := by
      intro hz
      match hgj : guard (path j) with
      | .ok true => rfl
      | .ok false => exact absurd (hP _ (settles_short hn hbefore hz hgj)) (hshort j hj)
      | .error e =>
        have hne : e ≠ stuck := fun he => hguard j hj (he ▸ hgj)
        exact absurd (hP _ (settles_guard_error hn hbefore hz hgj)) (herror e hne)
    rcases hbody j hj with hb | ⟨e, hne, hb⟩
    · exact ⟨hg, hlive j hj, hb⟩
    · exact absurd (hP _ (settles_body_error hn hbefore hg (hlive j hj) hb)) (herror e hne)

/-- A nest whose body never fails returns exactly if one of its tests fails: those before the
turns `0`, `n`, `2 * n`, … and the one after the last turn. -/
lemma loopNest_ends_iff {m : Nat} {test : Nat → Bool} (hn : 0 < n)
    (hlive : ∀ j < m, live (path j) = true) (hdead : live (path m) = false)
    (hbody : ∀ j < m, body (j % n) (path j) = .ok (path (j + 1)))
    (hguard : ∀ j ≤ m, guard (path j) = .ok (test j)) :
    (∃ fuel s, loopNest stuck guard live body n fuel (path 0) = .ok s) ↔
      ∃ j ≤ m, (j % n = 0 ∨ j = m) ∧ test j = false := by
  have hturn : ∀ j < m, (j % n = 0 → test j = true) → Turn guard live body n path j := by
    intro j hj htest
    refine ⟨fun hz => ?_, hlive j hj, hbody j hj⟩
    rw [hguard j (Nat.le_of_lt hj), htest hz]
  constructor
  · rintro ⟨fuel, s, hs⟩
    by_contra hno
    have htest : ∀ j ≤ m, j % n = 0 ∨ j = m → test j = true := by
      intro j hj hcase
      cases hj' : test j with
      | true => rfl
      | false => exact absurd ⟨j, hj, hcase, hj'⟩ hno
    have hstuck : Settles (fun fuel => loopNest stuck guard live body n fuel (path 0))
        (.error stuck) := by
      apply settles_stuck hn
        (fun j hj => hturn j hj fun hz => htest j (Nat.le_of_lt hj) (.inl hz)) hdead
      rw [hguard m (Nat.le_refl m), htest m (Nat.le_refl m) (.inr rfl)]
    rcases hstuck.all fuel with h | h
    · rw [loopNest, h] at hs
      cases hs
    · rw [loopNest, h] at hs
      cases hs
  · intro hex
    -- the first test that fails is the one that is reached
    classical
    obtain ⟨hle, hcase, hfalse⟩ := Nat.find_spec hex
    have hbefore : ∀ i < Nat.find hex, Turn guard live body n path i := by
      intro i hi
      apply hturn i (Nat.lt_of_lt_of_le hi hle)
      intro hz
      cases hi' : test i with
      | true => rfl
      | false =>
        exact absurd ⟨Nat.le_of_lt (Nat.lt_of_lt_of_le hi hle), .inl hz, hi'⟩ (Nat.find_min hex hi)
    have hg : guard (path (Nat.find hex)) = .ok false := by rw [hguard _ hle, hfalse]
    have hsettles : Settles (fun fuel => loopNest stuck guard live body n fuel (path 0))
        (.ok (path (Nat.find hex))) := by
      rcases hcase with hz | hlast
      · exact settles_short hn hbefore hz hg
      · apply settles_done hn hbefore _ hg
        rw [hlast]
        exact hdead
    obtain ⟨fuel, hfuel⟩ := hsettles
    exact ⟨fuel, _, hfuel fuel (Nat.le_refl fuel)⟩

end Nest

/-! ### Two nests side by side

A nest that does the same as a second one, seen through `view`, except where it fails with
`fault`. -/

section View

variable {τ : Type*} {stuck fault : ε} {guard : σ → Except ε Bool} {live : σ → Bool}
  {body : Nat → σ → Except ε σ} {guard' : τ → Except ε Bool} {live' : τ → Bool}
  {body' : Nat → τ → Except ε τ} {view : σ → τ}

lemma forLoop_view (hlive : ∀ s, live s = live' (view s))
    (hbody : ∀ k s, body k s = .error fault ∨ (body k s).map view = body' k (view s))
    (n k : Nat) (s : σ) : forLoop live body n k s = .error fault ∨
      (forLoop live body n k s).map view = forLoop live' body' n k (view s) := by
  induction n generalizing k s with
  | zero => exact .inr rfl
  | succ n ih =>
    rw [forLoop, forLoop, ← hlive]
    cases live s with
    | false => exact .inr rfl
    | true =>
      simp only [if_true]
      cases hb : body k s with
      | error e =>
        rcases hbody k s with h | h
        · rw [hb] at h
          exact .inl h
        · rw [hb] at h
          right
          rw [← h]
          rfl
      | ok s' =>
        rcases hbody k s with h | h
        · rw [hb] at h
          cases h
        · rw [hb] at h
          rw [← h]
          exact ih (k + 1) s'

lemma whileLoop_view {body : σ → Except ε σ} {body' : τ → Except ε τ}
    (hguard : ∀ s, guard s = .error fault ∨ guard s = guard' (view s))
    (hbody : ∀ s, body s = .error fault ∨ (body s).map view = body' (view s))
    (fuel : Nat) (s : σ) : whileLoop stuck guard body fuel s = .error fault ∨
      (whileLoop stuck guard body fuel s).map view =
        whileLoop stuck guard' body' fuel (view s) := by
  induction fuel generalizing s with
  | zero =>
    unfold whileLoop
    rcases hguard s with h | h
    · rw [h]
      exact .inl rfl
    · rw [← h]
      right
      rcases guard s with e | b
      · rfl
      · cases b <;> rfl
  | succ fuel ih =>
    unfold whileLoop
    rcases hguard s with h | h
    · rw [h]
      exact .inl rfl
    · rw [← h]
      rcases guard s with e | b
      · exact .inr rfl
      · cases b with
        | false => exact .inr rfl
        | true =>
          dsimp only
          rcases hbody s with hb | hb
          · rw [hb]
            exact .inl rfl
          · rw [← hb]
            cases body s with
            | error e => exact .inr rfl
            | ok s' => exact ih s'

lemma loopNest_view (hguard : ∀ s, guard s = .error fault ∨ guard s = guard' (view s))
    (hlive : ∀ s, live s = live' (view s))
    (hbody : ∀ k s, body k s = .error fault ∨ (body k s).map view = body' k (view s))
    (n fuel : Nat) (s : σ) : loopNest stuck guard live body n fuel s = .error fault ∨
      (loopNest stuck guard live body n fuel s).map view =
        loopNest stuck guard' live' body' n fuel (view s) :=
  whileLoop_view hguard (forLoop_view hlive hbody n 0) fuel s

end View

end Lib
