import SaxonOS.Common
import SaxonOS.Lib.Run

/-!
# Strings

`strlen` counts the characters before the NUL, and `strncmp` with a length that its first argument
has tests whether so many of its characters begin the second one.
-/

namespace SaxonOS.Proofs
open Lib

variable {s s1 s2 : Bytes} {a b : CString} {n i : Nat}

lemma CString.bytes_char (h : i < a.chars.length) : a.bytes i = .ok a.chars[i] := by
  rw [CString.bytes, dif_pos h]

lemma CString.bytes_nul (a : CString) : a.bytes a.chars.length = .ok 0 := by
  rw [CString.bytes, dif_neg (Nat.lt_irrefl _), if_pos rfl]

lemma strlenFrom_chars (a : CString) {fuel : Nat} (hi : i ≤ a.chars.length)
    (hf : a.chars.length < i + fuel) :
    strlenFrom a.bytes fuel i = .ok (UInt32.ofNat a.chars.length) := by
  induction fuel generalizing i with
  | zero => omega
  | succ fuel ih =>
    rw [strlenFrom]
    by_cases hlt : i < a.chars.length
    · rw [CString.bytes_char hlt]
      change (if a.chars[i] ≠ 0 then _ else _) = _
      rw [if_pos (a.noNul _ (List.getElem_mem hlt))]
      exact ih (by omega) (by omega)
    · obtain rfl : i = a.chars.length := by omega
      rw [CString.bytes_nul]
      rfl

lemma strlen_chars (a : CString) (h : a.chars.length < 2 ^ 32) :
    strlen a.bytes = .ok (UInt32.ofNat a.chars.length) :=
  strlenFrom_chars a (Nat.zero_le _) (by omega)

/-- The loop of `strcmp` starts with `i` at zero, where it ends. -/
lemma strcmp_eq (s1 s2 : Bytes) : strcmp s1 s2 = .ok 0 := by
  rw [strcmp, strcmpFrom.eq_def]
  exact if_neg (not_not.mpr rfl)

lemma signed_sub_eq_zero {x y : UInt8} (h : x.toInt8.toInt - y.toInt8.toInt = 0) : x = y := by
  have hxy : x.toInt8.toInt = y.toInt8.toInt := by omega
  have := congrArg Int8.toUInt8 (Int8.toInt_inj.mp hxy)
  simpa using this

/-- Up to its NUL a string can be read, and the NUL is none of its characters. -/
lemma CString.bytes_le (b : CString) (hi : i ≤ b.chars.length) :
    ∃ c, b.bytes i = .ok c ∧ ∀ x, x ≠ 0 → (x = c ↔ b.chars[i]? = some x) := by
  by_cases hlt : i < b.chars.length
  · refine ⟨b.chars[i], CString.bytes_char hlt, fun x _ => ?_⟩
    rw [List.getElem?_eq_getElem hlt, Option.some.injEq]
    exact eq_comm
  · obtain rfl : i = b.chars.length := by omega
    refine ⟨0, CString.bytes_nul b, fun x hx => iff_of_false hx ?_⟩
    rw [List.getElem?_eq_none (Nat.le_refl _)]
    exact nofun

/-- Comparing no more characters than the first string has tests whether they begin the second. -/
lemma strncmpFrom_take (a b : CString) {k : Nat} (hn : i + n = k) (hk : k ≤ a.chars.length)
    (heq : ∀ j (h : j < a.chars.length), j < i → b.chars[j]? = some a.chars[j]) :
    ∃ v, strncmpFrom a.bytes b.bytes n i = .ok v ∧ (v = 0 ↔ a.chars.take k <+: b.chars) := by
  induction n generalizing i with
  | zero =>
    refine ⟨0, rfl, iff_of_true rfl ?_⟩
    apply List.prefix_iff_getElem?.mpr
    intro j hj
    rw [List.length_take] at hj
    rw [List.getElem_take]
    exact heq j (by omega) (by omega)
  | succ n ih =>
    have hi : i < a.chars.length := by omega
    have hne0 := a.noNul _ (List.getElem_mem hi)
    have hib : i ≤ b.chars.length := by
      by_contra hlt
      have := heq b.chars.length (by omega) (by omega)
      rw [List.getElem?_eq_none (Nat.le_refl _)] at this
      cases this
    obtain ⟨c, hc, hchar⟩ := CString.bytes_le b hib
    rw [strncmpFrom, CString.bytes_char hi, hc]
    change ∃ v, (if a.chars[i] ≠ c then _ else _) = _ ∧ _
    by_cases hac : a.chars[i] = c
    · rw [if_neg (not_not.mpr hac)]
      apply ih (by omega)
      intro j hj hji
      by_cases hlt : j < i
      · exact heq j hj hlt
      · obtain rfl : j = i := by omega
        exact (hchar _ hne0).mp hac
    · rw [if_pos hac]
      refine ⟨_, rfl, iff_of_false (fun hv => hac (signed_sub_eq_zero hv)) fun hpre => hac ?_⟩
      have hit : i < (a.chars.take k).length := by
        rw [List.length_take]
        omega
      have hget := List.prefix_iff_getElem?.mp hpre i hit
      rw [List.getElem_take] at hget
      exact (hchar _ hne0).mpr hget

lemma strncmp_take (a b : CString) (len : UInt32) (hlen : len.toNat ≤ a.chars.length) :
    ∃ v, strncmp a.bytes b.bytes len = .ok v ∧ (v = 0 ↔ a.chars.take len.toNat <+: b.chars) :=
  strncmpFrom_take a b (by omega) hlen fun _ _ h => absurd h (Nat.not_lt_zero _)

/-- Over characters that can be read `strncmp` tells whether they are the same. -/
lemma strncmpFrom_chars {s1 s2 : Bytes} {f g : Nat → UInt8} {n i : Nat}
    (h1 : ∀ j < i + n, s1 j = .ok (f j)) (h2 : ∀ j < i + n, s2 j = .ok (g j)) :
    ∃ v, strncmpFrom s1 s2 n i = .ok v ∧ (v = 0 ↔ ∀ j < i + n, i ≤ j → f j = g j) := by
  induction n generalizing i with
  | zero => exact ⟨0, rfl, iff_of_true rfl fun j hj hle => by omega⟩
  | succ n ih =>
    simp only [strncmpFrom, h1 i (by omega), h2 i (by omega), bind, Except.bind]
    by_cases hne : f i ≠ g i
    · rw [if_pos hne]
      refine ⟨_, rfl, iff_of_false ?_ ?_⟩
      · exact fun hz => hne (signed_sub_eq_zero hz)
      · exact fun hall => hne (hall i (by omega) (Nat.le_refl i))
    · rw [if_neg hne]
      have hi : i + 1 + n = i + (n + 1) := by omega
      rw [← hi] at h1 h2
      obtain ⟨v, hv, hiff⟩ := ih h1 h2
      refine ⟨v, hv, hiff.trans ?_⟩
      rw [hi]
      constructor
      · intro hall j hj hle
        rcases Nat.eq_or_lt_of_le hle with rfl | hlt
        · exact not_not.mp hne
        · exact hall j hj hlt
      · exact fun hall j hj hle => hall j hj (by omega)

end SaxonOS.Proofs
