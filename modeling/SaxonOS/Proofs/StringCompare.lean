import SaxonOS.Proofs.Strings

/-!
# Comparisons that do not see the end

`strcmp` compares nothing. `strncmp` compares as it should as long as some characters differ, and
does not stop at the NUL of equal strings.
-/

namespace SaxonOS.Proofs
open Lib

/-- The value of a `char`. -/
def signed (c : UInt8) : Int := c.toInt8.toInt

/-- The character at `i`, the NUL behind the last one. -/
def charAt (s : List UInt8) (i : Nat) : UInt8 := s.getD i 0

/-- The strings differ at `i`, and nowhere before. -/
def FirstDiffer (s t : List UInt8) (i : Nat) : Prop :=
  charAt s i ≠ charAt t i ∧ ∀ j < i, charAt s j = charAt t j

/-- `v` is 0 for equal strings, and else has the sign of the first pair that differs. -/
structure Compares (s t : List UInt8) (v : Int) : Prop where
  zero : v = 0 ↔ s = t
  sign : ∀ i, FirstDiffer s t i → v.sign = (signed (charAt s i) - signed (charAt t i)).sign

/-- The difference of the first pair that differs. -/
def difference : List UInt8 → List UInt8 → Int
  | [], [] => 0
  | [], y :: _ => signed 0 - signed y
  | x :: _, [] => signed x - signed 0
  | x :: xs, y :: ys => if x ≠ y then signed x - signed y else difference xs ys

lemma firstDiffer_head {s t : List UInt8} {i : Nat} (h : FirstDiffer s t i)
    (hne : charAt s 0 ≠ charAt t 0) : i = 0 := by
  by_contra hi
  exact hne (h.2 0 (Nat.pos_of_ne_zero hi))

lemma firstDiffer_tail {xs ys : List UInt8} {x : UInt8} {i : Nat}
    (h : FirstDiffer (x :: xs) (x :: ys) i) : ∃ j, i = j + 1 ∧ FirstDiffer xs ys j := by
  cases i with
  | zero => exact absurd rfl h.1
  | succ j => exact ⟨j, rfl, h.1, fun l hl => h.2 (l + 1) (Nat.succ_lt_succ hl)⟩

lemma compares_of_heads {s t : List UInt8} (hne : charAt s 0 ≠ charAt t 0) :
    Compares s t (signed (charAt s 0) - signed (charAt t 0)) := by
  refine ⟨iff_of_false (fun h => hne (signed_sub_eq_zero h)) ?_, fun i hi => ?_⟩
  · rintro rfl
    exact hne rfl
  · rw [firstDiffer_head hi hne]

/-- The difference is a comparison of strings without a NUL inside. -/
lemma compares_difference : ∀ {s t : List UInt8}, (∀ c ∈ s, c ≠ 0) → (∀ c ∈ t, c ≠ 0) →
    Compares s t (difference s t)
  | [], [], _, _ => ⟨by simp [difference], fun _ h => absurd rfl h.1⟩
  | [], y :: _, _, ht => compares_of_heads (ht y List.mem_cons_self).symm
  | x :: _, [], hs, _ => compares_of_heads (hs x List.mem_cons_self)
  | x :: xs, y :: ys, hs, ht => by
    rw [difference]
    by_cases hne : x ≠ y
    · rw [if_pos hne]
      exact compares_of_heads hne
    · rw [if_neg hne]
      obtain rfl := not_not.mp hne
      have ih := compares_difference (fun c hc => hs c (List.mem_cons_of_mem x hc))
        (fun c hc => ht c (List.mem_cons_of_mem x hc))
      refine ⟨ih.zero.trans (by simp), fun i hi => ?_⟩
      obtain ⟨j, rfl, hj⟩ := firstDiffer_tail hi
      exact ih.sign j hj

variable {a b : CString} {xs ys : List UInt8} {n i : Nat}

lemma CString.bytes_drop (h : a.chars.drop i = xs) (hi : i ≤ a.chars.length) :
    a.bytes i = .ok (charAt xs 0) := by
  subst h
  by_cases hlt : i < a.chars.length
  · rw [CString.bytes_char hlt]
    simp [charAt, hlt]
  · obtain rfl : i = a.chars.length := by omega
    rw [CString.bytes_nul]
    simp [charAt]

lemma CString.bytes_past (a : CString) (hi : a.chars.length < i) :
    a.bytes i = .error .outOfBounds := by
  rw [CString.bytes, dif_neg (by omega), if_neg (by omega)]

lemma drop_succ_of_cons {l : List UInt8} {x : UInt8} (h : l.drop i = x :: xs) :
    l.drop (i + 1) = xs ∧ i + 1 ≤ l.length := by
  have hlt : i < l.length := by
    by_contra hge
    rw [List.drop_eq_nil_of_le (Nat.le_of_not_lt hge)] at h
    cases h
  exact ⟨by rw [← List.drop_drop, h, List.drop_one, List.tail_cons], hlt⟩

/-- One turn, with the strings from there on. -/
lemma strncmpFrom_turn (hxs : a.chars.drop i = xs) (hi : i ≤ a.chars.length)
    (hys : b.chars.drop i = ys) (hi' : i ≤ b.chars.length) (n : Nat) :
    strncmpFrom a.bytes b.bytes (n + 1) i =
      if charAt xs 0 ≠ charAt ys 0 then .ok (signed (charAt xs 0) - signed (charAt ys 0))
      else strncmpFrom a.bytes b.bytes n (i + 1) := by
  rw [strncmpFrom, CString.bytes_drop hxs hi, CString.bytes_drop hys hi']
  rfl

/-- From a position on where the strings have agreed so far. -/
lemma strncmpFrom_iff (hxs : a.chars.drop i = xs) (hi : i ≤ a.chars.length)
    (hys : b.chars.drop i = ys) (hi' : i ≤ b.chars.length) :
    strncmpFrom a.bytes b.bytes n i = .ok (difference (xs.take n) (ys.take n)) ↔
      (xs = ys → n ≤ xs.length + 1) := by
  induction n generalizing i xs ys with
  | zero => exact iff_of_true rfl fun _ => Nat.zero_le _
  | succ n ih =>
    rw [strncmpFrom_turn hxs hi hys hi']
    cases xs with
    | nil =>
      cases ys with
      | nil =>
        have hlen : a.chars.length = i := by
          have hle := List.drop_eq_nil_iff.mp hxs
          omega
        rw [if_neg (not_not.mpr rfl)]
        cases n with
        | zero => exact iff_of_true rfl fun _ => Nat.le_refl 1
        | succ n =>
          rw [strncmpFrom, CString.bytes_past a (by omega)]
          refine iff_of_false (fun h => ?_) fun h => ?_
          · cases h
          · have hn := h rfl
            rw [List.length_nil] at hn
            omega
      | cons y ys =>
        have hy : y ≠ 0 := b.noNul y (List.mem_of_mem_drop (hys ▸ List.mem_cons_self))
        rw [if_pos (show charAt [] 0 ≠ charAt (y :: ys) 0 from hy.symm)]
        exact iff_of_true rfl fun h => absurd h.symm (List.cons_ne_nil y ys)
    | cons x xs =>
      cases ys with
      | nil =>
        have hx : x ≠ 0 := a.noNul x (List.mem_of_mem_drop (hxs ▸ List.mem_cons_self))
        rw [if_pos (show charAt (x :: xs) 0 ≠ charAt [] 0 from hx)]
        exact iff_of_true rfl fun h => absurd h (List.cons_ne_nil x xs)
      | cons y ys =>
        obtain ⟨hxs', hlen⟩ := drop_succ_of_cons hxs
        obtain ⟨hys', hlen'⟩ := drop_succ_of_cons hys
        rw [List.take_succ_cons, List.take_succ_cons, difference]
        change (if x ≠ y then Except.ok (signed x - signed y) else _) = _ ↔ _
        by_cases hne : x ≠ y
        · rw [if_pos hne, if_pos hne]
          refine iff_of_true rfl fun h => ?_
          exact absurd (List.cons.inj h).1 hne
        · obtain rfl := not_not.mp hne
          rw [if_neg hne, if_neg hne, ih hxs' hlen hys' hlen', List.length_cons]
          simp

/-- The result of `strcmp` is 0 exactly for equal strings and has the sign of the first pair that
differs, and no byte behind a NUL is read. -/
def StrcmpRight (a b : CString) : Prop :=
  ∃ v, strcmp a.bytes b.bytes = .ok v ∧ Compares a.chars b.chars v

/-- The result of `strncmp` is that of `strcmp`, as it should be, for the strings cut after `n`
characters, and no byte behind a NUL is read. -/
def StrncmpRight (a b : CString) (n : UInt32) : Prop :=
  ∃ v, strncmp a.bytes b.bytes n = .ok v ∧
    v = difference (a.chars.take n.toNat) (b.chars.take n.toNat) ∧
    Compares (a.chars.take n.toNat) (b.chars.take n.toNat) v

/-- `strcmp` is right exactly for equal strings, and `strncmp` exactly where some characters of the
strings differ or it has no more to compare than their characters and the NUL. -/
theorem comparisons_right_iff (a b : CString) (n : UInt32) :
    (StrcmpRight a b ↔ a.chars = b.chars) ∧
    (StrncmpRight a b n ↔ (a.chars = b.chars → n.toNat ≤ a.chars.length + 1)) := by
  constructor
  · unfold StrcmpRight
    rw [strcmp_eq]
    constructor
    · rintro ⟨v, hv, hc⟩
      exact hc.zero.mp (Except.ok.inj hv).symm
    · intro h
      have hc := compares_difference a.noNul b.noNul
      rw [hc.zero.mpr h] at hc
      exact ⟨0, rfl, hc⟩
  · have hiff := strncmpFrom_iff (a := a) (b := b) (n := n.toNat) (i := 0) rfl (Nat.zero_le _) rfl
      (Nat.zero_le _)
    have hc : Compares (a.chars.take n.toNat) (b.chars.take n.toNat) _ :=
      compares_difference (fun c hc => a.noNul c (List.mem_of_mem_take hc))
        (fun c hc => b.noNul c (List.mem_of_mem_take hc))
    refine Iff.trans ⟨?_, fun h => ⟨_, h, rfl, hc⟩⟩ hiff
    rintro ⟨v, hv, rfl, -⟩
    exact hv

/-- The strings "ab" and "ac" are equal for `strcmp`, and `strncmp` reads on behind the NUL of
"ab" and "ab". -/
theorem comparisons_wrong :
    strcmp (CString.bytes ⟨[0x61, 0x62], by simp⟩) (CString.bytes ⟨[0x61, 0x63], by simp⟩) =
      .ok 0 ∧
    ¬Compares [0x61, 0x62] [0x61, 0x63] 0 ∧
    strncmp (CString.bytes ⟨[0x61, 0x62], by simp⟩) (CString.bytes ⟨[0x61, 0x62], by simp⟩) 4 =
      .error .outOfBounds := by
  refine ⟨strcmp_eq _ _, fun h => ?_, by decide⟩
  exact absurd (h.zero.mp rfl) (by decide)

end SaxonOS.Proofs
