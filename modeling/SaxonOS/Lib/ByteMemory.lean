import Mathlib.Algebra.Group.Nat.Defs
import Mathlib.Logic.Function.Basic

/-!
# Byte-addressed memory with 32-bit little-endian words

Addresses are 32-bit and wrap. A word access touches the four bytes from its address
on; accesses to disjoint byte ranges do not interfere.
-/

namespace Lib

/-- The content of a 32-bit address space. -/
abbrev Mem := UInt32 → UInt8

def read32 (m : Mem) (a : UInt32) : UInt32 :=
  UInt32.ofNat ((m a).toNat + 256 * (m (a + 1)).toNat + 65536 * (m (a + 2)).toNat +
    16777216 * (m (a + 3)).toNat)

def write8 (m : Mem) (a : UInt32) (v : UInt8) : Mem :=
  Function.update m a v

def write32 (m : Mem) (a v : UInt32) : Mem :=
  write8 (write8 (write8 (write8 m a (UInt8.ofNat v.toNat))
    (a + 1) (UInt8.ofNat (v.toNat / 256))) (a + 2) (UInt8.ofNat (v.toNat / 65536)))
    (a + 3) (UInt8.ofNat (v.toNat / 16777216))

lemma write8_same (m : Mem) (a : UInt32) (v : UInt8) : write8 m a v a = v := by
  simp [write8]

lemma write8_of_ne (m : Mem) {a x : UInt32} (v : UInt8) (h : x ≠ a) :
    write8 m a v x = m x := by
  simp [write8, h]

lemma write32_of_ne (m : Mem) {a x : UInt32} (v : UInt32) (h0 : x ≠ a) (h1 : x ≠ a + 1)
    (h2 : x ≠ a + 2) (h3 : x ≠ a + 3) : write32 m a v x = m x := by
  simp [write32, write8, h0, h1, h2, h3]

lemma write32_congr_at {m m' : Mem} {x : UInt32} (h : m' x = m x) (a v : UInt32) :
    write32 m' a v x = write32 m a v x := by
  simp [write32, write8, Function.update, h]

lemma read32_congr {m m' : Mem} {a : UInt32} (h0 : m' a = m a) (h1 : m' (a + 1) = m (a + 1))
    (h2 : m' (a + 2) = m (a + 2)) (h3 : m' (a + 3) = m (a + 3)) :
    read32 m' a = read32 m a := by
  simp only [read32, h0, h1, h2, h3]

lemma write32_offset (m : Mem) (a v : UInt32) {i j : UInt32}
    (hd : ∀ l ∈ ([0, 1, 2, 3] : List UInt32), j ≠ i + l) :
    write32 m (a + i) v (a + j) = m (a + j) := by
  have hne : ∀ l ∈ ([0, 1, 2, 3] : List UInt32), a + j ≠ a + i + l := by
    intro l hl he
    rw [UInt32.add_assoc, UInt32.add_right_inj] at he
    exact hd l hl he
  refine write32_of_ne m v ?_ (hne 1 (by simp)) (hne 2 (by simp)) (hne 3 (by simp))
  simpa using hne 0 (by simp)

/-- Words at offsets four or more bytes apart from one address are independent. -/
lemma read32_write32_offset (m : Mem) (a v : UInt32) {i j : UInt32}
    (hd : ∀ k ∈ ([0, 1, 2, 3] : List UInt32), ∀ l ∈ ([0, 1, 2, 3] : List UInt32), j + k ≠ i + l) :
    read32 (write32 m (a + i) v) (a + j) = read32 m (a + j) := by
  have hb : ∀ k ∈ ([0, 1, 2, 3] : List UInt32),
      write32 m (a + i) v (a + j + k) = m (a + j + k) := by
    intro k hk
    rw [UInt32.add_assoc]
    exact write32_offset m a v (hd k hk)
  refine read32_congr ?_ (hb 1 (by simp)) (hb 2 (by simp)) (hb 3 (by simp))
  simpa using hb 0 (by simp)

lemma read32_write8_offset (m : Mem) (a : UInt32) (v : UInt8) {j : UInt32}
    (hd : ∀ k ∈ ([0, 1, 2, 3] : List UInt32), j + k ≠ 0) :
    read32 (write8 m a v) (a + j) = read32 m (a + j) := by
  have hb : ∀ k ∈ ([0, 1, 2, 3] : List UInt32), write8 m a v (a + j + k) = m (a + j + k) := by
    intro k hk
    apply write8_of_ne
    rw [UInt32.add_assoc]
    intro he
    exact hd k hk (UInt32.add_eq_left.mp he)
  refine read32_congr ?_ (hb 1 (by simp)) (hb 2 (by simp)) (hb 3 (by simp))
  simpa using hb 0 (by simp)

/-- The byte `x` is outside the range of `n` bytes from `a` on. -/
def Outside (x a : UInt32) (n : Nat) : Prop :=
  x.toNat < a.toNat ∨ a.toNat + n ≤ x.toNat

lemma toNat_ofNat_small {k : Nat} (hk : k < 2 ^ 32) : (UInt32.ofNat k).toNat = k :=
  UInt32.toNat_ofNat_of_lt' hk

lemma toNat_add_small {a : UInt32} {k : UInt32} (h : a.toNat + k.toNat < 2 ^ 32) :
    (a + k).toNat = a.toNat + k.toNat := by
  rw [UInt32.toNat_add, Nat.mod_eq_of_lt h]

lemma write32_outside (m : Mem) {a x : UInt32} (v : UInt32) (ha : a.toNat + 4 ≤ 2 ^ 32)
    (h : Outside x a 4) : write32 m a v x = m x := by
  have hne : ∀ k : UInt32, k.toNat < 4 → x ≠ a + k := by
    intro k hk he
    have hk' := toNat_add_small (a := a) (k := k) (by omega)
    rw [← he] at hk'
    unfold Outside at h
    omega
  refine write32_of_ne m v ?_ (hne 1 (by decide)) (hne 2 (by decide)) (hne 3 (by decide))
  simpa using hne 0 (by decide)

lemma read32_write32_same (m : Mem) (a v : UInt32) : read32 (write32 m a v) a = v := by
  have h01 : a ≠ a + 1 := by simp
  have h02 : a ≠ a + 2 := by simp
  have h03 : a ≠ a + 3 := by simp
  have h12 : a + 1 ≠ a + 2 := by simp
  have h13 : a + 1 ≠ a + 3 := by simp
  have h23 : a + 2 ≠ a + 3 := by simp
  have hv := v.toNat_lt
  apply UInt32.toNat_inj.mp
  simp [read32, write32, write8, h01, h02, h03, h12, h13, h23]
  omega

lemma toNat_read32 (m : Mem) (a : UInt32) :
    (read32 m a).toNat = (m a).toNat + 256 * (m (a + 1)).toNat + 65536 * (m (a + 2)).toNat +
      16777216 * (m (a + 3)).toNat := by
  have h0 := (m a).toNat_lt
  have h1 := (m (a + 1)).toNat_lt
  have h2 := (m (a + 2)).toNat_lt
  have h3 := (m (a + 3)).toNat_lt
  exact toNat_ofNat_small (by omega)

/-- A word written `t` bytes above another one replaces its upper bytes. -/
lemma read32_write32_above (m : Mem) (a v : UInt32) {t : Nat} (h0 : 0 < t) (h4 : t < 4) :
    (read32 (write32 m (a + UInt32.ofNat t) v) a).toNat =
      (read32 m a).toNat % 256 ^ t + 256 ^ t * (v.toNat % 256 ^ (4 - t)) := by
  have hv := v.toNat_lt
  have h0 := (m a).toNat_lt
  have h1 := (m (a + 1)).toNat_lt
  have h2 := (m (a + 2)).toNat_lt
  rw [toNat_read32, toNat_read32]
  obtain rfl | rfl | rfl : t = 1 ∨ t = 2 ∨ t = 3 := by omega
  · simp [write32, write8, Function.update, UInt32.add_assoc]
    omega
  · simp [write32, write8, Function.update, UInt32.add_assoc]
    omega
  · simp [write32, write8, Function.update, UInt32.add_assoc]
    omega

/-- A word written `t` bytes below another one replaces its lower bytes. -/
lemma read32_write32_below (m : Mem) (a v : UInt32) {t : Nat} (h0 : 0 < t) (h4 : t < 4) :
    (read32 (write32 m a v) (a + UInt32.ofNat t)).toNat = v.toNat / 256 ^ t +
      256 ^ (4 - t) * ((read32 m (a + UInt32.ofNat t)).toNat / 256 ^ (4 - t)) := by
  have hv := v.toNat_lt
  have h0 := (m (a + UInt32.ofNat t)).toNat_lt
  have h1 := (m (a + UInt32.ofNat t + 1)).toNat_lt
  have h2 := (m (a + UInt32.ofNat t + 2)).toNat_lt
  rw [toNat_read32, toNat_read32]
  obtain rfl | rfl | rfl : t = 1 ∨ t = 2 ∨ t = 3 := by omega
  · simp [write32, write8, Function.update, UInt32.add_assoc] at h0 h1 h2 ⊢
    omega
  · simp [write32, write8, Function.update, UInt32.add_assoc] at h0 h1 h2 ⊢
    omega
  · simp [write32, write8, Function.update, UInt32.add_assoc] at h0 h1 h2 ⊢
    omega
end Lib
