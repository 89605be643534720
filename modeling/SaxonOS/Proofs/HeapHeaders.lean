import SaxonOS.Heap

namespace SaxonOS.Proofs
open Lib

/-- Two block headers that do not overlap and do not wrap around. -/
structure HeaderApart (a b : UInt32) : Prop where
  left : a.toNat + 16 ≤ 2 ^ 32
  right : b.toNat + 16 ≤ 2 ^ 32
  apart : a.toNat + 16 ≤ b.toNat ∨ b.toNat + 16 ≤ a.toNat

lemma HeaderApart.symm {a b : UInt32} (h : HeaderApart a b) : HeaderApart b a :=
  ⟨h.right, h.left, h.apart.symm⟩

lemma toNat_offset {a k : UInt32} (ha : a.toNat + 16 ≤ 2 ^ 32) (hk : k.toNat < 16) :
    (a + k).toNat = a.toNat + k.toNat :=
  toNat_add_small (by omega)

section Outside

variable (m : Mem) {a x : UInt32} (ha : a.toNat + 16 ≤ 2 ^ 32) (hx : Outside x a 16)
include ha hx

lemma setUsed_outside (v : UInt8) : setUsed m a v x = m x := by
  apply write8_of_ne
  rintro rfl
  unfold Outside at hx
  omega

lemma write32_field_outside {k : UInt32} (hk : k.toNat ≤ 12) (v : UInt32) :
    write32 m (a + k) v x = m x := by
  have hak := toNat_offset ha (k := k) (by omega)
  apply write32_outside m v (by omega)
  unfold Outside at hx ⊢
  omega

lemma setPrev_outside (v : UInt32) : setPrev m a v x = m x :=
  write32_field_outside m ha hx (by decide) v

lemma setNext_outside (v : UInt32) : setNext m a v x = m x :=
  write32_field_outside m ha hx (by decide) v

lemma setSize_outside (v : UInt32) : setSize m a v x = m x :=
  write32_field_outside m ha hx (by decide) v

end Outside

/-- A word is determined by its four bytes. -/
lemma read32_range_congr {m m' : Mem} {b k : UInt32} (hbk : b.toNat + k.toNat + 4 ≤ 2 ^ 32)
    (h : ∀ x, b.toNat + k.toNat ≤ x.toNat → x.toNat < b.toNat + k.toNat + 4 → m' x = m x) :
    read32 m' (b + k) = read32 m (b + k) := by
  have hn : (b + k).toNat = b.toNat + k.toNat := toNat_add_small (by omega)
  have hbyte : ∀ l : UInt32, l.toNat < 4 → m' (b + k + l) = m (b + k + l) := by
    intro l hl
    have hbl : (b + k + l).toNat = b.toNat + k.toNat + l.toNat := by
      rw [toNat_add_small (by omega), hn]
    exact h _ (by omega) (by omega)
  refine read32_congr ?_ (hbyte 1 (by decide)) (hbyte 2 (by decide)) (hbyte 3 (by decide))
  simpa using hbyte 0 (by decide)

/-- A word at offset `k` of a header. -/
lemma read32_field_congr {m m' : Mem} {b k : UInt32} (hb : b.toNat + 16 ≤ 2 ^ 32)
    (hk : k.toNat ≤ 12)
    (h : ∀ x, b.toNat + k.toNat ≤ x.toNat → x.toNat < b.toNat + k.toNat + 4 → m' x = m x) :
    read32 m' (b + k) = read32 m (b + k) :=
  read32_range_congr (by omega) h

/-- A header is determined by its sixteen bytes. -/
lemma memBlock_congr {m m' : Mem} {b : UInt32} (hb : b.toNat + 16 ≤ 2 ^ 32)
    (h : ∀ x, b.toNat ≤ x.toNat → x.toNat < b.toNat + 16 → m' x = m x) :
    memBlock m' b = memBlock m b := by
  have hfield : ∀ k : UInt32, k.toNat ≤ 12 → read32 m' (b + k) = read32 m (b + k) :=
    fun k hk => read32_field_congr hb hk (fun x _ _ => h x (by omega) (by omega))
  have hused : m' b = m b := h b (Nat.le_refl _) (by omega)
  simp only [memBlock, hused, hfield 4 (by decide), hfield 8 (by decide), hfield 12 (by decide)]

@[simp] lemma memBlock_setUsed_same (m : Mem) (a : UInt32) (v : UInt8) :
    memBlock (setUsed m a v) a = { memBlock m a with used := v } := by
  simp only [memBlock, setUsed, write8_same]
  rw [read32_write8_offset m a v (j := 4) (by simp),
    read32_write8_offset m a v (j := 8) (by simp), read32_write8_offset m a v (j := 12) (by simp)]

lemma write32_field_used (m : Mem) (a v : UInt32) {k : UInt32}
    (hk : ∀ l ∈ ([0, 1, 2, 3] : List UInt32), 0 ≠ k + l) : write32 m (a + k) v a = m a := by
  simpa using write32_offset m a v (i := k) (j := 0) hk

@[simp] lemma memBlock_setPrev_same (m : Mem) (a v : UInt32) :
    memBlock (setPrev m a v) a = { memBlock m a with prev := v } := by
  simp only [memBlock, setPrev, read32_write32_same]
  rw [write32_field_used m a v (k := 4) (by simp),
    read32_write32_offset m a v (i := 4) (j := 8) (by simp),
    read32_write32_offset m a v (i := 4) (j := 12) (by simp)]

@[simp] lemma memBlock_setNext_same (m : Mem) (a v : UInt32) :
    memBlock (setNext m a v) a = { memBlock m a with next := v } := by
  simp only [memBlock, setNext, read32_write32_same]
  rw [write32_field_used m a v (k := 8) (by simp),
    read32_write32_offset m a v (i := 8) (j := 4) (by simp),
    read32_write32_offset m a v (i := 8) (j := 12) (by simp)]

@[simp] lemma memBlock_setSize_same (m : Mem) (a v : UInt32) :
    memBlock (setSize m a v) a = { memBlock m a with size := v } := by
  simp only [memBlock, setSize, read32_write32_same]
  rw [write32_field_used m a v (k := 12) (by simp),
    read32_write32_offset m a v (i := 12) (j := 4) (by simp),
    read32_write32_offset m a v (i := 12) (j := 8) (by simp)]

/-- A change confined to the header at `a` leaves every header apart from it alone. -/
lemma memBlock_apart {m m' : Mem} {a b : UInt32} (h : HeaderApart a b)
    (hm : ∀ x, Outside x a 16 → m' x = m x) : memBlock m' b = memBlock m b := by
  apply memBlock_congr h.right
  intro x hlo hhi
  apply hm
  have := h.apart
  unfold Outside
  omega

@[simp] lemma memBlock_setUsed_apart (m : Mem) {a b : UInt32} (v : UInt8) (h : HeaderApart a b) :
    memBlock (setUsed m a v) b = memBlock m b :=
  memBlock_apart h (fun _ hx => setUsed_outside m h.left hx v)

@[simp] lemma memBlock_setPrev_apart (m : Mem) {a b : UInt32} (v : UInt32) (h : HeaderApart a b) :
    memBlock (setPrev m a v) b = memBlock m b :=
  memBlock_apart h (fun _ hx => setPrev_outside m h.left hx v)

@[simp] lemma memBlock_setNext_apart (m : Mem) {a b : UInt32} (v : UInt32) (h : HeaderApart a b) :
    memBlock (setNext m a v) b = memBlock m b :=
  memBlock_apart h (fun _ hx => setNext_outside m h.left hx v)

@[simp] lemma memBlock_setSize_apart (m : Mem) {a b : UInt32} (v : UInt32) (h : HeaderApart a b) :
    memBlock (setSize m a v) b = memBlock m b :=
  memBlock_apart h (fun _ hx => setSize_outside m h.left hx v)

end SaxonOS.Proofs
