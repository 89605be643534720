import SaxonOS.Proofs.HeapBlocks

/-!
# The search of `kmalloc_alligned`

`Suits` is the test the loop makes at a block, with its 32-bit comparisons. The loop passes
over the blocks before the first one that suits.
-/

namespace SaxonOS.Proofs
open Lib

variable {m m' : Mem} {p : UInt32} {bs pre post : List Extent} {b : Extent} {lo hi : Nat}

lemma toNat_pos_of_ne_zero {a : UInt32} (h0 : a ≠ 0) : 0 < a.toNat := by
  have hne : a.toNat ≠ (0 : UInt32).toNat := fun he => h0 (UInt32.toNat_inj.mp he)
  have h00 : (0 : UInt32).toNat = 0 := rfl
  omega

/-- The bytes from the payload of `b` up to the next aligned address. -/
def alignGap (al : UInt32) (b : Extent) : Nat :=
  ((b.addr + 15) / al.toNat + 1) * al.toNat - (b.addr + 16)

section Gap

variable {al : UInt32}

lemma alignGap_add (h0 : al ≠ 0) (b : Extent) :
    b.addr + 16 + alignGap al b = ((b.addr + 15) / al.toNat + 1) * al.toNat := by
  have hpos : 0 < al.toNat := toNat_pos_of_ne_zero h0
  have hdiv := Nat.lt_div_mul_add hpos (a := b.addr + 15)
  unfold alignGap
  rw [Nat.add_one_mul]
  omega

lemma alignGap_mod (h0 : al ≠ 0) (b : Extent) : (b.addr + 16 + alignGap al b) % al.toNat = 0 := by
  rw [alignGap_add h0]
  exact Nat.mul_mod_left _ _

lemma alignGap_lt (h0 : al ≠ 0) (b : Extent) : alignGap al b < al.toNat := by
  have hpos : 0 < al.toNat := toNat_pos_of_ne_zero h0
  have hdiv := Nat.div_mul_le_self (b.addr + 15) al.toNat
  have hadd := alignGap_add h0 b
  rw [Nat.add_one_mul] at hadd
  omega

lemma alignGap_eq_zero_iff (h0 : al ≠ 0) (b : Extent) :
    alignGap al b = 0 ↔ (b.addr + 16) % al.toNat = 0 := by
  have hmod := alignGap_mod h0 b
  have hlt := alignGap_lt h0 b
  constructor
  · intro hz
    rw [hz] at hmod
    exact hmod
  · intro hz
    rw [Nat.add_mod, hz, Nat.zero_add, Nat.mod_mod, Nat.mod_eq_of_lt hlt] at hmod
    exact hmod

/-- The aligned address fits or is the first one past the address space. -/
lemma alignGap_le (h0 : al ≠ 0) (hal : al.toNat ∣ 2 ^ 32) (hb : b.addr + 16 ≤ 2 ^ 32) :
    b.addr + 16 + alignGap al b ≤ 2 ^ 32 := by
  have hpos : 0 < al.toNat := toNat_pos_of_ne_zero h0
  rw [alignGap_add h0]
  have hlt : (b.addr + 15) / al.toNat < 2 ^ 32 / al.toNat := by
    apply (Nat.div_lt_iff_lt_mul hpos).mpr
    rw [Nat.div_mul_cancel hal]
    omega
  calc ((b.addr + 15) / al.toNat + 1) * al.toNat ≤ 2 ^ 32 / al.toNat * al.toNat :=
        Nat.mul_le_mul_right _ hlt
    _ = 2 ^ 32 := Nat.div_mul_cancel hal

/-- The rounding of `kmalloc_alligned`. -/
lemma ceilingDiv_eq (h0 : al ≠ 0) (hb : b.addr + 16 < 2 ^ 32) :
    ceilingDiv (UInt32.ofNat b.addr + sizeofMemBlock) al * al =
      UInt32.ofNat (b.addr + 16 + alignGap al b) := by
  have hpos : 0 < al.toNat := toNat_pos_of_ne_zero h0
  have h15 : UInt32.ofNat b.addr + sizeofMemBlock - 1 = UInt32.ofNat (b.addr + 15) := by
    have h16 : UInt32.ofNat b.addr + sizeofMemBlock = UInt32.ofNat (b.addr + 15) + 1 := by
      rw [UInt32.ofNat_add, UInt32.add_assoc]
      rfl
    rw [h16, UInt32.add_sub_cancel]
  have hdiv : UInt32.ofNat (b.addr + 15) / al = UInt32.ofNat ((b.addr + 15) / al.toNat) := by
    apply UInt32.toNat_inj.mp
    have hle := Nat.div_le_self (b.addr + 15) al.toNat
    rw [UInt32.toNat_div, toNat_ofNat_small (by omega), toNat_ofNat_small (by omega)]
  rw [ceilingDiv, h15, hdiv, alignGap_add h0, UInt32.ofNat_mul, UInt32.ofNat_add,
    UInt32.ofNat_toNat, UInt32.add_comm 1]
  rfl

lemma misaligned_iff (h0 : al ≠ 0) (hb : b.addr + 16 < 2 ^ 32) :
    (UInt32.ofNat b.addr + sizeofMemBlock) % al ≠ 0 ↔ alignGap al b ≠ 0 := by
  have h16 : sizeofMemBlock.toNat = 16 := rfl
  have hz : (0 : UInt32).toNat = 0 := rfl
  rw [ne_eq, ne_eq, alignGap_eq_zero_iff h0, ← UInt32.toNat_inj, UInt32.toNat_mod, hz,
    toNat_add_small, toNat_ofNat_small (by omega), h16]
  rw [toNat_ofNat_small (by omega), h16]
  exact hb

end Gap

/-- The block `b` suits a call of `kmalloc_alligned`: it is free and passes the comparisons of
its branch, which are made in 32-bit arithmetic. -/
def Suits (size al : UInt32) (b : Extent) : Prop :=
  b.used = false ∧
    if alignGap al b = 0 then size.toNat < b.size
    else UInt32.ofNat (b.addr + 16 + alignGap al b) + size ≤ UInt32.ofNat (b.addr + 16 + b.size) ∧
      size + sizeofMemBlock ≤
        UInt32.ofNat (b.addr + 16 + b.size) - UInt32.ofNat (b.addr + 16 + alignGap al b)

instance (size al : UInt32) (b : Extent) : Decidable (Suits size al b) :=
  inferInstanceAs (Decidable (_ ∧ _))

section Search

variable {size al : UInt32} {fuel : Nat}

/-- A loop over the list that goes on at every block of `pre` comes to the blocks behind them. -/
lemma pass_blocks {β : Type*} {f : Nat → UInt32 → β} {Skip : Extent → Prop}
    (hturn : ∀ {p c post fuel}, Linked m p (c :: post) 0 → UInt32.ofNat c.addr ≠ 0 →
      c.addr + 16 + c.size < 2 ^ 32 → Skip c →
      f (fuel + 1) (UInt32.ofNat c.addr) = f fuel (headAddr 0 post))
    (fuel : Nat) (hl : Linked m p (pre ++ post) 0) (ht : Tiles 16 lo (pre ++ post) hi)
    (hlo : 0 < lo) (hhi : hi < 2 ^ 32) (hpre : ∀ c ∈ pre, Skip c) :
    f (fuel + pre.length) (headAddr 0 (pre ++ post)) = f fuel (headAddr 0 post) := by
  induction pre generalizing p lo with
  | nil => rfl
  | cons c pre ih =>
    have hc : c ∈ c :: pre ++ post := by simp
    have hc0 := ofNat_addr_ne_zero ht hlo hhi hc
    have hcb := size_lt_of_tiles ht hhi hc
    rw [List.length_cons, ← Nat.add_assoc, List.cons_append, headAddr,
      hturn hl hc0 hcb (hpre c (by simp))]
    exact ih hl.2 ht.2 (by omega) (fun d hd => hpre d (by simp [hd]))

/-- The loop body of `kmalloc_alligned` at a block of the list. -/
lemma search_at (h0 : al ≠ 0) (hl : Linked m p (b :: post) 0) (hb0 : UInt32.ofNat b.addr ≠ 0)
    (hb : b.addr + 16 + b.size < 2 ^ 32) :
    kmallocAllignedSearch size al (fuel + 1) m (UInt32.ofNat b.addr) =
      if Suits size al b then
        if alignGap al b = 0 then .ok (m, UInt32.ofNat b.addr)
        else
          let (m', r) := moveHeader m (UInt32.ofNat b.addr)
            (UInt32.ofNat (b.addr + 16 + alignGap al b))
          if r ≠ 0 then .ok (m', r)
          else kmallocAllignedSearch size al fuel m' (memBlock m' r).next
      else kmallocAllignedSearch size al fuel m (headAddr 0 post) := by
  have htop : UInt32.ofNat b.addr + sizeofMemBlock + UInt32.ofNat b.size =
      UInt32.ofNat (b.addr + 16 + b.size) := by
    rw [UInt32.ofNat_add, UInt32.ofNat_add]
    rfl
  have hgt : UInt32.ofNat b.size > size ↔ size.toNat < b.size := by
    rw [gt_iff_lt, UInt32.lt_iff_toNat_lt, toNat_ofNat_small (by omega)]
  have hmis := misaligned_iff (b := b) h0 (by omega)
  have hceil := ceilingDiv_eq (b := b) h0 (by omega)
  rw [kmallocAllignedSearch, if_neg hb0]
  simp only [hl.1, hmis, hceil, htop, hgt, Suits]
  cases hu : b.used with
  | true => simp
  | false =>
    by_cases hg : alignGap al b = 0
    · simp [hg]
    · by_cases h1 : UInt32.ofNat (b.addr + 16 + alignGap al b) + size >
        UInt32.ofNat (b.addr + 16 + b.size)
      · have h1' : ¬UInt32.ofNat (b.addr + 16 + alignGap al b) + size ≤
          UInt32.ofNat (b.addr + 16 + b.size) := UInt32.not_le.mpr h1
        simp only [hg, h1, h1', false_and, and_false, ne_eq, not_false_iff, if_true, if_false,
          Bool.false_eq_true]
      · have h1' := UInt32.not_lt.mp h1
        simp only [hg, h1, h1', true_and, ne_eq, not_false_iff, if_true, if_false, ge_iff_le,
          Bool.false_eq_true]

/-- The loop passes over blocks that do not suit. -/
lemma search_pass (h0 : al ≠ 0) (fuel : Nat) (hl : Linked m p (pre ++ post) 0)
    (ht : Tiles 16 lo (pre ++ post) hi) (hlo : 0 < lo) (hhi : hi < 2 ^ 32)
    (hpre : ∀ c ∈ pre, ¬Suits size al c) :
    kmallocAllignedSearch size al (fuel + pre.length) m (headAddr 0 (pre ++ post)) =
      kmallocAllignedSearch size al fuel m (headAddr 0 post) := by
  refine pass_blocks (f := fun fuel => kmallocAllignedSearch size al fuel m) ?_ fuel hl ht hlo hhi
    hpre
  intro p c post fuel hl hc0 hcb hc
  rw [search_at h0 hl hc0 hcb, if_neg hc]

lemma search_null (size al : UInt32) (hf : 0 < fuel) :
    kmallocAllignedSearch size al fuel m 0 = .ok (m, 0) := by
  obtain ⟨k, rfl⟩ := Nat.exists_eq_succ_of_ne_zero (Nat.ne_of_gt hf)
  rw [kmallocAllignedSearch, if_pos rfl]

/-- Without a suitable block the loop runs to the end of the list. -/
lemma search_none (h0 : al ≠ 0) (hl : Linked m p bs 0) (ht : Tiles 16 lo bs hi) (hlo : 0 < lo)
    (hhi : hi < 2 ^ 32) (hf : bs.length < fuel) (hbs : ∀ c ∈ bs, ¬Suits size al c) :
    kmallocAllignedSearch size al fuel m (headAddr 0 bs) = .ok (m, 0) := by
  have hfuel : fuel = (fuel - bs.length) + bs.length := by omega
  rw [← List.append_nil bs] at hl ht
  have hpass := search_pass h0 (fuel - bs.length) hl ht hlo hhi hbs
  rw [List.append_nil, ← hfuel] at hpass
  rw [hpass, headAddr]
  exact search_null size al (by omega)

/-- The loop stops at the first block that suits, unless the header it moved got lost. -/
lemma search_stop (h0 : al ≠ 0) (hl : Linked m p (pre ++ b :: post) 0)
    (ht : Tiles 16 lo (pre ++ b :: post) hi) (hlo : 0 < lo) (hhi : hi < 2 ^ 32)
    (hf : (pre ++ b :: post).length < fuel) (hpre : ∀ c ∈ pre, ¬Suits size al c)
    (hb : Suits size al b) :
    kmallocAllignedSearch size al fuel m (headAddr 0 (pre ++ b :: post)) =
      if alignGap al b = 0 then .ok (m, UInt32.ofNat b.addr)
      else
        let (m', r) := moveHeader m (UInt32.ofNat b.addr)
          (UInt32.ofNat (b.addr + 16 + alignGap al b))
        if r ≠ 0 then .ok (m', r)
        else kmallocAllignedSearch size al (fuel - pre.length - 1) m' (memBlock m' r).next := by
  rw [List.length_append, List.length_cons] at hf
  have hfuel : fuel = (fuel - pre.length - 1 + 1) + pre.length := by omega
  have hb0 := ofNat_addr_ne_zero ht hlo hhi (b := b) (by simp)
  have hbb := size_lt_of_tiles ht hhi (b := b) (by simp)
  have hpass := search_pass h0 (fuel - pre.length - 1 + 1) hl ht hlo hhi hpre
  rw [← hfuel] at hpass
  rw [hpass, headAddr, search_at h0 (linked_append.mp hl).2 hb0 hbb, if_pos hb]

/-- The loop body of `kmalloc` at a block of the list. -/
lemma byteSearch_at (hl : Linked m p (b :: post) 0) (hb0 : UInt32.ofNat b.addr ≠ 0)
    (hb : b.addr + 16 + b.size < 2 ^ 32) :
    kmallocSearch m size (fuel + 1) (UInt32.ofNat b.addr) =
      if b.used = false ∧ size.toNat < b.size then .ok (UInt32.ofNat b.addr)
      else kmallocSearch m size fuel (headAddr 0 post) := by
  have hgt : UInt32.ofNat b.size > size ↔ size.toNat < b.size := by
    rw [gt_iff_lt, UInt32.lt_iff_toNat_lt, toNat_ofNat_small (by omega)]
  rw [kmallocSearch, if_neg hb0]
  simp only [hl.1, hgt]
  cases b.used <;> simp

/-- The loop passes over blocks that are used or too small. -/
lemma byteSearch_pass (fuel : Nat) (hl : Linked m p (pre ++ post) 0)
    (ht : Tiles 16 lo (pre ++ post) hi) (hlo : 0 < lo) (hhi : hi < 2 ^ 32)
    (hpre : ∀ c ∈ pre, ¬(c.used = false ∧ size.toNat < c.size)) :
    kmallocSearch m size (fuel + pre.length) (headAddr 0 (pre ++ post)) =
      kmallocSearch m size fuel (headAddr 0 post) := by
  refine pass_blocks (f := kmallocSearch m size) ?_ fuel hl ht hlo hhi hpre
  intro p c post fuel hl hc0 hcb hc
  rw [byteSearch_at hl hc0 hcb, if_neg hc]

lemma byteSearch_none (size : UInt32) (hl : Linked m p bs 0) (ht : Tiles 16 lo bs hi) (hlo : 0 < lo)
    (hhi : hi < 2 ^ 32) (hf : bs.length < fuel)
    (hbs : ∀ c ∈ bs, ¬(c.used = false ∧ size.toNat < c.size)) :
    kmallocSearch m size fuel (headAddr 0 bs) = .ok 0 := by
  obtain ⟨k, rfl⟩ := Nat.exists_eq_add_of_lt hf
  rw [← List.append_nil bs] at hl ht
  have hpass := byteSearch_pass (k + 1) hl ht hlo hhi hbs
  rw [List.append_nil] at hpass
  have hfuel : bs.length + k + 1 = k + 1 + bs.length := by omega
  rw [hfuel, hpass, headAddr, kmallocSearch, if_pos rfl]

lemma byteSearch_stop (hl : Linked m p (pre ++ b :: post) 0)
    (ht : Tiles 16 lo (pre ++ b :: post) hi) (hlo : 0 < lo) (hhi : hi < 2 ^ 32)
    (hf : (pre ++ b :: post).length < fuel)
    (hpre : ∀ c ∈ pre, ¬(c.used = false ∧ size.toNat < c.size))
    (hb : b.used = false ∧ size.toNat < b.size) :
    kmallocSearch m size fuel (headAddr 0 (pre ++ b :: post)) = .ok (UInt32.ofNat b.addr) := by
  rw [List.length_append, List.length_cons] at hf
  have hfuel : fuel = (fuel - pre.length - 1 + 1) + pre.length := by omega
  have hb0 := ofNat_addr_ne_zero ht hlo hhi (b := b) (by simp)
  have hbb := size_lt_of_tiles ht hhi (b := b) (by simp)
  have hpass := byteSearch_pass (fuel - pre.length - 1 + 1) hl ht hlo hhi hpre
  rw [← hfuel] at hpass
  rw [hpass, headAddr, byteSearch_at (linked_append.mp hl).2 hb0 hbb, if_pos hb]

end Search

end SaxonOS.Proofs
