import SaxonOS.BlockDevice

/-!
# A block device as a flat byte array

`bdev_read` and `bdev_write` against the byte array behind the sectors. Both cut the range
into chunks of at most `BLOCK_SIZE` bytes and give the first one its full length also where
it starts inside a sector.
-/

namespace SaxonOS.Proofs
open SaxonOS

lemma blockSize_pos : 0 < blockSize := by decide

/-- The byte at the address `a` of a device. -/
def deviceByte (sectors : Sectors) (a : Nat) : UInt8 :=
  sectors (UInt32.ofNat (a / blockSize)) ⟨a % blockSize, Nat.mod_lt a blockSize_pos⟩

def deviceBytes (sectors : Sectors) (a count : Nat) : List UInt8 :=
  (List.range count).map fun j => deviceByte sectors (a + j)

lemma deviceBytes_zero (sectors : Sectors) (a : Nat) : deviceBytes sectors a 0 = [] := rfl

lemma deviceBytes_add (sectors : Sectors) (a m n : Nat) :
    deviceBytes sectors a (m + n) = deviceBytes sectors a m ++ deviceBytes sectors (a + m) n := by
  simp [deviceBytes, List.range_add, Function.comp_def, Nat.add_assoc]

lemma deviceByte_sector (sectors : Sectors) (block : UInt32) {i : Nat} (hi : i < blockSize) :
    deviceByte sectors (block.toNat * blockSize + i) = sectors block ⟨i, hi⟩ := by
  have hq : (block.toNat * blockSize + i) / blockSize = block.toNat := by
    rw [Nat.add_comm, Nat.add_mul_div_right _ _ blockSize_pos, Nat.div_eq_of_lt hi, Nat.zero_add]
  have hr : (block.toNat * blockSize + i) % blockSize = i := by
    rw [Nat.add_comm, Nat.add_mul_mod_self_right, Nat.mod_eq_of_lt hi]
  simp only [deviceByte, hq, hr, UInt32.ofNat_toNat]

/-- The device after `count` bytes of `src` have replaced those from the address `a` on. -/
def overwrite (sectors : Sectors) (src : Nat → UInt8) (a count : Nat) : Sectors := fun block i =>
  let x := block.toNat * blockSize + i.val
  if a ≤ x ∧ x < a + count then src (x - a) else sectors block i

lemma overwrite_zero (sectors : Sectors) (src : Nat → UInt8) (a : Nat) :
    overwrite sectors src a 0 = sectors := by
  funext block i
  exact if_neg (by omega)

lemma overwrite_add (sectors : Sectors) (src : Nat → UInt8) (a m n : Nat) :
    overwrite (overwrite sectors src a m) (fun j => src (m + j)) (a + m) n =
      overwrite sectors src a (m + n) := by
  funext block i
  simp only [overwrite]
  split_ifs with h₁ h₂ h₃ h₄
  · congr 1
    omega
  all_goals first | rfl | omega

lemma deviceByte_overwrite (sectors : Sectors) (src : Nat → UInt8) (a count : Nat) {x : Nat}
    (hx : x < 2 ^ 32 * blockSize) : deviceByte (overwrite sectors src a count) x =
      if a ≤ x ∧ x < a + count then src (x - a) else deviceByte sectors x := by
  have hq : (UInt32.ofNat (x / blockSize)).toNat = x / blockSize :=
    UInt32.toNat_ofNat_of_lt' (Nat.div_lt_of_lt_mul (by rwa [Nat.mul_comm] at hx))
  have hd : x / blockSize * blockSize + x % blockSize = x := Nat.div_add_mod' x blockSize
  simp only [deviceByte, overwrite, hq, hd]

lemma deviceBytes_overwrite (sectors : Sectors) (src : Nat → UInt8) (a count : Nat)
    (h : a + count ≤ 2 ^ 32 * blockSize) :
    deviceBytes (overwrite sectors src a count) a count = (List.range count).map src := by
  apply List.map_congr_left
  intro j hj
  rw [List.mem_range] at hj
  rw [deviceByte_overwrite sectors src a count (by omega), if_pos (by omega),
    Nat.add_sub_cancel_left]

lemma readChars_ok (payload : Payload) (chars ptr : Nat) (h : ptr + chars ≤ blockSize) :
    readChars payload chars ptr = .ok ((List.range chars).map fun j =>
      payload ⟨(ptr + j) % blockSize, Nat.mod_lt _ blockSize_pos⟩) := by
  induction chars generalizing ptr with
  | zero => rfl
  | succ chars ih =>
    have hp : ptr < blockSize := by omega
    have hm : ptr % blockSize = ptr := Nat.mod_eq_of_lt hp
    rw [readChars, dif_pos hp, ih (ptr + 1) (by omega), List.range_succ_eq_map]
    simp [bind, Except.bind, hm, Function.comp_def, Nat.add_assoc, Nat.add_comm 1]

lemma readChars_overrun (payload : Payload) (chars ptr : Nat) (hc : 0 < chars)
    (h : blockSize < ptr + chars) : readChars payload chars ptr = .error .outOfBounds := by
  induction chars generalizing ptr with
  | zero => omega
  | succ chars ih =>
    rw [readChars]
    split
    · rw [ih (ptr + 1) (by omega) (by omega)]
      rfl
    · rfl

lemma writeChars_ok (src : Nat → UInt8) (chars ptr i : Nat) (payload : Payload)
    (h : ptr + chars ≤ blockSize) :
    writeChars src chars ptr i payload = .ok fun b =>
      if ptr ≤ b.val ∧ b.val < ptr + chars then src (i + (b.val - ptr)) else payload b := by
  induction chars generalizing ptr i payload with
  | zero =>
    rw [writeChars]
    congr 1
    funext b
    rw [if_neg (by omega)]
  | succ chars ih =>
    rw [writeChars, dif_pos (by omega), ih (ptr + 1) (i + 1) _ (by omega)]
    congr 1
    funext b
    by_cases hb : b.val = ptr
    · have hb' : b = ⟨ptr, by omega⟩ := Fin.ext hb
      rw [if_neg (by omega), if_pos (by omega), hb', Function.update_self]
      simp
    · have hb' : b ≠ ⟨ptr, by omega⟩ := fun he => hb (congrArg Fin.val he)
      rw [Function.update_of_ne hb']
      by_cases hin : ptr + 1 ≤ b.val ∧ b.val < ptr + 1 + chars
      · rw [if_pos hin, if_pos (by omega)]
        congr 1
        omega
      · rw [if_neg hin, if_neg (by omega)]

lemma writeChars_overrun (src : Nat → UInt8) (chars ptr i : Nat) (payload : Payload)
    (hc : 0 < chars) (h : blockSize < ptr + chars) :
    writeChars src chars ptr i payload = .error .outOfBounds := by
  induction chars generalizing ptr i payload with
  | zero => omega
  | succ chars ih =>
    rw [writeChars]
    split
    · exact ih (ptr + 1) (i + 1) _ (by omega) (by omega)
    · rfl

lemma readChars_sector (sectors : Sectors) (block : UInt32) (chars offset : Nat)
    (h : offset + chars ≤ blockSize) : readChars (sectors block) chars offset =
      .ok (deviceBytes sectors (block.toNat * blockSize + offset) chars) := by
  rw [readChars_ok _ _ _ h]
  congr 1
  apply List.map_congr_left
  intro j hj
  have hlt : offset + j < blockSize := by
    rw [List.mem_range] at hj
    omega
  rw [Nat.add_assoc, deviceByte_sector sectors block hlt]
  simp only [Nat.mod_eq_of_lt hlt]

lemma writeChars_sector (sectors : Sectors) (src : Nat → UInt8) (block : UInt32)
    (chars offset i : Nat) (h : offset + chars ≤ blockSize) :
    ∃ payload, writeChars src chars offset i (sectors block) = .ok payload ∧
      Function.update sectors block payload =
        overwrite sectors (fun j => src (i + j)) (block.toNat * blockSize + offset) chars := by
  refine ⟨_, writeChars_ok src chars offset i _ h, ?_⟩
  funext b c
  have hc := c.isLt
  by_cases hb : b = block
  · subst hb
    simp only [Function.update_self, overwrite]
    split_ifs with h₁ h₂ h₃
    · congr 2
      omega
    · omega
    · omega
    · rfl
  · rw [Function.update_of_ne hb]
    -- another sector lies wholly before the range or wholly after it
    have hne : b.toNat ≠ block.toNat := fun he => hb (UInt32.toNat_inj.mp he)
    have hout : ¬ (block.toNat * blockSize + offset ≤ b.toNat * blockSize + c.val ∧
        b.toNat * blockSize + c.val < block.toNat * blockSize + offset + chars) := by
      simp only [blockSize] at *
      omega
    exact (if_neg hout).symm

lemma chunk_le (count : Nat) : chunk count ≤ count := by
  unfold chunk
  split <;> omega

lemma chunk_pos {count : Nat} (h : 0 < count) : 0 < chunk count := by
  unfold chunk
  split
  · exact h
  · exact blockSize_pos

lemma chunk_fits {count offset : Nat} (h : offset = 0 ∨ offset + count ≤ blockSize) :
    offset + chunk count ≤ blockSize := by
  unfold chunk
  split <;> omega

/-- Only a full sector is followed by more, and then the block number keeps up. -/
lemma next_start {count offset : Nat} {block : UInt32}
    (ho : offset = 0 ∨ offset + count ≤ blockSize)
    (ha : block.toNat * blockSize + offset + count ≤ 2 ^ 32 * blockSize) :
    count - chunk count = 0 ∨
      (block + 1).toNat * blockSize + 0 = block.toNat * blockSize + offset + chunk count := by
  rcases Nat.lt_or_ge blockSize count with hlt | hle
  · right
    have hchunk : chunk count = blockSize := if_neg (by omega)
    have hzero : offset = 0 := by omega
    have hnext : (block + 1).toNat = block.toNat + 1 := by
      rw [UInt32.toNat_add, UInt32.toNat_one]
      apply Nat.mod_eq_of_lt
      simp only [blockSize] at ha hlt
      omega
    rw [hnext, hchunk, hzero, Nat.succ_mul, Nat.add_zero, Nat.add_zero]
  · left
    unfold chunk
    split <;> omega

lemma next_range {count offset : Nat} {block : UInt32}
    (ho : offset = 0 ∨ offset + count ≤ blockSize)
    (ha : block.toNat * blockSize + offset + count ≤ 2 ^ 32 * blockSize) :
    (block + 1).toNat * blockSize + 0 + (count - chunk count) ≤ 2 ^ 32 * blockSize := by
  have hle := chunk_le count
  rcases next_start ho ha with hz | hs
  · have hlt := (block + 1).toNat_lt
    simp only [hz, blockSize]
    omega
  · omega

lemma ofNat_add_rest (x : UInt32) (count : Nat) :
    x + UInt32.ofNat (chunk count) + UInt32.ofNat (count - chunk count) =
      x + UInt32.ofNat count := by
  rw [UInt32.add_assoc, ← UInt32.ofNat_add, Nat.add_sub_of_le (chunk_le count)]

lemma bdevReadLoop_ok (sectors : Sectors) (fuel count : Nat) (block : UInt32) (offset : Nat)
    (pos read : UInt32) (hf : count ≤ fuel) (ho : offset = 0 ∨ offset + count ≤ blockSize)
    (ha : block.toNat * blockSize + offset + count ≤ 2 ^ 32 * blockSize) :
    bdevReadLoop sectors fuel count block offset pos read =
      .ok (deviceBytes sectors (block.toNat * blockSize + offset) count,
        read + UInt32.ofNat count, pos + UInt32.ofNat count) := by
  induction fuel generalizing count block offset pos read with
  | zero =>
    obtain rfl : count = 0 := by omega
    simp [bdevReadLoop, deviceBytes]
  | succ fuel ih =>
    rw [bdevReadLoop]
    by_cases hc : count > 0
    · have hpos := chunk_pos hc
      have hrest := ih (count - chunk count) (block + 1) 0 (pos + UInt32.ofNat (chunk count))
        (read + UInt32.ofNat (chunk count)) (by omega) (.inl rfl) (next_range ho ha)
      have hbytes : deviceBytes sectors ((block + 1).toNat * blockSize + 0) (count - chunk count) =
          deviceBytes sectors (block.toNat * blockSize + offset + chunk count)
            (count - chunk count) := by
        rcases next_start ho ha with hz | hs
        · simp only [hz, deviceBytes_zero]
        · rw [hs]
      rw [if_pos hc]
      simp only [readChars_sector sectors block _ _ (chunk_fits ho), hrest, hbytes, bind,
        Except.bind, ofNat_add_rest, ← deviceBytes_add, Nat.add_sub_of_le (chunk_le count)]
    · obtain rfl : count = 0 := by omega
      simp [deviceBytes]

lemma bdevWriteLoop_ok (src : Nat → UInt8) (fuel : Nat) (sectors : Sectors) (count : Nat)
    (block : UInt32) (offset i : Nat) (pos written : UInt32) (hf : count ≤ fuel)
    (ho : offset = 0 ∨ offset + count ≤ blockSize)
    (ha : block.toNat * blockSize + offset + count ≤ 2 ^ 32 * blockSize) :
    bdevWriteLoop src fuel sectors count block offset i pos written =
      .ok (overwrite sectors (fun j => src (i + j)) (block.toNat * blockSize + offset) count,
        written + UInt32.ofNat count, pos + UInt32.ofNat count) := by
  induction fuel generalizing sectors count block offset i pos written with
  | zero =>
    obtain rfl : count = 0 := by omega
    simp [bdevWriteLoop, overwrite_zero]
  | succ fuel ih =>
    rw [bdevWriteLoop]
    by_cases hc : count > 0
    · have hpos := chunk_pos hc
      obtain ⟨payload, hwrite, hupd⟩ :=
        writeChars_sector sectors src block (chunk count) offset i (chunk_fits ho)
      have hrest := ih (Function.update sectors block payload) (count - chunk count) (block + 1) 0
        (i + chunk count) (pos + UInt32.ofNat (chunk count))
        (written + UInt32.ofNat (chunk count)) (by omega) (.inl rfl) (next_range ho ha)
      have hsectors : overwrite (Function.update sectors block payload)
            (fun j => src (i + chunk count + j)) ((block + 1).toNat * blockSize + 0)
            (count - chunk count) =
          overwrite sectors (fun j => src (i + j)) (block.toNat * blockSize + offset) count := by
        have hadd := overwrite_add sectors (fun j => src (i + j))
          (block.toNat * blockSize + offset) (chunk count) (count - chunk count)
        rw [Nat.add_sub_of_le (chunk_le count)] at hadd
        simp only [← Nat.add_assoc] at hadd
        rw [hupd, ← hadd]
        rcases next_start ho ha with hz | hs
        · simp only [hz, overwrite_zero]
        · rw [hs]
      rw [if_pos hc]
      simp only [hwrite, hrest, hsectors, bind, Except.bind, ofNat_add_rest]
    · obtain rfl : count = 0 := by omega
      simp [overwrite_zero]

/-- What the two calls do to a flat byte array. -/
structure FlatAt (sectors : Sectors) (src : Nat → UInt8) (count : Int32) (pos : UInt32) : Prop where
  read : bdevRead sectors count pos = .ok (deviceBytes sectors pos.toNat count.toInt.toNat,
    UInt32.ofNat count.toInt.toNat, pos + UInt32.ofNat count.toInt.toNat)
  write : bdevWrite sectors src count pos = .ok (overwrite sectors src pos.toNat count.toInt.toNat,
    UInt32.ofNat count.toInt.toNat, pos + UInt32.ofNat count.toInt.toNat)
  readBack : ∀ sectors' written pos',
    bdevWrite sectors src count pos = .ok (sectors', written, pos') →
    bdevRead sectors' count pos = .ok ((List.range count.toInt.toNat).map src,
      UInt32.ofNat count.toInt.toNat, pos + UInt32.ofNat count.toInt.toNat)

/-- The first chunk does not leave its sector. -/
def FirstChunkFits (count : Int32) (pos : UInt32) : Prop :=
  pos.toNat % blockSize = 0 ∨ pos.toNat % blockSize + count.toInt.toNat ≤ blockSize

lemma toNat_sectorNumber (pos : UInt32) :
    (pos / UInt32.ofNat blockSize).toNat = pos.toNat / blockSize :=
  UInt32.toNat_div pos (UInt32.ofNat blockSize)

lemma toNat_sectorOffset (pos : UInt32) :
    (pos % UInt32.ofNat blockSize).toNat = pos.toNat % blockSize :=
  UInt32.toNat_mod pos (UInt32.ofNat blockSize)

lemma start_eq (pos : UInt32) : (pos / UInt32.ofNat blockSize).toNat * blockSize +
    (pos % UInt32.ofNat blockSize).toNat = pos.toNat := by
  rw [toNat_sectorNumber, toNat_sectorOffset, Nat.div_add_mod']

lemma toNat_count_lt (count : Int32) : count.toInt.toNat < 2 ^ 31 := by
  have := count.toInt_lt
  omega

lemma range_lt (count : Int32) (pos : UInt32) :
    pos.toNat + count.toInt.toNat ≤ 2 ^ 32 * blockSize := by
  have hp := pos.toNat_lt
  have hc := toNat_count_lt count
  simp only [blockSize]
  omega

lemma bdevRead_ok {count : Int32} {pos : UInt32} (h : FirstChunkFits count pos)
    (sectors : Sectors) : bdevRead sectors count pos =
      .ok (deviceBytes sectors pos.toNat count.toInt.toNat, UInt32.ofNat count.toInt.toNat,
        pos + UInt32.ofNat count.toInt.toNat) := by
  have hr := range_lt count pos
  rw [FirstChunkFits, ← toNat_sectorOffset] at h
  rw [bdevRead, bdevReadLoop_ok sectors _ _ _ _ _ _ le_rfl h (by rwa [start_eq]), start_eq,
    UInt32.zero_add]

lemma bdevWrite_ok {count : Int32} {pos : UInt32} (h : FirstChunkFits count pos)
    (sectors : Sectors) (src : Nat → UInt8) : bdevWrite sectors src count pos =
      .ok (overwrite sectors src pos.toNat count.toInt.toNat, UInt32.ofNat count.toInt.toNat,
        pos + UInt32.ofNat count.toInt.toNat) := by
  have hr := range_lt count pos
  rw [FirstChunkFits, ← toNat_sectorOffset] at h
  rw [bdevWrite, bdevWriteLoop_ok src _ sectors _ _ _ _ _ _ le_rfl h (by rwa [start_eq]), start_eq,
    UInt32.zero_add]
  simp only [Nat.zero_add]

lemma chunk_leaves {count : Int32} {pos : UInt32} (h : ¬ FirstChunkFits count pos) :
    0 < count.toInt.toNat ∧
      blockSize < (pos % UInt32.ofNat blockSize).toNat + chunk count.toInt.toNat := by
  obtain ⟨ho, hover⟩ := not_or.mp h
  have hlt : pos.toNat % blockSize < blockSize := Nat.mod_lt _ blockSize_pos
  rw [toNat_sectorOffset]
  refine ⟨by omega, ?_⟩
  unfold chunk
  split <;> omega

lemma bdevRead_overrun {count : Int32} {pos : UInt32} (h : ¬ FirstChunkFits count pos)
    (sectors : Sectors) : bdevRead sectors count pos = .error .outOfBounds := by
  obtain ⟨hc, hleave⟩ := chunk_leaves h
  obtain ⟨n, hn⟩ := Nat.exists_eq_succ_of_ne_zero hc.ne'
  rw [bdevRead, hn, bdevReadLoop, ← hn, if_pos hc]
  simp only [readChars_overrun _ _ _ (chunk_pos hc) hleave, bind, Except.bind]

lemma bdevWrite_overrun {count : Int32} {pos : UInt32} (h : ¬ FirstChunkFits count pos)
    (sectors : Sectors) (src : Nat → UInt8) :
    bdevWrite sectors src count pos = .error .outOfBounds := by
  obtain ⟨hc, hleave⟩ := chunk_leaves h
  obtain ⟨n, hn⟩ := Nat.exists_eq_succ_of_ne_zero hc.ne'
  rw [bdevWrite, hn, bdevWriteLoop, ← hn, if_pos hc]
  simp only [writeChars_overrun _ _ _ _ _ (chunk_pos hc) hleave, bind, Except.bind]

/-- The device is the flat array on exactly those ranges whose first chunk fits. -/
theorem bdev_flat_iff (sectors : Sectors) (src : Nat → UInt8) (count : Int32) (pos : UInt32) :
    FlatAt sectors src count pos ↔ FirstChunkFits count pos := by
  constructor
  · intro hflat
    by_contra h
    have hread := hflat.read
    rw [bdevRead_overrun h] at hread
    cases hread
  · intro h
    refine ⟨bdevRead_ok h sectors, bdevWrite_ok h sectors src, ?_⟩
    intro sectors' written pos' hwrite
    rw [bdevWrite_ok h] at hwrite
    cases hwrite
    rw [bdevRead_ok h, deviceBytes_overwrite _ _ _ _ (range_lt count pos)]

/-- One sector's worth of bytes from the address 1 on. -/
theorem bdev_shifted_sector_overrun :
    bdevRead (fun _ _ => 0) 512 1 = .error .outOfBounds ∧
      bdevWrite (fun _ _ => 0) (fun _ => 7) 512 1 = .error .outOfBounds ∧
      ¬ ∀ sectors src count pos, 0 ≤ count → FlatAt sectors src count pos := by
  have hbad : ¬ FirstChunkFits 512 1 := by
    unfold FirstChunkFits
    decide
  refine ⟨bdevRead_overrun hbad _, bdevWrite_overrun hbad _ _, ?_⟩
  intro hall
  have hread := (hall (fun _ _ => 0) (fun _ => 7) 512 1 (by decide)).read
  rw [bdevRead_overrun hbad] at hread
  cases hread

end SaxonOS.Proofs
