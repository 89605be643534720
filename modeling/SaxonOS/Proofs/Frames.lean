import Mathlib.Data.List.Nodup
import Mathlib.Data.Nat.Bitwise
import SaxonOS.Lib.Run
import SaxonOS.Frame

/-!
# Exclusive ownership of page frames

`kalloc_frame` hands out a frame whose bit is clear and sets that bit. `kfree_frame`
clears the whole word of 32 bits, so it gives back only its own frame exactly when no
other frame of that word is held.
-/

namespace SaxonOS.Proofs
open Lib

/-- Bit `j` of the bitmap. -/
def frameBit (s : Frames) (j : Nat) : Bool := (s.frameMap (j / 32)).toNat.testBit (j % 32)

variable {s st : Frames} {f i : UInt32} {fuel : Nat}

/-! ### One call -/

lemma shiftRight_eq_zero {w i : UInt32} (h : w >>> (i % 32) = 0) {k : Nat}
    (hk : i.toNat % 32 ≤ k) : w.toNat.testBit k = false := by
  have h32 : (32 : UInt32).toNat = 32 := rfl
  have hz : w.toNat >>> (i.toNat % 32) = 0 := by
    have := congrArg UInt32.toNat h
    rw [UInt32.toNat_shiftRight, UInt32.toNat_mod, h32, Nat.mod_mod] at this
    exact this
  have hb : (w.toNat >>> (i.toNat % 32)).testBit (k - i.toNat % 32) = false := by
    rw [hz, Nat.zero_testBit]
  rw [Nat.testBit_shiftRight, Nat.add_sub_cancel' hk] at hb
  exact hb

lemma toNat_one_shiftLeft (i : UInt32) : ((1 : UInt32) <<< (i % 32)).toNat = 2 ^ (i.toNat % 32) := by
  have h32 : (32 : UInt32).toNat = 32 := rfl
  have h1 : (1 : UInt32).toNat = 1 := rfl
  have hlt : 2 ^ (i.toNat % 32) < 2 ^ 32 :=
    Nat.pow_lt_pow_right (by decide) (Nat.mod_lt _ (by decide))
  rw [UInt32.toNat_shiftLeft, UInt32.toNat_mod, h32, Nat.mod_mod, h1, Nat.shiftLeft_eq, Nat.one_mul,
    Nat.mod_eq_of_lt hlt]

/-- The frame the search stops at: inside the bitmap, below `nframes`, with no bit set from
it to the end of its word. -/
lemma kallocFrameSearch_ok {k : UInt32} (h : kallocFrameSearch s fuel k = .ok i)
    (hk : k.toNat ≤ (s.nframes - 1).toNat) :
    i.toNat < 32 * frameMapWords ∧ i.toNat ≤ (s.nframes - 1).toNat ∧
      s.frameMap (i.toNat / 32) >>> (i % 32) = 0 := by
  have h32 : (32 : UInt32).toNat = 32 := rfl
  induction fuel generalizing k with
  | zero => cases h
  | succ fuel ih =>
    rw [kallocFrameSearch] at h
    split at h
    · cases h
    · next hlt =>
      split at h
      · split at h
        · cases h
        · next hne =>
          have hne' : k.toNat ≠ (s.nframes - 1).toNat := fun he => hne (UInt32.toNat_inj.mp he)
          have hlast := (s.nframes - 1).toNat_lt
          have h1 : (1 : UInt32).toNat = 1 := rfl
          apply ih h
          rw [UInt32.toNat_add, h1]
          omega
      · next hz =>
        obtain rfl := Except.ok.inj h
        rw [UInt32.toNat_div, h32] at hlt hz
        exact ⟨by omega, hk, not_not.mp hz⟩

lemma frameBit_markFrame (s : Frames) (i : UInt32) (j : Nat) :
    frameBit (markFrame s i) j = (frameBit s j || decide (j = i.toNat)) := by
  have h32 : (32 : UInt32).toNat = 32 := rfl
  simp only [frameBit, markFrame, UInt32.toNat_div, h32]
  by_cases hw : j / 32 = i.toNat / 32
  · rw [hw, Function.update_self, UInt32.toNat_or, Nat.testBit_or, toNat_one_shiftLeft,
      Nat.testBit_two_pow]
    congr 1
    exact decide_eq_decide.mpr (by omega)
  · have hji : j ≠ i.toNat := fun he => hw (by rw [he])
    rw [Function.update_of_ne hw]
    simp [hji]

/-- `kalloc_frame` sets one bit, which was clear. -/
theorem kallocFrame_spec (h : kallocFrame s = .ok (f, st)) :
    ∃ i : Nat, i < 32 * frameMapWords ∧ i ≤ (s.nframes - 1).toNat ∧ f = UInt32.ofNat i * 0x1000 ∧
      st.nframes = s.nframes ∧ (∀ k, i ≤ k → k / 32 = i / 32 → frameBit s k = false) ∧
      ∀ j, frameBit st j = (frameBit s j || decide (j = i)) := by
  unfold kallocFrame at h
  cases hs : kallocFrameSearch s (32 * frameMapWords + 1) 0 with
  | error e =>
    rw [hs] at h
    cases h
  | ok i =>
    rw [hs] at h
    obtain ⟨rfl, rfl⟩ := Prod.mk.inj (Except.ok.inj h)
    obtain ⟨hlt, hle, hz⟩ := kallocFrameSearch_ok hs (Nat.zero_le _)
    refine ⟨i.toNat, hlt, hle, by rw [UInt32.ofNat_toNat], rfl, ?_, frameBit_markFrame s i⟩
    intro k hik hw
    rw [frameBit, hw]
    exact shiftRight_eq_zero hz (by omega)

/-- `kfree_frame` clears the whole word of its frame. -/
theorem kfreeFrame_spec (h : kfreeFrame s f = .ok st) :
    st.nframes = s.nframes ∧
      ∀ j, frameBit st j = (frameBit s j && decide (j / 32 ≠ f.toNat / 0x1000 / 32)) := by
  have h32 : (32 : UInt32).toNat = 32 := rfl
  have h1000 : (0x1000 : UInt32).toNat = 0x1000 := rfl
  unfold kfreeFrame at h
  simp only at h
  split at h
  · cases h
  · split at h
    · cases h
    · obtain rfl := Except.ok.inj h
      refine ⟨rfl, fun j => ?_⟩
      simp only [frameBit, UInt32.toNat_div, h32, h1000]
      by_cases hw : j / 32 = f.toNat / 0x1000 / 32
      · rw [hw, Function.update_self]
        simp
      · rw [Function.update_of_ne hw]
        simp [hw]

/-! ### The frames reserved at boot -/

lemma toNat_ofNat_frame {k : Nat} (hk : k < 32 * frameMapWords) : (UInt32.ofNat k).toNat = k := by
  apply toNat_ofNat_small
  unfold frameMapWords at hk
  omega

lemma frameBit_ne_zero {k : Nat} (hk : k < 32 * frameMapWords) (hb : frameBit s k = true) :
    s.frameMap (UInt32.ofNat k / 32).toNat >>> (UInt32.ofNat k % 32) ≠ 0 := by
  have h32 : (32 : UInt32).toNat = 32 := rfl
  have hkn := toNat_ofNat_frame hk
  intro hz
  rw [UInt32.toNat_div, hkn, h32] at hz
  have := shiftRight_eq_zero hz (k := k % 32) (by rw [hkn])
  rw [frameBit, this] at hb
  cases hb

lemma frameBit_eq_zero {k : Nat} (hk : k < 32 * frameMapWords)
    (hb : ∀ j, k ≤ j → j / 32 = k / 32 → frameBit s j = false) :
    s.frameMap (UInt32.ofNat k / 32).toNat >>> (UInt32.ofNat k % 32) = 0 := by
  have h32 : (32 : UInt32).toNat = 32 := rfl
  apply UInt32.toNat_inj.mp
  rw [UInt32.toNat_shiftRight, UInt32.toNat_mod, UInt32.toNat_div, toNat_ofNat_frame hk, h32,
    Nat.mod_mod]
  apply Nat.eq_of_testBit_eq
  intro l
  show _ = Nat.testBit 0 l
  rw [Nat.testBit_shiftRight, Nat.zero_testBit]
  by_cases hl : k % 32 + l < 32
  · have hbit := hb (k + l) (Nat.le_add_right k l) (by omega)
    rw [frameBit, show (k + l) / 32 = k / 32 by omega,
      show (k + l) % 32 = k % 32 + l by omega] at hbit
    exact hbit
  · apply Nat.testBit_lt_two_pow
    exact Nat.lt_of_lt_of_le (UInt32.toNat_lt _) (Nat.pow_le_pow_right (by decide) (by omega))

/-- The search runs over frames that are taken. -/
lemma kallocFrameSearch_skip {n : Nat} (hset : ∀ j < n, frameBit s j = true)
    (hn : n ≤ 32 * frameMapWords) (hle : n ≤ (s.nframes - 1).toNat) (d k : Nat) (hk : k + d = n) :
    kallocFrameSearch s (fuel + d) (UInt32.ofNat k) =
      kallocFrameSearch s fuel (UInt32.ofNat n) := by
  have h32 : (32 : UInt32).toNat = 32 := rfl
  induction d generalizing k with
  | zero =>
    obtain rfl : k = n := hk
    rfl
  | succ d ih =>
    have hkn := toNat_ofNat_frame (k := k) (by omega)
    have hin : ¬(UInt32.ofNat k / 32).toNat ≥ frameMapWords := by
      rw [UInt32.toNat_div, hkn, h32]
      omega
    have hne : UInt32.ofNat k ≠ s.nframes - 1 := by
      intro he
      rw [← he, hkn] at hle
      omega
    have hnext : UInt32.ofNat k + 1 = UInt32.ofNat (k + 1) := by
      rw [UInt32.ofNat_add]
      rfl
    rw [← Nat.add_assoc, kallocFrameSearch, if_neg hin,
      if_pos (frameBit_ne_zero (by omega) (hset k (by omega))), if_neg hne, hnext]
    exact ih (k + 1) (by omega)

/-- With the first `n` frames taken `kalloc_frame` looks at frame `n`. -/
lemma kallocFrame_skip {n : Nat} (hset : ∀ j < n, frameBit s j = true)
    (hn : n ≤ 32 * frameMapWords) (hle : n ≤ (s.nframes - 1).toNat) :
    ∃ fuel, kallocFrame s = (do
      let i ← kallocFrameSearch s (fuel + 1) (UInt32.ofNat n)
      .ok (i * 0x1000, markFrame s i)) := by
  refine ⟨32 * frameMapWords - n, ?_⟩
  rw [← kallocFrameSearch_skip hset hn hle n 0 (Nat.zero_add n), kallocFrame,
    show 32 * frameMapWords - n + 1 + n = 32 * frameMapWords + 1 by omega]
  rfl

/-- It takes frame `n` if the rest of the word is clear. -/
lemma kallocFrame_of_clear {n : Nat} (hset : ∀ j < n, frameBit s j = true)
    (hclear : ∀ j, n ≤ j → j / 32 = n / 32 → frameBit s j = false)
    (hn : n < 32 * frameMapWords) (hle : n ≤ (s.nframes - 1).toNat) :
    kallocFrame s = .ok (UInt32.ofNat n * 0x1000, markFrame s (UInt32.ofNat n)) := by
  have h32 : (32 : UInt32).toNat = 32 := rfl
  obtain ⟨fuel, hk⟩ := kallocFrame_skip hset (by omega) hle
  have hin : ¬(UInt32.ofNat n / 32).toNat ≥ frameMapWords := by
    rw [UInt32.toNat_div, toNat_ofNat_frame hn, h32]
    omega
  rw [hk, kallocFrameSearch, if_neg hin, if_neg (not_not.mpr (frameBit_eq_zero hn hclear))]
  rfl

/-- With exactly the first `n` frames taken, frame `n` is the next. -/
lemma kallocFrame_first {n : Nat} (hb : ∀ j, frameBit s j = decide (j < n))
    (hn : n < 32 * frameMapWords) (hle : n ≤ (s.nframes - 1).toNat) :
    kallocFrame s = .ok (UInt32.ofNat n * 0x1000, markFrame s (UInt32.ofNat n)) :=
  kallocFrame_of_clear (fun j hj => by rw [hb]; simpa using hj)
    (fun j hj _ => by rw [hb]; simpa using hj) hn hle

lemma frameBit_markFrame_first {n : Nat} (hb : ∀ j, frameBit s j = decide (j < n))
    (hn : n < 32 * frameMapWords) (j : Nat) :
    frameBit (markFrame s (UInt32.ofNat n)) j = decide (j < n + 1) := by
  rw [frameBit_markFrame, hb, toNat_ofNat_frame hn, ← Bool.decide_or]
  exact decide_eq_decide.mpr (by omega)

lemma reserveFrames_first {n k : Nat} (hb : ∀ j, frameBit s j = decide (j < k))
    (hn : k + n ≤ 32 * frameMapWords) (hle : k + n ≤ (s.nframes - 1).toNat + 1) :
    ∃ st, reserveFrames n s = .ok st ∧ st.nframes = s.nframes ∧
      ∀ j, frameBit st j = decide (j < k + n) := by
  induction n generalizing s k with
  | zero => exact ⟨s, rfl, rfl, hb⟩
  | succ n ih =>
    have hk := kallocFrame_first hb (by omega) (by omega)
    obtain ⟨st, hst, hnf, hbit⟩ := ih (s := markFrame s (UInt32.ofNat k))
      (frameBit_markFrame_first hb (by omega)) (by omega) (by
        show k + 1 + n ≤ (s.nframes - 1).toNat + 1
        omega)
    refine ⟨st, ?_, hnf, fun j => ?_⟩
    · rw [reserveFrames, hk]
      exact hst
    · rw [hbit]
      exact decide_eq_decide.mpr (by omega)

/-- The last frame, `nframes - 1`, wraps around when there is no frame. -/
lemma toNat_last (n : UInt32) :
    (n - 1).toNat = if n.toNat = 0 then 0xFFFFFFFF else n.toNat - 1 := by
  have h1 : (1 : UInt32).toNat = 1 := rfl
  have hlt := n.toNat_lt
  rw [UInt32.toNat_sub, h1]
  split <;> omega

lemma toNat_page (v : UInt32) : (v >>> 12).toNat = v.toNat / 0x1000 := by
  have h12 : (12 : UInt32).toNat % 32 = 12 := rfl
  rw [UInt32.toNat_shiftRight, h12, Nat.shiftRight_eq_div_pow]

lemma toNat_firstFreeFrame (endKernel : UInt32) :
    (firstFreeFrame endKernel).toNat = ((endKernel &&& 0x00FFF000) >>> 12).toNat + 1 := by
  have h1000 : (0x1000 : UInt32).toNat = 0x1000 := rfl
  have hm : (0x00FFF000 : UInt32).toNat = 0x00FFF000 := rfl
  have hle : endKernel.toNat &&& 0x00FFF000 ≤ 0x00FFF000 := Nat.and_le_right
  rw [toNat_page, firstFreeFrame, UInt32.toNat_div, UInt32.toNat_add, UInt32.toNat_and, hm, h1000]
  omega

lemma firstFreeFrame_le (endKernel : UInt32) : (firstFreeFrame endKernel).toNat ≤ 0x1000 := by
  have hm : (0x00FFF000 : UInt32).toNat = 0x00FFF000 := rfl
  have hle : endKernel.toNat &&& 0x00FFF000 ≤ 0x00FFF000 := Nat.and_le_right
  rw [toNat_firstFreeFrame, toNat_page, UInt32.toNat_and, hm]
  omega

lemma clearFrameMap_bss (count : UInt32) : clearFrameMap framesBss.frameMap count = fun _ => 0 := by
  funext w
  unfold clearFrameMap framesBss
  split
  · rfl
  · split <;> simp

/-- `init_frames` takes exactly the frames of the kernel image. -/
theorem initFrames_spec (endKernel memSize : UInt32)
    (hlo : (firstFreeFrame endKernel).toNat ≤ (memSize / 4).toNat)
    (hhi : (memSize / 4).toNat ≤ 32 * frameMapWords) :
    ∃ st, initFrames framesBss endKernel memSize = .ok st ∧ st.nframes = memSize / 4 ∧
      ∀ j, frameBit st j = decide (j < (firstFreeFrame endKernel).toNat) := by
  have h8 : (8 : UInt32).toNat = 8 := rfl
  have hfit : ¬(memSize / 4 / 8).toNat > 4 * frameMapWords := by
    rw [UInt32.toNat_div, h8]
    omega
  have hzero : ∀ j, frameBit ⟨fun _ => 0, memSize / 4⟩ j = decide (j < 0) := by
    intro j
    simp [frameBit]
  obtain ⟨st, hst, hnf, hb⟩ := reserveFrames_first (n := (firstFreeFrame endKernel).toNat) hzero
    (by omega) (by
      show 0 + _ ≤ (memSize / 4 - 1).toNat + 1
      rw [toNat_last]
      split <;> omega)
  refine ⟨st, ?_, hnf, by simpa using hb⟩
  simp only [initFrames, if_neg hfit, clearFrameMap_bss]
  exact hst

lemma reserveFrames_bits {n k : Nat} (hb : ∀ j, frameBit s j = decide (j < k))
    (h : reserveFrames n s = .ok st) : ∀ j, frameBit st j = decide (j < k + n) := by
  induction n generalizing s k with
  | zero =>
    obtain rfl := Except.ok.inj h
    exact hb
  | succ n ih =>
    obtain ⟨⟨f, s₁⟩, hk, hrest⟩ := bind_eq_ok h
    obtain ⟨i, hi, hle, -, -, hclear, -⟩ := kallocFrame_spec hk
    have hki : k ≤ i := by
      have hfree := hclear i (Nat.le_refl i) rfl
      rw [hb] at hfree
      simpa using hfree
    rw [kallocFrame_first hb (by omega) (by omega)] at hk
    obtain ⟨-, rfl⟩ := Prod.mk.inj (Except.ok.inj hk)
    intro j
    rw [ih (frameBit_markFrame_first hb (by omega)) hrest]
    exact decide_eq_decide.mpr (by omega)

/-- Whatever the size of the memory, an `init_frames` that returns has taken exactly the frames
of the kernel image. -/
theorem initFrames_bits {endKernel memSize : UInt32}
    (h : initFrames framesBss endKernel memSize = .ok st) (j : Nat) :
    frameBit st j = decide (j < (firstFreeFrame endKernel).toNat) := by
  unfold initFrames at h
  simp only at h
  split at h
  · cases h
  · have hzero : ∀ j, frameBit ⟨clearFrameMap framesBss.frameMap (memSize / 4 / 8), memSize / 4⟩ j =
        decide (j < 0) := by
      intro j
      rw [clearFrameMap_bss]
      simp [frameBit]
    rw [reserveFrames_bits hzero h, Nat.zero_add]

/-! ### Runs -/

/-- The bitmap together with the frames handed out by `kalloc_frame` and not freed since. -/
structure FrameState where
  frames : Frames
  handed : List UInt32

inductive FrameOp
  | alloc
  | free (frame : UInt32)

/-- One call that returns. Only a frame that was handed out is freed. -/
def FrameState.exec (s : FrameState) : FrameOp → Option FrameState
  | .alloc =>
    match kallocFrame s.frames with
    | .ok (f, st) => some ⟨st, f :: s.handed⟩
    | .error _ => none
  | .free f =>
    if f ∈ s.handed then
      match kfreeFrame s.frames f with
      | .ok st => some ⟨st, s.handed.erase f⟩
      | .error _ => none
    else none

abbrev FrameRun (s₀ : Frames) : List (FrameState × FrameOp) → FrameState → Prop :=
  Run (fun s op s' => FrameState.exec s op = some s') ⟨s₀, []⟩

def frameNumber (f : UInt32) : Nat := f.toNat / 0x1000

/-- The frames of the kernel image. -/
def reservedFrames (endKernel : UInt32) : List UInt32 :=
  (List.range (firstFreeFrame endKernel).toNat).map (fun i => UInt32.ofNat i * 0x1000)

/-- A `kalloc_frame` returns a frame that nobody holds, and a `kfree_frame` makes its own frame
available and no other. -/
def ExclusiveStep (endKernel : UInt32) (s : FrameState) : FrameOp → Prop
  | .alloc => ∀ f st, kallocFrame s.frames = .ok (f, st) →
      f ∉ reservedFrames endKernel ∧ f ∉ s.handed
  | .free f => ∀ st, kfreeFrame s.frames f = .ok st →
      ∀ j, frameBit st j = (frameBit s.frames j && decide (j ≠ frameNumber f))

/-- No other held frame lies in the 32-frame word of a frame that is freed. -/
def AloneInWord (endKernel : UInt32) (s : FrameState) : FrameOp → Prop
  | .alloc => True
  | .free f => ∀ g ∈ reservedFrames endKernel ++ s.handed.erase f,
      frameNumber g / 32 ≠ frameNumber f / 32

/-- The bits set are the reserved frames and those handed out, each once. -/
structure FrameInv (n : Nat) (s : FrameState) : Prop where
  frame : ∀ f ∈ s.handed, ∃ i, f = UInt32.ofNat i * 0x1000 ∧ i < 32 * frameMapWords ∧ n ≤ i
  nodup : (s.handed.map frameNumber).Nodup
  bits : ∀ j, frameBit s.frames j = true ↔ j < n ∨ j ∈ s.handed.map frameNumber

lemma toNat_frame {i : Nat} (hi : i < 32 * frameMapWords) :
    (UInt32.ofNat i * 0x1000).toNat = i * 0x1000 := by
  have h1000 : (0x1000 : UInt32).toNat = 0x1000 := rfl
  rw [UInt32.toNat_mul, toNat_ofNat_frame hi, h1000]
  unfold frameMapWords at hi
  omega

lemma frameNumber_frame {i : Nat} (hi : i < 32 * frameMapWords) :
    frameNumber (UInt32.ofNat i * 0x1000) = i := by
  rw [frameNumber, toNat_frame hi]
  omega

variable {endKernel memSize : UInt32} {n : Nat} {t t' : FrameState} {op : FrameOp}

lemma mem_reservedFrames (hn : (firstFreeFrame endKernel).toNat ≤ 32 * frameMapWords)
    (hf : f ∈ reservedFrames endKernel) :
    ∃ i < (firstFreeFrame endKernel).toNat, f = UInt32.ofNat i * 0x1000 ∧ frameNumber f = i := by
  obtain ⟨i, hi, rfl⟩ := List.mem_map.mp hf
  rw [List.mem_range] at hi
  exact ⟨i, hi, rfl, frameNumber_frame (by omega)⟩

lemma frameInv_alloc (hI : FrameInv n t) (h : t.exec .alloc = some t') :
    FrameInv n t' ∧ ∀ f st, kallocFrame t.frames = .ok (f, st) →
      frameBit t.frames (frameNumber f) = false := by
  unfold FrameState.exec at h
  cases hk : kallocFrame t.frames with
  | error e =>
    rw [hk] at h
    cases h
  | ok r =>
    obtain ⟨f, st⟩ := r
    rw [hk] at h
    obtain rfl := Option.some.inj h
    obtain ⟨i, hi, -, rfl, -, hclear, hbit⟩ := kallocFrame_spec hk
    have hfree := hclear i (Nat.le_refl i) rfl
    have hnot : ¬(i < n ∨ i ∈ t.handed.map frameNumber) := by
      rw [← hI.bits, hfree]
      simp
    have hnum := frameNumber_frame hi
    refine ⟨⟨?_, ?_, ?_⟩, ?_⟩
    · intro g hg
      rcases List.mem_cons.mp hg with rfl | hg
      · exact ⟨i, rfl, hi, by omega⟩
      · exact hI.frame g hg
    · rw [List.map_cons, hnum, List.nodup_cons]
      exact ⟨fun hm => hnot (Or.inr hm), hI.nodup⟩
    · intro j
      simp only [hbit, Bool.or_eq_true, decide_eq_true_eq, List.map_cons, hnum, List.mem_cons, hI.bits]
      tauto
    · intro g st' hg
      obtain ⟨rfl, -⟩ := Prod.mk.inj (Except.ok.inj hg)
      rw [hnum]
      exact hfree

lemma mem_erase_frameNumber (hI : FrameInv n t) (hf : f ∈ t.handed) (j : Nat) :
    j ∈ (t.handed.erase f).map frameNumber ↔ j ∈ t.handed.map frameNumber ∧ j ≠ frameNumber f := by
  have hnd : t.handed.Nodup := hI.nodup.of_map _
  have hinj := List.inj_on_of_nodup_map hI.nodup
  simp only [List.mem_map, hnd.mem_erase_iff]
  constructor
  · rintro ⟨g, ⟨hgf, hg⟩, rfl⟩
    exact ⟨⟨g, hg, rfl⟩, fun he => hgf (hinj hg hf he)⟩
  · rintro ⟨⟨g, hg, rfl⟩, hne⟩
    exact ⟨g, ⟨fun he => hne (by rw [he]), hg⟩, rfl⟩

lemma frameInv_free (hI : FrameInv n t) (hf : f ∈ t.handed) {st : Frames}
    (hex : ∀ j, frameBit st j = (frameBit t.frames j && decide (j ≠ frameNumber f))) :
    FrameInv n ⟨st, t.handed.erase f⟩ := by
  obtain ⟨i, hfi, hi, hni⟩ := hI.frame f hf
  have hnum : frameNumber f = i := by rw [hfi, frameNumber_frame hi]
  refine ⟨fun g hg => hI.frame g (List.mem_of_mem_erase hg),
    hI.nodup.sublist (List.erase_sublist.map _), fun j => ?_⟩
  rw [mem_erase_frameNumber hI hf, hex, Bool.and_eq_true, decide_eq_true_eq, hI.bits]
  constructor
  · rintro ⟨h | h, hne⟩
    · exact Or.inl h
    · exact Or.inr ⟨h, hne⟩
  · rintro (h | ⟨h, hne⟩)
    · exact ⟨Or.inl h, by omega⟩
    · exact ⟨Or.inr h, hne⟩

/-- While every held frame has its bit set, a free is exclusive exactly when the frame is alone
in its word. -/
lemma exclusive_free_iff (hn : (firstFreeFrame endKernel).toNat ≤ 32 * frameMapWords)
    (hI : FrameInv (firstFreeFrame endKernel).toNat t) (hf : f ∈ t.handed) {st : Frames}
    (hk : kfreeFrame t.frames f = .ok st) :
    ExclusiveStep endKernel t (.free f) ↔ AloneInWord endKernel t (.free f) := by
  have hword := (kfreeFrame_spec hk).2
  obtain ⟨i, hfi, hi, hni⟩ := hI.frame f hf
  have hnum : frameNumber f = i := by rw [hfi, frameNumber_frame hi]
  constructor
  · intro hex g hg hw
    have hgbit : frameBit t.frames (frameNumber g) = true ∧ frameNumber g ≠ frameNumber f := by
      rcases List.mem_append.mp hg with hg | hg
      · obtain ⟨k, hk, -, hgk⟩ := mem_reservedFrames hn hg
        exact ⟨(hI.bits _).mpr (Or.inl (by omega)), by omega⟩
      · have hmem := (mem_erase_frameNumber hI hf (frameNumber g)).mp (List.mem_map_of_mem hg)
        exact ⟨(hI.bits _).mpr (Or.inr hmem.1), hmem.2⟩
    have h1 := hex st hk (frameNumber g)
    have hsame : ¬frameNumber g / 32 ≠ f.toNat / 0x1000 / 32 := fun hne => hne hw
    rw [hword, hgbit.1, decide_eq_false hsame, decide_eq_true hgbit.2] at h1
    cases h1
  · intro halone st' hk' j
    rw [hk] at hk'
    obtain rfl := Except.ok.inj hk'
    rw [hword]
    cases hb : frameBit t.frames j with
    | false => rfl
    | true =>
      rw [Bool.true_and, Bool.true_and]
      apply decide_eq_decide.mpr
      constructor
      · intro hw he
        exact hw (by rw [he]; rfl)
      · intro hne
        rcases (hI.bits j).mp hb with hj | hj
        · have := halone (UInt32.ofNat j * 0x1000) (by
            apply List.mem_append_left
            exact List.mem_map.mpr ⟨j, List.mem_range.mpr hj, rfl⟩)
          rwa [frameNumber_frame (by omega)] at this
        · obtain ⟨g, hg, rfl⟩ := List.mem_map.mp
            ((mem_erase_frameNumber hI hf j).mpr ⟨hj, hne⟩)
          exact halone g (List.mem_append_right _ hg)

lemma frameInv_step (hn : (firstFreeFrame endKernel).toNat ≤ 32 * frameMapWords)
    (hI : FrameInv (firstFreeFrame endKernel).toNat t) (h : t.exec op = some t') :
    (ExclusiveStep endKernel t op ↔ AloneInWord endKernel t op) ∧
      (ExclusiveStep endKernel t op → FrameInv (firstFreeFrame endKernel).toNat t') := by
  cases op with
  | alloc =>
    obtain ⟨hI', hclear⟩ := frameInv_alloc hI h
    refine ⟨⟨fun _ => trivial, fun _ f st hk => ?_⟩, fun _ => hI'⟩
    have hnot : ¬(frameNumber f < (firstFreeFrame endKernel).toNat ∨
        frameNumber f ∈ t.handed.map frameNumber) := by
      rw [← hI.bits, hclear f st hk]
      simp
    constructor
    · intro hf
      obtain ⟨i, hi, -, hfi⟩ := mem_reservedFrames hn hf
      exact hnot (Or.inl (by omega))
    · intro hf
      exact hnot (Or.inr (List.mem_map_of_mem hf))
  | free f =>
    simp only [FrameState.exec] at h
    split at h
    · next hf =>
      cases hk : kfreeFrame t.frames f with
      | error e =>
        rw [hk] at h
        cases h
      | ok st =>
        rw [hk] at h
        obtain rfl := Option.some.inj h
        exact ⟨exclusive_free_iff hn hI hf hk, fun hex => frameInv_free hI hf (hex st hk)⟩
    · cases h

/-- Frames are owned exclusively in a run after `init_frames` exactly when every `kfree_frame`
of it finds no other held frame in the word of its own. -/
theorem frames_exclusive_iff (endKernel memSize : UInt32)
    (hlo : (firstFreeFrame endKernel).toNat ≤ (memSize / 4).toNat)
    (hhi : (memSize / 4).toNat ≤ 32 * frameMapWords) :
    ∃ s₀, initFrames framesBss endKernel memSize = .ok s₀ ∧
      ∀ tr s, FrameRun s₀ tr s →
        ((∀ p ∈ tr, ExclusiveStep endKernel p.1 p.2) ↔
          ∀ p ∈ tr, AloneInWord endKernel p.1 p.2) := by
  obtain ⟨s₀, hinit, -, hbits⟩ := initFrames_spec endKernel memSize hlo hhi
  refine ⟨s₀, hinit, fun tr s hr => ?_⟩
  have h₀ : FrameInv (firstFreeFrame endKernel).toNat ⟨s₀, []⟩ := by
    refine ⟨by simp, by simp, fun j => ?_⟩
    simp [hbits]
  exact hr.forall_iff h₀ (fun t op t' hI h => frameInv_step (hlo.trans hhi) hI h)

/-- One frame is allocated and freed where the kernel image fills 32 frames: nothing else lies
in its word. -/
theorem frames_exclusive_iff_word_boundary :
    ∃ s₀ s₁ s₂, initFrames framesBss 0xC001F000 256 = .ok s₀ ∧
      FrameRun s₀ [(s₁, .free 0x20000), (⟨s₀, []⟩, .alloc)] s₂ ∧ s₁.handed = [0x20000] ∧
      ∀ p ∈ [(s₁, FrameOp.free 0x20000), (⟨s₀, []⟩, .alloc)], ExclusiveStep 0xC001F000 p.1 p.2 := by
  have hrun : ((initFrames framesBss 0xC001F000 256).toOption.bind fun s₀ =>
      (FrameState.exec ⟨s₀, []⟩ .alloc).bind fun s₁ =>
        (FrameState.exec s₁ (.free 0x20000)).map fun _ => decide (s₁.handed = [0x20000])) =
      some true := by
    decide +kernel
  obtain ⟨s₀, hinit, hrun⟩ := Option.bind_eq_some_iff.mp hrun
  obtain ⟨s₁, halloc, hrun⟩ := Option.bind_eq_some_iff.mp hrun
  obtain ⟨s₂, hfree, hheld⟩ := Option.map_eq_some_iff.mp hrun
  have hheld := of_decide_eq_true hheld
  obtain ⟨s₀', hinit', hexclusive⟩ := frames_exclusive_iff 0xC001F000 256 (by decide) (by decide)
  obtain rfl : s₀ = s₀' := Except.ok.inj ((eq_ok_of_toOption hinit).symm.trans hinit')
  have hr : FrameRun s₀ [(s₁, .free 0x20000), (⟨s₀, []⟩, .alloc)] s₂ :=
    (Run.nil.cons halloc).cons hfree
  refine ⟨s₀, s₁, s₂, hinit', hr, hheld, (hexclusive _ _ hr).mpr fun p hp => ?_⟩
  rcases List.mem_cons.mp hp with rfl | hp
  · have hapart : ((reservedFrames 0xC001F000 ++ [0x20000].erase 0x20000).all fun g =>
        frameNumber g / 32 != frameNumber 0x20000 / 32) = true := by
      decide +kernel
    intro g hg
    rw [hheld] at hg
    exact bne_iff_ne.mp (List.all_eq_true.mp hapart g hg)
  · rw [List.mem_singleton.mp hp]
    trivial

/-- With a kernel image of five frames, freeing the first frame handed out gives frame 0 of the
image to the next `kalloc_frame`. -/
theorem kallocFrame_returns_reserved :
    ∃ s₀ tr s st, initFrames framesBss 0xC0004000 256 = .ok s₀ ∧ FrameRun s₀ tr s ∧
      kallocFrame s.frames = .ok (0, st) ∧ 0 ∈ reservedFrames 0xC0004000 ∧
      ¬ExclusiveStep 0xC0004000 s .alloc := by
  have hrun : ((initFrames framesBss 0xC0004000 256).toOption.bind fun s₀ =>
      (execTrace FrameState.exec ⟨s₀, []⟩ [.alloc, .free 0x5000]).bind fun r =>
        (kallocFrame r.2.frames).toOption.map Prod.fst) = some 0 := by
    decide +kernel
  obtain ⟨s₀, hinit, h⟩ := Option.bind_eq_some_iff.mp hrun
  obtain ⟨r, hexec, h⟩ := Option.bind_eq_some_iff.mp h
  obtain ⟨⟨f, st⟩, hk, rfl⟩ := Option.map_eq_some_iff.mp h
  have hr := run_of_execTrace hexec
  have hk' := eq_ok_of_toOption hk
  have hmem : (0 : UInt32) ∈ reservedFrames 0xC0004000 := by decide
  exact ⟨s₀, r.1, r.2, st, eq_ok_of_toOption hinit, hr, hk', hmem,
    fun hex => (hex 0 st hk').1 hmem⟩

end SaxonOS.Proofs
