import Mathlib.Data.Nat.Find
import SaxonOS.Proofs.Frames

/-!
# The search of kalloc_frame

The search looks at the rest of a word at once. It still finds the lowest clear frame, since the
ones of every word are its low bits. The loop ends at `nframes - 1`, which lies inside
`frame_map` only if `nframes` does and is not zero.
-/

namespace SaxonOS.Proofs
open Lib

variable {s st : Frames} {f : UInt32} {fuel i : Nat} {op : FrameOp}

/-- One call that returns, `kfree_frame` with any argument. -/
def frameCall (s : Frames) : FrameOp → Except Fault Frames
  | .alloc => (kallocFrame s).map Prod.snd
  | .free f => kfreeFrame s f

abbrev FrameCalls (s₀ : Frames) : List (Frames × FrameOp) → Frames → Prop :=
  Run (fun s op st => frameCall s op = .ok st) s₀

lemma frameCall_alloc (h : frameCall s .alloc = .ok st) : ∃ f, kallocFrame s = .ok (f, st) := by
  unfold frameCall at h
  cases hk : kallocFrame s with
  | error e =>
    rw [hk] at h
    cases h
  | ok r =>
    rw [hk] at h
    obtain rfl := Except.ok.inj h
    exact ⟨r.1, rfl⟩

lemma frameCall_nframes (h : frameCall s op = .ok st) : st.nframes = s.nframes := by
  cases op with
  | alloc =>
    obtain ⟨f, hk⟩ := frameCall_alloc h
    obtain ⟨i, -, -, -, hnf, -⟩ := kallocFrame_spec hk
    exact hnf
  | free f => exact (kfreeFrame_spec h).1

/-- The ones of every word are its low bits. -/
def LowRuns (s : Frames) : Prop :=
  ∀ j k, k ≤ j → k / 32 = j / 32 → frameBit s j = true → frameBit s k = true

/-- Frame `i` is the least one whose bit is clear. -/
structure LowestClear (s : Frames) (i : Nat) : Prop where
  lt : i < s.nframes.toNat
  clear : frameBit s i = false
  below : ∀ j < i, frameBit s j = true

def AllTaken (s : Frames) : Prop := ∀ j < s.nframes.toNat, frameBit s j = true

lemma allTaken_or_lowestClear (s : Frames) : AllTaken s ∨ ∃ i, LowestClear s i := by
  by_cases h : AllTaken s
  · exact Or.inl h
  · have hex : ∃ i, i < s.nframes.toNat ∧ frameBit s i = false := by
      simpa [AllTaken] using h
    have hspec := Nat.find_spec hex
    refine Or.inr ⟨Nat.find hex, hspec.1, hspec.2, fun j hj => ?_⟩
    have hmin := Nat.find_min hex hj
    simpa [hj.trans hspec.1] using hmin

/-- In a bitmap of low runs the search stops at the lowest clear frame. -/
lemma kallocFrame_lowest (hs : LowRuns s) (hclear : frameBit s i = false)
    (hbelow : ∀ j < i, frameBit s j = true) (hi : i < 32 * frameMapWords)
    (hle : i ≤ (s.nframes - 1).toNat) :
    kallocFrame s = .ok (UInt32.ofNat i * 0x1000, markFrame s (UInt32.ofNat i)) := by
  refine kallocFrame_of_clear hbelow ?_ hi hle
  intro j hij hw
  by_contra hj
  have hset := hs j i hij hw.symm (by simpa using hj)
  rw [hclear] at hset
  cases hset

/-- With every frame taken the search runs up to the last one and panics there. -/
lemma kallocFrame_full (hall : AllTaken s) (h0 : 0 < s.nframes.toNat)
    (hN : s.nframes.toNat ≤ 32 * frameMapWords) :
    kallocFrame s = .error (.panic [s.nframes - 1] "Ran out of page frames") := by
  have h32 : (32 : UInt32).toNat = 32 := rfl
  have hlast := toNat_last s.nframes
  rw [if_neg (by omega)] at hlast
  have hn : (s.nframes - 1).toNat < 32 * frameMapWords := by omega
  obtain ⟨fuel, hk⟩ := kallocFrame_skip (fun j hj => hall j (by omega)) hn.le (Nat.le_refl _)
  have hin : ¬(UInt32.ofNat (s.nframes - 1).toNat / 32).toNat ≥ frameMapWords := by
    rw [UInt32.toNat_div, toNat_ofNat_frame hn, h32]
    omega
  rw [hk, kallocFrameSearch, if_neg hin, if_pos (frameBit_ne_zero hn (hall _ (by omega))),
    UInt32.ofNat_toNat, if_pos rfl]
  rfl

/-- Either there is a lowest clear frame, and it is taken, or every frame is. A clear bit inside
the map is all this needs of `nframes`. -/
lemma kallocFrame_lowest_or_full {c : Nat} (hs : LowRuns s) (hc : frameBit s c = false)
    (hmap : c < 32 * frameMapWords) :
    (∃ i ≤ c, i ≤ (s.nframes - 1).toNat ∧ frameBit s i = false ∧ (∀ j < i, frameBit s j = true) ∧
      kallocFrame s = .ok (UInt32.ofNat i * 0x1000, markFrame s (UInt32.ofNat i))) ∨
    0 < s.nframes.toNat ∧ AllTaken s ∧
      kallocFrame s = .error (.panic [s.nframes - 1] "Ran out of page frames") := by
  obtain ⟨i, hic, hclear, hbelow⟩ :
      ∃ i ≤ c, frameBit s i = false ∧ ∀ j < i, frameBit s j = true := by
    have hex : ∃ i, frameBit s i = false := ⟨c, hc⟩
    exact ⟨Nat.find hex, Nat.find_min' hex hc, Nat.find_spec hex,
      fun j hj => by simpa using Nat.find_min hex hj⟩
  have hlast := toNat_last s.nframes
  have hwords : frameMapWords = 0x2000 := rfl
  by_cases hle : i ≤ (s.nframes - 1).toNat
  · exact Or.inl ⟨i, hic, hle, hclear, hbelow,
      kallocFrame_lowest hs hclear hbelow (by omega) hle⟩
  · have h0 : 0 < s.nframes.toNat := by
      by_contra h0
      rw [if_pos (by omega)] at hlast
      omega
    rw [if_neg (by omega)] at hlast
    have hall : AllTaken s := fun j hj => hbelow j (by omega)
    exact Or.inr ⟨h0, hall, kallocFrame_full hall h0 (by omega)⟩

/-- The search passes over taken frames only. -/
lemma kallocFrameSearch_passed {k i : UInt32} (hs : LowRuns s)
    (h : kallocFrameSearch s fuel k = .ok i) {j : Nat} (hkj : k.toNat ≤ j) (hji : j < i.toNat) :
    frameBit s j = true := by
  have h32 : (32 : UInt32).toNat = 32 := rfl
  have h1 : (1 : UInt32).toNat = 1 := rfl
  have hwords : frameMapWords = 0x2000 := rfl
  induction fuel generalizing k with
  | zero => cases h
  | succ fuel ih =>
    rw [kallocFrameSearch] at h
    split at h
    · cases h
    · next hin =>
      rw [UInt32.toNat_div, h32] at hin
      split at h
      · next hne =>
        split at h
        · cases h
        · by_cases hjk : j = k.toNat
          · by_contra hclear
            apply hne
            rw [← UInt32.ofNat_toNat (x := k)]
            refine frameBit_eq_zero (by omega) fun l hkl hw => ?_
            by_contra hl
            exact hclear (hjk ▸ hs l k.toNat hkl hw.symm (by simpa using hl))
          · apply ih h
            rw [UInt32.toNat_add, h1]
            omega
      · obtain rfl := Except.ok.inj h
        omega

/-- Either call leaves low runs: one extends a run by its next bit, the other empties a word. -/
lemma lowRuns_alloc (hs : LowRuns s) (h : kallocFrame s = .ok (f, st)) : LowRuns st := by
  obtain ⟨i, hi, h⟩ := bind_eq_ok h
  obtain ⟨-, rfl⟩ := Prod.mk.inj (Except.ok.inj h)
  intro j k hkj hw hj
  simp only [frameBit_markFrame, Bool.or_eq_true, decide_eq_true_eq] at hj ⊢
  rcases hj with hj | rfl
  · exact Or.inl (hs j k hkj hw hj)
  · rcases Nat.lt_or_eq_of_le hkj with hlt | rfl
    · exact Or.inl (kallocFrameSearch_passed hs hi (Nat.zero_le k) hlt)
    · exact Or.inr rfl

lemma lowRuns_free (hs : LowRuns s) (h : kfreeFrame s f = .ok st) : LowRuns st := by
  intro j k hkj hw hj
  have hbits := (kfreeFrame_spec h).2
  simp only [hbits, Bool.and_eq_true, decide_eq_true_eq] at hj ⊢
  exact ⟨hs j k hkj hw hj.1, by rw [hw]; exact hj.2⟩

lemma lowRuns_init {endKernel memSize : UInt32}
    (h : initFrames framesBss endKernel memSize = .ok s) : LowRuns s := by
  intro j k hkj _ hj
  rw [initFrames_bits h, decide_eq_true_eq] at hj ⊢
  omega

lemma lowRuns_run {endKernel memSize : UInt32} {s₀ : Frames}
    (hinit : initFrames framesBss endKernel memSize = .ok s₀) {tr : List (Frames × FrameOp)}
    (hr : FrameCalls s₀ tr s) : LowRuns s := by
  refine hr.invariant (C := fun _ _ => True) (lowRuns_init hinit) ?_ (fun _ _ => trivial)
  intro s op st hs _ h
  cases op with
  | alloc =>
    obtain ⟨f, hk⟩ := frameCall_alloc h
    exact lowRuns_alloc hs hk
  | free f => exact lowRuns_free hs h

lemma nframes_run {s₀ : Frames} {tr : List (Frames × FrameOp)} (hr : FrameCalls s₀ tr s) :
    s.nframes = s₀.nframes :=
  hr.invariant (I := fun s => s.nframes = s₀.nframes) (C := fun _ _ => True) rfl
    (fun _ _ _ hI _ h => (frameCall_nframes h).trans hI) (fun _ _ => trivial)

/-- In every run after `init_frames` a `kalloc_frame` takes the lowest clear frame and sets no
other bit, and it panics exactly if every frame is taken. -/
theorem kallocFrame_takes_lowest (endKernel memSize : UInt32) (h0 : 0 < (memSize / 4).toNat)
    (hlo : (firstFreeFrame endKernel).toNat ≤ (memSize / 4).toNat)
    (hhi : (memSize / 4).toNat ≤ 32 * frameMapWords) :
    ∃ s₀, initFrames framesBss endKernel memSize = .ok s₀ ∧ ∀ tr s, FrameCalls s₀ tr s →
      s.nframes = memSize / 4 ∧
      (∀ i, LowestClear s i → ∃ st, kallocFrame s = .ok (UInt32.ofNat i * 0x1000, st) ∧
        st.nframes = s.nframes ∧ ∀ j, frameBit st j = (frameBit s j || decide (j = i))) ∧
      ∀ e, kallocFrame s = .error e ↔
        AllTaken s ∧ e = .panic [s.nframes - 1] "Ran out of page frames" := by
  obtain ⟨s₀, hinit, hnf, -⟩ := initFrames_spec endKernel memSize hlo hhi
  refine ⟨s₀, hinit, fun tr s hr => ?_⟩
  have hruns := lowRuns_run hinit hr
  have hn : s.nframes = memSize / 4 := (nframes_run hr).trans hnf
  rw [← hn] at h0 hhi
  have hlast := toNat_last s.nframes
  rw [if_neg (by omega)] at hlast
  have hlowest : ∀ i, LowestClear s i →
      kallocFrame s = .ok (UInt32.ofNat i * 0x1000, markFrame s (UInt32.ofNat i)) := by
    intro i hi
    have hlt := hi.lt
    exact kallocFrame_lowest hruns hi.clear hi.below (by omega) (by omega)
  refine ⟨hn, ?_, fun e => ⟨?_, ?_⟩⟩
  · intro i hi
    have hlt := hi.lt
    refine ⟨_, hlowest i hi, rfl, fun j => ?_⟩
    rw [frameBit_markFrame, toNat_ofNat_frame (by omega)]
  · intro he
    rcases allTaken_or_lowestClear s with hall | ⟨i, hi⟩
    · rw [kallocFrame_full hall h0 hhi] at he
      exact ⟨hall, (Except.error.inj he).symm⟩
    · rw [hlowest i hi] at he
      cases he
  · rintro ⟨hall, rfl⟩
    exact kallocFrame_full hall h0 hhi

/-- With five frames reserved and the whole word freed, the next frame is number 0. -/
theorem kallocFrame_takes_lowest_freed :
    ∃ s₀ tr s st, initFrames framesBss 0xC0004000 256 = .ok s₀ ∧ FrameCalls s₀ tr s ∧
      tr.length = 1 ∧ kallocFrame s = .ok (0, st) ∧
      ∀ j, frameBit st j = (frameBit s j || decide (j = 0)) := by
  obtain ⟨s₀, hinit, hall⟩ := kallocFrame_takes_lowest 0xC0004000 256 (by decide) (by decide)
    (by decide)
  have hrun : ((initFrames framesBss 0xC0004000 256).toOption.bind fun s₀ =>
      (frameCall s₀ (.free 0x3000)).toOption.map fun s =>
        decide (0 < s.nframes.toNat) && !frameBit s 0) = some true := by
    decide +kernel
  rw [hinit] at hrun
  obtain ⟨s, hs, hb⟩ := Option.map_eq_some_iff.mp hrun
  rw [Bool.and_eq_true, decide_eq_true_eq, Bool.not_eq_true'] at hb
  have hr : FrameCalls s₀ [(s₀, .free 0x3000)] s := Run.nil.cons (eq_ok_of_toOption hs)
  obtain ⟨-, hlowest, -⟩ := hall _ s hr
  obtain ⟨st, hk, -, hbits⟩ := hlowest 0 ⟨hb.1, hb.2, by simp⟩
  exact ⟨s₀, _, s, st, hinit, hr, rfl, hk, hbits⟩

/-- `init_frames` and every call after it stay inside `frame_map`. -/
def StaysInMap (endKernel memSize : UInt32) : Prop :=
  initFrames framesBss endKernel memSize ≠ .error .outOfBounds ∧
    ∀ s₀, initFrames framesBss endKernel memSize = .ok s₀ → ∀ tr s, FrameCalls s₀ tr s →
      ∀ op, frameCall s op ≠ .error .outOfBounds

lemma kallocFrameSearch_inside {k : UInt32} (hk : k.toNat ≤ (s.nframes - 1).toNat)
    (hN : (s.nframes - 1).toNat < 32 * frameMapWords) :
    kallocFrameSearch s fuel k ≠ .error .outOfBounds := by
  have h32 : (32 : UInt32).toNat = 32 := rfl
  have h1 : (1 : UInt32).toNat = 1 := rfl
  induction fuel generalizing k with
  | zero => simp [kallocFrameSearch]
  | succ fuel ih =>
    have hin : ¬(k / 32).toNat ≥ frameMapWords := by
      rw [UInt32.toNat_div, h32]
      omega
    rw [kallocFrameSearch, if_neg hin]
    split
    · split
      · simp
      · next hne =>
        have hne' : k.toNat ≠ (s.nframes - 1).toNat := fun he => hne (UInt32.toNat_inj.mp he)
        have hlast := (s.nframes - 1).toNat_lt
        apply ih
        rw [UInt32.toNat_add, h1]
        omega
    · simp

lemma kallocFrame_inside (hN : (s.nframes - 1).toNat < 32 * frameMapWords) :
    kallocFrame s ≠ .error .outOfBounds := by
  apply bind_ne_error
  · exact kallocFrameSearch_inside (Nat.zero_le _) hN
  · simp

lemma kfreeFrame_inside (hN : s.nframes.toNat ≤ 32 * frameMapWords) :
    kfreeFrame s f ≠ .error .outOfBounds := by
  have h32 : (32 : UInt32).toNat = 32 := rfl
  unfold kfreeFrame
  simp only
  split
  · simp
  · next hlt =>
    have hlt' : (f / 0x1000).toNat < s.nframes.toNat := by
      rw [ge_iff_le, UInt32.not_le] at hlt
      exact hlt
    rw [if_neg]
    · simp
    · rw [UInt32.toNat_div, h32]
      omega

lemma reserveFrames_inside {n : Nat} (hN : (s.nframes - 1).toNat < 32 * frameMapWords) :
    reserveFrames n s ≠ .error .outOfBounds := by
  induction n generalizing s with
  | zero => simp [reserveFrames]
  | succ n ih =>
    apply bind_ne_error (kallocFrame_inside hN)
    rintro ⟨f, st⟩ hk
    obtain ⟨i, -, -, -, hnf, -⟩ := kallocFrame_spec hk
    exact ih (by rw [hnf]; exact hN)

lemma reserveFrames_nframes {n : Nat} (h : reserveFrames n s = .ok st) :
    st.nframes = s.nframes := by
  induction n generalizing s with
  | zero => rw [Except.ok.inj h]
  | succ n ih =>
    obtain ⟨⟨f, s₁⟩, hk, hrest⟩ := bind_eq_ok h
    obtain ⟨i, -, -, -, hnf, -⟩ := kallocFrame_spec hk
    rw [ih hrest, hnf]

/-- `init_frames` clears the bytes it is told to, if they are there, and reserves frames. -/
lemma initFrames_eq (endKernel : UInt32) {memSize : UInt32}
    (hfit : (memSize / 4 / 8).toNat ≤ 4 * frameMapWords) :
    initFrames framesBss endKernel memSize =
      reserveFrames (firstFreeFrame endKernel).toNat ⟨fun _ => 0, memSize / 4⟩ := by
  simp only [initFrames, if_neg (Nat.not_lt.mpr hfit), clearFrameMap_bss]

lemma initFrames_overrun {endKernel memSize : UInt32}
    (hbig : 4 * frameMapWords < (memSize / 4 / 8).toNat) :
    initFrames framesBss endKernel memSize = .error .outOfBounds := by
  simp only [initFrames, if_pos hbig]

/-- Calls of `kalloc_frame` alone take `n` frames more. -/
lemma take_frames {n k : Nat} (hb : ∀ j, frameBit s j = decide (j < k))
    (hn : k + n ≤ 32 * frameMapWords) (hle : k + n ≤ (s.nframes - 1).toNat + 1) :
    ∃ tr st, FrameCalls s tr st ∧ st.nframes = s.nframes ∧
      ∀ j, frameBit st j = decide (j < k + n) := by
  induction n with
  | zero => exact ⟨[], s, Run.nil, rfl, hb⟩
  | succ n ih =>
    obtain ⟨tr, st, hr, hnf, hb⟩ := ih (by omega) (by omega)
    have hk := kallocFrame_first hb (by omega) (by rw [hnf]; omega)
    have hcall : frameCall st .alloc = .ok (markFrame st (UInt32.ofNat (k + n))) := by
      rw [frameCall, hk]
      rfl
    exact ⟨_, _, hr.cons hcall, hnf, frameBit_markFrame_first hb (by omega)⟩

/-- The scan then leaves it. -/
lemma kallocFrame_outside (hb : ∀ j, frameBit s j = decide (j < 32 * frameMapWords))
    (hle : 32 * frameMapWords ≤ (s.nframes - 1).toNat) :
    kallocFrame s = .error .outOfBounds := by
  obtain ⟨fuel, hk⟩ := kallocFrame_skip (fun j hj => by rw [hb]; simpa using hj) (Nat.le_refl _) hle
  have hout : (UInt32.ofNat (32 * frameMapWords) / 32).toNat ≥ frameMapWords := by decide
  rw [hk, kallocFrameSearch, if_pos hout]
  rfl

/-- `frame_map` is never left, in whatever order the calls come, exactly if there is a frame and
the bitmap has a bit for each. -/
theorem staysInMap_iff (endKernel memSize : UInt32) :
    StaysInMap endKernel memSize ↔ 0 < memSize / 4 ∧ memSize / 4 ≤ 0x2000 * 32 := by
  have hmap : (0x2000 * 32 : UInt32).toNat = 32 * frameMapWords := by decide
  have hzero : (0 : UInt32).toNat = 0 := rfl
  have h8 : (8 : UInt32).toNat = 8 := rfl
  rw [UInt32.lt_iff_toNat_lt, UInt32.le_iff_toNat_le, hmap, hzero]
  constructor
  · rintro ⟨hinit, hcalls⟩
    have hfit : (memSize / 4 / 8).toNat ≤ 4 * frameMapWords := by
      by_contra hbig
      exact hinit (initFrames_overrun (Nat.not_le.mp hbig))
    by_contra hbad
    have hlast : 32 * frameMapWords ≤ (memSize / 4 - 1).toNat := by
      rw [toNat_last]
      split
      · decide
      · omega
    have hfirst := firstFreeFrame_le endKernel
    have hwords : frameMapWords = 0x2000 := rfl
    obtain ⟨s₀, hs₀, hnf₀, hb₀⟩ := reserveFrames_first (s := ⟨fun _ => 0, memSize / 4⟩)
      (n := (firstFreeFrame endKernel).toNat) (k := 0) (by simp [frameBit]) (by omega) (by
        show _ ≤ (memSize / 4 - 1).toNat + 1
        omega)
    rw [← initFrames_eq endKernel hfit] at hs₀
    rw [Nat.zero_add] at hb₀
    replace hnf₀ : s₀.nframes = memSize / 4 := hnf₀
    obtain ⟨tr, s, hr, hnf, hb⟩ := take_frames hb₀
      (n := 32 * frameMapWords - (firstFreeFrame endKernel).toNat) (by omega) (by rw [hnf₀]; omega)
    rw [Nat.add_sub_of_le (by omega)] at hb
    apply hcalls s₀ hs₀ tr s hr .alloc
    rw [frameCall, kallocFrame_outside hb (by rw [hnf, hnf₀]; exact hlast)]
    rfl
  · rintro ⟨h0, hhi⟩
    have hlast : (memSize / 4 - 1).toNat < 32 * frameMapWords := by
      rw [toNat_last]
      split <;> omega
    have hfit : (memSize / 4 / 8).toNat ≤ 4 * frameMapWords := by
      rw [UInt32.toNat_div, h8]
      omega
    have hinit := initFrames_eq endKernel hfit
    refine ⟨by rw [hinit]; exact reserveFrames_inside hlast, ?_⟩
    intro s₀ hs₀ tr s hr op
    rw [hinit] at hs₀
    have hnf : s.nframes = memSize / 4 := (nframes_run hr).trans (reserveFrames_nframes hs₀)
    cases op with
    | alloc =>
      have hk : kallocFrame s ≠ .error .outOfBounds := kallocFrame_inside (by rw [hnf]; exact hlast)
      cases h : kallocFrame s with
      | error e =>
        rw [h] at hk
        simpa [frameCall, h, Except.map] using hk
      | ok r => simp [frameCall, h, Except.map]
    | free f => exact kfreeFrame_inside (by rw [hnf]; exact hhi)

/-- Two gigabytes of memory have more frames than `frame_map` has bits. -/
theorem leavesMap_two_gigabytes : ¬StaysInMap 0xC0004000 0x1FFC00 := by
  rintro ⟨hinit, -⟩
  exact hinit (initFrames_overrun (by decide))

end SaxonOS.Proofs
