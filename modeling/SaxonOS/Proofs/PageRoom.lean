import Mathlib.Data.Finset.Card
import Mathlib.Data.Finset.Range
import SaxonOS.Proofs.FrameSearch
import SaxonOS.Proofs.PageMapping

/-!
# When kalloc_page runs out

`kalloc_page` maps the page it found one call earlier and then looks for the next. With one entry
left it has taken the frame and written the entry when the search for another entry panics.
-/

namespace SaxonOS.Proofs
open Lib

variable {table : TableAddr} {pg pg' : Paging} {p : UInt32} {s s' : PageState} {op : PageOp}
  {e : Nat} {t : Nat → UInt32}

lemma findFreePageFrom_iff (t : Nat → UInt32) (fuel i : Nat) :
    (∃ p, findFreePageFrom t fuel i = .ok p) ↔
      ∃ k, i ≤ k ∧ k < i + fuel ∧ pagePresent (t k) = false := by
  constructor
  · rintro ⟨p, h⟩
    obtain ⟨k, hik, hk, -, hfree⟩ := findFreePageFrom_ok h
    exact ⟨k, hik, hk, hfree⟩
  · rintro ⟨k, hik, hk, hfree⟩
    induction fuel generalizing i with
    | zero => omega
    | succ fuel ih =>
      rw [findFreePageFrom]
      split
      · exact ⟨_, rfl⟩
      · next hp =>
        have hne : i ≠ k := by
          rintro rfl
          simp [hfree] at hp
        exact ih (i + 1) (by omega) (by omega)

lemma findFreePage_iff (t : Nat → UInt32) :
    (∃ p, findFreePage t = .ok p) ↔ ∃ k < 1024, pagePresent (t k) = false := by
  rw [findFreePage, findFreePageFrom_iff]
  simp

/-- At least two entries are not present. -/
def TwoFree (t : Nat → UInt32) : Prop :=
  ∃ i < 1024, ∃ j < 1024, i ≠ j ∧ pagePresent (t i) = false ∧ pagePresent (t j) = false

/-- With one entry filled, another is needed. -/
lemma findFreePage_filled (he : e < 1024) (hfree : pagePresent (t e) = false) {x : UInt32}
    (hx : pagePresent x = true) :
    (∃ p, findFreePage (Function.update t e x) = .ok p) ↔ TwoFree t := by
  rw [findFreePage_iff]
  constructor
  · rintro ⟨k, hk, hp⟩
    have hke : k ≠ e := by
      rintro rfl
      rw [Function.update_self, hx] at hp
      cases hp
    rw [Function.update_of_ne hke] at hp
    exact ⟨e, he, k, hk, hke.symm, hfree, hp⟩
  · rintro ⟨i, hi, j, hj, hij, hpi, hpj⟩
    by_cases hie : i = e
    · have hje : j ≠ e := fun h => hij (hie.trans h.symm)
      exact ⟨j, hj, by rw [Function.update_of_ne hje, hpj]⟩
    · exact ⟨i, hi, by rw [Function.update_of_ne hie, hpi]⟩

/-- Every set bit belongs to a mapped frame, and the cached page is past the table only while
the table is full. -/
structure RoomInv (table : TableAddr) (s : PageState) : Prop where
  mapping : MappingInv table s
  full : s.paging.nextFreePage = pageAddr 1024 → ∀ i < 1024, pagePresent (s.paging.ptEntry i) = true
  runs : LowRuns s.paging.frames
  mapped : ∀ k, frameBit s.paging.frames k = true → ∃ i < 1024,
    pagePresent (s.paging.ptEntry i) = true ∧ frameNumber (mappedFrame (s.paging.ptEntry i)) = k

lemma roomInv_alloc (hI : RoomInv table s) (h : kallocPage s.paging = .ok (p, pg')) :
    RoomInv table ⟨pg', p :: s.live⟩ := by
  obtain ⟨e, k, frames, he, hk, rfl, hfree, hf, rfl, -, hpt, hnext⟩ := hI.mapping.alloc h
  refine ⟨mappingInv_alloc hI.mapping h, ?_, lowRuns_alloc hI.runs hf, ?_⟩
  · intro hfull
    obtain ⟨i, -, hi, hpi, -⟩ := findFreePageFrom_ok hnext
    dsimp only at hfull
    rw [hpi] at hfull
    have := pageAddr_inj (by omega) (Nat.le_refl _) hfull
    omega
  · intro j hj
    obtain ⟨i, hi, -, hki, -, -, hbits⟩ := kallocFrame_spec hf
    have hik : k = i := by
      have := congrArg frameNumber hki
      rwa [frameNumber_frame hk, frameNumber_frame hi] at this
    dsimp only at hj
    rw [hbits, Bool.or_eq_true, decide_eq_true_eq] at hj
    dsimp only
    rw [hpt]
    rcases hj with hj | rfl
    · obtain ⟨l, hl, hp, hlj⟩ := hI.mapped j hj
      exact ⟨l, hl, by rw [Function.update_of_ne (ne_of_present hfree hp)]; exact ⟨hp, hlj⟩⟩
    · refine ⟨e, he, ?_⟩
      rw [Function.update_self, hik]
      exact ⟨pagePresent_or _, frameNumber_frameEntry hi⟩

lemma roomInv_free (hI : RoomInv table s) (hp : p ∈ s.live)
    (h : kfreePage table s.paging p = .ok pg') : RoomInv table ⟨pg', s.live.erase p⟩ := by
  have hm := mappingInv_free hI.mapping hp h
  obtain ⟨a, frames, ha, hf, rfl⟩ := kfreePage_cases h
  obtain ⟨e, he, rfl⟩ := hI.mapping.live p hp
  rw [getPhysAddr_kernel hI.mapping.dir (pdIndex_pageAddr he), ptIndex_pageAddr he,
    pageAddr_offset he, UInt32.add_zero] at ha
  split at ha
  · obtain rfl := Except.ok.inj ha
    refine ⟨hm, ?_, lowRuns_free hI.runs hf, ?_⟩
    · intro hfull
      have := pageAddr_inj (by omega) (Nat.le_refl _) hfull
      omega
    · intro k hk
      have hbits := (kfreeFrame_spec hf).2
      dsimp only at hk ⊢
      rw [hbits, Bool.and_eq_true, decide_eq_true_eq] at hk
      obtain ⟨i, hi, hpi, hik⟩ := hI.mapped k hk.1
      have hie : i ≠ e := by
        rintro rfl
        exact hk.2 (by rw [← hik, frameNumber])
      rw [ptIndex_pageAddr he]
      exact ⟨i, hi, by rw [Function.update_of_ne hie]; exact ⟨hpi, hik⟩⟩
  · cases ha

lemma roomInv_init {endKernel memSize : UInt32} {frames : Frames}
    (hf : initFrames framesBss endKernel memSize = .ok frames)
    (hp : initPaging table (pagingBss frames) endKernel = .ok pg) : RoomInv table ⟨pg, []⟩ := by
  have hI := pageInv_init hf hp
  obtain ⟨hle, hfr, -, hpt, hnext⟩ := initPaging_ok hp
  refine ⟨mappingInv_init hf hp, ?_, ?_, fun k hk => (hI.maps.bits k).mp hk⟩
  · intro hfull i hi
    dsimp only at hfull ⊢
    rw [hnext] at hfull
    have hn := pageAddr_inj hle (Nat.le_refl _) hfull
    rw [hpt, identityMap_apply, if_pos (by omega)]
    exact pagePresent_or _
  · dsimp only
    rw [hfr]
    exact lowRuns_init hf

lemma roomInv_run {endKernel memSize : UInt32} {frames : Frames}
    (hf : initFrames framesBss endKernel memSize = .ok frames)
    (hp : initPaging table (pagingBss frames) endKernel = .ok pg)
    {tr : List (PageState × PageOp)} (hr : PageRun table pg tr s) : RoomInv table s := by
  refine hr.invariant (C := fun _ _ => True) (roomInv_init hf hp) ?_ (fun _ _ => trivial)
  intro s op s' hI _ h
  rcases pageExec_cases h with ⟨-, p, pg', hk, rfl⟩ | ⟨p, pg', -, hp, hk, rfl⟩
  · exact roomInv_alloc hI hk
  · exact roomInv_free hI hp hk

/-- A thousand entries cannot map every frame. -/
lemma RoomInv.clear (hI : RoomInv table s) : ∃ c ≤ 1024, frameBit s.paging.frames c = false := by
  by_contra hall
  have hset : ∀ c ≤ 1024, frameBit s.paging.frames c = true := by
    intro c hc
    by_contra h
    exact hall ⟨c, hc, by simpa using h⟩
  have hsub : Finset.range 1025 ⊆ (Finset.range 1024).image
      fun i => frameNumber (mappedFrame (s.paging.ptEntry i)) := by
    intro c hc
    rw [Finset.mem_range] at hc
    obtain ⟨i, hi, -, hic⟩ := hI.mapped c (hset c (by omega))
    exact Finset.mem_image.mpr ⟨i, Finset.mem_range.mpr hi, hic⟩
  have hcard := (Finset.card_le_card hsub).trans Finset.card_image_le
  simp at hcard

/-- `kalloc_page` returns if there are an entry and a frame for the page, and where it fails it
has taken no frame and changed no entry. -/
structure FailsOnlyEmpty (pg : Paging) : Prop where
  serves : (∃ i < 1024, pagePresent (pg.ptEntry i) = false) →
    (∃ k < pg.frames.nframes.toNat, frameBit pg.frames k = false) →
    ∃ p pg', kallocPage pg = .ok (p, pg')
  unchanged : (∀ p pg', kallocPage pg ≠ .ok (p, pg')) →
    (kallocPageLeaves pg).frames = pg.frames ∧ (kallocPageLeaves pg).ptEntry = pg.ptEntry

lemma kallocPageLeaves_ok (h : kallocPage pg = .ok (p, pg')) : kallocPageLeaves pg = pg' := by
  obtain ⟨f, frames, next, hf, hlt, hnext, -, rfl⟩ := kallocPage_cases h
  simp only [kallocPageLeaves, hf, if_neg (Nat.not_le.mpr hlt), hnext]

/-- From the moment `kalloc_frame` returns its frame is taken, whatever comes after. -/
lemma kallocPageLeaves_frames {f : UInt32} {frames : Frames}
    (hf : kallocFrame pg.frames = .ok (f, frames)) : (kallocPageLeaves pg).frames = frames := by
  unfold kallocPageLeaves
  rw [hf]
  dsimp only
  split
  · rfl
  · split <;> rfl

lemma failsOnlyEmpty_of_full (hall : AllTaken pg.frames) {f : Fault}
    (hk : kallocFrame pg.frames = .error f) : FailsOnlyEmpty pg := by
  refine ⟨?_, fun _ => ?_⟩
  · rintro - ⟨k, hk, hclear⟩
    rw [hall k hk] at hclear
    cases hclear
  · rw [kallocPageLeaves, hk]
    exact ⟨rfl, rfl⟩

lemma not_allTaken_of_le {fr : Frames} {i : Nat} (h0 : 0 < fr.nframes.toNat)
    (hle : i ≤ (fr.nframes - 1).toNat) (hclear : frameBit fr i = false) : ¬AllTaken fr := by
  intro hall
  rw [toNat_last, if_neg (by omega)] at hle
  rw [hall i (by omega)] at hclear
  cases hclear

lemma RoomInv.twoFree (hI : RoomInv table s) (h : kallocPage s.paging = .ok (p, pg')) :
    TwoFree s.paging.ptEntry := by
  obtain ⟨e, k, frames, he, -, -, hfree, -, -, -, hpt, hnext⟩ := hI.mapping.alloc h
  rw [hpt] at hnext
  exact (findFreePage_filled he hfree (pagePresent_or _)).mp ⟨_, hnext⟩

lemma RoomInv.returns (hI : RoomInv table s) (h2 : TwoFree s.paging.ptEntry) {f : UInt32}
    {frames : Frames} (hf : kallocFrame s.paging.frames = .ok (f, frames)) :
    ∃ p pg', kallocPage s.paging = .ok (p, pg') := by
  obtain ⟨e, he, hpe, hfree⟩ := hI.mapping.next
  have hlt : e < 1024 := by
    by_contra hge
    obtain rfl : e = 1024 := by omega
    obtain ⟨i, hi, -, -, -, hpi, -⟩ := h2
    rw [hI.full hpe i hi] at hpi
    cases hpi
  obtain ⟨next, hnext⟩ := (findFreePage_filled hlt (hfree hlt) (pagePresent_or f)).mpr h2
  rw [kallocPage_eq hf hpe hlt, hnext]
  exact ⟨_, _, rfl⟩

lemma failsOnlyEmpty_iff (hI : RoomInv table s) :
    FailsOnlyEmpty s.paging ↔ (0 < s.paging.frames.nframes.toNat ∧ AllTaken s.paging.frames) ∨
      TwoFree s.paging.ptEntry := by
  obtain ⟨c, hc, hclear⟩ := hI.clear
  have hcases := kallocFrame_lowest_or_full hI.runs hclear (by unfold frameMapWords; omega)
  constructor
  · intro hF
    rcases hcases with ⟨i, hic, -, hfree, -, hk⟩ | ⟨h0, hall, -⟩
    · right
      by_contra h2
      have hsame := (hF.unchanged fun p pg' h => h2 (hI.twoFree h)).1
      rw [kallocPageLeaves_frames hk] at hsame
      have hset := frameBit_markFrame s.paging.frames (UInt32.ofNat i) i
      rw [hsame, hfree, toNat_ofNat_frame (by unfold frameMapWords; omega)] at hset
      simp at hset
    · exact Or.inl ⟨h0, hall⟩
  · intro hcond
    rcases hcases with ⟨i, -, hle, hfree, -, hk⟩ | ⟨-, hall, hk⟩
    · rcases hcond with ⟨h0, hall⟩ | h2
      · exact absurd hall (not_allTaken_of_le h0 hle hfree)
      · have hret := hI.returns h2 hk
        refine ⟨fun _ _ => hret, fun hno => ?_⟩
        obtain ⟨p, pg', h⟩ := hret
        exact absurd h (hno p pg')
    · exact failsOnlyEmpty_of_full hall hk

/-- In every state that pages allocated and freed lead to, `kalloc_page` fails for want of a page
or a frame only, and without a trace, exactly if every frame is taken or two entries are free. -/
theorem kallocPage_failsOnlyEmpty_iff (table : TableAddr) (endKernel memSize : UInt32)
    {frames : Frames} {pg : Paging} (hf : initFrames framesBss endKernel memSize = .ok frames)
    (hp : initPaging table (pagingBss frames) endKernel = .ok pg)
    {tr : List (PageState × PageOp)} {s : PageState} (hr : PageRun table pg tr s) :
    FailsOnlyEmpty s.paging ↔ (0 < s.paging.frames.nframes.toNat ∧ AllTaken s.paging.frames) ∨
      TwoFree s.paging.ptEntry :=
  failsOnlyEmpty_iff (roomInv_run hf hp hr)

/-- Two pages are allocated and the first is freed; a thousand entries are left. -/
theorem kallocPage_failsOnlyEmpty_after_free :
    ∃ frames pg tr s, initFrames framesBss 0xC0004000 256 = .ok frames ∧
      initPaging ⟨0xC0002000, by decide⟩ (pagingBss frames) 0xC0004000 = .ok pg ∧
      PageRun ⟨0xC0002000, by decide⟩ pg tr s ∧ tr.length = 3 ∧ FailsOnlyEmpty s.paging := by
  have hrun : ((bootPages ⟨0xC0002000, by decide⟩ 0xC0004000 256
      [.alloc, .alloc, .free 0xC0005000]).map fun r =>
        decide (r.2.1.length = 3) && !pagePresent (r.2.2.paging.ptEntry 8) &&
          !pagePresent (r.2.2.paging.ptEntry 9)) = some true := by
    decide +kernel
  obtain ⟨⟨pg, tr, s⟩, hr, hall⟩ := Option.map_eq_some_iff.mp hrun
  obtain ⟨frames, hf, hp, hr⟩ := bootPages_eq_some hr
  simp only [Bool.and_eq_true, decide_eq_true_eq, Bool.not_eq_true'] at hall
  obtain ⟨⟨hlen, h8⟩, h9⟩ := hall
  refine ⟨frames, pg, tr, s, hf, hp, hr, hlen, ?_⟩
  refine (kallocPage_failsOnlyEmpty_iff _ _ _ hf hp hr).mpr (Or.inr ⟨8, ?_, 9, ?_, ?_, h8, h9⟩)
  · decide
  · decide
  · decide

/-- Calls of `kalloc_page` alone are a run. -/
lemma pageRun_kallocPages {pg₀ : Paging} {tr : List (PageState × PageOp)} {k : Nat}
    {ps : List UInt32} (hr : PageRun table pg₀ tr s) (h : kallocPages k s.paging = .ok (ps, pg')) :
    ∃ tr' s', PageRun table pg₀ tr' s' ∧ s'.paging = pg' := by
  induction k generalizing s tr ps with
  | zero =>
    obtain ⟨-, rfl⟩ := Prod.mk.inj (Except.ok.inj h)
    exact ⟨tr, s, hr, rfl⟩
  | succ k ih =>
    obtain ⟨⟨p, pg₁⟩, h₁, h⟩ := bind_eq_ok h
    obtain ⟨⟨ps', pg₂⟩, h₂, h⟩ := bind_eq_ok h
    obtain ⟨-, rfl⟩ := Prod.mk.inj (Except.ok.inj h)
    have hstep : s.exec table .alloc = some ⟨pg₁, p :: s.live⟩ := by
      simp only [PageState.exec, h₁]
    exact ih (hr.cons hstep) h₂

lemma findFreePageFrom_full {fuel i : Nat}
    (h : ∀ k, i ≤ k → k < i + fuel → pagePresent (t k) = true) :
    findFreePageFrom t fuel i = .error (.panic [] "Ran out of free pages") := by
  induction fuel generalizing i with
  | zero => rfl
  | succ fuel ih =>
    rw [findFreePageFrom, h i (Nat.le_refl i) (by omega)]
    exact ih fun k hik hk => h k (by omega) (by omega)

/-- One entry and a frame are left. -/
lemma Lockstepped.last (hL : Lockstepped table 1023 pg)
    (hfit : 1023 ≤ (pg.frames.nframes - 1).toNat) :
    pagePresent (pg.ptEntry 1023) = false ∧ frameBit pg.frames 1023 = false ∧
      kallocPage pg = .error (.panic [] "Ran out of free pages") ∧
      (kallocPageLeaves pg).ptEntry 1023 = frameEntry 1023 := by
  have hf := kallocFrame_first hL.bits (by decide) hfit
  have hnext : findFreePage (Function.update pg.ptEntry 1023 (frameEntry 1023)) =
      .error (.panic [] "Ran out of free pages") :=
    findFreePageFrom_full fun k _ hk => (hL.entries.extend.present_iff k).mpr (by omega)
  change findFreePage (Function.update pg.ptEntry 1023
    (UInt32.ofNat 1023 * 0x1000 ||| 3 ||| 4)) = _ at hnext
  refine ⟨?_, by rw [hL.bits]; rfl, ?_, ?_⟩
  · rw [← Bool.not_eq_true, hL.entries.present_iff]
    omega
  · rw [kallocPage_eq hf hL.next (by omega), hnext]
    rfl
  · unfold kallocPageLeaves
    rw [hf, hL.next, index_pageAddr (by omega)]
    dsimp only
    rw [if_neg (by omega), hnext]
    dsimp only
    rw [Function.update_self, frameEntry]

/-- After 1018 pages next to an image of five frames the last page of the table and a thousand
frames are left. The next `kalloc_page` maps that page and panics. -/
theorem kallocPage_panics_on_last :
    ∃ frames pg tr s, initFrames framesBss 0xC0004000 8192 = .ok frames ∧
      initPaging ⟨0xC0002000, by decide⟩ (pagingBss frames) 0xC0004000 = .ok pg ∧
      PageRun ⟨0xC0002000, by decide⟩ pg tr s ∧
      pagePresent (s.paging.ptEntry 1023) = false ∧ frameBit s.paging.frames 1023 = false ∧
      kallocPage s.paging = .error (.panic [] "Ran out of free pages") ∧
      (kallocPageLeaves s.paging).ptEntry 1023 = frameEntry 1023 ∧ ¬FailsOnlyEmpty s.paging := by
  obtain ⟨frames, hf, hnf, -⟩ := initFrames_spec 0xC0004000 8192 (by decide) (by decide)
  obtain ⟨pg, hp⟩ :
      ∃ pg, initPaging ⟨0xC0002000, by decide⟩ (pagingBss frames) 0xC0004000 = .ok pg :=
    ⟨_, rfl⟩
  obtain ⟨-, hfr, -, -, -⟩ := initPaging_ok hp
  replace hnf : pg.frames.nframes = 8192 / 4 := by
    rw [hfr]
    exact hnf
  obtain ⟨pg', hk, hL, hnf'⟩ := (lockstepped_init hf hp).allocs 1018 (by decide) (by
    rw [hnf]
    decide)
  have hrun : ∃ tr s, PageRun ⟨0xC0002000, by decide⟩ pg tr s ∧ s.paging = pg' :=
    pageRun_kallocPages Run.nil hk
  obtain ⟨tr, s, hr, rfl⟩ := hrun
  obtain ⟨hpage, hframe, hpanic, hentry⟩ := Lockstepped.last hL (by
    rw [hnf', hnf]
    decide)
  refine ⟨frames, pg, tr, s, hf, hp, hr, hpage, hframe, hpanic, hentry, fun hF => ?_⟩
  have hlt : 1023 < s.paging.frames.nframes.toNat := by
    rw [hnf', hnf]
    decide
  obtain ⟨p, pg'', hok⟩ := hF.serves ⟨1023, by omega, hpage⟩ ⟨1023, hlt, hframe⟩
  rw [hpanic] at hok
  cases hok

end SaxonOS.Proofs
