import SaxonOS.Proofs.HeapResults

/-!
# How the search of `kmalloc_alligned` ends

The header of the first block can get lost when it is moved by a few bytes. The search then
goes on with the blocks behind, but the first block no longer reaches the next one, and the
heap is not sound again.
-/

namespace SaxonOS.Proofs
open Lib

variable {h : Heap} {m m' : Mem} {size al p r : UInt32} {bs pre post xs ys : List Extent}
  {b c : Extent} {lo hi fuel : Nat}

/-! ### Lost headers -/

lemma refused_cons_of_suits (hb : Suits size al b) :
    Refused size al (b :: post) ↔ Lost size al b ∧ Refused size al post := by
  constructor
  · rintro ⟨lost, rest, heq, hlost, hrest⟩
    cases lost with
    | nil =>
      rw [List.nil_append] at heq
      exact absurd hb (hrest b (by simp [← heq]))
    | cons d lost =>
      obtain ⟨rfl, rfl⟩ := List.cons.inj heq
      exact ⟨hlost b (by simp), lost, rest, rfl, fun c hc => hlost c (by simp [hc]), hrest⟩
  · rintro ⟨hb, lost, rest, rfl, hlost, hrest⟩
    refine ⟨b :: lost, rest, rfl, ?_, hrest⟩
    intro c hc
    rcases List.mem_cons.mp hc with rfl | hc
    · exact hb
    · exact hlost c hc

/-- A suitable block that does not get lost is not refused. -/
lemma not_refused (hpre : ∀ c ∈ pre, ¬Suits size al c) (hb : Suits size al b)
    (hlost : pre = [] → ¬Lost size al b) : ¬Refused size al (pre ++ b :: post) := by
  cases pre with
  | nil =>
    intro href
    exact hlost rfl ((refused_cons_of_suits hb).mp href).1
  | cons c pre =>
    rintro ⟨lost, rest, heq, hl, hrest⟩
    cases lost with
    | nil =>
      rw [List.nil_append] at heq
      exact hrest b (by simp [← heq]) hb
    | cons d lost =>
      obtain ⟨rfl, -⟩ := List.cons.inj heq
      exact hpre c (by simp) (hl c (by simp)).1

lemma refused_of_none (hbs : ∀ c ∈ bs, ¬Suits size al c) : Refused size al bs :=
  ⟨[], bs, rfl, by simp, hbs⟩

lemma linkNext_outside (m : Mem) {x z next : UInt32} (hz : z.toNat + 16 ≤ 2 ^ 32)
    (hx : Outside x (z + 8) 4)
    (hn : next ≠ 0 → next.toNat + 16 ≤ 2 ^ 32 ∧ Outside x next 16) :
    linkNext m z next x = m x := by
  have h8 : (z + 8).toNat = z.toNat + 8 := toNat_offset hz (by decide)
  unfold linkNext
  by_cases h0 : next = 0
  · rw [if_neg (not_not.mpr h0)]
    exact write32_outside m next (by omega) hx
  · rw [if_pos h0, setPrev_outside _ (hn h0).1 (hn h0).2]
    exact write32_outside m next (by omega) hx

lemma shrink_outside (m : Mem) {a x : UInt32} (n : UInt32) (ha : a.toNat + 16 ≤ 2 ^ 32)
    (hx : Outside x a 16) : shrink m a n x = m x := by
  rw [shrink, setSize_outside _ ha hx, setNext_outside _ ha hx]

lemma lengthen_outside (m : Mem) {q a x : UInt32} (n : UInt32) (hqa : HeaderApart q a)
    (hq : Outside x q 16) (ha : Outside x a 16) : lengthen m q a n x = m x := by
  rw [lengthen, setNext_outside _ hqa.left hq, setSize_outside _ hqa.left hq,
    shrink_outside m n hqa.right ha]

/-- A first block that does not reach the block it points at cannot be part of a sound result
that hands out another one. -/
lemma not_result_of_damaged (hlo : 0 < h.heapStart.toNat)
    (hne : (h.heapStart.toNat + 16) % al.toNat ≠ 0)
    (hdam : h.heapStart.toNat + 16 ≤ r.toNat → r.toNat + 16 ≤ 2 ^ 32 →
      h.heapStart.toNat + 16 + (memBlock m' h.heapStart).size.toNat ≠
        (memBlock m' h.heapStart).next.toNat) :
    ¬AlignedResult h bs size al (r + sizeofMemBlock) { h with mem := splitBlock m' r size } := by
  intro hres
  obtain ⟨bs', c, hl, ht, hc, hca, hcs⟩ := hres.block
  have hhi := h.heapEnd.toNat_lt
  have hcz := size_lt_of_tiles ht hhi hc
  have hrn : r.toNat = c.addr := by rw [← hca, toNat_ofNat_small (by omega)]
  have h16 : sizeofMemBlock.toNat = 16 := rfl
  have hcl : c.addr ≠ h.heapStart.toNat := by
    intro hcl
    have hal := hres.aligned
    rw [toNat_add_small (by omega), hrn, hcl, h16] at hal
    exact hne hal
  have hbehind := tiles_behind_head ht hc hcl
  obtain ⟨e, he, hea⟩ := tiles_head ht hc
  have hstart : UInt32.ofNat e.addr = h.heapStart := by rw [hea, UInt32.ofNat_toNat]
  have hkeep : ∀ x : UInt32, h.heapStart.toNat + 8 ≤ x.toNat → x.toNat < h.heapStart.toNat + 16 →
      splitBlock m' r size x = m' x :=
    fun x hx hx' => splitBlock_first hl ht hhi hc hca hcs hbehind hx hx'
  have hnext : (memBlock (splitBlock m' r size) h.heapStart).next =
      (memBlock m' h.heapStart).next := by
    have h8 : (8 : UInt32).toNat = 8 := rfl
    apply read32_field_congr (by omega) (by decide)
    intro x hx hx'
    exact hkeep x (by omega) (by omega)
  have hsize : (memBlock (splitBlock m' r size) h.heapStart).size =
      (memBlock m' h.heapStart).size := by
    have h12 : (12 : UInt32).toNat = 12 := rfl
    apply read32_field_congr (by omega) (by decide)
    intro x hx hx'
    exact hkeep x (by omega) (by omega)
  have hend := hl.end_eq ht hlo hhi he
  have hesize := hl.size_eq ht hhi he
  rw [hstart, hsize] at hesize
  rw [hstart, hnext, hsize, hea] at hend
  by_cases h0 : (memBlock m' h.heapStart).next = 0
  · -- The first block would be the last one as well.
    rw [if_pos h0, hesize] at hend
    have hapart := ht.apart he hc (by rintro rfl; exact hcl hea)
    have hcb := (ht.bounds hc).2
    omega
  · rw [if_neg h0] at hend
    exact hdam (by omega) (by omega) hend

/-- The first block of the list lies at `lo` or behind it. -/
lemma headAddr_bounds (ht : Tiles 16 lo ys hi) (hhi : hi < 2 ^ 32) (h0 : headAddr 0 ys ≠ 0) :
    lo ≤ (headAddr 0 ys).toNat ∧ (headAddr 0 ys).toNat + 16 ≤ 2 ^ 32 := by
  cases ys with
  | nil => exact absurd rfl h0
  | cons d ys =>
    have hd := size_lt_of_tiles ht hhi (b := d) (by simp)
    have hlo := ht.1
    rw [headAddr, toNat_ofNat_small (by omega)]
    omega

/-- Below the block `b` a move of its header writes at most the link of the block it takes for
the new one. -/
lemma movedFirst_below {x z : UInt32} {s : Nat} (ht : Tiles 16 lo (b :: ys) hi) (hhi : hi < 2 ^ 32)
    (hs : b.addr + 16 + s ≤ 2 ^ 32) (hx : x.toNat < lo) (hz : z.toNat + 16 ≤ 2 ^ 32)
    (hxz : Outside x (z + 8) 4) :
    linkNext (setPrev (shrink m (UInt32.ofNat b.addr) (UInt32.ofNat (b.addr + s)))
      (UInt32.ofNat (b.addr + s)) (UInt32.ofNat b.addr)) z (headAddr 0 ys) x = m x := by
  have hb := ht.1
  have hbn := toNat_ofNat_small (k := b.addr) (by omega)
  have hsn := toNat_ofNat_small (k := b.addr + s) (by omega)
  rw [linkNext_outside _ hz hxz, setPrev_outside _ (by omega) (Or.inl (by omega)),
    shrink_outside _ _ (by omega) (Or.inl (by omega))]
  intro h0
  have hd := headAddr_bounds ht.2 hhi h0
  exact ⟨hd.2, Or.inl (by omega)⟩

lemma movedBehind_below {x : UInt32} {s : Nat} (ht : Tiles 16 lo (xs ++ c :: b :: ys) hi)
    (hhi : hi < 2 ^ 32) (hs : b.addr + 16 + s ≤ 2 ^ 32) (hx : x.toNat < lo) :
    relink (lengthen m (UInt32.ofNat c.addr) (UInt32.ofNat b.addr) (UInt32.ofNat (b.addr + s)))
      (UInt32.ofNat c.addr) (UInt32.ofNat (b.addr + s)) (headAddr 0 ys) x = m x := by
  have hcb := headerApart_of_tiles ht hhi b (by simp)
  have hc := ht.bounds (b := c) (by simp)
  have hb := ht.bounds (b := b) (by simp)
  have hcn := toNat_ofNat_small (k := c.addr) (by omega)
  have hbn := toNat_ofNat_small (k := b.addr) (by omega)
  have hsn := toNat_ofNat_small (k := b.addr + s) (by omega)
  have h8 : (UInt32.ofNat (b.addr + s) + 8).toNat = b.addr + s + 8 := by
    rw [toNat_offset (by omega) (by decide), hsn]
    rfl
  rw [relink, linkNext_outside _ (by omega) (Or.inl (by omega)),
    setPrev_outside _ (by omega) (Or.inl (by omega)),
    lengthen_outside _ _ hcb (Or.inl (by omega)) (Or.inl (by omega))]
  intro h0
  have htd : Tiles 16 lo ((xs ++ [c, b]) ++ ys) hi := by simpa using ht
  obtain ⟨mid, h1, h2⟩ := tiles_append.mp htd
  have hmid := h1.le
  have hd := headAddr_bounds h2 hhi h0
  exact ⟨hd.2, Or.inl (by omega)⟩

/-- The first header moved by less than eight bytes leaves no sound list. -/
lemma not_result_near (hh : TiledHeap h (b :: ys)) (hlo : 0 < h.heapStart.toNat) (h0 : al ≠ 0)
    (hg : alignGap al b ≠ 0) (h8 : alignGap al b < 8) (hle : b.addr + 16 + alignGap al b ≤ 2 ^ 32)
    (hm : moveHeader h.mem (UInt32.ofNat b.addr) (UInt32.ofNat (b.addr + 16 + alignGap al b)) =
      (m', r)) :
    ¬AlignedResult h bs size al (r + sizeofMemBlock) { h with mem := splitBlock m' r size } := by
  have hb := hh.tiles.1
  have hhi := h.heapEnd.toNat_lt
  have hbn := toNat_ofNat_small (k := b.addr) (by omega)
  have hstart : UInt32.ofNat b.addr = h.heapStart := by rw [hb, UInt32.ofNat_toNat]
  rw [moveHeader_first (ofNat_header b _) (by rw [hh.linked.1]), hh.linked.1] at hm
  obtain ⟨hm', rfl⟩ := Prod.mk.inj hm
  apply not_result_of_damaged hlo
  · rw [← hb]
    exact (alignGap_eq_zero_iff h0 b).not.mp hg
  · intro hr hr16
    rw [← hstart] at hr ⊢
    have hza : HeaderApart (firstLink h.mem (UInt32.ofNat b.addr)
        (UInt32.ofNat (b.addr + alignGap al b))) (UInt32.ofNat b.addr) :=
      ⟨hr16, by omega, Or.inr hr⟩
    have hna : headAddr 0 ys ≠ 0 → HeaderApart (headAddr 0 ys) (UInt32.ofNat b.addr) := by
      intro hn0
      have hd := headAddr_bounds hh.tiles.2 hhi hn0
      exact ⟨hd.2, by omega, Or.inr (by omega)⟩
    have hne := firstLink_ne_end (m := h.mem) (a := UInt32.ofNat b.addr) (s := alignGap al b)
      (by omega) h8 (by omega)
    rw [← UInt32.ofNat_add] at hne
    rw [← hm', memBlock_linkNext_apart _ hza hna]
    exact hne.symm

/-- When the link to the new header is lost, the blocks behind become the list. -/
lemma linked_lost {s : Nat} (hl : Linked m 0 (b :: ys) 0) (ht : Tiles 16 lo (b :: ys) hi)
    (hlo : 0 < lo) (hhi : hi < 2 ^ 32) (hs : s ≤ 8) :
    Linked (linkNext (setPrev (shrink m (UInt32.ofNat b.addr) (UInt32.ofNat (b.addr + s)))
      (UInt32.ofNat (b.addr + s)) (UInt32.ofNat b.addr)) 0 (headAddr 0 ys)) 0 ys 0 := by
  have hbz := size_lt_of_tiles ht hhi (b := b) (by simp)
  have hbn := toNat_ofNat_small (k := b.addr) (by omega)
  have hlo' := ht.1
  have htb : Tiles 16 lo ([] ++ b :: ys) hi := ht
  have hbap := headerApart_of_tiles htb hhi
  have hzap : ∀ e ∈ ys, HeaderApart 0 (UInt32.ofNat e.addr) := by
    intro e he
    have hez := size_lt_of_tiles ht.2 hhi he
    have heb := (ht.2.bounds he).1
    have hen := toNat_ofNat_small (k := e.addr) (by omega)
    have hz : (0 : UInt32).toNat = 0 := rfl
    exact ⟨by omega, by omega, Or.inl (by omega)⟩
  have hkeep : ∀ e ∈ ys, memBlock (setPrev (shrink m (UInt32.ofNat b.addr)
      (UInt32.ofNat (b.addr + s))) (UInt32.ofNat (b.addr + s)) (UInt32.ofNat b.addr))
      (UInt32.ofNat e.addr) = memBlock m (UInt32.ofNat e.addr) := by
    intro e he
    have hbe := hbap e (by simpa using he)
    have hez := size_lt_of_tiles ht.2 hhi he
    have heb := (ht.2.bounds he).1
    have hsn := toNat_ofNat_small (k := b.addr + s) (by omega)
    have h4 : (UInt32.ofNat (b.addr + s) + 4).toNat = b.addr + s + 4 := by
      rw [toNat_offset (by omega) (by decide), hsn]
      rfl
    apply memBlock_apart hbe
    intro x hx
    rw [setPrev, write32_outside _ _ (by omega) (by unfold Outside at hx ⊢; omega),
      shrink_outside _ _ hbe.left hx]
  cases ys with
  | nil => trivial
  | cons d ys =>
    have hd0 := ofNat_addr_ne_zero ht hlo hhi (b := d) (by simp)
    have hhead : headAddr 0 (d :: ys) = UInt32.ofNat d.addr := rfl
    have htd : Tiles 16 lo ([b] ++ d :: ys) hi := ht
    have hdap := headerApart_of_tiles htd hhi
    rw [hhead]
    refine ⟨?_, hl.2.2.congr (fun e he => ?_)⟩
    · rw [memBlock_linkNext_next _ hd0 (hzap d (by simp)), hkeep d (by simp)]
      simp only [hl.2.1]
    · rw [memBlock_linkNext_apart _ (hzap e (by simp [he])) (fun _ => hdap e (by simp [he])),
        hkeep e (by simp [he])]

/-! ### How the search ends -/

/-- The ways the search leaves a list: without a block, with an aligned one, or with a header
moved behind a predecessor or away from the start of the list. -/
inductive Outcome (size al : UInt32) (m : Mem) (bs : List Extent) : Mem → UInt32 → Prop
  | none : (∀ c ∈ bs, ¬Suits size al c) → Outcome size al m bs m 0
  | aligned {pre post : List Extent} {b : Extent} : bs = pre ++ b :: post →
      (∀ c ∈ pre, ¬Suits size al c) → Suits size al b → alignGap al b = 0 →
      Outcome size al m bs m (UInt32.ofNat b.addr)
  | behind {xs ys : List Extent} {b c : Extent} {m' : Mem} {r : UInt32} :
      bs = xs ++ c :: b :: ys → (∀ d ∈ xs ++ [c], ¬Suits size al d) → Suits size al b →
      alignGap al b ≠ 0 →
      moveHeader m (UInt32.ofNat b.addr) (UInt32.ofNat (b.addr + 16 + alignGap al b)) = (m', r) →
      r ≠ 0 → Outcome size al m bs m' r
  | first {ys : List Extent} {b : Extent} {m' : Mem} {r : UInt32} : bs = b :: ys →
      Suits size al b → alignGap al b ≠ 0 →
      moveHeader m (UInt32.ofNat b.addr) (UInt32.ofNat (b.addr + 16 + alignGap al b)) = (m', r) →
      r ≠ 0 → Outcome size al m bs m' r

/-- The search goes on behind the block `b`, whose header got lost. -/
structure GoesOn (size al : UInt32) (m : Mem) (fuel : Nat) (b : Extent) (ys : List Extent)
    (m' : Mem) : Prop where
  suits : Suits size al b
  gap : alignGap al b ≠ 0
  moved : moveHeader m (UInt32.ofNat b.addr) (UInt32.ofNat (b.addr + 16 + alignGap al b)) = (m', 0)
  search : kmallocAllignedSearch size al fuel m (UInt32.ofNat b.addr) =
    kmallocAllignedSearch size al (fuel - 1) m' (memBlock m' 0).next

section Ends

variable (h0 : al ≠ 0) (hdvd : al.toNat ∣ 2 ^ 32) (hl : Linked m 0 bs 0) (ht : Tiles 16 lo bs hi)
  (hlo : 0 < lo) (hhi : hi < 2 ^ 32) (hf : bs.length < fuel)
include h0 hdvd hl ht hlo hhi hf

lemma search_outcome (size : UInt32) :
    (∃ m' r, kmallocAllignedSearch size al fuel m (headAddr 0 bs) = .ok (m', r) ∧
      Outcome size al m bs m' r) ∨
    ∃ b ys m', bs = b :: ys ∧ GoesOn size al m fuel b ys m' := by
  cases hfind : bs.find? (fun c => Suits size al c) with
  | none =>
    have hnone : ∀ c ∈ bs, ¬Suits size al c := by simpa using List.find?_eq_none.mp hfind
    exact Or.inl ⟨m, 0, search_none h0 hl ht hlo hhi hf hnone, .none hnone⟩
  | some b =>
    obtain ⟨hb, pre, post, rfl, hpre⟩ := List.find?_eq_some_iff_append.mp hfind
    have hb' : Suits size al b := by simpa using hb
    have hpre' : ∀ c ∈ pre, ¬Suits size al c := by simpa using hpre
    have hstop := search_stop h0 hl ht hlo hhi hf hpre' hb'
    have hbz := size_lt_of_tiles ht hhi (b := b) (by simp)
    by_cases hg : alignGap al b = 0
    · rw [if_pos hg] at hstop
      exact Or.inl ⟨_, _, hstop, .aligned rfl hpre' hb' hg⟩
    · rw [if_neg hg] at hstop
      obtain ⟨m', r, hm⟩ : ∃ m' r, moveHeader m (UInt32.ofNat b.addr)
          (UInt32.ofNat (b.addr + 16 + alignGap al b)) = (m', r) := ⟨_, _, rfl⟩
      rw [hm] at hstop
      rcases List.eq_nil_or_concat pre with rfl | ⟨xs, c, rfl⟩
      · by_cases hr : r = 0
        · subst hr
          simp only [ne_eq, not_true, if_false] at hstop
          exact Or.inr ⟨b, post, m', rfl, hb', hg, hm, hstop⟩
        · simp only [ne_eq, hr, not_false_iff, if_true] at hstop
          exact Or.inl ⟨m', r, hstop, .first rfl hb' hg hm hr⟩
      · have hcat : xs.concat c ++ b :: post = xs ++ c :: b :: post := by simp
        have hr : r ≠ 0 := by
          have hle := alignGap_le h0 hdvd (b := b) (by omega)
          rw [hcat] at hl ht
          rw [moveHeader_behind hl ht hlo hhi hle] at hm
          obtain ⟨-, rfl⟩ := Prod.mk.inj hm
          intro hz
          have hsn := toNat_ofNat_small (k := b.addr + alignGap al b) (by omega)
          rw [hz] at hsn
          have : (0 : UInt32).toNat = 0 := rfl
          omega
        simp only [ne_eq, hr, not_false_iff, if_true] at hstop
        exact Or.inl ⟨m', r, hstop, .behind hcat (by simpa using hpre') hb' hg hm hr⟩

end Ends

/-- The header of the first block gets lost exactly when its link reads back as null. -/
lemma moveHeader_lost_iff {s : Nat} (hl : Linked m 0 (b :: ys) 0) (hb : 0 < b.addr) (hs : s ≠ 0)
    (hle : b.addr + 16 + s ≤ 2 ^ 32)
    (hm : moveHeader m (UInt32.ofNat b.addr) (UInt32.ofNat (b.addr + 16 + s)) = (m', r)) :
    r = 0 ↔ LinkLost b.addr s := by
  have hbn := toNat_ofNat_small (k := b.addr) (by omega)
  have hz : (0 : UInt32).toNat = 0 := rfl
  by_cases h8 : s < 8
  · have hb0 : UInt32.ofNat b.addr ≠ 0 := by
      intro h0
      rw [h0] at hbn
      omega
    rw [moveHeader_first (ofNat_header b s) (by rw [hl.1])] at hm
    obtain ⟨-, rfl⟩ := Prod.mk.inj hm
    have hlost := firstLink_eq_zero_iff (m := m) (by omega) h8 (by omega) hb0
    rw [← UInt32.ofNat_add, hbn] at hlost
    exact hlost
  · rw [moveHeader_first_far hl (by omega) hle] at hm
    obtain ⟨-, rfl⟩ := Prod.mk.inj hm
    have hsn := toNat_ofNat_small (k := b.addr + s) (by omega)
    constructor
    · intro h0
      rw [h0] at hsn
      omega
    · intro hlost
      unfold LinkLost at hlost
      omega

/-- The search comes back with nothing exactly when the list refuses the request. -/
lemma Outcome.refused_iff (hdvd : al.toNat ∣ 2 ^ 32) (h0 : al ≠ 0) (hl : Linked m 0 bs 0)
    (ht : Tiles 16 lo bs hi) (hlo : 0 < lo) (hhi : hi < 2 ^ 32)
    (ho : Outcome size al m bs m' r) : r = 0 ↔ Refused size al bs := by
  cases ho with
  | none hnone => exact iff_of_true rfl (refused_of_none hnone)
  | @aligned pre post b hbs hpre hb hg =>
    subst hbs
    exact iff_of_false (ofNat_addr_ne_zero ht hlo hhi (by simp))
      (not_refused hpre hb (fun _ hlost => hlost.2.1 hg))
  | @behind xs ys b c _ _ hbs hpre hb hg hm hr =>
    subst hbs
    rw [List.append_cons]
    exact iff_of_false hr (not_refused hpre hb (fun hnil => by simp at hnil))
  | @first ys b _ _ hbs hb hg hm hr =>
    subst hbs
    have hbz := size_lt_of_tiles ht hhi (b := b) (by simp)
    have hle := alignGap_le h0 hdvd (b := b) (by omega)
    have hba := ht.1
    have hiff := moveHeader_lost_iff hl (by omega) hg hle hm
    have hnot : ¬Refused size al ([] ++ b :: ys) :=
      not_refused (by simp) hb (fun _ hlost => hr (hiff.mpr hlost.2.2))
    exact iff_of_false hr hnot

/-- What is left when the search goes on: the blocks behind are the list. -/
structure Dropped (size al : UInt32) (m : Mem) (fuel : Nat) (b : Extent) (ys : List Extent)
    (m' : Mem) : Prop where
  lost : Lost size al b
  memory : m' = linkNext (setPrev (shrink m (UInt32.ofNat b.addr)
    (UInt32.ofNat (b.addr + alignGap al b))) (UInt32.ofNat (b.addr + alignGap al b))
    (UInt32.ofNat b.addr)) 0 (headAddr 0 ys)
  linked : Linked m' 0 ys 0
  search : kmallocAllignedSearch size al fuel m (UInt32.ofNat b.addr) =
    kmallocAllignedSearch size al (fuel - 1) m' (headAddr 0 ys)

lemma GoesOn.dropped (hgo : GoesOn size al m fuel b ys m') (h0 : al ≠ 0)
    (hdvd : al.toNat ∣ 2 ^ 32) (hl : Linked m 0 (b :: ys) 0) (ht : Tiles 16 lo (b :: ys) hi)
    (hlo : 0 < lo) (hhi : hi < 2 ^ 32) : Dropped size al m fuel b ys m' := by
  have hbz := size_lt_of_tiles ht hhi (b := b) (by simp)
  have hgap := alignGap_le h0 hdvd (b := b) (by omega)
  have hba := ht.1
  have hlink := (moveHeader_lost_iff hl (by omega) hgo.gap hgap hgo.moved).mp rfl
  have hm := hgo.moved
  have hbn : (memBlock m (UInt32.ofNat b.addr)).next = headAddr 0 ys := by rw [hl.1]
  rw [moveHeader_first (ofNat_header b _) (by rw [hl.1]), hbn] at hm
  obtain ⟨hm', hz⟩ := Prod.mk.inj hm
  rw [hz] at hm'
  have hnext : (memBlock m' 0).next = headAddr 0 ys := by
    have hz0 : (0 : UInt32).toNat = 0 := rfl
    rw [← hm', memBlock_linkNext_same]
    intro hn0
    have hd := headAddr_bounds ht.2 hhi hn0
    exact ⟨hd.2, by omega, Or.inr (by omega)⟩
  refine ⟨⟨hgo.suits, hgo.gap, hlink⟩, hm'.symm, ?_, ?_⟩
  · rw [← hm']
    exact linked_lost hl ht hlo hhi (Nat.le_of_lt (Nat.lt_trans hlink.1 (by decide)))
  · rw [hgo.search, hnext]

/-! ### Searching on behind a lost header -/

/-- The size in the first header does not fit the address space. -/
def Broken (h : Heap) (m : Mem) : Prop :=
  2 ^ 32 ≤ h.heapStart.toNat + 16 + (memBlock m h.heapStart).size.toNat

lemma Broken.keep (hB : Broken h m) (ha : h.heapStart.toNat + 16 ≤ 2 ^ 32)
    (hk : ∀ x, h.heapStart.toNat + 12 ≤ x.toNat → x.toNat < h.heapStart.toNat + 16 → m' x = m x) :
    Broken h m' := by
  have h12 : (12 : UInt32).toNat = 12 := rfl
  have hsize : (memBlock m' h.heapStart).size = (memBlock m h.heapStart).size := by
    apply read32_field_congr ha (by decide)
    intro x hx hx'
    exact hk x (by omega) (by omega)
  unfold Broken
  rw [hsize]
  exact hB

section Broken

variable (h0 : al ≠ 0) (hdvd : al.toNat ∣ 2 ^ 32) (hstart : 0 < h.heapStart.toNat)
  (hne : (h.heapStart.toNat + 16) % al.toNat ≠ 0) (hl : Linked m 0 bs 0) (ht : Tiles 16 lo bs hi)
  (hlo : h.heapStart.toNat + 16 ≤ lo) (hhi : hi < 2 ^ 32) (hB : Broken h m)
include h0 hdvd hstart hne hl ht hlo hhi hB

/-- No way to leave the list behind a broken first header is sound, except to panic. -/
lemma Outcome.broken (ho : Outcome size al m bs m' r) :
    r ≠ 0 → ¬AlignedResult h xs size al (r + sizeofMemBlock)
      { h with mem := splitBlock m' r size } := by
  intro hr0
  have hlo0 : 0 < lo := by omega
  have hle := ht.le
  have hfin : (h.heapStart.toNat + 16 ≤ r.toNat → r.toNat + 16 ≤ 2 ^ 32 → Broken h m') →
      ¬AlignedResult h xs size al (r + sizeofMemBlock) { h with mem := splitBlock m' r size } := by
    intro hB'
    apply not_result_of_damaged hstart hne
    intro h1 h2
    have hbr := hB' h1 h2
    have hlt := (memBlock m' h.heapStart).next.toNat_lt
    unfold Broken at hbr
    omega
  cases ho with
  | none hnone => exact absurd rfl hr0
  | aligned hbs hpre hb hg => exact hfin (fun _ _ => hB)
  | @behind xs ys b c _ _ hbs hpre hb hg hm hr =>
    subst hbs
    have hbz := size_lt_of_tiles ht hhi (b := b) (by simp)
    have hgap := alignGap_le h0 hdvd (b := b) (by omega)
    rw [moveHeader_behind hl ht hlo0 hhi hgap] at hm
    obtain ⟨rfl, rfl⟩ := Prod.mk.inj hm
    apply hfin
    intro _ _
    apply hB.keep (by omega)
    intro x _ hx
    exact movedBehind_below ht hhi hgap (by omega)
  | @first ys b _ _ hbs hb hg hm hr =>
    subst hbs
    have hbz := size_lt_of_tiles ht hhi (b := b) (by simp)
    have hgap := alignGap_le h0 hdvd (b := b) (by omega)
    rw [moveHeader_first (ofNat_header b _) (by rw [hl.1]), hl.1] at hm
    obtain ⟨rfl, rfl⟩ := Prod.mk.inj hm
    apply hfin
    intro h1 h2
    apply hB.keep (by omega)
    intro x _ hx
    have h8 := toNat_offset (k := 8) h2 (by decide)
    have h88 : (8 : UInt32).toNat = 8 := rfl
    exact movedFirst_below ht hhi hgap (by omega) h2 (Or.inl (by omega))

omit hne in
lemma Dropped.broken (hd : Dropped size al m fuel b ys m') (hbs : bs = b :: ys) :
    Broken h m' := by
  subst hbs
  have hle := ht.le
  have hbz := size_lt_of_tiles ht hhi (b := b) (by simp)
  have hgap := alignGap_le h0 hdvd (b := b) (by omega)
  apply hB.keep (by omega)
  intro x hx hx'
  rw [hd.memory]
  have h8 : (0 + 8 : UInt32).toNat = 8 := rfl
  exact movedFirst_below ht hhi hgap (by omega) (by decide) (Or.inr (by omega))

end Broken

/-- Behind a broken first header the search returns a block that spoils the heap, or panics. -/
lemma search_broken (size : UInt32) (bs : List Extent) (h0 : al ≠ 0) (hdvd : al.toNat ∣ 2 ^ 32)
    (hstart : 0 < h.heapStart.toNat) (hne : (h.heapStart.toNat + 16) % al.toNat ≠ 0)
    (hhi : hi < 2 ^ 32) (hl : Linked m 0 ys 0)
    (ht : Tiles 16 lo ys hi) (hlo : h.heapStart.toNat + 16 ≤ lo) (hB : Broken h m)
    (hf : ys.length < fuel) :
    ∃ m' r, kmallocAllignedSearch size al fuel m (headAddr 0 ys) = .ok (m', r) ∧
      (r = 0 ↔ Refused size al ys) ∧ (r ≠ 0 → ¬AlignedResult h bs size al (r + sizeofMemBlock)
        { h with mem := splitBlock m' r size }) := by
  induction ys generalizing m lo fuel with
  | nil => exact ⟨m, 0, search_null size al (by omega), iff_of_true rfl (refused_of_none (by simp)),
      fun hz => absurd rfl hz⟩
  | cons d ys ih =>
    rcases search_outcome h0 hdvd hl ht (by omega) hhi hf size with
      ⟨m', r, hs, ho⟩ | ⟨b, zs, m', heq, hgo⟩
    · exact ⟨m', r, hs, ho.refused_iff hdvd h0 hl ht (by omega) hhi,
        ho.broken h0 hdvd hstart hne hl ht hlo hhi hB⟩
    · obtain ⟨rfl, rfl⟩ := List.cons.inj heq
      have hd := hgo.dropped h0 hdvd hl ht (by omega) hhi
      have hB' := hd.broken h0 hdvd hstart hl ht hlo hhi hB rfl
      have hlen : ys.length < fuel - 1 := by
        rw [List.length_cons] at hf
        omega
      obtain ⟨m'', r, hs, hr, hres⟩ := ih hd.linked ht.2 (by omega) hB' hlen
      refine ⟨m'', r, ?_, ?_, hres⟩
      · rw [headAddr, hd.search, hs]
      · rw [hr, refused_cons_of_suits hgo.suits]
        exact ⟨fun hx => ⟨hd.lost, hx⟩, And.right⟩

end SaxonOS.Proofs
