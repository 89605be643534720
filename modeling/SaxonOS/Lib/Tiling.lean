import Mathlib.Data.List.Chain
import Mathlib.Data.List.Pairwise
import Mathlib.Tactic.Tauto

/-!
# Tilings of an interval by headed extents

An allocator that keeps a header of `h` bytes before every extent tiles its region. The
two edits, first-fit allocation with a split and release with a merge on both sides, are
given on lists of extents, and both keep the tiling.
-/

namespace Lib

structure Extent where
  addr : Nat
  size : Nat
  used : Bool
  deriving DecidableEq

/-- The extents lie end to end from `lo` to `hi`, each after its header. -/
def Tiles (h : Nat) : Nat → List Extent → Nat → Prop
  | lo, [], hi => lo = hi
  | lo, b :: bs, hi => b.addr = lo ∧ Tiles h (lo + h + b.size) bs hi

variable {h lo hi : Nat} {bs xs ys : List Extent} {b c : Extent}

lemma tiles_append : Tiles h lo (xs ++ ys) hi ↔ ∃ mid, Tiles h lo xs mid ∧ Tiles h mid ys hi := by
  induction xs generalizing lo with
  | nil => simp [Tiles]
  | cons x xs ih =>
    simp only [List.cons_append, Tiles, ih]
    constructor
    · rintro ⟨hx, mid, h1, h2⟩
      exact ⟨mid, ⟨hx, h1⟩, h2⟩
    · rintro ⟨mid, ⟨hx, h1⟩, h2⟩
      exact ⟨hx, mid, h1, h2⟩

lemma Tiles.le (ht : Tiles h lo bs hi) : lo ≤ hi := by
  induction bs generalizing lo with
  | nil => exact Nat.le_of_eq ht
  | cons b bs ih =>
    have := ih ht.2
    omega

lemma Tiles.bounds (ht : Tiles h lo bs hi) (hb : b ∈ bs) :
    lo ≤ b.addr ∧ b.addr + h + b.size ≤ hi := by
  induction bs generalizing lo with
  | nil => simp at hb
  | cons c bs ih =>
    obtain ⟨hc, ht⟩ := ht
    rcases List.mem_cons.mp hb with rfl | hb
    · have := ht.le
      omega
    · have := ih ht hb
      omega

/-- Earlier extents end before the header of later ones. -/
lemma Tiles.pairwise (ht : Tiles h lo bs hi) :
    bs.Pairwise (fun b c => b.addr + h + b.size ≤ c.addr) := by
  induction bs generalizing lo with
  | nil => exact List.Pairwise.nil
  | cons b bs ih =>
    refine List.Pairwise.cons (fun c hc => ?_) (ih ht.2)
    rw [ht.1]
    exact (ht.2.bounds hc).1

/-- Two different extents of a tiling are apart, headers included. -/
lemma Tiles.apart (ht : Tiles h lo bs hi) (hb : b ∈ bs) (hc : c ∈ bs) (hne : b ≠ c) :
    b.addr + h + b.size ≤ c.addr ∨ c.addr + h + c.size ≤ b.addr := by
  have hsymm : Std.Symm (fun b c : Extent => b.addr + h + b.size ≤ c.addr ∨
      c.addr + h + c.size ≤ b.addr) := ⟨fun _ _ => Or.symm⟩
  have hp : bs.Pairwise (fun b c => b.addr + h + b.size ≤ c.addr ∨
      c.addr + h + c.size ≤ b.addr) := ht.pairwise.imp (fun hle => Or.inl hle)
  exact hp.forall hb hc hne

lemma Tiles.addr_injOn (hh : 0 < h) (ht : Tiles h lo bs hi) (hb : b ∈ bs) (hc : c ∈ bs)
    (he : b.addr = c.addr) : b = c := by
  by_contra hne
  have := ht.apart hb hc hne
  omega

/-- What becomes of a free extent `b` that serves a request of `n`: the surplus is cut off
as a free extent when it has room for a header and one more byte. -/
def place (h n : Nat) (b : Extent) : List Extent :=
  if n + h + 1 ≤ b.size then
    [⟨b.addr, n, true⟩, ⟨b.addr + h + n, b.size - n - h, false⟩]
  else [⟨b.addr, b.size, true⟩]

/-- First fit: the payload address handed out and the extents left. -/
def allocate (h n : Nat) : List Extent → Option (Nat × List Extent)
  | [] => none
  | b :: bs =>
    if b.used = false ∧ n < b.size then some (b.addr + h, place h n b ++ bs)
    else (allocate h n bs).map (fun r => (r.1, b :: r.2))

/-- Merge a free extent with the one after it when that is free too. -/
def mergeNext (h : Nat) (b : Extent) : List Extent → List Extent
  | [] => [b]
  | c :: ys => if c.used = false then ⟨b.addr, b.size + (h + c.size), b.used⟩ :: ys else b :: c :: ys

/-- Free the extent with payload address `p`, merging it with free neighbours. -/
def release (h p : Nat) : List Extent → List Extent
  | [] => []
  | b :: bs =>
    if b.addr + h = p then mergeNext h ⟨b.addr, b.size, false⟩ bs
    else match bs with
      | [] => [b]
      | c :: ys =>
        if c.addr + h = p ∧ b.used = false then
          mergeNext h ⟨b.addr, b.size + (h + c.size), false⟩ ys
        else b :: release h p (c :: ys)

lemma tiles_place (ht : Tiles h lo (b :: ys) hi) (n : Nat) :
    Tiles h lo (place h n b ++ ys) hi := by
  unfold place
  split
  · next hn =>
    simp only [List.cons_append, List.nil_append, Tiles] at ht ⊢
    have he : lo + h + n + h + (b.size - n - h) = lo + h + b.size := by omega
    refine ⟨ht.1, by rw [ht.1], ?_⟩
    rw [he]
    exact ht.2
  · exact ⟨ht.1, ht.2⟩

lemma tiles_mergeNext (ht : Tiles h lo (b :: ys) hi) : Tiles h lo (mergeNext h b ys) hi := by
  cases ys with
  | nil => exact ht
  | cons c ys =>
    rw [mergeNext]
    split
    · simp only [Tiles] at ht ⊢
      have he : lo + h + (b.size + (h + c.size)) = lo + h + b.size + h + c.size := by omega
      refine ⟨ht.1, ?_⟩
      rw [he]
      exact ht.2.2
    · exact ht

/-! A tiling stays one when an extent in it is marked, cut, or merged with the next one. -/

lemma Tiles.mark (ht : Tiles h lo (xs ++ b :: ys) hi) (u : Bool) :
    Tiles h lo (xs ++ ⟨b.addr, b.size, u⟩ :: ys) hi := by
  obtain ⟨mid, h1, h2⟩ := tiles_append.mp ht
  exact tiles_append.mpr ⟨mid, h1, h2⟩

lemma Tiles.cut (ht : Tiles h lo (xs ++ b :: ys) hi) (n : Nat) :
    Tiles h lo (xs ++ (place h n b ++ ys)) hi := by
  obtain ⟨mid, h1, h2⟩ := tiles_append.mp ht
  exact tiles_append.mpr ⟨mid, h1, tiles_place h2 n⟩

lemma Tiles.merge (ht : Tiles h lo (xs ++ b :: c :: ys) hi) (u : Bool) :
    Tiles h lo (xs ++ ⟨b.addr, b.size + (h + c.size), u⟩ :: ys) hi := by
  obtain ⟨mid, h1, hb, hc, h2⟩ := tiles_append.mp ht
  refine tiles_append.mpr ⟨mid, h1, hb, ?_⟩
  have he : mid + h + (b.size + (h + c.size)) = mid + h + b.size + h + c.size := by omega
  rw [he]
  exact h2

lemma tiles_allocate {n p : Nat} (ht : Tiles h lo bs hi) (ha : allocate h n bs = some (p, ys)) :
    Tiles h lo ys hi := by
  induction bs generalizing lo ys p with
  | nil => simp [allocate] at ha
  | cons b bs ih =>
    unfold allocate at ha
    split at ha
    · obtain ⟨-, rfl⟩ := Prod.mk.inj (Option.some.inj ha)
      exact tiles_place ht n
    · obtain ⟨r, hr, he⟩ := Option.map_eq_some_iff.mp ha
      obtain ⟨-, rfl⟩ := Prod.mk.inj he
      exact ⟨ht.1, ih ht.2 hr⟩

lemma tiles_release {p : Nat} (ht : Tiles h lo bs hi) : Tiles h lo (release h p bs) hi := by
  fun_induction release h p bs generalizing lo with
  | case1 => exact ht
  | case2 b bs hp => exact tiles_mergeNext ⟨ht.1, ht.2⟩
  | case3 b hp => exact ht
  | case4 b hp c ys hc =>
    apply tiles_mergeNext
    have he : lo + h + (b.size + (h + c.size)) = lo + h + b.size + h + c.size := by omega
    refine ⟨ht.1, ?_⟩
    rw [he]
    exact ht.2.2
  | case5 b hp c ys hc ih => exact ⟨ht.1, ih ht.2⟩

lemma release_head (b : Extent) (ys : List Extent) :
    release h (b.addr + h) (b :: ys) = mergeNext h ⟨b.addr, b.size, false⟩ ys := by
  cases ys <;> simp [release]

lemma release_cons_skip {p : Nat} (hb : b.addr + h ≠ p) (hc : c.addr + h ≠ p) (ys : List Extent) :
    release h p (b :: c :: ys) = b :: release h p (c :: ys) := by
  simp [release, hb, hc]

/-- Blocks before the predecessor of the freed one play no part. -/
lemma release_append {p : Nat} (hxs : ∀ c ∈ xs, c.addr + h ≠ p) (hb : b.addr + h ≠ p)
    (ys : List Extent) : release h p (xs ++ b :: ys) = xs ++ release h p (b :: ys) := by
  induction xs with
  | nil => rfl
  | cons x xs ih =>
    have hx := hxs x List.mem_cons_self
    have hrest := ih (fun c hc => hxs c (List.mem_cons_of_mem _ hc))
    cases xs with
    | nil => exact release_cons_skip hx hb ys
    | cons y xs =>
      simp only [List.cons_append] at hrest ⊢
      rw [release_cons_skip hx (hxs y (by simp)), hrest]

lemma release_prev (hb : b.addr ≠ c.addr) (ys : List Extent) :
    release h (c.addr + h) (b :: c :: ys) =
      if b.used = false then mergeNext h ⟨b.addr, b.size + (h + c.size), false⟩ ys
      else b :: mergeNext h ⟨c.addr, c.size, false⟩ ys := by
  by_cases hu : b.used = false
  · simp [release, hb, hu]
  · rw [if_neg hu, ← release_head]
    simp [release, hb, hu]

lemma mergeNext_free (ys : List Extent) (hu : b.used = false) :
    ∃ f ∈ mergeNext h b ys, f.used = false ∧ f.addr = b.addr ∧ b.size ≤ f.size := by
  cases ys with
  | nil => exact ⟨b, by simp [mergeNext], hu, rfl, Nat.le_refl _⟩
  | cons c ys =>
    rw [mergeNext]
    split_ifs
    · exact ⟨_, List.mem_cons_self, hu, rfl, Nat.le_add_right _ _⟩
    · exact ⟨b, List.mem_cons_self, hu, rfl, Nat.le_refl _⟩

section Split

variable (hh : 0 < h) (ht : Tiles h lo (xs ++ b :: ys) hi)
include hh ht

lemma payload_ne_of_before : ∀ c ∈ xs, c.addr + h ≠ b.addr + h := by
  intro c hc
  obtain ⟨mid, h1, h2⟩ := tiles_append.mp ht
  have hbound := h1.bounds hc
  have hba := h2.1
  omega

/-- Behind a used extent, or at the start, a release merges with what follows only. -/
lemma release_after_used (hu : ∀ a ∈ xs.getLast?, a.used = true) :
    release h (b.addr + h) (xs ++ b :: ys) = xs ++ mergeNext h ⟨b.addr, b.size, false⟩ ys := by
  have hne := payload_ne_of_before hh ht
  rcases List.eq_nil_or_concat xs with rfl | ⟨xs, a, rfl⟩
  · exact release_head b ys
  · simp only [List.concat_eq_append, List.append_assoc, List.cons_append, List.nil_append] at hne ⊢
    have ha := hne a (by simp)
    have hau := hu a (by simp)
    rw [release_append (fun c hc => hne c (by simp [hc])) ha, release_prev (by omega), if_neg]
    simp [hau]

/-- Behind a free extent it merges with that too. -/
lemma release_after_free {a : Extent} {ws : List Extent} (hxs : xs = ws ++ [a])
    (hu : a.used = false) : release h (b.addr + h) (xs ++ b :: ys) =
      ws ++ mergeNext h ⟨a.addr, a.size + (h + b.size), false⟩ ys := by
  have hne := payload_ne_of_before hh ht
  subst hxs
  have ha := hne a (by simp)
  rw [List.append_assoc, List.singleton_append,
    release_append (fun c hc => hne c (by simp [hc])) ha, release_prev (by omega), if_pos hu]

end Split

/-- The extent that is freed lies in a free one afterwards. -/
lemma release_free (hh : 0 < h) (ht : Tiles h lo bs hi) (hb : b ∈ bs) :
    ∃ f ∈ release h (b.addr + h) bs, f.used = false ∧ f.addr ≤ b.addr ∧ b.size ≤ f.size := by
  obtain ⟨xs, ys, rfl⟩ := List.append_of_mem hb
  by_cases hu : ∀ a ∈ xs.getLast?, a.used = true
  · rw [release_after_used hh ht hu]
    obtain ⟨f, hf, hfu, hfa, hfs⟩ := mergeNext_free (h := h) (b := ⟨b.addr, b.size, false⟩) ys rfl
    exact ⟨f, List.mem_append_right _ hf, hfu, Nat.le_of_eq hfa, hfs⟩
  · push Not at hu
    obtain ⟨a, ha, hau⟩ := hu
    obtain ⟨ws, rfl⟩ := List.getLast?_eq_some_iff.mp ha
    rw [release_after_free hh ht rfl (by simpa using hau)]
    obtain ⟨f, hf, hfu, hfa, hfs⟩ := mergeNext_free (h := h)
      (b := ⟨a.addr, a.size + (h + b.size), false⟩) ys rfl
    have hpair := (List.pairwise_append.mp ht.pairwise).2.2 a (by simp) b List.mem_cons_self
    have hsum : a.size + (h + b.size) ≤ f.size := hfs
    exact ⟨f, List.mem_append_right _ hf, hfu, by rw [hfa]; dsimp only; omega, by omega⟩

/-- Whether a free extent is larger than `n`. -/
def Fits (n : Nat) (bs : List Extent) : Prop := ∃ c ∈ bs, c.used = false ∧ n < c.size

@[simp] lemma fits_append {n : Nat} : Fits n (xs ++ ys) ↔ Fits n xs ∨ Fits n ys := by
  simp only [Fits, List.mem_append, or_and_right, exists_or]

@[simp] lemma fits_cons {n : Nat} : Fits n (b :: bs) ↔ (b.used = false ∧ n < b.size) ∨ Fits n bs := by
  simp only [Fits, List.mem_cons, or_and_right, exists_or, exists_eq_left]

/-- Next to the extent `b` lies a free one. -/
def FreeNeighbour (h : Nat) (bs : List Extent) (b : Extent) : Prop :=
  ∃ c ∈ bs, c.used = false ∧ (c.addr + h + c.size = b.addr ∨ b.addr + h + b.size = c.addr)

lemma mergeNext_fits {n : Nat} (ys : List Extent) (hh : 0 < h) (hu : b.used = false) (hn : n ≤ b.size) :
    Fits n (mergeNext h b ys) ↔ n < b.size ∨ (∃ c ∈ ys.head?, c.used = false) ∨ Fits n ys := by
  cases ys with
  | nil => simp [mergeNext, Fits, hu]
  | cons c ys =>
    rw [mergeNext]
    split_ifs with hc
    · have hsum : n < b.size + (h + c.size) := by omega
      simp [hu, hc, hsum]
    · simp [hu, hc]

/-- The free neighbours of an extent are the last one before it and the first one after it. -/
lemma freeNeighbour_iff (hh : 0 < h) (ht : Tiles h lo (xs ++ b :: ys) hi) :
    FreeNeighbour h (xs ++ b :: ys) b ↔
      (∃ a ∈ xs.getLast?, a.used = false) ∨ ∃ c ∈ ys.head?, c.used = false := by
  obtain ⟨mid, h1, hba, h2⟩ := tiles_append.mp ht
  constructor
  · rintro ⟨c, hc, hu, hend | hend⟩
    · have hcx : c ∈ xs := by
        rcases List.mem_append.mp hc with hc | hc
        · exact hc
        · have hbound := (show Tiles h mid (b :: ys) hi from ⟨hba, h2⟩).bounds hc
          omega
      obtain ⟨ws, a, rfl⟩ := (List.eq_nil_or_concat xs).resolve_left (List.ne_nil_of_mem hcx)
      rw [List.concat_eq_append] at hcx h1 ⊢
      refine Or.inl ⟨a, by simp, ?_⟩
      rcases List.mem_append.mp hcx with hcw | hca
      · -- Between an earlier extent and `b` lies the header of `a`.
        have hpair := (List.pairwise_append.mp h1.pairwise).2.2 c hcw a (by simp)
        have hbound := h1.bounds (b := a) (by simp)
        omega
      · rwa [← List.mem_singleton.mp hca]
    · have hcy : c ∈ ys := by
        rcases List.mem_append.mp hc with hc | hc
        · have hbound := h1.bounds hc
          omega
        · rcases List.mem_cons.mp hc with rfl | hc
          · omega
          · exact hc
      obtain ⟨d, zs, rfl⟩ := List.exists_cons_of_ne_nil (List.ne_nil_of_mem hcy)
      refine Or.inr ⟨d, rfl, ?_⟩
      rcases List.mem_cons.mp hcy with rfl | hcz
      · exact hu
      · have hda := h2.1
        have hbound := h2.2.bounds hcz
        omega
  · rintro (⟨a, ha, hu⟩ | ⟨c, hc, hu⟩)
    · obtain ⟨ws, rfl⟩ := List.getLast?_eq_some_iff.mp ha
      obtain ⟨lo', -, hae, hend⟩ := tiles_append.mp h1
      have hmid : lo' + h + a.size = mid := hend
      exact ⟨a, by simp, hu, Or.inl (by omega)⟩
    · obtain ⟨d, zs, rfl⟩ := List.exists_cons_of_ne_nil (show ys ≠ [] by rintro rfl; cases hc)
      obtain rfl := Option.some.inj hc
      have hda := h2.1
      exact ⟨d, by simp, hu, Or.inr (by omega)⟩

/-- After a release a free extent is larger than `n` if one was before, if the released one is,
or if that has grown. -/
lemma release_fits {n : Nat} (hh : 0 < h) (ht : Tiles h lo bs hi) (hb : b ∈ bs)
    (hu : b.used = true) (hn : n ≤ b.size) :
    Fits n (release h (b.addr + h) bs) ↔ n < b.size ∨ FreeNeighbour h bs b ∨ Fits n bs := by
  obtain ⟨xs, ys, rfl⟩ := List.append_of_mem hb
  rw [freeNeighbour_iff hh ht]
  by_cases hp : ∀ a ∈ xs.getLast?, a.used = true
  · have hnone : ¬∃ a ∈ xs.getLast?, a.used = false := by
      rintro ⟨a, ha, hau⟩
      rw [hp a ha] at hau
      cases hau
    have hmerge := mergeNext_fits (b := ⟨b.addr, b.size, false⟩) ys hh rfl hn
    rw [release_after_used hh ht hp]
    simp only [fits_append, fits_cons, hmerge, hnone, hu, Bool.true_eq_false, false_and, false_or]
    rw [or_left_comm, or_left_comm (a := Fits n xs)]
  · push Not at hp
    obtain ⟨a, ha, hau⟩ := hp
    obtain ⟨ws, rfl⟩ := List.getLast?_eq_some_iff.mp ha
    have hsum : n < a.size + (h + b.size) := by omega
    have hmerge := mergeNext_fits (b := ⟨a.addr, a.size + (h + b.size), false⟩) ys hh rfl hsum.le
    rw [release_after_free hh ht rfl (by simpa using hau)]
    simp only [fits_append, hmerge]
    exact iff_of_true (Or.inr (Or.inl hsum)) (Or.inr (Or.inl (Or.inl ⟨a, ha, by simpa using hau⟩)))

lemma allocate_eq_some {n p : Nat} (ha : allocate h n bs = some (p, ys)) :
    ∃ pre b post, bs = pre ++ b :: post ∧ (∀ c ∈ pre, ¬(c.used = false ∧ n < c.size)) ∧
      b.used = false ∧ n < b.size ∧ p = b.addr + h ∧ ys = pre ++ (place h n b ++ post) := by
  induction bs generalizing ys p with
  | nil => simp [allocate] at ha
  | cons b bs ih =>
    unfold allocate at ha
    split at ha
    · next hfit =>
      obtain ⟨rfl, rfl⟩ := Prod.mk.inj (Option.some.inj ha)
      exact ⟨[], b, bs, rfl, by simp, hfit.1, hfit.2, rfl, rfl⟩
    · next hfit =>
      obtain ⟨r, hr, he⟩ := Option.map_eq_some_iff.mp ha
      obtain ⟨rfl, rfl⟩ := Prod.mk.inj he
      obtain ⟨pre, c, post, rfl, hpre, hu, hn, hp, hy⟩ := ih hr
      refine ⟨b :: pre, c, post, rfl, ?_, hu, hn, hp, by rw [hy]; rfl⟩
      intro d hd
      rcases List.mem_cons.mp hd with rfl | hd
      · exact hfit
      · exact hpre d hd

lemma allocate_eq_none {n : Nat} (ha : allocate h n bs = none) :
    ∀ c ∈ bs, ¬(c.used = false ∧ n < c.size) := by
  induction bs with
  | nil => simp
  | cons b bs ih =>
    unfold allocate at ha
    split at ha
    · cases ha
    · next hfit =>
      intro d hd
      rcases List.mem_cons.mp hd with rfl | hd
      · exact hfit
      · exact ih (Option.map_eq_none_iff.mp ha) d hd

lemma allocate_of_unfit {n : Nat} (hfit : ∀ c ∈ bs, ¬(c.used = false ∧ n < c.size)) :
    allocate h n bs = none := by
  cases ha : allocate h n bs with
  | none => rfl
  | some a =>
    obtain ⟨pre, e, post, rfl, -, hu, hn, -, -⟩ := allocate_eq_some ha
    exact absurd ⟨hu, hn⟩ (hfit e (by simp))

/-! ### What the edits do to the used extents, and to alignment -/

lemma Tiles.mul_length_le (ht : Tiles h lo bs hi) : lo + h * bs.length ≤ hi := by
  induction bs generalizing lo with
  | nil => simpa [Tiles] using ht.le
  | cons b bs ih =>
    have := ih ht.2
    rw [List.length_cons, Nat.mul_succ]
    omega

/-- Allocation turns one free extent into a used one that is large enough and keeps the
used ones as they are. -/
lemma allocate_used {n p : Nat} (ha : allocate h n bs = some (p, ys)) :
    ∃ a k, p = a + h ∧ n ≤ k ∧ (∃ c ∈ bs, c.used = false ∧ c.addr = a) ∧
      ∀ b, b.used = true → (b ∈ ys ↔ b = ⟨a, k, true⟩ ∨ b ∈ bs) := by
  obtain ⟨pre, c, post, rfl, -, hu, hn, hp, rfl⟩ := allocate_eq_some ha
  have hc : ∀ b : Extent, b.used = true → b ≠ c := by
    rintro b hb rfl
    rw [hu] at hb
    cases hb
  by_cases hs : n + h + 1 ≤ c.size
  · refine ⟨c.addr, n, hp, Nat.le_refl n, ⟨c, by simp, hu, rfl⟩, fun b hb => ?_⟩
    have hf : b ≠ ⟨c.addr + h + n, c.size - n - h, false⟩ := by
      rintro rfl
      cases hb
    simp only [place, if_pos hs, List.mem_append, List.mem_cons, List.not_mem_nil, or_false,
      hf, hc b hb, false_or]
    tauto
  · refine ⟨c.addr, c.size, hp, Nat.le_of_lt hn, ⟨c, by simp, hu, rfl⟩, fun b hb => ?_⟩
    simp only [place, if_neg hs, List.mem_append, List.mem_cons, List.not_mem_nil, or_false,
      hc b hb, false_or]
    tauto

lemma mergeNext_used (hu : b.used = false) (c : Extent) (hc : c.used = true) :
    c ∈ mergeNext h b ys ↔ c ∈ ys := by
  have hcb : ∀ d : Extent, d.used = false → c ≠ d := by
    rintro d hd rfl
    rw [hd] at hc
    cases hc
  cases ys with
  | nil => simp [mergeNext, hcb b hu]
  | cons d ys =>
    rw [mergeNext]
    split
    · next hd => simp [hcb _ hd, hcb ⟨b.addr, b.size + (h + d.size), b.used⟩ hu]
    · simp [hcb b hu]

/-- Release drops the used extent with the given payload address and keeps the others. -/
lemma release_used {p : Nat} (hh : 0 < h) (ht : Tiles h lo bs hi) (c : Extent)
    (hc : c.used = true) : c ∈ release h p bs ↔ c ∈ bs ∧ c.addr + h ≠ p := by
  fun_induction release h p bs generalizing lo with
  | case1 => simp
  | case2 b bs hp =>
    rw [mergeNext_used rfl c hc]
    constructor
    · intro hm
      have := (ht.2.bounds hm).1
      have := ht.1
      exact ⟨List.mem_cons_of_mem _ hm, by omega⟩
    · rintro ⟨hm, hne⟩
      rcases List.mem_cons.mp hm with rfl | hm
      · exact absurd hp hne
      · exact hm
  | case3 b hp =>
    constructor
    · intro hm
      rw [List.mem_singleton] at hm
      subst hm
      exact ⟨by simp, hp⟩
    · exact And.left
  | case4 b hp d ys hd =>
    rw [mergeNext_used rfl c hc]
    have hcb : c ≠ b := by
      rintro rfl
      rw [hd.2] at hc
      cases hc
    constructor
    · intro hm
      have := (ht.2.2.bounds hm).1
      have := ht.2.1
      exact ⟨by simp [hm], by omega⟩
    · rintro ⟨hm, hne⟩
      rcases List.mem_cons.mp hm with rfl | hm
      · exact absurd rfl hcb
      · rcases List.mem_cons.mp hm with rfl | hm
        · exact absurd hd.1 hne
        · exact hm
  | case5 b hp d ys hd ih =>
    rw [List.mem_cons, ih ht.2]
    constructor
    · rintro (rfl | ⟨hm, hne⟩)
      · exact ⟨List.mem_cons_self, hp⟩
      · exact ⟨List.mem_cons_of_mem _ hm, hne⟩
    · rintro ⟨hm, hne⟩
      rcases List.mem_cons.mp hm with rfl | hm
      · exact Or.inl rfl
      · exact Or.inr ⟨hm, hne⟩

/-- Every size is a multiple of `k`. -/
def SizesDvd (k : Nat) (bs : List Extent) : Prop := ∀ b ∈ bs, k ∣ b.size

lemma sizesDvd_place {k n : Nat} (hh : k ∣ h) (hn : k ∣ n) (hb : k ∣ b.size) :
    SizesDvd k (place h n b) := by
  intro c hc
  unfold place at hc
  split at hc
  · simp only [List.mem_cons, List.not_mem_nil, or_false] at hc
    rcases hc with rfl | rfl
    · exact hn
    · exact Nat.dvd_sub (Nat.dvd_sub hb hn) hh
  · simp only [List.mem_cons, List.not_mem_nil, or_false] at hc
    subst hc
    exact hb

lemma sizesDvd_allocate {k n p : Nat} (hh : k ∣ h) (hn : k ∣ n) (hb : SizesDvd k bs)
    (ha : allocate h n bs = some (p, ys)) : SizesDvd k ys := by
  obtain ⟨pre, c, post, rfl, -, -, -, -, rfl⟩ := allocate_eq_some ha
  intro d hd
  rcases List.mem_append.mp hd with hd | hd
  · exact hb d (by simp [hd])
  · rcases List.mem_append.mp hd with hd | hd
    · exact sizesDvd_place hh hn (hb c (by simp)) d hd
    · exact hb d (by simp [hd])

lemma sizesDvd_mergeNext {k : Nat} (hh : k ∣ h) (hb : SizesDvd k (b :: ys)) :
    SizesDvd k (mergeNext h b ys) := by
  cases ys with
  | nil => exact hb
  | cons c ys =>
    rw [mergeNext]
    split
    · intro d hd
      rcases List.mem_cons.mp hd with rfl | hd
      · exact Nat.dvd_add (hb b (by simp)) (Nat.dvd_add hh (hb c (by simp)))
      · exact hb d (by simp [hd])
    · exact hb

lemma sizesDvd_release {k p : Nat} (hh : k ∣ h) (hb : SizesDvd k bs) :
    SizesDvd k (release h p bs) := by
  fun_induction release h p bs with
  | case1 => exact hb
  | case2 b bs hp =>
    apply sizesDvd_mergeNext hh
    intro d hd
    rcases List.mem_cons.mp hd with rfl | hd
    · exact hb b (by simp)
    · exact hb d (by simp [hd])
  | case3 b hp => exact hb
  | case4 b hp c ys hc =>
    apply sizesDvd_mergeNext hh
    intro d hd
    rcases List.mem_cons.mp hd with rfl | hd
    · exact Nat.dvd_add (hb b (by simp)) (Nat.dvd_add hh (hb c (by simp)))
    · exact hb d (by simp [hd])
  | case5 b hp c ys hc ih =>
    intro d hd
    rcases List.mem_cons.mp hd with rfl | hd
    · exact hb _ (by simp)
    · exact ih (fun e he => hb e (by simp [he])) d hd

/-- In a tiling from an aligned address with aligned sizes every address is aligned. -/
lemma Tiles.dvd_addr {k : Nat} (hh : k ∣ h) (hlo : k ∣ lo) (ht : Tiles h lo bs hi)
    (hb : SizesDvd k bs) : ∀ b ∈ bs, k ∣ b.addr := by
  induction bs generalizing lo with
  | nil => simp
  | cons b bs ih =>
    intro c hc
    rcases List.mem_cons.mp hc with rfl | hc
    · rw [ht.1]
      exact hlo
    · have hnext : k ∣ lo + h + b.size := Nat.dvd_add (Nat.dvd_add hlo hh) (hb b (by simp))
      exact ih hnext ht.2 (fun d hd => hb d (by simp [hd])) c hc

/-! ### Tilings without two free neighbours -/

/-- Of two neighbouring extents one is used. -/
def Coalesced (bs : List Extent) : Prop := bs.IsChain (fun b c => b.used = true ∨ c.used = true)

lemma Coalesced.tail (hc : Coalesced (b :: bs)) : Coalesced bs := List.IsChain.tail hc

/-- A first extent may be replaced by one that is used or was as free before. -/
lemma Coalesced.replace_head (hc : Coalesced (b :: bs)) (hu : b.used = true → c.used = true) :
    Coalesced (c :: bs) :=
  hc.imp_head (fun hz => hz.imp_left hu)

lemma coalesced_mergeNext (hc : Coalesced bs) (b : Extent) : Coalesced (mergeNext h b bs) := by
  cases bs with
  | nil => exact List.isChain_singleton b
  | cons c ys =>
    rw [mergeNext]
    split
    · next hu =>
      apply hc.replace_head
      rw [hu]
      intro hf
      cases hf
    · next hu =>
      apply List.IsChain.cons hc
      intro y hy
      obtain rfl := Option.some.inj hy
      exact Or.inr (by simpa using hu)

/-- Releasing another extent leaves a used first extent in its place. -/
lemma release_keeps_head {p : Nat} (hu : b.used = true) (hp : b.addr + h ≠ p)
    (ys : List Extent) : (release h p (b :: ys)).head? = some b := by
  cases ys with
  | nil => simp [release, hp]
  | cons c ys => simp [release, hp, hu]

lemma coalesced_release {p : Nat} (hc : Coalesced bs) : Coalesced (release h p bs) := by
  fun_induction release h p bs with
  | case1 => exact hc
  | case2 b bs hp => exact coalesced_mergeNext hc.tail _
  | case3 b hp => exact hc
  | case4 b hp c ys hd => exact coalesced_mergeNext hc.tail.tail _
  | case5 b hp c ys hd ih =>
    apply List.IsChain.cons (ih hc.tail)
    intro y hy
    cases hu : b.used with
    | true => exact Or.inl rfl
    | false =>
      -- The neighbour of a free extent is used, and it is not the one released.
      have hcu : c.used = true := by
        have hbc := hc.rel_head? (y := c) rfl
        rw [hu] at hbc
        simpa using hbc
      have hcp : c.addr + h ≠ p := fun he => hd ⟨he, hu⟩
      rw [release_keeps_head hcu hcp] at hy
      obtain rfl := Option.some.inj hy
      exact Or.inr hcu

lemma coalesced_place (hc : Coalesced (b :: ys)) (hu : b.used = false) (n : Nat) :
    Coalesced (place h n b ++ ys) := by
  unfold place
  split
  · have htail : Coalesced (⟨b.addr + h + n, b.size - n - h, false⟩ :: ys) := by
      apply hc.replace_head
      rw [hu]
      exact id
    apply List.IsChain.cons htail
    intro y _
    exact Or.inl rfl
  · exact hc.replace_head (fun _ => rfl)

/-- Whatever stands before the extent that is placed sees a used extent next. -/
lemma place_head (n : Nat) (b : Extent) (ys : List Extent) :
    ∀ y ∈ (place h n b ++ ys).head?, y.used = true := by
  unfold place
  split <;> simp

lemma coalesced_allocate {n p : Nat} (hc : Coalesced bs) (ha : allocate h n bs = some (p, ys)) :
    Coalesced ys := by
  obtain ⟨pre, b, post, rfl, -, hu, -, -, rfl⟩ := allocate_eq_some ha
  have hpost : Coalesced (b :: post) := hc.right_of_append
  apply List.IsChain.append hc.left_of_append (coalesced_place hpost hu n)
  intro x _ y hy
  exact Or.inr (place_head n b post y hy)

/-- Without a used extent a coalesced tiling is one free extent. -/
lemma Coalesced.eq_singleton (hc : Coalesced bs) (ht : Tiles h lo bs hi) (hlt : lo < hi)
    (hu : ∀ b ∈ bs, b.used = false) : bs = [⟨lo, hi - lo - h, false⟩] := by
  match bs with
  | [] => exact absurd ht (Nat.ne_of_lt hlt)
  | [b] =>
    obtain ⟨ha, hend⟩ := ht
    have hb := hu b List.mem_cons_self
    simp only [Tiles] at hend
    have hsize : hi - lo - h = b.size := by omega
    rw [hsize, ← ha, ← hb]
  | b :: c :: ys =>
    have hbc := hc.rel_head? (y := c) rfl
    simp [hu b, hu c] at hbc

/-- Releasing an extent right after it was allocated gives the list back. -/
lemma release_allocate {n p : Nat} (hh : 0 < h) (hc : Coalesced bs) (ht : Tiles h lo bs hi)
    (ha : allocate h n bs = some (p, ys)) : release h p ys = bs := by
  obtain ⟨pre, b, post, rfl, -, hu, hn, rfl, rfl⟩ := allocate_eq_some ha
  -- The neighbours of a free extent are used.
  have hbefore : ∀ a ∈ pre.getLast?, a.used = true := by
    intro a hap
    have hpair := (List.isChain_append.mp hc).2.2 a hap b rfl
    simpa [hu] using hpair
  have hafter : ∀ c ∈ post.head?, c.used = true := by
    intro c hcp
    have hpair := (List.isChain_append.mp hc).2.1.rel_head? hcp
    simpa [hu] using hpair
  have hb : (⟨b.addr, b.size, false⟩ : Extent) = b := by rw [← hu]
  by_cases hs : n + h + 1 ≤ b.size
  · have hplaced := ht.cut n
    simp only [place, if_pos hs, List.cons_append, List.nil_append] at hplaced ⊢
    have hsum : n + (h + (b.size - n - h)) = b.size := by omega
    rw [release_after_used (b := ⟨b.addr, n, true⟩) hh hplaced hbefore]
    simp only [mergeNext, if_true, hsum, hb]
  · have hplaced := ht.cut n
    simp only [place, if_neg hs, List.cons_append, List.nil_append] at hplaced ⊢
    rw [release_after_used (b := ⟨b.addr, b.size, true⟩) hh hplaced hbefore]
    cases post with
    | nil => simp [mergeNext, hb]
    | cons c post => simp [mergeNext, hb, hafter c rfl]

/-- One edit of a tiling, or none. -/
inductive Edit (h : Nat) (bs : List Extent) : List Extent → Prop
  | keep : Edit h bs bs
  | allocate {n p : Nat} {ys : List Extent} : Lib.allocate h n bs = some (p, ys) → Edit h bs ys
  | release (p : Nat) : Edit h bs (Lib.release h p bs)

lemma Edit.coalesced (he : Edit h bs ys) (hc : Coalesced bs) : Coalesced ys := by
  cases he with
  | keep => exact hc
  | allocate ha => exact coalesced_allocate hc ha
  | release p => exact coalesced_release hc

end Lib
