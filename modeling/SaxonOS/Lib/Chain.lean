import Mathlib.Data.Fintype.Card
import Mathlib.Data.List.Nodup

/-!
# Singly linked chains

Nodes of a type `α` point at each other through `next : α → Ptr α`. `Seg next p xs q`
says that following `next` from `p` meets the nodes `xs` and then stands at `q`; a chain
that ends is a segment up to `null`, and a node is reached when a segment leads to it.
-/

namespace Lib

/-- A pointer to a node, to nothing, or to memory that holds no node. -/
inductive Ptr (α : Type*)
  | null
  | node (a : α)
  | wild
  deriving DecidableEq, Repr

variable {α : Type*} {next next' : α → Ptr α} {p q r : Ptr α} {xs ys : List α} {a b i : α}

def Seg (next : α → Ptr α) : Ptr α → List α → Ptr α → Prop
  | p, [], q => p = q
  | p, a :: as, q => p = .node a ∧ Seg next (next a) as q

instance decidableSeg [DecidableEq α] (next : α → Ptr α) :
    (p : Ptr α) → (xs : List α) → (q : Ptr α) → Decidable (Seg next p xs q)
  | p, [], q => inferInstanceAs (Decidable (p = q))
  | p, a :: as, q =>
    have := decidableSeg next (next a) as q
    inferInstanceAs (Decidable (p = .node a ∧ Seg next (next a) as q))

lemma seg_append : Seg next p (xs ++ ys) q ↔ ∃ r, Seg next p xs r ∧ Seg next r ys q := by
  induction xs generalizing p with
  | nil => simp [Seg]
  | cons x xs ih =>
    simp only [List.cons_append, Seg, ih]
    constructor
    · rintro ⟨hp, r, h1, h2⟩
      exact ⟨r, ⟨hp, h1⟩, h2⟩
    · rintro ⟨r, ⟨hp, h1⟩, h2⟩
      exact ⟨hp, r, h1, h2⟩

lemma Seg.congr (h : Seg next p xs q) (heq : ∀ a ∈ xs, next' a = next a) : Seg next' p xs q := by
  induction xs generalizing p with
  | nil => exact h
  | cons x xs ih =>
    obtain ⟨hp, hxs⟩ := h
    refine ⟨hp, ?_⟩
    rw [heq x List.mem_cons_self]
    exact ih hxs (fun a ha => heq a (List.mem_cons_of_mem _ ha))

/-- Changing the pointer of a node off the segment does not change the segment. -/
lemma Seg.update [DecidableEq α] (h : Seg next p xs q) (hi : i ∉ xs) (r : Ptr α) :
    Seg (Function.update next i r) p xs q := by
  apply h.congr
  intro a ha
  have hai : a ≠ i := fun h => hi (h ▸ ha)
  exact Function.update_of_ne hai _ _

/-- The part of a segment behind one of its nodes. -/
lemma Seg.suffix (h : Seg next p (xs ++ a :: ys) q) : Seg next (next a) ys q := by
  obtain ⟨r, -, -, hys⟩ := seg_append.mp h
  exact hys

lemma Seg.null_unique (h : Seg next p xs .null) (h' : Seg next p ys .null) : xs = ys := by
  induction xs generalizing p ys with
  | nil =>
    cases ys with
    | nil => rfl
    | cons y ys =>
      cases h
      cases h'.1
  | cons x xs ih =>
    cases ys with
    | nil =>
      cases h'
      cases h.1
    | cons y ys =>
      obtain rfl := Ptr.node.inj (h.1.symm.trans h'.1)
      rw [ih h.2 h'.2]

/-- A chain that ends meets no node twice. -/
lemma Seg.nodup (h : Seg next p xs .null) : xs.Nodup := by
  induction xs generalizing p with
  | nil => exact List.nodup_nil
  | cons x xs ih =>
    refine List.nodup_cons.mpr ⟨fun hx => ?_, ih h.2⟩
    obtain ⟨us, vs, rfl⟩ := List.append_of_mem hx
    have hlen := congrArg List.length (h.2.null_unique h.2.suffix)
    simp only [List.length_append, List.length_cons] at hlen
    omega

/-- Appending a node behind the last one. -/
lemma Seg.snoc [DecidableEq α] (h : Seg next p (xs ++ [a]) .null) (hb : next b = .null)
    (hnew : b ∉ xs ++ [a]) : Seg (Function.update next a (.node b)) p (xs ++ [a] ++ [b]) .null := by
  have hnd := h.nodup
  rw [List.nodup_append] at hnd
  have ha : a ∉ xs := fun hm => hnd.2.2 a hm a List.mem_cons_self rfl
  have hba : b ≠ a := by
    rintro rfl
    exact hnew (List.mem_append_right _ List.mem_cons_self)
  obtain ⟨r, hxs, rfl, -⟩ := seg_append.mp h
  rw [List.append_assoc]
  refine seg_append.mpr ⟨.node a, hxs.update ha _, rfl, ?_, ?_⟩
  · rw [Function.update_self]
  · rw [Function.update_of_ne hba]
    exact hb

lemma not_seg_of_loop (h : next i = .node i) : ¬Seg next (.node i) xs .null := by
  intro hxs
  have hloop : Seg next (.node i) (i :: xs) .null := ⟨rfl, by rw [h]; exact hxs⟩
  have hlen := congrArg List.length (hloop.null_unique hxs)
  simp only [List.length_cons] at hlen
  omega

/-- What a segment leaves of a chain that ends. -/
lemma Seg.null_split (h : Seg next p xs q) (h' : Seg next p ys .null) :
    ∃ zs, ys = xs ++ zs ∧ Seg next q zs .null := by
  induction xs generalizing p ys with
  | nil =>
    cases h
    exact ⟨ys, rfl, h'⟩
  | cons x xs ih =>
    cases ys with
    | nil =>
      cases h'
      cases h.1
    | cons y ys =>
      obtain rfl := Ptr.node.inj (h.1.symm.trans h'.1)
      obtain ⟨zs, rfl, hzs⟩ := ih h.2 h'.2
      exact ⟨zs, rfl, hzs⟩

lemma Seg.until (h : Seg next p xs .null) (hi : i ∈ xs) :
    ∃ us, i ∉ us ∧ Seg next p us (.node i) := by
  obtain ⟨us, vs, rfl⟩ := List.append_of_mem hi
  obtain ⟨q, hus, rfl, -⟩ := seg_append.mp h
  have hnd := h.nodup
  rw [List.nodup_append] at hnd
  exact ⟨us, fun hm => hnd.2.2 i hm i List.mem_cons_self rfl, hus⟩

/-! ### Moving a node to the front of a chain

Several chains start at `heads g`. The node `i` is made the head of chain `h` without being
taken out of the chains it is on. -/

section MoveFront

variable [DecidableEq α]

lemma not_mem_of_moveFront (hseg : Seg next p xs .null)
    (hends : ∃ ys, Seg (Function.update next i p) (.node i) ys .null) : i ∉ xs := by
  intro hi
  obtain ⟨us, hius, hus⟩ := hseg.until hi
  obtain ⟨ys, hys⟩ := hends
  cases ys with
  | nil => cases hys
  | cons y ys =>
    obtain ⟨hy, hrest⟩ := hys
    obtain rfl := Ptr.node.inj hy
    rw [Function.update_self] at hrest
    obtain ⟨zs, rfl, hzs⟩ := (hus.update hius p).null_split hrest
    -- The chain comes back to `i`, so it is longer than itself.
    have hloop : Seg (Function.update next i p) (.node i) (i :: (us ++ zs)) .null :=
      ⟨rfl, by rw [Function.update_self]; exact hrest⟩
    have hlen := congrArg List.length (hloop.null_unique hzs)
    simp only [List.length_cons, List.length_append] at hlen
    omega

/-- All chains still end exactly when the node was not on the chain it is moved to. -/
theorem moveFront_ends_iff {β : Type*} [DecidableEq β] {heads : β → Ptr α} {h : β}
    (hends : ∀ g, ∃ xs, Seg next (heads g) xs .null) (hseg : Seg next (heads h) xs .null) :
    (∀ g, ∃ ys, Seg (Function.update next i (heads h))
      (Function.update heads h (.node i) g) ys .null) ↔ i ∉ xs := by
  constructor
  · intro hall
    have hh := hall h
    rw [Function.update_self] at hh
    exact not_mem_of_moveFront hseg hh
  · intro hi g
    have hnew : Seg (Function.update next i (heads h)) (.node i) (i :: xs) .null :=
      ⟨rfl, by rw [Function.update_self]; exact hseg.update hi _⟩
    by_cases hg : g = h
    · rw [hg, Function.update_self]
      exact ⟨i :: xs, hnew⟩
    · rw [Function.update_of_ne hg]
      obtain ⟨ys, hys⟩ := hends g
      by_cases hiy : i ∈ ys
      · obtain ⟨us, hius, hus⟩ := hys.until hiy
        exact ⟨us ++ i :: xs, seg_append.mpr ⟨.node i, hus.update hius _, hnew⟩⟩
      · exact ⟨ys, hys.update hiy _⟩

end MoveFront

/-- Cutting out the detours, a node is reached without meeting any node twice. -/
lemma Seg.simple (h : Seg next p xs (.node b)) :
    ∃ ys, ys ⊆ xs ∧ (b :: ys).Nodup ∧ Seg next p ys (.node b) := by
  induction xs generalizing p with
  | nil => exact ⟨[], List.Subset.refl _, by simp, h⟩
  | cons x xs ih =>
    obtain ⟨hp, hxs⟩ := h
    by_cases hxb : x = b
    · exact ⟨[], List.nil_subset _, by simp, by rw [hp, hxb]; rfl⟩
    · obtain ⟨ys, hsub, hnd, hys⟩ := ih hxs
      obtain ⟨hb, hnd⟩ := List.nodup_cons.mp hnd
      by_cases hxy : x ∈ ys
      · obtain ⟨us, vs, rfl⟩ := List.append_of_mem hxy
        have hnd' := (List.nodup_append.mp hnd).2.1
        refine ⟨x :: vs, ?_, ?_, hp, hys.suffix⟩
        · intro z hz
          rcases List.mem_cons.mp hz with rfl | hz
          · exact List.mem_cons_self
          · exact List.mem_cons_of_mem _ (hsub (by simp [hz]))
        · refine List.nodup_cons.mpr ⟨fun hm => ?_, hnd'⟩
          exact hb (List.mem_append_right _ hm)
      · refine ⟨x :: ys, List.cons_subset_cons _ hsub, ?_, hp, hys⟩
        simp only [List.nodup_cons, List.mem_cons, not_or]
        exact ⟨⟨fun h => hxb h.symm, hb⟩, hxy, hnd⟩

/-- The nodes met within `fuel` steps from `p`. -/
def walk (next : α → Ptr α) : Nat → Ptr α → List α
  | fuel + 1, .node a => a :: walk next fuel (next a)
  | _, _ => []

lemma Seg.walk_eq (h : Seg next p xs .null) {fuel : Nat} (hf : xs.length ≤ fuel) :
    walk next fuel p = xs := by
  induction xs generalizing p fuel with
  | nil =>
    cases h
    cases fuel <;> rfl
  | cons x xs ih =>
    obtain ⟨rfl, hxs⟩ := h
    obtain ⟨n, rfl⟩ := Nat.exists_eq_add_of_le' hf
    rw [List.length_cons, ← Nat.add_assoc, walk, ih hxs (Nat.le_add_left _ _)]

/-- On a finite type every node of a chain that ends is met within as many steps as there are
nodes. -/
lemma Seg.mem_walk [Fintype α] (h : Seg next p xs .null) :
    a ∈ walk next (Fintype.card α) p ↔ a ∈ xs := by
  rw [h.walk_eq (List.Nodup.length_le_card h.nodup)]

/-- The nodes met within `fuel` steps from `p` before `i` is met. -/
def walkUntil [DecidableEq α] (next : α → Ptr α) (i : α) : Nat → Ptr α → List α
  | fuel + 1, .node a => if a = i then [] else a :: walkUntil next i fuel (next a)
  | _, _ => []

lemma seg_of_mem_walkUntil [DecidableEq α] {fuel : Nat} (h : b ∈ walkUntil next i fuel p) :
    b ≠ i ∧ ∃ xs, i ∉ xs ∧ Seg next p xs (.node b) := by
  induction fuel generalizing p with
  | zero => simp [walkUntil] at h
  | succ fuel ih =>
    cases p with
    | null => simp [walkUntil] at h
    | wild => simp [walkUntil] at h
    | node a =>
      rw [walkUntil] at h
      split at h
      · simp at h
      · next hai =>
        rcases List.mem_cons.mp h with rfl | h
        · exact ⟨hai, [], by simp, rfl⟩
        · obtain ⟨hbi, xs, hxs, hseg⟩ := ih h
          refine ⟨hbi, a :: xs, ?_, rfl, hseg⟩
          simp only [List.mem_cons, not_or]
          exact ⟨fun h => hai h.symm, hxs⟩

end Lib
