import SaxonOS.Devfs
import Mathlib.Data.List.Nodup

/-!
# Registered block devices

`add_bdev` makes the record the whole list and hands out the number with minor 0, and
`find_bdev` goes by the minor that the record already had.
-/

namespace SaxonOS.Proofs
open SaxonOS

/-- The numbers that a sequence of `add_bdev` calls hands out, and what it leaves. -/
def addBdevs : Devfs → List UInt32 → List UInt16 × Devfs
  | fs, [] => ([], fs)
  | fs, dev :: devs =>
    let (number, fs) := addBdev fs dev
    let (numbers, fs) := addBdevs fs devs
    (number :: numbers, fs)

/-- After each of the calls the numbers handed out so far are distinct, and `find_bdev` takes
each of them to the record it was handed out for. -/
def StaysFindable (fs : Devfs) (devs : List UInt32) : Prop :=
  ∀ m ≤ devs.length, (addBdevs fs (devs.take m)).1.Nodup ∧
    ∀ p ∈ (addBdevs fs (devs.take m)).1.zip (devs.take m),
      findBdev (addBdevs fs (devs.take m)).2 p.1 = .ok p.2

variable {fs : Devfs} {a b : UInt32} {devs : List UInt32}

/-- A walk that returns does so at a record with the minor it looks for. -/
lemma findBdevFrom_minor {dev : UInt16} {fuel : Nat} {ptr r : UInt32}
    (h : findBdevFrom fs dev fuel ptr = .ok r) : minorNumber dev = (fs.bdev r).minor := by
  induction fuel generalizing ptr with
  | zero => cases h
  | succ fuel ih =>
    simp only [findBdevFrom] at h
    split_ifs at h with hnull hminor
    · cases h
      exact hminor
    · exact ih h

lemma findBdev_head {dev : UInt16} (hhead : fs.blockHead ≠ 0)
    (hminor : minorNumber dev = (fs.bdev fs.blockHead).minor) :
    findBdev fs dev = .ok fs.blockHead := by
  have hfuel : (2 ^ 32 : Nat) = (2 ^ 32 - 1) + 1 := by decide
  rw [findBdev, hfuel, findBdevFrom, if_neg hhead, if_pos hminor]

lemma findable_nil (fs : Devfs) : StaysFindable fs [] := by
  intro m hm
  simp [addBdevs]

lemma minorNumber_first : minorNumber 0x300 = 0 := by decide

lemma findable_singleton_iff (ha : a ≠ 0) : StaysFindable fs [a] ↔ (fs.bdev a).minor = 0 := by
  constructor
  · intro h
    have hfind := (h 1 (Nat.le_refl 1)).2 (0x300, a) (List.mem_singleton.mpr rfl)
    exact (findBdevFrom_minor hfind).symm.trans minorNumber_first
  · intro hminor m hm
    obtain rfl | rfl : m = 0 ∨ m = 1 := Nat.le_one_iff_eq_zero_or_eq_one.mp hm
    · simp [addBdevs]
    · refine ⟨List.nodup_singleton _, ?_⟩
      intro p hp
      obtain rfl : p = (0x300, a) := List.mem_singleton.mp hp
      exact findBdev_head ha (minorNumber_first.trans hminor.symm)

/-- The second call hands out the number of the first. -/
lemma not_findable_cons_cons : ¬StaysFindable fs (a :: b :: devs) := by
  intro h
  have hnodup := (h 2 (by simp)).1
  simp [addBdevs, addBdev] at hnodup

/-- Devices stay findable exactly where one is registered and its record has minor 0 before. -/
theorem add_bdev_findable_iff (fs : Devfs) (devs : List UInt32) (hnull : 0 ∉ devs) :
    StaysFindable fs devs ↔ devs.length ≤ 1 ∧ ∀ a ∈ devs, (fs.bdev a).minor = 0 := by
  match devs, hnull with
  | [], _ => simp [findable_nil]
  | [a], hnull =>
    have ha : a ≠ 0 := by
      intro h
      simp [h] at hnull
    simp [findable_singleton_iff ha]
  | a :: b :: devs, _ => simp [not_findable_cons_cons]

/-- One device whose record is zero. -/
theorem add_bdev_findable_zeroed : StaysFindable ⟨0, fun _ => ⟨0, 0⟩⟩ [0x1000] :=
  (add_bdev_findable_iff ⟨0, fun _ => ⟨0, 0⟩⟩ [0x1000] (by simp)).mpr ⟨by simp, by simp⟩

/-- The record of `kernel_main` with what the stack held in its `minor`, and two records. -/
theorem add_bdev_not_findable :
    (¬StaysFindable ⟨0, fun _ => ⟨7, 0⟩⟩ [0x1000]) ∧
    ¬StaysFindable ⟨0, fun _ => ⟨0, 0⟩⟩ [0x1000, 0x2000] := by
  constructor
  · rw [findable_singleton_iff (by decide)]
    change (7 : UInt8) ≠ 0
    decide
  · exact not_findable_cons_cons

end SaxonOS.Proofs
