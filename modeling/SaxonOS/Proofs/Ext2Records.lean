import SaxonOS.Proofs.Ext2Directory
import SaxonOS.Lib.Steps

/-!
# The record walk of one sector

`ext2_lookup` reads the records of a sector one after another, each where the size of the one
before says, whatever the sector holds. `b` is the memory from the start of the payload on, so
that what follows the 512 bytes of the sector has a content too.
-/

namespace SaxonOS.Proofs
open SaxonOS Lib

def inodeAt (b : Nat → UInt8) (de : Nat) : UInt32 :=
  le32 (b de) (b (de + 1)) (b (de + 2)) (b (de + 3))

def entrySizeAt (b : Nat → UInt8) (de : Nat) : UInt16 := le16 (b (de + 4)) (b (de + 5))

def nameLengthAt (b : Nat → UInt8) (de : Nat) : Nat := (b (de + 6)).toNat

/-- A live record with the name that is looked for. -/
def NameMatches (b name : Nat → UInt8) (len : Int32) (de : Nat) : Prop :=
  inodeAt b de ≠ 0 ∧ (nameLengthAt b de : Int) = len.toInt ∧
    ∀ i < nameLengthAt b de, name i = b (de + 8 + i)

instance (b name : Nat → UInt8) (len : Int32) (de : Nat) : Decidable (NameMatches b name len de) :=
  inferInstanceAs (Decidable (_ ∧ _ ∧ _))

/-- The comparison of `n` characters at `a` ends within the payload: there are none, they all
lie within it, or one that does differs. -/
def NameInside (b name : Nat → UInt8) (a n : Nat) : Prop :=
  n = 0 ∨ a + n ≤ blockSize ∨ ∃ i < n, a + i < blockSize ∧ name i ≠ b (a + i)

/-- The bytes that the walk reads of the record at `de` lie within the payload. The loop test
reads `entry_size`; the body reads `inode` and, of a live record, `name_length` and a name of
the right length. -/
structure RecordInside (b name : Nat → UInt8) (len : Int32) (de : Nat) : Prop where
  size : de + 6 ≤ blockSize
  length : de + (entrySizeAt b de).toNat < blockSize → inodeAt b de ≠ 0 → de + 7 ≤ blockSize
  name : de + (entrySizeAt b de).toNat < blockSize → inodeAt b de ≠ 0 →
    (nameLengthAt b de : Int) = len.toInt → NameInside b name (de + 8) (nameLengthAt b de)

section Fields

variable {payload : Payload} {b name : Nat → UInt8} {filename : Bytes} {len : Int32} {de : Nat}

lemma payload8_inside (hb : ∀ i (h : i < blockSize), payload ⟨i, h⟩ = b i) {i : Nat}
    (hi : i < blockSize) : payload8 payload i = .ok (b i) := by
  rw [payload8, dif_pos hi, hb]

lemma payload8_outside (payload : Payload) {i : Nat} (hi : blockSize ≤ i) :
    payload8 payload i = .error .outOfBounds := by
  rw [payload8, dif_neg (Nat.not_lt.mpr hi)]

lemma payload32_inside (hb : ∀ i (h : i < blockSize), payload ⟨i, h⟩ = b i)
    (hde : de + 4 ≤ blockSize) : payload32 payload de = .ok (inodeAt b de) := by
  simp only [payload32, payload8_inside hb (show de < blockSize by omega),
    payload8_inside hb (show de + 1 < blockSize by omega),
    payload8_inside hb (show de + 2 < blockSize by omega),
    payload8_inside hb (show de + 3 < blockSize by omega), bind, Except.bind, inodeAt]

lemma entrySize_inside (hb : ∀ i (h : i < blockSize), payload ⟨i, h⟩ = b i)
    (hde : de + 6 ≤ blockSize) : payload16 payload (de + 4) = .ok (entrySizeAt b de) := by
  simp only [payload16, payload8_inside hb (show de + 4 < blockSize by omega),
    payload8_inside hb (show de + 4 + 1 < blockSize by omega), bind, Except.bind, entrySizeAt]

lemma entrySize_outside (payload : Payload) (hde : ¬de + 6 ≤ blockSize) :
    payload16 payload (de + 4) = .error .outOfBounds := by
  rw [payload16]
  rcases Nat.lt_or_ge (de + 4) blockSize with h | h
  · simp only [payload8, dif_pos h, dif_neg (show ¬de + 4 + 1 < blockSize by omega), bind,
      Except.bind]
  · simp only [payload8_outside payload h, bind, Except.bind]

/-- The comparison from the character `i` on. -/
def InsideFrom (b name : Nat → UInt8) (a n i : Nat) : Prop :=
  n = 0 ∨ a + i + n ≤ blockSize ∨ ∃ j < i + n, i ≤ j ∧ a + j < blockSize ∧ name j ≠ b (a + j)

lemma insideFrom_succ {a n i : Nat} (hlt : a + i < blockSize) (heq : name i = b (a + i)) :
    InsideFrom b name a (n + 1) i ↔ InsideFrom b name a n (i + 1) := by
  constructor
  · rintro (h | h | ⟨j, hj, hij, hlt', hne⟩)
    · cases h
    · exact .inr (.inl (by omega))
    · have hne' : j ≠ i := by
        rintro rfl
        exact hne heq
      exact .inr (.inr ⟨j, by omega, by omega, hlt', hne⟩)
  · rintro (h | h | ⟨j, hj, hij, hlt', hne⟩)
    · exact .inr (.inl (by omega))
    · exact .inr (.inl (by omega))
    · exact .inr (.inr ⟨j, by omega, by omega, hlt', hne⟩)

lemma strncmpFrom_inside (hb : ∀ i (h : i < blockSize), payload ⟨i, h⟩ = b i) {a n i : Nat}
    (hname : ∀ j < i + n, filename j = .ok (name j)) (h : InsideFrom b name a n i) :
    ∃ v, strncmpFrom filename (fun j => payload8 payload (a + j)) n i = .ok v ∧
      (v = 0 ↔ ∀ j < i + n, i ≤ j → name j = b (a + j)) := by
  induction n generalizing i with
  | zero => exact ⟨0, rfl, by simp only [true_iff]; intro j hj hij; omega⟩
  | succ n ih =>
    have hlt : a + i < blockSize := by
      rcases h with h | h | ⟨j, -, hij, hlt, -⟩ <;> omega
    rw [strncmpFrom]
    simp only [hname i (by omega), payload8_inside hb hlt, bind, Except.bind]
    by_cases heq : name i = b (a + i)
    · rw [if_neg (not_not_intro heq)]
      obtain ⟨v, hv, hiff⟩ := ih (fun j hj => hname j (by omega))
        ((insideFrom_succ hlt heq).mp h)
      refine ⟨v, hv, hiff.trans ⟨fun hall j hj hij => ?_, fun hall j hj hij => ?_⟩⟩
      · rcases Nat.eq_or_lt_of_le hij with rfl | hlt'
        · exact heq
        · exact hall j (by omega) hlt'
      · exact hall j (by omega) (by omega)
    · rw [if_pos heq]
      refine ⟨_, rfl, ?_⟩
      constructor
      · intro hv
        exact absurd (signed_sub_eq_zero hv) heq
      · intro hall
        exact absurd (hall i (by omega) (Nat.le_refl i)) heq

lemma strncmpFrom_outside (hb : ∀ i (h : i < blockSize), payload ⟨i, h⟩ = b i) {a n i : Nat}
    (hname : ∀ j < i + n, filename j = .ok (name j)) (h : ¬InsideFrom b name a n i) :
    strncmpFrom filename (fun j => payload8 payload (a + j)) n i = .error .outOfBounds := by
  induction n generalizing i with
  | zero => exact absurd (.inl rfl) h
  | succ n ih =>
    rw [strncmpFrom]
    rcases Nat.lt_or_ge (a + i) blockSize with hlt | hge
    · have heq : name i = b (a + i) := by
        by_contra hne
        exact h (.inr (.inr ⟨i, by omega, Nat.le_refl i, hlt, hne⟩))
      simp only [hname i (by omega), payload8_inside hb hlt, bind, Except.bind]
      rw [if_neg (not_not_intro heq)]
      apply ih (fun j hj => hname j (by omega))
      rwa [← insideFrom_succ hlt heq]
    · simp only [hname i (by omega), payload8_outside payload hge, bind, Except.bind]

lemma insideFrom_zero {a n : Nat} : InsideFrom b name a n 0 ↔ NameInside b name a n := by
  simp [InsideFrom, NameInside]

lemma direntMatches_inside (hb : ∀ i (h : i < blockSize), payload ⟨i, h⟩ = b i)
    (hname : ∀ i : Nat, (i : Int) < len.toInt → filename i = .ok (name i))
    (hlt : de + (entrySizeAt b de).toNat < blockSize) (h : RecordInside b name len de) :
    direntMatches payload filename len de = .ok (decide (NameMatches b name len de)) := by
  have hsize := h.size
  rw [direntMatches]
  simp only [payload32_inside hb (show de + 4 ≤ blockSize by omega), bind, Except.bind]
  by_cases hino : inodeAt b de ≠ 0
  · have hlen := h.length hlt hino
    rw [if_pos hino]
    simp only [payload8_inside hb (show de + 6 < blockSize by omega)]
    by_cases hn : (nameLengthAt b de : Int) = len.toInt
    · rw [if_pos (show ((b (de + 6)).toNat : Int) = len.toInt from hn)]
      obtain ⟨v, hv, hiff⟩ := strncmpFrom_inside hb (i := 0) (n := nameLengthAt b de)
        (fun j hj => hname j (by omega)) (insideFrom_zero.mpr (h.name hlt hino hn))
      have hsame : v = 0 ↔ NameMatches b name len de := by
        rw [hiff]
        simp [NameMatches, hino, hn]
      rw [strncmp, toNat_len hn.symm, hv]
      exact congrArg Except.ok (decide_eq_decide.mpr hsame)
    · rw [if_neg (show ¬((b (de + 6)).toNat : Int) = len.toInt from hn)]
      congr 1
      exact (decide_eq_false fun hm => hn hm.2.1).symm
  · rw [if_neg hino]
    congr 1
    exact (decide_eq_false fun hm => hino hm.1).symm

lemma direntMatches_outside (hb : ∀ i (h : i < blockSize), payload ⟨i, h⟩ = b i)
    (hname : ∀ i : Nat, (i : Int) < len.toInt → filename i = .ok (name i))
    (hsize : de + 6 ≤ blockSize) (h : ¬RecordInside b name len de) :
    direntMatches payload filename len de = .error .outOfBounds := by
  rw [direntMatches]
  simp only [payload32_inside hb (show de + 4 ≤ blockSize by omega), bind, Except.bind]
  have hino : inodeAt b de ≠ 0 := by
    intro hz
    exact h ⟨hsize, fun _ hne => absurd hz hne, fun _ hne => absurd hz hne⟩
  rw [if_pos hino]
  rcases Nat.lt_or_ge (de + 6) blockSize with hlen | hlen
  · simp only [payload8_inside hb hlen]
    have hn : (nameLengthAt b de : Int) = len.toInt := by
      by_contra hn
      exact h ⟨hsize, fun _ _ => hlen, fun _ _ heq => absurd heq hn⟩
    have hout : ¬NameInside b name (de + 8) (nameLengthAt b de) := by
      intro hin
      exact h ⟨hsize, fun _ _ => hlen, fun _ _ _ => hin⟩
    rw [if_pos (show ((b (de + 6)).toNat : Int) = len.toInt from hn), strncmp, toNat_len hn.symm,
      strncmpFrom_outside hb (fun j hj => hname j (by omega)) (mt insideFrom_zero.mp hout)]
  · simp only [payload8_outside payload hlen]

end Fields

/-- What the walk does with the record at `de`: it ends, or goes on with the next record. -/
def recordStep (b name : Nat → UInt8) (len : Int32) (sizeLow block : UInt32) (s : Nat × UInt32) :
    Walk ⊕ (Nat × UInt32) :=
  if s.1 + (entrySizeAt b s.1).toNat < blockSize then
    if NameMatches b name len s.1 then .inl (.found (inodeAt b s.1))
    else if s.2 + (entrySizeAt b s.1).toUInt32 > sizeLow then .inl (.stop [block])
    else .inr (s.1 + (entrySizeAt b s.1).toNat, s.2 + (entrySizeAt b s.1).toUInt32)
  else .inl (.more s.2)

section Walk

variable {sectors : Sectors} {block : UInt32} {b name : Nat → UInt8} {filename : Bytes}
  {len : Int32} {sizeLow size : UInt32} {fuel de : Nat}

lemma walkRecords_outside (hb : ∀ i (h : i < blockSize), sectors block ⟨i, h⟩ = b i)
    (hname : ∀ i : Nat, (i : Int) < len.toInt → filename i = .ok (name i))
    (h : ¬RecordInside b name len de) :
    walkRecords sectors block filename len sizeLow (fuel + 1) de size = .error .outOfBounds := by
  rw [walkRecords]
  by_cases hsize : de + 6 ≤ blockSize
  · have hlt : de + (entrySizeAt b de).toNat < blockSize := by
      by_contra hge
      exact h ⟨hsize, fun hlt => absurd hlt hge, fun hlt => absurd hlt hge⟩
    simp only [entrySize_inside hb hsize, bind, Except.bind, if_pos hlt,
      direntMatches_outside hb hname hsize h]
  · simp only [entrySize_outside _ hsize, bind, Except.bind]

lemma walkRecords_inside (hb : ∀ i (h : i < blockSize), sectors block ⟨i, h⟩ = b i)
    (hname : ∀ i : Nat, (i : Int) < len.toInt → filename i = .ok (name i))
    (h : RecordInside b name len de) :
    walkRecords sectors block filename len sizeLow (fuel + 1) de size =
      match recordStep b name len sizeLow block (de, size) with
      | .inl w => .ok w
      | .inr s => walkRecords sectors block filename len sizeLow fuel s.1 s.2 := by
  have hsize := h.size
  rw [walkRecords]
  simp only [entrySize_inside hb hsize, bind, Except.bind, recordStep]
  by_cases hlt : de + (entrySizeAt b de).toNat < blockSize
  · simp only [if_pos hlt, direntMatches_inside hb hname hlt h]
    by_cases hm : NameMatches b name len de
    · simp only [decide_eq_true hm, if_true, if_pos hm,
        payload32_inside hb (show de + 4 ≤ blockSize by omega)]
    · simp only [decide_eq_false hm, Bool.false_eq_true, if_false, if_neg hm]
      by_cases hover : size + (entrySizeAt b de).toUInt32 > sizeLow
      · simp only [if_pos hover]
      · simp only [if_neg hover]
  · simp only [if_neg hlt]

/-- Without a turn left the walk still makes the loop test. -/
lemma walkRecords_last_test (hb : ∀ i (h : i < blockSize), sectors block ⟨i, h⟩ = b i) :
    walkRecords sectors block filename len sizeLow 0 de size =
      if de + 6 ≤ blockSize then
        if de + (entrySizeAt b de).toNat < blockSize then .error .diverge else .ok (.more size)
      else .error .outOfBounds := by
  rw [walkRecords.eq_def]
  by_cases hsize : de + 6 ≤ blockSize
  · simp only [entrySize_inside hb hsize, bind, Except.bind, if_pos hsize]
  · simp only [entrySize_outside _ hsize, bind, Except.bind, if_neg hsize]

lemma walkRecords_never_outside (hb : ∀ i (h : i < blockSize), sectors block ⟨i, h⟩ = b i)
    (hname : ∀ i : Nat, (i : Int) < len.toInt → filename i = .ok (name i))
    (h : ∀ s, Passes (recordStep b name len sizeLow block) (de, size) s →
      RecordInside b name len s.1) (fuel : Nat) :
    walkRecords sectors block filename len sizeLow fuel de size ≠ .error .outOfBounds := by
  induction fuel generalizing de size with
  | zero =>
    rw [walkRecords_last_test hb, if_pos (h (de, size) .refl).size]
    split <;> simp
  | succ fuel ih =>
    rw [walkRecords_inside hb hname (h (de, size) .refl)]
    split
    · simp
    · next s hs => exact ih fun t ht => h t (.head hs ht)

lemma walkRecords_gets_outside (hb : ∀ i (h : i < blockSize), sectors block ⟨i, h⟩ = b i)
    (hname : ∀ i : Nat, (i : Int) < len.toInt → filename i = .ok (name i)) {s t : Nat × UInt32}
    (hpass : Passes (recordStep b name len sizeLow block) s t)
    (h : ¬RecordInside b name len t.1) :
    ∃ fuel, walkRecords sectors block filename len sizeLow fuel s.1 s.2 =
      .error .outOfBounds := by
  induction hpass using Relation.ReflTransGen.head_induction_on with
  | refl => exact ⟨1, walkRecords_outside hb hname h⟩
  | @head s s' hstep _ ih =>
    obtain ⟨fuel, hfuel⟩ := ih
    refine ⟨fuel + 1, ?_⟩
    by_cases hin : RecordInside b name len s.1
    · rw [walkRecords_inside hb hname hin, hstep]
      exact hfuel
    · exact walkRecords_outside hb hname hin

end Walk

/-- The walk of a sector stays inside its payload exactly if it does at every record it comes
to. -/
theorem walk_stays_inside_iff (sectors : Sectors) (block : UInt32) (b name : Nat → UInt8)
    (filename : Bytes) (len : Int32) (sizeLow size : UInt32)
    (hb : ∀ i (h : i < blockSize), sectors block ⟨i, h⟩ = b i)
    (hname : ∀ i : Nat, (i : Int) < len.toInt → filename i = .ok (name i)) :
    (∀ fuel, walkRecords sectors block filename len sizeLow fuel 0 size ≠ .error .outOfBounds) ↔
      ∀ s, Passes (recordStep b name len sizeLow block) (0, size) s →
        RecordInside b name len s.1 := by
  constructor
  · intro h s hpass
    by_contra hout
    obtain ⟨fuel, hfuel⟩ := walkRecords_gets_outside hb hname hpass hout
    exact h fuel hfuel
  · exact fun h fuel => walkRecords_never_outside hb hname h fuel

/-- The records of a file "b", of a file with a longer name, and of a file "a" that takes up the
rest of the sector. -/
def threeRecords (i : Nat) : UInt8 :=
  match i with
  | 0 => 5
  | 4 => 12
  | 6 => 1
  | 8 => 0x62
  | 12 => 6
  | 16 => 12
  | 18 => 2
  | 20 => 0x61
  | 21 => 0x62
  | 24 => 7
  | 28 => 0xE8
  | 29 => 1
  | 30 => 1
  | 32 => 0x61
  | _ => 0

/-- The walk for "a" compares the name of the first record, passes over the second one and ends at
the third one. -/
theorem walk_stays_inside_whole :
    (∀ fuel, walkRecords (fun _ i => threeRecords i.val) 0 (fun _ => .ok 0x61) 1 1024 fuel 0 0 ≠
      .error .outOfBounds) ∧
    walkRecords (fun _ i => threeRecords i.val) 0 (fun _ => .ok 0x61) 1 1024 2 0 0 =
      .ok (.more 24) := by
  refine ⟨(walk_stays_inside_iff (fun _ i => threeRecords i.val) 0 threeRecords (fun _ => 0x61)
    (fun _ => .ok 0x61) 1 1024 0 (fun _ _ => rfl) (fun _ _ => rfl)).mpr fun s hpass => ?_, by rfl⟩
  have hstep : ∀ s s' : Nat × UInt32, (s = (0, 0) ∨ s = (12, 12) ∨ s = (24, 24)) →
      recordStep threeRecords (fun _ => 0x61) 1 1024 0 s = .inr s' →
      (s' = (0, 0) ∨ s' = (12, 12) ∨ s' = (24, 24)) := by
    rintro s s' (rfl | rfl | rfl) h
    · exact Or.inr (Or.inl (Sum.inr.inj h).symm)
    · exact Or.inr (Or.inr (Sum.inr.inj h).symm)
    · cases h
  rcases hpass.keeps hstep (Or.inl rfl) with rfl | rfl | rfl
  · exact ⟨by decide, fun _ _ => by decide, fun _ _ _ => Or.inr (Or.inl (by decide))⟩
  · exact ⟨by decide, fun _ _ => by decide, fun _ _ _ => Or.inr (Or.inl (by decide))⟩
  · exact ⟨by decide, fun _ _ => by decide, fun _ _ _ => Or.inr (Or.inl (by decide))⟩

/-- A first record of 508 bytes, after which there is no room for a header. -/
def shortSector (i : Nat) : UInt8 :=
  match i with
  | 4 => 0xFC
  | 5 => 1
  | _ => 0

theorem walk_leaves_short_sector :
    walkRecords (fun _ i => shortSector i.val) 0 (fun _ => .ok 0x61) 1 1024 1 0 0 =
      .error .outOfBounds := by
  decide +kernel

end SaxonOS.Proofs
