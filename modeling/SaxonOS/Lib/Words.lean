import SaxonOS.Lib.ByteMemory

/-!
# Rows of words

Words behind each other in a memory whose addresses wrap. A range is given by its first address
and its length, and an address lies in it if its distance from the first one is smaller.
-/

namespace Lib

variable {m m' : Mem} {a b sp v x : UInt32} {n k : Nat}

/-- The byte `x` is one of the `n` bytes from `a` on. -/
def Within (x a : UInt32) (n : Nat) : Prop := (x - a).toNat < n

instance : Decidable (Within x a n) := inferInstanceAs (Decidable ((x - a).toNat < n))

/-- Two ranges have no byte in common. -/
def Separate (a : UInt32) (n : Nat) (b : UInt32) (k : Nat) : Prop :=
  ∀ x, Within x a n → ¬Within x b k

lemma Separate.symm (h : Separate a n b k) : Separate b k a n := fun x hb ha => h x ha hb

lemma within_add {o : UInt32} (h : Within x (a + o) k) (hn : o.toNat + k ≤ n) : Within x a n := by
  have hx := x.toNat_lt
  have ha := a.toNat_lt
  have ho := o.toNat_lt
  unfold Within at h ⊢
  rw [UInt32.toNat_sub] at h ⊢
  rw [UInt32.toNat_add] at h
  omega

/-- A part of a range is apart from what the range is apart from. -/
lemma Separate.part {o : UInt32} {i : Nat} (h : Separate a n b k) (hn : o.toNat + i ≤ n) :
    Separate (a + o) i b k := fun x hx => h x (within_add hx hn)

/-- Ranges that do not wrap are apart if one ends before the other begins. -/
lemma separate_of_le (h : a.toNat + n ≤ b.toNat) (hk : b.toNat + k ≤ 2 ^ 32) :
    Separate a n b k := by
  intro x ha hb
  have hx := x.toNat_lt
  unfold Within at ha hb
  rw [UInt32.toNat_sub] at ha hb
  omega

lemma write32_not_within (h : ¬Within x a 4) : write32 m a v x = m x := by
  have hne : ∀ o : UInt32, o.toNat < 4 → x ≠ a + o := by
    rintro o ho rfl
    apply h
    rw [Within, UInt32.add_comm, UInt32.add_sub_cancel]
    exact ho
  refine write32_of_ne m v ?_ (hne 1 (by decide)) (hne 2 (by decide)) (hne 3 (by decide))
  simpa using hne 0 (by decide)

lemma read32_within (h : ∀ x, Within x a 4 → m' x = m x) : read32 m' a = read32 m a := by
  have hb : ∀ o : UInt32, o.toNat < 4 → m' (a + o) = m (a + o) := by
    intro o ho
    apply h
    rw [Within, UInt32.add_comm, UInt32.add_sub_cancel]
    exact ho
  refine read32_congr ?_ (hb 1 (by decide)) (hb 2 (by decide)) (hb 3 (by decide))
  simpa using hb 0 (by decide)

/-- The `n` words from `a` on. -/
def readWords (m : Mem) (a : UInt32) : Nat → List UInt32
  | 0 => []
  | n + 1 => read32 m a :: readWords m (a + 4) n

lemma length_readWords (m : Mem) (a : UInt32) (n : Nat) : (readWords m a n).length = n := by
  induction n generalizing a with
  | zero => rfl
  | succ n ih => rw [readWords, List.length_cons, ih]

lemma toNat_four : (4 : UInt32).toNat = 4 := rfl

/-- A row of words depends on its own bytes only. -/
lemma readWords_congr (h : ∀ x, Within x a (4 * n) → m' x = m x) :
    readWords m' a n = readWords m a n := by
  induction n generalizing a with
  | zero => rfl
  | succ n ih =>
    rw [readWords, readWords, read32_within fun x hx => h x ?_, ih fun x hx => h x ?_]
    · exact within_add hx (by rw [toNat_four]; omega)
    · exact Nat.lt_of_lt_of_le hx (by omega)

lemma readWords_separate (h : Separate a (4 * n) b 4) :
    readWords (write32 m b v) a n = readWords m a n :=
  readWords_congr fun x hx => write32_not_within (h x hx)

/-- A word pushed below a row. -/
lemma readWords_push (hn : 4 * n + 4 ≤ 2 ^ 32) :
    readWords (write32 m (sp - 4) v) (sp - 4) (n + 1) = v :: readWords m sp n := by
  rw [readWords, read32_write32_same, UInt32.sub_add_cancel, readWords_separate]
  intro x hx hsp
  unfold Within at hx hsp
  rw [UInt32.toNat_sub] at hx hsp
  rw [UInt32.toNat_sub, toNat_four] at hsp
  have hxlt := x.toNat_lt
  have hsplt := sp.toNat_lt
  omega

lemma readWords_get {i : Nat} (hi : i < n) :
    (readWords m a n)[i]? = some (read32 m (a + UInt32.ofNat (4 * i))) := by
  induction n generalizing a i with
  | zero => omega
  | succ n ih =>
    cases i with
    | zero => simp [readWords]
    | succ i =>
      rw [readWords, List.getElem?_cons_succ, ih (by omega), UInt32.add_assoc, Nat.mul_add_one,
        Nat.add_comm, UInt32.ofNat_add]
      rfl

/-- Reading a word of a row that is known. -/
lemma read32_readWords {ws : List UInt32} {i : Nat} (h : readWords m a n = ws)
    (hi : ws[i]? = some v) : read32 m (a + UInt32.ofNat (4 * i)) = v := by
  have hlen : i < n := by
    have hlt := (List.getElem?_eq_some_iff.mp hi).1
    rwa [← h, length_readWords] at hlt
  have hget := readWords_get (m := m) (a := a) hlen
  rw [h, hi] at hget
  exact (Option.some.inj hget).symm

/-- Writing a word of a row. -/
lemma readWords_set {i : Nat} (hn : 4 * n ≤ 2 ^ 32) (hi : i < n) :
    readWords (write32 m (a + UInt32.ofNat (4 * i)) v) a n = (readWords m a n).set i v := by
  induction n generalizing a i with
  | zero => omega
  | succ n ih =>
    cases i with
    | zero =>
      have hap : Separate (a + 4) (4 * n) a 4 := by
        intro x hx ha
        unfold Within at hx ha
        rw [UInt32.toNat_sub] at hx ha
        rw [UInt32.toNat_add, toNat_four] at hx
        have hxlt := x.toNat_lt
        have halt := a.toNat_lt
        omega
      have ha : a + UInt32.ofNat (4 * 0) = a := UInt32.add_zero a
      rw [ha, readWords, read32_write32_same, readWords_separate hap]
      rfl
    | succ i =>
      have hstep : a + UInt32.ofNat (4 * (i + 1)) = a + 4 + UInt32.ofNat (4 * i) := by
        rw [UInt32.add_assoc, Nat.mul_add_one, Nat.add_comm, UInt32.ofNat_add]
        rfl
      have hi' : (UInt32.ofNat (4 * i)).toNat = 4 * i := toNat_ofNat_small (by omega)
      have hap : Separate a 4 (a + 4 + UInt32.ofNat (4 * i)) 4 := by
        intro x ha hx
        unfold Within at hx ha
        rw [UInt32.toNat_sub] at hx ha
        rw [UInt32.toNat_add, UInt32.toNat_add, toNat_four, hi'] at hx
        have hxlt := x.toNat_lt
        have halt := a.toNat_lt
        omega
      rw [hstep, readWords, readWords, ih (by omega) (by omega), List.set_cons_succ,
        read32_within fun x hx => write32_not_within (hap x hx)]

/-- Stores to words of the record at `a`, in order. -/
def storeWords (a : UInt32) (m : Mem) (stores : List (Nat × UInt32)) : Mem :=
  stores.foldl (fun m e => write32 m (a + UInt32.ofNat (4 * e.1)) e.2) m

/-- What they do to the words of the record. -/
def setWords (ws : List UInt32) (stores : List (Nat × UInt32)) : List UInt32 :=
  stores.foldl (fun ws e => ws.set e.1 e.2) ws

lemma storeWords_cons {e : Nat × UInt32} {es : List (Nat × UInt32)} :
    storeWords a m (e :: es) = storeWords a (write32 m (a + UInt32.ofNat (4 * e.1)) e.2) es := rfl

lemma readWords_storeWords {es : List (Nat × UInt32)} (hn : 4 * n ≤ 2 ^ 32)
    (hes : ∀ e ∈ es, e.1 < n) :
    readWords (storeWords a m es) a n = setWords (readWords m a n) es := by
  induction es generalizing m with
  | nil => rfl
  | cons e es ih =>
    rw [storeWords_cons, ih fun e' he' => hes e' (List.mem_cons_of_mem _ he'),
      readWords_set hn (hes e List.mem_cons_self)]
    rfl

/-- Nothing outside the record changes. -/
lemma storeWords_not_within {es : List (Nat × UInt32)} (hn : 4 * n ≤ 2 ^ 32)
    (hes : ∀ e ∈ es, e.1 < n) (hx : ¬Within x a (4 * n)) : storeWords a m es x = m x := by
  induction es generalizing m with
  | nil => rfl
  | cons e es ih =>
    have he := hes e List.mem_cons_self
    rw [storeWords_cons, ih fun e' he' => hes e' (List.mem_cons_of_mem _ he'), write32_not_within]
    intro h
    apply hx
    refine within_add h ?_
    rw [toNat_ofNat_small (by omega)]
    omega

end Lib
