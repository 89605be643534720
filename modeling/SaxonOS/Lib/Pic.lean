import Mathlib.Data.Fin.Tuple.Basic
import Mathlib.Logic.Function.Basic

/-!
# A pair of 8259A interrupt controllers

Two programmable interrupt controllers, the second behind line 2 of the first one, in fully nested
mode and edge triggered. A line that is requested waits until the processor acknowledges it, and
is then in service until a command ends it; meanwhile it holds back the lines of no higher priority.
-/

namespace Lib

/-- What a controller takes the next byte at its data port for. -/
inductive PicSetup
  | ready
  | icw2
  | icw3
  | icw4
  deriving DecidableEq

/-- The request, in-service and mask registers of a controller and its command words. -/
structure Pic where
  irr : Fin 8 → Bool
  isr : Fin 8 → Bool
  imr : Fin 8 → Bool
  base : UInt8
  cascade : UInt8
  mode : UInt8
  single : Bool
  needIcw4 : Bool
  setup : PicSetup

namespace Pic

def noLine : Fin 8 → Bool := fun _ => false

/-- A byte at the command port: ICW1, or the end of the first or of a given line in service. The
commands that rotate the priorities or poll are not part of this model. -/
def command (p : Pic) (v : UInt8) : Pic :=
  if v &&& 0x10 ≠ 0 then
    { p with
      irr := noLine
      isr := noLine
      imr := noLine
      single := v &&& 2 ≠ 0
      needIcw4 := v &&& 1 ≠ 0
      mode := 0
      setup := .icw2 }
  else if v &&& 0xF8 = 0x20 then
    match Fin.find? p.isr with
    | some n => { p with isr := Function.update p.isr n false }
    | none => p
  else if v &&& 0xF8 = 0x60 then
    { p with isr := Function.update p.isr (Fin.ofNat 8 v.toNat) false }
  else p

/-- A byte at the data port. -/
def data (p : Pic) (v : UInt8) : Pic :=
  match p.setup with
  | .ready => { p with imr := fun n => v.toNat.testBit n }
  | .icw2 =>
    { p with
      base := v &&& 0xF8
      setup := if p.single then if p.needIcw4 then .icw4 else .ready else .icw3 }
  | .icw3 => { p with cascade := v, setup := if p.needIcw4 then .icw4 else .ready }
  | .icw4 => { p with mode := v, setup := .ready }

def raise (p : Pic) (n : Fin 8) : Pic := { p with irr := Function.update p.irr n true }

/-- The line that the controller asks the processor to take. -/
def output (p : Pic) : Option (Fin 8) :=
  if p.setup = .ready then
    (Fin.find? fun n => p.irr n && !p.imr n).filter fun n => decide (∀ m ≤ n, p.isr m = false)
  else none

/-- What the acknowledgement of a line changes. Bit 1 of ICW4 ends the line at once. -/
def accept (p : Pic) (n : Fin 8) : Pic :=
  { p with
    irr := Function.update p.irr n false
    isr := if p.mode &&& 2 ≠ 0 then p.isr else Function.update p.isr n true }

/-- The controller has been set up with a base and a word for the cascade, for an 8086, and masks
no line. -/
structure SetUp (p : Pic) (base cascade : UInt8) : Prop where
  base : p.base = base
  cascade : p.cascade = cascade
  mode : p.mode = 1
  ready : p.setup = .ready
  unmasked : p.imr = noLine

variable {p : Pic} {b c : UInt8} {n : Fin 8}

lemma output_idle (h : p.SetUp b c) (hidle : p.isr = noLine) : p.output = Fin.find? p.irr := by
  have hreq : (fun n => p.irr n && !p.imr n) = p.irr := by
    funext n
    rw [h.unmasked]
    simp [noLine]
  rw [output, if_pos h.ready, hreq, hidle]
  cases Fin.find? p.irr with
  | none => rfl
  | some n => simp [noLine]

lemma accept_setUp (h : p.SetUp b c) (n : Fin 8) : (p.accept n).SetUp b c :=
  ⟨h.base, h.cascade, h.mode, h.ready, h.unmasked⟩

/-- At most one line is in service. -/
def OneLine (isr : Fin 8 → Bool) : Prop := isr = noLine ∨ ∃ n, isr = Function.update noLine n true

/-- The command `0x20` ends the only line in service, if there is one. -/
lemma end_oneLine (h : OneLine p.isr) : p.command 0x20 = { p with isr := noLine } := by
  rw [command, if_neg (by decide), if_pos (by decide)]
  rcases h with hidle | ⟨n, hn⟩
  · have hfind : Fin.find? p.isr = none := by
      rw [hidle, Fin.find?_eq_none_iff]
      exact fun _ => rfl
    rw [hfind]
    dsimp only
    rw [← hidle]
  · have hfind : Fin.find? p.isr = some n := by
      rw [hn, Fin.find?_eq_some_iff]
      refine ⟨Function.update_self .., fun j hj => ?_⟩
      rw [Function.update_of_ne (Fin.ne_of_lt hj)]
      rfl
    have hclear : Function.update (Function.update noLine n true) n false = noLine := by
      rw [Function.update_idem]
      exact Function.update_eq_self n noLine
    rw [hfind]
    dsimp only
    rw [hn, hclear]

lemma accept_oneLine (h : p.SetUp b c) (hidle : p.isr = noLine) (n : Fin 8) :
    OneLine (p.accept n).isr := by
  refine Or.inr ⟨n, ?_⟩
  rw [accept, h.mode, hidle]
  rfl

lemma end_setUp (h : p.SetUp b c) (hone : OneLine p.isr) : (p.command 0x20).SetUp b c := by
  rw [end_oneLine hone]
  exact ⟨h.base, h.cascade, h.mode, h.ready, h.unmasked⟩

/-- ICW1 to ICW4 and a mask that masks nothing. -/
lemma setUp_of_words (p : Pic) (b c : UInt8) (hb : b &&& 0xF8 = b) :
    ((((((p.command 0x11).data b).data c).data 1).data 0).SetUp b c) ∧
      ((((p.command 0x11).data b).data c).data 1 |>.data 0).isr = noLine ∧
      ((((p.command 0x11).data b).data c).data 1 |>.data 0).irr = noLine := by
  have h11 : p.command 0x11 = { p with
      irr := noLine, isr := noLine, imr := noLine, single := false, needIcw4 := true, mode := 0
      setup := .icw2 } := by
    rw [command, if_pos (by decide)]
    rfl
  rw [h11]
  refine ⟨⟨hb, rfl, rfl, rfl, ?_⟩, rfl, rfl⟩
  funext n
  exact Nat.zero_testBit n

end Pic

/-- The two controllers of a board with 16 lines. Line 2 of the first one is the output of the
second one. -/
structure PicPair where
  master : Pic
  slave : Pic

namespace PicPair

def outb (p : PicPair) (port : UInt16) (v : UInt8) : PicPair :=
  if port = 0x20 then { p with master := p.master.command v }
  else if port = 0x21 then { p with master := p.master.data v }
  else if port = 0xA0 then { p with slave := p.slave.command v }
  else if port = 0xA1 then { p with slave := p.slave.data v }
  else p

/-- The line with a number. -/
def line (n : Nat) : Fin 16 := Fin.ofNat 16 n

/-- A device requests a line. -/
def raise (p : PicPair) (line : Fin 16) : PicPair :=
  if h : line.val < 8 then { p with master := p.master.raise ⟨line.val, h⟩ }
  else { p with slave := p.slave.raise ⟨line.val - 8, by have := line.isLt; omega⟩ }

/-- The first controller with the second one at its line 2. -/
def linked (p : PicPair) : Pic :=
  { p.master with irr := Function.update p.master.irr 2 p.slave.output.isSome }

/-- The processor acknowledges an interrupt: the vector, if the controllers put one on the bus. -/
def acknowledge (p : PicPair) : Option (UInt8 × PicPair) :=
  match p.linked.output with
  | none => none
  | some n =>
    if n = 2 ∧ p.master.cascade.toNat.testBit 2 then
      match p.slave.output with
      | none => none
      | some k =>
        if p.slave.cascade &&& 7 = 2 ∧ p.slave.mode &&& 1 ≠ 0 then
          some (p.slave.base + UInt8.ofNat k, ⟨p.master.accept 2, p.slave.accept k⟩)
        else none
    else if p.master.mode &&& 1 ≠ 0 then
      some (p.master.base + UInt8.ofNat n, { p with master := p.master.accept n })
    else none

/-- The processor acknowledges a request that is gone: the vector of line 7, with no line of that
controller in service. -/
def spurious (p : PicPair) (behind : Bool) : UInt8 × PicPair :=
  if behind then (p.slave.base + 7, { p with master := p.master.accept 2 })
  else (p.master.base + 7, p)

/-! ### The lines of the board -/

/-- The lines that wait. -/
def waiting (p : PicPair) (line : Fin 16) : Bool :=
  if h : line.val < 8 then decide (line ≠ 2) && p.master.irr ⟨line.val, h⟩
  else p.slave.irr ⟨line.val - 8, by have := line.isLt; omega⟩

/-- The place of a line in the order of the priorities. -/
def rank (line : Fin 16) : Nat :=
  if line.val < 2 then line.val else if 8 ≤ line.val then line.val - 6 else line.val + 8

/-- The line is the first one that waits. -/
def Highest (lines : Fin 16 → Bool) (line : Fin 16) : Prop :=
  lines line = true ∧ ∀ l, lines l = true → rank line ≤ rank l

lemma rank_inj {l m : Fin 16} (h : rank l = rank m) : l = m := by
  have hall : ∀ l m : Fin 16, rank l = rank m → l = m := by decide
  exact hall l m h

lemma Highest.unique {lines : Fin 16 → Bool} {l m : Fin 16} (hl : Highest lines l)
    (hm : Highest lines m) : l = m :=
  rank_inj (Nat.le_antisymm (hl.2 m hm.1) (hm.2 l hl.1))

/-- The vector of a line. -/
def vector (b c : UInt8) (line : Fin 16) : UInt8 :=
  if line.val < 8 then b + UInt8.ofNat line.val else c + UInt8.ofNat (line.val - 8)

/-- The board with a line in service. -/
def serve (p : PicPair) (line : Fin 16) : PicPair :=
  if h : line.val < 8 then { p with master := p.master.accept ⟨line.val, h⟩ }
  else ⟨p.master.accept 2, p.slave.accept ⟨line.val - 8, by have := line.isLt; omega⟩⟩

/-- Both controllers are set up, and no line is in service. -/
structure Resting (p : PicPair) (b c : UInt8) : Prop where
  master : p.master.SetUp b 4
  slave : p.slave.SetUp c 2
  masterIdle : p.master.isr = Pic.noLine
  slaveIdle : p.slave.isr = Pic.noLine

variable {p : PicPair} {b c : UInt8} {line : Fin 16}

lemma linked_setUp (h : p.Resting b c) : p.linked.SetUp b 4 :=
  ⟨h.master.base, h.master.cascade, h.master.mode, h.master.ready, h.master.unmasked⟩

lemma linked_output (h : p.Resting b c) : p.linked.output =
    Fin.find? (Function.update p.master.irr 2 (Fin.find? p.slave.irr).isSome) := by
  rw [Pic.output_idle (linked_setUp h) h.masterIdle, linked, Pic.output_idle h.slave h.slaveIdle]

lemma acknowledge_eq (h : p.Resting b c) : p.acknowledge =
    match Fin.find? (Function.update p.master.irr 2 (Fin.find? p.slave.irr).isSome) with
    | none => none
    | some n =>
      if n = 2 then (Fin.find? p.slave.irr).map fun k : Fin 8 =>
        (c + UInt8.ofNat k.val, ⟨p.master.accept 2, p.slave.accept k⟩)
      else some (b + UInt8.ofNat n.val, { p with master := p.master.accept n }) := by
  rw [acknowledge, linked_output h, Pic.output_idle h.slave h.slaveIdle]
  cases Fin.find? (Function.update p.master.irr 2 (Fin.find? p.slave.irr).isSome) with
  | none => rfl
  | some n =>
    dsimp only
    rw [h.master.cascade, h.master.mode, h.master.base, h.slave.cascade, h.slave.mode,
      h.slave.base]
    by_cases hn : n = 2
    · rw [if_pos ⟨hn, by decide⟩, if_pos hn]
      cases Fin.find? p.slave.irr <;> rfl
    · rw [if_neg fun hc => hn hc.1, if_neg hn, if_pos (by decide)]

/-- A line of the first controller. -/
def ofMaster (n : Fin 8) : Fin 16 := n.castLE (by omega)

/-- A line of the second controller. -/
def ofSlave (k : Fin 8) : Fin 16 := ⟨k.val + 8, by omega⟩

lemma ofSlave_not_lt (k : Fin 8) : ¬(ofSlave k).val < 8 := by
  change ¬k.val + 8 < 8
  omega

lemma line_cases (line : Fin 16) :
    (∃ n, line = ofMaster n) ∨ ∃ k, line = ofSlave k := by
  by_cases h : line.val < 8
  · exact Or.inl ⟨⟨line.val, h⟩, rfl⟩
  · refine Or.inr ⟨⟨line.val - 8, by omega⟩, Fin.ext ?_⟩
    change line.val = line.val - 8 + 8
    omega

lemma waiting_ofMaster (p : PicPair) (n : Fin 8) :
    p.waiting (ofMaster n) = (decide (n ≠ 2) && p.master.irr n) := by
  rw [waiting, dif_pos (show (ofMaster n).val < 8 from n.isLt)]
  congr 1
  rw [decide_eq_decide, ne_eq, ne_eq, not_iff_not, Fin.ext_iff, Fin.ext_iff]
  rfl

lemma waiting_ofSlave (p : PicPair) (k : Fin 8) : p.waiting (ofSlave k) = p.slave.irr k := by
  rw [waiting, dif_neg (ofSlave_not_lt k)]
  congr 1

lemma rank_ofMaster (n : Fin 8) : rank (ofMaster n) = if n.val < 2 then n.val else n.val + 8 := by
  unfold rank ofMaster
  simp only [Fin.val_castLE]
  split
  · rfl
  · rw [if_neg (by omega)]

lemma rank_ofSlave (k : Fin 8) : rank (ofSlave k) = k.val + 2 := by
  unfold rank ofSlave
  dsimp only
  rw [if_neg (by omega), if_pos (by omega)]
  omega

lemma slave_none (p : PicPair) :
    Fin.find? p.slave.irr = none ↔ ∀ k, p.waiting (ofSlave k) = false := by
  simp only [Fin.find?_eq_none_iff, waiting_ofSlave]

/-- A line is acknowledged if and only if one waits. -/
lemma acknowledge_none (h : p.Resting b c) :
    p.acknowledge = none ↔ ∀ line, p.waiting line = false := by
  rw [acknowledge_eq h]
  constructor
  · intro hack
    cases hn : Fin.find? (Function.update p.master.irr 2 (Fin.find? p.slave.irr).isSome) with
    | none =>
      rw [Fin.find?_eq_none_iff] at hn
      have hslave : Fin.find? p.slave.irr = none := by
        have h2 := hn 2
        rw [Function.update_self] at h2
        exact Option.isNone_iff_eq_none.mp (Option.isSome_eq_false_iff.mp h2)
      intro line
      rcases line_cases line with ⟨n, rfl⟩ | ⟨k, rfl⟩
      · rw [waiting_ofMaster]
        by_cases h2 : n = 2
        · simp [h2]
        · have hm := hn n
          rw [Function.update_of_ne h2] at hm
          simp [hm]
      · exact (slave_none p).mp hslave k
    | some n =>
      rw [hn] at hack
      obtain ⟨hset, -⟩ := Fin.find?_eq_some_iff.mp hn
      by_cases h2 : n = 2
      · rw [h2, Function.update_self] at hset
        obtain ⟨k, hk⟩ := Option.isSome_iff_exists.mp hset
        rw [hk] at hack
        simp [h2] at hack
      · simp [h2] at hack
  · intro hall
    have hslave := (slave_none p).mpr fun k => hall (ofSlave k)
    have hn : Fin.find? (Function.update p.master.irr 2 (Fin.find? p.slave.irr).isSome) = none := by
      rw [Fin.find?_eq_none_iff, hslave]
      intro n
      by_cases h2 : n = 2
      · rw [h2, Function.update_self]
        rfl
      · have hm := hall (ofMaster n)
        rw [waiting_ofMaster] at hm
        rw [Function.update_of_ne h2]
        simpa [h2] using hm
    rw [hn]

/-- The line that is acknowledged is the first one that waits. -/
theorem acknowledge_some (h : p.Resting b c) {v : UInt8} {q : PicPair}
    (ha : p.acknowledge = some (v, q)) :
    ∃ line, Highest p.waiting line ∧ v = vector b c line ∧ q = p.serve line := by
  rw [acknowledge_eq h] at ha
  cases hn : Fin.find? (Function.update p.master.irr 2 (Fin.find? p.slave.irr).isSome) with
  | none =>
    rw [hn] at ha
    cases ha
  | some n =>
    rw [hn] at ha
    obtain ⟨hset, hfirst⟩ := Fin.find?_eq_some_iff.mp hn
    -- The lines of the first controller before `n` do not wait.
    have hbefore : ∀ m : Fin 8, p.waiting (ofMaster m) = true → n ≤ m := by
      intro m hm
      rw [waiting_ofMaster, Bool.and_eq_true, decide_eq_true_eq] at hm
      by_contra hlt
      have hf := hfirst m (Fin.not_le.mp hlt)
      rw [Function.update_of_ne hm.1, hm.2] at hf
      cases hf
    by_cases h2 : n = 2
    · dsimp only at ha
      rw [if_pos h2] at ha
      obtain ⟨k, hk, hvq⟩ := Option.map_eq_some_iff.mp ha
      obtain ⟨rfl, rfl⟩ := Prod.mk.inj hvq
      obtain ⟨hirr, hkfirst⟩ := Fin.find?_eq_some_iff.mp hk
      refine ⟨ofSlave k, ⟨(waiting_ofSlave p k).trans hirr, fun l hl => ?_⟩, ?_, ?_⟩
      · rw [rank_ofSlave]
        rcases line_cases l with ⟨m, rfl⟩ | ⟨j, rfl⟩
        · have hm := hbefore m hl
          have hm2 : m ≠ 2 := by
            rintro rfl
            rw [waiting_ofMaster] at hl
            simp at hl
          rw [rank_ofMaster]
          rw [h2] at hm
          have hle : 2 ≤ m.val := hm
          have hne : m.val ≠ 2 := fun he => hm2 (Fin.ext he)
          rw [if_neg (by omega)]
          omega
        · rw [rank_ofSlave]
          by_contra hlt
          have hf := hkfirst j (by rw [Fin.lt_def]; omega)
          rw [waiting_ofSlave, hf] at hl
          cases hl
      · rw [vector, if_neg (ofSlave_not_lt k)]
        rfl
      · rw [serve, dif_neg (ofSlave_not_lt k)]
        rfl
    · dsimp only at ha
      rw [if_neg h2] at ha
      obtain ⟨rfl, rfl⟩ := Prod.mk.inj (Option.some.inj ha)
      have hwait : p.waiting (ofMaster n) = true := by
        rw [Function.update_of_ne h2] at hset
        simp [waiting_ofMaster, h2, hset]
      refine ⟨ofMaster n, ⟨hwait, fun l hl => ?_⟩, ?_, ?_⟩
      · rw [rank_ofMaster]
        rcases line_cases l with ⟨m, rfl⟩ | ⟨j, rfl⟩
        · have hle : n.val ≤ m.val := hbefore m hl
          rw [rank_ofMaster]
          split <;> split <;> omega
        · have hlow : n.val < 2 := by
            by_contra hge
            have hne : n.val ≠ 2 := fun he => h2 (Fin.ext he)
            have hf := hfirst 2 (by rw [Fin.lt_def]; change 2 < n.val; omega)
            rw [Function.update_self] at hf
            have hnone := Option.isNone_iff_eq_none.mp (Option.isSome_eq_false_iff.mp hf)
            rw [(slave_none p).mp hnone j] at hl
            cases hl
          rw [rank_ofSlave, if_pos hlow]
          omega
      · rw [vector, if_pos (show (ofMaster n).val < 8 from n.isLt)]
        rfl
      · rw [serve, dif_pos (show (ofMaster n).val < 8 from n.isLt)]
        rfl

/-- The first line that waits is acknowledged. -/
theorem acknowledge_highest (h : p.Resting b c) (hline : Highest p.waiting line) :
    p.acknowledge = some (vector b c line, p.serve line) := by
  cases ha : p.acknowledge with
  | none =>
    have hw := (acknowledge_none h).mp ha line
    rw [hline.1] at hw
    cases hw
  | some q =>
    obtain ⟨l, hl, hv, hq⟩ := acknowledge_some h ha
    rw [hline.unique hl, ← hv, ← hq]

/-! ### The end of a service -/

/-- The commands that end the service of a line, or of one behind the second controller. -/
def endService (p : PicPair) (behind : Bool) : PicPair :=
  (if behind then p.outb 0xA0 0x20 else p).outb 0x20 0x20

/-- Each controller has at most one line in service, the second one only for a line behind it. -/
structure Serving (p : PicPair) (b c : UInt8) (behind : Bool) : Prop where
  master : p.master.SetUp b 4
  slave : p.slave.SetUp c 2
  masterOne : Pic.OneLine p.master.isr
  slaveOne : Pic.OneLine p.slave.isr
  slaveIdle : behind = false → p.slave.isr = Pic.noLine

variable {behind : Bool}

lemma Resting.serving (h : p.Resting b c) (behind : Bool) : p.Serving b c behind :=
  ⟨h.master, h.slave, Or.inl h.masterIdle, Or.inl h.slaveIdle, fun _ => h.slaveIdle⟩

lemma serve_serving (h : p.Resting b c) (line : Fin 16) :
    (p.serve line).Serving b c (decide (8 ≤ line.val)) := by
  unfold serve
  split
  · exact ⟨Pic.accept_setUp h.master _, h.slave, Pic.accept_oneLine h.master h.masterIdle _,
      Or.inl h.slaveIdle, fun _ => h.slaveIdle⟩
  · refine ⟨Pic.accept_setUp h.master _, Pic.accept_setUp h.slave _,
      Pic.accept_oneLine h.master h.masterIdle _, Pic.accept_oneLine h.slave h.slaveIdle _,
      fun hfront => ?_⟩
    have := of_decide_eq_false hfront
    omega

lemma spurious_serving (h : p.Resting b c) (behind : Bool) :
    (p.spurious behind).2.Serving b c behind := by
  cases behind with
  | false => exact h.serving false
  | true =>
    exact ⟨Pic.accept_setUp h.master _, h.slave, Pic.accept_oneLine h.master h.masterIdle _,
      Or.inl h.slaveIdle, fun _ => h.slaveIdle⟩

lemma raise_setUp {q : Pic} (h : q.SetUp b c) (n : Fin 8) : (q.raise n).SetUp b c :=
  ⟨h.base, h.cascade, h.mode, h.ready, h.unmasked⟩

lemma Serving.raise (h : p.Serving b c behind) (line : Fin 16) :
    (p.raise line).Serving b c behind := by
  unfold PicPair.raise
  split
  · exact ⟨raise_setUp h.master _, h.slave, h.masterOne, h.slaveOne, h.slaveIdle⟩
  · exact ⟨h.master, raise_setUp h.slave _, h.masterOne, h.slaveOne, h.slaveIdle⟩

lemma Resting.raise (h : p.Resting b c) (line : Fin 16) : (p.raise line).Resting b c := by
  unfold PicPair.raise
  split
  · exact ⟨raise_setUp h.master _, h.slave, h.masterIdle, h.slaveIdle⟩
  · exact ⟨h.master, raise_setUp h.slave _, h.masterIdle, h.slaveIdle⟩

theorem endService_resting (h : p.Serving b c behind) : (p.endService behind).Resting b c := by
  have hmaster := Pic.end_setUp h.master h.masterOne
  have hslave := Pic.end_setUp h.slave h.slaveOne
  have hmi : (p.master.command 0x20).isr = Pic.noLine := by rw [Pic.end_oneLine h.masterOne]
  have hsi : (p.slave.command 0x20).isr = Pic.noLine := by rw [Pic.end_oneLine h.slaveOne]
  cases behind with
  | false => exact ⟨hmaster, h.slave, hmi, h.slaveIdle rfl⟩
  | true => exact ⟨hmaster, hslave, hmi, hsi⟩

theorem endService_waiting (h : p.Serving b c behind) :
    (p.endService behind).waiting = p.waiting := by
  have hmi : (p.master.command 0x20).irr = p.master.irr := by rw [Pic.end_oneLine h.masterOne]
  have hsi : (p.slave.command 0x20).irr = p.slave.irr := by rw [Pic.end_oneLine h.slaveOne]
  funext line
  cases behind with
  | false =>
    change (if h : line.val < 8 then
      decide (line ≠ 2) && (p.master.command 0x20).irr ⟨line.val, h⟩ else _) = _
    rw [hmi]
    rfl
  | true =>
    change (if h : line.val < 8 then
      decide (line ≠ 2) && (p.master.command 0x20).irr ⟨line.val, h⟩ else
        (p.slave.command 0x20).irr ⟨line.val - 8, by have := line.isLt; omega⟩) = _
    rw [hmi, hsi]
    rfl

/-! ### What requests and services do to the lines that wait -/

/-- The lines that wait after one more is requested. Line 2 is not a line of the board. -/
def request (lines : Fin 16 → Bool) (line : Fin 16) : Fin 16 → Bool :=
  if line = 2 then lines else Function.update lines line true

lemma request_apply_of_ne {l m : Fin 16} (h : m ≠ l) (lines : Fin 16 → Bool) :
    request lines l m = lines m := by
  rw [request]
  split
  · rfl
  · exact Function.update_of_ne h _ _

/-- A line that is not requested waits as before. -/
lemma foldl_request_apply {m : Fin 16} {ls : List (Fin 16)} (h : m ∉ ls) (lines : Fin 16 → Bool) :
    ls.foldl request lines m = lines m := by
  induction ls generalizing lines with
  | nil => rfl
  | cons l ls ih =>
    rw [List.mem_cons, not_or] at h
    rw [List.foldl_cons, ih h.2, request_apply_of_ne h.1]

lemma raise_ofMaster (p : PicPair) (n : Fin 8) :
    p.raise (ofMaster n) = { p with master := p.master.raise n } :=
  dif_pos (show (ofMaster n).val < 8 from n.isLt)

lemma raise_ofSlave (p : PicPair) (k : Fin 8) :
    p.raise (ofSlave k) = { p with slave := p.slave.raise k } :=
  dif_neg (ofSlave_not_lt k)

lemma serve_ofMaster (p : PicPair) (n : Fin 8) :
    p.serve (ofMaster n) = { p with master := p.master.accept n } :=
  dif_pos (show (ofMaster n).val < 8 from n.isLt)

lemma serve_ofSlave (p : PicPair) (k : Fin 8) :
    p.serve (ofSlave k) = ⟨p.master.accept 2, p.slave.accept k⟩ :=
  dif_neg (ofSlave_not_lt k)

lemma ofMaster_ne_ofSlave (n k : Fin 8) : ofMaster n ≠ ofSlave k := by
  intro h
  have hval : n.val = k.val + 8 := congrArg Fin.val h
  omega

lemma ofMaster_inj {n m : Fin 8} : ofMaster n = ofMaster m ↔ n = m := by
  rw [Fin.ext_iff, Fin.ext_iff]
  rfl

lemma ofSlave_inj {n m : Fin 8} : ofSlave n = ofSlave m ↔ n = m := by
  rw [Fin.ext_iff, Fin.ext_iff]
  exact Nat.add_right_cancel_iff

lemma raise_irr (q : Pic) (n : Fin 8) : (q.raise n).irr = Function.update q.irr n true := rfl

lemma waiting_raise (p : PicPair) (line : Fin 16) :
    (p.raise line).waiting = request p.waiting line := by
  funext l
  rcases line_cases line with ⟨n, rfl⟩ | ⟨k, rfl⟩
  · rw [raise_ofMaster, request]
    by_cases h2 : n = 2
    · -- The first controller keeps the request, but nothing reads it.
      rw [if_pos (show ofMaster n = 2 from ofMaster_inj.mpr h2)]
      rcases line_cases l with ⟨m, rfl⟩ | ⟨j, rfl⟩
      · rw [waiting_ofMaster, waiting_ofMaster, raise_irr, h2]
        by_cases hm : m = 2
        · simp [hm]
        · rw [Function.update_of_ne hm]
      · rw [waiting_ofSlave, waiting_ofSlave]
    · rw [if_neg (show ofMaster n ≠ 2 from fun h => h2 (ofMaster_inj.mp h))]
      rcases line_cases l with ⟨m, rfl⟩ | ⟨j, rfl⟩
      · rw [waiting_ofMaster, raise_irr, Function.update_apply, Function.update_apply,
          waiting_ofMaster]
        by_cases hm : m = n
        · simp [hm, h2]
        · simp [hm, ofMaster_inj]
      · rw [waiting_ofSlave, Function.update_of_ne (ofMaster_ne_ofSlave n j).symm, waiting_ofSlave]
  · rw [raise_ofSlave, request,
      if_neg (show ofSlave k ≠ 2 from (ofMaster_ne_ofSlave 2 k).symm)]
    rcases line_cases l with ⟨m, rfl⟩ | ⟨j, rfl⟩
    · rw [waiting_ofMaster, Function.update_of_ne (ofMaster_ne_ofSlave m k), waiting_ofMaster]
    · rw [waiting_ofSlave, raise_irr, Function.update_apply, Function.update_apply,
        waiting_ofSlave]
      by_cases hj : j = k
      · simp [hj]
      · simp [hj, ofSlave_inj]

lemma accept_irr (q : Pic) (n : Fin 8) : (q.accept n).irr = Function.update q.irr n false := rfl

/-- The acknowledged line of the first controller, or its line 2, changes no other line. -/
lemma waiting_accept (p : PicPair) (n : Fin 8) (q : Pic) (l : Fin 16) :
    PicPair.waiting ⟨p.master.accept n, q⟩ l =
      if l = ofMaster n then false else PicPair.waiting ⟨p.master, q⟩ l := by
  rcases line_cases l with ⟨m, rfl⟩ | ⟨j, rfl⟩
  · rw [waiting_ofMaster, waiting_ofMaster, accept_irr, Function.update_apply]
    by_cases hm : m = n
    · simp [hm]
    · simp [hm, ofMaster_inj]
  · rw [waiting_ofSlave, if_neg (ofMaster_ne_ofSlave n j).symm, waiting_ofSlave]

lemma waiting_two (p : PicPair) : p.waiting (ofMaster 2) = false := by
  rw [waiting_ofMaster]
  rfl

lemma waiting_serve (p : PicPair) (line : Fin 16) :
    (p.serve line).waiting = Function.update p.waiting line false := by
  funext l
  rw [Function.update_apply]
  rcases line_cases line with ⟨n, rfl⟩ | ⟨k, rfl⟩
  · rw [serve_ofMaster, waiting_accept]
  · rw [serve_ofSlave, waiting_accept]
    rcases line_cases l with ⟨m, rfl⟩ | ⟨j, rfl⟩
    · rw [if_neg (ofMaster_ne_ofSlave m k), waiting_ofMaster, waiting_ofMaster]
      by_cases hm : m = 2
      · simp [hm]
      · simp [hm, ofMaster_inj]
    · rw [if_neg (ofMaster_ne_ofSlave 2 j).symm, waiting_ofSlave, waiting_ofSlave, accept_irr,
        Function.update_apply]
      by_cases hj : j = k
      · simp [hj]
      · simp [hj, ofSlave_inj]

lemma waiting_spurious (p : PicPair) (behind : Bool) :
    (p.spurious behind).2.waiting = p.waiting := by
  cases behind with
  | false => rfl
  | true =>
    funext l
    change PicPair.waiting ⟨p.master.accept 2, p.slave⟩ l = p.waiting l
    rw [waiting_accept]
    split
    · next h => rw [h, waiting_two]
    · rfl

lemma Serving.raiseAll (h : p.Serving b c behind) (lines : List (Fin 16)) :
    (lines.foldl PicPair.raise p).Serving b c behind := by
  induction lines generalizing p with
  | nil => exact h
  | cons line lines ih => exact ih (h.raise line)

lemma Resting.raiseAll (h : p.Resting b c) (lines : List (Fin 16)) :
    (lines.foldl PicPair.raise p).Resting b c := by
  induction lines generalizing p with
  | nil => exact h
  | cons line lines ih => exact ih (h.raise line)

lemma waiting_raiseAll (p : PicPair) (lines : List (Fin 16)) :
    (lines.foldl PicPair.raise p).waiting = lines.foldl request p.waiting := by
  induction lines generalizing p with
  | nil => rfl
  | cons line lines ih => rw [List.foldl_cons, ih, waiting_raise, List.foldl_cons]

end PicPair

end Lib
