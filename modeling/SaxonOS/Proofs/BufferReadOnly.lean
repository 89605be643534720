import SaxonOS.Proofs.BufferSteps

/-!
# The cache as a reader sees it

As long as no holder writes, every record is clean and a record labelled with a device
holds the sector of its label, wherever the chains and the free list lead.
-/

namespace SaxonOS.Proofs
open Lib

/-- Calls in any order, with `put_block` on any record. -/
inductive CallOp
  | get (block : UInt32) (dev : UInt16)
  | put (buff : Buff)

def callExec (fs : Devfs) (w : World) : CallOp → Option World
  | .get block dev => (getBlock fs w block dev).toOption.map Prod.snd
  | .put i => (putBlock w.cache i).toOption.map fun c => { w with cache := c }

abbrev CallRun (fs : Devfs) (disk : UInt32 → UInt32 → Payload) :
    List (World × CallOp) → World → Prop :=
  Run (fun w op w' => callExec fs w op = some w') ⟨initBuffer fun _ => zeroed, disk, []⟩

/-- A clean record that holds the sector it is labelled with. -/
structure HoldsSector (fs : Devfs) (disk : UInt32 → UInt32 → Payload) (b : BufferHead) : Prop where
  clean : b.dirty ≠ 1
  sector : b.dev ≠ 0 → ∃ a, findBdev fs b.dev = .ok a ∧ b.buff = disk a b.blockNum

structure ReadOnly (fs : Devfs) (disk : UInt32 → UInt32 → Payload) (w : World) : Prop where
  disk_eq : w.disk = disk
  no_write : ∀ a lba, Event.write a lba ∉ w.log
  record : ∀ i, HoldsSector fs disk (w.cache.pool i)

variable {fs : Devfs} {disk disk' : UInt32 → UInt32 → Payload} {w w' : World} {i : Buff}
  {block : UInt32} {dev dev' : UInt16} {op : CallOp}

lemma HoldsSector.of_content {b b' : BufferHead} (h : HoldsSector fs disk b)
    (hc : content b' = content b) : HoldsSector fs disk b' := by
  have hs := sameContent hc
  refine ⟨by rw [hs.dirty]; exact h.clean, ?_⟩
  rw [hs.dev, hs.buff, hs.blockNum]
  exact h.sector

lemma readOnly_hit (hI : ReadOnly fs disk w) (h : Hit fs w i block dev w') :
    ReadOnly fs disk w' := by
  have hio : w'.disk = w.disk ∧ w'.log = .printhex32 block :: w.log := by
    rcases h.io with ⟨-, hdisk, hlog⟩ | ⟨-, hw⟩
    · exact ⟨hdisk, hlog⟩
    · exact hw.of_clean (hI.record i).clean
  refine ⟨hio.1.trans hI.disk_eq, ?_, fun j => ?_⟩
  · rw [hio.2]
    exact not_mem_log (by simp) hI.no_write
  · by_cases hj : j = i
    · have hi := hI.record i
      have hself := sameContent h.self
      rw [hj]
      refine ⟨?_, ?_⟩
      · rw [hself.dirty]
        split
        · exact cleaned_ne_one _
        · exact hi.clean
      · rw [hself.dev, hself.buff, hself.blockNum]
        exact hi.sector
    · exact (hI.record j).of_content (h.other j hj)

lemma readOnly_miss (hI : ReadOnly fs disk w) (h : Miss fs w i block dev w') :
    ReadOnly fs disk w' := by
  obtain ⟨a, log, ha, hw, hlog, hself⟩ := h.self
  obtain ⟨hdisk, rfl⟩ := hw.of_clean (hI.record i).clean
  refine ⟨hdisk.trans hI.disk_eq, ?_, fun j => ?_⟩
  · rw [hlog]
    exact not_mem_log (by simp) hI.no_write
  · by_cases hj : j = i
    · have hs := sameContent (content_eq_of_core hself)
      rw [hj]
      refine ⟨?_, fun _ => ⟨a, ?_, ?_⟩⟩
      · rw [hs.dirty]
        exact cleaned_ne_one _
      · rw [hs.dev]
        exact ha
      · rw [hs.buff, hs.blockNum, hdisk, hI.disk_eq]
    · exact (hI.record j).of_content (content_eq_of_core (h.other j hj))

lemma readOnly_put (hI : ReadOnly fs disk w) {c : Cache} (h : putBlock w.cache i = .ok c) :
    ReadOnly fs disk { w with cache := c } := by
  refine ⟨hI.disk_eq, hI.no_write, fun j => ?_⟩
  have hj := hI.record j
  obtain ⟨hnum, hdev, hbuff, hdirty⟩ := putBlock_data h j
  refine ⟨by rw [hdirty]; exact hj.clean, ?_⟩
  rw [hdev, hnum, hbuff]
  exact hj.sector

lemma readOnly_step (hI : ReadOnly fs disk w) (h : callExec fs w op = some w') :
    ReadOnly fs disk w' := by
  cases op with
  | get block dev =>
    obtain ⟨⟨i, w₁⟩, hget, rfl⟩ := Option.map_eq_some_iff.mp h
    rcases getBlock_cases (eq_ok_of_toOption hget) with ⟨-, -, hhit⟩ | ⟨-, hmiss⟩
    · exact readOnly_hit hI hhit
    · exact readOnly_miss hI hmiss
  | put i =>
    obtain ⟨c, hput, rfl⟩ := Option.map_eq_some_iff.mp h
    exact readOnly_put hI (eq_ok_of_toOption hput)

lemma readOnly_init (fs : Devfs) (disk : UInt32 → UInt32 → Payload) :
    ReadOnly fs disk ⟨initBuffer fun _ => zeroed, disk, []⟩ := by
  refine ⟨rfl, by simp, fun i => ?_⟩
  have hu := initBuffer_unlinked (fun _ => zeroed) i
  have hdirty : ((initBuffer fun _ => zeroed).pool i).dirty = 0 := congrArg BufferHead.dirty hu
  have hdev : ((initBuffer fun _ => zeroed).pool i).dev = 0 := congrArg BufferHead.dev hu
  exact ⟨by simp [hdirty], fun h => absurd hdev h⟩

/-- In every run without writes of holders, `get_block` on a nonzero device returns the sector
asked for under its label, and nothing is written to any disk. -/
theorem cache_read_only (fs : Devfs) (disk : UInt32 → UInt32 → Payload)
    {tr : List (World × CallOp)} {w : World} (hr : CallRun fs disk tr w) :
    w.disk = disk ∧ (∀ a lba, Event.write a lba ∉ w.log) ∧
      ∀ block dev i w', dev ≠ 0 → getBlock fs w block dev = .ok (i, w') →
        Labelled (w'.cache.pool i) block dev ∧
        ∃ a, findBdev fs dev = .ok a ∧ (w'.cache.pool i).buff = disk a block := by
  have hI : ReadOnly fs disk w := hr.invariant (C := fun _ _ => True) (readOnly_init fs disk)
    (fun _ _ _ hI _ h => readOnly_step hI h) (fun _ _ => trivial)
  refine ⟨hI.disk_eq, hI.no_write, fun block dev i w' hd hget => ?_⟩
  have hI' : ReadOnly fs disk w' := by
    have hexec : callExec fs w (.get block dev) = some w' := by
      rw [callExec, hget]
      rfl
    exact readOnly_step hI hexec
  have hlabel : Labelled (w'.cache.pool i) block dev := by
    rcases getBlock_cases hget with ⟨-, hl, hhit⟩ | ⟨-, hmiss⟩
    · exact hhit.labelled hl
    · exact hmiss.labelled
  obtain ⟨a, ha, hbuff⟩ := (hI'.record i).sector (by rw [hlabel.2]; exact hd)
  rw [hlabel.1] at hbuff
  rw [hlabel.2] at ha
  exact ⟨hlabel, a, ha, hbuff⟩

/-- Block 5 is read, released, recycled for block 6 and read again. -/
theorem cache_read_only_recycled :
    ∃ tr w w', CallRun oneDisk numberedDisk tr w ∧ tr.length = 3 ∧
      getBlock oneDisk w 5 0x300 = .ok (1, w') ∧ w.disk = numberedDisk ∧
      (w'.cache.pool 1).buff = numberedDisk 0x1000 5 := by
  have hrun : ((execTrace (callExec oneDisk) ⟨initBuffer fun _ => zeroed, numberedDisk, []⟩
      [.get 5 0x300, .put 0, .get 6 0x300]).bind fun r =>
        (getBlock oneDisk r.2 5 0x300).toOption.map fun q => decide (r.1.length = 3 ∧ q.1 = 1)) =
      some true := by
    decide +kernel
  obtain ⟨r, hexec, h⟩ := Option.bind_eq_some_iff.mp hrun
  obtain ⟨⟨i, w'⟩, hget, h⟩ := Option.map_eq_some_iff.mp h
  obtain ⟨hlen, rfl⟩ := of_decide_eq_true h
  have hr := run_of_execTrace hexec
  have hget := eq_ok_of_toOption hget
  obtain ⟨hdisk, -, hsound⟩ := cache_read_only oneDisk numberedDisk hr
  obtain ⟨-, a, ha, hbuff⟩ := hsound 5 0x300 1 w' (by decide) hget
  have ha' : findBdev oneDisk 0x300 = .ok 0x1000 := by decide +kernel
  rw [ha'] at ha
  obtain rfl := Except.ok.inj ha
  exact ⟨r.1, r.2, w', hr, hlen, hget, hdisk, hbuff⟩

end SaxonOS.Proofs
