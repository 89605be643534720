import SaxonOS.Pci
import Mathlib.Data.Nat.Bitwise

/-!
# What a configuration read returns

All three accessors keep the word at the even offset below. So an odd byte is the one before it,
and a dword lacks its upper half.
-/

namespace SaxonOS.Proofs
open SaxonOS Lib

variable {host : PciHost} {bus device func offset : UInt8}

lemma and_dwordMask : ∀ x < 256, x &&& 0xFC = x / 4 * 4 := by decide +kernel

lemma and_wordBit : ∀ x < 256, x &&& 2 = x / 2 % 2 * 2 := by decide +kernel

/-- A field that stays within the address. -/
lemma shiftLeft_toNat (x : UInt8) {k : UInt32} (hk : k.toNat < 32)
    (hfits : x.toNat * 2 ^ k.toNat < 4294967296) :
    (x.toUInt32 <<< k).toNat = x.toNat <<< k.toNat := by
  rw [UInt32.toNat_shiftLeft, UInt8.toNat_toUInt32, Nat.mod_eq_of_lt hk, Nat.shiftLeft_eq]
  exact Nat.mod_eq_of_lt hfits

/-- The fields of the address do not overlap. -/
lemma pciAddress_toNat (hdevice : device.toNat < 32) (hfunc : func.toNat < 8) :
    (pciAddress bus device func offset).toNat =
      2147483648 + 65536 * bus.toNat + 2048 * device.toNat + 256 * func.toNat +
        offset.toNat / 4 * 4 := by
  have hbus := bus.toNat_lt
  have hoffset := offset.toNat_lt
  have hlow : (offset &&& 0xFC).toUInt32.toNat = offset.toNat / 4 * 4 := by
    rw [UInt8.toNat_toUInt32, UInt8.toNat_and]
    exact and_dwordMask _ hoffset
  have hb : (bus.toUInt32 <<< 16).toNat = bus.toNat <<< 16 :=
    shiftLeft_toNat bus (k := 16) (by decide) (by change _ * 65536 < _; omega)
  have hd : (device.toUInt32 <<< 11).toNat = device.toNat <<< 11 :=
    shiftLeft_toNat device (k := 11) (by decide) (by change _ * 2048 < _; omega)
  have hf : (func.toUInt32 <<< 8).toNat = func.toNat <<< 8 :=
    shiftLeft_toNat func (k := 8) (by decide) (by change _ * 256 < _; omega)
  have htop : (0x80000000 : UInt32).toNat = 1 <<< 31 := rfl
  rw [pciAddress, UInt32.toNat_or, UInt32.toNat_or, UInt32.toNat_or, UInt32.toNat_or, hb, hd, hf,
    hlow, htop]
  -- from the right each field is below the lowest bit of what stands before it
  have h1 : func.toNat <<< 8 ||| offset.toNat / 4 * 4 = func.toNat <<< 8 + offset.toNat / 4 * 4 :=
    (Nat.shiftLeft_add_eq_or_of_lt (by omega) _).symm
  have h2 : device.toNat <<< 11 ||| (func.toNat <<< 8 + offset.toNat / 4 * 4) =
      device.toNat <<< 11 + (func.toNat <<< 8 + offset.toNat / 4 * 4) :=
    (Nat.shiftLeft_add_eq_or_of_lt (by rw [Nat.shiftLeft_eq]; omega) _).symm
  have h3 : bus.toNat <<< 16 ||| (device.toNat <<< 11 + (func.toNat <<< 8 +
      offset.toNat / 4 * 4)) =
      bus.toNat <<< 16 + (device.toNat <<< 11 + (func.toNat <<< 8 + offset.toNat / 4 * 4)) :=
    (Nat.shiftLeft_add_eq_or_of_lt (by simp only [Nat.shiftLeft_eq]; omega) _).symm
  rw [Nat.or_comm, Nat.or_assoc (bus.toNat <<< 16 ||| device.toNat <<< 11), h1, Nat.or_assoc, h2,
    h3, ← Nat.shiftLeft_add_eq_or_of_lt (by simp only [Nat.shiftLeft_eq]; omega)]
  simp only [Nat.shiftLeft_eq]
  omega

/-- A byte of the function's configuration space. -/
def configByte (host : PciHost) (bus device func : UInt8) (offset : Nat) : UInt8 :=
  host.space bus.toNat device.toNat func.toNat offset

def configWord (host : PciHost) (bus device func : UInt8) (offset : Nat) : Nat :=
  (configByte host bus device func offset).toNat +
    256 * (configByte host bus device func (offset + 1)).toNat

def configDword (host : PciHost) (bus device func : UInt8) (offset : Nat) : Nat :=
  configWord host bus device func offset + 65536 * configWord host bus device func (offset + 2)

lemma configWord_lt (host : PciHost) (bus device func : UInt8) (offset : Nat) :
    configWord host bus device func offset < 65536 := by
  have h0 := (configByte host bus device func offset).toNat_lt
  have h1 := (configByte host bus device func (offset + 1)).toNat_lt
  rw [configWord]
  omega

lemma configWord_eq_zero_iff {offset : Nat} : configWord host bus device func offset = 0 ↔
    configByte host bus device func offset = 0 ∧
      configByte host bus device func (offset + 1) = 0 := by
  rw [configWord, ← UInt8.toNat_inj, ← UInt8.toNat_inj]
  change _ ↔ _ = 0 ∧ _ = 0
  omega

/-- What the host bridge answers. -/
lemma inl_configData (hdevice : device.toNat < 32) (hfunc : func.toNat < 8) :
    ((host.outl configAddress (pciAddress bus device func offset)).inl configData).toNat =
      configDword host bus device func (offset.toNat / 4 * 4) := by
  have hoffset := offset.toNat_lt
  have hread : (host.outl 0xCF8 (pciAddress bus device func offset)).inl 0xCFC =
      PciHost.dword host.space bus.toNat device.toNat func.toNat (offset.toNat / 4 * 4) :=
    PciHost.inl_outl (pciAddress_toNat hdevice hfunc) bus.toNat_lt hdevice hfunc (by omega)
      (by omega)
  rw [configAddress, configData, hread, PciHost.dword_toNat]
  simp only [configDword, configWord, configByte, Nat.add_assoc, Nat.reduceAdd]
  omega

/-- The shift chooses between the two words of the dword. -/
lemma pciConfigRead_toNat (hdevice : device.toNat < 32) (hfunc : func.toNat < 8) :
    (pciConfigRead host bus device func offset).1.toNat =
      configWord host bus device func (offset.toNat / 2 * 2) := by
  have hoffset := offset.toNat_lt
  have hshift : ((offset &&& 2) * 8).toUInt32.toNat = offset.toNat / 2 % 2 * 16 := by
    rw [UInt8.toNat_toUInt32, UInt8.toNat_mul, UInt8.toNat_and]
    change (offset.toNat &&& 2) * 8 % 256 = _
    rw [and_wordBit _ hoffset]
    omega
  have hlow := configWord_lt host bus device func (offset.toNat / 4 * 4)
  have hhigh := configWord_lt host bus device func (offset.toNat / 4 * 4 + 2)
  have hmask : (0xFFFF : UInt32).toNat = 2 ^ 16 - 1 := rfl
  rw [pciConfigRead]
  dsimp only
  rw [UInt32.toNat_and, UInt32.toNat_shiftRight, inl_configData hdevice hfunc, hshift, hmask,
    Nat.and_two_pow_sub_one_eq_mod, Nat.shiftRight_eq_div_pow, configDword]
  obtain hword | hword := Nat.mod_two_eq_zero_or_one (offset.toNat / 2)
  · have heven : offset.toNat / 2 * 2 = offset.toNat / 4 * 4 := by omega
    have hpow : 2 ^ (0 * 16 % 32) = 1 := rfl
    rw [hword, heven, hpow]
    omega
  · have hodd : offset.toNat / 2 * 2 = offset.toNat / 4 * 4 + 2 := by omega
    have hpow : 2 ^ (1 * 16 % 32) = 65536 := rfl
    rw [hword, hodd, hpow]
    omega

lemma pciConfigReadDouble_toNat (hdevice : device.toNat < 32) (hfunc : func.toNat < 8) :
    (pciConfigReadDouble host bus device func offset).1.toNat =
      configWord host bus device func (offset.toNat / 2 * 2) := by
  have hlt := configWord_lt host bus device func (offset.toNat / 2 * 2)
  rw [pciConfigReadDouble]
  dsimp only
  rw [UInt16.toNat_toUInt32, UInt32.toNat_toUInt16, pciConfigRead_toNat hdevice hfunc]
  exact Nat.mod_eq_of_lt hlt

lemma pciConfigReadWord_toNat (hdevice : device.toNat < 32) (hfunc : func.toNat < 8) :
    (pciConfigReadWord host bus device func offset).1.toNat =
      configWord host bus device func (offset.toNat / 2 * 2) := by
  have hlt := configWord_lt host bus device func (offset.toNat / 2 * 2)
  rw [pciConfigReadWord]
  dsimp only
  rw [UInt32.toNat_toUInt16, pciConfigRead_toNat hdevice hfunc]
  exact Nat.mod_eq_of_lt hlt

lemma pciConfigReadByte_eq (hdevice : device.toNat < 32) (hfunc : func.toNat < 8) :
    (pciConfigReadByte host bus device func offset).1 =
      configByte host bus device func (offset.toNat / 2 * 2) := by
  have hlt := (configByte host bus device func (offset.toNat / 2 * 2)).toNat_lt
  rw [← UInt8.toNat_inj, pciConfigReadByte]
  dsimp only
  rw [UInt16.toNat_toUInt8, UInt8.toNat_toUInt16, UInt32.toNat_toUInt8,
    pciConfigRead_toNat hdevice hfunc, configWord]
  omega

/-- A write to a port leaves the configuration space as it is. -/
@[simp] lemma configByte_outl (host : PciHost) (port : UInt16) (v : UInt32) :
    configByte (host.outl port v) = configByte host := by
  have hspace : (host.outl port v).space = host.space := by
    rw [PciHost.outl]
    split <;> rfl
  funext b d f o
  rw [configByte, configByte, hspace]

@[simp] lemma configWord_outl (host : PciHost) (port : UInt16) (v : UInt32) :
    configWord (host.outl port v) = configWord host := by
  funext b d f o
  rw [configWord, configByte_outl, configWord]

/-- The descriptor has the configuration fields of the function. -/
structure Describes (host : PciHost) (bus device func : UInt8) (d : PciDev) : Prop where
  vendorId : d.vendorId.toNat = configWord host bus device func 0x00
  devId : d.devId.toNat = configWord host bus device func 0x02
  classId : d.classId = configByte host bus device func 0x0B
  subclassId : d.subclassId = configByte host bus device func 0x0A
  interfaceId : d.interfaceId = configByte host bus device func 0x09
  revision : d.revision = configByte host bus device func 0x08
  interrupt : d.interrupt.toNat = configDword host bus device func 0x3C
  dev : d.dev.toNat = device.toNat
  func : d.func.toNat = func.toNat
  bus : d.bus.toNat = bus.toNat

/-- The descriptor as it is filled in. -/
structure Filled (host : PciHost) (bus device func : UInt8) (d : PciDev) : Prop where
  vendorId : d.vendorId.toNat = configWord host bus device func 0x00
  devId : d.devId.toNat = configWord host bus device func 0x02
  classId : d.classId = configByte host bus device func 0x0A
  subclassId : d.subclassId = configByte host bus device func 0x0A
  interfaceId : d.interfaceId = configByte host bus device func 0x08
  revision : d.revision = configByte host bus device func 0x08
  interrupt : d.interrupt.toNat = configWord host bus device func 0x3C
  dev : d.dev = device.toUInt16
  func : d.func = func.toUInt16
  bus : d.bus = bus.toUInt16

lemma fillDeviceDescriptor_filled (hdevice : device.toNat < 32) (hfunc : func.toNat < 8)
    (host : PciHost) (result : PciDev) (bus : UInt8) :
    Filled host bus device func (fillDeviceDescriptor host result bus device func).1 where
  bus := rfl
  dev := rfl
  func := rfl
  vendorId := pciConfigReadWord_toNat hdevice hfunc
  devId := by
    refine (pciConfigReadWord_toNat hdevice hfunc).trans ?_
    simp
  classId := by
    refine (pciConfigReadByte_eq hdevice hfunc).trans ?_
    simp
  subclassId := by
    refine (pciConfigReadByte_eq hdevice hfunc).trans ?_
    simp
  interfaceId := by
    refine (pciConfigReadByte_eq hdevice hfunc).trans ?_
    simp
  revision := by
    refine (pciConfigReadByte_eq hdevice hfunc).trans ?_
    simp
  interrupt := by
    refine (pciConfigReadDouble_toNat hdevice hfunc).trans ?_
    simp

lemma Filled.describes_iff {d : PciDev} (h : Filled host bus device func d) :
    Describes host bus device func d ↔
      configByte host bus device func 0x0B = configByte host bus device func 0x0A ∧
      configByte host bus device func 0x09 = configByte host bus device func 0x08 ∧
      configWord host bus device func 0x3E = 0 := by
  have hdword : configDword host bus device func 0x3C =
      configWord host bus device func 0x3C + 65536 * configWord host bus device func 0x3E := rfl
  constructor
  · intro hd
    have hirq := h.interrupt.symm.trans hd.interrupt
    rw [hdword] at hirq
    exact ⟨hd.classId.symm.trans h.classId, hd.interfaceId.symm.trans h.interfaceId, by omega⟩
  · intro ⟨hclass, hinterface, hirq⟩
    rw [hirq] at hdword
    exact {
      bus := by rw [h.bus, UInt8.toNat_toUInt16]
      dev := by rw [h.dev, UInt8.toNat_toUInt16]
      func := by rw [h.func, UInt8.toNat_toUInt16]
      vendorId := h.vendorId
      devId := h.devId
      classId := h.classId.trans hclass.symm
      subclassId := h.subclassId
      interfaceId := h.interfaceId.trans hinterface.symm
      revision := h.revision
      interrupt := h.interrupt.trans hdword.symm }

/-- Words are read at every even offset. A byte needs an even offset, or a byte before it that is
the same, and a dword needs an upper half of zeros. -/
theorem configReads_right_iff (host : PciHost) (bus device func : UInt8)
    (hdevice : device.toNat < 32) (hfunc : func.toNat < 8) (offset : UInt8) (result : PciDev) :
    ((pciConfigReadByte host bus device func offset).1 =
        configByte host bus device func offset.toNat ↔
      offset.toNat % 2 = 0 ∨ configByte host bus device func (offset.toNat - 1) =
        configByte host bus device func offset.toNat) ∧
    (offset.toNat % 2 = 0 → (pciConfigReadWord host bus device func offset).1.toNat =
      configWord host bus device func offset.toNat) ∧
    (offset.toNat % 4 = 0 → ((pciConfigReadDouble host bus device func offset).1.toNat =
        configDword host bus device func offset.toNat ↔
      configByte host bus device func (offset.toNat + 2) = 0 ∧
        configByte host bus device func (offset.toNat + 3) = 0)) ∧
    (Describes host bus device func (fillDeviceDescriptor host result bus device func).1 ↔
      configByte host bus device func 0x0B = configByte host bus device func 0x0A ∧
      configByte host bus device func 0x09 = configByte host bus device func 0x08 ∧
      configByte host bus device func 0x3E = 0 ∧ configByte host bus device func 0x3F = 0) := by
  refine ⟨?_, fun heven => ?_, fun hdouble => ?_, ?_⟩
  · rw [pciConfigReadByte_eq hdevice hfunc]
    obtain heven | hodd := Nat.mod_two_eq_zero_or_one offset.toNat
    · have he : offset.toNat / 2 * 2 = offset.toNat := by omega
      rw [he]
      exact iff_of_true rfl (Or.inl heven)
    · have he : offset.toNat / 2 * 2 = offset.toNat - 1 := by omega
      rw [he, or_iff_right (by omega)]
  · have he : offset.toNat / 2 * 2 = offset.toNat := by omega
    rw [pciConfigReadWord_toNat hdevice hfunc, he]
  · have he : offset.toNat / 2 * 2 = offset.toNat := by omega
    rw [pciConfigReadDouble_toNat hdevice hfunc, he, configDword, ← configWord_eq_zero_iff]
    omega
  · rw [(fillDeviceDescriptor_filled hdevice hfunc host result bus).describes_iff,
      configWord_eq_zero_iff]

/-- Each byte is its own offset. -/
def offsetHost : PciHost where
  address := 0
  space _ _ _ offset := UInt8.ofNat offset

def blankDescriptor : PciDev where
  portBase := 0
  interrupt := 0
  bus := 0
  dev := 0
  func := 0
  vendorId := 0
  devId := 0
  classId := 0
  subclassId := 0
  interfaceId := 0
  revision := 0

theorem configReads_right_iff_class :
    (pciConfigReadByte offsetHost 0 1 2 0x0B).1 = configByte offsetHost 0 1 2 0x0B ↔
      0x0B % 2 = 0 ∨ configByte offsetHost 0 1 2 0x0A = configByte offsetHost 0 1 2 0x0B :=
  (configReads_right_iff offsetHost 0 1 2 (by decide) (by decide) 0x0B blankDescriptor).1

theorem configReads_wrong :
    (pciConfigReadByte offsetHost 0 1 2 0x0B).1 ≠ configByte offsetHost 0 1 2 0x0B ∧
    (pciConfigReadDouble offsetHost 0 1 2 0x3C).1.toNat ≠ configDword offsetHost 0 1 2 0x3C ∧
    ¬Describes offsetHost 0 1 2
      (fillDeviceDescriptor offsetHost blankDescriptor 0 1 2).1 := by
  refine ⟨by decide, by decide, fun h => ?_⟩
  have hclass := h.classId
  revert hclass
  decide

end SaxonOS.Proofs
