import Mathlib.Logic.Function.Basic

/-!
# The PCI configuration space

A host bridge with the two ports of configuration mechanism 1. The first one takes an address,
and through the second one the addressed dword is read, its lowest byte first.
-/

namespace Lib

/-- The configuration bytes of a function: bus, device, function and offset. -/
abbrev ConfigSpace := Nat → Nat → Nat → Nat → UInt8

structure PciHost where
  address : UInt32
  space : ConfigSpace

namespace PciHost

/-- The dword at an offset. -/
def dword (space : ConfigSpace) (bus device func offset : Nat) : UInt32 :=
  UInt32.ofNat ((space bus device func offset).toNat +
    256 * (space bus device func (offset + 1)).toNat +
    65536 * (space bus device func (offset + 2)).toNat +
    16777216 * (space bus device func (offset + 3)).toNat)

def outl (h : PciHost) (port : UInt16) (v : UInt32) : PciHost :=
  if port = 0xCF8 then { h with address := v } else h

/-- Bit 31 of the address enables the access. -/
def inl (h : PciHost) (port : UInt16) : UInt32 :=
  if port = 0xCFC ∧ h.address.toNat / 2147483648 = 1 then
    dword h.space (h.address.toNat / 65536 % 256) (h.address.toNat / 2048 % 32)
      (h.address.toNat / 256 % 8) (h.address.toNat % 256 / 4 * 4)
  else 0xFFFFFFFF

lemma dword_toNat (space : ConfigSpace) (bus device func offset : Nat) :
    (dword space bus device func offset).toNat = (space bus device func offset).toNat +
      256 * (space bus device func (offset + 1)).toNat +
      65536 * (space bus device func (offset + 2)).toNat +
      16777216 * (space bus device func (offset + 3)).toNat := by
  have h0 := (space bus device func offset).toNat_lt
  have h1 := (space bus device func (offset + 1)).toNat_lt
  have h2 := (space bus device func (offset + 2)).toNat_lt
  have h3 := (space bus device func (offset + 3)).toNat_lt
  exact UInt32.toNat_ofNat_of_lt' (by change _ < 4294967296; omega)

/-- An address that has been put together from its fields. -/
lemma inl_outl {h : PciHost} {v : UInt32} {bus device func offset : Nat}
    (hv : v.toNat = 2147483648 + 65536 * bus + 2048 * device + 256 * func + offset)
    (hbus : bus < 256) (hdevice : device < 32) (hfunc : func < 8) (hoffset : offset < 256)
    (h4 : offset % 4 = 0) :
    (h.outl 0xCF8 v).inl 0xCFC = dword h.space bus device func offset := by
  have hout : h.outl 0xCF8 v = { h with address := v } := if_pos rfl
  rw [hout, inl, if_pos ⟨rfl, by dsimp only; omega⟩]
  dsimp only
  congr 1 <;> omega

end PciHost

end Lib
