import SaxonOS.Ext2
import SaxonOS.Vfs
import SaxonOS.Proofs.Strings

/-!
# The registry is an ordered list

A lookup matches the first record whose name starts with the name looked for. No name on the
list is a prefix of an earlier one, which `register_filesystem` checks and removal keeps, so
every registered record is found by its own name.
-/

namespace SaxonOS.Proofs
open Lib

variable {n : Nat} {r r' : Registry n} {fs x : Fin n} {xs us vs : List (Fin n)} {l : Link n}
  {fuel : Nat}

/-- The link behind the records `xs` that start at `l`. -/
def endLink (l : Link n) : List (Fin n) → Link n
  | [] => l
  | x :: xs => endLink (.next x) xs

lemma endLink_concat (l : Link n) (xs : List (Fin n)) (x : Fin n) :
    endLink l (xs ++ [x]) = .next x := by
  induction xs generalizing l with
  | nil => rfl
  | cons y ys ih => exact ih (.next y)

lemma store_name (r : Registry n) (l : Link n) (p : Ptr (Fin n)) : (r.store l p).name = r.name := by
  cases l with
  | fileSystems => rfl
  | next fs => rfl

/-- The first `k` characters of the name begin the record's name. -/
def Begins (r : Registry n) (name : CString) (k : Nat) (x : Fin n) : Prop :=
  name.chars.take k <+: (r.name x).chars

/-- The lookup stops at the first record that begins with the characters compared, or behind the
last record. -/
lemma findFileSystemFrom_first {name : CString} {len : UInt8} (hlen : len.toNat ≤ name.chars.length)
    (hne : len ≠ 0) (hseg : Seg r.next (r.load l) xs .null) (hf : xs.length < fuel) :
    (∃ us x vs, xs = us ++ x :: vs ∧ Begins r name len.toNat x ∧
      (∀ y ∈ us, ¬Begins r name len.toNat y) ∧
      findFileSystemFrom r name.bytes len fuel l = .ok (endLink l us) ∧
      r.load (endLink l us) = .node x) ∨
    ((∀ y ∈ xs, ¬Begins r name len.toNat y) ∧
      findFileSystemFrom r name.bytes len fuel l = .ok (endLink l xs) ∧
      r.load (endLink l xs) = .null) := by
  induction xs generalizing l fuel with
  | nil =>
    cases fuel with
    | zero => omega
    | succ fuel =>
      right
      have hnull : r.load l = .null := hseg
      refine ⟨by simp, ?_, hnull⟩
      rw [findFileSystemFrom, hnull]
      rfl
  | cons y ys ih =>
    cases fuel with
    | zero => omega
    | succ fuel =>
      obtain ⟨hload, hys⟩ := hseg
      have hlen32 : len.toUInt32.toNat = len.toNat := UInt8.toNat_toUInt32 len
      obtain ⟨v, hv, hmatch⟩ := strncmp_take name (r.name y) len.toUInt32 (hlen32 ▸ hlen)
      rw [hlen32] at hmatch
      have hturn : findFileSystemFrom r name.bytes len (fuel + 1) l =
          if v = 0 then .ok l else findFileSystemFrom r name.bytes len fuel (.next y) := by
        rw [findFileSystemFrom, hload]
        change (if len ≠ 0 then strncmp name.bytes (r.name y).bytes len.toUInt32 >>= _ else _) = _
        rw [if_pos hne, hv]
        rfl
      by_cases hv0 : v = 0
      · left
        refine ⟨[], y, ys, rfl, hmatch.mp hv0, by simp, ?_, hload⟩
        rw [hturn, if_pos hv0]
        rfl
      · have hno : ¬Begins r name len.toNat y := fun h => hv0 (hmatch.mpr h)
        rw [hturn, if_neg hv0]
        rcases ih (l := .next y) hys (Nat.lt_of_succ_lt_succ hf) with
          ⟨us, x, vs, rfl, hx, hus, hfind, hl⟩ | ⟨hall, hfind, hl⟩
        · left
          refine ⟨y :: us, x, vs, rfl, hx, ?_, hfind, hl⟩
          exact List.forall_mem_cons.mpr ⟨hno, hus⟩
        · right
          exact ⟨List.forall_mem_cons.mpr ⟨hno, hall⟩, hfind, hl⟩

/-- The registry with the records registered and not unregistered since, in order. -/
structure RegistryState (n : Nat) where
  registry : Registry n
  registered : List (Fin n)

inductive RegistryOp (n : Nat)
  | register (fs : Fin n)
  | unregister (fs : Fin n)

/-- One call that returns. -/
def RegistryState.exec (s : RegistryState n) : RegistryOp n → Option (RegistryState n)
  | .register fs =>
    match registerFilesystem s.registry fs with
    | .ok (v, r) => some ⟨r, if v = 0 then s.registered ++ [fs] else s.registered⟩
    | .error _ => none
  | .unregister fs =>
    match unregisterFilesystem s.registry fs with
    | .ok (v, r) => some ⟨r, if v = 0 then s.registered.erase fs else s.registered⟩
    | .error _ => none

/-- Records that are on no list. -/
def unlistedRecords (names : Fin n → CString) : Registry n := ⟨names, fun _ => .null, .null⟩

/-- The list is `registered`, no name on it is a prefix of an earlier one, and the records off
it have no successor. -/
structure RegistryInv (names : Fin n → CString) (s : RegistryState n) : Prop where
  same : s.registry.name = names
  chain : Seg s.registry.next s.registry.fileSystems s.registered .null
  outside : ∀ fs, fs ∉ s.registered → s.registry.next fs = .null
  order : s.registered.Pairwise fun e a => ¬(names a).chars <+: (names e).chars

variable {names : Fin n → CString} {s s' : RegistryState n} {op : RegistryOp n}

lemma RegistryInv.length_le (hI : RegistryInv names s) : s.registered.length < n + 1 := by
  have := hI.chain.nodup.length_le_card
  rw [Fintype.card_fin] at this
  omega

/-- Storing a record behind the last one appends it. -/
lemma seg_store_end (hseg : Seg r.next r.fileSystems xs .null) (hfs : fs ∉ xs)
    (hnull : r.next fs = .null) :
    Seg (r.store (endLink .fileSystems xs) (.node fs)).next
      (r.store (endLink .fileSystems xs) (.node fs)).fileSystems (xs ++ [fs]) .null := by
  rcases List.eq_nil_or_concat xs with rfl | ⟨ys, y, rfl⟩
  · exact ⟨rfl, hnull⟩
  · rw [List.concat_eq_append] at hseg hfs ⊢
    rw [endLink_concat]
    exact hseg.snoc hnull hfs

/-- The names "ext", "ext2" and "devfs". -/
def threeNames : Fin 3 → CString
  | 0 => ⟨[0x65, 0x78, 0x74], by simp⟩
  | 1 => ext2Name
  | 2 => ⟨[0x64, 0x65, 0x76, 0x66, 0x73], by simp⟩

end SaxonOS.Proofs
