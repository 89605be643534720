import SaxonOS.Proofs.Registry

/-!
# Names that are not told apart

The length of a name reaches `find_file_system` as a byte, and only so many characters are
compared. A name finds the first record that begins with them, and nothing at all where the byte
is zero. A record that does not find itself can be linked behind itself.
-/

namespace SaxonOS.Proofs
open Lib

variable {n m : Nat} {r r' : Registry n} {fs x : Fin n} {xs us vs : List (Fin n)} {name : CString}
  {sbs : SuperBlocks n m}

/-- `strlen` as `find_file_system` gets it, cut to a byte. -/
def comparedLength (name : CString) : Nat := name.chars.length % 256

def findByName (r : Registry n) (name : CString) : Except Fault (Link n) := do
  let len ← strlen name.bytes
  findFileSystem r name.bytes len.toUInt8

lemma findByOwnName_eq (r : Registry n) (fs : Fin n) :
    findByOwnName r fs = findByName r (r.name fs) := rfl

lemma length_lt_of_seg (hseg : Seg r.next r.fileSystems xs .null) : xs.length < n + 1 := by
  have := hseg.nodup.length_le_card
  rw [Fintype.card_fin] at this
  omega

/-- With characters to compare, the first record that begins with them is found. -/
lemma findByName_first (hseg : Seg r.next r.fileSystems xs .null)
    (hlen : name.chars.length < 2 ^ 32) (hk : comparedLength name ≠ 0) :
    (∃ us x vs, xs = us ++ x :: vs ∧ Begins r name (comparedLength name) x ∧
      (∀ y ∈ us, ¬Begins r name (comparedLength name) y) ∧
      findByName r name = .ok (endLink .fileSystems us) ∧
      r.load (endLink .fileSystems us) = .node x) ∨
    ((∀ y ∈ xs, ¬Begins r name (comparedLength name) y) ∧
      findByName r name = .ok (endLink .fileSystems xs) ∧
      r.load (endLink .fileSystems xs) = .null) := by
  have hcut : (UInt32.ofNat name.chars.length).toUInt8.toNat = comparedLength name := by
    rw [UInt32.toNat_toUInt8, UInt32.toNat_ofNat', comparedLength]
    omega
  have hne : (UInt32.ofNat name.chars.length).toUInt8 ≠ 0 := by
    intro h0
    rw [h0] at hcut
    exact hk hcut.symm
  have hfind : findByName r name = findFileSystemFrom r name.bytes
      (UInt32.ofNat name.chars.length).toUInt8 (n + 1) .fileSystems := by
    rw [findByName, strlen_chars _ hlen]
    rfl
  rw [hfind, ← hcut]
  refine findFileSystemFrom_first ?_ hne hseg (length_lt_of_seg hseg)
  rw [hcut]
  exact Nat.mod_le _ _

lemma findFileSystemFrom_none {bytes : Bytes} {l : Link n} {fuel : Nat}
    (hseg : Seg r.next (r.load l) xs .null) (hf : xs.length < fuel) :
    findFileSystemFrom r bytes 0 fuel l = .ok (endLink l xs) ∧ r.load (endLink l xs) = .null := by
  induction xs generalizing l fuel with
  | nil =>
    cases fuel with
    | zero => omega
    | succ fuel =>
      have hnull : r.load l = .null := hseg
      refine ⟨?_, hnull⟩
      rw [findFileSystemFrom, hnull]
      rfl
  | cons y ys ih =>
    cases fuel with
    | zero => omega
    | succ fuel =>
      rw [findFileSystemFrom, hseg.1]
      exact ih (l := .next y) hseg.2 (Nat.lt_of_succ_lt_succ hf)

/-- With none to compare nothing is found. -/
lemma findByName_none (hseg : Seg r.next r.fileSystems xs .null)
    (hlen : name.chars.length < 2 ^ 32) (hk : comparedLength name = 0) :
    findByName r name = .ok (endLink .fileSystems xs) ∧
      r.load (endLink .fileSystems xs) = .null := by
  have hcut : (UInt32.ofNat name.chars.length).toUInt8 = 0 := by
    apply UInt8.toNat_inj.mp
    rw [UInt32.toNat_toUInt8, UInt32.toNat_ofNat']
    unfold comparedLength at hk
    change _ = 0
    omega
  rw [findByName, strlen_chars _ hlen]
  change findFileSystemFrom r name.bytes (UInt32.ofNat name.chars.length).toUInt8 (n + 1) _ = _ ∧ _
  rw [hcut]
  exact findFileSystemFrom_none hseg (length_lt_of_seg hseg)

instance (r : Registry n) (name : CString) (k : Nat) (x : Fin n) : Decidable (Begins r name k x) :=
  inferInstanceAs (Decidable (_ <+: _))

/-- The first record that begins with the characters compared, if there are any. -/
def firstAlike (r : Registry n) (xs : List (Fin n)) (name : CString) : Option (Fin n) :=
  if comparedLength name = 0 then none
  else xs.find? fun x => Begins r name (comparedLength name) x

lemma findByName_spec (hseg : Seg r.next r.fileSystems xs .null)
    (hlen : name.chars.length < 2 ^ 32) :
    ∃ l, findByName r name = .ok l ∧
      ((∃ x, firstAlike r xs name = some x ∧ r.load l = .node x) ∨
        firstAlike r xs name = none ∧ l = endLink .fileSystems xs ∧ r.load l = .null) := by
  unfold firstAlike
  by_cases hk : comparedLength name = 0
  · obtain ⟨hfind, hload⟩ := findByName_none hseg hlen hk
    rw [if_pos hk]
    exact ⟨_, hfind, Or.inr ⟨rfl, rfl, hload⟩⟩
  · rw [if_neg hk]
    rcases findByName_first hseg hlen hk with ⟨us, x, vs, hsplit, hx, hus, hfind, hload⟩ |
      ⟨hall, hfind, hload⟩
    · refine ⟨_, hfind, Or.inl ⟨x, ?_, hload⟩⟩
      exact List.find?_eq_some_iff_append.mpr ⟨by simpa using hx, us, vs, hsplit,
        fun y hy => by simpa using hus y hy⟩
    · refine ⟨_, hfind, Or.inr ⟨?_, rfl, hload⟩⟩
      exact List.find?_eq_none.mpr fun y hy => by simpa using hall y hy

/-- The name is told apart from those of the records: it has characters to compare, and the first
record that begins with them has this name; or it has none, and no record has this name. -/
def ToldApart (r : Registry n) (xs : List (Fin n)) (name : CString) : Prop :=
  (comparedLength name ≠ 0 → ∀ x,
    xs.find? (fun x => Begins r name (comparedLength name) x) = some x → r.name x = name) ∧
  (comparedLength name = 0 → ∀ x ∈ xs, r.name x ≠ name)

lemma toldApart_iff : ToldApart r xs name ↔
    (∀ x, firstAlike r xs name = some x → r.name x = name) ∧
      (firstAlike r xs name = none → ∀ x ∈ xs, r.name x ≠ name) := by
  unfold ToldApart firstAlike
  by_cases hk : comparedLength name = 0
  · simp [hk]
  · have hself : ∀ x, r.name x = name → Begins r name (comparedLength name) x := by
      rintro x rfl
      exact List.take_prefix _ _
    simp only [hk, if_false, ne_eq, not_false_eq_true, forall_const, false_implies, and_true]
    refine ⟨fun h => ⟨h, fun hnone x hx hname => ?_⟩, fun h => h.1⟩
    have := List.find?_eq_none.mp hnone x hx
    simp [hself x hname] at this

lemma mem_of_firstAlike (h : firstAlike r xs name = some x) : x ∈ xs := by
  unfold firstAlike at h
  split at h
  · cases h
  · exact List.mem_of_find?_eq_some h

/-- Names match exactly: the lookup of `name` finds a record exactly if one has this name, and
then such a one; a record with this name is refused exactly if another one has it, and leaves the
list without a cycle; and no superblock of another file system is found under it. -/
structure NamesExact (r : Registry n) (xs : List (Fin n)) (name : CString) : Prop where
  find : ∃ l, findByName r name = .ok l ∧ (r.load l ≠ .null ↔ ∃ x ∈ xs, r.name x = name) ∧
    ∀ x, r.load l = .node x → r.name x = name
  register : ∀ fs, r.next fs = .null → r.name fs = name → ∃ v r',
    registerFilesystem r fs = .ok (v, r') ∧ (v = -1 ↔ ∃ x ∈ xs, r.name x = name) ∧
      ∃ ys, Seg r'.next r'.fileSystems ys .null
  superBlock : ∀ m (sbs : SuperBlocks n m) sb, findSuperBlock r sbs name.bytes = .ok (.node sb) →
    ∃ fs, sbs.fsType sb = .node fs ∧ r.name fs = name

lemma findSuperBlockFrom_ok {t : Ptr (Fin n)} {fuel : Nat} {p : Ptr (Fin m)} {sb : Fin m}
    (h : findSuperBlockFrom sbs t fuel p = .ok (.node sb)) : sbs.fsType sb = t := by
  induction fuel generalizing p with
  | zero => cases h
  | succ fuel ih =>
    cases p with
    | null => cases h
    | wild => cases h
    | node a =>
      rw [findSuperBlockFrom] at h
      split at h
      · next hsb =>
        obtain rfl := Ptr.node.inj (Except.ok.inj h)
        exact hsb
      · exact ih h

lemma findSuperBlock_eq (r : Registry n) (sbs : SuperBlocks n m) (name : CString) :
    findSuperBlock r sbs name.bytes = (do
      let ptr ← findByName r name
      if r.load ptr = .null then .ok .null
      else findSuperBlockFrom sbs (r.load ptr) (m + 1) sbs.sbHead) := by
  unfold findSuperBlock findByName
  cases strlen name.bytes <;> rfl

lemma registerFilesystem_eq (hnull : r.next fs = .null) :
    registerFilesystem r fs = (do
      let ptr ← findByName r (r.name fs)
      if r.load ptr ≠ .null then .ok (-1, r) else .ok (0, r.store ptr (.node fs))) := by
  rw [registerFilesystem, if_neg (not_not.mpr hnull), findByOwnName_eq]

/-- Registering a record that is told apart. -/
lemma registerFilesystem_toldApart (hseg : Seg r.next r.fileSystems xs .null)
    (hlen : (r.name fs).chars.length < 2 ^ 32) (hnull : r.next fs = .null)
    (h : ToldApart r xs (r.name fs)) :
    ∃ v r', registerFilesystem r fs = .ok (v, r') ∧ (v = -1 ↔ ∃ x ∈ xs, r.name x = r.name fs) ∧
      ∃ ys, Seg r'.next r'.fileSystems ys .null := by
  obtain ⟨hsome, hnone⟩ := toldApart_iff.mp h
  obtain ⟨l, hl, ⟨x, hx, hload⟩ | ⟨hfirst, rfl, hload⟩⟩ := findByName_spec hseg hlen
  · refine ⟨-1, r, ?_, iff_of_true rfl ⟨x, mem_of_firstAlike hx, hsome x hx⟩, xs, hseg⟩
    rw [registerFilesystem_eq hnull, hl]
    change (if r.load l ≠ .null then _ else _) = _
    rw [hload]
    rfl
  · have hno := hnone hfirst
    refine ⟨0, _, ?_, iff_of_false (by decide) ?_, xs ++ [fs],
      seg_store_end hseg (fun hmem => hno fs hmem rfl) hnull⟩
    · rw [registerFilesystem_eq hnull, hl]
      change (if r.load (endLink .fileSystems xs) ≠ .null then _ else _) = _
      rw [hload]
      rfl
    · rintro ⟨x, hx, hname⟩
      exact hno x hx hname

lemma namesExact_iff (hseg : Seg r.next r.fileSystems xs .null)
    (hlen : name.chars.length < 2 ^ 32) : NamesExact r xs name ↔ ToldApart r xs name := by
  obtain ⟨l, hl, hcases⟩ := findByName_spec hseg hlen
  constructor
  · intro h
    obtain ⟨l', hl', hiff, hname⟩ := h.find
    rw [hl] at hl'
    obtain rfl := Except.ok.inj hl'
    rw [toldApart_iff]
    rcases hcases with ⟨x, hx, hload⟩ | ⟨hnone, -, hload⟩
    · rw [hx]
      refine ⟨fun y hy => ?_, nofun⟩
      obtain rfl := Option.some.inj hy
      exact hname x hload
    · rw [hnone]
      refine ⟨nofun, fun _ x hx hxn => ?_⟩
      exact hiff.mpr ⟨x, hx, hxn⟩ hload
  · intro h
    obtain ⟨hsome, hnone⟩ := toldApart_iff.mp h
    refine ⟨⟨l, hl, ?_⟩, ?_, ?_⟩
    · rcases hcases with ⟨x, hx, hload⟩ | ⟨hfirst, -, hload⟩
      · rw [hload]
        refine ⟨iff_of_true nofun ⟨x, mem_of_firstAlike hx, hsome x hx⟩, fun y hy => ?_⟩
        obtain rfl := Ptr.node.inj hy
        exact hsome x hx
      · rw [hload]
        refine ⟨iff_of_false (not_not.mpr rfl) ?_, nofun⟩
        rintro ⟨x, hx, hxn⟩
        exact hnone hfirst x hx hxn
    · rintro fs hnull rfl
      exact registerFilesystem_toldApart hseg hlen hnull h
    · intro m sbs sb hsb
      rw [findSuperBlock_eq, hl] at hsb
      change (if r.load l = .null then _ else _) = _ at hsb
      rcases hcases with ⟨x, hx, hload⟩ | ⟨-, -, hload⟩
      · rw [hload, if_neg nofun] at hsb
        exact ⟨x, findSuperBlockFrom_ok hsb, hsome x hx⟩
      · rw [hload, if_pos rfl] at hsb
        cases hsb

/-- Runs of `register_filesystem` from an empty list. -/
abbrev Registrations (names : Fin n → CString) : List (Registry n × Fin n) → Registry n → Prop :=
  Run (fun r fs r' => ∃ v, registerFilesystem r fs = .ok (v, r')) (unlistedRecords names)

/-- A registration of a record that is told apart from those on the list. -/
def RegistersToldApart (r : Registry n) (fs : Fin n) : Prop :=
  ∀ xs, Seg r.next r.fileSystems xs .null → ToldApart r xs (r.name fs)

lemma seg_unlistedRecords (names : Fin n → CString) :
    Seg (unlistedRecords names).next (unlistedRecords names).fileSystems [] .null := rfl

lemma registerFilesystem_name {v : Int} (h : registerFilesystem r fs = .ok (v, r')) :
    r'.name = r.name := by
  unfold registerFilesystem at h
  split at h
  · obtain ⟨-, rfl⟩ := Prod.mk.inj (Except.ok.inj h)
    rfl
  · obtain ⟨l, -, h⟩ := bind_eq_ok h
    split at h
    · obtain ⟨-, rfl⟩ := Prod.mk.inj (Except.ok.inj h)
      rfl
    · obtain ⟨-, rfl⟩ := Prod.mk.inj (Except.ok.inj h)
      exact store_name r l _

/-- One registration keeps the list free of cycles. -/
lemma seg_register {v : Int} (hseg : Seg r.next r.fileSystems xs .null)
    (hlen : (r.name fs).chars.length < 2 ^ 32) (htold : RegistersToldApart r fs)
    (h : registerFilesystem r fs = .ok (v, r')) : ∃ ys, Seg r'.next r'.fileSystems ys .null := by
  by_cases hnull : r.next fs = .null
  · obtain ⟨v', r'', h', -, hys⟩ := registerFilesystem_toldApart hseg hlen hnull (htold xs hseg)
    rw [h] at h'
    obtain ⟨-, rfl⟩ := Prod.mk.inj (Except.ok.inj h')
    exact hys
  · rw [registerFilesystem, if_pos hnull] at h
    obtain ⟨-, rfl⟩ := Prod.mk.inj (Except.ok.inj h)
    exact ⟨xs, hseg⟩

/-- On every list without a cycle names match exactly if and only if they are told apart, and
registrations of names that are told apart keep the list without a cycle. -/
theorem namesExact_iff_toldApart (n : Nat) :
    (∀ (r : Registry n) xs name, Seg r.next r.fileSystems xs .null → name.chars.length < 2 ^ 32 →
      (NamesExact r xs name ↔ ToldApart r xs name)) ∧
    ∀ names : Fin n → CString, (∀ i, (names i).chars.length < 2 ^ 32) → ∀ tr r,
      Registrations names tr r → (∀ p ∈ tr, RegistersToldApart p.1 p.2) →
        ∃ xs, Seg r.next r.fileSystems xs .null := by
  refine ⟨fun r xs name hseg hlen => namesExact_iff hseg hlen, fun names hlen tr r hr htold => ?_⟩
  have hI : r.name = names ∧ ∃ xs, Seg r.next r.fileSystems xs .null := by
    refine hr.invariant (I := fun r => r.name = names ∧ ∃ xs, Seg r.next r.fileSystems xs .null)
      ⟨rfl, [], seg_unlistedRecords names⟩ ?_ htold
    rintro r fs r' ⟨hname, xs, hseg⟩ htold ⟨v, h⟩
    refine ⟨(registerFilesystem_name h).trans hname, ?_⟩
    exact seg_register hseg (by rw [hname]; exact hlen fs) htold h
  exact hI.2

/-- The list with "ext2" on it. -/
def ext2Listed : Registry 3 := ⟨threeNames, fun _ => .null, .node 1⟩

/-- "devfs" is listed behind "ext2". -/
def devfsListed : Registry 3 := ext2Listed.store (.next 1) (.node 2)

lemma seg_ext2Listed : Seg ext2Listed.next ext2Listed.fileSystems [1] .null := ⟨rfl, rfl⟩

lemma toldApart_ext2 : ToldApart ext2Listed [1] (threeNames 1) := by
  refine ⟨fun _ x hx => ?_, fun h => absurd h (by decide)⟩
  obtain rfl := List.mem_singleton.mp (List.mem_of_find?_eq_some hx)
  rfl

lemma toldApart_devfs : ToldApart ext2Listed [1] (threeNames 2) := by
  refine ⟨fun _ x hx => ?_, fun h => absurd h (by decide)⟩
  obtain rfl := List.mem_singleton.mp (List.mem_of_find?_eq_some hx)
  have hbegins := List.find?_some hx
  exact absurd (of_decide_eq_true hbegins) (by decide)

/-- With "ext2" on the list "ext2" is found and "devfs" is not, and "ext2" and then "devfs" can be
registered. -/
theorem namesExact_iff_toldApart_listed :
    NamesExact ext2Listed [1] (threeNames 1) ∧ NamesExact ext2Listed [1] (threeNames 2) ∧
      (∃ l, findByName ext2Listed (threeNames 1) = .ok l ∧ ext2Listed.load l = .node 1) ∧
      (∃ l, findByName ext2Listed (threeNames 2) = .ok l ∧ ext2Listed.load l = .null) ∧
      Registrations threeNames [(ext2Listed, 2), (unlistedRecords threeNames, 1)] devfsListed ∧
      ∃ xs, Seg devfsListed.next devfsListed.fileSystems xs .null := by
  obtain ⟨hexact, hruns⟩ := namesExact_iff_toldApart 3
  have hext2 := (hexact _ _ _ seg_ext2Listed (by decide)).mpr toldApart_ext2
  have hdevfs := (hexact _ _ _ seg_ext2Listed (by decide)).mpr toldApart_devfs
  have hr : Registrations threeNames [(ext2Listed, 2), (unlistedRecords threeNames, 1)]
      devfsListed := (Run.nil.cons ⟨0, rfl⟩).cons ⟨0, rfl⟩
  refine ⟨hext2, hdevfs, ⟨.fileSystems, rfl, rfl⟩, ⟨.next 1, rfl, rfl⟩, hr, ?_⟩
  refine hruns threeNames (by decide) _ _ hr fun p hp xs hseg => ?_
  rcases List.mem_cons.mp hp with rfl | hp
  · obtain rfl := hseg.null_unique seg_ext2Listed
    exact toldApart_devfs
  · obtain rfl := List.mem_singleton.mp hp
    obtain rfl := hseg.null_unique (seg_unlistedRecords threeNames)
    exact ⟨fun _ x hx => absurd (List.mem_of_find?_eq_some hx) List.not_mem_nil,
      fun h => absurd h (by decide)⟩

/-- A file system without a name. -/
def noName : Fin 1 → CString := fun _ => ⟨[], by simp⟩

/-- "ext" finds the record of "ext2", and a record without a name is registered twice, behind
itself. -/
theorem names_confused :
    (∃ tr r, Registrations threeNames tr r ∧ tr.length = 1 ∧
      Seg r.next r.fileSystems [1] .null ∧ (threeNames 0).chars ≠ (threeNames 1).chars ∧
      ¬NamesExact r [1] (threeNames 0)) ∧
    ∃ tr r, Registrations noName tr r ∧ tr.length = 2 ∧ r.fileSystems = .node 0 ∧
      r.next 0 = .node 0 ∧ ¬∃ xs, Seg r.next r.fileSystems xs .null := by
  constructor
  · have hrun : ((registerFilesystem (unlistedRecords threeNames) 1).toOption.map fun p =>
        decide (p.2.fileSystems = .node 1 ∧ p.2.next 1 = .null)) = some true := by
      decide +kernel
    obtain ⟨⟨v, r⟩, h, hlist⟩ := Option.map_eq_some_iff.mp hrun
    obtain ⟨hhead, hnext⟩ := of_decide_eq_true hlist
    have hcall := eq_ok_of_toOption h
    have hname : r.name = threeNames := registerFilesystem_name hcall
    have hseg : Seg r.next r.fileSystems [1] .null := ⟨hhead, hnext⟩
    refine ⟨_, r, Run.nil.cons ⟨v, hcall⟩, rfl, hseg, by decide, fun hexact => ?_⟩
    have hbegins : Begins r (threeNames 0) (comparedLength (threeNames 0)) 1 := by
      unfold Begins
      rw [hname]
      decide
    have htold := ((namesExact_iff hseg (by decide)).mp hexact).1 (by decide) 1 (by simp [hbegins])
    rw [hname] at htold
    exact absurd (congrArg CString.chars htold) (by decide)
  · have hrun : ((registerFilesystem (unlistedRecords noName) 0).toOption.bind fun p =>
        (registerFilesystem p.2 0).toOption.map fun q =>
          decide (q.2.fileSystems = .node 0 ∧ q.2.next 0 = .node 0)) = some true := by
      decide +kernel
    obtain ⟨⟨v, r⟩, h, hrun⟩ := Option.bind_eq_some_iff.mp hrun
    obtain ⟨⟨v', r'⟩, h', hlist⟩ := Option.map_eq_some_iff.mp hrun
    obtain ⟨hhead, hnext⟩ := of_decide_eq_true hlist
    have hr : Registrations noName _ r' :=
      (Run.nil.cons ⟨v, eq_ok_of_toOption h⟩).cons ⟨v', eq_ok_of_toOption h'⟩
    refine ⟨_, r', hr, rfl, hhead, hnext, ?_⟩
    rintro ⟨xs, hseg⟩
    rw [hhead] at hseg
    exact not_seg_of_loop hnext hseg

end SaxonOS.Proofs
