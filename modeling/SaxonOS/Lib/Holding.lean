import SaxonOS.Lib.Simulation

/-!
# Programs that hold cells

A program that reads numbered cells. It takes a cell, works on what it finds there and gives the
cell back, or keeps it; meanwhile it may take others. One cell is held all the time.

Over plain cells such a program is a computation. Over a store that hands out its cells through
handles it comes to the same, if the store shows the right contents.
-/

namespace Lib

/-- `look` reads the cell that is held all the time, `again` the one taken last that is still held.
The body of `hold` says whether its cell is given back. -/
inductive Holding (κ ν ε : Type) : Type → Type 1
  | ret {α : Type} (a : α) : Holding κ ν ε α
  | fail {α : Type} (e : ε) : Holding κ ν ε α
  | look {α : Type} (next : ν → Holding κ ν ε α) : Holding κ ν ε α
  | again {α : Type} (next : ν → Holding κ ν ε α) : Holding κ ν ε α
  | hold {α β : Type} (k : κ) (body : ν → Holding κ ν ε (β × Bool)) (next : β → Holding κ ν ε α) :
      Holding κ ν ε α

namespace Holding

variable {κ ν ε α β : Type}

def bind : {α : Type} → Holding κ ν ε α → (α → Holding κ ν ε β) → Holding κ ν ε β
  | _, ret a, f => f a
  | _, fail e, _ => fail e
  | _, look next, f => look fun v => (next v).bind f
  | _, again next, f => again fun v => (next v).bind f
  | _, hold k body next, f => hold k body fun b => (next b).bind f

instance : Monad (Holding κ ν ε) where
  pure := ret
  bind := bind

def ofExcept : Except ε α → Holding κ ν ε α
  | .ok a => ret a
  | .error e => fail e

/-- The cell `k`, taken and given back at once after `f` of it. -/
def visit (k : κ) (f : ν → Except ε α) : Holding κ ν ε α :=
  hold k (fun v => (ofExcept (f v)).bind fun a => ret (a, true)) ret

/-- `cur` is the cell taken last. -/
def ideal (cells : κ → ν) (pin : κ) : {α : Type} → κ → Holding κ ν ε α → Except ε α
  | _, _, ret a => .ok a
  | _, _, fail e => .error e
  | _, cur, look next => ideal cells pin cur (next (cells pin))
  | _, cur, again next => ideal cells pin cur (next (cells cur))
  | _, cur, hold k body next =>
    match ideal cells pin k (body (cells k)) with
    | .error e => .error e
    | .ok (b, _) => ideal cells pin cur (next b)

variable {cells : κ → ν} {pin cur : κ}

lemma ideal_bind (p : Holding κ ν ε α) (f : α → Holding κ ν ε β) :
    ideal cells pin cur (p >>= f) =
      ideal cells pin cur p >>= fun a => ideal cells pin cur (f a) := by
  change ideal cells pin cur (p.bind f) = _
  induction p with
  | ret a => rfl
  | fail e => rfl
  | look next ih => exact ih _ f
  | again next ih => exact ih _ f
  | hold k body next _ ih =>
    simp only [bind, ideal]
    cases ideal cells pin k (body (cells k)) with
    | error e => rfl
    | ok r => exact ih r.1 f

lemma ideal_ofExcept (e : Except ε α) :
    ideal cells pin cur (ofExcept (κ := κ) (ν := ν) e) = e := by
  cases e <;> rfl

lemma ideal_visit (k : κ) (f : ν → Except ε α) :
    ideal cells pin cur (visit k f) = f (cells k) := by
  simp only [visit, ideal]
  cases f (cells k) <;> rfl

end Holding

/-- A store that hands out its cells through handles. -/
structure CellStore (σ κ ν η ε : Type) where
  get : σ → κ → Except ε (η × σ)
  look : σ → η → ν
  put : σ → η → Except ε σ

def CellStore.release {σ κ ν η ε : Type} (st : CellStore σ κ ν η ε) (back : Bool) (s : σ) (h : η) :
    Except ε σ :=
  if back then st.put s h else .ok s

/-- What a program that has ended returns and keeps, the cells it asked for with the states at
that time, and the state it leaves. -/
structure Ending (σ κ η α : Type) where
  value : α
  kept : List η
  gets : List (σ × κ)
  state : σ

namespace Holding

variable {σ η : Type}

def via (st : CellStore σ κ ν η ε) (pin : η) : {α : Type} → η → Holding κ ν ε α → σ →
    Except ε (Ending σ κ η α)
  | _, _, ret a, s => .ok ⟨a, [], [], s⟩
  | _, _, fail e, _ => .error e
  | _, cur, look next, s => via st pin cur (next (st.look s pin)) s
  | _, cur, again next, s => via st pin cur (next (st.look s cur)) s
  | _, cur, hold k body next, s => do
    let (h, s₁) ← st.get s k
    let r ← via st pin h (body (st.look s₁ h)) s₁
    let s₂ ← st.release r.value.2 r.state h
    let q ← via st pin cur (next r.value.1) s₂
    .ok ⟨q.value, q.kept ++ (r.kept ++ if r.value.2 then [] else [h]),
      q.gets ++ (r.gets ++ [(s, k)]), q.state⟩

/-- No more than `d` cells are held at a time, and `look` and `again` stand only where they are
allowed. -/
def Within (l a : Prop) : {α : Type} → Nat → Holding κ ν ε α → Prop
  | _, _, ret _ => True
  | _, _, fail _ => True
  | _, d, look next => l ∧ ∀ v, Within l a d (next v)
  | _, d, again next => a ∧ ∀ v, Within l a d (next v)
  | _, d, hold _ body next =>
    0 < d ∧ (∀ v, Within l a (d - 1) (body v)) ∧ ∀ b, Within l a d (next b)

variable {l a : Prop} {d : Nat}

lemma within_bind {p : Holding κ ν ε α} {f : α → Holding κ ν ε β} (hp : p.Within l a d)
    (hf : ∀ x, (f x).Within l a d) : (p >>= f).Within l a d := by
  change (p.bind f).Within l a d
  induction p generalizing d with
  | ret x => exact hf x
  | fail e => trivial
  | look next ih => exact ⟨hp.1, fun v => ih v (hp.2 v) hf⟩
  | again next ih => exact ⟨hp.1, fun v => ih v (hp.2 v) hf⟩
  | hold k body next _ ih => exact ⟨hp.1, hp.2.1, fun b => ih b (hp.2.2 b) hf⟩

lemma within_ofExcept (e : Except ε α) : (ofExcept (κ := κ) (ν := ν) e).Within l a d := by
  cases e <;> trivial

lemma within_visit (hd : 0 < d) (k : κ) (f : ν → Except ε α) : (visit k f).Within l a d :=
  ⟨hd, fun v => within_bind (within_ofExcept (f v)) fun _ => trivial, fun _ => trivial⟩

end Holding

/-- What a program asks a store for. -/
inductive CellOp (κ η : Type)
  | get (k : κ)
  | put (h : η)

/-- The operations of a store of which `out` lists the handles that are out. -/
def CellStore.Step {σ κ ν η ε : Type} (st : CellStore σ κ ν η ε) (out : σ → List η) (s : σ) :
    CellOp κ η → σ → Prop
  | .get k, s' => ∃ h, st.get s k = .ok (h, s')
  | .put h, s' => h ∈ out s ∧ st.put s h = .ok s'

/-- The cells asked for in a run. -/
def getsOf {σ κ η : Type} : List (σ × CellOp κ η) → List (σ × κ)
  | [] => []
  | (s, .get k) :: tr => (s, k) :: getsOf tr
  | (_, .put _) :: tr => getsOf tr

lemma getsOf_append {σ κ η : Type} (tr tr' : List (σ × CellOp κ η)) :
    getsOf (tr ++ tr') = getsOf tr ++ getsOf tr' := by
  induction tr with
  | nil => rfl
  | cons p tr ih =>
    obtain ⟨s, op⟩ := p
    cases op with
    | get k => exact congrArg ((s, k) :: ·) ih
    | put h => exact ih

/-- While the cells in a list are held a store keeps the invariant `I` of that list, at the takings
that meet the condition `C` and with no more than `n` cells held. What is taken has the right
contents. -/
structure Serves {σ κ ν η ε : Type} (st : CellStore σ κ ν η ε) (cells : κ → ν) (key : η → κ)
    (n : Nat) (I : List η → σ → Prop) (C : σ → κ → Prop) : Prop where
  get : ∀ held s k h s', I held s → held.length < n → C s k → st.get s k = .ok (h, s') →
    key h = k ∧ st.look s' h = cells k ∧ I (h :: held) s'
  put : ∀ held held' s h s', I (held ++ h :: held') s → st.put s h = .ok s' → I (held ++ held') s'

namespace Holding

variable {σ η : Type} {st : CellStore σ κ ν η ε} {key : η → κ} {p h : η} {n d : Nat} {l a : Prop}
  {I : List η → σ → Prop} {C : σ → κ → Prop} {held : List η} {s : σ}

lemma via_hold {β : Type} {k : κ} {body : ν → Holding κ ν ε (β × Bool)} {next : β → Holding κ ν ε α}
    {r : Ending σ κ η α} (hr : (hold k body next).via st p h s = .ok r) :
    ∃ h₁ s₁ rb s₂ q, st.get s k = .ok (h₁, s₁) ∧
      (body (st.look s₁ h₁)).via st p h₁ s₁ = .ok rb ∧
      st.release rb.value.2 rb.state h₁ = .ok s₂ ∧ (next rb.value.1).via st p h s₂ = .ok q ∧
      r = ⟨q.value, q.kept ++ (rb.kept ++ if rb.value.2 then [] else [h₁]),
        q.gets ++ (rb.gets ++ [(s, k)]), q.state⟩ := by
  obtain ⟨⟨h₁, s₁⟩, hget, hr⟩ := bind_eq_ok hr
  obtain ⟨rb, hrb, hr⟩ := bind_eq_ok hr
  obtain ⟨s₂, hput, hr⟩ := bind_eq_ok hr
  obtain ⟨q, hq, hr⟩ := bind_eq_ok hr
  exact ⟨h₁, s₁, rb, s₂, q, hget, hrb, hput, hq, (Except.ok.inj hr).symm⟩

lemma via_map {β : Type} {prog : Holding κ ν ε α} (f : α → β) {r : Ending σ κ η β}
    (hr : (prog >>= fun x => ret (f x)).via st p h s = .ok r) :
    ∃ r', prog.via st p h s = .ok r' ∧ r = ⟨f r'.value, r'.kept, r'.gets, r'.state⟩ := by
  change (prog.bind fun x => ret (f x)).via st p h s = .ok r at hr
  induction prog generalizing h s r with
  | ret x => exact ⟨_, rfl, (Except.ok.inj hr).symm⟩
  | fail e => cases hr
  | look next ih => exact ih _ _ hr
  | again next ih => exact ih _ _ hr
  | hold k body next _ ih =>
    obtain ⟨h₁, s₁, rb, s₂, q, hget, hbody, hrel, hq, rfl⟩ := via_hold hr
    obtain ⟨r', hr', rfl⟩ := ih _ _ hq
    refine ⟨⟨r'.value, r'.kept ++ (rb.kept ++ if rb.value.2 then [] else [h₁]),
      r'.gets ++ (rb.gets ++ [(s, k)]), r'.state⟩, ?_, rfl⟩
    rw [via, hget]
    change (via st p h₁ _ s₁ >>= _) = _
    rw [hbody]
    change (st.release _ _ _ >>= _) = _
    rw [hrel]
    change (via st p h _ s₂ >>= _) = _
    rw [hr']
    rfl

lemma gets_hold {k : κ} {gb gq : List (σ × κ)}
    (hC : ∀ g ∈ gq ++ (gb ++ [(s, k)]), C g.1 g.2) :
    (∀ g ∈ gq, C g.1 g.2) ∧ (∀ g ∈ gb, C g.1 g.2) ∧ C s k := by
  simp only [List.mem_append, List.mem_singleton] at hC
  exact ⟨fun g hg => hC g (Or.inl hg), fun g hg => hC g (Or.inr (Or.inl hg)),
    hC (s, k) (Or.inr (Or.inr rfl))⟩

/-- What a program keeps is what is out after it, beside what was out before. -/
lemma via_kept {out : σ → List η}
    (hget : ∀ s k h s', st.get s k = .ok (h, s') → (h :: out s).Perm (out s'))
    (hput : ∀ s h s', h ∈ out s → st.put s h = .ok s' → (out s).Perm (h :: out s'))
    {prog : Holding κ ν ε α} {r : Ending σ κ η α} (hr : prog.via st p h s = .ok r) :
    (r.kept ++ out s).Perm (out r.state) := by
  induction prog generalizing h s with
  | ret x =>
    obtain rfl := Except.ok.inj hr
    exact .refl _
  | fail e => cases hr
  | look next ih => exact ih _ hr
  | again next ih => exact ih _ hr
  | hold k body next ihb ihn =>
    obtain ⟨h₁, s₁, rb, s₂, q, hg, hrb, hrel, hq, rfl⟩ := via_hold hr
    have hbody : (h₁ :: (rb.kept ++ out s)).Perm (out rb.state) :=
      (List.perm_middle.symm.trans ((hget s k h₁ s₁ hg).append_left rb.kept)).trans (ihb _ hrb)
    have hmid : ((rb.kept ++ if rb.value.2 then [] else [h₁]) ++ out s).Perm (out s₂) := by
      cases hback : rb.value.2 with
      | true =>
        rw [hback] at hrel
        have hm : h₁ ∈ out rb.state := hbody.subset List.mem_cons_self
        simpa using (hbody.trans (hput _ _ _ hm hrel)).cons_inv
      | false =>
        rw [hback] at hrel
        obtain rfl := Except.ok.inj hrel
        simpa using List.perm_middle.trans hbody
    rw [List.append_assoc]
    exact (hmid.append_left q.kept).trans (ihn _ hq)

/-- A program is a run of the operations of the store, with no more handles out on the way than it
keeps in the end and holds at a time. -/
theorem via_run {out : σ → List η}
    (hget : ∀ s k h s', st.get s k = .ok (h, s') → (h :: out s).Perm (out s'))
    (hput : ∀ s h s', h ∈ out s → st.put s h = .ok s' → (out s).Perm (h :: out s'))
    {prog : Holding κ ν ε α} (hp : prog.Within l a d) {r : Ending σ κ η α}
    (hr : prog.via st p h s = .ok r) :
    ∃ tr, Run (st.Step out) s tr r.state ∧ getsOf tr = r.gets ∧
      ∀ q ∈ tr, (out q.1).length ≤ (out s).length + r.kept.length + d := by
  induction prog generalizing h s d with
  | ret x =>
    obtain rfl := Except.ok.inj hr
    exact ⟨[], .nil, rfl, by simp⟩
  | fail e => cases hr
  | look next ih => exact ih _ (hp.2 _) hr
  | again next ih => exact ih _ (hp.2 _) hr
  | hold k body next ihb ihn =>
    obtain ⟨hpos, hbody, hnext⟩ := hp
    obtain ⟨h₁, s₁, rb, s₂, q, hg, hrb, hrel, hq, rfl⟩ := via_hold hr
    obtain ⟨trb, hrunb, hgb, hlenb⟩ := ihb _ (hbody _) hrb
    obtain ⟨trq, hrunq, hgq, hlenq⟩ := ihn _ (hnext _) hq
    have hs₁ := (hget s k h₁ s₁ hg).length_eq
    have hbout := (via_kept hget hput hrb).length_eq
    simp only [List.length_append, List.length_cons] at hs₁ hbout
    have hfirst : Run (st.Step out) s [(s, .get k)] s₁ := Run.nil.cons ⟨h₁, hg⟩
    have hmid := hfirst.append hrunb
    have hlen : ∀ x ∈ trb ++ [(s, CellOp.get k)],
        (out x.1).length ≤ (out s).length + rb.kept.length + d := by
      intro x hx
      rcases List.mem_append.mp hx with hx | hx
      · have hle := hlenb x hx
        omega
      · rw [List.mem_singleton.mp hx]
        dsimp only
        omega
    cases hback : rb.value.2 with
    | true =>
      rw [hback] at hrel
      have hm : h₁ ∈ out rb.state := by
        refine (via_kept hget hput hrb).subset (List.mem_append_right _ ?_)
        exact (hget s k h₁ s₁ hg).subset List.mem_cons_self
      have hs₂ := (hput _ _ _ hm hrel).length_eq
      rw [List.length_cons] at hs₂
      have hput₁ : st.Step out rb.state (.put h₁) s₂ := ⟨hm, hrel⟩
      refine ⟨_, (hmid.cons hput₁).append hrunq, by simp [getsOf_append, getsOf, hgb, hgq], ?_⟩
      intro x hx
      simp only [List.length_append, if_true, List.length_nil]
      rcases List.mem_append.mp hx with hx | hx
      · have hle := hlenq x hx
        omega
      · rcases List.mem_cons.mp hx with rfl | hx
        · dsimp only
          omega
        · have hle := hlen x hx
          omega
    | false =>
      rw [hback] at hrel
      obtain rfl := Except.ok.inj hrel
      refine ⟨_, hmid.append hrunq, by simp [getsOf_append, getsOf, hgb, hgq], ?_⟩
      intro x hx
      simp only [List.length_append, Bool.false_eq_true, if_false, List.length_singleton]
      rcases List.mem_append.mp hx with hx | hx
      · have hle := hlenq x hx
        omega
      · have hle := hlen x hx
        omega

/-- The cell is given back, or it stays held. -/
lemma release_keeps (hs : Serves st cells key n I C) {back : Bool} {kept : List η}
    {s' : σ} (hI : I (kept ++ h :: held) s) (hput : st.release back s h = .ok s') :
    I ((kept ++ if back then [] else [h]) ++ held) s' := by
  cases back with
  | true => simpa using hs.put kept held s h s' hI hput
  | false =>
    obtain rfl := Except.ok.inj hput
    simpa using hI

/-- The invariant is kept, whatever the contents are. -/
theorem via_keeps (hs : Serves st cells key n I C) {prog : Holding κ ν ε α}
    (hp : prog.Within l a d) (hI : I held s) {r : Ending σ κ η α}
    (hr : prog.via st p h s = .ok r) (hn : held.length + r.kept.length + d ≤ n)
    (hC : ∀ g ∈ r.gets, C g.1 g.2) : I (r.kept ++ held) r.state := by
  induction prog generalizing h held s d with
  | ret x =>
    obtain rfl := Except.ok.inj hr
    exact hI
  | fail e => cases hr
  | look next ih => exact ih _ (hp.2 _) hI hr hn hC
  | again next ih => exact ih _ (hp.2 _) hI hr hn hC
  | hold k body next ihb ihn =>
    obtain ⟨hpos, hbody, hnext⟩ := hp
    obtain ⟨h₁, s₁, rb, s₂, q, hget, hrb, hput, hq, rfl⟩ := via_hold hr
    simp only [List.length_append] at hn
    obtain ⟨hCq, hCb, hCk⟩ := gets_hold hC
    obtain ⟨-, -, hI₁⟩ := hs.get held s k h₁ s₁ hI (by omega) hCk hget
    have hlen : (h₁ :: held).length + rb.kept.length + (d - 1) ≤ n := by
      rw [List.length_cons]
      omega
    have hI₃ := release_keeps hs (ihb _ (hbody _) hI₁ hrb hlen hCb) hput
    have hlen' : ((rb.kept ++ if rb.value.2 then [] else [h₁]) ++ held).length + q.kept.length +
        d ≤ n := by
      simp only [List.length_append]
      omega
    rw [List.append_assoc]
    exact ihn _ (hnext _) hI₃ hq hlen' hCq

/-- A program that ends over such a store returns what it does over the cells, if the contents of
what it looks at again stay: of the cell held all the time, of the other cells that are held. -/
theorem via_sound (hs : Serves st cells key n I C) {prog : Holding κ ν ε α}
    (hp : prog.Within l a d)
    (hpin : l → ∀ held s, I held s → st.look s p = cells (key p))
    (hagain : a → ∀ held s, I held s → ∀ h, h = p ∨ h ∈ held → st.look s h = cells (key h))
    (hcur : h = p ∨ h ∈ held) (hI : I held s) {r : Ending σ κ η α}
    (hr : prog.via st p h s = .ok r) (hn : held.length + r.kept.length + d ≤ n)
    (hC : ∀ g ∈ r.gets, C g.1 g.2) : prog.ideal cells (key p) (key h) = .ok r.value := by
  induction prog generalizing h held s d with
  | ret x =>
    obtain rfl := Except.ok.inj hr
    rfl
  | fail e => cases hr
  | look next ih =>
    rw [via, hpin hp.1 held s hI] at hr
    exact ih _ (hp.2 _) hcur hI hr hn hC
  | again next ih =>
    rw [via, hagain hp.1 held s hI h hcur] at hr
    exact ih _ (hp.2 _) hcur hI hr hn hC
  | hold k body next ihb ihn =>
    obtain ⟨hpos, hbody, hnext⟩ := hp
    obtain ⟨h₁, s₁, rb, s₂, q, hget, hrb, hput, hq, rfl⟩ := via_hold hr
    simp only [List.length_append] at hn
    obtain ⟨hCq, hCb, hCk⟩ := gets_hold hC
    obtain ⟨rfl, hlook, hI₁⟩ := hs.get held s k h₁ s₁ hI (by omega) hCk hget
    rw [hlook] at hrb
    have hlen : (h₁ :: held).length + rb.kept.length + (d - 1) ≤ n := by
      rw [List.length_cons]
      omega
    have hideal := ihb _ (hbody _) (Or.inr List.mem_cons_self) hI₁ hrb hlen hCb
    have hI₃ := release_keeps hs (via_keeps hs (hbody _) hI₁ hrb hlen hCb) hput
    have hlen' : ((rb.kept ++ if rb.value.2 then [] else [h₁]) ++ held).length + q.kept.length +
        d ≤ n := by
      simp only [List.length_append]
      omega
    have hrest := ihn _ (hnext _) (hcur.imp_right (List.mem_append_right _)) hI₃ hq hlen' hCq
    rw [ideal, hideal]
    exact hrest

end Holding

end Lib
