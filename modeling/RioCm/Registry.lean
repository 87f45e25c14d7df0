import RioCm.Node

/-!
# Registry — the registry and teardown discipline

What every reachable state of one host satisfies: each channel of `ch_idr` is registered
under its own number, is not being destroyed, and is the only registered channel at its
address; and `riocm_ch_close` is called only on channels the same operation took out of
`ch_idr`, so at most once per channel over any run.

Each operation is classified once by what it does to the registry's view (number ↦
address and number of the channel registered there): most operations keep it (`Keeps`);
creating and accepting a channel register one at a fresh address; the close paths take
channels out and close exactly those (`RegStep`). The run theorem follows by induction
over the operations.
-/

namespace RioCm

/-! ## The registry's view -/

/-- The address and the number of the channel registered under `k`. -/
def Node.view (n : Node) (k : Nat) : Option (Nat × Nat) :=
  (n.chIdr k).map fun ch => (ch.ptr, ch.id)

/-- No registered channel is being destroyed. -/
def Node.Live (n : Node) : Prop :=
  ∀ {k ch}, n.chIdr k = some ch → ch.state ≠ .destroying

theorem Node.view_of_chIdr {n : Node} {k : Nat} {ch : RioChannel} (h : n.chIdr k = some ch) :
    n.view k = some (ch.ptr, ch.id) := by
  simp [Node.view, h]

theorem Node.view_setChan (n : Node) (k j : Nat) (ch : RioChannel) :
    (n.setChan k ch).view j = if j = k then some (ch.ptr, ch.id) else n.view j := by
  by_cases hj : j = k <;> simp [Node.view, hj]

theorem Node.view_removeChans (n : Node) (ks : List Nat) (j : Nat) :
    (n.removeChans ks).view j = if j ∈ ks then none else n.view j := by
  by_cases hj : j ∈ ks <;> simp [Node.view, hj]

/-- The registry invariant: every channel is registered under its own number, which is
at most `RIOCM_MAX_CHNUM`, at an address below `nextPtr` that no other registered channel
has, and is not being destroyed. -/
structure RegInv (n : Node) : Prop where
  id_eq : ∀ {k x}, n.view k = some x → x.2 = k
  key_le : ∀ {k x}, n.view k = some x → k ≤ riocmMaxChnum
  ptr_lt : ∀ {k x}, n.view k = some x → x.1 < n.nextPtr
  ptr_inj : ∀ {k j x y}, n.view k = some x → n.view j = some y → x.1 = y.1 → k = j
  live : n.Live

theorem regInv_init (cmbox chstart : Nat) : RegInv (Node.init cmbox chstart) where
  id_eq h := by simp [Node.view, Node.init] at h
  key_le h := by simp [Node.view, Node.init] at h
  ptr_lt h := by simp [Node.view, Node.init] at h
  ptr_inj h := by simp [Node.view, Node.init] at h
  live h := by simp [Node.init] at h

theorem RegInv.chan_id {n : Node} (h : RegInv n) {k : Nat} {ch : RioChannel}
    (hk : n.chIdr k = some ch) : ch.id = k :=
  h.id_eq (Node.view_of_chIdr hk)

/-- Two registered channels at the same address are one. -/
theorem RegInv.chan_inj {n : Node} (h : RegInv n) {k j : Nat} {ch ch' : RioChannel}
    (hk : n.chIdr k = some ch) (hj : n.chIdr j = some ch') (hp : ch.ptr = ch'.ptr) : k = j :=
  h.ptr_inj (Node.view_of_chIdr hk) (Node.view_of_chIdr hj) hp

/-! ## Operations that keep the view -/

/-- An update of a channel object that keeps its address and number and destroys
nothing. -/
def ChanFrame (f : RioChannel → RioChannel) : Prop :=
  ∀ ch, (f ch).ptr = ch.ptr ∧ (f ch).id = ch.id ∧
    (ch.state ≠ .destroying → (f ch).state ≠ .destroying)

theorem chanFrame_put : ChanFrame RioChannel.put := fun _ => ⟨rfl, rfl, id⟩

theorem chanFrame_get : ChanFrame RioChannel.get := fun _ => ⟨rfl, rfl, id⟩

theorem chanFrame_compExch (comp : RioCmState) {exch : RioCmState}
    (h : exch ≠ .destroying) : ChanFrame (RioChannel.compExch comp exch) := by
  intro ch
  unfold RioChannel.compExch
  split <;> exact ⟨rfl, rfl, fun hs => by assumption⟩

/-- A step, or part of one, that keeps the registry's view: every number keeps its
channel, possibly updated, and `nextPtr` does not go back. -/
structure Keeps (n n' : Node) : Prop where
  view : n'.view = n.view
  next_le : n.nextPtr ≤ n'.nextPtr
  live : n.Live → n'.Live

theorem Keeps.refl (n : Node) : Keeps n n := ⟨rfl, le_rfl, id⟩

theorem Keeps.trans {n n1 n2 : Node} (h1 : Keeps n n1) (h2 : Keeps n1 n2) : Keeps n n2 :=
  ⟨h2.view.trans h1.view, h1.next_le.trans h2.next_le, h2.live ∘ h1.live⟩

theorem keeps_modifyChan (n : Node) (k : Nat) {f : RioChannel → RioChannel}
    (hf : ChanFrame f) : Keeps n (n.modifyChan k f) where
  view := by
    funext j
    by_cases hj : j = k
    · subst hj; cases h : n.chIdr j <;> simp [Node.view, h, (hf _).1, (hf _).2.1]
    · simp [Node.view, hj]
  next_le := le_rfl
  live hl j ch hj := by
    simp only [Node.modifyChan_chIdr, Function.update_apply] at hj
    split_ifs at hj
    · obtain ⟨c, hc, rfl⟩ := Option.map_eq_some'.1 hj
      exact (hf c).2.2 (hl hc)
    · exact hl hj

theorem keeps_putChannel (n : Node) (k : Nat) : Keeps n (n.putChannel k) :=
  keeps_modifyChan n k chanFrame_put

theorem keeps_park (n : Node) (rs : List ParkedReq) : Keeps n (n.park rs) := ⟨rfl, le_rfl, id⟩

theorem Node.getChannel_eq_some {n n1 : Node} {k : Nat} {ch : RioChannel} :
    n.getChannel k = some (n1, ch) ↔
      ∃ c, n.chIdr k = some c ∧ n1 = n.modifyChan k RioChannel.get ∧ ch = c.get := by
  unfold Node.getChannel
  cases n.chIdr k <;> simp [eq_comm]

theorem keeps_getChannel {n n1 : Node} {k : Nat} {ch : RioChannel}
    (h : n.getChannel k = some (n1, ch)) : Keeps n n1 := by
  obtain ⟨_, _, rfl, -⟩ := Node.getChannel_eq_some.1 h
  exact keeps_modifyChan n k chanFrame_get

/-- The pattern of most operations: take a reference, update the channel, put it back. -/
theorem keeps_get_modify_put {n n1 : Node} {k : Nat} {ch : RioChannel}
    (hg : n.getChannel k = some (n1, ch)) {f : RioChannel → RioChannel} (hf : ChanFrame f) :
    Keeps n ((n1.modifyChan k f).putChannel k) :=
  (keeps_getChannel hg).trans ((keeps_modifyChan _ _ hf).trans (keeps_putChannel _ _))

theorem keeps_get_put {n n1 : Node} {k : Nat} {ch : RioChannel}
    (hg : n.getChannel k = some (n1, ch)) : Keeps n (n1.putChannel k) :=
  (keeps_getChannel hg).trans (keeps_putChannel _ _)

theorem keeps_setChan {n : Node} {k : Nat} {ch : RioChannel}
    (hv : n.view k = some (ch.ptr, ch.id)) (hs : ch.state ≠ .destroying) :
    Keeps n (n.setChan k ch) where
  view := by
    funext j
    rw [Node.view_setChan]
    split_ifs with hj
    · rw [hj, hv]
    · rfl
  next_le := le_rfl
  live hl j c hj := by
    simp only [Node.setChan_chIdr, Function.update_apply] at hj
    split_ifs at hj
    · cases hj; exact hs
    · exact hl hj

theorem keeps_devs (n : Node) (l : List CmDev) : Keeps n { n with cmDevList := l } :=
  ⟨rfl, le_rfl, id⟩

theorem keeps_bumpPtr (n : Node) : Keeps n { n with nextPtr := n.nextPtr + 1 } :=
  ⟨rfl, Nat.le_succ _, id⟩

/-! ## Registry steps -/

/-- What one operation does to the registry as far as teardown goes: the invariant holds
after it; every channel registered after it was registered before at the same address,
or sits at a fresh one; and the channels it closed (`closed`, by address) are distinct,
were registered before it, and are not after it. -/
structure RegStep (n n' : Node) (closed : List Nat) : Prop where
  inv : RegInv n'
  next_le : n.nextPtr ≤ n'.nextPtr
  old_or_fresh : ∀ {k x}, n'.view k = some x →
    n.nextPtr ≤ x.1 ∨ ∃ j y, n.view j = some y ∧ y.1 = x.1
  nodup : closed.Nodup
  was_registered : ∀ p ∈ closed, ∃ k x, n.view k = some x ∧ x.1 = p
  gone : ∀ p ∈ closed, ∀ {k x}, n'.view k = some x → x.1 ≠ p

theorem Keeps.regStep {n n' : Node} (hk : Keeps n n') (h : RegInv n) : RegStep n n' [] where
  inv :=
    { id_eq := fun hv => h.id_eq (hk.view ▸ hv)
      key_le := fun hv => h.key_le (hk.view ▸ hv)
      ptr_lt := fun hv => lt_of_lt_of_le (h.ptr_lt (hk.view ▸ hv)) hk.next_le
      ptr_inj := fun hv hw => h.ptr_inj (hk.view ▸ hv) (hk.view ▸ hw)
      live := hk.live h.live }
  next_le := hk.next_le
  old_or_fresh hv := .inr ⟨_, _, hk.view ▸ hv, rfl⟩
  nodup := List.nodup_nil
  was_registered := by simp
  gone := by simp

theorem RegStep.keeps_left {n n1 n2 : Node} {c : List Nat} (hk : Keeps n n1)
    (hs : RegStep n1 n2 c) : RegStep n n2 c where
  inv := hs.inv
  next_le := hk.next_le.trans hs.next_le
  old_or_fresh hv := (hs.old_or_fresh hv).imp (hk.next_le.trans ·) (by rw [hk.view]; exact id)
  nodup := hs.nodup
  was_registered := by rw [← hk.view]; exact hs.was_registered
  gone := hs.gone

theorem RegStep.keeps_right {n n1 n2 : Node} {c : List Nat} (hs : RegStep n n1 c)
    (hk : Keeps n1 n2) : RegStep n n2 c where
  inv := (hk.regStep hs.inv).inv
  next_le := hs.next_le.trans hk.next_le
  old_or_fresh hv := hs.old_or_fresh (hk.view ▸ hv)
  nodup := hs.nodup
  was_registered := hs.was_registered
  gone p hp _ _ hv := hs.gone p hp (hk.view ▸ hv)

/-! ## Registering and removing channels -/

/-- `idr_alloc` returns a free number. -/
theorem idrAlloc_free {idr : Nat → Option RioChannel} :
    ∀ {fuel start k : Nat}, idrAlloc idr start fuel = some k → idr k = none
  | 0, _, _, h => nomatch h
  | _ + 1, start, _, h => by
    unfold idrAlloc at h
    split at h
    · cases h; simpa using ‹(idr start).isNone = true›
    · exact idrAlloc_free h

/-- `idr_alloc` returns a number in its range. -/
theorem idrAlloc_mem {idr : Nat → Option RioChannel} :
    ∀ {fuel start k : Nat}, idrAlloc idr start fuel = some k → start ≤ k ∧ k < start + fuel
  | 0, _, _, h => nomatch h
  | _ + 1, start, _, h => by
    unfold idrAlloc at h
    split at h
    · cases h; omega
    · have := idrAlloc_mem h; omega

/-- For a `u16` `ch_num`, `riocm_ch_alloc` allocates a number up to `RIOCM_MAX_CHNUM`. -/
theorem riocmChAlloc_id_le {n n' : Node} {c : Nat} {a : Bool} {ch : RioChannel}
    (h : riocmChAlloc n c a = (n', .ok ch)) (hc : c ≤ riocmMaxChnum) : ch.id ≤ riocmMaxChnum := by
  unfold riocmChAlloc at h
  split at h
  · cases h
  · split at h
    · cases h
    · rename_i hid
      cases h
      have := idrAlloc_mem hid
      simp only [allocStart, allocEnd] at this
      dsimp only
      split_ifs at this <;> omega

theorem riocmChAlloc_error {n n' : Node} {c : Nat} {a : Bool} {e : Int}
    (h : riocmChAlloc n c a = (n', .error e)) : n' = n := by
  unfold riocmChAlloc at h
  split at h
  · cases h; rfl
  · split at h <;> cases h; rfl

/-- A new channel is registered, in IDLE, under a free number, at the next address. -/
theorem riocmChAlloc_ok {n n' : Node} {c : Nat} {a : Bool} {ch : RioChannel}
    (h : riocmChAlloc n c a = (n', .ok ch)) :
    n.chIdr ch.id = none ∧ ch.ptr = n.nextPtr ∧ ch.state = .idle ∧
      n' = { n.setChan ch.id ch with nextPtr := n.nextPtr + 1 } := by
  unfold riocmChAlloc at h
  split at h
  · cases h
  · split at h
    · cases h
    · rename_i hid
      cases h
      exact ⟨idrAlloc_free hid, rfl, rfl, rfl⟩

/-- `idr_alloc` returns the lowest free number of its range. -/
theorem idrAlloc_eq_some_iff {idr : Nat → Option RioChannel} :
    ∀ {fuel start k : Nat}, idrAlloc idr start fuel = some k ↔
      start ≤ k ∧ k < start + fuel ∧ idr k = none ∧ ∀ j, start ≤ j → j < k → (idr j).isSome
  | 0, _, _ => ⟨fun h => Option.noConfusion h, fun ⟨h1, h2, _⟩ => absurd h2 (by omega)⟩
  | fuel + 1, start, k => by
    unfold idrAlloc
    by_cases hs : (idr start).isNone
    · rw [if_pos hs, Option.some.injEq]
      constructor
      · rintro rfl
        exact ⟨le_rfl, by omega, Option.isNone_iff_eq_none.1 hs, fun j h1 h2 => absurd h2 (by omega)⟩
      · rintro ⟨h1, -, -, hmin⟩
        by_contra hne
        have := hmin start le_rfl (by omega)
        simp_all
    · rw [if_neg hs, idrAlloc_eq_some_iff]
      have hsome : (idr start).isSome := by cases h : idr start <;> simp_all
      constructor
      · rintro ⟨h1, h2, hk, hmin⟩
        refine ⟨by omega, by omega, hk, fun j hj1 hj2 => ?_⟩
        rcases Nat.eq_or_lt_of_le hj1 with rfl | hlt
        · exact hsome
        · exact hmin j hlt hj2
      · rintro ⟨h1, h2, hk, hmin⟩
        have hne : k ≠ start := by rintro rfl; simp [hk] at hsome
        exact ⟨by omega, by omega, hk, fun j hj1 hj2 => hmin j (by omega) hj2⟩

/-- `idr_alloc` fails exactly when every number of its range is taken. -/
theorem idrAlloc_eq_none_iff {idr : Nat → Option RioChannel} :
    ∀ {fuel start : Nat}, idrAlloc idr start fuel = none ↔
      ∀ j, start ≤ j → j < start + fuel → (idr j).isSome
  | 0, _ => ⟨fun _ _ h1 h2 => absurd h2 (by omega), fun _ => rfl⟩
  | fuel + 1, start => by
    unfold idrAlloc
    by_cases hs : (idr start).isNone
    · rw [if_pos hs]
      refine ⟨fun h => Option.noConfusion h, fun h => ?_⟩
      have := h start le_rfl (by omega)
      simp_all
    · rw [if_neg hs, idrAlloc_eq_none_iff]
      have hsome : (idr start).isSome := by cases h : idr start <;> simp_all
      constructor
      · intro h j hj1 hj2
        rcases Nat.eq_or_lt_of_le hj1 with rfl | hlt
        · exact hsome
        · exact h j hlt (by omega)
      · exact fun h j hj1 hj2 => h j (by omega) (by omega)

/-- Channel numbers. `cm_chan_create` takes the lowest free number of the range
`riocm_ch_alloc` asks `idr_alloc` for (the number passed, or `chstart` to
`RIOCM_MAX_CHNUM` for 0), registers there a new IDLE channel owned by the caller at the
next address, and returns 0; when `kzalloc` fails or every number of the range is taken,
it changes nothing and returns -1. -/
theorem cmChanCreate_spec (n : Node) (filp chNum : Nat) (alloc : Bool) :
    (cmChanCreate n filp chNum alloc = (n, -1) ∧
      (alloc = false ∨ ∀ j, allocStart n.chstart chNum ≤ j → j < allocEnd chNum →
        (n.chIdr j).isSome)) ∨
    (alloc = true ∧ ∃ k, allocStart n.chstart chNum ≤ k ∧ k < allocEnd chNum ∧
      n.chIdr k = none ∧ (∀ j, allocStart n.chstart chNum ≤ j → j < k → (n.chIdr j).isSome) ∧
      cmChanCreate n filp chNum alloc =
        ({ n.setChan k ⟨n.nextPtr, k, 1, filp, none, none, .idle, 0, 0, 0, [],
          ChanRxRing.init, false⟩ with nextPtr := n.nextPtr + 1 }, 0)) := by
  cases alloc with
  | false => exact .inl ⟨rfl, .inl rfl⟩
  | true =>
    cases hid : idrAlloc n.chIdr (allocStart n.chstart chNum)
        (allocEnd chNum - allocStart n.chstart chNum) with
    | none =>
      refine .inl ⟨by simp [cmChanCreate, riocmChAlloc, hid], .inr fun j h1 h2 => ?_⟩
      exact idrAlloc_eq_none_iff.1 hid j h1 (by omega)
    | some k =>
      obtain ⟨h1, h2, hk, hmin⟩ := idrAlloc_eq_some_iff.1 hid
      refine .inr ⟨rfl, k, h1, by omega, hk, hmin, ?_⟩
      simp [cmChanCreate, riocmChAlloc, hid, Node.setChan, Function.update_idem]

theorem regStep_alloc {n n' : Node} {c : Nat} {a : Bool} {ch : RioChannel} (h : RegInv n)
    (ha : riocmChAlloc n c a = (n', .ok ch)) (hc : c ≤ riocmMaxChnum) :
    RegStep n n' [] ∧ n'.view ch.id = some (ch.ptr, ch.id) ∧ ch.state = .idle := by
  have hid := riocmChAlloc_id_le ha hc
  obtain ⟨-, hptr, hst, rfl⟩ := riocmChAlloc_ok ha
  have hv : ∀ j, ({ n.setChan ch.id ch with nextPtr := n.nextPtr + 1 } : Node).view j =
      if j = ch.id then some (ch.ptr, ch.id) else n.view j := fun j => Node.view_setChan n ch.id j ch
  refine ⟨⟨⟨fun {k x} hk => ?_, fun {k x} hk => ?_, fun {k x} hk => ?_,
    fun {k j x y} hk hj hxy => ?_, ?_⟩, Nat.le_succ _, fun {k x} hk => ?_, List.nodup_nil,
    by simp, by simp⟩, by rw [hv, if_pos rfl], hst⟩
  · rw [hv] at hk; split_ifs at hk with he
    · cases hk; exact he.symm
    · exact h.id_eq hk
  · rw [hv] at hk; split_ifs at hk with he
    · exact he ▸ hid
    · exact h.key_le hk
  · rw [hv] at hk; split_ifs at hk
    · cases hk; simp [hptr]
    · exact Nat.lt_succ_of_lt (h.ptr_lt hk)
  · rw [hv] at hk hj
    split_ifs at hk hj with hke hje
    · rw [hke, hje]
    · cases hk; have := h.ptr_lt hj; simp only at hxy; omega
    · cases hj; have := h.ptr_lt hk; simp only at hxy; omega
    · exact h.ptr_inj hk hj hxy
  · intro k c hk
    simp only [Node.setChan_chIdr, Function.update_apply] at hk
    split_ifs at hk
    · cases hk; simp [hst]
    · exact h.live hk
  · rw [hv] at hk; split_ifs at hk
    · cases hk; exact .inl hptr.ge
    · exact .inr ⟨k, x, hk, rfl⟩

/-- The addresses of channels registered under their own, distinct, numbers are
distinct. -/
theorem RegInv.nodup_ptrs {n : Node} (h : RegInv n) {chs : List RioChannel}
    (hreg : ∀ ch ∈ chs, n.chIdr ch.id = some ch) (hnd : (chs.map (·.id)).Nodup) :
    (chs.map (·.ptr)).Nodup :=
  hnd.of_map _ |>.map_on fun x hx y hy hxy => by
    have hx' := hreg x hx
    rw [h.chan_inj hx' (hreg y hy) hxy, hreg y hy] at hx'
    exact (Option.some.inj hx').symm

/-- Taking registered channels out of `ch_idr` and closing them. -/
theorem regStep_removeChans {n : Node} (h : RegInv n) (chs : List RioChannel)
    (hreg : ∀ ch ∈ chs, n.chIdr ch.id = some ch) (hnd : (chs.map (·.id)).Nodup)
    {closed : List Nat} (hc : closed.Perm (chs.map (·.ptr))) :
    RegStep n (n.removeChans (chs.map (·.id))) closed := by
  have hsub : ∀ {k x}, (n.removeChans (chs.map (·.id))).view k = some x →
      k ∉ chs.map (·.id) ∧ n.view k = some x := fun hk => by
    rw [Node.view_removeChans] at hk; split_ifs at hk with hm; exact ⟨hm, hk⟩
  refine ⟨⟨fun hk => h.id_eq (hsub hk).2, fun hk => h.key_le (hsub hk).2,
    fun hk => h.ptr_lt (hsub hk).2,
    fun hk hj => h.ptr_inj (hsub hk).2 (hsub hj).2, fun {k c} hk => ?_⟩, le_rfl,
    fun hk => .inr ⟨_, _, (hsub hk).2, rfl⟩, hc.nodup_iff.2 (h.nodup_ptrs hreg hnd),
    fun p hp => ?_, fun p hp k x hk hxp => ?_⟩
  · simp only [Node.removeChans_chIdr] at hk
    split_ifs at hk; exact h.live hk
  · obtain ⟨ch, hch, rfl⟩ := List.mem_map.1 (hc.subset hp)
    exact ⟨ch.id, _, Node.view_of_chIdr (hreg ch hch), rfl⟩
  · obtain ⟨ch, hch, rfl⟩ := List.mem_map.1 (hc.subset hp)
    obtain ⟨hm, hk⟩ := hsub hk
    exact hm (h.ptr_inj hk (Node.view_of_chIdr (hreg ch hch)) hxp ▸ List.mem_map_of_mem _ hch)

theorem Keeps.setChan {n n1 : Node} {k : Nat} {ch : RioChannel} (hk : Keeps n n1)
    (hv : n.view k = some (ch.ptr, ch.id)) (hs : ch.state ≠ .destroying) :
    Keeps n (n1.setChan k ch) :=
  hk.trans (keeps_setChan (hk.view ▸ hv) hs)

/-! ## Sweeps -/

theorem mem_sweep {n : Node} {p : RioChannel → Bool} {ch : RioChannel} (h : ch ∈ n.sweep p) :
    ∃ k, n.chIdr k = some ch ∧ p ch := by
  rw [Node.sweep] at h
  obtain ⟨k, -, hk⟩ := List.mem_filterMap.1 h
  exact ⟨k, (Option.filter_eq_some.1 hk).1, (Option.filter_eq_some.1 hk).2⟩

theorem RegInv.sweep_registered {n : Node} (h : RegInv n) {p : RioChannel → Bool} :
    ∀ ch ∈ n.sweep p, n.chIdr ch.id = some ch := fun _ hc => by
  obtain ⟨k, hk, -⟩ := mem_sweep hc
  rwa [h.chan_id hk]

theorem RegInv.sweep_ids_nodup {n : Node} (h : RegInv n) (p : RioChannel → Bool) :
    ((n.sweep p).map (·.id)).Nodup := by
  rw [Node.sweep, List.map_filterMap]
  refine (List.nodup_range _).filterMap fun a a' b ha ha' => ?_
  have key : ∀ {a}, b ∈ ((n.chIdr a).filter p).map (·.id) → b = a := fun hb => by
    obtain ⟨ch, hch, rfl⟩ := Option.mem_map.1 hb
    exact h.chan_id (Option.filter_eq_some.1 hch).1
  exact (key ha).symm.trans (key ha')

/-- The end of a sweep takes out and closes exactly the channels it found. -/
theorem regStep_releaseChans {n n' : Node} {o : OpOut} (h : RegInv n) {p : RioChannel → Bool}
    {f : RioChannel → RioChannel} (hf : ∀ ch, (f ch).ptr = ch.ptr) {out : Nat → SendOutcome}
    (hs : n.releaseChans (n.sweep p) f out = some (n', o)) : RegStep n n' o.closed := by
  unfold Node.releaseChans at hs
  obtain ⟨sent, -, hr⟩ := Option.map_eq_some'.1 hs
  obtain ⟨rfl, rfl⟩ := Prod.mk.inj hr
  refine (regStep_removeChans h _ h.sweep_registered (h.sweep_ids_nodup p) ?_).keeps_right
    (keeps_park _ _)
  have hmap : ((n.sweep p).map f).map (·.ptr) = (n.sweep p).map (·.ptr) := by
    rw [List.map_map]; exact List.map_congr_left fun ch _ => hf ch
  dsimp only
  rw [List.map_reverse, hmap]
  exact List.reverse_perm _

/-! ## Each operation -/

section Ops

variable {n n' : Node} {o : OpOut}

/-- A state update that sets fields other than the address, the number and the state. -/
theorem chanFrame_of_state {f : RioChannel → RioChannel}
    (h : ∀ ch, (f ch).ptr = ch.ptr ∧ (f ch).id = ch.id ∧ (f ch).state = ch.state) : ChanFrame f :=
  fun ch => ⟨(h ch).1, (h ch).2.1, fun hs => (h ch).2.2 ▸ hs⟩

/-- A state update that moves the channel to a state other than DESTROYING. -/
theorem chanFrame_to {f : RioChannel → RioChannel} (s : RioCmState) (hs : s ≠ .destroying)
    (h : ∀ ch, (f ch).ptr = ch.ptr ∧ (f ch).id = ch.id ∧ (f ch).state = s) : ChanFrame f :=
  fun ch => ⟨(h ch).1, (h ch).2.1, fun _ => (h ch).2.2 ▸ hs⟩

theorem regStep_cmChanCreate (h : RegInv n) (filp : Nat) {chNum : Nat}
    (hc : chNum ≤ riocmMaxChnum) (alloc : Bool) : RegStep n (cmChanCreate n filp chNum alloc).1 [] := by
  unfold cmChanCreate
  split
  · rename_i ha
    obtain ⟨hs, hv, hst⟩ := regStep_alloc h ha hc
    exact hs.keeps_right ((Keeps.refl _).setChan hv (by simp [hst]))
  · rename_i ha
    rw [riocmChAlloc_error ha]
    exact (Keeps.refl n).regStep h

theorem regStep_cmChanClose (h : RegInv n) {filp chNum : Nat} {out : SendOutcome} {intr : Bool}
    (hs : cmChanClose n filp chNum out intr = some (n', o)) : RegStep n n' o.closed := by
  unfold cmChanClose at hs
  split at hs
  · cases hs; exact (Keeps.refl n).regStep h
  · rename_i ch hch
    split at hs
    · cases hs; exact (Keeps.refl n).regStep h
    · obtain ⟨r, -, hr⟩ := Option.map_eq_some'.1 hs
      cases hr
      exact (regStep_removeChans h [ch] (by simpa [h.chan_id hch] using hch) (by simp)
        (by simp)).keeps_right (keeps_park _ _)

theorem keeps_riocmChBind (n : Node) (chId mportId : Nat) :
    Keeps n (riocmChBind n chId mportId).1 := by
  unfold riocmChBind
  split
  · exact .refl n
  · split
    · exact .refl n
    · rename_i hg
      split
      · exact (keeps_getChannel hg).trans (keeps_putChannel _ _)
      · exact (keeps_getChannel hg).trans ((keeps_modifyChan _ _
          (by exact chanFrame_to .chanBound (by decide) fun _ => ⟨rfl, rfl, rfl⟩)).trans (keeps_putChannel _ _))

theorem keeps_riocmChListen {chId : Nat} {r : Int} (hs : riocmChListen n chId = some (n', r)) :
    Keeps n n' := by
  unfold riocmChListen at hs
  split at hs
  · cases hs
  · rename_i hg
    split at hs <;> cases hs
    · exact (keeps_getChannel hg).trans ((keeps_modifyChan _ _
        (by exact chanFrame_to .listen (by decide) fun _ => ⟨rfl, rfl, rfl⟩)).trans (keeps_putChannel _ _))
    · exact (keeps_getChannel hg).trans (keeps_putChannel _ _)

theorem regStep_riocmChConnect (h : RegInv n) (locCh mportId remDestid remCh : Nat)
    (stack : RioChChanHdr) (out : SendOutcome) :
    RegStep n (riocmChConnect n locCh mportId remDestid remCh stack out).1
      (riocmChConnect n locCh mportId remDestid remCh stack out).2.closed := by
  unfold riocmChConnect
  split; · exact (Keeps.refl n).regStep h
  split; · exact (Keeps.refl n).regStep h
  split; · exact (Keeps.refl n).regStep h
  rename_i hg
  have hg := keeps_getChannel hg
  split
  · exact (hg.trans (keeps_putChannel _ _)).regStep h
  · dsimp only
    split
    · refine ((((hg.trans (keeps_modifyChan _ _ ?_)).trans (keeps_modifyChan _ _
        (chanFrame_compExch _ (by decide)))).trans (keeps_putChannel _ _)).trans
          (keeps_park _ _)).regStep h
      exact chanFrame_to .connect (by decide) fun _ => ⟨rfl, rfl, rfl⟩
    · refine (((hg.trans (keeps_modifyChan _ _ ?_)).trans (keeps_putChannel _ _)).trans
        (keeps_park _ _)).regStep h
      exact chanFrame_to .connect (by decide) fun _ => ⟨rfl, rfl, rfl⟩

/-- What `riocm_ch_accept` can do. On a number with no channel it fails. Otherwise it takes
a reference and puts it back, and fails with the listener unchanged unless the channel is in
LISTEN with a request queued and a new channel is allocated. Then the head request leaves
the queue and the new channel, set up from the listener and the request, is registered:
CONNECTED to the request's sender, with a CONN_ACK sent, when the listener's `cm_dev` has
the sender as a peer; left IDLE with `-ENODEV` when not. -/
theorem cmChanAccept_cases {filp chId timeout : Nat} {w : RxWaitEnd} {alloc : Bool}
    {stack : RioChChanHdr} {out : SendOutcome}
    (hs : cmChanAccept n filp chId timeout w alloc stack out = some (n', o)) :
    (n.chIdr chId = none ∧ n' = n ∧ o = .ofRet (-Errno.inval)) ∨
    (∃ ch, n.chIdr chId = some ch ∧ n' = (n.modifyChan chId RioChannel.get).putChannel chId ∧
      (ch.state ≠ .listen ∧ o = .ofRet (-Errno.inval) ∨
       ch.state = .listen ∧ ch.acceptQueue = [] ∧
         o = .ofRet (if timeout = 0 then -Errno.again else w.reqErr) ∨
       ch.state = .listen ∧ ch.acceptQueue ≠ [] ∧ o = .ofRet (-Errno.nomem))) ∨
    ∃ ch req reqs n2 c cm, n.chIdr chId = some ch ∧ ch.state = .listen ∧
      ch.acceptQueue = req :: reqs ∧
      riocmChAlloc (n.modifyChan chId RioChannel.get) 0 alloc = (n2, .ok c) ∧
      cm ∈ n.cmDevList ∧ ch.cmdev = some cm.ptr ∧
      let n3 := (n2.modifyChan chId fun l => { l with acceptQueue := reqs }).putChannel chId
      (cm.peers.find? (·.destid = req.destid) = none ∧
        n' = n3.setChan c.id (acceptChan c ch req).put ∧ o = .ofRet (-Errno.nodev) ∨
      ∃ d, cm.peers.find? (·.destid = req.destid) = some d ∧
        let acc : RioChannel := { acceptChan c ch req with rdev := some d, state := .connected }
        let r := postSendOut cm.ptr d (connAckHdr stack n.cmbox acc) .borrowed true out
        n' = (n3.setChan c.id { acc with filp := filp }).park r.2.parked ∧
        o = ⟨0, r.2.sent, [], [c.id]⟩) := by
  unfold cmChanAccept at hs
  split at hs
  · rename_i hg
    cases hs
    exact .inl ⟨by simpa [Node.getChannel] using hg, rfl, rfl⟩
  rename_i hg
  obtain ⟨ch, hk, rfl, rfl⟩ := Node.getChannel_eq_some.1 hg
  split at hs
  · cases hs; exact .inr (.inl ⟨ch, hk, rfl, .inl ⟨‹_›, rfl⟩⟩)
  rename_i hl
  have hl : ch.state = .listen := not_not.1 hl
  split at hs
  · cases hs; exact .inr (.inl ⟨ch, hk, rfl, .inr (.inl ⟨hl, ‹_›, rfl⟩)⟩)
  rename_i req reqs hq
  have hq : ch.acceptQueue = req :: reqs := hq
  split at hs
  · cases hs; exact .inr (.inl ⟨ch, hk, rfl, .inr (.inr ⟨hl, by simp [hq], rfl⟩)⟩)
  rename_i n2 c ha
  have hl2 : n2.cmDevList = n.cmDevList := by rw [(riocmChAlloc_ok ha).2.2.2]; rfl
  dsimp only at hs
  split at hs
  · cases hs
  rename_i cm hcm
  obtain ⟨p, hp1, hp2⟩ := Option.bind_eq_some.1 hcm
  have hcmp : cm.ptr = p := by simpa using List.find?_some hp2
  have hp : ch.cmdev = some cm.ptr := hcmp ▸ hp1
  refine .inr (.inr ⟨ch, req, reqs, n2, c, cm, hk, hl, hq, ha,
    hl2 ▸ List.mem_of_find?_eq_some hp2, hp, ?_⟩)
  split at hs
  · cases hs; exact .inl ⟨‹_›, rfl, rfl⟩
  · rename_i d hd
    obtain ⟨r, hr, hr'⟩ := Option.map_eq_some'.1 hs
    cases hr'
    simp only [acceptChan, riocmPostSendPkt, RioChannel.get_cmdev, hp, Option.some.injEq] at hr
    subst hr
    exact .inr ⟨d, hd, rfl, rfl⟩

theorem regStep_cmChanAccept (h : RegInv n) {filp chId timeout : Nat} {w : RxWaitEnd}
    {alloc : Bool} {stack : RioChChanHdr} {out : SendOutcome}
    (hs : cmChanAccept n filp chId timeout w alloc stack out = some (n', o)) :
    RegStep n n' o.closed := by
  have hg := keeps_modifyChan n chId chanFrame_get
  rcases cmChanAccept_cases hs with ⟨-, rfl, rfl⟩ | ⟨_, -, rfl, ho⟩ |
    ⟨_, _, reqs, n2, c, _, -, -, -, ha, -, -, hr⟩
  · exact (Keeps.refl _).regStep h
  · rcases ho with ⟨-, rfl⟩ | ⟨-, -, rfl⟩ | ⟨-, -, rfl⟩ <;>
      exact (hg.trans (keeps_putChannel _ _)).regStep h
  · obtain ⟨hs2, hv, hst⟩ := regStep_alloc (hg.regStep h).inv ha (Nat.zero_le _)
    have hq := (keeps_modifyChan n2 chId (f := fun l => { l with acceptQueue := reqs })
      (chanFrame_of_state fun _ => ⟨rfl, rfl, rfl⟩)).trans (keeps_putChannel _ chId)
    rcases hr with ⟨-, rfl, rfl⟩ | ⟨d, -, rfl, rfl⟩
    · exact (hs2.keeps_right (hq.setChan (by exact hv) (by simp [hst]))).keeps_left hg
    · exact (hs2.keeps_right ((hq.setChan (by exact hv) (by simp)).trans
        (keeps_park _ _))).keeps_left hg

theorem regStep_riocmChSend (h : RegInv n) {chId : Nat} {buf : Option RioChChanHdr} {len : Nat}
    {out : SendOutcome} (hs : riocmChSend n chId buf len out = some (n', o)) :
    RegStep n n' o.closed := by
  unfold riocmChSend at hs
  split at hs
  · cases hs; exact (Keeps.refl n).regStep h
  split at hs
  · cases hs; exact (Keeps.refl n).regStep h
  split at hs
  · cases hs; exact (Keeps.refl n).regStep h
  rename_i hg
  split at hs
  · cases hs; exact (keeps_get_put hg).regStep h
  · obtain ⟨r, -, hr⟩ := Option.map_eq_some'.1 hs
    cases hr; exact ((keeps_get_put hg).trans (keeps_park _ _)).regStep h

theorem regStep_cmChanMsgSend (h : RegInv n) {chNum len : Nat} {alloc : Bool} {buf : Nat → Nat}
    {out : SendOutcome} (hs : cmChanMsgSend n chNum len alloc buf out = some (n', o)) :
    RegStep n n' o.closed := by
  unfold cmChanMsgSend at hs
  split_ifs at hs
  · cases hs; exact (Keeps.refl n).regStep h
  · exact regStep_riocmChSend h hs

theorem keeps_cmChanMsgRcv (n : Node) (chNum : Nat) (w : RxWaitEnd) :
    Keeps n (cmChanMsgRcv n chNum w).1 := by
  unfold cmChanMsgRcv
  split; · exact .refl n
  split; · exact .refl n
  rename_i hg
  exact keeps_get_modify_put hg (chanFrame_of_state fun _ => ⟨rfl, rfl, rfl⟩)

theorem keeps_riocmAddDev (n : Node) (rdev : RioDev) (alloc : Bool) :
    Keeps n (riocmAddDev n rdev alloc).1 := by
  unfold riocmAddDev
  split; · exact .refl n
  split; · exact .refl n
  split
  · exact .refl n
  · exact keeps_devs n _

theorem keeps_riocmAddMport (n : Node) (mport : RioMport) (alloc mbox : Bool) :
    Keeps n (riocmAddMport n mport alloc mbox).1 := by
  unfold riocmAddMport
  split; · exact .refl n
  split
  · exact .refl n
  · exact ⟨rfl, Nat.le_succ _, id⟩

theorem regStep_riocmCdevRelease (h : RegInv n) {filp : Nat} {out : Nat → SendOutcome}
    (hs : riocmCdevRelease n filp out = some (n', o)) : RegStep n n' o.closed :=
  regStep_releaseChans h (fun _ => rfl) hs

theorem regStep_riocmRemoveDev (h : RegInv n) {rdev : RioDev} {out : Nat → SendOutcome}
    (hs : riocmRemoveDev n rdev out = some (n', o)) : RegStep n n' o.closed := by
  unfold riocmRemoveDev at hs
  split at hs
  · cases hs; exact (Keeps.refl n).regStep h
  split at hs
  · cases hs; exact (Keeps.refl n).regStep h
  split at hs
  · cases hs; exact (Keeps.refl n).regStep h
  dsimp only at hs
  exact (regStep_releaseChans ((keeps_devs n _).regStep h).inv
    (fun ch => by split <;> rfl) hs).keeps_left (keeps_devs n _)

theorem regStep_riocmRemoveMport (h : RegInv n) {mport : RioMport} {out : Nat → SendOutcome}
    (hs : riocmRemoveMport n mport out = some (n', o)) : RegStep n n' o.closed := by
  unfold riocmRemoveMport at hs
  split at hs
  · cases hs; exact (Keeps.refl n).regStep h
  dsimp only at hs
  exact (regStep_releaseChans ((keeps_devs n _).regStep h).inv (fun _ => rfl) hs).keeps_left
    (keeps_devs n _)

theorem keeps_riocmReqHandler (n : Node) (cm : CmDev) (hdr : RioChChanHdr) (alloc : Bool) :
    Keeps n (riocmReqHandler n cm hdr alloc).1 := by
  unfold riocmReqHandler
  split; · exact .refl n
  rename_i hg
  split; · exact keeps_get_put hg
  split; · exact keeps_get_put hg
  exact keeps_get_modify_put hg (chanFrame_of_state fun _ => ⟨rfl, rfl, rfl⟩)

theorem keeps_riocmRespHandler (n : Node) (hdr : RioChChanHdr) :
    Keeps n (riocmRespHandler n hdr).1 := by
  unfold riocmRespHandler
  split; · exact .refl n
  split; · exact .refl n
  rename_i hg
  split
  · exact keeps_get_put hg
  · exact keeps_get_modify_put hg (chanFrame_to .connected (by decide) fun _ => ⟨rfl, rfl, rfl⟩)

theorem regStep_riocmCloseHandler (h : RegInv n) {hdr : RioChChanHdr} {out : SendOutcome}
    (hs : riocmCloseHandler n hdr out = some (n', o)) : RegStep n n' o.closed := by
  unfold riocmCloseHandler at hs
  split at hs
  · cases hs; exact (Keeps.refl n).regStep h
  split at hs
  · cases hs; exact (Keeps.refl n).regStep h
  rename_i ch hch
  obtain ⟨r, -, hr⟩ := Option.map_eq_some'.1 hs
  cases hr
  exact (regStep_removeChans h [ch] (by simpa [h.chan_id hch] using hch) (by simp)
    (by simp)).keeps_right (keeps_park _ _)

theorem keeps_rioRxDataHandler (n : Node) (hdr : RioChChanHdr) :
    Keeps n (rioRxDataHandler n hdr).1 := by
  unfold rioRxDataHandler
  split
  · exact keeps_bumpPtr n
  · rename_i hg
    refine (keeps_getChannel hg).trans ((keeps_bumpPtr _).trans ((keeps_modifyChan _ _ ?_).trans
      (keeps_putChannel _ _)))
    exact chanFrame_of_state fun _ => ⟨rfl, rfl, rfl⟩

theorem regStep_rioCmHandler (h : RegInv n) {cm : CmDev} {hdr : RioChChanHdr} {alloc : Bool}
    {out : SendOutcome} (hs : rioCmHandler n cm hdr alloc out = some (n', o)) :
    RegStep n n' o.closed := by
  unfold rioCmHandler at hs
  split at hs
  · cases hs; exact (Keeps.refl n).regStep h
  split at hs
  · cases hs; exact (keeps_riocmReqHandler n cm hdr alloc).regStep h
  split at hs
  · cases hs; exact (keeps_riocmRespHandler n hdr).regStep h
  split at hs
  · obtain ⟨⟨n1, o1⟩, hr, hr'⟩ := Option.map_eq_some'.1 hs
    cases hr'; exact (regStep_riocmCloseHandler h hr :)
  · cases hs; exact (Keeps.refl n).regStep h

theorem regStep_rioIbmsgHandler (h : RegInv n) {cm : CmDev} {hdr : RioChChanHdr}
    {allocWork allocReq : Bool} {out : SendOutcome}
    (hs : rioIbmsgHandler n cm hdr allocWork allocReq out = some (n', o)) :
    RegStep n n' o.closed := by
  unfold rioIbmsgHandler at hs
  split at hs
  · cases hs; exact (Keeps.refl n).regStep h
  split at hs
  · cases hs; exact (Keeps.refl n).regStep h
  split at hs
  · cases hs; exact (keeps_rioRxDataHandler n hdr).regStep h
  split at hs
  · cases hs; exact (Keeps.refl n).regStep h
  · exact regStep_rioCmHandler h hs

/-- Every operation is a registry step. -/
theorem regStep_step (h : RegInv n) {op : NodeOp} (hs : n.step op = some (n', o)) :
    RegStep n n' o.closed := by
  cases op with
  | chanCreate filp chNum alloc =>
    cases hs; exact regStep_cmChanCreate h filp (by unfold riocmMaxChnum; omega) alloc
  | chanClose => exact regStep_cmChanClose h hs
  | chanBind => cases hs; exact (keeps_riocmChBind n _ _).regStep h
  | chanListen =>
    obtain ⟨⟨n1, r⟩, hr, hr'⟩ := Option.map_eq_some'.1 hs
    cases hr'; exact (keeps_riocmChListen hr).regStep h
  | chanAccept => exact regStep_cmChanAccept h hs
  | chanConnect chId mportId remDestid remCh stack out =>
    have hc := regStep_riocmChConnect h (chId % 0x10000) (mportId % 0x100)
      (remDestid % 0x100000000) (remCh % 0x10000) stack out
    rwa [Option.some.inj hs] at hc
  | chanSend => exact regStep_cmChanMsgSend h hs
  | chanReceive => cases hs; exact (keeps_cmChanMsgRcv n _ _).regStep h
  | release => exact regStep_riocmCdevRelease h hs
  | addDev rdev alloc => cases hs; exact (keeps_riocmAddDev n rdev alloc).regStep h
  | removeDev => exact regStep_riocmRemoveDev h hs
  | addMport mport alloc mbox => cases hs; exact (keeps_riocmAddMport n mport alloc mbox).regStep h
  | removeMport => exact regStep_riocmRemoveMport h hs
  | inbound cmPtr =>
    simp only [Node.step] at hs
    split at hs
    · cases hs; exact (Keeps.refl n).regStep h
    · exact regStep_rioIbmsgHandler h hs
  | epGetListSize => cases hs; simpa using (Keeps.refl n).regStep h
  | epGetList | mportGetList =>
    obtain ⟨h1, ho⟩ := listIoctlOut_eq_some hs
    rw [h1, ho]; exact (Keeps.refl n).regStep h
  | txDone =>
    obtain ⟨l, rfl, ho⟩ := riocmOutbMsgEvent_eq_some hs
    exact ho ▸ (⟨rfl, le_rfl, id⟩ : Keeps n { n with txReqs := l }).regStep h

end Ops

/-! ## Runs -/

/-- An address below `nextPtr` that no registered channel has: a channel gone for good,
since new channels get addresses from `nextPtr` on. -/
def Node.Dead (n : Node) (p : Nat) : Prop :=
  p < n.nextPtr ∧ ∀ {k x}, n.view k = some x → x.1 ≠ p

theorem RegStep.dead {n n' : Node} {c : List Nat} (hs : RegStep n n' c) {p : Nat}
    (hp : n.Dead p) : n'.Dead p := by
  refine ⟨lt_of_lt_of_le hp.1 hs.next_le, fun hk => ?_⟩
  rcases hs.old_or_fresh hk with hle | ⟨j, y, hj, hy⟩
  · have := hp.1; omega
  · exact hy ▸ hp.2 hj

theorem RegStep.dead_closed {n n' : Node} {c : List Nat} (h : RegInv n) (hs : RegStep n n' c)
    {p : Nat} (hp : p ∈ c) : n'.Dead p := by
  obtain ⟨k, x, hk, rfl⟩ := hs.was_registered p hp
  exact ⟨lt_of_lt_of_le (h.ptr_lt hk) hs.next_le, hs.gone _ hp⟩

/-- Over a run, the invariant is kept, and no channel is closed twice: the addresses
closed are distinct from each other and from those of channels gone before (`D`). -/
theorem nodeRun_regInv : ∀ (ops : List NodeOp) {n n' : Node} {log D : List Nat}, RegInv n →
    D.Nodup → (∀ p ∈ D, n.Dead p) → nodeRun n ops = some (n', log) →
    RegInv n' ∧ (D ++ log).Nodup
  | [], _, _, _, _, h, hD, _, hr => by
    cases hr; simpa using ⟨h, hD⟩
  | op :: ops, n, _, _, D, h, hD, hdead, hr => by
    rw [nodeRun] at hr
    obtain ⟨⟨n1, o⟩, hs, hr⟩ := Option.bind_eq_some.1 hr
    obtain ⟨⟨n2, log'⟩, hr', hr⟩ := Option.bind_eq_some.1 hr
    cases hr
    have st := regStep_step h hs
    have hdisj : ∀ p ∈ D, p ∉ o.closed := fun p hpD hpc => by
      obtain ⟨k, x, hk, hx⟩ := st.was_registered p hpc
      exact (hdead p hpD).2 hk hx
    have := nodeRun_regInv ops st.inv (List.nodup_append.2 ⟨hD, st.nodup, hdisj⟩)
      (fun p hp => (List.mem_append.1 hp).elim (fun hpD => st.dead (hdead p hpD))
        (st.dead_closed h)) hr'
    rwa [← List.append_assoc]

/-- The registry and teardown discipline. In every state a run of operations reaches,
every number of `ch_idr` maps to a channel with that `id`, and no registered channel is in
DESTROYING; from there, every operation passes to `riocm_ch_close` only channels that
were registered before it and are not after it; and over the run, no channel is passed
to `riocm_ch_close` twice. -/
theorem nodeRun_teardown_discipline (cmbox chstart : Nat) (ops : List NodeOp) {n : Node}
    {log : List Nat} (h : nodeRun (Node.init cmbox chstart) ops = some (n, log)) :
    (∀ k ch, n.chIdr k = some ch → ch.id = k ∧ ch.state ≠ .destroying) ∧
    (∀ op n' o, n.step op = some (n', o) → ∀ p ∈ o.closed,
      (∃ k ch, n.chIdr k = some ch ∧ ch.ptr = p) ∧ ∀ k ch, n'.chIdr k = some ch → ch.ptr ≠ p) ∧
    log.Nodup := by
  obtain ⟨hinv, hnd⟩ := nodeRun_regInv ops (regInv_init cmbox chstart) List.nodup_nil
    (by simp) h
  refine ⟨fun k ch hk => ⟨hinv.chan_id hk, hinv.live hk⟩, fun op n' o hs p hp => ?_, hnd⟩
  have st := regStep_step hinv hs
  obtain ⟨k, x, hk, rfl⟩ := st.was_registered p hp
  obtain ⟨ch, hch, rfl⟩ := Option.map_eq_some'.1 hk
  exact ⟨⟨k, ch, hch, rfl⟩, fun j c hj => st.gone _ hp (Node.view_of_chIdr hj)⟩

/-- `connectedHost` and then a close of its CONNECTED channel 2: the log holds one
channel. -/
theorem nodeRun_teardown_discipline_connectedHost :
    ∃ n log, nodeRun (Node.init 1 256) (connectedHost ++ [NodeOp.chanClose 9 2 .sent false]) =
        some (n, log) ∧
      log.length = 1 ∧
      ((∀ k ch, n.chIdr k = some ch → ch.id = k ∧ ch.state ≠ .destroying) ∧
      (∀ op n' o, n.step op = some (n', o) → ∀ p ∈ o.closed,
        (∃ k ch, n.chIdr k = some ch ∧ ch.ptr = p) ∧ ∀ k ch, n'.chIdr k = some ch → ch.ptr ≠ p) ∧
      log.Nodup) :=
  ⟨_, _, rfl, rfl,
    nodeRun_teardown_discipline 1 256 (connectedHost ++ [NodeOp.chanClose 9 2 .sent false]) rfl⟩

end RioCm
