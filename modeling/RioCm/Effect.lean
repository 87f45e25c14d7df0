import RioCm.Registry

/-!
# Effect — what each operation does to a channel

Every operation of `Node.step` is classified once by what it does to the part of each
channel that says where it is in its lifecycle and whom it talks to (`ChanCore`), and to
`cm_dev_list` (`Effect`):

* `Effect.frame`: channels may leave the registry; those that stay keep their core, and
  the `cm_dev` each is bound to stays in the list, with the channel's `rdev` among its
  peers if it was one;
* `Effect.born`: one channel is registered under a free number, as `riocm_ch_alloc` or
  `riocm_ch_accept` makes it (`Born`);
* `Effect.move`: one channel takes an edge of its lifecycle (`Move`).

`Lifecycle` derives the device-link invariant and the lifecycle of a channel from
`effect_step` alone, with no operation unfolded again. The sweeps reach every
channel they match only when every registered number is at most `RIOCM_MAX_CHNUM`, which
the registry invariant says, so `effect_step` assumes it.
-/

namespace RioCm

/-! ## Cores -/

/-- The part of a channel that says where it is in its lifecycle and whom it talks to: its
address, its state, its `cm_dev` and peer device, and the number of the remote channel. -/
structure ChanCore where
  ptr : Nat
  state : RioCmState
  cmdev : Option Nat
  rdev : Option RioDev
  remChannel : Nat
  deriving DecidableEq

/-- The core of a channel. -/
def RioChannel.core (ch : RioChannel) : ChanCore :=
  ⟨ch.ptr, ch.state, ch.cmdev, ch.rdev, ch.remChannel⟩

/-- The cores of the registered channels, by number. -/
def Node.cores (n : Node) (k : Nat) : Option ChanCore :=
  (n.chIdr k).map RioChannel.core

@[simp] theorem RioChannel.get_core (ch : RioChannel) : ch.get.core = ch.core := rfl

@[simp] theorem RioChannel.put_core (ch : RioChannel) : ch.put.core = ch.core := rfl

theorem Node.cores_of_chIdr {n : Node} {k : Nat} {ch : RioChannel} (h : n.chIdr k = some ch) :
    n.cores k = some ch.core := by
  simp [Node.cores, h]

theorem Node.chIdr_of_cores {n : Node} {k : Nat} {c : ChanCore} (h : n.cores k = some c) :
    ∃ ch, n.chIdr k = some ch ∧ ch.core = c :=
  Option.map_eq_some'.1 h

theorem Node.modifyChan_modifyChan (n : Node) (k : Nat) (f g : RioChannel → RioChannel) :
    (n.modifyChan k f).modifyChan k g = n.modifyChan k (g ∘ f) := by
  simp [Node.modifyChan, Option.map_map]

theorem Node.cores_modifyChan (n : Node) (k : Nat) (f : RioChannel → RioChannel) :
    (n.modifyChan k f).cores =
      Function.update n.cores k ((n.chIdr k).map fun ch => (f ch).core) := by
  funext j
  by_cases hj : j = k
  · subst hj; simp [Node.cores, Option.map_map, Function.comp_def]
  · simp [Node.cores, hj]

/-- An update that keeps the core changes no core. -/
theorem Node.cores_modifyChan_of {f : RioChannel → RioChannel} (hf : ∀ ch, (f ch).core = ch.core)
    (n : Node) (k : Nat) : (n.modifyChan k f).cores = n.cores := by
  rw [Node.cores_modifyChan]
  simp [hf, Node.cores]

theorem Node.cores_setQueue (n : Node) (k : Nat) (q : List ConnReq) :
    (n.modifyChan k fun c => { c with acceptQueue := q }).cores = n.cores :=
  Node.cores_modifyChan_of (f := fun c => { c with acceptQueue := q }) (fun _ => rfl) n k

theorem Node.cores_setRxRing (n : Node) (k : Nat) (r : ChanRxRing) :
    (n.modifyChan k fun c => { c with rxRing := r }).cores = n.cores :=
  Node.cores_modifyChan_of (f := fun c => { c with rxRing := r }) (fun _ => rfl) n k

@[simp] theorem Node.cores_park (n : Node) (rs : List ParkedReq) : (n.park rs).cores = n.cores :=
  rfl

theorem Node.cores_setChan (n : Node) (k : Nat) (ch : RioChannel) :
    (n.setChan k ch).cores = Function.update n.cores k (some ch.core) := by
  funext j
  by_cases hj : j = k
  · subst hj; simp [Node.cores]
  · simp [Node.cores, hj]

/-! ## What an operation does -/

/-- A channel with core `c` keeps its links when `cm_dev_list` changes from `l` to `l'`:
the `cm_dev` it is bound to stays, by address, and so does its `rdev` among the peers of
that `cm_dev` if it was one. -/
def Kept (l l' : List CmDev) (c : ChanCore) : Prop :=
  ∀ cm ∈ l, c.cmdev = some cm.ptr →
    ∃ cm' ∈ l', cm'.ptr = cm.ptr ∧ ∀ d ∈ cm.peers, c.rdev = some d → d ∈ cm'.peers

theorem kept_refl (l : List CmDev) (c : ChanCore) : Kept l l c :=
  fun cm hcm _ => ⟨cm, hcm, rfl, fun _ hd _ => hd⟩

/-- After `List.replace a b`, every element of the list is still there, or it was `a` and
`b` is. -/
theorem mem_replace_of_mem {α : Type} [BEq α] [LawfulBEq α] {a b x : α} :
    ∀ {l : List α}, x ∈ l → x ∈ l.replace a b ∨ (x = a ∧ b ∈ l.replace a b)
  | y :: l, hx => by
    rw [List.replace_cons]
    split <;> rename_i hy
    · rcases List.mem_cons.1 hx with rfl | hx
      · exact .inr ⟨(beq_iff_eq.1 hy).symm, List.mem_cons_self _ _⟩
      · exact .inl (List.mem_cons_of_mem _ hx)
    · rcases List.mem_cons.1 hx with rfl | hx
      · exact .inl (List.mem_cons_self _ _)
      · exact (mem_replace_of_mem hx).imp (List.mem_cons_of_mem _) fun h =>
          ⟨h.1, List.mem_cons_of_mem _ h.2⟩

/-- Replacing a `cm_dev` by one at the same address that keeps the channel's peer keeps
the channel's links. -/
theorem kept_replace {l : List CmDev} {cm cm' : CmDev} {c : ChanCore} (hp : cm'.ptr = cm.ptr)
    (hd : ∀ d ∈ cm.peers, c.rdev = some d → d ∈ cm'.peers) : Kept l (l.replace cm cm') c := by
  intro x hx _
  rcases mem_replace_of_mem (a := cm) (b := cm') hx with hx' | ⟨rfl, hb⟩
  · exact ⟨x, hx', rfl, fun _ hd _ => hd⟩
  · exact ⟨cm', hb, hp, hd⟩

/-- A channel as it is registered, at the next address: by `riocm_ch_alloc`, IDLE and
unbound; by `riocm_ch_accept`, with the `cmdev` of a listening channel, and either
CONNECTED to a peer of that `cm_dev` or, when the requester is not one, IDLE with no
`rdev`. -/
inductive Born (n : Node) (c : ChanCore) : Prop where
  | alloc (hp : c.ptr = n.nextPtr) (hs : c.state = .idle) (hc : c.cmdev = none)
      (hr : c.rdev = none)
  | orphan {j : Nat} {l : ChanCore} (hp : c.ptr = n.nextPtr) (hj : n.cores j = some l)
      (hl : l.state = .listen) (hs : c.state = .idle) (hc : c.cmdev = l.cmdev)
      (hr : c.rdev = none)
  | accepted {j : Nat} {l : ChanCore} {cm : CmDev} {d : RioDev} (hp : c.ptr = n.nextPtr)
      (hj : n.cores j = some l) (hl : l.state = .listen) (hs : c.state = .connected)
      (hcm : cm ∈ n.cmDevList) (hc : c.cmdev = some cm.ptr) (hd : d ∈ cm.peers)
      (hr : c.rdev = some d)

/-- The edges of a channel's lifecycle as the operations take them, with `cm_dev_list`
`l`: `riocm_ch_bind`, `riocm_ch_listen`, `riocm_ch_connect` (which leaves the channel
IDLE, its links set, when the request is refused) and the CONN_ACK of
`riocm_resp_handler`. -/
inductive Move (l : List CmDev) : ChanCore → ChanCore → Prop where
  | bind {c : ChanCore} {cm : CmDev} (hcm : cm ∈ l) (hs : c.state = .idle) :
      Move l c { c with state := .chanBound, cmdev := some cm.ptr }
  | listen {c : ChanCore} (hs : c.state = .chanBound) : Move l c { c with state := .listen }
  | connect {c : ChanCore} {cm : CmDev} {d : RioDev} {s : RioCmState} (r : Nat) (hcm : cm ∈ l)
      (hd : d ∈ cm.peers) (hs : c.state = .idle) (hs' : s = .connect ∨ s = .idle) :
      Move l c { c with state := s, cmdev := some cm.ptr, rdev := some d, remChannel := r }
  | ack {c : ChanCore} (r : Nat) (hs : c.state = .connect) :
      Move l c { c with state := .connected, remChannel := r }

/-- What one operation does to the cores and to `cm_dev_list`. -/
inductive Effect (n n' : Node) : Prop where
  | frame (h : ∀ {k c}, n'.cores k = some c →
      n.cores k = some c ∧ Kept n.cmDevList n'.cmDevList c)
  | born {k : Nat} {c : ChanCore} (hk : n.cores k = none) (hb : Born n c)
      (hc : n'.cores = Function.update n.cores k (some c)) (hl : n'.cmDevList = n.cmDevList)
  | move {k : Nat} {c c' : ChanCore} (hk : n.cores k = some c) (hm : Move n.cmDevList c c')
      (hc : n'.cores = Function.update n.cores k (some c')) (hl : n'.cmDevList = n.cmDevList)

section Build

variable {n n' : Node}

theorem Effect.of_sub (h : ∀ {k c}, n'.cores k = some c → n.cores k = some c)
    (hl : n'.cmDevList = n.cmDevList) : Effect n n' :=
  .frame fun hk => ⟨h hk, by rw [hl]; exact kept_refl _ _⟩

theorem Effect.of_cores (hc : n'.cores = n.cores) (hl : n'.cmDevList = n.cmDevList) :
    Effect n n' :=
  .of_sub (fun hk => hc ▸ hk) hl

theorem Effect.refl (n : Node) : Effect n n := .of_cores rfl rfl

/-- The requests parked on `tx_reqs` are no part of what an operation does to the cores. -/
theorem Effect.setTxReqs {m : Node} (h : Effect n m) (l : List ParkedReq) :
    Effect n { m with txReqs := l } := by
  cases h with
  | frame h => exact .frame h
  | born hk hb hc hl => exact .born hk hb hc hl
  | move hk hm hc hl => exact .move hk hm hc hl

theorem effect_removeChans (n : Node) (ks : List Nat) : Effect n (n.removeChans ks) :=
  .of_sub (fun hk => by
    simp only [Node.cores, Node.removeChans_chIdr] at hk ⊢
    split_ifs at hk
    · simp at hk
    · exact hk) rfl

/-- Take a reference, update the channel without touching its core, put it back. -/
theorem effect_get_modify_put {k : Nat} {f : RioChannel → RioChannel}
    (hf : ∀ ch, (f ch).core = ch.core) :
    Effect n (((n.modifyChan k RioChannel.get).modifyChan k f).putChannel k) :=
  .of_cores (by rw [Node.putChannel, Node.cores_modifyChan_of RioChannel.put_core,
    Node.cores_modifyChan_of hf, Node.cores_modifyChan_of RioChannel.get_core]) rfl

theorem effect_get_put {k : Nat} : Effect n ((n.modifyChan k RioChannel.get).putChannel k) :=
  .of_cores (by rw [Node.putChannel, Node.cores_modifyChan_of RioChannel.put_core,
    Node.cores_modifyChan_of RioChannel.get_core]) rfl

/-- Take a reference, move the channel along an edge, put it back. -/
theorem effect_get_move {k : Nat} {ch : RioChannel} (hk : n.chIdr k = some ch)
    {f : RioChannel → RioChannel} {c' : ChanCore} (hm : Move n.cmDevList ch.core c')
    (he : (f ch.get).core = c') :
    Effect n (((n.modifyChan k RioChannel.get).modifyChan k f).putChannel k) :=
  .move (Node.cores_of_chIdr hk) hm
    (by simp [Node.putChannel, Node.modifyChan_modifyChan, Node.cores_modifyChan, hk, he]) rfl

end Build

/-! ## Each operation -/

section Ops

variable {n n' : Node} {o : OpOut}

/-- `riocm_ch_alloc` succeeding registers an IDLE, unbound channel under a free number,
at the next address. -/
theorem riocmChAlloc_effect {c : Nat} {a : Bool} {ch : RioChannel}
    (h : riocmChAlloc n c a = (n', .ok ch)) :
    n.cores ch.id = none ∧ ch.ptr = n.nextPtr ∧ ch.state = .idle ∧ ch.cmdev = none ∧
      ch.rdev = none ∧ n'.cores = Function.update n.cores ch.id (some ch.core) ∧
      n'.cmDevList = n.cmDevList := by
  unfold riocmChAlloc at h
  split at h
  · cases h
  · split at h
    · cases h
    · rename_i hid
      cases h
      exact ⟨by simp [Node.cores, idrAlloc_free hid], rfl, rfl, rfl, rfl,
        Node.cores_setChan _ _ _, rfl⟩

theorem effect_cmChanCreate (n : Node) (filp chNum : Nat) (alloc : Bool) :
    Effect n (cmChanCreate n filp chNum alloc).1 := by
  unfold cmChanCreate
  split
  · rename_i ch ha
    obtain ⟨hk, hp, hs, hc, hr, hcores, hl⟩ := riocmChAlloc_effect ha
    exact .born (c := ch.core) hk (.alloc hp hs hc hr)
      (by rw [Node.cores_setChan, hcores, Function.update_idem]; rfl) hl
  · rename_i ha
    rw [riocmChAlloc_error ha]
    exact .refl n

theorem effect_cmChanClose {filp chNum : Nat} {out : SendOutcome} {intr : Bool}
    (hs : cmChanClose n filp chNum out intr = some (n', o)) : Effect n n' := by
  unfold cmChanClose at hs
  split at hs
  · cases hs; exact .refl n
  split at hs
  · cases hs; exact .refl n
  obtain ⟨r, -, hr⟩ := Option.map_eq_some'.1 hs
  cases hr
  exact (effect_removeChans n _).setTxReqs _

theorem effect_riocmChBind (n : Node) (chId mportId : Nat) :
    Effect n (riocmChBind n chId mportId).1 := by
  unfold riocmChBind
  split
  · exact .refl n
  rename_i cm hcm
  split
  · exact .refl n
  rename_i hg
  obtain ⟨ch, hk, rfl, rfl⟩ := Node.getChannel_eq_some.1 hg
  split
  · exact effect_get_put
  · exact effect_get_move hk (.bind (List.mem_of_find?_eq_some hcm) (not_not.1 ‹_›)) rfl

theorem effect_riocmChListen {chId : Nat} {r : Int} (hs : riocmChListen n chId = some (n', r)) :
    Effect n n' := by
  unfold riocmChListen at hs
  split at hs
  · cases hs
  rename_i hg
  obtain ⟨ch, hk, rfl, rfl⟩ := Node.getChannel_eq_some.1 hg
  split at hs <;> cases hs
  · exact effect_get_move hk (.listen ‹_›) rfl
  · exact effect_get_put

theorem effect_riocmChConnect (n : Node) (locCh mportId remDestid remCh : Nat)
    (stack : RioChChanHdr) (out : SendOutcome) :
    Effect n (riocmChConnect n locCh mportId remDestid remCh stack out).1 := by
  unfold riocmChConnect
  split
  · exact .refl n
  rename_i cm hcm
  split
  · exact .refl n
  rename_i d hd
  split
  · exact .refl n
  rename_i hg
  obtain ⟨ch, hk, rfl, rfl⟩ := Node.getChannel_eq_some.1 hg
  split
  · exact effect_get_put
  rename_i hidle
  have hcm := List.mem_of_find?_eq_some hcm
  have hd := List.mem_of_find?_eq_some hd
  dsimp only
  split
  · rw [Node.modifyChan_modifyChan]
    exact (effect_get_move hk (.connect remCh hcm hd (not_not.1 hidle) (.inr rfl))
      (by simp [RioChannel.compExch, RioChannel.core])).setTxReqs _
  · exact (effect_get_move hk (.connect remCh hcm hd (not_not.1 hidle) (.inl rfl)) rfl).setTxReqs _

/-- The registration at the end of `riocm_ch_accept`, over the state `riocm_ch_alloc` left:
the listener's queue is updated and its reference put back, and the new channel is
registered under its number. -/
theorem cores_accept {m : Node} {k j : Nat} {ch : RioChannel}
    (hm : m.cores = Function.update n.cores k (some ch.core)) (q : List ConnReq) (x : RioChannel) :
    (((m.modifyChan j fun c => { c with acceptQueue := q }).putChannel j).setChan k x).cores =
      Function.update n.cores k (some x.core) := by
  rw [Node.cores_setChan, Node.putChannel, Node.cores_modifyChan_of RioChannel.put_core,
    Node.cores_setQueue, hm, Function.update_idem]

theorem effect_cmChanAccept {filp chId timeout : Nat} {w : RxWaitEnd} {alloc : Bool}
    {stack : RioChChanHdr} {out : SendOutcome}
    (hs : cmChanAccept n filp chId timeout w alloc stack out = some (n', o)) : Effect n n' := by
  rcases cmChanAccept_cases hs with ⟨-, rfl, -⟩ | ⟨_, -, rfl, -⟩ |
    ⟨_, _, reqs, _, _, _, hk, hl, -, ha, hcm, hp, hr⟩
  · exact .refl _
  · exact effect_get_put
  obtain ⟨hfree, hp0, hs0, -, hr0, hcores, hl2⟩ := riocmChAlloc_effect ha
  rw [Node.cores_modifyChan_of RioChannel.get_core] at hfree hcores
  have hj := Node.cores_of_chIdr hk
  rcases hr with ⟨-, rfl, -⟩ | ⟨d, hd, rfl, -⟩
  · refine .born hfree ?_ (cores_accept hcores reqs _) hl2
    exact .orphan hp0 hj hl hs0 rfl hr0
  · refine Effect.setTxReqs (.born hfree ?_ (cores_accept hcores reqs _) hl2) _
    exact .accepted hp0 hj hl rfl hcm hp (List.mem_of_find?_eq_some hd) rfl

theorem effect_riocmChSend {chId : Nat} {buf : Option RioChChanHdr} {len : Nat}
    {out : SendOutcome} (hs : riocmChSend n chId buf len out = some (n', o)) : Effect n n' := by
  unfold riocmChSend at hs
  split at hs
  · cases hs; exact .refl n
  split at hs
  · cases hs; exact .refl n
  split at hs
  · cases hs; exact .refl n
  rename_i hg
  obtain ⟨ch, -, rfl, rfl⟩ := Node.getChannel_eq_some.1 hg
  split at hs
  · cases hs; exact effect_get_put
  · obtain ⟨r, -, hr⟩ := Option.map_eq_some'.1 hs
    cases hr; exact effect_get_put.setTxReqs _

theorem effect_cmChanMsgSend {chNum len : Nat} {alloc : Bool} {buf : Nat → Nat}
    {out : SendOutcome} (hs : cmChanMsgSend n chNum len alloc buf out = some (n', o)) :
    Effect n n' := by
  unfold cmChanMsgSend at hs
  split_ifs at hs
  · cases hs; exact .refl n
  · exact effect_riocmChSend hs

theorem effect_cmChanMsgRcv (n : Node) (chNum : Nat) (w : RxWaitEnd) :
    Effect n (cmChanMsgRcv n chNum w).1 := by
  unfold cmChanMsgRcv
  split
  · exact .refl n
  split
  · exact .refl n
  rename_i hg
  obtain ⟨ch, -, rfl, rfl⟩ := Node.getChannel_eq_some.1 hg
  exact effect_get_modify_put fun _ => rfl

/-! ### Sweeps -/

theorem releaseChans_eq {chs : List RioChannel} {f : RioChannel → RioChannel}
    {out : Nat → SendOutcome} (hs : n.releaseChans chs f out = some (n', o)) :
    ∃ rs, n' = (n.removeChans (chs.map (·.id))).park rs := by
  unfold Node.releaseChans at hs
  obtain ⟨tx, -, hr⟩ := Option.map_eq_some'.1 hs
  exact ⟨_, (Prod.mk.inj hr).1.symm⟩

theorem releaseChans_cmDevList {chs : List RioChannel} {f : RioChannel → RioChannel}
    {out : Nat → SendOutcome} (hs : n.releaseChans chs f out = some (n', o)) :
    n'.cmDevList = n.cmDevList := by
  obtain ⟨rs, rfl⟩ := releaseChans_eq hs
  rfl

/-- A sweep reaches every registered channel it matches. -/
theorem RegInv.id_mem_sweep (h : RegInv n) {p : RioChannel → Bool} {k : Nat} {ch : RioChannel}
    (hk : n.chIdr k = some ch) (hp : p ch = true) : ch.id ∈ (n.sweep p).map (·.id) := by
  rw [Node.sweep]
  refine List.mem_map_of_mem _ (List.mem_filterMap.2 ⟨k, List.mem_range.2 ?_,
    Option.filter_eq_some.2 ⟨hk, hp⟩⟩)
  exact Nat.lt_succ_of_le (h.key_le (Node.view_of_chIdr hk))

/-- A channel still registered after the end of a sweep was registered before, and the
sweep did not match it. -/
theorem releaseChans_survivor (h : RegInv n) {p : RioChannel → Bool}
    {f : RioChannel → RioChannel} {out : Nat → SendOutcome}
    (hs : n.releaseChans (n.sweep p) f out = some (n', o)) {k : Nat} {c : ChanCore}
    (hk : n'.cores k = some c) : ∃ ch, n.chIdr k = some ch ∧ ch.core = c ∧ p ch = false := by
  obtain ⟨rs, rfl⟩ := releaseChans_eq hs
  simp only [Node.cores, Node.park_chIdr, Node.removeChans_chIdr] at hk
  split_ifs at hk with hm
  · simp at hk
  obtain ⟨ch, hch, rfl⟩ := Option.map_eq_some'.1 hk
  refine ⟨ch, hch, rfl, Bool.eq_false_iff.2 fun hp => hm ?_⟩
  exact h.chan_id hch ▸ h.id_mem_sweep hch hp

theorem effect_riocmCdevRelease {filp : Nat} {out : Nat → SendOutcome}
    (hs : riocmCdevRelease n filp out = some (n', o)) : Effect n n' := by
  obtain ⟨rs, rfl⟩ := releaseChans_eq hs
  exact (effect_removeChans n _).setTxReqs _

theorem effect_riocmRemoveDev (h : RegInv n) {rdev : RioDev} {out : Nat → SendOutcome}
    (hs : riocmRemoveDev n rdev out = some (n', o)) : Effect n n' := by
  unfold riocmRemoveDev at hs
  split at hs
  · cases hs; exact .refl n
  split at hs
  · cases hs; exact .refl n
  split at hs
  · cases hs; exact .refl n
  rename_i p hp
  dsimp only at hs
  have hl := releaseChans_cmDevList hs
  refine .frame fun hk => ?_
  obtain ⟨ch, hch, rfl, hnot⟩ := releaseChans_survivor ((keeps_devs n _).regStep h).inv hs hk
  refine ⟨Node.cores_of_chIdr hch, hl ▸ kept_replace rfl fun d hd hr => ?_⟩
  refine (List.mem_erase_of_ne fun hdp => ?_).2 hd
  have hpp : p.ptr = rdev.ptr := by simpa using List.find?_some hp
  simp at hnot
  exact hnot d hr (hdp ▸ hpp)

theorem effect_riocmRemoveMport (h : RegInv n) {mport : RioMport} {out : Nat → SendOutcome}
    (hs : riocmRemoveMport n mport out = some (n', o)) : Effect n n' := by
  unfold riocmRemoveMport at hs
  split at hs
  · cases hs; exact .refl n
  rename_i cm hcm
  dsimp only at hs
  have hl := releaseChans_cmDevList hs
  refine .frame fun hk => ?_
  obtain ⟨ch, hch, rfl, hnot⟩ := releaseChans_survivor ((keeps_devs n _).regStep h).inv hs hk
  refine ⟨Node.cores_of_chIdr hch, fun x hx hc => ⟨x, hl ▸ (List.mem_erase_of_ne ?_).2 hx,
    rfl, fun _ hd _ => hd⟩⟩
  rintro rfl
  simp [RioChannel.core] at hc
  simp [hc] at hnot

theorem effect_riocmAddDev (n : Node) (rdev : RioDev) (alloc : Bool) :
    Effect n (riocmAddDev n rdev alloc).1 := by
  unfold riocmAddDev
  split
  · exact .refl n
  split
  · exact .refl n
  split
  · exact .refl n
  · exact .frame fun hk => ⟨hk, kept_replace rfl fun _ hd _ => List.mem_append_left _ hd⟩

theorem effect_riocmAddMport (n : Node) (mport : RioMport) (alloc mbox : Bool) :
    Effect n (riocmAddMport n mport alloc mbox).1 := by
  unfold riocmAddMport
  split
  · exact .refl n
  split
  · exact .refl n
  · exact .frame fun hk =>
      ⟨hk, fun cm hcm _ => ⟨cm, List.mem_append_left _ hcm, rfl, fun _ hd _ => hd⟩⟩

/-! ### Inbound messages -/

theorem effect_riocmReqHandler (n : Node) (cm : CmDev) (hdr : RioChChanHdr) (alloc : Bool) :
    Effect n (riocmReqHandler n cm hdr alloc).1 := by
  unfold riocmReqHandler
  split
  · exact .refl n
  rename_i hg
  obtain ⟨ch, -, rfl, rfl⟩ := Node.getChannel_eq_some.1 hg
  split
  · exact effect_get_put
  split
  · exact effect_get_put
  · exact effect_get_modify_put fun _ => rfl

theorem effect_riocmRespHandler (n : Node) (hdr : RioChChanHdr) :
    Effect n (riocmRespHandler n hdr).1 := by
  unfold riocmRespHandler
  split
  · exact .refl n
  split
  · exact .refl n
  rename_i hg
  obtain ⟨ch, hk, rfl, rfl⟩ := Node.getChannel_eq_some.1 hg
  split
  · exact effect_get_put
  · exact effect_get_move hk (.ack hdr.srcCh (not_not.1 ‹_›)) rfl

theorem effect_riocmCloseHandler {hdr : RioChChanHdr} {out : SendOutcome}
    (hs : riocmCloseHandler n hdr out = some (n', o)) : Effect n n' := by
  unfold riocmCloseHandler at hs
  split at hs
  · cases hs; exact .refl n
  split at hs
  · cases hs; exact .refl n
  obtain ⟨r, -, hr⟩ := Option.map_eq_some'.1 hs
  cases hr
  exact (effect_removeChans n _).setTxReqs _

theorem effect_rioRxDataHandler (n : Node) (hdr : RioChChanHdr) :
    Effect n (rioRxDataHandler n hdr).1 := by
  unfold rioRxDataHandler
  split
  · exact .of_cores rfl rfl
  rename_i hg
  obtain ⟨ch, -, rfl, rfl⟩ := Node.getChannel_eq_some.1 hg
  dsimp only
  refine .of_cores ?_ rfl
  rw [Node.putChannel, Node.cores_modifyChan_of RioChannel.put_core, Node.cores_setRxRing]
  exact Node.cores_modifyChan_of RioChannel.get_core n _

theorem effect_rioCmHandler {cm : CmDev} {hdr : RioChChanHdr} {alloc : Bool} {out : SendOutcome}
    (hs : rioCmHandler n cm hdr alloc out = some (n', o)) : Effect n n' := by
  unfold rioCmHandler at hs
  split at hs
  · cases hs; exact .refl n
  split at hs
  · cases hs; exact effect_riocmReqHandler n cm hdr alloc
  split at hs
  · cases hs; exact effect_riocmRespHandler n hdr
  split at hs
  · obtain ⟨⟨n1, o1⟩, hr, hr'⟩ := Option.map_eq_some'.1 hs
    cases hr'; exact effect_riocmCloseHandler hr
  · cases hs; exact .refl n

theorem effect_rioIbmsgHandler {cm : CmDev} {hdr : RioChChanHdr} {allocWork allocReq : Bool}
    {out : SendOutcome} (hs : rioIbmsgHandler n cm hdr allocWork allocReq out = some (n', o)) :
    Effect n n' := by
  unfold rioIbmsgHandler at hs
  split at hs
  · cases hs; exact .refl n
  split at hs
  · cases hs; exact .refl n
  split at hs
  · cases hs; exact effect_rioRxDataHandler n hdr
  split at hs
  · cases hs; exact .refl n
  · exact effect_rioCmHandler hs

/-- What every operation does, from a state with the registry invariant (by which the
sweeps reach every channel they match). -/
theorem effect_step (h : RegInv n) {op : NodeOp} (hs : n.step op = some (n', o)) :
    Effect n n' := by
  cases op with
  | chanCreate => cases hs; exact effect_cmChanCreate n _ _ _
  | chanClose => exact effect_cmChanClose hs
  | chanBind => cases hs; exact effect_riocmChBind n _ _
  | chanListen =>
    obtain ⟨⟨n1, r⟩, hr, hr'⟩ := Option.map_eq_some'.1 hs
    cases hr'; exact effect_riocmChListen hr
  | chanAccept => exact effect_cmChanAccept hs
  | chanConnect chId mportId remDestid remCh stack out =>
    have he := effect_riocmChConnect n (chId % 0x10000) (mportId % 0x100)
      (remDestid % 0x100000000) (remCh % 0x10000) stack out
    rwa [Option.some.inj hs] at he
  | chanSend => exact effect_cmChanMsgSend hs
  | chanReceive => cases hs; exact effect_cmChanMsgRcv n _ _
  | release => exact effect_riocmCdevRelease hs
  | addDev => cases hs; exact effect_riocmAddDev n _ _
  | removeDev => exact effect_riocmRemoveDev h hs
  | addMport => cases hs; exact effect_riocmAddMport n _ _ _
  | removeMport => exact effect_riocmRemoveMport h hs
  | inbound =>
    simp only [Node.step] at hs
    split at hs
    · cases hs; exact .refl n
    · exact effect_rioIbmsgHandler hs
  | epGetListSize => cases hs; exact .refl n
  | epGetList | mportGetList => exact (listIoctlOut_eq_some hs).1 ▸ .refl n
  | txDone =>
    obtain ⟨l, rfl, -⟩ := riocmOutbMsgEvent_eq_some hs
    exact (Effect.refl n).setTxReqs l

end Ops

end RioCm
