import RioCm.Ioctl
import RioCm.Mailbox

/-!
# DevList — `cm_dev_list` over every run, and the size of the peer list

Only `riocm_add_dev`, `riocm_remove_dev`, `riocm_add_mport` and `riocm_remove_mport`
change `cm_dev_list`; every channel call and every inbound handler leaves it alone.
`PeersOk` is what the list keeps of each `cm_dev`: `npeers` counts its peers, and every
peer is a device able to carry channel messages found on the `cm_dev`'s mport.

`cm_ep_get_list_size` reports `npeers` for an mport. `epGetListSize_then_list` shows
that, in every state a run reaches, the count it reports is the number of peers, and that
`cm_ep_get_list` called with that count stays inside its buffer and returns every peer's
destination ID, in list order: the pair of calls does what the size call is for.
-/

namespace RioCm

/-! ## The channel calls leave `cm_dev_list` alone -/

section Frame

variable {n n' : Node} {o : OpOut}

theorem cmChanCreate_cmDevList (filp chNum : Nat) (alloc : Bool) :
    (cmChanCreate n filp chNum alloc).1.cmDevList = n.cmDevList := by
  unfold cmChanCreate
  split
  · rename_i ha
    obtain ⟨-, -, -, rfl⟩ := riocmChAlloc_ok ha
    rfl
  · rename_i ha
    rw [riocmChAlloc_error ha]

theorem cmChanClose_cmDevList {filp chNum : Nat} {out : SendOutcome} {intr : Bool}
    (hs : cmChanClose n filp chNum out intr = some (n', o)) : n'.cmDevList = n.cmDevList := by
  unfold cmChanClose at hs
  split at hs
  · cases hs; rfl
  split at hs
  · cases hs; rfl
  obtain ⟨r, -, hr⟩ := Option.map_eq_some'.1 hs
  cases hr; rfl

theorem riocmChBind_cmDevList (chId mportId : Nat) :
    (riocmChBind n chId mportId).1.cmDevList = n.cmDevList := by
  unfold riocmChBind
  split
  · rfl
  split
  · rfl
  rename_i hg
  obtain ⟨_, -, rfl, -⟩ := Node.getChannel_eq_some.1 hg
  split_ifs <;> rfl

theorem riocmChListen_cmDevList {chId : Nat} {r : Int}
    (hs : riocmChListen n chId = some (n', r)) : n'.cmDevList = n.cmDevList := by
  unfold riocmChListen at hs
  split at hs
  · cases hs
  rename_i hg
  obtain ⟨_, -, rfl, -⟩ := Node.getChannel_eq_some.1 hg
  split at hs <;> cases hs <;> rfl

theorem riocmChConnect_cmDevList (locCh mportId remDestid remCh : Nat) (stack : RioChChanHdr)
    (out : SendOutcome) :
    (riocmChConnect n locCh mportId remDestid remCh stack out).1.cmDevList = n.cmDevList := by
  unfold riocmChConnect
  split
  · rfl
  split
  · rfl
  split
  · rfl
  rename_i hg
  obtain ⟨_, -, rfl, -⟩ := Node.getChannel_eq_some.1 hg
  split
  · rfl
  dsimp only
  split <;> rfl

theorem cmChanAccept_cmDevList {filp chId timeout : Nat} {w : RxWaitEnd} {alloc : Bool}
    {stack : RioChChanHdr} {out : SendOutcome}
    (hs : cmChanAccept n filp chId timeout w alloc stack out = some (n', o)) :
    n'.cmDevList = n.cmDevList := by
  rcases cmChanAccept_cases hs with ⟨-, rfl, -⟩ | ⟨_, -, rfl, -⟩ |
    ⟨_, _, _, _, _, _, -, -, -, ha, -, -, hr⟩
  · rfl
  · rfl
  obtain ⟨-, -, -, rfl⟩ := riocmChAlloc_ok ha
  rcases hr with ⟨-, rfl, -⟩ | ⟨_, -, rfl, -⟩ <;> rfl

theorem riocmChSend_cmDevList {chId : Nat} {buf : Option RioChChanHdr} {len : Nat}
    {out : SendOutcome} (hs : riocmChSend n chId buf len out = some (n', o)) :
    n'.cmDevList = n.cmDevList := by
  unfold riocmChSend at hs
  split at hs
  · cases hs; rfl
  split at hs
  · cases hs; rfl
  split at hs
  · cases hs; rfl
  rename_i hg
  obtain ⟨_, -, rfl, -⟩ := Node.getChannel_eq_some.1 hg
  split at hs
  · cases hs; rfl
  · obtain ⟨r, -, hr⟩ := Option.map_eq_some'.1 hs
    cases hr; rfl

theorem cmChanMsgSend_cmDevList {chNum len : Nat} {alloc : Bool} {buf : Nat → Nat}
    {out : SendOutcome} (hs : cmChanMsgSend n chNum len alloc buf out = some (n', o)) :
    n'.cmDevList = n.cmDevList := by
  unfold cmChanMsgSend at hs
  split_ifs at hs
  · cases hs; rfl
  · exact riocmChSend_cmDevList hs

theorem cmChanMsgRcv_cmDevList (chNum : Nat) (w : RxWaitEnd) :
    (cmChanMsgRcv n chNum w).1.cmDevList = n.cmDevList := by
  unfold cmChanMsgRcv
  split
  · rfl
  split
  · rfl
  rename_i hg
  obtain ⟨_, -, rfl, -⟩ := Node.getChannel_eq_some.1 hg
  rfl

end Frame

/-! ## What the list keeps of each `cm_dev` -/

/-- `npeers` counts the peers, and every peer is a device able to carry channel messages
found on the `cm_dev`'s mport. -/
structure PeersOk (cm : CmDev) : Prop where
  count : cm.npeers = cm.peers.length
  peer : ∀ d ∈ cm.peers, d.hport = cm.mport.ptr ∧ d.cmCapable

/-- Every `cm_dev` of the list is `PeersOk`. -/
def PeersInv (n : Node) : Prop := ∀ cm ∈ n.cmDevList, PeersOk cm

theorem mem_replace_cases {α : Type} [BEq α] [LawfulBEq α] {a b x : α} :
    ∀ {l : List α}, x ∈ l.replace a b → x ∈ l ∨ x = b
  | [], h => by simp at h
  | y :: l, h => by
    rw [List.replace_cons] at h
    split at h
    · rcases List.mem_cons.1 h with rfl | h
      · exact .inr rfl
      · exact .inl (List.mem_cons_of_mem _ h)
    · rcases List.mem_cons.1 h with rfl | h
      · exact .inl (List.mem_cons_self _ _)
      · exact (mem_replace_cases h).imp (List.mem_cons_of_mem _) id

section Step

variable {n n' : Node} {o : OpOut}

theorem PeersInv.of_eq (h : PeersInv n) (hl : n'.cmDevList = n.cmDevList) : PeersInv n' :=
  fun cm hcm => h cm (hl ▸ hcm)

/-- Replacing a `cm_dev` of the list by one that is `PeersOk`. -/
theorem PeersInv.replace (h : PeersInv n) (cm : CmDev) {cm' : CmDev} (hok : PeersOk cm') :
    PeersInv { n with cmDevList := n.cmDevList.replace cm cm' } := fun x hx =>
  (mem_replace_cases hx).elim (h x) fun hx => hx ▸ hok

theorem peersInv_riocmAddDev (h : PeersInv n) (rdev : RioDev) (alloc : Bool) :
    PeersInv (riocmAddDev n rdev alloc).1 := by
  unfold riocmAddDev
  split_ifs with hcap
  · exact h
  · exact h
  split
  · exact h
  rename_i cm hcm
  have hok := h cm (List.mem_of_find?_eq_some hcm)
  have hp : cm.mport.ptr = rdev.hport := by simpa using List.find?_some hcm
  refine h.replace _ ⟨by simp [hok.count], fun d hd => ?_⟩
  rcases List.mem_append.1 hd with hd | hd
  · exact hok.peer d hd
  · rw [List.mem_singleton.1 hd]
    exact ⟨hp.symm, by simpa using hcap⟩

theorem peersInv_riocmRemoveDev (h : PeersInv n) {rdev : RioDev} {out : Nat → SendOutcome}
    (hs : riocmRemoveDev n rdev out = some (n', o)) : PeersInv n' := by
  unfold riocmRemoveDev at hs
  split at hs
  · cases hs; exact h
  split at hs
  · cases hs; exact h
  split at hs
  · cases hs; exact h
  rename_i cm hcm _ p hp
  refine (h.replace cm ⟨?_, fun d hd => ?_⟩).of_eq (releaseChans_cmDevList hs)
  · have hok := h cm (List.mem_of_find?_eq_some hcm)
    have hlen := List.length_erase_of_mem (List.mem_of_find?_eq_some hp)
    have hpos := List.length_pos_of_mem (List.mem_of_find?_eq_some hp)
    simp only [hok.count, hlen]
    omega
  · exact (h cm (List.mem_of_find?_eq_some hcm)).peer d (List.mem_of_mem_erase hd)

theorem peersInv_riocmAddMport (h : PeersInv n) (mport : RioMport) (alloc mbox : Bool) :
    PeersInv (riocmAddMport n mport alloc mbox).1 := by
  unfold riocmAddMport
  split_ifs
  · exact h
  · exact h
  intro cm hcm
  rcases List.mem_append.1 hcm with hcm | hcm
  · exact h cm hcm
  · rw [List.mem_singleton.1 hcm]
    exact ⟨rfl, fun d hd => absurd hd (List.not_mem_nil d)⟩

theorem peersInv_riocmRemoveMport (h : PeersInv n) {mport : RioMport}
    {out : Nat → SendOutcome} (hs : riocmRemoveMport n mport out = some (n', o)) :
    PeersInv n' := by
  unfold riocmRemoveMport at hs
  split at hs
  · cases hs; exact h
  refine PeersInv.of_eq (n := { n with cmDevList := n.cmDevList.erase _ }) ?_
    (releaseChans_cmDevList hs)
  exact fun cm hcm => h cm (List.mem_of_mem_erase hcm)

/-- Every operation keeps every `cm_dev` of the list `PeersOk`. -/
theorem PeersInv.step (h : PeersInv n) {op : NodeOp} (hs : n.step op = some (n', o)) :
    PeersInv n' := by
  cases op with
  | chanCreate => cases hs; exact h.of_eq (cmChanCreate_cmDevList _ _ _)
  | chanClose => exact h.of_eq (cmChanClose_cmDevList hs)
  | chanBind => cases hs; exact h.of_eq (riocmChBind_cmDevList _ _)
  | chanListen =>
    obtain ⟨⟨n1, r⟩, hr, hr'⟩ := Option.map_eq_some'.1 hs
    cases hr'; exact h.of_eq (riocmChListen_cmDevList hr)
  | chanAccept => exact h.of_eq (cmChanAccept_cmDevList hs)
  | chanConnect chId mportId remDestid remCh stack out =>
    have hl := riocmChConnect_cmDevList (n := n) (chId % 0x10000) (mportId % 0x100)
      (remDestid % 0x100000000) (remCh % 0x10000) stack out
    rw [Option.some.inj hs] at hl
    exact h.of_eq hl
  | chanSend => exact h.of_eq (cmChanMsgSend_cmDevList hs)
  | chanReceive => cases hs; exact h.of_eq (cmChanMsgRcv_cmDevList _ _)
  | release => exact h.of_eq (releaseChans_cmDevList hs)
  | addDev => cases hs; exact peersInv_riocmAddDev h _ _
  | removeDev => exact peersInv_riocmRemoveDev h hs
  | addMport => cases hs; exact peersInv_riocmAddMport h _ _ _
  | removeMport => exact peersInv_riocmRemoveMport h hs
  | inbound =>
    simp only [Node.step] at hs
    split at hs
    · cases hs; exact h
    · exact h.of_eq (rioIbmsgHandler_cmDevList hs)
  | epGetListSize => cases hs; exact h
  | epGetList => rw [(listIoctlOut_eq_some hs).1]; exact h
  | mportGetList => rw [(listIoctlOut_eq_some hs).1]; exact h
  | txDone =>
    obtain ⟨l, rfl, -⟩ := riocmOutbMsgEvent_eq_some hs
    exact h

end Step

/-! ## `riocm_cdev_open` and the size of the peer list -/

/-- `riocm_cdev_open(inode, filp)`: the device opens only once some mport has been added. -/
def riocmCdevOpen (n : Node) : Int :=
  if n.cmDevList.isEmpty then -Errno.nodev else 0

/-- The loop of `riocm_get_peer_list` stores every peer's destination ID, in list order,
when `*nent` leaves room for all of them. -/
theorem peerListLoop_snd (nent : Nat) : ∀ (i : Nat) (ds : List RioDev), i + ds.length ≤ nent →
    (peerListLoop nent i ds).map Prod.snd = ds.map (·.destid % 0x100000000)
  | _, [], _ => rfl
  | i, d :: ds, h => by
    rw [peerListLoop]
    simp only [List.length_cons] at h
    split_ifs with hstop
    · have : ds = [] := List.length_eq_zero.1 (by omega)
      subst this
      rfl
    · simp only [List.map_cons, peerListLoop_snd nent (i + 1) ds (by omega)]

/-- The two calls on the peer list of an mport agree. In every state a run from module
load reaches, for an 8-bit mport id `v`: if `cm_ep_get_list_size` reports a count `c`, then
`c` is the number of peers of the first `cm_dev` of that mport, reduced to a `u32`; and
when that number and 2 fit a `u32`, `cm_ep_get_list` called with `info[0] = c` and
`info[1] = v` returns 0, stays inside its buffer, copies out exactly the `c + 2` entries
the user declared, and reports every peer's destination ID in list order. -/
theorem epGetListSize_then_list (cmbox chstart : Nat) (ops : List NodeOp) {n : Node}
    {log : List Nat} (hr : nodeRun (Node.init cmbox chstart) ops = some (n, log)) {v c : Nat}
    (hv : v < 0x100) (hs : cmEpGetListSize n v = .ok c) :
    ∃ cm, n.cmDevList.find? (·.mport.id = v) = some cm ∧
      c = cm.peers.length % 0x100000000 ∧
      (cm.peers.length + 2 < 0x100000000 →
        (cmEpGetList n c v true).2 = 0 ∧ (cmEpGetList n c v true).1.InBounds ∧
        (cmEpGetList n c v true).1.copied = c + 2 ∧
        (riocmGetPeerList n v c).1.map Prod.snd = cm.peers.map (·.destid % 0x100000000)) := by
  have hi : PeersInv n := nodeRun_induct (fun _ h hs => h.step hs) ops
    (regInv_init cmbox chstart) (fun _ h => by cases h) hr
  have hv8 : v % 0x100 = v := Nat.mod_eq_of_lt hv
  unfold cmEpGetListSize at hs
  split at hs
  · cases hs
  rename_i cm hcm
  rw [Nat.mod_eq_of_lt (by omega : v < 0x10000)] at hcm
  have hok := hi cm (List.mem_of_find?_eq_some hcm)
  have hcl : c = cm.peers.length % 0x100000000 := by
    cases hs
    rw [hok.count]
    omega
  refine ⟨cm, hcm, hcl, fun hlen => ?_⟩
  rw [Nat.mod_eq_of_lt (by omega)] at hcl
  subst hcl
  have hcm8 : n.cmDevList.find? (·.mport.id = v % 0x100) = some cm := by rwa [hv8]
  obtain ⟨hret, -, -, hcopy⟩ := cmEpGetList_found cm.peers.length hcm8
  obtain ⟨hin, -⟩ := @cmEpGetList_bounds n cm.peers.length v cm hcm8 (by omega)
  refine ⟨hret, hin.2 ⟨hlen, ?_⟩, ?_, ?_⟩
  · cases hp : cm.peers
    · exact .inl rfl
    · exact .inr (by simp)
  · rw [hcopy]
    omega
  · simp only [riocmGetPeerList, hcm]
    exact peerListLoop_snd _ 0 cm.peers (by omega)

theorem epGetListSize_then_list_onePeer :
    let ops : List NodeOp := [.addMport ⟨100, 1, 5, true⟩ true true,
      .addDev ⟨300, 7, 100, true, false⟩ true]
    let n := (riocmAddDev (riocmAddMport (Node.init 1 256) ⟨100, 1, 5, true⟩ true true).1
      ⟨300, 7, 100, true, false⟩ true).1
    nodeRun (Node.init 1 256) ops = some (n, []) ∧ 1 < 0x100 ∧ cmEpGetListSize n 1 = .ok 1 ∧
    ∃ cm, n.cmDevList.find? (·.mport.id = 1) = some cm ∧
      1 = cm.peers.length % 0x100000000 ∧
      (cm.peers.length + 2 < 0x100000000 →
        (cmEpGetList n 1 1 true).2 = 0 ∧ (cmEpGetList n 1 1 true).1.InBounds ∧
        (cmEpGetList n 1 1 true).1.copied = 1 + 2 ∧
        (riocmGetPeerList n 1 1).1.map Prod.snd = cm.peers.map (·.destid % 0x100000000)) :=
  ⟨rfl, by decide, rfl, epGetListSize_then_list 1 256
    [.addMport ⟨100, 1, 5, true⟩ true true, .addDev ⟨300, 7, 100, true, false⟩ true] rfl
    (by decide) rfl⟩

end RioCm
