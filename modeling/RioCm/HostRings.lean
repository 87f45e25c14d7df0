import RioCm.Lifecycle

/-!
# HostRings — the receive rings of the channels of a host

`RxRing` studies one channel's ring under any sequence of pushes, receives and frees.
On a host the calls come from the entry points of `Node`: `rio_rx_data_handler` pushes,
and `riocm_ch_receive` is called only by `cm_chan_msg_rcv`, which hands the buffer it
gets back to `riocm_ch_free_rxbuf` before returning. So between two operations no buffer
is lent: `IdleRing` is the ring invariant of `RxRing` with an empty `inuse` table.

`nodeRun_rings_idle` shows that every registered channel's ring is idle in every state a
run from module load reaches, and what follows for `cm_chan_msg_rcv` there: on a
connected channel with a message waiting it returns 0 and takes the oldest message, and
the branch of `riocm_ch_receive` that fails for want of a free `inuse` entry is never
taken.
-/

namespace RioCm

/-! ## An idle ring -/

/-- The receive ring of a channel between two calls: well formed, and no buffer lent. -/
structure IdleRing (r : ChanRxRing) : Prop where
  ring : RxRingInv r
  cnt : r.inuseCnt = 0
  inuse : ∀ i, r.inuse i = none

theorem idleRing_init : IdleRing ChanRxRing.init := ⟨rxRingInv_init, rfl, fun _ => rfl⟩

theorem IdleRing.push {r : ChanRxRing} (h : IdleRing r) (st : RioCmState) (b : Ptr) :
    IdleRing (rxRingPush st r b).1 := by
  obtain ⟨hi, hc⟩ := rxRingPush_inuse st r b
  exact ⟨rxStep_inv h.ring (.push st b), hc.trans h.cnt, fun i => hi ▸ h.inuse i⟩

/-- With no entry used, the search of `riocm_ch_receive` picks entry 0. -/
theorem firstNull_of_empty {t : Nat → Option Ptr} (h : ∀ i, t i = none) :
    firstNull t = some 0 := by
  rw [firstNull, show List.range riocmRxRingSize = 0 :: List.range' 1 127 from rfl]
  simp [h]

/-- On an idle ring, a receive on a connected channel with a message waiting dequeues the
oldest buffer, lends it in entry 0 and returns it. -/
theorem riocmChReceive_idle {r : ChanRxRing} (h : IdleRing r) (hne : r.count ≠ 0)
    (w : RxWaitEnd) :
    riocmChReceive .connected r w =
      ⟨{ (rxRingDequeue r).1 with
          inuse := Function.update r.inuse 0 (rxRingDequeue r).2, inuseCnt := 1 },
        0, (rxRingDequeue r).2⟩ := by
  have hf : firstNull (rxRingDequeue r).1.inuse = some 0 := firstNull_of_empty h.inuse
  simp [riocmChReceive, hne, h.cnt, hf]
  exact ⟨rfl, h.cnt⟩

/-- What `cm_chan_msg_rcv` leaves of an idle ring is idle: the buffer `riocm_ch_receive`
lends is given back by `riocm_ch_free_rxbuf`. -/
theorem IdleRing.msgRcv {r : ChanRxRing} (h : IdleRing r) (st : RioCmState) (w : RxWaitEnd) :
    IdleRing (if (riocmChReceive st r w).ret = 0 then
      (riocmChFreeRxbuf (riocmChReceive st r w).ring (riocmChReceive st r w).buf).1
      else (riocmChReceive st r w).ring) := by
  by_cases hgo : st = .connected ∧ r.count ≠ 0
  · obtain ⟨rfl, hne⟩ := hgo
    obtain ⟨hring, hq⟩ := rxRingDequeue_spec h.ring hne
    have hb : ((rxRingDequeue r).2).isSome := h.ring.queue_isSome _ (by rw [hq]; exact .head _)
    obtain ⟨b, hb⟩ := Option.isSome_iff_exists.1 hb
    rw [riocmChReceive_idle h hne, if_pos rfl]
    rcases riocmChFreeRxbuf_cases
        { (rxRingDequeue r).1 with
          inuse := Function.update r.inuse 0 (rxRingDequeue r).2, inuseCnt := 1 }
        (rxRingDequeue r).2 with ⟨i, -, hi, he⟩ | ⟨hn, -⟩
    · have hi0 : i = 0 := by
        by_contra hne0
        simp [Function.update_noteq hne0, h.inuse, hb] at hi
      subst hi0
      rw [he]
      refine ⟨hring.setInuse _ _, rfl, fun j => ?_⟩
      by_cases hj : j = 0
      · subst hj; simp
      · simp [Function.update_noteq hj, h.inuse]
    · exact absurd (by simp) (hn 0 (by decide))
  · have hd : st ≠ .connected ∨ r.count = 0 := by tauto
    have hfail : riocmChReceive st r w = ⟨r, if st ≠ .connected then -Errno.again else w.err,
        none⟩ := by
      unfold riocmChReceive
      rcases hd with hs | hc
      · simp [hs]
      · by_cases hs : st = .connected <;> simp [hs, hc, h.cnt]
    have hret : (riocmChReceive st r w).ret ≠ 0 := by
      rw [hfail]
      dsimp only
      split_ifs
      · decide
      · cases w <;> decide
    rw [if_neg hret, hfail]
    exact h

/-- `riocm_ch_free_rxbuf` leaves the queue alone. -/
theorem rxQueue_freeRxbuf (r : ChanRxRing) (b : Option Ptr) :
    rxQueue (riocmChFreeRxbuf r b).1 = rxQueue r := by
  unfold riocmChFreeRxbuf
  split <;> rfl

/-! ## Every registered channel -/

/-- Every registered channel's receive ring is idle. -/
def RingsIdle (n : Node) : Prop := ∀ k ch, n.chIdr k = some ch → IdleRing ch.rxRing

section Prims

variable {n n' : Node}

theorem RingsIdle.modifyChan (h : RingsIdle n) {k : Nat} {f : RioChannel → RioChannel}
    (hf : ∀ ch, n.chIdr k = some ch → IdleRing (f ch).rxRing) :
    RingsIdle (n.modifyChan k f) := by
  intro j ch hj
  simp only [Node.modifyChan_chIdr, Function.update_apply] at hj
  split_ifs at hj with hjk
  · subst hjk
    obtain ⟨c, hc, rfl⟩ := Option.map_eq_some'.1 hj
    exact hf c hc
  · exact h j ch hj

/-- A change that leaves the ring alone. -/
theorem RingsIdle.modifyChan_frame (h : RingsIdle n) {k : Nat} {f : RioChannel → RioChannel}
    (hf : ∀ ch, (f ch).rxRing = ch.rxRing) : RingsIdle (n.modifyChan k f) :=
  h.modifyChan fun ch hc => (hf ch).symm ▸ h k ch hc

theorem RingsIdle.putChannel (h : RingsIdle n) (k : Nat) : RingsIdle (n.putChannel k) :=
  h.modifyChan_frame fun _ => by rfl

theorem RingsIdle.getChannel (h : RingsIdle n) {k : Nat} {n1 : Node} {ch : RioChannel}
    (hg : n.getChannel k = some (n1, ch)) : RingsIdle n1 ∧ IdleRing ch.rxRing := by
  obtain ⟨c, hc, rfl, rfl⟩ := Node.getChannel_eq_some.1 hg
  exact ⟨h.modifyChan_frame (f := RioChannel.get) fun _ => rfl, h k c hc⟩

theorem RingsIdle.setChan (h : RingsIdle n) {k : Nat} {ch : RioChannel}
    (hc : IdleRing ch.rxRing) : RingsIdle (n.setChan k ch) := by
  intro j c hj
  simp only [Node.setChan_chIdr, Function.update_apply] at hj
  split_ifs at hj
  · cases hj; exact hc
  · exact h j c hj

theorem RingsIdle.setTxReqs (h : RingsIdle n) (l : List ParkedReq) :
    RingsIdle { n with txReqs := l } := h

theorem RingsIdle.park (h : RingsIdle n) (rs : List ParkedReq) : RingsIdle (n.park rs) := h

theorem RingsIdle.removeChans (h : RingsIdle n) (ks : List Nat) :
    RingsIdle (n.removeChans ks) := by
  intro j c hj
  simp only [Node.removeChans_chIdr] at hj
  split_ifs at hj
  exact h j c hj

theorem riocmChAlloc_rxRing {c : Nat} {a : Bool} {ch : RioChannel}
    (h : riocmChAlloc n c a = (n', .ok ch)) : ch.rxRing = ChanRxRing.init := by
  unfold riocmChAlloc at h
  split at h
  · cases h
  · split at h
    · cases h
    · cases h; rfl

theorem RingsIdle.alloc (h : RingsIdle n) {c : Nat} {a : Bool} {r : Except Int RioChannel}
    (ha : riocmChAlloc n c a = (n', r)) : RingsIdle n' := by
  cases r with
  | error e => rw [riocmChAlloc_error ha]; exact h
  | ok ch =>
    obtain ⟨-, -, -, rfl⟩ := riocmChAlloc_ok ha
    exact h.setChan ((riocmChAlloc_rxRing ha).symm ▸ idleRing_init)

theorem RingsIdle.releaseChans (h : RingsIdle n) {chs : List RioChannel}
    {f : RioChannel → RioChannel} {out : Nat → SendOutcome} {o : OpOut}
    (hs : n.releaseChans chs f out = some (n', o)) : RingsIdle n' := by
  obtain ⟨rs, rfl⟩ := releaseChans_eq hs
  exact (h.removeChans _).park _

end Prims

/-! ## Each operation -/

section Ops

variable {n n' : Node} {o : OpOut}

theorem ringsIdle_cmChanCreate (h : RingsIdle n) (filp chNum : Nat) (alloc : Bool) :
    RingsIdle (cmChanCreate n filp chNum alloc).1 := by
  unfold cmChanCreate
  split
  · rename_i n1 ch ha
    exact (h.alloc ha).setChan ((riocmChAlloc_rxRing ha).symm ▸ idleRing_init)
  · exact h.alloc ‹_›

theorem ringsIdle_cmChanClose (h : RingsIdle n) {filp chNum : Nat} {out : SendOutcome}
    {intr : Bool} (hs : cmChanClose n filp chNum out intr = some (n', o)) : RingsIdle n' := by
  unfold cmChanClose at hs
  split at hs
  · cases hs; exact h
  split at hs
  · cases hs; exact h
  obtain ⟨r, -, hr⟩ := Option.map_eq_some'.1 hs
  cases hr
  exact (h.removeChans _).park _

theorem ringsIdle_riocmChBind (h : RingsIdle n) (chId mportId : Nat) :
    RingsIdle (riocmChBind n chId mportId).1 := by
  unfold riocmChBind
  split
  · exact h
  split
  · exact h
  rename_i hg
  have h1 := (h.getChannel hg).1
  split
  · exact h1.putChannel _
  · exact (h1.modifyChan_frame fun _ => by rfl).putChannel _

theorem ringsIdle_riocmChListen (h : RingsIdle n) {chId : Nat} {r : Int}
    (hs : riocmChListen n chId = some (n', r)) : RingsIdle n' := by
  unfold riocmChListen at hs
  split at hs
  · cases hs
  rename_i hg
  have h1 := (h.getChannel hg).1
  split at hs <;> cases hs
  · exact (h1.modifyChan_frame fun _ => by rfl).putChannel _
  · exact h1.putChannel _

theorem ringsIdle_riocmChConnect (h : RingsIdle n) (locCh mportId remDestid remCh : Nat)
    (stack : RioChChanHdr) (out : SendOutcome) :
    RingsIdle (riocmChConnect n locCh mportId remDestid remCh stack out).1 := by
  unfold riocmChConnect
  split
  · exact h
  split
  · exact h
  split
  · exact h
  rename_i hg
  have h1 := (h.getChannel hg).1
  split
  · exact h1.putChannel _
  dsimp only
  split
  · refine ((h1.modifyChan_frame fun _ => by rfl).modifyChan_frame fun c => ?_).putChannel _
    unfold RioChannel.compExch
    split_ifs <;> rfl
  · exact (h1.modifyChan_frame fun _ => by rfl).putChannel _

theorem ringsIdle_cmChanAccept (h : RingsIdle n) {filp chId timeout : Nat} {w : RxWaitEnd}
    {alloc : Bool} {stack : RioChChanHdr} {out : SendOutcome}
    (hs : cmChanAccept n filp chId timeout w alloc stack out = some (n', o)) : RingsIdle n' := by
  rcases cmChanAccept_cases hs with ⟨-, rfl, -⟩ | ⟨_, -, rfl, -⟩ |
    ⟨_, _, _, n2, c, _, -, -, -, ha, -, -, hr⟩
  · exact h
  · exact (h.modifyChan_frame fun _ => by rfl).putChannel _
  have h2 : RingsIdle n2 := (h.modifyChan_frame (f := RioChannel.get) fun _ => rfl).alloc ha
  have hc : IdleRing c.rxRing := (riocmChAlloc_rxRing ha).symm ▸ idleRing_init
  rcases hr with ⟨-, rfl, -⟩ | ⟨d, -, rfl, -⟩ <;>
    exact ((h2.modifyChan_frame fun _ => by rfl).putChannel _).setChan hc

theorem ringsIdle_riocmChSend (h : RingsIdle n) {chId : Nat} {buf : Option RioChChanHdr}
    {len : Nat} {out : SendOutcome} (hs : riocmChSend n chId buf len out = some (n', o)) :
    RingsIdle n' := by
  unfold riocmChSend at hs
  split at hs
  · cases hs; exact h
  split at hs
  · cases hs; exact h
  split at hs
  · cases hs; exact h
  rename_i hg
  have h1 := (h.getChannel hg).1
  split at hs
  · cases hs; exact h1.putChannel _
  · obtain ⟨r, -, hr⟩ := Option.map_eq_some'.1 hs
    cases hr; exact h1.putChannel _

theorem ringsIdle_cmChanMsgRcv (h : RingsIdle n) (chNum : Nat) (w : RxWaitEnd) :
    RingsIdle (cmChanMsgRcv n chNum w).1 := by
  unfold cmChanMsgRcv
  split
  · exact h
  split
  · exact h
  rename_i hg
  obtain ⟨h1, hr⟩ := h.getChannel hg
  exact (h1.modifyChan fun _ _ => by exact hr.msgRcv _ _).putChannel _

theorem ringsIdle_rioRxDataHandler (h : RingsIdle n) (hdr : RioChChanHdr) :
    RingsIdle (rioRxDataHandler n hdr).1 := by
  unfold rioRxDataHandler
  split
  · exact h
  rename_i hg
  obtain ⟨h1, hr⟩ := h.getChannel hg
  refine (RingsIdle.modifyChan ?_ fun _ _ => by exact hr.push _ _).putChannel _
  exact h1

theorem ringsIdle_riocmCloseHandler (h : RingsIdle n) {hdr : RioChChanHdr} {out : SendOutcome}
    (hs : riocmCloseHandler n hdr out = some (n', o)) : RingsIdle n' := by
  unfold riocmCloseHandler at hs
  split_ifs at hs
  · cases hs; exact h
  split at hs
  · cases hs; exact h
  · obtain ⟨_, -, hr⟩ := Option.map_eq_some'.1 hs
    cases hr; exact h.removeChans _

theorem ringsIdle_riocmReqHandler (h : RingsIdle n) (cm : CmDev) (hdr : RioChChanHdr)
    (alloc : Bool) : RingsIdle (riocmReqHandler n cm hdr alloc).1 := by
  unfold riocmReqHandler
  split
  · exact h
  rename_i hg
  have h1 := (h.getChannel hg).1
  split_ifs
  · exact h1.putChannel _
  · exact h1.putChannel _
  · exact (h1.modifyChan_frame fun _ => by rfl).putChannel _

theorem ringsIdle_riocmRespHandler (h : RingsIdle n) (hdr : RioChChanHdr) :
    RingsIdle (riocmRespHandler n hdr).1 := by
  unfold riocmRespHandler
  split_ifs
  · exact h
  split
  · exact h
  rename_i hg
  have h1 := (h.getChannel hg).1
  split_ifs
  · exact h1.putChannel _
  · exact (h1.modifyChan_frame fun _ => by rfl).putChannel _

theorem ringsIdle_rioIbmsgHandler (h : RingsIdle n) {cm : CmDev} {hdr : RioChChanHdr}
    {allocWork allocReq : Bool} {out : SendOutcome}
    (hs : rioIbmsgHandler n cm hdr allocWork allocReq out = some (n', o)) : RingsIdle n' := by
  unfold rioIbmsgHandler at hs
  split_ifs at hs
  · cases hs; exact h
  · cases hs; exact h
  · cases hs; exact ringsIdle_rioRxDataHandler h hdr
  · cases hs; exact h
  unfold rioCmHandler at hs
  split_ifs at hs
  · cases hs; exact ringsIdle_riocmReqHandler h cm hdr allocReq
  · cases hs; exact ringsIdle_riocmRespHandler h hdr
  · obtain ⟨⟨_, _⟩, hr, hr'⟩ := Option.map_eq_some'.1 hs
    cases hr'; exact ringsIdle_riocmCloseHandler h hr
  · cases hs; exact h

/-- Every operation keeps every registered channel's ring idle. -/
theorem RingsIdle.step (h : RingsIdle n) {op : NodeOp} (hs : n.step op = some (n', o)) :
    RingsIdle n' := by
  cases op with
  | chanCreate => cases hs; exact ringsIdle_cmChanCreate h _ _ _
  | chanClose => exact ringsIdle_cmChanClose h hs
  | chanBind => cases hs; exact ringsIdle_riocmChBind h _ _
  | chanListen =>
    obtain ⟨⟨n1, r⟩, hr, hr'⟩ := Option.map_eq_some'.1 hs
    cases hr'; exact ringsIdle_riocmChListen h hr
  | chanAccept => exact ringsIdle_cmChanAccept h hs
  | chanConnect chId mportId remDestid remCh stack out =>
    have h' := ringsIdle_riocmChConnect h (chId % 0x10000) (mportId % 0x100)
      (remDestid % 0x100000000) (remCh % 0x10000) stack out
    rwa [Option.some.inj hs] at h'
  | chanSend =>
    simp only [Node.step, cmChanMsgSend] at hs
    split_ifs at hs
    · cases hs; exact h
    · exact ringsIdle_riocmChSend h hs
  | chanReceive => cases hs; exact ringsIdle_cmChanMsgRcv h _ _
  | release => exact h.releaseChans hs
  | addDev =>
    cases hs
    unfold riocmAddDev
    split_ifs <;> try split
    all_goals exact h
  | removeDev =>
    simp only [Node.step, riocmRemoveDev] at hs
    split at hs
    · cases hs; exact h
    split at hs
    · cases hs; exact h
    split at hs
    · cases hs; exact h
    · exact RingsIdle.releaseChans (by exact h) hs
  | addMport =>
    cases hs
    unfold riocmAddMport
    split_ifs <;> exact h
  | removeMport =>
    simp only [Node.step, riocmRemoveMport] at hs
    split at hs
    · cases hs; exact h
    · exact RingsIdle.releaseChans (by exact h) hs
  | inbound =>
    simp only [Node.step] at hs
    split at hs
    · cases hs; exact h
    · exact ringsIdle_rioIbmsgHandler h hs
  | epGetListSize => cases hs; exact h
  | epGetList | mportGetList => exact (listIoctlOut_eq_some hs).1 ▸ h
  | txDone =>
    obtain ⟨l, rfl, -⟩ := riocmOutbMsgEvent_eq_some hs
    exact h.setTxReqs l

end Ops

/-! ## Every run -/

/-- The receive rings on a host: in every reachable state every ring is well formed and
lends nothing, and `cm_chan_msg_rcv` on a waiting message returns 0 and dequeues the oldest. -/
theorem nodeRun_rings_idle (cmbox chstart : Nat) (ops : List NodeOp) {n : Node}
    {log : List Nat} (hr : nodeRun (Node.init cmbox chstart) ops = some (n, log)) :
    ∀ k ch, n.chIdr k = some ch →
      RxRingInv ch.rxRing ∧ ch.rxRing.inuseCnt = 0 ∧ (∀ i, ch.rxRing.inuse i = none) ∧
      (0 < k → ch.state = .connected → ch.rxRing.count ≠ 0 → ∀ w,
        (cmChanMsgRcv n k w).2 = 0 ∧
        ∃ ch', (cmChanMsgRcv n k w).1.chIdr k = some ch' ∧
          rxQueue ch.rxRing = (rxRingDequeue ch.rxRing).2 :: rxQueue ch'.rxRing ∧
          ch'.rxRing.inuseCnt = 0) := by
  have hi : RingsIdle n := nodeRun_induct (fun _ h hs => h.step hs) ops
    (regInv_init cmbox chstart) (fun _ _ h => by cases h) hr
  intro k ch hk
  have hI := hi k ch hk
  refine ⟨hI.ring, hI.cnt, hI.inuse, fun hk0 hc hne w => ?_⟩
  have hg : n.getChannel k = some (n.modifyChan k RioChannel.get, ch.get) := by
    simp [Node.getChannel, hk]
  have hm := hI.msgRcv .connected w
  rw [riocmChReceive_idle hI hne, if_pos rfl] at hm
  simp only [cmChanMsgRcv, Nat.pos_iff_ne_zero.1 hk0, if_false, hg, RioChannel.get_rxRing,
    RioChannel.get_state, hc, riocmChReceive_idle hI hne, if_true, Node.putChannel,
    Node.modifyChan_chIdr, Function.update_same, hk, Option.map_some', Option.some.injEq,
    exists_eq_left', RioChannel.put_rxRing, true_and]
  refine ⟨?_, hm.cnt⟩
  rw [rxQueue_freeRxbuf, (rxRingDequeue_spec hI.ring hne).2]
  rfl

/-- `connectedHost`, then two data messages for channel 2 and one `cm_chan_msg_rcv` on it:
one message stays queued. -/
def dataHost : List NodeOp :=
  connectedHost ++
    [.inbound 0 ⟨7, 5, 1, 1, rioCmChan, RioCmChop.dataMsg.toNat, 2, 1, 120, 0⟩ true true .sent,
     .inbound 0 ⟨7, 5, 1, 1, rioCmChan, RioCmChop.dataMsg.toNat, 2, 1, 120, 0⟩ true true .sent,
     .chanReceive 2 .signal]

theorem nodeRun_rings_idle_dataHost :
    ∃ n log ch, nodeRun (Node.init 1 256) dataHost = some (n, log) ∧ n.chIdr 2 = some ch ∧
      ch.state = .connected ∧ ch.rxRing.count = 1 ∧
      (RxRingInv ch.rxRing ∧ ch.rxRing.inuseCnt = 0 ∧ (∀ i, ch.rxRing.inuse i = none) ∧
      (0 < 2 → ch.state = .connected → ch.rxRing.count ≠ 0 → ∀ w,
        (cmChanMsgRcv n 2 w).2 = 0 ∧
        ∃ ch', (cmChanMsgRcv n 2 w).1.chIdr 2 = some ch' ∧
          rxQueue ch.rxRing = (rxRingDequeue ch.rxRing).2 :: rxQueue ch'.rxRing ∧
          ch'.rxRing.inuseCnt = 0)) :=
  ⟨_, _, _, rfl, rfl, rfl, by decide, nodeRun_rings_idle 1 256 dataHost rfl 2 _ rfl⟩

end RioCm
