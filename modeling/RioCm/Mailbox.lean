import RioCm.RxPool
import RioCm.Network

/-!
# Mailbox — the inbound path of a `cm_dev`

The buffers of the pool of `RxPool` go to the transport's inbound mailbox
(`rio_add_inb_buffer`), a message arrives into the oldest buffer given to it, and
`rio_ibmsg_handler`, the function of `rx_tasklet`, takes the messages back
(`rio_get_inb_message`), the oldest first and at most eight a run, refilling the pool by one
buffer per message. It hands a data message to `rio_rx_data_handler` at once and queues
every other one on `riocm_wq`, whose worker later runs `rio_cm_handler` on it.

`Mailbox` is the transport's side: the buffers given and still empty, and the messages
received and not yet taken. `InboundInv` says that the buffers `rx_buf` records are, as a
multiset, exactly the buffers the mailbox holds, with `rx_slots` counting the free entries.
It holds over every interleaving of host operations, arrivals, tasklet turns and worker
runs (`inboundRun_conserves`). `rxTasklet_spec` says what one run of the tasklet does, and
`rxTaskletChain_drains` that rescheduled runs empty the mailbox.
-/

namespace RioCm

/-! ## The buffers a pool records -/

/-- The buffers the entries of a 128-entry table record, in entry order. -/
def recorded (t : Nat → Option Ptr) : List Ptr := (List.range riocmRxRingSize).filterMap t

theorem filterMap_cons_toList {α β : Type} (f : α → Option β) (a : α) (l : List α) :
    (((a :: l).filterMap f : List β) : Multiset β) = ((f a).toList : Multiset β) + l.filterMap f := by
  cases h : f a <;> simp [List.filterMap_cons, h]

/-- Writing `v` over entry `i` trades what the entry held for `v`. -/
theorem filterMap_update {t : Nat → Option Ptr} {i : Nat} (v : Option Ptr) :
    ∀ {l : List Nat}, l.Nodup → i ∈ l →
      ((l.filterMap (Function.update t i v) : List Ptr) : Multiset Ptr) + (t i).toList =
        (l.filterMap t : Multiset Ptr) + v.toList
  | j :: l, hnd, hi => by
    rw [filterMap_cons_toList, filterMap_cons_toList]
    by_cases hj : j = i
    · subst hj
      have hl : l.filterMap (Function.update t j v) = l.filterMap t :=
        List.filterMap_congr fun x hx =>
          Function.update_noteq (fun (h : x = j) => (List.nodup_cons.1 hnd).1 (h ▸ hx)) _ _
      rw [Function.update_same, hl]
      simp only [add_comm, add_left_comm, add_assoc]
    · rw [Function.update_noteq hj, add_assoc,
        filterMap_update v (List.nodup_cons.1 hnd).2 ((List.mem_cons.1 hi).resolve_left (Ne.symm hj)),
        add_assoc]

theorem recorded_update {t : Nat → Option Ptr} {i : Nat} (hi : i < riocmRxRingSize)
    (v : Option Ptr) :
    (recorded (Function.update t i v) : Multiset Ptr) + (t i).toList =
      (recorded t : Multiset Ptr) + v.toList :=
  filterMap_update v (List.nodup_range _) (List.mem_range.2 hi)

/-- As many buffers are recorded as entries hold one. -/
theorem recorded_length (t : Nat → Option Ptr) : (recorded t).length = inuseCount t := by
  rw [recorded, List.length_filterMap_eq_countP, List.countP_eq_length_filter, inuseCount,
    Finset.card_def, Finset.filter_val, Finset.range_val, Multiset.range, Multiset.filter_coe,
    Multiset.coe_card]
  simp

/-- The loop of `riocm_rx_fill` records exactly the buffers it hands over. -/
theorem rxFillLoop_recorded (kmalloc : Nat → Option Ptr) : ∀ (is : List Nat) (j : Nat)
    (cm : CmRx) (nent : Int), (∀ i ∈ is, i < riocmRxRingSize) →
    (recorded (rxFillLoop kmalloc j is cm nent).1.rxBuf : Multiset Ptr) =
      (recorded cm.rxBuf : Multiset Ptr) + (rxFillLoop kmalloc j is cm nent).2
  | [], _, _, _, _ => by simp [rxFillLoop]
  | i :: is, j, cm, nent, hlt => by
    have hlt' : ∀ x ∈ is, x < riocmRxRingSize := fun x hx => hlt x (.tail _ hx)
    unfold rxFillLoop
    split_ifs with hstop hsome
    · simp
    · exact rxFillLoop_recorded kmalloc is j cm nent hlt'
    · split
      · simp
      rename_i b _
      have hnull : cm.rxBuf i = none := by simpa using hsome
      have hu := recorded_update (t := cm.rxBuf) (hlt i (.head _)) (some b)
      rw [hnull] at hu
      simp only [Option.toList_none, Multiset.coe_nil, add_zero, Option.toList_some] at hu
      dsimp only
      rw [rxFillLoop_recorded kmalloc is (j + 1) _ (nent - 1) hlt']
      dsimp only
      rw [hu, add_assoc]
      simp

/-- `riocm_rx_fill` records exactly the buffers it hands to the transport. -/
theorem riocmRxFill_recorded (cm : CmRx) (nent : Int) (kmalloc : Nat → Option Ptr) :
    (recorded (riocmRxFill cm nent kmalloc).1.rxBuf : Multiset Ptr) =
      (recorded cm.rxBuf : Multiset Ptr) + (riocmRxFill cm nent kmalloc).2 := by
  unfold riocmRxFill
  split_ifs
  · simp
  · exact rxFillLoop_recorded kmalloc _ 0 cm nent fun i hi => List.mem_range.1 hi

/-- `riocm_rx_get_msg` given back a recorded buffer drops one record of it. -/
theorem riocmRxGetMsg_recorded {cm : CmRx} {m : Ptr} (hm : m ∈ recorded cm.rxBuf) :
    (recorded (riocmRxGetMsg cm (some m)).1.rxBuf : Multiset Ptr) + {m} =
      recorded cm.rxBuf := by
  rcases (riocmRxGetMsg_cases cm (some m)).2 with ⟨m', hm', i, hi, hmi, he⟩ | ⟨hn, -⟩
  · cases hm'
    rw [he]
    have hu := recorded_update (t := cm.rxBuf) hi none
    rw [hmi] at hu
    simpa using hu
  · obtain ⟨i, hi, hmi⟩ := List.mem_filterMap.1 hm
    exact absurd hmi (hn m rfl i (List.mem_range.1 hi))

/-- Asked for one buffer with an entry free, the loop of `riocm_rx_fill` hands over what
the first allocation returns. -/
theorem rxFillLoop_one_eq (kmalloc : Nat → Option Ptr) : ∀ (is : List Nat) {cm : CmRx},
    cm.rxSlots ≠ 0 → (∃ i ∈ is, cm.rxBuf i = none) →
    (rxFillLoop kmalloc 0 is cm 1).2 = (kmalloc 0).toList
  | [], _, _, ⟨_, hi, _⟩ => absurd hi (List.not_mem_nil _)
  | i :: is, cm, hs, ⟨x, hx, hxn⟩ => by
    unfold rxFillLoop
    rw [if_neg (by omega)]
    by_cases hsome : (cm.rxBuf i).isSome
    · rw [if_pos hsome]
      refine rxFillLoop_one_eq kmalloc is hs ⟨x, ?_, hxn⟩
      rcases List.mem_cons.1 hx with rfl | hx
      · simp [hxn] at hsome
      · exact hx
    · rw [if_neg hsome]
      cases kmalloc 0 <;> simp [rxFillLoop_zero]

/-- Once `riocm_rx_get_msg` has taken a recorded buffer back, `riocm_rx_fill(cm, 1)` gives
the mailbox exactly what its allocation returns. -/
theorem riocmRxFill_one_of_getMsg {cm : CmRx} (h : RxPoolInv cm) {m : Ptr}
    (hm : m ∈ recorded cm.rxBuf) (kmalloc : Nat → Option Ptr) :
    (riocmRxFill (riocmRxGetMsg cm (some m)).1 1 kmalloc).2 = (kmalloc 0).toList := by
  rcases (riocmRxGetMsg_cases cm (some m)).2 with ⟨m', -, i, hi, -, he⟩ | ⟨hn, -⟩
  · have hpos : 0 ≤ cm.rxSlots := by unfold RxPoolInv at h; omega
    rw [he, riocmRxFill, if_neg (by dsimp only; omega)]
    exact rxFillLoop_one_eq kmalloc _ (by dsimp only; omega)
      ⟨i, List.mem_range.2 hi, Function.update_same _ _ _⟩
  · obtain ⟨i, hi, hmi⟩ := List.mem_filterMap.1 hm
    exact absurd hmi (hn m rfl i (List.mem_range.1 hi))

/-! ## The mailbox -/

/-- The inbound mailbox `cmbox` of the transport as the channel manager sees it: the
buffers `rio_add_inb_buffer` gave it that are still empty, and the messages received and
not yet taken by `rio_get_inb_message`, each in its buffer, oldest first. -/
structure Mailbox where
  posted : List Ptr
  filled : List (Ptr × RioChChanHdr)
  deriving DecidableEq, Repr

/-- The buffers the mailbox holds, empty or filled. -/
def Mailbox.held (mb : Mailbox) : Multiset Ptr :=
  (mb.posted : Multiset Ptr) + (mb.filled.map Prod.fst : Multiset Ptr)

/-- A message arrives in the empty buffer `b`, which the transport picks; `none` if the
mailbox does not hold `b` empty. -/
def Mailbox.arrive (mb : Mailbox) (b : Ptr) (hdr : RioChChanHdr) : Option Mailbox :=
  if b ∈ mb.posted then some ⟨mb.posted.erase b, mb.filled ++ [(b, hdr)]⟩ else none

/-- The mailbox `riocm_add_mport` leaves: the buffers its `riocm_rx_fill` of all 128
entries hands over, `kmalloc` answering the allocations (as in `CmRx.init`). -/
def Mailbox.init (kmalloc : Nat → Option Ptr) : Mailbox :=
  ⟨(riocmRxFill ⟨fun _ => none, riocmRxRingSize⟩ riocmRxRingSize kmalloc).2, []⟩

theorem Mailbox.held_arrive {mb mb' : Mailbox} {b : Ptr} {hdr : RioChChanHdr}
    (h : mb.arrive b hdr = some mb') : mb'.held = mb.held := by
  unfold Mailbox.arrive at h
  split_ifs at h with hb
  cases h
  have hp : (mb.posted : Multiset Ptr) = b ::ₘ (mb.posted.erase b : Multiset Ptr) := by
    rw [Multiset.cons_coe]
    exact Multiset.coe_eq_coe.2 (List.perm_cons_erase hb)
  simp only [Mailbox.held, hp, List.map_append, Multiset.coe_add, Multiset.cons_coe,
    Multiset.coe_eq_coe]
  simpa using List.perm_append_singleton b (mb.posted.erase b ++ mb.filled.map Prod.fst)

/-- The pool and the mailbox agree: `rx_slots` counts the free entries of `rx_buf`, and the
buffers `rx_buf` records are, with their multiplicities, the buffers the mailbox holds. -/
structure InboundInv (rx : CmRx) (mb : Mailbox) : Prop where
  pool : RxPoolInv rx
  conserve : (recorded rx.rxBuf : Multiset Ptr) = mb.held

section Inv

variable {rx : CmRx} {mb : Mailbox}

theorem inboundInv_init (kmalloc : Nat → Option Ptr) :
    InboundInv (CmRx.init kmalloc) (Mailbox.init kmalloc) := by
  refine ⟨rxPoolInv_init kmalloc, ?_⟩
  have := riocmRxFill_recorded ⟨fun _ => none, riocmRxRingSize⟩ riocmRxRingSize kmalloc
  simpa [recorded, Mailbox.held, Mailbox.init, CmRx.init] using this

theorem InboundInv.arrive (h : InboundInv rx mb) {b : Ptr} {hdr : RioChChanHdr} {mb' : Mailbox}
    (ha : mb.arrive b hdr = some mb') : InboundInv rx mb' :=
  ⟨h.pool, h.conserve.trans (Mailbox.held_arrive ha).symm⟩

/-- Every entry is free or records a buffer the mailbox holds. -/
theorem InboundInv.slots (h : InboundInv rx mb) :
    rx.rxSlots + mb.posted.length + mb.filled.length = riocmRxRingSize := by
  have hc := congrArg Multiset.card h.conserve
  simp only [Multiset.coe_card, recorded_length, Mailbox.held, Multiset.card_add,
    List.length_map] at hc
  have := nullCount_add_inuseCount rx.rxBuf
  have hp := h.pool
  unfold RxPoolInv at hp
  omega

/-- The buffer of every waiting message is recorded, so `riocm_rx_get_msg` finds it. -/
theorem InboundInv.mem_recorded (h : InboundInv rx mb) {p : Ptr × RioChChanHdr}
    (hp : p ∈ mb.filled) : p.1 ∈ recorded rx.rxBuf := by
  rw [← Multiset.mem_coe, h.conserve]
  exact Multiset.mem_add.2 (.inr (Multiset.mem_coe.2 (List.mem_map_of_mem _ hp)))

/-! ## One turn of `rio_ibmsg_handler` -/

/-- The pool's part of one turn of the loop of `rio_ibmsg_handler`: `riocm_rx_get_msg`
takes the oldest message back from the mailbox and frees the entry recording its buffer,
then `riocm_rx_fill(cm, 1)` allocates a buffer and gives it to the mailbox. `none`: no
message is waiting, and the loop breaks. -/
def ibmsgTake (rx : CmRx) (mb : Mailbox) (kmalloc : Nat → Option Ptr) :
    Option (RioChChanHdr × CmRx × Mailbox) :=
  match mb.filled with
  | [] => none
  | (b, hdr) :: rest =>
    let f := riocmRxFill (riocmRxGetMsg rx (some b)).1 1 kmalloc
    some (hdr, f.1, ⟨mb.posted ++ f.2, rest⟩)

theorem ibmsgTake_eq_none {kmalloc : Nat → Option Ptr} :
    ibmsgTake rx mb kmalloc = none ↔ mb.filled = [] := by
  unfold ibmsgTake
  split <;> simp [*]

/-- A turn takes the oldest message, gives the mailbox the buffer the allocation returns,
and keeps the pool and the mailbox in agreement. -/
theorem InboundInv.take (h : InboundInv rx mb) (kmalloc : Nat → Option Ptr) {b : Ptr}
    {hdr : RioChChanHdr} {rest : List (Ptr × RioChChanHdr)} (hf : mb.filled = (b, hdr) :: rest) :
    ∃ rx', ibmsgTake rx mb kmalloc = some (hdr, rx', ⟨mb.posted ++ (kmalloc 0).toList, rest⟩) ∧
      InboundInv rx' ⟨mb.posted ++ (kmalloc 0).toList, rest⟩ := by
  have hb : b ∈ recorded rx.rxBuf := h.mem_recorded (p := (b, hdr)) (hf ▸ .head _)
  have hget := riocmRxGetMsg_recorded hb
  have hfill := riocmRxFill_recorded (riocmRxGetMsg rx (some b)).1 1 kmalloc
  rw [riocmRxFill_one_of_getMsg h.pool hb] at hfill
  refine ⟨(riocmRxFill (riocmRxGetMsg rx (some b)).1 1 kmalloc).1,
    by simp only [ibmsgTake, hf, riocmRxFill_one_of_getMsg h.pool hb],
    (riocmRxFill_spec (h.pool.getMsg _) 1 kmalloc).1, ?_⟩
  have hrest : (recorded (riocmRxGetMsg rx (some b)).1.rxBuf : Multiset Ptr) =
      (mb.posted : Multiset Ptr) + (rest.map Prod.fst : Multiset Ptr) := by
    apply add_right_cancel (b := ({b} : Multiset Ptr))
    rw [hget, h.conserve, Mailbox.held, hf, add_assoc]
    simp [add_comm]
  rw [hfill, hrest]
  simp only [Mailbox.held, ← Multiset.coe_add]
  exact add_right_comm (mb.posted : Multiset Ptr) _ _

end Inv

/-! ## Handling a message leaves `cm_dev_list` alone -/

section Frame

variable {n n' : Node} {cm : CmDev} {hdr : RioChChanHdr} {o : OpOut} {out : SendOutcome}

theorem riocmReqHandler_cmDevList (alloc : Bool) :
    (riocmReqHandler n cm hdr alloc).1.cmDevList = n.cmDevList := by
  unfold riocmReqHandler
  split
  · rfl
  · obtain ⟨_, _, rfl, -⟩ := Node.getChannel_eq_some.1 ‹_›
    split_ifs <;> rfl

theorem riocmRespHandler_cmDevList : (riocmRespHandler n hdr).1.cmDevList = n.cmDevList := by
  unfold riocmRespHandler
  split_ifs
  · rfl
  split
  · rfl
  · obtain ⟨_, _, rfl, -⟩ := Node.getChannel_eq_some.1 ‹_›
    split_ifs <;> rfl

theorem rioRxDataHandler_cmDevList : (rioRxDataHandler n hdr).1.cmDevList = n.cmDevList := by
  unfold rioRxDataHandler
  split
  · rfl
  · obtain ⟨_, _, rfl, -⟩ := Node.getChannel_eq_some.1 ‹_›
    rfl

theorem riocmCloseHandler_cmDevList (hs : riocmCloseHandler n hdr out = some (n', o)) :
    n'.cmDevList = n.cmDevList := by
  unfold riocmCloseHandler at hs
  split_ifs at hs
  · cases hs; rfl
  split at hs
  · cases hs; rfl
  · obtain ⟨_, -, hr⟩ := Option.map_eq_some'.1 hs
    cases hr; rfl

theorem rioIbmsgHandler_cmDevList {allocWork allocReq : Bool}
    (hs : rioIbmsgHandler n cm hdr allocWork allocReq out = some (n', o)) :
    n'.cmDevList = n.cmDevList := by
  unfold rioIbmsgHandler at hs
  split_ifs at hs
  · cases hs; rfl
  · cases hs; rfl
  · cases hs; exact rioRxDataHandler_cmDevList
  · cases hs; rfl
  unfold rioCmHandler at hs
  split_ifs at hs
  · cases hs; exact riocmReqHandler_cmDevList _
  · cases hs; exact riocmRespHandler_cmDevList
  · obtain ⟨⟨_, _⟩, hr, hr'⟩ := Option.map_eq_some'.1 hs
    cases hr'; exact riocmCloseHandler_cmDevList hr
  · cases hs; rfl

end Frame

/-! ## `rio_ibmsg_handler` and `riocm_wq` -/

/-- What `rio_ibmsg_handler` does with one message it takes: a message of another type is
dropped; a data message goes to its channel's ring at once (`rio_rx_data_handler`); any
other becomes a work item on `riocm_wq` if the item's allocation succeeds (`allocWork`),
and is dropped otherwise. Returns the host and the header queued, if any. -/
def ibmsgDispatch (n : Node) (hdr : RioChChanHdr) (allocWork : Bool) :
    Node × List RioChChanHdr :=
  if hdr.type ≠ rioCmChan then (n, [])
  else if hdr.chOp = RioCmChop.dataMsg.toNat then ((rioRxDataHandler n hdr).1, [])
  else if !allocWork then (n, [])
  else (n, [hdr])

/-- The host's inbound operation is the dispatch followed at once by `rio_cm_handler` on
the work item it queues: the handling of one message with nothing run in between. -/
theorem rioIbmsgHandler_dispatch (n : Node) {cm : CmDev} (hrun : cm.mport.running)
    (hdr : RioChChanHdr) (allocWork allocReq : Bool) (out : SendOutcome) :
    rioIbmsgHandler n cm hdr allocWork allocReq out =
      match ibmsgDispatch n hdr allocWork with
      | (n1, []) => some (n1, .ofRet 0)
      | (n1, h :: _) => rioCmHandler n1 cm h allocReq out := by
  unfold rioIbmsgHandler ibmsgDispatch
  split_ifs <;> simp_all

/-- What the environment answers in one turn of the loop of `rio_ibmsg_handler`: the
allocations of `riocm_rx_fill(cm, 1)`, and that of the work item. -/
structure IbmsgTurn where
  kmalloc : Nat → Option Ptr
  allocWork : Bool

/-! ## `riocm_rx_free` -/

/-- The loop of `riocm_rx_free` over the entries `is`: every buffer recorded is freed
(returned, in entry order) and its entry cleared. -/
def rxFreeLoop : List Nat → CmRx → CmRx × List Ptr
  | [], rx => (rx, [])
  | i :: is, rx =>
    match rx.rxBuf i with
    | none => rxFreeLoop is rx
    | some b =>
      let r := rxFreeLoop is { rx with rxBuf := Function.update rx.rxBuf i none }
      (r.1, b :: r.2)

/-- `riocm_rx_free(cm)`, which `riocm_remove_mport` calls once the mailbox is released:
every buffer `rx_buf` records is freed and its entry cleared; `rx_slots` is not
touched. -/
def riocmRxFree (rx : CmRx) : CmRx × List Ptr := rxFreeLoop (List.range riocmRxRingSize) rx

theorem rxFreeLoop_spec : ∀ (is : List Nat) (rx : CmRx), is.Nodup →
    (rxFreeLoop is rx).2 = is.filterMap rx.rxBuf ∧
      (∀ i, (rxFreeLoop is rx).1.rxBuf i = if i ∈ is then none else rx.rxBuf i) ∧
      (rxFreeLoop is rx).1.rxSlots = rx.rxSlots
  | [], rx, _ => ⟨rfl, fun _ => by simp [rxFreeLoop], rfl⟩
  | i :: is, rx, hnd => by
    have hi := (List.nodup_cons.1 hnd).1
    have hkeep : is.filterMap (Function.update rx.rxBuf i none) = is.filterMap rx.rxBuf :=
      List.filterMap_congr fun x hx =>
        Function.update_noteq (fun (h : x = i) => hi (h ▸ hx)) _ _
    unfold rxFreeLoop
    split
    · rename_i hn
      obtain ⟨h1, h2, h3⟩ := rxFreeLoop_spec is rx (List.nodup_cons.1 hnd).2
      refine ⟨by simp [h1, List.filterMap_cons, hn], fun x => ?_, h3⟩
      by_cases hx : x = i
      · subst hx; simp [h2, hi, hn]
      · simp [h2, hx]
    · rename_i b hb
      obtain ⟨h1, h2, h3⟩ := rxFreeLoop_spec is
        { rx with rxBuf := Function.update rx.rxBuf i none } (List.nodup_cons.1 hnd).2
      refine ⟨by simp [h1, hkeep, List.filterMap_cons, hb], fun x => ?_, h3⟩
      by_cases hx : x = i
      · subst hx; simp [h2, hi]
      · simp [h2, hx]

/-- `riocm_rx_free` frees exactly the buffers `rx_buf` records, in entry order, and leaves
every entry free. -/
theorem riocmRxFree_spec (rx : CmRx) :
    (riocmRxFree rx).2 = recorded rx.rxBuf ∧
      ∀ i < riocmRxRingSize, (riocmRxFree rx).1.rxBuf i = none := by
  obtain ⟨h1, h2, -⟩ := rxFreeLoop_spec (List.range riocmRxRingSize) rx (List.nodup_range _)
  exact ⟨h1, fun i hi => by rw [riocmRxFree, h2, if_pos (List.mem_range.2 hi)]⟩

/-! ## The inbound path over every interleaving -/

/-- The inbound path of one `cm_dev` on a host: the host, the pool, the mailbox, the work
items of the `cm_dev` on `riocm_wq`, and `cm->rx_tasklet`: whether it is scheduled, and,
while it runs, the turn its loop is at. -/
structure Inbound where
  node : Node
  rx : CmRx
  mb : Mailbox
  wq : List RioChChanHdr
  sched : Bool
  turn : Option Nat

/-- What can happen next: an operation of the host; a message arriving in an empty buffer
of the mailbox, and `riocm_inb_msg_event`; the scheduled tasklet starting; one turn of
its loop; the worker of `riocm_wq` running `rio_cm_handler` on the oldest work item. -/
inductive InboundOp
  | host (op : NodeOp)
  | arrive (b : Ptr) (hdr : RioChChanHdr)
  | start
  | turn (t : IbmsgTurn)
  | work (allocReq : Bool) (out : SendOutcome)

/-- One step of the inbound path of `cm`. A tasklet does not run twice at once; scheduled
while it runs, it runs again after. The worker runs between any two steps. -/
def Inbound.step (cm : CmDev) (s : Inbound) : InboundOp → Option Inbound
  | .host op => (s.node.step op).map fun r => { s with node := r.1 }
  | .arrive b hdr =>
    match s.mb.arrive b hdr with
    | none => some s
    | some mb => some { s with mb := mb, sched := s.sched || cm.mport.running }
  | .start =>
    if s.sched && s.turn.isNone then
      some { s with sched := false, turn := if cm.mport.running then some 0 else none }
    else some s
  | .turn t =>
    match s.turn with
    | none => some s
    | some i =>
      if i < 8 then
        match ibmsgTake s.rx s.mb t.kmalloc with
        | none => some { s with turn := none }
        | some (hdr, rx1, mb1) =>
          let d := ibmsgDispatch s.node hdr t.allocWork
          some { s with node := d.1, rx := rx1, mb := mb1, wq := s.wq ++ d.2, turn := some (i + 1) }
      else some { s with turn := none, sched := true }
  | .work allocReq out =>
    match s.wq with
    | [] => some s
    | hdr :: rest =>
      (rioCmHandler s.node cm hdr allocReq out).map fun r => { s with node := r.1, wq := rest }

def inboundRun (cm : CmDev) (s : Inbound) : List InboundOp → Option Inbound
  | [] => some s
  | op :: ops => (s.step cm op).bind fun s' => inboundRun cm s' ops

/-- The state `riocm_add_mport` leaves for a new `cm_dev` on host `n`: the pool filled,
the mailbox holding its buffers, nothing queued, the tasklet not scheduled. -/
def Inbound.init (n : Node) (kmalloc : Nat → Option Ptr) : Inbound :=
  ⟨n, CmRx.init kmalloc, Mailbox.init kmalloc, [], false, none⟩

/-- The pool and the mailbox agree, and on a running mport a message waits only while the
tasklet is scheduled or running. -/
structure InboundPathInv (cm : CmDev) (s : Inbound) : Prop where
  agree : InboundInv s.rx s.mb
  pending : cm.mport.running → s.mb.filled ≠ [] → s.sched ∨ s.turn.isSome

theorem InboundInv.take_eq {rx rx1 : CmRx} {mb mb1 : Mailbox} (h : InboundInv rx mb)
    {kmalloc : Nat → Option Ptr} {hdr : RioChChanHdr}
    (ht : ibmsgTake rx mb kmalloc = some (hdr, rx1, mb1)) :
    InboundInv rx1 mb1 ∧ mb1.filled.length + 1 = mb.filled.length := by
  rcases hf : mb.filled with _ | ⟨⟨b, hdr'⟩, rest⟩
  · rw [ibmsgTake_eq_none.2 hf] at ht; cases ht
  obtain ⟨rx', ht', h'⟩ := h.take kmalloc hf
  rw [ht] at ht'
  cases ht'
  exact ⟨h', rfl⟩

theorem InboundPathInv.step {cm : CmDev} {s s' : Inbound} (h : InboundPathInv cm s)
    {op : InboundOp} (hs : s.step cm op = some s') : InboundPathInv cm s' := by
  cases op with
  | host op =>
    obtain ⟨_, -, rfl⟩ := Option.map_eq_some'.1 hs
    exact ⟨h.agree, h.pending⟩
  | arrive b hdr =>
    simp only [Inbound.step] at hs
    split at hs
    · cases hs; exact h
    · cases hs
      exact ⟨h.agree.arrive ‹_›, fun hr _ => .inl (by simp [hr])⟩
  | start =>
    simp only [Inbound.step] at hs
    split_ifs at hs with hsch hr
    · cases hs; exact ⟨h.agree, fun _ _ => .inr rfl⟩
    · cases hs; exact ⟨h.agree, fun hr' => absurd hr' hr⟩
    · cases hs; exact h
  | turn t =>
    simp only [Inbound.step] at hs
    split at hs
    · cases hs; exact h
    split_ifs at hs
    · split at hs
      · cases hs
        exact ⟨h.agree, fun _ hne => absurd (ibmsgTake_eq_none.1 ‹_›) hne⟩
      · cases hs
        exact ⟨(h.agree.take_eq ‹_›).1, fun _ _ => .inr rfl⟩
    · cases hs; exact ⟨h.agree, fun _ _ => .inl rfl⟩
  | work allocReq out =>
    simp only [Inbound.step] at hs
    split at hs
    · cases hs; exact h
    · obtain ⟨_, -, rfl⟩ := Option.map_eq_some'.1 hs
      exact ⟨h.agree, h.pending⟩

theorem InboundPathInv.run {cm : CmDev} : ∀ (ops : List InboundOp) {s s' : Inbound},
    InboundPathInv cm s → inboundRun cm s ops = some s' → InboundPathInv cm s'
  | [], _, _, h, hr => by cases hr; exact h
  | op :: ops, s, _, h, hr => by
    obtain ⟨s1, hs, hr'⟩ := Option.bind_eq_some.1 hr
    exact InboundPathInv.run ops (h.step hs) hr'

/-- The inbound path of a `cm_dev` over every interleaving of host operations, message
arrivals, turns of `rx_tasklet` and runs of the worker of `riocm_wq`, from the state
`riocm_add_mport` leaves (any host, any allocation failing). The buffers `rx_buf` records
are, with their multiplicities, the buffers the mailbox holds; `rx_slots` counts the free
entries, so that it and the buffers held make 128; the buffer of every waiting message is
recorded, so `riocm_rx_get_msg` never warns of a missing record; `riocm_rx_free` at
removal frees exactly the buffers the mailbox holds; and, the mport running, a message
waits only while the tasklet is scheduled or running. -/
theorem inboundRun_conserves (cm : CmDev) (n : Node) (kmalloc : Nat → Option Ptr)
    (ops : List InboundOp) {s : Inbound}
    (hs : inboundRun cm (Inbound.init n kmalloc) ops = some s) :
    (recorded s.rx.rxBuf : Multiset Ptr) = s.mb.held ∧
      s.rx.rxSlots = nullCount s.rx.rxBuf ∧
      s.rx.rxSlots + s.mb.posted.length + s.mb.filled.length = riocmRxRingSize ∧
      (∀ p ∈ s.mb.filled, ∃ i < riocmRxRingSize, s.rx.rxBuf i = some p.1) ∧
      ((riocmRxFree s.rx).2 : Multiset Ptr) = s.mb.held ∧
      (cm.mport.running → s.mb.filled ≠ [] → s.sched ∨ s.turn.isSome) := by
  have h := InboundPathInv.run ops ⟨inboundInv_init kmalloc, fun _ hne => absurd rfl hne⟩ hs
  refine ⟨h.agree.conserve, h.agree.pool, h.agree.slots, fun p hp => ?_, ?_, h.pending⟩
  · obtain ⟨i, hi, hb⟩ := List.mem_filterMap.1 (h.agree.mem_recorded hp)
    exact ⟨i, List.mem_range.1 hi, hb⟩
  · rw [(riocmRxFree_spec s.rx).1, h.agree.conserve]

/-- On a fresh `cm_dev` given nine buffers, a request and a data message arrive; the
tasklet takes both, queueing the request on `riocm_wq`, and the worker handles it. -/
theorem inboundRun_conserves_twoMessages :
    let cm : CmDev := ⟨0, ⟨100, 1, 5, true⟩, [], 0⟩
    let t : IbmsgTurn := ⟨fun _ => none, true⟩
    ∃ s, inboundRun cm (Inbound.init (Node.init 1 256) fun j => if j < 9 then some (1000 + j) else none)
        [.arrive 1000 ⟨5, 7, 1, 1, rioCmChan, RioCmChop.connReq.toNat, 1, 2, 0, 0⟩,
         .arrive 1001 ⟨5, 7, 1, 1, rioCmChan, RioCmChop.dataMsg.toNat, 2, 1, 100, 0⟩,
         .start, .turn t, .turn t, .turn t, .work true .sent] = some s ∧
      (recorded s.rx.rxBuf : Multiset Ptr) = s.mb.held ∧
      s.rx.rxSlots = nullCount s.rx.rxBuf ∧
      s.rx.rxSlots + s.mb.posted.length + s.mb.filled.length = riocmRxRingSize ∧
      (∀ p ∈ s.mb.filled, ∃ i < riocmRxRingSize, s.rx.rxBuf i = some p.1) ∧
      ((riocmRxFree s.rx).2 : Multiset Ptr) = s.mb.held ∧
      (cm.mport.running → s.mb.filled ≠ [] → s.sched ∨ s.turn.isSome) := by
  intro cm t
  obtain ⟨s, hs⟩ : ∃ s, inboundRun cm (Inbound.init (Node.init 1 256)
      fun j => if j < 9 then some (1000 + j) else none)
      [.arrive 1000 ⟨5, 7, 1, 1, rioCmChan, RioCmChop.connReq.toNat, 1, 2, 0, 0⟩,
       .arrive 1001 ⟨5, 7, 1, 1, rioCmChan, RioCmChop.dataMsg.toNat, 2, 1, 100, 0⟩,
       .start, .turn t, .turn t, .turn t, .work true .sent] = some s := ⟨_, rfl⟩
  exact ⟨s, hs, inboundRun_conserves cm _ _ _ hs⟩



/-! ## Runs of `rx_tasklet` -/

/-- What the tasklet of a `cm_dev` works on: the host, the pool, the mailbox, and the work
items of the `cm_dev` waiting on `riocm_wq`, oldest first. -/
structure RxPath where
  node : Node
  rx : CmRx
  mb : Mailbox
  wq : List RioChChanHdr

/-- The loop of `rio_ibmsg_handler` from turn `i`, with `k = 8 - i` turns left; `env i`
answers for turn `i`. Returns the turn the loop stopped at. -/
def ibmsgLoop (env : Nat → IbmsgTurn) (i : Nat) : Nat → RxPath → RxPath × Nat
  | 0, p => (p, i)
  | k + 1, p =>
    match ibmsgTake p.rx p.mb (env i).kmalloc with
    | none => (p, i)
    | some (hdr, rx1, mb1) =>
      let d := ibmsgDispatch p.node hdr (env i).allocWork
      ibmsgLoop env (i + 1) k ⟨d.1, rx1, mb1, p.wq ++ d.2⟩

/-- `rio_ibmsg_handler(cm)`, the function of `cm->rx_tasklet`: nothing if the mport is not
running; otherwise at most 8 messages, and whether the tasklet is scheduled again, which
it is when all 8 turns ran. -/
def rxTasklet (cm : CmDev) (env : Nat → IbmsgTurn) (p : RxPath) : RxPath × Bool :=
  if !cm.mport.running then (p, false)
  else let r := ibmsgLoop env 0 8 p; (r.1, r.2 == 8)

/-- The headers among the messages `ps`, taken by turns `i, i + 1, …`, that go to
`riocm_wq`: the channel messages other than data whose work item is allocated. -/
def ibmsgQueued (env : Nat → IbmsgTurn) : Nat → List (Ptr × RioChChanHdr) → List RioChChanHdr
  | _, [] => []
  | i, (_, hdr) :: ps =>
    (if hdr.type = rioCmChan ∧ hdr.chOp ≠ RioCmChop.dataMsg.toNat ∧ (env i).allocWork then [hdr]
      else []) ++ ibmsgQueued env (i + 1) ps

/-- The host once `rio_rx_data_handler` has taken the data messages among `ps`, oldest
first. -/
def ibmsgDataDone (n : Node) (ps : List (Ptr × RioChChanHdr)) : Node :=
  ((ps.map Prod.snd).filter fun hdr =>
    hdr.type = rioCmChan ∧ hdr.chOp = RioCmChop.dataMsg.toNat).foldl
      (fun n hdr => (rioRxDataHandler n hdr).1) n

/-- The mailbox once turns `i, …, i + m - 1` have each taken a message and given the
mailbox the buffer of their refill, if its allocation succeeded. -/
def Mailbox.afterTurns (mb : Mailbox) (env : Nat → IbmsgTurn) (i m : Nat) : Mailbox :=
  ⟨mb.posted ++ (List.range' i m).filterMap (fun j => (env j).kmalloc 0), mb.filled.drop m⟩

theorem Mailbox.afterTurns_zero (mb : Mailbox) (env : Nat → IbmsgTurn) (i : Nat) :
    mb.afterTurns env i 0 = mb := by
  simp [Mailbox.afterTurns]

theorem Mailbox.afterTurns_succ {mb : Mailbox} {b : Ptr} {hdr : RioChChanHdr}
    {rest : List (Ptr × RioChChanHdr)} (hf : mb.filled = (b, hdr) :: rest)
    (env : Nat → IbmsgTurn) (i m : Nat) :
    Mailbox.afterTurns ⟨mb.posted ++ ((env i).kmalloc 0).toList, rest⟩ env (i + 1) m =
      mb.afterTurns env i (m + 1) := by
  simp only [Mailbox.afterTurns, hf, List.range'_succ, List.drop_succ_cons, Mailbox.mk.injEq,
    and_true]
  cases hk : (env i).kmalloc 0 <;> simp [List.filterMap_cons, hk]

/-- One message dispatched: the data handler's host, and the queue grown by what the
message adds to `ibmsgQueued`. -/
theorem ibmsgDispatch_eq (n : Node) (b : Ptr) (hdr : RioChChanHdr) (allocWork : Bool) :
    ibmsgDispatch n hdr allocWork =
      (ibmsgDataDone n [(b, hdr)],
        if hdr.type = rioCmChan ∧ hdr.chOp ≠ RioCmChop.dataMsg.toNat ∧ allocWork then [hdr]
        else []) := by
  unfold ibmsgDispatch ibmsgDataDone
  split_ifs <;> simp_all

theorem ibmsgDataDone_cons (n : Node) (q : Ptr × RioChChanHdr) (ps : List (Ptr × RioChChanHdr)) :
    ibmsgDataDone n (q :: ps) = ibmsgDataDone (ibmsgDataDone n [q]) ps := by
  unfold ibmsgDataDone
  simp only [List.map_cons, List.filter_cons, List.map_nil, List.filter_nil]
  split_ifs <;> rfl

/-- The loop run for `k` more turns from turn `i` takes the first `min(k, waiting)`
messages, oldest first, and gives the mailbox one buffer per refill whose allocation
succeeds, the pool and the mailbox staying in agreement. The host is left as
`rio_rx_data_handler` leaves it after the data messages among them, in order, and the
others go to `riocm_wq`, in order, when their work item is allocated. -/
theorem ibmsgLoop_spec (env : Nat → IbmsgTurn) :
    ∀ (k i : Nat) (p : RxPath), InboundInv p.rx p.mb →
    ∃ rx', ibmsgLoop env i k p =
        (⟨ibmsgDataDone p.node (p.mb.filled.take k), rx',
          p.mb.afterTurns env i (min k p.mb.filled.length),
          p.wq ++ ibmsgQueued env i (p.mb.filled.take k)⟩, i + min k p.mb.filled.length) ∧
      InboundInv rx' (p.mb.afterTurns env i (min k p.mb.filled.length))
  | 0, i, p, h => ⟨p.rx, by simp [ibmsgLoop, ibmsgDataDone, ibmsgQueued,
      Mailbox.afterTurns_zero], by simpa [Mailbox.afterTurns_zero] using h⟩
  | k + 1, i, p, h => by
    rcases hf : p.mb.filled with _ | ⟨⟨b, hdr⟩, rest⟩
    · have ht : ibmsgTake p.rx p.mb (env i).kmalloc = none := ibmsgTake_eq_none.2 hf
      exact ⟨p.rx, by simp [ibmsgLoop, ht, ibmsgDataDone, ibmsgQueued, Mailbox.afterTurns_zero],
        by simpa [Mailbox.afterTurns_zero] using h⟩
    obtain ⟨rx1, ht, h1⟩ := h.take (env i).kmalloc hf
    obtain ⟨rx', hl, h'⟩ := ibmsgLoop_spec env k (i + 1)
      ⟨(ibmsgDispatch p.node hdr (env i).allocWork).1, rx1,
        ⟨p.mb.posted ++ ((env i).kmalloc 0).toList, rest⟩,
        p.wq ++ (ibmsgDispatch p.node hdr (env i).allocWork).2⟩ h1
    have hm : min (k + 1) (rest.length + 1) = min k rest.length + 1 := Nat.succ_min_succ _ _
    rw [Mailbox.afterTurns_succ hf] at hl h'
    refine ⟨rx', ?_, by simpa only [List.length_cons, hm] using h'⟩
    rw [ibmsgLoop, ht]
    dsimp only
    rw [hl, List.length_cons, hm, List.take_succ_cons, ibmsgDataDone_cons,
      ibmsgDispatch_eq p.node b, ibmsgQueued, List.append_assoc, Nat.add_right_comm i 1,
      Nat.add_assoc]

/-- The test `i == 8` after the loop, on `i = min(8, waiting)`. -/
theorem min_beq_eq_decide_le (a b : Nat) : (min a b == a) = decide (a ≤ b) := by
  rcases Nat.le_total a b with h | h
  · simp [h, Nat.min_eq_left h]
  · rcases Nat.eq_or_lt_of_le h with rfl | h'
    · simp
    · simp [Nat.min_eq_right h, Nat.ne_of_lt h', Nat.not_le.2 h']

/-- `rio_ibmsg_handler(cm)` on a running mport takes the first `min(8, waiting)` messages,
oldest first, and gives the mailbox one buffer back per message whose refill allocation
succeeds, the pool and the mailbox staying in agreement. It hands the data messages among
them to `rio_rx_data_handler` at once, in order, and queues the others on `riocm_wq`, in
order, when their work item is allocated; it schedules itself again exactly when 8 or
more messages were waiting. -/
theorem rxTasklet_spec (cm : CmDev) (env : Nat → IbmsgTurn) (p : RxPath)
    (hrun : cm.mport.running) (h : InboundInv p.rx p.mb) :
    ∃ rx', rxTasklet cm env p =
        (⟨ibmsgDataDone p.node (p.mb.filled.take 8), rx',
          p.mb.afterTurns env 0 (min 8 p.mb.filled.length),
          p.wq ++ ibmsgQueued env 0 (p.mb.filled.take 8)⟩, decide (8 ≤ p.mb.filled.length)) ∧
      InboundInv rx' (p.mb.afterTurns env 0 (min 8 p.mb.filled.length)) := by
  obtain ⟨rx', hl, h'⟩ := ibmsgLoop_spec env 8 0 p h
  refine ⟨rx', ?_, h'⟩
  simp [rxTasklet, hrun, hl, min_beq_eq_decide_le]

/-- A request and a data message wait in the mailbox of a fresh `cm_dev`: the tasklet hands
the data message to `rio_rx_data_handler` and queues the request. -/
theorem rxTasklet_spec_twoMessages :
    let cm : CmDev := ⟨0, ⟨100, 1, 5, true⟩, [], 0⟩
    let env : Nat → IbmsgTurn := fun _ => ⟨fun _ => none, true⟩
    ∃ s, inboundRun cm (Inbound.init (Node.init 1 256) fun j => if j < 9 then some (1000 + j) else none)
        [.arrive 1000 ⟨5, 7, 1, 1, rioCmChan, RioCmChop.connReq.toNat, 1, 2, 0, 0⟩,
         .arrive 1001 ⟨5, 7, 1, 1, rioCmChan, RioCmChop.dataMsg.toNat, 2, 1, 100, 0⟩] = some s ∧
      cm.mport.running ∧ InboundInv s.rx s.mb ∧
      ∃ rx', rxTasklet cm env ⟨s.node, s.rx, s.mb, s.wq⟩ =
          (⟨ibmsgDataDone s.node (s.mb.filled.take 8), rx',
            s.mb.afterTurns env 0 (min 8 s.mb.filled.length),
            s.wq ++ ibmsgQueued env 0 (s.mb.filled.take 8)⟩, decide (8 ≤ s.mb.filled.length)) ∧
        InboundInv rx' (s.mb.afterTurns env 0 (min 8 s.mb.filled.length)) := by
  intro cm env
  obtain ⟨s, hs⟩ : ∃ s, inboundRun cm (Inbound.init (Node.init 1 256)
      fun j => if j < 9 then some (1000 + j) else none)
      [.arrive 1000 ⟨5, 7, 1, 1, rioCmChan, RioCmChop.connReq.toNat, 1, 2, 0, 0⟩,
       .arrive 1001 ⟨5, 7, 1, 1, rioCmChan, RioCmChop.dataMsg.toNat, 2, 1, 100, 0⟩] = some s :=
    ⟨_, rfl⟩
  have h := (InboundPathInv.run _ ⟨inboundInv_init _, fun _ hne => absurd rfl hne⟩ hs).agree
  exact ⟨s, hs, rfl, h, rxTasklet_spec cm env ⟨s.node, s.rx, s.mb, s.wq⟩ rfl h⟩



/-- `rx_tasklet` run again each time it schedules itself, no message arriving in between:
`env j` answers for run `j`, and `fuel` bounds the runs. Returns the number of runs. -/
def rxTaskletChain (cm : CmDev) (env : Nat → Nat → IbmsgTurn) (j : Nat) :
    Nat → RxPath → RxPath × Nat
  | 0, p => (p, j)
  | fuel + 1, p =>
    let r := rxTasklet cm (env j) p
    if r.2 then rxTaskletChain cm env (j + 1) fuel r.1 else (r.1, j + 1)

/-- No message is stranded: on a running mport, with no message arriving, the runs of
`rx_tasklet` that reschedule one another take every waiting message, in
`⌊waiting / 8⌋ + 1` runs, the last of which does not reschedule. -/
theorem rxTaskletChain_drains (cm : CmDev) (env : Nat → Nat → IbmsgTurn)
    (hrun : cm.mport.running) :
    ∀ (fuel j : Nat) (p : RxPath), InboundInv p.rx p.mb → p.mb.filled.length / 8 < fuel →
    ∃ p', rxTaskletChain cm env j fuel p = (p', j + p.mb.filled.length / 8 + 1) ∧
      p'.mb.filled = [] ∧ InboundInv p'.rx p'.mb
  | 0, _, _, _, hf => absurd hf (Nat.not_lt_zero _)
  | fuel + 1, j, p, h, hf => by
    obtain ⟨rx1, hstep, h1⟩ := rxTasklet_spec cm (env j) p hrun h
    by_cases h8 : 8 ≤ p.mb.filled.length
    · have hlen : (p.mb.afterTurns (env j) 0 (min 8 p.mb.filled.length)).filled.length =
          p.mb.filled.length - 8 := by simp [Mailbox.afterTurns, h8]
      obtain ⟨p', hc, he, h'⟩ := rxTaskletChain_drains cm env hrun fuel (j + 1)
        ⟨ibmsgDataDone p.node (p.mb.filled.take 8), rx1,
          p.mb.afterTurns (env j) 0 (min 8 p.mb.filled.length),
          p.wq ++ ibmsgQueued (env j) 0 (p.mb.filled.take 8)⟩ h1 (by simp only [hlen]; omega)
      refine ⟨p', ?_, he, h'⟩
      simp only [rxTaskletChain, hstep, h8, decide_True, if_true, hc, hlen]
      congr 2
      omega
    · refine ⟨⟨ibmsgDataDone p.node (p.mb.filled.take 8), rx1,
          p.mb.afterTurns (env j) 0 (min 8 p.mb.filled.length),
          p.wq ++ ibmsgQueued (env j) 0 (p.mb.filled.take 8)⟩, ?_,
        by simp [Mailbox.afterTurns, min_eq_right (Nat.le_of_not_le h8)], h1⟩
      simp only [rxTaskletChain, hstep, h8, decide_False, Bool.false_eq_true, if_false]
      congr 2
      omega

/-- Nine data messages wait in the mailbox of a fresh `cm_dev`: two runs of the tasklet
take them all. -/
theorem rxTaskletChain_drains_nineMessages :
    let cm : CmDev := ⟨0, ⟨100, 1, 5, true⟩, [], 0⟩
    let env : Nat → Nat → IbmsgTurn := fun _ _ => ⟨fun _ => none, true⟩
    ∃ s, inboundRun cm (Inbound.init (Node.init 1 256) fun j => if j < 9 then some (1000 + j) else none)
        ((List.range 9).map fun i =>
          .arrive (1000 + i) ⟨5, 7, 1, 1, rioCmChan, RioCmChop.dataMsg.toNat, 2, 1, 100, 0⟩) =
        some s ∧
      cm.mport.running ∧ InboundInv s.rx s.mb ∧ s.mb.filled.length / 8 < 2 ∧
      ∃ p', rxTaskletChain cm env 0 2 ⟨s.node, s.rx, s.mb, s.wq⟩ =
          (p', 0 + s.mb.filled.length / 8 + 1) ∧ p'.mb.filled = [] ∧ InboundInv p'.rx p'.mb := by
  intro cm env
  obtain ⟨s, hs, hl⟩ : ∃ s, inboundRun cm (Inbound.init (Node.init 1 256)
      fun j => if j < 9 then some (1000 + j) else none)
      ((List.range 9).map fun i =>
        .arrive (1000 + i) ⟨5, 7, 1, 1, rioCmChan, RioCmChop.dataMsg.toNat, 2, 1, 100, 0⟩) =
      some s ∧ s.mb.filled.length / 8 < 2 := ⟨_, rfl, by decide⟩
  have h := (InboundPathInv.run _ ⟨inboundInv_init _, fun _ hne => absurd rfl hne⟩ hs).agree
  exact ⟨s, hs, rfl, h, hl, rxTaskletChain_drains cm env rfl 2 0 ⟨s.node, s.rx, s.mb, s.wq⟩ h hl⟩



end RioCm
