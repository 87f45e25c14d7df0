import RioCm.Buffers

/-!
# Node — the operations of the channel manager on one host

Every entry point of `rio_cm` that reads or changes the registry or the device lists, as
the code computes it: the calls of the character device (`cm_chan_*`,
`riocm_cdev_release`), the inbound message handlers, and the callbacks that add and
remove remote devices and mports. Each runs atomically here; an operation that would
sleep waiting for the network ends the way the environment says (`RxWaitEnd`), and
`Network` interleaves the messages between operations.

`riocm_ch_connect` is modelled up to the return of `riocm_post_send`; the wait for the
answer that follows is the subject of `Connect`.
-/

namespace RioCm

/-- What an operation returns besides the new state: its return value (0 for a `void`
function), the packets it handed to the transport, the addresses of the channels it passed
to `riocm_ch_close`, and what it copied back to the caller's argument. -/
structure OpOut where
  ret : Int
  sent : List Packet
  closed : List Nat
  user : List Nat

/-- An operation that sends nothing, closes nothing and copies nothing back. -/
def OpOut.ofRet (ret : Int) : OpOut := ⟨ret, [], [], []⟩

/-- `MAX_SCHEDULE_TIMEOUT`, the timeout of a wait with no limit. -/
def maxScheduleTimeout : Nat := 0x7fffffffffffffff

/-- `riocm_comp_exch(ch, comp, exch)`: the state becomes `exch` if it is `comp`. -/
def RioChannel.compExch (comp exch : RioCmState) (ch : RioChannel) : RioChannel :=
  if ch.state = comp then { ch with state := exch } else ch

/-! ## Channel calls -/

/-- `cm_chan_create(filp, arg)`: `riocm_ch_create` on the number the caller passes, the
new channel owned by `filp`; -1 if no channel could be made. -/
def cmChanCreate (n : Node) (filp chNum : Nat) (alloc : Bool) : Node × Int :=
  match riocmChAlloc n chNum alloc with
  | (n', .ok ch) => (n'.setChan ch.id { ch with filp := filp }, 0)
  | (n', .error _) => (n', -1)

/-- The number `cm_chan_create` writes back to the caller (`put_user`): that of the new
channel. -/
def cmChanCreateUser (n : Node) (chNum : Nat) (alloc : Bool) : List Nat :=
  match (riocmChAlloc n chNum alloc).2 with
  | .ok ch => [ch.id]
  | .error _ => []

/-- `cm_chan_close(filp, arg)`: the channel is taken out of `ch_idr` and closed. A channel
of another file is refused; a missing one is not an error. -/
def cmChanClose (n : Node) (filp chNum : Nat) (out : SendOutcome) (intr : Bool) :
    Option (Node × OpOut) :=
  match n.chIdr chNum with
  | none => some (n, .ofRet 0)
  | some ch =>
    if ch.filp ≠ filp then some (n, .ofRet (-Errno.inval))
    else (riocmChClose n.cmbox ch out intr).map fun r =>
      ((n.removeChans [ch.id]).park r.2.parked, ⟨r.1, r.2.sent, [ch.ptr], []⟩)

/-- `riocm_ch_bind(ch_id, mport_id, context)`: a channel in IDLE is bound to the first
running mport numbered `mport_id`. -/
def riocmChBind (n : Node) (chId mportId : Nat) : Node × Int :=
  match n.cmDevList.find? (fun cm => cm.mport.id = mportId && cm.mport.running) with
  | none => (n, -Errno.nodev)
  | some cm =>
    match n.getChannel chId with
    | none => (n, -Errno.inval)
    | some (n1, ch) =>
      if ch.state ≠ .idle then (n1.putChannel chId, -Errno.inval)
      else
        let bind := fun c : RioChannel =>
          { c with cmdev := some cm.ptr, locDestid := cm.mport.hostDeviceid, state := .chanBound }
        ((n1.modifyChan chId bind).putChannel chId, 0)

/-- `riocm_ch_listen(ch_id)`: CHAN_BOUND to LISTEN. The reference is put back whether or
not a channel was found: with none, `riocm_put_channel(NULL)` dereferences `NULL`. -/
def riocmChListen (n : Node) (chId : Nat) : Option (Node × Int) :=
  match n.getChannel chId with
  | none => none
  | some (n1, ch) =>
    if ch.state = .chanBound then
      some ((n1.modifyChan chId fun c => { c with state := .listen }).putChannel chId, 0)
    else some (n1.putChannel chId, -Errno.inval)

/-- `riocm_ch_connect(loc_ch, mport_id, rem_destid, rem_ch)` up to the return of
`riocm_post_send`: the first mport numbered `mport_id`, the first of its peers with
destination ID `rem_destid`, and the channel moved from IDLE to CONNECT and given the
mport, the peer and the remote channel number. A request refused with another code than
-EBUSY moves the channel back to IDLE. `stack` is what the stack held where the header is
built; a parked request points into this stack frame. The return value is that of
`riocm_post_send`. -/
def riocmChConnect (n : Node) (locCh mportId remDestid remCh : Nat) (stack : RioChChanHdr)
    (out : SendOutcome) : Node × OpOut :=
  match n.cmDevList.find? (fun cm => cm.mport.id = mportId) with
  | none => (n, .ofRet (-Errno.nodev))
  | some cm =>
    match cm.peers.find? (fun p => p.destid = remDestid) with
    | none => (n, .ofRet (-Errno.nodev))
    | some rdev =>
      match n.getChannel locCh with
      | none => (n, .ofRet (-Errno.nodev))
      | some (n1, ch) =>
        if ch.state ≠ .idle then (n1.putChannel locCh, .ofRet (-Errno.inval))
        else
          let n2 := n1.modifyChan locCh fun c =>
            { c with state := .connect, cmdev := some cm.ptr, rdev := some rdev,
                     locDestid := cm.mport.hostDeviceid, remChannel := remCh }
          let hdr := connReqHdr stack n.cmbox cm.mport.hostDeviceid remDestid remCh locCh
          let r := postSendOut cm.ptr rdev hdr .borrowed true out
          let n3 := if r.1 ≠ 0 ∧ r.1 ≠ -Errno.busy then
            n2.modifyChan locCh (RioChannel.compExch .connect .idle) else n2
          ((n3.putChannel locCh).park r.2.parked, ⟨r.1, r.2.sent, [], []⟩)

/-- What `riocm_wait_for_connect_req` returns for each ending. -/
def RxWaitEnd.reqErr : RxWaitEnd → Int
  | .signal => -Errno.intr
  | .timeout => -Errno.time
  | .left => -Errno.canceled

/-- The channel `riocm_ch_accept` sets up from the channel `c` it allocated, for the request
`req` queued on the listener `ch`. -/
@[simps]
def acceptChan (c ch : RioChannel) (req : ConnReq) : RioChannel :=
  { c with cmdev := ch.cmdev, locDestid := ch.locDestid, remDestid := req.destid,
           remChannel := req.chan }

/-- `cm_chan_accept(filp, arg)` with `riocm_ch_accept`: the first request queued on a
listening channel becomes a new channel, CONNECTED to the requester, acknowledged, and
owned by `filp`; its number is copied back to the caller. With no request queued the call
fails at once (`timeout` 0, -EAGAIN) or its wait ends as `w` says. A requester missing from
the mport's peer list gets no channel: the new one is put back. `stack` is what the stack
of `riocm_send_ack` held where the CONN_ACK is built. -/
def cmChanAccept (n : Node) (filp chId timeout : Nat) (w : RxWaitEnd) (alloc : Bool)
    (stack : RioChChanHdr) (out : SendOutcome) : Option (Node × OpOut) :=
  match n.getChannel chId with
  | none => some (n, .ofRet (-Errno.inval))
  | some (n1, ch) =>
    if ch.state ≠ .listen then some (n1.putChannel chId, .ofRet (-Errno.inval))
    else match ch.acceptQueue with
    | [] => some (n1.putChannel chId, .ofRet (if timeout = 0 then -Errno.again else w.reqErr))
    | req :: reqs =>
      match riocmChAlloc n1 0 alloc with
      | (_, .error _) => some (n1.putChannel chId, .ofRet (-Errno.nomem))
      | (n2, .ok c) =>
        let newCh := acceptChan c ch req
        let n3 := (n2.modifyChan chId fun c => { c with acceptQueue := reqs }).putChannel chId
        match ch.cmdev.bind fun p => n3.cmDevList.find? (·.ptr = p) with
        | none => none
        | some cm =>
          match cm.peers.find? (·.destid = req.destid) with
          | none => some (n3.setChan newCh.id newCh.put, .ofRet (-Errno.nodev))
          | some rdev =>
            let newCh := { newCh with rdev := some rdev, state := .connected }
            (riocmPostSendPkt newCh.cmdev newCh.rdev (connAckHdr stack n.cmbox newCh) .borrowed
              true out).map fun r =>
                ((n3.setChan newCh.id { newCh with filp := filp }).park r.2.parked,
                  ⟨0, r.2.sent, [], [newCh.id]⟩)

/-- `riocm_ch_send(ch_id, buf, len)`: a data message on a CONNECTED channel, its header
written over the start of the buffer (`buf`, `none` for `NULL`). -/
def riocmChSend (n : Node) (chId : Nat) (buf : Option RioChChanHdr) (len : Nat)
    (out : SendOutcome) : Option (Node × OpOut) :=
  match buf with
  | none => some (n, .ofRet (-Errno.inval))
  | some bytes =>
    if chId = 0 ∨ len = 0 ∨ rioMaxMsgSize < len then some (n, .ofRet (-Errno.inval))
    else match n.getChannel chId with
    | none => some (n, .ofRet (-Errno.nodev))
    | some (n1, ch) =>
      if ch.state ≠ .connected then some (n1.putChannel chId, .ofRet (-Errno.again))
      else (riocmPostSendPkt ch.cmdev ch.rdev (dataHdr bytes n.cmbox ch len) .borrowed false
        out).map fun r => ((n1.putChannel chId).park r.2.parked, ⟨r.1, r.2.sent, [], []⟩)

/-- `cm_chan_msg_send(arg)`: a `kmalloc` of `RIO_MAX_MSG_SIZE` bytes (`alloc`), the copy of
`msg.size` bytes of the user's message into it (`cmChanMsgSendBuf`), then `riocm_ch_send`
on the buffer, which reads the header from its first 20 bytes. `buf i` is byte `i` of the
buffer after the copy: the message's below `msg.size`, what the allocation held beyond. A
copy past the end of the buffer is undefined. -/
def cmChanMsgSend (n : Node) (chNum len : Nat) (alloc : Bool) (buf : Nat → Nat)
    (out : SendOutcome) : Option (Node × OpOut) :=
  if !alloc then some (n, .ofRet (-Errno.nomem))
  else if (cmChanMsgSendBuf len alloc buf).InBounds then
    riocmChSend n chNum (RioChChanHdr.ofBytes ((List.range 20).map fun i => buf i % 256)) len out
  else none

/-- `cm_chan_msg_rcv(arg)`: `riocm_ch_receive` on the channel; the buffer it returns is
copied out and freed with `riocm_ch_free_rxbuf`. -/
def cmChanMsgRcv (n : Node) (chNum : Nat) (w : RxWaitEnd) : Node × Int :=
  if chNum = 0 then (n, -Errno.inval)
  else match n.getChannel chNum with
  | none => (n, -Errno.nodev)
  | some (n1, ch) =>
    let o := riocmChReceive ch.state ch.rxRing w
    let ring := if o.ret = 0 then (riocmChFreeRxbuf o.ring o.buf).1 else o.ring
    ((n1.modifyChan chNum fun c => { c with rxRing := ring }).putChannel chNum, o.ret)

/-! ## Sweeps -/

/-- The registered channels for which `p` holds, in increasing number: the order of
`idr_for_each_entry`. Irreducible, so that no unification runs the loop over all
numbers. -/
@[irreducible]
def Node.sweep (n : Node) (p : RioChannel → Bool) : List RioChannel :=
  (List.range (riocmMaxChnum + 1)).filterMap fun k => (n.chIdr k).filter p

/-- The end of a sweep: the channels `chs` it found, changed by `f`, are taken out of
`ch_idr` (`idr_remove(&ch_idr, ch->id)`) and then closed in the reverse order
(`list_add` puts each at the head of the list). -/
def Node.releaseChans (n : Node) (chs : List RioChannel) (f : RioChannel → RioChannel)
    (out : Nat → SendOutcome) : Option (Node × OpOut) :=
  let victims := (chs.map f).reverse
  (closeAll n.cmbox out victims).map fun tx =>
    ((n.removeChans (chs.map (·.id))).park tx.parked, ⟨0, tx.sent, victims.map (·.ptr), []⟩)

/-- `riocm_cdev_release(inode, filp)`: every channel the file owns is closed. -/
def riocmCdevRelease (n : Node) (filp : Nat) (out : Nat → SendOutcome) :
    Option (Node × OpOut) :=
  n.releaseChans (n.sweep fun ch => ch.filp = filp) id out

/-! ## Devices and mports -/

/-- `riocm_add_dev(dev, sif)`: a device able to carry channel messages joins the peers
of the mport it was found on. -/
def riocmAddDev (n : Node) (rdev : RioDev) (alloc : Bool) : Node × Int :=
  if !rdev.cmCapable then (n, 0)
  else if !alloc then (n, -Errno.nomem)
  else match n.cmDevList.find? (·.mport.ptr = rdev.hport) with
  | none => (n, -Errno.nodev)
  | some cm =>
    let cm' := { cm with peers := cm.peers ++ [rdev], npeers := cm.npeers + 1 }
    ({ n with cmDevList := n.cmDevList.replace cm cm' }, 0)

/-- `riocm_remove_dev(dev, sif)`: the device leaves the peers of its mport, and every
channel to it is closed, marked DISCONNECT first unless the device is shutting down. -/
def riocmRemoveDev (n : Node) (rdev : RioDev) (out : Nat → SendOutcome) :
    Option (Node × OpOut) :=
  if !rdev.cmCapable then some (n, .ofRet 0)
  else match n.cmDevList.find? (·.mport.ptr = rdev.hport) with
  | none => some (n, .ofRet 0)
  | some cm =>
    match cm.peers.find? (·.ptr = rdev.ptr) with
    | none => some (n, .ofRet 0)
    | some p =>
      let cm' := { cm with peers := cm.peers.erase p, npeers := cm.npeers - 1 }
      let n1 := { n with cmDevList := n.cmDevList.replace cm cm' }
      n1.releaseChans (n1.sweep fun ch => ch.rdev.map (·.ptr) = some rdev.ptr)
        (fun ch => if rdev.shutdown then ch else { ch with state := .disconnect }) out

/-- `riocm_add_mport(dev, class_intf)`: a new `cm_dev` for the mport, once `kzalloc`
(`alloc`) and the requests for both mailboxes (`mbox`) succeed. -/
def riocmAddMport (n : Node) (mport : RioMport) (alloc mbox : Bool) : Node × Int :=
  if !alloc then (n, -Errno.nomem)
  else if !mbox then (n, -Errno.nodev)
  else ({ n with cmDevList := n.cmDevList ++ [⟨n.nextPtr, mport, [], 0⟩],
                 nextPtr := n.nextPtr + 1 }, 0)

/-- `riocm_remove_mport(dev, class_intf)`: the mport's `cm_dev` leaves the list, and every
channel bound to it is closed. -/
def riocmRemoveMport (n : Node) (mport : RioMport) (out : Nat → SendOutcome) :
    Option (Node × OpOut) :=
  match n.cmDevList.find? (·.mport.ptr = mport.ptr) with
  | none => some (n, .ofRet 0)
  | some cm =>
    let n1 := { n with cmDevList := n.cmDevList.erase cm }
    n1.releaseChans (n1.sweep fun ch => ch.cmdev = some cm.ptr) id out

/-! ## Inbound messages -/

/-- `riocm_req_handler(cm, req_data)`: a CONN_REQ is queued on a listening channel;
`alloc` is whether the `conn_req` is allocated. -/
def riocmReqHandler (n : Node) (cm : CmDev) (hdr : RioChChanHdr) (alloc : Bool) :
    Node × Int :=
  match n.getChannel hdr.dstCh with
  | none => (n, -Errno.nodev)
  | some (n1, ch) =>
    if ch.state ≠ .listen then (n1.putChannel hdr.dstCh, -Errno.inval)
    else if !alloc then (n1.putChannel hdr.dstCh, -Errno.nomem)
    else
      ((n1.modifyChan hdr.dstCh fun c =>
        { c with acceptQueue := c.acceptQueue ++ [⟨hdr.srcId, hdr.srcCh, cm.ptr⟩] }).putChannel
          hdr.dstCh, 0)

/-- `riocm_resp_handler(resp_data)`: a CONN_ACK connects a channel in CONNECT and gives
it the remote channel number. -/
def riocmRespHandler (n : Node) (hdr : RioChChanHdr) : Node × Int :=
  if hdr.chOp ≠ RioCmChop.connAck.toNat then (n, -Errno.inval)
  else match n.getChannel hdr.dstCh with
  | none => (n, -Errno.nodev)
  | some (n1, ch) =>
    if ch.state ≠ .connect then (n1.putChannel hdr.dstCh, -Errno.inval)
    else
      ((n1.modifyChan hdr.dstCh fun c =>
        { c with state := .connected, remChannel := hdr.srcCh }).putChannel hdr.dstCh, 0)

/-- `riocm_close_handler(data)`: a CONN_CLOSE takes the channel out of `ch_idr`, marks
it DISCONNECT and closes it, whatever its state. (`out` would answer for a CONN_CLOSE of
its own, which `riocm_ch_close` does not send from DISCONNECT; its return value is
dropped.) -/
def riocmCloseHandler (n : Node) (hdr : RioChChanHdr) (out : SendOutcome) :
    Option (Node × OpOut) :=
  if hdr.chOp ≠ RioCmChop.connClose.toNat then some (n, .ofRet (-Errno.inval))
  else match n.chIdr hdr.dstCh with
  | none => some (n, .ofRet (-Errno.nodev))
  | some ch =>
    (riocmChClose n.cmbox { ch with state := .disconnect } out false).map fun r =>
      ((n.removeChans [ch.id]).park r.2.parked, ⟨0, r.2.sent, [ch.ptr], []⟩)

/-- `rio_rx_data_handler(cm, buf)`: a data message, in the inbound buffer at `nextPtr`,
goes to its channel's ring. -/
def rioRxDataHandler (n : Node) (hdr : RioChChanHdr) : Node × Int :=
  match n.getChannel hdr.dstCh with
  | none => ({ n with nextPtr := n.nextPtr + 1 }, -Errno.nodev)
  | some (n1, ch) =>
    let r := rxRingPush ch.state ch.rxRing n1.nextPtr
    (({ n1 with nextPtr := n1.nextPtr + 1 }.modifyChan hdr.dstCh fun c =>
      { c with rxRing := r.1 }).putChannel hdr.dstCh, r.2)

/-- `rio_cm_handler(work)`: a control message taken from the work queue. -/
def rioCmHandler (n : Node) (cm : CmDev) (hdr : RioChChanHdr) (alloc : Bool)
    (out : SendOutcome) : Option (Node × OpOut) :=
  if !cm.mport.running then some (n, .ofRet 0)
  else if hdr.chOp = RioCmChop.connReq.toNat then
    some ((riocmReqHandler n cm hdr alloc).1, .ofRet 0)
  else if hdr.chOp = RioCmChop.connAck.toNat then some ((riocmRespHandler n hdr).1, .ofRet 0)
  else if hdr.chOp = RioCmChop.connClose.toNat then
    (riocmCloseHandler n hdr out).map fun r => (r.1, { r.2 with ret := 0 })
  else some (n, .ofRet 0)

/-- One message taken by `rio_ibmsg_handler` from the inbound mailbox of `cm`: a data
message goes to its channel's ring; a control message is queued for `rio_cm_handler`
if its work item is allocated (`allocWork`), and handled. -/
def rioIbmsgHandler (n : Node) (cm : CmDev) (hdr : RioChChanHdr) (allocWork allocReq : Bool)
    (out : SendOutcome) : Option (Node × OpOut) :=
  if !cm.mport.running then some (n, .ofRet 0)
  else if hdr.type ≠ rioCmChan then some (n, .ofRet 0)
  else if hdr.chOp = RioCmChop.dataMsg.toNat then some ((rioRxDataHandler n hdr).1, .ofRet 0)
  else if !allocWork then some (n, .ofRet 0)
  else rioCmHandler n cm hdr allocReq out

/-! ## Transmit completions -/

/-- The drain at the end of `rio_txcq_handler`: the requests of the `cm_dev` at `c` are
taken off `tx_reqs` in order while the ring has room (`room`), each buffer handed to
`rio_add_outb_message` (the transport takes the one of turn `i` if `taken i`) and freed.
Reading and freeing a buffer that no longer exists is undefined. Returns the packets handed
over and the requests left. -/
def txcqDrainParked (c : Nat) (taken : Nat → Bool) :
    Nat → Nat → List ParkedReq → Option (List Packet × List ParkedReq)
  | 0, _, rs => some ([], rs)
  | _ + 1, _, [] => some ([], [])
  | room + 1, i, r :: rs =>
    if r.cm = c then
      match r.buf with
      | .borrowed => none
      | .heap hdr => (txcqDrainParked c taken room (i + 1) rs).map fun d =>
        ((if taken i then [⟨r.rdev, hdr⟩] else []) ++ d.1, d.2)
    else (txcqDrainParked c taken (room + 1) i rs).map fun d => (d.1, r :: d.2)

/-- `riocm_outb_msg_event(mport, dev_id, mbox, slot)`: on a running mport,
`rio_txcq_handler` acknowledges the completed messages (`TxRing`), which leaves room for
`room` more, and drains `tx_reqs`. -/
def riocmOutbMsgEvent (n : Node) (cmPtr room : Nat) (taken : Nat → Bool) :
    Option (Node × OpOut) :=
  match n.cmDevList.find? (·.ptr = cmPtr) with
  | none => some (n, .ofRet 0)
  | some cm =>
    if !cm.mport.running then some (n, .ofRet 0)
    else (txcqDrainParked cm.ptr taken room 0 n.txReqs).map fun d =>
      ({ n with txReqs := d.2 }, ⟨0, d.1, [], []⟩)

/-! ## The list ioctls -/

/-- `cm_ep_get_list_size(arg)`: the count copied back to the user. -/
def cmEpGetListSizeOut (n : Node) (arg : Nat) : OpOut :=
  match cmEpGetListSize n arg with
  | .ok c => ⟨0, [], [], [c]⟩
  | .error e => .ofRet e

/-- The end of `cm_ep_get_list` or `cm_mport_get_list`: the entries copied back to the
user; `none` if a store or the copy leaves the buffer. -/
def listIoctlOut (n : Node) (r : KBuf × Int) : Option (Node × OpOut) :=
  if r.1.InBounds then some (n, ⟨r.2, [], [], r.1.readOut⟩) else none

/-! ## Runs -/

/-- One entry point called with its arguments (an ioctl or `release` of the character
device, a callback of the RapidIO core, an inbound message handled, a transmit completion),
and the environment's answers: whether allocations succeed, what became of each message
sent, how a wait ends, what the memory a header is written over held, and how much room a
completion leaves in the ring. -/
inductive NodeOp
  | chanCreate (filp chNum : Nat) (alloc : Bool)
  | chanClose (filp chNum : Nat) (out : SendOutcome) (intr : Bool)
  | chanBind (chId mportId : Nat)
  | chanListen (chId : Nat)
  | chanAccept (filp chId waitTo : Nat) (w : RxWaitEnd) (alloc : Bool) (stack : RioChChanHdr)
      (out : SendOutcome)
  | chanConnect (chId mportId remDestid remCh : Nat) (stack : RioChChanHdr) (out : SendOutcome)
  | chanSend (chId len : Nat) (alloc : Bool) (buf : Nat → Nat) (out : SendOutcome)
  | chanReceive (chId : Nat) (w : RxWaitEnd)
  | release (filp : Nat) (out : Nat → SendOutcome)
  | addDev (rdev : RioDev) (alloc : Bool)
  | removeDev (rdev : RioDev) (out : Nat → SendOutcome)
  | addMport (mport : RioMport) (alloc mbox : Bool)
  | removeMport (mport : RioMport) (out : Nat → SendOutcome)
  | inbound (cm : Nat) (hdr : RioChChanHdr) (allocWork allocReq : Bool) (out : SendOutcome)
  | epGetListSize (arg : Nat)
  | epGetList (info0 info1 : Nat) (alloc : Bool)
  | mportGetList (entries : Nat) (alloc : Bool)
  | txDone (cm room : Nat) (taken : Nat → Bool)

/-- One operation; `none` if it dereferences `NULL` or a freed object, or stores or copies
outside a kernel buffer. The numbers the
caller passes reach the `riocm_ch_*` functions converted to their parameter types: channel
numbers to `u16`, the mport id to `u8`, `rem_destid` to `u32`. A wait of `cm_chan_accept`
with `wait_to` 0 has no limit; time is counted in the caller's units, only whether a
timeout is 0 mattering. -/
def Node.step (n : Node) : NodeOp → Option (Node × OpOut)
  | .chanCreate filp chNum alloc =>
    let r := cmChanCreate n filp (chNum % 0x10000) alloc
    some (r.1, ⟨r.2, [], [], cmChanCreateUser n (chNum % 0x10000) alloc⟩)
  | .chanClose filp chNum out intr => cmChanClose n filp (chNum % 0x10000) out intr
  | .chanBind chId mportId =>
    let r := riocmChBind n (chId % 0x10000) (mportId % 0x100); some (r.1, .ofRet r.2)
  | .chanListen chId => (riocmChListen n (chId % 0x10000)).map fun r => (r.1, .ofRet r.2)
  | .chanAccept filp chId waitTo w alloc stack out =>
    cmChanAccept n filp (chId % 0x10000) (if waitTo = 0 then maxScheduleTimeout else waitTo) w
      alloc stack out
  | .chanConnect chId mportId remDestid remCh stack out =>
    some (riocmChConnect n (chId % 0x10000) (mportId % 0x100) (remDestid % 0x100000000)
      (remCh % 0x10000) stack out)
  | .chanSend chId len alloc buf out => cmChanMsgSend n (chId % 0x10000) len alloc buf out
  | .chanReceive chId w => let r := cmChanMsgRcv n (chId % 0x10000) w; some (r.1, .ofRet r.2)
  | .release filp out => riocmCdevRelease n filp out
  | .addDev rdev alloc => let r := riocmAddDev n rdev alloc; some (r.1, .ofRet r.2)
  | .removeDev rdev out => riocmRemoveDev n rdev out
  | .addMport mport alloc mbox => let r := riocmAddMport n mport alloc mbox; some (r.1, .ofRet r.2)
  | .removeMport mport out => riocmRemoveMport n mport out
  | .inbound cmPtr hdr allocWork allocReq out =>
    match n.cmDevList.find? (·.ptr = cmPtr) with
    | none => some (n, .ofRet 0)
    | some cm => rioIbmsgHandler n cm hdr allocWork allocReq out
  | .epGetListSize arg => some (n, cmEpGetListSizeOut n arg)
  | .epGetList info0 info1 alloc =>
    listIoctlOut n (cmEpGetList n (info0 % 0x100000000) (info1 % 0x100000000) alloc)
  | .mportGetList entries alloc => listIoctlOut n (cmMportGetList n (entries % 0x100000000) alloc)
  | .txDone cmPtr room taken => riocmOutbMsgEvent n cmPtr room taken

/-- A run of operations: the final state and the addresses of the channels closed on the
way, in order; `none` if an operation dereferences `NULL` or a freed object. -/
def nodeRun (n : Node) : List NodeOp → Option (Node × List Nat)
  | [] => some (n, [])
  | op :: ops => do
    let (n', o) ← n.step op
    let (n'', log) ← nodeRun n' ops
    pure (n'', o.closed ++ log)

/-! ## Operations that touch only `tx_reqs` -/

section Quiet

variable {n n' : Node} {o : OpOut}

@[simp] theorem cmEpGetListSizeOut_closed (n : Node) (arg : Nat) :
    (cmEpGetListSizeOut n arg).closed = [] := by
  unfold cmEpGetListSizeOut; split <;> rfl

/-- The list ioctls change nothing and close nothing. -/
theorem listIoctlOut_eq_some {r : KBuf × Int} (h : listIoctlOut n r = some (n', o)) :
    n' = n ∧ o.closed = [] := by
  unfold listIoctlOut at h
  split at h <;> cases h
  exact ⟨rfl, rfl⟩

/-- A transmit completion changes only `tx_reqs` and closes nothing. -/
theorem riocmOutbMsgEvent_eq_some {c room : Nat} {taken : Nat → Bool}
    (h : riocmOutbMsgEvent n c room taken = some (n', o)) :
    ∃ l, n' = { n with txReqs := l } ∧ o.closed = [] := by
  unfold riocmOutbMsgEvent at h
  split at h
  · cases h; exact ⟨_, rfl, rfl⟩
  split at h
  · cases h; exact ⟨_, rfl, rfl⟩
  obtain ⟨d, -, h⟩ := Option.map_eq_some'.1 h
  cases h
  exact ⟨_, rfl, rfl⟩

end Quiet

/-- A host whose channel 2 is CONNECTED: one running mport with its peer at destination
ID 7, channel 2 connecting to channel 1 there, and the CONN_ACK arriving. -/
def connectedHost : List NodeOp :=
  [.addMport ⟨100, 1, 5, true⟩ true true, .addDev ⟨300, 7, 100, true, false⟩ true,
   .chanCreate 9 2 true, .chanConnect 2 1 7 1 ⟨0, 0, 0, 0, 0, 0, 0, 0, 0, 0⟩ .sent,
   .inbound 0 ⟨7, 5, 1, 1, rioCmChan, RioCmChop.connAck.toNat, 2, 1, 0, 0⟩ true true .sent]

/-! ## Two runs the reference counts and the sweeps do not survive -/

/-- `riocm_ch_listen` on a number no channel has puts a `NULL` channel. -/
theorem riocmChListen_missing {n : Node} {chId : Nat} (h : n.chIdr chId = none) :
    riocmChListen n chId = none := by
  simp [riocmChListen, Node.getChannel, h]

/-- Reference counts are not balanced. `riocm_ch_listen` on a number with no channel
applies `riocm_put_channel` to `NULL`. And a request from a device missing from the
mport's peer list makes `riocm_ch_accept` put back the channel it allocated, which frees
it (count 0, `riocm_ch_free` run) while it stays in `ch_idr` under number 256; the call
returns -ENODEV. -/
theorem riocm_refcount_unbalanced :
    (∀ n chId, n.chIdr chId = none → riocmChListen n chId = none) ∧
    ((nodeRun (Node.init 1 256)
      [.addMport ⟨100, 1, 5, true⟩ true true, .chanCreate 9 1 true, .chanBind 1 1,
       .chanListen 1, .inbound 0 ⟨7, 5, 1, 1, 0x55, 0, 1, 3, 0, 0⟩ true true .sent]).bind
      fun r => r.1.step (.chanAccept 9 1 0 .signal true ⟨0, 0, 0, 0, 0, 0, 0, 0, 0, 0⟩ .sent)).map
      (fun r => (r.2.ret, (r.1.chIdr 256).map fun ch => (ch.ref, ch.completed))) =
      some (-Errno.nodev, some (0, true)) :=
  ⟨fun _ _ => riocmChListen_missing, by decide⟩

/-- A channel can be registered with an `rdev` that is not among the peers of its
`cmdev`: a connect through the mport at address 100 to its peer at address 300 fails
(`riocm_post_send` refuses the CONN_REQ with -ENOMEM), which leaves the channel IDLE with
`rdev` set; binding it to the second mport then moves its `cmdev` to the `cm_dev` at
address 1, whose peer list is empty. -/
theorem riocmChBind_keeps_foreign_rdev :
    (nodeRun (Node.init 1 256)
      [.addMport ⟨100, 1, 5, true⟩ true true, .addMport ⟨200, 2, 6, true⟩ true true,
       .addDev ⟨300, 7, 100, true, false⟩ true, .chanCreate 9 1 true,
       .chanConnect 1 1 7 5 ⟨0, 0, 0, 0, 0, 0, 0, 0, 0, 0⟩ (.refused (-Errno.nomem)),
       .chanBind 1 2]).map
      (fun r => ((r.1.chIdr 1).map fun ch => (ch.cmdev, ch.rdev.map (·.ptr)),
        r.1.cmDevList.map fun cm => (cm.ptr, cm.peers.map (·.ptr)))) =
      some (some (some 1, some 300), [(0, [300]), (1, [])]) := by
  decide

end RioCm
