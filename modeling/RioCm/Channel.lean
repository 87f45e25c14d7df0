import RioCm.RxRing
import RioCm.TxRing

/-!
# Channel — channel objects, the registry and the channel manager's state

The state of `rio_cm` on one host (`Node`): the list of local mport devices
(`cm_dev_list`), and the registry `ch_idr` from channel numbers to channel objects.
A channel object lives in the registry from `riocm_ch_alloc` until an operation removes
it and passes it to `riocm_ch_close`, which frees it once the last reference is dropped;
`ptr` is the object's address, which the code compares for identity.

This module gives the primitives every operation is built from, as the code computes
them: `riocm_get_channel`/`riocm_put_channel` with the reference count, `idr_alloc`,
`riocm_ch_alloc`, the four header builders, `riocm_send_close` and `riocm_ch_close`.
Sending goes through `riocm_post_send`; what became of a message is the environment's
answer (`SendOutcome`), and every behaviour of `riocm_post_send` on the transmit ring of
`TxRing` is one of these answers (`riocmPostSend_outcome`).

A `NULL` dereference is undefined behaviour; an operation that would make one returns
`none`.
-/

namespace RioCm

/-! ## Devices -/

/-- The fields of `struct rio_mport` that the channel manager reads. -/
structure RioMport where
  ptr : Nat
  id : Nat
  hostDeviceid : Nat
  /-- `rio_mport_is_running(mport)`. -/
  running : Bool
  deriving DecidableEq, Repr

/-- `struct cm_dev`: a local mport the channel manager uses, with the list of peer
devices (`cm->peers`, each `cm_peer` given by its `rdev`). The rings are modelled in
`TxRing`; the inbound buffer pool is left out here. -/
structure CmDev where
  ptr : Nat
  mport : RioMport
  peers : List RioDev
  npeers : Int
  deriving DecidableEq, Repr

/-! ## Channels -/

/-- `struct conn_req`: a connection request queued on a listening channel. -/
structure ConnReq where
  destid : Nat
  chan : Nat
  cmdev : Nat
  deriving DecidableEq, Repr

/-- The fields of `struct rio_channel` that the channel manager reads. `completed` is
whether `complete(&ch->comp)` has run, i.e. `riocm_ch_free` was called. -/
structure RioChannel where
  ptr : Nat
  id : Nat
  ref : Nat
  filp : Nat
  cmdev : Option Nat
  rdev : Option RioDev
  state : RioCmState
  locDestid : Nat
  remDestid : Nat
  remChannel : Nat
  acceptQueue : List ConnReq
  rxRing : ChanRxRing
  completed : Bool

/-- `riocm_put_channel`: `kref_put`. The count drops by one, and `riocm_ch_free` (which
frees the buffers left in the ring and completes `ch->comp`) runs when it drops from 1
to 0; a count already at 0 saturates and nothing is released. -/
@[simps]
def RioChannel.put (ch : RioChannel) : RioChannel :=
  { ch with ref := ch.ref - 1, completed := ch.completed || ch.ref == 1 }

/-! ## Packets and the transport -/

/-- A header handed to the transport, with the device it is sent to. -/
structure Packet where
  rdev : RioDev
  hdr : RioChChanHdr
  deriving DecidableEq, Repr

/-- The buffer of a message parked on `tx_reqs`: one borrowed from the caller, which lives
only as long as the call that passed it (a header on the stack of `riocm_ch_connect` or
`riocm_send_ack`, or the message `cm_chan_msg_send` frees), or a `kzalloc`ed header
(`riocm_send_close`), which the drain frees. -/
inductive TxBuf
  | borrowed
  | heap (hdr : RioChChanHdr)
  deriving DecidableEq, Repr

/-- A `struct tx_req` on the `tx_reqs` list of the `cm_dev` at `cm`: the device and the
buffer pointer (its `len` is the header's size for every control message). -/
structure ParkedReq where
  cm : Nat
  rdev : RioDev
  buf : TxBuf
  deriving DecidableEq, Repr

/-- What the sends of a call leave besides their return values: the packets handed to the
transport and the requests parked on `tx_reqs`, in order. -/
structure TxOut where
  sent : List Packet
  parked : List ParkedReq

instance : Append TxOut := ⟨fun a b => ⟨a.sent ++ b.sent, a.parked ++ b.parked⟩⟩

@[simp] theorem TxOut.append_sent (a b : TxOut) : (a ++ b).sent = a.sent ++ b.sent := rfl

@[simp] theorem TxOut.append_parked (a b : TxOut) : (a ++ b).parked = a.parked ++ b.parked := rfl

/-- What became of a message handed to `riocm_post_send`, as the environment decides:
the transport took it (0), it was parked on `tx_reqs` (-EBUSY), or it was refused with
the code `riocm_post_send` returns (a full ring, a failed `tx_req` allocation, or the
transport's own error). -/
inductive SendOutcome
  | sent
  | deferred
  | refused (rc : Int)
  deriving DecidableEq, Repr

/-- The return value of `riocm_post_send`, and whether the message is on its way. Only a
control message (`req` set) can be parked; a data message that finds the ring full is
refused with -EBUSY. -/
def postSendResult (req : Bool) : SendOutcome → Int × Bool
  | .sent => (0, true)
  | .deferred => if req then (-Errno.busy, true) else (-Errno.busy, false)
  | .refused rc => (rc, false)

/-- Whether a call of `riocm_post_send` (`TxRing`) from `cm` put its message on its way:
the transport took it (`rio_add_outb_message` returned `rc` 0), or it was parked on
`tx_reqs`. -/
def PostSendOut.onItsWay (o : PostSendOut) (cm : CmTx) (rc : Int) : Bool :=
  (!o.sent.isEmpty && rc == 0) || o.cm.txReqs.length != cm.txReqs.length

/-- `SendOutcome` covers `riocm_post_send`: from any state of the transmit ring, with any
answer of the allocator and of the transport, the return value of `riocm_post_send` and
whether its message is on its way are those of one outcome. -/
theorem riocmPostSend_outcome (cm : CmTx) (rdev : RioDev) (buffer : Ptr) (len : Nat)
    (req allocOk : Bool) (rc : Int) :
    ∃ o, postSendResult req o =
      ((riocmPostSend cm rdev buffer len req allocOk rc).ret,
        (riocmPostSend cm rdev buffer len req allocOk rc).onItsWay cm rc) := by
  unfold riocmPostSend
  split_ifs with hm hfull hreq halloc
  · exact ⟨.refused (-Errno.nodev), by simp [postSendResult, PostSendOut.onItsWay]⟩
  · exact ⟨.deferred, by simp [postSendResult, PostSendOut.onItsWay, hreq]⟩
  · exact ⟨.refused (-Errno.nomem), by simp [postSendResult, PostSendOut.onItsWay]⟩
  · exact ⟨.deferred, by simp [postSendResult, PostSendOut.onItsWay, hreq]⟩
  · by_cases hrc : rc = 0
    · exact ⟨.sent, by simp [postSendResult, PostSendOut.onItsWay, CmTx.claimSlot, hrc]⟩
    · exact ⟨.refused rc, by simp [postSendResult, PostSendOut.onItsWay, CmTx.claimSlot, hrc]⟩

/-- `riocm_post_send` from the `cm_dev` at `c` to `d` of the header `hdr` in the buffer
`buf`: a message the transport takes is handed over with the bytes the header holds at the
call; a parked one leaves only its buffer on `tx_reqs`. -/
def postSendOut (c : Nat) (d : RioDev) (hdr : RioChChanHdr) (buf : TxBuf) (req : Bool)
    (out : SendOutcome) : Int × TxOut :=
  ((postSendResult req out).1,
    match out with
    | .sent => ⟨[⟨d, hdr⟩], []⟩
    | .deferred => if req then ⟨[], [⟨c, d, buf⟩]⟩ else ⟨[], []⟩
    | .refused _ => ⟨[], []⟩)

/-- `riocm_post_send(cm, rdev, buf, len, req)` for a channel whose `cmdev` and `rdev` are
`cm` and `rdev`: a `NULL` device is dereferenced. -/
def riocmPostSendPkt (cm : Option Nat) (rdev : Option RioDev) (hdr : RioChChanHdr)
    (buf : TxBuf) (req : Bool) (out : SendOutcome) : Option (Int × TxOut) :=
  match cm, rdev with
  | some c, some d => some (postSendOut c d hdr buf req out)
  | _, _ => none

/-! ## Headers -/

/-- The header `riocm_ch_connect` builds on its stack: every field but `msg_len` and
`rsrvd`, which keep what the stack held before (`stack`). -/
def connReqHdr (stack : RioChChanHdr) (cmbox locDestid remDestid remCh locCh : Nat) :
    RioChChanHdr :=
  { stack with
    srcId := locDestid, dstId := remDestid, srcMbox := cmbox, dstMbox := cmbox,
    type := rioCmChan, chOp := RioCmChop.connReq.toNat, dstCh := remCh, srcCh := locCh }

/-- The header `riocm_send_ack` builds on its stack; `msg_len` and `rsrvd` keep what the
stack held. -/
def connAckHdr (stack : RioChChanHdr) (cmbox : Nat) (ch : RioChannel) : RioChChanHdr :=
  { stack with
    srcId := ch.locDestid, dstId := ch.remDestid, dstCh := ch.remChannel, srcCh := ch.id,
    srcMbox := cmbox, dstMbox := cmbox, type := rioCmChan, chOp := RioCmChop.connAck.toNat }

/-- The header `riocm_send_close` builds in a `kzalloc`ed block. -/
def connCloseHdr (cmbox : Nat) (ch : RioChannel) : RioChChanHdr :=
  { srcId := ch.locDestid, dstId := ch.remDestid, srcMbox := cmbox, dstMbox := cmbox,
    type := rioCmChan, chOp := RioCmChop.connClose.toNat, dstCh := ch.remChannel,
    srcCh := ch.id, msgLen := 0, rsrvd := 0 }

/-- The header `riocm_ch_send` writes over the first bytes of the caller's buffer
(`buf`); `rsrvd` keeps the caller's bytes. -/
def dataHdr (buf : RioChChanHdr) (cmbox : Nat) (ch : RioChannel) (len : Nat) : RioChChanHdr :=
  { buf with
    srcId := ch.locDestid, dstId := ch.remDestid, srcMbox := cmbox, dstMbox := cmbox,
    type := rioCmChan, chOp := RioCmChop.dataMsg.toNat, dstCh := ch.remChannel,
    srcCh := ch.id, msgLen := len % 0x10000 }

/-! ## Closing a channel -/

/-- `riocm_send_close(ch)`: a CONN_CLOSE for the peer, sent as a control message from a
`kzalloc`ed header. The allocation failing is one of the refusals of `out`. -/
def riocmSendClose (cmbox : Nat) (ch : RioChannel) (out : SendOutcome) :
    Option (Int × TxOut) :=
  (riocmPostSendPkt ch.cmdev ch.rdev (connCloseHdr cmbox ch) (.heap (connCloseHdr cmbox ch))
    true out).map fun r => (if r.1 = -Errno.busy then 0 else r.1, r.2)

/-- `riocm_ch_close(ch)` on a channel already taken out of `ch_idr`: the state becomes
DESTROYING, a CONN_CLOSE goes out if the channel was connected, and the closer drops its
reference and waits for the channel to be freed. If other references keep it alive, the
wait ends with a signal (`intr`, -EINTR) or the timeout (-ETIMEDOUT). -/
def riocmChClose (cmbox : Nat) (ch : RioChannel) (out : SendOutcome) (intr : Bool) :
    Option (Int × TxOut) := do
  let tx ← if ch.state = .connected then (riocmSendClose cmbox ch out).map (·.2)
    else some ⟨[], []⟩
  let ch' := ({ ch with state := .destroying } : RioChannel).put
  pure (if ch'.completed then 0 else if intr then -Errno.intr else -Errno.timedout, tx)

/-! ## The registry -/

/-- The global state of `rio_cm` on one host, with the module parameters `cmbox` and
`chstart`. `nextPtr` is the next address `kzalloc` returns. The `tx_reqs` lists of all
`cm_dev`s are kept in one list (`txReqs`), each request naming its `cm_dev`. -/
structure Node where
  cmbox : Nat
  chstart : Nat
  cmDevList : List CmDev
  chIdr : Nat → Option RioChannel
  nextPtr : Nat
  txReqs : List ParkedReq

/-- The state after module load: no mport, no channel. -/
def Node.init (cmbox chstart : Nat) : Node := ⟨cmbox, chstart, [], fun _ => none, 0, []⟩

/-- The requests `rs` parked on `tx_reqs` by `riocm_post_send` (`list_add_tail`). -/
@[simps]
def Node.park (n : Node) (rs : List ParkedReq) : Node := { n with txReqs := n.txReqs ++ rs }

/-- Register `ch` under `k`, in place of what was there. -/
@[simps]
def Node.setChan (n : Node) (k : Nat) (ch : RioChannel) : Node :=
  { n with chIdr := Function.update n.chIdr k (some ch) }

/-- Apply `f` to the channel registered under `k`, if there is one. -/
@[simps]
def Node.modifyChan (n : Node) (k : Nat) (f : RioChannel → RioChannel) : Node :=
  { n with chIdr := Function.update n.chIdr k ((n.chIdr k).map f) }

/-- `idr_remove(&ch_idr, k)` for every `k` of `ks`. -/
@[simps]
def Node.removeChans (n : Node) (ks : List Nat) : Node :=
  { n with chIdr := fun k => if k ∈ ks then none else n.chIdr k }

/-- `kref_get`. -/
@[simps]
def RioChannel.get (ch : RioChannel) : RioChannel := { ch with ref := ch.ref + 1 }

/-- `riocm_get_channel(nr)`: the channel registered under `nr`, its count raised. -/
def Node.getChannel (n : Node) (nr : Nat) : Option (Node × RioChannel) :=
  (n.chIdr nr).map fun ch => (n.modifyChan nr RioChannel.get, ch.get)

/-- `riocm_put_channel` on the channel registered under `k`. -/
def Node.putChannel (n : Node) (k : Nat) : Node := n.modifyChan k RioChannel.put

/-- `idr_alloc(&ch_idr, ch, start, end)`, `fuel = end - start`: the lowest free number
in `[start, end)`. -/
def idrAlloc (idr : Nat → Option RioChannel) (start : Nat) : Nat → Option Nat
  | 0 => none
  | fuel + 1 => if (idr start).isNone then some start else idrAlloc idr (start + 1) fuel

/-- The `start` of the range `riocm_ch_alloc` asks `idr_alloc` for. -/
def allocStart (chstart chNum : Nat) : Nat := if chNum ≠ 0 then chNum else chstart

/-- The `end` of the range `riocm_ch_alloc` asks `idr_alloc` for. -/
def allocEnd (chNum : Nat) : Nat := if chNum ≠ 0 then chNum + 1 else riocmMaxChnum + 1

/-- `riocm_ch_alloc(ch_num)`: a channel numbered `ch_num`, or the lowest free number from
`chstart` on when `ch_num` is 0, in state IDLE with one reference (the registry's).
`alloc` is whether `kzalloc` succeeds. Returns the state and the new channel, or an
error code: -ENOMEM, or -EBUSY when the number is taken or the range is full. `ch_num` is
a `u16`, so the range ends at `RIOCM_MAX_CHNUM + 1` at most and the id cast `(u16)id` is
the identity. -/
def riocmChAlloc (n : Node) (chNum : Nat) (alloc : Bool) : Node × Except Int RioChannel :=
  if !alloc then (n, .error (-Errno.nomem))
  else
    match idrAlloc n.chIdr (allocStart n.chstart chNum) (allocEnd chNum - allocStart n.chstart chNum) with
    | none => (n, .error (-Errno.busy))
    | some id =>
      let ch : RioChannel :=
        { ptr := n.nextPtr, id := id, ref := 1, filp := 0, cmdev := none, rdev := none,
          state := .idle, locDestid := 0, remDestid := 0, remChannel := 0,
          acceptQueue := [], rxRing := ChanRxRing.init, completed := false }
      ({ n.setChan id ch with nextPtr := n.nextPtr + 1 }, .ok ch)

/-- Close, one after the other, channels already taken out of the registry: the
`list_for_each_entry_safe` loop that ends the sweeps of `riocm_cdev_release`,
`riocm_remove_dev` and `riocm_remove_mport`. `out` answers for the CONN_CLOSE of each
channel, by its number; the return values are dropped, so how the waits end does not
matter. -/
def closeAll (cmbox : Nat) (out : Nat → SendOutcome) : List RioChannel → Option TxOut
  | [] => some ⟨[], []⟩
  | ch :: chs => do
    let (_, tx) ← riocmChClose cmbox ch (out ch.id) false
    let rest ← closeAll cmbox out chs
    pure (tx ++ rest)

end RioCm
