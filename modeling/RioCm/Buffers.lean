import RioCm.Channel

/-!
# Buffers — the kernel buffers of the list and message ioctls

`cm_ep_get_list` (with `riocm_get_peer_list`) and `cm_mport_get_list` allocate a buffer of
`u32` entries whose size the user's count decides, store a list into it and copy a prefix
of it back to the user; `cm_ep_get_list_size` writes one count back. `cm_chan_msg_send`
copies the user's message into a `RIO_MAX_MSG_SIZE`-byte buffer before `riocm_ch_send`
looks at it.

`KBuf` records what such a call does with memory: the units it allocated, the stores it
made there (index and value, in order), and how many units from the start it copied to the
user. The user's counts are `u32` values; where the code's sums on them wrap they are
reduced `% 2 ^ 32`. `Node.step` runs these calls, and one whose stores or copy leave the
buffer is undefined.
-/

namespace RioCm

/-- `RIO_MAX_MSG_SIZE`, from the kernel's RapidIO headers. -/
def rioMaxMsgSize : Nat := 0x1000

/-- What a call does with a kernel buffer: the units it allocated, the stores it made there
(index and value, in order), and how many units from the start it copied to the user. -/
structure KBuf where
  size : Nat
  writes : List (Nat × Nat)
  copied : Nat
  deriving DecidableEq, Repr

/-- A call that allocated nothing. -/
def KBuf.none : KBuf := ⟨0, [], 0⟩

/-- Every store, and the copy to the user, stays inside the allocation. -/
def KBuf.InBounds (b : KBuf) : Prop := (∀ w ∈ b.writes, w.1 < b.size) ∧ b.copied ≤ b.size

instance (b : KBuf) : Decidable b.InBounds := inferInstanceAs (Decidable (_ ∧ _))

theorem KBuf.inBounds_iff (b : KBuf) :
    b.InBounds ↔ (∀ j ∈ b.writes.map Prod.fst, j < b.size) ∧ b.copied ≤ b.size := by
  simp [KBuf.InBounds]

/-- The entry at `j` once the stores are made (`kcalloc` zeroes the buffer). -/
def KBuf.read (b : KBuf) (j : Nat) : Nat := ((b.writes.reverse.find? (·.1 = j)).map (·.2)).getD 0

/-- The entries copied back to the user, in order. -/
def KBuf.readOut (b : KBuf) : List Nat := (List.range b.copied).map b.read

/-! ## The bytes of a header

`riocm_post_send` hands the transport the 20 bytes of a `struct rio_ch_chan_hdr`: the
packed layout, with `src_id` and `dst_id` (`htonl`) and the channel numbers, `msg_len` and
`rsrvd` (`htons`) in network order. -/

/-- The `w` bytes of `v` in network (big-endian) order, as `htonl` and `htons` leave them
for `w` of 4 and 2; `v` is taken modulo `256 ^ w`. -/
def beBytes : Nat → Nat → List Nat
  | 0, _ => []
  | w + 1, v => beBytes w (v / 256) ++ [v % 256]

/-- The value of bytes in network order (`ntohl`, `ntohs`). -/
def beValue (bs : List Nat) : Nat := bs.foldl (fun acc b => acc * 256 + b) 0

/-- Values encoded in fields of the given widths, one after another. -/
def packFields : List Nat → List Nat → List Nat
  | w :: ws, v :: vs => beBytes w v ++ packFields ws vs
  | _, _ => []

/-- Values read from fields of the given widths at the front of `bs`; `none` if the bytes
run out. What follows the fields is left alone. -/
def unpackFields : List Nat → List Nat → Option (List Nat)
  | [], _ => some []
  | w :: ws, bs =>
    if bs.length < w then none
    else (unpackFields ws (bs.drop w)).map (beValue (bs.take w) :: ·)

/-- The packed layout of `struct rio_ch_chan_hdr`: the width in bytes of `src_id`,
`dst_id`, `src_mbox`, `dst_mbox`, `type`, `ch_op`, `dst_ch`, `src_ch`, `msg_len` and
`rsrvd`, in order. -/
def rioChChanHdrLayout : List Nat := [4, 4, 1, 1, 1, 1, 2, 2, 2, 2]

/-- The fields of a header, in the order of the layout. -/
def RioChChanHdr.fields (h : RioChChanHdr) : List Nat :=
  [h.srcId, h.dstId, h.srcMbox, h.dstMbox, h.type, h.chOp, h.dstCh, h.srcCh, h.msgLen, h.rsrvd]

def RioChChanHdr.ofFields : List Nat → Option RioChChanHdr
  | [a, b, c, d, e, f, g, i, j, k] => some ⟨a, b, c, d, e, f, g, i, j, k⟩
  | _ => none

/-- The 20 bytes `riocm_post_send` hands on for a header. -/
def RioChChanHdr.bytes (h : RioChChanHdr) : List Nat := packFields rioChChanHdrLayout h.fields

/-- The header at the front of a message, read as the receive handlers read it; `none` if
the message is shorter than a header. -/
def RioChChanHdr.ofBytes (bs : List Nat) : Option RioChChanHdr :=
  (unpackFields rioChChanHdrLayout bs).bind RioChChanHdr.ofFields

/-! ## The peer list -/

/-- `cm_ep_get_list_size(arg)`: the `u16` the user passes (`arg`) is read into a `u32`
mport id, and the `npeers` of the first `cm_dev` of an mport with that id is written back
as a `u32`: `.ok` the count written, `.error` the return value (-ENODEV with no such
`cm_dev`). -/
def cmEpGetListSize (n : Node) (arg : Nat) : Except Int Nat :=
  match n.cmDevList.find? (·.mport.id = arg % 0x10000) with
  | none => .error (-Errno.nodev)
  | some cm => .ok (cm.npeers % 0x100000000).toNat

/-- The loop of `riocm_get_peer_list` from count `i`: the destination ID of each peer is
stored at entry `i` and counted, and the loop stops once the count reaches `*nent`. -/
def peerListLoop (nent : Nat) : Nat → List RioDev → List (Nat × Nat)
  | _, [] => []
  | i, d :: ds => (i, d.destid % 0x100000000) ::
    if nent ≤ i + 1 then [] else peerListLoop nent (i + 1) ds

/-- `riocm_get_peer_list(mport_id, buf, nent)`: the stores into `buf` (by entry), the new
`*nent`, and the return value. With no `cm_dev` for the mport nothing is stored, `*nent`
becomes 0 and the call returns `-ENODEV`. -/
def riocmGetPeerList (n : Node) (mportId nent : Nat) : List (Nat × Nat) × Nat × Int :=
  match n.cmDevList.find? (·.mport.id = mportId) with
  | none => ([], 0, -Errno.nodev)
  | some cm => let w := peerListLoop nent 0 cm.peers; (w, w.length, 0)

/-- `cm_ep_get_list(arg)` with `info[0] = info0` and `info[1] = info1` read from the user;
`alloc` is whether `kcalloc` returns a buffer. The peers go to entries 2 and on, the updated
`info[0]` and `info[1]` to entries 0 and 1, and `info[0] + 2` entries are copied back. -/
def cmEpGetList (n : Node) (info0 info1 : Nat) (alloc : Bool) : KBuf × Int :=
  let size := (info0 + 2) % 0x100000000
  if !alloc then (.none, -Errno.nomem)
  else
    let (w, cnt, ret) := riocmGetPeerList n (info1 % 0x100) info0
    if ret ≠ 0 then (⟨size, [], 0⟩, ret)
    else (⟨size, w.map (fun e => (e.1 + 2, e.2)) ++ [(0, cnt), (1, info1)],
      (cnt + 2) % 0x100000000⟩, 0)

/-! ## The mport list -/

/-- The loop of `cm_mport_get_list` over `cm_dev_list` from count `c`: a `cm_dev` met
while the count is below `entries` has `(id << 16) | host_deviceid` stored at entry
`c + 1`; every `cm_dev` is counted. -/
def mportListLoop (entries : Nat) : Nat → List CmDev → List (Nat × Nat)
  | _, [] => []
  | c, cm :: cms =>
    (if c < entries then [(c + 1, (cm.mport.id <<< 16 ||| cm.mport.hostDeviceid) % 0x100000000)]
      else []) ++ mportListLoop entries (c + 1) cms

/-- `cm_mport_get_list(arg)` with `entries` read from the user; `alloc` is whether
`kcalloc` returns a buffer. The mports go to entries 1 and on, the number of `cm_dev`s to
entry 0, and that number plus one entries are copied back. -/
def cmMportGetList (n : Node) (entries : Nat) (alloc : Bool) : KBuf × Int :=
  if entries = 0 then (.none, -Errno.nomem)
  else if !alloc then (.none, -Errno.nomem)
  else
    let count := n.cmDevList.length
    (⟨(entries + 1) % 0x100000000, mportListLoop entries 0 n.cmDevList ++ [(0, count)],
      count + 1⟩, 0)

/-! ## The message -/

/-- The copy of `cm_chan_msg_send(arg)` with `msg.size = size`: a `kmalloc` of
`RIO_MAX_MSG_SIZE` bytes (`alloc`), then `msg.size` bytes of the user's message `user`
copied into it, before `riocm_ch_send` looks at the length. -/
def cmChanMsgSendBuf (size : Nat) (alloc : Bool) (user : Nat → Nat) : KBuf :=
  if alloc then ⟨rioMaxMsgSize, (List.range size).map fun i => (i, user i), 0⟩ else .none

end RioCm
