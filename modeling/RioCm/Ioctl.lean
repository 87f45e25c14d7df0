import RioCm.Network

/-!
# Ioctl — what the list and message ioctls do with their buffers

The calls of `Buffers` over every host state. `cmEpGetList_bounds` and
`cmMportGetList_bounds` say exactly for which counts a list call stays inside its buffer
and copies out no more than the user asked for; a call outside them is an undefined step
of `Node.step`. `cm_chan_msg_send` copies the message before `riocm_ch_send` checks its
length, so a message longer than `RIO_MAX_MSG_SIZE` overflows the buffer
(`cmChanMsgSend_too_long`); `cm_chan_msg_rcv` copies a received buffer out whole.
-/

namespace RioCm

/-! ## `cm_ep_get_list` -/

theorem peerListLoop_length (nent : Nat) : ∀ (i : Nat) (ds : List RioDev),
    (peerListLoop nent i ds).length = min ds.length (max (nent - i) 1)
  | _, [] => by simp [peerListLoop]
  | i, d :: ds => by
    rw [peerListLoop, List.length_cons]
    split_ifs with h
    · simp only [List.length_cons, List.length_nil]
      omega
    · rw [peerListLoop_length nent (i + 1) ds, List.length_cons]
      omega

/-- The peers are stored at consecutive entries from `i`. -/
theorem peerListLoop_fst (nent : Nat) : ∀ (i : Nat) (ds : List RioDev),
    (peerListLoop nent i ds).map Prod.fst = List.range' i (peerListLoop nent i ds).length
  | _, [] => rfl
  | i, d :: ds => by
    rw [peerListLoop]
    split_ifs
    · rfl
    · simp only [List.map_cons, List.length_cons, List.range'_succ,
        peerListLoop_fst nent (i + 1) ds]

/-- With a `cm_dev` for the mport and the buffer allocated, `cm_ep_get_list` stores the
`w` peers it reports at entries 2 to `w + 1`, then entries 0 and 1, and copies `w + 2`
entries; `w` is the number of peers, but at most `max(info[0], 1)`. -/
theorem cmEpGetList_found {n : Node} (info0 : Nat) {info1 : Nat} {cm : CmDev}
    (hcm : n.cmDevList.find? (·.mport.id = info1 % 0x100) = some cm) :
    let w := min cm.peers.length (max info0 1)
    (cmEpGetList n info0 info1 true).2 = 0 ∧
      (cmEpGetList n info0 info1 true).1.size = (info0 + 2) % 0x100000000 ∧
      (cmEpGetList n info0 info1 true).1.writes.map Prod.fst =
        List.range' 2 w ++ [0, 1] ∧
      (cmEpGetList n info0 info1 true).1.copied = (w + 2) % 0x100000000 := by
  have hl := peerListLoop_length info0 0 cm.peers
  have hf := peerListLoop_fst info0 0 cm.peers
  rw [Nat.sub_zero] at hl
  simp only [cmEpGetList, riocmGetPeerList, hcm, Bool.not_true, Bool.false_eq_true, if_false,
    ne_eq, not_true_eq_false, List.map_append, List.map_cons, List.map_nil]
  refine ⟨trivial, trivial, ?_, by rw [hl]⟩
  rw [List.map_map, show (Prod.fst ∘ fun e : Nat × Nat => (e.1 + 2, e.2)) = (2 + ·) ∘ Prod.fst
    from funext fun e => Nat.add_comm e.1 2, ← List.map_map, hf, List.map_add_range', hl]

/-- `cm_ep_get_list` stays inside its buffer exactly when `info[0] + 2` does not wrap and
`info[0]` is not 0 unless the mport has no peers; and it copies out no more than the
`info[0] + 2` entries the user declared exactly when `info[0]` is not 0 unless the mport
has no peers. -/
theorem cmEpGetList_bounds {n : Node} {info0 info1 : Nat} {cm : CmDev}
    (hcm : n.cmDevList.find? (·.mport.id = info1 % 0x100) = some cm) (hu : info0 < 0x100000000) :
    ((cmEpGetList n info0 info1 true).1.InBounds ↔
      info0 + 2 < 0x100000000 ∧ (cm.peers = [] ∨ 0 < info0)) ∧
    ((cmEpGetList n info0 info1 true).1.copied ≤ info0 + 2 ↔ cm.peers = [] ∨ 0 < info0) := by
  obtain ⟨-, hs, hw, hc⟩ := cmEpGetList_found info0 hcm
  have hp : cm.peers = [] ↔ cm.peers.length = 0 := List.length_eq_zero.symm
  simp only [KBuf.inBounds_iff, hw, hs, hc,
    List.mem_append, List.mem_range'_1, List.mem_cons, List.mem_singleton,
    List.not_mem_nil, or_false, hp]
  constructor
  · constructor
    · rintro ⟨h1, h2⟩
      have h0 := h1 0 (.inr (.inl rfl))
      have h1' := h1 1 (.inr (.inr rfl))
      omega
    · rintro ⟨h1, h2⟩
      refine ⟨fun j hj => ?_, ?_⟩ <;> omega
  · omega

/-! ## `cm_mport_get_list` -/

/-- The mports are stored at consecutive entries from `c + 1`, as many as there are
`cm_dev`s but at most `entries - c`. -/
theorem mportListLoop_fst (entries : Nat) : ∀ (c : Nat) (cms : List CmDev),
    (mportListLoop entries c cms).map Prod.fst =
      List.range' (c + 1) (min cms.length (entries - c))
  | _, [] => by simp [mportListLoop]
  | c, cm :: cms => by
    rw [mportListLoop, List.map_append, mportListLoop_fst entries (c + 1) cms, List.length_cons]
    split_ifs with h
    · rw [show min (cms.length + 1) (entries - c) = min cms.length (entries - (c + 1)) + 1 by
        omega, List.range'_succ]
      rfl
    · simp [show entries - (c + 1) = 0 by omega, show entries - c = 0 by omega]

/-- `cm_mport_get_list` with a nonzero `u32` count stays inside its buffer exactly when
`entries + 1` does not wrap and there are no more `cm_dev`s than `entries`; it copies out
no more than the `entries + 1` entries the user declared exactly when there are no more
`cm_dev`s than `entries`. -/
theorem cmMportGetList_bounds (n : Node) {entries : Nat} (he : entries ≠ 0)
    (hu : entries < 0x100000000) :
    ((cmMportGetList n entries true).1.InBounds ↔
      entries + 1 < 0x100000000 ∧ n.cmDevList.length ≤ entries) ∧
    ((cmMportGetList n entries true).1.copied ≤ entries + 1 ↔ n.cmDevList.length ≤ entries) := by
  simp only [cmMportGetList, he, Bool.not_true, Bool.false_eq_true, if_false, KBuf.inBounds_iff,
    List.map_append, mportListLoop_fst, List.map_cons, List.map_nil, List.mem_append,
    List.mem_range'_1, List.mem_singleton]
  refine ⟨⟨fun ⟨h1, h2⟩ => ?_, fun ⟨h1, h2⟩ => ⟨fun j hj => ?_, ?_⟩⟩, by omega⟩
  · have := h1 0 (.inr rfl)
    omega
  all_goals omega

/-- A host with two mports asked for one entry: the buffer overflows. -/
theorem cmMportGetList_bounds_twoMports :
    ∃ n log, nodeRun (Node.init 1 256)
        [.addMport ⟨100, 1, 5, true⟩ true true, .addMport ⟨200, 2, 6, true⟩ true true] =
        some (n, log) ∧ ¬ (cmMportGetList n 1 true).1.InBounds ∧
      1 ≠ 0 ∧ 1 < 0x100000000 ∧
      (((cmMportGetList n 1 true).1.InBounds ↔ 1 + 1 < 0x100000000 ∧ n.cmDevList.length ≤ 1) ∧
      ((cmMportGetList n 1 true).1.copied ≤ 1 + 1 ↔ n.cmDevList.length ≤ 1)) :=
  ⟨_, _, rfl, by decide, by decide, by decide, cmMportGetList_bounds _ (by decide) (by decide)⟩

/-! ## `cm_chan_msg_send` and `cm_chan_msg_rcv` -/

/-- The copy of `cm_chan_msg_rcv(arg)`: once `riocm_ch_receive` returns a buffer (one of
`RIO_MAX_MSG_SIZE` bytes from `riocm_rx_fill`), `RIO_MAX_MSG_SIZE` bytes of it go to the
user. `msg.size` is not read. -/
def cmChanMsgRcvBuf (n : Node) (chNum : Nat) (w : RxWaitEnd) : KBuf :=
  ⟨rioMaxMsgSize, [], if (cmChanMsgRcv n chNum w).2 = 0 then rioMaxMsgSize else 0⟩

/-- The user's counts are not checked against the buffers. On a host with one mport (id 1)
and its peer at destination ID 7, `cm_ep_get_list` with `info[0] = 0` allocates 2 entries,
stores the peer at entry 2 and copies 3 entries to a user who declared 2; with
`info[0] = 2^32 - 1` it allocates 1 entry and stores at entries 2 and 1. On a host with two
mports, `cm_mport_get_list` with `entries = 1` allocates 2 entries and copies 3 to a user
who declared 2; with `entries = 2^32 - 1` it allocates none and stores at entries 1, 2
and 0. `cm_chan_msg_send` with `msg.size = 4097` stores byte 4096 of its 4096-byte buffer,
whatever the message. After a handshake and one data message, `cm_chan_msg_rcv` on the
accepting channel copies 4096 bytes to the user, whatever `msg.size` is. -/
theorem ioctlBuffers_user_counts_unchecked :
    (nodeRun (Node.init 1 256) [.addMport ⟨100, 1, 5, true⟩ true true,
        .addDev ⟨300, 7, 100, true, false⟩ true]).map (fun r =>
      (cmEpGetList r.1 0 1 true, cmEpGetList r.1 0xFFFFFFFF 1 true)) =
      some ((⟨2, [(2, 7), (0, 1), (1, 1)], 3⟩, 0), (⟨1, [(2, 7), (0, 1), (1, 1)], 3⟩, 0)) ∧
    (nodeRun (Node.init 1 256) [.addMport ⟨100, 1, 5, true⟩ true true,
        .addMport ⟨200, 2, 6, true⟩ true true]).map (fun r =>
      (cmMportGetList r.1 1 true, cmMportGetList r.1 0xFFFFFFFF true)) =
      some ((⟨2, [(1, 0x10005), (0, 2)], 3⟩, 0),
        (⟨0, [(1, 0x10005), (2, 0x20006), (0, 2)], 3⟩, 0)) ∧
    (∀ user, (cmChanMsgSendBuf 4097 true user).size = rioMaxMsgSize ∧
      (rioMaxMsgSize, user rioMaxMsgSize) ∈ (cmChanMsgSendBuf 4097 true user).writes) ∧
    (netRun (Net.init 1 256) (acceptedHandshake ++ [.deliver 0 0 true true .sent,
        .run 5 (.chanSend 2 100 true (fun _ => 0) .sent),
        .deliver 0 0 true true .sent])).map (fun N => cmChanMsgRcvBuf (N.host 7) 256 .signal) =
      some ⟨rioMaxMsgSize, [], rioMaxMsgSize⟩ :=
  ⟨by decide, by decide, fun _ => by
    simp only [cmChanMsgSendBuf, if_true]
    exact ⟨trivial, List.mem_map.2 ⟨rioMaxMsgSize, List.mem_range.2 (by decide), rfl⟩⟩, by decide⟩

end RioCm
