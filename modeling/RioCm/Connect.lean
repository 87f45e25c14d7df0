import RioCm.Lifecycle

/-!
# Connect — `riocm_ch_connect` from its call to its return

`Node` runs `riocm_ch_connect` up to the return of `riocm_post_send`. The caller then
takes the channel's lock, and if the channel is still in CONNECT sleeps in
`riocm_wait_for_connect_resp` until a wake-up finds a signal pending, the channel out
of CONNECT, or the time used up. Other operations run meanwhile: the operations before
the lock (`before`) and those during each sleep (`ConnectWake.ops`).

The connecting task holds a reference to the channel object, which may leave `ch_idr`
while it waits: every path out of the registry ends in `riocm_ch_close`, which leaves the
object in DESTROYING. `Node.chanState` reads the object's state that way.

By the lifecycle of `Lifecycle`, a return of 0 means the channel is CONNECTED or being
destroyed (`riocmChConnectCall_zero`); the second case, and an error return that leaves
the channel in CONNECT, both happen.
-/

namespace RioCm

/-- The state of the channel object at address `p`, numbered `k`: its state while it is
registered, DESTROYING once it has left `ch_idr`. -/
def Node.chanState (n : Node) (k p : Nat) : RioCmState :=
  match n.chIdr k with
  | some ch => if ch.ptr = p then ch.state else .destroying
  | none => .destroying

/-- One wake-up of the task sleeping in `riocm_wait_for_connect_resp`: the operations
that ran while it slept, and whether it wakes with a signal pending or with its time
used up. -/
structure ConnectWake where
  ops : List NodeOp
  signal : Bool
  expired : Bool

/-- `riocm_wait_for_connect_resp(ch, timeo)` for the channel object at `p`, numbered
`k`. After the wake-ups listed, the next one is the timeout. -/
def riocmWaitForConnectResp (k p : Nat) : Node → List ConnectWake → Option (Node × Int)
  | n, [] => some (n, -Errno.time)
  | n, w :: ws => do
    let (n', _) ← nodeRun n w.ops
    if w.signal then pure (n', -Errno.intr)
    else if n'.chanState k p ≠ .connect then pure (n', 0)
    else if w.expired then pure (n', -Errno.time)
    else riocmWaitForConnectResp k p n' ws

/-- `riocm_ch_connect(loc_ch, mport_id, rem_destid, rem_ch)` from call to return: the
request goes out; if `riocm_post_send` returned 0 or -EBUSY, the operations `before` run
until the caller takes the channel lock; a channel still in CONNECT is waited on, and a
wait that ends with the channel out of CONNECT returns 0 if it is CONNECTED and -1
otherwise. A channel found out of CONNECT at the lock returns what `riocm_post_send`
returned. -/
def riocmChConnectCall (n : Node) (locCh mportId remDestid remCh : Nat) (stack : RioChChanHdr)
    (out : SendOutcome) (before : List NodeOp) (wakes : List ConnectWake) :
    Option (Node × Int) :=
  let r := riocmChConnect n locCh mportId remDestid remCh stack out
  if r.2.ret ≠ 0 ∧ r.2.ret ≠ -Errno.busy then some (r.1, r.2.ret)
  else match n.chIdr locCh with
  | none => some (r.1, r.2.ret)
  | some ch => do
    let (n2, _) ← nodeRun r.1 before
    if n2.chanState locCh ch.ptr ≠ .connect then pure (n2, r.2.ret)
    else
      let (n3, err) ← riocmWaitForConnectResp locCh ch.ptr n2 wakes
      pure (n3, if err ≠ 0 then err else if n3.chanState locCh ch.ptr = .connected then 0 else -1)

/-! ## What a return of 0 means -/

/-- `riocm_post_send` returning 0 to `riocm_ch_connect` means a channel was registered under
`loc_ch`, and is left in CONNECT at the same address. -/
theorem riocmChConnect_ret_zero {n : Node} {locCh mportId remDestid remCh : Nat}
    {stack : RioChChanHdr} {out : SendOutcome}
    (h : (riocmChConnect n locCh mportId remDestid remCh stack out).2.ret = 0) :
    ∃ ch c, n.chIdr locCh = some ch ∧
      (riocmChConnect n locCh mportId remDestid remCh stack out).1.cores locCh = some c ∧
      c.ptr = ch.ptr ∧ c.state = .connect := by
  generalize hr : riocmChConnect n locCh mportId remDestid remCh stack out = r at h ⊢
  unfold riocmChConnect at hr
  have hne : ∀ m (e : Int), e ≠ 0 → (m, .ofRet e) = r → False := fun m e he hr' => by
    subst hr'; exact he h
  split at hr
  · exact (hne _ _ (by decide) hr).elim
  rename_i cm _
  split at hr
  · exact (hne _ _ (by decide) hr).elim
  rename_i d _
  split at hr
  · exact (hne _ _ (by decide) hr).elim
  rename_i hg
  obtain ⟨ch, hk, rfl, rfl⟩ := Node.getChannel_eq_some.1 hg
  split at hr
  · exact (hne _ _ (by decide) hr).elim
  subst hr
  dsimp only at h ⊢
  rw [if_neg (by simp [h])]
  refine ⟨ch, ⟨ch.ptr, .connect, some cm.ptr, some d, remCh⟩, hk, ?_, rfl, rfl⟩
  simp [Node.putChannel, Node.modifyChan_modifyChan, Node.cores_modifyChan, hk]
  rfl

/-- Over a run from a state with the registry invariant, a channel object in CONNECT stays
in CONNECT, becomes CONNECTED, or leaves the registry (DESTROYING). -/
theorem chanState_after_connect {n n' : Node} {ops : List NodeOp} {log : List Nat} {k : Nat}
    {c : ChanCore} (h : RegInv n) (hk : n.cores k = some c) (hs : c.state = .connect)
    (hr : nodeRun n ops = some (n', log)) :
    n'.chanState k c.ptr = .connect ∨ n'.chanState k c.ptr = .connected ∨
      n'.chanState k c.ptr = .destroying := by
  unfold Node.chanState
  split
  · rename_i ch' hch'
    split_ifs with hp
    · obtain ⟨-, ht⟩ := nodeRun_lifecycle ops h hr hk (Node.cores_of_chIdr hch') hp
      rw [hs] at ht
      exact (lifeEdge_from_connect ht).imp_right .inl
    · exact .inr (.inr rfl)
  · exact .inr (.inr rfl)

/-- What `riocm_ch_connect` returning 0 means. From a state with the registry invariant,
if the call returns 0, a channel was registered under `loc_ch` when it was made, and at the
return that channel object is CONNECTED or has left the registry (DESTROYING): never IDLE,
and never still in CONNECT. -/
theorem riocmChConnectCall_zero {n n' : Node} {locCh mportId remDestid remCh : Nat}
    {stack : RioChChanHdr} {out : SendOutcome} {before : List NodeOp} {wakes : List ConnectWake}
    (h : RegInv n)
    (hc : riocmChConnectCall n locCh mportId remDestid remCh stack out before wakes = some (n', 0)) :
    ∃ ch, n.chIdr locCh = some ch ∧
      (n'.chanState locCh ch.ptr = .connected ∨ n'.chanState locCh ch.ptr = .destroying) := by
  unfold riocmChConnectCall at hc
  dsimp only at hc
  split at hc
  · exact absurd (Prod.mk.inj (Option.some.inj hc)).2 ‹_ ∧ _›.1
  split at hc
  · rename_i hnone
    obtain ⟨ch, -, hk, -⟩ := riocmChConnect_ret_zero (Prod.mk.inj (Option.some.inj hc)).2
    rw [hnone] at hk
    cases hk
  rename_i ch hch
  refine ⟨ch, hch, ?_⟩
  obtain ⟨⟨n2, l2⟩, hrun, hc⟩ := Option.bind_eq_some.1 hc
  dsimp only at hc
  split at hc
  · rename_i hne
    obtain ⟨rfl, h0⟩ := Prod.mk.inj (Option.some.inj hc)
    obtain ⟨ch0, c, hk0, hc0, hp, hs⟩ := riocmChConnect_ret_zero h0
    rw [hch] at hk0
    cases hk0
    have := chanState_after_connect (regStep_riocmChConnect h _ _ _ _ _ _).inv hc0 hs hrun
    rw [hp] at this
    exact this.resolve_left hne
  · obtain ⟨⟨n3, err⟩, -, hc⟩ := Option.bind_eq_some.1 hc
    obtain ⟨rfl, h0⟩ := Prod.mk.inj (Option.some.inj hc)
    split_ifs at h0 with herr hcon
    · exact absurd h0 herr
    · exact .inl hcon

/-- Channel 2 of `connectedHost` connecting, the CONN_ACK arriving before the caller takes
the channel lock: the call returns 0 with the channel CONNECTED. -/
theorem riocmChConnectCall_zero_acked :
    ∃ n log n', nodeRun (Node.init 1 256) (connectedHost.take 3) = some (n, log) ∧ RegInv n ∧
      riocmChConnectCall n 2 1 7 1 ⟨0, 0, 0, 0, 0, 0, 0, 0, 0, 0⟩ .sent (connectedHost.drop 4) [] =
        some (n', 0) ∧
      ∃ ch, n.chIdr 2 = some ch ∧
        (n'.chanState 2 ch.ptr = .connected ∨ n'.chanState 2 ch.ptr = .destroying) :=
  ⟨_, _, _, rfl, @regInv_of_nodeRun 1 256 (connectedHost.take 3) _ _ rfl, rfl,
    @riocmChConnectCall_zero _ _ 2 1 7 1 ⟨0, 0, 0, 0, 0, 0, 0, 0, 0, 0⟩ .sent (connectedHost.drop 4)
      [] (@regInv_of_nodeRun 1 256 (connectedHost.take 3) _ _ rfl) rfl⟩

/-- The result of `riocm_ch_connect` does not agree with the channel's state. On a host
with one mport and its peer at destination ID 7, channel 1 connects to channel 5 there
and the CONN_REQ goes out. If no CONN_ACK comes, the call returns -ETIME and leaves the
channel in CONNECT. If the channel is closed (`cm_chan_close`) before the caller takes
its lock, the call returns 0 although the channel is no longer registered: it is being
destroyed. -/
theorem riocmChConnectCall_result_disagrees :
    ((nodeRun (Node.init 1 256)
      [.addMport ⟨100, 1, 5, true⟩ true true, .addDev ⟨300, 7, 100, true, false⟩ true,
       .chanCreate 9 1 true]).bind fun r =>
      riocmChConnectCall r.1 1 1 7 5 ⟨0, 0, 0, 0, 0, 0, 0, 0, 0, 0⟩ .sent [] []).map
      (fun r => (r.2, (r.1.chIdr 1).map (·.state))) = some (-Errno.time, some .connect) ∧
    ((nodeRun (Node.init 1 256)
      [.addMport ⟨100, 1, 5, true⟩ true true, .addDev ⟨300, 7, 100, true, false⟩ true,
       .chanCreate 9 1 true]).bind fun r =>
      riocmChConnectCall r.1 1 1 7 5 ⟨0, 0, 0, 0, 0, 0, 0, 0, 0, 0⟩ .sent
        [.chanClose 9 1 .sent false] []).map
      (fun r => (r.2, (r.1.chIdr 1).isSome)) = some (0, false) := by
  decide

end RioCm
