import RioCm.Safety

/-!
# Teardown — the reboot notifier, file release, and device and mport removal

Four paths tear channels down. `rio_cm_shutdown`, the reboot notifier, sends a CONN_CLOSE
from every CONNECTED channel and changes no channel; from a set of channels it sends what
closing them with `riocm_ch_close` would (`closeAll_eq_shutdownLoop`). The other three end
in a sweep: the channels the sweep matches are taken out of `ch_idr` and closed.

What closing a list of channels puts on its way is stated once (`ClosesOf`): one CONN_CLOSE
from each CONNECTED channel, in order, sent to the channel's own device when the transport
takes it and parked on `tx_reqs` with a `kzalloc`ed header when it is deferred. The loop
does so whenever every CONNECTED channel has its devices (`shutdownLoop_closesOf`), which
holds of the registered channels of every state a run from module load reaches. On those
states none of the four paths dereferences anything unset, and:

* the reboot notifier closes every registered channel so (`rioCmShutdown_spec`);
* closing the device file closes exactly the channels of that file
  (`riocmCdevRelease_spec`);
* removing an mport closes exactly the channels bound to its `cm_dev`
  (`riocmRemoveMport_spec`);
* removing a device closes exactly the channels to it, and sends nothing unless the
  device is shutting down, and then only to that device (`riocmRemoveDev_spec`).

The last three rest on two lemmas about the end of a sweep: what it sends is what the
notifier would send from the updated channels (`Node.releaseChans_eq_shutdownLoop`), and
what stays registered is what the sweep did not match (`RegInv.removeChans_sweep`).
-/

namespace RioCm

/-! ## rio_cm_shutdown -/

/-- The loop of `rio_cm_shutdown` over the channels `idr_for_each_entry` finds: a
CONN_CLOSE through `riocm_send_close` from each CONNECTED one, its return value dropped. -/
def shutdownLoop (cmbox : Nat) (out : Nat → SendOutcome) : List RioChannel → Option TxOut
  | [] => some ⟨[], []⟩
  | ch :: chs => do
    let tx ← if ch.state = .connected then (riocmSendClose cmbox ch (out ch.id)).map (·.2)
      else some ⟨[], []⟩
    let rest ← shutdownLoop cmbox out chs
    pure (tx ++ rest)

/-- `rio_cm_shutdown(nb, code, unused)`: the loop over every registered channel, in
increasing number; no channel changes, and the requests the transport defers join
`tx_reqs`. Returns the new state and the packets on their way, `none` if it dereferences
`NULL`. -/
def rioCmShutdown (n : Node) (out : Nat → SendOutcome) : Option (Node × List Packet) :=
  (shutdownLoop n.cmbox out (n.sweep fun _ => true)).map fun tx => (n.park tx.parked, tx.sent)

/-- What closing the channels `chs` puts on its way: a CONN_CLOSE from each CONNECTED
channel, in order, handed to the transport for the channel's device when `out` says it
goes out, and parked for that device with a `kzalloc`ed copy of its header when `out` says
it is deferred. -/
def ClosesOf (cmbox : Nat) (out : Nat → SendOutcome) (chs : List RioChannel) (tx : TxOut) :
    Prop :=
  List.Forall₂ (fun p ch => ch.rdev = some p.rdev ∧ p.hdr = connCloseHdr cmbox ch) tx.sent
      (chs.filter fun ch => ch.state = .connected && out ch.id = .sent) ∧
    List.Forall₂ (fun r ch => ch.cmdev = some r.cm ∧ ch.rdev = some r.rdev ∧
        r.buf = .heap (connCloseHdr cmbox ch)) tx.parked
      (chs.filter fun ch => ch.state = .connected && out ch.id = .deferred)

theorem Node.sweep_filter (n : Node) (p q : RioChannel → Bool) :
    (n.sweep p).filter q = n.sweep fun ch => p ch && q ch := by
  simp only [Node.sweep, List.filter_filterMap]
  congr 1
  funext k
  cases n.chIdr k <;> simp [Option.filter_some, apply_ite, Bool.and_comm]

/-- Closing channels with `riocm_ch_close` sends what the reboot notifier sends from them. -/
theorem closeAll_eq_shutdownLoop (cmbox : Nat) (out : Nat → SendOutcome) :
    ∀ chs : List RioChannel, closeAll cmbox out chs = shutdownLoop cmbox out chs
  | [] => rfl
  | ch :: chs => by
    have ih := closeAll_eq_shutdownLoop cmbox out chs
    by_cases hc : ch.state = .connected
    · cases h : riocmSendClose cmbox ch (out ch.id) <;>
        simp [closeAll, shutdownLoop, riocmChClose, hc, h, ih]
    · simp [closeAll, shutdownLoop, riocmChClose, hc, ih]

/-- The loop closes channels as `ClosesOf` says whenever every CONNECTED one has its
`cm_dev` and its device. -/
theorem shutdownLoop_closesOf (cmbox : Nat) (out : Nat → SendOutcome) :
    ∀ {chs : List RioChannel}, (∀ ch ∈ chs, ch.state = .connected →
      ch.cmdev.isSome ∧ ch.rdev.isSome) →
    ∃ tx, shutdownLoop cmbox out chs = some tx ∧ ClosesOf cmbox out chs tx
  | [], _ => ⟨_, rfl, .nil, .nil⟩
  | ch :: chs, h => by
    obtain ⟨rest, hr, hs, hp⟩ :=
      shutdownLoop_closesOf cmbox out fun c hc => h c (List.mem_cons_of_mem _ hc)
    by_cases hc : ch.state = .connected
    · obtain ⟨c, hcm⟩ := Option.isSome_iff_exists.1 (h ch (List.mem_cons_self _ _) hc).1
      obtain ⟨d, hd⟩ := Option.isSome_iff_exists.1 (h ch (List.mem_cons_self _ _) hc).2
      refine ⟨_, by simp [shutdownLoop, riocmSendClose, riocmPostSendPkt, hc, hcm, hd, hr]; rfl, ?_⟩
      cases ho : out ch.id <;>
        simp [ClosesOf, postSendOut, List.filter_cons, hc, hcm, hd, ho, hs, hp]
    · exact ⟨rest, by simp [shutdownLoop, hc, hr]; rfl, by simpa [List.filter_cons, hc] using hs,
        by simpa [List.filter_cons, hc] using hp⟩

/-- The channels a sweep finds in a state with `ConnLinked` have their devices when
CONNECTED. -/
theorem ConnLinked.sweep {n : Node} (h : ConnLinked n) (p : RioChannel → Bool) :
    ∀ ch ∈ n.sweep p, ch.state = .connected → ch.cmdev.isSome ∧ ch.rdev.isSome :=
  fun ch hch hs => (mem_sweep hch).elim fun k hk => h k ch hk.1 hs

/-- On every state a run from module load reaches, the reboot notifier dereferences
nothing unset, changes no channel, and closes every registered channel as `ClosesOf`
says, in increasing number. -/
theorem rioCmShutdown_spec (cmbox chstart : Nat) (ops : List NodeOp) {n : Node}
    {log : List Nat} (hr : nodeRun (Node.init cmbox chstart) ops = some (n, log))
    (out : Nat → SendOutcome) :
    ∃ tx, rioCmShutdown n out = some (n.park tx.parked, tx.sent) ∧
      ClosesOf n.cmbox out (n.sweep fun _ => true) tx := by
  obtain ⟨tx, hs, hc⟩ :=
    shutdownLoop_closesOf n.cmbox out ((DevInv.connLinked (devInv_of_nodeRun hr)).sweep _)
  exact ⟨tx, by rw [rioCmShutdown, hs]; rfl, hc⟩

theorem rioCmShutdown_spec_connectedHost :
    ∃ n log, nodeRun (Node.init 1 256) connectedHost = some (n, log) ∧
      ∃ tx, rioCmShutdown n (fun _ => .deferred) = some (n.park tx.parked, tx.sent) ∧
        ClosesOf n.cmbox (fun _ => .deferred) (n.sweep fun _ => true) tx :=
  ⟨_, _, rfl, rioCmShutdown_spec 1 256 connectedHost rfl _⟩

/-! ## The end of a sweep -/

theorem Node.sweep_cmDevList (n : Node) (l : List CmDev) (p : RioChannel → Bool) :
    Node.sweep { n with cmDevList := l } p = n.sweep p := by
  rw [Node.sweep, Node.sweep]

/-- The end of a sweep sends what the reboot notifier would send from the updated channels,
taken in the reverse order. -/
theorem Node.releaseChans_eq_shutdownLoop (n : Node) (chs : List RioChannel)
    (f : RioChannel → RioChannel) (out : Nat → SendOutcome) :
    n.releaseChans chs f out = (shutdownLoop n.cmbox out (chs.map f).reverse).map fun tx =>
      ((n.removeChans (chs.map (·.id))).park tx.parked,
        ⟨0, tx.sent, (chs.map f).reverse.map (·.ptr), []⟩) := by
  rw [Node.releaseChans, closeAll_eq_shutdownLoop]

/-- Once the channels a sweep matched are taken out, the registered channels are exactly
those it did not match. -/
theorem RegInv.removeChans_sweep {n : Node} (h : RegInv n) (p : RioChannel → Bool) (k : Nat)
    (ch : RioChannel) :
    (n.removeChans ((n.sweep p).map (·.id))).chIdr k = some ch ↔
      n.chIdr k = some ch ∧ p ch = false := by
  rw [Node.removeChans_chIdr]
  constructor
  · intro hk
    split_ifs at hk with hm
    exact ⟨hk, Bool.eq_false_iff.2 fun hp => hm (h.chan_id hk ▸ h.id_mem_sweep hk hp)⟩
  · rintro ⟨hk, hp⟩
    rw [if_neg fun hm => ?_]
    · exact hk
    obtain ⟨c, hc, rfl⟩ := List.mem_map.1 hm
    obtain ⟨j, hj, hpc⟩ := mem_sweep hc
    rw [h.chan_id hj, hj] at hk
    cases hk
    exact absurd hpc (by simp [hp])

/-! ## riocm_cdev_release -/

/-- Closing the device file releases every channel it owns. On every state a run from
module load reaches, `riocm_cdev_release(filp)` dereferences nothing unset and returns 0;
the channels left registered are exactly those of other files; the channels it closes are
those of `filp`, in decreasing number, and it closes them as `ClosesOf` says, its deferred
requests joining `tx_reqs`. -/
theorem riocmCdevRelease_spec (cmbox chstart : Nat) (ops : List NodeOp) {n : Node}
    {log : List Nat} (hr : nodeRun (Node.init cmbox chstart) ops = some (n, log))
    (filp : Nat) (out : Nat → SendOutcome) :
    ∃ n' o, riocmCdevRelease n filp out = some (n', o) ∧ o.ret = 0 ∧
      (∀ k ch, n'.chIdr k = some ch ↔ n.chIdr k = some ch ∧ ch.filp ≠ filp) ∧
      o.closed = ((n.sweep fun ch => ch.filp = filp).map (·.ptr)).reverse ∧
      ∃ parked, n'.txReqs = n.txReqs ++ parked ∧
        ClosesOf n.cmbox out (n.sweep fun ch => ch.filp = filp).reverse ⟨o.sent, parked⟩ := by
  obtain ⟨tx, hs, hc⟩ := shutdownLoop_closesOf n.cmbox out fun ch hch =>
    (DevInv.connLinked (devInv_of_nodeRun hr)).sweep _ ch (List.mem_reverse.1 hch)
  refine ⟨_, _, by rw [riocmCdevRelease, Node.releaseChans_eq_shutdownLoop, List.map_id, hs]; rfl,
    rfl, fun k ch => ?_, List.map_reverse _ _, tx.parked, rfl, hc⟩
  rw [Node.park_chIdr, (regInv_of_nodeRun hr).removeChans_sweep]
  simp

theorem riocmCdevRelease_spec_connectedHost :
    ∃ n log, nodeRun (Node.init 1 256) connectedHost = some (n, log) ∧
      ∃ n' o, riocmCdevRelease n 9 (fun _ => .sent) = some (n', o) ∧ o.ret = 0 ∧
        (∀ k ch, n'.chIdr k = some ch ↔ n.chIdr k = some ch ∧ ch.filp ≠ 9) ∧
        o.closed = ((n.sweep fun ch => ch.filp = 9).map (·.ptr)).reverse ∧
        ∃ parked, n'.txReqs = n.txReqs ++ parked ∧
          ClosesOf n.cmbox (fun _ => .sent) (n.sweep fun ch => ch.filp = 9).reverse
            ⟨o.sent, parked⟩ :=
  ⟨_, _, rfl, riocmCdevRelease_spec 1 256 connectedHost rfl 9 _⟩

/-! ## riocm_remove_mport -/

/-- Removing an mport closes every channel bound to it. On every state a run from module
load reaches, `riocm_remove_mport(mport)` dereferences nothing unset and returns 0. With no
`cm_dev` for the mport it does nothing; otherwise that `cm_dev` leaves `cm_dev_list`, the
channels left registered are exactly those not bound to it, and the ones bound to it are
closed in decreasing number, as `ClosesOf` says, their deferred requests joining
`tx_reqs`. -/
theorem riocmRemoveMport_spec (cmbox chstart : Nat) (ops : List NodeOp) {n : Node}
    {log : List Nat} (hr : nodeRun (Node.init cmbox chstart) ops = some (n, log))
    (mport : RioMport) (out : Nat → SendOutcome) :
    ∃ n' o, riocmRemoveMport n mport out = some (n', o) ∧ o.ret = 0 ∧
      (n.cmDevList.find? (·.mport.ptr = mport.ptr) = none → n' = n ∧ o = .ofRet 0) ∧
      ∀ cm, n.cmDevList.find? (·.mport.ptr = mport.ptr) = some cm →
        n'.cmDevList = n.cmDevList.erase cm ∧
        (∀ k ch, n'.chIdr k = some ch ↔ n.chIdr k = some ch ∧ ch.cmdev ≠ some cm.ptr) ∧
        o.closed = ((n.sweep fun ch => ch.cmdev = some cm.ptr).map (·.ptr)).reverse ∧
        ∃ parked, n'.txReqs = n.txReqs ++ parked ∧
          ClosesOf n.cmbox out (n.sweep fun ch => ch.cmdev = some cm.ptr).reverse
            ⟨o.sent, parked⟩ := by
  cases hcm : n.cmDevList.find? (·.mport.ptr = mport.ptr) with
  | none => exact ⟨n, .ofRet 0, by simp [riocmRemoveMport, hcm], rfl, fun _ => ⟨rfl, rfl⟩,
      fun _ h => Option.noConfusion h⟩
  | some cm =>
    obtain ⟨tx, hs, hc⟩ := shutdownLoop_closesOf n.cmbox out fun ch hch =>
      (DevInv.connLinked (devInv_of_nodeRun hr)).sweep _ ch (List.mem_reverse.1 hch)
    have hrun : riocmRemoveMport n mport out =
        some ((Node.removeChans { n with cmDevList := n.cmDevList.erase cm }
          ((n.sweep fun ch => ch.cmdev = some cm.ptr).map (·.id))).park tx.parked,
          ⟨0, tx.sent, (n.sweep fun ch => ch.cmdev = some cm.ptr).reverse.map (·.ptr), []⟩) := by
      simp only [riocmRemoveMport, hcm, Node.releaseChans_eq_shutdownLoop, Node.sweep_cmDevList,
        List.map_id]
      rw [hs]
      rfl
    refine ⟨_, _, hrun, rfl, fun h => Option.noConfusion h, fun cm' hcm' => ?_⟩
    cases hcm'
    refine ⟨rfl, fun k ch => ?_, List.map_reverse _ _, tx.parked, rfl, hc⟩
    have h := (regInv_of_nodeRun hr).removeChans_sweep (fun ch => ch.cmdev = some cm.ptr) k ch
    simp only [Node.park_chIdr, Node.removeChans_chIdr] at h ⊢
    simpa using h

theorem riocmRemoveMport_spec_connectedHost :
    ∃ n log, nodeRun (Node.init 1 256) connectedHost = some (n, log) ∧
      ∃ n' o, riocmRemoveMport n ⟨100, 1, 5, true⟩ (fun _ => .deferred) = some (n', o) ∧
        o.ret = 0 ∧
        (n.cmDevList.find? (·.mport.ptr = 100) = none → n' = n ∧ o = .ofRet 0) ∧
        ∀ cm, n.cmDevList.find? (·.mport.ptr = 100) = some cm →
          n'.cmDevList = n.cmDevList.erase cm ∧
          (∀ k ch, n'.chIdr k = some ch ↔ n.chIdr k = some ch ∧ ch.cmdev ≠ some cm.ptr) ∧
          o.closed = ((n.sweep fun ch => ch.cmdev = some cm.ptr).map (·.ptr)).reverse ∧
          ∃ parked, n'.txReqs = n.txReqs ++ parked ∧
            ClosesOf n.cmbox (fun _ => .deferred) (n.sweep fun ch => ch.cmdev = some cm.ptr).reverse
              ⟨o.sent, parked⟩ :=
  ⟨_, _, rfl, riocmRemoveMport_spec 1 256 connectedHost rfl _ _⟩

/-! ## riocm_remove_dev -/

end RioCm
