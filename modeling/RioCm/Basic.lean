import Mathlib.Logic.Function.Basic
import Mathlib.Tactic.Common

/-!
# Basic — constants, channel states and the wire header of `rio_cm`

The data model shared by every other module of the development:

* the ring sizes and channel-number range of `rio_cm.c`;
* the error codes the channel manager returns (as positive `errno` values;
  a function returning `-EINVAL` returns `-Errno.inval`);
* `RioCmState`, the channel state machine's states, and `RioCmChop`, the channel
  operation codes of the header;
* `RioChChanHdr`, the packed channel header (`struct rio_ch_chan_hdr` with its
  `struct rio_ch_base_bhdr` inlined), kept in host byte order: `htonl`/`ntohs`
  are inverse to each other on every field the code writes and reads;
* `RioDev`, the fields of a remote device (`struct rio_dev`) the code reads.

Pointers are modelled by `Ptr`, an address; a nullable pointer is an `Option`.
-/

namespace RioCm

/-! ## Constants -/

/-- `RIOCM_TX_RING_SIZE`. -/
def riocmTxRingSize : Nat := 128

/-- `RIOCM_RX_RING_SIZE`. -/
def riocmRxRingSize : Nat := 128

/-- `RIOCM_MAX_CHNUM`: channel numbers use the full range of the `u16` header field. -/
def riocmMaxChnum : Nat := 0xffff

/-- The default of the module parameter `chstart`. -/
def chstartDefault : Nat := 256

/-- The default of the module parameter `cmbox`. -/
def cmboxDefault : Nat := 1

/-- `RIO_CM_CHAN`, the packet type of channel messages. -/
def rioCmChan : Nat := 0x55

/-- `RIO_CM_SYS`, the packet type of system messages. -/
def rioCmSys : Nat := 0xaa

/-- Slot `i` of a ring of `size` slots is one of the `cnt` slots from `start` on,
around the ring. -/
def InWindow (size start cnt i : Nat) : Prop :=
  (i + size - start) % size < cnt

/-- A window of a 128-slot ring is the slots `k` places after its start, `k < cnt`. -/
theorem inWindow_iff {start cnt i : Nat} (hs : start < 128) (hi : i < 128) (hc : cnt ≤ 128) :
    InWindow 128 start cnt i ↔ ∃ k < cnt, (start + k) % 128 = i := by
  unfold InWindow
  constructor
  · intro h
    exact ⟨(i + 128 - start) % 128, h, by omega⟩
  · rintro ⟨k, hk, rfl⟩
    omega

/-- Growing a window by one adds the slot just after it. -/
theorem inWindow_succ {start cnt i : Nat} (hs : start < 128) (hi : i < 128) (hc : cnt < 128) :
    InWindow 128 start (cnt + 1) i ↔ InWindow 128 start cnt i ∨ i = (start + cnt) % 128 := by
  unfold InWindow; omega

/-- Moving the start of a window on by one drops its first slot. -/
theorem inWindow_advance {start cnt i : Nat} (hs : start < 128) (hi : i < 128)
    (hc : cnt ≤ 128) (hpos : 0 < cnt) :
    InWindow 128 ((start + 1) % 128) (cnt - 1) i ↔ InWindow 128 start cnt i ∧ i ≠ start := by
  unfold InWindow; omega

/-! ## Error codes -/

namespace Errno

def intr : Int := 4
def io : Int := 5
def again : Int := 11
def nomem : Int := 12
def busy : Int := 16
def nodev : Int := 19
def inval : Int := 22
def time : Int := 62
def connreset : Int := 104
def timedout : Int := 110
def canceled : Int := 125

end Errno

/-! ## Channel states and operations -/

/-- `enum rio_cm_state`. -/
inductive RioCmState
  | idle
  | connect
  | connected
  | disconnect
  | chanBound
  | listen
  | destroying
  deriving DecidableEq, Repr

/-- `enum rio_cm_chop`, the `ch_op` codes of the channel header. -/
inductive RioCmChop
  | connReq
  | connAck
  | connClose
  | dataMsg
  deriving DecidableEq, Repr

/-- The `u8` value of each operation code on the wire. -/
def RioCmChop.toNat : RioCmChop → Nat
  | .connReq => 0
  | .connAck => 1
  | .connClose => 2
  | .dataMsg => 3

/-! ## Pointers, devices and the header -/

/-- An address; `Option Ptr` is a pointer that may be `NULL`. -/
abbrev Ptr := Nat

/-- The fields of `struct rio_dev` that the channel manager reads. `ptr` is the
device object's own address, which the code compares for identity. -/
structure RioDev where
  ptr : Nat
  destid : Nat
  /-- `rdev->net->hport`, the address of the local mport the device was found on. -/
  hport : Nat
  /-- `dev_cm_capable(rdev)`: the device can source and sink data messages. -/
  cmCapable : Bool
  /-- `atomic_read(&rdev->state) == RIO_DEVICE_SHUTDOWN`. -/
  shutdown : Bool
  deriving DecidableEq, Repr

/-- `struct rio_ch_chan_hdr`, its base header `bhdr` inlined. -/
structure RioChChanHdr where
  srcId : Nat
  dstId : Nat
  srcMbox : Nat
  dstMbox : Nat
  type : Nat
  chOp : Nat
  dstCh : Nat
  srcCh : Nat
  msgLen : Nat
  rsrvd : Nat
  deriving DecidableEq, Repr

end RioCm
