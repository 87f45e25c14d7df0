import RioCm.Basic

/-!
# TxRing — the outbound ring of a `cm_dev`

`riocm_post_send` places a message in the next slot of a 128-entry ring and hands it
to the transport (`rio_add_outb_message`); when the ring is full, a control message
(`req` set) is parked on the deferred list `tx_reqs` instead. `rio_txcq_handler`
runs on every completion the transport reports: it frees slots from `tx_ack_slot` up
to the reported `slot` (at least one when the ring is full, which tolerates coalesced
completions) and then drains `tx_reqs` into the freed slots.

This module gives both functions as the code computes them, with the environment's
answers (does `kzalloc` succeed, what does the transport return) as arguments, and
proves the ring's representation invariant over every run (`TxRingInv`,
`txRun_inv`).
-/

namespace RioCm

/-! ## State -/

/-- `struct tx_req`: a control message parked until the ring has room. -/
structure TxReq where
  rdev : RioDev
  buffer : Ptr
  len : Nat
  deriving DecidableEq, Repr

/-- The transmit half of `struct cm_dev`. -/
structure CmTx where
  /-- `cm->mport != NULL`. -/
  hasMport : Bool
  txBuf : Nat → Option Ptr
  txSlot : Nat
  txCnt : Int
  txAckSlot : Nat
  txReqs : List TxReq

/-- The transmit state `riocm_add_mport` leaves: a zeroed ring, no deferred request. -/
def CmTx.init : CmTx where
  hasMport := true
  txBuf := fun _ => none
  txSlot := 0
  txCnt := 0
  txAckSlot := 0
  txReqs := []

/-- What a call of `riocm_post_send` leaves: the new state, the return value, and the
messages it handed to `rio_add_outb_message`. -/
structure PostSendOut where
  cm : CmTx
  ret : Int
  sent : List TxReq

/-! ## `riocm_post_send` -/

/-- Put `buffer` in the slot at `tx_slot` and advance: the four statements that both
`riocm_post_send` and the drain of `rio_txcq_handler` run for a message they hand to
the transport. -/
def CmTx.claimSlot (cm : CmTx) (buffer : Ptr) : CmTx :=
  { cm with
    txBuf := Function.update cm.txBuf cm.txSlot (some buffer)
    txCnt := cm.txCnt + 1
    txSlot := (cm.txSlot + 1) % riocmTxRingSize }

@[simp] theorem CmTx.claimSlot_txReqs (cm : CmTx) (b : Ptr) :
    (cm.claimSlot b).txReqs = cm.txReqs := rfl

@[simp] theorem CmTx.claimSlot_txAckSlot (cm : CmTx) (b : Ptr) :
    (cm.claimSlot b).txAckSlot = cm.txAckSlot := rfl

/-- `riocm_post_send(cm, rdev, buffer, len, req)`. `allocOk` says whether the
`kzalloc` of a `tx_req` succeeds, `rc` is what `rio_add_outb_message` returns. The
slot and the count advance whatever the transport answers. -/
def riocmPostSend (cm : CmTx) (rdev : RioDev) (buffer : Ptr) (len : Nat) (req : Bool)
    (allocOk : Bool) (rc : Int) : PostSendOut :=
  if !cm.hasMport then ⟨cm, -Errno.nodev, []⟩
  else if cm.txCnt = riocmTxRingSize then
    if req then
      if allocOk then ⟨{ cm with txReqs := cm.txReqs ++ [⟨rdev, buffer, len⟩] }, -Errno.busy, []⟩
      else ⟨cm, -Errno.nomem, []⟩
    else ⟨cm, -Errno.busy, []⟩
  else ⟨cm.claimSlot buffer, rc, [⟨rdev, buffer, len⟩]⟩

/-! ## `rio_txcq_handler` -/

/-- The guard of the acknowledge loop:
`cm->tx_cnt && ((ack_slot != slot) || (cm->tx_cnt == RIOCM_TX_RING_SIZE))`. -/
def AckContinues (slot : Int) (cm : CmTx) : Prop :=
  cm.txCnt ≠ 0 ∧ ((cm.txAckSlot : Int) ≠ slot ∨ cm.txCnt = riocmTxRingSize)

instance (slot : Int) (cm : CmTx) : Decidable (AckContinues slot cm) :=
  inferInstanceAs (Decidable (_ ∧ _))

/-- One turn of the acknowledge loop: free the slot at `ack_slot` and move on. -/
def ackOne (cm : CmTx) : CmTx :=
  { cm with
    txBuf := Function.update cm.txBuf cm.txAckSlot none
    txAckSlot := (cm.txAckSlot + 1) % riocmTxRingSize
    txCnt := cm.txCnt - 1 }

/-- The acknowledge loop of `rio_txcq_handler`. The local `ack_slot` lives in
`txAckSlot`, where the handler stores it right after the loop. `none` when the loop
has not stopped within `fuel` turns. -/
def txcqAckLoop (slot : Int) : Nat → CmTx → Option CmTx
  | 0, cm => if AckContinues slot cm then none else some cm
  | fuel + 1, cm => if AckContinues slot cm then txcqAckLoop slot fuel (ackOne cm) else some cm

/-- One turn of the drain: the head request leaves `tx_reqs` and takes the slot at
`tx_slot`. -/
def drainOne (r : TxReq) (rs : List TxReq) (cm : CmTx) : CmTx :=
  { cm.claimSlot r.buffer with txReqs := rs }

/-- The drain of `tx_reqs` in `rio_txcq_handler`, called with `cm.txReqs`: every request
goes to `rio_add_outb_message` (whose return value is not looked at), until the list
is empty or the ring is full. Returns the messages handed to the transport. -/
def txcqDrain : List TxReq → CmTx → CmTx × List TxReq
  | [], cm => (cm, [])
  | r :: rs, cm =>
    let cm' := drainOne r rs cm
    if cm'.txCnt = riocmTxRingSize then (cm', [r])
    else
      let rest := txcqDrain rs cm'
      (rest.1, r :: rest.2)

/-- What `rio_txcq_handler` leaves: the new state, whether it printed
"tx_cnt out of sync" (and hit its `WARN_ON`), and the messages the drain handed over. -/
structure TxcqOut where
  cm : CmTx
  outOfSync : Bool
  sent : List TxReq

/-- The turns the acknowledge loop can take in a run that stops: at most `tx_cnt` from a
non-negative count; from a negative one it stops only when `ack_slot` meets `slot`,
within one turn around the ring and one more. -/
def ackFuel (cm : CmTx) : Nat := cm.txCnt.toNat + riocmTxRingSize + 1

/-- `rio_txcq_handler(cm, slot)`; `none` if its acknowledge loop never stops. -/
def rioTxcqHandler (cm : CmTx) (slot : Int) : Option TxcqOut :=
  (txcqAckLoop slot (ackFuel cm) cm).map fun cm =>
    let outOfSync := decide (cm.txCnt < 0 ∨ cm.txCnt > (riocmTxRingSize : Int))
    if cm.txReqs ≠ [] ∧ cm.txCnt < (riocmTxRingSize : Int) then
      ⟨(txcqDrain cm.txReqs cm).1, outOfSync, (txcqDrain cm.txReqs cm).2⟩
    else ⟨cm, outOfSync, []⟩

/-! ## Runs -/

/-- One call into the TX engine, with the environment's answers. -/
inductive TxOp
  | postSend (rdev : RioDev) (buffer : Ptr) (len : Nat) (req : Bool) (allocOk : Bool) (rc : Int)
  | txcq (slot : Int)

/-- The state after one call; `none` if the call never returns. -/
def txStep (cm : CmTx) : TxOp → Option CmTx
  | .postSend rdev buffer len req allocOk rc => some (riocmPostSend cm rdev buffer len req allocOk rc).cm
  | .txcq slot => (rioTxcqHandler cm slot).map TxcqOut.cm

/-- The state after a sequence of calls from `cm`. -/
def txRun : CmTx → List TxOp → Option CmTx
  | cm, [] => some cm
  | cm, op :: ops => (txStep cm op).bind fun cm' => txRun cm' ops

/-! ## The representation invariant -/

@[simp] theorem riocmTxRingSize_eq : riocmTxRingSize = 128 := rfl

/-- The slots of the ring hold exactly the `tx_cnt` messages from `tx_ack_slot` on, and
`tx_slot` is the slot after them. -/
structure TxRingShape (cm : CmTx) : Prop where
  cnt_nonneg : 0 ≤ cm.txCnt
  cnt_le : cm.txCnt ≤ riocmTxRingSize
  slot_lt : cm.txSlot < riocmTxRingSize
  ack_lt : cm.txAckSlot < riocmTxRingSize
  slot_eq : cm.txSlot = (cm.txAckSlot + cm.txCnt.toNat) % riocmTxRingSize
  buf_isSome : ∀ i < riocmTxRingSize,
    (cm.txBuf i).isSome ↔ InWindow riocmTxRingSize cm.txAckSlot cm.txCnt.toNat i

/-- The representation invariant: the ring's shape, and requests are deferred only
while the ring is full. -/
structure TxRingInv (cm : CmTx) extends TxRingShape cm : Prop where
  reqs_full : cm.txReqs ≠ [] → cm.txCnt = riocmTxRingSize

theorem txRingInv_init : TxRingInv CmTx.init where
  cnt_nonneg := by simp [CmTx.init]
  cnt_le := by decide
  slot_lt := by decide
  ack_lt := by decide
  slot_eq := rfl
  buf_isSome := fun i _ => by simp [CmTx.init, InWindow]
  reqs_full := fun h => absurd rfl h

/-- The ring's shape does not look at the deferred list. -/
theorem TxRingShape.setReqs {cm : CmTx} (h : TxRingShape cm) (rs : List TxReq) :
    TxRingShape { cm with txReqs := rs } :=
  ⟨h.cnt_nonneg, h.cnt_le, h.slot_lt, h.ack_lt, h.slot_eq, h.buf_isSome⟩

/-- Claiming a slot adds exactly the slot at `tx_slot` to the window. -/
theorem shape_claimSlot {cm : CmTx} (h : TxRingShape cm)
    (hlt : cm.txCnt < riocmTxRingSize) (b : Ptr) : TxRingShape (cm.claimSlot b) := by
  obtain ⟨h0, -, hs, ha, heq, hbuf⟩ := h
  simp only [riocmTxRingSize_eq] at *
  refine ⟨by simp [CmTx.claimSlot]; omega, by simp [CmTx.claimSlot]; omega,
    by simp [CmTx.claimSlot]; omega, ha, by simp [CmTx.claimSlot]; omega, fun i hi => ?_⟩
  have hw : InWindow riocmTxRingSize cm.txAckSlot (cm.txCnt + 1).toNat i ↔
      InWindow riocmTxRingSize cm.txAckSlot cm.txCnt.toNat i ∨ i = cm.txSlot := by
    rw [show (cm.txCnt + 1).toNat = cm.txCnt.toNat + 1 by omega, heq]
    exact inWindow_succ ha hi (by omega)
  simp only [CmTx.claimSlot, hw, Function.update_apply]
  split_ifs with hi'
  · simp [hi']
  · simp [hi', hbuf i hi]

/-- One turn of the acknowledge loop removes exactly the slot at `tx_ack_slot`. -/
theorem shape_ackOne {cm : CmTx} (h : TxRingShape cm) (hpos : cm.txCnt ≠ 0) :
    TxRingShape (ackOne cm) := by
  obtain ⟨h0, hle, hs, ha, heq, hbuf⟩ := h
  simp only [riocmTxRingSize_eq] at *
  refine ⟨by simp [ackOne]; omega, by simp [ackOne]; omega, hs,
    by simp [ackOne]; omega, by simp [ackOne]; omega, fun i hi => ?_⟩
  have hw : InWindow riocmTxRingSize ((cm.txAckSlot + 1) % riocmTxRingSize) (cm.txCnt - 1).toNat i ↔
      InWindow riocmTxRingSize cm.txAckSlot cm.txCnt.toNat i ∧ i ≠ cm.txAckSlot := by
    rw [show (cm.txCnt - 1).toNat = cm.txCnt.toNat - 1 by omega]
    exact inWindow_advance ha hi (by omega) (by omega)
  simp only [ackOne, hw, Function.update_apply]
  split_ifs with hi'
  · simp [hi']
  · simp [hi', hbuf i hi]

/-- The acknowledge loop keeps the ring's shape, leaves `tx_slot` and `tx_reqs` alone,
and stops only where its guard fails. -/
theorem txcqAckLoop_shape {slot : Int} : ∀ {fuel : Nat} {cm cm' : CmTx}, TxRingShape cm →
    txcqAckLoop slot fuel cm = some cm' →
    TxRingShape cm' ∧ cm'.txSlot = cm.txSlot ∧ cm'.txReqs = cm.txReqs ∧ ¬ AckContinues slot cm'
  | 0, cm, cm', h, hl => by
    simp only [txcqAckLoop] at hl
    split_ifs at hl with hc
    cases hl; exact ⟨h, rfl, rfl, hc⟩
  | fuel + 1, cm, cm', h, hl => by
    simp only [txcqAckLoop] at hl
    split_ifs at hl with hc
    · exact @txcqAckLoop_shape slot fuel (ackOne cm) cm' (shape_ackOne h hc.1) hl
    · cases hl; exact ⟨h, rfl, rfl, hc⟩

/-- From a count in `[0, fuel]` the acknowledge loop stops within `fuel` turns. -/
theorem txcqAckLoop_isSome {slot : Int} : ∀ {fuel : Nat} {cm : CmTx}, 0 ≤ cm.txCnt →
    cm.txCnt ≤ fuel → (txcqAckLoop slot fuel cm).isSome
  | 0, cm, h0, hf => by
    have : ¬ AckContinues slot cm := fun hc => hc.1 (by omega)
    simp [txcqAckLoop, this]
  | fuel + 1, cm, h0, hf => by
    simp only [txcqAckLoop]
    split_ifs with hc
    · have := hc.1
      exact txcqAckLoop_isSome (by simp [ackOne]; omega) (by simp [ackOne]; omega)
    · rfl

/-- The drain keeps the ring's shape; afterwards requests are left only if the ring is
full, and the messages it handed over followed by those left are the list it started
from. -/
theorem txcqDrain_spec : ∀ (rs : List TxReq) {cm : CmTx}, TxRingShape cm →
    cm.txCnt < riocmTxRingSize → cm.txReqs = rs →
    TxRingInv (txcqDrain rs cm).1 ∧ (txcqDrain rs cm).2 ++ (txcqDrain rs cm).1.txReqs = rs
  | [], cm, h, _, hr => ⟨⟨h, fun hne => absurd hr hne⟩, by simp [txcqDrain, hr]⟩
  | r :: rs, cm, h, hlt, _ => by
    have h' : TxRingShape (drainOne r rs cm) := (shape_claimSlot h hlt r.buffer).setReqs rs
    simp only [txcqDrain]
    split_ifs with hfull
    · exact ⟨⟨h', fun _ => hfull⟩, by simp [drainOne]⟩
    · have := h'.cnt_le
      obtain ⟨hi, he⟩ := txcqDrain_spec rs h' (by omega) rfl
      exact ⟨hi, by simp [he]⟩

/-- From a state satisfying the invariant, `rio_txcq_handler` returns, never reports
"tx_cnt out of sync", and keeps the invariant; what it hands over followed by the
requests left is the deferred list it started from. -/
theorem rioTxcqHandler_spec {cm : CmTx} (h : TxRingInv cm) (slot : Int) :
    ∃ out, rioTxcqHandler cm slot = some out ∧ out.outOfSync = false ∧ TxRingInv out.cm ∧
      out.sent ++ out.cm.txReqs = cm.txReqs := by
  have hle := h.cnt_le
  obtain ⟨cm1, hl⟩ := Option.isSome_iff_exists.mp
    (@txcqAckLoop_isSome slot (ackFuel cm) cm h.cnt_nonneg (by simp only [ackFuel]; omega))
  obtain ⟨hs, -, hreq, hstop⟩ := txcqAckLoop_shape h.toTxRingShape hl
  have hlt : cm1.txCnt < riocmTxRingSize := by
    have := hs.cnt_le
    simp only [AckContinues, riocmTxRingSize_eq] at hstop this ⊢
    omega
  have hsync : decide (cm1.txCnt < 0 ∨ cm1.txCnt > (riocmTxRingSize : Int)) = false := by
    have := hs.cnt_nonneg
    simp only [decide_eq_false_iff_not]
    omega
  simp only [rioTxcqHandler, hl, Option.map_some']
  split_ifs with hd
  · obtain ⟨hi, he⟩ := txcqDrain_spec cm1.txReqs hs hlt rfl
    exact ⟨_, rfl, hsync, hi, by rw [he, hreq]⟩
  · exact ⟨_, rfl, hsync, ⟨hs, fun hne => absurd ⟨hne, hlt⟩ hd⟩, by simp [hreq]⟩

/-- Whether `riocm_post_send` takes the message in: the port is there and the ring has
room (the message goes to the transport), or the ring is full, the message is a control
message and its `tx_req` is allocated (it is parked on `tx_reqs`). -/
def PostSendTakes (cm : CmTx) (req allocOk : Bool) : Prop :=
  cm.hasMport ∧ (cm.txCnt ≠ riocmTxRingSize ∨ (req ∧ allocOk))

instance (cm : CmTx) (req allocOk : Bool) : Decidable (PostSendTakes cm req allocOk) :=
  inferInstanceAs (Decidable (_ ∧ _))

/-- `riocm_post_send` keeps the invariant. -/
theorem riocmPostSend_inv {cm : CmTx} (h : TxRingInv cm) (rdev : RioDev) (buffer : Ptr)
    (len : Nat) (req allocOk : Bool) (rc : Int) :
    TxRingInv (riocmPostSend cm rdev buffer len req allocOk rc).cm := by
  unfold riocmPostSend
  split_ifs with hm hf
  · exact h
  · exact ⟨h.toTxRingShape.setReqs _, fun _ => hf⟩
  · exact h
  · exact h
  · have hr : cm.txReqs = [] := by
      by_contra hne; exact hf (h.reqs_full hne)
    have := h.cnt_le
    exact ⟨shape_claimSlot h.toTxRingShape (by omega) buffer, fun hne => absurd hr hne⟩

/-- `riocm_post_send` puts the message it takes in behind the deferred ones: what it
hands over followed by the requests left is the old deferred list followed by the
message, if taken. -/
theorem riocmPostSend_fifo {cm : CmTx} (h : TxRingInv cm) (rdev : RioDev) (buffer : Ptr)
    (len : Nat) (req allocOk : Bool) (rc : Int) :
    (riocmPostSend cm rdev buffer len req allocOk rc).sent ++
        (riocmPostSend cm rdev buffer len req allocOk rc).cm.txReqs =
      cm.txReqs ++ (if PostSendTakes cm req allocOk then [⟨rdev, buffer, len⟩] else []) := by
  have hr := h.reqs_full
  unfold riocmPostSend PostSendTakes
  split_ifs <;> simp_all

/-- Every call keeps the invariant and returns. -/
theorem txStep_inv {cm : CmTx} (h : TxRingInv cm) (op : TxOp) :
    ∃ cm', txStep cm op = some cm' ∧ TxRingInv cm' := by
  cases op with
  | postSend rdev buffer len req allocOk rc =>
    exact ⟨_, rfl, riocmPostSend_inv h rdev buffer len req allocOk rc⟩
  | txcq slot =>
    obtain ⟨out, ho, -, hi, -⟩ := rioTxcqHandler_spec h slot
    exact ⟨out.cm, by simp [txStep, ho], hi⟩

/-- Every run from a state satisfying the invariant returns, into such a state. -/
theorem txRun_inv : ∀ (ops : List TxOp) {cm : CmTx}, TxRingInv cm →
    ∃ cm', txRun cm ops = some cm' ∧ TxRingInv cm'
  | [], cm, h => ⟨cm, rfl, h⟩
  | op :: ops, cm, h => by
    obtain ⟨cm1, h1, hi1⟩ := txStep_inv h op
    simpa [txRun, h1] using txRun_inv ops hi1

/-- The TX ring's representation invariant, over every sequence of `riocm_post_send` and
`rio_txcq_handler` calls from the state `riocm_add_mport` leaves: the count lies in
`[0, 128]`, both indices in `[0, 128)`, `tx_slot` is `tx_cnt` slots after
`tx_ack_slot`, the non-`NULL` slots are exactly the `tx_cnt` slots from `tx_ack_slot`
on, and requests are deferred only while the ring is full. From every such state a
completion returns (its acknowledge loop stops) without reporting "tx_cnt out of sync". -/
theorem txRun_representation (ops : List TxOp) :
    ∃ cm, txRun CmTx.init ops = some cm ∧
      0 ≤ cm.txCnt ∧ cm.txCnt ≤ riocmTxRingSize ∧
      cm.txSlot < riocmTxRingSize ∧ cm.txAckSlot < riocmTxRingSize ∧
      (cm.txSlot : Int) = (cm.txAckSlot + cm.txCnt) % riocmTxRingSize ∧
      (∀ i < riocmTxRingSize, cm.txBuf i ≠ none ↔
        ∃ k : Nat, (k : Int) < cm.txCnt ∧ (cm.txAckSlot + k) % riocmTxRingSize = i) ∧
      (cm.txReqs ≠ [] → cm.txCnt = riocmTxRingSize) ∧
      ∀ slot : Int, ∃ out, rioTxcqHandler cm slot = some out ∧ out.outOfSync = false := by
  obtain ⟨cm, hrun, h⟩ := txRun_inv ops txRingInv_init
  have h0 := h.cnt_nonneg
  have h1 := h.cnt_le
  have h2 := h.slot_eq
  refine ⟨cm, hrun, h0, h1, h.slot_lt, h.ack_lt, ?_, fun i hi => ?_, h.reqs_full,
    fun slot => ?_⟩
  · simp only [riocmTxRingSize_eq] at *
    omega
  · rw [Option.ne_none_iff_isSome, h.buf_isSome i hi]
    simp only [riocmTxRingSize_eq] at hi h1 ⊢
    rw [inWindow_iff h.ack_lt hi (by omega)]
    constructor <;> rintro ⟨k, hk, he⟩ <;> exact ⟨k, by omega, he⟩
  · obtain ⟨out, ho, hs, -⟩ := rioTxcqHandler_spec h slot
    exact ⟨out, ho, hs⟩

/-! ## The TX engine as a FIFO of submissions -/

/-- The TX engine with its history: the messages handed to `rio_add_outb_message` so
far (by `riocm_post_send` and by the drain), the submissions reported accepted by their
return value (0, or -EBUSY for a control message whose `tx_req` was queued), and the
submissions taken in (`PostSendTakes`). -/
structure TxHist where
  cm : CmTx
  sent : List TxReq
  accepted : List TxReq
  taken : List TxReq

def TxHist.init : TxHist := ⟨CmTx.init, [], [], []⟩

/-- A submission is accepted, by its return value: `riocm_post_send` returned 0, or
returned -EBUSY for a control message after queuing its `tx_req`. -/
def PostSendAccepted (cm : CmTx) (req : Bool) (o : PostSendOut) : Prop :=
  o.ret = 0 ∨ (o.ret = -Errno.busy ∧ req = true ∧ o.cm.txReqs ≠ cm.txReqs)

instance (cm : CmTx) (req : Bool) (o : PostSendOut) : Decidable (PostSendAccepted cm req o) :=
  inferInstanceAs (Decidable (_ ∨ _))

/-- One call, recorded in the history. -/
def txHistStep (h : TxHist) : TxOp → Option TxHist
  | .postSend rdev buffer len req allocOk rc =>
    let o := riocmPostSend h.cm rdev buffer len req allocOk rc
    some
      { cm := o.cm
        sent := h.sent ++ o.sent
        accepted := h.accepted ++
          if PostSendAccepted h.cm req o then [⟨rdev, buffer, len⟩] else []
        taken := h.taken ++
          if PostSendTakes h.cm req allocOk then [⟨rdev, buffer, len⟩] else [] }
  | .txcq slot =>
    (rioTxcqHandler h.cm slot).map fun out => { h with cm := out.cm, sent := h.sent ++ out.sent }

/-- The history after a sequence of calls. -/
def txHistRun : TxHist → List TxOp → Option TxHist
  | h, [] => some h
  | h, op :: ops => (txHistStep h op).bind fun h' => txHistRun h' ops

/-- Acceptance by return value does not match what reached the transport: a message the
transport rejects was handed to `rio_add_outb_message` but `riocm_post_send` returns the
transport's error. -/
theorem txHistRun_accepted_counterexample :
    ∃ ops h, txHistRun TxHist.init ops = some h ∧ h.sent ++ h.cm.txReqs ≠ h.accepted :=
  ⟨[.postSend ⟨1, 2, 0, true, false⟩ 1 20 true true (-Errno.io)], _, rfl, by decide⟩

/-- The TX engine refines a FIFO of the submissions it takes in: the messages handed to
`rio_add_outb_message` so far, followed by `tx_reqs` in list order, are exactly the
submissions taken in, in order. No deferred message is lost, duplicated, or overtaken
by a later one. -/
theorem txHistRun_fifo (ops : List TxOp) :
    ∃ h, txHistRun TxHist.init ops = some h ∧ h.sent ++ h.cm.txReqs = h.taken := by
  suffices ∀ ops (h : TxHist), TxRingInv h.cm → h.sent ++ h.cm.txReqs = h.taken →
      ∃ h', txHistRun h ops = some h' ∧ h'.sent ++ h'.cm.txReqs = h'.taken by
    exact this ops _ txRingInv_init rfl
  intro ops
  induction ops with
  | nil => exact fun h _ he => ⟨h, rfl, he⟩
  | cons op ops ih =>
    intro h hi he
    cases op with
    | postSend rdev buffer len req allocOk rc =>
      apply ih _ (riocmPostSend_inv hi rdev buffer len req allocOk rc)
      simp only [List.append_assoc, riocmPostSend_fifo hi, ← he]
    | txcq slot =>
      obtain ⟨out, ho, -, hi', hs⟩ := rioTxcqHandler_spec hi slot
      simpa [txHistRun, txHistStep, ho] using
        ih { h with cm := out.cm, sent := h.sent ++ out.sent } hi' (by simp [hs, he])

/-! ## The count against the transport -/

/-- The outbound mailbox as a transport: a 128-entry ring with a write index, the index
of its oldest pending entry, and the number of entries pending. -/
structure OutbMbox where
  writeIdx : Nat
  oldest : Nat
  pending : Nat
  deriving DecidableEq, Repr

def OutbMbox.init : OutbMbox := ⟨0, 0, 0⟩

/-- The transport's side of `rio_add_outb_message`: an accepted message takes the entry
at the write index; a rejected one leaves the ring as it was. -/
def OutbMbox.add (m : OutbMbox) (accept : Bool) : OutbMbox :=
  if accept then { m with writeIdx := (m.writeIdx + 1) % 128, pending := m.pending + 1 } else m

/-- A submission the transport rejects is still counted: from the state
`riocm_add_mport` leaves, a `riocm_post_send` whose `rio_add_outb_message` fails
returns the error, yet `tx_cnt` and `tx_slot` advance to 1 while the transport holds
no message and its write index stays 0. -/
theorem riocmPostSend_counts_rejected :
    (riocmPostSend CmTx.init ⟨1, 2, 0, true, false⟩ 1 20 true true (-Errno.io)).ret = -Errno.io ∧
    (riocmPostSend CmTx.init ⟨1, 2, 0, true, false⟩ 1 20 true true (-Errno.io)).cm.txCnt = 1 ∧
    (riocmPostSend CmTx.init ⟨1, 2, 0, true, false⟩ 1 20 true true (-Errno.io)).cm.txSlot = 1 ∧
    OutbMbox.init.add false = ⟨0, 0, 0⟩ := by
  decide

end RioCm
