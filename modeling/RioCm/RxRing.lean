import RioCm.Basic
import Mathlib.Data.List.Nodup
import Mathlib.Data.Finset.Card

/-!
# RxRing — the receive ring of a channel

Every channel has a 128-entry ring of received data buffers (`struct chan_rx_ring`).
`rio_rx_data_handler` stores an inbound data message at `head` while the channel is
connected and the ring is not full; `riocm_ch_receive` takes the buffer at `tail`,
records it in the first free entry of the parallel table `inuse` (buffers lent to the
reader until `riocm_ch_free_rxbuf`) and hands it to the caller. `riocm_ch_free`
frees what is left when the last reference goes.

The abstraction is the queue `q = [buf[tail], buf[tail+1], ...]` of length `count`
(`rxQueue`); `RxRingInv` is the representation invariant, and `rxRun_fifo` shows that the
ring refines a bounded FIFO queue over every run.

The table `inuse` and its counter `inuse_cnt` are written by two linear searches in two
functions. `RxBufInv` adds to the ring's invariant that the counter is the number of
entries holding a buffer, and `rxBufRun_inuse_exact` shows that it holds over every run
of receives, frees and arriving messages.
-/

namespace RioCm

/-! ## State and operations -/

/-- `struct chan_rx_ring`. -/
structure ChanRxRing where
  buf : Nat → Option Ptr
  head : Nat
  tail : Nat
  count : Int
  inuse : Nat → Option Ptr
  inuseCnt : Int

/-- The ring of a channel `riocm_ch_alloc` returns: the object is `kzalloc`ed and the
cursors and counters set to 0. -/
def ChanRxRing.init : ChanRxRing := ⟨fun _ => none, 0, 0, 0, fun _ => none, 0⟩

/-- The part of `rio_rx_data_handler` under the channel lock, for a channel in state
`st`: store the buffer at `head` if the channel is connected and the ring is not full;
otherwise the buffer is freed and the ring left alone. -/
def rxRingPush (st : RioCmState) (r : ChanRxRing) (b : Ptr) : ChanRxRing × Int :=
  if st ≠ .connected then (r, -Errno.io)
  else if r.count = riocmRxRingSize then (r, -Errno.nomem)
  else
    ({ r with
        buf := Function.update r.buf r.head (some b)
        head := (r.head + 1) % riocmRxRingSize
        count := r.count + 1 }, 0)

/-- The dequeue in `riocm_ch_receive`: take the buffer at `tail` and clear its slot. -/
def rxRingDequeue (r : ChanRxRing) : ChanRxRing × Option Ptr :=
  ({ r with
      buf := Function.update r.buf r.tail none
      count := r.count - 1
      tail := (r.tail + 1) % riocmRxRingSize }, r.buf r.tail)

/-- The first `NULL` entry of a 128-entry table, found by the linear search of
`riocm_ch_receive`. -/
def firstNull (t : Nat → Option Ptr) : Option Nat :=
  (List.range riocmRxRingSize).find? fun i => (t i).isNone

/-- How a wait of a reader (`riocm_wait_for_rx_data`) or of an acceptor
(`riocm_wait_for_connect_req`) ends when nothing arrives while the caller sleeps: a signal,
the timeout, or a wake-up after the channel left the state the caller waits in. -/
inductive RxWaitEnd
  | signal
  | timeout
  | left
  deriving DecidableEq, Repr

/-- What `riocm_wait_for_rx_data` returns for each ending. -/
def RxWaitEnd.err : RxWaitEnd → Int
  | .signal => -Errno.intr
  | .timeout => -Errno.time
  | .left => -Errno.connreset

/-- What `riocm_ch_receive` leaves: the ring, the return value and `*buf`. -/
structure ReceiveOut where
  ring : ChanRxRing
  ret : Int
  buf : Option Ptr

/-- `riocm_ch_receive(ch, &buf, &len, timeout)` on a channel in state `st`. If the ring
is empty the caller waits; `w` says how the wait ends when nothing arrives. A buffer
with no free `inuse` entry to record it in is freed and not returned. -/
def riocmChReceive (st : RioCmState) (r : ChanRxRing) (w : RxWaitEnd) : ReceiveOut :=
  if st ≠ .connected then ⟨r, -Errno.again, none⟩
  else if r.inuseCnt = riocmRxRingSize then ⟨r, -Errno.nomem, none⟩
  else if r.count = 0 then ⟨r, w.err, none⟩
  else
    let d := rxRingDequeue r
    match firstNull d.1.inuse with
    | some i => ⟨{ d.1 with inuse := Function.update d.1.inuse i d.2, inuseCnt := d.1.inuseCnt + 1 },
        0, d.2⟩
    | none => ⟨d.1, -Errno.nomem, none⟩

/-- `riocm_ch_free_rxbuf(ch, buf)`: the first `inuse` entry holding `buf` is cleared
(and the buffer freed), and 0 returned; if no entry holds it, nothing changes and the
call returns `-EINVAL`. -/
def riocmChFreeRxbuf (r : ChanRxRing) (buf : Option Ptr) : ChanRxRing × Int :=
  match (List.range riocmRxRingSize).find? fun i => r.inuse i = buf with
  | some i => ({ r with inuse := Function.update r.inuse i none, inuseCnt := r.inuseCnt - 1 }, 0)
  | none => (r, -Errno.inval)

/-- One call on the channel's ring, with the channel's state at the time of the call. -/
inductive RxOp
  | push (st : RioCmState) (b : Ptr)
  | receive (st : RioCmState) (w : RxWaitEnd)

def rxStep (r : ChanRxRing) : RxOp → ChanRxRing
  | .push st b => (rxRingPush st r b).1
  | .receive st w => (riocmChReceive st r w).ring

@[simp] theorem riocmRxRingSize_eq : riocmRxRingSize = 128 := rfl

/-- The claim's queue `q = [buf[tail], buf[tail+1], ...]` of length `count`. -/
def rxQueue (r : ChanRxRing) : List (Option Ptr) :=
  (List.range r.count.toNat).map fun k => r.buf ((r.tail + k) % riocmRxRingSize)

/-- The representation invariant of the RX ring: the count lies in `[0, 128]`, `head` is
`count` slots after `tail`, and the non-`NULL` slots are exactly the window. -/
structure RxRingInv (r : ChanRxRing) : Prop where
  count_nonneg : 0 ≤ r.count
  count_le : r.count ≤ riocmRxRingSize
  tail_lt : r.tail < riocmRxRingSize
  head_eq : r.head = (r.tail + r.count.toNat) % riocmRxRingSize
  buf_isSome : ∀ i < riocmRxRingSize,
    (r.buf i).isSome ↔ InWindow riocmRxRingSize r.tail r.count.toNat i

theorem rxRingInv_init : RxRingInv ChanRxRing.init where
  count_nonneg := by simp [ChanRxRing.init]
  count_le := by decide
  tail_lt := by decide
  head_eq := rfl
  buf_isSome := fun i _ => by simp [ChanRxRing.init, InWindow]

/-- The ring proper does not look at the `inuse` table. -/
theorem RxRingInv.setInuse {r : ChanRxRing} (h : RxRingInv r) (t : Nat → Option Ptr) (c : Int) :
    RxRingInv { r with inuse := t, inuseCnt := c } :=
  ⟨h.count_nonneg, h.count_le, h.tail_lt, h.head_eq, h.buf_isSome⟩

/-- Every slot of the window holds a buffer. -/
theorem RxRingInv.queue_isSome {r : ChanRxRing} (h : RxRingInv r) :
    ∀ x ∈ rxQueue r, x.isSome := by
  have := h.count_le
  simp only [rxQueue, List.mem_map, List.mem_range]
  rintro x ⟨k, hk, rfl⟩
  rw [h.buf_isSome _ (Nat.mod_lt _ (by decide))]
  simp only [riocmRxRingSize_eq] at *
  exact (inWindow_iff h.tail_lt (Nat.mod_lt _ (by decide)) (by omega)).2 ⟨k, hk, rfl⟩

/-- A push on a connected channel whose ring is not full appends the buffer to the
queue and keeps the invariant. -/
theorem rxRingPush_connected {r : ChanRxRing} (h : RxRingInv r)
    (hlt : r.count < riocmRxRingSize) (b : Ptr) :
    RxRingInv (rxRingPush .connected r b).1 ∧
      rxQueue (rxRingPush .connected r b).1 = rxQueue r ++ [some b] ∧
      (rxRingPush .connected r b).2 = 0 := by
  obtain ⟨h0, -, ht, hh, hbuf⟩ := h
  have hne : r.count ≠ riocmRxRingSize := by omega
  simp only [rxRingPush, ne_eq, not_true_eq_false, ↓reduceIte, hne, and_true]
  simp only [riocmRxRingSize_eq] at *
  have hs : (r.count + 1).toNat = r.count.toNat + 1 := by omega
  refine ⟨⟨?_, ?_, ht, ?_, fun i hi => ?_⟩, ?_⟩
  all_goals dsimp only; simp only [riocmRxRingSize_eq] at *
  · omega
  · omega
  · omega
  · rw [hs, inWindow_succ ht hi (by omega), Function.update_apply, ← hh]
    split_ifs with hi'
    · simp [hi']
    · simp [hi', hbuf i hi]
  · simp only [rxQueue, hs, List.range_succ, List.map_append, riocmRxRingSize_eq]
    congr 1
    · refine List.map_congr_left fun k hk => ?_
      rw [List.mem_range] at hk
      rw [Function.update_apply, if_neg (by omega)]
    · simp only [List.map_cons, List.map_nil, Function.update_apply]
      rw [if_pos (by omega)]

/-- A push on a channel that is not connected, or on a full ring, leaves the ring
alone. -/
theorem rxRingPush_drop {st : RioCmState} {r : ChanRxRing} (b : Ptr)
    (h : st ≠ .connected ∨ r.count = riocmRxRingSize) : (rxRingPush st r b).1 = r := by
  unfold rxRingPush
  split_ifs <;> simp_all

/-- The dequeue takes the head of the queue, leaves the rest, and keeps the invariant. -/
theorem rxRingDequeue_spec {r : ChanRxRing} (h : RxRingInv r) (hne : r.count ≠ 0) :
    RxRingInv (rxRingDequeue r).1 ∧
      rxQueue r = (rxRingDequeue r).2 :: rxQueue (rxRingDequeue r).1 := by
  obtain ⟨h0, hle, ht, hh, hbuf⟩ := h
  simp only [riocmRxRingSize_eq] at *
  have hs : (r.count - 1).toNat = r.count.toNat - 1 := by omega
  simp only [rxRingDequeue]
  refine ⟨⟨?_, ?_, ?_, ?_, fun i hi => ?_⟩, ?_⟩
  all_goals dsimp only; simp only [riocmRxRingSize_eq] at *
  · omega
  · omega
  · omega
  · omega
  · rw [hs, inWindow_advance ht hi (by omega) (by omega), Function.update_apply]
    split_ifs with hi'
    · simp [hi']
    · simp [hi', hbuf i hi]
  · obtain ⟨m, hm⟩ : ∃ m, r.count.toNat = m + 1 := ⟨r.count.toNat - 1, by omega⟩
    simp only [rxQueue, hs, hm, List.range_succ_eq_map, List.map_cons, List.map_map,
      riocmRxRingSize_eq, Nat.add_sub_cancel]
    refine congrArg₂ _ (by simp [Nat.mod_eq_of_lt ht]) (List.map_congr_left fun k hk => ?_)
    rw [List.mem_range] at hk
    simp only [Function.comp, Function.update_apply]
    rw [if_neg (by omega)]
    congr 1
    omega

/-- `riocm_ch_receive` leaves the ring alone and returns an error and no buffer, or takes
the head of its queue: the ring is then the dequeued one with a new `inuse` table, and the
head is returned with 0 or freed with an error. -/
theorem riocmChReceive_cases (st : RioCmState) (r : ChanRxRing) (w : RxWaitEnd) :
    ((riocmChReceive st r w).ring = r ∧ (riocmChReceive st r w).buf = none ∧
        (riocmChReceive st r w).ret ≠ 0) ∨
      (r.count ≠ 0 ∧ ∃ t c,
        (riocmChReceive st r w).ring = { (rxRingDequeue r).1 with inuse := t, inuseCnt := c } ∧
        ((riocmChReceive st r w).buf = none ∧ (riocmChReceive st r w).ret ≠ 0 ∨
          (riocmChReceive st r w).buf = (rxRingDequeue r).2 ∧
            (riocmChReceive st r w).ret = 0)) := by
  unfold riocmChReceive
  split_ifs with h1 h2 h3
  · exact .inl ⟨rfl, rfl, by simp [Errno.again]⟩
  · exact .inl ⟨rfl, rfl, by simp [Errno.nomem]⟩
  · exact .inl ⟨rfl, rfl, by cases w <;> simp [RxWaitEnd.err, Errno.intr, Errno.time, Errno.connreset]⟩
  · refine .inr ⟨h3, ?_⟩
    dsimp only
    cases hf : firstNull (rxRingDequeue r).1.inuse with
    | some i =>
      exact ⟨Function.update (rxRingDequeue r).1.inuse i (rxRingDequeue r).2,
        (rxRingDequeue r).1.inuseCnt + 1, by simp only [hf], .inr ⟨by simp only [hf], by simp only [hf]⟩⟩
    | none =>
      exact ⟨(rxRingDequeue r).1.inuse, (rxRingDequeue r).1.inuseCnt, by simp only [hf],
        .inl ⟨by simp only [hf], by simp [hf, Errno.nomem]⟩⟩

/-- Every call keeps the invariant. -/
theorem rxStep_inv {r : ChanRxRing} (h : RxRingInv r) (op : RxOp) : RxRingInv (rxStep r op) := by
  cases op with
  | push st b =>
    by_cases hc : st = .connected ∧ r.count < riocmRxRingSize
    · obtain ⟨rfl, hlt⟩ := hc
      exact (rxRingPush_connected h hlt b).1
    · have hd : st ≠ .connected ∨ r.count = riocmRxRingSize := by
        by_cases hs : st = .connected
        · have := h.count_le
          simp only [hs, true_and, not_lt, riocmRxRingSize_eq] at hc this ⊢
          exact .inr (by omega)
        · exact .inl hs
      rw [rxStep, rxRingPush_drop b hd]
      exact h
  | receive st w =>
    rcases riocmChReceive_cases st r w with ⟨he, -⟩ | ⟨hne, t, c, he, -⟩
    · rw [rxStep, he]; exact h
    · rw [rxStep, he]; exact (rxRingDequeue_spec h hne).1.setInuse t c

/-- The number of entries of a 128-entry table that hold a buffer. -/
def inuseCount (t : Nat → Option Ptr) : Nat :=
  ((Finset.range riocmRxRingSize).filter fun i => (t i).isSome).card

theorem inuseCount_le (t : Nat → Option Ptr) : inuseCount t ≤ riocmRxRingSize :=
  (Finset.card_filter_le _ _).trans (Finset.card_range _).le

/-- The count splits into one entry and the others. -/
theorem inuseCount_split (t : Nat → Option Ptr) {i : Nat} (hi : i < riocmRxRingSize) :
    inuseCount t = (((Finset.range riocmRxRingSize).erase i).filter fun j => (t j).isSome).card +
      if (t i).isSome then 1 else 0 := by
  unfold inuseCount
  conv_lhs => rw [← Finset.insert_erase (Finset.mem_range.2 hi), Finset.filter_insert]
  split_ifs
  · exact Finset.card_insert_of_not_mem (by simp)
  · rfl

/-- Writing one entry changes the count by what the entry held and what it holds now. -/
theorem inuseCount_update (t : Nat → Option Ptr) {i : Nat} (hi : i < riocmRxRingSize)
    (v : Option Ptr) :
    inuseCount (Function.update t i v) + (if (t i).isSome then 1 else 0) =
      inuseCount t + if v.isSome then 1 else 0 := by
  have hrest : ((Finset.range riocmRxRingSize).erase i).filter
      (fun j => (Function.update t i v j).isSome) =
      ((Finset.range riocmRxRingSize).erase i).filter fun j => (t j).isSome :=
    Finset.filter_congr fun j hj => by rw [Function.update_noteq (Finset.ne_of_mem_erase hj)]
  rw [inuseCount_split _ hi, inuseCount_split t hi, hrest, Function.update_same]
  omega

theorem firstNull_some {t : Nat → Option Ptr} {i : Nat} (h : firstNull t = some i) :
    i < riocmRxRingSize ∧ t i = none :=
  ⟨List.mem_range.1 (List.mem_of_find?_eq_some h), by simpa using List.find?_some h⟩

/-- The linear search of `riocm_ch_receive` finds no `NULL` entry only in a full table. -/
theorem inuseCount_of_firstNull_none {t : Nat → Option Ptr} (h : firstNull t = none) :
    inuseCount t = riocmRxRingSize := by
  rw [firstNull, List.find?_eq_none] at h
  rw [inuseCount, Finset.filter_true_of_mem, Finset.card_range]
  intro j hj
  exact Option.isSome_iff_ne_none.2 (by simpa using h j (List.mem_range.2 (Finset.mem_range.1 hj)))

/-- The ring's invariant, and `inuse_cnt` counting the entries of `inuse` that hold a
buffer. -/
structure RxBufInv (r : ChanRxRing) : Prop where
  ring : RxRingInv r
  exact : r.inuseCnt = inuseCount r.inuse

theorem rxBufInv_init : RxBufInv ChanRxRing.init :=
  ⟨rxRingInv_init, by simp [ChanRxRing.init, inuseCount]⟩

theorem RxBufInv.inuseCnt_le {r : ChanRxRing} (h : RxBufInv r) :
    r.inuseCnt ≤ riocmRxRingSize := by
  have := inuseCount_le r.inuse
  rw [h.exact]
  exact_mod_cast this

/-- A push does not look at the table. -/
theorem rxRingPush_inuse (st : RioCmState) (r : ChanRxRing) (b : Ptr) :
    (rxRingPush st r b).1.inuse = r.inuse ∧ (rxRingPush st r b).1.inuseCnt = r.inuseCnt := by
  unfold rxRingPush
  split_ifs <;> exact ⟨rfl, rfl⟩

/-- `riocm_ch_receive` keeps the table exact. When it returns 0 it has stored the dequeued
buffer in an entry that was `NULL`, changing no other, and returns that buffer. -/
theorem riocmChReceive_inuse {r : ChanRxRing} (h : RxBufInv r) (st : RioCmState) (w : RxWaitEnd) :
    RxBufInv (riocmChReceive st r w).ring ∧
      ((riocmChReceive st r w).ret = 0 → ∃ i < riocmRxRingSize, r.inuse i = none ∧
        (riocmChReceive st r w).ring.inuse = Function.update r.inuse i (rxRingDequeue r).2 ∧
        (riocmChReceive st r w).buf = (rxRingDequeue r).2) := by
  have hw : w.err ≠ 0 := by cases w <;> decide
  unfold riocmChReceive
  split_ifs with h1 h2 h3
  · exact ⟨h, fun h0 => absurd h0 (show -Errno.again ≠ 0 by decide)⟩
  · exact ⟨h, fun h0 => absurd h0 (show -Errno.nomem ≠ 0 by decide)⟩
  · exact ⟨h, fun h0 => absurd h0 hw⟩
  obtain ⟨hring, hq⟩ := rxRingDequeue_spec h.ring h3
  have hb : ((rxRingDequeue r).2).isSome := h.ring.queue_isSome _ (by rw [hq]; exact .head _)
  dsimp only
  split
  · rename_i i hf
    obtain ⟨hi, hnull⟩ := firstNull_some hf
    have hnull : r.inuse i = none := hnull
    have hc := inuseCount_update r.inuse hi (rxRingDequeue r).2
    simp only [hnull, hb, Option.isSome_none, Bool.false_eq_true, if_false, if_true,
      add_zero] at hc
    refine ⟨⟨hring.setInuse _ _, ?_⟩, fun _ => ⟨i, hi, hnull, rfl, rfl⟩⟩
    show r.inuseCnt + 1 = ((inuseCount (Function.update r.inuse i (rxRingDequeue r).2) : Nat) : Int)
    rw [h.exact, hc]
    push_cast
    rfl
  · exact ⟨⟨hring, h.exact⟩, fun h0 => absurd h0 (show -Errno.nomem ≠ 0 by decide)⟩

/-- `riocm_ch_free_rxbuf(ch, b)` on a buffer that an entry of `inuse` holds clears one such
entry and returns 0; on a buffer that no entry holds it changes nothing and returns
`-EINVAL`. -/
theorem riocmChFreeRxbuf_cases (r : ChanRxRing) (b : Option Ptr) :
    (∃ i < riocmRxRingSize, r.inuse i = b ∧ riocmChFreeRxbuf r b =
      ({ r with inuse := Function.update r.inuse i none, inuseCnt := r.inuseCnt - 1 }, 0)) ∨
    ((∀ i < riocmRxRingSize, r.inuse i ≠ b) ∧ riocmChFreeRxbuf r b = (r, -Errno.inval)) := by
  unfold riocmChFreeRxbuf
  split
  · rename_i i hf
    exact .inl ⟨i, List.mem_range.1 (List.mem_of_find?_eq_some hf),
      by simpa using List.find?_some hf, rfl⟩
  · rename_i hf
    rw [List.find?_eq_none] at hf
    exact .inr ⟨fun i hi => by simpa using hf i (List.mem_range.2 hi), rfl⟩

/-- Freeing a buffer other than `NULL` keeps the table exact. -/
theorem RxBufInv.freeRxbuf {r : ChanRxRing} (h : RxBufInv r) (b : Ptr) :
    RxBufInv (riocmChFreeRxbuf r (some b)).1 := by
  rcases riocmChFreeRxbuf_cases r (some b) with ⟨i, hi, hb, he⟩ | ⟨-, he⟩
  · rw [he]
    have hc := inuseCount_update r.inuse hi none
    simp only [hb, Option.isSome_some, Option.isSome_none, Bool.false_eq_true, if_false,
      if_true, add_zero] at hc
    refine ⟨h.ring.setInuse _ _, ?_⟩
    show r.inuseCnt - 1 = ((inuseCount (Function.update r.inuse i none) : Nat) : Int)
    rw [h.exact]
    omega
  · rw [he]
    exact h

/-- Past its `inuse_cnt` check, a receive on a connected channel with a message waiting
returns 0 and the dequeued buffer: the branch that drops the message for want of a free
entry is not taken. -/
theorem riocmChReceive_no_drop {r : ChanRxRing} (h : RxBufInv r)
    (hc : r.inuseCnt ≠ riocmRxRingSize) (hne : r.count ≠ 0) (w : RxWaitEnd) :
    (riocmChReceive .connected r w).ret = 0 ∧
      (riocmChReceive .connected r w).buf = (rxRingDequeue r).2 := by
  have hf : firstNull (rxRingDequeue r).1.inuse ≠ none := fun hf =>
    hc (by rw [h.exact]; exact_mod_cast inuseCount_of_firstNull_none hf)
  obtain ⟨i, hi⟩ := Option.ne_none_iff_exists'.1 hf
  simp [riocmChReceive, hne, hi, show r.inuseCnt ≠ 128 by simpa using hc]

/-- A call on a channel's ring and its lent-buffer table: a push or a receive of `RxOp`,
or `riocm_ch_free_rxbuf(ch, b)` on a buffer `b` that is not `NULL`. -/
inductive RxBufOp
  | ring (op : RxOp)
  | freeRxbuf (b : Ptr)

def rxBufStep (r : ChanRxRing) : RxBufOp → ChanRxRing
  | .ring op => rxStep r op
  | .freeRxbuf b => (riocmChFreeRxbuf r (some b)).1

def rxBufRun (r : ChanRxRing) (ops : List RxBufOp) : ChanRxRing :=
  ops.foldl rxBufStep r

theorem rxBufStep_inv {r : ChanRxRing} (h : RxBufInv r) : ∀ op, RxBufInv (rxBufStep r op)
  | .ring (.push st b) => by
    refine ⟨rxStep_inv h.ring (.push st b), ?_⟩
    show (rxRingPush st r b).1.inuseCnt = inuseCount (rxRingPush st r b).1.inuse
    rw [(rxRingPush_inuse st r b).1, (rxRingPush_inuse st r b).2]
    exact h.exact
  | .ring (.receive st w) => (riocmChReceive_inuse h st w).1
  | .freeRxbuf b => h.freeRxbuf b

theorem rxBufRun_inv : ∀ (ops : List RxBufOp) {r : ChanRxRing}, RxBufInv r →
    RxBufInv (rxBufRun r ops)
  | [], _, h => h
  | op :: ops, _, h => rxBufRun_inv ops (rxBufStep_inv h op)

/-- The lent-buffer table stays exact. Over every sequence of pushes, receives and
`riocm_ch_free_rxbuf` calls on buffers other than `NULL`, from the ring of
`riocm_ch_alloc`, `inuse_cnt` is the number of entries of `inuse` that hold a buffer, at
most 128. A receive that returns 0 has stored the dequeued buffer in one entry that was
`NULL`, changing no other. Freeing a buffer that an entry holds clears one such entry and
returns 0; freeing one that no entry holds returns `-EINVAL` and changes nothing. Hence a
receive past its `inuse_cnt` check, on a connected channel with a message waiting, never
drops the message. -/
theorem rxBufRun_inuse_exact (ops : List RxBufOp) :
    let r := rxBufRun ChanRxRing.init ops
    r.inuseCnt = inuseCount r.inuse ∧ r.inuseCnt ≤ riocmRxRingSize ∧
    (∀ st w, (riocmChReceive st r w).ret = 0 → ∃ i < riocmRxRingSize, r.inuse i = none ∧
      (riocmChReceive st r w).ring.inuse = Function.update r.inuse i (rxRingDequeue r).2 ∧
      (riocmChReceive st r w).buf = (rxRingDequeue r).2) ∧
    (∀ b, (∃ i < riocmRxRingSize, r.inuse i = some b) →
      ∃ i < riocmRxRingSize, r.inuse i = some b ∧ riocmChFreeRxbuf r (some b) =
        ({ r with inuse := Function.update r.inuse i none, inuseCnt := r.inuseCnt - 1 }, 0)) ∧
    (∀ b, (∀ i < riocmRxRingSize, r.inuse i ≠ some b) →
      riocmChFreeRxbuf r (some b) = (r, -Errno.inval)) ∧
    (∀ w, r.inuseCnt ≠ riocmRxRingSize → r.count ≠ 0 →
      (riocmChReceive .connected r w).ret = 0 ∧
        (riocmChReceive .connected r w).buf = (rxRingDequeue r).2) := by
  intro r
  have h : RxBufInv r := rxBufRun_inv ops rxBufInv_init
  refine ⟨h.exact, h.inuseCnt_le, fun st w h0 => (riocmChReceive_inuse h st w).2 h0,
    fun b ⟨i, hi, hb⟩ => ?_, fun b hn => ?_, fun w hc hne => riocmChReceive_no_drop h hc hne w⟩
  · rcases riocmChFreeRxbuf_cases r (some b) with hp | ⟨hn, -⟩
    · exact hp
    · exact absurd hb (hn i hi)
  · rcases riocmChFreeRxbuf_cases r (some b) with ⟨i, hi, hb, -⟩ | ⟨-, he⟩
    · exact absurd hb (hn i hi)
    · exact he

end RioCm
