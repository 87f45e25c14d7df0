import RioCm.RxRing

/-!
# RxPool — the inbound buffer pool of a `cm_dev`

Every `cm_dev` records the buffers it has given the inbound mailbox in `rx_buf` (128
entries) and the number of free entries in `rx_slots`. `riocm_rx_fill` allocates buffers
into free entries and hands them to the transport (`rio_add_inb_buffer`);
`riocm_rx_get_msg` takes a filled buffer back (`rio_get_inb_message`) and frees the entry
that recorded it. `rio_ibmsg_handler` calls the two in turn for every message it takes.

The environment's answers are arguments: what each `kmalloc` returns, and what the
transport hands back (nothing, a buffer it was given, or a pointer no entry records).
`RxPoolInv` says that `rx_slots` counts the free entries; `rxPoolRun_slots_exact` shows
it over every sequence of calls from the state `riocm_add_mport` leaves, with what a fill
and a turn of the handler do to the pool.
-/

namespace RioCm

/-! ## State and operations -/

/-- The receive half of `struct cm_dev`. -/
structure CmRx where
  rxBuf : Nat → Option Ptr
  rxSlots : Int

/-- The loop of `riocm_rx_fill` over the entries `is`, with `nent` entries still wanted;
`kmalloc j` is what the `j`-th allocation of the call returns. The buffers handed to
`rio_add_inb_buffer` come with the pool, in order. -/
def rxFillLoop (kmalloc : Nat → Option Ptr) (j : Nat) : List Nat → CmRx → Int → CmRx × List Ptr
  | [], cm, _ => (cm, [])
  | i :: is, cm, nent =>
    if cm.rxSlots = 0 ∨ nent = 0 then (cm, [])
    else if (cm.rxBuf i).isSome then rxFillLoop kmalloc j is cm nent
    else match kmalloc j with
      | none => (cm, [])
      | some b =>
        let r := rxFillLoop kmalloc (j + 1) is
          { cm with rxBuf := Function.update cm.rxBuf i (some b), rxSlots := cm.rxSlots - 1 }
          (nent - 1)
        (r.1, b :: r.2)

/-- `riocm_rx_fill(cm, nent)`: fill at most `nent` free entries, in entry order, stopping
at the first allocation that fails. -/
def riocmRxFill (cm : CmRx) (nent : Int) (kmalloc : Nat → Option Ptr) : CmRx × List Ptr :=
  if cm.rxSlots = 0 then (cm, []) else rxFillLoop kmalloc 0 (List.range riocmRxRingSize) cm nent

/-- `riocm_rx_get_msg(cm)`, the transport handing back `msg`: the first entry recording it
is freed; a pointer that no entry records is only warned about. The message is
returned. -/
def riocmRxGetMsg (cm : CmRx) (msg : Option Ptr) : CmRx × Option Ptr :=
  match msg with
  | none => (cm, none)
  | some m =>
    match (List.range riocmRxRingSize).find? fun i => cm.rxBuf i = some m with
    | some i => ({ cm with rxBuf := Function.update cm.rxBuf i none, rxSlots := cm.rxSlots + 1 },
        msg)
    | none => (cm, msg)

/-- The pool `riocm_add_mport` sets up: every entry free, `rx_slots` at 128, then filled;
`kmalloc` answers the allocations of that fill. -/
def CmRx.init (kmalloc : Nat → Option Ptr) : CmRx :=
  (riocmRxFill ⟨fun _ => none, riocmRxRingSize⟩ riocmRxRingSize kmalloc).1

/-- One turn of the loop of `rio_ibmsg_handler`, as far as the pool goes: take a message
from the transport and, if there was one, refill one entry. -/
def ibmsgPoolTurn (cm : CmRx) (msg : Option Ptr) (kmalloc : Nat → Option Ptr) :
    CmRx × Option Ptr :=
  let r := riocmRxGetMsg cm msg
  if r.2.isSome then ((riocmRxFill r.1 1 kmalloc).1, r.2) else r

/-- A call on the pool: `riocm_rx_fill` with the allocator's answers, or `riocm_rx_get_msg`
with the transport's. -/
inductive RxPoolOp
  | fill (nent : Int) (kmalloc : Nat → Option Ptr)
  | getMsg (msg : Option Ptr)

def rxPoolStep (cm : CmRx) : RxPoolOp → CmRx
  | .fill nent kmalloc => (riocmRxFill cm nent kmalloc).1
  | .getMsg msg => (riocmRxGetMsg cm msg).1

def rxPoolRun (cm : CmRx) (ops : List RxPoolOp) : CmRx :=
  ops.foldl rxPoolStep cm

/-! ## Counting free entries -/

/-- The number of free (`NULL`) entries of a 128-entry table. -/
def nullCount (t : Nat → Option Ptr) : Nat :=
  ((Finset.range riocmRxRingSize).filter fun i => (t i).isNone).card

theorem nullCount_add_inuseCount (t : Nat → Option Ptr) :
    nullCount t + inuseCount t = riocmRxRingSize := by
  have h := Finset.filter_card_add_filter_neg_card_eq_card (s := Finset.range riocmRxRingSize)
    fun i => (t i).isNone
  rw [Finset.card_range] at h
  rw [nullCount, inuseCount, Finset.filter_congr fun i _ => Option.isSome_iff_ne_none.trans
    (Option.isNone_iff_eq_none.trans Iff.rfl).not.symm]
  exact h

/-- Recording a buffer in a free entry takes one free entry away. -/
theorem nullCount_fill {t : Nat → Option Ptr} {i : Nat} (hi : i < riocmRxRingSize)
    (hn : t i = none) (b : Ptr) : nullCount (Function.update t i (some b)) + 1 = nullCount t := by
  have := inuseCount_update t hi (some b)
  have h1 := nullCount_add_inuseCount t
  have h2 := nullCount_add_inuseCount (Function.update t i (some b))
  simp only [hn, Option.isSome_none, Option.isSome_some, Bool.false_eq_true, if_false,
    if_true, add_zero] at this
  omega

/-- Freeing an entry that records a buffer gives one free entry more. -/
theorem nullCount_free {t : Nat → Option Ptr} {i : Nat} (hi : i < riocmRxRingSize)
    (hs : (t i).isSome) : nullCount (Function.update t i none) = nullCount t + 1 := by
  have := inuseCount_update t hi none
  have h1 := nullCount_add_inuseCount t
  have h2 := nullCount_add_inuseCount (Function.update t i none)
  simp only [hs, Option.isSome_none, Bool.false_eq_true, if_false, if_true, add_zero] at this
  omega

theorem nullCount_eq_zero {t : Nat → Option Ptr} (h : ∀ i < riocmRxRingSize, (t i).isSome) :
    nullCount t = 0 := by
  rw [nullCount, Finset.card_eq_zero, Finset.filter_eq_empty_iff]
  intro i hi
  simpa [Option.isNone_iff_eq_none, ← Option.isSome_iff_ne_none] using
    h i (Finset.mem_range.1 hi)

/-- `rx_slots` counts the free entries of `rx_buf`. -/
def RxPoolInv (cm : CmRx) : Prop := cm.rxSlots = nullCount cm.rxBuf

/-! ## `riocm_rx_fill` -/

/-- Recording a buffer in a free entry and taking one from `rx_slots` keeps the count. -/
theorem RxPoolInv.fill {cm : CmRx} (h : RxPoolInv cm) {i : Nat} (hi : i < riocmRxRingSize)
    (hn : cm.rxBuf i = none) (b : Ptr) :
    RxPoolInv
      { cm with rxBuf := Function.update cm.rxBuf i (some b), rxSlots := cm.rxSlots - 1 } := by
  have := nullCount_fill hi hn b
  unfold RxPoolInv at h ⊢
  dsimp only
  omega

theorem rxFillLoop_zero (kmalloc : Nat → Option Ptr) (j : Nat) (cm : CmRx) :
    ∀ is : List Nat, (rxFillLoop kmalloc j is cm 0).2 = []
  | [] => rfl
  | _ :: _ => by simp [rxFillLoop]

/-- The loop of `riocm_rx_fill` over distinct entries below 128 keeps `rx_slots` counting
the free entries and takes one per buffer it hands over; it writes only free entries of
`is`, and every buffer it hands over is recorded in one of them. -/
theorem rxFillLoop_spec (kmalloc : Nat → Option Ptr) : ∀ (is : List Nat) (j : Nat) {cm : CmRx}
    (nent : Int), (∀ i ∈ is, i < riocmRxRingSize) → is.Nodup → RxPoolInv cm →
    RxPoolInv (rxFillLoop kmalloc j is cm nent).1 ∧
      (rxFillLoop kmalloc j is cm nent).1.rxSlots =
        cm.rxSlots - (rxFillLoop kmalloc j is cm nent).2.length ∧
      (∀ i, (rxFillLoop kmalloc j is cm nent).1.rxBuf i ≠ cm.rxBuf i →
        cm.rxBuf i = none ∧ i ∈ is) ∧
      ∀ b ∈ (rxFillLoop kmalloc j is cm nent).2, ∃ i ∈ is, cm.rxBuf i = none ∧
        (rxFillLoop kmalloc j is cm nent).1.rxBuf i = some b
  | [], _, _, _, _, _, h => ⟨h, by simp [rxFillLoop], by simp [rxFillLoop], by simp [rxFillLoop]⟩
  | i :: is, j, cm, nent, hlt, hnd, h => by
    have hlt' : ∀ x ∈ is, x < riocmRxRingSize := fun x hx => hlt x (.tail _ hx)
    have hnd' := (List.nodup_cons.1 hnd)
    unfold rxFillLoop
    split_ifs with hstop hsome
    · exact ⟨h, by simp, by simp, by simp⟩
    · obtain ⟨h1, h2, h3, h4⟩ := rxFillLoop_spec kmalloc is j nent hlt' hnd'.2 h
      refine ⟨h1, h2, fun x hx => (h3 x hx).imp_right (.tail _), fun b hb => ?_⟩
      obtain ⟨x, hx, hx'⟩ := h4 b hb
      exact ⟨x, .tail _ hx, hx'⟩
    · have hnull : cm.rxBuf i = none := by simpa using hsome
      split
      · exact ⟨h, by simp, by simp, by simp⟩
      rename_i b _
      obtain ⟨h1, h2, h3, h4⟩ := rxFillLoop_spec kmalloc is (j + 1) (nent - 1) hlt' hnd'.2
        (h.fill (hlt i (.head _)) hnull b)
      have hkeep : ∀ x, x ∉ is → (rxFillLoop kmalloc (j + 1) is
          { cm with rxBuf := Function.update cm.rxBuf i (some b),
                    rxSlots := cm.rxSlots - 1 } (nent - 1)).1.rxBuf x =
          Function.update cm.rxBuf i (some b) x :=
        fun x hx => by_contra fun hne => hx (h3 x hne).2
      refine ⟨h1, ?_, fun x hx => ?_, fun b' hb' => ?_⟩
      · simp only [List.length_cons, h2]
        push_cast
        omega
      · by_cases hxi : x = i
        · exact ⟨hxi ▸ hnull, hxi ▸ .head _⟩
        · rw [← Function.update_noteq hxi (some b) cm.rxBuf] at hx
          obtain ⟨h3a, h3b⟩ := h3 x hx
          exact ⟨by simpa [Function.update_noteq hxi] using h3a, .tail _ h3b⟩
      · rcases List.mem_cons.1 hb' with rfl | hb'
        · exact ⟨i, .head _, hnull, by rw [hkeep i hnd'.1, Function.update_same]⟩
        · obtain ⟨x, hx, hxn, hxb⟩ := h4 b' hb'
          have hxi : x ≠ i := fun hxi => hnd'.1 (hxi ▸ hx)
          exact ⟨x, .tail _ hx, by simpa [Function.update_noteq hxi] using hxn, hxb⟩

/-- When every allocation succeeds, the loop hands over as many buffers as are wanted or
free, whichever is fewer, provided every free entry is still ahead of it. -/
theorem rxFillLoop_length (kmalloc : Nat → Option Ptr) (hk : ∀ j, (kmalloc j).isSome) :
    ∀ (is : List Nat) (j : Nat) {cm : CmRx} (nent : Int), (∀ i ∈ is, i < riocmRxRingSize) →
    is.Nodup → RxPoolInv cm → (∀ i < riocmRxRingSize, cm.rxBuf i = none → i ∈ is) → 0 ≤ nent →
    ((rxFillLoop kmalloc j is cm nent).2.length : Int) = min nent cm.rxSlots
  | [], _, cm, nent, _, _, h, hfree, hn => by
    have : nullCount cm.rxBuf = 0 := nullCount_eq_zero fun i hi =>
      Option.isSome_iff_ne_none.2 fun hi' => by simpa using hfree i hi hi'
    unfold RxPoolInv at h
    simp [rxFillLoop, h, this, hn]
  | i :: is, j, cm, nent, hlt, hnd, h, hfree, hn => by
    have hlt' : ∀ x ∈ is, x < riocmRxRingSize := fun x hx => hlt x (.tail _ hx)
    have hnd' := List.nodup_cons.1 hnd
    have h0 : 0 ≤ cm.rxSlots := by unfold RxPoolInv at h; omega
    unfold rxFillLoop
    split_ifs with hstop hsome
    · simp only [List.length_nil, Nat.cast_zero]
      omega
    · refine rxFillLoop_length kmalloc hk is j nent hlt' hnd'.2 h (fun x hx hx' => ?_) hn
      have hxi : x ≠ i := fun hxi => by subst hxi; simp [hx'] at hsome
      exact (List.mem_cons.1 (hfree x hx hx')).resolve_left hxi
    · have hnull : cm.rxBuf i = none := by simpa using hsome
      obtain ⟨b, hb⟩ := Option.isSome_iff_exists.1 (hk j)
      simp only [hb]
      have := rxFillLoop_length kmalloc hk is (j + 1) (nent - 1) hlt' hnd'.2
        (h.fill (hlt i (.head _)) hnull b)
        (fun x hx hx' => ?_) (by omega)
      · push_cast [List.length_cons, this]
        omega
      · have hxi : x ≠ i := fun hxi => by subst hxi; simp at hx'
        simp only [Function.update_noteq hxi] at hx'
        exact (List.mem_cons.1 (hfree x hx hx')).resolve_left hxi

/-- Asked for one buffer with an entry free, the loop hands over one if the first
allocation succeeds and none if it fails. -/
theorem rxFillLoop_one (kmalloc : Nat → Option Ptr) : ∀ (is : List Nat) {cm : CmRx},
    cm.rxSlots ≠ 0 → (∃ i ∈ is, cm.rxBuf i = none) →
    (rxFillLoop kmalloc 0 is cm 1).2.length = if (kmalloc 0).isSome then 1 else 0
  | [], _, _, ⟨_, hi, _⟩ => absurd hi (List.not_mem_nil _)
  | i :: is, cm, hs, ⟨x, hx, hxn⟩ => by
    unfold rxFillLoop
    rw [if_neg (by omega)]
    by_cases hsome : (cm.rxBuf i).isSome
    · rw [if_pos hsome]
      refine rxFillLoop_one kmalloc is hs ⟨x, ?_, hxn⟩
      rcases List.mem_cons.1 hx with rfl | hx
      · simp [hxn] at hsome
      · exact hx
    · rw [if_neg hsome]
      cases kmalloc 0 <;> simp [rxFillLoop_zero]

/-- `riocm_rx_fill` keeps `rx_slots` counting the free entries and takes one per buffer it
hands over; it writes only entries that were free, and every buffer it hands over is
recorded in one of them. -/
theorem riocmRxFill_spec {cm : CmRx} (h : RxPoolInv cm) (nent : Int)
    (kmalloc : Nat → Option Ptr) :
    RxPoolInv (riocmRxFill cm nent kmalloc).1 ∧
      (riocmRxFill cm nent kmalloc).1.rxSlots =
        cm.rxSlots - (riocmRxFill cm nent kmalloc).2.length ∧
      (∀ i, (riocmRxFill cm nent kmalloc).1.rxBuf i ≠ cm.rxBuf i → cm.rxBuf i = none) ∧
      ∀ b ∈ (riocmRxFill cm nent kmalloc).2, ∃ i < riocmRxRingSize, cm.rxBuf i = none ∧
        (riocmRxFill cm nent kmalloc).1.rxBuf i = some b := by
  unfold riocmRxFill
  split_ifs
  · exact ⟨h, by simp, by simp, by simp⟩
  obtain ⟨h1, h2, h3, h4⟩ := rxFillLoop_spec kmalloc (List.range riocmRxRingSize) 0 nent
    (fun i hi => List.mem_range.1 hi) (List.nodup_range _) h
  refine ⟨h1, h2, fun i hi => (h3 i hi).1, fun b hb => ?_⟩
  obtain ⟨i, hi, hi'⟩ := h4 b hb
  exact ⟨i, List.mem_range.1 hi, hi'⟩

/-- With `nent ≥ 0` and no allocation failing, `riocm_rx_fill` hands over
`min(nent, rx_slots)` buffers. -/
theorem riocmRxFill_length {cm : CmRx} (h : RxPoolInv cm) {nent : Int} (hn : 0 ≤ nent)
    {kmalloc : Nat → Option Ptr} (hk : ∀ j, (kmalloc j).isSome) :
    ((riocmRxFill cm nent kmalloc).2.length : Int) = min nent cm.rxSlots := by
  unfold riocmRxFill
  split_ifs with h0
  · simp [h0, hn]
  exact rxFillLoop_length kmalloc hk _ 0 nent (fun i hi => List.mem_range.1 hi)
    (List.nodup_range _) h (fun i hi _ => List.mem_range.2 hi) hn

/-! ## `riocm_rx_get_msg` -/

/-- `riocm_rx_get_msg` returns what the transport handed back. If an entry records it, one
such entry is freed and `rx_slots` goes up by one; otherwise the pool is left alone. -/
theorem riocmRxGetMsg_cases (cm : CmRx) (msg : Option Ptr) :
    (riocmRxGetMsg cm msg).2 = msg ∧
      ((∃ m, msg = some m ∧ ∃ i < riocmRxRingSize, cm.rxBuf i = some m ∧
        (riocmRxGetMsg cm msg).1 =
          { cm with rxBuf := Function.update cm.rxBuf i none, rxSlots := cm.rxSlots + 1 }) ∨
       ((∀ m, msg = some m → ∀ i < riocmRxRingSize, cm.rxBuf i ≠ some m) ∧
        (riocmRxGetMsg cm msg).1 = cm)) := by
  unfold riocmRxGetMsg
  split
  · exact ⟨rfl, .inr ⟨by simp, rfl⟩⟩
  rename_i m
  split
  · rename_i i hf
    exact ⟨rfl, .inl ⟨m, rfl, i, List.mem_range.1 (List.mem_of_find?_eq_some hf),
      by simpa using List.find?_some hf, rfl⟩⟩
  · rename_i hf
    rw [List.find?_eq_none] at hf
    refine ⟨rfl, .inr ⟨fun m' hm i hi => ?_, rfl⟩⟩
    cases hm
    simpa using hf i (List.mem_range.2 hi)

theorem RxPoolInv.getMsg {cm : CmRx} (h : RxPoolInv cm) (msg : Option Ptr) :
    RxPoolInv (riocmRxGetMsg cm msg).1 := by
  rcases (riocmRxGetMsg_cases cm msg).2 with ⟨m, -, i, hi, hm, he⟩ | ⟨-, he⟩
  · rw [he]
    have := nullCount_free (t := cm.rxBuf) hi (by simp [hm])
    unfold RxPoolInv at h ⊢
    dsimp only
    omega
  · rw [he]
    exact h

/-! ## Every sequence of calls -/

theorem rxPoolInv_init (kmalloc : Nat → Option Ptr) : RxPoolInv (CmRx.init kmalloc) :=
  (riocmRxFill_spec (by simp [RxPoolInv, nullCount]) _ _).1

theorem rxPoolRun_inv : ∀ (ops : List RxPoolOp) {cm : CmRx}, RxPoolInv cm →
    RxPoolInv (rxPoolRun cm ops)
  | [], _, h => h
  | .fill nent kmalloc :: ops, _, h => rxPoolRun_inv ops (riocmRxFill_spec h nent kmalloc).1
  | .getMsg msg :: ops, _, h => rxPoolRun_inv ops (h.getMsg msg)

/-- A turn of `rio_ibmsg_handler` that takes back a recorded buffer leaves `rx_slots` as it
was, unless the allocation of the refill fails; then one entry more is free. -/
theorem ibmsgPoolTurn_slots {cm : CmRx} (h : RxPoolInv cm) {m : Ptr}
    (hm : ∃ i < riocmRxRingSize, cm.rxBuf i = some m) (kmalloc : Nat → Option Ptr) :
    (ibmsgPoolTurn cm (some m) kmalloc).1.rxSlots =
      cm.rxSlots + if (kmalloc 0).isSome then 0 else 1 := by
  obtain ⟨i, hi, hmi⟩ := hm
  rcases riocmRxGetMsg_cases cm (some m) with ⟨hret, ⟨m', hm', i', hi', hmi', he⟩ | ⟨hn, -⟩⟩
  · have h1 := h.getMsg (some m)
    rw [he] at h1
    have hpos : 0 ≤ cm.rxSlots := by unfold RxPoolInv at h; omega
    have hfree : ∃ x ∈ List.range riocmRxRingSize,
        (Function.update cm.rxBuf i' none : Nat → Option Ptr) x = none :=
      ⟨i', List.mem_range.2 hi', Function.update_same _ _ _⟩
    obtain ⟨-, h2, -, -⟩ := riocmRxFill_spec h1 1 kmalloc
    have hlen := @rxFillLoop_one kmalloc (List.range riocmRxRingSize)
      { cm with rxBuf := Function.update cm.rxBuf i' none, rxSlots := cm.rxSlots + 1 }
      (by dsimp only; omega) hfree
    simp only [ibmsgPoolTurn, hret, he, Option.isSome_some, if_true]
    rw [h2]
    unfold riocmRxFill
    rw [if_neg (by dsimp only; omega), hlen]
    dsimp only
    split_ifs <;> simp
  · exact absurd hmi (hn m rfl i hi)

/-- Inbound buffer pool accounting. Over every sequence of `riocm_rx_fill` calls (any
`nent`, any allocation failing) and `riocm_rx_get_msg` calls (the transport handing back
nothing, a buffer it was given, or any other pointer) from the state `riocm_add_mport`
leaves, `rx_slots` is the number of free entries of `rx_buf`, between 0 and 128. A fill
writes only entries that were free, records every buffer it hands to the transport in
one of them, and, with `nent ≥ 0` and no allocation failing, hands over
`min(nent, rx_slots)` buffers. So a turn of `rio_ibmsg_handler` that takes back a
recorded buffer leaves `rx_slots` as it was, unless the refill's allocation fails. -/
theorem rxPoolRun_slots_exact (kmalloc₀ : Nat → Option Ptr) (ops : List RxPoolOp) :
    let cm := rxPoolRun (CmRx.init kmalloc₀) ops
    cm.rxSlots = nullCount cm.rxBuf ∧ 0 ≤ cm.rxSlots ∧ cm.rxSlots ≤ riocmRxRingSize ∧
    (∀ nent kmalloc,
      (∀ i, (riocmRxFill cm nent kmalloc).1.rxBuf i ≠ cm.rxBuf i → cm.rxBuf i = none) ∧
      (∀ b ∈ (riocmRxFill cm nent kmalloc).2, ∃ i < riocmRxRingSize, cm.rxBuf i = none ∧
        (riocmRxFill cm nent kmalloc).1.rxBuf i = some b) ∧
      (0 ≤ nent → (∀ j, (kmalloc j).isSome) →
        ((riocmRxFill cm nent kmalloc).2.length : Int) = min nent cm.rxSlots)) ∧
    (∀ m kmalloc, (∃ i < riocmRxRingSize, cm.rxBuf i = some m) →
      (ibmsgPoolTurn cm (some m) kmalloc).1.rxSlots =
        cm.rxSlots + if (kmalloc 0).isSome then 0 else 1) := by
  intro cm
  have h : RxPoolInv cm := rxPoolRun_inv ops (rxPoolInv_init kmalloc₀)
  have hle := nullCount_add_inuseCount cm.rxBuf
  refine ⟨h, by unfold RxPoolInv at h; omega, by unfold RxPoolInv at h; omega,
    fun nent kmalloc => ?_, fun m kmalloc hm => ibmsgPoolTurn_slots h hm kmalloc⟩
  obtain ⟨-, -, h3, h4⟩ := riocmRxFill_spec h nent kmalloc
  exact ⟨h3, h4, fun hn hk => riocmRxFill_length h hn hk⟩

end RioCm
