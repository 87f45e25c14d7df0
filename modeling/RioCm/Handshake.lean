import Mathlib.Data.Multiset.Basic
import Mathlib.Data.Set.Basic
import Mathlib.Logic.Relation

/-!
# Handshake — the channel handshake between hosts, abstractly

What the handshake of `rio_cm` is for, stated over channel ends (a host, by destination ID,
and a channel number) with nothing of the code's objects left. A channel is idle, bound,
listening with a queue of requesters, connecting to a listener, or connected to a peer; the
messages in flight are the CONN_REQ of a connecting channel, the CONN_ACK of an accepted
one and the CONN_CLOSE of a closed connected one. `HsStep` takes the steps the hosts take:
channels are registered under numbers never used before on their host, a channel is
closed only when it is not connecting, and every message reaches the handler of its
addressee, which acts on it as `riocm_req_handler`, `riocm_resp_handler` and
`riocm_close_handler` do.

`HsInv` holds in every state these steps reach from no channel (`hsInv_of_reach`). Its
clause `peer` is the absence of half-open connections: a connected channel's peer is
connected to it, or is still connecting with the answer on its way, or has closed with its
CONN_CLOSE on its way. The other clauses carry it: each connecting channel has at most one
token (its request, its queue entry, or the answer to it), and every message names ends
whose states agree with it. `HandshakeNet` shows that the hosts of `Network` take these
steps.
-/

namespace RioCm

/-- Where a channel is in the handshake, with the ends it names: the requesters queued on a
listening channel, the listener a connecting channel asked, the peer of a connected one.
`other` is every state no step of the handshake gives a channel. -/
inductive HsChan
  | idle
  | bound
  | listen (q : List (Nat × Nat))
  | connect (l : Nat × Nat)
  | connected (p : Nat × Nat)
  | other
  deriving DecidableEq

/-- The control messages of the handshake. -/
inductive HsKind
  | req
  | ack
  | close
  | other
  deriving DecidableEq

/-- A message from the end `src` to the end `dst`. -/
structure HsMsg where
  kind : HsKind
  src : Nat × Nat
  dst : Nat × Nat
  deriving DecidableEq

/-- The handshake state of a network: the state of each registered end, the messages in
flight, and the ends ever registered. -/
structure Hs where
  chan : Nat × Nat → Option HsChan
  flight : Multiset HsMsg
  used : Set (Nat × Nat)

/-- No channel, nothing in flight. -/
def Hs.init : Hs := ⟨fun _ => none, 0, ∅⟩

/-- Neither connecting nor connected. -/
def HsChan.Unlinked : HsChan → Prop
  | .connect _ => False
  | .connected _ => False
  | _ => True

/-- A state a channel may take with nothing pointing at it. -/
def HsChan.Quiet : HsChan → Prop
  | .idle => True
  | .bound => True
  | .listen [] => True
  | _ => False

/-- What a message delivered with no effect may be: a request nobody queues, an answer for
no connecting channel, a close for no channel, or no control message. -/
def HsMsg.Droppable (m : HsMsg) (chan : Nat × Nat → Option HsChan) : Prop :=
  m.kind = .req ∨ m.kind = .other ∨ (m.kind = .ack ∧ ∀ l, chan m.dst ≠ some (.connect l)) ∨
    (m.kind = .close ∧ chan m.dst = none)

open Function in
/-- The steps of the handshake. A new channel takes an end never used; the listener's host
accepts the first requester queued, with a new channel connected to it and a CONN_ACK, or,
when the requester is not a peer of its mport, with an idle one and no answer; a CONN_ACK
connects the channel it reaches to the host that channel asked and to the acceptor's
channel number. -/
inductive HsStep : Hs → Hs → Prop
  | create {S : Hs} {e : Nat × Nat} (he : S.chan e = none) (hu : e ∉ S.used) :
      HsStep S ⟨update S.chan e (some .idle), S.flight, insert e S.used⟩
  | bind {S : Hs} {e : Nat × Nat} (he : S.chan e = some .idle) :
      HsStep S ⟨update S.chan e (some .bound), S.flight, S.used⟩
  | listen {S : Hs} {e : Nat × Nat} (he : S.chan e = some .bound) :
      HsStep S ⟨update S.chan e (some (.listen [])), S.flight, S.used⟩
  | connect {S : Hs} {e : Nat × Nat} (l : Nat × Nat) (he : S.chan e = some .idle) :
      HsStep S ⟨update S.chan e (some (.connect l)), ⟨.req, e, l⟩ ::ₘ S.flight, S.used⟩
  | accept {S : Hs} {l r e : Nat × Nat} {q : List (Nat × Nat)}
      (hl : S.chan l = some (.listen (r :: q))) (he : S.chan e = none) (hu : e ∉ S.used)
      (hh : e.1 = l.1) :
      HsStep S ⟨update (update S.chan l (some (.listen q))) e (some (.connected r)),
        ⟨.ack, e, r⟩ ::ₘ S.flight, insert e S.used⟩
  | orphan {S : Hs} {l r e : Nat × Nat} {q : List (Nat × Nat)}
      (hl : S.chan l = some (.listen (r :: q))) (he : S.chan e = none) (hu : e ∉ S.used) :
      HsStep S ⟨update (update S.chan l (some (.listen q))) e (some .idle), S.flight,
        insert e S.used⟩
  | close {S : Hs} {e : Nat × Nat} {s : HsChan} (he : S.chan e = some s) (hs : s.Unlinked) :
      HsStep S ⟨update S.chan e none, S.flight, S.used⟩
  | closeConnected {S : Hs} {e p : Nat × Nat} (he : S.chan e = some (.connected p)) :
      HsStep S ⟨update S.chan e none, ⟨.close, e, p⟩ ::ₘ S.flight, S.used⟩
  | deliverReq {S : Hs} {m : HsMsg} {q : List (Nat × Nat)} (hm : m ∈ S.flight)
      (hk : m.kind = .req) (hl : S.chan m.dst = some (.listen q)) :
      HsStep S ⟨update S.chan m.dst (some (.listen (q ++ [m.src]))), S.flight.erase m, S.used⟩
  | deliverAck {S : Hs} {m : HsMsg} {l : Nat × Nat} (hm : m ∈ S.flight) (hk : m.kind = .ack)
      (hl : S.chan m.dst = some (.connect l)) :
      HsStep S ⟨update S.chan m.dst (some (.connected (l.1, m.src.2))), S.flight.erase m,
        S.used⟩
  | deliverClose {S : Hs} {m : HsMsg} (hm : m ∈ S.flight) (hk : m.kind = .close) :
      HsStep S ⟨update S.chan m.dst none, S.flight.erase m, S.used⟩
  | drop {S : Hs} {m : HsMsg} (hm : m ∈ S.flight) (hd : m.Droppable S.chan) :
      HsStep S ⟨S.chan, S.flight.erase m, S.used⟩

/-! ## The invariant -/

/-- The messages that stand for the request of the end `e`: its CONN_REQ, and the CONN_ACK
answering it. -/
def HsMsg.IsToken (e : Nat × Nat) (m : HsMsg) : Prop :=
  (m.kind = .req ∧ m.src = e) ∨ (m.kind = .ack ∧ m.dst = e)

instance (e : Nat × Nat) : DecidablePred (HsMsg.IsToken e) :=
  fun _ => inferInstanceAs (Decidable (_ ∨ _))

/-- How often `e` is queued on a channel in state `c`. -/
def queuedIn (c : Option HsChan) (e : Nat × Nat) : Nat :=
  match c with
  | some (.listen q) => q.count e
  | _ => 0

theorem queuedIn_update_le {chan : Nat × Nat → Option HsChan} {x l e : Nat × Nat}
    {v : Option HsChan} (hv : queuedIn v e ≤ queuedIn (chan x) e) :
    queuedIn (Function.update chan x v l) e ≤ queuedIn (chan l) e := by
  by_cases hl : l = x
  · subst hl; simpa using hv
  · rw [Function.update_noteq hl]

/-- The invariant of the handshake. `peer` is the absence of half-open connections;
`one_token` says a connecting channel has at most one request on its way. -/
structure HsInv (S : Hs) : Prop where
  used_chan : ∀ {e s}, S.chan e = some s → e ∈ S.used
  used_src : ∀ {m}, m ∈ S.flight → m.kind ≠ .other → m.src ∈ S.used
  used_dst : ∀ {m}, m ∈ S.flight → m.kind = .ack ∨ m.kind = .close → m.dst ∈ S.used
  used_queue : ∀ {l q r}, S.chan l = some (.listen q) → r ∈ q → r ∈ S.used
  peer : ∀ {b a}, S.chan b = some (.connected a) →
    S.chan a = some (.connected b) ∨
      (∃ l, S.chan a = some (.connect (b.1, l)) ∧ ⟨.ack, b, a⟩ ∈ S.flight) ∨
      ⟨.close, a, b⟩ ∈ S.flight
  closer : ∀ {e d}, ⟨.close, e, d⟩ ∈ S.flight → S.chan e = none
  closed : ∀ {x a s}, ⟨.close, x, a⟩ ∈ S.flight → S.chan a = some s →
    s = .connected x ∨ ∃ l, s = .connect (x.1, l) ∧ ⟨.ack, x, a⟩ ∈ S.flight
  acker : ∀ {b a}, ⟨.ack, b, a⟩ ∈ S.flight → S.chan b = some (.connected a) ∨ S.chan b = none
  acked : ∀ {b a l}, ⟨.ack, b, a⟩ ∈ S.flight → S.chan a = some (.connect l) →
    l.1 = b.1 ∧ (S.chan b = some (.connected a) ∨ ⟨.close, b, a⟩ ∈ S.flight)
  ack_to : ∀ {b a s}, ⟨.ack, b, a⟩ ∈ S.flight → S.chan a = some s → ∃ l, s = .connect l
  req : ∀ {e l}, ⟨.req, e, l⟩ ∈ S.flight → S.chan e = some (.connect l)
  queued : ∀ {l q e}, S.chan l = some (.listen q) → e ∈ q → S.chan e = some (.connect l)
  one_token : ∀ {e l}, S.chan e = some (.connect l) →
    S.flight.countP (HsMsg.IsToken e) + queuedIn (S.chan l) e ≤ 1

section Tokens

variable {F : Multiset HsMsg} {p : HsMsg → Prop} [DecidablePred p] {m m' : HsMsg}

/-- A message that a count of at most one bounds has no second copy. -/
theorem not_mem_erase_of_countP_le_one (h : F.countP p ≤ 1) (hm : m ∈ F) (hp : p m)
    (hm' : m' ∈ F.erase m) : ¬ p m' := by
  intro hp'
  rw [← Multiset.cons_erase hm, Multiset.countP_cons_of_pos _ hp] at h
  have := Multiset.countP_pos.2 ⟨m', hm', hp'⟩
  omega

theorem eq_of_countP_le_one (h : F.countP p ≤ 1) (hm : m ∈ F) (hm' : m' ∈ F) (hp : p m)
    (hp' : p m') : m = m' := by
  by_contra hne
  exact not_mem_erase_of_countP_le_one h hm hp ((Multiset.mem_erase_of_ne (Ne.symm hne)).2 hm')
    hp'

theorem countP_erase_le (p : HsMsg → Prop) [DecidablePred p] (F : Multiset HsMsg) (m : HsMsg) :
    (F.erase m).countP p ≤ F.countP p :=
  Multiset.countP_le_of_le _ (Multiset.erase_le m F)

end Tokens

section Inv

variable {S : Hs} {e : Nat × Nat}

theorem HsInv.token_unique (h : HsInv S) {l : Nat × Nat} (he : S.chan e = some (.connect l))
    {m m' : HsMsg} (hm : m ∈ S.flight) (hm' : m' ∈ S.flight) (hp : m.IsToken e)
    (hp' : m'.IsToken e) : m = m' :=
  eq_of_countP_le_one (by have := h.one_token he; omega) hm hm' hp hp'

/-- A channel queued on `l` has no message on its way. -/
theorem HsInv.queued_no_token (h : HsInv S) {l : Nat × Nat} {q : List (Nat × Nat)}
    (hl : S.chan l = some (.listen q)) (hq : e ∈ q) {m : HsMsg} (hm : m ∈ S.flight) :
    ¬ m.IsToken e := by
  intro hp
  have h1 := h.one_token (h.queued hl hq)
  have h2 : 0 < S.flight.countP (HsMsg.IsToken e) := Multiset.countP_pos.2 ⟨m, hm, hp⟩
  have h3 : 0 < queuedIn (S.chan l) e := by
    simp only [queuedIn, hl]; exact List.count_pos_iff.2 hq
  omega

/-- Nothing in flight or queued names `e`, and no channel is connected to it. -/
structure Unreferenced (S : Hs) (e : Nat × Nat) : Prop where
  src : ∀ {m}, m ∈ S.flight → m.kind ≠ .other → m.src ≠ e
  dst : ∀ {m}, m ∈ S.flight → m.kind = .ack ∨ m.kind = .close → m.dst ≠ e
  queue : ∀ {l q}, S.chan l = some (.listen q) → e ∉ q
  peer : ∀ {b}, S.chan b ≠ some (.connected e)

theorem HsInv.unreferenced_of_fresh (h : HsInv S) (hu : e ∉ S.used) : Unreferenced S e where
  src hm hk he := hu (he ▸ h.used_src hm hk)
  dst hm hk he := hu (he ▸ h.used_dst hm hk)
  queue hl hq := hu (h.used_queue hl hq)
  peer hb := by
    rcases h.peer hb with ha | ⟨_, ha, -⟩ | hc
    · exact hu (h.used_chan ha)
    · exact hu (h.used_chan ha)
    · exact hu (h.used_src hc nofun)

theorem HsInv.unreferenced_of_unlinked (h : HsInv S) {s : HsChan} (he : S.chan e = some s)
    (hs : s.Unlinked) : Unreferenced S e where
  src {m} hm hk hme := by
    obtain ⟨k, x, d⟩ := m
    subst hme
    cases k with
    | req => rw [h.req hm] at he; cases he; exact hs
    | ack => rcases h.acker hm with hb | hb <;> rw [hb] at he <;> cases he; exact hs
    | close => rw [h.closer hm] at he; cases he
    | other => exact hk rfl
  dst {m} hm hk hme := by
    obtain ⟨k, x, d⟩ := m
    subst hme
    rcases hk with rfl | rfl
    · obtain ⟨l, rfl⟩ := h.ack_to hm he; exact hs
    · rcases h.closed hm he with rfl | ⟨l, rfl, -⟩ <;> exact hs
  queue hl hq := by rw [h.queued hl hq] at he; cases he; exact hs
  peer hb := by
    rcases h.peer hb with ha | ⟨_, ha, -⟩ | hc
    · rw [ha] at he; cases he; exact hs
    · rw [ha] at he; cases he; exact hs
    · rw [h.closer hc] at he; cases he

end Inv

/-! ## What each step keeps -/

section Steps

open Function

variable {S : Hs} {e : Nat × Nat}

/-- A channel nothing points at may be registered, unregistered, or moved between the
quiet states. -/
theorem HsInv.setQuiet (h : HsInv S) (hr : Unreferenced S e) {v : Option HsChan}
    (hold : ∀ s, S.chan e = some s → s.Unlinked) (hv : ∀ s, v = some s → s.Quiet)
    {U : Set (Nat × Nat)} (hU : S.used ⊆ U) (hu : v.isSome → e ∈ U) :
    HsInv ⟨update S.chan e v, S.flight, U⟩ := by
  have hq : ∀ {q}, v = some (.listen q) → q = [] := by
    intro q h'
    cases q with
    | nil => rfl
    | cons => exact (hv _ h').elim
  have hc : ∀ {l}, v ≠ some (.connect l) := fun h' => hv _ h'
  have hd : ∀ {l}, v ≠ some (.connected l) := fun h' => hv _ h'
  constructor <;> dsimp only
  · intro x s hx
    by_cases hxe : x = e
    · subst hxe; simp only [update_same] at hx; exact hu (by simp [hx])
    · rw [update_noteq hxe] at hx; exact hU (h.used_chan hx)
  · exact fun hm hk => hU (h.used_src hm hk)
  · exact fun hm hk => hU (h.used_dst hm hk)
  · intro l q r hl hr'
    by_cases hle : l = e
    · subst hle; simp only [update_same] at hl; cases hq hl; cases hr'
    · rw [update_noteq hle] at hl; exact hU (h.used_queue hl hr')
  · intro b a hb
    have hbe : b ≠ e := by rintro rfl; simp only [update_same] at hb; exact hd hb
    have hae : a ≠ e := by rintro rfl; rw [update_noteq hbe] at hb; exact hr.peer hb
    simpa only [update_noteq hae] using h.peer (by rwa [update_noteq hbe] at hb)
  · intro x d hm
    rw [update_noteq (hr.src hm nofun)]; exact h.closer hm
  · intro x a s hm ha
    rw [update_noteq (hr.dst hm (.inr rfl))] at ha; exact h.closed hm ha
  · intro b a hm
    simpa only [update_noteq (hr.src hm nofun)] using h.acker hm
  · intro b a l hm ha
    have hae : a ≠ e := by rintro rfl; simp only [update_same] at ha; exact hc ha
    rw [update_noteq hae] at ha
    simpa only [update_noteq (hr.src hm nofun)] using h.acked hm ha
  · intro b a s hm ha
    rw [update_noteq (hr.dst hm (.inl rfl))] at ha; exact h.ack_to hm ha
  · intro x l hm
    rw [update_noteq (hr.src hm nofun)]; exact h.req hm
  · intro l q x hl hx
    have hle : l ≠ e := by rintro rfl; simp only [update_same] at hl; cases hq hl; cases hx
    rw [update_noteq hle] at hl
    have hxe : x ≠ e := by rintro rfl; exact hr.queue hl hx
    rw [update_noteq hxe]; exact h.queued hl hx
  · intro x l hx
    have hxe : x ≠ e := by rintro rfl; simp only [update_same] at hx; exact hc hx
    rw [update_noteq hxe] at hx
    have h2 : queuedIn (update S.chan e v l) x ≤ queuedIn (S.chan l) x :=
      queuedIn_update_le (by rcases v with _ | ⟨_ | _ | _ | _ | _ | _⟩ <;> simp_all [queuedIn])
    exact le_trans (Nat.add_le_add_left h2 _) (h.one_token hx)

/-- `riocm_ch_accept` takes the first requester off a listening channel. -/
theorem HsInv.pop (h : HsInv S) {l r : Nat × Nat} {q : List (Nat × Nat)}
    (hl : S.chan l = some (.listen (r :: q))) :
    HsInv ⟨update S.chan l (some (.listen q)), S.flight, S.used⟩ := by
  have hne : ∀ {x s}, S.chan x = some s → (∀ q, s ≠ .listen q) → x ≠ l :=
    fun hx hs hxl => hs (r :: q) (by rw [hxl, hl] at hx; exact (Option.some.inj hx).symm)
  constructor <;> dsimp only
  · intro x s hx
    by_cases hxl : x = l
    · subst hxl; exact h.used_chan hl
    · rw [update_noteq hxl] at hx; exact h.used_chan hx
  · exact h.used_src
  · exact h.used_dst
  · intro x q' y hx hy
    by_cases hxl : x = l
    · subst hxl; simp only [update_same, Option.some.injEq, HsChan.listen.injEq] at hx; subst hx
      exact h.used_queue hl (List.mem_cons_of_mem _ hy)
    · rw [update_noteq hxl] at hx; exact h.used_queue hx hy
  · intro b a hb
    have hbl : b ≠ l := by rintro rfl; simp at hb
    rw [update_noteq hbl] at hb
    rcases h.peer hb with ha | ⟨l', ha, hm⟩ | hc
    · exact .inl (by rw [update_noteq (hne ha nofun)]; exact ha)
    · exact .inr (.inl ⟨l', by rw [update_noteq (hne ha nofun)]; exact ha, hm⟩)
    · exact .inr (.inr hc)
  · intro x d hm
    have := h.closer hm
    rw [update_noteq (by rintro rfl; rw [hl] at this; cases this)]; exact this
  · intro x a s hm ha
    have hal : a ≠ l := by
      rintro rfl; simp only [update_same, Option.some.injEq] at ha; subst ha
      rcases h.closed hm hl with h' | ⟨_, h', -⟩ <;> cases h'
    rw [update_noteq hal] at ha; exact h.closed hm ha
  · intro b a hm
    rcases h.acker hm with hb | hb
    · exact .inl (by rw [update_noteq (hne hb nofun)]; exact hb)
    · exact .inr (by rw [update_noteq (by rintro rfl; rw [hl] at hb; cases hb)]; exact hb)
  · intro b a l' hm ha
    have hal : a ≠ l := by rintro rfl; simp at ha
    rw [update_noteq hal] at ha
    obtain ⟨h1, hb | hc⟩ := h.acked hm ha
    · exact ⟨h1, .inl (by rw [update_noteq (hne hb nofun)]; exact hb)⟩
    · exact ⟨h1, .inr hc⟩
  · intro b a s hm ha
    by_cases hal : a = l
    · subst hal; obtain ⟨_, h'⟩ := h.ack_to hm hl; cases h'
    · rw [update_noteq hal] at ha; exact h.ack_to hm ha
  · intro x l' hm
    have := h.req hm
    rw [update_noteq (hne this nofun)]; exact this
  · intro x q' y hx hy
    have hyq : ∀ {x'}, S.chan x' = some (.listen q') → x' ≠ l → S.chan y = some (.connect x') :=
      fun hx' _ => h.queued hx' hy
    by_cases hxl : x = l
    · subst hxl; simp only [update_same, Option.some.injEq, HsChan.listen.injEq] at hx; subst hx
      have := h.queued hl (List.mem_cons_of_mem _ hy)
      rw [update_noteq (hne this nofun)]; exact this
    · rw [update_noteq hxl] at hx
      have := hyq hx hxl
      rw [update_noteq (hne this nofun)]; exact this
  · intro x l' hx
    have hxl : x ≠ l := by rintro rfl; simp at hx
    rw [update_noteq hxl] at hx
    have h2 : queuedIn (update S.chan l (some (.listen q)) l') x ≤ queuedIn (S.chan l') x :=
      queuedIn_update_le (by simp only [queuedIn, hl]; exact List.count_le_count_cons _ _ _)
    exact le_trans (Nat.add_le_add_left h2 _) (h.one_token hx)

/-- A request delivered to a listening channel joins its queue, its CONN_REQ gone. -/
theorem HsInv.enqueue (h : HsInv S) {l : Nat × Nat} {q : List (Nat × Nat)}
    (hl : S.chan l = some (.listen q)) (he : S.chan e = some (.connect l))
    (ht : ∀ m ∈ S.flight, ¬ m.IsToken e) (hq : e ∉ q) :
    HsInv ⟨update S.chan l (some (.listen (q ++ [e]))), S.flight, S.used⟩ := by
  have hne : ∀ {x s}, S.chan x = some s → (∀ q, s ≠ .listen q) → x ≠ l :=
    fun hx hs hxl => hs q (by rw [hxl, hl] at hx; exact (Option.some.inj hx).symm)
  have hel : e ≠ l := hne he nofun
  constructor <;> dsimp only
  · intro x s hx
    by_cases hxl : x = l
    · subst hxl; exact h.used_chan hl
    · rw [update_noteq hxl] at hx; exact h.used_chan hx
  · exact h.used_src
  · exact h.used_dst
  · intro x q' y hx hy
    by_cases hxl : x = l
    · subst hxl; simp only [update_same, Option.some.injEq, HsChan.listen.injEq] at hx; subst hx
      rcases List.mem_append.1 hy with hy | hy
      · exact h.used_queue hl hy
      · rw [List.mem_singleton.1 hy]; exact h.used_chan he
    · rw [update_noteq hxl] at hx; exact h.used_queue hx hy
  · intro b a hb
    have hbl : b ≠ l := by rintro rfl; simp at hb
    rw [update_noteq hbl] at hb
    rcases h.peer hb with ha | ⟨l', ha, hm⟩ | hc
    · exact .inl (by rw [update_noteq (hne ha nofun)]; exact ha)
    · exact .inr (.inl ⟨l', by rw [update_noteq (hne ha nofun)]; exact ha, hm⟩)
    · exact .inr (.inr hc)
  · intro x d hm
    have := h.closer hm
    rw [update_noteq (by rintro rfl; rw [hl] at this; cases this)]; exact this
  · intro x a s hm ha
    have hal : a ≠ l := by
      rintro rfl; simp only [update_same, Option.some.injEq] at ha; subst ha
      rcases h.closed hm hl with h' | ⟨_, h', -⟩ <;> cases h'
    rw [update_noteq hal] at ha; exact h.closed hm ha
  · intro b a hm
    rcases h.acker hm with hb | hb
    · exact .inl (by rw [update_noteq (hne hb nofun)]; exact hb)
    · exact .inr (by rw [update_noteq (by rintro rfl; rw [hl] at hb; cases hb)]; exact hb)
  · intro b a l' hm ha
    have hal : a ≠ l := by rintro rfl; simp at ha
    rw [update_noteq hal] at ha
    obtain ⟨h1, hb | hc⟩ := h.acked hm ha
    · exact ⟨h1, .inl (by rw [update_noteq (hne hb nofun)]; exact hb)⟩
    · exact ⟨h1, .inr hc⟩
  · intro b a s hm ha
    by_cases hal : a = l
    · subst hal; obtain ⟨_, h'⟩ := h.ack_to hm hl; cases h'
    · rw [update_noteq hal] at ha; exact h.ack_to hm ha
  · intro x l' hm
    have := h.req hm
    rw [update_noteq (hne this nofun)]; exact this
  · intro x q' y hx hy
    by_cases hxl : x = l
    · subst hxl; simp only [update_same, Option.some.injEq, HsChan.listen.injEq] at hx; subst hx
      rcases List.mem_append.1 hy with hy | hy
      · have := h.queued hl hy; rw [update_noteq (hne this nofun)]; exact this
      · rw [List.mem_singleton.1 hy, update_noteq hel]; exact he
    · rw [update_noteq hxl] at hx
      have := h.queued hx hy
      rw [update_noteq (hne this nofun)]; exact this
  · intro x l' hx
    have hxl : x ≠ l := by rintro rfl; simp at hx
    rw [update_noteq hxl] at hx
    by_cases hxe : x = e
    · subst hxe
      rw [he] at hx; cases hx
      rw [Multiset.countP_eq_zero.2 ht]
      simp [queuedIn, hl, List.count_eq_zero.2 hq]
    · have h2 : queuedIn (update S.chan l (some (.listen (q ++ [e]))) l') x ≤
          queuedIn (S.chan l') x :=
        queuedIn_update_le (by simp [queuedIn, hl, List.count_singleton, Ne.symm hxe])
      exact le_trans (Nat.add_le_add_left h2 _) (h.one_token hx)

/-- A message delivered with no effect leaves the flight. -/
theorem HsInv.erase (h : HsInv S) {m : HsMsg} (hd : m.Droppable S.chan) :
    HsInv ⟨S.chan, S.flight.erase m, S.used⟩ := by
  have hmem : ∀ {m'}, m' ∈ S.flight.erase m → m' ∈ S.flight := Multiset.mem_of_mem_erase
  have hkeep : ∀ {m'}, m' ∈ S.flight → m' ≠ m → m' ∈ S.flight.erase m :=
    fun hm hne => (Multiset.mem_erase_of_ne hne).2 hm
  constructor <;> dsimp only
  · exact h.used_chan
  · exact fun hm => h.used_src (hmem hm)
  · exact fun hm => h.used_dst (hmem hm)
  · exact h.used_queue
  · intro b a hb
    rcases h.peer hb with ha | ⟨l, ha, hm⟩ | hc
    · exact .inl ha
    · refine .inr (.inl ⟨l, ha, hkeep hm ?_⟩)
      rintro rfl; simp [HsMsg.Droppable, ha] at hd
    · refine .inr (.inr (hkeep hc ?_))
      rintro rfl; simp [HsMsg.Droppable, hb] at hd
  · exact fun hm => h.closer (hmem hm)
  · intro x a s hm ha
    rcases h.closed (hmem hm) ha with h' | ⟨l, rfl, hk⟩
    · exact .inl h'
    · refine .inr ⟨l, rfl, hkeep hk ?_⟩
      rintro rfl; simp [HsMsg.Droppable, ha] at hd
  · exact fun hm => h.acker (hmem hm)
  · intro b a l hm ha
    obtain ⟨h1, hb | hc⟩ := h.acked (hmem hm) ha
    · exact ⟨h1, .inl hb⟩
    · refine ⟨h1, .inr (hkeep hc ?_)⟩
      rintro rfl; simp [HsMsg.Droppable, ha] at hd
  · exact fun hm => h.ack_to (hmem hm)
  · exact fun hm => h.req (hmem hm)
  · exact h.queued
  · intro x l hx
    exact le_trans (Nat.add_le_add_right (countP_erase_le _ _ _) _) (h.one_token hx)

/-- A CONN_CLOSE reaching its addressee takes the addressee out of the registry. -/
theorem HsInv.removeClosed (h : HsInv S) {x a : Nat × Nat} (hm : ⟨.close, x, a⟩ ∈ S.flight) :
    HsInv ⟨update S.chan a none, S.flight, S.used⟩ := by
  have hx := h.closer hm
  have hconn : ∀ {l}, S.chan a = some (.connect l) → ∀ {m}, m ∈ S.flight → m.IsToken a →
      m = ⟨.ack, x, a⟩ := by
    intro l ha m hm' ht
    rcases h.closed hm ha with h' | ⟨_, -, hk⟩
    · cases h'
    · exact h.token_unique ha hm' hk ht (.inr ⟨rfl, rfl⟩)
  have hcd : ∀ {b}, S.chan a = some (.connected b) → b = x := fun ha => by
    rcases h.closed hm ha with h' | ⟨_, h', -⟩ <;> cases h'; rfl
  have hgone : ∀ {a' s}, update S.chan a none a' = some s → a' ≠ a := by
    rintro a' s ha rfl; simp at ha
  constructor <;> dsimp only
  · intro e s he; rw [update_noteq (hgone he)] at he; exact h.used_chan he
  · exact h.used_src
  · exact h.used_dst
  · intro l q r hl hr; rw [update_noteq (hgone hl)] at hl; exact h.used_queue hl hr
  · intro b a' hb
    rw [update_noteq (hgone hb)] at hb
    by_cases haa : a' = a
    · subst haa
      rcases h.peer hb with ha | ⟨l, ha, hk⟩ | hc
      · cases hcd ha; rw [hx] at hb; cases hb
      · cases hconn ha hk (.inr ⟨rfl, rfl⟩); rw [hx] at hb; cases hb
      · exact .inr (.inr hc)
    · simpa only [update_noteq haa] using h.peer hb
  · intro e d hm'
    by_cases hea : e = a
    · subst hea; simp
    · rw [update_noteq hea]; exact h.closer hm'
  · intro x' a' s hm' ha'; rw [update_noteq (hgone ha')] at ha'; exact h.closed hm' ha'
  · intro b a' hm'
    by_cases hba : b = a
    · subst hba; simp
    · simpa only [update_noteq hba] using h.acker hm'
  · intro b a' l hm' ha'
    rw [update_noteq (hgone ha')] at ha'
    obtain ⟨h1, hb | hc⟩ := h.acked hm' ha'
    · by_cases hba : b = a
      · subst hba; cases hcd hb; rw [hx] at ha'; cases ha'
      · exact ⟨h1, .inl (by rw [update_noteq hba]; exact hb)⟩
    · exact ⟨h1, .inr hc⟩
  · intro b a' s hm' ha'; rw [update_noteq (hgone ha')] at ha'; exact h.ack_to hm' ha'
  · intro e l hm'
    have he := h.req hm'
    have hea : e ≠ a := by rintro rfl; cases hconn he hm' (.inl ⟨rfl, rfl⟩)
    rw [update_noteq hea]; exact he
  · intro l q e hl he
    rw [update_noteq (hgone hl)] at hl
    have hc := h.queued hl he
    have hea : e ≠ a := by
      rintro rfl
      rcases h.closed hm hc with h' | ⟨_, -, hk⟩
      · cases h'
      · exact h.queued_no_token hl he hk (.inr ⟨rfl, rfl⟩)
    rw [update_noteq hea]; exact hc
  · intro e l he
    rw [update_noteq (hgone he)] at he
    exact le_trans (Nat.add_le_add_left (queuedIn_update_le (by simp [queuedIn])) _)
      (h.one_token he)

/-- A CONN_ACK reaching a connecting channel connects it to the acceptor. -/
theorem HsInv.ack (h : HsInv S) {b a l : Nat × Nat} (hm : ⟨.ack, b, a⟩ ∈ S.flight)
    (ha : S.chan a = some (.connect l)) :
    HsInv ⟨update S.chan a (some (.connected b)), S.flight.erase ⟨.ack, b, a⟩, S.used⟩ := by
  obtain ⟨-, hb⟩ := h.acked hm ha
  have hone : ∀ {m}, m ∈ S.flight → m.IsToken a → m = ⟨.ack, b, a⟩ :=
    fun hm' ht => h.token_unique ha hm' hm ht (.inr ⟨rfl, rfl⟩)
  have hnone : ∀ {m}, m ∈ S.flight.erase ⟨.ack, b, a⟩ → ¬ m.IsToken a :=
    not_mem_erase_of_countP_le_one (by have := h.one_token ha; omega) hm (.inr ⟨rfl, rfl⟩)
  have hmem : ∀ {m'}, m' ∈ S.flight.erase ⟨.ack, b, a⟩ → m' ∈ S.flight := Multiset.mem_of_mem_erase
  have hkeep : ∀ {m'}, m' ∈ S.flight → m'.dst ≠ a ∨ m'.kind ≠ .ack →
      m' ∈ S.flight.erase ⟨.ack, b, a⟩ := by
    rintro m' hm' hne
    refine (Multiset.mem_erase_of_ne ?_).2 hm'
    rintro rfl; rcases hne with hne | hne <;> exact hne rfl
  have hacker : ∀ {a'}, ⟨.ack, a, a'⟩ ∉ S.flight := fun hm' => by
    rcases h.acker hm' with h' | h' <;> rw [ha] at h' <;> cases h'
  have hba : b ≠ a := by
    rintro rfl
    rcases hb with hb | hb
    · rw [ha] at hb; cases hb
    · rw [h.closer hb] at ha; cases ha
  have hlinked : ∀ {a' s}, update S.chan a (some (.connected b)) a' = some s →
      (∀ l, s ≠ .connected l) → a' ≠ a := by
    rintro a' s ha' hs rfl; simp only [update_same, Option.some.injEq] at ha'; exact hs _ ha'.symm
  constructor <;> dsimp only
  · intro e s he
    by_cases hea : e = a
    · subst hea; exact h.used_chan ha
    · rw [update_noteq hea] at he; exact h.used_chan he
  · exact fun hm' => h.used_src (hmem hm')
  · exact fun hm' => h.used_dst (hmem hm')
  · intro l' q r hl' hr; rw [update_noteq (hlinked hl' nofun)] at hl'; exact h.used_queue hl' hr
  · intro b' a' hb'
    by_cases hb'a : b' = a
    · subst hb'a
      simp only [update_same, Option.some.injEq, HsChan.connected.injEq] at hb'; subst hb'
      rcases hb with hb | hb
      · exact .inl (by rw [update_noteq hba]; exact hb)
      · exact .inr (.inr (hkeep hb (.inr nofun)))
    · rw [update_noteq hb'a] at hb'
      by_cases haa : a' = a
      · subst haa
        rcases h.peer hb' with h' | ⟨_, -, hk⟩ | hc
        · rw [ha] at h'; cases h'
        · cases hone hk (.inr ⟨rfl, rfl⟩); exact .inl (by simp)
        · rw [h.closer hc] at ha; cases ha
      · rcases h.peer hb' with h' | ⟨l', h', hk⟩ | hc
        · exact .inl (by rw [update_noteq haa]; exact h')
        · exact .inr (.inl ⟨l', by rw [update_noteq haa]; exact h', hkeep hk (.inl haa)⟩)
        · exact .inr (.inr (hkeep hc (.inr nofun)))
  · intro e d hm'
    have := h.closer (hmem hm')
    rw [update_noteq (by rintro rfl; rw [ha] at this; cases this)]; exact this
  · intro x a' s hm' ha'
    by_cases haa : a' = a
    · subst haa
      simp only [update_same, Option.some.injEq] at ha'; subst ha'
      rcases h.closed (hmem hm') ha with h' | ⟨_, -, hk⟩
      · cases h'
      · cases hone hk (.inr ⟨rfl, rfl⟩); exact .inl rfl
    · rw [update_noteq haa] at ha'
      rcases h.closed (hmem hm') ha' with h' | ⟨l', h', hk⟩
      · exact .inl h'
      · exact .inr ⟨l', h', hkeep hk (.inl haa)⟩
  · intro b' a' hm'
    have hb'a : b' ≠ a := by rintro rfl; exact hacker (hmem hm')
    simpa only [update_noteq hb'a] using h.acker (hmem hm')
  · intro b' a' l' hm' ha'
    rw [update_noteq (hlinked ha' nofun)] at ha'
    have hb'a : b' ≠ a := by rintro rfl; exact hacker (hmem hm')
    obtain ⟨h1, h2 | h2⟩ := h.acked (hmem hm') ha'
    · exact ⟨h1, .inl (by rw [update_noteq hb'a]; exact h2)⟩
    · exact ⟨h1, .inr (hkeep h2 (.inr nofun))⟩
  · intro b' a' s hm' ha'
    have haa : a' ≠ a := by rintro rfl; exact hnone hm' (.inr ⟨rfl, rfl⟩)
    rw [update_noteq haa] at ha'; exact h.ack_to (hmem hm') ha'
  · intro e l' hm'
    have he := h.req (hmem hm')
    have hea : e ≠ a := by rintro rfl; exact hnone hm' (.inl ⟨rfl, rfl⟩)
    rw [update_noteq hea]; exact he
  · intro l' q e hl' he
    rw [update_noteq (hlinked hl' nofun)] at hl'
    have hea : e ≠ a := by rintro rfl; exact h.queued_no_token hl' he hm (.inr ⟨rfl, rfl⟩)
    rw [update_noteq hea]; exact h.queued hl' he
  · intro e l' he
    rw [update_noteq (hlinked he nofun)] at he
    exact le_trans (Nat.add_le_add (countP_erase_le _ _ _)
      (queuedIn_update_le (by simp [queuedIn, ha]))) (h.one_token he)

/-- An idle channel `e` answers the request of `r`, which connects to a listener on `e`'s
host and has nothing left on its way. -/
theorem HsInv.answer (h : HsInv S) {r l : Nat × Nat} (he : S.chan e = some .idle)
    (hr : S.chan r = some (.connect l)) (hl : l.1 = e.1) (ht : ∀ m ∈ S.flight, ¬ m.IsToken r)
    (hq : queuedIn (S.chan l) r = 0) :
    HsInv ⟨update S.chan e (some (.connected r)), ⟨.ack, e, r⟩ ::ₘ S.flight, S.used⟩ := by
  have hu := h.unreferenced_of_unlinked he trivial
  have hre : r ≠ e := by rintro rfl; rw [he] at hr; cases hr
  have hold : ∀ {x s}, S.chan x = some s → s ≠ .idle → x ≠ e := by
    rintro x s hx hs rfl; rw [he] at hx; exact hs (Option.some.inj hx).symm
  have hnew : ∀ {x s}, update S.chan e (some (.connected r)) x = some s →
      (∀ p, s ≠ .connected p) → x ≠ e := by
    rintro x s hx hs rfl; simp only [update_same, Option.some.injEq] at hx; exact hs _ hx.symm
  constructor <;> dsimp only
  · intro x s hx
    by_cases hxe : x = e
    · subst hxe; exact h.used_chan he
    · rw [update_noteq hxe] at hx; exact h.used_chan hx
  · intro m hm hk
    rcases Multiset.mem_cons.1 hm with rfl | hm
    · exact h.used_chan he
    · exact h.used_src hm hk
  · intro m hm hk
    rcases Multiset.mem_cons.1 hm with rfl | hm
    · exact h.used_chan hr
    · exact h.used_dst hm hk
  · intro x q y hx hy; rw [update_noteq (hnew hx nofun)] at hx; exact h.used_queue hx hy
  · intro b a hb
    by_cases hbe : b = e
    · subst hbe
      simp only [update_same, Option.some.injEq, HsChan.connected.injEq] at hb; subst hb
      refine .inr (.inl ⟨l.2, ?_, Multiset.mem_cons_self _ _⟩)
      rw [update_noteq hre, hr, ← hl]
    · rw [update_noteq hbe] at hb
      have hae : a ≠ e := by rintro rfl; exact hu.peer hb
      rcases h.peer hb with h' | ⟨l', h', hk⟩ | hc
      · exact .inl (by rw [update_noteq hae]; exact h')
      · exact .inr (.inl ⟨l', by rw [update_noteq hae]; exact h', Multiset.mem_cons_of_mem hk⟩)
      · exact .inr (.inr (Multiset.mem_cons_of_mem hc))
  · intro x d hm
    rcases Multiset.mem_cons.1 hm with h' | hm
    · cases h'
    · have := h.closer hm; rw [update_noteq (hu.src hm nofun)]; exact this
  · intro x a s hm ha
    rcases Multiset.mem_cons.1 hm with h' | hm
    · cases h'
    · rw [update_noteq (hu.dst hm (.inr rfl))] at ha
      rcases h.closed hm ha with h' | ⟨l', h', hk⟩
      · exact .inl h'
      · exact .inr ⟨l', h', Multiset.mem_cons_of_mem hk⟩
  · intro b a hm
    rcases Multiset.mem_cons.1 hm with h' | hm
    · cases h'; exact .inl (by simp)
    · simpa only [update_noteq (hu.src hm nofun)] using h.acker hm
  · intro b a l' hm ha
    rcases Multiset.mem_cons.1 hm with h' | hm
    · cases h'
      rw [update_noteq hre, hr] at ha; cases ha
      exact ⟨hl, .inl (by simp)⟩
    · rw [update_noteq (hnew ha nofun)] at ha
      obtain ⟨h1, h2 | h2⟩ := h.acked hm ha
      · exact ⟨h1, .inl (by rw [update_noteq (hu.src hm nofun)]; exact h2)⟩
      · exact ⟨h1, .inr (Multiset.mem_cons_of_mem h2)⟩
  · intro b a s hm ha
    rcases Multiset.mem_cons.1 hm with h' | hm
    · cases h'; rw [update_noteq hre, hr] at ha; cases ha; exact ⟨l, rfl⟩
    · rw [update_noteq (hu.dst hm (.inl rfl))] at ha; exact h.ack_to hm ha
  · intro x l' hm
    rcases Multiset.mem_cons.1 hm with h' | hm
    · cases h'
    · have := h.req hm; rw [update_noteq (hold this nofun)]; exact this
  · intro l' q x hl' hx
    rw [update_noteq (hnew hl' nofun)] at hl'
    have := h.queued hl' hx; rw [update_noteq (hold this nofun)]; exact this
  · intro x l' hx
    rw [update_noteq (hnew hx nofun)] at hx
    have h2 : queuedIn (update S.chan e (some (.connected r)) l') x ≤ queuedIn (S.chan l') x :=
      queuedIn_update_le (by simp [queuedIn, he])
    by_cases hxr : x = r
    · subst hxr
      rw [hr] at hx; cases hx
      rw [Multiset.countP_cons_of_pos _ (.inr ⟨rfl, rfl⟩), Multiset.countP_eq_zero.2 ht]
      omega
    · rw [Multiset.countP_cons_of_neg _ (by rintro (⟨h', -⟩ | ⟨-, h'⟩) <;> first | exact hxr h'.symm | cases h')]
      exact le_trans (Nat.add_le_add_left h2 _) (h.one_token hx)

/-- `riocm_ch_connect`: an idle channel asks the listener `l`. -/
theorem HsInv.connect (h : HsInv S) (he : S.chan e = some .idle) (l : Nat × Nat) :
    HsInv ⟨update S.chan e (some (.connect l)), ⟨.req, e, l⟩ ::ₘ S.flight, S.used⟩ := by
  have hu := h.unreferenced_of_unlinked he trivial
  have hold : ∀ {x s}, S.chan x = some s → s ≠ .idle → x ≠ e := by
    rintro x s hx hs rfl; rw [he] at hx; exact hs (Option.some.inj hx).symm
  have hnew : ∀ {x s}, update S.chan e (some (.connect l)) x = some s →
      (∀ p, s ≠ .connect p) → x ≠ e := by
    rintro x s hx hs rfl; simp only [update_same, Option.some.injEq] at hx; exact hs _ hx.symm
  constructor <;> dsimp only
  · intro x s hx
    by_cases hxe : x = e
    · subst hxe; exact h.used_chan he
    · rw [update_noteq hxe] at hx; exact h.used_chan hx
  · intro m hm hk
    rcases Multiset.mem_cons.1 hm with rfl | hm
    · exact h.used_chan he
    · exact h.used_src hm hk
  · intro m hm hk
    rcases Multiset.mem_cons.1 hm with rfl | hm
    · rcases hk with hk | hk <;> cases hk
    · exact h.used_dst hm hk
  · intro x q y hx hy; rw [update_noteq (hnew hx nofun)] at hx; exact h.used_queue hx hy
  · intro b a hb
    rw [update_noteq (hnew hb nofun)] at hb
    have hae : a ≠ e := by rintro rfl; exact hu.peer hb
    rcases h.peer hb with h' | ⟨l', h', hk⟩ | hc
    · exact .inl (by rw [update_noteq hae]; exact h')
    · exact .inr (.inl ⟨l', by rw [update_noteq hae]; exact h', Multiset.mem_cons_of_mem hk⟩)
    · exact .inr (.inr (Multiset.mem_cons_of_mem hc))
  · intro x d hm
    rcases Multiset.mem_cons.1 hm with h' | hm
    · cases h'
    · have := h.closer hm; rw [update_noteq (hu.src hm nofun)]; exact this
  · intro x a s hm ha
    rcases Multiset.mem_cons.1 hm with h' | hm
    · cases h'
    · rw [update_noteq (hu.dst hm (.inr rfl))] at ha
      rcases h.closed hm ha with h' | ⟨l', h', hk⟩
      · exact .inl h'
      · exact .inr ⟨l', h', Multiset.mem_cons_of_mem hk⟩
  · intro b a hm
    rcases Multiset.mem_cons.1 hm with h' | hm
    · cases h'
    · simpa only [update_noteq (hu.src hm nofun)] using h.acker hm
  · intro b a l' hm ha
    rcases Multiset.mem_cons.1 hm with h' | hm
    · cases h'
    · rw [update_noteq (hu.dst hm (.inl rfl))] at ha
      obtain ⟨h1, h2 | h2⟩ := h.acked hm ha
      · exact ⟨h1, .inl (by rw [update_noteq (hu.src hm nofun)]; exact h2)⟩
      · exact ⟨h1, .inr (Multiset.mem_cons_of_mem h2)⟩
  · intro b a s hm ha
    rcases Multiset.mem_cons.1 hm with h' | hm
    · cases h'
    · rw [update_noteq (hu.dst hm (.inl rfl))] at ha; exact h.ack_to hm ha
  · intro x l' hm
    rcases Multiset.mem_cons.1 hm with h' | hm
    · cases h'; simp
    · have := h.req hm; rw [update_noteq (hold this nofun)]; exact this
  · intro l' q x hl' hx
    rw [update_noteq (hnew hl' nofun)] at hl'
    have := h.queued hl' hx; rw [update_noteq (hold this nofun)]; exact this
  · intro x l' hx
    have h2 : queuedIn (update S.chan e (some (.connect l)) l') x ≤ queuedIn (S.chan l') x :=
      queuedIn_update_le (by simp [queuedIn, he])
    by_cases hxe : x = e
    · subst hxe
      simp only [update_same, Option.some.injEq, HsChan.connect.injEq] at hx; subst hx
      have h0 : S.flight.countP (HsMsg.IsToken x) = 0 := Multiset.countP_eq_zero.2 fun m hm ht =>
        ht.elim (fun ⟨hk, hs⟩ => hu.src hm (by rw [hk]; nofun) hs)
          (fun ⟨hk, hd⟩ => hu.dst hm (.inl hk) hd)
      have h3 : queuedIn (S.chan l) x = 0 := by
        unfold queuedIn; split
        · exact List.count_eq_zero.2 (hu.queue ‹_›)
        · rfl
      rw [Multiset.countP_cons_of_pos _ (.inl ⟨rfl, rfl⟩), h0]
      omega
    · rw [update_noteq hxe] at hx
      rw [Multiset.countP_cons_of_neg _ (by rintro (⟨-, h'⟩ | ⟨h', -⟩) <;> first | exact hxe h'.symm | cases h')]
      exact le_trans (Nat.add_le_add_left h2 _) (h.one_token hx)

/-- `riocm_ch_close` of a connected channel sends its CONN_CLOSE to the peer. -/
theorem HsInv.closeConnected (h : HsInv S) {p : Nat × Nat}
    (he : S.chan e = some (.connected p)) :
    HsInv ⟨update S.chan e none, ⟨.close, e, p⟩ ::ₘ S.flight, S.used⟩ := by
  have hnt : ∀ {m}, m ∈ S.flight → ¬ m.IsToken e := by
    rintro m hm (⟨hk, rfl⟩ | ⟨hk, rfl⟩)
    · obtain ⟨_, _, _⟩ := m; cases hk; rw [h.req hm] at he; cases he
    · obtain ⟨_, _, _⟩ := m; cases hk; obtain ⟨_, h'⟩ := h.ack_to hm he; cases h'
  have hgone : ∀ {x s}, update S.chan e none x = some s → x ≠ e := by
    rintro x s hx rfl; simp at hx
  have hpe := h.peer he
  constructor <;> dsimp only
  · intro x s hx; rw [update_noteq (hgone hx)] at hx; exact h.used_chan hx
  · intro m hm hk
    rcases Multiset.mem_cons.1 hm with rfl | hm
    · exact h.used_chan he
    · exact h.used_src hm hk
  · intro m hm hk
    rcases Multiset.mem_cons.1 hm with rfl | hm
    · rcases hpe with h' | ⟨_, h', -⟩ | h'
      · exact h.used_chan h'
      · exact h.used_chan h'
      · exact h.used_src h' nofun
    · exact h.used_dst hm hk
  · intro x q y hx hy; rw [update_noteq (hgone hx)] at hx; exact h.used_queue hx hy
  · intro b a hb
    rw [update_noteq (hgone hb)] at hb
    by_cases hae : a = e
    · subst hae
      rcases h.peer hb with h' | ⟨_, h', -⟩ | hc
      · rw [he] at h'; cases h'; exact .inr (.inr (Multiset.mem_cons_self _ _))
      · rw [he] at h'; cases h'
      · rw [h.closer hc] at he; cases he
    · rcases h.peer hb with h' | ⟨l', h', hk⟩ | hc
      · exact .inl (by rw [update_noteq hae]; exact h')
      · exact .inr (.inl ⟨l', by rw [update_noteq hae]; exact h', Multiset.mem_cons_of_mem hk⟩)
      · exact .inr (.inr (Multiset.mem_cons_of_mem hc))
  · intro x d hm
    rcases Multiset.mem_cons.1 hm with h' | hm
    · cases h'; simp
    · have := h.closer hm
      rw [update_noteq (by rintro rfl; rw [he] at this; cases this)]; exact this
  · intro x a s hm ha
    rw [update_noteq (hgone ha)] at ha
    rcases Multiset.mem_cons.1 hm with h' | hm
    · cases h'
      rcases hpe with h' | ⟨l', h', hk⟩ | hc
      · rw [ha] at h'; exact .inl (Option.some.inj h')
      · rw [ha] at h'; exact .inr ⟨l', Option.some.inj h', Multiset.mem_cons_of_mem hk⟩
      · rw [h.closer hc] at ha; cases ha
    · rcases h.closed hm ha with h' | ⟨l', h', hk⟩
      · exact .inl h'
      · exact .inr ⟨l', h', Multiset.mem_cons_of_mem hk⟩
  · intro b a hm
    rcases Multiset.mem_cons.1 hm with h' | hm
    · cases h'
    · by_cases hbe : b = e
      · subst hbe; simp
      · simpa only [update_noteq hbe] using h.acker hm
  · intro b a l hm ha
    rw [update_noteq (hgone ha)] at ha
    rcases Multiset.mem_cons.1 hm with h' | hm
    · cases h'
    · obtain ⟨h1, h2 | h2⟩ := h.acked hm ha
      · by_cases hbe : b = e
        · subst hbe; rw [he] at h2; cases h2
          exact ⟨h1, .inr (Multiset.mem_cons_self _ _)⟩
        · exact ⟨h1, .inl (by rw [update_noteq hbe]; exact h2)⟩
      · exact ⟨h1, .inr (Multiset.mem_cons_of_mem h2)⟩
  · intro b a s hm ha
    rw [update_noteq (hgone ha)] at ha
    rcases Multiset.mem_cons.1 hm with h' | hm
    · cases h'
    · exact h.ack_to hm ha
  · intro x l hm
    rcases Multiset.mem_cons.1 hm with h' | hm
    · cases h'
    · have := h.req hm
      rw [update_noteq (by rintro rfl; rw [he] at this; cases this)]; exact this
  · intro l q x hl hx
    rw [update_noteq (hgone hl)] at hl
    have := h.queued hl hx
    rw [update_noteq (by rintro rfl; rw [he] at this; cases this)]; exact this
  · intro x l hx
    rw [update_noteq (hgone hx)] at hx
    rw [Multiset.countP_cons_of_neg _ (by rintro (⟨h', -⟩ | ⟨h', -⟩) <;> cases h')]
    exact le_trans (Nat.add_le_add_left (queuedIn_update_le (by simp [queuedIn, he])) _)
      (h.one_token hx)

/-- Every step of the handshake keeps the invariant. -/
theorem HsInv.step (h : HsInv S) {S' : Hs} (hs : HsStep S S') : HsInv S' := by
  cases hs with
  | create he hu =>
    exact h.setQuiet (h.unreferenced_of_fresh hu) (by simp [he]) (by simp [HsChan.Quiet])
      (Set.subset_insert _ _) fun _ => Set.mem_insert _ _
  | bind he =>
    exact h.setQuiet (h.unreferenced_of_unlinked he trivial)
      (fun _ hs => by rw [he] at hs; cases hs; trivial) (by simp [HsChan.Quiet]) subset_rfl
      fun _ => h.used_chan he
  | listen he =>
    exact h.setQuiet (h.unreferenced_of_unlinked he trivial)
      (fun _ hs => by rw [he] at hs; cases hs; trivial) (by simp [HsChan.Quiet]) subset_rfl
      fun _ => h.used_chan he
  | connect l he => exact h.connect he l
  | @accept l r e q hl he hu hh =>
    have hr := h.queued hl (List.mem_cons_self _ _)
    have hre : r ≠ e := by rintro rfl; rw [he] at hr; cases hr
    have hrl : r ≠ l := by rintro rfl; rw [hl] at hr; cases hr
    have hle : l ≠ e := by rintro rfl; rw [he] at hl; cases hl
    have h1 := h.pop hl
    have h2 := h1.setQuiet (v := some .idle) (h1.unreferenced_of_fresh hu)
      (by simp [update_noteq hle.symm, he]) (by simp [HsChan.Quiet]) (Set.subset_insert _ _)
      fun _ => Set.mem_insert _ _
    have hq : queuedIn (some (HsChan.listen q)) r = 0 := by
      have := h.one_token hr
      simp only [queuedIn, hl, List.count_cons_self] at this ⊢
      omega
    have h3 := h2.answer (r := r) (l := l) (by simp) (by simp [update_noteq hre, update_noteq hrl, hr])
      hh.symm (fun m hm => h.queued_no_token hl (List.mem_cons_self _ _) hm)
      (by simpa [update_noteq hle] using hq)
    simpa only [update_idem] using h3
  | @orphan l r e q hl he hu =>
    have hle : l ≠ e := by rintro rfl; rw [he] at hl; cases hl
    have h1 := h.pop hl
    exact h1.setQuiet (v := some .idle) (h1.unreferenced_of_fresh hu)
      (by simp [update_noteq hle.symm, he]) (by simp [HsChan.Quiet]) (Set.subset_insert _ _)
      fun _ => Set.mem_insert _ _
  | close he hs =>
    exact h.setQuiet (h.unreferenced_of_unlinked he hs)
      (fun _ h' => by rw [he] at h'; cases h'; exact hs) (by simp) subset_rfl (by simp)
  | closeConnected he => exact h.closeConnected he
  | @deliverReq m q hm hk hl =>
    obtain ⟨k, x, d⟩ := m
    cases hk
    have hx := h.req hm
    have h1 := h.one_token hx
    have hpos : 0 < S.flight.countP (HsMsg.IsToken x) :=
      Multiset.countP_pos.2 ⟨_, hm, .inl ⟨rfl, rfl⟩⟩
    have hq : x ∉ q := fun hq => by
      have : 0 < queuedIn (S.chan d) x := by
        simp only [queuedIn, hl]; exact List.count_pos_iff.2 hq
      omega
    exact (h.erase (.inl rfl)).enqueue hl hx
      (fun _ hm' => not_mem_erase_of_countP_le_one (p := HsMsg.IsToken x) (by omega) hm
        (.inl ⟨rfl, rfl⟩) hm') hq
  | @deliverAck m l hm hk hl =>
    obtain ⟨k, b, a⟩ := m
    cases hk
    obtain ⟨h1, -⟩ := h.acked hm hl
    have hb : ((l.1, b.2) : Nat × Nat) = b := by rw [h1]
    simpa only [hb] using h.ack hm hl
  | @deliverClose m hm hk =>
    obtain ⟨k, x, a⟩ := m
    cases hk
    exact (h.removeClosed hm).erase (.inr (.inr (.inr ⟨rfl, by simp⟩)))
  | drop _ hd => exact h.erase hd

end Steps

end RioCm
