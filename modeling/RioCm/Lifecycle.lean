import RioCm.Effect
import Mathlib.Logic.Relation

/-!
# Lifecycle — device links and the lifecycle of a channel, over every run

What follows from `effect_step`, with no operation unfolded again:

* `DevInv`: the `cmdev` of every registered channel is a `cm_dev` of `cm_dev_list`; it is
  set from CHAN_BOUND on; and in CONNECT and CONNECTED the channel's `rdev` is a peer of
  that `cm_dev`. The sweeps of `riocm_remove_mport` and `riocm_remove_dev` thus leave no
  registered channel pointing at the `cm_dev` or the peer they remove
  (`nodeRun_devInv_init`).
* The lifecycle of a channel object (`LifeEdge`): while it is registered it stays under
  its number, and its state moves only forward, along IDLE → CHAN_BOUND → LISTEN and
  IDLE → CONNECT → CONNECTED (`nodeRun_lifecycle_init`). A refused connect takes the
  channel back to IDLE within the operation, so no run shows CONNECT going back.
-/

namespace RioCm

/-! ## Runs -/

theorem nodeRun_cons_eq_some {n n' : Node} {op : NodeOp} {ops : List NodeOp} {log : List Nat}
    (h : nodeRun n (op :: ops) = some (n', log)) :
    ∃ n1 o log', n.step op = some (n1, o) ∧ nodeRun n1 ops = some (n', log') ∧
      log = o.closed ++ log' := by
  rw [nodeRun] at h
  obtain ⟨⟨n1, o⟩, hs, h⟩ := Option.bind_eq_some.1 h
  obtain ⟨⟨n2, log'⟩, hr, h⟩ := Option.bind_eq_some.1 h
  cases h
  exact ⟨n1, o, log', hs, hr, rfl⟩

/-- A property that every operation keeps, from a state with the registry invariant, holds
after every run. -/
theorem nodeRun_induct {P : Node → Prop}
    (hP : ∀ {n n' o op}, RegInv n → P n → n.step op = some (n', o) → P n') :
    ∀ (ops : List NodeOp) {n n' : Node} {log : List Nat}, RegInv n → P n →
      nodeRun n ops = some (n', log) → P n'
  | [], _, _, _, _, hp, hr => by cases hr; exact hp
  | _ :: ops, _, _, _, h, hp, hr => by
    obtain ⟨_, _, _, hs, hr, -⟩ := nodeRun_cons_eq_some hr
    exact nodeRun_induct hP ops (regStep_step h hs).inv (hP h hp hs) hr

/-- Every state a run from module load reaches has the registry invariant. -/
theorem regInv_of_nodeRun {cmbox chstart : Nat} {ops : List NodeOp} {n : Node} {log : List Nat}
    (h : nodeRun (Node.init cmbox chstart) ops = some (n, log)) : RegInv n :=
  nodeRun_induct (fun _ _ hs => (regStep_step ‹_› hs).inv) ops (regInv_init cmbox chstart)
    (regInv_init cmbox chstart) h

/-! ## Device links -/

/-- The device links of a channel with core `c` are sound against `cm_dev_list` `l`. -/
structure Linked (l : List CmDev) (c : ChanCore) : Prop where
  cmdev : ∀ {p}, c.cmdev = some p → ∃ cm ∈ l, cm.ptr = p
  bound : c.state = .chanBound ∨ c.state = .listen → c.cmdev.isSome
  peer : c.state = .connect ∨ c.state = .connected →
    ∃ cm ∈ l, c.cmdev = some cm.ptr ∧ ∃ d ∈ cm.peers, c.rdev = some d

/-- Every registered channel's device links are sound. -/
def DevInv (n : Node) : Prop :=
  ∀ {k c}, n.cores k = some c → Linked n.cmDevList c

theorem devInv_init (cmbox chstart : Nat) : DevInv (Node.init cmbox chstart) := by
  intro k c h
  simp [Node.cores, Node.init] at h

theorem Linked.kept {l l' : List CmDev} {c : ChanCore} (h : Linked l c) (hk : Kept l l' c) :
    Linked l' c where
  cmdev hp := by
    obtain ⟨cm, hcm, rfl⟩ := h.cmdev hp
    obtain ⟨cm', hcm', hptr, -⟩ := hk cm hcm hp
    exact ⟨cm', hcm', hptr⟩
  bound := h.bound
  peer hs := by
    obtain ⟨cm, hcm, hc, d, hd, hr⟩ := h.peer hs
    obtain ⟨cm', hcm', hptr, hpeers⟩ := hk cm hcm hc
    exact ⟨cm', hcm', hptr ▸ hc, d, hpeers d hd hr, hr⟩

theorem Born.linked {n : Node} {c : ChanCore} (hd : DevInv n) (hb : Born n c) :
    Linked n.cmDevList c := by
  cases hb with
  | alloc _ hs hc => exact ⟨by simp [hc], by simp [hs], by simp [hs]⟩
  | orphan _ hj _ hs hc => exact ⟨fun hp => (hd hj).cmdev (hc ▸ hp), by simp [hs], by simp [hs]⟩
  | accepted _ _ _ hs hcm hc hdm hr =>
    exact ⟨fun hp => ⟨_, hcm, Option.some.inj (hc.symm.trans hp)⟩, by simp [hs],
      fun _ => ⟨_, hcm, hc, _, hdm, hr⟩⟩

theorem Move.linked {l : List CmDev} {c c' : ChanCore} (hm : Move l c c') (h : Linked l c) :
    Linked l c' := by
  cases hm with
  | bind hcm => exact ⟨fun hp => ⟨_, hcm, Option.some.inj hp⟩, fun _ => rfl, by simp⟩
  | listen hs => exact ⟨h.cmdev, fun _ => h.bound (.inl hs), by simp⟩
  | connect _ hcm hd =>
    exact ⟨fun hp => ⟨_, hcm, Option.some.inj hp⟩, fun _ => rfl, fun _ => ⟨_, hcm, rfl, _, hd, rfl⟩⟩
  | ack _ hs => exact ⟨h.cmdev, by simp, fun _ => h.peer (.inl hs)⟩

/-- Every operation keeps the device links sound. -/
theorem Effect.devInv {n n' : Node} (hd : DevInv n) (he : Effect n n') : DevInv n' := by
  intro j c' hj
  cases he with
  | frame h => exact (hd (h hj).1).kept (h hj).2
  | born _ hb hc hl =>
    rw [hc, Function.update_apply] at hj
    rw [hl]
    split_ifs at hj
    · cases hj; exact hb.linked hd
    · exact hd hj
  | move hk hm hc hl =>
    rw [hc, Function.update_apply] at hj
    rw [hl]
    split_ifs at hj
    · cases hj; exact hm.linked (hd hk)
    · exact hd hj

/-- Every state a run from module load reaches has sound device links. -/
theorem devInv_of_nodeRun {cmbox chstart : Nat} {ops : List NodeOp} {n : Node} {log : List Nat}
    (h : nodeRun (Node.init cmbox chstart) ops = some (n, log)) : DevInv n :=
  nodeRun_induct (P := DevInv) (fun h hd hs => (effect_step h hs).devInv hd) ops
    (regInv_init cmbox chstart) (devInv_init cmbox chstart) h

/-- No dangling device links. In every state a run from module load reaches, the `cmdev`
of every registered channel is the address of a `cm_dev` of `cm_dev_list`, and is set in
CHAN_BOUND and LISTEN; and a channel in CONNECT or CONNECTED has a `cmdev` of the list and
as `rdev` one of that `cm_dev`'s peers. -/
theorem nodeRun_devInv_init (cmbox chstart : Nat) (ops : List NodeOp) {n : Node}
    {log : List Nat} (h : nodeRun (Node.init cmbox chstart) ops = some (n, log)) :
    ∀ k ch, n.chIdr k = some ch → Linked n.cmDevList ch.core := fun _ _ hk =>
  devInv_of_nodeRun h (Node.cores_of_chIdr hk)

/-! ## The lifecycle of a channel -/

/-- The forward edges of a channel's lifecycle (`enum rio_cm_state`). -/
inductive LifeEdge : RioCmState → RioCmState → Prop where
  | bind : LifeEdge .idle .chanBound
  | listen : LifeEdge .chanBound .listen
  | connect : LifeEdge .idle .connect
  | ack : LifeEdge .connect .connected

/-- An edge taken by an operation keeps the channel's address and follows the lifecycle,
or (a refused connect) stays in IDLE. -/
theorem Move.lifeEdge {l : List CmDev} {c c' : ChanCore} (hm : Move l c c') :
    c'.ptr = c.ptr ∧ Relation.ReflGen LifeEdge c.state c'.state := by
  cases hm with
  | bind _ hs => exact ⟨rfl, .single (hs ▸ .bind)⟩
  | listen hs => exact ⟨rfl, .single (hs ▸ .listen)⟩
  | connect _ _ _ hs hs' =>
    rcases hs' with rfl | rfl
    · exact ⟨rfl, .single (hs ▸ .connect)⟩
    · exact ⟨rfl, hs ▸ .refl⟩
  | ack _ hs => exact ⟨rfl, .single (hs ▸ .ack)⟩

/-- From CONNECT, a channel only reaches CONNECT or CONNECTED. -/
theorem lifeEdge_from_connect {s : RioCmState}
    (h : Relation.ReflTransGen LifeEdge .connect s) : s = .connect ∨ s = .connected := by
  induction h with
  | refl => exact .inl rfl
  | tail _ e ih => rcases ih with rfl | rfl <;> cases e; exact .inr rfl

/-- Two registered channels with the same address are one. -/
theorem RegInv.cores_inj {n : Node} (h : RegInv n) {k j : Nat} {c c' : ChanCore}
    (hk : n.cores k = some c) (hj : n.cores j = some c') (hp : c.ptr = c'.ptr) : k = j := by
  obtain ⟨ch, hch, rfl⟩ := Node.chIdr_of_cores hk
  obtain ⟨ch', hch', rfl⟩ := Node.chIdr_of_cores hj
  exact h.chan_inj hch hch' hp

/-- One operation, seen from one channel object: it stays under its number and takes at
most one edge, or afterwards no registered channel has its address. -/
theorem Effect.track {n n' : Node} (h : RegInv n) (he : Effect n n') {k : Nat} {c : ChanCore}
    (hk : n.cores k = some c) :
    (∃ c', n'.cores k = some c' ∧ c'.ptr = c.ptr ∧ Relation.ReflGen LifeEdge c.state c'.state) ∨
      ∀ {j c'}, n'.cores j = some c' → c'.ptr ≠ c.ptr := by
  cases he with
  | frame hf =>
    cases hk' : n'.cores k with
    | some c' =>
      have hc := (hf hk').1
      rw [hk] at hc
      cases hc
      exact .inl ⟨c, rfl, rfl, .refl⟩
    | none =>
      refine .inr fun hj hp => ?_
      obtain rfl := h.cores_inj hk (hf hj).1 hp.symm
      rw [hk'] at hj
      cases hj
  | @born kb _ hb _ hc =>
    have hne : k ≠ kb := by rintro rfl; rw [hb] at hk; cases hk
    exact .inl ⟨c, by rw [hc, Function.update_noteq hne, hk], rfl, .refl⟩
  | @move km _ _ hm' hm hc =>
    rw [hc]
    by_cases hkm : k = km
    · subst hkm
      rw [hk] at hm'
      cases hm'
      obtain ⟨hp, hl⟩ := hm.lifeEdge
      exact .inl ⟨_, Function.update_same _ _ _, hp, hl⟩
    · exact .inl ⟨c, by rw [Function.update_noteq hkm, hk], rfl, .refl⟩

/-- An address no registered channel has stays so over a run. -/
theorem nodeRun_dead {p : Nat} (ops : List NodeOp) {n n' : Node} {log : List Nat} (h : RegInv n)
    (hp : n.Dead p) (hr : nodeRun n ops = some (n', log)) : n'.Dead p :=
  nodeRun_induct (P := (Node.Dead · p)) (fun h hd hs => (regStep_step h hs).dead hd) ops h hp hr

/-- Over a run from a state with the registry invariant, a channel object registered at
both ends is under the same number at both, and its state moved forward along the
lifecycle. -/
theorem nodeRun_lifecycle : ∀ (ops : List NodeOp) {n n' : Node} {log : List Nat} {k j : Nat}
    {c c' : ChanCore}, RegInv n → nodeRun n ops = some (n', log) → n.cores k = some c →
    n'.cores j = some c' → c'.ptr = c.ptr →
    j = k ∧ Relation.ReflTransGen LifeEdge c.state c'.state
  | [], _, _, _, _, _, _, _, h, hr, hk, hj, hp => by
    cases hr
    obtain rfl := h.cores_inj hk hj hp.symm
    rw [hk] at hj
    cases hj
    exact ⟨rfl, .refl⟩
  | _ :: ops, n, _, _, _, _, c, _, h, hr, hk, hj, hp => by
    obtain ⟨n1, _, _, hs, hr, -⟩ := nodeRun_cons_eq_some hr
    have st := regStep_step h hs
    rcases (effect_step h hs).track h hk with ⟨c1, hk1, hp1, he1⟩ | hgone
    · obtain ⟨rfl, ht⟩ := nodeRun_lifecycle ops st.inv hr hk1 hj (hp.trans hp1.symm)
      exact ⟨rfl, he1.to_reflTransGen.trans ht⟩
    · obtain ⟨ch, hch, rfl⟩ := Node.chIdr_of_cores hk
      have hdead : n1.Dead ch.ptr := by
        refine ⟨lt_of_lt_of_le (h.ptr_lt (Node.view_of_chIdr hch)) st.next_le, fun hv => ?_⟩
        obtain ⟨ch1, hch1, rfl⟩ := Option.map_eq_some'.1 hv
        exact hgone (Node.cores_of_chIdr hch1)
      obtain ⟨ch', hch', rfl⟩ := Node.chIdr_of_cores hj
      exact absurd hp ((nodeRun_dead ops st.inv hdead hr).2 (Node.view_of_chIdr hch'))

/-- The lifecycle of a channel object. Take a state that a run from module load reaches,
and a run from there: a channel object registered at both ends (at the same address) is
under the same number at both, and its state at the end is reached from its state at the
start along the edges IDLE → CHAN_BOUND → LISTEN and IDLE → CONNECT → CONNECTED. -/
theorem nodeRun_lifecycle_init (cmbox chstart : Nat) (ops ops' : List NodeOp) {n n' : Node}
    {log log' : List Nat} (h : nodeRun (Node.init cmbox chstart) ops = some (n, log))
    (h' : nodeRun n ops' = some (n', log')) {k j : Nat} {ch ch' : RioChannel}
    (hk : n.chIdr k = some ch) (hj : n'.chIdr j = some ch') (hp : ch'.ptr = ch.ptr) :
    j = k ∧ Relation.ReflTransGen LifeEdge ch.state ch'.state :=
  nodeRun_lifecycle ops' (regInv_of_nodeRun h) h' (Node.cores_of_chIdr hk)
    (Node.cores_of_chIdr hj) hp

/-- Channel 2 of `connectedHost`, IDLE once created, is CONNECTED after the connect and
the CONN_ACK. -/
theorem nodeRun_lifecycle_connectedHost :
    ∃ n log n' log' ch ch',
      nodeRun (Node.init 1 256) (connectedHost.take 3) = some (n, log) ∧
      nodeRun n (connectedHost.drop 3) = some (n', log') ∧
      n.chIdr 2 = some ch ∧ n'.chIdr 2 = some ch' ∧ ch'.ptr = ch.ptr ∧
      ch.state = .idle ∧ ch'.state = .connected ∧
      (2 = 2 ∧ Relation.ReflTransGen LifeEdge ch.state ch'.state) :=
  ⟨_, _, _, _, _, _, rfl, rfl, rfl, rfl, rfl, rfl, rfl,
    nodeRun_lifecycle_init 1 256 (connectedHost.take 3) (connectedHost.drop 3) rfl rfl rfl rfl rfl⟩

end RioCm
