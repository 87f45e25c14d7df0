import RioCm.Network

/-!
# Wire — the bytes of `struct rio_ch_chan_hdr`

`riocm_post_send` hands the transport the 20 bytes of a `struct rio_ch_chan_hdr`: the
packed layout, with `src_id` and `dst_id` (`htonl`) and the channel numbers, `msg_len` and
`rsrvd` (`htons`) in network order. `RioChChanHdr.bytes` (in `Buffers`) encodes a header
so, and `RioChChanHdr.ofBytes` reads one from the front of a message, as the receive
handlers and `cm_chan_msg_send` do. The two are inverse on headers whose fields fit their
widths (`RioChChanHdr.ofBytes_bytes`, `RioChChanHdr.bytes_ofBytes`).

The headers `riocm_ch_connect` and `riocm_send_ack` build on the stack, and the one
`riocm_ch_send` writes over the caller's buffer, leave some fields to what the memory held
before (`txHeaders_carry_prior_memory`).
-/

namespace RioCm

/-! ## Fields in network order -/

@[simp] theorem beBytes_length : ∀ w v, (beBytes w v).length = w
  | 0, _ => rfl
  | w + 1, v => by simp [beBytes, beBytes_length w]

theorem beValue_append_singleton (bs : List Nat) (b : Nat) :
    beValue (bs ++ [b]) = beValue bs * 256 + b := by
  simp [beValue, List.foldl_append]

theorem beValue_beBytes : ∀ w v, beValue (beBytes w v) = v % 256 ^ w
  | 0, v => by simp [beBytes, beValue, Nat.mod_one]
  | w + 1, v => by
    rw [beBytes, beValue_append_singleton, beValue_beBytes w, pow_succ', Nat.mod_mul]
    omega

theorem beBytes_beValue (bs : List Nat) (h : ∀ b ∈ bs, b < 256) :
    beBytes bs.length (beValue bs) = bs := by
  induction bs using List.reverseRecOn with
  | nil => rfl
  | append_singleton bs b ih =>
    have hb := h b (List.mem_append_right _ (List.mem_singleton_self b))
    rw [List.length_append, List.length_singleton, beBytes, beValue_append_singleton,
      show (beValue bs * 256 + b) / 256 = beValue bs by omega,
      show (beValue bs * 256 + b) % 256 = b by omega,
      ih fun x hx => h x (List.mem_append_left _ hx)]

theorem beBytes_lt : ∀ w v, ∀ b ∈ beBytes w v, b < 256
  | 0, _, _, hb => absurd hb (List.not_mem_nil _)
  | w + 1, v, b, hb => by
    rcases List.mem_append.1 hb with hb | hb
    · exact beBytes_lt w _ b hb
    · rw [List.mem_singleton.1 hb]
      omega

/-! ## Packed records -/

/-- Each value modulo its width: what survives encoding. -/
def reduceFields (ws vs : List Nat) : List Nat := List.zipWith (fun w v => v % 256 ^ w) ws vs

theorem unpackFields_packFields : ∀ (ws vs rest : List Nat), ws.length = vs.length →
    unpackFields ws (packFields ws vs ++ rest) = some (reduceFields ws vs)
  | [], [], _, _ => rfl
  | w :: ws, v :: vs, rest, hl => by
    have hl' : ws.length = vs.length := Nat.succ.inj hl
    simp only [unpackFields, packFields, List.append_assoc, List.length_append, beBytes_length,
      List.take_left' (beBytes_length w v), List.drop_left' (beBytes_length w v),
      unpackFields_packFields ws vs rest hl', Option.map_some', beValue_beBytes]
    rw [if_neg (by omega)]
    rfl

/-- What `unpackFields` reads, encoded again, gives back the bytes it read. -/
theorem packFields_unpackFields : ∀ {ws bs vs : List Nat}, unpackFields ws bs = some vs →
    (∀ b ∈ bs, b < 256) → packFields ws vs ++ bs.drop (packFields ws vs).length = bs
  | [], bs, vs, h, _ => by cases h; rfl
  | w :: ws, bs, vs, h, hb => by
    simp only [unpackFields] at h
    split_ifs at h with hw
    obtain ⟨vs', h', rfl⟩ := Option.map_eq_some'.1 h
    have ht := beBytes_beValue (bs.take w) fun b hb' => hb b (List.mem_of_mem_take hb')
    rw [List.length_take_of_le (by omega)] at ht
    have hd := packFields_unpackFields h' fun b hb' => hb b (List.mem_of_mem_drop hb')
    rw [packFields, List.length_append, beBytes_length, ← List.drop_drop, List.append_assoc, hd,
      ht, List.take_append_drop]

/-! ## The header -/

/-- Every field of the header fits its width. -/
def RioChChanHdr.InRange (h : RioChChanHdr) : Prop :=
  reduceFields rioChChanHdrLayout h.fields = h.fields

instance (h : RioChChanHdr) : Decidable h.InRange := inferInstanceAs (Decidable (_ = _))

theorem RioChChanHdr.ofFields_eq_some {vs : List Nat} {h : RioChChanHdr}
    (he : RioChChanHdr.ofFields vs = some h) : h.fields = vs := by
  unfold RioChChanHdr.ofFields at he
  split at he
  · cases he
    rfl
  · cases he

@[simp] theorem RioChChanHdr.bytes_length (h : RioChChanHdr) : h.bytes.length = 20 := by
  simp [RioChChanHdr.bytes, rioChChanHdrLayout, RioChChanHdr.fields, packFields]

/-- A header in range is read back from its bytes, whatever follows them. -/
theorem RioChChanHdr.ofBytes_bytes {h : RioChChanHdr} (hr : h.InRange) (rest : List Nat) :
    RioChChanHdr.ofBytes (h.bytes ++ rest) = some h := by
  rw [RioChChanHdr.ofBytes, RioChChanHdr.bytes,
    unpackFields_packFields rioChChanHdrLayout h.fields rest rfl]
  rw [RioChChanHdr.InRange] at hr
  rw [hr, Option.some_bind]
  rfl

theorem RioChChanHdr.ofBytes_bytes_connClose :
    (⟨5, 7, 1, 1, rioCmChan, 2, 1, 2, 0, 0⟩ : RioChChanHdr).InRange ∧
    RioChChanHdr.ofBytes ((⟨5, 7, 1, 1, rioCmChan, 2, 1, 2, 0, 0⟩ : RioChChanHdr).bytes ++ [9]) =
      some ⟨5, 7, 1, 1, rioCmChan, 2, 1, 2, 0, 0⟩ :=
  ⟨by decide, RioChChanHdr.ofBytes_bytes (by decide) [9]⟩

/-- A header read from bytes is in range, and its bytes are the 20 it was read from. -/
theorem RioChChanHdr.bytes_ofBytes {bs : List Nat} {h : RioChChanHdr}
    (he : RioChChanHdr.ofBytes bs = some h) (hb : ∀ b ∈ bs, b < 256) :
    h.InRange ∧ h.bytes ++ bs.drop 20 = bs := by
  obtain ⟨vs, hu, hf⟩ := Option.bind_eq_some.1 he
  rw [← RioChChanHdr.ofFields_eq_some hf] at hu
  have hp := packFields_unpackFields hu hb
  rw [← RioChChanHdr.bytes, RioChChanHdr.bytes_length] at hp
  refine ⟨?_, hp⟩
  have h2 := unpackFields_packFields rioChChanHdrLayout h.fields (bs.drop 20) rfl
  rw [← RioChChanHdr.bytes, hp, hu] at h2
  exact (Option.some.inj h2).symm

theorem RioChChanHdr.bytes_ofBytes_connClose :
    RioChChanHdr.ofBytes [0, 0, 0, 5, 0, 0, 0, 7, 1, 1, 85, 2, 0, 1, 0, 2, 0, 0, 0, 0, 9] =
      some ⟨5, 7, 1, 1, 85, 2, 1, 2, 0, 0⟩ ∧
    (∀ b ∈ [0, 0, 0, 5, 0, 0, 0, 7, 1, 1, 85, 2, 0, 1, 0, 2, 0, 0, 0, 0, 9], b < 256) ∧
    (RioChChanHdr.InRange ⟨5, 7, 1, 1, 85, 2, 1, 2, 0, 0⟩ ∧
      RioChChanHdr.bytes ⟨5, 7, 1, 1, 85, 2, 1, 2, 0, 0⟩ ++
        [0, 0, 0, 5, 0, 0, 0, 7, 1, 1, 85, 2, 0, 1, 0, 2, 0, 0, 0, 0, 9].drop 20 =
      [0, 0, 0, 5, 0, 0, 0, 7, 1, 1, 85, 2, 0, 1, 0, 2, 0, 0, 0, 0, 9]) :=
  ⟨rfl, by decide, RioChChanHdr.bytes_ofBytes rfl (by decide)⟩

/-- The headers carry what the memory under them held. Two hosts run the handshake of
`acceptedHandshake`, once with the stacks and the message all zero and once with the bytes
of `msg_len` and `rsrvd` on the stacks holding `0x1234` and `0x5678` and the message's
bytes 18 and 19 holding 0x56 and 0x78. The CONN_REQ of `riocm_ch_connect` and the CONN_ACK
of `riocm_send_ack` go out ending in 0, 0, 0, 0 the first time and in 0x12, 0x34, 0x56,
0x78 the second; the data message of `riocm_ch_send` ends in 0, 0 and in 0x56, 0x78, its
`rsrvd`. -/
theorem txHeaders_carry_prior_memory :
    (netRun (Net.init 1 256) (acceptedHandshake.take 8 ++
        [.run 5 (.chanConnect 2 1 7 1 ⟨0, 0, 0, 0, 0, 0, 0, 0, 0, 0⟩ .sent)])).map
      (fun N => N.flight.map (·.hdr.bytes)) =
      some [[0, 0, 0, 5, 0, 0, 0, 7, 1, 1, 0x55, 0, 0, 1, 0, 2, 0, 0, 0, 0]] ∧
    (netRun (Net.init 1 256) (acceptedHandshake.take 8 ++
        [.run 5 (.chanConnect 2 1 7 1 ⟨0, 0, 0, 0, 0, 0, 0, 0, 0x1234, 0x5678⟩ .sent)])).map
      (fun N => N.flight.map (·.hdr.bytes)) =
      some [[0, 0, 0, 5, 0, 0, 0, 7, 1, 1, 0x55, 0, 0, 1, 0, 2, 0x12, 0x34, 0x56, 0x78]] ∧
    (netRun (Net.init 1 256) (acceptedHandshake.take 10 ++
        [.run 7 (.chanAccept 9 1 0 .signal true ⟨0, 0, 0, 0, 0, 0, 0, 0, 0, 0⟩ .sent)])).map
      (fun N => N.flight.map (·.hdr.bytes)) =
      some [[0, 0, 0, 7, 0, 0, 0, 5, 1, 1, 0x55, 1, 0, 2, 1, 0, 0, 0, 0, 0]] ∧
    (netRun (Net.init 1 256) (acceptedHandshake.take 10 ++
        [.run 7
          (.chanAccept 9 1 0 .signal true ⟨0, 0, 0, 0, 0, 0, 0, 0, 0x1234, 0x5678⟩ .sent)])).map
      (fun N => N.flight.map (·.hdr.bytes)) =
      some [[0, 0, 0, 7, 0, 0, 0, 5, 1, 1, 0x55, 1, 0, 2, 1, 0, 0x12, 0x34, 0x56, 0x78]] ∧
    (netRun (Net.init 1 256) (acceptedHandshake ++ [.deliver 0 0 true true .sent,
        .run 5 (.chanSend 2 100 true (fun _ => 0) .sent)])).map
      (fun N => N.flight.map (·.hdr.bytes)) =
      some [[0, 0, 0, 5, 0, 0, 0, 0, 1, 1, 0x55, 3, 1, 0, 0, 2, 0, 100, 0, 0]] ∧
    (netRun (Net.init 1 256) (acceptedHandshake ++ [.deliver 0 0 true true .sent,
        .run 5 (.chanSend 2 100 true (fun i => if i = 18 then 0x56 else if i = 19 then 0x78 else 0)
          .sent)])).map
      (fun N => N.flight.map (·.hdr.bytes)) =
      some [[0, 0, 0, 5, 0, 0, 0, 0, 1, 1, 0x55, 3, 1, 0, 0, 2, 0, 100, 0x56, 0x78]] := by
  refine ⟨?_, ?_, ?_, ?_, ?_, ?_⟩ <;> decide

end RioCm
