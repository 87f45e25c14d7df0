import RioCm.Basic
import RioCm.TxRing
import RioCm.RxRing
import RioCm.Channel
import RioCm.Buffers
import RioCm.Node
import RioCm.Registry
import RioCm.Effect
import RioCm.Accept
import RioCm.RxPool
import RioCm.Lifecycle
import RioCm.Safety
import RioCm.Connect
import RioCm.Network
import RioCm.Wire
import RioCm.Ioctl
import RioCm.Mailbox
import RioCm.HostRings
import RioCm.DevList
import RioCm.Load
import RioCm.Teardown
import RioCm.Drain
import RioCm.Handshake
import RioCm.HandshakeNet
