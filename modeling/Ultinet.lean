import Ultinet.Packet.NoSilentLoss
import Ultinet.Packet.AtMostOnce
import Ultinet.Packet.LockStep
import Ultinet.Packet.FailedHandling
import Ultinet.Packet.AckHistory
import Ultinet.Packet.Positions
import Ultinet.Packet.BlockedSocket
import Ultinet.Packet.BatchAcks
import Ultinet.Packet.LastReceive
import Ultinet.Packet.GiveUp
import Ultinet.Packet.Duplex
import Ultinet.Packet.Throughput
import Ultinet.Packet.Interleaving
import Ultinet.Net.ConnectionSlot
import Ultinet.Net.OtherListeners
import Ultinet.Net.Disconnecting
import Ultinet.Net.Agreement
import Ultinet.Net.PeerFilter
import Ultinet.Net.ClientCallbacks
import Ultinet.Net.ServerCallbacks
import Ultinet.Net.ServerResend
import Ultinet.Net.ServerTraffic
import Ultinet.Net.PingTimeout
import Ultinet.Net.QueryRetry
import Ultinet.Net.ClientTraffic
import Ultinet.Net.ClientTimeout
import Ultinet.Net.Connecting
import Ultinet.Net.ServerPanics
import Ultinet.Net.ServerIsolation
import Ultinet.Net.ClientBuffers
