import Libofp.Normalize.EntryFrame
import Libofp.Messages.FlowMod
import Libofp.Normalize.ActionRoundTrip
import Libofp.Match.OriginalRoundTrip
import Libofp.Match.InsertionOrder
import Libofp.Queues.RoundTrip
import Libofp.Multipart.Splitting
import Libofp.Sys.Buffered
import Libofp.Rpc.ConnectionStdio
import Libofp.Rpc.FilterTable
import Libofp.Oxm.TypeWord
import Libofp.Sys.Registry
import Libofp.Normalize.PacketOutPayload
import Libofp.Normalize.FlowReplies
import Libofp.Messages.PacketIn
import Libofp.Match.RepeatedFields
import Libofp.Packet.ExtensionChain
import Libofp.Packet.ExtensionFlags
import Libofp.Demux.GapFilling
import Libofp.Octets.GrowingBuffer
import Libofp.Ports.PortStats
import Libofp.Ports.PortDescriptions
import Libofp.Oxm.Register
import Libofp.Text.Base64
import Libofp.Text.Lldp
import Libofp.Text.GetJson
import Libofp.Text.OutputJson
import Libofp.Sys.Handshake
