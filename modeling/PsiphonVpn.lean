import PsiphonVpn.Manager.Terminate
import PsiphonVpn.Manager.Descriptor
import PsiphonVpn.Service.Session
import PsiphonVpn.Service.Params
import PsiphonVpn.Service.Errors
import PsiphonVpn.Service.Clients
import PsiphonVpn.Service.Connected
import PsiphonVpn.Client.Comms
import PsiphonVpn.Service.Foreground
import PsiphonVpn.Relay.Pbuf
import PsiphonVpn.UdpGw.Lru
import PsiphonVpn.Manager.SelectAddress
import PsiphonVpn.Udp.Conform
import PsiphonVpn.Udp.Reply
import PsiphonVpn.Flow.Deframe
import PsiphonVpn.Flow.Reconnect
import PsiphonVpn.UdpGw.FirstPacket
import PsiphonVpn.UdpGw.Flows
import PsiphonVpn.Flow.PacketBuffer
import PsiphonVpn.Flow.FairTime
import PsiphonVpn.Reactor.Synchronize
import PsiphonVpn.Socks.UserName
import PsiphonVpn.Base.BPending
import PsiphonVpn.Flow.IntRange
import PsiphonVpn.Net.Ipaddr6Print
import PsiphonVpn.Service.EgressRegions
import PsiphonVpn.Structure.BAVL
import PsiphonVpn.Structure.CAvl
