import Tr69HostIf.Store.Dict
import Tr69HostIf.Store.Lines
import Tr69HostIf.Store.KeyValue
import Tr69HostIf.Store.Run
import Tr69HostIf.Store.Record
import Tr69HostIf.HostIf
import Tr69HostIf.RFC.Store
import Tr69HostIf.RFC.Spec
import Tr69HostIf.RFC.Agreement
import Tr69HostIf.RFC.Cycle
import Tr69HostIf.RFC.Nonpersist
import Tr69HostIf.RFC.Restart
import Tr69HostIf.BS.Journal
import Tr69HostIf.BS.Store
import Tr69HostIf.BS.Setting
import Tr69HostIf.BS.Load
import Tr69HostIf.BS.Spec
import Tr69HostIf.BS.Codec
import Tr69HostIf.BS.RoundTrip
import Tr69HostIf.BS.Filed
import Tr69HostIf.BS.Precedence
import Tr69HostIf.BS.Reload
import Tr69HostIf.BS.Revert
import Tr69HostIf.BS.PartnerWatch
import Tr69HostIf.BS.PartnerHearing
import Tr69HostIf.BS.PartnerRead
import Tr69HostIf.IniFile
import Tr69HostIf.Isolation
import Tr69HostIf.Atomic
import Tr69HostIf.Store.Scan
import Tr69HostIf.Store.HashTable
import Tr69HostIf.Clib.Bytes
import Tr69HostIf.Clib.Decimal
import Tr69HostIf.Mgr.Config
import Tr69HostIf.Mgr.Loaded
import Tr69HostIf.Mgr.Routing
import Tr69HostIf.Waldb.DataModel
import Tr69HostIf.Waldb.Lookup
import Tr69HostIf.Waldb.Pieces
import Tr69HostIf.Waldb.Hits
import Tr69HostIf.Waldb.Misses
import Tr69HostIf.Waldb.Complete
import Tr69HostIf.Transport.Message
import Tr69HostIf.Transport.Literal
import Tr69HostIf.Transport.Report
import Tr69HostIf.Transport.Set
import Tr69HostIf.Transport.SetAgree
import Tr69HostIf.Transport.Protect
import Tr69HostIf.Waldb.Attempts
import Tr69HostIf.Transport.Get
import Tr69HostIf.Transport.Slots
import Tr69HostIf.Clib.Ascii
import Tr69HostIf.Transport.Defaults
import Tr69HostIf.Transport.Wildcard
import Tr69HostIf.Waldb.Instances
import Tr69HostIf.Waldb.Sound
import Tr69HostIf.Waldb.Walk
import Tr69HostIf.Store.Paths
import Tr69HostIf.Waldb.Expansion
import Tr69HostIf.Waldb.Splice
import Tr69HostIf.Waldb.Rounds
import Tr69HostIf.Waldb.Regular
import Tr69HostIf.Waldb.Blocks
import Tr69HostIf.Waldb.Walked
import Tr69HostIf.Waldb.Exact
import Tr69HostIf.RFC.Clear
import Tr69HostIf.RFC.Faults
import Tr69HostIf.RFC.SetGet
import Tr69HostIf.Store.Exchange
import Tr69HostIf.Notify.Handler
import Tr69HostIf.Transport.WebpaSet
import Tr69HostIf.Store.Replay
import Tr69HostIf.Update.Events
import Tr69HostIf.Update.Upward
import Tr69HostIf.Update.Interfaces
import Tr69HostIf.Transport.JsonParse
import Tr69HostIf.RFC.Effect
import Tr69HostIf.DeviceInfo.StringValue
import Tr69HostIf.DeviceInfo.SetRFC
import Tr69HostIf.DeviceInfo.Truth
import Tr69HostIf.DeviceInfo.ReverseSsh
import Tr69HostIf.DeviceInfo.SshRuns
import Tr69HostIf.Store.Multimap
import Tr69HostIf.InterfaceStack.Table
import Tr69HostIf.InterfaceStack.OneBridge
import Tr69HostIf.InterfaceStack.Links
import Tr69HostIf.InterfaceStack.Faithful
import Tr69HostIf.Transport.Validate
import Tr69HostIf.DeviceInfo.Codec
import Tr69HostIf.Waldb.Inside
import Tr69HostIf.Waldb.Listing
import Tr69HostIf.Transport.Register
import Tr69HostIf.IP.Dispatch
import Tr69HostIf.Store.Select
import Tr69HostIf.DeviceInfo.Blocklist
import Tr69HostIf.DeviceInfo.BlocklistExact
import Tr69HostIf.IP.Interfaces
import Tr69HostIf.IP.Numbering
import Tr69HostIf.Clib.Hex
import Tr69HostIf.IP.ActivePort
import Tr69HostIf.Store.Watch
import Tr69HostIf.DeviceInfo.ProcessStatus
import Tr69HostIf.IP.IPv6Flags
import Tr69HostIf.Notify.Changes
import Tr69HostIf.Clib.Stream
import Tr69HostIf.IP.Lifetimes
import Tr69HostIf.DeviceInfo.Firmware
import Tr69HostIf.Waldb.Merge
import Tr69HostIf.Clib.Scanf
import Tr69HostIf.Time.NTPServers
import Tr69HostIf.DHCPv4.Address
import Tr69HostIf.DHCPv4.Client
import Tr69HostIf.IP.Component
import Tr69HostIf.Waldb.Current
import Tr69HostIf.Waldb.Compare
import Tr69HostIf.Clib.Bits
import Tr69HostIf.Clib.Base64
import Tr69HostIf.STBService.DisplayDevice
import Tr69HostIf.IP.Addresses
import Tr69HostIf.Notify.ValueChange
import Tr69HostIf.Store.Fault
import Tr69HostIf.Notify.Attributes
import Tr69HostIf.MoCA.MeshTable
import Tr69HostIf.DeviceInfo.SecureDebug
import Tr69HostIf.Parodus.Client
import Tr69HostIf.Parodus.Url
import Tr69HostIf.Transport.JsonReply
