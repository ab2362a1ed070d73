import AdGuardHome.Lib.GoMap
import AdGuardHome.Lib.Run
import AdGuardHome.Lib.InvertedIndex
import AdGuardHome.Lib.BinarySearch
import AdGuardHome.Net.Netip
import AdGuardHome.Aghalg.SortedMap
import AdGuardHome.Client.Persistent
import AdGuardHome.Client.Index
import AdGuardHome.Client.Storage
import AdGuardHome.Lib.Heap
import AdGuardHome.Dhcp.Lease
import AdGuardHome.Dhcp.BitSet
import AdGuardHome.Dhcpd.Config
import AdGuardHome.Dhcpd.V4Server
import AdGuardHome.Dhcpd.Operations
import AdGuardHome.Dhcpd.RmDynamic
import AdGuardHome.Dhcpd.Addresses
import AdGuardHome.Dhcpd.Formed
import AdGuardHome.Dhcpd.Replace
import AdGuardHome.Dhcpd.Failed
import AdGuardHome.Dhcpd.Offsets
import AdGuardHome.Dhcpd.Allocation
import AdGuardHome.Dhcpd.V6Server
import AdGuardHome.Dhcpd.FreeIP6
import AdGuardHome.Dhcpd.Hosts
import AdGuardHome.Dhcpsvc.IPRange
import AdGuardHome.Dhcpsvc.Server
import AdGuardHome.Dhcpsvc.Operations
import AdGuardHome.Dhcpsvc.Leases
import AdGuardHome.Lib.TwinIndex
import AdGuardHome.Dhcpsvc.LeaseIndex
import AdGuardHome.Dhcpsvc.Placed
import AdGuardHome.Dhcpsvc.Availability
import AdGuardHome.Lib.Lines
import AdGuardHome.Querylog.QLogFile
import AdGuardHome.Querylog.Timestamp
import AdGuardHome.Querylog.QLogReader
import AdGuardHome.Querylog.ReadBack
import AdGuardHome.Querylog.Seek
import AdGuardHome.Querylog.Paging
import AdGuardHome.Lib.Hex
import AdGuardHome.Hashprefix.Checker
import AdGuardHome.Hashprefix.Cached
import AdGuardHome.Lib.Agree
import AdGuardHome.Configmigrate.Yaml
import AdGuardHome.Configmigrate.Migrations
import AdGuardHome.Configmigrate.Similar
import AdGuardHome.Configmigrate.Respects
import AdGuardHome.Configmigrate.PathIndependence
import AdGuardHome.Configmigrate.NilMaps
import AdGuardHome.Configmigrate.Paths
import AdGuardHome.Configmigrate.Frames
import AdGuardHome.Configmigrate.Docs
import AdGuardHome.Configmigrate.Keeps
import AdGuardHome.Configmigrate.NothingLost
import AdGuardHome.Lib.Counting
import AdGuardHome.Home.AuthRateLimiter
import AdGuardHome.Home.AuthHTTP
import AdGuardHome.Dnsforward.Protection
import AdGuardHome.Aghuser.Session
import AdGuardHome.Aghuser.SessionStorage
import AdGuardHome.Aghuser.Histories
import AdGuardHome.Net.Parse
import AdGuardHome.Aghnet.Addr
import AdGuardHome.Dnsforward.Access
import AdGuardHome.Dnsforward.Middleware
import AdGuardHome.Dnsforward.AccessSpec
import AdGuardHome.Stats.Unit
import AdGuardHome.Stats.Stats
import AdGuardHome.Stats.Conservation
import AdGuardHome.Dnsforward.Config
import AdGuardHome.Dnsforward.SetConfig
import AdGuardHome.Dnsforward.TakesEffect
import AdGuardHome.Filtering.Result
import AdGuardHome.Dnsforward.Msg
import AdGuardHome.Dnsforward.Process
import AdGuardHome.Lib.Stages
import AdGuardHome.Lib.Each
import AdGuardHome.Dnsforward.Answers
import AdGuardHome.Dnsforward.Filtered
import AdGuardHome.Lib.Filepath
import AdGuardHome.Filtering.FilterYAML
import AdGuardHome.Filtering.IDGenerator
import AdGuardHome.Filtering.Filters
import AdGuardHome.Filtering.UniqueIDs
import AdGuardHome.Lib.Ledger
import AdGuardHome.Client.Lookup
import AdGuardHome.Client.MostSpecific
import AdGuardHome.Client.UpstreamManager
import AdGuardHome.Client.Stored
import AdGuardHome.Client.SameClient
import AdGuardHome.Client.CustomUpstreams
import AdGuardHome.Home.AuthMiddleware
import AdGuardHome.Dnsforward.IPv6Off
import AdGuardHome.Aghnet.IPMut
import AdGuardHome.Home.Clients
import AdGuardHome.Dnsforward.Recording
import AdGuardHome.Safesearch.Saved
import AdGuardHome.Lib.Digits
import AdGuardHome.Lib.Json
import AdGuardHome.Lib.JsonDecoder
import AdGuardHome.Lib.Utf8
import AdGuardHome.Lib.Lower
import AdGuardHome.Aghnet.ParseIP
import AdGuardHome.Querylog.Format
import AdGuardHome.Lib.Base64
import AdGuardHome.Querylog.Entry
import AdGuardHome.Querylog.Decode
import AdGuardHome.Lib.JsonKeys
import AdGuardHome.Querylog.SearchCriterion
import AdGuardHome.Querylog.QuickMatch
import AdGuardHome.Querylog.ReadAlike
import AdGuardHome.Lib.Cursor
import AdGuardHome.Querylog.Search
import AdGuardHome.Querylog.ScanLimit
import AdGuardHome.Querylog.PagedSearch
import AdGuardHome.Aghnet.Text
import AdGuardHome.Client.Identifiers
import AdGuardHome.Client.RuntimeIndex
import AdGuardHome.Client.RuntimeSources
import AdGuardHome.Dhcp.Database
import AdGuardHome.Dhcpsvc.Database
import AdGuardHome.Dhcpd.Database
import AdGuardHome.Lib.RingBuffer
import AdGuardHome.Querylog.QueryLog
import AdGuardHome.Querylog.Interleaving
import AdGuardHome.Dhcpsvc.Options6
import AdGuardHome.Lib.SortFunc
import AdGuardHome.Lib.Chain
import AdGuardHome.Filtering.Rewrites
import AdGuardHome.Filtering.RewritePriority
import AdGuardHome.Filtering.RewriteChain
import AdGuardHome.Filtering.RewriteCase
import AdGuardHome.Filtering.RewriteRespelled
import AdGuardHome.Lib.SortedTable
import AdGuardHome.Dhcpsvc.Options4
import AdGuardHome.Dhcpsvc.ConfiguredOptions
import AdGuardHome.Dhcpsvc.Handler4
import AdGuardHome.Dhcpsvc.Refused
import AdGuardHome.Dhcpsvc.Handler6
import AdGuardHome.Dhcpsvc.Pointers
import AdGuardHome.Dhcpsvc.Packets
import AdGuardHome.Dhcpsvc.Declined
import AdGuardHome.Dhcpsvc.Reset
import AdGuardHome.Rulelist.Parser
import AdGuardHome.Filtering.Refresh
import AdGuardHome.Dnsforward.LetterCase
import AdGuardHome.Dnsforward.Respelled
import AdGuardHome.Filtering.FailedEdit
import AdGuardHome.Rulelist.Reparsed
import AdGuardHome.Lib.Blocks
import AdGuardHome.Stats.Daily
import AdGuardHome.Querylog.SeekLine
import AdGuardHome.Hashprefix.Answered
import AdGuardHome.Safesearch.Interleaved
import AdGuardHome.Rulelist.Engine
import AdGuardHome.Querylog.FailedFlush
import AdGuardHome.Querylog.DecodeResult
import AdGuardHome.Querylog.RoundTrip
import AdGuardHome.Lib.Mean
import AdGuardHome.Stats.Average
import AdGuardHome.Stats.FailedFlush
import AdGuardHome.Aghnet.AddrPort
import AdGuardHome.Dnsforward.OurAddrs
import AdGuardHome.Dnsforward.StrictSNI
import AdGuardHome.Ipset.Manager
import AdGuardHome.Ipset.Lookup
import AdGuardHome.Ipset.Complete
import AdGuardHome.Lib.FileSys
import AdGuardHome.Updater.Unpack
import AdGuardHome.Updater.Update
import AdGuardHome.Updater.Safe
import AdGuardHome.Home.Options
import AdGuardHome.Home.Arguments
import AdGuardHome.Lib.Float64
import AdGuardHome.Schedule.Weekly
import AdGuardHome.Schedule.Saved
import AdGuardHome.Whois.Parse
import AdGuardHome.Rewrite.Storage
import AdGuardHome.Filtering.Backoff
import AdGuardHome.Rewrite.CnameChain
import AdGuardHome.Dhcpsvc.Find
import AdGuardHome.Lib.Worklist
import AdGuardHome.Aghos.FileWalker
import AdGuardHome.Lib.Chan
import AdGuardHome.Aghnet.HostsUpdates
import AdGuardHome.Filtering.RefreshAll
import AdGuardHome.Filtering.Requests
import AdGuardHome.Dnsforward.Filters
import AdGuardHome.Filtering.CheckHost
import AdGuardHome.Filtering.Interleaved
import AdGuardHome.Lib.News
import AdGuardHome.Whois.Default
import AdGuardHome.Client.AddrProc
import AdGuardHome.Querylog.Decoded
