import LibGTop.Aix.Netload
import LibGTop.Aix.NetloadEncoding
import LibGTop.Aix.ProcInfo
import LibGTop.Aix.ProcList
import LibGTop.Base.BinarySearch
import LibGTop.Base.Buffers
import LibGTop.Base.ChainedTable
import LibGTop.Base.Chunks
import LibGTop.Base.Circles
import LibGTop.Base.Credentials
import LibGTop.Base.DescriptorTable
import LibGTop.Base.FileReads
import LibGTop.Base.Filters
import LibGTop.Base.FirstOccurrences
import LibGTop.Base.Formats
import LibGTop.Base.Ledger
import LibGTop.Base.LinkedCells
import LibGTop.Base.Masks
import LibGTop.Base.MaximalRuns
import LibGTop.Base.Neighbours
import LibGTop.Base.Numerals
import LibGTop.Base.PerfectTable
import LibGTop.Base.Programs
import LibGTop.Base.Radix
import LibGTop.Base.Runs
import LibGTop.Base.Scaling
import LibGTop.Base.Scan
import LibGTop.Base.Scanf
import LibGTop.Base.Schedules
import LibGTop.Base.SharedQueue
import LibGTop.Base.Splits
import LibGTop.Base.Storage
import LibGTop.Base.Strings
import LibGTop.Base.Sums
import LibGTop.Base.Tokens
import LibGTop.Base.Transfers
import LibGTop.Base.Vectors
import LibGTop.Base.Words
import LibGTop.Bsd.Calcru
import LibGTop.Bsd.MapWalk
import LibGTop.Bsd.Netload
import LibGTop.Bsd.Paging
import LibGTop.Bsd.ProcArgs
import LibGTop.Bsd.ProcList
import LibGTop.Bsd.ProcMap
import LibGTop.Bsd.ProcMem
import LibGTop.Bsd.ProcTime
import LibGTop.Bsd.Suid
import LibGTop.Bsd.Swap
import LibGTop.Client.Call
import LibGTop.Client.Configuration
import LibGTop.Client.Descriptors
import LibGTop.Client.Effects
import LibGTop.Client.Greeting
import LibGTop.Client.Handle
import LibGTop.Client.Init
import LibGTop.Client.InitOnce
import LibGTop.Client.LazyInit
import LibGTop.Client.Library
import LibGTop.Client.Opening
import LibGTop.Client.Parameter
import LibGTop.Client.Required
import LibGTop.Client.Stub
import LibGTop.Common.Mountlist
import LibGTop.Common.Netload
import LibGTop.Common.PidBlocks
import LibGTop.Common.ProcArgs
import LibGTop.Daemon.AcceptLoop
import LibGTop.Daemon.Connection
import LibGTop.Daemon.Dispatch
import LibGTop.Daemon.Greeting
import LibGTop.Daemon.Handshake
import LibGTop.Daemon.HostTable
import LibGTop.Daemon.Output
import LibGTop.Daemon.Privileges
import LibGTop.Darwin.Netload
import LibGTop.Darwin.ProcArgs
import LibGTop.Darwin.ProcMem
import LibGTop.Darwin.SharedObjects
import LibGTop.FreeBsd.IgnoredTypes
import LibGTop.FreeBsd.LsofNames
import LibGTop.FreeBsd.LsofOutput
import LibGTop.FreeBsd.LsofRecords
import LibGTop.FreeBsd.MapWalk
import LibGTop.FreeBsd.ProcList
import LibGTop.FreeBsd.ProcMap
import LibGTop.FreeBsd.ProcOpenFiles
import LibGTop.FreeBsd.ProcTime
import LibGTop.FreeBsd.ProcWd
import LibGTop.FreeBsd.SuidBalance
import LibGTop.Linux.Affinity
import LibGTop.Linux.Cpu
import LibGTop.Linux.CpuDescriptions
import LibGTop.Linux.CpuLine
import LibGTop.Linux.CpuTable
import LibGTop.Linux.Disk
import LibGTop.Linux.DiskBounds
import LibGTop.Linux.DiskLine
import LibGTop.Linux.DiskListing
import LibGTop.Linux.DiskLoop
import LibGTop.Linux.DiskSelection
import LibGTop.Linux.DiskStack
import LibGTop.Linux.DiskTree
import LibGTop.Linux.FileBuffer
import LibGTop.Linux.Fsusage
import LibGTop.Linux.FsusagePath
import LibGTop.Linux.IpAccounting
import LibGTop.Linux.Listing
import LibGTop.Linux.Loadavg
import LibGTop.Linux.MapArray
import LibGTop.Linux.MapRegions
import LibGTop.Linux.Meminfo
import LibGTop.Linux.MountDevice
import LibGTop.Linux.Mountlist
import LibGTop.Linux.NetCounters
import LibGTop.Linux.NetDev
import LibGTop.Linux.NetDevCounters
import LibGTop.Linux.NetDevTable
import LibGTop.Linux.NetSysfs
import LibGTop.Linux.Netlist
import LibGTop.Linux.Netload
import LibGTop.Linux.NetloadRuns
import LibGTop.Linux.OpenFiles
import LibGTop.Linux.Ppp
import LibGTop.Linux.ProcArgs
import LibGTop.Linux.ProcIo
import LibGTop.Linux.ProcList
import LibGTop.Linux.ProcMap
import LibGTop.Linux.ProcReaders
import LibGTop.Linux.ProcWd
import LibGTop.Linux.Readers
import LibGTop.Linux.ScaledLookup
import LibGTop.Linux.Selection
import LibGTop.Linux.SmapLookup
import LibGTop.Linux.Smaps
import LibGTop.Linux.SocketLookup
import LibGTop.Linux.SocketRows
import LibGTop.Linux.SocketTables
import LibGTop.Linux.StatFields
import LibGTop.Linux.StatRecord
import LibGTop.Linux.StatusFile
import LibGTop.Linux.Sysinfo
import LibGTop.Linux.SysinfoText
import LibGTop.Linux.Text
import LibGTop.Linux.TokenSkips
import LibGTop.Linux.Utab
import LibGTop.Linux.VisibleMounts
import LibGTop.OpenBsd.Cpu
import LibGTop.OpenBsd.ProcList
import LibGTop.OpenBsd.ProcMap
import LibGTop.OpenBsd.ProcTime
import LibGTop.OpenBsd.Swap
import LibGTop.OpenBsd.VmMapTree
import LibGTop.Protocol.Admission
import LibGTop.Protocol.Alignment
import LibGTop.Protocol.Arguments
import LibGTop.Protocol.Authentication
import LibGTop.Protocol.Bounds
import LibGTop.Protocol.Delivery
import LibGTop.Protocol.Framing
import LibGTop.Protocol.HostAccess
import LibGTop.Protocol.Opening
import LibGTop.Protocol.Pairing
import LibGTop.Protocol.Payload
import LibGTop.Protocol.Relay
import LibGTop.Protocol.Service
import LibGTop.Protocol.SharedPipe
import LibGTop.Solaris.Kstats
import LibGTop.Solaris.PidSelection
import LibGTop.Solaris.ProcList
import LibGTop.Solaris.ProcMap
import LibGTop.Wire.Arguments
import LibGTop.Wire.Features
import LibGTop.Wire.Greeting
import LibGTop.Wire.Messages
