import KernelBypass.Foundation.Buffer
import KernelBypass.Foundation.ByteOrder
import KernelBypass.Foundation.Bitmap
import KernelBypass.Foundation.Access
import KernelBypass.Foundation.OnesComplement
import KernelBypass.Foundation.Trace
import KernelBypass.Foundation.Interleaving
import KernelBypass.Foundation.ShardedCounter
import KernelBypass.Foundation.StopAndWait
import KernelBypass.Foundation.Reflection
import KernelBypass.Foundation.Fragmentation
import KernelBypass.Foundation.OrderStatistics
import KernelBypass.Foundation.Sorting
import KernelBypass.Foundation.TextScan
import KernelBypass.Foundation.Decimal
import KernelBypass.Foundation.Collect
import KernelBypass.Linux.Headers
import KernelBypass.Linux.CsumDiff
import KernelBypass.Linux.Ipv4
import KernelBypass.Linux.Fragments
import KernelBypass.Common.ParsingHelpers
import KernelBypass.Common.ParserRuns
import KernelBypass.Common.HeaderEncoding
import KernelBypass.Common.RewriteHelpers
import KernelBypass.Common.VlanStack
import KernelBypass.Common.VlanParsing
import KernelBypass.Common.VlanRewrites
import KernelBypass.Common.XdpStats
import KernelBypass.Common.CommonParams
import KernelBypass.Common.OptionTable
import KernelBypass.Common.StoredStrings
import KernelBypass.Common.UsageText
import KernelBypass.Common.MapFiles
import KernelBypass.Common.Unload
import KernelBypass.Libxdp.Program
import KernelBypass.Libxdp.RunConfig
import KernelBypass.Libxdp.RunOrder
import KernelBypass.Libxdp.Dispatcher
import KernelBypass.Libxdp.ConfigMap
import KernelBypass.Libxdp.Generate
import KernelBypass.Libxdp.Pinning
import KernelBypass.Libxdp.Protocol
import KernelBypass.Libxdp.Assertions
import KernelBypass.Libxdp.Ownership
import KernelBypass.Libxdp.Granted
import KernelBypass.Libxdp.Attaching
import KernelBypass.Libxdp.Detaching
import KernelBypass.Libxdp.Atomic
import KernelBypass.Libxdp.ChainOrder
import KernelBypass.Libxdp.Cleanup
import KernelBypass.Libxdp.Packets
import KernelBypass.Libxdp.References
import KernelBypass.Libxdp.Rounds
import KernelBypass.Xdp.Readdress
import KernelBypass.Xdp.IcmpEcho
import KernelBypass.Xdp.IcmpChecksum
import KernelBypass.Xdp.ChecksumUpdate
import KernelBypass.Xdp.IcmpReflection
import KernelBypass.Xdp.IcmpFragments
import KernelBypass.Xdp.UdpEcho
import KernelBypass.Xdp.FastPath
import KernelBypass.Xdp.UdpBounce
import KernelBypass.Xdp.UdpService
import KernelBypass.Xdp.UdpIntegrity
import KernelBypass.Xdp.UdpFragments
import KernelBypass.Xdp.HeaderChecksum
import KernelBypass.Xdp.SwapChecksums
import KernelBypass.Xdp.EchoChain
import KernelBypass.Xdp.PassUser
import KernelBypass.Echo.Server
import KernelBypass.Echo.Echocli
import KernelBypass.Benchmarks.Python
import KernelBypass.Benchmarks.Percentile
import KernelBypass.Benchmarks.PingSamples
import KernelBypass.Benchmarks.PingAgreement
import KernelBypass.Benchmarks.MpstatReport
import KernelBypass.Benchmarks.MpstatClock
import KernelBypass.Benchmarks.ResultsTable
