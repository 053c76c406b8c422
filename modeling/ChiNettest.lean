import ChiNettest.Machinery.Prog
import ChiNettest.Machinery.Owned
import ChiNettest.Machinery.Archive
import ChiNettest.Machinery.Wire
import ChiNettest.Machinery.Memory
import ChiNettest.Machinery.Runs
import ChiNettest.Machinery.Text
import ChiNettest.Machinery.CString
import ChiNettest.Machinery.Shell
import ChiNettest.Rpc.Context
import ChiNettest.Rpc.Identity
import ChiNettest.Rpc.Address
import ChiNettest.Rpc.HostTable
import ChiNettest.Rpc.Literal
import ChiNettest.Rpc.Resolve
import ChiNettest.Rpc.Deployment
import ChiNettest.Find.HostFile
import ChiNettest.Find.Deployment
import ChiNettest.Fabric.FullPing
import ChiNettest.Fabric.Entries
import ChiNettest.Launcher.CommandLine
import ChiNettest.Launcher.Configure
import ChiNettest.Types.CacheTimer
import ChiNettest.Types.DomainQuery
import ChiNettest.Types.Identifiers
import ChiNettest.Types.Printing
import ChiNettest.Transfer.Serialize
import ChiNettest.Transfer.Bulk
import ChiNettest.Transfer.Messages
import ChiNettest.Transfer.Server
import ChiNettest.Thallium.Caller
import ChiNettest.Thallium.StopAllDaemons
import ChiNettest.Bench.PingAll
import ChiNettest.Bench.Calls
import ChiNettest.Bench.Lifecycle
import ChiNettest.Bench.Shutdown
import ChiNettest.Bench.Termination
import ChiNettest.Bench.Registration
import ChiNettest.Bench.Oversleep
import ChiNettest.Bench.Engines
import ChiNettest.Bench.Completion
import ChiNettest.Bench.Main
import ChiNettest.Bench.Refinement
import ChiNettest.Ping.Processes
import ChiNettest.Ping.Marker
import ChiNettest.Ping.Client
import ChiNettest.Ping.CommandLine
