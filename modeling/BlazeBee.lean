import BlazeBee.Agent.Broker
import BlazeBee.Agent.Cadence
import BlazeBee.Agent.Capacity
import BlazeBee.Agent.DeadLink
import BlazeBee.Agent.Delivery
import BlazeBee.Agent.EnvErrors
import BlazeBee.Agent.EnvTree
import BlazeBee.Agent.Isolation
import BlazeBee.Agent.Main
import BlazeBee.Agent.Replay
import BlazeBee.Agent.Requests
import BlazeBee.Agent.Samples
import BlazeBee.Agent.SkippedCycles
import BlazeBee.Agent.Startup
import BlazeBee.Agent.Topics
import BlazeBee.Collectors.Calls
import BlazeBee.Collectors.Counters
import BlazeBee.Collectors.Filesystem
import BlazeBee.Collectors.Gauges
import BlazeBee.Collectors.KernelStat
import BlazeBee.Collectors.MdRaid
import BlazeBee.Collectors.Memory
import BlazeBee.Collectors.MountPoints
import BlazeBee.Collectors.Netstat
import BlazeBee.Collectors.Pressure
import BlazeBee.Collectors.ProcFile
import BlazeBee.Collectors.ReadInto
import BlazeBee.Collectors.Softnet
import BlazeBee.Collectors.Stuck
import BlazeBee.Collectors.Sysfs
import BlazeBee.Collectors.Sysmd
import BlazeBee.Collectors.Tables
import BlazeBee.Collectors.Unescape
import BlazeBee.Transport.ClientAuth
import BlazeBee.Transport.Delays
import BlazeBee.Transport.Farewell
import BlazeBee.Transport.FrameFormat
import BlazeBee.Transport.Handle
import BlazeBee.Transport.Jitter
import BlazeBee.Transport.Magic
import BlazeBee.Transport.PacketSize
import BlazeBee.Transport.QueueErrors
import BlazeBee.Transport.Reassembly
import BlazeBee.Transport.Reconnect
import BlazeBee.Transport.Retained
import BlazeBee.Transport.StatusPackets
import BlazeBee.Transport.StreamIds
