import Nl6.Lib.Checked
import Nl6.Lib.Numeral
import Nl6.Lib.Successor
import Nl6.Lib.Store
import Nl6.Mib.Resources
import Nl6.Engine.State
import Nl6.Lib.Lex
import Nl6.Mib.Cycler
import Nl6.Mib.CyclerWalk
import Nl6.Mib.Lldp
import Nl6.Mib.LldpServed
import Nl6.Mib.Metrics
import Nl6.Mib.Device
import Nl6.Mib.Next
import Nl6.Mib.NextSpec
import Nl6.Mib.Completeness
import Nl6.Mib.Agreement
import Nl6.Lib.Octets
import Nl6.Wire.Encode
import Nl6.Mib.Validate
import Nl6.Mib.Walk
import Nl6.Lib.Ber
import Nl6.Wire.OidCodec
import Nl6.Wire.VarBinds
import Nl6.Wire.Envelope
import Nl6.Wire.ReaderAgreement
import Nl6.Wire.Respond
import Nl6.Wire.Encoding
import Nl6.Wire.RoundTrip
import Nl6.Wire.OidBijection
import Nl6.Engine.Run
import Nl6.Engine.Replay
import Nl6.Engine.Roles
import Nl6.Lib.Hold
import Nl6.Counters.Rollup
import Nl6.Counters.Monotone
import Nl6.Counters.Still
import Nl6.Counters.Seqlock
import Nl6.Lib.Buffer
import Nl6.Trap.Fast
import Nl6.Trap.Appenders
import Nl6.Trap.Parity
import Nl6.Agent.Bulk
import Nl6.V3.Message
import Nl6.V3.Scoped
import Nl6.V3.Usm
import Nl6.V3.Respond
import Nl6.Agent.Server
import Nl6.Agent.Set
import Nl6.Agent.Serve
import Nl6.Agent.RequestId
import Nl6.Agent.FirstBinding
import Nl6.Agent.V1
import Nl6.Flow.Datagram
import Nl6.Lib.Program
import Nl6.Flow.Encoders
import Nl6.Scenario.Funnels
import Nl6.Flow.Tick
import Nl6.Flow.Capacity
import Nl6.Flow.Turns
import Nl6.Flow.Pagination
import Nl6.Flow.Progress
import Nl6.Flow.Sequence
import Nl6.Flow.Stats
import Nl6.Scenario.Ledger
import Nl6.Scenario.WriteReturn
import Nl6.Wire.Integers
import Nl6.Agent.Shortcuts
import Nl6.Counters.Bounds
import Nl6.Counters.Hierarchy
import Nl6.V3.RoundTrip
import Nl6.Lib.Delimited
import Nl6.Syslog.Grammar
import Nl6.Syslog.Encode
import Nl6.Syslog.Framing
import Nl6.Lib.Threads
import Nl6.Syslog.Transport
import Nl6.Trap.Inform
import Nl6.Trap.InformRuns
import Nl6.Fidelity.Toggle
import Nl6.Engine.Mutate
import Nl6.Engine.Reverts
import Nl6.Engine.Superseded
import Nl6.Engine.SupersededRuns
import Nl6.Lib.Cidr
import Nl6.Scenario.Prefixes
import Nl6.Scenario.Controller
import Nl6.Scenario.Schedule
import Nl6.Mib.Topology
import Nl6.Netconf.Framing
import Nl6.Optical.Alarm
import Nl6.Push.UdpNotif
import Nl6.Scenario.Overlaps
import Nl6.Fleet.Freeze
