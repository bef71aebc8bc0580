import RealTimeWs.Pipeline.Invariant
import RealTimeWs.Server.Handlers
import RealTimeWs.Server.Effects
import RealTimeWs.Server.Regular
import RealTimeWs.Server.Turns
import RealTimeWs.Server.Records
import RealTimeWs.Server.Registration
import RealTimeWs.Pipeline.Script
import RealTimeWs.Server.Restart
import RealTimeWs.Server.FunctionChange
import RealTimeWs.Server.Forwarding
import RealTimeWs.Server.Delivery
import RealTimeWs.Server.Arrivals
import RealTimeWs.Server.Freshness
import RealTimeWs.Server.Frames
import RealTimeWs.Server.Addressing
import RealTimeWs.Server.Topology
import RealTimeWs.Resp.Wire
import RealTimeWs.Server.Responses
import RealTimeWs.Server.Separation
import RealTimeWs.Server.Grammar
import RealTimeWs.Server.Accounting
import RealTimeWs.Pipeline.Timing
import RealTimeWs.Server.Activity
import RealTimeWs.Server.Stamps
import RealTimeWs.Concentrator.Pbuf
import RealTimeWs.Concentrator.PingClient
import RealTimeWs.Concentrator.Callbacks
import RealTimeWs.Concentrator.Resources
import RealTimeWs.Text.Strtol
import RealTimeWs.Concentrator.Udp
import RealTimeWs.Concentrator.Residue
import RealTimeWs.Concentrator.RespStrings
import RealTimeWs.Concentrator.Ethernet
import RealTimeWs.Concentrator.Connect
import RealTimeWs.Server.Pages
import RealTimeWs.Server.Websocket
import RealTimeWs.Server.Intervals
import RealTimeWs.Pipeline.Lineage
import RealTimeWs.Server.Browser
import RealTimeWs.Server.Release
import RealTimeWs.Pipeline.Observation
import RealTimeWs.Server.Window
import RealTimeWs.Resp.Parser
import RealTimeWs.Server.Segments
import RealTimeWs.Server.Codec
import RealTimeWs.Server.Readings
import RealTimeWs.Server.Tick
import RealTimeWs.Server.FanOut
import RealTimeWs.Memory.Blocks
import RealTimeWs.Concentrator.Scatter
import RealTimeWs.Concentrator.Gather
import RealTimeWs.Concentrator.TxQueue
import RealTimeWs.Concentrator.RxQueue
import RealTimeWs.Pipeline.Answers
import RealTimeWs.Server.Answers
import RealTimeWs.Server.Settings
import RealTimeWs.Server.Survival
import RealTimeWs.Server.Registry
import RealTimeWs.Server.Serial
import RealTimeWs.Server.Refinement
import RealTimeWs.Memory.References
import RealTimeWs.Concentrator.PbufPool
