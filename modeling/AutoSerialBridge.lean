import AutoSerialBridge.Codegen.Accepted
import AutoSerialBridge.Codegen.Bindings
import AutoSerialBridge.Codegen.Complete
import AutoSerialBridge.Codegen.Deploy
import AutoSerialBridge.Codegen.Files
import AutoSerialBridge.Codegen.Generate
import AutoSerialBridge.Codegen.HashInput
import AutoSerialBridge.Codegen.Identifiers
import AutoSerialBridge.Codegen.InBounds
import AutoSerialBridge.Codegen.Markers
import AutoSerialBridge.Codegen.McuFiles
import AutoSerialBridge.Codegen.Messages
import AutoSerialBridge.Codegen.Python
import AutoSerialBridge.Codegen.Regenerate
import AutoSerialBridge.Codegen.Reported
import AutoSerialBridge.Codegen.Target
import AutoSerialBridge.Codegen.UserCode
import AutoSerialBridge.Codegen.Validate
import AutoSerialBridge.Controller.Acks
import AutoSerialBridge.Controller.Core
import AutoSerialBridge.Controller.CoreMoves
import AutoSerialBridge.Controller.Frame
import AutoSerialBridge.Controller.Gate
import AutoSerialBridge.Controller.Handlers
import AutoSerialBridge.Controller.Handshake
import AutoSerialBridge.Controller.Heartbeat
import AutoSerialBridge.Controller.Moves
import AutoSerialBridge.Controller.Order
import AutoSerialBridge.Controller.Progress
import AutoSerialBridge.Controller.Ready
import AutoSerialBridge.Controller.Sending
import AutoSerialBridge.Controller.Shutdown
import AutoSerialBridge.Controller.State
import AutoSerialBridge.Controller.Transmit
import AutoSerialBridge.Lib.BinaryPoly
import AutoSerialBridge.Lib.Fallible
import AutoSerialBridge.Lib.Findall
import AutoSerialBridge.Lib.History
import AutoSerialBridge.Lib.Machine
import AutoSerialBridge.Lib.Outbox
import AutoSerialBridge.Lib.Place
import AutoSerialBridge.Lib.RingWindow
import AutoSerialBridge.Lib.StreamScan
import AutoSerialBridge.Link.AtLeastOnce
import AutoSerialBridge.Link.Checksum
import AutoSerialBridge.Link.Delivery
import AutoSerialBridge.Link.Handshake
import AutoSerialBridge.Link.HashCompat
import AutoSerialBridge.Link.McuToRos
import AutoSerialBridge.Link.RosReceive
import AutoSerialBridge.Link.RosToMcu
import AutoSerialBridge.Link.System
import AutoSerialBridge.Mcu.Fsm
import AutoSerialBridge.Mcu.Parser
import AutoSerialBridge.Mcu.RoundTrip
import AutoSerialBridge.Mcu.Soundness
import AutoSerialBridge.Reliable.Changes
import AutoSerialBridge.Reliable.Outbox
import AutoSerialBridge.Reliable.Progress
import AutoSerialBridge.Reliable.Queue
import AutoSerialBridge.Reliable.Sender
import AutoSerialBridge.Web.Editor
import AutoSerialBridge.Web.Export
import AutoSerialBridge.Wire.Checksum
import AutoSerialBridge.Wire.Fifo
import AutoSerialBridge.Wire.Frame
import AutoSerialBridge.Wire.PacketHandler
import AutoSerialBridge.Wire.Protocol
import AutoSerialBridge.Wire.Receiver
import AutoSerialBridge.Wire.RingQueue
