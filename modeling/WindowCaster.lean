import WindowCaster.Foundation.Interaction
import WindowCaster.Foundation.Monitoring
import WindowCaster.Foundation.Coupling
import WindowCaster.Foundation.Transition
import WindowCaster.Foundation.Termination
import WindowCaster.Foundation.LengthFraming
import WindowCaster.Foundation.ProtobufWire
import WindowCaster.Foundation.Text
import WindowCaster.Foundation.PixelLayout
import WindowCaster.Foundation.CaseMapping
import WindowCaster.Foundation.Numerals
import WindowCaster.Protocol.Messages
import WindowCaster.Protocol.Readers
import WindowCaster.Protocol.Extended
import WindowCaster.Protocol.CodedOutput
import WindowCaster.Protocol.Serialization
import WindowCaster.Protocol.Objects
import WindowCaster.Client.Network
import WindowCaster.Client.Requests
import WindowCaster.Client.Video
import WindowCaster.Client.Main
import WindowCaster.Client.Sending
import WindowCaster.Client.Session
import WindowCaster.Client.Conduct
import WindowCaster.Client.Window
import WindowCaster.Client.WindowHandles
import WindowCaster.Client.Console
import WindowCaster.Server.Win32
import WindowCaster.Server.WindowManagement
import WindowCaster.Server.Rendering
import WindowCaster.Server.Sending
import WindowCaster.Server.Handling
import WindowCaster.Server.PixelReads
import WindowCaster.Server.Replies
import WindowCaster.Server.StatusTruth
import WindowCaster.Server.Framing
import WindowCaster.Server.FramingExactness
import WindowCaster.Server.ListenThread
import WindowCaster.Server.Isolation
import WindowCaster.Server.Targeting
import WindowCaster.Server.RendererCalls
import WindowCaster.Server.HandleAccounting
import WindowCaster.Server.BitmapReuse
import WindowCaster.Server.BitmapSelection
import WindowCaster.Server.Shutdown
import WindowCaster.Server.SocketClosing
import WindowCaster.Server.Lifecycle
import WindowCaster.Server.Arguments
import WindowCaster.Server.Process
import WindowCaster.Server.Diagnosis
import WindowCaster.Server.Independence
import WindowCaster.Server.Leftovers
import WindowCaster.System.Pictures
import WindowCaster.System.Listing
import WindowCaster.System.Channels
import WindowCaster.System.Conversation
import WindowCaster.System.Service
import WindowCaster.System.Lockstep
import WindowCaster.System.Progress
import WindowCaster.System.Clients
import WindowCaster.System.Completion
import WindowCaster.System.Outcomes
import WindowCaster.System.Confinement
import WindowCaster.System.Reports
import WindowCaster.System.Consoles
