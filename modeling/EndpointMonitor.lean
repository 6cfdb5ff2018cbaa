import EndpointMonitor.Bridge.Script
import EndpointMonitor.Connection.Scripted
import EndpointMonitor.Handler.Table
import EndpointMonitor.Main
import EndpointMonitor.Proofs.Binary64.Rounding
import EndpointMonitor.Proofs.Binary64.Shortest
import EndpointMonitor.Proofs.Bridge.Serialization
import EndpointMonitor.Proofs.Bridge.Reentrancy
import EndpointMonitor.Proofs.Client.BlockedCall
import EndpointMonitor.Proofs.Client.CustomMessage
import EndpointMonitor.Proofs.Codec.Message
import EndpointMonitor.Proofs.Connection.Finality
import EndpointMonitor.Proofs.Connection.InUse
import EndpointMonitor.Proofs.Connection.Ownership
import EndpointMonitor.Proofs.Connection.Publication
import EndpointMonitor.Proofs.Connection.Staleness
import EndpointMonitor.Proofs.Connection.Transport
import EndpointMonitor.Proofs.Connection.Waiting
import EndpointMonitor.Proofs.Dispatcher.Reply
import EndpointMonitor.Proofs.Event.NamedSets
import EndpointMonitor.Proofs.Json.Decimal
import EndpointMonitor.Proofs.Mute.Table
import EndpointMonitor.Proofs.Mute.ProcessName
import EndpointMonitor.Proofs.Service.Holdings
import EndpointMonitor.Proofs.Service.Operation
import EndpointMonitor.Proofs.Service.History
import EndpointMonitor.Proofs.Service.ControlRequest
import EndpointMonitor.Proofs.Connection.Joined
import EndpointMonitor.Proofs.Client.Agreement
import EndpointMonitor.Proofs.Client.Verdict
import EndpointMonitor.Proofs.Client.FreshSession
import EndpointMonitor.Proofs.Client.ControlCall
import EndpointMonitor.Proofs.Client.Authorization
import EndpointMonitor.Proofs.Service.Transparency
import EndpointMonitor.Proofs.Codec.Events
import EndpointMonitor.Proofs.Service.Refusal
import EndpointMonitor.Proofs.Service.Notification
import EndpointMonitor.Proofs.Client.Notification
import EndpointMonitor.Proofs.Connection.BlockingConnect
import EndpointMonitor.Proofs.Service.Muting
import EndpointMonitor.Proofs.Service.MuteEntries
import EndpointMonitor.Proofs.Queue.Order
import EndpointMonitor.Proofs.Dispatcher.Serial
import EndpointMonitor.Proofs.Service.PathAnswer
import EndpointMonitor.Proofs.Service.Release
import EndpointMonitor.Proofs.Codec.MemberOrder
import EndpointMonitor.Proofs.Dispatcher.Interest
import EndpointMonitor.Proofs.Connection.Trace
import EndpointMonitor.Proofs.Client.Step
import EndpointMonitor.Proofs.Client.StateQueue
import EndpointMonitor.Proofs.Client.Activation
import EndpointMonitor.Proofs.Config.Statement
import EndpointMonitor.Proofs.Config.Text
import EndpointMonitor.Proofs.Config.Range
import EndpointMonitor.Proofs.Config.Search
import EndpointMonitor.Proofs.Config.RoundTrip
import EndpointMonitor.Proofs.Scenario.Calm
import EndpointMonitor.Proofs.Scenario.Emission
import EndpointMonitor.Proofs.Scenario.Demo
import EndpointMonitor.Proofs.Scenario.Start
import EndpointMonitor.Proofs.Scenario.Script
import EndpointMonitor.Proofs.CommandLine.Demo
