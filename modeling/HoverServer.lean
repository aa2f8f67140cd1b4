import HoverServer.Bytes
import HoverServer.CommandLine.Arguments
import HoverServer.CommandLine.Halt
import HoverServer.Connection.Basic
import HoverServer.Connection.Exchange
import HoverServer.Connection.Serve
import HoverServer.Decimal.Shortest
import HoverServer.Files
import HoverServer.Frame.Basic
import HoverServer.Frame.Decoder
import HoverServer.Frame.Header
import HoverServer.Json.Basic
import HoverServer.Json.Number
import HoverServer.Json.Printer
import HoverServer.Json.Reader
import HoverServer.Json.Record
import HoverServer.Log.Event
import HoverServer.Log.Filter
import HoverServer.Log.Format
import HoverServer.Log.Line
import HoverServer.Log.Stamp
import HoverServer.Main
import HoverServer.Message.Fault
import HoverServer.Message.Id
import HoverServer.Message.Params
import HoverServer.Message.Request
import HoverServer.Message.Response
import HoverServer.Policy
import HoverServer.Program
import HoverServer.Session.Basic
import HoverServer.Session.Method
import HoverServer.Session.Reaction
import HoverServer.Session.Verdict
import HoverServer.Settings
import HoverServer.Stream.Basic
import HoverServer.Text.Alphanumeric
import HoverServer.Text.Blank
import HoverServer.Text.Hidden
import HoverServer.Text.Lossy
import HoverServer.Text.Printable
import HoverServer.Text.Quoted
import HoverServer.Text.Ranges
import HoverServer.Text.Similarity
import HoverServer.Uri
import HoverServer.Proofs.CommandLine.Added
import HoverServer.Proofs.CommandLine.Options
import HoverServer.Proofs.CommandLine.Values
import HoverServer.Proofs.Connection.Answers
import HoverServer.Proofs.Connection.Calls
import HoverServer.Proofs.Connection.Dialogue
import HoverServer.Proofs.Connection.Echo
import HoverServer.Proofs.Connection.Failed
import HoverServer.Proofs.Connection.Heard
import HoverServer.Proofs.Connection.Logged
import HoverServer.Proofs.Connection.Malformed
import HoverServer.Proofs.Connection.Refused
import HoverServer.Proofs.Connection.Relay
import HoverServer.Proofs.Connection.Serve
import HoverServer.Proofs.Connection.Traceless
import HoverServer.Proofs.Connection.Truncated
import HoverServer.Proofs.Decimal.Digits
import HoverServer.Proofs.Frame.Conservation
import HoverServer.Proofs.Frame.Delivery
import HoverServer.Proofs.Frame.Encode
import HoverServer.Proofs.Frame.Feeds
import HoverServer.Proofs.Frame.Header
import HoverServer.Proofs.Frame.Loop
import HoverServer.Proofs.Frame.Parse
import HoverServer.Proofs.Frame.Terminator
import HoverServer.Proofs.Frame.Yields
import HoverServer.Proofs.Json.Members
import HoverServer.Proofs.Json.Normal
import HoverServer.Proofs.Json.Record
import HoverServer.Proofs.Json.RoundTrip
import HoverServer.Proofs.Json.Scalar
import HoverServer.Proofs.Json.Token
import HoverServer.Proofs.Json.Written
import HoverServer.Proofs.Log.Lines
import HoverServer.Proofs.Message.Kinds
import HoverServer.Proofs.Message.OneLine
import HoverServer.Proofs.Message.ParamsRules
import HoverServer.Proofs.Message.RequestRules
import HoverServer.Proofs.Message.ResponseRules
import HoverServer.Proofs.Message.RoundTrip
import HoverServer.Proofs.Message.Rules
import HoverServer.Proofs.Program.Deeds
import HoverServer.Proofs.Program.Halted
import HoverServer.Proofs.Program.LinePerEvent
import HoverServer.Proofs.Program.Moved
import HoverServer.Proofs.Program.Unlogged
import HoverServer.Proofs.Session.Greeting
import HoverServer.Proofs.Session.History
import HoverServer.Proofs.Session.Hover
import HoverServer.Proofs.Session.Leaving
import HoverServer.Proofs.Session.Move
import HoverServer.Proofs.Session.Precedence
import HoverServer.Proofs.Session.Reaction
import HoverServer.Proofs.Stream.Failing
import HoverServer.Proofs.Stream.Steady
import HoverServer.Proofs.Text.Ascii
import HoverServer.Proofs.Text.Lossy
import HoverServer.Proofs.Text.OneLine
