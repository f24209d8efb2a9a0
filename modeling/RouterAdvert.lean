import RouterAdvert.Address
import RouterAdvert.Advertiser
import RouterAdvert.Advertiser.Profile
import RouterAdvert.Advertiser.State
import RouterAdvert.Bench
import RouterAdvert.Bytes
import RouterAdvert.CommandLine
import RouterAdvert.CommandLine.Item
import RouterAdvert.CommandLine.Numeral
import RouterAdvert.CommandLine.Switch
import RouterAdvert.Connection
import RouterAdvert.Connection.Call
import RouterAdvert.Daemon
import RouterAdvert.DialScript
import RouterAdvert.Errno
import RouterAdvert.ErrorCode
import RouterAdvert.Host
import RouterAdvert.Journal
import RouterAdvert.Journal.Entry
import RouterAdvert.Journal.Notice
import RouterAdvert.Journal.Severity
import RouterAdvert.Kernel
import RouterAdvert.Kernel.Fault
import RouterAdvert.Link
import RouterAdvert.LinkLocal
import RouterAdvert.LinkLocal.Probe
import RouterAdvert.LinkWatch
import RouterAdvert.Loop
import RouterAdvert.Mac
import RouterAdvert.Main
import RouterAdvert.Medium
import RouterAdvert.Ndp.Advert
import RouterAdvert.Ndp.AdvertHeader
import RouterAdvert.Ndp.Field
import RouterAdvert.Ndp.IcmpHeader
import RouterAdvert.Ndp.PrefixInfo
import RouterAdvert.Ndp.Solicitation
import RouterAdvert.Ndp.SourceLink
import RouterAdvert.Netlink.Attribute
import RouterAdvert.Netlink.LinkMessage
import RouterAdvert.Netlink.Message
import RouterAdvert.Netlink.Query
import RouterAdvert.Netlink.Request
import RouterAdvert.Netlink.RouteMessage
import RouterAdvert.Pattern
import RouterAdvert.Pattern.Bracket
import RouterAdvert.Pattern.Class
import RouterAdvert.Pattern.Escape
import RouterAdvert.Pattern.Matcher
import RouterAdvert.Pattern.Node
import RouterAdvert.Pattern.Parser
import RouterAdvert.Pattern.Token
import RouterAdvert.Proofs.Address
import RouterAdvert.Proofs.Advertiser.Answering
import RouterAdvert.Proofs.Advertiser.Ending
import RouterAdvert.Proofs.Advertiser.Flight
import RouterAdvert.Proofs.Advertiser.Life
import RouterAdvert.Proofs.Advertiser.Numbering
import RouterAdvert.Proofs.Advertiser.Outcome
import RouterAdvert.Proofs.Advertiser.Pending
import RouterAdvert.Proofs.Advertiser.Reception
import RouterAdvert.Proofs.Advertiser.Sending
import RouterAdvert.Proofs.Advertiser.Sockets
import RouterAdvert.Proofs.Advertiser.Sound
import RouterAdvert.Proofs.Advertiser.Turn
import RouterAdvert.Proofs.Advertiser.Waiting
import RouterAdvert.Proofs.Advertiser.Work
import RouterAdvert.Proofs.Classification
import RouterAdvert.Proofs.CommandLine.Choices
import RouterAdvert.Proofs.CommandLine.Limits
import RouterAdvert.Proofs.CommandLine.Numerals
import RouterAdvert.Proofs.CommandLine.Spelling
import RouterAdvert.Proofs.Crew
import RouterAdvert.Proofs.Daemon
import RouterAdvert.Proofs.Independence.Alike
import RouterAdvert.Proofs.Independence.Loop
import RouterAdvert.Proofs.Independence.Moves
import RouterAdvert.Proofs.Independence.Plans
import RouterAdvert.Proofs.Independence.Registry
import RouterAdvert.Proofs.Independence.Turns
import RouterAdvert.Proofs.Independence.Watching
import RouterAdvert.Proofs.Kernel
import RouterAdvert.Proofs.LinkLocal
import RouterAdvert.Proofs.LinkWatch
import RouterAdvert.Proofs.Loop
import RouterAdvert.Proofs.Ndp.Advert
import RouterAdvert.Proofs.Ndp.Bits
import RouterAdvert.Proofs.Ndp.Field
import RouterAdvert.Proofs.Ndp.Format
import RouterAdvert.Proofs.Ndp.HostBits
import RouterAdvert.Proofs.Ndp.Objects
import RouterAdvert.Proofs.Ndp.Options
import RouterAdvert.Proofs.Ndp.RoundTrip
import RouterAdvert.Proofs.Ndp.Solicitation
import RouterAdvert.Proofs.Ndp.StoredPrefix
import RouterAdvert.Proofs.Netlink.Answers
import RouterAdvert.Proofs.Netlink.Attributes
import RouterAdvert.Proofs.Netlink.Collecting
import RouterAdvert.Proofs.Netlink.Datagram
import RouterAdvert.Proofs.Netlink.Links
import RouterAdvert.Proofs.Netlink.Questions
import RouterAdvert.Proofs.Netlink.Replies
import RouterAdvert.Proofs.Netlink.Routes
import RouterAdvert.Proofs.Netlink.Stages
import RouterAdvert.Proofs.Netlink.Walk
import RouterAdvert.Proofs.Responder.Announcements
import RouterAdvert.Proofs.Responder.Astray
import RouterAdvert.Proofs.Responder.Attained
import RouterAdvert.Proofs.Responder.Confinement
import RouterAdvert.Proofs.Responder.Course
import RouterAdvert.Proofs.Responder.Draining
import RouterAdvert.Proofs.Responder.Folding
import RouterAdvert.Proofs.Responder.Frame
import RouterAdvert.Proofs.Responder.Kept
import RouterAdvert.Proofs.Responder.Leaving
import RouterAdvert.Proofs.Responder.Listening
import RouterAdvert.Proofs.Responder.Orderly
import RouterAdvert.Proofs.Responder.Overrun
import RouterAdvert.Proofs.Responder.Progress
import RouterAdvert.Proofs.Responder.Refusal
import RouterAdvert.Proofs.Responder.Registry
import RouterAdvert.Proofs.Responder.Running
import RouterAdvert.Proofs.Responder.Secluded
import RouterAdvert.Proofs.Responder.Service
import RouterAdvert.Proofs.Responder.Serving
import RouterAdvert.Proofs.Responder.Settling
import RouterAdvert.Proofs.Responder.Snapshot
import RouterAdvert.Proofs.Responder.Sockets
import RouterAdvert.Proofs.Responder.Stability
import RouterAdvert.Proofs.Responder.Tended
import RouterAdvert.Proofs.Responder.Unannounced
import RouterAdvert.Proofs.Responder.Vigil
import RouterAdvert.Proofs.Responder.Watched
import RouterAdvert.Proofs.Route
import RouterAdvert.Proofs.Solo.Schedule
import RouterAdvert.Proofs.Solo.Threshold
import RouterAdvert.Proofs.Solo.Trial
import RouterAdvert.Proofs.Solo.Turns
import RouterAdvert.Proofs.Table
import RouterAdvert.Responder
import RouterAdvert.Responder.Registry
import RouterAdvert.Responder.State
import RouterAdvert.Responder.Watching
import RouterAdvert.Route
import RouterAdvert.Settings
import RouterAdvert.Socket.Call
import RouterAdvert.Solo
import RouterAdvert.Table
import RouterAdvert.Tap
import RouterAdvert.Tap.Id
