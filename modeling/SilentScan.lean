import SilentScan.Bytes.Base64
import SilentScan.Bytes.Hex
import SilentScan.Bytes.Order
import SilentScan.Chain.Client
import SilentScan.Chain.Command
import SilentScan.Chain.Inquiry
import SilentScan.Chain.Network
import SilentScan.Chain.Node
import SilentScan.Chain.Tip
import SilentScan.Chain.Txid
import SilentScan.Chain.Watcher
import SilentScan.Curve.Basic
import SilentScan.Curve.Encoding
import SilentScan.Event.Basic
import SilentScan.Event.Bus
import SilentScan.Hash.Sha256
import SilentScan.Index.Basic
import SilentScan.Index.Memory
import SilentScan.Index.Store
import SilentScan.Index.Table
import SilentScan.Index.Tip
import SilentScan.Json.Decode
import SilentScan.Json.Draft
import SilentScan.Json.Printer
import SilentScan.Json.Value
import SilentScan.Log.Entry
import SilentScan.Log.Level
import SilentScan.Main
import SilentScan.Number.Double
import SilentScan.Number.Natural
import SilentScan.Number.Shortest
import SilentScan.Payment.Address
import SilentScan.Payment.Bech32
import SilentScan.Payment.Entry
import SilentScan.Payment.Labels
import SilentScan.Payment.Matcher
import SilentScan.Payment.Scheme
import SilentScan.Protocol.Dialogue
import SilentScan.Protocol.Forwarding
import SilentScan.Protocol.Methods
import SilentScan.Protocol.Params
import SilentScan.Protocol.Version
import SilentScan.Rehearsal.Agenda
import SilentScan.Rehearsal.BusTrial
import SilentScan.Rehearsal.Connection
import SilentScan.Rehearsal.LinkTrial
import SilentScan.Rehearsal.Peer
import SilentScan.Rehearsal.Play
import SilentScan.Rehearsal.ScanTrial
import SilentScan.Rehearsal.Stage
import SilentScan.Rehearsal.StoreScript
import SilentScan.Scan.Control
import SilentScan.Scan.Engine
import SilentScan.Scan.Progress
import SilentScan.Service.CommandLine
import SilentScan.Service.Config
import SilentScan.Service.Endpoint
import SilentScan.Service.EnvFile
import SilentScan.Service.Error
import SilentScan.Session.Basic
import SilentScan.Session.Hub
import SilentScan.Session.Registry
import SilentScan.Snapshot.Amount
import SilentScan.Snapshot.Coin
import SilentScan.Snapshot.Error
import SilentScan.Snapshot.File
import SilentScan.Snapshot.Varint
import SilentScan.Text.Blank
import SilentScan.Text.Printable
import SilentScan.Text.Quoted
import SilentScan.Wire.Error
import SilentScan.Wire.Frame
import SilentScan.Wire.HttpStatus
import SilentScan.Wire.Lines
import SilentScan.Wire.Link
import SilentScan.Wire.Reader
import SilentScan.Proofs.Index.History
import SilentScan.Proofs.Index.Rows
import SilentScan.Proofs.Index.Announcement
import SilentScan.Proofs.Scan.Delivery
import SilentScan.Proofs.Session.Marks
import SilentScan.Proofs.Session.Telling
import SilentScan.Proofs.Session.Life
import SilentScan.Proofs.Session.Account
import SilentScan.Proofs.Server.Basic
import SilentScan.Proofs.Server.Coverage
import SilentScan.Proofs.Server.Rewound
import SilentScan.Proofs.Bytes.Order
import SilentScan.Proofs.Index.Agreement
import SilentScan.Proofs.Protocol.Refusal
import SilentScan.Proofs.Protocol.Terms
import SilentScan.Proofs.Wire.Record
import SilentScan.Proofs.Wire.Correlation
import SilentScan.Proofs.Wire.Progress
import SilentScan.Proofs.Curve.Field
import SilentScan.Proofs.Curve.Group
import SilentScan.Proofs.Curve.Encoding
import SilentScan.Proofs.Curve.Parameters
import SilentScan.Proofs.Payment.Detection
import SilentScan.Proofs.Snapshot.Numbers
import SilentScan.Proofs.Snapshot.Recovery
import SilentScan.Proofs.Protocol.Course
import SilentScan.Proofs.Protocol.Conversation
import SilentScan.Proofs.Protocol.Negotiation
import SilentScan.Proofs.Session.Privacy
import SilentScan.Proofs.Json.Numerals
import SilentScan.Proofs.Number.Decimal
import SilentScan.Proofs.Json.Printing
import SilentScan.Proofs.Json.Reading
import SilentScan.Proofs.Protocol.Replies
import SilentScan.Proofs.Json.Records
import SilentScan.Proofs.Protocol.Answers
import SilentScan.Proofs.Session.Departure
import SilentScan.Proofs.Index.Repetition
import SilentScan.Proofs.Json.Plain
import SilentScan.Proofs.Wire.Roundtrip
import SilentScan.Proofs.Wire.Stream
import SilentScan.Proofs.Scan.Ending
import SilentScan.Proofs.Protocol.Passage
import SilentScan.Proofs.Session.Statuses
import SilentScan.Proofs.Snapshot.Varints
import SilentScan.Proofs.Snapshot.Amounts
import SilentScan.Proofs.Curve.Forms
import SilentScan.Proofs.Bytes.Hex
import SilentScan.Proofs.Payment.Bech32
import SilentScan.Proofs.Payment.Naming
import SilentScan.Proofs.Snapshot.Truncation
import SilentScan.Proofs.Index.Height
import SilentScan.Proofs.Index.Scanning
import SilentScan.Proofs.Chain.Bisection
import SilentScan.Proofs.Scan.Fraction
import SilentScan.Proofs.Protocol.Versions
import SilentScan.Proofs.Event.Publication
import SilentScan.Proofs.Session.Subscriptions
import SilentScan.Proofs.Index.Tiling
import SilentScan.Proofs.Scan.Interrupt
