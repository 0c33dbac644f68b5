import FederatedTime.Client.ClockEstimator
import FederatedTime.Client.Error
import FederatedTime.Client.Hello
import FederatedTime.Client.Settings
import FederatedTime.Config.Federation
import FederatedTime.Config.Schema
import FederatedTime.Coordinator.Advance
import FederatedTime.Coordinator.ClockSchedule
import FederatedTime.Coordinator.Directory
import FederatedTime.Coordinator.Event
import FederatedTime.Coordinator.Propagation
import FederatedTime.Coordinator.Record
import FederatedTime.Coordinator.Registry
import FederatedTime.Coordinator.Sessions
import FederatedTime.Coordinator.Settings
import FederatedTime.Coordinator.StartNegotiation
import FederatedTime.Coordinator.State
import FederatedTime.Coordinator.Step
import FederatedTime.Coordinator.StopNegotiation
import FederatedTime.Defaults
import FederatedTime.Federate
import FederatedTime.FederateSet
import FederatedTime.Graph.Cycle
import FederatedTime.Graph.Search
import FederatedTime.Main
import FederatedTime.Net.Address
import FederatedTime.Net.Ipv4
import FederatedTime.Net.Ipv6
import FederatedTime.Net.Number
import FederatedTime.Proofs.Client.Convergence
import FederatedTime.Proofs.Client.Estimation
import FederatedTime.Proofs.Client.Range
import FederatedTime.Proofs.Client.Sampling
import FederatedTime.Proofs.Config.Topology
import FederatedTime.Proofs.Coordinator.Addresses
import FederatedTime.Proofs.Coordinator.Admission
import FederatedTime.Proofs.Coordinator.Announcement
import FederatedTime.Proofs.Coordinator.Bearing
import FederatedTime.Proofs.Coordinator.Bound
import FederatedTime.Proofs.Coordinator.Bystander
import FederatedTime.Proofs.Coordinator.ClockCycle
import FederatedTime.Proofs.Coordinator.ClockSync
import FederatedTime.Proofs.Coordinator.Completion
import FederatedTime.Proofs.Coordinator.Confluence
import FederatedTime.Proofs.Coordinator.Contact
import FederatedTime.Proofs.Coordinator.Correspondence
import FederatedTime.Proofs.Coordinator.Datagrams
import FederatedTime.Proofs.Coordinator.Dialogue
import FederatedTime.Proofs.Coordinator.Ending
import FederatedTime.Proofs.Coordinator.Finishing
import FederatedTime.Proofs.Coordinator.FirstGrant
import FederatedTime.Proofs.Coordinator.Forwarding
import FederatedTime.Proofs.Coordinator.GrantLiveness
import FederatedTime.Proofs.Coordinator.GrantOrder
import FederatedTime.Proofs.Coordinator.GrantSafety
import FederatedTime.Proofs.Coordinator.History
import FederatedTime.Proofs.Coordinator.Isolation
import FederatedTime.Proofs.Coordinator.Label
import FederatedTime.Proofs.Coordinator.LateJoin
import FederatedTime.Proofs.Coordinator.Leaving
import FederatedTime.Proofs.Coordinator.Membership
import FederatedTime.Proofs.Coordinator.Move
import FederatedTime.Proofs.Coordinator.Notices
import FederatedTime.Proofs.Coordinator.Propagation
import FederatedTime.Proofs.Coordinator.Proposals
import FederatedTime.Proofs.Coordinator.Readable
import FederatedTime.Proofs.Coordinator.Rejoining
import FederatedTime.Proofs.Coordinator.Release
import FederatedTime.Proofs.Coordinator.Run
import FederatedTime.Proofs.Coordinator.Session
import FederatedTime.Proofs.Coordinator.StartAgreement
import FederatedTime.Proofs.Coordinator.StartStep
import FederatedTime.Proofs.Coordinator.Startup
import FederatedTime.Proofs.Coordinator.StopAgreement
import FederatedTime.Proofs.Coordinator.StopLiveness
import FederatedTime.Proofs.Coordinator.StopRequests
import FederatedTime.Proofs.Coordinator.StopRound
import FederatedTime.Proofs.Coordinator.StopStep
import FederatedTime.Proofs.Coordinator.Sweep
import FederatedTime.Proofs.Coordinator.Transition
import FederatedTime.Proofs.Graph.Cycle
import FederatedTime.Proofs.Graph.Reach
import FederatedTime.Proofs.Graph.Trail
import FederatedTime.Proofs.Net.Ipv4
import FederatedTime.Proofs.Net.Ipv6
import FederatedTime.Proofs.Simulation.Answer
import FederatedTime.Proofs.Simulation.Attendance
import FederatedTime.Proofs.Simulation.Consulting
import FederatedTime.Proofs.Simulation.Course
import FederatedTime.Proofs.Simulation.Links
import FederatedTime.Proofs.Simulation.Liveness
import FederatedTime.Proofs.Simulation.News
import FederatedTime.Proofs.Simulation.Performance
import FederatedTime.Proofs.Simulation.Phase
import FederatedTime.Proofs.Simulation.Reaction
import FederatedTime.Proofs.Simulation.Response
import FederatedTime.Proofs.Simulation.Safety
import FederatedTime.Proofs.Simulation.Script
import FederatedTime.Proofs.Simulation.Setup
import FederatedTime.Proofs.Simulation.Sound
import FederatedTime.Proofs.Simulation.StopCoverage
import FederatedTime.Proofs.Simulation.StopHearing
import FederatedTime.Proofs.Simulation.StopTalk
import FederatedTime.Proofs.Simulation.Traffic
import FederatedTime.Proofs.Simulation.Turn
import FederatedTime.Proofs.Simulation.Weight
import FederatedTime.Proofs.Time.Delay
import FederatedTime.Proofs.Time.DelayAlgebra
import FederatedTime.Proofs.Time.Order
import FederatedTime.Proofs.Time.Overflow
import FederatedTime.Proofs.Topology.Faults
import FederatedTime.Proofs.Topology.InstantCycles
import FederatedTime.Proofs.Topology.Representation
import FederatedTime.Proofs.Topology.WellFormed
import FederatedTime.Proofs.Wire.Canonical
import FederatedTime.Proofs.Wire.Chunks
import FederatedTime.Proofs.Wire.Fields
import FederatedTime.Proofs.Wire.Frame
import FederatedTime.Proofs.Wire.Outcome
import FederatedTime.Proofs.Wire.Reading
import FederatedTime.Proofs.Wire.RoundTrip
import FederatedTime.Proofs.Wire.Writing
import FederatedTime.Random.ChaCha
import FederatedTime.Random.Probability
import FederatedTime.Random.Stream
import FederatedTime.Roster
import FederatedTime.Server.Error
import FederatedTime.Server.Options
import FederatedTime.Server.Outbox
import FederatedTime.Server.Report
import FederatedTime.Server.Settings
import FederatedTime.Simulation.Check
import FederatedTime.Simulation.Network
import FederatedTime.Simulation.Queue
import FederatedTime.Simulation.RandomFederation
import FederatedTime.Simulation.Run
import FederatedTime.Simulation.Script
import FederatedTime.Simulation.State
import FederatedTime.Simulation.Violation
import FederatedTime.Text.Quoted
import FederatedTime.Text.Reader
import FederatedTime.Text.Visible
import FederatedTime.Time.Duration
import FederatedTime.Time.Interval
import FederatedTime.Time.Nanoseconds
import FederatedTime.Time.Tag
import FederatedTime.Toml.Blank
import FederatedTime.Toml.Datetime
import FederatedTime.Toml.Document
import FederatedTime.Toml.Number
import FederatedTime.Toml.Quoted
import FederatedTime.Toml.Tree
import FederatedTime.Toml.Value
import FederatedTime.Topology.Basic
import FederatedTime.Topology.Error
import FederatedTime.Topology.Plan
import FederatedTime.Topology.Shapes
import FederatedTime.Wire.Bytes
import FederatedTime.Wire.Decode
import FederatedTime.Wire.Encode
import FederatedTime.Wire.Error
import FederatedTime.Wire.Frame
import FederatedTime.Wire.Message
import FederatedTime.Wire.MessageKind
import FederatedTime.Wire.RejectReason
import FederatedTime.Wire.Stream
