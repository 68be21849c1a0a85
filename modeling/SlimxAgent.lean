import SlimxAgent.Engine
import SlimxAgent.Interaction.World
import SlimxAgent.Interaction.Monitor
import SlimxAgent.Interaction.Translation
import SlimxAgent.Footprint
import SlimxAgent.Permission
import SlimxAgent.Interaction.AppendOnly
import SlimxAgent.Stream
import SlimxAgent.Outline
import SlimxAgent.Host
import SlimxAgent.RunEnd
import SlimxAgent.Pause
import SlimxAgent.Gate
import SlimxAgent.Generation
import SlimxAgent.Approval
import SlimxAgent.HostClient
import SlimxAgent.HttpStore
import SlimxAgent.Standalone
import SlimxAgent.Exchange
import SlimxAgent.FailStop
import SlimxAgent.HttpHost
import SlimxAgent.Invocation
import SlimxAgent.Terminal
import SlimxAgent.Interaction.Relational
import SlimxAgent.InProcess
import SlimxAgent.Placement
import SlimxAgent.Course
import SlimxAgent.Absorbing
import SlimxAgent.Book
import SlimxAgent.Stopping
import SlimxAgent.Plan
import SlimxAgent.Passes
import SlimxAgent.Dispatch
import SlimxAgent.Interaction.Sessions
import SlimxAgent.Replay
import SlimxAgent.Budget
import SlimxAgent.Ungranted
import SlimxAgent.Failures
import SlimxAgent.Bridge
import SlimxAgent.Authority
import SlimxAgent.Interaction.Evaluation
import SlimxAgent.Pauses
import SlimxAgent.Redrives
import SlimxAgent.Planning
import SlimxAgent.Repair
import SlimxAgent.Acceptance
import SlimxAgent.Advertising
import SlimxAgent.Callbacks
import SlimxAgent.Quoting
import SlimxAgent.Routing
import SlimxAgent.Reports
import SlimxAgent.Snapshots
import SlimxAgent.Standstill
import SlimxAgent.Grants
import SlimxAgent.Lookup
import SlimxAgent.RunCheck
import SlimxAgent.Interaction.FirstSeen
import SlimxAgent.Interaction.Interleaving
import SlimxAgent.Interaction.Relaying
import SlimxAgent.Entry
import SlimxAgent.Lease
import SlimxAgent.Endpoint
import SlimxAgent.Provenance
import SlimxAgent.Blame
import SlimxAgent.Edge
import SlimxAgent.Fence
import SlimxAgent.Reading.Reader
import SlimxAgent.JsonText
import SlimxAgent.Shown
import SlimxAgent.EventStream
import SlimxAgent.Observer
import SlimxAgent.CheckRunner
import SlimxAgent.Reading.Utf8
import SlimxAgent.CheckEndpoint
import SlimxAgent.Lifecycle
import SlimxAgent.Review
