import RcpGraph.Lib.Dict
import RcpGraph.Lib.Text
import RcpGraph.Lib.Json
import RcpGraph.Lib.Schema
import RcpGraph.Lib.Record
import RcpGraph.Lib.Steps
import RcpGraph.Lib.Objects
import RcpGraph.Core.Vocabulary
import RcpGraph.Core.Node
import RcpGraph.Core.Operations
import RcpGraph.Core.Patch
import RcpGraph.Core.Ontology
import RcpGraph.Core.Materialize
import RcpGraph.Validation.Report
import RcpGraph.Core.Authority
import RcpGraph.Core.Encode
import RcpGraph.Validation.Context
import RcpGraph.Validation.Ontology
import RcpGraph.Validation.Nodes
import RcpGraph.Validation.Ops
import RcpGraph.Core.Guidance
import RcpGraph.Core.Transitions
import RcpGraph.Validation.Stage
import RcpGraph.Validation.Dependencies
import RcpGraph.Validation.Proposals
import RcpGraph.Validation.Approval
import RcpGraph.Validation.ExperimentLoop
import RcpGraph.Validation.Patch
import RcpGraph.Validation.Bookkeeping
import RcpGraph.History.Append
import RcpGraph.Core.Staging
import RcpGraph.Validation.Accepted
import RcpGraph.Core.Effects
import RcpGraph.Core.Layers
import RcpGraph.Core.InPlace
import RcpGraph.History.Replay
import RcpGraph.Graph.Endpoints
import RcpGraph.Core.Prepared
import RcpGraph.History.Admitted
import RcpGraph.Graph.Decisions
import RcpGraph.Graph.Beliefs
import RcpGraph.Graph.Sketch
import RcpGraph.Graph.Agreement
import RcpGraph.Graph.Proposals
import RcpGraph.History.Shared
import RcpGraph.Graph.GuidanceClosure
import RcpGraph.Graph.LoopFrame
import RcpGraph.Graph.Conformance
import RcpGraph.Schedule.Cron
import RcpGraph.Schedule.Rows
import RcpGraph.Schedule.Fires
import RcpGraph.Schedule.Ledger
import RcpGraph.Schedule.Runs
import RcpGraph.Deploy.Coordinator
import RcpGraph.Deploy.Recovery
import RcpGraph.Episodes.Records
import RcpGraph.Episodes.Questions
import RcpGraph.Episodes.Endings
import RcpGraph.Episodes.Admissions
import RcpGraph.Episodes.Runs
import RcpGraph.Episodes.Lifecycle
import RcpGraph.Episodes.Answers
import RcpGraph.Episodes.Effects
import RcpGraph.Episodes.AdmissionEffects
import RcpGraph.Episodes.Steps
import RcpGraph.Episodes.Decided
import RcpGraph.Episodes.Delivery
import RcpGraph.WriteScope.Scope
import RcpGraph.WriteScope.Containment
import RcpGraph.Commands.Records
import RcpGraph.Commands.Broker
import RcpGraph.Commands.Mailbox
import RcpGraph.Commands.Ownership
import RcpGraph.Commands.Turns
import RcpGraph.Commands.Admission
import RcpGraph.Commands.Answers
import RcpGraph.Commands.Serving
import RcpGraph.Commands.Consistent
import RcpGraph.Lib.Grouping
import RcpGraph.Merge.Groups
import RcpGraph.Merge.Documents
import RcpGraph.Merge.Contract
import RcpGraph.Merge.Compare
import RcpGraph.Merge.Changes
import RcpGraph.Lib.Overwrite
import RcpGraph.Merge.Resolve
import RcpGraph.Merge.Coherent
import RcpGraph.Watchers.Records
import RcpGraph.Watchers.Arming
import RcpGraph.Watchers.Observing
import RcpGraph.Watchers.Stopping
import RcpGraph.Watchers.Claims
import RcpGraph.Watchers.Life
import RcpGraph.Watchers.Effects
import RcpGraph.Watchers.Delivery
import RcpGraph.Lib.Cursor
import RcpGraph.Watchers.Boundaries
import RcpGraph.Watchers.Reconciliation
import RcpGraph.Watchers.Firing
import RcpGraph.Browser.Store
import RcpGraph.Browser.World
import RcpGraph.Browser.Coherence
import RcpGraph.Browser.Quiet
import RcpGraph.Browser.Answers
import RcpGraph.Browser.Freshness
import RcpGraph.Browser.Overtaken
import RcpGraph.Browser.Runs
import RcpGraph.Lib.Base64
import RcpGraph.Lib.JsonText
import RcpGraph.History.Pages
import RcpGraph.History.PageSizes
import RcpGraph.History.Tiling
import RcpGraph.History.Trace
import RcpGraph.History.Standings
import RcpGraph.History.RefreshDelta
import RcpGraph.History.Attribution
import RcpGraph.History.RefreshSelection
import RcpGraph.Graph.Layering
import RcpGraph.Merge.FieldWrites
import RcpGraph.Merge.HumanFacts
import RcpGraph.Lib.JsonSize
import RcpGraph.History.Fragments
import RcpGraph.History.Glossary
import RcpGraph.Schedule.Orderly
import RcpGraph.Schedule.Expression
import RcpGraph.Schedule.Search
import RcpGraph.Schedule.Poll
import RcpGraph.Schedule.Counting
import RcpGraph.Schedule.Gap
import RcpGraph.Lib.EditScript
import RcpGraph.Paper.LineChanges
import RcpGraph.Paper.RangeMapping
import RcpGraph.Paper.Applicable
import RcpGraph.Transport.Journal
import RcpGraph.Merge.ReviewCombined
import RcpGraph.Episodes.ReportOutcome
import RcpGraph.Drafts.StagedWork
import RcpGraph.Drafts.MergeUndo
import RcpGraph.Graph.ExperimentGate
import RcpGraph.Graph.Stamps
import RcpGraph.Sync.LocalDraft
import RcpGraph.Sync.Manifest
