import Xsiam.Go.Text
import Xsiam.Go.Unicode
import Xsiam.Go.Value
import Xsiam.Lib.Window
import Xsiam.Lib.Copies
import Xsiam.Lib.Separator
import Xsiam.Etl.Model
import Xsiam.Etl.Match
import Xsiam.Query.SplitAnd
import Xsiam.Etl.Dedup
import Xsiam.Etl.Lua
import Xsiam.Etl.Executor
import Xsiam.Etl.Pipeline
import Xsiam.Etl.Applied
import Xsiam.Etl.Loss
import Xsiam.Etl.Chain
import Xsiam.Etl.ReadAfterWrite
import Xsiam.Etl.DedupWindow
import Xsiam.Etl.DedupSharing
import Xsiam.Etl.Frame
import Xsiam.Ingest.Entry
import Xsiam.Ingest.Handler
import Xsiam.Lib.Grouping
import Xsiam.Ingest.Routed
import Xsiam.Ingest.Written
import Xsiam.Ingest.Fanout
import Xsiam.Ingest.Atomicity
import Xsiam.Ingest.Tenant
import Xsiam.Lib.Redis
import Xsiam.Lib.Run
import Xsiam.Presence.Registry
import Xsiam.Presence.Gc
import Xsiam.Presence.Sweep
import Xsiam.Ingest.Frame
import Xsiam.Ingest.Sender
import Xsiam.Ingest.Cells
import Xsiam.Lib.RedisLaws
import Xsiam.Presence.Keys
import Xsiam.Presence.Dead
import Xsiam.Presence.Tracking
import Xsiam.Presence.Retry
import Xsiam.Lib.Collection
import Xsiam.Devices.Repository
import Xsiam.Devices.Service
import Xsiam.Devices.Views
import Xsiam.Devices.Connections
import Xsiam.Lib.Table
import Xsiam.Lib.Occupancy
import Xsiam.Gateway.Agents
import Xsiam.Gateway.Wire
import Xsiam.Gateway.Conn
import Xsiam.Gateway.Bound
import Xsiam.Lib.Json
import Xsiam.Lib.JsonWrite
import Xsiam.Gateway.Kept
import Xsiam.Gateway.Escape
import Xsiam.Gateway.Posts
import Xsiam.Gateway.Payload
import Xsiam.Gateway.Flush
import Xsiam.Lib.Directory
import Xsiam.Threat.Lifecycle
import Xsiam.Threat.Deployed
import Xsiam.Gateway.Alike
import Xsiam.Gateway.Buffer
import Xsiam.Lib.Framing
import Xsiam.Gateway.Lines
import Xsiam.Gateway.Classified
import Xsiam.Gateway.Reading
import Xsiam.Gateway.Cuts
import Xsiam.Gateway.FrameStream
import Xsiam.Query.Xql
import Xsiam.Lib.PartialFold
import Xsiam.Query.Parsers
import Xsiam.Lib.Quoting
import Xsiam.Query.Translate
import Xsiam.Query.Search
import Xsiam.Gateway.Batches
import Xsiam.Lib.Scan
import Xsiam.Gateway.Parsing
import Xsiam.Gateway.Offsets
import Xsiam.Gateway.Flight
import Xsiam.Etl.DryRun
import Xsiam.Etl.Widening
import Xsiam.Etl.Storable
import Xsiam.Lib.Aql
import Xsiam.Repository.FindPaged
import Xsiam.Incidents.Repository
import Xsiam.Repository.Sorting
import Xsiam.Go.Float
import Xsiam.Identity.Exposure
import Xsiam.Incidents.SmartScore
import Xsiam.Repository.Jobs
import Xsiam.Incidents.Alerts
import Xsiam.Incidents.Causality
import Xsiam.Incidents.Linking
import Xsiam.Incidents.Tenants
import Xsiam.Incidents.Pool
import Xsiam.Incidents.LinkedOnce
import Xsiam.Query.Service
import Xsiam.Query.Soundness
import Xsiam.Query.Opening
import Xsiam.Threat.Meaning
import Xsiam.Lib.Prog
import Xsiam.Repository.Calls
import Xsiam.Auth.Tokens
import Xsiam.Auth.Revocation
import Xsiam.Auth.Authority
import Xsiam.Auth.LoginNames
import Xsiam.Etl.RuleAdmin
import Xsiam.Etl.RuleValidity
import Xsiam.Etl.RuleTenants
import Xsiam.Auth.Roles
import Xsiam.Auth.Membership
import Xsiam.Agent.Wzcp
import Xsiam.Agent.Frames
import Xsiam.Agent.Hello
import Xsiam.Agent.Threads
import Xsiam.Audit.Records
import Xsiam.Incidents.Service
import Xsiam.Response.Execution
import Xsiam.Response.Finished
import Xsiam.Audit.Trail
import Xsiam.Go.Stamp
import Xsiam.Incidents.TimeFilters
import Xsiam.Devices.Registration
import Xsiam.Dashboard.Freshness
import Xsiam.Agent.Events
import Xsiam.Lib.RedisRanges
import Xsiam.Presence.Queries
import Xsiam.Devices.Liveness
import Xsiam.Gateway.Identity
import Xsiam.Ingest.Limits
import Xsiam.Ingest.Drain
import Xsiam.Ingest.Retention
import Xsiam.System.LogDelivery
import Xsiam.System.Posting
import Xsiam.System.Heartbeats
import Xsiam.Etl.LuaContract
import Xsiam.Incidents.ManualLinks
import Xsiam.Incidents.Notes
import Xsiam.Dashboard.Stats
import Xsiam.Lib.Beside
import Xsiam.Dashboard.Tenants
import Xsiam.Incidents.GraphStorage
import Xsiam.Gateway.Room
import Xsiam.Incidents.Scoring
import Xsiam.Identity.Current
import Xsiam.Reports.Scheduling
import Xsiam.Etl.Printed
import Xsiam.Query.Quoted
import Xsiam.Query.Verbatim
import Xsiam.Query.Layout
import Xsiam.Query.Written
import Xsiam.Etl.Leaves
import Xsiam.Etl.Inverses
import Xsiam.Go.Csv
import Xsiam.Etl.ThreatMatch
import Xsiam.Lib.Overlap
import Xsiam.Lib.Slots
import Xsiam.Lib.Paging
import Xsiam.Lib.ExchangeSort
import Xsiam.Go.Numbers
import Xsiam.Go.Case
import Xsiam.Incidents.GraphForm
import Xsiam.Incidents.EdgeWeight
import Xsiam.Incidents.AutoIncident
import Xsiam.Incidents.Stability
import Xsiam.Threat.Hunting
import Xsiam.Etl.RuleTest
import Xsiam.Incidents.Sla
import Xsiam.Incidents.PairedLists
import Xsiam.Network.Timeline
import Xsiam.Dashboard.Exactness
import Xsiam.Devices.Tags
import Xsiam.Identity.Risks
import Xsiam.Identity.RiskService
import Xsiam.Identity.Restrictions
import Xsiam.Identity.Filters
import Xsiam.Repository.Paging
import Xsiam.Reports.Calendar
import Xsiam.Etl.Splitting
import Xsiam.Ingest.Tsv
import Xsiam.Lib.Ring
import Xsiam.Agent.Buffer
import Xsiam.Agent.Dispatch
import Xsiam.Ingest.Encoders
import Xsiam.Gateway.LogOutput
