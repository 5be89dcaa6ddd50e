import Xsiam.Etl.Pipeline
import Xsiam.Ingest.Repo

/-!
# The ingest handler

`process` of `internal/ingest/handler.go`. The rows of a batch are routed one after the
other, and what they are routed to is accumulated by destination
(`Xsiam.Ingest.Pending`): the raw events in one list, the processed events by index and
the entries by collection. Then everything is written, one destination after the other,
in whatever order the maps are ranged over (`Xsiam.Ingest.Handler.flush`).

Writing to the lake is allowed to fail, a failed `BulkCreate` ends the loop with an
error. A panic of the pipeline comes before any write.
-/

namespace Xsiam

namespace Ingest

open Go Etl

/-- `Handler`: a client or repository that is nil is `false` here. -/
structure Handler where
  lib : StdLib
  pipeline : Option Pipeline
  lakeClient : Bool
  logRepo : Bool
  tenantID : GoString

/-- What `process` is called on besides the rows, and the time it reads first. -/
structure Batch where
  agentID : GoString
  tag : GoString
  columns : List GoString
  now : Time

/-- `processStats` -/
structure ProcessStats where
  rawNgx : ℕ := 0
  etlNgx : ℕ := 0
  arango : ℕ := 0
  dropped : ℕ := 0
deriving DecidableEq

/-- `arangoWriteGroup` -/
structure ArangoWriteGroup where
  collection : GoString
  ttlDays : ℤ
  entries : List LogEntry

/-- The writes accumulated so far. -/
structure Pending where
  rawNgxEvents : List HECEvent := []
  etlNgxEvents : GoMap (List HECEvent) := ∅
  arangoGroups : GoMap ArangoWriteGroup := ∅
  stats : ProcessStats := {}

/-- The error of `process`: `arango bulk create (%s)`. -/
structure ProcessError where
  collection : GoString
  cause : BulkError
deriving DecidableEq

namespace Handler

variable (h : Handler)

/-! ### Routing a row -/

/-- The entry of a row. -/
def rowEntry (batch : Batch) (row : List GoString) : LogEntry :=
  buildEntry h.lib h.tenantID row (buildColIndex batch.columns) batch.agentID batch.tag
    (tagToDataset batch.tag) batch.now

/-- The raw write of an entry. -/
def addRaw (batch : Batch) (entry : LogEntry) (index : GoString) (acc : Pending) : Pending :=
  if h.lakeClient then
    { acc with rawNgxEvents := acc.rawNgxEvents ++ [entryToHEC h.lib entry index batch.tag] }
  else { acc with stats := { acc.stats with rawNgx := acc.stats.rawNgx + 1 } }

/-- The write of an entry to an index a rule names. -/
def addNgx (batch : Batch) (e : LogEntry) (index : GoString) (acc : Pending) : Pending :=
  if index ≠ [] ∧ h.lakeClient then
    { acc with
      etlNgxEvents := acc.etlNgxEvents.insert index
        ((acc.etlNgxEvents[index]?).getD [] ++ [entryToHEC h.lib e index batch.tag]) }
  else acc

/-- The write of an entry to a collection a rule names. The group keeps the days of the
first sink that named its collection. -/
def addArango (e : LogEntry) (collection : GoString) (ttlDays : ℤ) (acc : Pending) : Pending :=
  if collection ≠ [] then
    let g := (acc.arangoGroups[collection]?).getD ⟨collection, ttlDays, []⟩
    { acc with
      arangoGroups := acc.arangoGroups.insert collection { g with entries := g.entries ++ [e] } }
  else acc

/-- One sink of a result. -/
def addSink (batch : Batch) (acc : Pending) (sink : SinkResult) : Pending :=
  addArango sink.entry sink.arangoCollection sink.ttlDays
    (h.addNgx batch sink.entry sink.ngxIndex acc)

/-- What the pipeline decided for an entry. -/
def addResult (batch : Batch) (entry : LogEntry) (res : Result) (acc : Pending) : Pending :=
  let acc := if res.rawNgxIndex ≠ [] then h.addRaw batch entry res.rawNgxIndex acc else acc
  if res.etlEntry.isNone then
    { acc with stats := { acc.stats with dropped := acc.stats.dropped + 1 } }
  else res.sinks.foldl (h.addSink batch) acc

/-- One row. `none` is a panic of the pipeline. -/
def addRow (batch : Batch) (st : ExecState) (acc : Pending) (row : List GoString) :
    Option Pending × ExecState :=
  let entry := h.rowEntry batch row
  match h.pipeline with
  | some p =>
    match p.process st entry batch.tag with
    | (none, st) => (none, st)
    | (some res, st) => (some (h.addResult batch entry res acc), st)
  | none => (some (h.addRaw batch entry (str "raw_" ++ batch.tag) acc), st)

/-- The loop over the rows. -/
def addRows (batch : Batch) (st : ExecState) (acc : Pending) :
    List (List GoString) → Option Pending × ExecState
  | [] => (some acc, st)
  | row :: rows =>
    if row = [] then addRows batch st acc rows
    else match h.addRow batch st acc row with
      | (none, st) => (none, st)
      | (some acc, st) => addRows batch st acc rows

/-! ### Writing -/

/-- The raw events, in one request. -/
def flushRaw (b : Backends) (events : List HECEvent) (stats : ProcessStats) (w : World) :
    ProcessStats × World :=
  if events ≠ [] ∧ h.lakeClient then
    match lakeIngest b w events with
    | (true, w) => ({ stats with rawNgx := stats.rawNgx + events.length }, w)
    | (false, w) => (stats, w)
  else (stats, w)

/-- The processed events, one request for each index. -/
def flushNgx (b : Backends) (stats : ProcessStats) (w : World) :
    List (GoString × List HECEvent) → ProcessStats × World
  | [] => (stats, w)
  | (_, events) :: groups =>
    match lakeIngest b w events with
    | (true, w) => flushNgx b { stats with etlNgx := stats.etlNgx + events.length } w groups
    | (false, w) => flushNgx b stats w groups

/-- The entries, one `BulkCreate` for each collection. -/
def flushArango (b : Backends) (stats : ProcessStats) (w : World) :
    List (GoString × ArangoWriteGroup) → (ProcessStats × Option ProcessError) × World
  | [] => ((stats, none), w)
  | (_, g) :: groups =>
    match bulkCreate b w g.collection g.ttlDays g.entries with
    | (some err, w) => ((stats, some ⟨g.collection, err⟩), w)
    | (none, w) => flushArango b { stats with arango := stats.arango + g.entries.length } w groups

/-- Everything that was accumulated is written, raw events first. -/
def flush (r : MapRange) (b : Backends) (acc : Pending) (w : World) :
    (ProcessStats × Option ProcessError) × World :=
  let (stats, w) := h.flushRaw b acc.rawNgxEvents acc.stats w
  let (stats, w) := if h.lakeClient then flushNgx b stats w (r.entries acc.etlNgxEvents)
    else (stats, w)
  if h.logRepo then flushArango b stats w (r.entries acc.arangoGroups) else ((stats, none), w)

/-- What a call of `process` leaves behind: the values it returned, `none` where it
panicked, and the two states. -/
structure Processed where
  ret : Option (ProcessStats × Option ProcessError)
  st : ExecState
  world : World

/-- `process` -/
def process (r : MapRange) (b : Backends) (batch : Batch) (rows : List (List GoString))
    (st : ExecState) (w : World) : Processed :=
  match h.addRows batch st {} rows with
  | (none, st) => ⟨none, st, w⟩
  | (some acc, st) =>
    let (ret, w) := h.flush r b acc w
    ⟨some ret, st, w⟩

end Handler

end Ingest

end Xsiam
