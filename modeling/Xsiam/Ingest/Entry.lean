import Xsiam.Etl.Model

/-!
# From rows to entries to lake events

`internal/ingest/handler.go`, without the writing: a row of a batch, its cells found by
column name, becomes an entry (`Xsiam.Ingest.buildEntry`), and an entry becomes an event
of the data lake (`Xsiam.Ingest.entryToHEC`), which can be encoded where every number in it is finite.

The names of the columns come with the batch. Where two columns have one name, the last
one counts.
-/

namespace Xsiam

namespace Ingest

open Go

/-! ### Rows -/

/-- `buildColIndex` -/
def buildColIndex (cols : List GoString) : GoMap ℕ := GoMap.insertAll ∅ cols.zipIdx

/-- `getField` -/
def getField (row : List GoString) (colIdx : GoMap ℕ) (name : String) : GoString :=
  match colIdx[str name]? with
  | some i => (row[i]?).getD []
  | none => []

/-- `getField`, for a name of any bytes. -/
def cellOf (row : List GoString) (colIdx : GoMap ℕ) (name : GoString) : GoString :=
  match colIdx[name]? with
  | some i => (row[i]?).getD []
  | none => []

theorem getField_eq_cellOf (row : List GoString) (colIdx : GoMap ℕ) (name : String) :
    getField row colIdx name = cellOf row colIdx (str name) := rfl

/-- `tagToDataset` -/
def tagToDataset (tag : GoString) : GoString :=
  if contains tag (str "syslog") then datasetSyslog
  else if contains tag (str "network") then datasetNetwork
  else if contains tag (str "auth") || contains tag (str "idp") then datasetIDP
  else if contains tag (str "ngfw") || contains tag (str "firewall") then datasetNGFW
  else if contains tag (str "cloud") then datasetCloud
  else if contains tag (str "email") || contains tag (str "mail") then datasetEmail
  else datasetEndpoint

/-- The first `switch` of `kindFromTag`: the kind a cell names. -/
def kindFromCell (kindVal : GoString) : Option UInt8 :=
  let v := toLower kindVal
  if v = str "process" ∨ v = str "1" then some logKindProcess
  else if v = str "file" ∨ v = str "2" then some logKindFile
  else if v = str "registry" ∨ v = str "3" then some logKindRegistry
  else if v = str "network" ∨ v = str "4" then some logKindNetwork
  else if v = str "dns" ∨ v = str "5" then some logKindDNS
  else if v = str "auth" ∨ v = str "6" then some logKindAuth
  else if v = str "vuln" ∨ v = str "7" then some logKindVuln
  else if v = str "integrity" ∨ v = str "fim" ∨ v = str "8" then some logKindIntegrity
  else none

/-- `kindFromTag` -/
def kindFromTag (tag kindVal : GoString) : UInt8 :=
  match kindFromCell kindVal with
  | some kind => kind
  | none =>
    if contains tag (str "syslog") then logKindSyslog
    else if contains tag (str "auth") then logKindAuth
    else if contains tag (str "network") then logKindNetwork
    else logKindSyslog

/-! ### Entries -/

/-- The time a cell gives, where it gives one. -/
def cellTime (lib : StdLib) (t : GoString) : Option Time :=
  if t = [] then none else (lib.parseRFC3339 t).or (lib.parseRFC3339Nano t)

/-- The time of the event of a row, the time of the batch where no cell gives one. -/
def eventTime (lib : StdLib) (row : List GoString) (colIdx : GoMap ℕ) (now : Time) : Time :=
  ((cellTime lib (getField row colIdx "_time")).or
    (cellTime lib (getField row colIdx "event_timestamp"))).getD now

/-- The cells of a row that are not empty, by the name of their column, those of the two
columns with times left out. -/
def rowFields (row : List GoString) (colIdx : GoMap ℕ) : GoMap Value :=
  colIdx.filterMap fun col i =>
    match row[i]? with
    | some cell =>
      if cell ≠ [] ∧ col ≠ str "_time" ∧ col ≠ str "event_timestamp" then some (.str cell)
      else none
    | none => none

/-- The field of a column, where it has no times. -/
theorem getElem?_rowFields (row : List GoString) (colIdx : GoMap ℕ) {name : GoString}
    (hname : name ≠ str "_time" ∧ name ≠ str "event_timestamp") :
    (rowFields row colIdx)[name]? =
      if cellOf row colIdx name = [] then none else some (.str (cellOf row colIdx name)) := by
  rw [rowFields, Std.ExtTreeMap.getElem?_filterMap', cellOf]
  cases colIdx[name]? with
  | none => rfl
  | some i =>
    cases hcell : row[i]? with
    | none => simp [hcell]
    | some cell =>
      by_cases hnil : cell = [] <;> simp [hcell, hnil, hname]

/-- The names of columns that fill a member, deleted from the fields. -/
def memberColumns : List GoString :=
  [str "hostname", str "src_ip", str "source_ip", str "session_id", str "kind", str "_time",
    str "event_timestamp", str "agent_id", str "raw_log"]

/-- `buildEntry`, for a handler of the tenant `tenantID`. -/
def buildEntry (lib : StdLib) (tenantID : GoString) (row : List GoString) (colIdx : GoMap ℕ)
    (agentID tag dataset : GoString) (now : Time) : LogEntry :=
  let srcIP := getField row colIdx "src_ip"
  let kind := kindFromTag tag (getField row colIdx "kind")
  { tenantID
    dataset :=
      if kind = logKindSyslog ∧ dataset = datasetEndpoint then datasetSyslog else dataset
    kind
    agentID
    sessionID := getField row colIdx "session_id"
    hostname := getField row colIdx "hostname"
    sourceIP := if srcIP = [] then getField row colIdx "source_ip" else srcIP
    fields := GoMap.eraseAll (rowFields row colIdx) memberColumns
    rawLog := getField row colIdx "raw_log"
    eventTimestamp := eventTime lib row colIdx now
    ingestedAt := now }

/-! ### Lake events -/

/-- `datalake.HECEvent` -/
structure HECEvent where
  time : ℤ
  index : GoString
  sourcetype : GoString
  event : GoMap Value
deriving DecidableEq

/-- What an event says about its entry before the fields are written over it. -/
def hecMembers (lib : StdLib) (e : LogEntry) : GoMap Value :=
  let ev := GoMap.insertAll ∅
    [(str "tenant_id", Value.str e.tenantID), (str "dataset", .str e.dataset),
      (str "kind", .int .uint8 e.kind.toNat), (str "kind_name", .str (modelKindName e.kind)),
      (str "agent_id", .str e.agentID), (str "hostname", .str e.hostname),
      (str "src_ip", .str e.sourceIP), (str "session_id", .str e.sessionID),
      (str "event_timestamp", .str (lib.formatRFC3339 e.eventTimestamp)),
      (str "ingested_at", .str (lib.formatRFC3339 e.ingestedAt))]
  if e.rawLog = [] then ev else ev.insert (str "raw_log") (.str e.rawLog)

/-- `entryToHEC` -/
def entryToHEC (lib : StdLib) (e : LogEntry) (index sourcetype : GoString) : HECEvent where
  time := e.eventTimestamp / 1000000
  index
  sourcetype
  event := GoMap.copy (hecMembers lib e) e.fields

/-! ### What can be encoded -/

/-- Neither infinite nor NaN. -/
def isFinite (x : Float64) : Bool := x.magnitude < 0x7FF0000000000000

mutual
/-- Every number in a value is finite, so that `json.Marshal` can encode it. -/
def finite : Value → Bool
  | .float x => isFinite x
  | .arr vs => finites vs
  | .obj kvs => finiteKvs kvs
  | _ => true
/-- `finite`, for a list of values. -/
def finites : List Value → Bool
  | [] => true
  | v :: vs => finite v && finites vs
/-- `finite`, for a list of entries. -/
def finiteKvs : List (GoString × Value) → Bool
  | [] => true
  | (_, v) :: kvs => finite v && finiteKvs kvs
end

theorem finites_iff (vs : List Value) : finites vs = true ↔ ∀ v ∈ vs, finite v = true := by
  induction vs with
  | nil => simp [finites]
  | cons v vs ih => rw [finites, Bool.and_eq_true, ih, List.forall_mem_cons]

theorem finiteKvs_iff (kvs : List (GoString × Value)) :
    finiteKvs kvs = true ↔ ∀ kv ∈ kvs, finite kv.2 = true := by
  induction kvs with
  | nil => simp [finiteKvs]
  | cons kv kvs ih => rw [finiteKvs, Bool.and_eq_true, ih, List.forall_mem_cons]

theorem finite_arr_iff (vs : List Value) : finite (.arr vs) = true ↔ ∀ v ∈ vs, finite v = true := by
  rw [finite, finites_iff]

theorem finite_obj_iff (kvs : List (GoString × Value)) :
    finite (.obj kvs) = true ↔ ∀ kv ∈ kvs, finite kv.2 = true := by
  rw [finite, finiteKvs_iff]

/-- `enc.Encode(e)`, as far as it can fail: what is not in the map of the event can always
be encoded. -/
def encodes (ev : HECEvent) : Bool := finite (.obj ev.event.toList)

/-- The loop of `ingest`: every event of the batch is encoded. -/
def encodesAll (events : List HECEvent) : Bool := events.all encodes

end Ingest

end Xsiam
