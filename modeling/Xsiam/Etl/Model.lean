import Xsiam.Go.Value

/-!
# Log entries and ETL rules

The two documents the ingest path works on: the structured event of
`internal/model/log_entry.go`, and the rule of `internal/model/etl_rule.go` with
its match criteria, actions, raw-write mode and sinks.

A string type that enumerates its values is an inductive type, with a case for the
empty string where the code gives it a meaning and one for every other text.
-/

namespace Xsiam

open Go

/-! ### Log entries -/

/-- A point in time, in nanoseconds since the Unix epoch. -/
abbrev Time := ℤ

/-- `model.LogEntry`: one structured event. A nil `Fields` map and an empty one are
read and written alike, so the model does not tell them apart. -/
structure LogEntry where
  key : GoString := []
  tenantID : GoString
  dataset : GoString
  kind : UInt8
  agentID : GoString
  sessionID : GoString
  hostname : GoString
  sourceIP : GoString
  fields : GoMap Value
  rawLog : GoString
  eventTimestamp : Time
  ingestedAt : Time

def logKindSyslog : UInt8 := 0
def logKindProcess : UInt8 := 1
def logKindFile : UInt8 := 2
def logKindRegistry : UInt8 := 3
def logKindNetwork : UInt8 := 4
def logKindDNS : UInt8 := 5
def logKindAuth : UInt8 := 6
def logKindVuln : UInt8 := 7
def logKindIntegrity : UInt8 := 8

def datasetEndpoint : GoString := str "xdr_data"
def datasetNetwork : GoString := str "network_story"
def datasetCloud : GoString := str "cloud_audit_log"
def datasetEmail : GoString := str "email_story"
def datasetNGFW : GoString := str "ngfw_traffic"
def datasetIDP : GoString := str "idp_raw"
def datasetSyslog : GoString := str "syslog_raw"

/-- The names of the event kinds, in the order of their numbers. -/
def kindNames : List GoString :=
  [str "syslog", str "process", str "file", str "registry", str "network", str "dns",
    str "auth", str "vuln", str "integrity"]

/-- `model.KindName`: the name of an event kind, `unknown` past the last one. -/
def modelKindName (kind : UInt8) : GoString := (kindNames[kind.toNat]?).getD (str "unknown")

/-! ### ETL rules -/

/-- `model.ETLActionType`. A type the executor has no case for is `other`. -/
inductive ETLActionType where
  | setField
  | renameField
  | deleteField
  | copyKey
  | hashKey
  | parseNumber
  | allowKeys
  | blockKeys
  | allowRecords
  | blockRecords
  | redactValue
  | searchReplace
  | flattenSubrecord
  | nestKeys
  | decodeCSV
  | encodeJSON
  | encodeCSV
  | multilineJoin
  | splitRecord
  | liftSubmap
  | joinRecords
  | parseJSON
  | grok
  | randomSample
  | dedup
  | lookupAsset
  | lookupThreat
  | lookupGeoIP
  | setDataset
  | setKind
  | dropEvent
  | customLua
  | other (s : GoString)
deriving DecidableEq

/-- `model.ETLAction`: one step of a rule. -/
structure ETLAction where
  type : ETLActionType
  params : GoMap Value

/-- `a.Params[name].(string)`, empty where the parameter is missing or no string. -/
def ETLAction.strParam (a : ETLAction) (name : String) : GoString :=
  Value.asString a.params[str name]?

/-- `a.Params[name].(bool)`, false where the parameter is missing or no boolean. -/
def ETLAction.boolParam (a : ETLAction) (name : String) : Bool :=
  Value.asBool a.params[str name]?

/-- `model.ETLMatchCriteria`: when a rule fires. -/
structure ETLMatchCriteria where
  tagPattern : GoString := []
  dataset : List GoString := []
  kind : List UInt8 := []
  filterExpr : GoString := []
  filterMode : GoString := []

/-- `model.RawWriteMode`. -/
inductive RawWriteMode where
  /-- The empty string, which `compileRule` replaces by `both`. -/
  | unset
  | both
  | etlOnly
  | rawOnly
  | other (s : GoString)
deriving DecidableEq

/-- `model.ETLSink`: one destination. -/
structure ETLSink where
  ngxIndex : GoString := []
  arangoCollection : GoString := []
  ttlDays : ℤ := 0
  condition : GoString := []

/-- `model.ETLOutput`: sinks, and the flat fields an older rule has instead. -/
structure ETLOutput where
  sinks : List ETLSink := []
  ngxIndex : GoString := []
  arangoCollection : GoString := []
  ttlDays : ℤ := 0

/-- `model.ProcessingMode`. -/
inductive ProcessingMode where
  | firstMatch
  | sequential
  | other (s : GoString)
deriving DecidableEq

/-- `model.ETLRule`, without the texts that describe it to a reader and the dates. -/
structure ETLRule where
  key : GoString := []
  ruleID : GoString
  tenantID : GoString := []
  isEnabled : Bool := true
  priority : ℤ := 0
  processingMode : ProcessingMode := .firstMatch
  matchCriteria : ETLMatchCriteria := {}
  rawWriteMode : RawWriteMode := .unset
  actions : List ETLAction := []
  output : ETLOutput := {}

end Xsiam
