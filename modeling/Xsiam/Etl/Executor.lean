import Xsiam.Etl.Dedup
import Xsiam.Etl.Lua

/-!
# The action executor

`internal/etl/action_executor.go`: the actions a rule lists, applied to an entry in
order until one of them drops it. Each case of the source's `switch` is a definition
of its own, under the action's name; `Xsiam.Etl.apply` is the switch.

An action reads the entry, its own parameters and the libraries and repositories the
executor was built with. What is read from outside (a repository, the clock, the
random generator) may answer differently each time, so every such reading is indexed
by a tick, the number of actions the executor has run before. The deduplicator is the
one thing an action leaves behind; it is threaded through as the state.

The executor's repositories may be nil, and the action then does nothing.
-/

namespace Xsiam

namespace Etl

open Go

/-! ### The executor and its state -/

/-- The members of `model.Asset` that the executor reads. -/
structure Asset where
  key : GoString
  type : GoString
  riskScore : Float64
  department : GoString
  osName : GoString

/-- The members of `model.IOC` that the executor reads. -/
structure IOC where
  type : GoString
  value : GoString
  verdict : GoString
  confidence : Float64

/-- `GeoRecord` -/
structure GeoRecord where
  country : GoString
  city : GoString
  asn : ℕ
  asnOrg : GoString

/-- `ActionExecutor`, with the library functions, the clock and the random generator
it runs on. A repository answers a tick and a query; `none` is an error, or nothing
found. -/
structure ActionExecutor where
  lib : StdLib
  /-- `AssetRepo.FindByHostnameOrIP` -/
  assetRepo : Option (ℕ → GoString → GoString → Option Asset) := none
  /-- `IocRepo.Search`, with its limit. -/
  iocRepo : Option (ℕ → GoString → GoString → ℕ → Option (List IOC)) := none
  /-- `GeoIPDB.Lookup` -/
  geoipDB : Option (GoString → GeoRecord) := none
  /-- Whether there is a deduplicator. -/
  dedup : Bool := true
  luaEngine : Option LuaVM := none
  /-- `rand.Float64() * 100` -/
  randPercent : ℕ → Float64
  /-- `time.Now()` -/
  now : ℕ → Time

/-- What the executor keeps from one action to the next. -/
structure ExecState where
  dedup : Deduplicator
  tick : ℕ

/-- The state a fresh executor starts in. -/
def ExecState.init : ExecState := ⟨newDeduplicator, 0⟩

/-! ### Reading and writing fields -/

/-- `entryFieldStr`: the value of a field for an action. The names that stand for
members are not the ones `fieldStr` knows. -/
def entryFieldStr (lib : StdLib) (e : LogEntry) (field : GoString) : GoString :=
  let f := toLower field
  if f = str "hostname" then e.hostname
  else if f = str "src_ip" ∨ f = str "source_ip" then e.sourceIP
  else if f = str "agent_id" then e.agentID
  else if f = str "raw_log" then e.rawLog
  else if f = str "dataset" then e.dataset
  else match e.fields[field]? with
    | some v => lib.sprint v
    | none => []

/-- `e.Fields[k] = v` -/
def setEntry (e : LogEntry) (k : GoString) (v : Value) : LogEntry :=
  { e with fields := e.fields.insert k v }

/-- Several such assignments, one after the other. -/
def setEntries (e : LogEntry) (kvs : List (GoString × Value)) : LogEntry :=
  { e with fields := GoMap.insertAll e.fields kvs }

/-- `delete(e.Fields, k)` -/
def deleteEntry (e : LogEntry) (k : GoString) : LogEntry := { e with fields := e.fields.erase k }

/-- A parameter with the value that stands in for an empty one. -/
def orDefault (s dflt : GoString) : GoString := if s = [] then dflt else s

/-! ### Field manipulation -/

/-- The map a template is rendered on: members first, fields over them. -/
def templateCtx (e : LogEntry) : GoMap Value :=
  GoMap.copy (GoMap.insertAll ∅
    [(str "hostname", .str e.hostname), (str "src_ip", .str e.sourceIP),
      (str "agent_id", .str e.agentID), (str "session_id", .str e.sessionID),
      (str "dataset", .str e.dataset), (str "kind", .int .uint8 e.kind.toNat),
      (str "kind_name", .str (modelKindName e.kind)), (str "tenant_id", .str e.tenantID)])
    e.fields

/-- The value `set_field` writes: the parameter, rendered where it holds a template. -/
def setFieldValue (lib : StdLib) (e : LogEntry) (value : GoString) : GoString :=
  if contains value (str "\x7b\x7b") then
    match lib.templateParse value with
    | some tmpl => (tmpl (templateCtx e)).getD value
    | none => value
  else value

/-- `set_field` -/
def setField (lib : StdLib) (e : LogEntry) (a : ETLAction) : LogEntry :=
  let field := a.strParam "field"
  if field = [] then e
  else setEntry e field (.str (setFieldValue lib e (a.strParam "value")))

/-- `rename_field` -/
def renameField (e : LogEntry) (a : ETLAction) : LogEntry :=
  let src := a.strParam "from"
  let dst := a.strParam "to"
  if src = [] ∨ dst = [] then e
  else match e.fields[src]? with
    | some v => deleteEntry (setEntry e dst v) src
    | none => e

/-- `delete_field` -/
def deleteField (e : LogEntry) (a : ETLAction) : LogEntry :=
  let field := a.strParam "field"
  if field = [] then e else deleteEntry e field

/-- `copy_key` -/
def copyKey (e : LogEntry) (a : ETLAction) : LogEntry :=
  let src := a.strParam "from"
  let dst := a.strParam "to"
  if src = [] ∨ dst = [] then e
  else match e.fields[src]? with
    | some v => setEntry e dst v
    | none => e

/-- `hash_key` -/
def hashKey (lib : StdLib) (e : LogEntry) (a : ETLAction) : LogEntry :=
  let srcKey := a.strParam "src_key"
  let dstKey := a.strParam "dst_key"
  let raw := entryFieldStr lib e srcKey
  if srcKey = [] ∨ dstKey = [] ∨ raw = [] then e
  else setEntry e dstKey (.str (lib.sha256Hex raw))

/-- `parse_number` -/
def parseNumber (lib : StdLib) (e : LogEntry) (a : ETLAction) : LogEntry :=
  let key := a.strParam "key"
  let raw := entryFieldStr lib e key
  if key = [] ∨ raw = [] then e
  else match parseInt raw with
    | some i => setEntry e key (.int .int64 i)
    | none => match lib.parseFloat raw with
      | some x => setEntry e key (.float x)
      | none => e

/-! ### Filtering fields and records -/

/-- `allow_keys` and `block_keys`: the fields whose key passes a regular expression are
kept, or the others are. -/
def filterKeys (lib : StdLib) (keep : Bool) (e : LogEntry) (a : ETLAction) : LogEntry :=
  let pattern := a.strParam "regex"
  if pattern = [] then e
  else match lib.regexpCompile pattern with
    | none => e
    | some re => { e with fields := GoMap.filterKeys e.fields fun k => re.matchString k == keep }

/-- `allow_keys` -/
def allowKeys (lib : StdLib) : LogEntry → ETLAction → LogEntry := filterKeys lib true

/-- `block_keys` -/
def blockKeys (lib : StdLib) : LogEntry → ETLAction → LogEntry := filterKeys lib false

/-- `allow_records` and `block_records`: the entry is dropped where the value of a field
does not pass a regular expression, or where it does. -/
def filterRecords (lib : StdLib) (keep : Bool) (e : LogEntry) (a : ETLAction) : Option LogEntry :=
  let key := a.strParam "key"
  let pattern := a.strParam "regex"
  if key = [] ∨ pattern = [] then some e
  else
    let flags := if a.boolParam "match_case" then [] else str "(?i)"
    match lib.regexpCompile (flags ++ pattern) with
    | none => some e
    | some re => if re.matchString (entryFieldStr lib e key) = keep then some e else none

/-- `allow_records` -/
def allowRecords (lib : StdLib) : LogEntry → ETLAction → Option LogEntry := filterRecords lib true

/-- `block_records` -/
def blockRecords (lib : StdLib) : LogEntry → ETLAction → Option LogEntry := filterRecords lib false

/-! ### Rewriting values -/

/-- `redact_value` and `search_replace`: the matches of a regular expression in the value
of a field are replaced, an empty replacement being first replaced by a default. -/
def replaceValue (lib : StdLib) (dflt : GoString) (e : LogEntry) (a : ETLAction) : LogEntry :=
  let key := a.strParam "key"
  let pattern := a.strParam "regex"
  if key = [] ∨ pattern = [] then e
  else match lib.regexpCompile pattern with
    | none => e
    | some re =>
      let val := entryFieldStr lib e key
      if val = [] then e
      else setEntry e key
        (.str (re.replaceAllString val (orDefault (a.strParam "replacement") dflt)))

/-- `redact_value` -/
def redactValue (lib : StdLib) : LogEntry → ETLAction → LogEntry := replaceValue lib (str "***")

/-- `search_replace` -/
def searchReplace (lib : StdLib) : LogEntry → ETLAction → LogEntry := replaceValue lib []

/-! ### Structural transformations -/

/-- `e.Fields[key].(map[string]any)`, as the list of its entries. -/
def subMap (e : LogEntry) (key : GoString) : Option (List (GoString × Value)) :=
  match e.fields[key]? with
  | some (.obj kvs) => some kvs
  | _ => none

/-- Write the entries of a map into the fields, each key behind a given text. -/
def spread (e : LogEntry) (pfx : GoString) (kvs : List (GoString × Value)) : LogEntry :=
  setEntries e (kvs.map fun kv => (pfx ++ kv.1, kv.2))

/-- `flatten_subrecord` -/
def flattenSubrecord (e : LogEntry) (a : ETLAction) : LogEntry :=
  let key := a.strParam "key"
  if key = [] then e
  else match subMap e key with
    | some sub => spread (deleteEntry e key) (a.strParam "prefix") sub
    | none => e

/-- `nest_keys` -/
def nestKeys (e : LogEntry) (a : ETLAction) : LogEntry :=
  let keyPrefix := a.strParam "key_prefix"
  let destKey := a.strParam "dest_key"
  if keyPrefix = [] ∨ destKey = [] then e
  else
    let nested := e.fields.toList.filterMap fun kv => (cutPrefix kv.1 keyPrefix).map (·, kv.2)
    let rest := { e with fields := GoMap.filterKeys e.fields fun k => !hasPrefix k keyPrefix }
    if nested = [] then rest else setEntry rest destKey (.obj nested)

/-- The headers of a CSV action: the parameter split on commas, each part trimmed. -/
def csvHeaders (raw : GoString) : List GoString := (split raw (str ",")).map trimSpace

/-- `decode_csv` -/
def decodeCSV (lib : StdLib) (e : LogEntry) (a : ETLAction) : LogEntry :=
  let srcKey := a.strParam "src_key"
  let raw := entryFieldStr lib e srcKey
  if srcKey = [] ∨ raw = [] then e
  else
    let headersRaw := a.strParam "headers"
    let headers := if headersRaw = [] then [] else csvHeaders headersRaw
    match lib.csvRead raw with
    | none => e
    | some record =>
      let name (i : ℕ) : GoString :=
        orDefault ((headers[i]?).getD []) (str "col_" ++ str (toString i))
      setEntries e (record.zipIdx.map fun vi => (name vi.2, .str vi.1))

/-- `encode_json` -/
def encodeJSON (lib : StdLib) (e : LogEntry) (a : ETLAction) : LogEntry :=
  let srcKey := a.strParam "src_key"
  let dstKey := a.strParam "dst_key"
  if dstKey = [] then e
  else
    let toEncode : Value :=
      if srcKey = [] then .obj e.fields.toList else (e.fields[srcKey]?).getD .null
    match lib.jsonMarshal toEncode with
    | some b => setEntry e dstKey (.str b)
    | none => e

/-- The value a CSV column takes from a map. -/
def csvCell (lib : StdLib) (v : Option Value) : GoString := (v.map lib.sprint).getD []

/-- `encode_csv` -/
def encodeCSV (lib : StdLib) (e : LogEntry) (a : ETLAction) : LogEntry :=
  let headersRaw := a.strParam "headers"
  if headersRaw = [] then e
  else
    let headers := csvHeaders headersRaw
    let srcKey := a.strParam "src_key"
    let dstKey := orDefault (a.strParam "dst_key") (str "csv_output")
    let source : Option (GoMap Value) :=
      if srcKey = [] then some e.fields else (subMap e srcKey).map (GoMap.insertAll ∅)
    match source with
    | none => e
    | some source =>
      match lib.csvWrite (headers.map fun h => csvCell lib source[h]?) with
      | some text => setEntry e dstKey (.str (trimRight text (str "\n")))
      | none => e

/-- `multiline_join` -/
def multilineJoin (lib : StdLib) (e : LogEntry) (a : ETLAction) : LogEntry :=
  let srcKey := a.strParam "src_key"
  let sep := orDefault (a.strParam "separator") (str "\n")
  if srcKey = [] then e
  else match e.fields[srcKey]? with
    | some (.arr vs) => setEntry e srcKey (.str (join (vs.map lib.sprint) sep))
    | _ => e

/-- `split_record` -/
def splitRecord (lib : StdLib) (e : LogEntry) (a : ETLAction) : LogEntry :=
  let srcKey := a.strParam "src_key"
  let sep := orDefault (a.strParam "separator") (str ",")
  let raw := entryFieldStr lib e srcKey
  if srcKey = [] ∨ raw = [] then e
  else
    let segments := split raw sep
    setEntry (setEntry e (srcKey ++ str "_parts") (.arr (segments.map .str))) srcKey
      (.str (segments.headD []))

/-- `lift_submap` -/
def liftSubmap (e : LogEntry) (a : ETLAction) : LogEntry :=
  let srcKey := a.strParam "src_key"
  if srcKey = [] then e
  else match subMap e srcKey with
    | none => e
    | some sub =>
      let e := spread e (a.strParam "prefix") sub
      if a.strParam "keep_src" = str "true" then e else deleteEntry e srcKey

/-- The parts `join_records` collects for a name: what each map of the array holds under
it. -/
def joinParts (lib : StdLib) (arr : List Value) (name : GoString) : List GoString :=
  arr.filterMap fun item => match item with
    | .obj kvs => some (lib.sprint (((kvs.find? (·.1 = name)).map (·.2)).getD .null))
    | _ => none

/-- `join_records` -/
def joinRecords (lib : StdLib) (e : LogEntry) (a : ETLAction) : LogEntry :=
  let srcKey := a.strParam "src_key"
  let fieldsRaw := a.strParam "fields"
  if srcKey = [] ∨ fieldsRaw = [] then e
  else match e.fields[srcKey]? with
    | some (.arr arr) =>
      let sep := orDefault (a.strParam "separator") (str ",")
      let dstKey := a.strParam "dst_key"
      (fields (replaceAll fieldsRaw (str ",") (str " "))).foldl (fun e name =>
        let parts := joinParts lib arr name
        if parts = [] then e
        else setEntry e (orDefault dstKey name) (.str (join parts sep))) e
    | _ => e

/-! ### Parsing -/

/-- The field a parsing action reads when none is named. -/
def srcFieldParam (a : ETLAction) : GoString := orDefault (a.strParam "src_field") (str "raw_log")

/-- `parse_json` -/
def parseJSON (lib : StdLib) (e : LogEntry) (a : ETLAction) : LogEntry :=
  let raw := entryFieldStr lib e (srcFieldParam a)
  if raw = [] then e
  else match lib.jsonUnmarshal raw with
    | some parsed => { e with fields := GoMap.copy e.fields parsed }
    | none => e

/-- `grok` -/
def grok (lib : StdLib) (e : LogEntry) (a : ETLAction) : LogEntry :=
  let raw := entryFieldStr lib e (srcFieldParam a)
  let pattern := a.strParam "pattern"
  if raw = [] ∨ pattern = [] then e
  else match lib.regexpCompile pattern with
    | none => e
    | some re => match re.findStringSubmatch raw with
      | none => e
      | some groups =>
        setEntries e
          (((re.subexpNames.zip groups).filter fun ng => ng.1 ≠ [] ∧ ng.2 ≠ []).map
            fun ng => (ng.1, .str ng.2))

/-! ### Enrichment -/

/-- `lookup_asset` -/
def lookupAsset (ex : ActionExecutor) (tick : ℕ) (e : LogEntry) : LogEntry :=
  let target := orDefault e.hostname e.sourceIP
  match ex.assetRepo with
  | none => e
  | some findByHostnameOrIP =>
    if target = [] then e
    else match findByHostnameOrIP tick e.tenantID target with
      | none => e
      | some asset =>
        setEntries e
          [(str "asset_key", .str asset.key), (str "asset_type", .str asset.type),
            (str "asset_risk_score", .float asset.riskScore),
            (str "asset_department", .str asset.department),
            (str "asset_os", .str asset.osName)]

/-- `collectIOCCandidates`: the values looked up as indicators, each once. A field that
is missing is printed like any other. -/
def collectIOCCandidates (lib : StdLib) (e : LogEntry) : List GoString :=
  let field (k : String) : GoString := lib.sprint ((e.fields[str k]?).getD .null)
  [e.sourceIP, field "dst_ip", field "file_hash", field "domain", field "url"].foldl
    (fun out v => if v = [] ∨ v ∈ out then out else out ++ [v]) []

/-- `lookup_threat` -/
def lookupThreat (ex : ActionExecutor) (tick : ℕ) (e : LogEntry) : LogEntry :=
  match ex.iocRepo with
  | none => e
  | some search =>
    let hit := (collectIOCCandidates ex.lib e).findSome? fun val =>
      ((search tick e.tenantID val 10).getD []).head?
    match hit with
    | none => e
    | some ioc =>
      setEntries e
        [(str "ioc_match", .bool true), (str "ioc_verdict", .str ioc.verdict),
          (str "ioc_type", .str ioc.type), (str "ioc_confidence", .float ioc.confidence),
          (str "ioc_value", .str ioc.value)]

/-- `lookup_geoip` -/
def lookupGeoIP (ex : ActionExecutor) (e : LogEntry) (a : ETLAction) : LogEntry :=
  match ex.geoipDB with
  | none => e
  | some lookup =>
    let ip := entryFieldStr ex.lib e (orDefault (a.strParam "src_key") (str "src_ip"))
    if ip = [] then e
    else
      let geo := lookup ip
      let e := if geo.country = [] then e else setEntry e (str "geo_country") (.str geo.country)
      let e := if geo.city = [] then e else setEntry e (str "geo_city") (.str geo.city)
      if geo.asn = 0 then e
      else setEntry (setEntry e (str "geo_asn") (.int .uint geo.asn)) (str "geo_asn_org")
        (.str geo.asnOrg)

/-! ### Routing overrides, sampling, scripts -/

/-- `set_dataset` -/
def setDataset (e : LogEntry) (a : ETLAction) : LogEntry :=
  let ds := a.strParam "dataset"
  if ds = [] then e else { e with dataset := ds }

/-- `set_kind` -/
def setKind (e : LogEntry) (a : ETLAction) : LogEntry :=
  match a.params[str "kind"]? with
  | some (.float x) => { e with kind := x.toUInt8 }
  | some (.int .int i) => { e with kind := UInt8.ofNat (i % 256).toNat }
  | _ => e

/-- The percentage of `random_sample`, zero where it is missing or of another type. -/
def samplePercent (lib : StdLib) (a : ETLAction) : Float64 :=
  match a.params[str "percent"]? with
  | some (.float x) => x
  | some (.int .int i) => lib.floatOfInt i
  | some (.str s) => (lib.parseFloat s).getD (lib.parseFloatOnError s)
  | _ => lib.floatOfInt 0

/-- `random_sample` -/
def randomSample (ex : ActionExecutor) (tick : ℕ) (e : LogEntry) (a : ETLAction) :
    Option LogEntry :=
  if (samplePercent ex.lib a).le (ex.randPercent tick) then none else some e

/-- `custom_lua` -/
def customLua (ex : ActionExecutor) (tick : ℕ) (e : LogEntry) (a : ETLAction) : Option LogEntry :=
  let script := a.strParam "script"
  match ex.luaEngine with
  | none => some e
  | some vm =>
    if script = [] then some e
    else match luaRun ex.lib vm tick script e (a.strParam "_tag") with
      | .error => some e
      | .drop => none
      | .keep e' => some e'

/-! ### Deduplication -/

/-- The window of a `dedup` action, a minute where it is missing or no number. -/
def dedupWindow (a : ETLAction) : ℤ :=
  match a.params[str "window_seconds"]? with
  | some (.float x) => x.toInt
  | some (.int .int i) => i
  | _ => 60

/-- The call a `dedup` action makes, if it makes one. -/
def dedupCall (ex : ActionExecutor) (tick : ℕ) (e : LogEntry) (a : ETLAction) :
    Option DedupCall :=
  let key := a.strParam "key"
  if ex.dedup = false ∨ key = [] then none
  else some ⟨ex.now tick, e.tenantID, entryFieldStr ex.lib e key, dedupWindow a⟩

/-- `dedup` -/
def dedupAction (ex : ActionExecutor) (st : ExecState) (e : LogEntry) (a : ETLAction) :
    Option LogEntry × Deduplicator :=
  match dedupCall ex st.tick e a with
  | none => (some e, st.dedup)
  | some c =>
    let r := c.run st.dedup
    (if r.1 then none else some e, r.2)

/-! ### The switch -/

/-- The cases of the switch that leave the deduplicator alone. `none` is a dropped
entry. -/
def applyPlain (ex : ActionExecutor) (tick : ℕ) (e : LogEntry) (a : ETLAction) :
    Option LogEntry :=
  match a.type with
  | .setField => some (setField ex.lib e a)
  | .renameField => some (renameField e a)
  | .deleteField => some (deleteField e a)
  | .copyKey => some (copyKey e a)
  | .hashKey => some (hashKey ex.lib e a)
  | .parseNumber => some (parseNumber ex.lib e a)
  | .allowKeys => some (allowKeys ex.lib e a)
  | .blockKeys => some (blockKeys ex.lib e a)
  | .allowRecords => allowRecords ex.lib e a
  | .blockRecords => blockRecords ex.lib e a
  | .redactValue => some (redactValue ex.lib e a)
  | .searchReplace => some (searchReplace ex.lib e a)
  | .flattenSubrecord => some (flattenSubrecord e a)
  | .nestKeys => some (nestKeys e a)
  | .decodeCSV => some (decodeCSV ex.lib e a)
  | .encodeJSON => some (encodeJSON ex.lib e a)
  | .encodeCSV => some (encodeCSV ex.lib e a)
  | .multilineJoin => some (multilineJoin ex.lib e a)
  | .splitRecord => some (splitRecord ex.lib e a)
  | .liftSubmap => some (liftSubmap e a)
  | .joinRecords => some (joinRecords ex.lib e a)
  | .parseJSON => some (parseJSON ex.lib e a)
  | .grok => some (grok ex.lib e a)
  | .randomSample => randomSample ex tick e a
  | .lookupAsset => some (lookupAsset ex tick e)
  | .lookupThreat => some (lookupThreat ex tick e)
  | .lookupGeoIP => some (lookupGeoIP ex e a)
  | .setDataset => some (setDataset e a)
  | .setKind => some (setKind e a)
  | .dropEvent => none
  | .customLua => customLua ex tick e a
  | .dedup => some e
  | .other _ => some e

/-- `ActionExecutor.apply`: one action. `none` is a dropped entry. -/
def apply (ex : ActionExecutor) (st : ExecState) (e : LogEntry) (a : ETLAction) :
    Option LogEntry × ExecState :=
  match a.type with
  | .dedup =>
    let r := dedupAction ex st e a
    (r.1, ⟨r.2, st.tick + 1⟩)
  | _ => (applyPlain ex st.tick e a, { st with tick := st.tick + 1 })

/-- `ActionExecutor.ApplyActions`: the actions in order, until one drops the entry. -/
def applyActions (ex : ActionExecutor) (st : ExecState) (e : LogEntry) :
    List ETLAction → Option LogEntry × ExecState
  | [] => (some e, st)
  | a :: as =>
    match apply ex st e a with
    | (none, st) => (none, st)
    | (some e, st) => applyActions ex st e as

end Etl

end Xsiam
