import Xsiam.Ingest.Entry
import Xsiam.Query.Parsers
import Xsiam.Repository.LogEntries

/-!
# The query service

`Query` of `internal/domain/query/service.go`: a query is parsed, the conditions on three fields
that it knows are handed to `LogEntryRepo.List`, and the events that come back are made into rows.
Without a repository of log entries the query goes to the lake as it is.

`none` is a panic of the parser.
-/

namespace Xsiam

namespace Query

open Go Etl Separator Repository

/-! ### Kinds -/

/-- The number that `fmt.Sscanf(s, "%d", &n)` leaves in a `uint8` that was zero: the one that the
digits make behind the space, and zero where there are none or the number is too large. -/
def sscanfUint8 (s : GoString) : UInt8 :=
  match digits ((trimSpace s).takeWhile isDigit) with
  | some n => if n < 256 then UInt8.ofNat n else 0
  | none => 0

/-- The `switch` of `kindFromString`, which knows one name more than the one of the tags. -/
def kindNamed (s : GoString) : Option UInt8 :=
  let v := toLower s
  if v = str "syslog" ∨ v = str "0" then some logKindSyslog else Ingest.kindFromCell s

/-- `kindFromString` -/
def kindFromString (s : GoString) : UInt8 := (kindNamed s).getD (sscanfUint8 s)

/-! ### Rows -/

/-- The row of an event: its members, its fields written over them, and its text last. -/
def rowOf (lib : StdLib) (e : LogEntry) : GoMap Value :=
  let row := GoMap.insertAll ∅
    [(str "_key", Value.str e.key), (str "dataset", .str e.dataset),
      (str "kind", .int .uint8 e.kind.toNat), (str "kind_name", .str (modelKindName e.kind)),
      (str "agent_id", .str e.agentID), (str "session_id", .str e.sessionID),
      (str "hostname", .str e.hostname), (str "src_ip", .str e.sourceIP),
      (str "event_timestamp", .str (lib.formatRFC3339 e.eventTimestamp)),
      (str "ingested_at", .str (lib.formatRFC3339 e.ingestedAt))]
  let row := GoMap.copy row e.fields
  if e.rawLog = [] then row else row.insert (str "raw_log") (.str e.rawLog)

/-- The columns that a query asks for, all of them where it asks for none. -/
def project (columns : List GoString) (row : GoMap Value) : GoMap Value :=
  if columns = [] then row
  else GoMap.insertAll ∅ (columns.map fun f => (f, row[f]?.getD .null))

/-! ### The service -/

/-- `datalake.QueryResult` -/
structure QueryResult where
  rows : List (GoMap Value)
  events : List (GoMap Value)
  total : ℤ
  elapsedMs : ℤ
  scannedGB : Float64 := ⟨0⟩

/-- `query.Service`, and how long a list takes it. -/
structure Service where
  lib : StdLib
  lakeClient : GoString → ℤ → ℤ → Except GoString QueryResult
  logRepo : Option (DBCollection LogEntry)
  elapsedMs : ℤ := 0

/-- The tenant of a request: the one the handler has set, or the one of development. -/
def tenantOf (ctx : Option GoString) : GoString :=
  if ctx.getD [] = [] then str "t-super" else ctx.getD []

/-- The options that a parsed query becomes. -/
def logOptions (ctx : Option GoString) (p : Parsed (GoMap GoString)) : LogListOptions where
  tenantID := tenantOf ctx
  dataset := p.dataset
  agentID := p.filters[str "agent_id"]?.getD []
  hostname := p.filters[str "hostname"]?.getD []
  kind := p.filters[str "kind"]?.map kindFromString
  page := 1
  pageSize := p.limit
  sortBy := p.sortBy
  sortDesc := p.sortDesc

/-- The answer that events make. -/
def Service.answer (s : Service) (p : Parsed (GoMap GoString)) (entries : List LogEntry) :
    QueryResult :=
  let rows := entries.map fun e => project p.fields (rowOf s.lib e)
  { rows, events := rows, total := rows.length, elapsedMs := s.elapsedMs }

/-- `Query` -/
def Service.query (s : Service) (ctx : Option GoString) (xql : GoString) (fromTS toTS : ℤ) :
    Option (Except GoString QueryResult) :=
  match s.logRepo with
  | none => some (s.lakeClient xql fromTS toTS)
  | some logRepo =>
    (parseXQL xql).map fun p =>
      if p.dataset = [] then .error (str "XQL must start with: dataset = <name>")
      else
        match listLogEntries logRepo (logOptions ctx p) with
        | .error err => .error (str "log query: " ++ err)
        | .ok (entries, _) => .ok (s.answer p entries)

/-- The same service over another collection. -/
def Service.over (s : Service) (c : DBCollection LogEntry) : Service := { s with logRepo := some c }

/-- **When a service answers**: the query is parsed and has a dataset, and the list of its options
is there. -/
theorem Service.query_eq_ok {s : Service} {c : DBCollection LogEntry} {ctx : Option GoString}
    {q : GoString} {fromTS toTS : ℤ} {result : QueryResult} :
    (s.over c).query ctx q fromTS toTS = some (.ok result) ↔
      ∃ p es pageMeta, parseXQL q = some p ∧ p.dataset ≠ [] ∧
        listLogEntries c (logOptions ctx p) = .ok (es, pageMeta) ∧ s.answer p es = result := by
  change (parseXQL q).map _ = _ ↔ _
  rw [Option.map_eq_some_iff]
  refine exists_congr fun p => ?_
  by_cases hds : p.dataset = []
  · simp [hds]
  · rw [if_neg hds]
    rcases listLogEntries c (logOptions ctx p) with err | ⟨es, pageMeta⟩
    · simp
    · simp only [Except.ok.injEq, Prod.mk.injEq]
      constructor
      · rintro ⟨hp, heq⟩
        exact ⟨es, pageMeta, hp, hds, ⟨rfl, rfl⟩, heq⟩
      · rintro ⟨_, _, hp, -, ⟨rfl, -⟩, heq⟩
        exact ⟨hp, heq⟩

/-! ### One event in the store -/

/-- What a list asks of an event. -/
theorem passes_iff {o : LogListOptions} {e : LogEntry} :
    o.toList.passes e = true ↔ e.tenantID = o.tenantID ∧ (o.dataset = [] ∨ e.dataset = o.dataset) ∧
      (o.agentID = [] ∨ e.agentID = o.agentID) ∧ (o.hostname = [] ∨ e.hostname = o.hostname) ∧
        ∀ k, o.kind = some k → e.kind = k := by
  have hfilter : ∀ (text : String) (asked : Bool) (equal : LogEntry → Bool),
      ((equalFilter text asked equal).all fun f => f.passes e) = true ↔
        (asked = false ∨ equal e = true) := by
    intro text asked equal
    cases asked <;> simp [equalFilter]
  simp only [ListOptions.passes, LogListOptions.toList, List.all_append, Bool.and_eq_true, hfilter,
    decide_eq_true_eq, decide_eq_false_iff_not, not_not, and_assoc]
  refine and_congr (by simp) (and_congr_right fun _ => and_congr_right fun _ =>
    and_congr_right fun _ => ?_)
  cases o.kind <;> simp

/-- A page of log entries is never empty for want of room. -/
theorem one_le_limit {α : Type} (o : ListOptions α) : 1 ≤ o.limit := by
  simp only [ListOptions.limit]
  split_ifs <;> omega

theorem pageNumber_toList {o : LogListOptions} (h : o.page = 1) : o.toList.pageNumber = 1 := by
  rw [ListOptions.pageNumber, show o.toList.page = o.page from rfl, h]
  rfl

/-- A page of one event that passes. -/
theorem listLogEntries_single {o : LogListOptions} (hsort : o.toList.SortsByPath)
    (hpage : o.page = 1) {e : LogEntry} (he : o.toList.passes e = true) :
    ∃ pageMeta, listLogEntries (DBCollection.unsorted [e]) o = .ok ([e], pageMeta) := by
  obtain ⟨pageMeta, hpaged⟩ := findPaged_first (c := DBCollection.unsorted [e]) hsort (pageNumber_toList hpage)
  have hmatch : (DBCollection.unsorted [e]).matching o.toList = [e] := by
    change [e].filter o.toList.passes = [e]
    rw [List.filter_cons_of_pos he, List.filter_nil]
  have hlimit := one_le_limit o.toList
  refine ⟨pageMeta, ?_⟩
  rw [listLogEntries, hpaged, hmatch, List.take_of_length_le]
  rw [List.length_singleton]
  omega

/-- The events of a page pass. -/
theorem passes_of_listLogEntries {c : DBCollection LogEntry} {o : LogListOptions}
    (hsort : o.toList.SortsByPath) (hpage : o.page = 1) {es : List LogEntry} {pageMeta : PageMeta}
    (h : listLogEntries c o = .ok (es, pageMeta)) : ∀ e ∈ es, o.toList.passes e = true := by
  obtain ⟨pageMeta', hpaged⟩ := findPaged_first (c := c) hsort (pageNumber_toList hpage)
  rw [listLogEntries, hpaged, Except.ok.injEq, Prod.mk.injEq] at h
  obtain ⟨rfl, -⟩ := h
  intro e he
  exact (mem_matching.mp (List.mem_of_mem_take he)).2

end Query

end Xsiam
