import Xsiam.Ingest.Entry

/-!
# The two stores an ingest handler writes to

The data lake, by the one method of `internal/datalake/hec.go` the handler calls, which sends
nothing where an event cannot be encoded, and the log repository of `internal/repository/log_entry.go`, which creates collections on
demand and inserts documents in batches.

What a server answers is not decided by the code. `Xsiam.Ingest.Backends` answers each
call by the number of calls made before it, and every call that is meant to change
something is recorded, with its answer, in the order it was made
(`Xsiam.Ingest.World.calls`).
-/

namespace Xsiam

namespace Ingest

open Go

/-! ### Calls and answers -/

/-- A call that is meant to change what is stored, with what it returned. -/
inductive Call where
  /-- `Client.Ingest`, and whether it returned nil. -/
  | ingest (events : List HECEvent) (ok : Bool)
  /-- `Database.CreateCollection` -/
  | createCollection (collection : GoString) (ok : Bool)
  /-- `Collection.EnsureTTLIndex` on `event_timestamp`. -/
  | ensureTTLIndex (collection : GoString) (expireSecs : ℤ) (ok : Bool)
  /-- `Collection.CreateDocuments`: `none` is an error, and otherwise the reader says for
  each document whether it was inserted. -/
  | createDocuments (collection : GoString) (docs : List LogEntry) (read : Option (List Bool))

/-- What the servers answer to the call of a number. -/
structure Backends where
  /-- The request of `Client.Ingest`, and whether it is answered with 200. -/
  ingest : ℕ → List HECEvent → Bool
  /-- `Database.CollectionExists`, where `none` is an error. -/
  collectionExists : ℕ → GoString → Option Bool
  createCollection : ℕ → GoString → Bool
  /-- `Database.Collection`, and whether it returned nil. -/
  collection : ℕ → GoString → Bool
  ensureTTLIndex : ℕ → GoString → ℤ → Bool
  createDocuments : ℕ → GoString → List LogEntry → Option (List Bool)

/-- Servers that do whatever they are asked to. -/
def willing : Backends where
  ingest _ _ := true
  collectionExists _ _ := some true
  createCollection _ _ := true
  collection _ _ := true
  ensureTTLIndex _ _ _ := true
  createDocuments _ _ docs := some (List.replicate docs.length true)

/-- What is left of the calls made so far: their number, the collections the repository
has ensured, and the calls recorded. -/
structure World where
  tick : ℕ
  ensuredCols : List GoString
  calls : List Call

/-- `logEntriesCollection` -/
def logEntriesCollection : GoString := str "log_entries"

/-- The world of a fresh `NewLogEntryRepo`. -/
def World.init : World := ⟨0, [logEntriesCollection], []⟩

namespace World

/-- A call that only reads. -/
def read (w : World) : World := { w with tick := w.tick + 1 }

/-- A call that is recorded. -/
def record (w : World) (c : Call) : World :=
  { w with tick := w.tick + 1, calls := w.calls ++ [c] }

/-- `r.ensuredCols[colName] = true` -/
def ensured (w : World) (colName : GoString) : World :=
  { w with ensuredCols := colName :: w.ensuredCols }

end World

/-! ### The data lake -/

/-- `Client.Ingest`, and whether it returned nil. The events are encoded before the request is made, and
the first one that cannot be ends the call. -/
def lakeIngest (b : Backends) (w : World) (events : List HECEvent) : Bool × World :=
  let ok := encodesAll events && b.ingest w.tick events
  (ok, w.record (.ingest events ok))

/-! ### The log repository -/

/-- The errors of `BulkCreate`. -/
inductive BulkError where
  /-- `check collection %s` -/
  | checkCollection (collection : GoString)
  /-- `create collection %s` -/
  | createCollection (collection : GoString)
  /-- `open collection %s` -/
  | openCollection (collection : GoString)
  /-- `bulk insert %s (batch %d)` -/
  | bulkInsert (collection : GoString) (batch : ℕ)
deriving DecidableEq

/-- The first half of `ensureETLCollection`: the collection exists, or is created. -/
def ensureExists (b : Backends) (w : World) (colName : GoString) : Option BulkError × World :=
  match b.collectionExists w.tick colName with
  | none => (some (.checkCollection colName), w.read)
  | some true => (none, w.read)
  | some false =>
    let w := w.read
    let ok := b.createCollection w.tick colName
    (if ok then none else some (.createCollection colName),
      w.record (.createCollection colName ok))

/-- The second half: the index by which documents expire. Only a failure to open the
collection is an error. -/
def ensureTTL (b : Backends) (w : World) (colName : GoString) (ttlDays : ℤ) :
    Option BulkError × World :=
  if 0 < ttlDays then
    if b.collection w.tick colName then
      let w := w.read
      let expireSecs := (ttlDays * 86400).bmod (2 ^ 64)
      (none, w.record (.ensureTTLIndex colName expireSecs
        (b.ensureTTLIndex w.tick colName expireSecs)))
    else (some (.openCollection colName), w.read)
  else (none, w)

/-- `ensureETLCollection` -/
def ensureETLCollection (b : Backends) (w : World) (colName : GoString) (ttlDays : ℤ) :
    Option BulkError × World :=
  if colName ∈ w.ensuredCols then (none, w)
  else match ensureExists b w colName with
    | (some err, w) => (some err, w)
    | (none, w) => match ensureTTL b w colName ttlDays with
      | (some err, w) => (some err, w)
      | (none, w) => (none, w.ensured colName)

/-- `batchSize` -/
def batchSize : ℕ := 200

/-- The slices of the entries that `BulkCreate` inserts, one request each. -/
def batches (entries : List LogEntry) : List (List LogEntry) :=
  (List.range ((entries.length + batchSize - 1) / batchSize)).map fun i =>
    (entries.drop (i * batchSize)).take batchSize

/-- The loop of `BulkCreate`, from the batch `i` on. The reader of a batch is drained up to
the first document it reports an error for, and what it reports is not looked at. -/
def insertBatches (b : Backends) (collection : GoString) :
    ℕ → List (List LogEntry) → World → Option BulkError × World
  | _, [], w => (none, w)
  | i, batch :: rest, w =>
    match b.createDocuments w.tick collection batch with
    | none =>
      (some (.bulkInsert collection i), w.record (.createDocuments collection batch none))
    | some read =>
      insertBatches b collection (i + 1) rest
        (w.record (.createDocuments collection batch (some read)))

/-- `BulkCreate`, and the error it returned. -/
def bulkCreate (b : Backends) (w : World) (collection : GoString) (ttlDays : ℤ)
    (entries : List LogEntry) : Option BulkError × World :=
  if entries = [] then (none, w)
  else
    let collection := if collection = [] then logEntriesCollection else collection
    match ensureETLCollection b w collection ttlDays with
    | (some err, w) => (some err, w)
    | (none, w) =>
      if b.collection w.tick collection then insertBatches b collection 0 (batches entries) w.read
      else (some (.openCollection collection), w.read)

end Ingest

end Xsiam
