import Xsiam.Ingest.Written

/-!
# Readers that are drained

`BulkCreate` of `internal/repository/log_entry.go` sends its entries in slices, in order and one
request each, and reads what the server says of every document until the reader returns an error. The
end of the results is one, and a document that was rejected is another (`Xsiam.Ingest.drain`); the
loop leaves both behind and goes on with the next slice.

So success says that every request was answered, and that is all
(`Xsiam.Ingest.insertBatches_none_iff`). It says that everything is stored
(`Xsiam.Ingest.reportsTruly_iff`) exactly if some request fails as a whole, and there is no success,
or every reader is read to its end.
-/

namespace Xsiam

namespace Ingest

open Go Etl

/-! ### Reading a reader -/

/-- What ends the loop over a reader. -/
inductive DrainEnd where
  | endOfResults
  | rejected
deriving DecidableEq

/-- The loop that drains a reader, over what it says of each document. -/
def drain : List Bool → DrainEnd
  | [] => .endOfResults
  | true :: read => drain read
  | false :: _ => .rejected

theorem drain_eq_endOfResults {read : List Bool} :
    drain read = .endOfResults ↔ read = List.replicate read.length true := by
  induction read with
  | nil => exact iff_of_true rfl rfl
  | cons ok read ih =>
    cases ok with
    | true => rw [drain, ih, List.length_cons, List.replicate_succ, List.cons.injEq, and_iff_right rfl]
    | false => exact iff_of_false nofun (by simp [List.replicate_succ])

theorem false_mem_of_rejected {read : List Bool} (h : drain read ≠ .endOfResults) :
    false ∈ read := by
  by_contra hfalse
  refine h (drain_eq_endOfResults.mpr (List.eq_replicate_of_mem fun ok hok => ?_))
  cases ok with
  | true => rfl
  | false => exact absurd hok hfalse

/-! ### Requests and answers -/

variable (b : Backends)

/-- The reader of a request has one result for each document. -/
def Backends.OneResultEach : Prop := ∀ tick collection docs read,
  b.createDocuments tick collection docs = some read → read.length = docs.length

/-- What the slices of a `BulkCreate` are answered, one after the other. -/
def answers (collection : GoString) : ℕ → List (List LogEntry) → List (Option (List Bool))
  | _, [] => []
  | tick, batch :: rest =>
    b.createDocuments tick collection batch :: answers collection (tick + 1) rest

/-- The requests of the slices. -/
def requests (collection : GoString) (bs : List (List LogEntry)) (as : List (Option (List Bool))) :
    List Call := List.zipWith (.createDocuments collection) bs as

/-- The collection that `BulkCreate` writes to. -/
def target (collection : GoString) : GoString :=
  if collection = [] then logEntriesCollection else collection

/-- The world in which the first slice is sent. -/
def opened (w : World) (collection : GoString) (ttlDays : ℤ) : World :=
  (ensureETLCollection b w (target collection) ttlDays).2.read

/-- What the slices of some entries are answered. -/
def bulkAnswers (w : World) (collection : GoString) (ttlDays : ℤ) (entries : List LogEntry) :
    List (Option (List Bool)) :=
  answers b (target collection) (opened b w collection ttlDays).tick (batches entries)

/-- A request of `BulkCreate` fails as a whole: the collection cannot be made ready or opened, or a
slice is not taken. -/
def RequestFails (w : World) (collection : GoString) (ttlDays : ℤ) (entries : List LogEntry) : Prop :=
  (ensureETLCollection b w (target collection) ttlDays).1 ≠ none ∨
    b.collection (ensureETLCollection b w (target collection) ttlDays).2.tick (target collection) =
      false ∨
    none ∈ bulkAnswers b w collection ttlDays entries

/-- **Success is reported only when everything is stored.** Each entry is then inserted once, in
requests that are the slices of the list in order; and where a document of a request was rejected
there is no success. -/
structure ReportsTruly (w : World) (collection : GoString) (ttlDays : ℤ) (entries : List LogEntry) :
    Prop where
  stored : (bulkCreate b w collection ttlDays entries).1 = none →
    ∃ before slices, Made w (before ++ slices) (bulkCreate b w collection ttlDays entries).2 ∧
      Silent before ∧ (batches entries).flatten = entries ∧
      slices = (batches entries).map fun batch =>
        .createDocuments (target collection) batch (some (List.replicate batch.length true))
  rejected : ∀ calls, Made w calls (bulkCreate b w collection ttlDays entries).2 →
    (∃ docs read, .createDocuments (target collection) docs (some read) ∈ calls ∧ false ∈ read) →
      (bulkCreate b w collection ttlDays entries).1 ≠ none

section Requests

variable {b} {w : World} {collection : GoString} {ttlDays : ℤ} {entries : List LogEntry}

/-- **The slices succeed exactly if every request is answered**, whatever the answers are. -/
theorem insertBatches_none_iff (bs : List (List LogEntry)) : ∀ (i : ℕ) (w : World),
    ((insertBatches b collection i bs w).1 = none ↔ none ∉ answers b collection w.tick bs) ∧
      (none ∉ answers b collection w.tick bs →
        Made w (requests collection bs (answers b collection w.tick bs))
          (insertBatches b collection i bs w).2) := by
  induction bs with
  | nil => exact fun i w => ⟨iff_of_true rfl List.not_mem_nil, fun _ => .refl w⟩
  | cons batch bs ih =>
    intro i w
    rw [insertBatches, answers]
    cases hread : b.createDocuments w.tick collection batch with
    | none =>
      refine ⟨iff_of_false (Option.some_ne_none _) fun h => h List.mem_cons_self, fun h => ?_⟩
      exact absurd List.mem_cons_self h
    | some read =>
      obtain ⟨hnone, hmade⟩ := ih (i + 1) (w.record (.createDocuments collection batch (some read)))
      have hcons : none ∈ some read :: answers b collection (w.tick + 1) bs ↔
          none ∈ answers b collection (w.tick + 1) bs := by
        rw [List.mem_cons, or_iff_right (Option.some_ne_none _).symm]
      rw [hcons]
      exact ⟨hnone, fun h => (Made.record w _).trans (hmade h)⟩

/-- What `BulkCreate` comes to, where there is something to insert. -/
theorem bulkCreate_eq (hne : entries ≠ []) : bulkCreate b w collection ttlDays entries =
    match ensureETLCollection b w (target collection) ttlDays with
    | (some err, w) => (some err, w)
    | (none, w) =>
      if b.collection w.tick (target collection) then
        insertBatches b (target collection) 0 (batches entries) w.read
      else (some (.openCollection (target collection)), w.read) := by
  rw [bulkCreate, if_neg hne]
  rfl

/-- **When `BulkCreate` succeeds**: there was nothing to insert, or no request failed. -/
theorem bulkCreate_none_iff : (bulkCreate b w collection ttlDays entries).1 = none ↔
    entries = [] ∨ ¬RequestFails b w collection ttlDays entries := by
  by_cases hnil : entries = []
  · rw [bulkCreate, if_pos hnil]
    exact iff_of_true rfl (.inl hnil)
  · rw [or_iff_right hnil, bulkCreate_eq hnil, RequestFails, bulkAnswers, opened]
    rcases ensureETLCollection b w (target collection) ttlDays with ⟨_ | err, w₁⟩
    · dsimp only
      by_cases hopen : b.collection w₁.tick (target collection) = true
      · rw [if_pos hopen, (insertBatches_none_iff _ 0 _).1]
        simp [hopen]
      · rw [if_neg hopen]
        simp [hopen]
    · simp

/-- The calls of a `BulkCreate` that succeeds: the collection is made ready, and each slice is
sent. -/
theorem bulkCreate_made (hnone : (bulkCreate b w collection ttlDays entries).1 = none) :
    ∃ before, (∀ c ∈ before, c.Prepares) ∧
      Made w (before ++ requests (target collection) (batches entries)
        (bulkAnswers b w collection ttlDays entries)) (bulkCreate b w collection ttlDays entries).2 := by
  by_cases hnil : entries = []
  · rw [bulkCreate, if_pos hnil]
    refine ⟨[], by simp, ?_⟩
    rw [hnil]
    exact .refl w
  · have hfails := (bulkCreate_none_iff.mp hnone).resolve_left hnil
    obtain ⟨before, hmade, hprepares⟩ := ensureETLCollection_made b w (target collection) ttlDays
    rw [RequestFails, not_or, not_or, not_not, Bool.not_eq_false] at hfails
    obtain ⟨hensure, hopen, hanswers⟩ := hfails
    refine ⟨before, hprepares, ?_⟩
    rw [bulkCreate_eq hnil]
    rw [bulkAnswers, opened] at hanswers ⊢
    generalize ensureETLCollection b w (target collection) ttlDays = ensured at *
    obtain ⟨_, w₁⟩ := ensured
    obtain rfl := hensure
    dsimp only at hopen hmade hanswers ⊢
    rw [if_pos hopen]
    have hslices := (insertBatches_none_iff _ 0 _).2 hanswers
    have hall := (hmade.trans (.read w₁)).trans hslices
    rwa [List.append_nil] at hall

/-- The requests of slices that are all answered in full. -/
theorem requests_of_full {bs : List (List LogEntry)} : ∀ {tick : ℕ},
    (∀ a ∈ answers b collection tick bs, ∃ read, a = some read ∧ drain read = .endOfResults) →
    b.OneResultEach → requests collection bs (answers b collection tick bs) =
      bs.map fun batch =>
        .createDocuments collection batch (some (List.replicate batch.length true)) := by
  induction bs with
  | nil => exact fun _ _ => rfl
  | cons batch bs ih =>
    intro tick hfull hreader
    rw [answers] at hfull ⊢
    obtain ⟨⟨read, hread, hdrain⟩, hrest⟩ := List.forall_mem_cons.mp hfull
    have hlength := hreader _ _ _ _ hread
    rw [requests, List.zipWith_cons_cons, ← requests, ih hrest hreader, List.map_cons, hread,
      drain_eq_endOfResults.mp hdrain, hlength]

/-- Every answer is one to a request. -/
theorem mem_requests {a : Option (List Bool)} {bs : List (List LogEntry)} : ∀ {tick : ℕ},
    a ∈ answers b collection tick bs → ∃ docs,
      .createDocuments collection docs a ∈ requests collection bs (answers b collection tick bs) := by
  induction bs with
  | nil => exact fun h => absurd h List.not_mem_nil
  | cons batch bs ih =>
    intro tick h
    rw [answers] at h ⊢
    rw [requests, List.zipWith_cons_cons, ← requests]
    obtain rfl | h := List.mem_cons.mp h
    · exact ⟨batch, List.mem_cons_self⟩
    · obtain ⟨docs, hdocs⟩ := ih h
      exact ⟨docs, List.mem_cons_of_mem _ hdocs⟩

/-- **Success is reported truly exactly if a request fails as a whole, or every reader is read to its
end.** -/
theorem reportsTruly_iff (hreader : b.OneResultEach) (w : World) (collection : GoString)
    (ttlDays : ℤ) (entries : List LogEntry) :
    ReportsTruly b w collection ttlDays entries ↔
      RequestFails b w collection ttlDays entries ∨
        ∀ read, some read ∈ bulkAnswers b w collection ttlDays entries →
          drain read = .endOfResults := by
  constructor
  · intro h
    by_contra hcond
    rw [not_or] at hcond
    obtain ⟨hfails, hrejected⟩ := hcond
    push Not at hrejected
    obtain ⟨read, hread, hdrain⟩ := hrejected
    -- all requests are answered, and one of the readers says that a document was rejected
    have hnone := bulkCreate_none_iff.mpr (.inr hfails)
    obtain ⟨before, -, hmade⟩ := bulkCreate_made hnone
    obtain ⟨docs, hdocs⟩ := mem_requests hread
    exact h.rejected _ hmade ⟨docs, read, List.mem_append_right _ hdocs,
      false_mem_of_rejected hdrain⟩ hnone
  · intro hcond
    by_cases hnone : (bulkCreate b w collection ttlDays entries).1 = none
    · obtain ⟨before, hprepares, hmade⟩ := bulkCreate_made hnone
      have hfull : ∀ a ∈ bulkAnswers b w collection ttlDays entries,
          ∃ read, a = some read ∧ drain read = .endOfResults := by
        intro a ha
        obtain hnil | hfails := bulkCreate_none_iff.mp hnone
        · rw [bulkAnswers, hnil] at ha
          exact absurd ha List.not_mem_nil
        · cases a with
          | none => exact absurd (.inr (.inr ha)) hfails
          | some read => exact ⟨read, rfl, hcond.resolve_left hfails read ha⟩
      have hslices := requests_of_full hfull hreader
      rw [← bulkAnswers] at hslices
      refine ⟨fun _ => ⟨before, _, hmade, .of_prepares hprepares, flatten_batches entries, hslices⟩, ?_⟩
      rintro calls hcalls ⟨docs, read, hmem, hfalse⟩
      rw [Made.unique hcalls hmade, hslices, List.mem_append] at hmem
      obtain hmem | hmem := hmem
      · exact (hprepares _ hmem).elim
      · obtain ⟨batch, -, heq⟩ := List.mem_map.mp hmem
        obtain ⟨-, -, hread⟩ := Call.createDocuments.inj heq
        rw [← Option.some.inj hread, List.mem_replicate] at hfalse
        exact nomatch hfalse.2
    · exact ⟨fun h => absurd h hnone, fun _ _ _ => hnone⟩

end Requests

/-! ### A document that is rejected -/

/-- Servers that take every request and reject every document. -/
def rejecting : Backends :=
  { willing with createDocuments := fun _ _ docs => some (List.replicate docs.length false) }

theorem oneResultEach_willing : willing.OneResultEach := by
  intro tick collection docs read h
  obtain rfl := Option.some.inj h
  exact List.length_replicate

theorem oneResultEach_rejecting : rejecting.OneResultEach := by
  intro tick collection docs read h
  obtain rfl := Option.some.inj h
  exact List.length_replicate

/-- An entry without fields. -/
def bareEntry : LogEntry where
  tenantID := str "t"
  dataset := datasetEndpoint
  kind := logKindProcess
  agentID := str "1"
  sessionID := []
  hostname := []
  sourceIP := []
  fields := ∅
  rawLog := []
  eventTimestamp := 0
  ingestedAt := 0

/-- Servers that do what they are asked to store every slice. -/
theorem answers_willing {collection : GoString} {a : Option (List Bool)} (bs : List (List LogEntry)) :
    ∀ {tick : ℕ}, a ∈ answers willing collection tick bs →
      ∃ read, a = some read ∧ drain read = .endOfResults := by
  induction bs with
  | nil => exact fun h => absurd h List.not_mem_nil
  | cons batch bs ih =>
    intro tick h
    rw [answers] at h
    obtain hread | h := List.mem_cons.mp h
    · refine ⟨List.replicate batch.length true, hread, ?_⟩
      rw [drain_eq_endOfResults, List.length_replicate]
    · exact ih h

/-- A list of two slices is stored, and that is a success. -/
theorem reportsTruly_iff_willing :
    let entries := (List.range 250).map fun i => { bareEntry with ingestedAt := i }
    (batches entries).length = 2 ∧ (bulkCreate willing .init (str "events") 30 entries).1 = none ∧
      ReportsTruly willing .init (str "events") 30 entries := by
  intro entries
  have htruly := (reportsTruly_iff oneResultEach_willing .init (str "events") 30 entries).mpr
    (.inr fun read hread => by
      obtain ⟨read', hsome, hdrain⟩ := answers_willing _ hread
      rwa [Option.some.inj hsome])
  refine ⟨by simp [batches, batchSize, entries], bulkCreate_none_iff.mpr (.inr ?_), htruly⟩
  rintro (hensure | hopen | hanswer)
  · exact hensure rfl
  · exact Bool.noConfusion hopen
  · obtain ⟨read, hnone, -⟩ := answers_willing _ hanswer
    cases hnone

/-- The one entry of a list is rejected, and that is a success. -/
theorem not_reportsTruly :
    ¬∀ (b : Backends) (w : World) (collection : GoString) (ttlDays : ℤ) (entries : List LogEntry),
      b.OneResultEach → ReportsTruly b w collection ttlDays entries := by
  intro h
  have hnone : (bulkCreate rejecting .init (str "events") 30 [bareEntry]).1 = none := rfl
  obtain ⟨before, -, hmade⟩ := bulkCreate_made hnone
  have hanswers : bulkAnswers rejecting .init (str "events") 30 [bareEntry] = [some [false]] := rfl
  refine (h rejecting .init (str "events") 30 [bareEntry] oneResultEach_rejecting).rejected _ hmade
    ⟨[bareEntry], [false], ?_, List.mem_singleton.mpr rfl⟩ hnone
  rw [hanswers]
  exact List.mem_append_right _ List.mem_cons_self

end Ingest

end Xsiam
