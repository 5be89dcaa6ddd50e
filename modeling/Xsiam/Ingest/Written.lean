import Xsiam.Ingest.Routed

/-!
# What a flush writes

The calls a flush makes, read off as what they ask of the two stores: the events handed to the client of
the lake and the documents an accepted request carried. Events are all handed over, whether or not the
lake takes them (`Xsiam.Ingest.Handler.flush_written`), and those of one call are posted together, unless
one of them cannot be encoded (`Xsiam.Ingest.flatMap_posted`). Documents are submitted
collection by collection and batch by batch until a request fails, so what is accepted is
all of them, or an initial part of them in the order of the visit
(`Xsiam.Ingest.Handler.flushArango_written`).
-/

namespace Xsiam

namespace Ingest

open Go Etl Grouping

/-! ### Reading calls -/

namespace Call

/-- The events that a call hands to the client of the lake. -/
def handed : Call → Option (List HECEvent)
  | .ingest events _ => some events
  | _ => none

/-- The events of a request to the lake, whatever it answered: there is none where an event cannot be
encoded. -/
def posted : Call → List HECEvent
  | .ingest events _ => if encodesAll events then events else []
  | _ => []

/-- The events the lake took. -/
def taken : Call → List HECEvent
  | .ingest events true => events
  | _ => []

/-- The documents of a request that returned no error, under their collection. -/
def accepted : Call → List (GoString × LogEntry)
  | .createDocuments col docs (some _) => docs.map (col, ·)
  | _ => []

/-- The documents the reader of a request reports as inserted. -/
def inserted : Call → List (GoString × LogEntry)
  | .createDocuments col docs (some oks) =>
    ((docs.zip oks).filter (·.2)).map fun dok => (col, dok.1)
  | _ => []

/-- All that a call was to store has been stored. -/
def Stored : Call → Prop
  | .ingest _ ok => ok = true
  | .createDocuments _ docs read => read = some (List.replicate docs.length true)
  | _ => True

instance (c : Call) : Decidable c.Stored :=
  match c with
  | .ingest _ ok => inferInstanceAs (Decidable (ok = true))
  | .createCollection _ _ => isTrue trivial
  | .ensureTTLIndex _ _ _ => isTrue trivial
  | .createDocuments _ docs read =>
    inferInstanceAs (Decidable (read = some (List.replicate docs.length true)))

theorem Stored.taken {c : Call} (h : c.Stored) : c.taken = c.handed.getD [] := by
  cases c with
  | ingest events ok =>
    obtain rfl : ok = true := h
    rfl
  | _ => rfl

theorem Stored.inserted {c : Call} (h : c.Stored) : c.inserted = c.accepted := by
  cases c with
  | createDocuments col docs read =>
    obtain rfl : read = some (List.replicate docs.length true) := h
    rw [Call.inserted, Call.accepted]
    induction docs with
    | nil => rfl
    | cons d docs ih => simpa [List.replicate_succ] using ih
  | _ => rfl

end Call

/-- The calls by which a world becomes another one. -/
def Made (w : World) (calls : List Call) (w' : World) : Prop := w'.calls = w.calls ++ calls

namespace Made

variable {w w₁ w₂ : World} {calls calls' : List Call}

theorem refl (w : World) : Made w [] w := (List.append_nil _).symm

theorem trans (h : Made w calls w₁) (h' : Made w₁ calls' w₂) : Made w (calls ++ calls') w₂ := by
  rw [Made, h', h, List.append_assoc]

theorem read (w : World) : Made w [] w.read := (List.append_nil _).symm

theorem ensured (w : World) (col : GoString) : Made w [] (w.ensured col) :=
  (List.append_nil _).symm

theorem record (w : World) (c : Call) : Made w [c] (w.record c) := rfl

theorem unique (h : Made w calls w₁) (h' : Made w calls' w₁) : calls = calls' :=
  List.append_cancel_left (h.symm.trans h')

end Made

theorem flatMap_getD_handed (calls : List Call) :
    (calls.flatMap fun c => c.handed.getD []) = (calls.filterMap Call.handed).flatten := by
  induction calls with
  | nil => rfl
  | cons c calls ih =>
    rw [List.flatMap_cons, ih]
    cases c with
    | ingest => rfl
    | _ => rfl

/-- **What calls post** are the events they hand over, each time all of them or none. -/
theorem flatMap_posted (calls : List Call) :
    calls.flatMap Call.posted = ((calls.filterMap Call.handed).filter encodesAll).flatten := by
  induction calls with
  | nil => rfl
  | cons c calls ih =>
    rw [List.flatMap_cons, ih]
    cases c with
    | ingest events ok =>
      have hcons : (Call.ingest events ok :: calls).filterMap Call.handed =
          events :: calls.filterMap Call.handed := rfl
      rw [hcons, Call.posted]
      by_cases henc : encodesAll events = true
      · rw [if_pos henc, List.filter_cons_of_pos henc, List.flatten_cons]
      · rw [if_neg henc, List.filter_cons_of_neg henc, List.nil_append]
    | _ => rfl

/-- Calls that neither hand over an event nor submit a document. -/
def Silent (calls : List Call) : Prop :=
  calls.filterMap Call.handed = [] ∧ calls.flatMap Call.accepted = []

/-- A call that makes a collection ready for its documents. -/
def Call.Prepares : Call → Prop
  | .createCollection .. => True
  | .ensureTTLIndex .. => True
  | _ => False

theorem Silent.of_prepares {calls : List Call} (h : ∀ c ∈ calls, c.Prepares) : Silent calls := by
  refine ⟨List.filterMap_eq_nil_iff.mpr fun c hc => ?_, List.flatMap_eq_nil_iff.mpr fun c hc => ?_⟩
  all_goals
    have hprepares := h c hc
    cases c with
    | createCollection => rfl
    | ensureTTLIndex => rfl
    | ingest => exact hprepares.elim
    | createDocuments => exact hprepares.elim

/-! ### One collection -/

variable (b : Backends)

theorem ensureExists_made (w : World) (col : GoString) :
    ∃ calls, Made w calls (ensureExists b w col).2 ∧ ∀ c ∈ calls, c.Prepares := by
  rw [ensureExists]
  split
  · exact ⟨[], .read w, by simp⟩
  · exact ⟨[], .read w, by simp⟩
  · exact ⟨_, (Made.read w).trans (.record w.read _), List.forall_mem_singleton.mpr trivial⟩

theorem ensureTTL_made (w : World) (col : GoString) (ttlDays : ℤ) :
    ∃ calls, Made w calls (ensureTTL b w col ttlDays).2 ∧ ∀ c ∈ calls, c.Prepares := by
  rw [ensureTTL]
  split_ifs
  · exact ⟨_, (Made.read w).trans (.record w.read _), List.forall_mem_singleton.mpr trivial⟩
  · exact ⟨[], .read w, by simp⟩
  · exact ⟨[], .refl w, by simp⟩

theorem ensureETLCollection_made (w : World) (col : GoString) (ttlDays : ℤ) :
    ∃ calls, Made w calls (ensureETLCollection b w col ttlDays).2 ∧ ∀ c ∈ calls, c.Prepares := by
  rw [ensureETLCollection]
  split_ifs
  · exact ⟨[], .refl w, by simp⟩
  · obtain ⟨calls, hmade, hprepares⟩ := ensureExists_made b w col
    rcases hexists : ensureExists b w col with ⟨_ | err, w₁⟩
    · rw [hexists] at hmade
      obtain ⟨calls', hmade', hprepares'⟩ := ensureTTL_made b w₁ col ttlDays
      have hboth : ∀ c ∈ calls ++ calls', c.Prepares :=
        List.forall_mem_append.mpr ⟨hprepares, hprepares'⟩
      rcases httl : ensureTTL b w₁ col ttlDays with ⟨_ | err, w₂⟩
      · rw [httl] at hmade'
        have hall := (hmade.trans hmade').trans (.ensured w₂ col)
        rw [List.append_nil] at hall
        exact ⟨_, by simpa [httl] using hall, hboth⟩
      · rw [httl] at hmade'
        exact ⟨_, by simpa [httl] using hmade.trans hmade', hboth⟩
    · rw [hexists] at hmade
      exact ⟨calls, hmade, hprepares⟩

/-- Some entries are submitted to a collection: the accepted requests carry them up to
the one that failed, and all of them where there is no error. -/
def Submits (w : World) (col : GoString) (entries : List LogEntry) (err : Option BulkError)
    (w' : World) : Prop :=
  ∃ calls done rest, Made w calls w' ∧ calls.filterMap Call.handed = [] ∧
    calls.flatMap Call.accepted = done.map (col, ·) ∧ entries = done ++ rest ∧
    (err = none ↔ rest = [])

theorem insertBatches_submits (col : GoString) (bs : List (List LogEntry))
    (hne : ∀ batch ∈ bs, batch ≠ []) : ∀ (i : ℕ) (w : World),
    Submits w col bs.flatten (insertBatches b col i bs w).1 (insertBatches b col i bs w).2 := by
  induction bs with
  | nil =>
    intro i w
    exact ⟨[], [], [], .refl w, rfl, rfl, rfl, by simp [insertBatches]⟩
  | cons batch bs ih =>
    intro i w
    rw [insertBatches]
    rcases hread : b.createDocuments w.tick col batch with _ | read
    · -- the batch fails: nothing of it counts, and nothing comes after
      refine ⟨_, [], batch ++ bs.flatten, .record w _, rfl, rfl, rfl, ?_⟩
      simp [hne batch List.mem_cons_self]
    · obtain ⟨calls, done, rest, hmade, hhanded, hacc, hsplit, herr⟩ :=
        ih (fun bt hbt => hne bt (List.mem_cons_of_mem _ hbt)) (i + 1)
          (w.record (.createDocuments col batch (some read)))
      refine ⟨_, batch ++ done, rest, (Made.record w _).trans hmade, ?_, ?_, ?_, herr⟩
      · rw [List.filterMap_append, hhanded]
        rfl
      · rw [List.flatMap_append, hacc, List.map_append]
        simp [Call.accepted]
      · rw [List.flatten_cons, hsplit, List.append_assoc]

/-- Cutting a list into slices of one length, from the front. -/
theorem flatten_slices {α : Type} (l : List α) (n m : ℕ) :
    ((List.range m).map fun i => (l.drop (i * n)).take n).flatten = l.take (m * n) := by
  induction m with
  | zero => simp
  | succ m ih =>
    rw [List.range_succ, List.map_append, List.flatten_append, ih, Nat.succ_mul, List.take_add]
    simp

theorem flatten_batches (entries : List LogEntry) : (batches entries).flatten = entries := by
  rw [batches, flatten_slices, List.take_of_length_le]
  rw [batchSize]
  omega

theorem batches_ne_nil {entries batch : List LogEntry} (h : batch ∈ batches entries) :
    batch ≠ [] := by
  obtain ⟨i, hi, rfl⟩ := List.mem_map.mp h
  rw [List.mem_range, batchSize] at hi
  rw [← List.length_pos_iff, List.length_take, List.length_drop, batchSize]
  omega

/-- **`BulkCreate` submits its entries in order**, up to the first request that fails. -/
theorem bulkCreate_submits (w : World) {col : GoString} (hcol : col ≠ []) (ttlDays : ℤ)
    (entries : List LogEntry) :
    Submits w col entries (bulkCreate b w col ttlDays entries).1
      (bulkCreate b w col ttlDays entries).2 := by
  rw [bulkCreate]
  by_cases hnil : entries = []
  · rw [if_pos hnil]
    exact ⟨[], [], [], .refl w, rfl, rfl, hnil, by simp⟩
  · rw [if_neg hnil]
    dsimp only
    rw [if_neg hcol]
    obtain ⟨calls, hmade, hprepares⟩ := ensureETLCollection_made b w col ttlDays
    obtain ⟨hhanded, hacc⟩ := Silent.of_prepares hprepares
    rcases hens : ensureETLCollection b w col ttlDays with ⟨_ | err, w₁⟩
    · rw [hens] at hmade
      dsimp only
      split_ifs
      · obtain ⟨calls', done, rest, hmade', hhanded', hacc', hsplit, herr⟩ :=
          insertBatches_submits b col (batches entries) (fun _ => batches_ne_nil) 0 w₁.read
        rw [flatten_batches] at hsplit
        refine ⟨_, done, rest, (hmade.trans (.read w₁)).trans hmade', ?_, ?_, hsplit, herr⟩
        · rw [List.append_nil, List.filterMap_append, hhanded, hhanded', List.append_nil]
        · rw [List.append_nil, List.flatMap_append, hacc, hacc', List.nil_append]
      · refine ⟨_, [], entries, hmade.trans (.read w₁), ?_, ?_, rfl, by simp [hnil]⟩
        · rw [List.append_nil, hhanded]
        · rw [List.append_nil, hacc, List.map_nil]
    · rw [hens] at hmade
      exact ⟨calls, [], entries, hmade, hhanded, hacc, rfl, by simp [hnil]⟩

/-! ### All collections -/

/-- The documents of the groups of a map. -/
def groupDocuments (gs : List (GoString × ArangoWriteGroup)) : List (GoString × List LogEntry) :=
  gs.map fun g => (g.1, g.2.entries)

namespace Handler

/-- **The collections are written one after the other**, and the first error ends it. -/
theorem flushArango_written (gs : List (GoString × ArangoWriteGroup))
    (hgs : ∀ g ∈ gs, g.2.collection = g.1 ∧ g.1 ≠ []) : ∀ (stats : ProcessStats) (w : World),
    ∃ calls, Made w calls (flushArango b stats w gs).2 ∧ calls.filterMap Call.handed = [] ∧
      match (flushArango b stats w gs).1.2 with
      | none => calls.flatMap Call.accepted = flat (groupDocuments gs)
      | some err => ∃ before after done rest,
          groupDocuments gs = before ++ (err.collection, done ++ rest) :: after ∧ rest ≠ [] ∧
          calls.flatMap Call.accepted = flat before ++ done.map (err.collection, ·) := by
  induction gs with
  | nil =>
    intro stats w
    exact ⟨[], .refl w, rfl, rfl⟩
  | cons g gs ih =>
    intro stats w
    obtain ⟨hname, hne⟩ := hgs g List.mem_cons_self
    obtain ⟨col, g⟩ := g
    obtain ⟨calls, done, rest, hmade, hhanded, hacc, hsplit, herr⟩ :=
      bulkCreate_submits b w (hname ▸ hne : g.collection ≠ []) g.ttlDays g.entries
    obtain rfl : g.collection = col := hname
    rw [flushArango]
    rcases hbulk : bulkCreate b w g.collection g.ttlDays g.entries with ⟨_ | err, w₁⟩
    · -- the group went through, and the others follow
      rw [hbulk] at hmade herr
      have hall : g.entries = done := by rw [hsplit, herr.mp rfl, List.append_nil]
      obtain ⟨calls', hmade', hhanded', hrest⟩ :=
        ih (fun g' hg' => hgs g' (List.mem_cons_of_mem _ hg'))
          { stats with arango := stats.arango + g.entries.length } w₁
      refine ⟨calls ++ calls', hmade.trans hmade', ?_, ?_⟩
      · rw [List.filterMap_append, hhanded, hhanded', List.append_nil]
      · dsimp only
        rw [List.flatMap_append, hacc, ← hall]
        split at hrest
        · rw [hrest]
          rfl
        · obtain ⟨before, after, done', rest', hgroups, hrest', hacc'⟩ := hrest
          refine ⟨(g.collection, g.entries) :: before, after, done', rest', ?_, hrest', ?_⟩
          · exact congrArg ((g.collection, g.entries) :: ·) hgroups
          · rw [hacc', flat_cons, List.append_assoc]
    · -- the group failed half way, and nothing after it is tried
      rw [hbulk] at hmade herr
      refine ⟨calls, hmade, hhanded, [], groupDocuments gs, done, rest, ?_, ?_, hacc⟩
      · rw [← hsplit]
        rfl
      · simpa using herr

/-! ### The lake -/

theorem lakeIngest_made (events : List HECEvent) (w : World) :
    ∃ ok, lakeIngest b w events = (ok, w.record (.ingest events ok)) := ⟨_, rfl⟩

theorem flushRaw_made (h : Handler) {events : List HECEvent}
    (hevents : h.lakeClient = false → events = []) (stats : ProcessStats) (w : World) :
    ∃ calls, Made w calls (h.flushRaw b events stats w).2 ∧
      calls.filterMap Call.handed = (if events = [] then [] else [events]) ∧
      calls.flatMap Call.accepted = [] := by
  rw [flushRaw]
  split_ifs with hdo hnil
  · exact absurd hnil hdo.1
  · obtain ⟨ok, hlake⟩ := lakeIngest_made b events w
    refine ⟨[.ingest events ok], ?_, rfl, rfl⟩
    rw [hlake]
    cases ok <;> exact .record w _
  · exact ⟨[], .refl w, rfl, rfl⟩
  · refine absurd ⟨‹_›, ?_⟩ hdo
    by_contra hlake
    exact ‹¬events = []› (hevents (by simpa using hlake))

theorem flushNgx_made (gs : List (GoString × List HECEvent)) :
    ∀ (stats : ProcessStats) (w : World), ∃ calls, Made w calls (flushNgx b stats w gs).2 ∧
      calls.filterMap Call.handed = gs.map Prod.snd ∧ calls.flatMap Call.accepted = [] := by
  induction gs with
  | nil =>
    intro stats w
    exact ⟨[], .refl w, rfl, rfl⟩
  | cons g gs ih =>
    intro stats w
    obtain ⟨index, events⟩ := g
    have hstep : ∀ (stats' : ProcessStats) (ok : Bool), ∃ calls,
        Made w calls (flushNgx b stats' (w.record (.ingest events ok)) gs).2 ∧
        calls.filterMap Call.handed = events :: gs.map Prod.snd ∧
        calls.flatMap Call.accepted = [] := by
      intro stats' ok
      obtain ⟨calls, hmade, hhanded, hacc⟩ := ih stats' (w.record (.ingest events ok))
      refine ⟨_, (Made.record w _).trans hmade, ?_, ?_⟩
      · rw [List.filterMap_append, hhanded]
        rfl
      · rw [List.flatMap_append, hacc]
        rfl
    obtain ⟨ok, hlake⟩ := lakeIngest_made b events w
    rw [flushNgx, hlake]
    cases ok with
    | true => exact hstep _ true
    | false => exact hstep _ false

end Handler

/-! ### The whole flush -/

/-- Calls that hand events to the client of the lake: the raw ones first, in one call, and those of each
index in one call. -/
structure Posts (calls : List Call) (raw : List HECEvent) (ngx : List (GoString × HECEvent)) :
    Prop where
  accepted : calls.flatMap Call.accepted = []
  handed : ∃ groups, Grouped groups ngx ∧ calls.filterMap Call.handed =
    (if raw = [] then [] else [raw]) ++ groups.map Prod.snd

namespace Posts

variable {calls : List Call} {raw : List HECEvent} {ngx : List (GoString × HECEvent)}

/-- All events are handed over, those of an index in their order. -/
theorem flatten_handed (h : Posts calls raw ngx) : ∃ sent,
    (calls.filterMap Call.handed).flatten = raw ++ sent.map Prod.snd ∧
      ∀ index, under index sent = under index ngx := by
  obtain ⟨groups, hgrouped, hhanded⟩ := h.handed
  refine ⟨flat groups, ?_, hgrouped.under_flat⟩
  have hraw : (if raw = [] then [] else [raw]).flatten = raw := by
    split_ifs with hnil
    · exact hnil.symm
    · exact List.flatten_singleton
  rw [hhanded, List.flatten_append, hraw, flat, List.map_flatMap, List.flatMap_def]
  simp [Function.comp_def]

end Posts

/-- The documents of the groups, as a map holds them. -/
theorem Accumulated.grouped {acc : Pending} {raw : List HECEvent}
    {ngx : List (GoString × HECEvent)} {docs : List (GoString × LogEntry)}
    (hacc : Accumulated acc raw ngx docs) (r : MapRange) :
    Grouped (groupDocuments (r.entries acc.arangoGroups)) docs := by
  refine hacc.arango.grouped ?_ fun col entries => ?_
  · rw [groupDocuments, List.map_map]
    exact r.nodup_keys acc.arangoGroups
  · rw [groupDocuments, List.mem_map, Option.map_eq_some_iff]
    constructor
    · rintro ⟨⟨col', g⟩, hg, heq⟩
      obtain ⟨rfl, rfl⟩ := Prod.mk.inj heq
      exact ⟨g, (r.mem_entries _ _ _).mp hg, rfl⟩
    · rintro ⟨g, hg, rfl⟩
      exact ⟨(col, g), (r.mem_entries _ _ _).mpr hg, rfl⟩

/-- **What a flush writes**: every event is handed over, and then come the documents, all of them or up to
an error. Without a repository there is no document and no error. -/
theorem Handler.flush_written (h : Handler) {acc : Pending} {raw : List HECEvent}
    {ngx : List (GoString × HECEvent)} {docs : List (GoString × LogEntry)}
    (hacc : Accumulated acc (h.toLake raw) (h.toLake ngx) docs) (hdocs : ∀ d ∈ docs, d.1 ≠ [])
    (r : MapRange) (w : World) :
    ∃ lake arango, Made w (lake ++ arango) (h.flush r b acc w).2 ∧
      Posts lake (h.toLake raw) (h.toLake ngx) ∧ arango.filterMap Call.handed = [] ∧
      match (h.flush r b acc w).1.2 with
      | none => h.logRepo = true →
          ∀ col, under col (arango.flatMap Call.accepted) = under col docs
      | some err => CutShort (arango.flatMap Call.accepted) docs err.collection := by
  -- the raw events
  obtain ⟨calls₁, hmade₁, hhanded₁, hacc₁⟩ := @flushRaw_made b h acc.rawNgxEvents
    (fun hlake => by rw [hacc.raw, h.toLake_of_not (by simp [hlake])]) acc.stats w
  rcases hflush₁ : h.flushRaw b acc.rawNgxEvents acc.stats w with ⟨stats₁, w₁⟩
  rw [hflush₁] at hmade₁
  -- the processed events
  have hngx : ∃ calls₂ groups, Made w₁ calls₂ (if h.lakeClient then
        flushNgx b stats₁ w₁ (r.entries acc.etlNgxEvents) else (stats₁, w₁)).2 ∧
      calls₂.filterMap Call.handed = groups.map Prod.snd ∧ calls₂.flatMap Call.accepted = [] ∧
      Grouped groups (h.toLake ngx) := by
    by_cases hlake : h.lakeClient = true
    · obtain ⟨calls₂, hmade₂, hhanded₂, hacc₂⟩ :=
        flushNgx_made b (r.entries acc.etlNgxEvents) stats₁ w₁
      rw [if_pos hlake]
      refine ⟨calls₂, _, hmade₂, hhanded₂, hacc₂, ?_⟩
      exact hacc.ngx.grouped (r.nodup_keys _) fun index events => r.mem_entries _ index events
    · rw [if_neg hlake, h.toLake_of_not hlake]
      exact ⟨[], [], .refl w₁, rfl, rfl, List.nodup_nil, by simp⟩
  obtain ⟨calls₂, groups, hmade₂, hhanded₂, hacc₂, hgroups⟩ := hngx
  rw [flush, hflush₁]
  dsimp only
  rcases hflush₂ : (if h.lakeClient then flushNgx b stats₁ w₁ (r.entries acc.etlNgxEvents)
    else (stats₁, w₁)) with ⟨stats₂, w₂⟩
  rw [hflush₂] at hmade₂
  dsimp only
  have hlake : Posts (calls₁ ++ calls₂) (h.toLake raw) (h.toLake ngx) := by
    refine ⟨?_, groups, hgroups, ?_⟩
    · rw [List.flatMap_append, hacc₁, hacc₂, List.append_nil]
    · rw [List.filterMap_append, hhanded₁, hhanded₂, hacc.raw]
  -- the documents
  by_cases hrepo : h.logRepo = true
  · rw [if_pos hrepo]
    have hgrouped := hacc.grouped r
    have hnames : ∀ g ∈ r.entries acc.arangoGroups, g.2.collection = g.1 ∧ g.1 ≠ [] := by
      rintro ⟨col, g⟩ hg
      refine ⟨hacc.collection col g ((r.mem_entries _ _ _).mp hg), ?_⟩
      -- a group is never empty, and none of its documents lacks a collection
      obtain ⟨heq, hne⟩ := (hgrouped.mem_iff col g.entries).mp (List.mem_map.mpr ⟨_, hg, rfl⟩)
      obtain ⟨d, hd⟩ := List.exists_mem_of_ne_nil _ hne
      rw [heq, mem_under] at hd
      exact hdocs _ hd
    obtain ⟨calls₃, hmade₃, hhanded₃, hret⟩ := flushArango_written b _ hnames stats₂ w₂
    refine ⟨calls₁ ++ calls₂, calls₃, (hmade₁.trans hmade₂).trans hmade₃, hlake, hhanded₃, ?_⟩
    split at hret
    · intro _ col
      rw [hret, hgrouped.under_flat]
    · next err _ =>
      obtain ⟨before, after, done, rest, hgroups, hrest, hgot⟩ := hret
      rw [hgroups] at hgrouped
      rw [hgot]
      exact hgrouped.cutShort hrest
  · rw [if_neg hrepo]
    refine ⟨calls₁ ++ calls₂, [], ?_, hlake, rfl, fun hc => absurd hc hrepo⟩
    rw [List.append_nil]
    exact hmade₁.trans hmade₂

end Ingest

end Xsiam
