import Xsiam.Ingest.Fanout

/-!
# How long a collection keeps its documents

A sink names its collection with the days its documents are kept, and what is routed to a collection
in one batch is one group, with the days of the first sink that named it. `BulkCreate` asks for a TTL
index only where `ensureETLCollection` has not met the collection before, in this process. So of
all that is asked for a collection, the first counts (`Xsiam.Ingest.Handler.ingest_retains`), batch after
batch, and nothing counts for a collection that is known already.

The order in which events arrive therefore decides which retention is in force, and it does not
(`Xsiam.Ingest.Handler.retention_unordered`) where all the rules that name a collection ask for the
same one. It is the one they ask for where its seconds fit into an `int`.
-/

namespace Xsiam

namespace Ingest

open Go Etl Grouping

/-! ### Asking for a retention -/

/-- What a number of days asks for, in seconds. -/
def retention (ttlDays : ℤ) : Option ℤ := if 0 < ttlDays then some (ttlDays * 86400) else none

/-- The TTL index that is put on a collection for it: the seconds are an `int`. -/
def ttlIndex (kept : Option ℤ) : Option ℤ := kept.map fun secs => secs.bmod (2 ^ 64)

/-- Seconds that fit into an `int` are not changed. -/
theorem ttlIndex_of_fits {kept : Option ℤ} (h : ∀ secs ∈ kept, secs < 2 ^ 63)
    (hpos : ∀ secs ∈ kept, 0 ≤ secs) : ttlIndex kept = kept := by
  cases kept with
  | none => rfl
  | some secs =>
    have hlt := h secs rfl
    have hle := hpos secs rfl
    exact congrArg some (Int.bmod_eq_of_le (by norm_num; omega) (by norm_num; omega))

theorem retention_nonneg (ttlDays : ℤ) : ∀ secs ∈ retention ttlDays, 0 ≤ secs := by
  rintro secs hsecs
  rw [retention] at hsecs
  split_ifs at hsecs
  · obtain rfl := Option.some.inj hsecs
    omega
  · cases hsecs

/-- What a sink asks of its collection. -/
def sinkAsk (sink : SinkResult) : Option (GoString × ℤ) :=
  if sink.arangoCollection = [] then none else some (sink.arangoCollection, sink.ttlDays)

/-- What is asked first of a collection. -/
def firstAsk (col : GoString) (asks : List (GoString × ℤ)) : Option ℤ := (under col asks).head?

section Asks

variable {col : GoString} {asks asks' : List (GoString × ℤ)}

theorem firstAsk_append :
    firstAsk col (asks ++ asks') = (firstAsk col asks).or (firstAsk col asks') := by
  rw [firstAsk, under_append, List.head?_append]
  rfl

theorem firstAsk_singleton (col' : GoString) (ttlDays : ℤ) :
    firstAsk col [(col', ttlDays)] = if col' = col then some ttlDays else none := by
  rw [firstAsk, under_cons]
  split_ifs <;> rfl

theorem mem_of_firstAsk {ttlDays : ℤ} (h : firstAsk col asks = some ttlDays) :
    (col, ttlDays) ∈ asks := mem_under.mp (List.mem_of_mem_head? h)

theorem firstAsk_eq_none : firstAsk col asks = none ↔ ∀ ttlDays, (col, ttlDays) ∉ asks := by
  rw [firstAsk, List.head?_eq_none_iff, List.eq_nil_iff_forall_not_mem]
  exact forall_congr' fun ttlDays => not_congr mem_under

end Asks

/-! ### The index in force -/

/-- The TTL index that a call puts on a collection. -/
def Call.ttlSet (col : GoString) : Call → Option ℤ
  | .ensureTTLIndex collection expireSecs true => if collection = col then some expireSecs else none
  | _ => none

/-- The TTL index on a collection after some calls: the one that was put there last. -/
def ttlInForce (col : GoString) (calls : List Call) : Option ℤ :=
  (calls.filterMap (Call.ttlSet col)).getLast?

/-- Servers that refuse nothing. -/
structure Backends.Succeeds (b : Backends) : Prop where
  collectionExists : ∀ tick col, b.collectionExists tick col ≠ none
  createCollection : ∀ tick col, b.createCollection tick col = true
  collection : ∀ tick col, b.collection tick col = true
  ensureTTLIndex : ∀ tick col secs, b.ensureTTLIndex tick col secs = true
  createDocuments : ∀ tick col docs, b.createDocuments tick col docs ≠ none

/-- **What was asked has been granted as far as it came first.** Every collection that was not known has
the index its first sink asked for, and is known from there on. -/
structure Retains (w : World) (asks : List (GoString × ℤ)) (w' : World) : Prop where
  calls : ∃ calls, Made w calls w' ∧ ∀ col, calls.filterMap (Call.ttlSet col) =
    if col ∈ w.ensuredCols then [] else (ttlIndex ((firstAsk col asks).bind retention)).toList
  ensured : ∀ col, col ∈ w'.ensuredCols ↔ col ∈ w.ensuredCols ∨ firstAsk col asks ≠ none

namespace Retains

variable {w w₁ w₂ : World} {asks asks' : List (GoString × ℤ)}

/-- Calls that put no index anywhere, and leave the collections as they are. -/
theorem of_calls {calls : List Call} (hmade : Made w calls w₁)
    (hcalls : ∀ c ∈ calls, ∀ col, c.ttlSet col = none) (hens : w₁.ensuredCols = w.ensuredCols) :
    Retains w [] w₁ := by
  refine ⟨⟨calls, hmade, fun col => ?_⟩, fun col => ?_⟩
  · rw [List.filterMap_eq_nil_iff.mpr fun c hc => hcalls c hc col]
    exact (ite_self _).symm
  · rw [hens]
    exact (or_iff_left (not_not.mpr rfl)).symm

theorem refl (w : World) : Retains w [] w := of_calls (.refl w) (by simp) rfl

theorem read (w : World) : Retains w [] w.read := of_calls (.read w) (by simp) rfl

theorem record (w : World) {c : Call} (hc : ∀ col, c.ttlSet col = none) :
    Retains w [] (w.record c) :=
  of_calls (.record w c) (List.forall_mem_singleton.mpr hc) rfl

theorem trans (h : Retains w asks w₁) (h' : Retains w₁ asks' w₂) :
    Retains w (asks ++ asks') w₂ := by
  obtain ⟨calls, hmade, hcalls⟩ := h.calls
  obtain ⟨calls', hmade', hcalls'⟩ := h'.calls
  refine ⟨⟨_, hmade.trans hmade', fun col => ?_⟩, fun col => ?_⟩
  · rw [List.filterMap_append, hcalls, hcalls', firstAsk_append]
    by_cases hknown : col ∈ w.ensuredCols
    · rw [if_pos hknown, if_pos ((h.ensured col).mpr (.inl hknown)), if_pos hknown, List.append_nil]
    · rw [if_neg hknown, if_neg hknown]
      -- who asks second finds the collection known
      cases hfirst : firstAsk col asks with
      | some ttlDays =>
        rw [if_pos ((h.ensured col).mpr (.inr (by simp [hfirst]))), Option.some_or, List.append_nil]
      | none =>
        have hstill : col ∉ w₁.ensuredCols := by simp [h.ensured, hknown, hfirst]
        rw [if_neg hstill, Option.none_or]
        rfl
  · rw [h'.ensured, h.ensured, firstAsk_append, or_assoc, ne_eq, ne_eq, ne_eq, Option.or_eq_none_iff,
      not_and_or]

/-- Only what is asked first of each collection matters. -/
theorem congr (h : Retains w asks w₁) (hasks : ∀ col, firstAsk col asks = firstAsk col asks') :
    Retains w asks' w₁ := by
  obtain ⟨calls, hmade, hcalls⟩ := h.calls
  exact ⟨⟨calls, hmade, fun col => by rw [hcalls, hasks]⟩, fun col => by rw [h.ensured, hasks]⟩

/-- **The index in force**: what it was where the collection was known, or nothing was asked of it;
otherwise what was asked first. -/
theorem ttlInForce_eq (h : Retains w asks w₁) (col : GoString) :
    ttlInForce col w₁.calls = if col ∈ w.ensuredCols then ttlInForce col w.calls
      else (ttlIndex ((firstAsk col asks).bind retention)).or (ttlInForce col w.calls) := by
  obtain ⟨calls, hmade, hcalls⟩ := h.calls
  rw [ttlInForce, hmade, List.filterMap_append, List.getLast?_append, hcalls]
  split_ifs
  · rfl
  · cases ttlIndex ((firstAsk col asks).bind retention) <;> rfl

end Retains

/-! ### One collection -/

section Repository

variable {b : Backends} (hb : b.Succeeds)

include hb

theorem ensureExists_retains (w : World) (col : GoString) :
    (ensureExists b w col).1 = none ∧ Retains w [] (ensureExists b w col).2 := by
  rw [ensureExists]
  split
  · next hnone => exact absurd hnone (hb.collectionExists _ _)
  · exact ⟨rfl, .read w⟩
  · exact ⟨if_pos (hb.createCollection _ _), (Retains.read w).trans (.record w.read fun _ => rfl)⟩

/-- The index is put on the collection, where days are asked for at all. -/
theorem ensureTTL_sets (w : World) (col : GoString) (ttlDays : ℤ) :
    (ensureTTL b w col ttlDays).1 = none ∧
      (ensureTTL b w col ttlDays).2.ensuredCols = w.ensuredCols ∧
      ∃ calls, Made w calls (ensureTTL b w col ttlDays).2 ∧ ∀ col',
        calls.filterMap (Call.ttlSet col') =
          if col = col' then (ttlIndex (retention ttlDays)).toList else [] := by
  rw [ensureTTL, retention]
  split_ifs with hdays hopen
  · refine ⟨rfl, rfl, _, (Made.read w).trans (.record w.read _), fun col' => ?_⟩
    rw [hb.ensureTTLIndex]
    by_cases heq : col = col' <;> simp [Call.ttlSet, ttlIndex, heq]
  · exact absurd (hb.collection _ _) hopen
  · exact ⟨rfl, rfl, [], .refl w, fun col' => (ite_self _).symm⟩

/-- **A collection that is ensured has what it is asked for, unless it is known.** -/
theorem ensureETLCollection_retains (w : World) (col : GoString) (ttlDays : ℤ) :
    (ensureETLCollection b w col ttlDays).1 = none ∧
      Retains w [(col, ttlDays)] (ensureETLCollection b w col ttlDays).2 := by
  have hask : ∀ col', firstAsk col' [(col, ttlDays)] ≠ none ↔ col' = col := fun col' => by
    rw [firstAsk_singleton]
    by_cases heq : col = col' <;> simp [heq, eq_comm]
  rw [ensureETLCollection]
  split_ifs with hknown
  · refine ⟨rfl, ⟨[], .refl w, fun col' => ?_⟩, fun col' => ?_⟩
    · by_cases hw : col' ∈ w.ensuredCols
      · rw [if_pos hw]
        rfl
      · have hnone := (not_congr (hask col')).mpr fun heq => hw (heq ▸ hknown)
        rw [if_neg hw, not_not.mp hnone]
        rfl
    · rw [hask]
      exact (or_iff_left_of_imp fun heq => heq ▸ hknown).symm
  · obtain ⟨hexists, hretains⟩ := ensureExists_retains hb w col
    generalize ensureExists b w col = existing at *
    obtain ⟨_, w₁⟩ := existing
    obtain rfl := hexists
    dsimp only at hretains ⊢
    obtain ⟨hnone, hens, calls, hmade, hsets⟩ := ensureTTL_sets hb w₁ col ttlDays
    generalize ensureTTL b w₁ col ttlDays = indexed at *
    obtain ⟨_, w₂⟩ := indexed
    obtain rfl := hnone
    dsimp only at hens hmade ⊢
    -- nothing is put on another collection, and nothing was on this one
    have hindex : Retains w₁ [(col, ttlDays)] (w₂.ensured col) := by
      have hnew : col ∉ w₁.ensuredCols := by
        rw [hretains.ensured]
        exact not_or.mpr ⟨hknown, not_not.mpr rfl⟩
      refine ⟨⟨_, hmade.trans (.ensured w₂ col), fun col' => ?_⟩, fun col' => ?_⟩
      · rw [List.append_nil, hsets, firstAsk_singleton]
        by_cases heq : col = col'
        · subst heq
          rw [if_pos rfl, if_neg hnew, if_pos rfl, Option.bind_some]
        · rw [if_neg heq, if_neg heq]
          exact (ite_self _).symm
      · rw [hask, World.ensured, List.mem_cons, hens, or_comm]
    exact ⟨rfl, hretains.trans hindex⟩

theorem insertBatches_retains (col : GoString) (bs : List (List LogEntry)) : ∀ (i : ℕ) (w : World),
    (insertBatches b col i bs w).1 = none ∧ Retains w [] (insertBatches b col i bs w).2 := by
  induction bs with
  | nil => exact fun _ w => ⟨rfl, .refl w⟩
  | cons batch bs ih =>
    intro i w
    rw [insertBatches]
    cases hread : b.createDocuments w.tick col batch with
    | none => exact absurd hread (hb.createDocuments _ _ _)
    | some read =>
      obtain ⟨hnone, hretains⟩ := ih (i + 1) (w.record (.createDocuments col batch (some read)))
      exact ⟨hnone, (Retains.record w fun _ => rfl).trans hretains⟩

/-- **`BulkCreate` asks for the days of its group**, where it has something to insert. -/
theorem bulkCreate_retains (w : World) {col : GoString} (hcol : col ≠ []) (ttlDays : ℤ)
    {entries : List LogEntry} (hne : entries ≠ []) :
    (bulkCreate b w col ttlDays entries).1 = none ∧
      Retains w [(col, ttlDays)] (bulkCreate b w col ttlDays entries).2 := by
  rw [bulkCreate, if_neg hne]
  dsimp only
  rw [if_neg hcol]
  obtain ⟨hens, hretains⟩ := ensureETLCollection_retains hb w col ttlDays
  generalize ensureETLCollection b w col ttlDays = ensured at *
  obtain ⟨_, w₁⟩ := ensured
  obtain rfl := hens
  dsimp only at hretains ⊢
  rw [if_pos (hb.collection _ _)]
  obtain ⟨hnone, hinsert⟩ := insertBatches_retains hb col (batches entries) 0 w₁.read
  exact ⟨hnone, (hretains.trans (.read w₁)).trans hinsert⟩

end Repository

/-! ### The groups of a batch -/

/-- The groups are open on what was asked: each of them has the days that were asked for first, and
something to write. -/
structure Opened (groups : GoMap ArangoWriteGroup) (asks : List (GoString × ℤ)) : Prop where
  days : ∀ col, (groups[col]?).map (·.ttlDays) = firstAsk col asks
  groups : ∀ (col : GoString) (g : ArangoWriteGroup), groups[col]? = some g →
    g.collection = col ∧ col ≠ [] ∧ g.entries ≠ []

namespace Opened

variable {asks : List (GoString × ℤ)}

theorem empty : Opened ∅ [] := by
  have hnone : ∀ col : GoString, (∅ : GoMap ArangoWriteGroup)[col]? = none := fun _ =>
    Std.ExtTreeMap.getElem?_empty
  exact ⟨fun col => by rw [hnone]; rfl, fun col g hg => absurd ((hnone col).symm.trans hg) (by simp)⟩

/-- **A group keeps the days it was opened with.** -/
theorem addArango {acc : Pending} (h : Opened acc.arangoGroups asks) (e : LogEntry) {col : GoString}
    (hcol : col ≠ []) (ttlDays : ℤ) :
    Opened (Handler.addArango e col ttlDays acc).arangoGroups (asks ++ [(col, ttlDays)]) := by
  rw [Handler.addArango, if_pos hcol]
  dsimp only
  set g := (acc.arangoGroups[col]?).getD ⟨col, ttlDays, []⟩ with hg
  have hdays : some g.ttlDays = (firstAsk col asks).or (some ttlDays) := by
    rw [hg, ← h.days]
    cases acc.arangoGroups[col]? <;> rfl
  have hname : g.collection = col := by
    rw [hg]
    cases hlook : acc.arangoGroups[col]? with
    | none => rfl
    | some g' => exact (h.groups col g' hlook).1
  refine ⟨fun col' => ?_, fun col' g' hg' => ?_⟩
  · rw [GoMap.getElem?_insert, firstAsk_append, firstAsk_singleton]
    by_cases heq : col' = col
    · subst heq
      rw [if_pos rfl, if_pos rfl]
      exact hdays
    · rw [if_neg heq, if_neg (Ne.symm heq), h.days, Option.or_none]
  · rw [GoMap.getElem?_insert] at hg'
    split_ifs at hg' with heq
    · subst heq
      rw [← Option.some.inj hg']
      exact ⟨hname, hcol, by simp⟩
    · exact h.groups col' g' hg'

/-- The asks of the groups, in whatever order they are visited, are first asks. -/
theorem firstAsk_entries {groups : GoMap ArangoWriteGroup} (h : Opened groups asks) (r : MapRange)
    (col : GoString) :
    firstAsk col ((r.entries groups).map fun g => (g.2.collection, g.2.ttlDays)) =
      firstAsk col asks := by
  rw [← h.days]
  cases hlook : groups[col]? with
  | none =>
    refine firstAsk_eq_none.mpr fun ttlDays hask => ?_
    obtain ⟨⟨col', g⟩, hg, heq⟩ := List.mem_map.mp hask
    obtain ⟨rfl, rfl⟩ := Prod.mk.inj heq
    have hentry := (r.mem_entries groups col' g).mp hg
    rw [(h.groups col' g hentry).1, hentry] at hlook
    exact absurd hlook (by simp)
  | some g =>
    obtain ⟨hname, -⟩ := h.groups col g hlook
    have hmem : (col, g.ttlDays) ∈
        (r.entries groups).map fun g => (g.2.collection, g.2.ttlDays) :=
      List.mem_map.mpr ⟨(col, g), (r.mem_entries groups col g).mpr hlook, by rw [hname]⟩
    cases hfirst : firstAsk col ((r.entries groups).map fun g => (g.2.collection, g.2.ttlDays)) with
    | none => exact absurd hmem (firstAsk_eq_none.mp hfirst g.ttlDays)
    | some ttlDays =>
      -- there is one group under a name
      obtain ⟨⟨col', g'⟩, hg', heq⟩ := List.mem_map.mp (mem_of_firstAsk hfirst)
      obtain ⟨rfl, rfl⟩ := Prod.mk.inj heq
      have hentry := (r.mem_entries groups col' g').mp hg'
      rw [(h.groups col' g' hentry).1, hentry] at hlook
      rw [Option.some.inj hlook]
      rfl

end Opened

/-- What a routed row asks for. -/
def Routed.asks (x : Routed) : List (GoString × ℤ) := x.res.sinks.filterMap sinkAsk

namespace Handler

variable (h : Handler) (batch : Batch)

theorem arangoGroups_addRaw (entry : LogEntry) (index : GoString) (acc : Pending) :
    (h.addRaw batch entry index acc).arangoGroups = acc.arangoGroups := by
  rw [addRaw]
  split_ifs <;> rfl

theorem arangoGroups_addNgx (e : LogEntry) (index : GoString) (acc : Pending) :
    (h.addNgx batch e index acc).arangoGroups = acc.arangoGroups := by
  rw [addNgx]
  split_ifs <;> rfl

variable {h batch}

theorem opened_addSink {acc : Pending} {asks : List (GoString × ℤ)}
    (hacc : Opened acc.arangoGroups asks) (sink : SinkResult) :
    Opened (h.addSink batch acc sink).arangoGroups (asks ++ (sinkAsk sink).toList) := by
  have hngx : Opened (h.addNgx batch sink.entry sink.ngxIndex acc).arangoGroups asks := by
    rwa [arangoGroups_addNgx]
  rw [addSink, sinkAsk]
  by_cases hcol : sink.arangoCollection = []
  · rw [addArango, if_neg (not_not.mpr hcol), if_pos hcol]
    simpa using hngx
  · rw [if_neg hcol]
    exact hngx.addArango sink.entry hcol sink.ttlDays

theorem opened_addSinks {sinks : List SinkResult} : ∀ {acc : Pending} {asks : List (GoString × ℤ)},
    Opened acc.arangoGroups asks →
      Opened (sinks.foldl (h.addSink batch) acc).arangoGroups (asks ++ sinks.filterMap sinkAsk) := by
  induction sinks with
  | nil =>
    intro acc asks hacc
    simpa using hacc
  | cons sink sinks ih =>
    intro acc asks hacc
    have hrest := ih (@opened_addSink h batch _ _ hacc sink)
    rwa [List.append_assoc, ← Accumulated.filterMap_cons_toList] at hrest

theorem opened_addRouted {acc : Pending} {asks : List (GoString × ℤ)}
    (hacc : Opened acc.arangoGroups asks) {x : Routed} (hx : h.Routes x) :
    Opened (h.addRouted batch acc x).arangoGroups (asks ++ x.asks) := by
  rw [addRouted, Routed.asks]
  cases hp : h.pipeline with
  | none =>
    rw [if_neg (by simp), (hx.bare hp).2, List.filterMap_nil, List.append_nil, arangoGroups_addRaw]
    exact hacc
  | some p =>
    rw [if_pos Option.isSome_some, addResult]
    have hraw : Opened (if x.res.rawNgxIndex ≠ [] then
        h.addRaw batch x.entry x.res.rawNgxIndex acc else acc).arangoGroups asks := by
      split_ifs
      · rwa [arangoGroups_addRaw]
      · exact hacc
    dsimp only
    by_cases hnone : x.res.etlEntry = none
    · rw [if_pos (by simp [hnone]), hx.sinks hnone, List.filterMap_nil, List.append_nil]
      exact hraw
    · rw [if_neg (by simpa using hnone)]
      exact opened_addSinks hraw

theorem opened_addRouteds {xs : List Routed} : ∀ {acc : Pending} {asks : List (GoString × ℤ)},
    Opened acc.arangoGroups asks → (∀ x ∈ xs, h.Routes x) →
      Opened (xs.foldl (h.addRouted batch) acc).arangoGroups (asks ++ xs.flatMap Routed.asks) := by
  induction xs with
  | nil =>
    intro acc asks hacc _
    simpa using hacc
  | cons x xs ih =>
    intro acc asks hacc hxs
    obtain ⟨hx, hrest⟩ := List.forall_mem_cons.mp hxs
    have hall := ih (@opened_addRouted h batch _ _ hacc _ hx) hrest
    rwa [List.append_assoc, ← List.flatMap_cons] at hall

end Handler

/-! ### Batch after batch -/

/-- A batch that arrives, and the order in which its maps are ranged over. -/
structure Submission where
  range : MapRange
  batch : Batch
  rows : List (List GoString)

namespace Handler

variable (h : Handler) (b : Backends)

/-- Batches, one after the other. -/
def ingest : List Submission → ExecState → World → ExecState × World
  | [], st, w => (st, w)
  | s :: ss, st, w =>
    let p := h.process s.range b s.batch s.rows st w
    ingest ss p.st p.world

/-- What a batch is routed to. -/
def routed (s : Submission) (st : ExecState) : Option (List Routed) × ExecState :=
  h.routeRows s.batch st (s.rows.filter (· ≠ []))

/-- What a batch asks for. A batch on which a script panics asks for nothing. -/
def asked (s : Submission) (st : ExecState) : List (GoString × ℤ) :=
  if h.logRepo then ((h.routed s st).1.getD []).flatMap Routed.asks else []

/-- What batches ask for, one after the other. -/
def allAsked : List Submission → ExecState → List (GoString × ℤ)
  | [], _ => []
  | s :: ss, st => h.asked s st ++ allAsked ss (h.routed s st).2

variable {h b}

theorem process_st (s : Submission) (st : ExecState) (w : World) :
    (h.process s.range b s.batch s.rows st w).st = (h.routed s st).2 := by
  rw [process, addRows_eq, routed]
  cases (h.routeRows s.batch st (s.rows.filter (· ≠ []))).1 <;> rfl

theorem lakeIngest_retains (w : World) (events : List HECEvent) :
    Retains w [] (lakeIngest b w events).2 := .record w fun _ => rfl

theorem flushRaw_retains (events : List HECEvent) (stats : ProcessStats) (w : World) :
    Retains w [] (h.flushRaw b events stats w).2 := by
  rw [flushRaw]
  split_ifs
  · have hlake := @lakeIngest_retains b w events
    rcases hingest : lakeIngest b w events with ⟨_ | _, w₁⟩
    all_goals
      rw [hingest] at hlake
      exact hlake
  · exact .refl w

theorem flushNgx_retains (gs : List (GoString × List HECEvent)) : ∀ (stats : ProcessStats)
    (w : World), Retains w [] (flushNgx b stats w gs).2 := by
  induction gs with
  | nil => exact fun _ w => .refl w
  | cons g gs ih =>
    intro stats w
    obtain ⟨index, events⟩ := g
    have hlake := @lakeIngest_retains b w events
    rw [flushNgx]
    rcases hingest : lakeIngest b w events with ⟨_ | _, w₁⟩
    all_goals
      rw [hingest] at hlake
      exact hlake.trans (ih _ w₁)

/-- **Every group asks for its days.** -/
theorem flushArango_retains (hb : b.Succeeds) (gs : List (GoString × ArangoWriteGroup))
    (hgs : ∀ g ∈ gs, g.2.collection ≠ [] ∧ g.2.entries ≠ []) : ∀ (stats : ProcessStats) (w : World),
    Retains w (gs.map fun g => (g.2.collection, g.2.ttlDays)) (flushArango b stats w gs).2 := by
  induction gs with
  | nil => exact fun _ w => .refl w
  | cons g gs ih =>
    intro stats w
    obtain ⟨⟨hcol, hne⟩, hrest⟩ := List.forall_mem_cons.mp hgs
    obtain ⟨hnone, hretains⟩ := bulkCreate_retains hb w hcol g.2.ttlDays hne
    obtain ⟨col, g⟩ := g
    rw [flushArango]
    generalize bulkCreate b w g.collection g.ttlDays g.entries = created at *
    obtain ⟨_, w₁⟩ := created
    obtain rfl := hnone
    exact hretains.trans (ih hrest _ w₁)

theorem flush_retains (hb : b.Succeeds) {acc : Pending} {asks : List (GoString × ℤ)}
    (hacc : Opened acc.arangoGroups asks) (r : MapRange) (w : World) :
    Retains w (if h.logRepo then asks else []) (h.flush r b acc w).2 := by
  rw [flush]
  have hraw := @flushRaw_retains h b acc.rawNgxEvents acc.stats w
  generalize h.flushRaw b acc.rawNgxEvents acc.stats w = sent at *
  obtain ⟨stats, w₁⟩ := sent
  dsimp only at hraw ⊢
  have hngx : Retains w₁ [] (if h.lakeClient then flushNgx b stats w₁ (r.entries acc.etlNgxEvents)
      else (stats, w₁)).2 := by
    split_ifs
    · exact flushNgx_retains _ stats w₁
    · exact .refl w₁
  generalize (if h.lakeClient then flushNgx b stats w₁ (r.entries acc.etlNgxEvents)
    else (stats, w₁)) = posted at *
  obtain ⟨stats, w₂⟩ := posted
  dsimp only at hngx ⊢
  split_ifs
  · have harango := flushArango_retains hb (r.entries acc.arangoGroups) (fun g hg => by
      obtain ⟨hname, hcol, hne⟩ := hacc.groups g.1 g.2 ((r.mem_entries _ _ _).mp hg)
      exact ⟨hname ▸ hcol, hne⟩) stats w₂
    exact ((hraw.trans hngx).trans harango).congr fun col => hacc.firstAsk_entries r col
  · exact hraw.trans hngx

/-- **A batch gets what its rows ask for first.** -/
theorem process_retains (hb : b.Succeeds) (s : Submission) (st : ExecState) (w : World) :
    Retains w (h.asked s st) (h.process s.range b s.batch s.rows st w).world := by
  rw [process, addRows_eq, asked, routed]
  cases hxs : (h.routeRows s.batch st (s.rows.filter (· ≠ []))).1 with
  | none =>
    dsimp only [Option.getD_none, Option.map_none]
    rw [List.flatMap_nil, ite_self]
    exact .refl w
  | some xs =>
    have hopened := @opened_addRouteds h s.batch xs {} [] .empty (h.routeRows_routes _ hxs)
    exact flush_retains hb hopened s.range w

/-- **First come, first served**: whatever the batches and their order, a collection that was not known
has the retention that was asked for first, and the others have what they had. -/
theorem ingest_retains (hb : b.Succeeds) (ss : List Submission) : ∀ (st : ExecState) (w : World),
    Retains w (h.allAsked ss st) (h.ingest b ss st w).2 := by
  induction ss with
  | nil => exact fun _ w => .refl w
  | cons s ss ih =>
    intro st w
    have hrest := ih (h.routed s st).2 (h.process s.range b s.batch s.rows st w).world
    rw [allAsked, ingest, process_st]
    exact (process_retains hb s st w).trans hrest

end Handler

/-! ### Rules that agree -/

/-- What the sinks of an output ask for, the flat fields of an older rule for one sink. -/
def outputAsks (out : ETLOutput) : List (GoString × ℤ) :=
  if out.sinks = [] then [(out.arangoCollection, out.ttlDays)]
  else out.sinks.map fun sink => (sink.arangoCollection, sink.ttlDays)

/-- All the rules of a handler that name a collection ask for the same retention. -/
def Handler.AsksFor (h : Handler) (col : GoString) (kept : Option ℤ) : Prop :=
  ∀ p, h.pipeline = some p → ∀ rule ∈ p.rules, ∀ ask ∈ outputAsks rule.output,
    ask.1 = col → retention ask.2 = kept

section Rules

variable {lib : StdLib}

theorem resolveSinksLoop_asks {e : LogEntry} {sinks : List ETLSink} : ∀ {rs : List SinkResult},
    resolveSinksLoop lib e sinks = some rs → ∀ r ∈ rs, (r.arangoCollection, r.ttlDays) ∈
      sinks.map fun sink => (sink.arangoCollection, sink.ttlDays) := by
  induction sinks with
  | nil =>
    intro rs h r hr
    rw [← Option.some.inj h] at hr
    exact absurd hr List.not_mem_nil
  | cons sink sinks ih =>
    intro rs h r hr
    rw [resolveSinksLoop] at h
    cases hone : resolveSink lib e sink with
    | none => simp [hone] at h
    | some results =>
      rw [hone] at h
      obtain ⟨rest, hrest, rfl⟩ := Option.map_eq_some_iff.mp h
      rw [List.map_cons, List.mem_cons]
      rcases List.mem_append.mp hr with hr | hr
      · left
        rw [resolveSink] at hone
        split_ifs at hone
        · rw [← Option.some.inj hone] at hr
          exact absurd hr List.not_mem_nil
        · obtain ⟨ok, -, rfl⟩ := Option.map_eq_some_iff.mp hone
          split_ifs at hr
          · rw [List.mem_singleton.mp hr]
          · exact absurd hr List.not_mem_nil
      · exact .inr (ih hrest r hr)

/-- A sink is resolved with the days its output asks for. -/
theorem resolveSinks_asks {out : ETLOutput} {e : LogEntry} {rs : List SinkResult}
    (h : resolveSinks lib out e = some rs) :
    ∀ r ∈ rs, (r.arangoCollection, r.ttlDays) ∈ outputAsks out := by
  intro r hr
  rw [resolveSinks] at h
  rw [outputAsks]
  split_ifs at h ⊢
  · rw [← Option.some.inj h] at hr
    exact absurd hr List.not_mem_nil
  · rw [← Option.some.inj h, List.mem_singleton] at hr
    rw [hr]
    exact List.mem_singleton.mpr rfl
  · exact resolveSinksLoop_asks h r hr

/-- The output that an event ends with is one of a rule. -/
theorem output_of_done {p : Pipeline} {st : ExecState} {entry : LogEntry} {tag rawIdx : GoString}
    {out : ETLOutput} {e : LogEntry} (h : (p.route st entry tag).1 = .done rawIdx out e) :
    ∃ rule ∈ p.rules, rule.output = out := by
  have happlied : ∀ rule ∈ p.applied entry tag, rule ∈ p.rules := by
    intro rule hrule
    rw [Pipeline.applied] at hrule
    have hthrough : ∀ rules : List CompiledRule, Pipeline.throughRawOnly rules ⊆ rules := by
      intro rules
      induction rules with
      | nil => exact List.Subset.refl []
      | cons rule rules ih =>
        rw [Pipeline.throughRawOnly]
        split_ifs
        · exact List.cons_subset_cons _ (List.nil_subset _)
        · exact List.cons_subset_cons _ ih
    split_ifs at hrule
    · exact List.mem_of_mem_filter (hthrough _ hrule)
    · exact List.mem_of_mem_filter (List.mem_of_mem_take hrule)
  rw [Pipeline.route_eq] at h
  split_ifs at h with hnone
  generalize p.runActions st entry (p.appliedActions entry tag) = ran at h
  obtain ⟨_ | e', st'⟩ := ran
  · exact absurd h (by simp [Pipeline.finish])
  · rw [Pipeline.finish, Pipeline.ending] at h
    dsimp only at h
    split_ifs at h
    obtain ⟨-, hout, -⟩ := Outcome.done.inj h
    rw [Pipeline.lastOutput, List.getLast?_eq_some_getLast hnone] at hout
    exact ⟨_, happlied _ (List.getLast_mem hnone), hout⟩

end Rules

namespace Handler

variable {h : Handler} {b : Backends} {col : GoString} {kept : Option ℤ}

/-- What a routed row asks for is what some rule asks for. -/
theorem retention_of_routed (hrules : h.AsksFor col kept) {batch : Batch} {st : ExecState}
    {row : List GoString} {x : Routed} (hx : (h.routeRow batch st row).1 = some x) {ttlDays : ℤ}
    (hask : (col, ttlDays) ∈ x.asks) : retention ttlDays = kept := by
  obtain ⟨sink, hsink, hmatch⟩ := List.mem_filterMap.mp hask
  rw [sinkAsk] at hmatch
  split_ifs at hmatch
  have hname : (sink.arangoCollection, sink.ttlDays) = (col, ttlDays) := Option.some.inj hmatch
  rw [routeRow] at hx
  cases hp : h.pipeline with
  | none =>
    rw [hp] at hx
    rw [← Option.some.inj hx] at hsink
    exact absurd hsink List.not_mem_nil
  | some p =>
    rw [hp] at hx
    obtain ⟨res, hres, rfl⟩ := Option.map_eq_some_iff.mp hx
    have hres' : (p.route st (h.rowEntry batch row) batch.tag).1.result p.lib batch.tag =
        some res := hres
    cases hroute : (p.route st (h.rowEntry batch row) batch.tag).1 with
    | done rawIdx out e =>
      rw [hroute] at hres'
      obtain ⟨sinks, hsinks, rfl⟩ := Option.map_eq_some_iff.mp hres'
      obtain ⟨rule, hrule, rfl⟩ := output_of_done hroute
      rw [fillBackcompat_sinks] at hsink
      have hout := resolveSinks_asks hsinks sink hsink
      rw [hname] at hout
      exact hrules p hp rule hrule _ hout rfl
    | _ =>
      rw [hroute] at hres'
      rw [← Option.some.inj hres'] at hsink
      exact absurd hsink List.not_mem_nil

/-- Where the rules agree, so do all that is asked. -/
theorem retention_of_asked (hrules : h.AsksFor col kept) (ss : List Submission) :
    ∀ (st : ExecState) {ttlDays : ℤ}, (col, ttlDays) ∈ h.allAsked ss st →
      retention ttlDays = kept := by
  induction ss with
  | nil => exact fun _ _ hask => absurd hask List.not_mem_nil
  | cons s ss ih =>
    intro st ttlDays hask
    rw [allAsked, List.mem_append] at hask
    refine hask.elim (fun hfirst => ?_) (ih _)
    rw [asked] at hfirst
    split_ifs at hfirst
    · obtain ⟨x, hx, hask'⟩ := List.mem_flatMap.mp hfirst
      cases hrouted : (h.routed s st).1 with
      | none =>
        rw [hrouted] at hx
        exact absurd hx List.not_mem_nil
      | some xs =>
        rw [hrouted] at hx
        have hall : ∀ x ∈ xs, ∀ ttlDays, (col, ttlDays) ∈ x.asks → retention ttlDays = kept :=
          h.forall_routeRows s.batch (fun _ _ _ hrow _ => retention_of_routed hrules hrow) hrouted
        exact hall x hx ttlDays hask'
    · exact absurd hfirst List.not_mem_nil

/-- The retention that is in force on a collection after some batches. -/
theorem ttlInForce_ingest (hb : b.Succeeds) (hrules : h.AsksFor col kept) {ss : List Submission}
    {st : ExecState} {w : World} (hnew : col ∉ w.ensuredCols)
    (hasked : firstAsk col (h.allAsked ss st) ≠ none) :
    ttlInForce col (h.ingest b ss st w).2.calls = (ttlIndex kept).or (ttlInForce col w.calls) ∧
      ∀ secs ∈ kept, 0 ≤ secs := by
  obtain ⟨ttlDays, hfirst⟩ := Option.ne_none_iff_exists'.mp hasked
  have hkept := retention_of_asked hrules ss st (mem_of_firstAsk hfirst)
  rw [(ingest_retains hb ss st w).ttlInForce_eq, if_neg hnew, hfirst, Option.bind_some, hkept]
  exact ⟨rfl, hkept ▸ retention_nonneg ttlDays⟩

end Handler

/-! ### Two batches in two orders -/

/-- A rule that sends the events with a tag to a collection, with days to keep them. -/
def keepRule (tag : String) (ttlDays : ℤ) : CompiledRule :=
  { openRule .firstMatch .both [] { arangoCollection := str "events", ttlDays } with
    tagGlob := str tag }

/-- A handler with rules, and nothing but the database to write to. -/
def keepHandler (rules : List CompiledRule) : Handler where
  lib := literalLib
  pipeline := some ⟨literalLib, rules, none⟩
  lakeClient := false
  logRepo := true
  tenantID := str "t"

/-- A batch of one row under a tag. -/
def oneRow (tag : String) : Submission :=
  ⟨.byKey, ⟨str "1", str tag, [str "user"], 0⟩, [[str "ann"]]⟩

theorem succeeds_willing : willing.Succeeds :=
  ⟨nofun, fun _ _ => rfl, fun _ _ => rfl, fun _ _ _ => rfl, nofun⟩

end Ingest

end Xsiam
