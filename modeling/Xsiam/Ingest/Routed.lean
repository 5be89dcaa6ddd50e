import Xsiam.Ingest.Handler
import Xsiam.Lib.Grouping

/-!
# What a batch is routed to

The loop over the rows routes and accumulates at once. Here the two are taken apart: the
rows are routed one after the other (`Xsiam.Ingest.Handler.routeRows`), each routed row
says which events and documents it asks for, and what is accumulated
(`Xsiam.Ingest.Accumulated`) is what the routed rows ask for, in their order under each
destination (`Xsiam.Ingest.Handler.addRows_eq`).
-/

namespace Xsiam

namespace Ingest

open Go Etl Grouping

/-! ### Routed rows -/

/-- A row as the pipeline saw it: its entry, and what became of it. -/
structure Routed where
  entry : LogEntry
  res : Result

namespace Handler

variable (h : Handler) (batch : Batch)

/-- Route one row. Without a pipeline there is a raw event and nothing else. -/
def routeRow (st : ExecState) (row : List GoString) : Option Routed × ExecState :=
  let entry := h.rowEntry batch row
  match h.pipeline with
  | some p =>
    let r := p.process st entry batch.tag
    (r.1.map (⟨entry, ·⟩), r.2)
  | none => (some ⟨entry, { rawNgxIndex := str "raw_" ++ batch.tag }⟩, st)

/-- Route rows, each on the state the ones before it leave. -/
def routeRows (st : ExecState) : List (List GoString) → Option (List Routed) × ExecState
  | [] => (some [], st)
  | row :: rows =>
    match h.routeRow batch st row with
    | (none, st) => (none, st)
    | (some x, st) => ((routeRows st rows).1.map (x :: ·), (routeRows st rows).2)

/-- The raw event a row asks for. -/
def rawEvent (x : Routed) : Option HECEvent :=
  if x.res.rawNgxIndex = [] then none
  else some (entryToHEC h.lib x.entry x.res.rawNgxIndex batch.tag)

/-- The event a sink asks for, under its index. -/
def sinkEvent (sink : SinkResult) : Option (GoString × HECEvent) :=
  if sink.ngxIndex = [] then none
  else some (sink.ngxIndex, entryToHEC h.lib sink.entry sink.ngxIndex batch.tag)

/-- What goes to the lake goes nowhere where there is no client. -/
def toLake {α : Type} (l : List α) : List α := if h.lakeClient then l else []

@[simp] theorem toLake_append {α : Type} (l l' : List α) :
    h.toLake (l ++ l') = h.toLake l ++ h.toLake l' := by
  rw [toLake, toLake, toLake]
  split_ifs <;> simp

@[simp] theorem toLake_nil {α : Type} : h.toLake ([] : List α) = [] := by
  rw [toLake, ite_self]

theorem toLake_of_true {α : Type} (hlake : h.lakeClient = true) (l : List α) :
    h.toLake l = l := if_pos hlake

theorem toLake_of_not {α : Type} (hlake : ¬h.lakeClient = true) (l : List α) :
    h.toLake l = [] := if_neg hlake

end Handler

/-- The document a sink asks for, under its collection. -/
def sinkDocument (sink : SinkResult) : Option (GoString × LogEntry) :=
  if sink.arangoCollection = [] then none else some (sink.arangoCollection, sink.entry)

namespace Handler

variable (h : Handler) (batch : Batch)

/-- The events the sinks of a row ask for. -/
def ngxEvents (x : Routed) : List (GoString × HECEvent) :=
  x.res.sinks.filterMap (h.sinkEvent batch)

end Handler

/-- The documents the sinks of a row ask for. -/
def documents (x : Routed) : List (GoString × LogEntry) := x.res.sinks.filterMap sinkDocument

/-! ### What is accumulated -/

/-- The pending writes hold raw events, events by index and documents by collection. -/
structure Accumulated (acc : Pending) (raw : List HECEvent) (ngx : List (GoString × HECEvent))
    (docs : List (GoString × LogEntry)) : Prop where
  raw : acc.rawNgxEvents = raw
  ngx : Buckets (fun index : GoString => acc.etlNgxEvents[index]?) ngx
  arango : Buckets (fun col : GoString => (acc.arangoGroups[col]?).map (·.entries)) docs
  collection : ∀ (col : GoString) (g : ArangoWriteGroup),
    acc.arangoGroups[col]? = some g → g.collection = col

namespace Accumulated

variable {acc : Pending} {raw : List HECEvent} {ngx : List (GoString × HECEvent)}
  {docs : List (GoString × LogEntry)}

theorem empty : Accumulated {} [] [] [] where
  raw := rfl
  ngx := .nil fun _ => Std.ExtTreeMap.getElem?_empty
  arango := .nil fun col => by
    have hcol : (∅ : GoMap ArangoWriteGroup)[col]? = none := Std.ExtTreeMap.getElem?_empty
    rw [hcol, Option.map_none]
  collection col g hg := by
    have hcol : (∅ : GoMap ArangoWriteGroup)[col]? = none := Std.ExtTreeMap.getElem?_empty
    exact absurd (hcol.symm.trans hg) (by simp)

/-- The counters are no part of what is held. -/
theorem withStats (hacc : Accumulated acc raw ngx docs) (stats : ProcessStats) :
    Accumulated { acc with stats } raw ngx docs :=
  ⟨hacc.raw, hacc.ngx, hacc.arango, hacc.collection⟩

variable {h : Handler} {batch : Batch}

theorem addRaw (hacc : Accumulated acc raw ngx docs) (entry : LogEntry) (index : GoString) :
    Accumulated (h.addRaw batch entry index acc)
      (raw ++ h.toLake [entryToHEC h.lib entry index batch.tag]) ngx docs := by
  rw [Handler.addRaw, Handler.toLake]
  split_ifs
  · exact ⟨by rw [hacc.raw], hacc.ngx, hacc.arango, hacc.collection⟩
  · rw [List.append_nil]
    exact hacc.withStats _

theorem addNgx (hacc : Accumulated acc raw ngx docs) (e : LogEntry) {index : GoString}
    (hne : index ≠ []) (hlake : h.lakeClient = true) :
    Accumulated (h.addNgx batch e index acc) raw
      (ngx ++ [(index, entryToHEC h.lib e index batch.tag)]) docs := by
  rw [Handler.addNgx, if_pos ⟨hne, hlake⟩]
  refine ⟨hacc.raw, hacc.ngx.concat ?_ fun index' hindex => ?_, hacc.arango, hacc.collection⟩
  · exact (GoMap.getElem?_insert ..).trans (if_pos rfl)
  · exact GoMap.getElem?_insert_of_ne hindex _

theorem addArango (hacc : Accumulated acc raw ngx docs) (e : LogEntry) {col : GoString}
    (hne : col ≠ []) (ttlDays : ℤ) :
    Accumulated (Handler.addArango e col ttlDays acc) raw ngx (docs ++ [(col, e)]) := by
  rw [Handler.addArango, if_pos hne]
  dsimp only
  set g := (acc.arangoGroups[col]?).getD ⟨col, ttlDays, []⟩ with hg
  have hentries : g.entries = ((acc.arangoGroups[col]?).map (·.entries)).getD [] := by
    rw [hg]
    cases acc.arangoGroups[col]? <;> rfl
  have hcol : g.collection = col := by
    rw [hg]
    cases hlook : acc.arangoGroups[col]? with
    | none => rfl
    | some g' => exact hacc.collection col g' hlook
  refine ⟨hacc.raw, hacc.ngx, hacc.arango.concat ?_ fun col' hcol' => ?_, fun col' g' hg' => ?_⟩
  · rw [GoMap.getElem?_insert, if_pos rfl, Option.map_some, hentries]
  · rw [GoMap.getElem?_insert_of_ne hcol']
  · rw [GoMap.getElem?_insert] at hg'
    split_ifs at hg' with heq
    · rw [← Option.some.inj hg', hcol, heq]
    · exact hacc.collection col' g' hg'

/-- **One sink adds what it asks for**: an event where it names an index, a document where
it names a collection. -/
theorem addSink (hacc : Accumulated acc raw ngx docs) (sink : SinkResult) :
    Accumulated (h.addSink batch acc sink) raw
      (ngx ++ h.toLake (h.sinkEvent batch sink).toList)
      (docs ++ (sinkDocument sink).toList) := by
  have hngx : Accumulated (h.addNgx batch sink.entry sink.ngxIndex acc) raw
      (ngx ++ h.toLake (h.sinkEvent batch sink).toList) docs := by
    rw [Handler.sinkEvent]
    by_cases hindex : sink.ngxIndex = []
    · rw [Handler.addNgx, if_neg (by simp [hindex]), if_pos hindex]
      simpa using hacc
    · by_cases hlake : h.lakeClient = true
      · rw [if_neg hindex, h.toLake_of_true hlake]
        exact hacc.addNgx sink.entry hindex hlake
      · rw [Handler.addNgx, if_neg (by simp [hlake]), h.toLake_of_not hlake, List.append_nil]
        exact hacc
  rw [Handler.addSink, sinkDocument]
  by_cases hcol : sink.arangoCollection = []
  · rw [Handler.addArango, if_neg (by simpa using hcol), if_pos hcol]
    simpa using hngx
  · rw [if_neg hcol]
    exact hngx.addArango sink.entry hcol sink.ttlDays

theorem filterMap_cons_toList {α β : Type} (f : α → Option β) (a : α) (l : List α) :
    (a :: l).filterMap f = (f a).toList ++ l.filterMap f := by
  rw [List.filterMap_cons]
  cases f a <;> rfl

theorem addSinks (sinks : List SinkResult) : ∀ {acc : Pending} {ngx : List (GoString × HECEvent)}
    {docs : List (GoString × LogEntry)}, Accumulated acc raw ngx docs →
      Accumulated (sinks.foldl (h.addSink batch) acc) raw
        (ngx ++ h.toLake (sinks.filterMap (h.sinkEvent batch)))
        (docs ++ sinks.filterMap sinkDocument) := by
  induction sinks with
  | nil =>
    intro acc ngx docs hacc
    simpa using hacc
  | cons sink sinks ih =>
    intro acc ngx docs hacc
    have hrest := ih (@addSink _ _ _ _ h batch hacc sink)
    rw [List.append_assoc, List.append_assoc, ← Handler.toLake_append] at hrest
    rw [filterMap_cons_toList, filterMap_cons_toList, List.foldl_cons]
    exact hrest

/-- **One result adds what its row asks for.** -/
theorem addResult (hacc : Accumulated acc raw ngx docs) (x : Routed)
    (hx : x.res.etlEntry = none → x.res.sinks = []) :
    Accumulated (h.addResult batch x.entry x.res acc)
      (raw ++ h.toLake (h.rawEvent batch x).toList) (ngx ++ h.toLake (h.ngxEvents batch x))
      (docs ++ documents x) := by
  have hraw : Accumulated
      (if x.res.rawNgxIndex ≠ [] then h.addRaw batch x.entry x.res.rawNgxIndex acc else acc)
      (raw ++ h.toLake (h.rawEvent batch x).toList) ngx docs := by
    rw [Handler.rawEvent]
    by_cases hindex : x.res.rawNgxIndex = []
    · simpa [hindex] using hacc
    · rw [if_pos hindex, if_neg hindex]
      exact hacc.addRaw x.entry x.res.rawNgxIndex
  rw [Handler.addResult]
  dsimp only
  by_cases hnone : x.res.etlEntry = none
  · -- a result without an entry has no sinks either
    rw [if_pos (by simp [hnone]), Handler.ngxEvents, documents, hx hnone]
    simpa using hraw.withStats _
  · rw [if_neg (by simpa using hnone)]
    exact hraw.addSinks x.res.sinks

end Accumulated

namespace Handler

variable (h : Handler) (batch : Batch)

/-! ### Routing first, accumulating after -/

/-- Add what a routed row asks for. Without a pipeline there is nothing but its raw event. -/
def addRouted (acc : Pending) (x : Routed) : Pending :=
  if h.pipeline.isSome then h.addResult batch x.entry x.res acc
  else h.addRaw batch x.entry x.res.rawNgxIndex acc

theorem addRow_eq (st : ExecState) (acc : Pending) (row : List GoString) :
    h.addRow batch st acc row =
      ((h.routeRow batch st row).1.map (h.addRouted batch acc), (h.routeRow batch st row).2) := by
  rw [addRow, routeRow]
  cases hp : h.pipeline with
  | none => simp [addRouted, hp]
  | some p =>
    dsimp only
    rcases p.process st (h.rowEntry batch row) batch.tag with ⟨_ | res, st'⟩
    · rfl
    · simp [addRouted, hp]

/-- **The loop over the rows is two loops**: the rows that are not empty are routed, and what they ask
for is added, row by row. -/
theorem addRows_eq (rows : List (List GoString)) : ∀ (st : ExecState) (acc : Pending),
    h.addRows batch st acc rows =
      ((h.routeRows batch st (rows.filter (· ≠ []))).1.map (·.foldl (h.addRouted batch) acc),
        (h.routeRows batch st (rows.filter (· ≠ []))).2) := by
  induction rows with
  | nil => exact fun _ _ => rfl
  | cons row rows ih =>
    intro st acc
    rw [addRows]
    by_cases hrow : row = []
    · rw [if_pos hrow, List.filter_cons_of_neg (by simp [hrow])]
      exact ih st acc
    · rw [if_neg hrow, List.filter_cons_of_pos (by simp [hrow]), routeRows, addRow_eq]
      -- a script that panics ends both loops at this row
      rcases h.routeRow batch st row with ⟨_ | x, st'⟩
      · rfl
      · dsimp only [Option.map_some]
        rw [ih st' (h.addRouted batch acc x), Option.map_map]
        rfl

/-- What is true of every routed row: it has no sinks without a processed entry, and without a pipeline
it has a raw event only. -/
structure Routes (x : Routed) : Prop where
  sinks : x.res.etlEntry = none → x.res.sinks = []
  bare : h.pipeline = none → x.res.rawNgxIndex ≠ [] ∧ x.res.sinks = []

theorem routeRow_routes {st : ExecState} {row : List GoString} {x : Routed}
    (hx : (h.routeRow batch st row).1 = some x) : h.Routes x := by
  rw [routeRow] at hx
  cases hp : h.pipeline with
  | none =>
    rw [hp] at hx
    rw [← Option.some.inj hx]
    exact ⟨fun _ => rfl, fun _ => ⟨List.append_ne_nil_of_left_ne_nil (by decide) _, rfl⟩⟩
  | some p =>
    rw [hp] at hx
    obtain ⟨res, hres, rfl⟩ := Option.map_eq_some_iff.mp hx
    exact ⟨p.sinks_of_etlEntry_none hres, fun hnone => absurd (hp.symm.trans hnone) (by simp)⟩

/-- What is true of every row that is routed is true of all of them. -/
theorem forall_routeRows {P : Routed → Prop}
    (hP : ∀ st row x, (h.routeRow batch st row).1 = some x → P x) {rows : List (List GoString)} :
    ∀ {st : ExecState} {xs : List Routed}, (h.routeRows batch st rows).1 = some xs → ∀ x ∈ xs, P x := by
  induction rows with
  | nil =>
    intro st xs hxs
    rw [← Option.some.inj hxs]
    exact fun x hx => absurd hx List.not_mem_nil
  | cons row rows ih =>
    intro st xs hxs
    rw [routeRows] at hxs
    rcases hroute : h.routeRow batch st row with ⟨_ | x, st'⟩
    · rw [hroute] at hxs
      exact absurd hxs (by simp)
    · rw [hroute] at hxs
      obtain ⟨rest, hrest, rfl⟩ := Option.map_eq_some_iff.mp hxs
      exact List.forall_mem_cons.mpr ⟨hP st row x (by rw [hroute]), ih hrest⟩

theorem routeRows_routes {rows : List (List GoString)} {st : ExecState} {xs : List Routed}
    (hxs : (h.routeRows batch st rows).1 = some xs) : ∀ x ∈ xs, h.Routes x :=
  h.forall_routeRows batch (fun _ _ _ => h.routeRow_routes batch) hxs

end Handler

namespace Accumulated

variable {acc : Pending} {raw : List HECEvent} {ngx : List (GoString × HECEvent)}
  {docs : List (GoString × LogEntry)} {h : Handler} {batch : Batch}

/-- **One routed row adds what it asks for.** -/
theorem addRouted (hacc : Accumulated acc raw ngx docs) {x : Routed} (hx : h.Routes x) :
    Accumulated (h.addRouted batch acc x) (raw ++ h.toLake (h.rawEvent batch x).toList)
      (ngx ++ h.toLake (h.ngxEvents batch x)) (docs ++ documents x) := by
  rw [Handler.addRouted]
  cases hp : h.pipeline with
  | some p =>
    rw [if_pos Option.isSome_some]
    exact hacc.addResult x hx.sinks
  | none =>
    obtain ⟨hraw, hsinks⟩ := hx.bare hp
    rw [if_neg (by simp), Handler.rawEvent, if_neg hraw, Handler.ngxEvents, documents, hsinks]
    simpa using hacc.addRaw x.entry x.res.rawNgxIndex

/-- All routed rows, one after the other. -/
theorem addRouteds {xs : List Routed} : ∀ {acc : Pending} {raw : List HECEvent}
    {ngx : List (GoString × HECEvent)} {docs : List (GoString × LogEntry)},
    Accumulated acc raw ngx docs → (∀ x ∈ xs, h.Routes x) →
      Accumulated (xs.foldl (h.addRouted batch) acc)
        (raw ++ h.toLake (xs.filterMap (h.rawEvent batch)))
        (ngx ++ h.toLake (xs.flatMap (h.ngxEvents batch))) (docs ++ xs.flatMap documents) := by
  induction xs with
  | nil =>
    intro acc raw ngx docs hacc _
    simpa using hacc
  | cons x xs ih =>
    intro acc raw ngx docs hacc hxs
    obtain ⟨hx, hrest⟩ := List.forall_mem_cons.mp hxs
    have hall := ih (@addRouted _ _ _ _ h batch hacc _ hx) hrest
    rw [List.append_assoc, List.append_assoc, List.append_assoc, ← Handler.toLake_append,
      ← Handler.toLake_append] at hall
    rw [filterMap_cons_toList, List.flatMap_cons, List.flatMap_cons, List.foldl_cons]
    exact hall

end Accumulated

namespace Handler

variable (h : Handler) (batch : Batch)

/-- **What is accumulated is what the routed rows ask for**, row by row. -/
theorem addRows_spec (rows : List (List GoString)) {st : ExecState} {acc : Pending}
    {raw : List HECEvent} {ngx : List (GoString × HECEvent)} {docs : List (GoString × LogEntry)}
    (hacc : Accumulated acc raw ngx docs) :
      (h.addRows batch st acc rows).2 = (h.routeRows batch st (rows.filter (· ≠ []))).2 ∧
      match (h.routeRows batch st (rows.filter (· ≠ []))).1 with
      | none => (h.addRows batch st acc rows).1 = none
      | some xs => ∃ acc', (h.addRows batch st acc rows).1 = some acc' ∧
          Accumulated acc' (raw ++ h.toLake (xs.filterMap (h.rawEvent batch)))
            (ngx ++ h.toLake (xs.flatMap (h.ngxEvents batch))) (docs ++ xs.flatMap documents) := by
  rw [addRows_eq]
  refine ⟨rfl, ?_⟩
  cases hxs : (h.routeRows batch st (rows.filter (· ≠ []))).1 with
  | none => rfl
  | some xs => exact ⟨_, rfl, hacc.addRouteds (h.routeRows_routes batch hxs)⟩

end Handler

end Ingest

end Xsiam
