import Xsiam.Etl.Applied
import Xsiam.Ingest.Written

/-!
# Nothing is lost between the rows and the stores

A batch whose writes all succeed leaves in the two stores exactly what its routed rows
ask for (`Xsiam.Ingest.Handler.process_fanOut`). The rows are regrouped on the way, by
index and by collection, and the groups are written in an order that is not fixed; under
each index and each collection the order of the rows survives, and so no row is lost, none
is there twice and none goes where no rule sends it (`Xsiam.Ingest.FanOut.perm`).
-/

namespace Xsiam

namespace Ingest

open Go Etl Grouping

/-! ### The law -/

/-- The stores hold what routed rows ask for: the raw events first and in order, the other
events in order under each index, the documents in order under each collection. -/
structure FanOut (h : Handler) (batch : Batch) (xs : List Routed) (calls : List Call) : Prop where
  lake : ∃ sent, calls.flatMap Call.taken = xs.filterMap (h.rawEvent batch) ++ sent ∧
    ∀ index, sent.filter (·.index = index) =
      ((xs.flatMap (h.ngxEvents batch)).map Prod.snd).filter (·.index = index)
  arango : ∀ col, under col (calls.flatMap Call.inserted) = under col (xs.flatMap documents)

/-- An event is filed under the index it names. -/
theorem ngxEvents_index {h : Handler} {batch : Batch} {xs : List Routed} :
    ∀ kv ∈ xs.flatMap (h.ngxEvents batch), kv.2.index = kv.1 := by
  intro kv hkv
  obtain ⟨x, -, hx⟩ := List.mem_flatMap.mp hkv
  obtain ⟨sink, -, hsink⟩ := List.mem_filterMap.mp hx
  rw [Handler.sinkEvent] at hsink
  split_ifs at hsink
  rw [← Option.some.inj hsink]
  rfl

/-- A document always has a collection. -/
theorem documents_ne_nil {xs : List Routed} : ∀ d ∈ xs.flatMap documents, d.1 ≠ [] := by
  intro d hd
  obtain ⟨x, -, hx⟩ := List.mem_flatMap.mp hd
  obtain ⟨sink, -, hsink⟩ := List.mem_filterMap.mp hx
  rw [sinkDocument] at hsink
  split_ifs at hsink with hcol
  rw [← Option.some.inj hsink]
  exact hcol

/-- **No event and no document is lost, doubled or made up.** -/
theorem FanOut.perm {h : Handler} {batch : Batch} {xs : List Routed} {calls : List Call}
    (hf : FanOut h batch xs calls) :
    (calls.flatMap Call.taken).Perm
        (xs.filterMap (h.rawEvent batch) ++ (xs.flatMap (h.ngxEvents batch)).map Prod.snd) ∧
      (calls.flatMap Call.inserted).Perm (xs.flatMap documents) := by
  obtain ⟨⟨sent, htaken, hsent⟩, hdocs⟩ := hf
  refine ⟨?_, perm_of_under hdocs⟩
  rw [htaken]
  refine List.Perm.append_left _ ?_
  -- file both lists of events under their indices
  have hkey : ∀ (events : List HECEvent) (index : GoString),
      under index (events.map fun ev => (ev.index, ev)) = events.filter (·.index = index) := by
    intro events index
    rw [← @filter_map_snd _ _ _ _ HECEvent.index _ index, List.map_map]
    · exact congrArg _ (List.map_id events)
    · rintro kv hkv
      obtain ⟨ev, -, rfl⟩ := List.mem_map.mp hkv
      rfl
  have hperm : (sent.map fun ev => (ev.index, ev)).Perm
      (((xs.flatMap (h.ngxEvents batch)).map Prod.snd).map fun ev => (ev.index, ev)) :=
    perm_of_under fun index => by rw [hkey, hkey, hsent]
  have hsnd := hperm.map Prod.snd
  rwa [List.map_map, List.map_map, show (Prod.snd ∘ fun ev : HECEvent => (ev.index, ev)) = id
    from rfl, List.map_id, List.map_id] at hsnd

/-! ### The proof -/

namespace Handler

variable (h : Handler) (r : MapRange) (b : Backends) (batch : Batch)

/-- Each row that is not empty is routed once, as the entry built from it. -/
theorem routeRows_entry (rows : List (List GoString)) : ∀ {st : ExecState} {xs : List Routed},
    (h.routeRows batch st rows).1 = some xs → xs.map (·.entry) = rows.map (h.rowEntry batch) := by
  induction rows with
  | nil =>
    intro st xs hxs
    obtain rfl := Option.some.inj hxs
    rfl
  | cons row rows ih =>
    intro st xs hxs
    rw [routeRows] at hxs
    have hentry : ∀ x, (h.routeRow batch st row).1 = some x → x.entry = h.rowEntry batch row := by
      intro x hx
      rw [routeRow] at hx
      dsimp only at hx
      cases hp : h.pipeline with
      | none =>
        rw [hp] at hx
        rw [← Option.some.inj hx]
      | some p =>
        rw [hp] at hx
        obtain ⟨res, -, rfl⟩ := Option.map_eq_some_iff.mp hx
        rfl
    rcases hroute : h.routeRow batch st row with ⟨_ | x, st'⟩
    · rw [hroute] at hxs
      exact absurd hxs (by simp)
    · rw [hroute] at hxs hentry
      obtain ⟨rest, hrest, rfl⟩ := Option.map_eq_some_iff.mp hxs
      rw [List.map_cons, List.map_cons, hentry x rfl, ih hrest]

/-- **What `process` does**: the rows are routed, and what they ask for is flushed. -/
theorem process_eq (rows : List (List GoString)) (st : ExecState) (w : World) :
    match (h.routeRows batch st (rows.filter (· ≠ []))).1 with
    | none => (h.process r b batch rows st w).ret = none ∧
        (h.process r b batch rows st w).world = w
    | some xs => ∃ acc, Accumulated acc (h.toLake (xs.filterMap (h.rawEvent batch)))
          (h.toLake (xs.flatMap (h.ngxEvents batch))) (xs.flatMap documents) ∧
        (h.process r b batch rows st w).ret = some (h.flush r b acc w).1 ∧
        (h.process r b batch rows st w).world = (h.flush r b acc w).2 := by
  obtain ⟨-, hrows⟩ := @addRows_spec h batch rows st _ _ _ _ .empty
  rw [process]
  rcases hadd : h.addRows batch st {} rows with ⟨acc, st'⟩
  rw [hadd] at hrows
  cases hxs : (h.routeRows batch st (rows.filter (· ≠ []))).1 with
  | none =>
    rw [hxs] at hrows
    obtain rfl : acc = none := hrows
    exact ⟨rfl, rfl⟩
  | some xs =>
    rw [hxs] at hrows
    obtain ⟨acc', rfl, hacc⟩ := hrows
    rw [List.nil_append, List.nil_append, List.nil_append] at hacc
    exact ⟨acc', hacc, rfl, rfl⟩

/-- **Fan-out conserves.** Where `process` returns no error and every call it made stored
what it was to store, the stores hold what the rows that are not empty were routed to. -/
theorem process_fanOut (hlake : h.lakeClient = true) (hrepo : h.logRepo = true)
    {rows : List (List GoString)} {st : ExecState} {w : World} {stats : ProcessStats}
    (hret : (h.process r b batch rows st w).ret = some (stats, none)) {calls : List Call}
    (hcalls : Made w calls (h.process r b batch rows st w).world)
    (hstored : ∀ c ∈ calls, c.Stored) :
    ∃ xs, (h.routeRows batch st (rows.filter (· ≠ []))).1 = some xs ∧
      xs.map (·.entry) = (rows.filter (· ≠ [])).map (h.rowEntry batch) ∧
      FanOut h batch xs calls := by
  have hprocess := h.process_eq r b batch rows st w
  cases hxs : (h.routeRows batch st (rows.filter (· ≠ []))).1 with
  | none =>
    rw [hxs] at hprocess
    exact absurd (hprocess.1.symm.trans hret) (by simp)
  | some xs =>
    rw [hxs] at hprocess
    obtain ⟨acc, hacc, hflushRet, hworld⟩ := hprocess
    refine ⟨xs, rfl, h.routeRows_entry batch _ hxs, ?_⟩
    obtain ⟨lake, arango, hmade, hposts, hquiet, hdocs⟩ :=
      h.flush_written b hacc documents_ne_nil r w
    have hnone : (h.flush r b acc w).1.2 = none := by
      rw [← congrArg Prod.snd (Option.some.inj (hret.symm.trans hflushRet))]
    rw [hnone] at hdocs
    -- the calls are those of the flush, and each did what it was asked to
    obtain rfl : calls = lake ++ arango := (hworld ▸ hcalls : Made w calls _).unique hmade
    have htaken : ∀ cs : List Call, (∀ c ∈ cs, c.Stored) →
        cs.flatMap Call.taken = (cs.filterMap Call.handed).flatten := fun cs hcs => by
      rw [List.flatMap_congr fun c hc => (hcs c hc).taken, flatMap_getD_handed]
    have hinserted : ∀ cs : List Call, (∀ c ∈ cs, c.Stored) →
        cs.flatMap Call.inserted = cs.flatMap Call.accepted := fun cs hcs =>
      List.flatMap_congr fun c hc => (hcs c hc).inserted
    obtain ⟨sent, hhanded, hsent⟩ := hposts.flatten_handed
    rw [h.toLake_of_true hlake] at hhanded
    rw [h.toLake_of_true hlake] at hsent
    constructor
    · refine ⟨sent.map Prod.snd, ?_, fun index => ?_⟩
      · rw [htaken _ hstored, List.filterMap_append, hquiet, List.append_nil, hhanded]
      · have hperm := perm_of_under hsent
        rw [filter_map_snd (fun kv hkv => ngxEvents_index kv (hperm.mem_iff.mp hkv)),
          filter_map_snd ngxEvents_index, hsent]
    · intro col
      rw [hinserted _ hstored, List.flatMap_append, hposts.accepted, List.nil_append]
      exact hdocs hrepo col

end Handler

/-- A handler with one rule, which sends every event to an index and to a collection. -/
def bothStores : Handler where
  lib := literalLib
  pipeline := some ⟨literalLib, [openRule .firstMatch .both []
    { sinks := [{ ngxIndex := str "etl", arangoCollection := str "events" }] }], none⟩
  lakeClient := true
  logRepo := true
  tenantID := str "t"

/-- A batch with a column `user` and a column `raw_log`. -/
def userBatch : Batch := ⟨str "1", str "tag", [str "user", str "raw_log"], 0⟩

/-- Two rows, with an empty one between them. -/
def userRows : List (List GoString) := [[str "ann", str "in"], [], [str "bob"]]

theorem process_fanOut_bothStores :
    ∃ xs, (bothStores.routeRows userBatch .init (userRows.filter (· ≠ []))).1 = some xs ∧
      xs.map (·.entry) = (userRows.filter (· ≠ [])).map (bothStores.rowEntry userBatch) ∧
      FanOut bothStores userBatch xs
        (bothStores.process .byKey willing userBatch userRows .init .init).world.calls := by
  have hret : (bothStores.process .byKey willing userBatch userRows .init .init).ret =
      some (⟨2, 2, 2, 0⟩, none) := by decide +kernel
  have hmade : Made .init _ (bothStores.process .byKey willing userBatch userRows .init .init).world :=
    (List.nil_append _).symm
  exact bothStores.process_fanOut .byKey willing userBatch rfl rfl hret hmade (by decide +kernel)

end Ingest

end Xsiam
