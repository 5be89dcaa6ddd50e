import Xsiam.Etl.Frame
import Xsiam.Etl.Loss
import Xsiam.Ingest.Routed

/-!
# Whose events a row becomes

An event of the lake says in `tenant_id` which tenant it belongs to. `entryToHEC` writes
the tenant of the entry there, which no action can change, and then writes the fields over
it; a field of that name wins. The fields come from the sender first, whose columns have
any names, and from the actions of the rules after that.

`Xsiam.Ingest.Handler.rowEvents_tenant` says exactly which rows become events of the
tenant of the handler: a row whose raw event is written must have no `tenant_id` cell but
the right one, and the actions must leave no such field where an index is written.
-/

namespace Xsiam

namespace Ingest

open Go Etl

/-! ### The tenant of an event -/

/-- An event belongs to a tenant. -/
def CarriesTenant (ev : HECEvent) (tenantID : GoString) : Prop :=
  ev.event[str "tenant_id"]? = some (.str tenantID)

/-- An entry has no `tenant_id` field but the one of a tenant. -/
def TenantField (e : LogEntry) (tenantID : GoString) : Prop :=
  ∀ v, e.fields[str "tenant_id"]? = some v → v = .str tenantID

theorem hecMembers_tenant (lib : StdLib) (e : LogEntry) :
    (hecMembers lib e)[str "tenant_id"]? = some (.str e.tenantID) := by
  -- the tenant is the first member, and no other one has its name
  have hmembers : ∀ kvs : List (GoString × Value), str "tenant_id" ∉ kvs.map Prod.fst →
      (GoMap.insertAll ∅ ((str "tenant_id", Value.str e.tenantID) :: kvs))[str "tenant_id"]? =
        some (.str e.tenantID) := by
    intro kvs hkvs
    have hrest : ∀ kv ∈ kvs, kv.1 ≠ str "tenant_id" := fun kv hkv heq =>
      hkvs (heq ▸ List.mem_map_of_mem hkv)
    refine (GoMap.getElem?_insertAll_of_notMem hrest _).trans ?_
    rw [GoMap.getElem?_insert, if_pos rfl]
  have hraw : str "tenant_id" ≠ str "raw_log" := by decide
  rw [hecMembers]
  split_ifs
  · exact hmembers _ (by simp only [List.map_cons, List.map_nil]; decide)
  · rw [GoMap.getElem?_insert_of_ne hraw]
    exact hmembers _ (by simp only [List.map_cons, List.map_nil]; decide)

/-- **The fields have the last word** on the tenant of an event. -/
theorem entryToHEC_tenant_iff (lib : StdLib) (e : LogEntry) (index sourcetype : GoString) :
    CarriesTenant (entryToHEC lib e index sourcetype) e.tenantID ↔ TenantField e e.tenantID := by
  rw [CarriesTenant, TenantField, entryToHEC, GoMap.getElem?_copy, hecMembers_tenant]
  cases e.fields[str "tenant_id"]? with
  | none => simp
  | some v => simp

/-! ### Sinks with an index -/

/-- An output writes an entry to an index: a sink that names one and whose condition the
entry passes, or the flat field where there are no sinks. -/
def Indexes (lib : StdLib) (out : ETLOutput) (e : LogEntry) : Prop :=
  (out.sinks = [] ∧ out.ngxIndex ≠ []) ∨
    ∃ sink ∈ out.sinks, sink.ngxIndex ≠ [] ∧ sinkMatches lib sink e = some true

theorem resolveSink_indexes {lib : StdLib} {e : LogEntry} {sink : ETLSink}
    {rs : List SinkResult} (h : resolveSink lib e sink = some rs) :
    (∃ r ∈ rs, r.ngxIndex ≠ []) ↔ sink.ngxIndex ≠ [] ∧ sinkMatches lib sink e = some true := by
  rw [resolveSink] at h
  split_ifs at h with h0
  · obtain rfl := Option.some.inj h
    simp [h0]
  · obtain ⟨ok, hok, rfl⟩ := Option.map_eq_some_iff.mp h
    rw [hok]
    cases ok <;> simp

theorem resolveSinksLoop_indexes {lib : StdLib} {e : LogEntry} {sinks : List ETLSink} :
    ∀ {rs : List SinkResult}, resolveSinksLoop lib e sinks = some rs →
      ((∃ r ∈ rs, r.ngxIndex ≠ []) ↔
        ∃ sink ∈ sinks, sink.ngxIndex ≠ [] ∧ sinkMatches lib sink e = some true) := by
  induction sinks with
  | nil =>
    intro rs h
    obtain rfl := Option.some.inj h
    simp
  | cons sink sinks ih =>
    intro rs h
    rw [resolveSinksLoop] at h
    cases hres : resolveSink lib e sink with
    | none =>
      rw [hres] at h
      exact absurd h (by simp)
    | some results =>
      rw [hres] at h
      obtain ⟨rest, hrest, rfl⟩ := Option.map_eq_some_iff.mp h
      rw [List.exists_mem_cons_iff, ← resolveSink_indexes hres, ← ih hrest]
      constructor
      · rintro ⟨r, hr, hne⟩
        rcases List.mem_append.mp hr with hr | hr
        · exact Or.inl ⟨r, hr, hne⟩
        · exact Or.inr ⟨r, hr, hne⟩
      · rintro (⟨r, hr, hne⟩ | ⟨r, hr, hne⟩)
        · exact ⟨r, List.mem_append_left _ hr, hne⟩
        · exact ⟨r, List.mem_append_right _ hr, hne⟩

/-- A resolved sink names an index exactly where the output has one for the entry. -/
theorem resolveSinks_indexes {lib : StdLib} {out : ETLOutput} {e : LogEntry}
    {rs : List SinkResult} (h : resolveSinks lib out e = some rs) :
    (∃ r ∈ rs, r.ngxIndex ≠ []) ↔ Indexes lib out e := by
  rw [Indexes]
  rw [resolveSinks] at h
  split_ifs at h with h0 h1
  · obtain rfl := Option.some.inj h
    simp [h0, h1]
  · obtain rfl := Option.some.inj h
    simp [h0]
  · rw [resolveSinksLoop_indexes h]
    simp [h0]

/-- What a result asks for, read off the rules that apply and what their actions leave. -/
theorem process_writes {p : Pipeline} {st : ExecState} {entry : LogEntry} {tag : GoString}
    {res : Result} (hres : (p.process st entry tag).1 = some res) :
    (res.rawNgxIndex ≠ [] ↔
      (p.runActions st entry (p.appliedActions entry tag)).1.isSome ∧
        ∀ rule ∈ p.applied entry tag, rule.rawWriteMode ≠ .etlOnly) ∧
    (∀ s ∈ res.sinks,
      (p.runActions st entry (p.appliedActions entry tag)).1 = some s.entry) ∧
    ∀ e, (∃ s ∈ res.sinks, s.ngxIndex ≠ [] ∧ s.entry = e) ↔
      (p.runActions st entry (p.appliedActions entry tag)).1 = some e ∧
        (∀ rule ∈ p.applied entry tag, rule.rawWriteMode ≠ .rawOnly) ∧
        Indexes p.lib (Pipeline.lastOutput {} (p.applied entry tag)) e := by
  change (p.route st entry tag).1.result p.lib tag = some res at hres
  rw [p.route_eq] at hres
  by_cases h0 : p.applied entry tag = []
  · -- no rule applies: the raw event, and an output without sinks
    have hacts : p.appliedActions entry tag = [] := by
      rw [Pipeline.appliedActions, h0]
      rfl
    rw [if_pos h0] at hres
    obtain rfl := Option.some.inj hres
    rw [hacts, p.runActions_nil, h0]
    refine ⟨by simp [Pipeline.rawIndex_ne_nil], by simp, fun e => ?_⟩
    simp [Pipeline.lastOutput, Indexes]
  · rw [if_neg h0] at hres
    rcases hrun : p.runActions st entry (p.appliedActions entry tag) with ⟨_ | e', st'⟩
    · -- an action drops the event
      rw [hrun] at hres
      obtain rfl := Option.some.inj hres
      simp
    · -- the actions end with an entry, and the output of the last rule decides
      rw [hrun] at hres
      change (Pipeline.ending _ _ _ e').result p.lib tag = some res at hres
      have hthrough := Pipeline.rawThrough_ne_nil tag (p.applied entry tag)
      rw [Pipeline.ending] at hres
      split_ifs at hres with honly
      · obtain rfl := Option.some.inj hres
        obtain ⟨rule, hrule, hmode⟩ := List.any_eq_true.mp honly
        refine ⟨by simpa using hthrough, by simp, fun e => ?_⟩
        constructor
        · rintro ⟨s, hs, -⟩
          exact absurd hs List.not_mem_nil
        · rintro ⟨-, hnone, -⟩
          exact absurd (by simpa using hmode) (hnone rule hrule)
      · obtain ⟨sinks, hsinks, rfl⟩ := Option.map_eq_some_iff.mp hres
        have hentry := resolveSinks_entry hsinks
        rw [fillBackcompat_rawNgxIndex, fillBackcompat_sinks]
        refine ⟨by simpa using hthrough, fun s hs => by rw [hentry s hs], fun e => ?_⟩
        constructor
        · rintro ⟨s, hs, hne, rfl⟩
          rw [hentry s hs]
          refine ⟨rfl, ?_, (resolveSinks_indexes hsinks).mp ⟨s, hs, hne⟩⟩
          intro rule hrule hmode
          exact honly (List.any_eq_true.mpr ⟨rule, hrule, by simpa using hmode⟩)
        · rintro ⟨heq, -, hindexes⟩
          obtain rfl := Option.some.inj heq
          obtain ⟨s, hs, hne⟩ := (resolveSinks_indexes hsinks).mpr hindexes
          exact ⟨s, hs, hne, hentry s hs⟩

/-! ### The events of a row -/

namespace Handler

variable (h : Handler) (batch : Batch) (st : ExecState) (row : List GoString)

/-- The events a routed row asks for, raw and processed. -/
def rowEvents (x : Routed) : List HECEvent :=
  (h.rawEvent batch x).toList ++ (h.ngxEvents batch x).map Prod.snd

/-- The sender's say: the row has no cell under `tenant_id`, or the tenant of the handler
there. -/
def TenantCell : Prop :=
  getField row (buildColIndex batch.columns) "tenant_id" = [] ∨
    getField row (buildColIndex batch.columns) "tenant_id" = h.tenantID

/-- The raw event of a row is written: no action drops it, and no rule that applies
suppresses it. -/
def WritesRaw : Prop :=
  ∀ p, h.pipeline = some p →
    (p.runActions st (h.rowEntry batch row)
      (p.appliedActions (h.rowEntry batch row) batch.tag)).1.isSome ∧
    ∀ rule ∈ p.applied (h.rowEntry batch row) batch.tag, rule.rawWriteMode ≠ .etlOnly

/-- An entry is written to an index a rule names: the actions leave it, no rule that
applies returns before the sinks, and those of the last rule have an index for it. -/
def WritesIndexed (e : LogEntry) : Prop :=
  ∃ p, h.pipeline = some p ∧
    (p.runActions st (h.rowEntry batch row)
      (p.appliedActions (h.rowEntry batch row) batch.tag)).1 = some e ∧
    (∀ rule ∈ p.applied (h.rowEntry batch row) batch.tag, rule.rawWriteMode ≠ .rawOnly) ∧
    Indexes p.lib (Pipeline.lastOutput {} (p.applied (h.rowEntry batch row) batch.tag)) e

theorem rowEntry_tenantField : TenantField (h.rowEntry batch row) h.tenantID ↔
    h.TenantCell batch row := by
  have hmember : str "tenant_id" ∉ memberColumns := by decide
  have htimes : str "tenant_id" ≠ str "_time" ∧ str "tenant_id" ≠ str "event_timestamp" := by
    decide
  rw [TenantField, TenantCell, getField_eq_cellOf, rowEntry, buildEntry, GoMap.getElem?_eraseAll,
    if_neg hmember, getElem?_rowFields _ _ htimes]
  split_ifs with hnil
  · simp [hnil]
  · simp [hnil]

theorem rawEvent_tenant_iff {x : Routed} (hentry : x.entry.tenantID = h.tenantID) :
    (∀ ev ∈ h.rawEvent batch x, CarriesTenant ev h.tenantID) ↔
      (x.res.rawNgxIndex ≠ [] → TenantField x.entry h.tenantID) := by
  rw [rawEvent, ← hentry]
  split_ifs with hraw
  · simp [hraw]
  · simp [hraw, entryToHEC_tenant_iff]

theorem ngxEvents_tenant_iff {x : Routed}
    (hsinks : ∀ s ∈ x.res.sinks, s.entry.tenantID = h.tenantID) :
    (∀ ev ∈ (h.ngxEvents batch x).map Prod.snd, CarriesTenant ev h.tenantID) ↔
      ∀ e, (∃ s ∈ x.res.sinks, s.ngxIndex ≠ [] ∧ s.entry = e) → TenantField e h.tenantID := by
  constructor
  · rintro hall e ⟨s, hs, hne, rfl⟩
    have hev : entryToHEC h.lib s.entry s.ngxIndex batch.tag ∈
        (h.ngxEvents batch x).map Prod.snd := by
      refine List.mem_map.mpr
        ⟨(s.ngxIndex, entryToHEC h.lib s.entry s.ngxIndex batch.tag), ?_, rfl⟩
      exact List.mem_filterMap.mpr ⟨s, hs, if_neg hne⟩
    have hcarries := hall _ hev
    rw [← hsinks s hs] at hcarries ⊢
    exact (entryToHEC_tenant_iff ..).mp hcarries
  · intro hfield ev hev
    obtain ⟨⟨index, ev'⟩, hkv, rfl⟩ := List.mem_map.mp hev
    obtain ⟨s, hs, hsink⟩ := List.mem_filterMap.mp hkv
    rw [sinkEvent] at hsink
    split_ifs at hsink with hne
    obtain ⟨rfl, rfl⟩ := Prod.mk.inj (Option.some.inj hsink)
    have hok := hfield s.entry ⟨s, hs, hne, rfl⟩
    rw [← hsinks s hs] at hok ⊢
    exact (entryToHEC_tenant_iff ..).mpr hok

/-- What a routed row asks for, in terms of the row. -/
theorem routeRow_writes {x : Routed} (hx : (h.routeRow batch st row).1 = some x) :
    x.entry = h.rowEntry batch row ∧
      (x.res.rawNgxIndex ≠ [] ↔ h.WritesRaw batch st row) ∧
      (∀ s ∈ x.res.sinks, s.entry.tenantID = h.tenantID) ∧
      ∀ e, (∃ s ∈ x.res.sinks, s.ngxIndex ≠ [] ∧ s.entry = e) ↔
        h.WritesIndexed batch st row e := by
  rw [routeRow] at hx
  cases hp : h.pipeline with
  | none =>
    rw [hp] at hx
    obtain rfl := Option.some.inj hx
    refine ⟨rfl, ?_, by simp, fun e => ?_⟩
    · have hne : str "raw_" ++ batch.tag ≠ [] := Pipeline.rawIndex_ne_nil batch.tag
      simp [WritesRaw, hp, hne]
    · simp [WritesIndexed, hp]
  | some p =>
    rw [hp] at hx
    obtain ⟨res, hres, rfl⟩ := Option.map_eq_some_iff.mp hx
    obtain ⟨hraw, hentry, hindexed⟩ := process_writes hres
    refine ⟨rfl, ?_, fun s hs => ?_, fun e => ?_⟩
    · simpa [WritesRaw, hp] using hraw
    · exact p.runActions_tenantID (hentry s hs)
    · simpa [WritesIndexed, hp] using hindexed e

/-- The events of a row carry the tenant exactly where neither the row nor the actions
put another one in the fields. -/
theorem rowEvents_tenant_iff {x : Routed} (hx : (h.routeRow batch st row).1 = some x) :
    (∀ ev ∈ h.rowEvents batch x, CarriesTenant ev h.tenantID) ↔
      (h.WritesRaw batch st row → h.TenantCell batch row) ∧
        ∀ e, h.WritesIndexed batch st row e → TenantField e h.tenantID := by
  obtain ⟨hentry, hraw, hsinks, hindexed⟩ := h.routeRow_writes batch st row hx
  have hmem : (∀ ev ∈ (h.rawEvent batch x).toList, CarriesTenant ev h.tenantID) ↔
      ∀ ev ∈ h.rawEvent batch x, CarriesTenant ev h.tenantID := by
    simp [Option.mem_toList]
  rw [rowEvents, List.forall_mem_append, h.ngxEvents_tenant_iff batch hsinks, hmem,
    h.rawEvent_tenant_iff batch (by rw [hentry]; rfl), hraw, hentry,
    h.rowEntry_tenantField batch row]
  exact and_congr_right fun _ => forall_congr' fun e => by rw [hindexed]

/-- A row without events writes nothing to the lake. -/
theorem rowEvents_eq_nil {x : Routed} (hx : (h.routeRow batch st row).1 = some x)
    (hraw : ¬h.WritesRaw batch st row) (hindexed : ∀ e, ¬h.WritesIndexed batch st row e) :
    h.rowEvents batch x = [] := by
  obtain ⟨-, hrawIff, -, hindexedIff⟩ := h.routeRow_writes batch st row hx
  have hnoRaw : x.res.rawNgxIndex = [] := by
    by_contra hne
    exact hraw (hrawIff.mp hne)
  have hnoIndex : h.ngxEvents batch x = [] := by
    rw [ngxEvents, List.filterMap_eq_nil_iff]
    intro s hs
    rw [sinkEvent]
    by_contra hne
    have hs' : s.ngxIndex ≠ [] := fun hnil => hne (if_pos hnil)
    exact hindexed s.entry ((hindexedIff s.entry).mp ⟨s, hs, hs', rfl⟩)
  rw [rowEvents, rawEvent, if_pos hnoRaw, hnoIndex]
  rfl

end Handler

/-! ### Actions that spare the field -/

/-- An action never touches the field `tenant_id`, whatever entry it is run on. -/
def SparesTenant (p : Pipeline) (a : ETLAction) : Prop :=
  ∀ (st : ExecState) (e e' : LogEntry), (p.runActions st e [a]).1 = some e' →
    e'.fields[str "tenant_id"]? = e.fields[str "tenant_id"]?

theorem runActions_sparesTenant {p : Pipeline} {as : List ETLAction}
    (has : ∀ a ∈ as, SparesTenant p a) : ∀ {st : ExecState} {e e' : LogEntry},
    (p.runActions st e as).1 = some e' →
      e'.fields[str "tenant_id"]? = e.fields[str "tenant_id"]? := by
  induction as with
  | nil =>
    intro st e e' hrun
    rw [p.runActions_nil] at hrun
    rw [Option.some.inj hrun]
  | cons a as ih =>
    intro st e e' hrun
    rw [← List.singleton_append, p.runActions_append] at hrun
    have hhead := has a List.mem_cons_self st e
    rcases hone : p.runActions st e [a] with ⟨_ | e₁, st₁⟩
    · rw [hone] at hrun
      exact absurd hrun (by simp)
    · rw [hone] at hrun hhead
      rw [ih (fun b hb => has b (List.mem_cons_of_mem _ hb)) hrun, hhead e₁ rfl]

namespace Handler

variable (h : Handler) (batch : Batch) (st : ExecState) (row : List GoString)

/-- **When a row becomes events of its own tenant.** Where its raw event is written the row
must have no other tenant in its cell `tenant_id`, and where the rules write an entry to an
index their actions must leave no other tenant in that field. For actions that never touch
the field it is the cell alone that counts. -/
theorem rowEvents_tenant {x : Routed} (hx : (h.routeRow batch st row).1 = some x) :
    ((∀ ev ∈ h.rowEvents batch x, CarriesTenant ev h.tenantID) ↔
      (h.WritesRaw batch st row → h.TenantCell batch row) ∧
        ∀ e, h.WritesIndexed batch st row e → TenantField e h.tenantID) ∧
    ((∀ p, h.pipeline = some p →
        ∀ a ∈ p.appliedActions (h.rowEntry batch row) batch.tag, SparesTenant p a) →
      ((∀ ev ∈ h.rowEvents batch x, CarriesTenant ev h.tenantID) ↔
        h.rowEvents batch x = [] ∨ h.TenantCell batch row)) := by
  have hiff := h.rowEvents_tenant_iff batch st row hx
  refine ⟨hiff, fun hspares => ?_⟩
  have hfield : ∀ e, h.WritesIndexed batch st row e →
      (TenantField e h.tenantID ↔ h.TenantCell batch row) := by
    rintro e ⟨p, hp, hrun, -⟩
    rw [← h.rowEntry_tenantField batch row, TenantField, TenantField,
      runActions_sparesTenant (hspares p hp) hrun]
  rw [hiff]
  constructor
  · rintro ⟨hraw, hindexed⟩
    by_cases hw : h.WritesRaw batch st row
    · exact Or.inr (hraw hw)
    · by_cases hi : ∃ e, h.WritesIndexed batch st row e
      · obtain ⟨e, he⟩ := hi
        exact Or.inr ((hfield e he).mp (hindexed e he))
      · exact Or.inl (h.rowEvents_eq_nil batch st row hx hw fun e he => hi ⟨e, he⟩)
  · rintro (hnil | hcell)
    · rw [← hiff, hnil]
      exact fun ev hev => absurd hev List.not_mem_nil
    · exact ⟨fun _ => hcell, fun e he => (hfield e he).mpr hcell⟩

end Handler

/-- A handler without rules. -/
def rawOnly : Handler where
  lib := literalLib
  pipeline := none
  lakeClient := true
  logRepo := false
  tenantID := str "t"

/-- A batch whose one column is called `name`. -/
def columnBatch (name : String) : Batch := ⟨str "1", str "tag", [str name], 0⟩

/-- A row of another column becomes events of the tenant of the handler. -/
theorem rowEvents_tenant_rawOnly :
    ∃ x, (rawOnly.routeRow (columnBatch "user") .init [str "ann"]).1 = some x ∧
      rawOnly.rowEvents (columnBatch "user") x ≠ [] ∧
      ∀ ev ∈ rawOnly.rowEvents (columnBatch "user") x, CarriesTenant ev (str "t") := by
  refine ⟨_, rfl, List.cons_ne_nil _ _, ?_⟩
  have hcell : rawOnly.TenantCell (columnBatch "user") [str "ann"] := Or.inl rfl
  exact ((rawOnly.rowEvents_tenant (columnBatch "user") .init [str "ann"] rfl).2
    (fun p hp => absurd hp (by simp [rawOnly]))).mpr (Or.inr hcell)

/-- A sender that calls its column `tenant_id` chooses the tenant of its events. -/
theorem rowEvents_other_tenant :
    ¬∀ (h : Handler) (batch : Batch) (st : ExecState) (row : List GoString) (x : Routed),
      (h.routeRow batch st row).1 = some x →
        ∀ ev ∈ h.rowEvents batch x, CarriesTenant ev h.tenantID := by
  intro hall
  have hcarries := hall rawOnly (columnBatch "tenant_id") .init [str "other"] _ rfl
  obtain ⟨hcell, -⟩ :=
    (rawOnly.rowEvents_tenant_iff (columnBatch "tenant_id") .init [str "other"] rfl).mp hcarries
  rcases hcell (fun p hp => absurd hp (by simp [rawOnly])) with hnil | heq
  · exact absurd hnil (by decide +kernel)
  · exact absurd heq (by decide +kernel)

end Ingest

end Xsiam
