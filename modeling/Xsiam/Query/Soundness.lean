import Xsiam.Query.Service

/-!
# Which queries are answered as they ask

A query asks for the events of a tenant and a dataset, in a range of time, that meet its conditions
(`Xsiam.Query.Asked`). The service hands five filters to the store: the tenant, the dataset, an
agent, a host and a kind. So whatever else a query asks for is not looked at, be it the range of
time or a condition on any other field, and a query is answered as it asks, whatever the store
has, exactly when it asks for nothing else (`Xsiam.Query.Service.sound_iff`).

That what is carried out suffices is the reading of the five filters; that everything else goes
wrong is one event, which passes the filters and in all the rest is not what the query asks for
(`Xsiam.Query.passing`).
-/

namespace Xsiam

namespace Query

open Go Etl Separator Repository

/-! ### What a query asks for -/

/-- The kind a value is for: by name, or by number. -/
def kindOf (v : GoString) : Option UInt8 :=
  (kindNamed v).or (((digits (trimSpace v)).filter (· < 256)).map UInt8.ofNat)

/-- What a column of an event says: a member by its name, and else a field. -/
def columnText (lib : StdLib) (e : LogEntry) (name : GoString) : Option GoString :=
  if name = str "_key" then some e.key
  else if name = str "dataset" then some e.dataset
  else if name = str "kind_name" then some (modelKindName e.kind)
  else if name = str "agent_id" then some e.agentID
  else if name = str "session_id" then some e.sessionID
  else if name = str "hostname" then some e.hostname
  else if name = str "src_ip" then some e.sourceIP
  else if name = str "raw_log" ∧ e.rawLog ≠ [] then some e.rawLog
  else e.fields[name]?.map lib.sprint

/-- An event meets a condition. A kind is compared by what the value is for and a time by the
point it stands for, and everything else by its text. -/
def Meets (lib : StdLib) (e : LogEntry) (cond : GoString × GoString) : Prop :=
  if cond.1 = str "kind" then kindOf cond.2 = some e.kind
  else if cond.1 = str "event_timestamp" then lib.parseRFC3339 cond.2 = some e.eventTimestamp
  else if cond.1 = str "ingested_at" then lib.parseRFC3339 cond.2 = some e.ingestedAt
  else columnText lib e cond.1 = some cond.2

/-- A time is in a range of seconds, where zero is no bound. -/
def InRange (fromTS toTS : ℤ) (t : Time) : Prop :=
  (fromTS = 0 ∨ fromTS * 1000000000 ≤ t) ∧ (toTS = 0 ∨ t ≤ toTS * 1000000000)

/-- What stands between the separators in the filter stages of a query. -/
def filterPieces (q : GoString) : List GoString :=
  (laterStages q).flatMap fun part => if IsFilter part then pieces (filterText part) else []

theorem queryConditions_eq (q : GoString) :
    queryConditions q = (filterPieces q).filterMap condition := by
  rw [queryConditions, filterPieces, List.filterMap_flatMap]
  congr 1
  funext part
  rw [stageConditions]
  split_ifs <;> rfl

/-- An event is one that a query asks for. -/
structure Asked (lib : StdLib) (ctx : Option GoString) (q : GoString) (fromTS toTS : ℤ)
    (dataset : GoString) (e : LogEntry) : Prop where
  tenant : e.tenantID = tenantOf ctx
  dataset : e.dataset = dataset
  inRange : InRange fromTS toTS e.eventTimestamp
  meets : ∀ cond ∈ queryConditions q, Meets lib e cond

/-- **A query is answered as it asks**, whatever the store has: every row is the row of an event
that the query asks for, and what stands in a filter stage is a condition. -/
def Service.Sound (s : Service) (ctx : Option GoString) (q : GoString) (fromTS toTS : ℤ) : Prop :=
  ∀ c result, (s.over c).query ctx q fromTS toTS = some (.ok result) →
    (∃ p es pageMeta, parseXQL q = some p ∧
      listLogEntries c (logOptions ctx p) = .ok (es, pageMeta) ∧ s.answer p es = result ∧
        ∀ e ∈ es, Asked s.lib ctx q fromTS toTS p.dataset e) ∧
      ∀ piece ∈ filterPieces q, trimSpace piece ≠ [] → (condition piece).isSome = true

/-! ### What the service carries out -/

/-- A condition that the filters of the store carry out: on the agent or the host, and no other
value is asked of it further on; on the kind, and the kind asked for last is the same; or one that
those filters and the dataset bring about. -/
def Carried (p : Parsed (GoMap GoString)) (cond : GoString × GoString) : Prop :=
  if cond.1 = str "agent_id" ∨ cond.1 = str "hostname" then
    cond.2 ≠ [] ∧ p.filters[cond.1]? = some cond.2
  else if cond.1 = str "kind" then
    ∃ v, p.filters[str "kind"]? = some v ∧ kindOf cond.2 = some (kindFromString v)
  else if cond.1 = str "kind_name" then
    ∃ v, p.filters[str "kind"]? = some v ∧ modelKindName (kindFromString v) = cond.2
  else cond.1 = str "dataset" ∧ cond.2 = p.dataset

/-- A parsed query asks for nothing that the service does not carry out. -/
structure CarriedOut (ctx : Option GoString) (q : GoString) (fromTS toTS : ℤ)
    (p : Parsed (GoMap GoString)) : Prop where
  sorts : (logOptions ctx p).toList.SortsByPath
  noStart : fromTS = 0
  noEnd : toTS = 0
  carried : ∀ piece ∈ filterPieces q, trimSpace piece ≠ [] →
    ∃ cond, condition piece = some cond ∧ Carried p cond

/-- A blank is no condition. -/
theorem trimSpace_ne_nil_of_condition {piece : GoString} {cond : GoString × GoString}
    (h : condition piece = some cond) : trimSpace piece ≠ [] := by
  intro hnil
  rw [condition, hnil] at h
  cases h

theorem CarriedOut.of_mem {ctx : Option GoString} {q : GoString} {fromTS toTS : ℤ}
    {p : Parsed (GoMap GoString)} (h : CarriedOut ctx q fromTS toTS p)
    {cond : GoString × GoString} (hcond : cond ∈ queryConditions q) : Carried p cond := by
  rw [queryConditions_eq, List.mem_filterMap] at hcond
  obtain ⟨piece, hpiece, hread⟩ := hcond
  obtain ⟨cond', hread', hcarried⟩ :=
    h.carried piece hpiece (trimSpace_ne_nil_of_condition hread)
  rw [hread, Option.some.injEq] at hread'
  rwa [hread']

/-! ### What is carried out is met -/

section Event

variable {lib : StdLib} {ctx : Option GoString} {p : Parsed (GoMap GoString)}

/-- An event that passes the filters meets the conditions they carry out. -/
theorem meets_of_carried {e : LogEntry} (hpass : (logOptions ctx p).toList.passes e = true)
    (hds : p.dataset ≠ []) {cond : GoString × GoString} (h : Carried p cond) : Meets lib e cond := by
  obtain ⟨-, hdataset, hagent, hhost, hkind⟩ := passes_iff.mp hpass
  obtain ⟨name, v⟩ := cond
  unfold Carried at h
  simp only at h
  split_ifs at h with hid hk hkn
  · obtain ⟨hv, hlast⟩ := h
    rcases hid with rfl | rfl
    · have heq : (logOptions ctx p).agentID = v := by simp [logOptions, hlast]
      rw [heq] at hagent
      simpa [Meets, columnText] using hagent.resolve_left hv
    · have heq : (logOptions ctx p).hostname = v := by simp [logOptions, hlast]
      rw [heq] at hhost
      simpa [Meets, columnText] using hhost.resolve_left hv
  · obtain ⟨last, hlast, hof⟩ := h
    have hask : (logOptions ctx p).kind = some (kindFromString last) := by
      simp [logOptions, hlast]
    simpa [Meets, hk, hkind _ hask] using hof
  · obtain ⟨last, hlast, hname⟩ := h
    have hask : (logOptions ctx p).kind = some (kindFromString last) := by
      simp [logOptions, hlast]
    simpa [Meets, columnText, hkn, hkind _ hask] using hname
  · obtain ⟨rfl, rfl⟩ := h
    have heq : e.dataset = p.dataset := hdataset.resolve_left hds
    simpa [Meets, columnText] using heq

/-! ### One event that is nothing else -/

/-- A kind that a value is not for. -/
def spareKind (v : GoString) : UInt8 := if kindOf v = some logKindProcess then 0 else 1

theorem kindOf_ne_spareKind (v : GoString) : kindOf v ≠ some (spareKind v) := by
  rw [spareKind]
  split_ifs with h
  · rw [h]
    decide
  · exact h

/-- Nor is it the name of that kind. -/
theorem modelKindName_spareKind_ne (v : GoString) : modelKindName (spareKind v) ≠ v := by
  intro h
  have hcases : spareKind v = 0 ∨ spareKind v = 1 := by
    rw [spareKind]
    split_ifs <;> simp
  refine kindOf_ne_spareKind v ?_
  rcases hcases with hk | hk
  · rw [hk] at h ⊢
    rw [← h]
    decide +kernel
  · rw [hk] at h ⊢
    rw [← h]
    decide +kernel

/-- An event that passes the filters of a list, and says `other` wherever they leave it open. -/
def passing (o : LogListOptions) (other : GoString) (kind : UInt8) (t : Time) : LogEntry where
  key := other
  tenantID := o.tenantID
  dataset := o.dataset
  kind := o.kind.getD kind
  agentID := if o.agentID = [] then other else o.agentID
  sessionID := other
  hostname := if o.hostname = [] then other else o.hostname
  sourceIP := other
  fields := ∅
  rawLog := other
  eventTimestamp := t
  ingestedAt := t

theorem passes_passing (o : LogListOptions) (other : GoString) (kind : UInt8) (t : Time) :
    o.toList.passes (passing o other kind t) = true := by
  refine passes_iff.mpr ⟨rfl, Or.inr rfl, ?_, ?_, ?_⟩
  · by_cases h : o.agentID = []
    · exact Or.inl h
    · exact Or.inr (if_neg h)
  · by_cases h : o.hostname = []
    · exact Or.inl h
    · exact Or.inr (if_neg h)
  · rintro k hk
    change o.kind.getD kind = k
    rw [hk]
    rfl

/-- An event that passes the filters and meets a condition only if it has to. -/
def contrary (lib : StdLib) (o : LogListOptions) (v : GoString) : LogEntry :=
  passing o (0 :: v) (spareKind v) ((lib.parseRFC3339 v).getD 0 + 1)

theorem parseRFC3339_ne (lib : StdLib) (v : GoString) :
    lib.parseRFC3339 v ≠ some ((lib.parseRFC3339 v).getD 0 + 1) := by
  intro h
  rw [h, Option.getD_some] at h
  have := Option.some.inj h
  omega

/-- A text that takes the place of an empty one is the value only where the value was there. -/
theorem eq_some_of_filled {asked : Option GoString} {v : GoString}
    (h : (if asked.getD [] = [] then 0 :: v else asked.getD []) = v) :
    v ≠ [] ∧ asked = some v := by
  cases asked with
  | none => exact absurd h (List.cons_ne_self 0 v)
  | some a =>
    rw [Option.getD_some] at h
    split_ifs at h with hnil
    · exact absurd h (List.cons_ne_self 0 v)
    · exact ⟨h ▸ hnil, by rw [h]⟩

/-- **It has to only where the condition is carried out.** -/
theorem carried_of_meets_contrary {cond : GoString × GoString}
    (h : Meets lib (contrary lib (logOptions ctx p) cond.2) cond) : Carried p cond := by
  obtain ⟨name, v⟩ := cond
  have hkind : (contrary lib (logOptions ctx p) v).kind =
      (p.filters[str "kind"]?.map kindFromString).getD (spareKind v) := rfl
  unfold Carried
  simp only
  -- a column is what the plan filled in, or something that no condition names
  split_ifs with hid hk hkn
  · rcases hid with rfl | rfl
    · have heq : (contrary lib (logOptions ctx p) v).agentID = v := by
        simpa [Meets, columnText] using h
      exact eq_some_of_filled heq
    · have heq : (contrary lib (logOptions ctx p) v).hostname = v := by
        simpa [Meets, columnText] using h
      exact eq_some_of_filled heq
  · have hof : kindOf v = some (contrary lib (logOptions ctx p) v).kind := by
      simpa [Meets, hk] using h
    rw [hkind] at hof
    cases hlast : p.filters[str "kind"]? with
    | none =>
      rw [hlast] at hof
      exact absurd hof (kindOf_ne_spareKind v)
    | some last =>
      rw [hlast] at hof
      exact ⟨last, rfl, hof⟩
  · have hname : modelKindName (contrary lib (logOptions ctx p) v).kind = v := by
      simpa [Meets, columnText, hkn] using h
    rw [hkind] at hname
    cases hlast : p.filters[str "kind"]? with
    | none =>
      rw [hlast] at hname
      exact absurd hname (modelKindName_spareKind_ne v)
    | some last =>
      rw [hlast] at hname
      exact ⟨last, rfl, hname⟩
  · by_cases hds : name = str "dataset"
    · refine ⟨hds, ?_⟩
      have heq : (contrary lib (logOptions ctx p) v).dataset = v := by
        simpa [Meets, columnText, hds] using h
      exact heq.symm
    · -- any other column says `other`, and no field is there
      rw [not_or] at hid
      simp only [Meets, columnText, if_neg hk, if_neg hkn, if_neg hds, if_neg hid.1,
        if_neg hid.2] at h
      have hother : ¬some (0 :: v) = some v := fun heq =>
        List.cons_ne_self 0 v (Option.some.inj heq)
      split_ifs at h
      · exact absurd h (parseRFC3339_ne lib v)
      · exact absurd h (parseRFC3339_ne lib v)
      · exact absurd h hother
      · exact absurd h hother
      · exact absurd h hother
      · exact absurd h hother
      · cases h

end Event

/-! ### Soundness -/

section Sound

variable {s : Service} {ctx : Option GoString} {q : GoString} {fromTS toTS : ℤ}
  {p : Parsed (GoMap GoString)}

/-- What is carried out is answered as it is asked. -/
theorem Service.sound_of_carriedOut
    (h : ∀ p, parseXQL q = some p → p.dataset ≠ [] → CarriedOut ctx q fromTS toTS p) :
    s.Sound ctx q fromTS toTS := by
  intro c result hresult
  obtain ⟨p, es, pageMeta, hp, hds, hlist, hanswer⟩ := Service.query_eq_ok.mp hresult
  have hout := h p hp hds
  refine ⟨⟨p, es, pageMeta, hp, hlist, hanswer, fun e he => ?_⟩, fun piece hpiece hne => ?_⟩
  · have hpass := passes_of_listLogEntries hout.sorts rfl hlist e he
    obtain ⟨htenant, hdataset, -⟩ := passes_iff.mp hpass
    exact
      { tenant := htenant
        dataset := hdataset.resolve_left hds
        inRange := ⟨Or.inl hout.noStart, Or.inl hout.noEnd⟩
        meets := fun cond hcond => meets_of_carried hpass hds (hout.of_mem hcond) }
  · obtain ⟨cond, hread, -⟩ := hout.carried piece hpiece hne
    rw [hread]
    rfl

/-- Whatever a store answers with is what a sound query asks for. -/
theorem Service.Sound.asked (h : s.Sound ctx q fromTS toTS) (hp : parseXQL q = some p)
    (hds : p.dataset ≠ []) {c : DBCollection LogEntry} {es : List LogEntry} {pageMeta : PageMeta}
    (hlist : listLogEntries c (logOptions ctx p) = .ok (es, pageMeta)) :
    ∀ e ∈ es, Asked s.lib ctx q fromTS toTS p.dataset e := by
  obtain ⟨⟨p', es', pageMeta', hp', hlist', -, hasked⟩, -⟩ :=
    h c _ (Service.query_eq_ok.mpr ⟨p, es, pageMeta, hp, hds, hlist, rfl⟩)
  rw [hp, Option.some.injEq] at hp'
  subst hp'
  rw [hlist, Except.ok.injEq, Prod.mk.injEq] at hlist'
  rwa [hlist'.1]

/-- A statement that is not the program's may be answered with anything. -/
theorem Service.Sound.sorts (h : s.Sound ctx q fromTS toTS) (hp : parseXQL q = some p)
    (hds : p.dataset ≠ []) : (logOptions ctx p).toList.SortsByPath := by
  by_contra hnot
  let stranger : LogEntry := { passing (logOptions ctx p) [] 0 0 with dataset := [] }
  let c : DBCollection LogEntry :=
    { DBCollection.unsorted ([] : List LogEntry) with other := fun _ _ => .ok [stranger] }
  have hrows : c.rows (logOptions ctx p).toList = .ok [stranger] := by
    rw [DBCollection.rows, if_pos hnot]
  obtain ⟨pageMeta, hlist⟩ :
      ∃ pageMeta, listLogEntries c (logOptions ctx p) = .ok ([stranger], pageMeta) := by
    rw [listLogEntries, findPaged, hrows]
    exact ⟨_, rfl⟩
  exact hds (h.asked hp hds hlist stranger List.mem_cons_self).dataset.symm

/-- An event that passes the filters is one that a sound query asks for. -/
theorem Service.Sound.passing_asked (h : s.Sound ctx q fromTS toTS) (hp : parseXQL q = some p)
    (hds : p.dataset ≠ []) (other : GoString) (kind : UInt8) (t : Time) :
    Asked s.lib ctx q fromTS toTS p.dataset (passing (logOptions ctx p) other kind t) := by
  obtain ⟨pageMeta, hlist⟩ := listLogEntries_single (h.sorts hp hds) rfl
    (passes_passing (logOptions ctx p) other kind t)
  exact h.asked hp hds hlist _ List.mem_cons_self

/-- What stands in the filter stages of a sound query are conditions. -/
theorem Service.Sound.conditions (h : s.Sound ctx q fromTS toTS) (hp : parseXQL q = some p)
    (hds : p.dataset ≠ []) :
    ∀ piece ∈ filterPieces q, trimSpace piece ≠ [] → (condition piece).isSome = true := by
  obtain ⟨pageMeta, hlist⟩ := listLogEntries_single (h.sorts hp hds) rfl
    (passes_passing (logOptions ctx p) [] 0 0)
  exact (h _ _ (Service.query_eq_ok.mpr ⟨p, _, pageMeta, hp, hds, hlist, rfl⟩)).2

theorem Service.Sound.carried (h : s.Sound ctx q fromTS toTS) (hp : parseXQL q = some p)
    (hds : p.dataset ≠ []) {cond : GoString × GoString} (hcond : cond ∈ queryConditions q) :
    Carried p cond :=
  carried_of_meets_contrary ((h.passing_asked hp hds _ _ _).meets cond hcond)

theorem Service.Sound.carriedOut (h : s.Sound ctx q fromTS toTS) (hp : parseXQL q = some p)
    (hds : p.dataset ≠ []) : CarriedOut ctx q fromTS toTS p where
  sorts := h.sorts hp hds
  noStart := by
    -- an event before the start
    obtain ⟨hstart, -⟩ := (h.passing_asked hp hds [] 0 (fromTS * 1000000000 - 1)).inRange
    refine hstart.resolve_right fun hle => ?_
    change fromTS * 1000000000 ≤ fromTS * 1000000000 - 1 at hle
    omega
  noEnd := by
    -- an event behind the end
    obtain ⟨-, hend⟩ := (h.passing_asked hp hds [] 0 (toTS * 1000000000 + 1)).inRange
    refine hend.resolve_right fun hle => ?_
    change toTS * 1000000000 + 1 ≤ toTS * 1000000000 at hle
    omega
  carried := by
    intro piece hpiece hne
    obtain ⟨cond, hread⟩ := Option.isSome_iff_exists.mp (h.conditions hp hds piece hpiece hne)
    have hcond : cond ∈ queryConditions q := by
      rw [queryConditions_eq]
      exact List.mem_filterMap.mpr ⟨piece, hpiece, hread⟩
    exact ⟨cond, hread, h.carried hp hds hcond⟩

/-- **Which queries are answered as they ask**: those that the parser or the service refuses, and
those that ask for nothing but an agent, a host and a kind of the tenant's dataset, no two of any,
sorted by one attribute path. -/
theorem Service.sound_iff (s : Service) (ctx : Option GoString) (q : GoString) (fromTS toTS : ℤ) :
    s.Sound ctx q fromTS toTS ↔
      ∀ p, parseXQL q = some p → p.dataset ≠ [] → CarriedOut ctx q fromTS toTS p :=
  ⟨fun h _ hp hds => h.carriedOut hp hds, Service.sound_of_carriedOut⟩

end Sound

/-- A service without a lake. -/
def plainService : Service where
  lib := literalLib
  lakeClient _ _ _ := .error []
  logRepo := none

/-- A sound query that the parser takes, for a dataset, is carried out. -/
theorem Service.Sound.exists_carriedOut {s : Service} {ctx : Option GoString} {q d : GoString}
    {fromTS toTS : ℤ} (h : s.Sound ctx q fromTS toTS)
    (hread : (parseXQL q).map (·.dataset) = some d) (hd : d ≠ []) :
    ∃ p, CarriedOut ctx q fromTS toTS p := by
  obtain ⟨p, hp, rfl⟩ := Option.map_eq_some_iff.mp hread
  exact ⟨p, h.carriedOut hp hd⟩

/-- An address is not asked of the store, a kind that is none stands for system logs, what is
behind an `and` in a value is dropped, and the range of time is not looked at. -/
theorem not_sound :
    ¬plainService.Sound none (str "dataset = xdr_data | filter src_ip = \"10.0.0.1\"") 0 0 ∧
      ¬plainService.Sound none (str "dataset = xdr_data | filter kind = \"malware\"") 0 0 ∧
        ¬plainService.Sound none (str "dataset = xdr_data | filter hostname = \"a and b\"") 0 0 ∧
          ¬plainService.Sound none (str "dataset = xdr_data") 1700000000 1700003600 := by
  have hd : str "xdr_data" ≠ [] := by decide
  refine ⟨fun h => ?_, fun h => ?_, fun h => ?_, fun h => ?_⟩
  · obtain ⟨p, hout⟩ := h.exists_carriedOut (by decide +kernel) hd
    have hcarried : Carried p (str "src_ip", str "10.0.0.1") := hout.of_mem (by decide +kernel)
    simp [Carried] at hcarried
  · obtain ⟨p, hout⟩ := h.exists_carriedOut (by decide +kernel) hd
    have hcarried : Carried p (str "kind", str "malware") := hout.of_mem (by decide +kernel)
    have hnone : kindOf (str "malware") = none := by decide +kernel
    simp [Carried, hnone] at hcarried
  · obtain ⟨p, hout⟩ := h.exists_carriedOut (by decide +kernel) hd
    obtain ⟨cond, hread, -⟩ := hout.carried (str "b\"") (by decide +kernel) (by decide +kernel)
    have hnone : condition (str "b\"") = none := by decide +kernel
    rw [hnone] at hread
    cases hread
  · obtain ⟨p, hout⟩ := h.exists_carriedOut (by decide +kernel) hd
    exact absurd hout.noStart (by decide)

end Query

end Xsiam
