import Xsiam.Ingest.Handler

/-!
# What the raw event keeps of a row

Without rules, an event of the lake is made from a row in two steps: `buildEntry` takes
some columns out of the fields and fills the members of the entry from them, and
`entryToHEC` puts members and fields together again. A cell is kept when the event has its
text, under the name of its column or under the member that the column is promoted to.

The fields are taken out to avoid duplication, but not all that is taken out stands
somewhere else: the second of two addresses, an agent ID that is not the one of the frame,
a time that is not printed as it was written, a kind without a name.
`Xsiam.Ingest.Handler.keepsRow_iff` says exactly which rows lose nothing.
-/

namespace Xsiam

namespace Ingest

open Go

/-! ### Fields and members -/

/-- A column that fills no member is a field where its cell is not empty. -/
theorem getElem?_buildEntry_fields (row : List GoString) (colIdx : GoMap ℕ) {name : GoString}
    (hname : name ∉ memberColumns) :
    (GoMap.eraseAll (rowFields row colIdx) memberColumns)[name]? =
      if cellOf row colIdx name = [] then none else some (.str (cellOf row colIdx name)) := by
  have htimes : name ≠ str "_time" ∧ name ≠ str "event_timestamp" := by
    constructor
    all_goals
      rintro rfl
      exact hname (by decide)
  rw [GoMap.getElem?_eraseAll, if_neg hname, getElem?_rowFields row colIdx htimes]

/-- What the members of an entry say under each name. -/
theorem getElem?_hecMembers (lib : StdLib) (e : LogEntry) (name : GoString) :
    (hecMembers lib e)[name]? =
      if name = str "raw_log" ∧ e.rawLog ≠ [] then some (.str e.rawLog)
      else if name = str "ingested_at" then some (.str (lib.formatRFC3339 e.ingestedAt))
      else if name = str "event_timestamp" then some (.str (lib.formatRFC3339 e.eventTimestamp))
      else if name = str "session_id" then some (.str e.sessionID)
      else if name = str "src_ip" then some (.str e.sourceIP)
      else if name = str "hostname" then some (.str e.hostname)
      else if name = str "agent_id" then some (.str e.agentID)
      else if name = str "kind_name" then some (.str (modelKindName e.kind))
      else if name = str "kind" then some (.int .uint8 e.kind.toNat)
      else if name = str "dataset" then some (.str e.dataset)
      else if name = str "tenant_id" then some (.str e.tenantID)
      else none := by
  rw [hecMembers]
  by_cases hraw : e.rawLog = []
  · simp only [hraw, if_true, ne_eq, not_true, and_false, if_false, GoMap.insertAll,
      List.foldl_cons, List.foldl_nil, GoMap.getElem?_insert, Std.ExtTreeMap.getElem?_empty]
  · simp only [hraw, if_false, ne_eq, not_false_iff, and_true, GoMap.insertAll,
      List.foldl_cons, List.foldl_nil, GoMap.getElem?_insert, Std.ExtTreeMap.getElem?_empty]

/-! ### What it means to keep a cell -/

/-- An event has a text under a name, as it is printed. -/
def HECEvent.Shows (lib : StdLib) (ev : HECEvent) (name text : GoString) : Prop :=
  (ev.event[name]?).map lib.sprint = some text

/-- The members a column is promoted to, besides the one of its own name. -/
def promotedTo (col : GoString) : List GoString :=
  if col = str "source_ip" then [str "src_ip"]
  else if col = str "_time" then [str "event_timestamp"]
  else if col = str "kind" then [str "kind_name"]
  else []

/-- An event keeps the cell of a column. -/
def HECEvent.Keeps (lib : StdLib) (ev : HECEvent) (col cell : GoString) : Prop :=
  ∃ name ∈ col :: promotedTo col, ev.Shows lib name cell

/-- The first of two texts that is a time, or else the time of the batch, as it is
printed. -/
def printedTime (lib : StdLib) (first second : GoString) (now : Time) : GoString :=
  lib.formatRFC3339 (((cellTime lib first).or (cellTime lib second)).getD now)

namespace Handler

variable (h : Handler) (batch : Batch) (row : List GoString)

/-- The raw event of a row, without rules. -/
def rowEvent (index : GoString) : HECEvent :=
  entryToHEC h.lib (h.rowEntry batch row) index batch.tag

/-- The raw event loses no cell of its row that is not empty. -/
def KeepsRow (index : GoString) : Prop :=
  ∀ (i : ℕ) (cell : GoString), row[i]? = some cell → cell ≠ [] →
    ∃ col, batch.columns[i]? = some col ∧ (h.rowEvent batch row index).Keeps h.lib col cell

/-- The cell of a row under a name, that of the last column of this name. -/
def cell (name : GoString) : GoString := cellOf row (buildColIndex batch.columns) name

/-- The kind of a row. -/
def kind : UInt8 := kindFromTag batch.tag (cell batch row (str "kind"))

/-- What stands under a name where the cell is empty or missing. -/
def standIn (name : GoString) : GoString :=
  if name = str "src_ip" then cell batch row (str "source_ip")
  else if name = str "kind_name" then modelKindName (kind batch row)
  else if name = str "tenant_id" then h.tenantID
  else if name = str "dataset" then
    if kind batch row = logKindSyslog ∧ tagToDataset batch.tag = datasetEndpoint then datasetSyslog
    else tagToDataset batch.tag
  else if name = str "ingested_at" then h.lib.formatRFC3339 batch.now
  else []

/-- What stands under a name: the cell, if there is something in it. -/
def standing (name : GoString) : GoString :=
  if cell batch row name = [] then h.standIn batch row name else cell batch row name

/-- A cell that is not lost. The agent is that of the frame; a time is printed the same
way, and counts only if no earlier time cell does; a kind is a number, or stands under its
name; the second address is that of the first column for it, or there is none; and of two
columns of one name the last one counts. -/
def CellFits (col text : GoString) : Prop :=
  if col = str "agent_id" then batch.agentID = text
  else if col = str "_time" ∨ col = str "event_timestamp" then
    printedTime h.lib (cell batch row (str "_time")) (cell batch row (str "event_timestamp"))
      batch.now = text
  else if col = str "kind" then
    str (toString (kind batch row).toNat) = text ∨ h.standing batch row (str "kind_name") = text
  else if col = str "source_ip" then h.standing batch row (str "src_ip") = text
  else h.standing batch row col = text

/-- Each cell that is not empty has a column, and is not lost. -/
def RowFits : Prop :=
  ∀ (i : ℕ) (text : GoString), row[i]? = some text → text ≠ [] →
    ∃ col, batch.columns[i]? = some col ∧ h.CellFits batch row col text

/-! ### What stands in the event -/

variable {batch row} {index : GoString}

theorem rowEvent_member {name : GoString} (hname : name ∈ memberColumns) :
    (h.rowEvent batch row index).event[name]? = (hecMembers h.lib (h.rowEntry batch row))[name]? := by
  rw [rowEvent, entryToHEC, GoMap.getElem?_copy]
  have hfields : (h.rowEntry batch row).fields[name]? = none := by
    rw [rowEntry, buildEntry, GoMap.getElem?_eraseAll, if_pos hname]
  rw [hfields, Option.none_or]

theorem rowEvent_field {name : GoString} (hname : name ∉ memberColumns) :
    (h.rowEvent batch row index).event[name]? =
      if cell batch row name = [] then (hecMembers h.lib (h.rowEntry batch row))[name]?
      else some (.str (cell batch row name)) := by
  rw [rowEvent, entryToHEC, GoMap.getElem?_copy]
  have hfields : (h.rowEntry batch row).fields[name]? =
      if cell batch row name = [] then none else some (.str (cell batch row name)) :=
    getElem?_buildEntry_fields row (buildColIndex batch.columns) hname
  rw [hfields]
  split_ifs
  · rw [Option.none_or]
  · rw [Option.some_or]

/-- The members of a row's entry that are texts whatever the row says. -/
def memberTexts (batch : Batch) (row : List GoString) : List (GoString × GoString) :=
  [(str "agent_id", batch.agentID), (str "hostname", cell batch row (str "hostname")),
    (str "src_ip", if cell batch row (str "src_ip") = [] then cell batch row (str "source_ip")
      else cell batch row (str "src_ip")),
    (str "session_id", cell batch row (str "session_id")),
    (str "event_timestamp", printedTime h.lib (cell batch row (str "_time"))
      (cell batch row (str "event_timestamp")) batch.now),
    (str "kind_name", h.standIn batch row (str "kind_name")),
    (str "tenant_id", h.standIn batch row (str "tenant_id")),
    (str "dataset", h.standIn batch row (str "dataset")),
    (str "ingested_at", h.standIn batch row (str "ingested_at"))]

theorem getElem?_of_mem_memberTexts {name s : GoString} (hmem : (name, s) ∈ h.memberTexts batch row) :
    (hecMembers h.lib (h.rowEntry batch row))[name]? = some (.str s) := by
  simp only [memberTexts, List.mem_cons, List.not_mem_nil, or_false, Prod.mk.injEq] at hmem
  rw [getElem?_hecMembers]
  rcases hmem with ⟨rfl, rfl⟩ | ⟨rfl, rfl⟩ | ⟨rfl, rfl⟩ | ⟨rfl, rfl⟩ | ⟨rfl, rfl⟩ | ⟨rfl, rfl⟩ |
    ⟨rfl, rfl⟩ | ⟨rfl, rfl⟩ | ⟨rfl, rfl⟩
  all_goals simp only [str_inj, String.reduceEq, false_and, if_false, if_true]
  all_goals rfl

/-- Such a text is what the event shows, where no field is in the way. -/
theorem shows_memberText {name s : GoString} (hmem : (name, s) ∈ h.memberTexts batch row)
    (hplace : name ∈ memberColumns ∨ cell batch row name = []) (text : GoString) :
    (h.rowEvent batch row index).Shows h.lib name text ↔ s = text := by
  have hevent : (h.rowEvent batch row index).event[name]? = some (.str s) := by
    by_cases hmember : name ∈ memberColumns
    · rw [rowEvent_member h hmember, getElem?_of_mem_memberTexts h hmem]
    · rw [rowEvent_field h hmember, if_pos (hplace.resolve_left hmember),
        getElem?_of_mem_memberTexts h hmem]
  rw [HECEvent.Shows, hevent, Option.map_some, StdLib.sprint_str, Option.some.injEq]

/-- The agent ID is that of the frame. -/
theorem shows_agentID (text : GoString) :
    (h.rowEvent batch row index).Shows h.lib (str "agent_id") text ↔ batch.agentID = text :=
  shows_memberText h (by simp [memberTexts]) (Or.inl (by decide)) text

/-- The time is the one that the cells give. -/
theorem shows_eventTimestamp (text : GoString) :
    (h.rowEvent batch row index).Shows h.lib (str "event_timestamp") text ↔
      printedTime h.lib (cell batch row (str "_time")) (cell batch row (str "event_timestamp"))
        batch.now = text :=
  shows_memberText h (by simp [memberTexts]) (Or.inl (by decide)) text

theorem shows_kind (text : GoString) :
    (h.rowEvent batch row index).Shows h.lib (str "kind") text ↔
      str (toString (kind batch row).toNat) = text := by
  rw [HECEvent.Shows, rowEvent_member h (by decide), getElem?_hecMembers]
  simp only [str_inj, String.reduceEq, ne_eq, false_and, if_false, if_true, Option.map_some,
    Option.some.injEq]
  exact Iff.rfl

/-- Two columns are only there under another name. -/
theorem not_shows_taken {name : GoString} (hname : name = str "source_ip" ∨ name = str "_time")
    (text : GoString) : ¬(h.rowEvent batch row index).Shows h.lib name text := by
  have hmember : name ∈ memberColumns := by
    rcases hname with rfl | rfl <;> decide
  rw [HECEvent.Shows, rowEvent_member h hmember, getElem?_hecMembers]
  rcases hname with rfl | rfl <;> simp

/-- Nothing stands in for the cell of a column that the members have for themselves. -/
theorem standing_own {name : GoString}
    (hname : name = str "hostname" ∨ name = str "session_id" ∨ name = str "raw_log") :
    h.standing batch row name = cell batch row name := by
  have hstandIn : h.standIn batch row name = [] := by
    rw [standIn]
    rcases hname with rfl | rfl | rfl <;> simp
  rw [standing, hstandIn]
  split_ifs with hnil
  · exact hnil.symm
  · rfl

/-- The columns that fill a member of their own show what stands under their name. -/
theorem shows_standing_member {name text : GoString} (htext : text ≠ [])
    (hname : name = str "hostname" ∨ name = str "src_ip" ∨ name = str "session_id" ∨
      name = str "raw_log") :
    (h.rowEvent batch row index).Shows h.lib name text ↔ h.standing batch row name = text := by
  rcases hname with rfl | rfl | rfl | rfl
  · rw [standing_own h (Or.inl rfl)]
    exact shows_memberText h (by simp [memberTexts]) (Or.inl (by decide)) text
  · rw [standing, standIn, if_pos rfl]
    exact shows_memberText h (by simp [memberTexts]) (Or.inl (by decide)) text
  · rw [standing_own h (Or.inr (Or.inl rfl))]
    exact shows_memberText h (by simp [memberTexts]) (Or.inl (by decide)) text
  · -- the one member that is left out where it is empty
    rw [standing_own h (Or.inr (Or.inr rfl)), HECEvent.Shows, rowEvent_member h (by decide),
      getElem?_hecMembers]
    have hraw : (h.rowEntry batch row).rawLog = cell batch row (str "raw_log") := rfl
    rw [hraw]
    by_cases hnil : cell batch row (str "raw_log") = []
    · simp [hnil, htext.symm]
    · simp [hnil]

/-- A name without a member and without a cell shows nothing. -/
theorem not_shows_unknown {name : GoString} (hmember : name ∉ memberColumns)
    (hcell : cell batch row name = []) (hkindName : name ≠ str "kind_name")
    (htenant : name ≠ str "tenant_id") (hdataset : name ≠ str "dataset")
    (hingested : name ≠ str "ingested_at") (text : GoString) :
    ¬(h.rowEvent batch row index).Shows h.lib name text := by
  rw [HECEvent.Shows, rowEvent_field h hmember, if_pos hcell, getElem?_hecMembers]
  simp only [memberColumns, List.mem_cons, List.not_mem_nil, or_false, not_or] at hmember
  obtain ⟨hhost, hsrc, -, hsession, hkind, -, hevent, hagent, hraw⟩ := hmember
  simp [hhost, hsrc, hsession, hkind, hevent, hagent, hraw, hkindName, htenant, hdataset, hingested]

/-- Without a cell, the event shows what stands in for it. -/
theorem shows_standIn {name text : GoString} (htext : text ≠ []) (hmember : name ∉ memberColumns)
    (hcell : cell batch row name = []) :
    (h.rowEvent batch row index).Shows h.lib name text ↔ h.standIn batch row name = text := by
  by_cases hstands : name ∈ [str "kind_name", str "tenant_id", str "dataset", str "ingested_at"]
  · refine shows_memberText h ?_ (Or.inr hcell) text
    simp only [List.mem_cons, List.not_mem_nil, or_false] at hstands
    rcases hstands with rfl | rfl | rfl | rfl <;> simp [memberTexts]
  · simp only [List.mem_cons, List.not_mem_nil, or_false, not_or] at hstands
    obtain ⟨hkindName, htenant, hdataset, hingested⟩ := hstands
    have hsrc : name ≠ str "src_ip" := by
      rintro rfl
      exact hmember (by decide)
    rw [standIn, if_neg hsrc, if_neg hkindName, if_neg htenant, if_neg hdataset, if_neg hingested]
    exact iff_of_false
      (not_shows_unknown h hmember hcell hkindName htenant hdataset hingested text) htext.symm

/-- Under every other name stands the cell, or what stands in for it. -/
theorem shows_standing {name text : GoString} (htext : text ≠ [])
    (hname : name ≠ str "agent_id" ∧ name ≠ str "_time" ∧ name ≠ str "event_timestamp" ∧
      name ≠ str "kind" ∧ name ≠ str "source_ip") :
    (h.rowEvent batch row index).Shows h.lib name text ↔ h.standing batch row name = text := by
  by_cases hmember : name ∈ memberColumns
  · refine shows_standing_member h htext ?_
    simp only [memberColumns, List.mem_cons, List.not_mem_nil, or_false] at hmember
    tauto
  · rw [standing]
    by_cases hcell : cell batch row name = []
    · rw [if_pos hcell]
      exact shows_standIn h htext hmember hcell
    · rw [HECEvent.Shows, rowEvent_field h hmember, if_neg hcell, if_neg hcell, Option.map_some,
        StdLib.sprint_str, Option.some.injEq]

/-- **Which cells are kept.** -/
theorem keeps_iff {col text : GoString} (htext : text ≠ []) :
    (h.rowEvent batch row index).Keeps h.lib col text ↔ h.CellFits batch row col text := by
  rw [HECEvent.Keeps, CellFits]
  by_cases hagent : col = str "agent_id"
  · subst hagent
    simp [promotedTo, shows_agentID]
  by_cases htime : col = str "_time"
  · subst htime
    simp [promotedTo, not_shows_taken, shows_eventTimestamp]
  by_cases hevent : col = str "event_timestamp"
  · subst hevent
    simp [promotedTo, shows_eventTimestamp]
  by_cases hkind : col = str "kind"
  · subst hkind
    simp [promotedTo, shows_kind, shows_standing h htext]
  by_cases hsource : col = str "source_ip"
  · subst hsource
    simp [promotedTo, not_shows_taken, shows_standing h htext]
  have hshows : (h.rowEvent batch row index).Shows h.lib col text ↔ h.standing batch row col = text :=
    shows_standing h htext ⟨hagent, htime, hevent, hkind, hsource⟩
  rw [if_neg hagent, if_neg (not_or.mpr ⟨htime, hevent⟩), if_neg hkind, if_neg hsource, promotedTo,
    if_neg hsource, if_neg htime, if_neg hkind, ← hshows]
  simp

/-- **Which rows lose nothing** on their way to the raw event. -/
theorem keepsRow_iff (batch : Batch) (row : List GoString) (index : GoString) :
    h.KeepsRow batch row index ↔ h.RowFits batch row := by
  constructor
  · intro hkeeps i text hi htext
    obtain ⟨col, hcol, hkeep⟩ := hkeeps i text hi htext
    exact ⟨col, hcol, (keeps_iff h htext).mp hkeep⟩
  · intro hfits i text hi htext
    obtain ⟨col, hcol, hfit⟩ := hfits i text hi htext
    exact ⟨col, hcol, (keeps_iff h htext).mpr hfit⟩

/-- The second of two addresses is lost. -/
theorem sourceIP_lost : ¬∀ (h : Handler) (batch : Batch) (row : List GoString) (index : GoString),
    h.KeepsRow batch row index := by
  intro hall
  have hkeeps := hall ⟨literalLib, none, true, false, str "t"⟩
    ⟨str "7", str "netlog", [str "src_ip", str "source_ip"], 0⟩ [str "10.0.0.1", str "10.0.0.2"]
    (str "raw_netlog") 1 (str "10.0.0.2") rfl (by decide)
  obtain ⟨col, hcol, hkeep⟩ := hkeeps
  obtain rfl : str "source_ip" = col := Option.some.inj hcol
  have hfits := (keeps_iff _ (by decide)).mp hkeep
  rw [CellFits, if_neg (by decide), if_neg (by decide), if_neg (by decide), if_pos rfl] at hfits
  exact absurd hfits (by decide +kernel)

end Handler

end Ingest

end Xsiam
