import Xsiam.Etl.Leaves
import Xsiam.Go.Csv

/-!
# Actions that undo each other

`flatten_subrecord` undoes `nest_keys` whenever the key nested under is a new one that does not
have the prefix itself (`Xsiam.Etl.flatten_nest`): what is nested are the entries with the prefix
without it (`Xsiam.Etl.map_nested`), and writing them back over the others gives the map there was.

`decode_csv` undoes `encode_csv` only for values without a carriage return before a line break
(`Xsiam.Etl.csv_restores_iff`).
-/

namespace Xsiam

namespace Etl

open Go

/-! ### Nesting and flattening -/

/-- **The entries of one kind, written over the others, are the whole map.** -/
theorem insertAll_filterKeys {β : Type} (m : GoMap β) (p : GoString → Bool) :
    GoMap.insertAll (GoMap.filterKeys m fun k => !p k) (m.toList.filter fun kv => p kv.1) = m := by
  refine Std.ExtTreeMap.ext_getElem? fun k => ?_
  rcases GoMap.getElem?_insertAll_cases (m.toList.filter fun kv => p kv.1) k
    (GoMap.filterKeys m fun k => !p k) with ⟨v, hmem, hget⟩ | ⟨hnone, hget⟩
  · rw [hget, mem_toList.mp (List.mem_of_mem_filter hmem)]
  · -- a key of the other kind, or none at all
    rw [hget, GoMap.getElem?_filterKeys]
    split_ifs with hp
    · rfl
    · cases hk : m[k]? with
      | none => rfl
      | some v =>
        have hmem : (k, v) ∈ m.toList.filter fun kv => p kv.1 :=
          List.mem_filter.mpr ⟨mem_toList.mpr hk, by simpa using hp⟩
        exact absurd rfl (hnone _ hmem)

section Nested

variable {e : LogEntry} {a b : ETLAction}

theorem flattenSubrecord_of_none (h : e.fields[b.strParam "key"]? = none) :
    flattenSubrecord e b = e := by
  rw [flattenSubrecord, subMap, h]
  exact ite_self e

theorem flattenSubrecord_nestKeys (hkey : b.strParam "key" = a.strParam "dest_key")
    (hpfx : b.strParam "prefix" = a.strParam "key_prefix")
    (hdest : e.fields[a.strParam "dest_key"]? = none) : flattenSubrecord (nestKeys e a) b = e := by
  have hwhole := insertAll_filterKeys e.fields fun k => hasPrefix k (a.strParam "key_prefix")
  have hrest : (GoMap.filterKeys e.fields fun k =>
      !hasPrefix k (a.strParam "key_prefix"))[a.strParam "dest_key"]? = none := by
    rw [GoMap.getElem?_filterKeys, hdest, ite_self]
  rw [← map_nested] at hwhole
  rw [nestKeys]
  simp only
  generalize (GoMap.filterKeys e.fields fun k => !hasPrefix k (a.strParam "key_prefix")) = rest at *
  generalize (e.fields.toList.filterMap fun kv =>
    (cutPrefix kv.1 (a.strParam "key_prefix")).map (·, kv.2)) = nested at *
  split_ifs with hempty hnested
  · exact flattenSubrecord_of_none (by rw [hkey, hdest])
  · -- no key has the prefix, and nothing is nested
    rw [hnested, List.map_nil] at hwhole
    obtain rfl : rest = e.fields := hwhole
    exact flattenSubrecord_of_none (by rw [hkey, hdest])
  · have hsub : ∀ e' : LogEntry,
        subMap (setEntry e' (a.strParam "dest_key") (.obj nested)) (a.strParam "dest_key") =
          some nested := by
      intro e'
      rw [subMap_eq_some, setEntry, GoMap.getElem?_insert, if_pos rfl]
    rw [flattenSubrecord, hkey, hpfx, if_neg (not_or.mp hempty).2]
    simp only [hsub]
    rw [spread, setEntries, deleteEntry, setEntry, erase_insert, erase_of_none hrest, hwhole]

end Nested

/-- **`flatten_subrecord` undoes `nest_keys`**, under any key that is not in use yet: when no key
has the prefix nothing is nested, and there is nothing to flatten. -/
theorem flatten_nest (ex : ActionExecutor) (st : ExecState) {e : LogEntry} {a b : ETLAction}
    (ha : a.type = .nestKeys) (hb : b.type = .flattenSubrecord)
    (hkey : b.strParam "key" = a.strParam "dest_key")
    (hpfx : b.strParam "prefix" = a.strParam "key_prefix")
    (hdest : e.fields[a.strParam "dest_key"]? = none) :
    (applyActions ex st e [a, b]).1 = some e := by
  have hnest : a.type ∈ structuralTypes := by rw [ha]; decide
  have hflatten : b.type ∈ structuralTypes := by rw [hb]; decide
  rw [applyActions, apply_structural hnest]
  simp only
  rw [applyActions, apply_structural hflatten]
  simp only [applyActions, structural, ha, hb]
  rw [flattenSubrecord_nestKeys hkey hpfx hdest]

/-- A key that is the prefix, one that goes on behind it, and one without it. -/
theorem flatten_nest_three :
    (applyActions plainExecutor .init
      (entryWith (str "t1")
        [(str "p.", .bool true), (str "p.a", .str (str "v")), (str "host", .str (str "h"))])
      [textAction .nestKeys [("key_prefix", "p."), ("dest_key", "d")],
        textAction .flattenSubrecord [("key", "d"), ("prefix", "p.")]]).1 =
      some (entryWith (str "t1")
        [(str "p.", .bool true), (str "p.a", .str (str "v")), (str "host", .str (str "h"))]) :=
  flatten_nest plainExecutor .init rfl rfl (by decide +kernel) (by decide +kernel)
    (by decide +kernel)

/-! ### Writing fields as CSV and reading them back -/

/-- The names that `entryFieldStr` takes for members of an entry. -/
def memberNames : List GoString :=
  [str "hostname", str "src_ip", str "source_ip", str "agent_id", str "raw_log", str "dataset"]

theorem entryFieldStr_of_notMem {lib : StdLib} {e : LogEntry} {field : GoString}
    (h : toLower field ∉ memberNames) :
    entryFieldStr lib e field = ((e.fields[field]?).map lib.sprint).getD [] := by
  simp only [memberNames, List.mem_cons, List.not_mem_nil, or_false, not_or] at h
  obtain ⟨h₁, h₂, h₃, h₄, h₅, h₆⟩ := h
  simp only [entryFieldStr, h₁, h₂, h₃, h₄, h₅, h₆, or_self, if_false]
  split
  · next v hv => rw [hv]; rfl
  · next hv => rw [hv]; rfl

theorem csvHeaders_join {headers : List GoString} (hne : headers ≠ [])
    (h : ∀ h ∈ headers, h ≠ [] ∧ trimSpace h = h ∧ 0x2C ∉ h) :
    csvHeaders (join headers (str ",")) = headers := by
  have htrim : headers.map trimSpace = headers :=
    (List.map_congr_left fun x hx => (h x hx).2.1).trans headers.map_id
  rw [csvHeaders, show str "," = [0x2C] from rfl, split_join hne fun x hx => (h x hx).2.2, htrim]

/-- An `encode_csv` action on the fields of an entry, and a `decode_csv` action on what it writes,
both with the same headers. -/
structure CsvPair (e : LogEntry) (a b : ETLAction) (headers : List GoString)
    (val : GoString → GoString) : Prop where
  encode : a.type = .encodeCSV
  decode : b.type = .decodeCSV
  encodeHeaders : a.strParam "headers" = join headers (str ",")
  decodeHeaders : b.strParam "headers" = join headers (str ",")
  /-- The values are taken from the fields themselves. -/
  source : a.strParam "src_key" = []
  text : b.strParam "src_key" = orDefault (a.strParam "dst_key") (str "csv_output")
  /-- The text is in a field, not in a member. -/
  field : toLower (b.strParam "src_key") ∉ memberNames
  fresh : b.strParam "src_key" ∉ headers
  header : ∀ h ∈ headers, h ≠ [] ∧ trimSpace h = h ∧ 0x2C ∉ h
  values : ∀ h ∈ headers, e.fields[h]? = some (.str (val h))

namespace CsvPair

variable {lib : StdLib} {e : LogEntry} {a b : ETLAction} {headers : List GoString}
  {val : GoString → GoString}

theorem join_ne_nil (p : CsvPair e a b headers val) (hne : headers ≠ []) :
    join headers (str ",") ≠ [] := by
  intro hnil
  have hheaders := csvHeaders_join hne p.header
  rw [hnil] at hheaders
  have hmem : [] ∈ headers := by
    rw [← hheaders]
    decide +kernel
  exact (p.header _ hmem).1 rfl

/-- The action writes the row of the values. -/
theorem encodeCSV_eq (p : CsvPair e a b headers val) (hne : headers ≠ [])
    (hwrite : lib.csvWrite = fun record => some (Csv.write record)) :
    encodeCSV lib e a =
      setEntry e (b.strParam "src_key") (.str (Csv.row (headers.map val))) := by
  have hcells : (headers.map fun h => csvCell lib e.fields[h]?) = headers.map val := by
    refine List.map_congr_left fun h hh => ?_
    rw [csvCell, p.values h hh]
    rfl
  rw [encodeCSV]
  simp only
  rw [p.encodeHeaders, if_neg (p.join_ne_nil hne), p.source, if_pos rfl, p.text,
    csvHeaders_join hne p.header]
  simp only [hwrite, hcells, Csv.trimRight_write]

theorem text_ne_nil (p : CsvPair e a b headers val) : b.strParam "src_key" ≠ [] := by
  rw [p.text, orDefault]
  split_ifs with hempty
  · decide
  · exact hempty

/-- The columns of a record and their headers, one by one. -/
theorem zipIdx_headers (p : CsvPair e a b headers val) (f : GoString → GoString) :
    (((headers.map f).zipIdx.map fun vi =>
        (orDefault ((headers[vi.2]?).getD []) (str "col_" ++ str (toString vi.2)),
          Value.str vi.1)) : List (GoString × Value)) =
      headers.map fun h => (h, .str (f h)) := by
  refine List.ext_getElem? fun i => ?_
  rw [List.getElem?_map, List.getElem?_map, List.getElem?_zipIdx, List.getElem?_map]
  cases hh : headers[i]? with
  | none => rfl
  | some h =>
    have hne := (p.header h (List.mem_of_getElem? hh)).1
    simp only [Option.map_some, Nat.zero_add, hh, Option.getD_some, orDefault, if_neg hne]

/-- **The action sets each header field to its value, with its line ends**, unless the text is
empty. -/
theorem decodeCSV_eq (p : CsvPair e a b headers val) (hread : lib.csvRead = Csv.read)
    {d : LogEntry}
    (hd : d.fields[b.strParam "src_key"]? = some (.str (Csv.row (headers.map val)))) :
    decodeCSV lib d b = if Csv.row (headers.map val) = [] then d
      else setEntries d (headers.map fun h => (h, .str (Csv.lineEnds (val h)))) := by
  have hraw : entryFieldStr lib d (b.strParam "src_key") = Csv.row (headers.map val) := by
    rw [entryFieldStr_of_notMem p.field, hd]
    rfl
  rw [decodeCSV]
  simp only [hraw, p.text_ne_nil, false_or]
  split_ifs with hempty hnil
  · rfl
  · -- without headers there is no text
    obtain rfl : headers = [] := by
      by_contra hne
      exact p.join_ne_nil hne (p.decodeHeaders ▸ hnil)
    exact absurd rfl hempty
  · have hne : headers ≠ [] := by
      rintro rfl
      exact hempty rfl
    rw [hread, Csv.read_row hempty]
    simp only
    rw [p.decodeHeaders, csvHeaders_join hne p.header, List.map_map]
    rw [p.zipIdx_headers (Csv.lineEnds ∘ val)]
    rfl

/-- What is read behind a text that is not empty. -/
theorem decodeCSV_iff (p : CsvPair e a b headers val) (hread : lib.csvRead = Csv.read)
    (hrow : Csv.row (headers.map val) ≠ []) {d : LogEntry}
    (hd : d.fields[b.strParam "src_key"]? = some (.str (Csv.row (headers.map val)))) :
    (∀ h ∈ headers, (decodeCSV lib d b).fields[h]? = some (.str (val h))) ↔
      ∀ h ∈ headers, ¬[0x0D, 0x0A] <:+: val h := by
  refine forall₂_congr fun h hh => ?_
  have hget : (decodeCSV lib d b).fields[h]? = some (.str (Csv.lineEnds (val h))) := by
    rw [p.decodeCSV_eq hread hd, if_neg hrow]
    rcases GoMap.getElem?_insertAll_cases
      (headers.map fun h => (h, Value.str (Csv.lineEnds (val h)))) h d.fields with
      ⟨v, hv, hset⟩ | ⟨hnone, -⟩
    · obtain ⟨h', -, heq⟩ := List.mem_map.mp hv
      obtain ⟨rfl, rfl⟩ := Prod.mk.inj heq
      exact hset
    · exact absurd rfl (hnone _ (List.mem_map_of_mem hh))
  rw [hget, Option.some.injEq, Value.str.injEq, Csv.lineEnds_eq_self_iff]

/-- The text is empty only for one empty value. -/
theorem row_eq_nil_iff (hne : headers ≠ []) :
    Csv.row (headers.map val) = [] ↔ headers.map val = [[]] := by
  obtain ⟨h, headers, rfl⟩ := List.exists_cons_of_ne_nil hne
  rw [List.map_cons, Csv.row_eq_nil_iff, List.cons.injEq]

end CsvPair

/-- Behind `encode_csv` and `decode_csv` every header field has its value. -/
def Restores (ex : ActionExecutor) (st : ExecState) (e : LogEntry) (a b : ETLAction)
    (headers : List GoString) (val : GoString → GoString) : Prop :=
  ∃ e', (applyActions ex st e [a, b]).1 = some e' ∧
    ∀ h ∈ headers, e'.fields[h]? = some (.str (val h))

/-- `decode_csv` sets every header field to its value, in whatever entry it finds the text that
`encode_csv` has written. -/
def SetsAnew (ex : ActionExecutor) (e : LogEntry) (a b : ETLAction) (headers : List GoString)
    (val : GoString → GoString) : Prop :=
  ∀ d : LogEntry, d.fields[b.strParam "src_key"]? =
      (encodeCSV ex.lib e a).fields[b.strParam "src_key"]? →
    ∀ h ∈ headers, (decodeCSV ex.lib d b).fields[h]? = some (.str (val h))

theorem applyActions_csv (ex : ActionExecutor) (st : ExecState) {e : LogEntry} {a b : ETLAction}
    (ha : a.type = .encodeCSV) (hb : b.type = .decodeCSV) :
    (applyActions ex st e [a, b]).1 = some (decodeCSV ex.lib (encodeCSV ex.lib e a) b) := by
  simp only [applyActions, apply, applyPlain, ha, hb]

/-- **`decode_csv` undoes `encode_csv` exactly for values without `"\r\n"`**, which is read as
`"\n"`. One more text does not reach the reader: that of a single empty value, which is left as it
is but not set. -/
theorem csv_restores_iff (ex : ActionExecutor) (st : ExecState) {e : LogEntry} {a b : ETLAction}
    {headers : List GoString} {val : GoString → GoString} (p : CsvPair e a b headers val)
    (hwrite : ex.lib.csvWrite = fun record => some (Csv.write record))
    (hread : ex.lib.csvRead = Csv.read) :
    (Restores ex st e a b headers val ↔ ∀ h ∈ headers, ¬[0x0D, 0x0A] <:+: val h) ∧
    (SetsAnew ex e a b headers val ↔
      (∀ h ∈ headers, ¬[0x0D, 0x0A] <:+: val h) ∧ headers.map val ≠ [[]]) := by
  have hrun := applyActions_csv ex st (e := e) p.encode p.decode
  have hrestores : Restores ex st e a b headers val ↔
      ∀ h ∈ headers,
        (decodeCSV ex.lib (encodeCSV ex.lib e a) b).fields[h]? = some (.str (val h)) := by
    rw [Restores, hrun]
    simp
  rw [hrestores]
  obtain rfl | hne := eq_or_ne headers []
  · simp [SetsAnew]
  have hencode := p.encodeCSV_eq hne hwrite
  have htext : (encodeCSV ex.lib e a).fields[b.strParam "src_key"]? =
      some (.str (Csv.row (headers.map val))) := by
    rw [hencode, setEntry, GoMap.getElem?_insert, if_pos rfl]
  by_cases hrow : Csv.row (headers.map val) = []
  · -- one empty value: there is nothing to decode
    have hone := (CsvPair.row_eq_nil_iff hne).mp hrow
    obtain ⟨h, rfl⟩ : ∃ h, headers = [h] := List.length_eq_one_iff.mp (by
      rw [← List.length_map val, hone]; rfl)
    have hval : val h = [] := (List.cons.inj hone).1
    have hfresh : h ≠ b.strParam "src_key" := fun heq => p.fresh (heq ▸ List.mem_singleton_self h)
    constructor
    · rw [p.decodeCSV_eq hread htext, if_pos hrow, hencode]
      simp only [List.mem_singleton, forall_eq]
      refine iff_of_true ?_ (by rw [hval]; decide)
      rw [setEntry, GoMap.getElem?_insert_of_ne hfresh, p.values h (List.mem_singleton_self h)]
    · -- in an entry without the field, it stays so
      refine iff_of_false (fun hsets => ?_) fun h => h.2 hone
      have hsame : (deleteEntry (encodeCSV ex.lib e a) h).fields[b.strParam "src_key"]? =
          (encodeCSV ex.lib e a).fields[b.strParam "src_key"]? := by
        rw [deleteEntry, GoMap.getElem?_erase, if_neg (Ne.symm hfresh)]
      have hset := hsets _ hsame h (List.mem_singleton_self h)
      rw [p.decodeCSV_eq hread (hsame.trans htext), if_pos hrow, deleteEntry, GoMap.getElem?_erase,
        if_pos rfl] at hset
      cases hset
  · refine ⟨p.decodeCSV_iff hread hrow htext, ?_⟩
    have hmany : headers.map val ≠ [[]] := fun h => hrow ((CsvPair.row_eq_nil_iff hne).mpr h)
    rw [and_iff_left hmany]
    constructor
    · exact fun hsets => (p.decodeCSV_iff hread hrow htext).mp (hsets _ rfl)
    · exact fun hplain d hd => (p.decodeCSV_iff hread hrow (hd.trans htext)).mpr hplain

/-- An executor whose library reads and writes CSV. -/
def csvExecutor : ActionExecutor where
  lib := { literalLib with
    csvRead := Csv.read
    csvWrite := fun record => some (Csv.write record) }
  randPercent _ := ⟨0⟩
  now _ := 0

/-- An entry with two texts. -/
def noteEntry (note host : GoString) : LogEntry :=
  entryWith (str "t1") [(str "note", .str note), (str "host", .str host)]

/-- A pair of actions with the headers `note,host`. -/
theorem csvPair_note (note host : GoString) :
    CsvPair (noteEntry note host)
      (textAction .encodeCSV [("headers", "note,host"), ("dst_key", "line")])
      (textAction .decodeCSV [("headers", "note,host"), ("src_key", "line")])
      [str "note", str "host"] (fun h => if h = str "note" then note else host) where
  encode := rfl
  decode := rfl
  encodeHeaders := by decide +kernel
  decodeHeaders := by decide +kernel
  source := by decide +kernel
  text := by decide +kernel
  field := by decide +kernel
  fresh := by decide +kernel
  header := by decide +kernel
  values := by
    simp only [List.mem_cons, List.not_mem_nil, or_false, forall_eq_or_imp, forall_eq]
    exact ⟨(GoMap.getElem?_insertAll_of_nodup (by simp) _ _).mpr (by simp),
      (GoMap.getElem?_insertAll_of_nodup (by simp) _ _).mpr (by simp)⟩

/-- A comma, quotes, a leading blank and a line break. -/
theorem csv_restores_note :
    Restores csvExecutor .init (noteEntry (str " a,\"b\"\n") (str ""))
      (textAction .encodeCSV [("headers", "note,host"), ("dst_key", "line")])
      (textAction .decodeCSV [("headers", "note,host"), ("src_key", "line")])
      [str "note", str "host"]
      (fun h => if h = str "note" then str " a,\"b\"\n" else str "") :=
  (csv_restores_iff csvExecutor .init (csvPair_note _ _) rfl rfl).1.mpr (by decide +kernel)

/-- A carriage return before a line break is lost. -/
theorem not_csv_restores :
    CsvPair (noteEntry (str "a\r\nb") (str ""))
      (textAction .encodeCSV [("headers", "note,host"), ("dst_key", "line")])
      (textAction .decodeCSV [("headers", "note,host"), ("src_key", "line")])
      [str "note", str "host"] (fun h => if h = str "note" then str "a\r\nb" else str "") ∧
    ¬Restores csvExecutor .init (noteEntry (str "a\r\nb") (str ""))
      (textAction .encodeCSV [("headers", "note,host"), ("dst_key", "line")])
      (textAction .decodeCSV [("headers", "note,host"), ("src_key", "line")])
      [str "note", str "host"] (fun h => if h = str "note" then str "a\r\nb" else str "") := by
  refine ⟨csvPair_note _ _, ?_⟩
  rintro ⟨e', hrun, hvalues⟩
  have hread : ((applyActions csvExecutor .init (noteEntry (str "a\r\nb") (str ""))
      [textAction .encodeCSV [("headers", "note,host"), ("dst_key", "line")],
        textAction .decodeCSV [("headers", "note,host"), ("src_key", "line")]]).1.map
          fun e' => e'.fields[str "note"]?) = some (some (.str (str "a\nb"))) := by decide +kernel
  rw [hrun, Option.map_some, hvalues (str "note") (by decide)] at hread
  exact absurd hread (by decide +kernel)

end Etl

end Xsiam
