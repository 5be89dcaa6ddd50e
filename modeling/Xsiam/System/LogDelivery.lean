import Xsiam.Gateway.LogOutput
import Xsiam.Ingest.Cells

/-!
# From the gateway's chunks to the entries

The gateway collects the records of its connections in chunks, the output plugin posts a chunk in
frames until all are acknowledged, and the handler makes entries of the rows of a frame
(`Xsiam.System.frameEntries`). Here they are put together: of a chunk that is done, each record has become
an entry, in order; and those of a first part of the batches have once more for each try that failed
(`Xsiam.System.chunk_arrives`).

An entry has the agent that its frame names, and the column with the agent of its record is left out of
its fields. As a chunk holds the records of all connections, they are right exactly if no batch has
records of two agents (`Xsiam.System.chunk_agents_iff`).
-/

namespace Xsiam

namespace System

open Go (GoString str Value)
open Gateway Ingest Etl
open Gateway.LogOutput (Sending pendingOf)

/-! ### A chunk of the gateway -/

/-- A chunk of records, each with its second. -/
def chunk (recs : List (ℤ × LogRecord)) : List LogEvent := recs.map fun rec => ⟨rec.1, rec.2.body⟩

/-- The row of a record. -/
def recordRow (rec : ℤ × LogRecord) : RowFields where
  tvSec := rec.1
  agentID := (rec.2.event.map fun e => e.agentID.toUInt64).getD 0
  eventID := (rec.2.event.map fun e => UInt64.ofNat e.eventID).getD 0
  kind := (rec.2.event.map EventFields.kind).getD 0
  log := rec.2.log
  curTag := cString (rec.2.sessionProtocol.take 127)

/-- The record of a row that is written and read as it is meant. -/
structure Sendable (rec : ℤ × LogRecord) : Prop where
  bounded : (recordRow rec).Bounded
  whole : (recordRow rec).Whole
  plain : (recordRow rec).Plain

/-- **The plugin reads of a record what was put into it**, and its tag does not depend on those before. -/
theorem readFields_body (curTag : CString) (rec : ℤ × LogRecord) :
    readFields curTag ⟨rec.1, rec.2.body⟩ = recordRow rec := by
  obtain ⟨t, r⟩ := rec
  rcases hevent : r.event with - | e
  · simp [readFields, LogRecord.body, RowFields.read, recordRow, hevent]
  · simp [readFields, LogRecord.body, RowFields.read, recordRow, hevent]

theorem rowsOf_chunk (recs : List (ℤ × LogRecord)) : ∀ curTag : CString,
    LogOutput.rowsOf curTag (chunk recs) = recs.map recordRow := by
  induction recs with
  | nil => exact fun _ => rfl
  | cons rec recs ih =>
    intro curTag
    rw [chunk, List.map_cons, LogOutput.rowsOf, readFields_body]
    exact congrArg _ (ih _)

/-! ### The entries of a frame -/

/-- What `handleBinary` calls `process` on, for a frame. -/
def handed (decodeAll : GoString → Except GoString GoString) (now : Time) (f : GoString) :
    Option (Batch × List (List GoString)) :=
  match receive f with
  | .error _ => none
  | .ok (hdr, carried) =>
    match decompress decodeAll carried with
    | .error _ => none
    | .ok rows =>
      some (⟨decimal hdr.agentID.toNat, if hdr.tag = [] then str "agent_log" else hdr.tag,
        carried.columns, now⟩, rows)

/-- The entries that the handler makes of a frame. -/
def frameEntries (h : Handler) (decodeAll : GoString → Except GoString GoString) (now : Time)
    (f : GoString) : List LogEntry :=
  match handed decodeAll now f with
  | none => []
  | some (batch, rows) => rows.map (h.rowEntry batch)

/-- What a frame says of the records of a batch: it is of the agent and the tag of the last one. -/
def sender (now : Time) (batch : List RowFields) : Batch where
  agentID := decimal (pendingOf batch).agentID.toNat
  tag :=
    if (pendingOf batch).tag = [] then str "agent_log" else (pendingOf batch).tag
  columns := xlogColumns
  now

/-- The entries of a batch: one for each record. -/
def batchEntries (h : Handler) (now : Time) (batch : List RowFields) : List LogEntry :=
  batch.map fun r => h.rowEntry (sender now batch) r.cells

section Arrival

variable {ctx : LogOutput} {decodeAll : GoString → Except GoString GoString}

/-- The compressor and the decoder are those of one format. -/
def Inverse (ctx : LogOutput) (decodeAll : GoString → Except GoString GoString) : Prop :=
  ∀ raw comp, ctx.compress raw = some comp → comp ≠ [] ∧ decodeAll comp = .ok raw

/-- **The entries of a frame** are those of its batch. -/
theorem frameEntries_eq (h : Handler) (hzstd : Inverse ctx decodeAll) {f : GoString}
    {batch : List RowFields} (hne : batch ≠ [])
    (hrows : ∀ r ∈ batch, r.Bounded ∧ r.Whole ∧ r.Plain)
    (hfits : ∀ comp, ctx.compress (pendingOf batch).tsv = some comp → comp.length ≤ 0xFFFF)
    (hcarries : ctx.Carries f batch) (now : Time) :
    frameEntries h decodeAll now f = batchEntries h now batch := by
  obtain ⟨hdr, carried, hreceive, hagent, htag, hcols, hread⟩ :=
    LogOutput.carries_arrives hzstd hfits hcarries
  have hcut : (pendingOf batch).tag.take 255 = (pendingOf batch).tag := by
    obtain ⟨r, hlast⟩ := Option.ne_none_iff_exists'.mp (List.getLast?_eq_none_iff.not.mpr hne)
    have htag : (pendingOf batch).tag = r.curTag := by
      rw [pendingOf, hlast]
      rfl
    have hlen := (hrows r (List.mem_of_getLast? hlast)).1.curTag
    rw [htag, List.take_of_length_le (by omega)]
  have hcells : batch.flatMap RowFields.readRows = batch.map RowFields.cells := by
    rw [List.map_eq_flatMap]
    refine List.flatMap_congr fun r hr => ?_
    exact (readRows_eq_iff (hrows r hr).1).mpr (hrows r hr).2
  rw [hcells] at hread
  rw [frameEntries, handed, hreceive]
  dsimp only
  rw [hread, hagent, htag, hcut, hcols, batchEntries]
  show (batch.map RowFields.cells).map _ = _
  rw [List.map_map]
  rfl

/-- A frame that the entries of a batch are made of, at any time. -/
def Yields (h : Handler) (decodeAll : GoString → Except GoString GoString) (f : GoString)
    (batch : List RowFields) : Prop :=
  ∀ now, frameEntries h decodeAll now f = batchEntries h now batch

/-- **Each record of a chunk that is done has become an entry**, in order: of all that is handled, the last
try yields the entries of all batches, and each try before those of the first ones. -/
theorem chunk_arrives (h : Handler) {recs : List (ℤ × LogRecord)} {attempts : List (ℕ → Sending)}
    {handled : List GoString} (hzstd : Inverse ctx decodeAll)
    (hhonest : ∀ sends ∈ attempts, ∀ n, (sends n).Honest) (hrecs : ∀ rec ∈ recs, Sendable rec)
    (hfits : ∀ batch ∈ ctx.batches (chunk recs), ∀ comp,
      ctx.compress (pendingOf batch).tsv = some comp → comp.length ≤ 0xFFFF)
    (hdone : ctx.engine (chunk recs) attempts = (.ok, handled)) :
    (ctx.batches (chunk recs)).flatten = recs.map recordRow ∧
      ∃ (tries : List (List GoString)) (last : List GoString), handled = tries.flatten ++ last ∧
        (∀ t ∈ tries, ∃ k, List.Forall₂ (Yields h decodeAll) t ((ctx.batches (chunk recs)).take k)) ∧
          List.Forall₂ (Yields h decodeAll) last (ctx.batches (chunk recs)) := by
  have hflat : (ctx.batches (chunk recs)).flatten = recs.map recordRow := by
    rw [LogOutput.flatten_batches, rowsOf_chunk]
  have hyields : ∀ {fs : List GoString} {bs : List (List RowFields)},
      (∀ b ∈ bs, b ∈ ctx.batches (chunk recs)) → List.Forall₂ ctx.Carries fs bs →
        List.Forall₂ (Yields h decodeAll) fs bs := by
    intro fs bs hbs hcarries
    induction hcarries with
    | nil => exact .nil
    | cons hcarried _ ih =>
      obtain ⟨hb, hrest⟩ := List.forall_mem_cons.mp hbs
      refine .cons (frameEntries_eq h hzstd (LogOutput.length_batches hb).1 (fun r hr => ?_) (hfits _ hb)
        hcarried) (ih hrest)
      have hmem : r ∈ recs.map recordRow := hflat ▸ List.mem_flatten_of_mem hb hr
      obtain ⟨rec, hrec, rfl⟩ := List.mem_map.mp hmem
      obtain ⟨hbounded, hwhole, hplain⟩ := hrecs rec hrec
      exact ⟨hbounded, hwhole, hplain⟩
  obtain ⟨tries, last, hall, htries, k, hlast, hk⟩ := ctx.engine_delivers (chunk recs) attempts hhonest
  rw [hdone] at hall hk
  refine ⟨hflat, tries, last, hall, fun t ht => ?_, ?_⟩
  · obtain ⟨j, hj⟩ := htries t ht
    exact ⟨j, hyields (fun b hb => List.mem_of_mem_take hb) hj⟩
  · rw [hk rfl, List.take_length] at hlast
    exact hyields (fun b hb => hb) hlast

/-- Two logons on two connections. -/
def twoLogons : List (ℤ × LogRecord) :=
  let logon (session : CString) (agentID : UInt32) : LogRecord :=
    ⟨str "wzcp", session, str "wzcp", str "default", some ⟨agentID, 1, 4624, 1⟩, str "logon"⟩
  [(951827696, logon (str "1") 10001), (951827696, logon (str "2") 10002)]

/-- Each is a frame of its own, and the second frame is not acknowledged at first. -/
def twoTries : List (ℕ → Sending) :=
  [fun n => ⟨1, 1, .sent true (n == 0)⟩, fun _ => ⟨2, 2, .sent true true⟩]

theorem honest_twoTries : ∀ sends ∈ twoTries, ∀ n, (sends n).Honest := by
  intro sends hsends n handled hfate
  rcases List.mem_pair.mp hsends with rfl | rfl
  · exact (LogOutput.Fate.sent.inj hfate).1.symm
  · exact (LogOutput.Fate.sent.inj hfate).1.symm

theorem sendable_twoLogons : ∀ rec ∈ twoLogons, Sendable rec := by
  intro rec hrec
  rcases List.mem_pair.mp hrec with rfl | rfl
  all_goals exact ⟨⟨by decide, by decide, by decide⟩, .inl (by decide +kernel),
    ⟨by decide, by decide, by decide⟩⟩

/-- Both frames are handled twice. -/
theorem chunk_arrives_of_two :
    ((⟨1, shortCompress⟩ : LogOutput).engine (chunk twoLogons) twoTries).2.length = 4 ∧
      ∃ (tries : List (List GoString)) (last : List GoString),
        ((⟨1, shortCompress⟩ : LogOutput).engine (chunk twoLogons) twoTries).2 =
          tries.flatten ++ last ∧
        List.Forall₂ (Yields ⟨Go.literalLib, none, false, false, []⟩ shortDecode) last
          ((⟨1, shortCompress⟩ : LogOutput).batches (chunk twoLogons)) := by
  set ctx : LogOutput := ⟨1, shortCompress⟩ with hctx
  have hok : (ctx.engine (chunk twoLogons) twoTries).1 = .ok := by decide +kernel
  obtain ⟨-, tries, last, hall, -, hlast⟩ := chunk_arrives ⟨Go.literalLib, none, false, false, []⟩
    (show Inverse ctx shortDecode from shortCompress_sound) honest_twoTries sendable_twoLogons
    (fun _ _ _ h => length_shortCompress h) (Prod.ext hok rfl)
  exact ⟨by decide +kernel, tries, last, hall, hlast⟩

end Arrival

/-! ### What the entries say -/

/-- A number is what it is printed as. -/
theorem decimal_injective : Function.Injective decimal := by
  have hback : ∀ n, (decimal n).map (fun b => Char.ofNat b.toNat) = Nat.toDigits 10 n := by
    intro n
    rw [decimal, List.map_map]
    refine (List.map_congr_left fun c hc => ?_).trans (List.map_id _)
    have hdigit := Nat.isDigit_of_mem_toDigits (by decide) (by decide) hc
    simp only [Char.isDigit, ge_iff_le, Bool.and_eq_true, decide_eq_true_eq] at hdigit
    have hhigh : c.toNat ≤ 57 := hdigit.2
    rw [Function.comp_apply, UInt8.toNat_ofNat', Nat.mod_eq_of_lt (by omega), Char.ofNat_toNat]
    rfl
  intro n m h
  rw [← Nat.ofDigitChars_ten_toDigits (n := n), ← hback, h, hback, Nat.ofDigitChars_ten_toDigits]

/-- An entry has the log of its record. -/
theorem rowEntry_log (h : Handler) (now : Time) (batch : List RowFields) (r : RowFields) :
    (h.rowEntry (sender now batch) r.cells).fields[str "log"]? =
      if r.log = [] then none else some (.str r.log) := by
  have hcol : (buildColIndex xlogColumns)[str "log"]? = some 5 := by decide +kernel
  have hcell : cellOf r.cells (buildColIndex xlogColumns) (str "log") = r.log := by
    rw [cellOf, hcol]
    rfl
  rw [← hcell]
  exact getElem?_buildEntry_fields r.cells (buildColIndex xlogColumns) (by decide)

/-- The agent and the log of an entry. -/
def agentLog (e : LogEntry) : GoString × Option Value := (e.agentID, e.fields[str "log"]?)

/-- What an entry is to say of a row. -/
def ownAgentLog (r : RowFields) : GoString × Option Value :=
  (decimal r.agentID.toNat, if r.log = [] then none else some (.str r.log))

/-- The entries of a batch say what they are to say if all its records are of one agent. -/
theorem map_batchEntries_iff (h : Handler) (now : Time) (batch : List RowFields) :
    (batchEntries h now batch).map agentLog = batch.map ownAgentLog ↔
      ∀ r ∈ batch, ∀ r' ∈ batch, r.agentID = r'.agentID := by
  have hentry : ∀ r, agentLog (h.rowEntry (sender now batch) r.cells) = ownAgentLog r ↔
      (pendingOf batch).agentID = r.agentID := by
    intro r
    rw [agentLog, ownAgentLog, rowEntry_log, Prod.mk.injEq, and_iff_left rfl, ← UInt64.toNat_inj]
    exact decimal_injective.eq_iff
  rw [batchEntries, List.map_map, List.map_inj_left]
  simp only [Function.comp_apply, hentry]
  rcases List.eq_nil_or_concat batch with rfl | ⟨batch, last, rfl⟩
  · simp
  · have hlast : (pendingOf (batch.concat last)).agentID = last.agentID := by
      simp [pendingOf]
    rw [hlast]
    constructor
    · exact fun hall r hr r' hr' => (hall r hr).symm.trans (hall r' hr')
    · exact fun hall r hr => hall last (by simp) r hr

/-- Texts of the same lengths, one behind the other, are the same each by itself. -/
theorem flatMap_eq_iff {α β : Type} {f g : α → List β} : ∀ {xs : List α},
    (∀ x ∈ xs, (f x).length = (g x).length) →
      (xs.flatMap f = xs.flatMap g ↔ ∀ x ∈ xs, f x = g x)
  | [], _ => by simp
  | x :: xs, hlen => by
    obtain ⟨hx, hxs⟩ := List.forall_mem_cons.mp hlen
    rw [List.flatMap_cons, List.flatMap_cons, List.append_eq_append_iff_of_size_eq_left hx,
      flatMap_eq_iff hxs, List.forall_mem_cons]

/-- The entries of batches say what they are to say exactly if each batch is of one agent. -/
theorem batches_agents_iff (h : Handler) (now : Time) (batches : List (List RowFields)) :
    (batches.flatMap (batchEntries h now)).map agentLog = batches.flatten.map ownAgentLog ↔
      ∀ batch ∈ batches, ∀ r ∈ batch, ∀ r' ∈ batch, r.agentID = r'.agentID := by
  rw [List.map_flatten, ← List.flatMap_def, List.map_flatMap,
    flatMap_eq_iff fun batch _ => by simp [batchEntries]]
  exact forall₂_congr fun batch _ => map_batchEntries_iff h now batch

/-- Their logs they have in any case. -/
theorem batches_logs (h : Handler) (now : Time) (batches : List (List RowFields)) :
    (batches.flatMap (batchEntries h now)).map (fun e => e.fields[str "log"]?) =
      batches.flatten.map fun r => (ownAgentLog r).2 := by
  rw [List.map_flatten, ← List.flatMap_def, List.map_flatMap]
  refine List.flatMap_congr fun batch _ => ?_
  rw [batchEntries, List.map_map, List.map_inj_left]
  exact fun r _ => rowEntry_log h now batch r

section Last

variable {ctx : LogOutput} {decodeAll : GoString → Except GoString GoString}

/-- The frames of the last try are the last ones handled, one for each batch. -/
def lastTry (ctx : LogOutput) (events : List LogEvent) (handled : List GoString) : List GoString :=
  handled.drop (handled.length - (ctx.batches events).length)

/-- The entries of frames are those of the batches that they are made of. -/
theorem flatMap_frameEntries (h : Handler) (now : Time) {fs : List GoString}
    {bs : List (List RowFields)} (hyields : List.Forall₂ (Yields h decodeAll) fs bs) :
    fs.flatMap (frameEntries h decodeAll now) = bs.flatMap (batchEntries h now) := by
  induction hyields with
  | nil => rfl
  | cons hframe _ ih => rw [List.flatMap_cons, List.flatMap_cons, hframe now, ih]

/-- **The entries of a chunk have the agents of their records exactly if each of its batches is of one
agent**; their logs they have in any case. -/
theorem chunk_agents_iff (h : Handler) (now : Time) {recs : List (ℤ × LogRecord)}
    {attempts : List (ℕ → Sending)} {handled : List GoString} (hzstd : Inverse ctx decodeAll)
    (hhonest : ∀ sends ∈ attempts, ∀ n, (sends n).Honest) (hrecs : ∀ rec ∈ recs, Sendable rec)
    (hfits : ∀ batch ∈ ctx.batches (chunk recs), ∀ comp,
      ctx.compress (pendingOf batch).tsv = some comp → comp.length ≤ 0xFFFF)
    (hdone : ctx.engine (chunk recs) attempts = (.ok, handled)) :
    let entries := (lastTry ctx (chunk recs) handled).flatMap (frameEntries h decodeAll now)
    entries.map (fun e => e.fields[str "log"]?) = recs.map (fun rec => (ownAgentLog (recordRow rec)).2) ∧
      (entries.map agentLog = recs.map (fun rec => ownAgentLog (recordRow rec)) ↔
        ∀ batch ∈ ctx.batches (chunk recs), ∀ r ∈ batch, ∀ r' ∈ batch, r.agentID = r'.agentID) := by
  obtain ⟨hflat, tries, last, rfl, -, hlast⟩ := chunk_arrives h hzstd hhonest hrecs hfits hdone
  have htry : lastTry ctx (chunk recs) (tries.flatten ++ last) = last := by
    rw [lastTry, ← hlast.length_eq, List.length_append, Nat.add_sub_cancel, List.drop_left]
  intro entries
  have hentries : entries = (ctx.batches (chunk recs)).flatMap (batchEntries h now) := by
    rw [← flatMap_frameEntries h now hlast, ← htry]
  have hown : recs.map (fun rec => ownAgentLog (recordRow rec)) =
      (ctx.batches (chunk recs)).flatten.map ownAgentLog := by
    rw [hflat, List.map_map]
    rfl
  have hlogs : recs.map (fun rec => (ownAgentLog (recordRow rec)).2) =
      (ctx.batches (chunk recs)).flatten.map fun r => (ownAgentLog r).2 := by
    rw [hflat, List.map_map]
    rfl
  rw [hentries, hown, hlogs]
  exact ⟨batches_logs h now _, batches_agents_iff h now _⟩

/-- In frames of their own two logons have their agents and their logs, the first try having failed. -/
theorem chunk_agents_iff_of_two :
    ((lastTry ⟨1, shortCompress⟩ (chunk twoLogons)
        ((⟨1, shortCompress⟩ : LogOutput).engine (chunk twoLogons) twoTries).2).flatMap
          (frameEntries ⟨Go.literalLib, none, false, false, []⟩ shortDecode 0)).map agentLog =
      [(str "10001", some (.str (str "logon"))), (str "10002", some (.str (str "logon")))] := by
  have hok : ((⟨1, shortCompress⟩ : LogOutput).engine (chunk twoLogons) twoTries).1 = .ok := by
    decide +kernel
  refine ((chunk_agents_iff ⟨Go.literalLib, none, false, false, []⟩ 0
    (show Inverse ⟨1, shortCompress⟩ shortDecode from shortCompress_sound) honest_twoTries
    sendable_twoLogons (fun _ _ _ h => length_shortCompress h) (Prod.ext hok rfl)).2.mpr ?_).trans ?_
  · decide +kernel
  · decide +kernel

end Last

end System

end Xsiam
