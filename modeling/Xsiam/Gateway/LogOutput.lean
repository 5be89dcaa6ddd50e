import Mathlib.Data.List.Infix
import Xsiam.Gateway.Conn
import Xsiam.Gateway.Flush
import Xsiam.Ingest.Encoders

/-!
# The gateway's output plugin

`out_xsiam_log.c` gets the records of the gateway in chunks and posts them to the ingest handler: a line
for each record, and a frame for as many lines as a batch may have. What a frame says of its sender, the
agent and the tag, is said once, and it is what the last record of the batch says.

A chunk whose flush is to be repeated is repeated from its first record. So the frames of a chunk are
taken at least once, and those before the one that failed once more for each time
(`Xsiam.Gateway.LogOutput.engine_delivers`).

`cb_flush` prints the fields of a record with tabs between them into a buffer and puts the log behind
them as it is, which "may contain tabs/newlines". The length of what was printed is cut down so that it
and the log would fit into the buffer, though only the former is in it: in front of a log of some 4090
bytes the fields are cut off, in front of one of 4095 they are whole again.

So the handler reads the row of a record as it is meant exactly if the log is short enough or too long, and
neither the tag nor the log has a tab or a line break (`Xsiam.Gateway.readRows_eq_iff`). Rows do not
reach into each other in any case (`Xsiam.Gateway.filterMap_readLine_bytes`), and the frame of a batch
whose data fits arrives with the rows of its records (`Xsiam.Gateway.LogOutput.carries_arrives`).
-/

namespace Xsiam

namespace Gateway

open Go (GoString str split join trimRight)
open Ingest (xlogFrame xlogBody)

/-! ### Records -/

/-- A value of a record, as far as `cb_flush` looks at values. -/
inductive MsgObject where
  | positiveInteger (u : UInt64)
  | str (bs : List UInt8)
  | other

/-- A record as the decoder gives it: its second, and its body, which is empty if it is no map. -/
structure LogEvent where
  tvSec : ℤ
  body : List (MsgObject × MsgObject)

/-- The variables of the loop of `cb_flush` for one record, with `cur_tag`. -/
structure RowFields where
  tvSec : ℤ
  agentID : UInt64 := 0
  eventID : UInt64 := 0
  kind : UInt8 := 0
  log : List UInt8 := []
  curTag : CString

/-- What `cb_flush` takes from a key and its value. -/
def RowFields.read (r : RowFields) (kv : MsgObject × MsgObject) : RowFields :=
  match kv.1 with
  | .str k =>
    if k = str "agent_id" then
      match kv.2 with
      | .positiveInteger u => { r with agentID := u }
      | _ => r
    else if k = str "event_id" then
      match kv.2 with
      | .positiveInteger u => { r with eventID := u }
      | _ => r
    else if k = str "kind" then
      match kv.2 with
      | .positiveInteger u => { r with kind := u.toUInt8 }
      | _ => r
    else if k = str "log" then
      match kv.2 with
      | .str bs => { r with log := bs }
      | _ => r
    else if k = str "session_protocol" then
      match kv.2 with
      | .str bs => { r with curTag := cString (bs.take 127) }
      | _ => r
    else r
  | _ => r

/-- The fields of a record, after one that left a tag. -/
def readFields (curTag : CString) (ev : LogEvent) : RowFields :=
  ev.body.foldl RowFields.read { tvSec := ev.tvSec, curTag }

/-- The body of a record, as `append_record` and `append_syslog_record` encode it. -/
def LogRecord.body (r : LogRecord) : List (MsgObject × MsgObject) :=
  [(.str (str "protocol"), .str r.protocol), (.str (str "session_id"), .str r.sessionID),
    (.str (str "session_protocol"), .str r.sessionProtocol),
    (.str (str "client_group"), .str r.clientGroup)] ++
    (match r.event with
    | some e =>
      [(.str (str "agent_id"), .positiveInteger e.agentID.toUInt64),
        (.str (str "frame_seq"), .positiveInteger e.frameSeq),
        (.str (str "event_id"), .positiveInteger (UInt64.ofNat e.eventID)),
        (.str (str "kind"), .positiveInteger e.kind.toUInt64)]
    | none => []) ++
    [(.str (str "log"), .str r.log)]

/-! ### Rows -/

/-- What `snprintf` prints of a row: everything up to the log. -/
def RowFields.printed (r : RowFields) : GoString :=
  decimal r.agentID.toNat ++ str "\t" ++ formatTime r.tvSec ++ str "\t" ++
    decimal r.eventID.toNat ++ str "\t" ++ decimal r.kind.toNat ++ str "\t" ++ r.curTag ++ str "\t"

/-- How much of it is kept in front of a log, with the arithmetic of `size_t`. -/
def rowLength (rlen logLen : ℕ) : ℕ :=
  let limit := ((4096 - (logLen : ℤ) - 2) % 2 ^ 64).toNat
  if limit ≤ rlen then limit else rlen

/-- The text of a row. -/
def RowFields.text (r : RowFields) : GoString :=
  r.printed.take (rowLength r.printed.length r.log.length) ++ r.log

/-- What a record adds to the lines. -/
def RowFields.bytes (r : RowFields) : GoString := r.text ++ str "\n"

/-! ### Frames -/

/-- `xsiam_log_ctx`, with the compressor at its level. -/
structure LogOutput where
  maxBatchRows : ℤ
  compress : GoString → Option GoString

namespace LogOutput

variable (ctx : LogOutput)

/-- `max_rows` -/
def maxRows : ℕ := if 0 < ctx.maxBatchRows then ctx.maxBatchRows.toNat else 8192

/-- `XLOG_COLUMNS_CSV` -/
def columnsCsv : GoString := str "agent_id,_time,event_id,kind,tag,log"

/-- The lines of a frame that is built, and what the frame will say of them. -/
structure Pending where
  tsv : GoString
  rowCount : ℕ
  agentID : UInt64
  tag : CString

/-- What becomes of a frame: it is not sent, or it is handled and acknowledged or not. -/
inductive Fate where
  | unsent
  | sent (handled acked : Bool)

/-- The clock when a frame is built, and its fate. -/
structure Sending where
  seq : UInt64
  tsMs : UInt64
  fate : Fate

/-- `FLB_OK`, `FLB_RETRY` and `FLB_ERROR` -/
inductive FlbResult where
  | ok
  | retry
  | error
  deriving DecidableEq

/-- The frame of some lines. -/
def frame (p : Pending) (s : Sending) (comp : GoString) : GoString :=
  xlogFrame p.tag p.agentID s.seq s.tsMs
    (xlogBody (UInt32.ofNat p.rowCount) (UInt32.ofNat p.tsv.length) columnsCsv comp)

/-- `send_xlog_frame`, with the frames that were handled. -/
def sendXlogFrame (p : Pending) (s : Sending) : FlbResult × List GoString :=
  if p.tsv = [] then (.ok, [])
  else
    match ctx.compress p.tsv with
    | none => (.error, [])
    | some comp =>
      match s.fate with
      | .unsent => (.retry, [])
      | .sent handled acked =>
        (if acked then .ok else .retry, if handled then [frame p s comp] else [])

/-- One record of the loop of `cb_flush`. -/
def addEvent (p : Pending) (ev : LogEvent) : Pending :=
  let r := readFields p.tag ev
  { tsv := p.tsv ++ r.bytes, rowCount := p.rowCount + 1, agentID := r.agentID, tag := r.curTag }

/-- The loop of `cb_flush`, and what comes behind it, with the number of frames sent before. -/
def flushLoop (sends : ℕ → Sending) : ℕ → Pending → List LogEvent → FlbResult × List GoString
  | n, p, [] => if 0 < p.rowCount then ctx.sendXlogFrame p (sends n) else (.ok, [])
  | n, p, ev :: evs =>
    let p := addEvent p ev
    if ctx.maxRows ≤ p.rowCount then
      match ctx.sendXlogFrame p (sends n) with
      | (.ok, handled) =>
        let (result, rest) := flushLoop sends (n + 1) { p with tsv := [], rowCount := 0 } evs
        (result, handled ++ rest)
      | stopped => stopped
    else flushLoop sends n p evs

/-- `cb_flush` -/
def cbFlush (sends : ℕ → Sending) (evs : List LogEvent) : FlbResult × List GoString :=
  ctx.flushLoop sends 0 ⟨[], 0, 0, str "agent_log"⟩ evs

/-- The engine flushes a chunk, again and again while it is told to. -/
def engine (evs : List LogEvent) : List (ℕ → Sending) → FlbResult × List GoString
  | [] => (.retry, [])
  | sends :: later =>
    match ctx.cbFlush sends evs with
    | (.retry, handled) =>
      let (result, rest) := engine evs later
      (result, handled ++ rest)
    | done => done

/-! ### Batches -/

/-- The rows of a chunk, each with the tag that is current then. -/
def rowsOf : CString → List LogEvent → List RowFields
  | _, [] => []
  | curTag, ev :: evs =>
    let r := readFields curTag ev
    r :: rowsOf r.curTag evs

/-- The rows of a chunk in batches, behind those of a batch that is not full. -/
def batchesFrom (max : ℕ) : List RowFields → List RowFields → List (List RowFields)
  | acc, [] => if acc = [] then [] else [acc]
  | acc, r :: rs =>
    if max ≤ acc.length + 1 then (acc ++ [r]) :: batchesFrom max [] rs
    else batchesFrom max (acc ++ [r]) rs

/-- The batches of a chunk. -/
def batches (evs : List LogEvent) : List (List RowFields) :=
  batchesFrom ctx.maxRows [] (rowsOf (str "agent_log") evs)

/-- What a frame says of a batch: the agent and the tag are those of its last row. -/
def pendingOf (batch : List RowFields) : Pending where
  tsv := batch.flatMap RowFields.bytes
  rowCount := batch.length
  agentID := (batch.getLast?.map RowFields.agentID).getD 0
  tag := (batch.getLast?.map RowFields.curTag).getD []

/-- The frames of some batches sent, one after the other, up to the first that fails. -/
def deliver (sends : ℕ → Sending) : ℕ → List (List RowFields) → FlbResult × List GoString
  | _, [] => (.ok, [])
  | n, batch :: rest =>
    match ctx.sendXlogFrame (pendingOf batch) (sends n) with
    | (.ok, handled) =>
      let (result, more) := deliver sends (n + 1) rest
      (result, handled ++ more)
    | stopped => stopped

/-! ### A flush sends the batches -/

variable {ctx}

theorem maxRows_pos : 0 < ctx.maxRows := by
  rw [maxRows]
  split_ifs
  · omega
  · decide

/-- A record joins the rows that wait. -/
theorem addEvent_pendingOf {p : Pending} {acc : List RowFields}
    (htsv : p.tsv = acc.flatMap RowFields.bytes) (hcount : p.rowCount = acc.length) (ev : LogEvent) :
    addEvent p ev = pendingOf (acc ++ [readFields p.tag ev]) := by
  rw [addEvent, pendingOf, htsv, hcount]
  simp

/-- **The loop of a flush sends the batches**, those rows first that wait. -/
theorem flushLoop_eq (sends : ℕ → Sending) (evs : List LogEvent) :
    ∀ (n : ℕ) (p : Pending) (acc : List RowFields), p.tsv = acc.flatMap RowFields.bytes →
      p.rowCount = acc.length → (acc ≠ [] → p = pendingOf acc) →
        ctx.flushLoop sends n p evs =
          ctx.deliver sends n (batchesFrom ctx.maxRows acc (rowsOf p.tag evs)) := by
  induction evs with
  | nil =>
    intro n p acc _ hcount hwait
    rw [flushLoop, rowsOf, batchesFrom]
    by_cases hacc : acc = []
    · subst hacc
      rw [if_pos rfl, if_neg (by rw [hcount]; exact lt_irrefl 0)]
      rfl
    · have hpos : 0 < (pendingOf acc).rowCount := List.length_pos_of_ne_nil hacc
      rw [if_neg hacc, hwait hacc, if_pos hpos, deliver]
      rcases ctx.sendXlogFrame (pendingOf acc) (sends n) with ⟨_ | _ | _, handled⟩
      · show _ = (FlbResult.ok, handled ++ [])
        rw [List.append_nil]
      · rfl
      · rfl
  | cons ev evs ih =>
    intro n p acc htsv hcount _
    have hadd := addEvent_pendingOf htsv hcount ev
    have htag : (addEvent p ev).tag = (readFields p.tag ev).curTag := rfl
    have hlen : (addEvent p ev).rowCount = acc.length + 1 := by rw [← hcount]; rfl
    rw [flushLoop, rowsOf, batchesFrom]
    dsimp only
    rw [hlen]
    split_ifs with hfull
    · -- the batch is full, and the next one begins with nothing but the tag
      rw [deliver, ← hadd]
      rcases ctx.sendXlogFrame (addEvent p ev) (sends n) with ⟨_ | _ | _, handled⟩
      · dsimp only
        rw [ih (n + 1) _ [] rfl rfl fun h => absurd rfl h, htag]
      · rfl
      · rfl
    · rw [ih n (addEvent p ev) (acc ++ [readFields p.tag ev]) (by rw [hadd]; rfl) (by rw [hadd]; rfl)
        fun _ => hadd, htag]

/-- **A flush sends the batches of its chunk**, one after the other. -/
theorem cbFlush_eq (sends : ℕ → Sending) (evs : List LogEvent) :
    ctx.cbFlush sends evs = ctx.deliver sends 0 (ctx.batches evs) :=
  flushLoop_eq sends evs 0 _ [] rfl rfl fun h => absurd rfl h

theorem flatten_batchesFrom (max : ℕ) (rs : List RowFields) : ∀ acc : List RowFields,
    (batchesFrom max acc rs).flatten = acc ++ rs := by
  induction rs with
  | nil =>
    intro acc
    rw [batchesFrom]
    split_ifs with hacc
    · rw [hacc]
      rfl
    · rw [List.flatten_singleton, List.append_nil]
  | cons r rs ih =>
    intro acc
    rw [batchesFrom]
    split_ifs
    · rw [List.flatten_cons, ih, List.nil_append, List.append_assoc, List.singleton_append]
    · rw [ih, List.append_assoc, List.singleton_append]

/-- The batches hold the rows in their order. -/
theorem flatten_batches (evs : List LogEvent) :
    (ctx.batches evs).flatten = rowsOf (str "agent_log") evs :=
  flatten_batchesFrom _ _ []

theorem length_batchesFrom {max : ℕ} (rs : List RowFields) : ∀ {acc : List RowFields},
    acc.length < max → ∀ batch ∈ batchesFrom max acc rs, batch ≠ [] ∧ batch.length ≤ max := by
  induction rs with
  | nil =>
    intro acc hacc batch hbatch
    rw [batchesFrom] at hbatch
    split_ifs at hbatch with hnil
    · exact absurd hbatch List.not_mem_nil
    · rw [List.mem_singleton.mp hbatch]
      exact ⟨hnil, hacc.le⟩
  | cons r rs ih =>
    intro acc hacc batch hbatch
    have hlen : (acc ++ [r]).length = acc.length + 1 := by rw [List.length_append, List.length_singleton]
    rw [batchesFrom] at hbatch
    split_ifs at hbatch with hfull
    · rcases List.mem_cons.mp hbatch with rfl | hbatch
      · exact ⟨List.concat_ne_nil r acc, by omega⟩
      · exact ih (by rw [List.length_nil]; omega) batch hbatch
    · exact ih (by omega) batch hbatch

/-- No batch is empty, and none is larger than it may be. -/
theorem length_batches {evs : List LogEvent} {batch : List RowFields} (h : batch ∈ ctx.batches evs) :
    batch ≠ [] ∧ batch.length ≤ ctx.maxRows :=
  length_batchesFrom _ maxRows_pos batch h

/-! ### A chunk is flushed until it is done -/

/-- What is acknowledged was handled. -/
def Sending.Honest (s : Sending) : Prop := ∀ handled, s.fate = .sent handled true → handled = true

/-- A frame that carries a batch. -/
def Carries (ctx : LogOutput) (f : GoString) (batch : List RowFields) : Prop :=
  ∃ s comp, ctx.compress (pendingOf batch).tsv = some comp ∧ f = frame (pendingOf batch) s comp

theorem bytes_ne_nil (r : RowFields) : r.bytes ≠ [] :=
  List.append_ne_nil_of_right_ne_nil _ (by decide)

theorem tsv_pendingOf_ne_nil {batch : List RowFields} (h : batch ≠ []) : (pendingOf batch).tsv ≠ [] := by
  obtain ⟨r, rest, rfl⟩ := List.exists_cons_of_ne_nil h
  exact List.append_ne_nil_of_left_ne_nil (bytes_ne_nil r) _

variable (ctx) in
/-- A batch sent is handled or not, and is if the flush goes on. -/
theorem sendXlogFrame_cases {batch : List RowFields} (hne : batch ≠ []) {s : Sending} (hs : s.Honest) :
    ((ctx.sendXlogFrame (pendingOf batch) s).2 = [] ∧
        (ctx.sendXlogFrame (pendingOf batch) s).1 ≠ .ok) ∨
      ∃ f, (ctx.sendXlogFrame (pendingOf batch) s).2 = [f] ∧ ctx.Carries f batch := by
  rw [sendXlogFrame, if_neg (tsv_pendingOf_ne_nil hne)]
  rcases hcomp : ctx.compress (pendingOf batch).tsv with - | comp
  · exact .inl ⟨rfl, FlbResult.noConfusion⟩
  · rcases hfate : s.fate with - | ⟨_ | _, _ | _⟩
    · exact .inl ⟨rfl, FlbResult.noConfusion⟩
    · exact .inl ⟨rfl, FlbResult.noConfusion⟩
    · exact absurd (hs false hfate) Bool.false_ne_true
    · exact .inr ⟨_, rfl, s, comp, hcomp, rfl⟩
    · exact .inr ⟨_, rfl, s, comp, hcomp, rfl⟩

/-- **What a flush delivers** is the first of its batches, and all if it is done. -/
theorem deliver_carries {sends : ℕ → Sending} (hsends : ∀ n, (sends n).Honest)
    (bs : List (List RowFields)) : (∀ batch ∈ bs, batch ≠ []) → ∀ n,
      ∃ k, List.Forall₂ ctx.Carries (ctx.deliver sends n bs).2 (bs.take k) ∧
        ((ctx.deliver sends n bs).1 = .ok → k = bs.length) := by
  induction bs with
  | nil => exact fun _ n => ⟨0, .nil, fun _ => rfl⟩
  | cons batch rest ih =>
    intro hne n
    obtain ⟨hbatch, hrest⟩ := List.forall_mem_cons.mp hne
    obtain ⟨k, hcarries, hdone⟩ := ih hrest (n + 1)
    have hsend := ctx.sendXlogFrame_cases hbatch (hsends n)
    rw [deliver]
    generalize ctx.sendXlogFrame (pendingOf batch) (sends n) = sent at hsend ⊢
    rcases sent with ⟨_ | _ | _, handled⟩
    · obtain ⟨-, hok⟩ | ⟨f, hf, hcarried⟩ := hsend
      · exact absurd rfl hok
      · obtain rfl : handled = [f] := hf
        exact ⟨k + 1, .cons hcarried hcarries, fun hok => congrArg (· + 1) (hdone hok)⟩
    all_goals
      obtain ⟨hnone, -⟩ | ⟨f, hf, hcarried⟩ := hsend
      · obtain rfl : handled = [] := hnone
        exact ⟨0, .nil, FlbResult.noConfusion⟩
      · obtain rfl : handled = [f] := hf
        exact ⟨1, .cons hcarried .nil, FlbResult.noConfusion⟩

/-- **A chunk is delivered at least once**: of what is handled of it, each try but the last is a first part
of its batches, in their order, and the last is all of them if the chunk is done. Nothing else is
handled. -/
theorem engine_delivers (evs : List LogEvent) : ∀ attempts : List (ℕ → Sending),
    (∀ sends ∈ attempts, ∀ n, (sends n).Honest) →
      ∃ (tries : List (List GoString)) (last : List GoString), (ctx.engine evs attempts).2 = tries.flatten ++ last ∧
        (∀ t ∈ tries, ∃ k, List.Forall₂ ctx.Carries t ((ctx.batches evs).take k)) ∧
        ∃ k, List.Forall₂ ctx.Carries last ((ctx.batches evs).take k) ∧
          ((ctx.engine evs attempts).1 = .ok → k = (ctx.batches evs).length) := by
  intro attempts
  induction attempts with
  | nil => exact fun _ => ⟨[], [], rfl, by simp, 0, .nil, FlbResult.noConfusion⟩
  | cons sends later ih =>
    intro hhonest
    obtain ⟨hsends, hlater⟩ := List.forall_mem_cons.mp hhonest
    obtain ⟨k, hcarries, hdone⟩ := deliver_carries hsends (ctx.batches evs)
      (fun _ hb => (length_batches hb).1) 0
    rw [← cbFlush_eq] at hcarries hdone
    rw [engine]
    generalize ctx.cbFlush sends evs = flushed at hcarries hdone ⊢
    rcases flushed with ⟨_ | _ | _, handled⟩
    · exact ⟨[], handled, rfl, by simp, k, hcarries, hdone⟩
    · obtain ⟨tries, last, hall, htries, hlast⟩ := ih hlater
      refine ⟨handled :: tries, last, ?_, List.forall_mem_cons.mpr ⟨⟨k, hcarries⟩, htries⟩, hlast⟩
      rw [List.flatten_cons, List.append_assoc, ← hall]
    · exact ⟨[], handled, rfl, by simp, k, hcarries, hdone⟩

end LogOutput

/-! ### What is printed -/

open Ingest (rowLine readLine receive decompress)

/-- The cells that a row is to have. -/
def RowFields.cells (r : RowFields) : List GoString :=
  [decimal r.agentID.toNat, formatTime r.tvSec, decimal r.eventID.toNat, decimal r.kind.toNat, r.curTag,
    r.log]

/-- What a row is printed from: the seconds have 32 bits, a tag has room in `cur_tag`, and the length of a
log has 32 bits. -/
structure RowFields.Bounded (r : RowFields) : Prop where
  tvSec : 0 ≤ r.tvSec ∧ r.tvSec < 2 ^ 32
  curTag : r.curTag.length ≤ 127
  log : r.log.length < 2 ^ 32

/-- The row is not cut: it has room in the buffer, or the log alone has none. -/
def RowFields.Whole (r : RowFields) : Prop :=
  r.printed.length + r.log.length ≤ 4094 ∨ 4094 < r.log.length

/-- Nothing in the row reads as the end of a cell or a line. -/
structure RowFields.Plain (r : RowFields) : Prop where
  tag : 0x09 ∉ r.curTag ∧ 0x0A ∉ r.curTag
  log : 0x09 ∉ r.log ∧ 0x0A ∉ r.log
  ending : r.log.getLast? ≠ some 0x0D

theorem printed_append_log (r : RowFields) : r.printed ++ r.log = rowLine r.cells := by
  simp only [RowFields.printed, RowFields.cells, rowLine, Go.join_cons_cons, Go.join_singleton,
    List.append_assoc]

theorem bytes_decimal (n : ℕ) : ∀ b ∈ decimal n, 0x2D ≤ b.toNat := by
  intro b hb
  obtain ⟨c, hc, rfl⟩ := List.mem_map.mp hb
  have hdigit := Nat.isDigit_of_mem_toDigits (by decide) (by decide) hc
  simp only [Char.isDigit, ge_iff_le, Bool.and_eq_true, decide_eq_true_eq] at hdigit
  have hlow : 48 ≤ c.toNat := hdigit.1
  have hhigh : c.toNat ≤ 57 := hdigit.2
  rw [UInt8.toNat_ofNat']
  omega

theorem bytes_twoDigits (n : ℕ) : ∀ b ∈ twoDigits n, 0x2D ≤ b.toNat := by
  intro b hb
  rcases List.mem_append.mp hb with hb | hb
  · split_ifs at hb
    · rw [List.mem_singleton.mp hb]
      decide
    · exact absurd hb List.not_mem_nil
  · exact bytes_decimal n b hb

/-- A time has nothing but digits and the marks between them. -/
theorem bytes_formatTime (time : ℤ) : ∀ b ∈ formatTime time, 0x2D ≤ b.toNat := by
  have hmark : ∀ {c : UInt8}, 0x2D ≤ c.toNat → ∀ b ∈ [c], 0x2D ≤ b.toNat :=
    fun hc => List.forall_mem_singleton.mpr hc
  have hyear : ∀ year, ∀ b ∈ formatYear year, 0x2D ≤ b.toNat := by
    intro year
    rw [formatYear]
    split_ifs
    · exact List.forall_mem_cons.mpr ⟨by decide, bytes_decimal _⟩
    · exact bytes_decimal _
  simp only [formatTime, List.forall_mem_append]
  exact ⟨⟨⟨⟨⟨⟨⟨⟨⟨⟨⟨hyear _, hmark (by decide)⟩, bytes_twoDigits _⟩, hmark (by decide)⟩,
    bytes_twoDigits _⟩, hmark (by decide)⟩, bytes_twoDigits _⟩, hmark (by decide)⟩,
    bytes_twoDigits _⟩, hmark (by decide)⟩, bytes_twoDigits _⟩, hmark (by decide)⟩

theorem length_decimal_le {n k : ℕ} (hk : 0 < k) (h : n < 10 ^ k) : (decimal n).length ≤ k := by
  rw [decimal, List.length_map]
  exact (Nat.length_toDigits_le_iff (by decide) hk).mpr h

theorem length_twoDigits_le {n k : ℕ} (hk : 2 ≤ k) (h : n < 10 ^ k) : (twoDigits n).length ≤ k := by
  rw [twoDigits]
  split_ifs with hten
  · have hone : (decimal n).length ≤ 1 := length_decimal_le one_pos (by omega)
    rw [List.length_append, List.length_singleton]
    omega
  · rw [List.nil_append]
    exact length_decimal_le (by omega) h

/-- A time has room in `ts_buf`. -/
theorem length_formatTime_le {time : ℤ} (h : 0 ≤ time ∧ time < 2 ^ 32) :
    (formatTime time).length ≤ 31 := by
  have hyear : (formatYear (dateOfDay (time / 86400)).year).length ≤ 4 := by
    have hbound : 0 ≤ (dateOfDay (time / 86400)).year ∧ (dateOfDay (time / 86400)).year < 10000 := by
      simp only [dateOfDay]
      split_ifs
      all_goals omega
    rw [formatYear, if_neg (by omega)]
    exact length_decimal_le (by decide) (by omega)
  have hmonth : (twoDigits (dateOfDay (time / 86400)).month).length ≤ 4 := by
    refine length_twoDigits_le (by decide) ?_
    simp only [dateOfDay]
    split_ifs
    all_goals omega
  have hday : (twoDigits (dateOfDay (time / 86400)).day).length ≤ 6 := by
    refine length_twoDigits_le (by decide) ?_
    simp only [dateOfDay]
    omega
  have hhour := length_twoDigits_le (n := (time % 86400).toNat / 3600) le_rfl (by omega)
  have hminute := length_twoDigits_le (n := (time % 86400).toNat / 60 % 60) le_rfl (by omega)
  have hsecond := length_twoDigits_le (n := (time % 86400).toNat % 60) le_rfl (by omega)
  simp only [formatTime, List.length_append, List.length_cons, List.length_nil]
  omega

section Row

variable {r : RowFields}

/-- What is printed has room in the buffer. -/
theorem length_printed_le (h : r.Bounded) : r.printed.length ≤ 206 := by
  have hagent := length_decimal_le (n := r.agentID.toNat) (k := 20) (by decide)
    (r.agentID.toNat_lt.trans (by decide))
  have hevent := length_decimal_le (n := r.eventID.toNat) (k := 20) (by decide)
    (r.eventID.toNat_lt.trans (by decide))
  have hkind := length_decimal_le (n := r.kind.toNat) (k := 3) (by decide)
    (r.kind.toNat_lt.trans (by decide))
  have htime := length_formatTime_le h.tvSec
  have htag := h.curTag
  simp only [RowFields.printed, List.length_append, show (str "\t").length = 1 from rfl]
  omega

/-- How much is kept in front of a log. -/
theorem rowLength_eq {rlen logLen : ℕ} (hrlen : rlen ≤ 206) (hlog : logLen < 2 ^ 32) :
    rowLength rlen logLen = if logLen ≤ 4094 then min rlen (4094 - logLen) else rlen := by
  rw [rowLength]
  split_ifs
  all_goals omega

/-- A row that is not cut is its line. -/
theorem text_eq (h : r.Bounded) (hwhole : r.Whole) : r.text = rowLine r.cells := by
  have hkept : r.printed.length ≤ rowLength r.printed.length r.log.length := by
    rw [rowLength_eq (length_printed_le h) h.log]
    rcases hwhole with hroom | hlong
    · split_ifs
      · omega
      · exact le_rfl
    · rw [if_neg (by omega)]
  rw [RowFields.text, List.take_of_length_le hkept, printed_append_log]

/-- Of a row that is cut something is missing. -/
theorem whole_of_length (h : r.Bounded) (hlen : (rowLine r.cells).length ≤ r.text.length) : r.Whole := by
  rw [← printed_append_log, RowFields.text, List.length_append, List.length_append, List.length_take,
    rowLength_eq (length_printed_le h) h.log] at hlen
  rw [RowFields.Whole]
  split_ifs at hlen
  · omega
  · exact .inr (by omega)

theorem unbroken_cells (h : r.Plain) : ∀ cell ∈ r.cells, 0x09 ∉ cell ∧ 0x0A ∉ cell := by
  have hbytes : ∀ {s : GoString}, (∀ b ∈ s, 0x2D ≤ b.toNat) → 0x09 ∉ s ∧ 0x0A ∉ s := fun hs =>
    ⟨fun hmem => absurd (hs _ hmem) (by decide), fun hmem => absurd (hs _ hmem) (by decide)⟩
  simp only [RowFields.cells, List.forall_mem_cons]
  exact ⟨hbytes (bytes_decimal _), hbytes (bytes_formatTime _), hbytes (bytes_decimal _),
    hbytes (bytes_decimal _), h.tag, h.log, fun _ hmem => absurd hmem List.not_mem_nil⟩

/-! ### What is read of a row -/

/-- The rows that the handler reads of what a record adds to the lines. -/
def RowFields.readRows (r : RowFields) : List (List GoString) :=
  (split r.text (str "\n")).filterMap readLine

/-- A segment of a text stands in it. -/
theorem infix_of_mem_split {s sep p : GoString} (hsep : sep ≠ []) (hp : p ∈ split s sep) : p <:+: s := by
  have hjoin : ∀ parts : List GoString, p ∈ parts → p <:+: join parts sep := by
    intro parts
    induction parts with
    | nil => exact fun hmem => absurd hmem List.not_mem_nil
    | cons q parts ih =>
      intro hmem
      cases parts with
      | nil =>
        rw [Go.join_singleton, List.mem_singleton.mp hmem]
      | cons q' parts =>
        rw [Go.join_cons_cons]
        rcases List.mem_cons.mp hmem with rfl | hmem
        · exact (List.prefix_append _ _).isInfix
        · exact (ih hmem).trans
            ((List.suffix_append _ _).trans (List.suffix_append _ _)).isInfix
  rw [← Go.join_split hsep s]
  exact hjoin _ hp

theorem prefix_trimRight (s cutset : GoString) : trimRight s cutset <+: s := by
  rw [trimRight, ← List.reverse_suffix, List.reverse_reverse]
  exact List.dropWhile_suffix _

/-- **A row is read as it is meant exactly if it is not cut and nothing in it reads as an end.** -/
theorem readRows_eq_iff (h : r.Bounded) : r.readRows = [r.cells] ↔ r.Whole ∧ r.Plain := by
  have htab : str "\t" = [0x09] := rfl
  have hbreak : str "\n" = [0x0A] := rfl
  constructor
  · intro hread
    -- the one line read is as long as the row is to be, and so it is the whole text
    have hmem : r.cells ∈ r.readRows := hread ▸ List.mem_singleton_self _
    obtain ⟨line, hline, hcells⟩ := List.mem_filterMap.mp hmem
    rw [readLine] at hcells
    split_ifs at hcells
    have hsplit := Option.some.inj hcells
    have htrim : trimRight line (str "\r") = rowLine r.cells := by
      rw [rowLine, ← hsplit, Go.join_split (by decide)]
    have hinfix : line <:+: r.text := infix_of_mem_split (by decide) hline
    have hprefix := prefix_trimRight line (str "\r")
    have hlen : (rowLine r.cells).length ≤ r.text.length := by
      rw [← htrim]
      exact hprefix.length_le.trans hinfix.length_le
    have hwhole := whole_of_length h hlen
    have htext := text_eq h hwhole
    have hself : trimRight line (str "\r") = line := by
      refine hprefix.eq_of_length (le_antisymm hprefix.length_le ?_)
      rw [htrim, ← htext]
      exact hinfix.length_le
    have heq : line = r.printed ++ r.log := by rw [printed_append_log, ← htrim, hself]
    have hunbroken : 0x0A ∉ r.printed ++ r.log := heq ▸ Go.notMem_of_mem_split (hbreak ▸ hline)
    have htabless : ∀ cell ∈ r.cells, 0x09 ∉ cell := by
      intro cell hcell
      rw [← hsplit, htab] at hcell
      exact Go.notMem_of_mem_split hcell
    refine ⟨hwhole, ⟨htabless _ (by simp [RowFields.cells]), fun hmem => hunbroken ?_⟩,
      ⟨htabless _ (by simp [RowFields.cells]), fun hmem => hunbroken ?_⟩, fun hlast => ?_⟩
    · exact List.mem_append_left _ (by simp [RowFields.printed, hmem])
    · exact List.mem_append_right _ hmem
    · refine absurd (Go.trimRight_eq_self_iff.mp hself 0x0D ?_) (by decide)
      rw [heq, List.getLast?_append, hlast]
      rfl
  · rintro ⟨hwhole, hplain⟩
    have hcells := unbroken_cells hplain
    have hunbroken : 0x0A ∉ rowLine r.cells := by
      intro hmem
      rcases Go.mem_join hmem with hsep | ⟨cell, hcell, hmem⟩
      · exact absurd hsep (by decide)
      · exact (hcells cell hcell).2 hmem
    have htrim : Ingest.trimRow r.cells = r.cells := by
      rw [Ingest.trimRow_eq_self_iff]
      rintro ⟨cell, hcell, hlast⟩
      obtain rfl := Option.some.inj hcell
      exact hplain.ending hlast
    have hne : r.cells ≠ [] := List.cons_ne_nil _ _
    have hread := Ingest.readLine_rowLine hne fun cell hcell => (hcells cell hcell).1
    rw [htrim, if_neg (by simp [RowFields.cells])] at hread
    rw [RowFields.readRows, text_eq h hwhole, hbreak, Go.split_of_notMem hunbroken, List.filterMap_cons,
      hread]
    rfl

/-- A short log is read, and one of 4090 bytes is not, though nothing in it reads as an end. -/
theorem readRows_logon :
    (∃ r : RowFields, r.log = str "logon" ∧ r.readRows = [r.cells]) ∧
      ∃ r : RowFields, r.log = List.replicate 4090 0x61 ∧ r.Plain ∧ r.readRows ≠ [r.cells] := by
  let logon : RowFields := ⟨951827696, 10001, 4624, 1, str "logon", str "wzcp"⟩
  let long : RowFields := ⟨951827696, 10001, 4624, 1, List.replicate 4090 0x61, str "wzcp"⟩
  have hlog : (List.replicate 4090 (0x61 : UInt8)).length = 4090 := List.length_replicate
  have hprinted : long.printed.length = 39 := by decide +kernel
  have hbounded : long.Bounded := ⟨by decide, by decide, by rw [hlog]; decide⟩
  refine ⟨⟨logon, rfl, ?_⟩, long, rfl, ⟨by decide, ?_, ?_⟩, fun hread => ?_⟩
  · exact (readRows_eq_iff ⟨by decide, by decide, by decide⟩).mpr
      ⟨.inl (by decide +kernel), by decide, by decide, by decide⟩
  · exact ⟨fun hmem => absurd (List.eq_of_mem_replicate hmem) (by decide),
      fun hmem => absurd (List.eq_of_mem_replicate hmem) (by decide)⟩
  · intro hlast
    exact absurd (List.eq_of_mem_replicate (List.mem_of_getLast? hlast)) (by decide)
  · rcases ((readRows_eq_iff hbounded).mp hread).1 with hroom | hover
    · rw [hprinted, hlog] at hroom
      omega
    · rw [hlog] at hover
      omega

end Row

/-! ### What is read of a batch -/

/-- The segments of a text, and those behind the separator. -/
theorem split_append_sep (b : UInt8) (s t : GoString) :
    split (s ++ b :: t) [b] = split s [b] ++ split t [b] := by
  have hgo : Go.splitGo [b] 0 (s ++ b :: t) =
      ((Go.splitGo [b] 0 s).1, (Go.splitGo [b] 0 s).2 ++ split t [b]) := by
    induction s with
    | nil =>
      show Go.splitGo [b] 0 (b :: t) = ([], split t [b])
      rw [Go.splitGo, if_pos (by simp)]
      rfl
    | cons c cs ih =>
      rw [List.cons_append, Go.splitGo, Go.splitGo]
      by_cases hc : c = b
      · rw [if_pos (by simp [hc]), if_pos (by simp [hc]), List.length_singleton, Nat.sub_self, ih]
        rfl
      · have hbc : ¬b = c := fun h => hc h.symm
        rw [if_neg (by simp [hbc]), if_neg (by simp [hbc]), ih]
  rw [split, hgo, split]
  rfl

/-- **The lines of a batch are read record by record.** -/
theorem filterMap_readLine_bytes (batch : List RowFields) :
    (split (batch.flatMap RowFields.bytes) (str "\n")).filterMap readLine =
      batch.flatMap RowFields.readRows := by
  induction batch with
  | nil => decide
  | cons r batch ih =>
    rw [List.flatMap_cons, List.flatMap_cons, ← ih, RowFields.bytes, RowFields.readRows,
      show str "\n" = [0x0A] from rfl, List.append_assoc, List.singleton_append, split_append_sep,
      List.filterMap_append]

/-- The columns of all frames. -/
def xlogColumns : List GoString :=
  [str "agent_id", str "_time", str "event_id", str "kind", str "tag", str "log"]

theorem splitColumns_columnsCsv :
    Ingest.splitColumns (LogOutput.columnsCsv.take 0xFFFF) = xlogColumns := by decide +kernel

/-- **A frame whose data fits arrives** with the rows of its batch, for the agent and the tag of the last
one. -/
theorem LogOutput.carries_arrives {ctx : LogOutput} {decodeAll : GoString → Except GoString GoString}
    {f : GoString} {batch : List RowFields}
    (hzstd : ∀ raw comp, ctx.compress raw = some comp → comp ≠ [] ∧ decodeAll comp = .ok raw)
    (hfits : ∀ comp, ctx.compress (pendingOf batch).tsv = some comp → comp.length ≤ 0xFFFF)
    (hcarries : ctx.Carries f batch) :
    ∃ hdr carried, receive f = .ok (hdr, carried) ∧ hdr.agentID = (pendingOf batch).agentID ∧
      hdr.tag = (pendingOf batch).tag.take 255 ∧ carried.columns = xlogColumns ∧
        decompress decodeAll carried = .ok (batch.flatMap RowFields.readRows) := by
  obtain ⟨s, comp, hcomp, rfl⟩ := hcarries
  obtain ⟨hdata, hdecode⟩ := hzstd _ _ hcomp
  refine ⟨_, _, Ingest.receive_frame hdata (hfits comp hcomp), rfl, rfl, splitColumns_columnsCsv, ?_⟩
  rw [decompress, Ingest.carriedBatch, hdecode]
  dsimp only
  rw [if_neg fun hsize => hsize.2 rfl]
  exact congrArg Except.ok (filterMap_readLine_bytes batch)

end Gateway

end Xsiam
