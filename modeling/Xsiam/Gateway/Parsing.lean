import Xsiam.Gateway.Buffer
import Xsiam.Lib.Scan

/-!
# What a body holds

The bodies of EVENT_BATCH and HELLO frames, described without an offset: a batch begins with a number
and with so many events, one behind the other (`Xsiam.Gateway.HoldsBatch`), and a HELLO with the fields
of its schema version, each within its limit (`Xsiam.Gateway.HoldsHello`). What stands behind them is
not looked at, in both.

These are the bodies that are parsed, and they are parsed as what they hold
(`Xsiam.Gateway.parseEventBatch_iff`, `Xsiam.Gateway.parseHello_iff`).
-/

namespace Xsiam

namespace Gateway

open Go (str)
open Codec (beBytes beNat length_beBytes beNat_beBytes beNat_lt beBytes_beNat)

/-! ### Numbers -/

section Numbers

variable {body rest : List UInt8} {off k n : ℕ}

theorem drop_eq_take (body : List UInt8) (off k : ℕ) :
    body.drop off = (body.drop off).take k ++ body.drop (off + k) := by
  rw [← List.drop_drop, List.take_append_drop]

/-- What stands at an offset, and what stands behind it. -/
theorem drop_eq_beBytes (off k : ℕ) (h : off + k ≤ body.length) :
    body.drop off = beBytes k (beAt body off k) ++ body.drop (off + k) := by
  have hlen : ((body.drop off).take k).length = k := by
    rw [List.length_take_of_le]
    rw [List.length_drop]
    omega
  have hbytes := beBytes_beNat ((body.drop off).take k)
  rw [hlen] at hbytes
  rw [beAt, hbytes, ← drop_eq_take]

theorem beAt_of_drop (h : body.drop off = beBytes k n ++ rest) (hn : n < 256 ^ k) :
    beAt body off k = n := by
  rw [beAt, h, List.take_append_of_le_length (length_beBytes k n).ge,
    List.take_of_length_le (length_beBytes k n).le, beNat_beBytes k n hn]

theorem beAt_lt (h : off + k ≤ body.length) : beAt body off k < 256 ^ k := by
  have hlt := beNat_lt ((body.drop off).take k)
  rwa [List.length_take_of_le (by rw [List.length_drop]; omega)] at hlt

/-- What is behind a part of the bytes at an offset. -/
theorem drop_of_drop (off : ℕ) {part : List UInt8} (h : body.drop off = part ++ rest) (hpart : part.length = k) :
    body.drop (off + k) = rest := by
  rw [← List.drop_drop, h, ← hpart, List.drop_left]

theorem length_of_drop (h : body.drop off = rest) (hoff : off ≤ body.length) :
    body.length = off + rest.length := by
  rw [← h, List.length_drop]
  omega

end Numbers

/-! ### Strings -/

/-- A string as a body holds it: its length in two bytes, and then itself. -/
def stringBytes (raw : List UInt8) : List UInt8 := beBytes 2 raw.length ++ raw

theorem length_stringBytes (raw : List UInt8) : (stringBytes raw).length = 2 + raw.length := by
  rw [stringBytes, List.length_append, length_beBytes]

section Strings

variable {body rest raw : List UInt8} {off off' outSize : ℕ} {s : CString}

/-- What is read as a string are the bytes of one that the buffer has room for. -/
theorem exists_of_readString (h : readString body off outSize = some (s, off')) :
    ∃ raw, body.drop off = stringBytes raw ++ body.drop off' ∧ raw.length < 2 ^ 16 ∧
      raw.length < outSize ∧ off' ≤ body.length ∧ s = cString raw := by
  rw [readString] at h
  split_ifs at h with hhead
  rw [not_or, Nat.not_lt] at hhead
  dsimp only at h
  split_ifs at h with hraw
  rw [not_or, Nat.not_lt, Nat.not_le] at hraw
  obtain ⟨rfl, rfl⟩ := Prod.mk.inj (Option.some.inj h)
  have hlen : ((body.drop (off + 2)).take (beAt body off 2)).length = beAt body off 2 := by
    rw [List.length_take_of_le]
    rw [List.length_drop]
    omega
  refine ⟨(body.drop (off + 2)).take (beAt body off 2), ?_, ?_, ?_, hraw.1, rfl⟩
  · rw [stringBytes, hlen, List.append_assoc, ← drop_eq_take]
    exact drop_eq_beBytes _ _ hhead.1
  · rw [hlen]
    exact beAt_lt hhead.1
  · rw [hlen]
    exact hraw.2

/-- **The bytes of a string that the buffer has room for are read as it.** -/
theorem readString_of_drop (hoff : off ≤ body.length) (h : body.drop off = stringBytes raw ++ rest)
    (hword : raw.length < 2 ^ 16) (hsize : raw.length < outSize) :
    ∃ off', readString body off outSize = some (cString raw, off') ∧ body.drop off' = rest ∧
      off' ≤ body.length := by
  have hlength := length_of_drop h hoff
  have hrest := drop_of_drop off h (length_stringBytes raw)
  rw [List.length_append, length_stringBytes] at hlength
  rw [stringBytes, List.append_assoc] at h
  have hlen : beAt body off 2 = raw.length := beAt_of_drop h hword
  have hbehind := drop_of_drop off h (length_beBytes 2 raw.length)
  refine ⟨off + (2 + raw.length), ?_, hrest, by omega⟩
  rw [readString, if_neg (by omega), hlen]
  dsimp only
  rw [if_neg (by omega), hbehind, List.take_left, Nat.add_assoc]

end Strings

/-! ### Events -/

/-- An event as a body holds it. Nine bytes behind its kind are not looked at. -/
def EventRecord.bytes (gap : List UInt8) (ev : EventRecord) : List UInt8 :=
  ev.kind :: gap ++ beBytes 8 ev.eventID ++ (beBytes 2 ev.payload.length ++ ev.payload)

/-- Bytes that begin with some events, one behind the other. -/
inductive HoldsEvents : List EventRecord → List UInt8 → Prop where
  | nil (rest : List UInt8) : HoldsEvents [] rest
  | cons {ev : EventRecord} {gap : List UInt8} {events : List EventRecord} {rest : List UInt8}
      (hgap : gap.length = 9) (hid : ev.eventID < 2 ^ 64) (hpayload : ev.payload.length < 2 ^ 16)
      (hevents : HoldsEvents events rest) : HoldsEvents (ev :: events) (ev.bytes gap ++ rest)

/-- **A body holds a batch**: it begins with the number of some events, and with them. -/
def HoldsBatch (events : List EventRecord) (body : List UInt8) : Prop :=
  events.length < 2 ^ 16 ∧ ∃ rest, body = beBytes 2 events.length ++ rest ∧ HoldsEvents events rest

theorem holdsEvents_cons_iff {ev : EventRecord} {events : List EventRecord} {bs : List UInt8} :
    HoldsEvents (ev :: events) bs ↔ ∃ gap rest, bs = ev.bytes gap ++ rest ∧ gap.length = 9 ∧
      ev.eventID < 2 ^ 64 ∧ ev.payload.length < 2 ^ 16 ∧ HoldsEvents events rest := by
  constructor
  · intro h
    cases h with
    | cons hgap hid hpayload hevents => exact ⟨_, _, rfl, hgap, hid, hpayload, hevents⟩
  · rintro ⟨gap, rest, rfl, hgap, hid, hpayload, hevents⟩
    exact .cons hgap hid hpayload hevents

section Events

variable {body rest : List UInt8} {off : ℕ}

/-- The first byte at an offset. -/
theorem drop_eq_cons (h : off < body.length) :
    body.drop off = body.getD off 0 :: body.drop (off + 1) := by
  rw [List.drop_eq_getElem_cons h, List.getD_eq_getElem _ _ h]

theorem getD_of_drop {b : UInt8} (h : body.drop off = b :: rest) : body.getD off 0 = b := by
  have hget : (body.drop off)[0]? = body[off]? := by rw [List.getElem?_drop, Nat.add_zero]
  rw [h, List.getElem?_cons_zero] at hget
  rw [List.getD_eq_getElem?_getD, ← hget, Option.getD_some]

/-- What is read as an event, where there is room for it, are its bytes. -/
theorem drop_eq_event (hroom : off + 20 + beAt body (off + 18) 2 ≤ body.length) :
    body.drop off = EventRecord.bytes ((body.drop (off + 1)).take 9) ⟨body.getD off 0,
        beAt body (off + 10) 8, (body.drop (off + 20)).take (beAt body (off + 18) 2)⟩ ++
      body.drop (off + 20 + beAt body (off + 18) 2) := by
  have hlen : ((body.drop (off + 20)).take (beAt body (off + 18) 2)).length =
      beAt body (off + 18) 2 := by
    rw [List.length_take_of_le]
    rw [List.length_drop]
    omega
  have hgap := drop_eq_take body (off + 1) 9
  have hid : body.drop (off + 10) = _ := drop_eq_beBytes (off + 10) 8 (by omega)
  have hword : body.drop (off + 18) = _ := drop_eq_beBytes (off + 18) 2 (by omega)
  have hpayload := drop_eq_take body (off + 20) (beAt body (off + 18) 2)
  calc
    body.drop off = body.getD off 0 :: body.drop (off + 1) := drop_eq_cons (by omega)
    _ = body.getD off 0 :: ((body.drop (off + 1)).take 9 ++ (beBytes 8 (beAt body (off + 10) 8) ++
        (beBytes 2 (beAt body (off + 18) 2) ++ ((body.drop (off + 20)).take (beAt body (off + 18) 2) ++
          body.drop (off + 20 + beAt body (off + 18) 2))))) := by
      rw [← hpayload, ← hword, ← hid, ← hgap]
    _ = _ := by
      rw [EventRecord.bytes, hlen]
      simp only [List.cons_append, List.append_assoc]

/-- **The bytes of an event are read as it.** -/
theorem event_of_drop {gap : List UInt8} {ev : EventRecord} (hoff : off ≤ body.length)
    (hgap : gap.length = 9) (hid : ev.eventID < 2 ^ 64) (hpayload : ev.payload.length < 2 ^ 16)
    (h : body.drop off = ev.bytes gap ++ rest) :
    off + 20 + ev.payload.length ≤ body.length ∧ body.getD off 0 = ev.kind ∧
      beAt body (off + 10) 8 = ev.eventID ∧ beAt body (off + 18) 2 = ev.payload.length ∧
      (body.drop (off + 20)).take ev.payload.length = ev.payload ∧
      body.drop (off + 20 + ev.payload.length) = rest := by
  have hkind : body.drop off = ev.kind :: (gap ++ (beBytes 8 ev.eventID ++
      (beBytes 2 ev.payload.length ++ (ev.payload ++ rest)))) := by
    rw [h, EventRecord.bytes]
    simp only [List.cons_append, List.append_assoc]
  have hlength := length_of_drop hkind hoff
  simp only [List.length_cons, List.length_append, length_beBytes, hgap] at hlength
  have hdrop1 : body.drop (off + 1) = _ :=
    drop_of_drop off (show body.drop off = [ev.kind] ++ _ from hkind) rfl
  have hdrop10 : body.drop (off + 10) = _ := drop_of_drop (off + 1) hdrop1 hgap
  have hdrop18 : body.drop (off + 18) = _ :=
    drop_of_drop (off + 10) hdrop10 (length_beBytes 8 _)
  have hdrop20 : body.drop (off + 20) = _ :=
    drop_of_drop (off + 18) hdrop18 (length_beBytes 2 _)
  refine ⟨by omega, getD_of_drop hkind, beAt_of_drop hdrop10 hid, beAt_of_drop hdrop18 hpayload, ?_,
    drop_of_drop (off + 20) hdrop20 rfl⟩
  rw [hdrop20, List.take_left]

theorem readEvents_iff {n : ℕ} : ∀ {off : ℕ} {events : List EventRecord},
    off ≤ body.length → (readEvents n body off = some events ↔
      events.length = n ∧ HoldsEvents events (body.drop off)) := by
  induction n with
  | zero =>
    intro off events _
    rw [readEvents]
    constructor
    · rintro h
      obtain rfl := Option.some.inj h
      exact ⟨rfl, .nil _⟩
    · rintro ⟨hlen, -⟩
      rw [List.length_eq_zero_iff.mp hlen]
  | succ n ih =>
    intro off events hoff
    rw [readEvents]
    constructor
    · -- what is read are the bytes of an event, and then of others
      intro h
      split_ifs at h with hhead
      dsimp only at h
      split_ifs at h with hpayload
      obtain ⟨evs, hevs, rfl⟩ := Option.map_eq_some_iff.mp h
      obtain ⟨hlen, hholds⟩ := (ih (by omega)).mp hevs
      refine ⟨by rw [List.length_cons, hlen], ?_⟩
      refine holdsEvents_cons_iff.mpr ⟨_, _, drop_eq_event (by omega), ?_, ?_, ?_, hholds⟩
      · rw [List.length_take_of_le]
        rw [List.length_drop]
        omega
      · exact beAt_lt (by omega)
      · have hlt : beAt body (off + 18) 2 < 256 ^ 2 := beAt_lt (by omega)
        rw [List.length_take_of_le]
        · exact hlt
        · rw [List.length_drop]
          omega
    · rintro ⟨hlen, hholds⟩
      cases events with
      | nil => exact absurd hlen (by simp)
      | cons ev events =>
        obtain ⟨gap, rest, hdrop, hgap, hid, hpayload, hevents⟩ := holdsEvents_cons_iff.mp hholds
        obtain ⟨hroom, hkind, hid, hword, htake, hrest⟩ := event_of_drop hoff hgap hid hpayload hdrop
        rw [if_neg (by omega)]
        dsimp only
        rw [hkind, hid, hword, htake, if_neg (by omega),
          (ih hroom).mpr ⟨Nat.succ.inj hlen, hrest ▸ hevents⟩]
        rfl

/-- **A batch is read exactly where a body holds it.** -/
theorem parseEventBatch_iff {events : List EventRecord} :
    parseEventBatch body = some events ↔ HoldsBatch events body := by
  rw [parseEventBatch, HoldsBatch]
  by_cases hshort : body.length < 2
  · rw [if_pos hshort]
    refine iff_of_false (Option.some_ne_none events ∘ Eq.symm) ?_
    rintro ⟨-, rest, rfl, -⟩
    rw [List.length_append, length_beBytes] at hshort
    omega
  rw [if_neg hshort, readEvents_iff (by omega)]
  constructor
  · rintro ⟨hlen, hholds⟩
    rw [hlen]
    exact ⟨beAt_lt (by omega), body.drop 2, drop_eq_beBytes 0 2 (by omega), hholds⟩
  · rintro ⟨hlen, rest, hbody, hholds⟩
    have hdrop : body.drop 0 = _ := hbody
    refine ⟨(beAt_of_drop hdrop hlen).symm, ?_⟩
    rw [drop_of_drop 0 hdrop (length_beBytes 2 _)]
    exact hholds

end Events

/-! ### HELLO -/

/-- The fields of a HELLO. Those of the second schema version are not in a body of the first. -/
structure HelloFields where
  version : ℕ
  /-- Two bytes that are not looked at. -/
  gap : List UInt8
  agentID : List UInt8
  agentName : List UInt8
  agentVersion : List UInt8
  hostType : List UInt8
  macs : List (List UInt8)

/-- The fields that came with the second schema version, as a body holds them. -/
def HelloFields.hostBytes (h : HelloFields) : List UInt8 :=
  if 2 ≤ h.version then stringBytes h.hostType ++ (beBytes 2 h.macs.length ++ h.macs.flatMap stringBytes)
  else []

/-- The fields of a HELLO as a body holds them. -/
def HelloFields.bytes (h : HelloFields) : List UInt8 :=
  beBytes 2 h.version ++ h.gap ++ (stringBytes h.agentID ++ (stringBytes h.agentName ++
    (stringBytes h.agentVersion ++ h.hostBytes)))

/-- The fields are within their limits. -/
structure HelloFields.Fit (h : HelloFields) : Prop where
  version_pos : 1 ≤ h.version
  version_lt : h.version < 2 ^ 16
  gap : h.gap.length = 2
  agentID : h.agentID.length < 128
  agentName : h.agentName.length < 256
  agentVersion : h.agentVersion.length < 64
  hostType : h.hostType.length < 16
  macs : h.macs.length < 2 ^ 16
  mac : ∀ mac ∈ h.macs, mac.length < 32

/-- What is read of the fields. -/
def HelloFields.read (h : HelloFields) : Hello where
  agentID := cString h.agentID
  agentName := cString h.agentName
  agentVersion := cString h.agentVersion
  hostType := if 2 ≤ h.version then cString h.hostType else []
  macAddressesJSON :=
    if 2 ≤ h.version then some (macAddressesJSON (h.macs.map cString)) else none

/-- **A body holds a HELLO**: it begins with the fields of its schema version, which are within
their limits. -/
def HoldsHello (h : HelloFields) (body : List UInt8) : Prop :=
  h.Fit ∧ ∃ rest, body = h.bytes ++ rest

section HelloBodies

variable {body : List UInt8}

theorem readMacs_iff {n : ℕ} : ∀ {off : ℕ} {macs : List CString}, off ≤ body.length →
    (readMacs n body off = some macs ↔ ∃ raws : List (List UInt8), ∃ rest,
      body.drop off = raws.flatMap stringBytes ++ rest ∧ raws.length = n ∧
        (∀ raw ∈ raws, raw.length < 32) ∧ macs = raws.map cString) := by
  induction n with
  | zero =>
    intro off macs _
    rw [readMacs]
    constructor
    · intro h
      obtain rfl := Option.some.inj h
      exact ⟨[], body.drop off, rfl, rfl, by simp, rfl⟩
    · rintro ⟨raws, rest, -, hlen, -, rfl⟩
      rw [List.length_eq_zero_iff.mp hlen]
      rfl
  | succ n ih =>
    intro off macs hoff
    rw [readMacs]
    constructor
    · intro h
      rcases hread : readString body off 32 with _ | ⟨mac, off'⟩
      · rw [hread] at h
        exact absurd h.symm (Option.some_ne_none macs)
      · rw [hread] at h
        obtain ⟨macs', hmacs', rfl⟩ := Option.map_eq_some_iff.mp h
        obtain ⟨raw, hdrop, -, hshort, hoff', rfl⟩ := exists_of_readString hread
        obtain ⟨raws, rest, hrest, hlen, hall, rfl⟩ := (ih hoff').mp hmacs'
        refine ⟨raw :: raws, rest, ?_, by rw [List.length_cons, hlen],
          List.forall_mem_cons.mpr ⟨hshort, hall⟩, rfl⟩
        rw [hdrop, hrest, List.flatMap_cons, List.append_assoc]
    · rintro ⟨raws, rest, hdrop, hlen, hall, rfl⟩
      cases raws with
      | nil => exact absurd hlen (by simp)
      | cons raw raws =>
        obtain ⟨hshort, hall⟩ := List.forall_mem_cons.mp hall
        rw [List.flatMap_cons, List.append_assoc] at hdrop
        obtain ⟨off', hread, hbehind, hoff'⟩ := readString_of_drop hoff hdrop (by omega) hshort
        rw [hread]
        dsimp only
        rw [(ih hoff').mpr ⟨raws, rest, hbehind, Nat.succ.inj hlen, hall, rfl⟩]
        rfl

/-- The fields that came with the second schema version are read exactly where a body holds them. -/
theorem readHost_iff {version off : ℕ} {host : CString × Option CString} (hoff : off ≤ body.length) :
    readHost version body off = some host ↔ ∃ h : HelloFields, ∃ rest, h.version = version ∧
      body.drop off = h.hostBytes ++ rest ∧ h.hostType.length < 16 ∧ h.macs.length < 2 ^ 16 ∧
        (∀ mac ∈ h.macs, mac.length < 32) ∧ host = (h.read.hostType, h.read.macAddressesJSON) := by
  rw [readHost]
  by_cases hversion : 2 ≤ version
  · rw [if_pos hversion]
    constructor
    · intro h
      rcases hread : readString body off 16 with _ | ⟨hostType, off'⟩
      · rw [hread] at h
        exact absurd h.symm (Option.some_ne_none host)
      · rw [hread] at h
        dsimp only at h
        split_ifs at h with hroom
        obtain ⟨macs, hmacs, rfl⟩ := Option.map_eq_some_iff.mp h
        obtain ⟨raw, hdrop, -, hshort, -, rfl⟩ := exists_of_readString hread
        obtain ⟨raws, rest, hrest, hlen, hall, rfl⟩ := (readMacs_iff (by omega)).mp hmacs
        refine ⟨⟨version, [], [], [], [], raw, raws⟩, rest, rfl, ?_, hshort, ?_, hall, ?_⟩
        · rw [HelloFields.hostBytes, if_pos hversion, List.append_assoc, List.append_assoc, ← hrest,
            hlen, ← drop_eq_beBytes _ _ (by omega), ← hdrop]
        · rw [hlen]
          exact beAt_lt (by omega)
        · rw [HelloFields.read]
          dsimp only
          rw [if_pos hversion, if_pos hversion]
    · rintro ⟨h, rest, rfl, hdrop, hhost, hcount, hall, rfl⟩
      rw [HelloFields.hostBytes, if_pos hversion, List.append_assoc, List.append_assoc] at hdrop
      obtain ⟨off', hread, hbehind, hoff'⟩ := readString_of_drop hoff hdrop (by omega) hhost
      have hroom := length_of_drop hbehind hoff'
      rw [List.length_append, length_beBytes] at hroom
      have hmacs := drop_of_drop off' hbehind (length_beBytes 2 _)
      rw [hread]
      dsimp only
      rw [if_neg (by omega), beAt_of_drop hbehind hcount,
        (readMacs_iff (by omega)).mpr ⟨h.macs, rest, hmacs, rfl, hall, rfl⟩, HelloFields.read]
      dsimp only [Option.map_some]
      rw [if_pos hversion, if_pos hversion]
  · rw [if_neg hversion]
    constructor
    · intro h
      obtain rfl := Option.some.inj h
      refine ⟨⟨version, [], [], [], [], [], []⟩, body.drop off, rfl, ?_, by simp, by simp, by simp, ?_⟩
      · rw [HelloFields.hostBytes, if_neg hversion, List.nil_append]
      · rw [HelloFields.read]
        dsimp only
        rw [if_neg hversion, if_neg hversion]
    · rintro ⟨h, rest, rfl, -, -, -, -, rfl⟩
      rw [HelloFields.read]
      dsimp only
      rw [if_neg hversion, if_neg hversion]

/-- What is read as a HELLO are the bytes of its fields. -/
theorem exists_of_parseHello {hello : Hello} (hparse : parseHello body = some hello) :
    ∃ h, HoldsHello h body ∧ hello = h.read := by
  rw [parseHello] at hparse
  split_ifs at hparse with hshort hversion
  rcases hid : readString body 4 128 with _ | ⟨agentID, off₁⟩
  · rw [hid] at hparse
    exact absurd hparse.symm (Option.some_ne_none hello)
  rw [hid] at hparse
  dsimp only at hparse
  rcases hname : readString body off₁ 256 with _ | ⟨agentName, off₂⟩
  · rw [hname] at hparse
    exact absurd hparse.symm (Option.some_ne_none hello)
  rw [hname] at hparse
  dsimp only at hparse
  rcases hagent : readString body off₂ 64 with _ | ⟨agentVersion, off₃⟩
  · rw [hagent] at hparse
    exact absurd hparse.symm (Option.some_ne_none hello)
  rw [hagent] at hparse
  obtain ⟨host, hhost, rfl⟩ := Option.map_eq_some_iff.mp hparse
  obtain ⟨id, hdrop₁, -, hidLen, -, rfl⟩ := exists_of_readString hid
  obtain ⟨name, hdrop₂, -, hnameLen, -, rfl⟩ := exists_of_readString hname
  obtain ⟨agent, hdrop₃, -, hagentLen, hoff₃, rfl⟩ := exists_of_readString hagent
  obtain ⟨⟨version, _, _, _, _, hostType, macs⟩, rest, hv, hdrop, htype, hcount, hall, rfl⟩ :=
    (readHost_iff hoff₃).mp hhost
  dsimp only at hv htype hcount hall
  have hpos : 1 ≤ version := by omega
  have hlt : version < 2 ^ 16 := by
    have hlt : beAt body 0 2 < 256 ^ 2 := beAt_lt (by omega)
    omega
  refine ⟨⟨version, (body.drop 2).take 2, id, name, agent, hostType, macs⟩, ⟨?_, rest, ?_⟩, rfl⟩
  · refine ⟨hpos, hlt, ?_, hidLen, hnameLen, hagentLen, htype, hcount, hall⟩
    rw [List.length_take_of_le]
    rw [List.length_drop]
    omega
  · have hversion : body.drop 0 = _ := drop_eq_beBytes 0 2 (by omega)
    have hgap := drop_eq_take body 2 2
    rw [← hv] at hversion
    have hhost : HelloFields.hostBytes ⟨version, (body.drop 2).take 2, id, name, agent, hostType, macs⟩ ++
        rest = body.drop off₃ := hdrop.symm
    rw [HelloFields.bytes]
    simp only [List.append_assoc]
    rw [hhost, ← hdrop₃, ← hdrop₂, ← hdrop₁, ← hgap]
    exact hversion

/-- The bytes of the fields of a HELLO are read as it. -/
theorem parseHello_of_holds {h : HelloFields} (hholds : HoldsHello h body) :
    parseHello body = some h.read := by
  obtain ⟨hfit, rest, hbody⟩ := hholds
  obtain ⟨hpos, hlt, hgap, hid, hname, hagent, htype, hcount, hall⟩ := hfit
  rw [HelloFields.bytes] at hbody
  simp only [List.append_assoc] at hbody
  have hdrop : body.drop 0 = _ := hbody
  have hversion : beAt body 0 2 = h.version := beAt_of_drop hdrop hlt
  have hlength := length_of_drop hdrop (by omega)
  simp only [List.length_append, length_beBytes, hgap] at hlength
  have hdrop₂ : body.drop 2 = _ := drop_of_drop 0 hdrop (length_beBytes 2 _)
  have hdrop₄ : body.drop 4 = _ := drop_of_drop 2 hdrop₂ hgap
  obtain ⟨off₁, hread₁, hrest₁, hoff₁⟩ := readString_of_drop (by omega) hdrop₄ (by omega) hid
  obtain ⟨off₂, hread₂, hrest₂, hoff₂⟩ := readString_of_drop hoff₁ hrest₁ (by omega) hname
  obtain ⟨off₃, hread₃, hrest₃, hoff₃⟩ := readString_of_drop hoff₂ hrest₂ (by omega) hagent
  have hhost : readHost h.version body off₃ = some (h.read.hostType, h.read.macAddressesJSON) :=
    (readHost_iff hoff₃).mpr ⟨h, rest, rfl, hrest₃, htype, hcount, hall, rfl⟩
  rw [parseHello, if_neg (by omega), hversion, if_neg (by omega), hread₁]
  dsimp only
  rw [hread₂]
  dsimp only
  rw [hread₃]
  dsimp only
  rw [hhost]
  rfl

/-- **A HELLO is read exactly where a body holds it.** -/
theorem parseHello_iff {hello : Hello} :
    parseHello body = some hello ↔ ∃ h, HoldsHello h body ∧ hello = h.read := by
  refine ⟨exists_of_parseHello, ?_⟩
  rintro ⟨h, hholds, rfl⟩
  exact parseHello_of_holds hholds

end HelloBodies

end Gateway

end Xsiam
