import Xsiam.Agent.Wzcp
import Xsiam.Gateway.Escape

/-!
# HELLO, from an agent to the gateway

An agent writes its name and its addresses into the body of a HELLO (`Xsiam.Agent.buildHelloEx`),
and the gateway reads them into buffers of fixed sizes (`Xsiam.Gateway.parseHello`). On the way a
string loses what 16 bits do not count, a list of addresses what is behind its first 511 bytes and
behind its first 64 addresses, and the gateway refuses what does not fit its buffers.

So a HELLO that is built arrives (`Xsiam.Agent.hello_arrives_iff`) exactly if every string is
shorter than the buffer it is for, and the list of addresses is not cut.
-/

namespace Xsiam

namespace Agent

open Codec
open Gateway (CString Hello beAt cString readString readMacs readHost parseHello macAddressesJSON
  jsonEscapeByte jsonEscape quoted)

/-! ### Definitions -/

/-- A C string: no byte of it is NUL. -/
structure Text where
  bytes : List UInt8
  nulFree : 0 ∉ bytes

/-- What an agent says of itself. -/
structure Self where
  agentID : Text
  agentName : Text
  agentVersion : Text
  hostType : Text
  macAddressesCsv : Text

/-- An item without the blanks in front of it. -/
def unpadded (item : List UInt8) : List UInt8 := item.dropWhile (· = 0x20)

/-- The items that are not blank. -/
def nonblank (items : List (List UInt8)) : List (List UInt8) := (items.map unpadded).filter (· ≠ [])

/-- The addresses of a list: what stands between commas, without the blanks in front of it, and not
where nothing stands. -/
def addresses (csv : List UInt8) : List (List UInt8) := nonblank (csv.splitOn 0x2C)

/-- What a HELLO is to say. -/
def Self.hello (self : Self) : Hello :=
  ⟨self.agentID.bytes, self.agentName.bytes, self.agentVersion.bytes, self.hostType.bytes,
    some (macAddressesJSON (addresses self.macAddressesCsv.bytes))⟩

/-- `xsiam_wzcp_build_hello_ex` of an agent. -/
def Self.build (self : Self) (outCap : ℕ) : Option (List UInt8) :=
  buildHelloEx outCap self.agentID.bytes self.agentName.bytes self.agentVersion.bytes
    self.hostType.bytes self.macAddressesCsv.bytes

/-- A HELLO that is built is read as what it is to say. -/
def Self.Arrives (self : Self) (outCap : ℕ) : Prop :=
  ∀ body, self.build outCap = some body → parseHello body = some self.hello

/-- A string without what 16 bits do not count. -/
def counted (s : List UInt8) : List UInt8 := s.take (s.length % 2 ^ 16)

/-- The addresses that are put: the first 64 in the first 511 bytes. -/
def Self.macs (self : Self) : List (List UInt8) :=
  (addresses (self.macAddressesCsv.bytes.take 511)).take 64

/-- The size of a string with its length. -/
def fieldSize (s : List UInt8) : ℕ := 2 + (counted s).length

/-- The size of the body of a HELLO. -/
def Self.size (self : Self) : ℕ :=
  4 + fieldSize self.agentID.bytes + fieldSize self.agentName.bytes +
    fieldSize self.agentVersion.bytes + fieldSize self.hostType.bytes + 2 +
    (self.macs.map fieldSize).sum

/-- Every string fits the buffer it is for, and no address is left out or cut. -/
structure Self.Fits (self : Self) : Prop where
  agentID : self.agentID.bytes.length < 128
  agentName : self.agentName.bytes.length < 256
  agentVersion : self.agentVersion.bytes.length < 64
  hostType : self.hostType.bytes.length < 16
  address : ∀ mac ∈ addresses self.macAddressesCsv.bytes, mac.length < 32
  all : self.macs = addresses self.macAddressesCsv.bytes

/-! ### What is written -/

/-- A string with its length. -/
def field (s : List UInt8) : List UInt8 := beBytes 2 (counted s).length ++ counted s

theorem length_counted (s : List UInt8) : (counted s).length = s.length % 2 ^ 16 := by
  rw [counted, List.length_take]
  omega

theorem counted_of_lt {s : List UInt8} (h : s.length < 2 ^ 16) : counted s = s := by
  rw [counted, Nat.mod_eq_of_lt h, List.take_length]

theorem length_field (s : List UInt8) : (field s).length = fieldSize s := by
  rw [field, List.length_append, length_beBytes, fieldSize]

theorem putString_eq (outCap : ℕ) (out s : List UInt8) : putString outCap out s =
    if out.length + fieldSize s ≤ outCap then some (out ++ field s) else none := by
  have hsize : fieldSize s = 2 + s.length % 2 ^ 16 := by rw [fieldSize, length_counted]
  have hfield : out ++ beBytes 2 (s.length % 2 ^ 16) ++ s.take (s.length % 2 ^ 16) = out ++ field s := by
    rw [field, length_counted, counted, List.append_assoc]
  simp only [putString, hfield, hsize]
  split_ifs
  · omega
  · rfl
  · rfl
  · omega

theorem length_of_putString {outCap : ℕ} {out s out' : List UInt8}
    (h : putString outCap out s = some out') : out'.length = out.length + fieldSize s := by
  rw [putString_eq] at h
  split_ifs at h
  cases h
  rw [List.length_append, length_field]

theorem nonblank_cons_of_eq {item : List UInt8} (h : unpadded item = []) (items : List (List UInt8)) :
    nonblank (item :: items) = nonblank items := by
  rw [nonblank, List.map_cons, List.filter_cons_of_neg (by simpa using h), nonblank]

theorem nonblank_cons_of_ne {item : List UInt8} (h : unpadded item ≠ []) (items : List (List UInt8)) :
    nonblank (item :: items) = unpadded item :: nonblank items := by
  rw [nonblank, List.map_cons, List.filter_cons_of_pos (by simpa using h), nonblank]

/-- The loop puts the addresses of its items, up to 64. -/
theorem putMacs_eq (outCap : ℕ) (items : List (List UInt8)) : ∀ (count : ℕ) (out : List UInt8),
    out.length ≤ outCap → putMacs outCap items count out =
      if out.length + (((nonblank items).take (64 - count)).map fieldSize).sum ≤ outCap
      then some (count + ((nonblank items).take (64 - count)).length,
        out ++ ((nonblank items).take (64 - count)).flatMap field) else none := by
  induction items with
  | nil =>
    intro count out hout
    simp [putMacs, nonblank, hout]
  | cons item items ih =>
    intro count out hout
    rw [putMacs, ← unpadded]
    by_cases hfull : 64 ≤ count
    · have hzero : 64 - count = 0 := by omega
      simp [hfull, hzero, hout]
    · rw [if_neg hfull]
      by_cases hblank : unpadded item = []
      · rw [if_pos hblank, ih count out hout, nonblank_cons_of_eq hblank]
      · -- one more address is put
        obtain ⟨k, hk⟩ : ∃ k, 64 - count = k + 1 := ⟨63 - count, by omega⟩
        have hk' : 64 - (count + 1) = k := by omega
        rw [if_neg hblank, putString_eq, nonblank_cons_of_ne hblank, hk, List.take_succ_cons,
          List.map_cons, List.sum_cons, List.flatMap_cons, List.length_cons]
        by_cases hroom : out.length + fieldSize (unpadded item) ≤ outCap
        · have hnext : (out ++ field (unpadded item)).length ≤ outCap := by
            rwa [List.length_append, length_field]
          rw [if_pos hroom]
          dsimp only
          rw [ih (count + 1) _ hnext, hk', List.length_append, length_field, List.append_assoc,
            Nat.add_assoc, Nat.add_assoc, Nat.add_comm 1]
        · rw [if_neg hroom, if_neg (by omega)]

/-- What `strtok_r` leaves out is blank. -/
theorem nonblank_tokens (s : List UInt8) : nonblank (tokens s) = addresses s := by
  rw [addresses, tokens]
  induction s.splitOn 0x2C with
  | nil => rfl
  | cons item items ih =>
    by_cases hnil : item = []
    · rw [List.filter_cons_of_neg (by simpa using hnil), ih, hnil]
      exact (nonblank_cons_of_eq rfl items).symm
    · rw [List.filter_cons_of_pos (by simpa using hnil)]
      by_cases hblank : unpadded item = []
      · rw [nonblank_cons_of_eq hblank, nonblank_cons_of_eq hblank, ih]
      · rw [nonblank_cons_of_ne hblank, nonblank_cons_of_ne hblank, ih]

/-- The body of a HELLO. -/
def Self.body (self : Self) : List UInt8 :=
  beBytes 2 2 ++ beBytes 2 0 ++ field self.agentID.bytes ++ field self.agentName.bytes ++
    field self.agentVersion.bytes ++ field self.hostType.bytes ++
    (beBytes 2 self.macs.length ++ self.macs.flatMap field)

/-- What `put_mac_csv` puts. -/
theorem putMacCsv_eq (outCap : ℕ) (out csv : List UInt8) : putMacCsv outCap out csv =
    if out.length + 2 + (((addresses (csv.take 511)).take 64).map fieldSize).sum ≤ outCap
    then some (out ++ (beBytes 2 ((addresses (csv.take 511)).take 64).length ++
      ((addresses (csv.take 511)).take 64).flatMap field)) else none := by
  rw [putMacCsv]
  by_cases hroom : out.length + 2 > outCap
  · rw [if_pos hroom, if_neg (by omega)]
  · rw [if_neg hroom]
    by_cases hnil : csv = []
    · have hnone : addresses [] = [] := rfl
      rw [if_pos hnil, hnil, List.take_nil, hnone, List.take_nil]
      simp only [List.map_nil, List.sum_nil, List.length_nil, List.flatMap_nil, List.append_nil]
      rw [if_pos (by omega)]
    · have hlen : (out ++ beBytes 2 0).length = out.length + 2 := by
        rw [List.length_append, length_beBytes]
      rw [if_neg hnil, putMacs_eq _ _ _ _ (by rw [hlen]; omega), nonblank_tokens, printed, hlen,
        Nat.sub_zero, Nat.zero_add]
      split_ifs
      · rw [Option.map_some]
        -- the count is written over what was there
        congr 1
        rw [List.append_assoc, List.append_assoc, List.take_left' rfl]
        congr 2
        have hdrop : out ++ (beBytes 2 0 ++ ((addresses (csv.take 511)).take 64).flatMap field) =
            (out ++ beBytes 2 0) ++ ((addresses (csv.take 511)).take 64).flatMap field :=
          (List.append_assoc ..).symm
        rw [hdrop, List.drop_left' hlen]
      · rfl

/-- **A HELLO is built if there is room for all of it.** -/
theorem Self.build_eq (self : Self) (outCap : ℕ) :
    self.build outCap = if self.size ≤ outCap then some self.body else none := by
  have hstart : (beBytes 2 2 ++ beBytes 2 0).length = 4 := rfl
  rw [Self.build, buildHelloEx]
  by_cases hroom : self.size ≤ outCap
  · have hsize := hroom
    rw [Self.size] at hsize
    rw [if_pos hroom, if_neg (by omega)]
    simp only [putString_eq, putMacCsv_eq, Option.bind_eq_bind]
    rw [if_pos (by rw [hstart]; omega), Option.bind_some,
      if_pos (by simp only [List.length_append, length_field, length_beBytes]; omega), Option.bind_some,
      if_pos (by simp only [List.length_append, length_field, length_beBytes]; omega), Option.bind_some,
      if_pos (by simp only [List.length_append, length_field, length_beBytes]; omega), Option.bind_some,
      if_pos]
    · rfl
    · simp only [List.length_append, length_field, length_beBytes]
      rw [Self.macs] at hsize
      omega
  · rw [if_neg hroom]
    by_cases hcap : outCap < 4
    · rw [if_pos hcap]
    · rw [if_neg hcap]
      simp only [Option.bind_eq_bind, Option.bind_eq_none_iff]
      intro out₁ h₁ out₂ h₂ out₃ h₃ out₄ h₄
      have hlen := length_of_putString h₄
      rw [length_of_putString h₃, length_of_putString h₂, length_of_putString h₁, hstart] at hlen
      rw [putMacCsv_eq, if_neg]
      rw [Self.size, Self.macs] at hroom
      omega

/-! ### What is read -/

/-- The words of two bytes that a body has. -/
theorem beAt_of_append (pre tail : List UInt8) {n : ℕ} (hn : n < 2 ^ 16) :
    beAt (pre ++ (beBytes 2 n ++ tail)) pre.length 2 = n := by
  rw [beAt, take_drop_of_append pre tail rfl rfl (length_beBytes 2 n), beNat_beBytes 2 n (by omega)]

theorem cString_of_nulFree {s : List UInt8} (h : 0 ∉ s) : cString s = s := by
  rw [cString, List.takeWhile_eq_self_iff]
  intro b hb
  simpa using fun hzero : b = 0 => h (hzero ▸ hb)

theorem nulFree_counted {s : List UInt8} (h : 0 ∉ s) : 0 ∉ counted s :=
  fun hmem => h (List.mem_of_mem_take hmem)

/-- A string is read as it was counted, if it fits the buffer. -/
theorem readString_field (pre tail : List UInt8) {s : List UInt8} (h : 0 ∉ s) (outSize : ℕ) :
    readString (pre ++ (field s ++ tail)) pre.length outSize =
      if (counted s).length < outSize then some (counted s, (pre ++ field s).length) else none := by
  have hlt : (counted s).length < 2 ^ 16 := by
    rw [length_counted]
    omega
  have hbody : pre ++ (field s ++ tail) = pre ++ (beBytes 2 (counted s).length ++ (counted s ++ tail)) := by
    rw [field, List.append_assoc]
  have hstring : ((pre ++ (field s ++ tail)).drop (pre.length + 2)).take (counted s).length = counted s :=
    take_drop_of_append (pre ++ beBytes 2 (counted s).length) tail
      (by rw [hbody, List.append_assoc]) (by rw [List.length_append, length_beBytes]) rfl
  have hlen : (pre ++ (field s ++ tail)).length = pre.length + 2 + (counted s).length + tail.length := by
    rw [hbody]
    simp only [List.length_append, length_beBytes]
    omega
  have hword : beAt (pre ++ (field s ++ tail)) pre.length 2 = (counted s).length := by
    rw [hbody, beAt_of_append pre _ hlt]
  have hnext : (pre ++ field s).length = pre.length + 2 + (counted s).length := by
    rw [List.length_append, length_field, fieldSize, Nat.add_assoc]
  rw [readString, hword, hnext]
  by_cases hsize : outSize = 0
  · rw [if_pos (.inr hsize), if_neg (by omega)]
  · rw [if_neg (by omega)]
    dsimp only
    rw [hlen, hstring, cString_of_nulFree (nulFree_counted h)]
    split_ifs
    · omega
    · rfl
    · rfl
    · omega

/-- The addresses are read, if each fits its buffer. -/
theorem readMacs_fields (macs : List (List UInt8)) : ∀ pre : List UInt8, (∀ mac ∈ macs, 0 ∉ mac) →
    readMacs macs.length (pre ++ macs.flatMap field) pre.length =
      if ∀ mac ∈ macs, (counted mac).length < 32 then some (macs.map counted) else none := by
  induction macs with
  | nil =>
    intro pre hnul
    rw [List.length_nil, readMacs, if_pos (by simp)]
    rfl
  | cons mac macs ih =>
    intro pre hnul
    obtain ⟨hmac, hmacs⟩ := List.forall_mem_cons.mp hnul
    have hcons : (∀ m ∈ mac :: macs, (counted m).length < 32) ↔
        (counted mac).length < 32 ∧ ∀ m ∈ macs, (counted m).length < 32 := List.forall_mem_cons
    rw [List.length_cons, readMacs, List.flatMap_cons, readString_field pre _ hmac]
    by_cases hshort : (counted mac).length < 32
    · rw [if_pos hshort]
      dsimp only
      rw [← List.append_assoc, ih (pre ++ field mac) hmacs]
      by_cases hall : ∀ mac ∈ macs, (counted mac).length < 32
      · rw [if_pos hall, if_pos (hcons.mpr ⟨hshort, hall⟩)]
        rfl
      · rw [if_neg hall, if_neg fun h => hall (hcons.mp h).2]
        rfl
    · rw [if_neg hshort, if_neg fun h => hshort (hcons.mp h).1]

/-- What is split off a list is of the list. -/
theorem sublist_of_mem_splitOn {a : UInt8} {s : List UInt8} : ∀ {item}, item ∈ s.splitOn a →
    item.Sublist s := by
  induction s with
  | nil =>
    intro item hitem
    rw [List.splitOn_nil, List.mem_singleton] at hitem
    rw [hitem]
  | cons x s ih =>
    intro item hitem
    rw [List.splitOn_cons_eq_if_modifyHead] at hitem
    split_ifs at hitem
    · obtain rfl | hitem := List.mem_cons.mp hitem
      · exact List.nil_sublist _
      · exact (ih hitem).cons x
    · rcases hsplit : s.splitOn a with _ | ⟨first, others⟩
      · exact absurd hsplit (List.splitOn_ne_nil a s)
      · rw [hsplit, List.modifyHead_cons] at hitem
        rw [hsplit] at ih
        obtain rfl | hitem := List.mem_cons.mp hitem
        · exact (ih List.mem_cons_self).cons_cons x
        · exact (ih (List.mem_cons_of_mem first hitem)).cons x

theorem sublist_of_mem_addresses {s mac : List UInt8} (h : mac ∈ addresses s) : mac.Sublist s := by
  obtain ⟨item, hitem, rfl⟩ := List.mem_map.mp (List.mem_of_mem_filter h)
  exact (List.dropWhile_sublist _).trans (sublist_of_mem_splitOn hitem)

/-- An address that is put is of the first 511 bytes. -/
theorem sublist_of_mem_macs {self : Self} {mac : List UInt8} (h : mac ∈ self.macs) :
    mac.Sublist (self.macAddressesCsv.bytes.take 511) :=
  sublist_of_mem_addresses (List.mem_of_mem_take h)

theorem nulFree_macs (self : Self) : ∀ mac ∈ self.macs, 0 ∉ mac := fun _ hmac hzero =>
  self.macAddressesCsv.nulFree (List.mem_of_mem_take ((sublist_of_mem_macs hmac).subset hzero))

theorem counted_mac {self : Self} {mac : List UInt8} (h : mac ∈ self.macs) : counted mac = mac := by
  have hle := (sublist_of_mem_macs h).length_le
  rw [List.length_take] at hle
  exact counted_of_lt (by omega)

theorem map_counted_macs (self : Self) : self.macs.map counted = self.macs :=
  (List.map_congr_left fun _ hmac => counted_mac hmac).trans (List.map_id _)

/-- What the gateway reads of a body, if it reads it. -/
def Self.read (self : Self) : Hello :=
  ⟨counted self.agentID.bytes, counted self.agentName.bytes, counted self.agentVersion.bytes,
    counted self.hostType.bytes, some (macAddressesJSON (self.macs.map counted))⟩

/-- What is counted of every string fits its buffer. -/
def Self.Taken (self : Self) : Prop :=
  (counted self.agentID.bytes).length < 128 ∧ (counted self.agentName.bytes).length < 256 ∧
    (counted self.agentVersion.bytes).length < 64 ∧ (counted self.hostType.bytes).length < 16 ∧
    ∀ mac ∈ self.macs, (counted mac).length < 32

instance (self : Self) : Decidable self.Taken := inferInstanceAs (Decidable (_ ∧ _))

/-- The last part of a body: the type of the host, and the addresses. -/
theorem readHost_fields (pre : List UInt8) {host : List UInt8} (hhost : 0 ∉ host)
    {macs : List (List UInt8)} (hmacs : ∀ mac ∈ macs, 0 ∉ mac) (hcount : macs.length < 2 ^ 16) :
    readHost 2 (pre ++ (field host ++ (beBytes 2 macs.length ++ macs.flatMap field))) pre.length =
      if (counted host).length < 16 ∧ ∀ mac ∈ macs, (counted mac).length < 32
      then some (counted host, some (macAddressesJSON (macs.map counted))) else none := by
  have hregroup : pre ++ (field host ++ (beBytes 2 macs.length ++ macs.flatMap field)) =
      (pre ++ field host) ++ (beBytes 2 macs.length ++ macs.flatMap field) :=
    (List.append_assoc ..).symm
  rw [readHost, if_pos le_rfl, readString_field pre _ hhost]
  by_cases hshort : (counted host).length < 16
  · rw [if_pos hshort]
    dsimp only
    rw [hregroup, if_neg (by simp only [List.length_append, length_beBytes]; omega),
      beAt_of_append (pre ++ field host) _ hcount]
    have hmove : (pre ++ field host).length + 2 =
        (pre ++ field host ++ beBytes 2 macs.length).length := by
      simp only [List.length_append, length_beBytes]
    rw [hmove, ← List.append_assoc (pre ++ field host), readMacs_fields macs _ hmacs]
    by_cases hall : ∀ mac ∈ macs, (counted mac).length < 32
    · rw [if_pos hall, if_pos ⟨hshort, hall⟩]
      rfl
    · rw [if_neg hall, if_neg fun h => hall h.2]
      rfl
  · rw [if_neg hshort, if_neg fun h => hshort h.1]

/-- **The gateway reads what was counted of the strings**, if it fits its buffers. -/
theorem parseHello_body (self : Self) :
    parseHello self.body = if self.Taken then some self.read else none := by
  have hcount : self.macs.length < 2 ^ 16 := by
    have hle : self.macs.length ≤ 64 := List.length_take_le _ _
    omega
  have hbody : self.body = beBytes 2 2 ++ beBytes 2 0 ++ (field self.agentID.bytes ++
      (field self.agentName.bytes ++ (field self.agentVersion.bytes ++ (field self.hostType.bytes ++
        (beBytes 2 self.macs.length ++ self.macs.flatMap field))))) := by
    simp only [Self.body, List.append_assoc]
  have hlen : ¬self.body.length < 4 := by
    simp only [hbody, List.length_append, length_beBytes]
    omega
  have hschema : beAt self.body 0 2 = 2 := by
    rw [hbody, List.append_assoc]
    exact beAt_of_append [] _ (by decide)
  -- each string is read behind what stands before it
  have hid : readString self.body 4 128 = if (counted self.agentID.bytes).length < 128
      then some (counted self.agentID.bytes,
        (beBytes 2 2 ++ beBytes 2 0 ++ field self.agentID.bytes).length) else none := by
    rw [hbody]
    exact readString_field (beBytes 2 2 ++ beBytes 2 0) _ self.agentID.nulFree 128
  have hname := readString_field (beBytes 2 2 ++ beBytes 2 0 ++ field self.agentID.bytes)
    (field self.agentVersion.bytes ++ (field self.hostType.bytes ++
      (beBytes 2 self.macs.length ++ self.macs.flatMap field))) self.agentName.nulFree 256
  have hversion := readString_field (beBytes 2 2 ++ beBytes 2 0 ++ field self.agentID.bytes ++
    field self.agentName.bytes) (field self.hostType.bytes ++
      (beBytes 2 self.macs.length ++ self.macs.flatMap field)) self.agentVersion.nulFree 64
  have hhost := readHost_fields (beBytes 2 2 ++ beBytes 2 0 ++ field self.agentID.bytes ++
    field self.agentName.bytes ++ field self.agentVersion.bytes) self.hostType.nulFree
    (nulFree_macs self) hcount
  rw [← hbody.trans (List.append_assoc ..).symm] at hname
  rw [← hbody.trans ((List.append_assoc ..).symm.trans (List.append_assoc ..).symm)] at hversion
  rw [← hbody.trans ((List.append_assoc ..).symm.trans ((List.append_assoc ..).symm.trans
    (List.append_assoc ..).symm))] at hhost
  rw [parseHello, if_neg hlen, hschema, if_neg (by decide), hid]
  -- the first string that is too long for its buffer ends it
  by_cases h₁ : (counted self.agentID.bytes).length < 128
  · rw [if_pos h₁]
    dsimp only
    rw [hname]
    by_cases h₂ : (counted self.agentName.bytes).length < 256
    · rw [if_pos h₂]
      dsimp only
      rw [hversion]
      by_cases h₃ : (counted self.agentVersion.bytes).length < 64
      · rw [if_pos h₃]
        dsimp only
        rw [hhost]
        by_cases h₄ : (counted self.hostType.bytes).length < 16 ∧
            ∀ mac ∈ self.macs, (counted mac).length < 32
        · rw [if_pos h₄, if_pos ⟨h₁, h₂, h₃, h₄.1, h₄.2⟩]
          rfl
        · rw [if_neg h₄, if_neg fun h => h₄ h.2.2.2]
          rfl
      · rw [if_neg h₃, if_neg fun h => h₃ h.2.2.1]
    · rw [if_neg h₂, if_neg fun h => h₂ h.2.1]
  · rw [if_neg h₁, if_neg fun h => h₁ h.1]

/-! ### Lists as they are written -/

/-- The value of a hexadecimal digit. -/
def digitValue (b : UInt8) : UInt8 := if b < 0x3A then b - 0x30 else b - 0x57

/-- The byte that the start of some escaped bytes stands for, and how many bytes it takes. -/
def unescaped (w : List UInt8) : UInt8 × ℕ :=
  if w.getD 0 0 ≠ 0x5C then (w.getD 0 0, 1)
  else if w.getD 1 0 = 0x6E then (0x0A, 2)
  else if w.getD 1 0 = 0x72 then (0x0D, 2)
  else if w.getD 1 0 = 0x74 then (0x09, 2)
  else if w.getD 1 0 = 0x75 then (digitValue (w.getD 4 0) * 16 + digitValue (w.getD 5 0), 6)
  else (w.getD 1 0, 2)

theorem digitValue_control : ∀ n < 0x20, digitValue (Gateway.hexDigit (UInt8.ofNat n / 16)) * 16 +
    digitValue (Gateway.hexDigit (UInt8.ofNat n % 16)) = UInt8.ofNat n := by
  decide

/-- What is written for a byte can be told from what is behind it. -/
theorem unescaped_append (b : UInt8) (w : List UInt8) :
    unescaped (jsonEscapeByte b ++ w) = (b, (jsonEscapeByte b).length) := by
  rw [Gateway.jsonEscapeByte_eq]
  split_ifs with hback hquote hnl hcr htab hlow
  · rw [hback]
    rfl
  · rw [hquote]
    rfl
  · rw [hnl]
    rfl
  · rw [hcr]
    rfl
  · rw [htab]
    rfl
  · have hdigits := digitValue_control b.toNat hlow
    rw [UInt8.ofNat_toNat] at hdigits
    exact Prod.ext hdigits rfl
  · exact if_pos hback

theorem jsonEscapeByte_append_inj {b b' : UInt8} {w w' : List UInt8}
    (h : jsonEscapeByte b ++ w = jsonEscapeByte b' ++ w') : b = b' ∧ w = w' := by
  have hread := unescaped_append b w
  rw [h, unescaped_append b' w'] at hread
  obtain rfl : b' = b := congrArg Prod.fst hread
  exact ⟨rfl, List.append_cancel_left h⟩

/-- A quotation mark is always escaped. -/
theorem jsonEscapeByte_ne_quote (b : UInt8) (w w' : List UInt8) :
    jsonEscapeByte b ++ w ≠ 0x22 :: w' := by
  rw [Gateway.jsonEscapeByte_eq]
  split_ifs with hback hquote
  · simp
  · simp
  · simp
  · simp
  · simp
  · simp
  · simp [hquote]

/-- A string ends at the first quotation mark that is not escaped. -/
theorem jsonEscape_quote_inj {s : List UInt8} : ∀ {s' w w' : List UInt8},
    jsonEscape s ++ 0x22 :: w = jsonEscape s' ++ 0x22 :: w' → s = s' ∧ w = w' := by
  induction s with
  | nil =>
    rintro (_ | ⟨b', s'⟩) w w' h
    · exact ⟨rfl, List.tail_eq_of_cons_eq h⟩
    · rw [jsonEscape, jsonEscape, List.flatMap_cons, List.append_assoc] at h
      exact absurd h.symm (jsonEscapeByte_ne_quote b' _ _)
  | cons b s ih =>
    rintro (_ | ⟨b', s'⟩) w w' h
    · rw [jsonEscape, jsonEscape, List.flatMap_cons, List.append_assoc] at h
      exact absurd h (jsonEscapeByte_ne_quote b _ _)
    · rw [jsonEscape, jsonEscape, List.flatMap_cons, List.flatMap_cons, List.append_assoc,
        List.append_assoc] at h
      obtain ⟨rfl, hrest⟩ := jsonEscapeByte_append_inj h
      obtain ⟨rfl, hw⟩ := ih hrest
      exact ⟨rfl, hw⟩

theorem quoted_append_inj {s s' w w' : List UInt8} (h : quoted s ++ w = quoted s' ++ w') :
    s = s' ∧ w = w' := by
  simp only [quoted, List.append_assoc, List.singleton_append] at h
  exact jsonEscape_quote_inj (List.tail_eq_of_cons_eq h)

/-- The addresses behind the first one, and the end of the list. -/
def tailJSON (macs : List CString) : CString := macs.flatMap (fun mac => 0x2C :: quoted mac) ++ [0x5D]

theorem tailJSON_inj {macs : List CString} : ∀ {macs' : List CString},
    tailJSON macs = tailJSON macs' → macs = macs' := by
  induction macs with
  | nil =>
    rintro (_ | ⟨mac', macs'⟩) h
    · rfl
    · simp [tailJSON] at h
  | cons mac macs ih =>
    rintro (_ | ⟨mac', macs'⟩) h
    · simp [tailJSON] at h
    · simp only [tailJSON, List.flatMap_cons, List.append_assoc, List.cons_append, List.cons.injEq,
        true_and] at h
      obtain ⟨rfl, hrest⟩ := quoted_append_inj h
      rw [ih hrest]

theorem macAddressesJSON_cons (mac : CString) (macs : List CString) :
    macAddressesJSON (mac :: macs) = 0x5B :: (quoted mac ++ tailJSON macs) := by
  have helements : ∀ macs mac, [0x2C].intercalate ((mac :: macs).map quoted) =
      quoted mac ++ macs.flatMap (fun mac => 0x2C :: quoted mac) := by
    intro macs
    induction macs with
    | nil =>
      intro mac
      rw [List.map_singleton, List.intercalate_singleton]
      exact (List.append_nil _).symm
    | cons mac' macs ih =>
      intro mac
      rw [List.map_cons, List.map_cons, List.intercalate_cons_cons, ← List.map_cons, ih]
      simp
  rw [macAddressesJSON, helements, tailJSON]
  simp

/-- **A list of addresses can be read off its JSON.** -/
theorem macAddressesJSON_inj {macs macs' : List CString}
    (h : macAddressesJSON macs = macAddressesJSON macs') : macs = macs' := by
  rcases macs with _ | ⟨mac, macs⟩ <;> rcases macs' with _ | ⟨mac', macs'⟩
  · rfl
  · rw [macAddressesJSON_cons] at h
    simp [macAddressesJSON, quoted] at h
  · rw [macAddressesJSON_cons] at h
    simp [macAddressesJSON, quoted] at h
  · rw [macAddressesJSON_cons, macAddressesJSON_cons, List.cons.injEq] at h
    obtain ⟨rfl, htail⟩ := quoted_append_inj h.2
    rw [tailJSON_inj htail]

/-! ### What arrives -/

theorem counted_eq_and_lt_iff {s : List UInt8} {n : ℕ} (hn : n ≤ 2 ^ 16) :
    counted s = s ∧ (counted s).length < n ↔ s.length < n := by
  constructor
  · rintro ⟨heq, hlt⟩
    rwa [heq] at hlt
  · intro hlt
    have heq : counted s = s := counted_of_lt (by omega)
    exact ⟨heq, heq.symm ▸ hlt⟩

/-- What is read is what was to be said exactly if everything fits. -/
theorem Self.taken_and_read_iff (self : Self) : self.Taken ∧ self.read = self.hello ↔ self.Fits := by
  rw [Self.Taken, Self.read, Self.hello, Hello.mk.injEq, Option.some.injEq, map_counted_macs]
  constructor
  · rintro ⟨⟨h₁, h₂, h₃, h₄, h₅⟩, heq₁, heq₂, heq₃, heq₄, hjson⟩
    have hall := macAddressesJSON_inj hjson
    refine ⟨(counted_eq_and_lt_iff (by decide)).mp ⟨heq₁, h₁⟩,
      (counted_eq_and_lt_iff (by decide)).mp ⟨heq₂, h₂⟩,
      (counted_eq_and_lt_iff (by decide)).mp ⟨heq₃, h₃⟩,
      (counted_eq_and_lt_iff (by decide)).mp ⟨heq₄, h₄⟩, ?_, hall⟩
    intro mac hmac
    rw [← hall] at hmac
    have hlt := h₅ mac hmac
    rwa [counted_mac hmac] at hlt
  · rintro ⟨h₁, h₂, h₃, h₄, h₅, hall⟩
    obtain ⟨heq₁, h₁⟩ := (counted_eq_and_lt_iff (by decide)).mpr h₁
    obtain ⟨heq₂, h₂⟩ := (counted_eq_and_lt_iff (by decide)).mpr h₂
    obtain ⟨heq₃, h₃⟩ := (counted_eq_and_lt_iff (by decide)).mpr h₃
    obtain ⟨heq₄, h₄⟩ := (counted_eq_and_lt_iff (by decide)).mpr h₄
    refine ⟨⟨h₁, h₂, h₃, h₄, fun mac hmac => ?_⟩, heq₁, heq₂, heq₃, heq₄, by rw [hall]⟩
    rw [counted_mac hmac]
    exact h₅ mac (hall ▸ hmac)

/-- A HELLO for which there is room arrives as the agent says it exactly if everything fits. -/
theorem Self.arrives_iff_of_room {self : Self} {outCap : ℕ} (hroom : self.size ≤ outCap) :
    self.Arrives outCap ↔ self.Fits := by
  rw [Self.Arrives, self.build_eq, if_pos hroom, ← self.taken_and_read_iff]
  constructor
  · intro h
    specialize h self.body rfl
    rw [parseHello_body] at h
    split_ifs at h with htaken
    exact ⟨htaken, Option.some.inj h⟩
  · rintro ⟨htaken, hread⟩ body hbody
    cases hbody
    rw [parseHello_body, if_pos htaken, hread]

/-- **A HELLO arrives as the agent says it exactly if there is no room to build it, or if every
string fits the buffer it is for and no address is left out or cut.** -/
theorem hello_arrives_iff (self : Self) (outCap : ℕ) :
    self.Arrives outCap ↔ outCap < self.size ∨ self.Fits := by
  by_cases hroom : self.size ≤ outCap
  · rw [Self.arrives_iff_of_room hroom]
    exact ⟨.inr, fun h => h.resolve_left (Nat.not_lt.mpr hroom)⟩
  · refine iff_of_true (fun body hbody => ?_) (.inl (Nat.lt_of_not_le hroom))
    rw [self.build_eq, if_neg hroom] at hbody
    cases hbody

/-- An agent with an address, whose name has so many letters. -/
def named (n : ℕ) : Self where
  agentID := ⟨Go.str "001", by decide⟩
  agentName := ⟨List.replicate n 0x61, fun h => absurd (List.eq_of_mem_replicate h) (by decide)⟩
  agentVersion := ⟨Go.str "4.7.0", by decide⟩
  hostType := ⟨Go.str "pc", by decide⟩
  macAddressesCsv := ⟨Go.str "00:1A:2B:3C:4D:5E", by decide⟩

/-- A name of 256 letters fits no buffer of the gateway. -/
theorem long_name_lost : ¬(named 256).Arrives 1024 := by
  have hroom : (named 256).size ≤ 1024 := by decide +kernel
  rw [Self.arrives_iff_of_room hroom]
  rintro ⟨-, hname, -⟩
  have hlen : (named 256).agentName.bytes.length = 256 := List.length_replicate
  omega

end Agent

end Xsiam
