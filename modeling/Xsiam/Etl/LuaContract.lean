import Xsiam.Etl.Applied

/-!
# The contract of a script

The head of `internal/etl/lua_engine.go` promises a script three things: the tag of its
event, a record with all the fields of the entry, and that what it returns with the code
1 is what the entry becomes. This module compares the promise
(`Xsiam.Etl.ScriptRun.Contract`) with what `custom_lua` does in a pipeline.

An entry meets a script as one table and comes back as a table, and both ways have
seams. A name of the table is a *slot* of the entry (`Xsiam.Etl.slotOf`): a member that
is written back, the tenant, which is handed out and never taken back, or a field.

* On the way out a field hides a member of its name, and a value that is no text, number
  or boolean is handed out as the text it prints as (`Xsiam.Etl.luaField`).
* On the way back the table is written over a copy of the entry, so that nothing a
  script removes goes away, the name `tenant_id` becomes a field, and of a nested table
  only what stands under texts is kept (`Xsiam.Etl.Faithful`).

`Xsiam.Etl.ScriptRun.contract_iff` says exactly which runs these seams leave alone, and
`Xsiam.Etl.Pipeline.scripts_contract_iff` which events. The tag is a seam of its own:
`custom_lua` reads it from a parameter `_tag` of the action, which nothing sets.
-/

namespace Xsiam

namespace Etl

open Go

/-! ### The names of a record -/

/-- The texts of an entry that a script may write. -/
inductive TextMember where
  | hostname
  | srcIP
  | agentID
  | sessionID
  | dataset
  | rawLog
deriving DecidableEq

namespace TextMember

/-- The name in the record. -/
def name : TextMember → GoString
  | .hostname => str "hostname"
  | .srcIP => str "src_ip"
  | .agentID => str "agent_id"
  | .sessionID => str "session_id"
  | .dataset => str "dataset"
  | .rawLog => str "raw_log"

def get : TextMember → LogEntry → GoString
  | .hostname, e => e.hostname
  | .srcIP, e => e.sourceIP
  | .agentID, e => e.agentID
  | .sessionID, e => e.sessionID
  | .dataset, e => e.dataset
  | .rawLog, e => e.rawLog

def set : TextMember → LogEntry → GoString → LogEntry
  | .hostname, e, s => { e with hostname := s }
  | .srcIP, e, s => { e with sourceIP := s }
  | .agentID, e, s => { e with agentID := s }
  | .sessionID, e, s => { e with sessionID := s }
  | .dataset, e, s => { e with dataset := s }
  | .rawLog, e, s => { e with rawLog := s }

theorem get_set (m m' : TextMember) (e : LogEntry) (s : GoString) :
    m.get (m'.set e s) = if m = m' then s else m.get e := by
  cases m <;> cases m' <;> rfl

@[simp] theorem set_kind (m : TextMember) (e : LogEntry) (s : GoString) :
    (m.set e s).kind = e.kind := by cases m <;> rfl

@[simp] theorem set_eventTimestamp (m : TextMember) (e : LogEntry) (s : GoString) :
    (m.set e s).eventTimestamp = e.eventTimestamp := by cases m <;> rfl

@[simp] theorem set_fields (m : TextMember) (e : LogEntry) (s : GoString) :
    (m.set e s).fields = e.fields := by cases m <;> rfl

end TextMember

/-- What a name of the record is of an entry. -/
inductive Slot where
  | text (m : TextMember)
  | kind
  | time
  | tenant
  | field
deriving DecidableEq

/-- The slot a name stands for. -/
def slotOf (k : GoString) : Slot :=
  if k = str "hostname" then .text .hostname
  else if k = str "src_ip" then .text .srcIP
  else if k = str "agent_id" then .text .agentID
  else if k = str "session_id" then .text .sessionID
  else if k = str "dataset" then .text .dataset
  else if k = str "raw_log" then .text .rawLog
  else if k = str "kind" then .kind
  else if k = str "event_timestamp_ms" then .time
  else if k = str "tenant_id" then .tenant
  else .field

theorem slotOf_name (m : TextMember) : slotOf m.name = .text m := by cases m <;> rfl

/-- The name of a slot, where there is only one. -/
def Slot.name : Slot → Option GoString
  | .text m => some m.name
  | .kind => some (str "kind")
  | .time => some (str "event_timestamp_ms")
  | .tenant => some (str "tenant_id")
  | .field => none

/-- **A name stands for the slot that has it.** -/
theorem eq_of_name_slotOf {k name : GoString} (h : (slotOf k).name = some name) : k = name := by
  unfold slotOf at h
  split_ifs at h <;> first
    | exact (by assumption : k = _).trans (Option.some.inj h)
    | cases h

theorem slotOf_eq_text {k : GoString} {m : TextMember} : slotOf k = .text m ↔ k = m.name := by
  constructor
  · intro h
    exact eq_of_name_slotOf (h ▸ rfl)
  · rintro rfl
    exact slotOf_name m

theorem slotOf_eq_kind {k : GoString} : slotOf k = .kind ↔ k = str "kind" := by
  constructor
  · intro h
    exact eq_of_name_slotOf (h ▸ rfl)
  · rintro rfl
    rfl

theorem slotOf_eq_time {k : GoString} : slotOf k = .time ↔ k = str "event_timestamp_ms" := by
  constructor
  · intro h
    exact eq_of_name_slotOf (h ▸ rfl)
  · rintro rfl
    rfl

theorem slotOf_eq_tenant {k : GoString} : slotOf k = .tenant ↔ k = str "tenant_id" := by
  constructor
  · intro h
    exact eq_of_name_slotOf (h ▸ rfl)
  · rintro rfl
    rfl

/-- The value of the entry under a name, its fields apart. -/
def memberAt (e : LogEntry) (k : GoString) : Option Value :=
  match slotOf k with
  | .text m => some (.str (m.get e))
  | .kind => some (.int .uint8 e.kind.toNat)
  | .time => some (.int .int64 e.eventTimestamp)
  | .tenant => some (.str e.tenantID)
  | .field => none

/-- A text as the record has it: not at all where it is empty. -/
def luaText (s : GoString) : Option LuaValue := if s = [] then none else some (.string s)

/-- What the record has of the members of the entry. -/
def memberLua (lib : StdLib) (e : LogEntry) (k : GoString) : Option LuaValue :=
  match slotOf k with
  | .text m => luaText (m.get e)
  | .kind => some (.number (lib.floatOfInt e.kind.toNat))
  | .time => none
  | .tenant => luaText e.tenantID
  | .field => none

/-! ### What a script is handed -/

/-- The members a record is made of, with their names. -/
def textMembers (e : LogEntry) : List (GoString × GoString) :=
  [(str "hostname", e.hostname), (str "src_ip", e.sourceIP), (str "agent_id", e.agentID),
    (str "session_id", e.sessionID), (str "dataset", e.dataset),
    (str "tenant_id", e.tenantID), (str "raw_log", e.rawLog)]

theorem mem_textMembers {e : LogEntry} {k s : GoString} :
    (k, s) ∈ textMembers e ↔
      (∃ m : TextMember, slotOf k = .text m ∧ s = m.get e) ∨
        slotOf k = .tenant ∧ s = e.tenantID := by
  simp only [slotOf_eq_text, slotOf_eq_tenant]
  constructor
  · intro h
    simp only [textMembers, List.mem_cons, Prod.mk.injEq, List.not_mem_nil, or_false] at h
    rcases h with h | h | h | h | h | h | h
    · exact Or.inl ⟨.hostname, h⟩
    · exact Or.inl ⟨.srcIP, h⟩
    · exact Or.inl ⟨.agentID, h⟩
    · exact Or.inl ⟨.sessionID, h⟩
    · exact Or.inl ⟨.dataset, h⟩
    · exact Or.inr h
    · exact Or.inl ⟨.rawLog, h⟩
  · rintro (⟨m, rfl, rfl⟩ | ⟨rfl, rfl⟩)
    · cases m <;> simp [textMembers, TextMember.name, TextMember.get]
    · simp [textMembers]

theorem textMembers_keys_nodup (e : LogEntry) : ((textMembers e).map Prod.fst).Nodup := by
  change [str "hostname", str "src_ip", str "agent_id", str "session_id", str "dataset",
    str "tenant_id", str "raw_log"].Nodup
  decide

/-- The members that are not empty, as the record starts out. -/
theorem getElem?_members (e : LogEntry) (k : GoString) (lv : LuaValue) :
    (GoMap.insertAll ∅ (((textMembers e).filter (·.2 ≠ [])).map fun kv =>
      (kv.1, LuaValue.string kv.2)))[k]? = some lv ↔
      ∃ s, (k, s) ∈ textMembers e ∧ s ≠ [] ∧ lv = .string s := by
  rw [GoMap.getElem?_insertAll_of_nodup]
  · simp only [List.mem_map, List.mem_filter, decide_eq_true_eq, Prod.mk.injEq, Prod.exists]
    constructor
    · rintro ⟨k', s, ⟨hmem, hne⟩, rfl, rfl⟩
      exact ⟨s, hmem, hne, rfl⟩
    · rintro ⟨s, hmem, hne, rfl⟩
      exact ⟨k, s, ⟨hmem, hne⟩, rfl, rfl⟩
  · rw [List.map_map]
    exact (textMembers_keys_nodup e).sublist (List.filter_sublist.map _)

/-- **The record of an entry**, name by name: the field of that name, or else the member. -/
theorem getElem?_luaRecord (lib : StdLib) (e : LogEntry) (k : GoString) :
    (luaRecord lib e)[k]? = ((e.fields[k]?).map (luaField lib)).or (memberLua lib e k) := by
  change (GoMap.copy ((GoMap.insertAll ∅ (((textMembers e).filter (·.2 ≠ [])).map fun kv =>
    (kv.1, LuaValue.string kv.2))).insert (str "kind") (.number (lib.floatOfInt e.kind.toNat)))
    (e.fields.map fun _ v => luaField lib v))[k]? = _
  rw [GoMap.getElem?_copy, Std.ExtTreeMap.getElem?_map, GoMap.getElem?_insert]
  congr 1
  split_ifs with hk
  · rw [memberLua, slotOf_eq_kind.mpr hk]
  · ext lv
    rw [getElem?_members]
    simp only [mem_textMembers, memberLua]
    cases hs : slotOf k with
    | text m => simp [luaText, @eq_comm _ lv]
    | kind => exact absurd (slotOf_eq_kind.mp hs) hk
    | _ => simp [luaText, @eq_comm _ lv]

/-! ### What a script's table does -/

/-- The text a key of a table is. -/
def textKey : LuaValue → Option GoString
  | .string k => some k
  | _ => none

/-- What a table has under a text. -/
def tableAt (tbl : List (LuaValue × LuaValue)) (k : GoString) : Option LuaValue :=
  (tbl.find? fun kv => textKey kv.1 = some k).map Prod.snd

/-- A table has each text as a key once. -/
def Keyed (tbl : List (LuaValue × LuaValue)) : Prop :=
  (tbl.filterMap fun kv => textKey kv.1).Nodup

/-- One entry of the table, by the slot its name stands for. -/
theorem applyLuaEntry_string (lib : StdLib) (vm : LuaVM) (e : LogEntry) (k : GoString)
    (lv : LuaValue) : applyLuaEntry lib vm e (.string k, lv) =
      match slotOf k with
      | .text m => m.set e (luaStr vm lv)
      | .kind =>
        match lv with
        | .number x => { e with kind := x.toUInt8 }
        | _ => e
      | .time =>
        match lv with
        | .number x => { e with eventTimestamp := x.toInt * 1000000 }
        | _ => e
      | .tenant | .field => { e with fields := e.fields.insert k (luaToGo lib vm lv) } := by
  cases hs : slotOf k with
  | text m =>
    obtain rfl := slotOf_eq_text.mp hs
    cases m <;> rfl
  | kind =>
    obtain rfl := slotOf_eq_kind.mp hs
    rfl
  | time =>
    obtain rfl := slotOf_eq_time.mp hs
    rfl
  | tenant =>
    obtain rfl := slotOf_eq_tenant.mp hs
    rfl
  | field =>
    unfold slotOf at hs
    split_ifs at hs
    simp only [applyLuaEntry, *, if_false]

theorem applyLuaEntry_of_textKey_none {lib : StdLib} {vm : LuaVM} {e : LogEntry}
    {kv : LuaValue × LuaValue} (h : textKey kv.1 = none) : applyLuaEntry lib vm e kv = e := by
  obtain ⟨key, lv⟩ := kv
  cases key <;> first | rfl | exact absurd h (by simp [textKey])

section Fold

variable (lib : StdLib) (vm : LuaVM) {β : Type} (read : LogEntry → β) (k : GoString)
variable (hother : ∀ e k' lv, k' ≠ k → read (applyLuaEntry lib vm e (.string k', lv)) = read e)

include hother

/-- What no entry of a table writes stays. -/
theorem read_applyLuaTable_of_notMem (tbl : List (LuaValue × LuaValue))
    (h : ∀ kv ∈ tbl, textKey kv.1 ≠ some k) :
    ∀ e, read (applyLuaTable lib vm e tbl) = read e := by
  induction tbl with
  | nil => intro e; rfl
  | cons kv tbl ih =>
    intro e
    have htail := ih (fun x hx => h x (List.mem_cons_of_mem _ hx)) (applyLuaEntry lib vm e kv)
    refine htail.trans ?_
    cases hkey : textKey kv.1 with
    | none => rw [applyLuaEntry_of_textKey_none hkey]
    | some k' =>
      obtain ⟨key, lv⟩ := kv
      cases key <;> cases hkey
      exact hother e k' lv fun hc => h _ List.mem_cons_self (congrArg some hc)

/-- **Reading one name after a table**: what is read depends on the table at that name
alone. -/
theorem read_applyLuaTable (put : LuaValue → β → β)
    (hput : ∀ e lv, read (applyLuaEntry lib vm e (.string k, lv)) = put lv (read e))
    (tbl : List (LuaValue × LuaValue)) (hkeyed : Keyed tbl) :
    ∀ e, read (applyLuaTable lib vm e tbl) =
      (tableAt tbl k).elim (read e) fun lv => put lv (read e) := by
  induction tbl with
  | nil => intro e; rfl
  | cons kv tbl ih =>
    intro e
    change read (applyLuaTable lib vm (applyLuaEntry lib vm e kv) tbl) = _
    cases hkey : textKey kv.1 with
    | none =>
      have htail : Keyed tbl := by simpa [Keyed, hkey] using hkeyed
      rw [applyLuaEntry_of_textKey_none hkey, ih htail e]
      simp [tableAt, hkey]
    | some k' =>
      obtain ⟨key, lv⟩ := kv
      cases key <;> cases hkey
      obtain ⟨hnot, htail⟩ : k' ∉ tbl.filterMap (fun kv => textKey kv.1) ∧ Keyed tbl := by
        simpa [Keyed, textKey] using hkeyed
      by_cases hk : k' = k
      · subst hk
        rw [read_applyLuaTable_of_notMem lib vm read k' hother tbl, hput]
        · simp [tableAt, textKey]
        · intro x hx hc
          exact hnot (List.mem_filterMap.mpr ⟨x, hx, hc⟩)
      · rw [ih htail, hother e k' lv hk]
        simp [tableAt, textKey, hk]

end Fold

/-- The value a slot takes from a script. A kind and a time are taken from numbers. -/
def slotValue (vm : LuaVM) (k : GoString) (lv : LuaValue) : Option Value :=
  match slotOf k with
  | .text _ | .tenant => some (.str (luaStr vm lv))
  | .kind =>
    match lv with
    | .number x => some (.int .uint8 x.toUInt8.toNat)
    | _ => none
  | .time =>
    match lv with
    | .number x => some (.int .int64 (x.toInt * 1000000))
    | _ => none
  | .field => none

/-- Whether a name is that of a member that is written back. -/
def WrittenBack (k : GoString) : Prop := slotOf k ≠ .tenant ∧ slotOf k ≠ .field

instance (k : GoString) : Decidable (WrittenBack k) := inferInstanceAs (Decidable (_ ∧ _))

theorem memberAt_applyLuaEntry (lib : StdLib) (vm : LuaVM) (e : LogEntry) (k : GoString)
    (lv : LuaValue) : memberAt (applyLuaEntry lib vm e (.string k, lv)) k =
      if WrittenBack k then (slotValue vm k lv).or (memberAt e k) else memberAt e k := by
  rw [applyLuaEntry_string]
  cases hs : slotOf k with
  | text m => simp [memberAt, slotValue, WrittenBack, hs, TextMember.get_set]
  | kind => cases lv <;> simp [memberAt, slotValue, WrittenBack, hs]
  | time => cases lv <;> simp [memberAt, slotValue, WrittenBack, hs]
  | _ => simp [memberAt, WrittenBack, hs]

theorem memberAt_applyLuaEntry_of_ne (lib : StdLib) (vm : LuaVM) {k : GoString} (e : LogEntry)
    (k' : GoString) (lv : LuaValue) (hne : k' ≠ k) :
    memberAt (applyLuaEntry lib vm e (.string k', lv)) k = memberAt e k := by
  rw [applyLuaEntry_string]
  unfold memberAt
  cases hs' : slotOf k' with
  | text m' =>
    cases hs : slotOf k with
    | text m =>
      have hm : m ≠ m' := by
        rintro rfl
        exact hne ((slotOf_eq_text.mp hs').trans (slotOf_eq_text.mp hs).symm)
      simp [TextMember.get_set, hm]
    | tenant => cases m' <;> rfl
    | _ => simp
  | kind =>
    cases hs : slotOf k with
    | kind => exact absurd ((slotOf_eq_kind.mp hs').trans (slotOf_eq_kind.mp hs).symm) hne
    | text m => cases lv <;> cases m <;> rfl
    | _ => cases lv <;> rfl
  | time =>
    cases hs : slotOf k with
    | time => exact absurd ((slotOf_eq_time.mp hs').trans (slotOf_eq_time.mp hs).symm) hne
    | text m => cases lv <;> cases m <;> rfl
    | _ => cases lv <;> rfl
  | _ =>
    cases slotOf k with
    | text m => cases m <;> rfl
    | _ => rfl

/-- A member after a table: a name that is written back is the table's, where the table
has a value for it. -/
theorem memberAt_applyLuaTable (lib : StdLib) (vm : LuaVM) (e : LogEntry)
    {tbl : List (LuaValue × LuaValue)} (hkeyed : Keyed tbl) (k : GoString) :
    memberAt (applyLuaTable lib vm e tbl) k =
      (tableAt tbl k).elim (memberAt e k) fun lv =>
        if WrittenBack k then (slotValue vm k lv).or (memberAt e k) else memberAt e k :=
  read_applyLuaTable lib vm (memberAt · k) k (memberAt_applyLuaEntry_of_ne lib vm)
    (fun lv v => if WrittenBack k then (slotValue vm k lv).or v else v)
    (fun e lv => memberAt_applyLuaEntry lib vm e k lv) tbl hkeyed e

theorem fields_applyLuaEntry (lib : StdLib) (vm : LuaVM) (e : LogEntry) (k' : GoString)
    (lv : LuaValue) : (applyLuaEntry lib vm e (.string k', lv)).fields =
      if WrittenBack k' then e.fields else e.fields.insert k' (luaToGo lib vm lv) := by
  rw [applyLuaEntry_string]
  cases hs : slotOf k' with
  | kind => cases lv <;> simp [WrittenBack, hs]
  | time => cases lv <;> simp [WrittenBack, hs]
  | _ => simp [WrittenBack, hs]

/-- A field after a table: the table's, where it has a value that is not written back to
a member. -/
theorem fields_applyLuaTable (lib : StdLib) (vm : LuaVM) (e : LogEntry)
    {tbl : List (LuaValue × LuaValue)} (hkeyed : Keyed tbl) (k : GoString) :
    (applyLuaTable lib vm e tbl).fields[k]? =
      (tableAt tbl k).elim e.fields[k]? fun lv =>
        if WrittenBack k then e.fields[k]? else some (luaToGo lib vm lv) := by
  refine read_applyLuaTable lib vm (·.fields[k]?) k ?_
    (fun lv v => if WrittenBack k then v else some (luaToGo lib vm lv)) ?_ tbl hkeyed e
  · intro e k' lv hne
    rw [fields_applyLuaEntry]
    split_ifs
    · rfl
    · exact GoMap.getElem?_insert_of_ne (Ne.symm hne) _
  · intro e lv
    rw [fields_applyLuaEntry]
    split_ifs
    · rfl
    · simp

/-- The name in the store and the time of arrival are out of a script's reach. -/
theorem applyLuaTable_frame (lib : StdLib) (vm : LuaVM) (tbl : List (LuaValue × LuaValue)) :
    ∀ e : LogEntry, (applyLuaTable lib vm e tbl).key = e.key ∧
      (applyLuaTable lib vm e tbl).ingestedAt = e.ingestedAt := by
  induction tbl with
  | nil => intro e; exact ⟨rfl, rfl⟩
  | cons kv tbl ih =>
    intro e
    have hentry : (applyLuaEntry lib vm e kv).key = e.key ∧
        (applyLuaEntry lib vm e kv).ingestedAt = e.ingestedAt := by
      unfold applyLuaEntry
      split
      · split_ifs <;> first | exact ⟨rfl, rfl⟩ | (split <;> exact ⟨rfl, rfl⟩)
      · exact ⟨rfl, rfl⟩
    exact ⟨(ih _).1.trans hentry.1, (ih _).2.trans hentry.2⟩

/-! ### What a script is promised -/

/-- A value of Lua is one of Go, however either is made of the other. A number of Lua has no kind, and an
integer is the number that it converts to and that converts back. A table is a map if its keys are texts,
and a list if they are the numbers from one on. -/
inductive Represents (lib : StdLib) : LuaValue → Value → Prop
  | bool (b : Bool) : Represents lib (.bool b) (.bool b)
  | string (s : GoString) : Represents lib (.string s) (.str s)
  | float (x : Float64) : Represents lib (.number x) (.float x)
  | int (x : Float64) (kind : IntKind) (hwhole : x.eq (lib.floatOfInt x.toInt) = true) :
    Represents lib (.number x) (.int kind x.toInt)
  | list (tbl : List (LuaValue × LuaValue)) (vs : List LuaValue) (ws : List Value)
    (hkeys : tbl.Perm (vs.zipIdx.map fun p => (.number (lib.floatOfInt (p.2 + 1)), p.1)))
    (hlength : vs.length = ws.length)
    (hvalues : ∀ (i : ℕ) v w, vs[i]? = some v → ws[i]? = some w → Represents lib v w) :
    Represents lib (.table tbl) (.arr ws)
  | map (tbl : List (LuaValue × LuaValue)) (kvs : List (GoString × Value))
    (htexts : ∀ kv ∈ tbl, ∃ k, kv.1 = .string k) (honce : Keyed tbl)
    (honce' : (kvs.map Prod.fst).Nodup)
    (hkeys : ∀ k, (∃ v, (.string k, v) ∈ tbl) ↔ ∃ w, (k, w) ∈ kvs)
    (hvalues : ∀ k v w, (.string k, v) ∈ tbl → (k, w) ∈ kvs → Represents lib v w) :
    Represents lib (.table tbl) (.obj kvs)

/-- What is there to hand out under a name: a member that is not an empty text. The time is handed out by
itself. -/
def Filled (e : LogEntry) (k : GoString) (w : Value) : Prop :=
  memberAt e k = some w ∧ slotOf k ≠ .time ∧ w ≠ .str []

/-- A record has all the fields of an entry: each member that is filled, and each field. -/
def HasFields (lib : StdLib) (e : LogEntry) (record : GoMap LuaValue) : Prop :=
  ∀ k w, (Filled e k w ∨ e.fields[k]? = some w) →
    ∃ lv, record[k]? = some lv ∧ Represents lib lv w

/-- Two entries have the same under a name, in value and type. -/
def SameAt (e e' : LogEntry) (k : GoString) : Prop :=
  memberAt e' k = memberAt e k ∧ e'.fields[k]? = e.fields[k]?

/-- The member of a name is a value of a script. The time is one in milliseconds. -/
def MemberHas (lib : StdLib) (e : LogEntry) (k : GoString) (lv : LuaValue) : Prop :=
  match slotOf k with
  | .text m => Represents lib lv (.str (m.get e))
  | .kind => Represents lib lv (.int .uint8 e.kind.toNat)
  | .time => ∃ ms, Represents lib lv (.int .int64 ms) ∧ e.eventTimestamp = ms * 1000000
  | .tenant => Represents lib lv (.str e.tenantID)
  | .field => False

/-- An entry has a value of a script under a name: as the member of that name, or else
as a field. -/
def HasAt (lib : StdLib) (e : LogEntry) (k : GoString) (lv : LuaValue) : Prop :=
  if slotOf k = .field then ∃ w, e.fields[k]? = some w ∧ Represents lib lv w
  else MemberHas lib e k lv ∧ e.fields[k]? = none

/-- The entry `e'` has exactly the content of the table `tbl`, which a script made of the
record of `e`. -/
structure HasContent (lib : StdLib) (e : LogEntry) (tbl : List (LuaValue × LuaValue))
    (e' : LogEntry) : Prop where
  /-- What the table does not have is gone, and nothing else appears. -/
  gone : ∀ k, tableAt tbl k = none → e'.fields[k]? = none ∧ ∀ w, ¬Filled e' k w
  /-- What the script did not touch is as it was. -/
  untouched : ∀ k, tableAt tbl k = (luaRecord lib e)[k]? → SameAt e e' k
  /-- What the script set is there. -/
  written : ∀ k lv, tableAt tbl k = some lv → (luaRecord lib e)[k]? ≠ some lv → HasAt lib e' k lv
  /-- A script that returns the record it was given leaves the entry unchanged. -/
  identity : (∀ k, tableAt tbl k = (luaRecord lib e)[k]?) → e' = e

/-- One action `custom_lua` on its way through a pipeline. -/
structure ScriptRun where
  tick : ℕ
  entry : LogEntry
  action : ETLAction

namespace ScriptRun

variable (lib : StdLib) (vm : LuaVM) (run : ScriptRun)

/-- The tag the script is called with. -/
def tag : GoString := run.action.strParam "_tag"

/-- What the call of `process` returns. -/
def returned : Option (LuaValue × LuaValue) :=
  vm.call run.tick (run.action.strParam "script") run.tag (run.entry.eventTimestamp / 1000000)
    (luaRecord lib run.entry)

/-- Whether there is a script to call. -/
def Calls : Prop :=
  run.action.strParam "script" ≠ [] ∧ (run.action.strParam "script").length ≤ 64 * 1024

/-- The entry the action leaves, `none` where it drops the event. -/
def result (ex : ActionExecutor) : Option LogEntry := customLua ex run.tick run.entry run.action

/-- A script returned the code 1 and a table. -/
def Keeps (tbl : List (LuaValue × LuaValue)) : Prop :=
  ∃ code : Float64, code.toInt = 1 ∧ run.returned lib vm = some (.number code, .table tbl)

/-- **The contract of a script**, for an event that came with the tag `tag`. -/
structure Contract (ex : ActionExecutor) (vm : LuaVM) (tag : GoString) : Prop where
  tag : run.tag = tag
  record : HasFields ex.lib run.entry (luaRecord ex.lib run.entry)
  content : ∀ tbl, run.Keeps ex.lib vm tbl →
    ∃ e', run.result ex = some e' ∧ HasContent ex.lib run.entry tbl e'

variable {lib vm run}

/-- The result of a script that keeps its event. -/
theorem result_of_keeps {ex : ActionExecutor} (hvm : ex.luaEngine = some vm)
    (hcalls : run.Calls) {tbl : List (LuaValue × LuaValue)} (h : run.Keeps ex.lib vm tbl) :
    run.result ex = some (applyLuaTable ex.lib vm run.entry tbl) := by
  obtain ⟨code, hcode, hret⟩ := h
  have hcall : vm.call run.tick (run.action.strParam "script") (run.action.strParam "_tag")
      (run.entry.eventTimestamp / 1000000) (luaRecord ex.lib run.entry) =
        some (.number code, .table tbl) := hret
  rw [result, customLua, hvm]
  dsimp only
  rw [if_neg hcalls.1, luaRun, if_neg (Nat.not_lt.mpr hcalls.2), hcall]
  dsimp only
  rw [hcode]
  rfl

end ScriptRun

/-! ### When the promise is kept -/

/-- A value that comes back from a script as it went. A number with no fraction comes
back as an `int64`, and so does an `int64`, if the float it went as is exact. -/
inductive ComesBack (lib : StdLib) : Value → Prop
  | str (s : GoString) : ComesBack lib (.str s)
  | bool (b : Bool) : ComesBack lib (.bool b)
  | float (x : Float64) (h : x.eq (lib.floatOfInt x.toInt) = false) : ComesBack lib (.float x)
  | int64 (i : ℤ) (hnan : (lib.floatOfInt i).isNaN = false) (h : (lib.floatOfInt i).toInt = i) :
    ComesBack lib (.int .int64 i)

theorem comesBack_iff {lib : StdLib} {vm : LuaVM} {v : Value} :
    luaToGo lib vm (luaField lib v) = v ↔ ComesBack lib v := by
  constructor
  · intro h
    cases v with
    | str s => exact .str s
    | bool b => exact .bool b
    | float x =>
      refine .float x ?_
      by_contra hwhole
      rw [luaField, luaToGo, if_pos (by simpa using hwhole)] at h
      cases h
    | int kind i =>
      cases kind with
      | int64 =>
        rw [luaField, luaToGo] at h
        split_ifs at h with hwhole
        · have hi : (lib.floatOfInt i).toInt = i := by injection h
          refine .int64 i ?_ hi
          by_contra hnan
          simp [Float64.eq, Float64.le, hnan] at hwhole
      | _ => cases h
    | _ => cases h
  · intro h
    cases h with
    | str s => rfl
    | bool b => rfl
    | float x hx =>
      rw [luaField, luaToGo, if_neg (by simp [hx])]
    | int64 i hnan hi =>
      rw [luaField, luaToGo, hi, if_pos (Float64.eq_self hnan)]

/-- A byte is exact as a float. -/
def BytesExact (lib : StdLib) : Prop :=
  ∀ b : UInt8, (lib.floatOfInt b.toNat).isNaN = false ∧ (lib.floatOfInt b.toNat).toInt = b.toNat

theorem BytesExact.toUInt8 {lib : StdLib} (hlib : BytesExact lib) (b : UInt8) :
    (lib.floatOfInt b.toNat).toUInt8 = b := by
  have hlt := b.toNat_lt
  rw [Float64.toUInt8, (hlib b).2, ← UInt8.toNat_inj, UInt8.toNat_ofNat']
  omega

/-! ### Values that are the same -/

/-- A value of a script that comes through: no function or other object, and no table with other keys than
texts, wherever in the value. -/
inductive Faithful : LuaValue → Prop
  | bool (b : Bool) : Faithful (.bool b)
  | number (x : Float64) : Faithful (.number x)
  | string (s : GoString) : Faithful (.string s)
  | table (tbl : List (LuaValue × LuaValue)) (htexts : ∀ kv ∈ tbl, ∃ k, kv.1 = .string k)
    (honce : Keyed tbl) (hvalues : ∀ kv ∈ tbl, Faithful kv.2) : Faithful (.table tbl)

section Values

variable {lib : StdLib} {vm : LuaVM} {tbl : List (LuaValue × LuaValue)}

theorem Keyed.eq_of_mem (h : Keyed tbl) {k : GoString} {v v' : LuaValue} (hv : (.string k, v) ∈ tbl)
    (hv' : (.string k, v') ∈ tbl) : v = v' := by
  induction tbl with
  | nil => exact absurd hv List.not_mem_nil
  | cons kv tbl ih =>
    have hkey : ∀ {w : LuaValue}, (.string k, w) ∈ tbl → k ∈ tbl.filterMap fun kv => textKey kv.1 :=
      fun hw => List.mem_filterMap.mpr ⟨_, hw, rfl⟩
    rcases List.mem_cons.mp hv with rfl | hmem
    · have hnot : k ∉ tbl.filterMap fun kv => textKey kv.1 := by
        have hcons : (k :: tbl.filterMap fun kv => textKey kv.1).Nodup := h
        exact (List.nodup_cons.mp hcons).1
      rcases List.mem_cons.mp hv' with heq | hmem'
      · exact (Prod.mk.inj heq).2.symm
      · exact absurd (hkey hmem') hnot
    · rcases List.mem_cons.mp hv' with rfl | hmem'
      · have hcons : (k :: tbl.filterMap fun kv => textKey kv.1).Nodup := h
        exact absurd (hkey hmem) (List.nodup_cons.mp hcons).1
      · refine ih (h.sublist ?_) hmem hmem'
        exact (List.sublist_cons_self kv tbl).filterMap _

theorem mem_luaPairs {k : GoString} {w : Value} :
    (k, w) ∈ luaPairs lib vm tbl ↔ ∃ v, (.string k, v) ∈ tbl ∧ w = luaToGo lib vm v := by
  induction tbl with
  | nil => simp [luaPairs]
  | cons kv tbl ih =>
    obtain ⟨key, v⟩ := kv
    cases key <;> simp [luaPairs, ih, Prod.mk.injEq, or_and_right, exists_or, and_assoc, eq_comm]

theorem map_fst_luaPairs (tbl : List (LuaValue × LuaValue)) :
    (luaPairs lib vm tbl).map Prod.fst = tbl.filterMap fun kv => textKey kv.1 := by
  induction tbl with
  | nil => simp [luaPairs]
  | cons kv tbl ih =>
    obtain ⟨key, v⟩ := kv
    cases key <;> simp [luaPairs, textKey, ih]

/-- What a table with each text once is read as. -/
theorem mem_toList_luaPairs (honce : Keyed tbl) {k : GoString} {w : Value} :
    (k, w) ∈ (GoMap.insertAll ∅ (luaPairs lib vm tbl)).toList ↔
      ∃ v, (.string k, v) ∈ tbl ∧ w = luaToGo lib vm v := by
  rw [Std.ExtTreeMap.mem_toList_iff_getElem?_eq_some, GoMap.getElem?_insertAll_of_nodup,
    mem_luaPairs]
  rw [map_fst_luaPairs]
  exact honce

/-- **What a script's value is read as is that value** exactly if it comes through. -/
theorem represents_luaToGo_iff {lv : LuaValue} :
    Represents lib lv (luaToGo lib vm lv) ↔ Faithful lv := by
  constructor
  · intro h
    generalize hw : luaToGo lib vm lv = w at h
    induction h with
    | bool b => exact .bool b
    | string s => exact .string s
    | float x => exact .number x
    | int x kind hwhole => exact .number x
    | list tbl vs ws hkeys hlength hvalues ih =>
      -- a table is never read as a list
      rw [luaToGo] at hw
      cases hw
    | map tbl kvs htexts honce honce' hkeys hvalues ih =>
      rw [luaToGo, Value.obj.injEq] at hw
      subst hw
      refine .table tbl htexts honce fun kv hkv => ?_
      obtain ⟨key, v⟩ := kv
      obtain ⟨k, rfl⟩ := htexts _ hkv
      exact ih k v (luaToGo lib vm v) hkv ((mem_toList_luaPairs honce).mpr ⟨v, hkv, rfl⟩) rfl
  · intro h
    induction h with
    | bool b =>
      rw [luaToGo]
      exact .bool b
    | string s =>
      rw [luaToGo]
      exact .string s
    | number x =>
      rw [luaToGo]
      split_ifs with hwhole
      · exact .int x .int64 hwhole
      · exact .float x
    | table tbl htexts honce hvalues ih =>
      rw [luaToGo]
      refine .map tbl _ htexts honce (MapRange.byKey.nodup_keys _) (fun k => ?_) ?_
      · simp only [mem_toList_luaPairs honce]
        exact ⟨fun ⟨v, hv⟩ => ⟨_, v, hv, rfl⟩, fun ⟨_, v, hv, _⟩ => ⟨v, hv⟩⟩
      · intro k v w hv hw
        obtain ⟨v', hv', rfl⟩ := (mem_toList_luaPairs honce).mp hw
        have hsame : v' = v := Keyed.eq_of_mem honce hv' hv
        exact hsame ▸ ih _ hv'

/-- A value of an entry that goes out to a script as it is. -/
inductive GoesOut (lib : StdLib) : Value → Prop
  | str (s : GoString) : GoesOut lib (.str s)
  | bool (b : Bool) : GoesOut lib (.bool b)
  | float (x : Float64) : GoesOut lib (.float x)
  | int64 (i : ℤ) (hnan : (lib.floatOfInt i).isNaN = false) (h : (lib.floatOfInt i).toInt = i) :
    GoesOut lib (.int .int64 i)

theorem ComesBack.goesOut {v : Value} (h : ComesBack lib v) : GoesOut lib v := by
  cases h with
  | str s => exact .str s
  | bool b => exact .bool b
  | float x hx => exact .float x
  | int64 i hnan hi => exact .int64 i hnan hi

theorem represents_floatOfInt {i : ℤ} (kind : IntKind) (hnan : (lib.floatOfInt i).isNaN = false)
    (h : (lib.floatOfInt i).toInt = i) : Represents lib (.number (lib.floatOfInt i)) (.int kind i) := by
  have hint : Represents lib (.number (lib.floatOfInt i)) (.int kind (lib.floatOfInt i).toInt) :=
    .int _ kind (by rw [h]; exact Float64.eq_self hnan)
  rwa [h] at hint

/-- **What a field is handed out as is its value** exactly if it goes out as it is. -/
theorem represents_luaField_iff {v : Value} : Represents lib (luaField lib v) v ↔ GoesOut lib v := by
  constructor
  · intro h
    cases v with
    | str s => exact .str s
    | bool b => exact .bool b
    | float x => exact .float x
    | int kind i =>
      cases kind with
      | int64 =>
        rw [luaField] at h
        generalize hx : lib.floatOfInt i = x at h
        generalize hi : i = j at h
        cases h with
        | int x kind hwhole =>
          refine .int64 _ ?_ (hi ▸ congrArg Float64.toInt hx)
          by_contra hnan
          rw [← hi, hx] at hnan
          simp [Float64.eq, Float64.le, hnan] at hwhole
      | _ => cases h
    | _ => cases h
  · intro h
    cases h with
    | str s => exact .string s
    | bool b => exact .bool b
    | float x => exact .float x
    | int64 i hnan hi => exact represents_floatOfInt .int64 hnan hi

end Values

theorem memberLua_congr {lib : StdLib} {e e' : LogEntry} {k : GoString}
    (h : memberAt e' k = memberAt e k) : memberLua lib e' k = memberLua lib e k := by
  unfold memberAt at h
  unfold memberLua
  cases hs : slotOf k with
  | text m => simp_all
  | kind => simp_all [UInt8.toNat_inj]
  | tenant => simp_all
  | _ => rfl

/-- A member that is not filled is not in the record. -/
theorem memberLua_eq_none_iff {lib : StdLib} {e : LogEntry} {k : GoString} :
    memberLua lib e k = none ↔ ∀ w, ¬Filled e k w := by
  unfold memberLua Filled memberAt
  cases hs : slotOf k with
  | text m =>
    dsimp only
    rw [luaText]
    split_ifs with hempty
    · simp [hempty]
    · simp [hempty]
  | kind => simp
  | time => simp
  | tenant =>
    dsimp only
    rw [luaText]
    split_ifs with hempty
    · simp [hempty]
    · simp [hempty]
  | field => simp

/-- A member that is filled is in the record as it is. -/
theorem Filled.represents {lib : StdLib} (hlib : BytesExact lib) {e : LogEntry} {k : GoString} {w : Value}
    (h : Filled e k w) : ∃ lv, memberLua lib e k = some lv ∧ Represents lib lv w := by
  obtain ⟨hat, htime, hne⟩ := h
  unfold memberAt at hat
  unfold memberLua
  cases hs : slotOf k with
  | text m =>
    simp only [hs, Option.some.injEq] at hat
    subst hat
    have hfilled : m.get e ≠ [] := fun hempty => hne (congrArg Value.str hempty)
    exact ⟨.string (m.get e), if_neg hfilled, .string _⟩
  | kind =>
    simp only [hs, Option.some.injEq] at hat
    subst hat
    exact ⟨_, rfl, represents_floatOfInt .uint8 (hlib e.kind).1 (hlib e.kind).2⟩
  | time => exact absurd hs htime
  | tenant =>
    simp only [hs, Option.some.injEq] at hat
    subst hat
    have hfilled : e.tenantID ≠ [] := fun hempty => hne (congrArg Value.str hempty)
    exact ⟨.string e.tenantID, if_neg hfilled, .string _⟩
  | field => simp [hs] at hat

/-- A member that is written back comes back as it went. -/
theorem slotValue_memberLua {lib : StdLib} (hlib : BytesExact lib) (vm : LuaVM) {e : LogEntry}
    {k : GoString} {lv : LuaValue} (hk : WrittenBack k) (h : memberLua lib e k = some lv) :
    slotValue vm k lv = memberAt e k := by
  unfold memberLua at h
  unfold slotValue memberAt
  obtain ⟨htenant, hfield⟩ := hk
  cases hs : slotOf k with
  | text m =>
    simp only [hs, luaText] at h
    split_ifs at h
    obtain rfl := Option.some.inj h
    rfl
  | kind =>
    simp only [hs] at h
    obtain rfl := Option.some.inj h
    simp [hlib.toUInt8 e.kind]
  | time => simp [hs] at h
  | tenant => exact absurd hs htenant
  | field => exact absurd hs hfield

theorem eq_of_sameAt {e e' : LogEntry} (hkey : e'.key = e.key)
    (hingested : e'.ingestedAt = e.ingestedAt) (h : ∀ k, SameAt e e' k) : e' = e := by
  have hfields : e'.fields = e.fields := Std.ExtTreeMap.ext_getElem? fun k => (h k).2
  have htext : ∀ m : TextMember, m.get e' = m.get e := by
    intro m
    have hm := (h m.name).1
    rw [memberAt, memberAt, slotOf_name] at hm
    injection hm with hm
    injection hm
  have hkind := (h (str "kind")).1
  have htime := (h (str "event_timestamp_ms")).1
  have htenant := (h (str "tenant_id")).1
  rw [memberAt, memberAt, slotOf_eq_kind.mpr rfl] at hkind
  rw [memberAt, memberAt, slotOf_eq_time.mpr rfl] at htime
  rw [memberAt, memberAt, slotOf_eq_tenant.mpr rfl] at htenant
  simp only [Option.some.injEq, Value.int.injEq, Value.str.injEq, true_and, Nat.cast_inj,
    UInt8.toNat_inj] at hkind htime htenant
  have h1 := htext .hostname
  have h2 := htext .srcIP
  have h3 := htext .agentID
  have h4 := htext .sessionID
  have h5 := htext .dataset
  have h6 := htext .rawLog
  cases e
  cases e'
  simp_all [TextMember.get]

/-- A value of the type that the member of a name has: a text, the number of a byte, or a whole number. -/
def MemberTakes (lib : StdLib) (k : GoString) (lv : LuaValue) : Prop :=
  match slotOf k with
  | .text _ => ∃ s, lv = .string s
  | .kind => ∃ b : UInt8, Represents lib lv (.int .uint8 b.toNat)
  | .time => ∃ ms, Represents lib lv (.int .int64 ms)
  | .tenant | .field => False

/-- What a script may return under a name for the entry to have exactly that. -/
inductive Fits (lib : StdLib) (vm : LuaVM) (e : LogEntry) (k : GoString) : Option LuaValue → Prop
  /-- Nothing, where there was nothing. -/
  | absent (hm : memberLua lib e k = none) (hf : e.fields[k]? = none) : Fits lib vm e k none
  /-- A new value of a field, if it comes through. -/
  | set (lv : LuaValue) (hk : slotOf k = .field)
      (hnew : ∀ v, e.fields[k]? = some v → luaField lib v ≠ lv) (hv : Faithful lv) :
      Fits lib vm e k (some lv)
  /-- The value of a field, if it comes back. -/
  | kept (v : Value) (hk : ¬WrittenBack k) (hf : e.fields[k]? = some v)
      (hv : ComesBack lib v) : Fits lib vm e k (some (luaField lib v))
  /-- A value of a member of the member's type, if no field has the name. -/
  | member (lv : LuaValue) (hk : WrittenBack k) (hf : e.fields[k]? = none)
      (hv : MemberTakes lib k lv) : Fits lib vm e k (some lv)
  /-- The value of a field that has the name of a member, if the member is no other. -/
  | shadow (v : Value) (hk : WrittenBack k) (hf : e.fields[k]? = some v)
      (hv : ∀ w, slotValue vm k (luaField lib v) = some w → memberAt e k = some w) :
      Fits lib vm e k (some (luaField lib v))

section Exactly

variable {lib : StdLib} {vm : LuaVM} {e : LogEntry} {tbl : List (LuaValue × LuaValue)}
  {k : GoString}

theorem memberLua_of_field (h : slotOf k = .field) : memberLua lib e k = none := by
  simp [memberLua, h]

theorem not_writtenBack (h : slotOf k = .field) : ¬WrittenBack k := fun hk => hk.2 h

/-- A member whose value stands in the record takes that value back. -/
theorem memberTakes_of_memberLua (hlib : BytesExact lib) {lv : LuaValue} (hk : WrittenBack k)
    (h : memberLua lib e k = some lv) : MemberTakes lib k lv := by
  unfold memberLua at h
  unfold MemberTakes
  obtain ⟨htenant, hfield⟩ := hk
  cases hs : slotOf k with
  | text m =>
    simp only [hs, luaText] at h
    split_ifs at h
    exact ⟨m.get e, (Option.some.inj h).symm⟩
  | kind =>
    simp only [hs] at h
    obtain rfl := Option.some.inj h
    exact ⟨e.kind, represents_floatOfInt .uint8 (hlib e.kind).1 (hlib e.kind).2⟩
  | time => simp [hs] at h
  | tenant => exact absurd hs htenant
  | field => exact absurd hs hfield

/-- A member that has a value of a script is of its type. -/
theorem MemberHas.takes {lv : LuaValue} (hk : WrittenBack k) (h : MemberHas lib e k lv) :
    MemberTakes lib k lv := by
  unfold MemberHas at h
  unfold MemberTakes
  obtain ⟨htenant, hfield⟩ := hk
  cases hs : slotOf k with
  | text m =>
    simp only [hs] at h
    cases h
    exact ⟨_, rfl⟩
  | kind =>
    simp only [hs] at h
    exact ⟨_, h⟩
  | time =>
    simp only [hs] at h
    obtain ⟨ms, hms, -⟩ := h
    exact ⟨ms, hms⟩
  | tenant => exact absurd hs htenant
  | field => exact absurd hs hfield

/-- The number that an integer is converts to it. -/
theorem toInt_of_represents {x : Float64} {kind : IntKind} {i : ℤ}
    (h : Represents lib (.number x) (.int kind i)) : x.toInt = i := by
  cases h
  rfl

/-- **A member that is written back has a value of its type** afterwards. -/
theorem MemberTakes.has {lv : LuaValue} (h : MemberTakes lib k lv)
    (hat : memberAt e k = slotValue vm k lv) : MemberHas lib e k lv := by
  unfold MemberTakes at h
  unfold memberAt slotValue at hat
  unfold MemberHas
  cases hs : slotOf k with
  | text m =>
    simp only [hs, Option.some.injEq, Value.str.injEq] at h hat
    obtain ⟨s, rfl⟩ := h
    simp only [hat, luaStr]
    exact .string s
  | kind =>
    simp only [hs] at h hat
    obtain ⟨b, hb⟩ := h
    cases lv with
    | number x =>
      have hint := toInt_of_represents hb
      simp only [Option.some.injEq, Value.int.injEq, true_and, Nat.cast_inj] at hat
      have hbyte : x.toUInt8 = b := by
        have hlt := b.toNat_lt
        rw [Float64.toUInt8, hint, ← UInt8.toNat_inj, UInt8.toNat_ofNat']
        omega
      simp only [hat, hbyte]
      exact hb
    | _ => cases hb
  | time =>
    simp only [hs] at h hat
    obtain ⟨ms, hms⟩ := h
    cases lv with
    | number x =>
      simp only [Option.some.injEq, Value.int.injEq, true_and] at hat
      exact ⟨ms, hms, by rw [hat, toInt_of_represents hms]⟩
    | _ => cases hms
  | tenant => simp only [hs] at h
  | field => simp only [hs] at h

/-- It takes the value back. -/
theorem MemberTakes.slotValue_ne_none {lv : LuaValue} (h : MemberTakes lib k lv) :
    slotValue vm k lv ≠ none := by
  unfold MemberTakes at h
  unfold slotValue
  cases hs : slotOf k with
  | text m => simp
  | kind =>
    simp only [hs] at h
    obtain ⟨b, hb⟩ := h
    cases lv with
    | number x => simp
    | _ => cases hb
  | time =>
    simp only [hs] at h
    obtain ⟨ms, hms⟩ := h
    cases lv with
    | number x => simp
    | _ => cases hms
  | tenant => simp only [hs] at h
  | field => simp only [hs] at h

/-- From the content of a table to what the table has under one name. -/
theorem Fits.of_hasContent (hlib : BytesExact lib) (hkeyed : Keyed tbl)
    (h : HasContent lib e tbl (applyLuaTable lib vm e tbl)) (k : GoString) :
    Fits lib vm e k (tableAt tbl k) := by
  have hmember := memberAt_applyLuaTable lib vm e hkeyed k
  have hfield := fields_applyLuaTable lib vm e hkeyed k
  have hrecord := getElem?_luaRecord lib e k
  cases htbl : tableAt tbl k with
  | none =>
    rw [htbl] at hmember hfield
    obtain ⟨hnone, hempty⟩ := h.gone k htbl
    refine .absent ?_ (hfield.symm.trans hnone)
    rw [← memberLua_congr hmember, memberLua_eq_none_iff]
    exact hempty
  | some lv =>
    rw [htbl] at hmember hfield
    by_cases htouched : (luaRecord lib e)[k]? = some lv
    · -- Untouched: the copy has to have what the entry had.
      obtain ⟨hsame, hsameField⟩ := h.untouched k (htbl.trans htouched.symm)
      rw [hrecord] at htouched
      cases hf : e.fields[k]? with
      | some v =>
        obtain rfl : luaField lib v = lv := by simpa [hf] using htouched
        by_cases hk : WrittenBack k
        · refine .shadow v hk hf fun w hw => ?_
          simpa [hk, hw, hsame] using hmember
        · refine .kept v hk hf ((@comesBack_iff lib vm v).mp ?_)
          simpa [hk, hsameField, hf] using hfield.symm
      | none =>
        have hlua : memberLua lib e k = some lv := by simpa [hf] using htouched
        by_cases hk : WrittenBack k
        · exact .member lv hk hf (memberTakes_of_memberLua hlib hk hlua)
        · simp [hk, hsameField, hf] at hfield
    · -- Written: the value has to be in its one place.
      have hhas := h.written k lv htbl htouched
      unfold HasAt at hhas
      split_ifs at hhas with hslot
      · obtain ⟨w, hw, hrepresents⟩ := hhas
        have hread : luaToGo lib vm lv = w := by simpa [not_writtenBack hslot, hw] using hfield.symm
        refine .set lv hslot (fun v hv heq => htouched ?_) ?_
        · rw [hrecord, hv, ← heq]
          rfl
        · rw [← hread] at hrepresents
          exact represents_luaToGo_iff.mp hrepresents
      · obtain ⟨hmemberHas, hnone⟩ := hhas
        by_cases hk : WrittenBack k
        · exact .member lv hk (by simpa [hk, hnone] using hfield.symm) (hmemberHas.takes hk)
        · simp [hk, hnone] at hfield

/-- From what a table has under each name to its content. -/
theorem Fits.hasContent (hlib : BytesExact lib) (hkeyed : Keyed tbl)
    (h : ∀ k, Fits lib vm e k (tableAt tbl k)) :
    HasContent lib e tbl (applyLuaTable lib vm e tbl) := by
  -- what a script leaves as it found it comes back as it was
  have hsame : ∀ k, tableAt tbl k = (luaRecord lib e)[k]? →
      SameAt e (applyLuaTable lib vm e tbl) k := by
    intro k heq
    have hfits := h k
    rw [SameAt, memberAt_applyLuaTable lib vm e hkeyed, fields_applyLuaTable lib vm e hkeyed]
    rw [getElem?_luaRecord] at heq
    generalize tableAt tbl k = r at hfits heq
    cases hfits with
    | absent hm hf => exact ⟨rfl, rfl⟩
    | set lv hk hnew hv =>
      rw [memberLua_of_field hk, Option.or_none] at heq
      obtain ⟨v, hv, hlv⟩ := Option.map_eq_some_iff.mp heq.symm
      exact absurd hlv (hnew v hv)
    | kept v hk hf hv => simp [hk, hf, comesBack_iff.mpr hv]
    | member lv hk hf hv =>
      have hlua : memberLua lib e k = some lv := by simpa [hf] using heq.symm
      simp [hk, slotValue_memberLua hlib vm hk hlua]
    | shadow v hk hf hv =>
      cases hw : slotValue vm k (luaField lib v) with
      | none => simp [hk, hw]
      | some w => simp [hk, hw, hv w hw]
  refine ⟨?_, hsame, ?_, ?_⟩
  · intro k hnone
    have hfits := h k
    rw [hnone] at hfits
    cases hfits with
    | absent hm hf =>
      have hmember := memberAt_applyLuaTable lib vm e hkeyed k
      rw [hnone] at hmember
      refine ⟨?_, memberLua_eq_none_iff.mp ((memberLua_congr hmember).trans hm)⟩
      rw [fields_applyLuaTable lib vm e hkeyed, hnone, Option.elim_none, hf]
  · intro k lv hlv htouched
    have hfits := h k
    rw [hlv] at hfits
    have hmember := memberAt_applyLuaTable lib vm e hkeyed k
    have hfield := fields_applyLuaTable lib vm e hkeyed k
    rw [hlv] at hmember hfield
    rw [getElem?_luaRecord] at htouched
    rw [HasAt]
    cases hfits with
    | set _ hk hnew hv =>
      rw [if_pos hk]
      refine ⟨luaToGo lib vm lv, by simpa [not_writtenBack hk] using hfield, ?_⟩
      exact represents_luaToGo_iff.mpr hv
    | kept v hk hf hv => exact absurd (by simp [hf]) htouched
    | member _ hk hf hv =>
      rw [if_neg hk.2]
      obtain ⟨w, hw⟩ := Option.ne_none_iff_exists'.mp (@MemberTakes.slotValue_ne_none lib vm k lv hv)
      refine ⟨@MemberTakes.has lib vm _ k lv hv ?_, by simpa [hk, hf] using hfield⟩
      simpa [hk, hw] using hmember
    | shadow v hk hf hv => exact absurd (by simp [hf]) htouched
  · intro hid
    exact eq_of_sameAt (applyLuaTable_frame lib vm tbl e).1 (applyLuaTable_frame lib vm tbl e).2
      fun k => hsame k (hid k)

end Exactly

/-- Every table the machine returns has a text as a key once. -/
def LuaVM.Keyed (vm : LuaVM) : Prop :=
  ∀ tick script tag ms record code tbl,
    vm.call tick script tag ms record = some (code, .table tbl) → Etl.Keyed tbl

namespace ScriptRun

variable {ex : ActionExecutor} {vm : LuaVM} {tag : GoString} {run : ScriptRun}

/-- When the contract is kept: the rule names the tag itself, every field goes out as it is, and has the
value of a member that it hides, and a table that is kept fits under every name. -/
structure Fit (ex : ActionExecutor) (vm : LuaVM) (tag : GoString) (run : ScriptRun) : Prop where
  tag : run.action.strParam "_tag" = tag
  record : ∀ k v, run.entry.fields[k]? = some v → GoesOut ex.lib v ∧
    ∀ w, Filled run.entry k w → Represents ex.lib (luaField ex.lib v) w
  content : ∀ tbl, run.Keeps ex.lib vm tbl → ∀ k, Fits ex.lib vm run.entry k (tableAt tbl k)

theorem hasFields_iff {lib : StdLib} (hlib : BytesExact lib) {e : LogEntry} :
    HasFields lib e (luaRecord lib e) ↔ ∀ k v, e.fields[k]? = some v → GoesOut lib v ∧
      ∀ w, Filled e k w → Represents lib (luaField lib v) w := by
  constructor
  · intro h k v hv
    have hat : ∀ w, (Filled e k w ∨ e.fields[k]? = some w) → Represents lib (luaField lib v) w := by
      intro w hw
      obtain ⟨lv, hlv, hrepresents⟩ := h k w hw
      rw [getElem?_luaRecord, hv] at hlv
      exact Option.some.inj hlv ▸ hrepresents
    exact ⟨represents_luaField_iff.mp (hat v (Or.inr hv)), fun w hw => hat w (Or.inl hw)⟩
  · rintro h k w (hw | hw)
    · rw [getElem?_luaRecord]
      cases hv : e.fields[k]? with
      | none => exact hw.represents hlib
      | some v => exact ⟨_, rfl, (h k v hv).2 w hw⟩
    · rw [getElem?_luaRecord, hw]
      exact ⟨_, rfl, represents_luaField_iff.mpr (h k w hw).1⟩

/-- **When one script finds its contract kept.** -/
theorem contract_iff (hvm : ex.luaEngine = some vm) (hlib : BytesExact ex.lib)
    (htables : vm.Keyed) (hcalls : run.Calls) : run.Contract ex vm tag ↔ run.Fit ex vm tag := by
  have hkeyed : ∀ {tbl}, run.Keeps ex.lib vm tbl → Keyed tbl := by
    rintro tbl ⟨code, -, hret⟩
    exact htables _ _ _ _ _ _ _ hret
  constructor
  · intro h
    refine ⟨h.tag, (hasFields_iff hlib).mp h.record, fun tbl hkeeps => ?_⟩
    obtain ⟨e', hresult, hcontent⟩ := h.content tbl hkeeps
    rw [result_of_keeps hvm hcalls hkeeps] at hresult
    obtain rfl := Option.some.inj hresult
    exact Fits.of_hasContent hlib (hkeyed hkeeps) hcontent
  · intro h
    refine ⟨h.tag, (hasFields_iff hlib).mpr h.record, fun tbl hkeeps => ?_⟩
    exact ⟨_, result_of_keeps hvm hcalls hkeeps,
      Fits.hasContent hlib (hkeyed hkeeps) (h.content tbl hkeeps)⟩

end ScriptRun

/-! ### Scripts in a pipeline -/

namespace Pipeline

variable (p : Pipeline)

/-- A script is called while `Process` works on an event, by the executor and on the
machine named: the actions before it, of whatever kind, left the entry it is called on. -/
structure Runs (ex : ActionExecutor) (vm : LuaVM) (st : ExecState) (entry : LogEntry)
    (tag : GoString) (run : ScriptRun) : Prop where
  executor : p.executor = some ex
  engine : ex.luaEngine = some vm
  custom : run.action.type = .customLua
  calls : run.Calls
  reached : ∃ before after dedup, p.appliedActions entry tag = before ++ run.action :: after ∧
    p.runActions st entry before = (some run.entry, ⟨dedup, run.tick⟩)

variable {p} {ex : ActionExecutor} {vm : LuaVM} {st : ExecState} {entry : LogEntry}
  {tag : GoString} {run : ScriptRun}

/-- What the script leaves is what the actions after it go on with. -/
theorem Runs.runActions (h : p.Runs ex vm st entry tag run) :
    ∃ after st', p.runActions st entry (p.appliedActions entry tag) =
      match run.result ex with
      | none => (none, st')
      | some e' => p.runActions st' e' after := by
  obtain ⟨before, after, dedup, hactions, hbefore⟩ := h.reached
  refine ⟨after, ⟨dedup, run.tick + 1⟩, ?_⟩
  rw [hactions, runActions_append, hbefore]
  dsimp only
  rw [runActions_of_some p h.executor, applyActions, apply, h.custom]
  simp only [applyPlain, h.custom, ScriptRun.result]
  cases customLua ex run.tick run.entry run.action with
  | none => rfl
  | some e' => exact (runActions_of_some p h.executor _ _ _).symm

end Pipeline

/-! ### The identity script -/

/-- The table of a record. -/
def recordTable (record : GoMap LuaValue) : List (LuaValue × LuaValue) :=
  (MapRange.byKey.entries record).map fun kv => (.string kv.1, kv.2)

theorem recordTable_keyed (record : GoMap LuaValue) : Keyed (recordTable record) := by
  have hkeys : ((recordTable record).filterMap fun kv => textKey kv.1) =
      (MapRange.byKey.entries record).map Prod.fst := by
    rw [recordTable, List.filterMap_map, ← List.filterMap_eq_map]
    rfl
  rw [Keyed, hkeys]
  exact MapRange.byKey.nodup_keys record

theorem tableAt_recordTable (record : GoMap LuaValue) (k : GoString) :
    tableAt (recordTable record) k = record[k]? := by
  have hfound : ∀ v, tableAt (recordTable record) k = some v → record[k]? = some v := by
    intro v h
    obtain ⟨kv, hfind, rfl⟩ := Option.map_eq_some_iff.mp h
    obtain ⟨⟨k', v'⟩, hmem, rfl⟩ := List.mem_map.mp (List.mem_of_find?_eq_some hfind)
    have hk : k' = k := by simpa [textKey] using List.find?_some hfind
    rw [← hk]
    exact (MapRange.byKey.mem_entries record k' v').mp hmem
  cases hrecord : record[k]? with
  | some v =>
    have hmem := (MapRange.byKey.mem_entries record k v).mpr hrecord
    have hisSome : ((recordTable record).find? fun kv => textKey kv.1 = some k).isSome := by
      rw [List.find?_isSome]
      exact ⟨(.string k, v), List.mem_map_of_mem hmem, by simp [textKey]⟩
    obtain ⟨kv, hkv⟩ := Option.isSome_iff_exists.mp hisSome
    have hat : tableAt (recordTable record) k = some kv.2 := by rw [tableAt, hkv]; rfl
    rw [hat, ← hfound _ hat, hrecord]
  | none =>
    rw [Option.eq_none_iff_forall_ne_some]
    intro v h
    rw [hfound v h] at hrecord
    cases hrecord

/-- A machine on which every script is `return 1, record`. -/
def identityVM : LuaVM where
  call _ _ _ _ record := some (.number ⟨0x3FF0000000000000⟩, .table (recordTable record))
  toText _ := []

theorem identityVM_keyed : identityVM.Keyed := by
  rintro tick script tag ms record code tbl h
  obtain ⟨-, htbl⟩ := Prod.mk.inj (Option.some.inj h)
  obtain rfl := LuaValue.table.inj htbl
  exact recordTable_keyed record

theorem memberLua_of_not_writtenBack {lib : StdLib} {e : LogEntry} {k : GoString}
    (htenant : e.tenantID = []) (hk : ¬WrittenBack k) : memberLua lib e k = none := by
  unfold WrittenBack at hk
  unfold memberLua
  cases hs : slotOf k with
  | tenant => simp [htenant, luaText]
  | field => rfl
  | _ => simp [hs] at hk

/-- The record of an entry without a tenant fits, if its fields have names of their own
and values that come back. -/
theorem Fits.record {lib : StdLib} (hlib : BytesExact lib) {vm : LuaVM} {e : LogEntry} (htenant : e.tenantID = [])
    (hfields : ∀ k v, e.fields[k]? = some v → ¬WrittenBack k ∧ ComesBack lib v) (k : GoString) :
    Fits lib vm e k (luaRecord lib e)[k]? := by
  rw [getElem?_luaRecord]
  cases hf : e.fields[k]? with
  | some v => exact .kept v (hfields k v hf).1 hf (hfields k v hf).2
  | none =>
    rw [Option.map_none, Option.none_or]
    cases hm : memberLua lib e k with
    | none => exact .absent hm hf
    | some lv =>
      have hk : WrittenBack k := by
        by_contra hk
        rw [memberLua_of_not_writtenBack htenant hk] at hm
        cases hm
      exact .member lv hk hf (memberTakes_of_memberLua hlib hk hm)

/-- The float that is a number of at most 53 binary digits. -/
def smallFloat (i : ℤ) : Float64 :=
  let n := i.toNat
  if n = 0 then ⟨0⟩
  else ⟨BitVec.ofNat 64 ((1023 + n.log2) * 2 ^ 52 + (n - 2 ^ n.log2) * 2 ^ (52 - n.log2))⟩

/-- A library that converts small numbers. -/
def smallLib : StdLib := { literalLib with floatOfInt := smallFloat }

theorem smallLib_bytesExact : BytesExact smallLib := by
  have hbytes : ∀ n < 256, (smallFloat (n : ℕ)).isNaN = false ∧ (smallFloat (n : ℕ)).toInt = n := by
    decide +kernel
  exact fun b => hbytes b.toNat b.toNat_lt

/-- A pipeline that calls the identity script on every event, with parameters of the
action. -/
def identityPipeline (params : List (String × String)) : Pipeline where
  lib := smallLib
  rules := [openRule .firstMatch .both
    [textAction .customLua (("script", "function process(t, ts, r) return 1, r end") :: params)] {}]
  executor := some { plainExecutor with lib := smallLib, luaEngine := some identityVM }

/-- A sign-in of a tenant, or of none. -/
def signIn (tenantID : String) : LogEntry :=
  entryWith (str tenantID) [(str "user", .str (str "root")), (str "port", .int .int64 22)]

/-- The call of the identity script on a sign-in. -/
def identityRun (tenantID : String) (params : List (String × String)) : ScriptRun where
  tick := 0
  entry := signIn tenantID
  action := textAction .customLua
    (("script", "function process(t, ts, r) return 1, r end") :: params)

/-- The executor of the pipeline above. -/
def identityExecutor : ActionExecutor :=
  { plainExecutor with lib := smallLib, luaEngine := some identityVM }

theorem identityPipeline_runs :
    (identityPipeline []).Runs identityExecutor identityVM ExecState.init (signIn "acme")
      (str "winevent.security") (identityRun "acme" []) where
  executor := rfl
  engine := rfl
  custom := rfl
  calls := ⟨by decide +kernel, by decide +kernel⟩
  reached := ⟨[], [], newDeduplicator, rfl, rfl⟩

/-- The fields of a sign-in have names of their own and come back. -/
theorem signIn_fields (tenantID : String) (k : GoString) (v : Value)
    (h : (signIn tenantID).fields[k]? = some v) : ¬WrittenBack k ∧ ComesBack smallLib v := by
  have hmem : (k, v) ∈ [(str "user", Value.str (str "root")), (str "port", .int .int64 22)] :=
    (GoMap.getElem?_insertAll_of_nodup (by decide +kernel) k v).mp h
  simp only [List.mem_cons, Prod.mk.injEq, List.not_mem_nil, or_false] at hmem
  rcases hmem with ⟨rfl, rfl⟩ | ⟨rfl, rfl⟩
  · exact ⟨by decide +kernel, .str _⟩
  · exact ⟨by decide +kernel, .int64 22 (by decide +kernel) (by decide +kernel)⟩

end Etl

end Xsiam
