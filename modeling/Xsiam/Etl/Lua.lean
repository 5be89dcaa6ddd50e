import Xsiam.Etl.Model
import Xsiam.Go.Float

/-!
# The Lua engine

`internal/etl/lua_engine.go`: what is handed to a script, and how what the script
returns becomes an entry again. The virtual machine itself is not part of the
repository; `Xsiam.Etl.LuaVM` is what the code calls on it.
-/

namespace Xsiam

namespace Etl

open Go

/-- A Lua value. -/
inductive LuaValue where
  | nil : LuaValue
  | bool : Bool → LuaValue
  | number : Float64 → LuaValue
  | string : GoString → LuaValue
  | table : List (LuaValue × LuaValue) → LuaValue
  /-- A function, a thread or user data. -/
  | other : LuaValue

/-- The Lua virtual machine, as the code uses it. -/
structure LuaVM where
  /-- Compile a script and call its function `process` on a tag, a time in
  milliseconds and a record: the two values it returns, or `none` where a step of
  that fails. The number is the tick of the call. -/
  call : ℕ → GoString → GoString → ℤ → GoMap LuaValue → Option (LuaValue × LuaValue)
  /-- The method `String` of a value. -/
  toText : LuaValue → GoString

/-- The outcome of `LuaEngine.Run`. -/
inductive LuaOutcome where
  | error
  | drop
  | keep (e : LogEntry)

/-- The value of the table built for a field. -/
def luaField (lib : StdLib) : Value → LuaValue
  | .str s => .string s
  | .float x => .number x
  | .int .int64 i => .number (lib.floatOfInt i)
  | .bool b => .bool b
  | v => .string (lib.sprint v)

/-- The record a script is called on: the members of the entry that are not empty, and
the fields over them. -/
def luaRecord (lib : StdLib) (e : LogEntry) : GoMap LuaValue :=
  let members : List (GoString × GoString) :=
    [(str "hostname", e.hostname), (str "src_ip", e.sourceIP), (str "agent_id", e.agentID),
      (str "session_id", e.sessionID), (str "dataset", e.dataset),
      (str "tenant_id", e.tenantID), (str "raw_log", e.rawLog)]
  let base : GoMap LuaValue := GoMap.insertAll ∅
    ((members.filter (·.2 ≠ [])).map fun kv => (kv.1, LuaValue.string kv.2))
  GoMap.copy (base.insert (str "kind") (.number (lib.floatOfInt e.kind.toNat)))
    (e.fields.map fun _ v => luaField lib v)

/-- `luaStr` -/
def luaStr (vm : LuaVM) : LuaValue → GoString
  | .string s => s
  | v => vm.toText v

mutual
/-- `luaToGo` -/
def luaToGo (lib : StdLib) (vm : LuaVM) : LuaValue → Value
  | .string s => .str s
  | .number x => if x.eq (lib.floatOfInt x.toInt) then .int .int64 x.toInt else .float x
  | .bool b => .bool b
  | .table kvs => .obj (GoMap.insertAll ∅ (luaPairs lib vm kvs)).toList
  | v => .str (vm.toText v)
/-- The entries of a table whose key is a string. -/
def luaPairs (lib : StdLib) (vm : LuaVM) : List (LuaValue × LuaValue) → List (GoString × Value)
  | [] => []
  | (.string k, v) :: kvs => (k, luaToGo lib vm v) :: luaPairs lib vm kvs
  | _ :: kvs => luaPairs lib vm kvs
end

/-- One entry of the returned table, written back: the names of members are members,
every other name is a field. -/
def applyLuaEntry (lib : StdLib) (vm : LuaVM) (e : LogEntry) : LuaValue × LuaValue → LogEntry
  | (.string k, v) =>
    if k = str "hostname" then { e with hostname := luaStr vm v }
    else if k = str "src_ip" then { e with sourceIP := luaStr vm v }
    else if k = str "agent_id" then { e with agentID := luaStr vm v }
    else if k = str "session_id" then { e with sessionID := luaStr vm v }
    else if k = str "dataset" then { e with dataset := luaStr vm v }
    else if k = str "raw_log" then { e with rawLog := luaStr vm v }
    else if k = str "kind" then
      match v with
      | .number x => { e with kind := x.toUInt8 }
      | _ => e
    else if k = str "event_timestamp_ms" then
      match v with
      | .number x => { e with eventTimestamp := x.toInt * 1000000 }
      | _ => e
    else { e with fields := e.fields.insert k (luaToGo lib vm v) }
  | _ => e

/-- `applyLuaTable` -/
def applyLuaTable (lib : StdLib) (vm : LuaVM) (orig : LogEntry)
    (tbl : List (LuaValue × LuaValue)) : LogEntry :=
  tbl.foldl (applyLuaEntry lib vm) orig

/-- `LuaEngine.Run`, at the tick `tick`. -/
def luaRun (lib : StdLib) (vm : LuaVM) (tick : ℕ) (script : GoString) (e : LogEntry)
    (tag : GoString) : LuaOutcome :=
  if 64 * 1024 < script.length then .error
  else match vm.call tick script tag (e.eventTimestamp / 1000000) (luaRecord lib e) with
    | none => .error
    | some (.number code, retRec) =>
      if code.toInt = -1 then .drop
      else if code.toInt = 0 then .keep e
      else if code.toInt = 1 then
        match retRec with
        | .table tbl => .keep (applyLuaTable lib vm e tbl)
        | _ => .error
      else .error
    | some _ => .error

theorem applyLuaEntry_tenantID (lib : StdLib) (vm : LuaVM) (e : LogEntry)
    (kv : LuaValue × LuaValue) : (applyLuaEntry lib vm e kv).tenantID = e.tenantID := by
  unfold applyLuaEntry
  split
  · split_ifs <;> first | rfl | (split <;> rfl)
  · rfl

/-- **A script cannot change the tenant of an entry**: the name `tenant_id` is a field
like any other. -/
theorem applyLuaTable_tenantID (lib : StdLib) (vm : LuaVM) (tbl : List (LuaValue × LuaValue)) :
    ∀ e : LogEntry, (applyLuaTable lib vm e tbl).tenantID = e.tenantID := by
  induction tbl with
  | nil => intro e; rfl
  | cons kv tbl ih =>
    intro e
    exact (ih _).trans (applyLuaEntry_tenantID lib vm e kv)

end Etl

end Xsiam
