import Xsiam.Repository.Calls

/-!
# The administration of rules

`Service` and `Handler` of `internal/domain/etl` as programs on the database. A rule is validated
when it is created: its `rule_id` and its name are not empty, it has an action unless it writes raw
events only, its mode of raw writes is one of three, and no rule has its `rule_id`. An import
creates one rule after the other. An update merges its body into the rule, and looks at the mode of
raw writes only.

The parts of a rule that no request looks into are what they are written as
(`Xsiam.Etl.Admin.RuleBody.rest`).
-/

namespace Xsiam

namespace Etl

namespace Admin

open Go Repository

/-! ### Rules -/

/-- The fields of `model.ETLRule`. -/
def ruleFields : Fields :=
  [(str "_key", .text), (str "rule_id", .text), (str "name", .text), (str "description", .text),
    (str "tenant_id", .text), (str "is_enabled", .flag), (str "priority", .int),
    (str "processing_mode", .text),
    (str "match", .record [(str "tag_pattern", .text), (str "dataset", .list .text),
      (str "kind", .bytes), (str "filter_expr", .text), (str "filter_mode", .text)]),
    (str "raw_write_mode", .text),
    (str "actions", .list (.record [(str "type", .text), (str "params", .map .any)])),
    (str "output", .record [(str "sinks", .list (.record [(str "ngx_index", .text),
      (str "arango_collection", .text), (str "ttl_days", .int), (str "condition", .text)])),
      (str "ngx_index", .text), (str "arango_collection", .text), (str "ttl_days", .int)]),
    (str "created_at", .time), (str "updated_at", .time), (str "created_by", .text)]

/-- The names of the parts that no request looks into. -/
def restNames : List String := ["description", "priority", "processing_mode", "match", "output"]

/-- `model.ETLRule`, as the body of a request. A nil slice of actions is none. -/
structure RuleBody where
  key : GoString := []
  ruleID : GoString := []
  name : GoString := []
  tenantID : GoString := []
  isEnabled : Bool := false
  rawWriteMode : GoString := []
  actions : Option (List Value) := none
  rest : List (String × Value) := []
  rest_sublist : (rest.map Prod.fst).Sublist restNames := by decide

/-- `RawWriteBoth` -/
def rawWriteBoth : GoString := str "both"

/-- `RawWriteETLOnly` -/
def rawWriteETLOnly : GoString := str "etl_only"

/-- `RawWriteRawOnly` -/
def rawWriteRawOnly : GoString := str "raw_only"

/-- The modes of raw writes. -/
def rawWriteModes : List GoString := [rawWriteBoth, rawWriteETLOnly, rawWriteRawOnly]

namespace RuleBody

variable (b : RuleBody)

/-- The actions, nil or not. -/
def actionList : List Value := b.actions.getD []

/-- The mode of raw writes, both where it is not set. -/
def mode : GoString := if b.rawWriteMode = [] then rawWriteBoth else b.rawWriteMode

/-- What `Create` refuses before it looks for the rule. The mode is left out of the text. -/
def refused : Option GoString :=
  if b.ruleID = [] then some (str "rule_id is required")
  else if b.name = [] then some (str "name is required")
  else if b.actionList = [] ∧ b.rawWriteMode ≠ rawWriteRawOnly then
    some (str "at least one action is required (or set raw_write_mode=raw_only to bypass ETL)")
  else if b.rawWriteMode ≠ [] ∧ b.rawWriteMode ∉ rawWriteModes then
    some (str "invalid raw_write_mode (valid: both, etl_only, raw_only)")
  else none

/-- Who has created a rule, as it is written; nobody is left out. -/
def creatorEntry (operatorID : GoString) : List (String × Value) :=
  if operatorID = [] then [] else [("created_by", .str operatorID)]

/-- The attributes of a rule as they are written. -/
def entries (times : TimeFormat) (now : Time) (operatorID : GoString) : List (String × Value) :=
  ("rule_id", .str b.ruleID) :: ("name", .str b.name) :: ("tenant_id", .str b.tenantID) ::
    ("is_enabled", .bool b.isEnabled) :: ("raw_write_mode", .str b.mode) ::
    ("actions", (b.actions.map Value.arr).getD .null) ::
    ("created_at", .str (times.text now)) :: ("updated_at", .str (times.text now)) ::
    (creatorEntry operatorID ++ b.rest)

/-- A rule as it is written to a document. -/
def document (times : TimeFormat) (now : Time) (operatorID : GoString) : Document :=
  Document.ofEntries (b.entries times now operatorID)

variable {b}

theorem get_document {times : TimeFormat} {now : Time} {operatorID : GoString} {name : String}
    {v : Value} (h : (name, v) ∈ b.entries times now operatorID) :
    (b.document times now operatorID).get (str name) = v := by
  refine Document.get_ofEntries ?_ h
  have hall : (["rule_id", "name", "tenant_id", "is_enabled", "raw_write_mode", "actions",
      "created_at", "updated_at"] ++ (["created_by"] ++ restNames)).Nodup := by decide
  refine hall.sublist ?_
  have hcreator : ((creatorEntry operatorID).map Prod.fst).Sublist ["created_by"] := by
    rw [creatorEntry]
    split_ifs
    · exact List.nil_sublist _
    · exact List.Sublist.refl _
  rw [entries, List.map_cons, List.map_cons, List.map_cons, List.map_cons, List.map_cons,
    List.map_cons, List.map_cons, List.map_cons, List.map_append]
  exact (List.append_sublist_append_left ["rule_id", "name", "tenant_id", "is_enabled",
    "raw_write_mode", "actions", "created_at", "updated_at"]).mpr (hcreator.append b.rest_sublist)

end RuleBody

/-! ### The repository and the service -/

section Programs

variable (times : TimeFormat) (lib : StdLib) (now : Time)

/-- The condition of `FindByRuleID`. -/
def hasRuleID (ruleID : GoString) (d : Document) : Bool := d.get (str "rule_id") = .str ruleID

/-- `ETLRuleRepo.FindByRuleID` -/
def findByRuleID (ruleID : GoString) (place : List ℕ) : DB (Except GoString (Option Document)) := do
  match ← findDoc .etlRules (hasRuleID ruleID) place with
  | .error e => pure (.error (str "etl_rule find by rule_id: " ++ e.text))
  | .ok none => pure (.ok none)
  | .ok (some d) =>
    if d.Reads times ruleFields then pure (.ok (some d))
    else pure (.error (str "json: cannot unmarshal"))

/-- `ETLRuleRepo.GetByKey` -/
def getRule (key : GoString) : DB (Except GoString Document) := do
  match ← readAs times ruleFields .etlRules key [] with
  | .error e => pure (.error (str "etl_rule get: " ++ e.text))
  | .ok d => pure (.ok d)

/-- `ETLRuleRepo.Update` -/
def updateRule (key : GoString) (p : Document) : DB (Except GoString Unit) := do
  match ← patchByKey times now .etlRules key p [] with
  | .error msg => pure (.error (str "etl_rule update: " ++ msg))
  | .ok () => pure (.ok ())

/-- `Service.Create`, behind the checks of the body, in a pass of a loop. -/
def createNew (b : RuleBody) (operatorID : GoString) (place : List ℕ) :
    DB (Except GoString GoString) := do
  match ← findByRuleID times b.ruleID place with
  | .error msg => pure (.error (str "rule_id check: " ++ msg))
  | .ok (some _) => pure (.error (str "rule_id already exists"))
  | .ok none =>
    match ← createDoc .etlRules b.key (b.document times now operatorID) place with
    | .error e => pure (.error (str "etl_rule create: " ++ e.text))
    | .ok key => pure (.ok key)

/-- `Service.Create` -/
def serviceCreate (b : RuleBody) (operatorID : GoString) (place : List ℕ) :
    DB (Except GoString GoString) :=
  match b.refused with
  | some msg => pure (.error msg)
  | none => createNew times now b operatorID place

/-- `Service.Update`. A patch that is a nil map cannot be written. -/
def serviceUpdate (key : GoString) (patch : Option Document) : DB (Except GoString Unit) :=
  match patch with
  | none => .crash
  | some p =>
    match p[str "raw_write_mode"]? with
    | none => updateRule times now key p
    | some v =>
      if lib.sprint v ∈ rawWriteModes then updateRule times now key p
      else pure (.error (str "invalid raw_write_mode"))

/-- `Service.Toggle` -/
def serviceToggle (key : GoString) : DB (Except GoString Bool) := do
  match ← getRule times key with
  | .error msg => pure (.error (str "toggle: " ++ msg))
  | .ok d =>
    match ← updateRule times now key
      (Document.ofEntries [("is_enabled", .bool !(d.flag (str "is_enabled")))]) with
    | .error msg => pure (.error (str "toggle update: " ++ msg))
    | .ok () => pure (.ok !(d.flag (str "is_enabled")))

/-! ### The handlers -/

/-- The requests that write rules, with what they are made as. -/
inductive RuleRequest where
  | create (tenantID : GoString) (body : RuleBody)
  /-- The patch is a nil map where the body is null. -/
  | update (key : GoString) (patch : Option Document)
  | delete (key : GoString)
  | toggle (key : GoString)
  | importAll (operatorID : GoString) (bodies : List RuleBody)

/-- What a request is answered with. -/
inductive RuleReply where
  | created (key : GoString)
  | updated
  | deleted
  | toggled (enabled : Bool)
  /-- Which rules of an import have been created; what is answered are their number and that of
  the others. -/
  | imported (results : List Bool)

/-- The rule that `Handler.Create` makes of a body: it is the caller's, if the caller has a tenant.
-/
def RuleBody.ofTenant (tenantID : GoString) (b : RuleBody) : RuleBody :=
  if tenantID = [] then b else { b with tenantID }

/-- `Handler.Create`, which reads the operator under a name that nobody sets. -/
def handleCreate (tenantID : GoString) (b : RuleBody) : DB (Response RuleReply) := do
  match ← serviceCreate times now (b.ofTenant tenantID) [] [] with
  | .error msg => pure (.badRequest msg)
  | .ok key => pure (.ok (.created key))

/-- `Handler.Update` -/
def handleUpdate (key : GoString) (patch : Option Document) : DB (Response RuleReply) := do
  match ← serviceUpdate times lib now key patch with
  | .error msg => pure (.badRequest msg)
  | .ok () => pure (.ok .updated)

/-- `Handler.Delete` -/
def handleDelete (key : GoString) : DB (Response RuleReply) := do
  match ← deleteByKey .etlRules key [] with
  | .error msg => pure (.internalError (str "etl_rule delete: " ++ msg))
  | .ok () => pure (.ok .deleted)

/-- `Handler.Toggle` -/
def handleToggle (key : GoString) : DB (Response RuleReply) := do
  match ← serviceToggle times now key with
  | .error msg => pure (.internalError msg)
  | .ok enabled => pure (.ok (.toggled enabled))

/-- The loop of `Handler.Import`: which of the rules are created. -/
def importLoop (operatorID : GoString) : List RuleBody → ℕ → DB (List Bool)
  | [], _ => pure []
  | b :: bodies, i => do
    let r ← serviceCreate times now { b with key := [] } operatorID [i]
    let results ← importLoop operatorID bodies (i + 1)
    pure (r.toOption.isSome :: results)

/-- `Handler.Import` -/
def handleImport (operatorID : GoString) (bodies : List RuleBody) : DB (Response RuleReply) := do
  let results ← importLoop times now operatorID bodies 0
  pure (.ok (.imported results))

/-- The program of a request. -/
def RuleRequest.program : RuleRequest → DB (Response RuleReply)
  | .create tenantID body => handleCreate times now tenantID body
  | .update key patch => handleUpdate times lib now key patch
  | .delete key => handleDelete key
  | .toggle key => handleToggle times now key
  | .importAll operatorID bodies => handleImport times now operatorID bodies

/-! ### What a request writes -/

/-- What a request asks to be written to the rules. -/
inductive RuleWrite : RuleRequest → Op → Prop where
  | create {tenantID : GoString} {body : RuleBody} (h : (body.ofTenant tenantID).refused = none) :
      RuleWrite (.create tenantID body) (.create .etlRules (body.ofTenant tenantID).key
        ((body.ofTenant tenantID).document times now []))
  | importAll {operatorID : GoString} {bodies : List RuleBody} {b : RuleBody} (hb : b ∈ bodies)
      (h : b.refused = none) : RuleWrite (.importAll operatorID bodies)
        (.create .etlRules [] ({ b with key := [] }.document times now operatorID))
  | update {key : GoString} {p : Document}
      (h : ∀ v, p[str "raw_write_mode"]? = some v → lib.sprint v ∈ rawWriteModes) :
      RuleWrite (.update key (some p)) (.update .etlRules key (stamp times now p))
  | delete {key : GoString} : RuleWrite (.delete key) (.delete .etlRules key)
  | toggle {key : GoString} {enabled : Bool} : RuleWrite (.toggle key) (.update .etlRules key
      (stamp times now (Document.ofEntries [("is_enabled", .bool enabled)])))

variable {times lib now} in
theorem RuleWrite.col {req : RuleRequest} {op : Op} (h : RuleWrite times lib now req op) :
    op.col = .etlRules := by
  cases h <;> rfl

/-- What a request may ask of the database. -/
def Asks (req : RuleRequest) (i : Call) : Prop :=
  i.op.isRead = true ∨ RuleWrite times lib now req i.op

variable {times lib now} {P : Call → Prop}

theorem calls_serviceCreate {b : RuleBody} {operatorID : GoString} {place : List ℕ}
    (hread : ∀ i : Call, i.op.isRead = true → P i)
    (hcreate : b.refused = none →
      P (Call.mk (.create .etlRules b.key (b.document times now operatorID)) place)) :
    (serviceCreate times now b operatorID place).Calls P := by
  rw [serviceCreate]
  rcases hrefused : b.refused with _ | msg
  · refine Prog.Calls.bind (Prog.Calls.bind (Prog.calls_send (hread _ rfl)) ?_) ?_
    · rintro (e | _ | d)
      · exact trivial
      · exact trivial
      · dsimp only
        split <;> exact trivial
    · rintro (msg | _ | d)
      · exact trivial
      · refine Prog.Calls.bind (Prog.calls_send (hcreate hrefused)) ?_
        rintro (e | key) <;> exact trivial
      · exact trivial
  · exact trivial

theorem calls_updateRule {key : GoString} {p : Document}
    (h : P (Call.mk (.update .etlRules key (stamp times now p)) [])) :
    (updateRule times now key p).Calls P := by
  refine (calls_patchByKey h).bind ?_
  rintro (msg | _) <;> exact trivial

theorem calls_importLoop {operatorID : GoString} (hread : ∀ i : Call, i.op.isRead = true → P i)
    {bodies : List RuleBody} (hcreate : ∀ b ∈ bodies, ∀ i : ℕ, b.refused = none →
      P (Call.mk (.create .etlRules [] ({ b with key := [] }.document times now operatorID)) [i])) :
    ∀ i, (importLoop times now operatorID bodies i).Calls P := by
  induction bodies with
  | nil => exact fun i => trivial
  | cons b bodies ih =>
    intro i
    refine (calls_serviceCreate hread fun h => ?_).bind fun r => ?_
    · exact hcreate b List.mem_cons_self i h
    · exact (ih (fun b' hb' => hcreate b' (List.mem_cons_of_mem b hb')) (i + 1)).bind
        fun results => trivial

/-- **What a request may write of the rules is what it asks for**: what is created has passed the
checks of the body, and an update has a known mode of raw writes. -/
theorem program_asks (req : RuleRequest) :
    (req.program times lib now).Calls (Asks times lib now req) := by
  cases req with
  | create tenantID body =>
    refine Prog.Calls.bind (calls_serviceCreate (fun _ => .inl) fun h => .inr (.create h)) ?_
    rintro (msg | key) <;> exact trivial
  | update key patch =>
    refine Prog.Calls.bind ?_ fun r => by cases r <;> exact trivial
    rcases patch with _ | p
    · exact trivial
    · simp only [serviceUpdate]
      rcases hmode : p[str "raw_write_mode"]? with _ | v
      · exact calls_updateRule (.inr (.update fun v hv => by rw [hmode] at hv; cases hv))
      · dsimp only
        split_ifs with hknown
        · exact calls_updateRule (.inr (.update fun v' hv => by
            rw [hmode] at hv
            cases hv
            exact hknown))
        · exact trivial
  | delete key =>
    refine Prog.Calls.bind (calls_deleteByKey (.inr .delete)) ?_
    rintro (msg | _) <;> exact trivial
  | toggle key =>
    refine Prog.Calls.bind (Prog.Calls.bind (Prog.Calls.bind (calls_readAs (.inl rfl))
      fun r => by cases r <;> exact trivial) ?_) fun r => by cases r <;> exact trivial
    rintro (msg | d)
    · exact trivial
    · refine (calls_updateRule (.inr .toggle)).bind ?_
      rintro (msg | _) <;> exact trivial
  | importAll operatorID bodies =>
    exact (calls_importLoop (fun _ => .inl) (fun b hb i h => .inr (.importAll hb h)) 0).bind
      fun results => trivial

end Programs

/-! ### A rule to compute with -/

/-- A rule that drops events. -/
def dropRule : RuleBody where
  key := str "r-1"
  ruleID := str "drop-noise"
  name := str "Drop noise"
  tenantID := str "t-1"
  isEnabled := true
  actions := some [.obj [(str "type", .str (str "drop_event"))]]

/-- The rule alone. -/
def dropStore : DocStore :=
  DocStore.set (fun _ => ∅) .etlRules ((∅ : GoMap Document).insert dropRule.key
    (ownAttributes (dropRule.document epochTimes 0 [])))

end Admin

end Etl

end Xsiam
