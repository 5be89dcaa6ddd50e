import Xsiam.Go.Value

/-!
# Detection rules, and requests on them

A detection rule, by what its life and its deployment depend on, and the query that it stands for
(`Xsiam.Threat.ruleToSPL2`). The conditions of an event are a map, and a loop over a map meets its
entries in any order, so one rule has several queries (`Xsiam.Threat.RuleQuery`).

`RuleService` and `RuleHandler`: rules are created as drafts, patched, enabled and disabled in bulk,
moved from one status to another, and deleted. A rule that becomes active is registered with the
data lake as a saved search under its name, and one that is disabled, deprecated or deleted has the
search of its name deleted (`Xsiam.Threat.handle`).

A request is answered before the next one is. What it does to one rule is said by a lemma for each
way rules are written: `Xsiam.Threat.getElem?_update`, `Xsiam.Threat.getElem?_toggleAll`.
-/

namespace Xsiam

namespace Threat

open Go

section Rules

/-! ### Rules -/

/-- `BIOCEvent` -/
structure BIOCEvent where
  eventType : GoString
  conditions : GoMap GoString

/-- `RuleDefinition`, by the fields that a query is made of. -/
structure RuleDefinition where
  sequence : List BIOCEvent := []
  iocType : GoString := []
  iocValues : List GoString := []
  metric : GoString := []
  threshold : Float64 := ⟨0⟩
  source : GoString := []
  condition : GoString := []
  iocPattern : GoString := []

/-- What a `DetectionRule` says besides its status. -/
structure RuleContent where
  name : GoString
  ruleType : GoString
  definition : RuleDefinition := {}

/-! ### Queries -/

/-- The part of an event in a query, its conditions in some order. -/
def biocPart (order : MapRange) (event : BIOCEvent) : GoString :=
  let conditions := (str "event_type = \"" ++ event.eventType ++ str "\"") ::
    (order.entries event.conditions).map fun kv => kv.1 ++ str " = \"" ++ kv.2 ++ str "\""
  str "(" ++ join conditions (str " and ") ++ str ")"

variable (lib : StdLib) (order : ℕ → MapRange)

/-- `biocToSPL2`, the loop over the conditions of each event with an order of its own -/
def biocToSPL2 (name : GoString) (d : RuleDefinition) : GoString :=
  if d.sequence = [] then
    str "dataset = xsiam_endpoint | filter rule_name = \"" ++ name ++ str "\""
  else
    str "dataset = xsiam_endpoint | filter " ++
      join (d.sequence.zipIdx.map fun p => biocPart (order p.2) p.1) (str " or ")

/-- `iocToSPL2` -/
def iocToSPL2 (d : RuleDefinition) : GoString :=
  if d.iocValues = [] then
    if d.iocPattern ≠ [] then str "dataset = xsiam_endpoint | filter " ++ d.iocPattern
    else str "dataset = xsiam_endpoint | filter ioc_match = true"
  else
    let values := d.iocValues.map fun v => str "\"" ++ v ++ str "\""
    let iocType := if d.iocType = [] then str "indicator_value" else d.iocType
    str "dataset = xsiam_endpoint | filter " ++ iocType ++ str " in (" ++
      join values (str ", ") ++ str ")"

/-- `uebaToSPL2` -/
def uebaToSPL2 (d : RuleDefinition) : GoString :=
  let metric := if d.metric = [] then str "event_count" else d.metric
  str "dataset = xsiam_identity | stats count() as " ++ metric ++ str " by user_name | filter " ++
    metric ++ str " > " ++ lib.formatFloat d.threshold

/-- `RuleToSPL2` -/
def ruleToSPL2 (rule : RuleContent) : GoString :=
  let d := rule.definition
  if rule.ruleType = str "bioc" then biocToSPL2 order rule.name d
  else if rule.ruleType = str "ioc" then iocToSPL2 d
  else if rule.ruleType = str "ueba" then uebaToSPL2 lib d
  else if d.source ≠ [] then
    str "dataset = " ++ d.source ++
      if d.condition ≠ [] then str " | filter " ++ d.condition else []
  else str "dataset = xsiam_endpoint | filter event_type = \"alert\""

/-- A query is one of those a rule stands for. -/
def RuleQuery (rule : RuleContent) (q : GoString) : Prop :=
  ∃ order : ℕ → MapRange, q = ruleToSPL2 lib order rule

end Rules

/-! ### Statuses -/

/-- `RuleStatusTransitions` -/
def ruleStatusTransitions (status : GoString) : List GoString :=
  if status = str "draft" then [str "testing", str "deprecated"]
  else if status = str "testing" then [str "active", str "draft"]
  else if status = str "active" then [str "disabled"]
  else if status = str "disabled" then [str "active", str "deprecated"]
  else []

/-- The statuses of the table. -/
def ruleStatuses : List GoString :=
  [str "draft", str "testing", str "active", str "disabled", str "deprecated"]

/-! ### Stores -/

/-- A document of the collection `detection_rules`. A patch may write anything, so the status is
any value of JSON, and the other fields may be such that they cannot be decoded. -/
structure Doc where
  status : Value
  content : Option RuleContent

/-- What `json.Unmarshal` makes of the status. -/
def decodeStatus : Value → Option GoString
  | .str s => some s
  | .null => some []
  | _ => none

/-- A patch: the status it writes, if any, and what its other fields make of the rest of the rule. -/
structure Patch where
  status : Option Value := none
  content : Option RuleContent → Option RuleContent := id

/-- A document as a patch leaves it. -/
def Patch.apply (patch : Patch) (d : Doc) : Doc :=
  ⟨patch.status.getD d.status, patch.content d.content⟩

/-- `SavedSearch` -/
structure SavedSearch where
  name : GoString
  search : GoString
  cronExpr : GoString
  alertType : GoString
  alertComparator : GoString
  alertThreshold : GoString
  webhookURL : GoString
  actionWebhook : ℕ

/-- The saved searches of a data lake, as far as their names go: one is registered under its
name, and deleted by it. What happens to one that is registered under a name in use is left open. -/
structure DataLake (σ : Type) where
  empty : σ
  create : σ → SavedSearch → σ
  delete : σ → GoString → σ
  /-- The query registered under a name. -/
  find : σ → GoString → Option GoString
  find_empty : ∀ name, find empty name = none
  find_create : ∀ s ss, find s ss.name = none → ∀ name,
    find (create s ss) name = if name = ss.name then some ss.search else find s name
  find_delete : ∀ s name name', find (delete s name) name' = if name' = name then none else find s name'

/-- The rules, by their keys, and the data lake. -/
structure State (σ : Type) where
  rules : GoMap Doc
  lake : σ

/-- How the calls of a request to the database go, and in which orders its loops meet the entries
of maps. -/
structure Answers where
  /-- Whether a document can be read. -/
  read : Bool := true
  /-- Whether a write succeeds, by its place. -/
  write : ℕ → Bool := fun _ => true
  order : ℕ → MapRange := fun _ => .byKey

/-! ### The repository -/

/-- `RuleRepo.GetByID`: the status of a rule, and the rest. -/
def getByID (rules : GoMap Doc) (key : GoString) (read : Bool) : Option (GoString × RuleContent) :=
  if read then
    rules[key]?.bind fun d => (decodeStatus d.status).bind fun status => d.content.map (status, ·)
  else none

/-- `RuleRepo.Update`, or `none` where it fails. -/
def update (rules : GoMap Doc) (key : GoString) (patch : Patch) (write : Bool) : Option (GoMap Doc) :=
  if write then rules[key]?.map fun d => rules.insert key (patch.apply d) else none

/-! ### Requests -/

/-- A request. -/
inductive Request where
  /-- `Create`: the key is the one of the body, or else chosen by the database. -/
  | create (key : GoString) (content : RuleContent)
  | update (key : GoString) (patch : Patch)
  | bulkToggle (action : GoString) (keys ids : List GoString)
  | transitionStatus (key newStatus : GoString)
  | delete (key : GoString)

section Handlers

variable {σ : Type} (lake : DataLake σ) (lib : StdLib) (webhookURL : GoString)

/-- `RuleService.Create`. A key that is taken is refused by the database. -/
def create (s : State σ) (key : GoString) (content : RuleContent) (ans : Answers) : State σ :=
  if ans.write 0 = true ∧ s.rules[key]? = none then
    { s with rules := s.rules.insert key ⟨.str (str "draft"), some content⟩ }
  else s

/-- The status that an action of the bulk toggle writes. -/
def toggleStatus (action : GoString) : Option GoString :=
  if action = str "enable" then some (str "active")
  else if action = str "disable" then some (str "inactive")
  else none

/-- The loop of `BulkToggle`; `n` counts the writes. -/
def toggleAll (write : ℕ → Bool) (status : GoString) : List GoString → ℕ → GoMap Doc → GoMap Doc
  | [], _, rules => rules
  | key :: keys, n, rules =>
    toggleAll write status keys (n + 1)
      ((update rules key { status := some (.str status) } (write n)).getD rules)

/-- `RuleHandler.BulkToggle` -/
def bulkToggle (s : State σ) (action : GoString) (keys ids : List GoString) (ans : Answers) : State σ :=
  let keys := if keys = [] then ids else keys
  match toggleStatus action with
  | none => s
  | some status => { s with rules := toggleAll ans.write status keys 0 s.rules }

/-- The saved search of a rule. -/
def savedSearch (order : ℕ → MapRange) (content : RuleContent) : SavedSearch where
  name := content.name
  search := ruleToSPL2 lib order content
  cronExpr := str "*/5 * * * *"
  alertType := str "number of events"
  alertComparator := str "greater than"
  alertThreshold := str "0"
  webhookURL := webhookURL
  actionWebhook := 1

/-- What `TransitionStatus` does to the data lake. -/
def deploy (s : σ) (target : GoString) (content : RuleContent) (order : ℕ → MapRange) : σ :=
  if target = str "active" then lake.create s (savedSearch lib webhookURL order content)
  else if target = str "disabled" ∨ target = str "deprecated" then lake.delete s content.name
  else s

/-- `RuleService.TransitionStatus` -/
def transitionStatus (s : State σ) (key target : GoString) (ans : Answers) : State σ :=
  match getByID s.rules key ans.read with
  | none => s
  | some (status, content) =>
    if target ∈ ruleStatusTransitions status then
      match update s.rules key { status := some (.str target) } (ans.write 0) with
      | none => s
      | some rules => ⟨rules, deploy lake lib webhookURL s.lake target content ans.order⟩
    else s

/-- `RuleService.Delete` -/
def delete (s : State σ) (key : GoString) (ans : Answers) : State σ :=
  match getByID s.rules key ans.read with
  | none => s
  | some (status, content) =>
    ⟨if ans.write 0 then s.rules.erase key else s.rules,
      if status = str "active" then lake.delete s.lake content.name else s.lake⟩

/-- A request handled. -/
def handle (s : State σ) (req : Request × Answers) : Option (State σ) :=
  match req.1 with
  | .create key content => some (create s key content req.2)
  | .update key patch => some { s with rules := (update s.rules key patch (req.2.write 0)).getD s.rules }
  | .bulkToggle action keys ids => some (bulkToggle s action keys ids req.2)
  | .transitionStatus key newStatus =>
    some (transitionStatus lake lib webhookURL s key newStatus req.2)
  | .delete key => some (delete lake s key req.2)

/-- No rules, and nothing saved. -/
def State.init : State σ := ⟨∅, lake.empty⟩

end Handlers

/-! ### What a request does to one rule -/

/-- What a rule that is read is stored as. -/
theorem status_of_getByID {rules : GoMap Doc} {key status : GoString} {content : RuleContent} {read : Bool}
    (h : getByID rules key read = some (status, content)) :
    ∃ d, rules[key]? = some d ∧ decodeStatus d.status = some status ∧ d.content = some content := by
  rw [getByID] at h
  split_ifs at h
  obtain ⟨d, hd, h⟩ := Option.bind_eq_some_iff.mp h
  obtain ⟨status', hstatus, h⟩ := Option.bind_eq_some_iff.mp h
  obtain ⟨content', hcontent, heq⟩ := Option.map_eq_some_iff.mp h
  obtain ⟨rfl, rfl⟩ := Prod.mk.inj heq
  exact ⟨d, hd, hstatus, hcontent⟩

theorem getElem?_update {rules rules' : GoMap Doc} {key : GoString} {patch : Patch} {write : Bool}
    (h : update rules key patch write = some rules') (k : GoString) :
    rules'[k]? = if k = key then rules[k]?.map patch.apply else rules[k]? := by
  rw [update] at h
  split_ifs at h
  obtain ⟨d, hd, rfl⟩ := Option.map_eq_some_iff.mp h
  rw [GoMap.getElem?_insert]
  split_ifs with hk
  · rw [hk, hd, Option.map_some]
  · rfl

/-- An update that may fail. -/
theorem getElem?_update_getD (rules : GoMap Doc) (key : GoString) (patch : Patch) (write : Bool)
    (k : GoString) :
    ((update rules key patch write).getD rules)[k]? =
      if write = true ∧ k = key then rules[k]?.map patch.apply else rules[k]? := by
  cases h : update rules key patch write with
  | some rules' =>
    have hwrite : write = true := by
      by_contra hne
      rw [update, if_neg hne] at h
      exact absurd h (by simp)
    rw [Option.getD_some, getElem?_update h]
    simp [hwrite]
  | none =>
    rw [Option.getD_none]
    split_ifs with hk
    · rw [update, if_pos hk.1, Option.map_eq_none_iff] at h
      rw [hk.2, h, Option.map_none]
    · rfl

/-- A key of the bulk toggle whose write succeeds. -/
def Toggled (write : ℕ → Bool) (keys : List GoString) (n : ℕ) (key : GoString) : Prop :=
  ∃ i, keys[i]? = some key ∧ write (n + i) = true

theorem toggled_cons {write : ℕ → Bool} {k : GoString} {keys : List GoString} {n : ℕ} {key : GoString} :
    Toggled write (k :: keys) n key ↔ (write n = true ∧ key = k) ∨ Toggled write keys (n + 1) key := by
  constructor
  · rintro ⟨i, hi, hwrite⟩
    rcases i with _ | i
    · exact Or.inl ⟨hwrite, (Option.some.inj hi).symm⟩
    · exact Or.inr ⟨i, hi, by rwa [Nat.add_assoc, Nat.add_comm 1 i]⟩
  · rintro (⟨hwrite, rfl⟩ | ⟨i, hi, hwrite⟩)
    · exact ⟨0, rfl, hwrite⟩
    · exact ⟨i + 1, hi, by rwa [Nat.add_assoc, Nat.add_comm 1 i] at hwrite⟩

/-- The bulk toggle writes the status of the rules it reaches. -/
theorem getElem?_toggleAll {write : ℕ → Bool} {status : GoString} : ∀ (keys : List GoString) (n : ℕ)
    (rules : GoMap Doc) (k : GoString),
    (Toggled write keys n k → (toggleAll write status keys n rules)[k]? =
      rules[k]?.map fun d => ⟨.str status, d.content⟩) ∧
    (¬Toggled write keys n k → (toggleAll write status keys n rules)[k]? = rules[k]?)
  | [], n, rules, k => ⟨fun ⟨i, hi, _⟩ => absurd hi (by simp), fun _ => rfl⟩
  | key :: keys, n, rules, k => by
    obtain ⟨hpos, hneg⟩ := getElem?_toggleAll keys (n + 1)
      ((update rules key { status := some (.str status) } (write n)).getD rules) k
    rw [getElem?_update_getD] at hpos hneg
    rw [toggleAll, toggled_cons]
    by_cases htail : Toggled write keys (n + 1) k
    · refine ⟨fun _ => ?_, fun hnot => absurd (Or.inr htail) hnot⟩
      rw [hpos htail]
      -- the status is written once more
      split_ifs
      · rw [Option.map_map]
        rfl
      · rfl
    · rw [or_iff_left htail, hneg htail]
      refine ⟨fun hk => ?_, fun hk => if_neg hk⟩
      rw [if_pos hk]
      rfl

/-! ### A data lake and a rule -/

/-- A data lake that is a map of the searches by their names. -/
def mapLake : DataLake (GoMap GoString) where
  empty := ∅
  create s ss := s.insert ss.name ss.search
  delete s name := s.erase name
  find s name := s[name]?
  find_empty := fun name => by simp
  find_create := fun s ss _ name => GoMap.getElem?_insert s ss.name name ss.search
  find_delete := fun s name name' => GoMap.getElem?_erase s name name'

/-- A rule. -/
def ruleR : RuleContent := ⟨str "R", str "bioc", {}⟩

end Threat

end Xsiam
