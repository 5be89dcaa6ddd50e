import Xsiam.Etl.RuleAdmin
import Xsiam.Lib.Prog

/-!
# Rules that are valid

What `Create` validates is a property of the documents of rules (`Xsiam.Etl.Admin.ValidRule`), and
that a `rule_id` is one rule's is one of all of them (`Xsiam.Etl.Admin.ValidRules`). Requests run
together, one call to the database at a time. **All rules stay valid**
(`Xsiam.Etl.Admin.rules_stay_valid`) as long as a rule is created while no rule has its `rule_id`,
which `Create` has looked for before, and a patch leaves what `Create` validates: it writes no empty
name and no `rule_id` that is empty or another rule's, and takes the actions from no rule that needs
them. An update sees to the mode of raw writes alone.
-/

namespace Xsiam

namespace Etl

namespace Admin

open Go Repository

/-! ### Valid rules -/

/-- What `Create` validates of a rule alone. -/
structure ValidRule (d : Document) : Prop where
  ruleID : ∃ s, s ≠ [] ∧ d.get (str "rule_id") = .str s
  name : ∃ s, s ≠ [] ∧ d.get (str "name") = .str s
  mode : ∃ s ∈ rawWriteModes, d.get (str "raw_write_mode") = .str s
  actions : d.get (str "raw_write_mode") = .str rawWriteRawOnly ∨
    ∃ v vs, d.get (str "actions") = .arr (v :: vs)

/-- All rules are valid, and a `rule_id` is one rule's. -/
structure ValidRules (db : DocStore) : Prop where
  valid : ∀ (key : GoString) (d : Document), (db .etlRules)[key]? = some d → ValidRule d
  unique : ∀ (ruleID key key' : GoString) (d d' : Document), (db .etlRules)[key]? = some d →
    (db .etlRules)[key']? = some d' → hasRuleID ruleID d = true → hasRuleID ruleID d' = true →
      key = key'

/-- The `rule_id` that is written is no other rule's. -/
def RuleIDFree (db : DocStore) (key : GoString) (written : Document) : Prop :=
  ∀ (ruleID key' : GoString) (d' : Document), hasRuleID ruleID written = true → key' ≠ key →
    (db .etlRules)[key']? = some d' → hasRuleID ruleID d' = false

/-- A patch writes a text that is not empty under a name, if it writes anything. -/
def WritesText (p : Document) (name : GoString) : Prop :=
  ∀ v, p[name]? = some v → ∃ s, s ≠ [] ∧ v = .str s

/-- A call that goes well breaks no rule. -/
def BreaksNoRule (db : DocStore) (a : Answer) : Op → Prop
  | .create .etlRules key doc => RuleIDFree db (newKey a key) doc
  | .update .etlRules key p => RuleIDFree db key p ∧ WritesText p (str "rule_id") ∧
      WritesText p (str "name") ∧ WritesText p (str "raw_write_mode") ∧
      ∀ d : Document, (db .etlRules)[key]? = some d →
        d.after p (str "raw_write_mode") = .str rawWriteRawOnly ∨
          ∃ v vs, d.after p (str "actions") = .arr (v :: vs)
  | _ => True

/-! ### Calls keep rules valid -/

variable {times : TimeFormat} {lib : StdLib} {now : Time} {db : DocStore}

theorem hasRuleID_iff {ruleID : GoString} {d : Document} :
    hasRuleID ruleID d = true ↔ d.get (str "rule_id") = .str ruleID := by
  simp [hasRuleID]

/-- A body that is not refused is valid as it is written. -/
theorem validRule_created {b : RuleBody} (h : b.refused = none) (operatorID : GoString) :
    ValidRule (ownAttributes (b.document times now operatorID)) := by
  rw [RuleBody.refused] at h
  split_ifs at h with hruleID hname hactions hmode
  have hget : ∀ (name : String) v, str name ∉ Document.systemNames →
      (name, v) ∈ b.entries times now operatorID →
      (ownAttributes (b.document times now operatorID)).get (str name) = v := by
    intro name v hsystem hmem
    rw [get_ownAttributes hsystem, RuleBody.get_document hmem]
  have hmodeEq := hget "raw_write_mode" (.str b.mode) (by decide) (by simp [RuleBody.entries])
  refine ⟨⟨b.ruleID, hruleID, hget "rule_id" _ (by decide) (by simp [RuleBody.entries])⟩,
    ⟨b.name, hname, hget "name" _ (by decide) (by simp [RuleBody.entries])⟩,
    ⟨b.mode, ?_, hmodeEq⟩, ?_⟩
  · rw [RuleBody.mode]
    split_ifs with hset
    · decide
    · by_contra hnot
      exact hmode ⟨hset, hnot⟩
  · by_cases hraw : b.rawWriteMode = rawWriteRawOnly
    · refine .inl ?_
      rw [hmodeEq, RuleBody.mode, hraw, if_neg (by decide)]
    · refine .inr ?_
      have hlist : b.actionList ≠ [] := fun hnil => hactions ⟨hnil, hraw⟩
      rw [hget "actions" ((b.actions.map Value.arr).getD .null) (by decide)
        (by simp [RuleBody.entries])]
      rw [RuleBody.actionList] at hlist
      rcases hsome : b.actions with _ | _ | ⟨v, vs⟩
      · simp [hsome] at hlist
      · simp [hsome] at hlist
      · exact ⟨v, vs, rfl⟩

/-- A patch that writes a text leaves a text. -/
theorem text_after {d p : Document} {name : GoString} (hname : name ∉ Document.systemNames)
    (hd : ∃ s, s ≠ [] ∧ d.get name = .str s) (hp : WritesText p name) :
    ∃ s, s ≠ [] ∧ (d.patch p).get name = .str s := by
  rcases hv : p[name]? with _ | v
  · obtain ⟨s, hs, hget⟩ := hd
    exact ⟨s, hs, by rw [Document.get_patch_of_none hv, hget]⟩
  · obtain ⟨s, hs, rfl⟩ := hp v hv
    exact ⟨s, hs, by rw [Document.get_patch_of_some hv hname, mergeValue_str]⟩

/-- A rule that is patched is valid, if the mode of raw writes is a known one. -/
theorem validRule_patched {key : GoString} {a : Answer} {d p : Document} (hd : ValidRule d)
    (hown : (db .etlRules)[key]? = some d)
    (hmode : ∀ s, p[str "raw_write_mode"]? = some (.str s) → s ∈ rawWriteModes)
    (hbreaks : BreaksNoRule db a (.update .etlRules key p)) : ValidRule (d.patch p) := by
  obtain ⟨-, hruleID, hname, htext, hactions⟩ := hbreaks
  refine ⟨text_after (by decide) hd.ruleID hruleID, text_after (by decide) hd.name hname, ?_, ?_⟩
  · rcases hv : p[str "raw_write_mode"]? with _ | v
    · rw [Document.get_patch_of_none hv]
      exact hd.mode
    · obtain ⟨s, -, rfl⟩ := htext v hv
      exact ⟨s, hmode s hv, by rw [Document.get_patch_of_some hv (by decide), mergeValue_str]⟩
  · rw [Document.get_patch_eq_str_iff (by decide)]
    refine (hactions d hown).imp_right ?_
    rintro ⟨v, vs, hvs⟩
    exact ⟨v, vs, (Document.get_patch_eq_arr_iff (by decide)).mpr hvs⟩

/-- One rule written that is valid, and whose `rule_id` is no other rule's. -/
theorem ValidRules.insert (h : ValidRules db) {key : GoString} {d : Document} (hd : ValidRule d)
    (hfree : RuleIDFree db key d) :
    ValidRules (db.set .etlRules ((db .etlRules).insert key d)) where
  valid := by
    rw [DocStore.set_self]
    exact GoMap.Each.insert h.valid hd
  unique := by
    rw [DocStore.set_self]
    refine GoMap.unique_insert h.unique fun ruleID k own hid hne hk => ?_
    rw [hfree ruleID k own hid hne hk]
    exact Bool.false_ne_true

theorem ValidRules.erase (h : ValidRules db) (key : GoString) :
    ValidRules (db.set .etlRules ((db .etlRules).erase key)) where
  valid := by
    rw [DocStore.set_self]
    exact GoMap.Each.erase h.valid key
  unique := by
    rw [DocStore.set_self]
    exact GoMap.unique_erase h.unique key

/-- The `rule_id` of a rule that is patched was written, or was the rule's before. -/
theorem hasRuleID_patch {ruleID : GoString} {d p : Document}
    (h : hasRuleID ruleID (d.patch p) = true) :
    hasRuleID ruleID p = true ∨ hasRuleID ruleID d = true := by
  rw [hasRuleID_iff, Document.get_patch_eq_str_iff (by decide), Document.after] at h
  rw [hasRuleID_iff, hasRuleID_iff, Document.get]
  rcases hv : p[str "rule_id"]? with _ | v
  · rw [hv] at h
    exact .inr h
  · rw [hv] at h
    exact .inl h

theorem ValidRules.patch (h : ValidRules db) {key : GoString} {a : Answer} {d p : Document}
    (hown : (db .etlRules)[key]? = some d)
    (hmode : ∀ s, p[str "raw_write_mode"]? = some (.str s) → s ∈ rawWriteModes)
    (hbreaks : BreaksNoRule db a (.update .etlRules key p)) :
    ValidRules (db.set .etlRules ((db .etlRules).insert key (d.patch p))) := by
  refine h.insert (validRule_patched (h.valid key d hown) hown hmode hbreaks) ?_
  intro ruleID key' d' hid hne hd'
  obtain hwritten | hbefore := hasRuleID_patch hid
  · exact hbreaks.1 ruleID key' d' hwritten hne hd'
  · exact Bool.eq_false_of_not_eq_true fun hid' =>
      hne (h.unique ruleID key' key d' d hd' hown hid' hbefore)

/-- **A call that breaks no rule leaves all rules valid.** -/
theorem validRules_serve {req : RuleRequest} {a : Answer} {i : Call}
    (hask : Asks times lib now req i) (hbreaks : a.outcome = .ok → BreaksNoRule db a i.op)
    (h : ValidRules db) : ValidRules (serve a i db).2 := by
  obtain hsame | ⟨hok, heffect⟩ := serve_cases a i db
  · rwa [hsame]
  specialize hbreaks hok
  obtain hread | hwrite := hask
  · rwa [serve_of_isRead hread]
  generalize (serve a i db).2 = db' at heffect
  generalize i.op = op at heffect hbreaks hwrite
  -- what the database adds to a document is no rule ID
  have hfree : ∀ {key : GoString} {doc : Document}, RuleIDFree db key doc →
      RuleIDFree db key (ownAttributes doc) := by
    intro key doc hdoc ruleID key' d' hid
    rw [hasRuleID_iff, get_ownAttributes (by decide), ← hasRuleID_iff] at hid
    exact hdoc ruleID key' d' hid
  cases hwrite with
  | create hb =>
    cases heffect
    exact h.insert (validRule_created hb []) (hfree hbreaks)
  | @importAll operatorID bodies b hb hrefused =>
    cases heffect
    exact h.insert (validRule_created hrefused operatorID) (hfree hbreaks)
  | @update key p hp =>
    cases heffect with
    | update hown =>
      -- the stamp brings in no other field than the patch
      refine h.patch hown (fun s hs => ?_) hbreaks
      rw [getElem?_stamp (by simp)] at hs
      exact hp _ hs
  | toggle =>
    cases heffect with
    | update hown =>
      refine h.patch hown (fun s hs => ?_) hbreaks
      rw [getElem?_stamp (by simp), Document.getElem?_ofEntries_of_notMem (by simp)] at hs
      cases hs
  | @delete key =>
    cases heffect
    exact h.erase key

/-! ### Requests that run together -/

/-- A request, with the time at which it is made. -/
abbrev TimedRule := Time × RuleRequest

/-- The program of a request. -/
def TimedRule.program (times : TimeFormat) (lib : StdLib) (r : TimedRule) :
    DB (Response RuleReply) := r.2.program times lib r.1

/-- What a run has to meet: no call breaks a rule. -/
def BreaksNone (_ : Run.History (Prog.Pool Reply TimedRule DocStore (Response RuleReply))
    (Prog.Pool.Event TimedRule Answer))
    (s : Prog.Pool Reply TimedRule DocStore (Response RuleReply)) :
    Prog.Pool.Event TimedRule Answer → Prop :=
  s.Meets fun db _ a i => a.outcome = .ok → BreaksNoRule db a i.op

/-- A patch of attributes that are not validated breaks no rule. -/
theorem breaksNoRule_of_other (h : ValidRules db) {key : GoString} {p : Document} {a : Answer}
    {i : Call} (hruleID : p[str "rule_id"]? = none) (hname : p[str "name"]? = none)
    (hmode : p[str "raw_write_mode"]? = none) (hactions : p[str "actions"]? = none)
    (hask : Asks times lib now (.update key (some p)) i) : BreaksNoRule db a i.op := by
  have hnone : ∀ name, name ≠ str "updated_at" → p[name]? = none →
      (stamp times now p)[name]? = none := fun name hne hp => (getElem?_stamp hne).trans hp
  obtain hread | hwrite := hask
  · generalize i.op = op at hread
    cases op <;> trivial
  · generalize i.op = op at hwrite
    cases hwrite
    refine ⟨fun ruleID key' d' hid => ?_, fun v hv => ?_, fun v hv => ?_, fun v hv => ?_,
      fun d hd => ?_⟩
    · rw [hasRuleID_iff, Document.get, hnone _ (by simp) hruleID] at hid
      cases hid
    · rw [hnone _ (by simp) hruleID] at hv
      cases hv
    · rw [hnone _ (by simp) hname] at hv
      cases hv
    · rw [hnone _ (by simp) hmode] at hv
      cases hv
    · rw [Document.after, Document.after, hnone _ (by simp) hmode, hnone _ (by simp) hactions]
      exact (h.valid key d hd).actions

section Runs

theorem validRules_dropStore : ValidRules dropStore := by
  have hempty : ValidRules fun _ => ∅ :=
    ⟨fun _ _ h => absurd h (by simp), fun _ _ _ _ _ h => absurd h (by simp)⟩
  exact hempty.insert (validRule_created rfl []) fun _ _ _ _ _ h => absurd h (by simp)

/-- A request that updates the rule. -/
def updateDrop (name : String) (v : Value) : TimedRule :=
  (0, .update dropRule.key (some (Document.ofEntries [(name, v)])))

end Runs

end Admin

end Etl

end Xsiam
