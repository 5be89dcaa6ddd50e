import Xsiam.Etl.RuleAdmin
import Xsiam.Repository.Jobs

/-!
# Rules of tenants

What a tenant gets of the rules, and what it makes of them (`Xsiam.Etl.Admin.Isolated`). A list asks
for the tenant's rules; the statistics and the export ask for the first hundred of all. A rule that
is created is the caller's, one that is imported is whose the body says it is, and either is refused
where any tenant has its `rule_id`.

So a list is always the tenant's own, and of the other requests it is said exactly when they are
(`Xsiam.Etl.Admin.requestsIsolated_iff`): the first page of all rules has the tenant's only, and every rule
that would be created if there were no rules but the tenant's is the tenant's and has neither a
`rule_id` nor a key of another tenant's rule.
-/

namespace Xsiam

namespace Etl

namespace Admin

open Go Repository

/-! ### Lists -/

/-- `LENGTH(v) == 0` -/
def hasNoLength : Value → Bool
  | .null | .bool false => true
  | .str s => s = []
  | .arr vs => vs.isEmpty
  | .obj kvs => kvs.isEmpty
  | _ => false

/-- `v IN w` -/
def isIn (v : Value) : Value → Bool
  | .arr vs => vs.contains v
  | _ => false

/-- `doc.match.dataset` -/
def matchDataset (d : Document) : Value :=
  match d.get (str "match") with
  | .obj kvs => entryValue kvs (str "dataset")
  | _ => .null

/-- The options `ETLRuleRepo.List` hands to `FindPaged`, on documents. -/
def docList (f : ETLRuleListFilter) : ListOptions Document where
  collection := f.toList.collection
  filters :=
    equalFilter "doc.tenant_id == @tenant_id" (f.tenantID ≠ [])
        (fun d => d.get (str "tenant_id") = .str f.tenantID) ++
      equalFilter "doc.is_enabled == @is_enabled" f.isEnabled.isSome
        (fun d => f.isEnabled.map Value.bool = some (d.get (str "is_enabled"))) ++
      equalFilter "(LENGTH(doc.match.dataset) == 0 OR @dataset IN doc.match.dataset)"
        (f.dataset ≠ []) (fun d => hasNoLength (matchDataset d) ||
          isIn (.str f.dataset) (matchDataset d))
  bindVars := f.toList.bindVars
  sortBy := f.toList.sortBy
  page := f.page
  pageSize := f.pageSize

/-- The rules, and the orders the database can put them into. -/
structure RuleStore where
  db : DocStore
  sort : GoString → Bool → List Document → List Document
  perm : ∀ key desc ds, (sort key desc ds).Perm ds
  other : GoString → GoMap Value → Except GoString (List Document)

/-- The documents of the rules, with their keys. -/
def ruleDocs (db : DocStore) : List Document := matching .byKey (db .etlRules) fun _ => true

/-- The collection of the rules. -/
def RuleStore.collection (s : RuleStore) : DBCollection Document where
  docs := ruleDocs s.db
  sort := s.sort
  perm := s.perm
  other := s.other

section Lists

variable (times : TimeFormat) (s : RuleStore)

/-- All documents of a page can be read as rules. -/
def areRules (ds : List Document) : Bool := ds.all fun d => d.Reads times ruleFields

/-- What a list is made of a page. -/
def readPage : Except GoString (List Document × PageMeta) →
    Except GoString (List Document × PageMeta)
  | .error msg => .error (str "etl_rule list: " ++ msg)
  | .ok (ds, pageMeta) =>
    if areRules times ds then .ok (ds, pageMeta)
    else .error (str "etl_rule list: page read: json: cannot unmarshal")

/-- `Service.List`, which fails on a page with a document that is no rule. -/
def serviceList (f : ETLRuleListFilter) : Except GoString (List Document × PageMeta) :=
  readPage times (findPaged s.collection (docList f))

/-- `Handler.List`, for the tenant and with the parameters of a request. -/
def handleList (tenantID dataset : GoString) (isEnabled : Option Bool) :
    Except GoString (List Document × PageMeta) :=
  serviceList times s { tenantID, isEnabled, dataset, page := 1, pageSize := 50 }

/-- The rules that the statistics count and the export has; none where the list fails. -/
def allRules : List Document :=
  match serviceList times s { pageSize := 10000, page := 1 } with
  | .ok (ds, _) => ds
  | .error _ => []

/-- What `Handler.Stats` answers. -/
structure RuleStats where
  total : ℕ
  enabled : ℕ
  disabled : ℕ

/-- The statistics of rules. -/
def RuleStats.ofRules (ds : List Document) : RuleStats where
  total := ds.length
  enabled := ds.countP fun d => d.flag (str "is_enabled")
  disabled := ds.countP fun d => !d.flag (str "is_enabled")

/-- `Handler.Stats` -/
def handleStats : RuleStats := .ofRules (allRules times s)

/-- `Handler.Export` -/
def handleExport : List Document := allRules times s

end Lists

/-- `ETLRuleRepo.FindEnabledForTenant`, which loads the rules of one tenant, or all where none is
given. -/
def enabledFor (tenantID : GoString) (d : Document) : Bool :=
  (tenantID = [] || d.get (str "tenant_id") = .str tenantID) &&
    d.get (str "is_enabled") = .bool true

/-! ### Creation -/

/-- How a call goes where the repository looks whether it has got its collection, as that of rules
does: it may fail, but the program does not go down. -/
def steady (answers : Call → Answer) (i : Call) : Answer :=
  { answers i with outcome := match (answers i).outcome with
      | .down => .failed (str "etl_rules collection")
      | outcome => outcome }

theorem steady_ne_down (answers : Call → Answer) (i : Call) :
    (steady answers i).outcome ≠ .down := by
  rw [steady]
  rcases (answers i).outcome with _ | msg | _ <;> exact Repository.Outcome.noConfusion

/-- The rules of a tenant alone. -/
def onlyOf (tenantID : GoString) (db : DocStore) : DocStore :=
  db.set .etlRules ((db .etlRules).filter fun _ d => d.get (str "tenant_id") = .str tenantID)

theorem getElem?_onlyOf (tenantID : GoString) (db : DocStore) (key : GoString) (d : Document) :
    (onlyOf tenantID db .etlRules)[key]? = some d ↔
      (db .etlRules)[key]? = some d ∧ d.get (str "tenant_id") = .str tenantID := by
  rw [onlyOf, DocStore.set_self, Std.ExtTreeMap.getElem?_filter']
  simp [Option.filter_eq_some_iff]

section Create

variable (times : TimeFormat) (now : Time) (answers : Call → Answer) (operatorID : GoString)

/-- The call that looks for a rule. -/
def findCall (b : RuleBody) (place : List ℕ) : Call :=
  Call.mk (.find .etlRules (hasRuleID b.ruleID)) place

/-- The call that creates it. -/
def createCall (b : RuleBody) (place : List ℕ) : Call :=
  Call.mk (.create .etlRules b.key (b.document times now operatorID)) place

/-- The key that a rule gets. -/
def keyOf (b : RuleBody) (place : List ℕ) : GoString :=
  newKey (answers (createCall times now operatorID b place)) b.key

/-- A rule is created: its body is not refused, the calls go well, and no rule has its `rule_id` or
its key. -/
structure Creates (b : RuleBody) (place : List ℕ) (db : DocStore) : Prop where
  accepted : b.refused = none
  found : (answers (findCall b place)).outcome = .ok
  fresh : ∀ (key : GoString) (d : Document), (db .etlRules)[key]? = some d → hasRuleID b.ruleID d = false
  done : (answers (createCall times now operatorID b place)).outcome = .ok
  free : (db .etlRules)[keyOf times now answers operatorID b place]? = none

/-- The database behind the creation of a rule. -/
def created (b : RuleBody) (place : List ℕ) (db : DocStore) : DocStore :=
  db.set .etlRules ((db .etlRules).insert (keyOf times now answers operatorID b place)
    (ownAttributes (b.document times now operatorID)))

variable {times now answers operatorID} {b : RuleBody} {place : List ℕ} {db : DocStore}

/-- Nothing is found where no rule has the `rule_id`. -/
theorem head?_matching_eq_none_iff {order : MapRange} {docs : GoMap Document} {ruleID : GoString} :
    (matching order docs (hasRuleID ruleID)).head? = none ↔
      ∀ (key : GoString) (d : Document), docs[key]? = some d → hasRuleID ruleID d = false := by
  rw [List.head?_eq_none_iff, List.eq_nil_iff_forall_not_mem]
  constructor
  · intro h key d hd
    by_contra hid
    exact h _ (mem_matching_iff.mpr ⟨key, d, hd, by simpa using hid, rfl⟩)
  · rintro h d hd
    obtain ⟨key, own, hown, hid, -⟩ := mem_matching_iff.mp hd
    rw [h key own hown] at hid
    cases hid

/-- **What `Service.Create` does.** -/
theorem run_serviceCreate (hsteady : ∀ i, (answers i).outcome ≠ .down) (times : TimeFormat)
    (now : Time) (operatorID : GoString) (b : RuleBody) (place : List ℕ) (db : DocStore) :
    (Creates times now answers operatorID b place db ∧
      ∃ key, Prog.run (serveAll answers) (serviceCreate times now b operatorID place) db =
        (some (.ok key), created times now answers operatorID b place db)) ∨
    (¬Creates times now answers operatorID b place db ∧
      ∃ msg, Prog.run (serveAll answers) (serviceCreate times now b operatorID place) db =
        (some (.error msg), db)) := by
  rw [serviceCreate]
  rcases hrefused : b.refused with _ | msg
  swap
  · exact .inr ⟨fun h => Option.some_ne_none _ (hrefused.symm.trans h.accepted), msg, rfl⟩
  dsimp only
  rw [createNew, Prog.run_bind, findByRuleID, Prog.run_bind, run_findDoc]
  rcases hfind : (answers (Call.mk (.find .etlRules (hasRuleID b.ruleID)) place)).outcome
    with _ | msg | _
  · rcases hfirst : (matching (answers (Call.mk (.find .etlRules (hasRuleID b.ruleID)) place)).order
      (db .etlRules) (hasRuleID b.ruleID)).head? with _ | d
    · have hfresh := head?_matching_eq_none_iff.mp hfirst
      dsimp only [Prog.pure_eq, Prog.run_done]
      rw [Prog.run_bind, run_createDoc]
      rcases hcreate : (answers (Call.mk (.create .etlRules b.key
        (b.document times now operatorID)) place)).outcome with _ | msg | _
      · rcases hkey : (db .etlRules)[newKey (answers (Call.mk (.create .etlRules b.key
          (b.document times now operatorID)) place)) b.key]? with _ | d
        · exact .inl ⟨⟨hrefused, hfind, hfresh, hcreate, hkey⟩, _, rfl⟩
        · exact .inr ⟨fun h => Option.some_ne_none _ (hkey.symm.trans h.free), _, rfl⟩
      · exact .inr ⟨fun h => Repository.Outcome.noConfusion (hcreate.symm.trans h.done), _, rfl⟩
      · exact absurd hcreate (hsteady _)
    · -- the rule ID is taken, whether the rule that has it can be read or not
      have hnot : ¬Creates times now answers operatorID b place db := fun h =>
        Option.some_ne_none _ (hfirst.symm.trans (head?_matching_eq_none_iff.mpr h.fresh))
      refine .inr ⟨hnot, ?_⟩
      by_cases hreads : d.Reads times ruleFields
      · simp only [hreads, if_true]
        exact ⟨_, rfl⟩
      · simp only [hreads, if_false]
        exact ⟨_, rfl⟩
  · exact .inr ⟨fun h => Repository.Outcome.noConfusion (hfind.symm.trans h.found), _, rfl⟩
  · exact absurd hfind (hsteady _)

/-! ### One rule -/

/-- A rule that would be created if there were no rules but the tenant's is the tenant's, and no
other tenant's rule has its `rule_id` or its key. -/
def StepOwn (times : TimeFormat) (now : Time) (answers : Call → Answer) (operatorID : GoString)
    (tenantID : GoString) (b : RuleBody) (place : List ℕ) (db : DocStore) : Prop :=
  Creates times now answers operatorID b place (onlyOf tenantID db) →
    b.tenantID = tenantID ∧ ∀ (key : GoString) (d : Document), (db .etlRules)[key]? = some d →
      d.get (str "tenant_id") ≠ .str tenantID →
        hasRuleID b.ruleID d = false ∧ key ≠ keyOf times now answers operatorID b place

variable {tenantID : GoString}

/-- What is created among all rules is created among the tenant's. -/
theorem Creates.onlyOf (h : Creates times now answers operatorID b place db) :
    Creates times now answers operatorID b place (Admin.onlyOf tenantID db) where
  accepted := h.accepted
  found := h.found
  fresh key d hd := h.fresh key d ((getElem?_onlyOf ..).mp hd).1
  done := h.done
  free := by
    rw [Option.eq_none_iff_forall_ne_some]
    intro d hd
    exact absurd (h.free.symm.trans ((getElem?_onlyOf ..).mp hd).1) (by simp)

theorem stepOwn_iff : StepOwn times now answers operatorID tenantID b place db ↔
    (Creates times now answers operatorID b place db ↔
      Creates times now answers operatorID b place (onlyOf tenantID db)) ∧
    (Creates times now answers operatorID b place db → b.tenantID = tenantID) := by
  constructor
  · intro hown
    refine ⟨⟨Creates.onlyOf, fun h => ?_⟩, fun h => (hown h.onlyOf).1⟩
    obtain ⟨-, hothers⟩ := hown h
    refine ⟨h.accepted, h.found, fun key d hd => ?_, h.done, ?_⟩
    · by_cases htenant : d.get (str "tenant_id") = .str tenantID
      · exact h.fresh key d ((getElem?_onlyOf ..).mpr ⟨hd, htenant⟩)
      · exact (hothers key d hd htenant).1
    · rw [Option.eq_none_iff_forall_ne_some]
      intro d hd
      by_cases htenant : d.get (str "tenant_id") = .str tenantID
      · exact absurd (h.free.symm.trans ((getElem?_onlyOf ..).mpr ⟨hd, htenant⟩)) (by simp)
      · exact (hothers _ d hd htenant).2 rfl
  · rintro ⟨hsame, htenant⟩ h
    have hfull := hsame.mpr h
    refine ⟨htenant hfull, fun key d hd _ => ⟨hfull.fresh key d hd, ?_⟩⟩
    rintro rfl
    exact absurd (hfull.free.symm.trans hd) (by simp)

theorem get_created (b : RuleBody) : (ownAttributes (b.document times now operatorID)).get
    (str "tenant_id") = .str b.tenantID := by
  rw [get_ownAttributes (by decide), RuleBody.get_document (v := .str b.tenantID) (by simp [RuleBody.entries])]

/-- A rule of the tenant is created among the tenant's. -/
theorem onlyOf_created (h : b.tenantID = tenantID) :
    onlyOf tenantID (created times now answers operatorID b place db) =
      created times now answers operatorID b place (onlyOf tenantID db) := by
  funext c
  by_cases hc : c = .etlRules
  · subst hc
    refine Std.ExtTreeMap.ext_getElem? fun key => Option.ext fun d => ?_
    rw [getElem?_onlyOf, created, DocStore.set_self, GoMap.getElem?_insert, created,
      DocStore.set_self, GoMap.getElem?_insert]
    split_ifs
    · constructor
      · exact fun hd => hd.1
      · rintro hd
        refine ⟨hd, ?_⟩
        rw [← Option.some.inj hd, get_created, h]
    · exact (getElem?_onlyOf ..).symm
  · rw [onlyOf, DocStore.set_apply, if_neg hc, created, DocStore.set_apply, if_neg hc, created,
      DocStore.set_apply, if_neg hc, onlyOf, DocStore.set_apply, if_neg hc]

/-! ### Many rules -/

variable (times now answers operatorID) in
/-- Whether a rule is created. -/
def isCreated (b : RuleBody) (place : List ℕ) (db : DocStore) : Bool :=
  ((Prog.run (serveAll answers) (serviceCreate times now b operatorID place) db).1.bind
    Except.toOption).isSome

variable (times now answers operatorID) in
/-- The database behind that. -/
def afterCreate (b : RuleBody) (place : List ℕ) (db : DocStore) : DocStore :=
  (Prog.run (serveAll answers) (serviceCreate times now b operatorID place) db).2

theorem isCreated_iff (hsteady : ∀ i, (answers i).outcome ≠ .down) :
    isCreated times now answers operatorID b place db = true ↔
      Creates times now answers operatorID b place db := by
  rw [isCreated]
  obtain ⟨h, key, hrun⟩ | ⟨h, msg, hrun⟩ := run_serviceCreate hsteady times now operatorID b
    place db
  · rw [hrun]
    exact iff_of_true rfl h
  · rw [hrun]
    exact iff_of_false (by simp [Except.toOption]) h

theorem afterCreate_of (hsteady : ∀ i, (answers i).outcome ≠ .down)
    (h : Creates times now answers operatorID b place db) :
    afterCreate times now answers operatorID b place db =
      created times now answers operatorID b place db := by
  rw [afterCreate]
  obtain ⟨-, key, hrun⟩ | ⟨hnot, -⟩ := run_serviceCreate hsteady times now operatorID b place db
  · rw [hrun]
  · exact absurd h hnot

theorem afterCreate_of_not (hsteady : ∀ i, (answers i).outcome ≠ .down)
    (h : ¬Creates times now answers operatorID b place db) :
    afterCreate times now answers operatorID b place db = db := by
  rw [afterCreate]
  obtain ⟨hcreates, -⟩ | ⟨-, msg, hrun⟩ :=
    run_serviceCreate hsteady times now operatorID b place db
  · exact absurd hcreates h
  · rw [hrun]

variable (times now answers operatorID) in
/-- Which rules of an import are created. -/
def importFlags : List RuleBody → ℕ → DocStore → List Bool
  | [], _, _ => []
  | b :: bodies, i, db => isCreated times now answers operatorID { b with key := [] } [i] db ::
      importFlags bodies (i + 1)
        (afterCreate times now answers operatorID { b with key := [] } [i] db)

variable (times now answers operatorID) in
/-- The database behind an import. -/
def importStore : List RuleBody → ℕ → DocStore → DocStore
  | [], _, db => db
  | b :: bodies, i, db => importStore bodies (i + 1)
      (afterCreate times now answers operatorID { b with key := [] } [i] db)

theorem run_importLoop (hsteady : ∀ i, (answers i).outcome ≠ .down) {bodies : List RuleBody} :
    ∀ i db, Prog.run (serveAll answers) (importLoop times now operatorID bodies i) db =
      (some (importFlags times now answers operatorID bodies i db),
        importStore times now answers operatorID bodies i db) := by
  induction bodies with
  | nil => exact fun i db => rfl
  | cons b bodies ih =>
    intro i db
    rw [importLoop, Prog.run_bind, importFlags, importStore, isCreated, afterCreate]
    obtain ⟨-, key, hrun⟩ | ⟨-, msg, hrun⟩ :=
      run_serviceCreate hsteady times now operatorID { b with key := [] } [i] db
    · rw [hrun]
      dsimp only
      rw [Prog.run_bind, ih]
      rfl
    · rw [hrun]
      dsimp only
      rw [Prog.run_bind, ih]
      rfl

/-- Every rule of an import is as `Xsiam.Etl.Admin.StepOwn` says when its turn comes. -/
def ImportOwn (times : TimeFormat) (now : Time) (answers : Call → Answer)
    (operatorID tenantID : GoString) : List RuleBody → ℕ → DocStore → Prop
  | [], _, _ => True
  | b :: bodies, i, db =>
    StepOwn times now answers operatorID tenantID { b with key := [] } [i] db ∧
      ImportOwn times now answers operatorID tenantID bodies (i + 1)
        (afterCreate times now answers operatorID { b with key := [] } [i] db)

/-- The rules that are new are the tenant's. -/
def NewOwn (tenantID : GoString) (before after : DocStore) : Prop :=
  ∀ (key : GoString) (d : Document), (after .etlRules)[key]? = some d →
    (before .etlRules)[key]? = none → d.get (str "tenant_id") = .str tenantID

/-- What is stored stays. -/
theorem afterCreate_keeps (hsteady : ∀ i, (answers i).outcome ≠ .down) {key : GoString}
    {d : Document} (hd : (db .etlRules)[key]? = some d) :
    (afterCreate times now answers operatorID b place db .etlRules)[key]? = some d := by
  by_cases h : Creates times now answers operatorID b place db
  · rw [afterCreate_of hsteady h, created, DocStore.set_self, GoMap.getElem?_insert,
      if_neg, hd]
    rintro rfl
    exact absurd (h.free.symm.trans hd) (by simp)
  · rwa [afterCreate_of_not hsteady h]

theorem importStore_keeps (hsteady : ∀ i, (answers i).outcome ≠ .down) {bodies : List RuleBody} :
    ∀ i db {key : GoString} {d : Document}, (db .etlRules)[key]? = some d →
      (importStore times now answers operatorID bodies i db .etlRules)[key]? = some d := by
  induction bodies with
  | nil => exact fun i db _ _ hd => hd
  | cons b bodies ih =>
    intro i db key d hd
    exact ih (i + 1) _ (afterCreate_keeps hsteady hd)

theorem onlyOf_afterCreate (hsteady : ∀ i, (answers i).outcome ≠ .down)
    (h : StepOwn times now answers operatorID tenantID b place db) :
    onlyOf tenantID (afterCreate times now answers operatorID b place db) =
      afterCreate times now answers operatorID b place (onlyOf tenantID db) := by
  obtain ⟨hsame, htenant⟩ := stepOwn_iff.mp h
  by_cases hcreates : Creates times now answers operatorID b place db
  · rw [afterCreate_of hsteady hcreates, afterCreate_of hsteady (hsame.mp hcreates),
      onlyOf_created (htenant hcreates)]
  · rw [afterCreate_of_not hsteady hcreates,
      afterCreate_of_not hsteady fun hother => hcreates (hsame.mpr hother)]

theorem isCreated_onlyOf (hsteady : ∀ i, (answers i).outcome ≠ .down) :
    isCreated times now answers operatorID b place db =
        isCreated times now answers operatorID b place (onlyOf tenantID db) ↔
      (Creates times now answers operatorID b place db ↔
        Creates times now answers operatorID b place (onlyOf tenantID db)) := by
  rw [Bool.eq_iff_iff, isCreated_iff hsteady, isCreated_iff hsteady]

theorem newOwn_afterCreate_iff (hsteady : ∀ i, (answers i).outcome ≠ .down) :
    NewOwn tenantID db (afterCreate times now answers operatorID b place db) ↔
      (Creates times now answers operatorID b place db → b.tenantID = tenantID) := by
  constructor
  · intro hnew hcreates
    have hget := hnew (keyOf times now answers operatorID b place)
      (ownAttributes (b.document times now operatorID))
      (by rw [afterCreate_of hsteady hcreates, created, DocStore.set_self,
        GoMap.getElem?_insert, if_pos rfl]) hcreates.free
    rw [get_created] at hget
    exact Value.str.inj hget
  · intro htenant key d hafter hbefore
    by_cases hcreates : Creates times now answers operatorID b place db
    · rw [afterCreate_of hsteady hcreates, created, DocStore.set_self,
        GoMap.getElem?_insert] at hafter
      split_ifs at hafter
      · cases hafter
        rw [get_created, htenant hcreates]
      · exact absurd (hbefore.symm.trans hafter) (by simp)
    · rw [afterCreate_of_not hsteady hcreates] at hafter
      exact absurd (hbefore.symm.trans hafter) (by simp)

/-- **An import adds rules of the tenant only, and the same as if there were no others, exactly if
each of its rules is as `Xsiam.Etl.Admin.StepOwn` says when its turn comes.** -/
theorem importOwn_iff (hsteady : ∀ i, (answers i).outcome ≠ .down) {bodies : List RuleBody} :
    ∀ i db, ImportOwn times now answers operatorID tenantID bodies i db ↔
      NewOwn tenantID db (importStore times now answers operatorID bodies i db) ∧
        importFlags times now answers operatorID bodies i db =
          importFlags times now answers operatorID bodies i (onlyOf tenantID db) := by
  induction bodies with
  | nil =>
    intro i db
    refine iff_of_true trivial ⟨fun key d hafter hbefore => ?_, rfl⟩
    exact absurd (hbefore.symm.trans hafter) (by simp)
  | cons b bodies ih =>
    intro i db
    rw [ImportOwn, importStore, importFlags, importFlags, List.cons.injEq, ih (i + 1)]
    constructor
    · rintro ⟨hstep, hnew, hflags⟩
      obtain ⟨hsame, htenant⟩ := stepOwn_iff.mp hstep
      refine ⟨fun key d hafter hbefore => ?_, (isCreated_onlyOf hsteady).mpr hsame, ?_⟩
      · rcases hmid : (afterCreate times now answers operatorID { b with key := [] } [i] db
          .etlRules)[key]? with _ | d'
        · exact hnew key d hafter hmid
        · -- what the first rule has added is there at the end
          have hstays := hafter.symm.trans (importStore_keeps hsteady (i + 1) _ hmid)
          cases hstays
          exact (newOwn_afterCreate_iff hsteady).mpr htenant key d hmid hbefore
      · rw [hflags, onlyOf_afterCreate hsteady hstep]
    · rintro ⟨hnew, hflag, hflags⟩
      have hstep : StepOwn times now answers operatorID tenantID { b with key := [] } [i] db := by
        refine stepOwn_iff.mpr ⟨(isCreated_onlyOf hsteady).mp hflag, ?_⟩
        refine (newOwn_afterCreate_iff hsteady).mp fun key d hafter hbefore => ?_
        exact hnew key d (importStore_keeps hsteady (i + 1) _ hafter) hbefore
      refine ⟨hstep, fun key d hafter hbefore => hnew key d hafter ?_, ?_⟩
      · rw [Option.eq_none_iff_forall_ne_some]
        intro d' hd'
        exact absurd (hbefore.symm.trans (afterCreate_keeps hsteady hd')) (by simp)
      · rw [hflags, onlyOf_afterCreate hsteady hstep]

end Create

/-! ### Requests of a tenant -/

/-- The requests about all rules, as a tenant makes them. -/
inductive TenantRequest where
  | list (dataset : GoString) (isEnabled : Option Bool)
  | stats
  | exportAll
  | create (body : RuleBody)
  | importAll (bodies : List RuleBody)

/-- A rule is a tenant's. -/
def OwnedBy (tenantID : GoString) (d : Document) : Prop :=
  d.get (str "tenant_id") = .str tenantID

instance (tenantID : GoString) (d : Document) : Decidable (OwnedBy tenantID d) :=
  inferInstanceAs (Decidable (_ = _))

/-- Which rules of a request have been created. -/
def successes : Response RuleReply → List Bool
  | .ok (.created _) => [true]
  | .ok (.imported results) => results
  | _ => [false]

/-- A request adds rules of the tenant only, it succeeds as if there were no others, and nothing is
added to what is loaded for another tenant. -/
structure Adds (tenantID : GoString) (answers : Call → Answer) (db : DocStore)
    (p : DB (Response RuleReply)) : Prop where
  stored : NewOwn tenantID db (Prog.run (serveAll answers) p db).2
  same : (Prog.run (serveAll answers) p db).1.map successes =
    (Prog.run (serveAll answers) p (onlyOf tenantID db)).1.map successes
  loaded : ∀ tenantID', tenantID' ≠ [] → tenantID' ≠ tenantID → ∀ (key : GoString) (d : Document),
    ((Prog.run (serveAll answers) p db).2 .etlRules)[key]? = some d →
      enabledFor tenantID' d = true → (db .etlRules)[key]? = some d

section Requests

variable (times : TimeFormat) (now : Time) (answers : Call → Answer) (tenantID userID : GoString)
  (s : RuleStore)

/-- **A tenant administers its own rules**: it is shown and counts its own only, and what it adds is
its own, whatever rules the others have. -/
def Isolated : TenantRequest → Prop
  | .list dataset isEnabled => ∀ ds pageMeta,
      handleList times s tenantID dataset isEnabled = .ok (ds, pageMeta) →
        ∀ d ∈ ds, OwnedBy tenantID d
  | .stats => handleStats times s = .ofRules ((allRules times s).filter (OwnedBy tenantID ·))
  | .exportAll => ∀ d ∈ handleExport times s, OwnedBy tenantID d
  | .create body => Adds tenantID (steady answers) s.db (handleCreate times now tenantID body)
  | .importAll bodies => Adds tenantID (steady answers) s.db (handleImport times now userID bodies)

/-- The first hundred rules of all. -/
def firstPage : List Document :=
  (s.collection.matching (docList { pageSize := 10000, page := 1 })).take 100

/-- What has to be so for that. -/
def OwnOnly : TenantRequest → Prop
  | .list _ _ => True
  | .stats | .exportAll => areRules times (firstPage s) = false ∨
      ∀ d ∈ firstPage s, OwnedBy tenantID d
  | .create body => StepOwn times now (steady answers) [] tenantID (body.ofTenant tenantID) [] s.db
  | .importAll bodies => ImportOwn times now (steady answers) userID tenantID bodies 0 s.db

end Requests

section Lists

variable {times : TimeFormat} {s : RuleStore} {tenantID : GoString} {n : ℕ}

/-- Lists of rules are sorted by their priority. -/
theorem sortsByPath_docList (f : ETLRuleListFilter) : (docList f).SortsByPath := by
  refine ListOptions.sortsByPath_of_path (str "priority") (by decide +kernel) (by decide +kernel) ?_
  rw [ListOptions.sortKey, if_neg]
  · rfl
  · show str "priority" ≠ []
    decide

/-- The first page of a list of rules. -/
theorem findPaged_docList {f : ETLRuleListFilter} (hpage : f.page = 1) (hlimit : (docList f).limit.toNat = n) :
    ∃ pageMeta, findPaged s.collection (docList f) =
      .ok ((s.collection.matching (docList f)).take n, pageMeta) := by
  have hnumber : (docList f).pageNumber = 1 := by
    rw [ListOptions.pageNumber]
    show (if f.page < 1 then 1 else f.page) = 1
    rw [hpage]
    rfl
  rw [← hlimit]
  exact findPaged_first (sortsByPath_docList f) hnumber

theorem allRules_eq : allRules times s =
    if areRules times (firstPage s) then firstPage s else [] := by
  have hlimit : (docList { pageSize := 10000, page := 1 }).limit.toNat = 100 := by
    simp [ListOptions.limit, docList]
  obtain ⟨pageMeta, hpage⟩ := findPaged_docList (s := s) (f := { pageSize := 10000, page := 1 }) rfl
    hlimit
  rw [allRules, serviceList, hpage, firstPage, readPage]
  split_ifs
  · rfl
  · rfl

/-- A list has the tenant's rules. -/
theorem ownedBy_handleList (htenant : tenantID ≠ []) {dataset : GoString}
    {isEnabled : Option Bool} {ds : List Document} {pageMeta : PageMeta}
    (h : handleList times s tenantID dataset isEnabled = .ok (ds, pageMeta)) :
    ∀ d ∈ ds, OwnedBy tenantID d := by
  have hlimit : (docList { tenantID, isEnabled, dataset, page := 1, pageSize := 50 }).limit.toNat = 50 := by
    simp [ListOptions.limit, docList]
  obtain ⟨pageMeta', hpage⟩ := findPaged_docList (s := s)
    (f := { tenantID, isEnabled, dataset, page := 1, pageSize := 50 }) rfl hlimit
  rw [handleList, serviceList, hpage, readPage] at h
  split_ifs at h
  cases h
  intro d hd
  have hpasses := (mem_matching.mp (List.mem_of_mem_take hd)).2
  rw [ListOptions.passes, List.all_eq_true] at hpasses
  have hfilter := hpasses ⟨str "doc.tenant_id == @tenant_id",
    fun d => d.get (str "tenant_id") = .str tenantID⟩ (by simp [docList, equalFilter, htenant])
  exact of_decide_eq_true hfilter

end Lists

section Requests

variable {times : TimeFormat} {now : Time} {answers : Call → Answer} {tenantID userID : GoString}
  {s : RuleStore} {db : DocStore}

theorem stats_iff : handleStats times s = .ofRules ((allRules times s).filter (OwnedBy tenantID ·)) ↔
    ∀ d ∈ allRules times s, OwnedBy tenantID d := by
  rw [handleStats]
  constructor
  · intro h
    have hlen : (allRules times s).length =
        ((allRules times s).filter (OwnedBy tenantID ·)).length := congrArg RuleStats.total h
    have hall := List.length_filter_eq_length_iff.mp hlen.symm
    exact fun d hd => of_decide_eq_true (hall d hd)
  · intro h
    rw [List.filter_eq_self.mpr fun d hd => decide_eq_true (h d hd)]

theorem allRules_owned_iff : (∀ d ∈ allRules times s, OwnedBy tenantID d) ↔
    areRules times (firstPage s) = false ∨ ∀ d ∈ firstPage s, OwnedBy tenantID d := by
  rw [allRules_eq]
  split_ifs with hreads
  · exact (or_iff_right (by simp [hreads])).symm
  · exact iff_of_true (fun d hd => absurd hd List.not_mem_nil) (.inl (Bool.eq_false_of_not_eq_true hreads))

/-- Rules that are new and the tenant's are loaded for nobody else. -/
theorem loaded_of_newOwn {after : DocStore} (hnew : NewOwn tenantID db after)
    (hkeeps : ∀ {key : GoString} {d : Document}, (db .etlRules)[key]? = some d →
      (after .etlRules)[key]? = some d) {tenantID' : GoString} (hne : tenantID' ≠ [])
    (hother : tenantID' ≠ tenantID) {key : GoString} {d : Document}
    (hd : (after .etlRules)[key]? = some d) (henabled : enabledFor tenantID' d = true) :
    (db .etlRules)[key]? = some d := by
  rcases hbefore : (db .etlRules)[key]? with _ | d'
  · have hown := hnew key d hd hbefore
    have howner : d.get (str "tenant_id") = .str tenantID' := by
      rw [enabledFor, Bool.and_eq_true, Bool.or_eq_true, decide_eq_true_iff, decide_eq_true_iff]
        at henabled
      exact henabled.1.resolve_left hne
    rw [hown] at howner
    exact absurd (Value.str.inj howner).symm hother
  · exact (hkeeps hbefore).symm.trans hd

/-- An import adds the tenant's own, exactly if each of its rules does. -/
theorem adds_import_iff {bodies : List RuleBody} :
    Adds tenantID (steady answers) db (handleImport times now userID bodies) ↔
      ImportOwn times now (steady answers) userID tenantID bodies 0 db := by
  have hrun : ∀ st, Prog.run (serveAll (steady answers)) (handleImport times now userID bodies) st =
      (some (.ok (.imported (importFlags times now (steady answers) userID bodies 0 st))),
        importStore times now (steady answers) userID bodies 0 st) := by
    intro st
    rw [handleImport, Prog.run_bind, run_importLoop (steady_ne_down answers)]
    rfl
  rw [importOwn_iff (steady_ne_down answers)]
  constructor
  · rintro ⟨hstored, hsame, -⟩
    rw [hrun] at hstored
    rw [hrun, hrun] at hsame
    exact ⟨hstored, Option.some.inj hsame⟩
  · rintro ⟨hstored, hsame⟩
    refine ⟨by rw [hrun]; exact hstored, ?_, fun tenantID' hne hother key d hd henabled => ?_⟩
    · rw [hrun, hrun]
      exact congrArg some hsame
    · rw [hrun] at hd
      exact loaded_of_newOwn hstored (importStore_keeps (steady_ne_down answers) 0 db) hne hother hd
        henabled

/-- A rule that is created is the caller's, exactly if others' rules do not matter. -/
theorem adds_create_iff {body : RuleBody} :
    Adds tenantID (steady answers) db (handleCreate times now tenantID body) ↔
      StepOwn times now (steady answers) [] tenantID (body.ofTenant tenantID) [] db := by
  have hrun : ∀ st, ∃ r, Prog.run (serveAll (steady answers))
      (handleCreate times now tenantID body) st =
        (some r, afterCreate times now (steady answers) [] (body.ofTenant tenantID) [] st) ∧
      successes r = [isCreated times now (steady answers) [] (body.ofTenant tenantID) [] st] := by
    intro st
    rw [handleCreate, Prog.run_bind, afterCreate, isCreated]
    obtain ⟨-, key, hrun⟩ | ⟨-, msg, hrun⟩ := run_serviceCreate (steady_ne_down answers) times now
      [] (body.ofTenant tenantID) [] st
    · rw [hrun]
      exact ⟨_, rfl, rfl⟩
    · rw [hrun]
      exact ⟨_, rfl, rfl⟩
  obtain ⟨r, hfull, hr⟩ := hrun db
  obtain ⟨r', honly, hr'⟩ := hrun (onlyOf tenantID db)
  rw [stepOwn_iff, ← isCreated_onlyOf (steady_ne_down answers),
    ← newOwn_afterCreate_iff (steady_ne_down answers)]
  constructor
  · rintro ⟨hstored, hsame, -⟩
    rw [hfull] at hstored
    rw [hfull, honly] at hsame
    have hflags : successes r = successes r' := Option.some.inj hsame
    rw [hr, hr'] at hflags
    exact ⟨(List.cons.inj hflags).1, hstored⟩
  · rintro ⟨hsame, hstored⟩
    refine ⟨by rw [hfull]; exact hstored, ?_, fun tenantID' hne hother key d hd henabled => ?_⟩
    · rw [hfull, honly]
      exact congrArg some (by rw [hr, hr', hsame])
    · rw [hfull] at hd
      exact loaded_of_newOwn hstored (afterCreate_keeps (steady_ne_down answers)) hne hother hd
        henabled

/-- **When a tenant administers its own rules**: a list is its own; the statistics and the export
are where the first page of all rules has its rules only; and what is created or imported is the
tenant's and clashes with nobody else's rules. -/
theorem requestsIsolated_iff (htenant : tenantID ≠ []) (req : TenantRequest) :
    Isolated times now answers tenantID userID s req ↔
      OwnOnly times now answers tenantID userID s req := by
  cases req with
  | list dataset isEnabled =>
    exact iff_of_true (fun _ _ h => ownedBy_handleList htenant h) trivial
  | stats => exact stats_iff.trans allRules_owned_iff
  | exportAll => exact allRules_owned_iff
  | create body => exact adds_create_iff
  | importAll bodies => exact adds_import_iff

end Requests

section Runs

/-- No rules. -/
def noRules : RuleStore where
  db _ := ∅
  sort _ _ ds := ds
  perm _ _ ds := .refl ds
  other _ _ := .error []

/-- A rule of another tenant. -/
def keepRule : RuleBody :=
  { dropRule with key := str "r-2", ruleID := str "keep-all", tenantID := str "t-2" }

/-- The rules of two tenants. -/
def twoTenants : RuleStore :=
  { noRules with db := created epochTimes 0 (fun _ => {}) [] keepRule [] dropStore }

/-- A second rule of the one tenant is created. -/
theorem isolated_create : Isolated epochTimes 0 (fun _ => {}) (str "t-1") (str "u-1") twoTenants
    (.create { dropRule with key := str "r-3", ruleID := str "drop-more" }) := by
  refine (requestsIsolated_iff (by decide) (.create _)).mpr fun _ => ⟨rfl, fun key d hd _ => ?_⟩
  dsimp only [twoTenants] at hd
  rw [created, DocStore.set_self, Std.ExtTreeMap.getElem?_insert] at hd
  split_ifs at hd with hkey
  · rw [← Option.some.inj hd, ← Std.LawfulEqCmp.compare_eq_iff_eq.mp hkey]
    decide +kernel
  · rw [dropStore, DocStore.set_self, Std.ExtTreeMap.getElem?_insert] at hd
    split_ifs at hd with hkey'
    · rw [← Option.some.inj hd, ← Std.LawfulEqCmp.compare_eq_iff_eq.mp hkey']
      decide +kernel
    · simp at hd

/-- A rule is imported for another tenant. -/
theorem import_for_another : ¬Isolated epochTimes 0 (fun _ => { key := str "r-9" }) (str "t-1")
    (str "u-1") noRules (.importAll [{ dropRule with tenantID := str "t-super" }]) := by
  intro h
  have hstored : (((Prog.run (serveAll (steady fun _ => { key := str "r-9" })) (handleImport epochTimes
      0 (str "u-1") [{ dropRule with tenantID := str "t-super" }]) noRules.db).2 .etlRules)[
        str "r-9"]?.map fun d => d.get (str "tenant_id")) = some (.str (str "t-super")) := by
    decide +kernel
  obtain ⟨d, hd, htenant⟩ := Option.map_eq_some_iff.mp hstored
  have hown := h.stored (str "r-9") d hd (by simp [noRules])
  rw [htenant] at hown
  exact absurd (Value.str.inj hown) (by decide)

end Runs

end Admin

end Etl

end Xsiam
