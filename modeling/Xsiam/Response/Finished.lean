import Xsiam.Audit.Trail

/-!
# Executions that come to an end

An action that is executed is set to running, is carried out, and is set to completed or to failed.
What carries it out may return a nil result. `ActionService.Execute` has such an action fail, but reads
the message of the nil result in the same breath, and so goes down while the action is running and
before anything is recorded. Nor does it ask whether its updates of the action have gone through.

So an execution comes to an end exactly if there is a result and the database takes what is written
(`Xsiam.Response.finishes_iff`).
-/

namespace Xsiam

namespace Response

open Go Repository
open Audit (Entry Logged)

/-! ### The service -/

section Programs

variable (times : TimeFormat) (now : Time) (exec : Executor)

/-- What comes of an action when it is carried out. -/
def resultOf (action : Document) : Option ExecutionResult :=
  (exec (action.text (str "type")) (action.text (str "target_asset_id")) .null).1

/-- What is recorded of an action with what came of it. -/
def executedAction (operatorID id : GoString) (action : Document) (result : Option ExecutionResult) :
    Entry :=
  Audit.executed operatorID "action" id (action.text (str "type"))
    ((result.map ExecutionResult.value).getD .null)

/-- What is written when an action begins. -/
def startedPatch : Document :=
  Document.ofEntries [("status", .str (str "running")), ("started_at", .str (times.text now))]

/-- `ActionService.Execute`, of a service that may have no audit log -/
def ActionService.execute (audit : Bool) (id operatorID : GoString) : DB (Except GoString Unit) := do
  match ← getByKey times actionFields .actions "action" id [] with
  | .error msg => pure (.error msg)
  | .ok action => do
    let _ ← patchByKey times now .actions id (startedPatch times now) [0]
    match resultOf exec action with
    | none => .crash
    | some result => do
      let _ ← patchByKey times now .actions id (completedPatch times now result) [1]
      if audit then
        Audit.record times now (executedAction operatorID id action (some result))
      pure (.ok ())

/-- The service that has one is the one of `executeAction`. -/
theorem ActionService.execute_true (id operatorID : GoString) :
    ActionService.execute times now exec true id operatorID =
      executeAction times now exec id operatorID := rfl

end Programs

/-! ### Ends -/

/-- **An action has come to an end**: it has completed or it has failed, and it has not completed
unless it was successful. -/
structure Ended (result : Option ExecutionResult) (action : Document) : Prop where
  final : action.get (str "status") = .str (str "completed") ∨
    action.get (str "status") = .str (str "failed")
  successful : action.get (str "status") = .str (str "completed") →
    ∃ r, result = some r ∧ r.success = true

/-- An action that has come to an end is not running. -/
theorem Ended.not_running {result : Option ExecutionResult} {action : Document}
    (h : Ended result action) : action.get (str "status") ≠ .str (str "running") := by
  rcases h.final with hstatus | hstatus
  · rw [hstatus]
    decide
  · rw [hstatus]
    decide

section Finishes

variable (times : TimeFormat) (now : Time) (exec : Executor) (answers : Call → Answer)
  (db : DocStore) (audit : Bool) (id operatorID : GoString)

/-- The action that an execution is of, if it is found. -/
def foundAction : Option (Except GoString Document) :=
  (Prog.run (serveAll answers) (getByKey times actionFields .actions "action" id []) db).1

/-- **An execution comes to an end**: it returns, the action has come to an end, and it is recorded
where there is an audit log. -/
def Finishes : Prop :=
  ∀ action, foundAction times answers db id = some (.ok action) →
    let after := Prog.run (serveAll answers)
      (ActionService.execute times now exec audit id operatorID) db
    after.1 = some (.ok ()) ∧
      (∃ d, (after.2 .actions)[id]? = some d ∧ Ended (resultOf exec action) d) ∧
      (audit = true →
        Logged times now (executedAction operatorID id action (resultOf exec action)) db after.2)

/-- How the update goes that sets an action to running. -/
def startAnswer : Answer :=
  answers (Call.mk (.update .actions id (stamp times now (startedPatch times now))) [0])

/-- How the update goes that writes the result. -/
def endAnswer (r : ExecutionResult) : Answer :=
  answers (Call.mk (.update .actions id (stamp times now (completedPatch times now r))) [1])

/-- How it goes to record something. -/
def recordAnswer (e : Entry) : Answer :=
  answers (Call.mk (.create .auditLogs [] (e.document times now)) [])

/-- **The database takes what an execution writes**: nothing goes down, the result is written (or
nothing is, and the action had come to the same end before), and the record is written under a new
key. -/
structure Takes (action : Document) (r : ExecutionResult) : Prop where
  start_up : (startAnswer times now answers id).outcome ≠ .down
  end_up : (endAnswer times now answers id r).outcome ≠ .down
  written : (endAnswer times now answers id r).outcome = .ok ∨
    (startAnswer times now answers id).outcome ≠ .ok ∧ Ended (some r) action
  recorded : audit = true →
    let a := recordAnswer times now answers (executedAction operatorID id action (some r))
    a.outcome = .ok ∧ (db .auditLogs)[newKey a []]? = none

end Finishes

/-! ### What an execution leaves -/

section Execution

variable {times : TimeFormat} {now : Time} {exec : Executor} {answers : Call → Answer} {db : DocStore}
  {audit : Bool} {id operatorID : GoString} {α : Type}

/-- What an update leaves, unless the program goes down. -/
def updated (a : Answer) (db : DocStore) (c : Col) (key : GoString) (p : Document) : DocStore :=
  match a.outcome, (db c)[key]? with
  | .ok, some d => db.set c ((db c).insert key (d.patch p))
  | _, _ => db

theorem updated_of_not_ok {a : Answer} {c : Col} {key : GoString} {p : Document}
    (h : a.outcome ≠ .ok) : updated a db c key p = db := by
  rw [updated]
  split
  · next hok _ => exact absurd hok h
  · rfl

theorem updated_of_ok {a : Answer} {c : Col} {key : GoString} {p d : Document} (h : a.outcome = .ok)
    (hd : (db c)[key]? = some d) :
    updated a db c key p = db.set c ((db c).insert key (d.patch p)) := by
  rw [updated, h, hd]

/-- A document after an update of it. -/
theorem getElem?_updated {a : Answer} {c : Col} {key : GoString} {p d : Document}
    (hd : (db c)[key]? = some d) :
    (updated a db c key p c)[key]? = some (if a.outcome = .ok then d.patch p else d) := by
  by_cases h : a.outcome = .ok
  · rw [updated_of_ok h hd, DocStore.set_self, GoMap.getElem?_insert, if_pos rfl, if_pos h]
  · rw [updated_of_not_ok h, if_neg h, hd]

theorem updated_apply_of_ne {a : Answer} {c c' : Col} {key : GoString} {p : Document} (h : c' ≠ c) :
    updated a db c key p c' = db c' := by
  rw [updated]
  rcases a.outcome with _ | msg | _
  · rcases (db c)[key]? with _ | d
    · rfl
    · exact (DocStore.set_apply ..).trans (if_neg h)
  · rfl
  · rfl

section Update

variable {c : Col} {key : GoString} {p : Document} {place : List ℕ} {q : DB α}

/-- An update whose error is not looked at. -/
theorem run_patch_of_up
    (h : (answers (Call.mk (.update c key (stamp times now p)) place)).outcome ≠ .down) :
    Prog.run (serveAll answers) (patchByKey times now c key p place >>= fun _ => q) db =
      Prog.run (serveAll answers) q
        (updated (answers (Call.mk (.update c key (stamp times now p)) place)) db c key
          (stamp times now p)) := by
  rw [patchByKey, Prog.bind_assoc, Prog.run_bind, run_updateDoc, updated]
  rcases ho : (answers (Call.mk (.update c key (stamp times now p)) place)).outcome with _ | msg | _
  · dsimp only
    rcases (db c)[key]? with _ | d
    · rfl
    · rfl
  · rfl
  · exact absurd ho h

theorem run_patch_of_down
    (h : (answers (Call.mk (.update c key (stamp times now p)) place)).outcome = .down) :
    Prog.run (serveAll answers) (patchByKey times now c key p place >>= fun _ => q) db =
      (none, db) := by
  rw [patchByKey, Prog.bind_assoc, Prog.run_bind, run_updateDoc, h]

end Update

section Record

variable {e : Entry} {a : α}

/-- Something is recorded, whether or not that succeeds. -/
theorem run_record_then :
    Prog.run (serveAll answers) (Audit.record times now e >>= fun _ => pure a) db =
      match (recordAnswer times now answers e).outcome with
      | .ok => match (db .auditLogs)[newKey (recordAnswer times now answers e) []]? with
        | some _ => (some a, db)
        | none => (some a, db.set .auditLogs ((db .auditLogs).insert
            (newKey (recordAnswer times now answers e) []) (ownAttributes (e.document times now))))
      | .failed _ => (some a, db)
      | .down => (none, db) := by
  rw [Audit.record, Prog.bind_assoc, Prog.run_bind, run_createDoc, recordAnswer]
  rcases (answers (Call.mk (.create .auditLogs [] (e.document times now)) [])).outcome with _ | msg | _
  · dsimp only
    rcases (db .auditLogs)[newKey
      (answers (Call.mk (.create .auditLogs [] (e.document times now)) [])) []]? with _ | d
    · rfl
    · rfl
  · rfl
  · rfl

/-- A log is not the log with a document more. -/
theorem not_logged_self : ¬Logged times now e db db := by
  rintro ⟨k, hnone, hdocs⟩
  have hk : (db .auditLogs)[k]? = some (ownAttributes (e.document times now)) := by
    rw [hdocs, GoMap.getElem?_insert, if_pos rfl]
  exact absurd (hk.symm.trans hnone) (Option.some_ne_none _)

/-- The program goes on and the record is there exactly if it was written under a new key. -/
theorem run_record_iff {db' : DocStore} (hlogs : db' .auditLogs = db .auditLogs)
    {r : Option α × DocStore}
    (hr : Prog.run (serveAll answers) (Audit.record times now e >>= fun _ => pure a) db' = r) :
    r.2 .actions = db' .actions ∧ (r.1 = some a ∧ Logged times now e db r.2 ↔
      (recordAnswer times now answers e).outcome = .ok ∧
        (db .auditLogs)[newKey (recordAnswer times now answers e) []]? = none) := by
  have hne : Col.actions ≠ Col.auditLogs := by decide
  have hnot : ¬Logged times now e db db' := by
    rw [Logged, hlogs]
    exact not_logged_self
  rw [run_record_then, hlogs] at hr
  rcases ho : (recordAnswer times now answers e).outcome with _ | msg | _
  · rcases hk : (db .auditLogs)[newKey (recordAnswer times now answers e) []]? with _ | d
    · rw [ho, hk] at hr
      subst hr
      refine ⟨?_, iff_of_true ⟨rfl, _, hk, ?_⟩ ⟨rfl, rfl⟩⟩
      · dsimp only
        rw [DocStore.set_apply, if_neg hne]
      · dsimp only
        rw [DocStore.set_self]
    · rw [ho, hk] at hr
      subst hr
      exact ⟨rfl, iff_of_false (fun h => hnot h.2) fun h => absurd h.2 (Option.some_ne_none d)⟩
  · rw [ho] at hr
    subst hr
    exact ⟨rfl, iff_of_false (fun h => hnot h.2) fun h => Outcome.noConfusion h.1⟩
  · rw [ho] at hr
    subst hr
    exact ⟨rfl, iff_of_false (fun h => hnot h.2) fun h => Outcome.noConfusion h.1⟩

/-- The same, where there may be no log. -/
theorem run_last {db' : DocStore} (hlogs : db' .auditLogs = db .auditLogs) {r : Option α × DocStore}
    (hr : Prog.run (serveAll answers) (if audit then Audit.record times now e >>= fun _ => pure a
      else pure a) db' = r) :
    r.2 .actions = db' .actions ∧ (r.1 = some a ∧ (audit = true → Logged times now e db r.2) ↔
      (audit = true → (recordAnswer times now answers e).outcome = .ok ∧
        (db .auditLogs)[newKey (recordAnswer times now answers e) []]? = none)) := by
  cases audit with
  | true =>
    obtain ⟨hactions, hiff⟩ := run_record_iff hlogs hr
    exact ⟨hactions, by simpa using hiff⟩
  | false =>
    subst hr
    exact ⟨rfl, iff_of_true ⟨rfl, fun h => absurd h Bool.false_ne_true⟩
      fun h => absurd h Bool.false_ne_true⟩

end Record

/-! ### Statuses -/

/-- The status that a patch writes. -/
theorem status_patch {d : Document} {kvs : List (String × Value)} {status : GoString}
    (hnames : (kvs.map Prod.fst).Nodup) (h : ("status", .str status) ∈ kvs) :
    (d.patch (stamp times now (Document.ofEntries kvs))).get (str "status") = .str status := by
  have hsystem : str "status" ∉ Document.systemNames := by decide
  have hstamp : str "status" ≠ str "updated_at" := by decide
  rw [Document.get_patch_of_some _ hsystem, mergeValue_str]
  rw [getElem?_stamp hstamp]
  exact (Document.getElem?_ofEntries hnames _ _).mpr h

theorem status_started (d : Document) :
    (d.patch (stamp times now (startedPatch times now))).get (str "status") = .str (str "running") :=
  status_patch (by simp) List.mem_cons_self

theorem status_completed (d : Document) (r : ExecutionResult) :
    (d.patch (stamp times now (completedPatch times now r))).get (str "status") =
      .str (if r.success then str "completed" else str "failed") :=
  status_patch (by simp) List.mem_cons_self

theorem ended_congr {result : Option ExecutionResult} {d d' : Document}
    (h : d.get (str "status") = d'.get (str "status")) : Ended result d ↔ Ended result d' := by
  constructor
  · rintro ⟨hfinal, hsuccessful⟩
    rw [h] at hfinal hsuccessful
    exact ⟨hfinal, hsuccessful⟩
  · rintro ⟨hfinal, hsuccessful⟩
    rw [← h] at hfinal hsuccessful
    exact ⟨hfinal, hsuccessful⟩

/-- What was written of a result is the end of the action. -/
theorem ended_completed (d : Document) (r : ExecutionResult) :
    Ended (some r) (d.patch (stamp times now (completedPatch times now r))) := by
  have hstatus := @status_completed times now d r
  by_cases hsuccess : r.success = true
  · rw [if_pos hsuccess] at hstatus
    exact ⟨.inl hstatus, fun _ => ⟨r, rfl, hsuccess⟩⟩
  · rw [if_neg hsuccess] at hstatus
    refine ⟨.inr hstatus, fun hcompleted => ?_⟩
    -- the two statuses are different texts
    have hne : str "failed" ≠ str "completed" := by decide
    exact absurd (Value.str.inj (hstatus.symm.trans hcompleted)) hne

/-- What is found under a key. -/
theorem run_getByKey {fields : Fields} {c : Col} {resource : String} {place : List ℕ} :
    Prog.run (serveAll answers) (getByKey times fields c resource id place) db =
      (match (answers (Call.mk (.read c id) place)).outcome with
      | .ok => match (db c)[id]? with
        | none => some (.error (str resource ++ str " " ++ id ++ str " not found"))
        | some d =>
          if (withKey id d).Reads times fields then some (.ok (withKey id d))
          else some (.error (str "json: cannot unmarshal"))
      | .failed msg => some (.error msg)
      | .down => none, db) := by
  rw [getByKey, readAs, Prog.bind_assoc, Prog.run_bind, run_readDoc]
  rcases (answers (Call.mk (.read c id) place)).outcome with _ | msg | _
  · rcases (db c)[id]? with _ | d
    · rfl
    · dsimp only
      split_ifs
      · rfl
      · rfl
  · rfl
  · rfl

/-- An action that was found is a document, and finding it leaves the database as it is. -/
theorem exists_of_foundAction {action : Document}
    (h : foundAction times answers db id = some (.ok action)) :
    Prog.run (serveAll answers) (getByKey times actionFields .actions "action" id []) db =
        (some (.ok action), db) ∧
      ∃ d, (db .actions)[id]? = some d ∧ action = withKey id d := by
  rw [foundAction, run_getByKey] at h
  refine ⟨run_getByKey.trans (Prod.ext h rfl), ?_⟩
  dsimp only at h
  split at h
  · rcases hd : (db .actions)[id]? with _ | d
    · rw [hd] at h
      cases h
    · rw [hd] at h
      dsimp only at h
      split_ifs at h with hreads
      · cases h
        exact ⟨d, rfl, rfl⟩
      · cases h
  · cases h
  · cases h

/-- The two updates leave an action that has come to an end exactly if the second is written, or
neither is. -/
theorem ended_of_updates {d : Document} (r : ExecutionResult) (hd : (db .actions)[id]? = some d) :
    let db' := updated (endAnswer times now answers id r)
      (updated (startAnswer times now answers id) db .actions id
        (stamp times now (startedPatch times now))) .actions id
      (stamp times now (completedPatch times now r))
    db' .auditLogs = db .auditLogs ∧ ∃ d', (db' .actions)[id]? = some d' ∧
      (Ended (some r) d' ↔ (endAnswer times now answers id r).outcome = .ok ∨
        (startAnswer times now answers id).outcome ≠ .ok ∧ Ended (some r) d) := by
  have hne : Col.auditLogs ≠ Col.actions := by decide
  intro db'
  refine ⟨(updated_apply_of_ne hne).trans (updated_apply_of_ne hne), _,
    getElem?_updated (getElem?_updated hd), ?_⟩
  by_cases hend : (endAnswer times now answers id r).outcome = .ok
  · rw [if_pos hend]
    exact iff_of_true (ended_completed _ r) (.inl hend)
  · rw [if_neg hend]
    by_cases hstart : (startAnswer times now answers id).outcome = .ok
    · -- the action is still running
      rw [if_pos hstart]
      refine iff_of_false (fun h => h.not_running (status_started d)) ?_
      rintro (h | ⟨h, -⟩)
      · exact hend h
      · exact h hstart
    · rw [if_neg hstart]
      constructor
      · exact fun h => .inr ⟨hstart, h⟩
      · rintro (h | ⟨-, h⟩)
        · exact absurd h hend
        · exact h

/-- **A nil result takes the program down and leaves the action as it was set before it.** -/
theorem run_of_nil {action : Document}
    (hread : Prog.run (serveAll answers) (getByKey times actionFields .actions "action" id []) db =
      (some (.ok action), db))
    (hstart : (startAnswer times now answers id).outcome ≠ .down)
    (hnil : resultOf exec action = none) :
    Prog.run (serveAll answers) (ActionService.execute times now exec audit id operatorID) db =
      (none, updated (startAnswer times now answers id) db .actions id
        (stamp times now (startedPatch times now))) := by
  rw [ActionService.execute, Prog.run_bind, hread]
  dsimp only
  rw [run_patch_of_up hstart, hnil]
  rfl

end Execution

/-- **The executions that come to an end**: those of an action that has a result, which the database
takes. -/
theorem finishes_iff (times : TimeFormat) (now : Time) (exec : Executor) (answers : Call → Answer)
    (db : DocStore) (audit : Bool) (id operatorID : GoString) :
    Finishes times now exec answers db audit id operatorID ↔
      ∀ action, foundAction times answers db id = some (.ok action) →
        ∃ r, resultOf exec action = some r ∧
          Takes times now answers db audit id operatorID action r := by
  refine forall₂_congr fun action hfound => ?_
  obtain ⟨hread, d, hd, rfl⟩ := exists_of_foundAction hfound
  by_cases hstart : (startAnswer times now answers id).outcome = .down
  · -- down at the update before the execution
    rw [ActionService.execute, Prog.run_bind, hread]
    dsimp only
    rw [run_patch_of_down hstart]
    refine iff_of_false (fun h => absurd h.1.symm (Option.some_ne_none _)) ?_
    rintro ⟨r, -, htakes⟩
    exact htakes.start_up hstart
  -- the executor is called now, and a nil result is read through
  rcases hresult : resultOf exec (withKey id d) with _ | r
  · rw [run_of_nil hread hstart hresult]
    refine iff_of_false (fun h => absurd h.1.symm (Option.some_ne_none _)) ?_
    rintro ⟨r, hr, -⟩
    exact absurd hr.symm (Option.some_ne_none r)
  rw [ActionService.execute, Prog.run_bind, hread]
  dsimp only
  rw [run_patch_of_up hstart, hresult]
  dsimp only
  by_cases hend : (endAnswer times now answers id r).outcome = .down
  · -- down at the update behind the execution
    rw [run_patch_of_down hend]
    refine iff_of_false (fun h => absurd h.1.symm (Option.some_ne_none _)) ?_
    rintro ⟨r', hr', htakes⟩
    cases hr'
    exact htakes.end_up hend
  rw [run_patch_of_up hend]
  have hkey : str "status" ≠ keyName := by decide
  have hsame : d.get (str "status") = (withKey id d).get (str "status") := by
    rw [get_withKey, if_neg hkey]
  obtain ⟨hlogs, d', hd', hended⟩ := @ended_of_updates times now answers db id d r hd
  rw [ended_congr hsame] at hended
  rw [startAnswer, endAnswer] at hlogs hd'
  -- from here on only the record of the operation is left
  generalize updated _ _ _ _ _ = db' at hlogs hd' ⊢
  generalize hafter : Prog.run _ _ db' = after
  obtain ⟨hactions, hlast⟩ := run_last hlogs hafter
  rw [hactions]
  constructor
  · rintro ⟨hreturn, ⟨d'', hd'', hend''⟩, hrecord⟩
    obtain rfl := Option.some.inj (hd'.symm.trans hd'')
    exact ⟨r, rfl, hstart, hend, hended.mp hend'', hlast.mp ⟨hreturn, hrecord⟩⟩
  · rintro ⟨r', hr', htakes⟩
    cases hr'
    obtain ⟨hreturn, hrecord⟩ := hlast.mpr htakes.recorded
    exact ⟨hreturn, ⟨d', hd', hended.mpr htakes.written⟩, hrecord⟩

/-- A device that cannot be reached. -/
def unreachable : Executor := fun _ _ _ => (none, some (str "device unreachable"))

/-- An action that waits. -/
def isolation : Document :=
  Document.ofEntries [("type", .str (str "isolate_host")), ("status", .str (str "pending"))]

/-- One action, and nothing else. -/
def oneAction : DocStore :=
  DocStore.set (fun _ => ∅) .actions ((∅ : GoMap Document).insert (str "a1") isolation)

/-- A database that takes everything. -/
def willing : Call → Answer := fun _ => { key := str "log-1" }

/-- The action goes on running for ever, and nobody has recorded it. -/
theorem not_finishes :
    let after := Prog.run (serveAll willing)
      (ActionService.execute epochTimes 0 unreachable true (str "a1") (str "op")) oneAction
    after.1 = none ∧
      (after.2 .actions)[str "a1"]?.map (·.get (str "status")) = some (.str (str "running")) ∧
      after.2 .auditLogs = ∅ ∧
      ¬Finishes epochTimes 0 unreachable willing oneAction true (str "a1") (str "op") := by
  have hd : (oneAction .actions)[str "a1"]? = some isolation := by
    rw [oneAction, DocStore.set_self, GoMap.getElem?_insert, if_pos rfl]
  have hreads : (withKey (str "a1") isolation).Reads epochTimes actionFields := by decide
  have hread : Prog.run (serveAll willing)
      (getByKey epochTimes actionFields .actions "action" (str "a1") []) oneAction =
        (some (.ok (withKey (str "a1") isolation)), oneAction) := by
    rw [run_getByKey, willing]
    dsimp only
    rw [hd]
    dsimp only
    rw [if_pos hreads]
  have hrun := @run_of_nil epochTimes 0 unreachable willing oneAction true (str "a1") (str "op") _ hread
    Outcome.noConfusion rfl
  have hok : (startAnswer epochTimes 0 willing (str "a1")).outcome = .ok := rfl
  have hne : Col.auditLogs ≠ Col.actions := by decide
  intro after
  have hafter : after = _ := hrun
  rw [hafter]
  refine ⟨rfl, ?_, ?_, fun h => ?_⟩
  · dsimp only
    rw [getElem?_updated hd, if_pos hok, Option.map_some, status_started]
  · dsimp only
    rw [updated_apply_of_ne hne, oneAction, DocStore.set_apply, if_neg hne]
  · have hreturn := (h _ (congrArg Prod.fst hread)).1
    rw [hrun] at hreturn
    exact absurd hreturn.symm (Option.some_ne_none _)

end Response

end Xsiam
