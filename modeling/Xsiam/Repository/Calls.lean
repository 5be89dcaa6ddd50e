import Xsiam.Lib.Prog
import Xsiam.Repository.Documents

/-!
# Calls to the database

What the repositories ask of the database, as calls of a program (`Prog`): one document is read by
its key, created, patched or deleted, or documents that meet a condition are looked for. A call may
fail, and then it has done nothing; and it may take the program down, since most repositories go on
with a collection that they did not get.

The database itself is any that does what is documented of each operation
(`Xsiam.Repository.DatabaseServer`): documents that meet a condition come in any order, and of those
that could be the one asked for any may be. How a call goes is said by an answer
(`Xsiam.Repository.Answer`), and one database there is keeps all in memory
(`Xsiam.Repository.inMemory`).
-/

namespace Xsiam

namespace Repository

open Go

/-! ### Collections -/

/-- The collections that are read and written by the keys of their documents. -/
inductive Col where
  | users
  | userProfiles
  | rbacRoles
  | incidents
  | alerts
  | detectionRules
  | etlRules
  | playbooks
  | assets
  | actions
  | auditLogs
deriving DecidableEq

/-- The documents of the collections, by their keys. -/
abbrev DocStore := Col → GoMap Document

/-- The attribute a key is read from. -/
def keyName : GoString := str "_key"

/-- A document as it is read, with its key. -/
def withKey (key : GoString) (d : Document) : Document := d.insert keyName (.str key)

@[simp] theorem get_withKey (key : GoString) (d : Document) (name : GoString) :
    (withKey key d).get name = if name = keyName then .str key else d.get name := by
  rw [Document.get, withKey, GoMap.getElem?_insert]
  split_ifs
  · rfl
  · rfl

/-- The attributes of a new document that are its own. -/
def ownAttributes (d : Document) : Document := GoMap.filterKeys d fun k => k ∉ Document.systemNames

theorem getElem?_ownAttributes (d : Document) (name : GoString) :
    (ownAttributes d)[name]? = if name ∈ Document.systemNames then none else d[name]? := by
  rw [ownAttributes, GoMap.filterKeys, Std.ExtTreeMap.getElem?_filter']
  by_cases h : name ∈ Document.systemNames
  · simp [h]
  · cases d[name]? with
    | none => simp
    | some v => simp [h]

theorem get_ownAttributes {d : Document} {name : GoString} (h : name ∉ Document.systemNames) :
    (ownAttributes d).get name = d.get name := by
  rw [Document.get, getElem?_ownAttributes, if_neg h, Document.get]

/-- One collection written. -/
def DocStore.set (db : DocStore) (c : Col) (docs : GoMap Document) : DocStore :=
  Function.update db c docs

@[simp] theorem DocStore.set_apply (db : DocStore) (c : Col) (docs : GoMap Document) (c' : Col) :
    db.set c docs c' = if c' = c then docs else db c' := Function.update_apply ..

theorem DocStore.set_self (db : DocStore) (c : Col) (docs : GoMap Document) :
    db.set c docs c = docs := Function.update_self ..

/-- A patch whose values can be read into the fields leaves a document that can be. -/
theorem reads_patch {times : TimeFormat} {fields : Fields} {key : GoString} {d p : Document}
    (h : (withKey key d).Reads times fields)
    (hp : ∀ f ∈ fields, ∀ v, p[f.1]? = some v → f.2.accepts times (mergeValue (d.get f.1) v) = true) :
    (withKey key (d.patch p)).Reads times fields := by
  rw [Document.reads_iff] at h ⊢
  intro f hf
  specialize h f hf
  rw [get_withKey] at h ⊢
  split_ifs with hkey
  · rwa [if_pos hkey] at h
  · rw [if_neg hkey] at h
    rw [Document.get, Document.getElem?_patch]
    split_ifs with hsystem
    · exact h
    · rcases hv : p[f.1]? with _ | v
      · exact h
      · exact hp f hf v hv

/-! ### Calls and replies -/

/-- What can be asked for. -/
inductive Op where
  | read (c : Col) (key : GoString)
  /-- A new document, under a key of its own if it has one. -/
  | create (c : Col) (key : GoString) (doc : Document)
  | update (c : Col) (key : GoString) (patch : Document)
  | delete (c : Col) (key : GoString)
  /-- One document that meets a condition. -/
  | find (c : Col) (cond : Document → Bool)
  /-- All documents that do. -/
  | findAll (c : Col) (cond : Document → Bool)

/-- The collection that is asked. -/
def Op.col : Op → Col
  | .read c _ | .create c _ _ | .update c _ _ | .delete c _ | .find c _ | .findAll c _ => c

/-- A call: what is asked for, and in which passes of the loops around it. -/
structure Call where
  op : Op
  place : List ℕ := []

/-- Why a call has failed. -/
inductive DbError where
  | notFound
  | other (msg : GoString)
deriving DecidableEq

/-- What a call is replied. -/
def Reply : Call → Type
  | ⟨.read _ _, _⟩ => Except DbError Document
  | ⟨.create _ _ _, _⟩ => Except DbError GoString
  | ⟨.update _ _ _, _⟩ => Except DbError Unit
  | ⟨.delete _ _, _⟩ => Except DbError Unit
  | ⟨.find _ _, _⟩ => Except DbError (Option Document)
  | ⟨.findAll _ _, _⟩ => Except DbError (List Document)

/-- How a call goes. -/
inductive Outcome where
  | ok
  | failed (msg : GoString)
  /-- The program goes down. -/
  | down
deriving DecidableEq

/-- The documents of a collection that meet a condition, with their keys. -/
def matching (order : MapRange) (docs : GoMap Document) (cond : Document → Bool) : List Document :=
  ((order.entries docs).filter fun kd => cond kd.2).map fun kd => withKey kd.1 kd.2

theorem mem_matching_iff {order : MapRange} {docs : GoMap Document} {cond : Document → Bool}
    {d : Document} : d ∈ matching order docs cond ↔
      ∃ key own, docs[key]? = some own ∧ cond own = true ∧ d = withKey key own := by
  rw [matching, List.mem_map]
  constructor
  · rintro ⟨⟨key, own⟩, h, rfl⟩
    obtain ⟨hmem, hcond⟩ := List.mem_filter.mp h
    exact ⟨key, own, (order.mem_entries docs key own).mp hmem, hcond, rfl⟩
  · rintro ⟨key, own, hget, hcond, rfl⟩
    exact ⟨(key, own), List.mem_filter.mpr ⟨(order.mem_entries docs key own).mpr hget, hcond⟩, rfl⟩

/-- The key of a new document: its own, if it has one, or the one that is made for it. -/
def keyOfNew (made key : GoString) : GoString := if key = [] then made else key

/-- A database that makes a key for a new document that has none, and meets documents in an order:
what is documented of a call that does not fail. -/
structure DatabaseServer (made : GoString) (order : MapRange) where
  /-- What is replied, and what is left. -/
  perform : (i : Call) → DocStore → Reply i × DocStore
  read_found {c : Col} {key : GoString} {place : List ℕ} {db : DocStore} {d : Document}
    (h : (db c)[key]? = some d) : perform ⟨.read c key, place⟩ db = (.ok (withKey key d), db)
  read_missing {c : Col} {key : GoString} {place : List ℕ} {db : DocStore}
    (h : (db c)[key]? = none) : perform ⟨.read c key, place⟩ db = (.error .notFound, db)
  create_taken {c : Col} {key : GoString} {doc : Document} {place : List ℕ} {db : DocStore}
    {d : Document} (h : (db c)[keyOfNew made key]? = some d) :
    perform ⟨.create c key doc, place⟩ db =
      (.error (.other (str "unique constraint violated")), db)
  create_free {c : Col} {key : GoString} {doc : Document} {place : List ℕ} {db : DocStore}
    (h : (db c)[keyOfNew made key]? = none) :
    perform ⟨.create c key doc, place⟩ db = (.ok (keyOfNew made key),
      db.set c ((db c).insert (keyOfNew made key) (ownAttributes doc)))
  update_found {c : Col} {key : GoString} {p : Document} {place : List ℕ} {db : DocStore}
    {d : Document} (h : (db c)[key]? = some d) :
    perform ⟨.update c key p, place⟩ db = (.ok (), db.set c ((db c).insert key (d.patch p)))
  update_missing {c : Col} {key : GoString} {p : Document} {place : List ℕ} {db : DocStore}
    (h : (db c)[key]? = none) : perform ⟨.update c key p, place⟩ db = (.error .notFound, db)
  delete_found {c : Col} {key : GoString} {place : List ℕ} {db : DocStore} {d : Document}
    (h : (db c)[key]? = some d) :
    perform ⟨.delete c key, place⟩ db = (.ok (), db.set c ((db c).erase key))
  delete_missing {c : Col} {key : GoString} {place : List ℕ} {db : DocStore}
    (h : (db c)[key]? = none) : perform ⟨.delete c key, place⟩ db = (.error .notFound, db)
  /-- Any of those that meet the condition is found. -/
  find {c : Col} {cond : Document → Bool} {place : List ℕ} {db : DocStore} :
    perform ⟨.find c cond, place⟩ db = (.ok (matching order (db c) cond).head?, db)
  findAll {c : Col} {cond : Document → Bool} {place : List ℕ} {db : DocStore} :
    perform ⟨.findAll c cond, place⟩ db = (.ok (matching order (db c) cond), db)

/-- What a database in memory does. -/
def performInMemory (made : GoString) (order : MapRange) :
    (i : Call) → DocStore → Reply i × DocStore
  | ⟨.read c key, _⟩, db =>
    match (db c)[key]? with
    | some d => (.ok (withKey key d), db)
    | none => (.error .notFound, db)
  | ⟨.create c key doc, _⟩, db =>
    match (db c)[keyOfNew made key]? with
    | some _ => (.error (.other (str "unique constraint violated")), db)
    | none => (.ok (keyOfNew made key),
        db.set c ((db c).insert (keyOfNew made key) (ownAttributes doc)))
  | ⟨.update c key p, _⟩, db =>
    match (db c)[key]? with
    | some d => (.ok (), db.set c ((db c).insert key (d.patch p)))
    | none => (.error .notFound, db)
  | ⟨.delete c key, _⟩, db =>
    match (db c)[key]? with
    | some _ => (.ok (), db.set c ((db c).erase key))
    | none => (.error .notFound, db)
  | ⟨.find c cond, _⟩, db => (.ok (matching order (db c) cond).head?, db)
  | ⟨.findAll c cond, _⟩, db => (.ok (matching order (db c) cond), db)

/-- A database in memory. -/
def inMemory (made : GoString) (order : MapRange) : DatabaseServer made order where
  perform := performInMemory made order
  read_found h := by rw [performInMemory, h]
  read_missing h := by rw [performInMemory, h]
  create_taken h := by rw [performInMemory, h]
  create_free h := by rw [performInMemory, h]
  update_found h := by rw [performInMemory, h]
  update_missing h := by rw [performInMemory, h]
  delete_found h := by rw [performInMemory, h]
  delete_missing h := by rw [performInMemory, h]
  find := rfl
  findAll := rfl

/-- How a call goes, with what the database is free to choose: the key of a new document that has
none, and the order in which documents are met. -/
structure Answer where
  outcome : Outcome := .ok
  key : GoString := []
  order : MapRange := .byKey
  database : DatabaseServer key order := inMemory key order

/-- The key of a new document. -/
def newKey (a : Answer) (key : GoString) : GoString := keyOfNew a.key key

/-- What is replied where nothing fails, and what is left. -/
def perform (a : Answer) (i : Call) (db : DocStore) : Reply i × DocStore := a.database.perform i db

section Perform

variable (a : Answer) (c : Col) (key : GoString) (place : List ℕ) (db : DocStore)

theorem perform_read : perform a ⟨.read c key, place⟩ db =
    match (db c)[key]? with
    | some d => (.ok (withKey key d), db)
    | none => (.error .notFound, db) := by
  rcases h : (db c)[key]? with _ | d
  · exact a.database.read_missing h
  · exact a.database.read_found h

theorem perform_create (doc : Document) : perform a ⟨.create c key doc, place⟩ db =
    match (db c)[newKey a key]? with
    | some _ => (.error (.other (str "unique constraint violated")), db)
    | none => (.ok (newKey a key), db.set c ((db c).insert (newKey a key) (ownAttributes doc))) := by
  rcases h : (db c)[newKey a key]? with _ | d
  · exact a.database.create_free h
  · exact a.database.create_taken h

theorem perform_update (p : Document) : perform a ⟨.update c key p, place⟩ db =
    match (db c)[key]? with
    | some d => (.ok (), db.set c ((db c).insert key (d.patch p)))
    | none => (.error .notFound, db) := by
  rcases h : (db c)[key]? with _ | d
  · exact a.database.update_missing h
  · exact a.database.update_found h

theorem perform_delete : perform a ⟨.delete c key, place⟩ db =
    match (db c)[key]? with
    | some _ => (.ok (), db.set c ((db c).erase key))
    | none => (.error .notFound, db) := by
  rcases h : (db c)[key]? with _ | d
  · exact a.database.delete_missing h
  · exact a.database.delete_found h

theorem perform_find (cond : Document → Bool) : perform a ⟨.find c cond, place⟩ db =
    (.ok (matching a.order (db c) cond).head?, db) := a.database.find

theorem perform_findAll (cond : Document → Bool) : perform a ⟨.findAll c cond, place⟩ db =
    (.ok (matching a.order (db c) cond), db) := a.database.findAll

end Perform

/-- What is replied where a call fails. -/
def failure (msg : GoString) : (i : Call) → Reply i
  | ⟨.read _ _, _⟩ => .error (.other msg)
  | ⟨.create _ _ _, _⟩ => .error (.other msg)
  | ⟨.update _ _ _, _⟩ => .error (.other msg)
  | ⟨.delete _ _, _⟩ => .error (.other msg)
  | ⟨.find _ _, _⟩ => .error (.other msg)
  | ⟨.findAll _ _, _⟩ => .error (.other msg)

/-- The database, on a call that goes as an answer says. -/
def serve (a : Answer) : Prog.Service Reply DocStore := fun i db =>
  match a.outcome with
  | .ok => ((perform a i db).1, (perform a i db).2)
  | .failed msg => (some (failure msg i), db)
  | .down => (none, db)

/-- The database, on the calls of a program, each of which has an answer. -/
def serveAll (answers : Call → Answer) : Prog.Service Reply DocStore := fun i => serve (answers i) i

/-- A program on the database. -/
abbrev DB := Prog Reply

def readDoc (c : Col) (key : GoString) (place : List ℕ) : DB (Except DbError Document) :=
  Prog.send (Call.mk (.read c key) place)

def createDoc (c : Col) (key : GoString) (doc : Document) (place : List ℕ) :
    DB (Except DbError GoString) := Prog.send (Call.mk (.create c key doc) place)

def updateDoc (c : Col) (key : GoString) (p : Document) (place : List ℕ) :
    DB (Except DbError Unit) := Prog.send (Call.mk (.update c key p) place)

def deleteDoc (c : Col) (key : GoString) (place : List ℕ) : DB (Except DbError Unit) :=
  Prog.send (Call.mk (.delete c key) place)

def findDoc (c : Col) (cond : Document → Bool) (place : List ℕ) :
    DB (Except DbError (Option Document)) := Prog.send (Call.mk (.find c cond) place)

def findDocs (c : Col) (cond : Document → Bool) (place : List ℕ) :
    DB (Except DbError (List Document)) := Prog.send (Call.mk (.findAll c cond) place)

/-- The text of an error of the database. -/
def DbError.text : DbError → GoString
  | .notFound => str "document not found"
  | .other msg => msg

/-- `ReadDocument` of a structure, or what it fails with. -/
def readAs (times : TimeFormat) (fields : Fields) (c : Col) (key : GoString) (place : List ℕ) :
    DB (Except DbError Document) := do
  match ← readDoc c key place with
  | .error e => pure (.error e)
  | .ok d =>
    if d.Reads times fields then pure (.ok d)
    else pure (.error (.other (str "json: cannot unmarshal")))

/-- A repository's `GetByID`, which names the document that it does not find. -/
def getByKey (times : TimeFormat) (fields : Fields) (c : Col) (resource : String)
    (key : GoString) (place : List ℕ) : DB (Except GoString Document) := do
  match ← readAs times fields c key place with
  | .error .notFound => pure (.error (str resource ++ str " " ++ key ++ str " not found"))
  | .error (.other msg) => pure (.error msg)
  | .ok d => pure (.ok d)

/-- A patch with the time of the update. -/
def stamp (times : TimeFormat) (now : Time) (p : Document) : Document :=
  p.insert (str "updated_at") (.str (times.text now))

theorem getElem?_stamp {times : TimeFormat} {now : Time} {p : Document} {name : GoString}
    (h : name ≠ str "updated_at") : (stamp times now p)[name]? = p[name]? := by
  rw [stamp, GoMap.getElem?_insert, if_neg h]

/-- A repository's `Update`, which writes the time of the update too. -/
def patchByKey (times : TimeFormat) (now : Time) (c : Col) (key : GoString) (p : Document)
    (place : List ℕ) : DB (Except GoString Unit) := do
  match ← updateDoc c key (stamp times now p) place with
  | .error e => pure (.error e.text)
  | .ok () => pure (.ok ())

/-- A repository's `Delete`. -/
def deleteByKey (c : Col) (key : GoString) (place : List ℕ) : DB (Except GoString Unit) := do
  match ← deleteDoc c key place with
  | .error e => pure (.error e.text)
  | .ok () => pure (.ok ())

section Calls

variable {P : Call → Prop} {c : Col} {key : GoString} {place : List ℕ}

theorem calls_readAs {times : TimeFormat} {fields : Fields} (h : P (Call.mk (.read c key) place)) :
    (readAs times fields c key place).Calls P := by
  refine Prog.Calls.bind (Prog.calls_send h) ?_
  rintro (e | d)
  · exact trivial
  · dsimp only
    split <;> exact trivial

theorem calls_getByKey {times : TimeFormat} {fields : Fields} {resource : String}
    (h : P (Call.mk (.read c key) place)) :
    (getByKey times fields c resource key place).Calls P := by
  refine (calls_readAs h).bind ?_
  rintro ((_ | msg) | d) <;> exact trivial

theorem calls_patchByKey {times : TimeFormat} {now : Time} {p : Document}
    (h : P (Call.mk (.update c key (stamp times now p)) place)) :
    (patchByKey times now c key p place).Calls P := by
  refine Prog.Calls.bind (Prog.calls_send h) ?_
  rintro (e | _) <;> exact trivial

theorem calls_deleteByKey (h : P (Call.mk (.delete c key) place)) :
    (deleteByKey c key place).Calls P := by
  refine Prog.Calls.bind (Prog.calls_send h) ?_
  rintro (e | _) <;> exact trivial

end Calls

/-! ### Responses -/

/-- What a handler responds with, by the functions of `pkg/response`. -/
inductive Response (α : Type) where
  | ok (data : α)
  | badRequest (msg : GoString)
  | unauthorized (msg : GoString)
  | notFound (resource : GoString)
  | internalError (msg : GoString)

/-! ### What a call does -/

section Run

variable (answers : Call → Answer) (db : DocStore) (c : Col) (key : GoString) (place : List ℕ)

theorem serve_ok {a : Answer} (h : a.outcome = .ok) (i : Call) :
    serve a i db = (some (perform a i db).1, (perform a i db).2) := by
  rw [serve, h]

theorem serve_failed {a : Answer} {msg : GoString} (h : a.outcome = .failed msg) (i : Call) :
    serve a i db = (some (failure msg i), db) := by
  rw [serve, h]

theorem serve_down {a : Answer} (h : a.outcome = .down) (i : Call) : serve a i db = (none, db) := by
  rw [serve, h]

theorem run_readDoc : Prog.run (serveAll answers) (readDoc c key place) db =
    match (answers (Call.mk (.read c key) place)).outcome with
    | .ok => (some (match (db c)[key]? with
      | some d => .ok (withKey key d)
      | none => .error .notFound), db)
    | .failed msg => (some (.error (.other msg)), db)
    | .down => (none, db) := by
  refine (Prog.run_send _ db).trans ?_
  rw [serveAll]
  rcases h : (answers (Call.mk (.read c key) place)).outcome with _ | msg | _
  · rw [serve_ok db h, perform_read]
    split <;> rfl
  · exact serve_failed db h _
  · exact serve_down db h _

theorem run_findDoc (cond : Document → Bool) :
    Prog.run (serveAll answers) (findDoc c cond place) db =
      match (answers (Call.mk (.find c cond) place)).outcome with
      | .ok => (some (.ok (matching (answers (Call.mk (.find c cond) place)).order
          (db c) cond).head?), db)
      | .failed msg => (some (.error (.other msg)), db)
      | .down => (none, db) := by
  refine (Prog.run_send _ db).trans ?_
  rw [serveAll]
  rcases h : (answers (Call.mk (.find c cond) place)).outcome with _ | msg | _
  · rw [serve_ok db h, perform_find]
    rfl
  · exact serve_failed db h _
  · exact serve_down db h _

theorem run_createDoc (doc : Document) :
    Prog.run (serveAll answers) (createDoc c key doc place) db =
      match (answers (Call.mk (.create c key doc) place)).outcome with
      | .ok => match (db c)[newKey (answers (Call.mk (.create c key doc) place)) key]? with
        | some _ => (some (.error (.other (str "unique constraint violated"))), db)
        | none => (some (.ok (newKey (answers (Call.mk (.create c key doc) place)) key)),
            db.set c ((db c).insert (newKey (answers (Call.mk (.create c key doc) place)) key)
              (ownAttributes doc)))
      | .failed msg => (some (.error (.other msg)), db)
      | .down => (none, db) := by
  refine (Prog.run_send _ db).trans ?_
  rw [serveAll]
  rcases h : (answers (Call.mk (.create c key doc) place)).outcome with _ | msg | _
  · rw [serve_ok db h, perform_create]
    split <;> rfl
  · exact serve_failed db h _
  · exact serve_down db h _

theorem run_updateDoc (p : Document) : Prog.run (serveAll answers) (updateDoc c key p place) db =
    match (answers (Call.mk (.update c key p) place)).outcome with
    | .ok => match (db c)[key]? with
      | some d => (some (.ok ()), db.set c ((db c).insert key (d.patch p)))
      | none => (some (.error .notFound), db)
    | .failed msg => (some (.error (.other msg)), db)
    | .down => (none, db) := by
  refine (Prog.run_send _ db).trans ?_
  rw [serveAll]
  rcases h : (answers (Call.mk (.update c key p) place)).outcome with _ | msg | _
  · rw [serve_ok db h, perform_update]
    split <;> rfl
  · exact serve_failed db h _
  · exact serve_down db h _

end Run

/-! ### Where no call fails -/

section NoFailure

variable {answers : Call → Answer} (hok : ∀ i, (answers i).outcome = .ok) (db : DocStore) (c : Col)
  (key : GoString) (place : List ℕ)

include hok

theorem run_send_of_ok (i : Call) : Prog.run (serveAll answers) (Prog.send i) db =
    (some (perform (answers i) i db).1, (perform (answers i) i db).2) :=
  (Prog.run_send i db).trans (serve_ok db (hok i) i)

theorem run_findDocs_of_ok (cond : Document → Bool) :
    Prog.run (serveAll answers) (findDocs c cond place) db =
      (some (.ok (matching (answers (Call.mk (.findAll c cond) place)).order (db c) cond)), db) := by
  refine (run_send_of_ok hok db _).trans ?_
  rw [perform_findAll]
  rfl

theorem run_createDoc_of_ok (doc : Document) :
    Prog.run (serveAll answers) (createDoc c key doc place) db =
      match (db c)[newKey (answers (Call.mk (.create c key doc) place)) key]? with
      | some _ => (some (.error (.other (str "unique constraint violated"))), db)
      | none => (some (.ok (newKey (answers (Call.mk (.create c key doc) place)) key)),
          db.set c ((db c).insert (newKey (answers (Call.mk (.create c key doc) place)) key)
            (ownAttributes doc))) := by
  rw [run_createDoc, hok]

theorem run_patchByKey_of_ok (times : TimeFormat) (now : Time) (p : Document) :
    Prog.run (serveAll answers) (patchByKey times now c key p place) db =
      match (db c)[key]? with
      | some d => (some (.ok ()), db.set c ((db c).insert key (d.patch (stamp times now p))))
      | none => (some (.error DbError.notFound.text), db) := by
  rw [patchByKey, Prog.run_bind, run_updateDoc, hok]
  dsimp only
  rcases (db c)[key]? with _ | d
  · rfl
  · rfl

theorem run_deleteByKey_of_ok : Prog.run (serveAll answers) (deleteByKey c key place) db =
    match (db c)[key]? with
    | some _ => (some (.ok ()), db.set c ((db c).erase key))
    | none => (some (.error DbError.notFound.text), db) := by
  have hcall : Prog.run (serveAll answers) (deleteDoc c key place) db =
      match (db c)[key]? with
      | some _ => (some (.ok ()), db.set c ((db c).erase key))
      | none => (some (.error .notFound), db) := by
    refine (run_send_of_ok hok db _).trans ?_
    rw [perform_delete]
    split <;> rfl
  rw [deleteByKey, Prog.run_bind, hcall]
  rcases (db c)[key]? with _ | d
  · rfl
  · rfl

end NoFailure

/-! ### Where every call succeeds -/

/-- A reply that is no error. -/
def Reply.isOk : (i : Call) → Reply i → Bool
  | ⟨.read _ _, _⟩, r => Except.isOk r
  | ⟨.create _ _ _, _⟩, r => Except.isOk r
  | ⟨.update _ _ _, _⟩, r => Except.isOk r
  | ⟨.delete _ _, _⟩, r => Except.isOk r
  | ⟨.find _ _, _⟩, r => Except.isOk r
  | ⟨.findAll _ _, _⟩, r => Except.isOk r

/-- A call is replied, and with no error. -/
def Succeeds (answers : Call → Answer) (i : Call) (db : DocStore) : Prop :=
  ∃ r, (serveAll answers i db).1 = some r ∧ Reply.isOk i r = true

instance (answers : Call → Answer) (i : Call) (db : DocStore) : Decidable (Succeeds answers i db) :=
  decidable_of_iff ((serveAll answers i db).1.any (Reply.isOk i) = true) (by
    rw [Option.any_eq_true, Succeeds])

/-- Every call that a program makes succeeds. -/
abbrev AllSucceed {α : Type} (answers : Call → Answer) (p : DB α) (db : DocStore) : Prop :=
  p.Along (serveAll answers) (Succeeds answers) db

section Succeed

variable {answers : Call → Answer} {i : Call} {db : DocStore} {α : Type}

theorem outcome_of_succeeds (h : Succeeds answers i db) : (answers i).outcome = .ok := by
  obtain ⟨r, hr, hok⟩ := h
  rw [serveAll] at hr
  rcases ho : (answers i).outcome with _ | msg | _
  · rfl
  · rw [serve_failed db ho] at hr
    cases hr
    rcases i with ⟨_ | _ | _ | _ | _ | _, place⟩ <;>
      exact absurd hok (by simp [failure, Reply.isOk, Except.isOk, Except.toBool])
  · rw [serve_down db ho] at hr
    exact absurd hr (by simp)

/-- A call that succeeds is performed. -/
theorem perform_of_succeeds (h : Succeeds answers i db) :
    serveAll answers i db = (some (perform (answers i) i db).1, (perform (answers i) i db).2) ∧
      Reply.isOk i (perform (answers i) i db).1 = true := by
  have hserve := serve_ok db (outcome_of_succeeds h) i
  obtain ⟨r, hr, hok⟩ := h
  rw [serveAll, hserve] at hr
  cases hr
  exact ⟨hserve, hok⟩

/-- The first call of a program, and what it goes on with. -/
theorem AllSucceed.first {next : Reply i → DB α} (h : AllSucceed answers (.call i next) db) :
    Reply.isOk i (perform (answers i) i db).1 = true ∧
      AllSucceed answers (next (perform (answers i) i db).1) (perform (answers i) i db).2 ∧
      Prog.run (serveAll answers) (.call i next) db =
        Prog.run (serveAll answers) (next (perform (answers i) i db).1) (perform (answers i) i db).2 := by
  obtain ⟨hsucceeds, hrest⟩ := Prog.along_call.mp h
  obtain ⟨hserve, hok⟩ := perform_of_succeeds hsucceeds
  rw [hserve] at hrest
  exact ⟨hok, hrest, Prog.run_call_some hserve⟩

variable {c : Col} {key : GoString} {place : List ℕ}

theorem AllSucceed.createDoc {doc : Document} {f : Except DbError GoString → DB α}
    (h : AllSucceed answers (createDoc c key doc place >>= f) db) {k : GoString}
    (hk : newKey (answers (Call.mk (.create c key doc) place)) key = k) :
    (db c)[k]? = none ∧
      AllSucceed answers (f (.ok k)) (db.set c ((db c).insert k (ownAttributes doc))) ∧
      Prog.run (serveAll answers) (createDoc c key doc place >>= f) db =
        Prog.run (serveAll answers) (f (.ok k)) (db.set c ((db c).insert k (ownAttributes doc))) := by
  obtain ⟨hok, hrest, hrun⟩ := AllSucceed.first h
  rw [perform_create, hk] at hok hrest hrun
  rcases hget : (db c)[k]? with _ | d
  · rw [hget] at hrest hrun
    exact ⟨rfl, hrest, hrun⟩
  · rw [hget] at hok
    exact absurd hok (by simp [Reply.isOk, Except.isOk, Except.toBool])

/-- A call to read a document that succeeds finds it. -/
theorem AllSucceed.read {next : Except DbError Document → DB α}
    (h : AllSucceed answers (.call (Call.mk (.read c key) place) next) db) :
    ∃ d, (db c)[key]? = some d ∧ AllSucceed answers (next (.ok (withKey key d))) db ∧
      Prog.run (serveAll answers) (.call (Call.mk (.read c key) place) next) db =
        Prog.run (serveAll answers) (next (.ok (withKey key d))) db := by
  obtain ⟨hok, hrest, hrun⟩ := AllSucceed.first h
  rw [perform_read] at hok hrest hrun
  rcases hget : (db c)[key]? with _ | d
  · rw [hget] at hok
    exact absurd hok (by simp [Reply.isOk, Except.isOk, Except.toBool])
  · rw [hget] at hrest hrun
    exact ⟨d, rfl, hrest, hrun⟩

/-- A call to update a document that succeeds finds it, and patches it. -/
theorem AllSucceed.update {p : Document} {next : Except DbError Unit → DB α}
    (h : AllSucceed answers (.call (Call.mk (.update c key p) place) next) db) :
    ∃ d, (db c)[key]? = some d ∧
      AllSucceed answers (next (.ok ())) (db.set c ((db c).insert key (d.patch p))) ∧
      Prog.run (serveAll answers) (.call (Call.mk (.update c key p) place) next) db =
        Prog.run (serveAll answers) (next (.ok ())) (db.set c ((db c).insert key (d.patch p))) := by
  obtain ⟨hok, hrest, hrun⟩ := AllSucceed.first h
  rw [perform_update] at hok hrest hrun
  rcases hget : (db c)[key]? with _ | d
  · rw [hget] at hok
    exact absurd hok (by simp [Reply.isOk, Except.isOk, Except.toBool])
  · rw [hget] at hrest hrun
    exact ⟨d, rfl, hrest, hrun⟩

/-- A call to delete a document that succeeds finds it, and takes it out. -/
theorem AllSucceed.delete {next : Except DbError Unit → DB α}
    (h : AllSucceed answers (.call (Call.mk (.delete c key) place) next) db) :
    ∃ d, (db c)[key]? = some d ∧
      AllSucceed answers (next (.ok ())) (db.set c ((db c).erase key)) ∧
      Prog.run (serveAll answers) (.call (Call.mk (.delete c key) place) next) db =
        Prog.run (serveAll answers) (next (.ok ())) (db.set c ((db c).erase key)) := by
  obtain ⟨hok, hrest, hrun⟩ := AllSucceed.first h
  rw [perform_delete] at hok hrest hrun
  rcases hget : (db c)[key]? with _ | d
  · rw [hget] at hok
    exact absurd hok (by simp [Reply.isOk, Except.isOk, Except.toBool])
  · rw [hget] at hrest hrun
    exact ⟨d, rfl, hrest, hrun⟩

theorem AllSucceed.readDoc {f : Except DbError Document → DB α}
    (h : AllSucceed answers (readDoc c key place >>= f) db) :
    ∃ d, (db c)[key]? = some d ∧ AllSucceed answers (f (.ok (withKey key d))) db ∧
      Prog.run (serveAll answers) (readDoc c key place >>= f) db =
        Prog.run (serveAll answers) (f (.ok (withKey key d))) db :=
  AllSucceed.read h

theorem AllSucceed.updateDoc {p : Document} {f : Except DbError Unit → DB α}
    (h : AllSucceed answers (updateDoc c key p place >>= f) db) :
    ∃ d, (db c)[key]? = some d ∧
      AllSucceed answers (f (.ok ())) (db.set c ((db c).insert key (d.patch p))) ∧
      Prog.run (serveAll answers) (updateDoc c key p place >>= f) db =
        Prog.run (serveAll answers) (f (.ok ())) (db.set c ((db c).insert key (d.patch p))) :=
  AllSucceed.update h

theorem AllSucceed.deleteDoc {f : Except DbError Unit → DB α}
    (h : AllSucceed answers (deleteDoc c key place >>= f) db) :
    ∃ d, (db c)[key]? = some d ∧
      AllSucceed answers (f (.ok ())) (db.set c ((db c).erase key)) ∧
      Prog.run (serveAll answers) (deleteDoc c key place >>= f) db =
        Prog.run (serveAll answers) (f (.ok ())) (db.set c ((db c).erase key)) :=
  AllSucceed.delete h

/-- A repository's `GetByID` that succeeds, unless the document cannot be read. -/
theorem AllSucceed.getByKey {times : TimeFormat} {fields : Fields} {resource : String}
    {f : Except GoString Document → DB α}
    (h : AllSucceed answers (getByKey times fields c resource key place >>= f) db) :
    ∃ d r, (db c)[key]? = some d ∧
      (r = .ok (withKey key d) ∨ ∃ msg, r = .error msg ∧ ¬(withKey key d).Reads times fields) ∧
      AllSucceed answers (f r) db ∧
      Prog.run (serveAll answers) (getByKey times fields c resource key place >>= f) db =
        Prog.run (serveAll answers) (f r) db := by
  obtain ⟨d, hd, hrest, hrun⟩ := AllSucceed.read h
  -- what is read goes through the two programs around the call
  simp only [Prog.bind] at hrest
  refine ⟨d, if (withKey key d).Reads times fields then .ok (withKey key d)
    else .error (str "json: cannot unmarshal"), hd, ?_, ?_, hrun.trans ?_⟩
  · split_ifs with hreads
    · exact .inl rfl
    · exact .inr ⟨_, rfl, hreads⟩
  · split_ifs at hrest ⊢ <;> exact hrest
  · simp only [Prog.bind]
    split_ifs <;> rfl

theorem AllSucceed.patchByKey {times : TimeFormat} {now : Time} {p : Document}
    {f : Except GoString Unit → DB α}
    (h : AllSucceed answers (patchByKey times now c key p place >>= f) db) :
    ∃ d, (db c)[key]? = some d ∧
      AllSucceed answers (f (.ok ())) (db.set c ((db c).insert key (d.patch (stamp times now p)))) ∧
      Prog.run (serveAll answers) (patchByKey times now c key p place >>= f) db =
        Prog.run (serveAll answers) (f (.ok ()))
          (db.set c ((db c).insert key (d.patch (stamp times now p)))) :=
  AllSucceed.update h

theorem AllSucceed.deleteByKey {f : Except GoString Unit → DB α}
    (h : AllSucceed answers (deleteByKey c key place >>= f) db) :
    ∃ d, (db c)[key]? = some d ∧
      AllSucceed answers (f (.ok ())) (db.set c ((db c).erase key)) ∧
      Prog.run (serveAll answers) (deleteByKey c key place >>= f) db =
        Prog.run (serveAll answers) (f (.ok ())) (db.set c ((db c).erase key)) :=
  AllSucceed.delete h

end Succeed

/-! ### What a call leaves -/

/-- What a call that writes may do to the database. -/
inductive Effect (db : DocStore) (a : Answer) : Op → DocStore → Prop where
  | create {c : Col} {key : GoString} {doc : Document} (h : (db c)[newKey a key]? = none) :
      Effect db a (.create c key doc) (db.set c ((db c).insert (newKey a key) (ownAttributes doc)))
  | update {c : Col} {key : GoString} {p d : Document} (h : (db c)[key]? = some d) :
      Effect db a (.update c key p) (db.set c ((db c).insert key (d.patch p)))
  | delete {c : Col} {key : GoString} {d : Document} (h : (db c)[key]? = some d) :
      Effect db a (.delete c key) (db.set c ((db c).erase key))

/-- **A call leaves the database as it is, or writes what it asks for.** -/
theorem serve_cases (a : Answer) (i : Call) (db : DocStore) :
    (serve a i db).2 = db ∨ (a.outcome = .ok ∧ Effect db a i.op (serve a i db).2) := by
  rw [serve]
  rcases a.outcome with _ | msg | _
  · rcases i with ⟨op, place⟩
    cases op with
    | read c key =>
      refine .inl ?_
      simp only [perform_read]
      split <;> rfl
    | create c key doc =>
      cases h : (db c)[newKey a key]? with
      | some d => exact .inl (by simp only [perform_create, h])
      | none =>
        refine .inr ⟨rfl, ?_⟩
        simp only [perform_create, h]
        exact .create h
    | update c key p =>
      cases h : (db c)[key]? with
      | none => exact .inl (by simp only [perform_update, h])
      | some d =>
        refine .inr ⟨rfl, ?_⟩
        simp only [perform_update, h]
        exact .update h
    | delete c key =>
      cases h : (db c)[key]? with
      | none => exact .inl (by simp only [perform_delete, h])
      | some d =>
        refine .inr ⟨rfl, ?_⟩
        simp only [perform_delete, h]
        exact .delete h
    | find c cond => exact .inl (congrArg Prod.snd (perform_find ..))
    | findAll c cond => exact .inl (congrArg Prod.snd (perform_findAll ..))
  · exact .inl rfl
  · exact .inl rfl

/-- What is asked for is to read. -/
def Op.isRead : Op → Bool
  | .read _ _ | .find _ _ | .findAll _ _ => true
  | .create _ _ _ | .update _ _ _ | .delete _ _ => false

/-- Reading leaves the database as it is. -/
theorem serve_of_isRead {i : Call} (h : i.op.isRead = true) (a : Answer) (db : DocStore) :
    (serve a i db).2 = db := by
  obtain hsame | ⟨-, heffect⟩ := serve_cases a i db
  · exact hsame
  · exfalso
    generalize (serve a i db).2 = db' at heffect
    generalize i.op = op at h heffect
    cases heffect <;> cases h

/-- A call leaves the collections that it does not ask as they are. -/
theorem serve_apply_of_ne {i : Call} {c : Col} (h : i.op.col ≠ c) (a : Answer) (db : DocStore) :
    (serve a i db).2 c = db c := by
  obtain hsame | ⟨-, heffect⟩ := serve_cases a i db
  · rw [hsame]
  · generalize (serve a i db).2 = db' at heffect
    generalize i.op = op at h heffect
    cases heffect <;> exact (DocStore.set_apply ..).trans (if_neg (Ne.symm h))

end Repository

end Xsiam
