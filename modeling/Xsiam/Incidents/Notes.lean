import Xsiam.Incidents.ManualLinks
import Xsiam.Lib.Copies

/-!
# The notes of an incident

`Service.AddNote` of `internal/domain/incident` reads an incident, adds a note to the notes that it has
read, and writes them all back. Nothing keeps two requests from reading the same notes, and then the one
that writes last writes over the note of the other, which was told that its note was added.

So every note that was added is there exactly if no request has written since the notes were read that are
written back (`Xsiam.Incidents.notes_kept_iff`), whatever else is done to the incident meanwhile.
-/

namespace Xsiam

namespace Incidents

open Go Repository

/-! ### Notes -/

/-- `model.IncidentNote`, with its time as it is written. -/
structure IncidentNote where
  noteID : GoString
  content : GoString
  authorID : GoString
  authorName : GoString
  createdAt : GoString
deriving DecidableEq

/-- A note as it is written. -/
def IncidentNote.value (note : IncidentNote) : Value :=
  .obj [(str "author_id", .str note.authorID), (str "author_name", .str note.authorName),
    (str "content", .str note.content), (str "created_at", .str note.createdAt),
    (str "note_id", .str note.noteID)]

/-- A note as it is read. -/
def noteOf (v : Value) : IncidentNote :=
  let kvs := match v with
    | .obj kvs => kvs
    | _ => []
  { noteID := Document.valueText (entryValue kvs (str "note_id"))
    content := Document.valueText (entryValue kvs (str "content"))
    authorID := Document.valueText (entryValue kvs (str "author_id"))
    authorName := Document.valueText (entryValue kvs (str "author_name"))
    createdAt :=
      match entryValue kvs (str "created_at") with
      | .str s => s
      | _ => str "0001-01-01T00:00:00Z" }

/-- The notes that an incident is read with. -/
def notesOf (d : Document) : List IncidentNote := (d.list (str "notes")).map noteOf

/-- Notes as they are written. -/
def notesPatch (notes : List IncidentNote) : Document :=
  Document.ofEntries [("notes", .arr (notes.map IncidentNote.value))]

/-- `AddNote`, with the note that it makes. -/
def addNote (times : TimeFormat) (now : Time) (incidentKey : GoString) (note : IncidentNote) :
    DB (Except GoString Unit) := do
  match ← getIncident times incidentKey [] with
  | .error msg => pure (.error msg)
  | .ok inc => patchByKey times now .incidents incidentKey (notesPatch (notesOf inc ++ [note])) []

/-- The notes of an incident that are stored. -/
def storedNotes (db : DocStore) (incidentKey : GoString) : List IncidentNote :=
  ((db .incidents)[incidentKey]?.map notesOf).getD []

/-! ### Requests that run together -/

/-- A request to add a note, one that links alerts and incidents, or any other one. -/
inductive NoteRequest where
  | addNote (incidentKey : GoString) (note : IncidentNote) (now : Time)
  | link (req : LinkRequest) (now : Time)
  | other (p : DB (Except GoString Unit))

/-- The program of a request. -/
def NoteRequest.program (times : TimeFormat) : NoteRequest → DB (Except GoString Unit)
  | .addNote incidentKey note now => Incidents.addNote times now incidentKey note
  | .link req now => linkProgram times now req >>= fun r => pure (r.map fun _ => ())
  | .other p => p

/-- The database, and the requests that are under way. -/
abbrev NotePool := Prog.Pool Reply NoteRequest DocStore (Except GoString Unit)

/-- What happens there. -/
abbrev NoteEvent := Prog.Pool.Event NoteRequest Answer

/-- What is asked for neither deletes an incident nor writes its notes. -/
def Spares (incidentKey : GoString) : Op → Prop
  | .update .incidents key p => key = incidentKey → p[str "notes"]? = none
  | .delete .incidents key => key ≠ incidentKey
  | _ => True

/-- A request that does not delete an incident. -/
def LinkRequest.Leaves (key : GoString) : LinkRequest → Prop
  | .deleteIncident k => k ≠ key
  | .mergeIncidents _ sks => key ∉ sks
  | _ => True

/-- Other requests spare the incident, and each note that is to be added to it is a new one. -/
def Orderly (init : DocStore) (incidentKey : GoString) (hist : Run.History NotePool NoteEvent)
    (_ : NotePool) : NoteEvent → Prop
  | .start _ (.link req _) => req.Leaves incidentKey
  | .start _ (.other p) => p.Calls fun i => Spares incidentKey i.op
  | .start _ (.addNote key note _) => key = incidentKey → note ∉ storedNotes init incidentKey ∧
      ∀ e ∈ hist, ∀ id now, e.2 ≠ .start id (.addNote incidentKey note now)
  | .call _ _ => True

/-- A request that writes notes writes those that are stored, and one more. -/
def WritesFresh (incidentKey : GoString) (s : NotePool) : NoteEvent → Prop
  | .start _ _ => True
  | .call id a => ∀ note now p place next,
      s.tasks id = some (.addNote incidentKey note now,
        .call (Repository.Call.mk (.update .incidents incidentKey p) place) next) →
      a.outcome = .ok → notesOf p = storedNotes s.store incidentKey ++ [note]

/-- A call that does nothing writes over nothing. -/
theorem writesFresh_of_ne_ok {key : GoString} {s : NotePool} {id : ℕ} {a : Answer}
    (hout : a.outcome ≠ .ok) : WritesFresh key s (.call id a) := by
  intro note now p place next htask hok
  exact absurd hok hout

/-! ### What is written and read -/

theorem noteOf_value (note : IncidentNote) : noteOf note.value = note := by
  cases note
  simp [noteOf, IncidentNote.value, entryValue, Document.valueText, str_inj]

theorem get_notesPatch (times : TimeFormat) (now : Time) (notes : List IncidentNote) :
    (stamp times now (notesPatch notes))[str "notes"]? = some (.arr (notes.map IncidentNote.value)) := by
  rw [getElem?_stamp (by decide), notesPatch]
  exact (Document.getElem?_ofEntries (by simp) "notes" _).mpr List.mem_cons_self

theorem notesOf_of_get {d : Document} {notes : List IncidentNote}
    (h : d.get (str "notes") = .arr (notes.map IncidentNote.value)) : notesOf d = notes := by
  rw [notesOf, Document.list, h]
  dsimp only
  rw [List.map_map]
  exact List.map_id'' noteOf_value notes

theorem notesOf_congr {d d' : Document} (h : d.get (str "notes") = d'.get (str "notes")) :
    notesOf d = notesOf d' := by
  rw [notesOf, notesOf, Document.list, Document.list, h]

theorem notesOf_withKey (key : GoString) (d : Document) : notesOf (withKey key d) = notesOf d := by
  refine notesOf_congr ?_
  rw [get_withKey, if_neg (by decide)]

theorem notesOf_stamp (times : TimeFormat) (now : Time) (notes : List IncidentNote) :
    notesOf (stamp times now (notesPatch notes)) = notes := by
  refine notesOf_of_get ?_
  rw [Document.get, get_notesPatch, Option.getD_some]

/-- The notes of a document are those that are written to it. -/
theorem notesOf_patch (times : TimeFormat) (now : Time) (d : Document) (notes : List IncidentNote) :
    notesOf (d.patch (stamp times now (notesPatch notes))) = notes := by
  refine notesOf_of_get ?_
  rw [Document.get_patch_of_some (get_notesPatch times now notes) (by decide), mergeValue_arr]

/-! ### What a request does -/

section Programs

variable {times : TimeFormat} {now : Time} {key : GoString} {note : IncidentNote}

/-- What is left of a request when the incident has been read: the notes are written. -/
def writeNotes (times : TimeFormat) (now : Time) (key : GoString) (notes : List IncidentNote) :
    DB (Except GoString Unit) :=
  .call (Repository.Call.mk (.update .incidents key (stamp times now (notesPatch notes))) [])
    fun r : Except DbError Unit => .done (r.mapError DbError.text)

theorem patchByKey_notesPatch (notes : List IncidentNote) :
    patchByKey times now .incidents key (notesPatch notes) [] = writeNotes times now key notes := by
  rw [writeNotes]
  show Prog.call _ _ = Prog.call _ _
  congr 1
  funext r
  rcases r with e | ⟨⟩
  · rfl
  · rfl

/-- A request to add a note reads the incident. Then it is over, or it writes. -/
theorem addNote_eq : ∃ next : Except DbError Document → DB (Except GoString Unit),
    addNote times now key note = .call (Repository.Call.mk (.read .incidents key) []) next ∧
      ∀ r, (∃ msg, next r = .done (.error msg)) ∨
        ∃ d, r = .ok d ∧ next r = writeNotes times now key (notesOf d ++ [note]) := by
  refine ⟨_, rfl, fun r => ?_⟩
  rcases r with (_ | msg) | d
  · exact .inl ⟨_, rfl⟩
  · exact .inl ⟨_, rfl⟩
  · by_cases hreads : d.Reads times incidentFields
    · refine .inr ⟨d, rfl, ?_⟩
      simp only [Prog.bind, if_pos hreads]
      exact patchByKey_notesPatch (notesOf d ++ [note])
    · refine .inl ⟨str "json: cannot unmarshal", ?_⟩
      simp only [Prog.bind, if_neg hreads]
      rfl

/-- A request for another incident spares this one. -/
theorem calls_addNote {incidentKey : GoString} (h : key ≠ incidentKey) :
    (addNote times now key note).Calls fun i => Spares incidentKey i.op := by
  refine (calls_getByKey trivial).bind ?_
  rintro (msg | d)
  · exact trivial
  · exact calls_patchByKey fun hkey => absurd hkey h

end Programs

section Others

variable {times : TimeFormat} {now : Time} {key : GoString}

theorem spares_of_isRead {op : Op} (h : op.isRead = true) : Spares key op := by
  cases op with
  | read c k => exact trivial
  | find c cond => exact trivial
  | findAll c cond => exact trivial
  | create c k doc => exact trivial
  | update c k p => exact Bool.noConfusion h
  | delete c k => exact Bool.noConfusion h

/-- What is asked to be written for a request spares an incident that it does not delete. -/
theorem LinkWrite.spares {req : LinkRequest} {op : Op} (h : LinkWrite times now req op)
    (hleaves : req.Leaves key) : Spares key op := by
  cases h with
  | deleteIncident => exact hleaves
  | absorb hmem => exact fun heq => hleaves (heq ▸ hmem)
  | merge =>
    intro _
    rw [getElem?_stamp (by decide), Merged.patch]
    exact Document.getElem?_ofEntries_of_notMem (by simp)
  | _ => exact trivial

/-- **The requests that link alerts and incidents** spare an incident that they do not delete. -/
theorem calls_linkProgram {req : LinkRequest} (h : req.Leaves key) :
    (linkProgram times now req).Calls fun i => Spares key i.op := by
  refine (linkProgram_asks req).mono ?_
  rintro i (hread | hwrite)
  · exact spares_of_isRead hread
  · exact hwrite.spares h

end Others

/-- An incident that is read is one that is stored. -/
theorem serve_read_eq_ok {a : Answer} {db : DocStore} {key : GoString} {d : Document}
    (h : (serve a (Repository.Call.mk (.read .incidents key) []) db).1 = some (Except.ok d)) :
    ∃ own, (db .incidents)[key]? = some own ∧ d = withKey key own := by
  rcases hout : a.outcome with - | msg | -
  · rw [serve_ok db hout, perform_read] at h
    rcases hown : (db .incidents)[key]? with - | own
    · rw [hown] at h
      cases h
    · rw [hown] at h
      exact ⟨own, rfl, (Except.ok.inj (Option.some.inj h)).symm⟩
  · rw [serve_failed db hout] at h
    cases h
  · rw [serve_down db hout] at h
    cases h

/-- An incident that is there can be written. -/
theorem serve_update {a : Answer} (hout : a.outcome = .ok) {db : DocStore} {key : GoString}
    {p d : Document} (hd : (db .incidents)[key]? = some d) :
    serve a (Repository.Call.mk (.update .incidents key p) []) db =
      (some (Except.ok ()), db.set .incidents ((db .incidents).insert key (d.patch p))) := by
  rw [serve_ok db hout, perform_update, hd]
  rfl

/-- A call that spares an incident leaves its notes as they are. -/
theorem serve_of_spares {incidentKey : GoString} {i : Repository.Call} (h : Spares incidentKey i.op) (a : Answer)
    {db : DocStore} {d : Document} (hd : (db .incidents)[incidentKey]? = some d) :
    ∃ d', ((serve a i db).2 .incidents)[incidentKey]? = some d' ∧ notesOf d' = notesOf d := by
  obtain hsame | ⟨-, heffect⟩ := serve_cases a i db
  · exact ⟨d, by rw [hsame, hd], rfl⟩
  generalize (serve a i db).2 = db' at heffect ⊢
  generalize i.op = op at h heffect
  cases heffect with
  | @create c key doc hnone =>
    rw [DocStore.set_apply]
    split_ifs with hcol
    · subst hcol
      refine ⟨d, ?_, rfl⟩
      rw [GoMap.getElem?_insert_of_ne, hd]
      intro hkey
      rw [← hkey, hd] at hnone
      cases hnone
    · exact ⟨d, hd, rfl⟩
  | @update c key p d₀ hd₀ =>
    rw [DocStore.set_apply]
    split_ifs with hcol
    · subst hcol
      rw [GoMap.getElem?_insert]
      split_ifs with hkey
      · subst hkey
        obtain rfl := Option.some.inj (hd.symm.trans hd₀)
        exact ⟨_, rfl, notesOf_congr (Document.get_patch_of_none (h rfl))⟩
      · exact ⟨d, hd, rfl⟩
    · exact ⟨d, hd, rfl⟩
  | @delete c key d₀ hd₀ =>
    rw [DocStore.set_apply]
    split_ifs with hcol
    · subst hcol
      rw [GoMap.getElem?_erase, if_neg (Ne.symm h)]
      exact ⟨d, hd, rfl⟩
    · exact ⟨d, hd, rfl⟩

/-! ### Requests and copies -/

/-- Where a request to add a note is, by the copies that have been taken of the notes and what was added. -/
inductive Stage (times : TimeFormat) (key : GoString) (c : WriteBack IncidentNote)
    (done : List IncidentNote) (id : ℕ) (note : IncidentNote) (now : Time) :
    DB (Except GoString Unit) → Prop where
  | started (h : note ∉ done) : Stage times key c done id note now (addNote times now key note)
  | copied {xs : List IncidentNote} (hcopy : c.copies id = some xs) (h : note ∉ done) :
      Stage times key c done id note now (writeNotes times now key (xs ++ [note]))
  | failed (msg : GoString) (h : note ∉ done) : Stage times key c done id note now (.done (.error msg))
  | down (h : note ∉ done) : Stage times key c done id note now .crash
  | added (h : note ∈ done) : Stage times key c done id note now (.done (.ok ()))

/-- A request that has not added its note is where it was, whatever the others do. -/
theorem Stage.congr {times : TimeFormat} {key : GoString} {c c' : WriteBack IncidentNote}
    {done done' : List IncidentNote} {id : ℕ} {note : IncidentNote} {now : Time}
    {p : DB (Except GoString Unit)} (h : Stage times key c done id note now p)
    (hcopies : c'.copies id = c.copies id) (hdone : note ∈ done' ↔ note ∈ done) :
    Stage times key c' done' id note now p := by
  cases h with
  | started h => exact .started fun hmem => h (hdone.mp hmem)
  | copied hcopy h => exact .copied (hcopies.trans hcopy) fun hmem => h (hdone.mp hmem)
  | failed msg h => exact .failed msg fun hmem => h (hdone.mp hmem)
  | down h => exact .down fun hmem => h (hdone.mp hmem)
  | added h => exact .added (hdone.mpr h)

/-- The requests of a run, and the notes of an incident with the copies that the requests take of them. -/
structure Sim (times : TimeFormat) (init : DocStore) (key : GoString)
    (hist : Run.History NotePool NoteEvent) (s : NotePool)
    (past : Run.History (WriteBack IncidentNote) (WriteBack.Event IncidentNote))
    (c : WriteBack IncidentNote) : Prop where
  run : Run.Reach WriteBack.step Run.Any (WriteBack.start (storedNotes init key)) past c
  stored : ∃ d, (s.store .incidents)[key]? = some d ∧ notesOf d = c.value
  stage : ∀ id note now p, s.tasks id = some (.addNote key note now, p) →
    Stage times key c (WriteBack.added past) id note now p
  spares : ∀ id req p, s.tasks id = some (req, p) →
    (∃ note now, req = .addNote key note now) ∨ p.Calls fun i => Spares key i.op
  began : ∀ id note now p, s.tasks id = some (.addNote key note now, p) →
    note ∉ storedNotes init key ∧ ∃ e ∈ hist, e.2 = .start id (.addNote key note now)
  unique : ∀ id id' note now now' p p', s.tasks id = some (.addNote key note now, p) →
    s.tasks id' = some (.addNote key note now', p') → id = id'
  added : ∀ note ∈ WriteBack.added past, ∃ id now,
    s.tasks id = some (.addNote key note now, .done (.ok ()))
  nodup : (WriteBack.added past).Nodup
  fresh_iff : (∀ e ∈ past, WriteBack.Fresh e.1 e.2) ↔ ∀ e ∈ hist, WritesFresh key e.1 e.2

namespace Sim

variable {times : TimeFormat} {init : DocStore} {key : GoString}
  {hist : Run.History NotePool NoteEvent} {s : NotePool}
  {past : Run.History (WriteBack IncidentNote) (WriteBack.Event IncidentNote)}
  {c : WriteBack IncidentNote}

theorem storedNotes_eq (h : Sim times init key hist s past c) : storedNotes s.store key = c.value := by
  obtain ⟨d, hd, hnotes⟩ := h.stored
  rw [storedNotes, hd, Option.map_some, Option.getD_some, hnotes]

/-- A request is started. -/
theorem start (h : Sim times init key hist s past c) {id : ℕ} {req : NoteRequest}
    (htask : s.tasks id = none) (hok : Orderly init key hist s (.start id req)) :
    Sim times init key ((s, .start id req) :: hist) (s.goOn id req s.store (req.program times)) past c where
  run := h.run
  stored := h.stored
  stage id' note now p hp := by
    rw [Prog.Pool.goOn_tasks] at hp
    split_ifs at hp with hid
    · obtain ⟨rfl, rfl⟩ := Prod.mk.inj (Option.some.inj hp)
      refine .started fun hmem => ?_
      -- who has added it was started
      obtain ⟨id₁, now₁, htask₁⟩ := h.added note hmem
      obtain ⟨-, e, he, hev⟩ := h.began id₁ note now₁ _ htask₁
      exact (hok rfl).2 e he id₁ now₁ hev
    · exact h.stage id' note now p hp
  spares id' req' p hp := by
    rw [Prog.Pool.goOn_tasks] at hp
    split_ifs at hp
    · obtain ⟨rfl, rfl⟩ := Prod.mk.inj (Option.some.inj hp)
      cases req with
      | addNote key' note now =>
        by_cases hkey : key' = key
        · exact .inl ⟨note, now, by rw [hkey]⟩
        · exact .inr (calls_addNote hkey)
      | link req now => exact .inr ((calls_linkProgram hok).bind fun _ => trivial)
      | other p => exact .inr hok
    · exact h.spares id' req' p hp
  began id' note now p hp := by
    rw [Prog.Pool.goOn_tasks] at hp
    split_ifs at hp with hid
    · obtain ⟨rfl, -⟩ := Prod.mk.inj (Option.some.inj hp)
      exact ⟨(hok rfl).1, _, List.mem_cons_self, by rw [hid]⟩
    · obtain ⟨hnew, e, he, hev⟩ := h.began id' note now p hp
      exact ⟨hnew, e, List.mem_cons_of_mem _ he, hev⟩
  unique id₁ id₂ note now₁ now₂ p₁ p₂ h₁ h₂ := by
    rw [Prog.Pool.goOn_tasks] at h₁ h₂
    split_ifs at h₁ h₂ with hid₁ hid₂ hid₂
    · rw [hid₁, hid₂]
    · obtain ⟨rfl, -⟩ := Prod.mk.inj (Option.some.inj h₁)
      obtain ⟨-, e, he, hev⟩ := h.began id₂ note now₂ p₂ h₂
      exact absurd hev ((hok rfl).2 e he id₂ now₂)
    · obtain ⟨rfl, -⟩ := Prod.mk.inj (Option.some.inj h₂)
      obtain ⟨-, e, he, hev⟩ := h.began id₁ note now₁ p₁ h₁
      exact absurd hev ((hok rfl).2 e he id₁ now₁)
    · exact h.unique id₁ id₂ note now₁ now₂ p₁ p₂ h₁ h₂
  added note hmem := by
    obtain ⟨id₁, now₁, htask₁⟩ := h.added note hmem
    refine ⟨id₁, now₁, ?_⟩
    rw [Prog.Pool.goOn_tasks, if_neg, htask₁]
    rintro rfl
    rw [htask] at htask₁
    cases htask₁
  nodup := h.nodup
  fresh_iff := by
    rw [List.forall_mem_cons, h.fresh_iff]
    exact (and_iff_right trivial).symm

section Goes

variable {id : ℕ} {req : NoteRequest} {i : Repository.Call} {next : Reply i → DB (Except GoString Unit)}
  {store : DocStore} {p : DB (Except GoString Unit)} {ev : NoteEvent}

/-- A request that goes on was under way. -/
theorem task_of_goOn (htask : s.tasks id = some (req, .call i next)) {id' : ℕ} {req' : NoteRequest}
    {p' : DB (Except GoString Unit)} (hp' : (s.goOn id req store p).tasks id' = some (req', p')) :
    ∃ p₀, s.tasks id' = some (req', p₀) := by
  rw [Prog.Pool.goOn_tasks] at hp'
  split_ifs at hp' with hid
  · obtain ⟨rfl, -⟩ := Prod.mk.inj (Option.some.inj hp')
    exact ⟨_, by rw [hid, htask]⟩
  · exact ⟨p', hp'⟩

theorem began_goOn (h : Sim times init key hist s past c) (htask : s.tasks id = some (req, .call i next)) :
    ∀ id' note now p', (s.goOn id req store p).tasks id' = some (.addNote key note now, p') →
      note ∉ storedNotes init key ∧
        ∃ e ∈ (s, ev) :: hist, e.2 = .start id' (.addNote key note now) := by
  intro id' note now p' hp'
  obtain ⟨p₀, hp₀⟩ := task_of_goOn htask hp'
  obtain ⟨hnew, e, he, hev⟩ := h.began id' note now p₀ hp₀
  exact ⟨hnew, e, List.mem_cons_of_mem _ he, hev⟩

theorem unique_goOn (h : Sim times init key hist s past c) (htask : s.tasks id = some (req, .call i next)) :
    ∀ id₁ id₂ note now₁ now₂ p₁ p₂,
      (s.goOn id req store p).tasks id₁ = some (.addNote key note now₁, p₁) →
      (s.goOn id req store p).tasks id₂ = some (.addNote key note now₂, p₂) → id₁ = id₂ := by
  intro id₁ id₂ note now₁ now₂ p₁ p₂ h₁ h₂
  obtain ⟨q₁, hq₁⟩ := task_of_goOn htask h₁
  obtain ⟨q₂, hq₂⟩ := task_of_goOn htask h₂
  exact h.unique id₁ id₂ note now₁ now₂ q₁ q₂ hq₁ hq₂

/-- Who has added a note is done, and does not go on. -/
theorem added_goOn (h : Sim times init key hist s past c) (htask : s.tasks id = some (req, .call i next))
    {note : IncidentNote} (hmem : note ∈ WriteBack.added past) :
    ∃ id' now, (s.goOn id req store p).tasks id' = some (.addNote key note now, .done (.ok ())) := by
  obtain ⟨id₁, now₁, htask₁⟩ := h.added note hmem
  refine ⟨id₁, now₁, ?_⟩
  rw [Prog.Pool.goOn_tasks, if_neg, htask₁]
  rintro rfl
  rw [htask] at htask₁
  cases htask₁

/-- A request goes on, and no copy is taken or written. -/
theorem quiet (h : Sim times init key hist s past c) (htask : s.tasks id = some (req, .call i next))
    (hstored : ∃ d, (store .incidents)[key]? = some d ∧ notesOf d = c.value)
    (hstage : ∀ note now, req = .addNote key note now →
      Stage times key c (WriteBack.added past) id note now p)
    (hspares : (∃ note now, req = .addNote key note now) ∨ p.Calls fun i => Spares key i.op)
    (hfresh : WritesFresh key s ev) :
    Sim times init key ((s, ev) :: hist) (s.goOn id req store p) past c where
  run := h.run
  stored := hstored
  stage id' note now p' hp' := by
    rw [Prog.Pool.goOn_tasks] at hp'
    split_ifs at hp' with hid
    · obtain ⟨hreq, rfl⟩ := Prod.mk.inj (Option.some.inj hp')
      rw [hid]
      exact hstage note now hreq
    · exact h.stage id' note now p' hp'
  spares id' req' p' hp' := by
    rw [Prog.Pool.goOn_tasks] at hp'
    split_ifs at hp'
    · obtain ⟨rfl, rfl⟩ := Prod.mk.inj (Option.some.inj hp')
      exact hspares
    · exact h.spares id' req' p' hp'
  began := h.began_goOn htask
  unique := h.unique_goOn htask
  added note hmem := h.added_goOn htask hmem
  nodup := h.nodup
  fresh_iff := by
    rw [List.forall_mem_cons, h.fresh_iff]
    exact (and_iff_right hfresh).symm

end Goes

section Steps

variable {id : ℕ} {note : IncidentNote} {now : Time} {i : Repository.Call}
  {next : Reply i → DB (Except GoString Unit)} {ev : NoteEvent}

/-- A request has read the incident: it has a copy of the notes. -/
theorem read (h : Sim times init key hist s past c)
    (htask : s.tasks id = some (.addNote key note now, .call i next))
    (hnew : note ∉ WriteBack.added past) (hfresh : WritesFresh key s ev) :
    Sim times init key ((s, ev) :: hist)
      (s.goOn id (.addNote key note now) s.store (writeNotes times now key (c.value ++ [note])))
      ((c, .read id) :: past) ⟨c.value, Function.update c.copies id (some c.value)⟩ where
  run := .next h.run trivial rfl
  stored := h.stored
  stage id' note' now' p' hp' := by
    rw [Prog.Pool.goOn_tasks] at hp'
    split_ifs at hp' with hid
    · obtain ⟨hreq, rfl⟩ := Prod.mk.inj (Option.some.inj hp')
      cases hreq
      rw [hid]
      exact .copied (Function.update_self ..) hnew
    · exact (h.stage id' note' now' p' hp').congr (Function.update_of_ne hid ..) Iff.rfl
  spares id' req' p' hp' := by
    rw [Prog.Pool.goOn_tasks] at hp'
    split_ifs at hp'
    · exact .inl ⟨note, now, (Prod.mk.inj (Option.some.inj hp')).1.symm⟩
    · exact h.spares id' req' p' hp'
  began := h.began_goOn htask
  unique := h.unique_goOn htask
  added note hmem := h.added_goOn htask hmem
  nodup := h.nodup
  fresh_iff := by
    rw [List.forall_mem_cons, List.forall_mem_cons, h.fresh_iff]
    exact and_congr_left' (iff_of_true trivial hfresh)

/-- A request has written its copy, with its note. -/
theorem write (h : Sim times init key hist s past c) {xs : List IncidentNote} {store : DocStore}
    (htask : s.tasks id = some (.addNote key note now, .call i next)) (hcopy : c.copies id = some xs)
    (hnew : note ∉ WriteBack.added past)
    (hstored : ∃ d, (store .incidents)[key]? = some d ∧ notesOf d = xs ++ [note])
    (hfresh : WritesFresh key s ev ↔ xs = c.value) :
    Sim times init key ((s, ev) :: hist) (s.goOn id (.addNote key note now) store (.done (.ok ())))
      ((c, .write id note) :: past) ⟨xs ++ [note], Function.update c.copies id none⟩ where
  run := by
    refine .next h.run trivial ?_
    rw [WriteBack.step, hcopy, Option.map_some]
  stored := hstored
  stage id' note' now' p' hp' := by
    rw [Prog.Pool.goOn_tasks] at hp'
    split_ifs at hp' with hid
    · obtain ⟨hreq, rfl⟩ := Prod.mk.inj (Option.some.inj hp')
      cases hreq
      exact .added List.mem_cons_self
    · refine (h.stage id' note' now' p' hp').congr (Function.update_of_ne hid ..) ?_
      refine List.mem_cons.trans (or_iff_right ?_)
      rintro rfl
      exact hid (h.unique id' id note' now' now p' _ hp' htask)
  spares id' req' p' hp' := by
    rw [Prog.Pool.goOn_tasks] at hp'
    split_ifs at hp'
    · exact .inl ⟨note, now, (Prod.mk.inj (Option.some.inj hp')).1.symm⟩
    · exact h.spares id' req' p' hp'
  began := h.began_goOn htask
  unique := h.unique_goOn htask
  added note' hmem := by
    rcases List.mem_cons.mp hmem with rfl | hmem
    · exact ⟨id, now, by rw [Prog.Pool.goOn_tasks, if_pos rfl]⟩
    · exact h.added_goOn htask hmem
  nodup := List.nodup_cons.mpr ⟨hnew, h.nodup⟩
  fresh_iff := by
    rw [List.forall_mem_cons, List.forall_mem_cons, h.fresh_iff, hfresh]
    refine and_congr_left' ?_
    rw [WriteBack.Fresh, hcopy, Option.some.injEq]

end Steps

/-- **A step of the requests** is at most one of the copies. -/
theorem step (h : Sim times init key hist s past c) {ev : NoteEvent} {s' : NotePool}
    (hok : Orderly init key hist s ev)
    (hs : Prog.Pool.step (NoteRequest.program times) serve s ev = some s') :
    ∃ past' c', Sim times init key ((s, ev) :: hist) s' past' c' := by
  obtain ⟨id, req, rfl, htask, rfl⟩ | ⟨id, a, req, i, next, rfl, htask, rfl⟩ := Prog.Pool.step_cases hs
  · exact ⟨past, c, h.start htask hok⟩
  obtain ⟨d, hd, hnotes⟩ := h.stored
  by_cases hadds : ∃ note now, req = .addNote key note now
  · obtain ⟨note, now, rfl⟩ := hadds
    have hstage := h.stage id note now _ htask
    generalize hp : (Prog.call i next : DB (Except GoString Unit)) = p at hstage
    cases hstage with
    | started hnew =>
      obtain ⟨next', heq, hnext⟩ := @addNote_eq times now key note
      rw [heq] at hp
      cases hp
      have hfresh : WritesFresh key s (.call id a) := by
        intro note' now' p' place' next'' htask'
        cases htask.symm.trans htask'
      have hstore : (serve a (Repository.Call.mk (.read .incidents key) []) s.store).2 = s.store :=
        serve_of_isRead rfl a s.store
      rw [hstore]
      rcases hreply : (serve a (Repository.Call.mk (.read .incidents key) []) s.store).1 with - | r
      · exact ⟨past, c, h.quiet htask h.stored (fun _ _ heq => by cases heq; exact .down hnew)
          (.inl ⟨note, now, rfl⟩) hfresh⟩
      · rcases hnext r with ⟨msg, hfailed⟩ | ⟨d', rfl, hwrites⟩
        · dsimp only
          rw [hfailed]
          exact ⟨past, c, h.quiet htask h.stored (fun _ _ heq => by cases heq; exact .failed msg hnew)
            (.inl ⟨note, now, rfl⟩) hfresh⟩
        · obtain ⟨own, hown, rfl⟩ := serve_read_eq_ok hreply
          obtain rfl := Option.some.inj (hd.symm.trans hown)
          dsimp only
          rw [hwrites, notesOf_withKey, hnotes]
          exact ⟨_, _, h.read htask hnew hfresh⟩
    | @copied xs hcopy hnew =>
      cases hp
      rcases hout : a.outcome with - | msg | -
      · -- the write finds the incident
        have hwritten : ((s.store.set .incidents ((s.store .incidents).insert key
            (d.patch (stamp times now (notesPatch (xs ++ [note])))))) .incidents)[key]? =
              some (d.patch (stamp times now (notesPatch (xs ++ [note])))) := by
          rw [DocStore.set_self, GoMap.getElem?_insert, if_pos rfl]
        rw [serve_update hout hd]
        refine ⟨_, _, h.write htask hcopy hnew ⟨_, hwritten, notesOf_patch times now d _⟩ ?_⟩
        · constructor
          · intro hfresh
            have hsame := hfresh note now _ _ _ htask hout
            rw [notesOf_stamp, h.storedNotes_eq] at hsame
            exact List.append_cancel_right hsame
          · rintro rfl note' now' p place next' htask' -
            cases htask.symm.trans htask'
            rw [notesOf_stamp, h.storedNotes_eq]
      · have hfresh : WritesFresh key s (.call id a) := writesFresh_of_ne_ok (by simp [hout])
        rw [serve_failed s.store hout]
        exact ⟨past, c, h.quiet htask h.stored (fun _ _ heq => by cases heq; exact .failed _ hnew)
          (.inl ⟨note, now, rfl⟩) hfresh⟩
      · have hfresh : WritesFresh key s (.call id a) := writesFresh_of_ne_ok (by simp [hout])
        rw [serve_down s.store hout]
        exact ⟨past, c, h.quiet htask h.stored (fun _ _ heq => by cases heq; exact .down hnew)
          (.inl ⟨note, now, rfl⟩) hfresh⟩
    | failed msg hnew => cases hp
    | down hnew => cases hp
    | added hmem => cases hp
  · have hspares := (h.spares id req _ htask).resolve_left hadds
    obtain ⟨d', hd', hsame⟩ := serve_of_spares hspares.1 a hd
    refine ⟨past, c, h.quiet htask ⟨d', hd', hsame.trans hnotes⟩ ?_ (.inr ?_) ?_⟩
    · exact fun note now hreq => absurd ⟨note, now, hreq⟩ hadds
    · rcases (serve a i s.store).1 with - | r
      · exact trivial
      · exact hspares.2 r
    · intro note now p place next' htask'
      exact absurd ⟨note, now, (Prod.mk.inj (Option.some.inj (htask.symm.trans htask'))).1⟩ hadds

end Sim

/-- **A run of the requests** is one of the copies. -/
theorem Sim.of_reach {times : TimeFormat} {init : DocStore} {key : GoString} {d : Document}
    (hd : (init .incidents)[key]? = some d) {hist : Run.History NotePool NoteEvent} {s : NotePool}
    (h : Run.Reach (Prog.Pool.step (NoteRequest.program times) serve) (Orderly init key) (.idle init)
      hist s) : ∃ past c, Sim times init key hist s past c := by
  induction h with
  | start =>
    have hnotes : notesOf d = storedNotes init key := by
      rw [storedNotes, hd, Option.map_some, Option.getD_some]
    exact ⟨[], _, ⟨.start, ⟨d, hd, hnotes⟩, by simp [Prog.Pool.idle], by simp [Prog.Pool.idle],
      by simp [Prog.Pool.idle], by simp [Prog.Pool.idle], by simp [WriteBack.added],
      by simp [WriteBack.added], by simp⟩⟩
  | next _ hok hs ih =>
    obtain ⟨past, c, hsim⟩ := ih
    exact hsim.step hok hs

/-- **Every note that was added is there** exactly if no request has written since the notes were read that
are written back. -/
theorem notes_kept_iff (times : TimeFormat) {init : DocStore} {key : GoString} {d : Document}
    (hd : (init .incidents)[key]? = some d) {hist : Run.History NotePool NoteEvent} {s : NotePool}
    (h : Run.Reach (Prog.Pool.step (NoteRequest.program times) serve) (Orderly init key) (.idle init)
      hist s) :
    (∀ id note now, s.tasks id = some (.addNote key note now, .done (.ok ())) →
        note ∈ storedNotes s.store key) ↔
      ∀ e ∈ hist, WritesFresh key e.1 e.2 := by
  obtain ⟨past, c, hsim⟩ := Sim.of_reach hd h
  have hnew : ∀ note ∈ WriteBack.added past, note ∉ storedNotes init key := by
    intro note hmem
    obtain ⟨id, now, htask⟩ := hsim.added note hmem
    exact (hsim.began id note now _ htask).1
  rw [← hsim.fresh_iff, ← WriteBack.kept_iff hsim.run hsim.nodup hnew, hsim.storedNotes_eq]
  constructor
  · intro hkept note hmem
    obtain ⟨id, now, htask⟩ := hsim.added note hmem
    exact hkept id note now htask
  · intro hkept id note now htask
    refine hkept note ?_
    have hstage := hsim.stage id note now _ htask
    generalize hp : (Prog.done (.ok ()) : DB (Except GoString Unit)) = p at hstage
    cases hstage with
    | added hmem => exact hmem
    | started hnot => cases hp
    | copied hcopy hnot => cases hp
    | failed msg hnot => cases hp
    | down hnot => cases hp

/-! ### Two notes at once -/

/-- A note, by its ID. -/
def sampleNote (noteID : String) : IncidentNote where
  noteID := str noteID
  content := str "seen"
  authorID := str "u-1"
  authorName := str "ann"
  createdAt := str "1970-01-01T00:00:00Z"

/-- A request to add it. -/
def sampleRequest (noteID : String) : NoteRequest := .addNote (str "1") (sampleNote noteID) 0

/-- A database with an incident. -/
def notedStore : DocStore := DocStore.set (fun _ => ∅) .incidents
  (GoMap.insertAll ∅ [(str "1", Document.ofEntries [("title", .str (str "theft"))])])

/-- A request that has been started. -/
def oneStarted : NotePool := (Prog.Pool.idle notedStore).goOn 0 (sampleRequest "NOD-1") notedStore
  ((sampleRequest "NOD-1").program epochTimes)

/-- Two of them. -/
def bothStarted : NotePool := oneStarted.goOn 1 (sampleRequest "NOD-2") notedStore
  ((sampleRequest "NOD-2").program epochTimes)

/-- How they were started. -/
def starts : Run.History NotePool NoteEvent :=
  [(oneStarted, .start 1 (sampleRequest "NOD-2")), (.idle notedStore, .start 0 (sampleRequest "NOD-1"))]

theorem reach_bothStarted : Run.Reach (Prog.Pool.step (NoteRequest.program epochTimes) serve)
    (Orderly notedStore (str "1")) (.idle notedStore) starts bothStarted := by
  have hfirst : Orderly notedStore (str "1") [] (.idle notedStore)
      (.start 0 (sampleRequest "NOD-1")) := fun _ => ⟨by decide +kernel, by simp⟩
  have hsecond : Orderly notedStore (str "1")
      [(.idle notedStore, .start 0 (sampleRequest "NOD-1"))] oneStarted
      (.start 1 (sampleRequest "NOD-2")) :=
    fun _ => ⟨by decide +kernel, by simp [sampleRequest, sampleNote, str_inj]⟩
  exact .next (.next .start hfirst rfl) hsecond rfl

/-- The note that a request has added. -/
def doneNote (t : Option (NoteRequest × DB (Except GoString Unit))) :
    Option (GoString × IncidentNote × Time) :=
  match t with
  | some (.addNote key note now, .done (.ok ())) => some (key, note, now)
  | _ => none

theorem eq_of_doneNote {t : Option (NoteRequest × DB (Except GoString Unit))} {key : GoString}
    {note : IncidentNote} {now : Time} (h : doneNote t = some (key, note, now)) :
    t = some (.addNote key note now, .done (.ok ())) := by
  unfold doneNote at h
  split at h
  · cases h
    rfl
  · cases h

/-- Both requests read before either of them writes, and the first note is lost: something was written
over. -/
theorem notes_kept_iff_bothStarted : ∃ hist s, Run.Reach
    (Prog.Pool.step (NoteRequest.program epochTimes) serve) (Orderly notedStore (str "1"))
      (.idle notedStore) hist s ∧ ¬∀ e ∈ hist, WritesFresh (str "1") e.1 e.2 := by
  have hrun : ((Run.replay (Prog.Pool.step (NoteRequest.program epochTimes) serve) starts bothStarted
      [.call 0 {}, .call 1 {}, .call 0 {}, .call 1 {}]).map fun r =>
        (doneNote (r.2.tasks 0), storedNotes r.2.store (str "1"))) =
        some (some (str "1", sampleNote "NOD-1", 0), [sampleNote "NOD-2"]) := by
    decide +kernel
  obtain ⟨⟨hist, s⟩, hreplay, heq⟩ := Option.map_eq_some_iff.mp hrun
  obtain ⟨hdone, hnotes⟩ := Prod.mk.inj heq
  have hreach := reach_bothStarted.goesOn (by simp [Orderly]) hreplay
  obtain ⟨d, hd⟩ : ∃ d, (notedStore .incidents)[str "1"]? = some d :=
    Option.isSome_iff_exists.mp (by decide +kernel)
  refine ⟨hist, s, hreach, fun hfresh => ?_⟩
  have hkept := (notes_kept_iff epochTimes hd hreach).mpr hfresh 0 _ _ (eq_of_doneNote hdone)
  rw [hnotes] at hkept
  revert hkept
  decide

end Incidents

end Xsiam
