import Mathlib.Data.List.Infix
import Xsiam.Etl.Model
import Xsiam.Go.Float
import Xsiam.Lib.Copies

/-!
# The risks of users

`RiskService` of `internal/domain/identity/service.go` keeps the signals about users in memory, and their
score, the sum of what they count, up to 100. From 80 on a user is restricted, unless he is already
(`autoRestrict`). Every half minute the risks are written to the database, one after the other, and they
are read back when the server starts.

The map hands out pointers, and a signal changes what its pointer is of without a lock. So a run here is one
in which nothing overlaps: a request, or one turn of the flush, is over before the next begins.

So what is remembered of a user is a value that is written behind. What has been flushed once is remembered
ever after, whatever calls fail (`Xsiam.Identity.RiskService.flushed_kept`), as long as every start restores
or there was nothing stored of him (`Xsiam.Identity.RiskService.signals_kept_iff`). A start that does not
restore goes on without a word, and the next flush of a user overwrites his signals with the new ones
(`Xsiam.Identity.RiskService.overwritten`).

A risk is found by its user alone, so two tenants with one user ID share it: each tenant sees what its own
signals make of its users exactly if no user ID is also another one's
(`Xsiam.Identity.RiskService.tenants_separate_iff`).
-/

namespace Xsiam

namespace Identity

open Go

/-! ### Documents -/

/-- `model.RiskSignal` -/
structure RiskSignal where
  type : GoString
  score : Float64
  detail : GoString
  detectedAt : Time
deriving DecidableEq

/-- `model.IdentityRisk`, the members that the service fills. -/
structure UserRisk where
  key : GoString := []
  userID : GoString
  tenantID : GoString
  username : GoString
  riskScore : Float64 := ⟨0⟩
  riskSignals : List RiskSignal := []
  updatedAt : Time := 0
  createdAt : Time := 0
deriving DecidableEq

/-- `model.PrivilegeRestriction`, the members that are read or filled. -/
structure PrivilegeRestriction where
  userID : GoString
  tenantID : GoString
  level : ℤ
  triggerSignal : GoString
  triggerScore : Float64
  isActive : Bool
  appliedAt : Time := 0
  releasedAt : Option Time := none
deriving DecidableEq

/-! ### Calls -/

/-- How a query for one document goes: it answers, it fails, or not even the key of what it answers can be
read. -/
inductive Lookup where
  | found (order : MapRange)
  | failed
  | unread (order : MapRange)

/-- What a repository makes of the answer: no document, or one, under its key if it could be read. -/
def Lookup.result {β : Type} (l : Lookup) (docs : GoMap β) (cond : β → Bool) :
    Option (Option (GoString × β)) :=
  match l with
  | .found order => ((order.entries docs).find? fun kd => cond kd.2).map some
  | .failed => none
  | .unread order => ((order.entries docs).find? fun kd => cond kd.2).map fun _ => none

/-- `CreateDocument`, under a key, unless the call fails. -/
def createDocument {β : Type} (docs : GoMap β) (key : GoString) (ok : Bool) (d : β) :
    Option (GoMap β) :=
  if ok = true ∧ key ≠ [] ∧ docs[key]? = none then some (docs.insert key d) else none

/-- How a lookup and the write behind it go, with the key that a new document gets. -/
structure Answer where
  lookup : Lookup := .found .byKey
  key : GoString := []
  ok : Bool := true

/-! ### The service -/

/-- The map of the service, and the two collections, by the keys of their documents. -/
structure RiskState where
  store : GoMap UserRisk := ∅
  risks : GoMap UserRisk := ∅
  restrictions : GoMap PrivilegeRestriction := ∅

/-- The arguments of `AddSignal`, the time, and how the calls go that it makes. -/
structure SignalRequest where
  tenantID : GoString
  userID : GoString
  username : GoString
  signal : RiskSignal
  now : Time
  answer : Answer := {}

/-- `RiskService`, with the addition of floats, and whether it has a repository of restrictions. -/
structure RiskService where
  ops : FloatOps
  privRepo : Bool

namespace RiskService

variable (svc : RiskService)

/-- `calcScore` -/
def calcScore (signals : List RiskSignal) : Float64 :=
  let total := signals.foldl (fun total sig => svc.ops.add total sig.score) ⟨0⟩
  if Float64.c100.lt total then Float64.c100 else total

/-- The risks that `GetByUserID` looks for. -/
def ofUser (userID : GoString) (d : UserRisk) : Bool := d.userID = userID

/-- The restrictions that `GetActiveByUserLevel` looks for. -/
def activeAt (userID : GoString) (level : ℤ) (p : PrivilegeRestriction) : Bool :=
  p.userID = userID && p.level = level && p.isActive

/-- The restriction that `autoRestrict` makes. -/
def autoRestriction (risk : UserRisk) (now : Time) : PrivilegeRestriction where
  userID := risk.userID
  tenantID := risk.tenantID
  level := 3
  triggerSignal := str "itdr_auto"
  triggerScore := risk.riskScore
  isActive := true
  appliedAt := now

/-- `autoRestrict` -/
def autoRestrict (risk : UserRisk) (now : Time) (a : Answer)
    (docs : GoMap PrivilegeRestriction) : GoMap PrivilegeRestriction :=
  if svc.privRepo = true ∧ a.lookup.result docs (activeAt risk.userID 3) = none then
    (createDocument docs a.key a.ok (autoRestriction risk now)).getD docs
  else docs

/-- The risk that `AddSignal` stores, with one more signal than before, or the first one. -/
def signalled (q : SignalRequest) (old : Option UserRisk) : UserRisk :=
  let risk := old.getD { userID := q.userID, tenantID := q.tenantID, username := q.username }
  { risk with
    riskSignals := risk.riskSignals ++ [q.signal]
    riskScore := svc.calcScore (risk.riskSignals ++ [q.signal])
    updatedAt := q.now }

/-- `AddSignal` -/
def addSignal (q : SignalRequest) (s : RiskState) : RiskState :=
  let risk := svc.signalled q s.store[q.userID]?
  { s with
    store := s.store.insert q.userID risk
    restrictions :=
      if Float64.c80.le risk.riskScore then svc.autoRestrict risk q.now q.answer s.restrictions
      else s.restrictions }

/-- `Restore`, from an empty map: of two documents of a user the last one counts. -/
def restore (order : MapRange) (risks : GoMap UserRisk) : GoMap UserRisk :=
  GoMap.insertAll ∅ ((order.entries risks).map fun kd => (kd.2.userID, { kd.2 with key := kd.1 }))

/-- The document that `Upsert` creates. It has the key of the risk, or gets one. -/
def newDocument (risk : UserRisk) (now : Time) (a : Answer) : UserRisk :=
  { risk with
    key := if risk.key = [] then a.key else risk.key
    createdAt := now
    updatedAt := now }

/-- The document that `Upsert` makes of the one there is. -/
def patched (risk : UserRisk) (now : Time) (doc : UserRisk) : UserRisk :=
  { doc with
    riskScore := risk.riskScore
    riskSignals := risk.riskSignals
    updatedAt := now }

/-- `Upsert`, for a risk of the map, which it writes to as well. -/
def upsert (risk : UserRisk) (now : Time) (a : Answer) (s : RiskState) : RiskState :=
  match a.lookup.result s.risks (ofUser risk.userID) with
  | none =>
    let doc := newDocument risk now a
    match createDocument s.risks doc.key a.ok doc with
    | some risks => { s with store := s.store.insert risk.userID doc, risks }
    | none =>
      { s with store := s.store.insert risk.userID { risk with createdAt := now, updatedAt := now } }
  | some none => s
  | some (some (key, doc)) =>
    if a.ok then { s with risks := s.risks.insert key (patched risk now doc) } else s

/-- `ReleaseByUserID` -/
def release (tenantID userID : GoString) (now : Time)
    (docs : GoMap PrivilegeRestriction) : GoMap PrivilegeRestriction :=
  docs.map fun _ p =>
    if p.userID = userID ∧ p.tenantID = tenantID ∧ p.isActive = true then
      { p with isActive := false, releasedAt := some now }
    else p

/-- What happens to the service: a request, one turn of `FlushToDB`, or a start. Each is over before the next
begins. -/
inductive Event where
  | signal (q : SignalRequest)
  /-- One turn of the loop; `collection` says if there is the collection. -/
  | flush (userID : GoString) (now : Time) (collection : Bool) (a : Answer)
  /-- The process ends and the next one starts. -/
  | restart (listed : Option MapRange)
  | create (tenantID : GoString) (r : PrivilegeRestriction) (key : GoString) (now : Time) (ok : Bool)
  | release (tenantID userID : GoString) (now : Time) (ok : Bool)
  | delete (key : GoString) (ok : Bool)

/-- What becomes of the state. -/
def after (s : RiskState) : Event → RiskState
  | .signal q => svc.addSignal q s
  | .flush userID now collection a =>
    match s.store[userID]? with
    | some risk => if collection then upsert risk now a s else s
    | none => s
  | .restart listed => { s with store := listed.elim ∅ fun order => restore order s.risks }
  | .create tenantID r key now ok =>
    { s with
      restrictions := (createDocument s.restrictions key ok
        { r with tenantID, isActive := true, appliedAt := now }).getD s.restrictions }
  | .release tenantID userID now ok =>
    if ok then { s with restrictions := release tenantID userID now s.restrictions } else s
  | .delete key ok => if ok then { s with restrictions := s.restrictions.erase key } else s

/-- The service as a machine. -/
def step (s : RiskState) (ev : Event) : Option RiskState := some (svc.after s ev)

/-! ### Lookups -/

variable {svc : RiskService}

theorem find?_entries_eq_some {β : Type} {order : MapRange} {docs : GoMap β} {cond : β → Bool}
    {kd : GoString × β} (h : ((order.entries docs).find? fun kd => cond kd.2) = some kd) :
    docs[kd.1]? = some kd.2 ∧ cond kd.2 = true := by
  have hcond := List.find?_some h
  exact ⟨(order.mem_entries docs kd.1 kd.2).mp (List.mem_of_find?_eq_some h), hcond⟩

theorem find?_entries_eq_none {β : Type} {order : MapRange} {docs : GoMap β} {cond : β → Bool} :
    ((order.entries docs).find? fun kd => cond kd.2) = none ↔
      ∀ (k : GoString) (d : β), docs[k]? = some d → ¬cond d = true := by
  rw [List.find?_eq_none]
  constructor
  · exact fun h k d hget => h (k, d) ((order.mem_entries docs k d).mpr hget)
  · exact fun h kd hmem => h kd.1 kd.2 ((order.mem_entries docs kd.1 kd.2).mp hmem)

/-- A lookup that finds no document has failed, or there is none. -/
theorem result_eq_none {β : Type} {l : Lookup} {docs : GoMap β} {cond : β → Bool}
    (h : l.result docs cond = none) :
    l = .failed ∨ ∀ (k : GoString) (d : β), docs[k]? = some d → ¬cond d = true := by
  cases l with
  | failed => exact .inl rfl
  | found order => exact .inr (find?_entries_eq_none.mp (Option.map_eq_none_iff.mp h))
  | unread order => exact .inr (find?_entries_eq_none.mp (Option.map_eq_none_iff.mp h))

/-- A lookup finds a document only if there is one. -/
theorem result_eq_some {β : Type} {l : Lookup} {docs : GoMap β} {cond : β → Bool}
    {found : Option (GoString × β)} (h : l.result docs cond = some found) :
    (∃ (k : GoString) (d : β), docs[k]? = some d ∧ cond d = true) ∧
      ∀ kd, found = some kd → docs[kd.1]? = some kd.2 ∧ cond kd.2 = true := by
  cases l with
  | failed => cases h
  | found order =>
    obtain ⟨kd, hkd, rfl⟩ := Option.map_eq_some_iff.mp h
    have hdoc := find?_entries_eq_some hkd
    exact ⟨⟨kd.1, kd.2, hdoc⟩, fun kd' heq => Option.some.inj heq ▸ hdoc⟩
  | unread order =>
    obtain ⟨kd, hkd, rfl⟩ := Option.map_eq_some_iff.mp h
    exact ⟨⟨kd.1, kd.2, find?_entries_eq_some hkd⟩, fun kd' heq => by cases heq⟩

theorem createDocument_eq_some {β : Type} {docs docs' : GoMap β} {key : GoString} {ok : Bool} {d : β}
    (h : createDocument docs key ok d = some docs') :
    key ≠ [] ∧ docs[key]? = none ∧ docs' = docs.insert key d := by
  rw [createDocument] at h
  split_ifs at h with hcreated
  exact ⟨hcreated.2.1, hcreated.2.2, (Option.some.inj h).symm⟩

/-- What holds of a new entry and of those before holds of all. -/
theorem forall_insert {β : Type} {docs : GoMap β} {P : GoString → β → Prop} {key : GoString} {d : β}
    (hnew : P key d) (hold : ∀ (k : GoString) (d' : β), docs[k]? = some d' → P k d') :
    ∀ (k : GoString) (d' : β), (docs.insert key d)[k]? = some d' → P k d' := by
  intro k d' hk
  rw [GoMap.getElem?_insert] at hk
  split_ifs at hk with heq
  · rw [heq, ← Option.some.inj hk]
    exact hnew
  · exact hold k d' hk

/-- A risk that is restored is a document. -/
theorem restore_eq_some {order : MapRange} {risks : GoMap UserRisk} {v : GoString} {r : UserRisk}
    (hr : (restore order risks)[v]? = some r) :
    ∃ (k : GoString) (d : UserRisk), risks[k]? = some d ∧ d.userID = v ∧ r = { d with key := k } := by
  rw [restore] at hr
  rcases GoMap.getElem?_insertAll_cases ((order.entries risks).map fun kd =>
    (kd.2.userID, { kd.2 with key := kd.1 })) v ∅ with ⟨r', hmem, hr'⟩ | ⟨-, hr'⟩
  · obtain ⟨⟨k, d⟩, hkd, heq⟩ := List.mem_map.mp hmem
    obtain ⟨rfl, rfl⟩ := Prod.mk.inj heq
    obtain rfl := Option.some.inj (hr.symm.trans hr')
    exact ⟨k, d, (order.mem_entries risks k d).mp hkd, rfl, rfl⟩
  · rw [hr'] at hr
    simp at hr

/-! ### What is stored of a user -/

/-- The signals of a user that are in memory. -/
def remembered (s : RiskState) (userID : GoString) : List RiskSignal :=
  s.store[userID]?.elim [] UserRisk.riskSignals

/-- The signals of a user that are stored. -/
def stored (risks : GoMap UserRisk) (userID : GoString) : List RiskSignal :=
  ((MapRange.byKey.entries risks).find? fun kd => ofUser userID kd.2).elim [] fun kd => kd.2.riskSignals

/-- The signals of a user as a value that is written behind. -/
def view (userID : GoString) (s : RiskState) : WriteBehind (List RiskSignal) :=
  ⟨remembered s userID, stored s.risks userID⟩

theorem stored_eq_nil {risks : GoMap UserRisk} {u : GoString}
    (h : ∀ (k : GoString) (d : UserRisk), risks[k]? = some d → d.userID ≠ u) : stored risks u = [] := by
  have hnone : ((MapRange.byKey.entries risks).find? fun kd => ofUser u kd.2) = none :=
    find?_entries_eq_none.mpr fun k d hget huser => h k d hget (of_decide_eq_true huser)
  rw [stored, hnone]
  rfl

/-- The one document of a user is what is stored of him. -/
theorem stored_eq {risks : GoMap UserRisk} {k : GoString} {d : UserRisk} (hk : risks[k]? = some d)
    (hone : ∀ (k' : GoString) (d' : UserRisk), risks[k']? = some d' → d'.userID = d.userID → k' = k) :
    stored risks d.userID = d.riskSignals := by
  rw [stored]
  rcases hfind : (MapRange.byKey.entries risks).find? fun kd => ofUser d.userID kd.2 with - | ⟨k', d'⟩
  · exact absurd (decide_eq_true rfl) (find?_entries_eq_none.mp hfind k d hk)
  · obtain ⟨hget, huser⟩ := find?_entries_eq_some hfind
    obtain rfl : k' = k := hone k' d' hget (of_decide_eq_true huser)
    obtain rfl := Option.some.inj (hget.symm.trans hk)
    rw [hfind]
    rfl

/-! ### Flushes and starts -/

/-- Memory knows of a user what is stored of him: his risk has the key of his document, the only one. No
risk is without a signal. -/
structure Known (u : GoString) (s : RiskState) : Prop where
  named : ∀ (v : GoString) (r : UserRisk), s.store[v]? = some r → r.userID = v
  keyed : ∀ (k : GoString) (d : UserRisk), s.risks[k]? = some d → k ≠ []
  known : ∀ (k : GoString) (d : UserRisk), s.risks[k]? = some d → d.userID = u →
    ∃ r, s.store[u]? = some r ∧ r.key = k
  kept : ∀ r : UserRisk, s.store[u]? = some r → r.key ≠ [] →
    ∃ d, s.risks[r.key]? = some d ∧ d.userID = u
  remembers : ∀ (v : GoString) (r : UserRisk), s.store[v]? = some r → r.riskSignals ≠ []
  stores : ∀ (k : GoString) (d : UserRisk), s.risks[k]? = some d → d.riskSignals ≠ []

variable {u : GoString} {s : RiskState}

namespace Known

theorem start : Known u {} := by
  constructor <;> intros <;> simp_all

theorem unique (h : Known u s) {k k' : GoString} {d d' : UserRisk} (hk : s.risks[k]? = some d)
    (hk' : s.risks[k']? = some d') (huser : d.userID = u) (huser' : d'.userID = u) : k = k' := by
  obtain ⟨r, hr, rfl⟩ := h.known k d hk huser
  obtain ⟨r', hr', rfl⟩ := h.known k' d' hk' huser'
  rw [Option.some.inj (hr.symm.trans hr')]

theorem stored_eq (h : Known u s) {k : GoString} {d : UserRisk} (hk : s.risks[k]? = some d)
    (huser : d.userID = u) : stored s.risks u = d.riskSignals := by
  rw [← huser]
  exact RiskService.stored_eq hk fun k' d' hk' huser' =>
    h.unique hk' hk (huser'.trans huser) huser

/-- Nothing is stored of a user without a document, and of no other one. -/
theorem stored_eq_nil_iff (h : Known u s) :
    stored s.risks u = [] ↔ ∀ (k : GoString) (d : UserRisk), s.risks[k]? = some d → d.userID ≠ u := by
  constructor
  · intro hnil k d hk huser
    exact h.stores k d hk ((h.stored_eq hk huser).symm.trans hnil)
  · exact stored_eq_nil

/-- A document of a user that is written is what is stored of him. -/
theorem stored_insert_self {s' : RiskState} (h' : Known u s') {risks : GoMap UserRisk} {k : GoString}
    {d : UserRisk} (hrisks : s'.risks = risks.insert k d) (huser : d.userID = u) :
    stored s'.risks u = d.riskSignals := by
  refine h'.stored_eq (k := k) ?_ huser
  rw [hrisks, GoMap.getElem?_insert, if_pos rfl]

/-- A document that is not of a user written over one that is not of him either. -/
theorem stored_insert_of_ne (h : Known u s) {k : GoString} {d : UserRisk} (hd : d.userID ≠ u)
    (hold : ∀ d₀, s.risks[k]? = some d₀ → d₀.userID ≠ u)
    {s' : RiskState} (h' : Known u s') (hrisks : s'.risks = s.risks.insert k d) :
    stored s'.risks u = stored s.risks u := by
  by_cases hdoc : ∃ (k' : GoString) (d' : UserRisk), s.risks[k']? = some d' ∧ d'.userID = u
  · obtain ⟨k', d', hk', huser⟩ := hdoc
    have hne : k' ≠ k := by
      rintro rfl
      exact hold d' hk' huser
    have hget : s'.risks[k']? = some d' := by rw [hrisks, GoMap.getElem?_insert_of_ne hne, hk']
    rw [h'.stored_eq hget huser, h.stored_eq hk' huser]
  · have hnone : ∀ (k' : GoString) (d' : UserRisk), s.risks[k']? = some d' → d'.userID ≠ u :=
      fun k' d' hk' huser => hdoc ⟨k', d', hk', huser⟩
    rw [stored_eq_nil hnone, stored_eq_nil]
    rw [hrisks]
    exact forall_insert hd hnone

theorem remembered_insert (s : RiskState) (risks : GoMap UserRisk)
    (restrictions : GoMap PrivilegeRestriction) (v u : GoString) (r : UserRisk) :
    remembered ⟨s.store.insert v r, risks, restrictions⟩ u =
      if u = v then r.riskSignals else remembered s u := by
  rw [remembered, GoMap.getElem?_insert]
  split_ifs
  · rfl
  · rfl

/-- A risk changed in memory, but for its key. -/
theorem setStore (h : Known u s) {v : GoString} {r : UserRisk} (huser : r.userID = v)
    (hkey : r.key = s.store[v]?.elim [] UserRisk.key) (hsignals : r.riskSignals ≠ [])
    (restrictions : GoMap PrivilegeRestriction) :
    Known u ⟨s.store.insert v r, s.risks, restrictions⟩ where
  named := forall_insert huser h.named
  keyed := h.keyed
  known k d hk hd := by
    obtain ⟨r', hr', hkey'⟩ := h.known k d hk hd
    rw [GoMap.getElem?_insert]
    split_ifs with hu
    · refine ⟨r, rfl, ?_⟩
      rw [hkey, ← hu, hr', Option.elim_some, hkey']
    · exact ⟨r', hr', hkey'⟩
  kept r' hget hne := by
    rw [GoMap.getElem?_insert] at hget
    split_ifs at hget with hu
    · obtain rfl := Option.some.inj hget
      rw [← hu] at hkey
      rcases hold : s.store[u]? with - | r'
      · rw [hold] at hkey
        exact absurd hkey hne
      · have hsame : r.key = r'.key := by rw [hkey, hold, Option.elim_some]
        rw [hsame] at hne ⊢
        exact h.kept r' hold hne
    · exact h.kept r' hget hne
  remembers := forall_insert hsignals h.remembers
  stores := h.stores

/-- A document written over that of its user. -/
theorem setDoc (h : Known u s) {k : GoString} {d d' : UserRisk} (hk : s.risks[k]? = some d)
    (huser : d'.userID = d.userID) (hsignals : d'.riskSignals ≠ []) :
    Known u { s with risks := s.risks.insert k d' } where
  named := h.named
  keyed := forall_insert (h.keyed k d hk) h.keyed
  known := forall_insert (fun hd' => h.known k d hk (huser.symm.trans hd')) h.known
  kept r hget hne := by
    obtain ⟨d₁, hd₁, huser₁⟩ := h.kept r hget hne
    rw [GoMap.getElem?_insert]
    split_ifs with hk'
    · refine ⟨d', rfl, ?_⟩
      rw [hk'] at hd₁
      rw [huser, ← huser₁, Option.some.inj (hk.symm.trans hd₁)]
    · exact ⟨d₁, hd₁, huser₁⟩
  remembers := h.remembers
  stores := forall_insert hsignals h.stores

/-- A new document of a user, the first one if he is the one who is known. -/
theorem addDoc (h : Known u s) {v k : GoString} {r : UserRisk} (hr : r.userID = v) (hkey : r.key = k)
    (hne : k ≠ []) (hnew : s.risks[k]? = none) (hsignals : r.riskSignals ≠ [])
    (hfree : v = u → ∀ (k' : GoString) (d' : UserRisk), s.risks[k']? = some d' → d'.userID ≠ u) :
    Known u { s with store := s.store.insert v r, risks := s.risks.insert k r } where
  named := forall_insert hr h.named
  keyed := forall_insert hne h.keyed
  known := by
    refine forall_insert (fun hd => ?_) fun k' d hget hd => ?_
    · exact ⟨r, by rw [GoMap.getElem?_insert, if_pos (hd.symm.trans hr)], hkey⟩
    · obtain ⟨r', hr', hkey'⟩ := h.known k' d hget hd
      refine ⟨r', ?_, hkey'⟩
      rw [GoMap.getElem?_insert, if_neg fun hu => hfree hu.symm k' d hget hd, hr']
  kept r' hget hne' := by
    rw [GoMap.getElem?_insert] at hget
    split_ifs at hget with hu
    · obtain rfl := Option.some.inj hget
      exact ⟨r, by rw [GoMap.getElem?_insert, if_pos hkey], hr.trans hu.symm⟩
    · obtain ⟨d, hd, huser⟩ := h.kept r' hget hne'
      refine ⟨d, ?_, huser⟩
      rw [GoMap.getElem?_insert, if_neg, hd]
      intro hk'
      rw [hk', hnew] at hd
      cases hd
  remembers := forall_insert hsignals h.remembers
  stores := forall_insert hsignals h.stores

/-- **A signal** is one more that is remembered of its user. -/
theorem addSignal (h : Known u s) (q : SignalRequest) :
    Known u (svc.addSignal q s) ∧ view u (svc.addSignal q s) =
      ⟨if u = q.userID then remembered s u ++ [q.signal] else remembered s u, stored s.risks u⟩ := by
  have hrisk : (svc.signalled q s.store[q.userID]?).userID = q.userID ∧
      (svc.signalled q s.store[q.userID]?).key = s.store[q.userID]?.elim [] UserRisk.key ∧
      (svc.signalled q s.store[q.userID]?).riskSignals = remembered s q.userID ++ [q.signal] := by
    rw [remembered]
    rcases hold : s.store[q.userID]? with - | r
    · exact ⟨rfl, rfl, rfl⟩
    · exact ⟨h.named q.userID r hold, rfl, rfl⟩
  obtain ⟨huser, hkey, hsignals⟩ := hrisk
  refine ⟨h.setStore huser hkey (by rw [hsignals]; simp) _, ?_⟩
  ext1
  · refine (remembered_insert s _ _ q.userID u _).trans ?_
    split_ifs with hu
    · rw [hsignals, hu]
    · rfl
  · rfl

/-- **A turn of the flush** stores the signals of its user, or nothing. -/
theorem upsert (h : Known u s) {v : GoString} {risk : UserRisk} (hget : s.store[v]? = some risk)
    (now : Time) (a : Answer) :
    Known u (upsert risk now a s) ∧
      (view u (RiskService.upsert risk now a s) = view u s ∨
        v = u ∧ view u (RiskService.upsert risk now a s) = ⟨remembered s u, remembered s u⟩) := by
  obtain rfl : risk.userID = v := h.named v risk hget
  have hrisk := h.remembers risk.userID risk hget
  have hkey : risk.key = s.store[risk.userID]?.elim [] UserRisk.key := by rw [hget, Option.elim_some]
  -- what is written to memory are the signals that it has
  have hmemory : ∀ (r : UserRisk) (risks : GoMap UserRisk), r.riskSignals = risk.riskSignals →
      remembered ⟨s.store.insert risk.userID r, risks, s.restrictions⟩ u = remembered s u := by
    intro r risks hr
    rw [remembered_insert]
    split_ifs with hu
    · rw [hr, hu, remembered, hget, Option.elim_some]
    · rfl
  have hsignals : risk.userID = u → risk.riskSignals = remembered s u := by
    rintro rfl
    rw [remembered, hget, Option.elim_some]
  rw [RiskService.upsert]
  rcases hres : a.lookup.result s.risks (ofUser risk.userID) with - | - | ⟨k, d⟩
  · dsimp only
    rcases hcreate : createDocument s.risks (newDocument risk now a).key a.ok
      (newDocument risk now a) with - | risks
    · -- the times are set in memory all the same
      refine ⟨h.setStore (r := { risk with createdAt := now, updatedAt := now }) rfl hkey hrisk
        s.restrictions, .inl ?_⟩
      ext1
      · exact hmemory _ _ rfl
      · rfl
    · obtain ⟨hne, hnew, rfl⟩ := createDocument_eq_some hcreate
      -- a risk that has been stored has its document under its key, so this one has not been
      have hfree : risk.userID = u →
          ∀ (k : GoString) (d : UserRisk), s.risks[k]? = some d → d.userID ≠ u := by
        rintro rfl k d hd huser
        obtain ⟨r, hr, rfl⟩ := h.known k d hd huser
        obtain rfl := Option.some.inj (hget.symm.trans hr)
        rw [newDocument, if_neg (h.keyed _ d hd), hd] at hnew
        cases hnew
      have h' := h.addDoc (r := newDocument risk now a) rfl rfl hne hnew hrisk hfree
      refine ⟨h', ?_⟩
      by_cases hu : risk.userID = u
      · refine .inr ⟨hu, ?_⟩
        ext1
        · exact hmemory _ _ rfl
        · exact (h'.stored_insert_self (d := newDocument risk now a) rfl hu).trans (hsignals hu)
      · refine .inl ?_
        ext1
        · exact hmemory _ _ rfl
        · refine h.stored_insert_of_ne (d := newDocument risk now a) hu (fun d₀ hd₀ => ?_) h' rfl
          rw [hnew] at hd₀
          cases hd₀
  · exact ⟨h, .inl rfl⟩
  · obtain ⟨hdoc, huser⟩ := (result_eq_some hres).2 (k, d) rfl
    have huser : d.userID = risk.userID := of_decide_eq_true huser
    dsimp only at hdoc ⊢
    split_ifs
    · have h' : Known u { s with risks := s.risks.insert k (patched risk now d) } :=
        h.setDoc hdoc rfl hrisk
      refine ⟨h', ?_⟩
      by_cases hu : risk.userID = u
      · refine .inr ⟨hu, ?_⟩
        ext1
        · rfl
        · exact (h'.stored_insert_self (d := patched risk now d) rfl (huser.trans hu)).trans
            (hsignals hu)
      · refine .inl ?_
        have hd : d.userID ≠ u := fun hd => hu (huser.symm.trans hd)
        ext1
        · rfl
        · refine h.stored_insert_of_ne (d := patched risk now d) hd (fun d₀ hd₀ => ?_) h' rfl
          rw [← Option.some.inj (hdoc.symm.trans hd₀)]
          exact hd
    · exact ⟨h, .inl rfl⟩

/-- If no call fails, and a new document gets a new key, the signals of the user are stored. -/
theorem upsert_stores (h : Known u s) {risk : UserRisk} (hget : s.store[u]? = some risk) (now : Time)
    {a : Answer} {order : MapRange} (hlookup : a.lookup = .found order) (hok : a.ok = true)
    (hkey : a.key ≠ []) (hnew : s.risks[a.key]? = none) :
    stored (RiskService.upsert risk now a s).risks u = remembered s u := by
  obtain rfl : risk.userID = u := h.named u risk hget
  have h' := (h.upsert hget now a).1
  have hsignals : remembered s risk.userID = risk.riskSignals := by
    rw [remembered, hget, Option.elim_some]
  rw [RiskService.upsert, hlookup] at h' ⊢
  rw [hsignals]
  rcases hres : (Lookup.found order).result s.risks (ofUser risk.userID) with - | - | ⟨k, d⟩
  · have hfree := (result_eq_none hres).resolve_left (by simp)
    have hempty : risk.key = [] := by
      by_contra hstored
      obtain ⟨d, hd, huser⟩ := h.kept risk hget hstored
      exact hfree _ d hd (decide_eq_true huser)
    have hdocKey : (newDocument risk now a).key = a.key := if_pos hempty
    rw [hres] at h'
    dsimp only at h' ⊢
    rw [hdocKey, createDocument, if_pos ⟨hok, hkey, hnew⟩] at h' ⊢
    exact h'.stored_insert_self (d := newDocument risk now a) rfl rfl
  · obtain ⟨kd, -, heq⟩ := Option.map_eq_some_iff.mp hres
    cases heq
  · obtain ⟨-, huser⟩ := (result_eq_some hres).2 (k, d) rfl
    have huser : d.userID = risk.userID := of_decide_eq_true huser
    rw [hres] at h'
    dsimp only at h' ⊢
    rw [if_pos hok] at h' ⊢
    exact h'.stored_insert_self (d := patched risk now d) rfl huser

/-- **A start that restores** remembers what is stored. -/
theorem restore (h : Known u s) (order : MapRange) :
    Known u { s with store := restore order s.risks } ∧
      view u { s with store := RiskService.restore order s.risks } =
        ⟨stored s.risks u, stored s.risks u⟩ := by
  have hdoc : ∀ (k : GoString) (d : UserRisk), s.risks[k]? = some d → d.userID = u →
      (RiskService.restore order s.risks)[u]? = some { d with key := k } := by
    intro k d hk huser
    rw [RiskService.restore]
    rcases GoMap.getElem?_insertAll_cases ((order.entries s.risks).map fun kd =>
      (kd.2.userID, { kd.2 with key := kd.1 })) u ∅ with ⟨r, hmem, hr⟩ | ⟨hnone, -⟩
    · obtain ⟨⟨k', d'⟩, hkd, heq⟩ := List.mem_map.mp hmem
      obtain ⟨huser', rfl⟩ := Prod.mk.inj heq
      have hk' := (order.mem_entries s.risks k' d').mp hkd
      obtain rfl := h.unique hk hk' huser huser'
      rw [hr, Option.some.inj (hk.symm.trans hk')]
    · exact absurd huser (hnone _ (List.mem_map_of_mem ((order.mem_entries s.risks k d).mpr hk)))
  refine ⟨⟨fun v r hr => ?_, h.keyed, fun k d hk huser => ⟨_, hdoc k d hk huser, rfl⟩,
    fun r hr _ => ?_, fun v r hr => ?_, h.stores⟩, ?_⟩
  · obtain ⟨k, d, -, huser, rfl⟩ := restore_eq_some hr
    exact huser
  · obtain ⟨k, d, hk, huser, rfl⟩ := restore_eq_some hr
    exact ⟨d, hk, huser⟩
  · obtain ⟨k, d, hk, -, rfl⟩ := restore_eq_some hr
    exact h.stores k d hk
  · ext1
    · show remembered _ u = stored s.risks u
      by_cases hnil : stored s.risks u = []
      · rw [hnil, remembered]
        rcases hr : (RiskService.restore order s.risks)[u]? with - | r
        · rfl
        · obtain ⟨k, d, hk, huser, -⟩ := restore_eq_some hr
          exact absurd huser (h.stored_eq_nil_iff.mp hnil k d hk)
      · rw [h.stored_eq_nil_iff] at hnil
        push Not at hnil
        obtain ⟨k, d, hk, huser⟩ := hnil
        rw [h.stored_eq hk huser, remembered, hdoc k d hk huser, Option.elim_some]
    · rfl

/-- **A start that does not restore** forgets nothing of a user of whom nothing is stored. -/
theorem forget (h : Known u s) (hnil : stored s.risks u = []) :
    Known u { s with store := ∅ } ∧
      view u { s with store := ∅ } = ⟨stored s.risks u, stored s.risks u⟩ := by
  refine ⟨⟨by simp, h.keyed, fun k d hk huser => ?_, by simp, by simp, h.stores⟩, ?_⟩
  · exact absurd huser (h.stored_eq_nil_iff.mp hnil k d hk)
  · ext1
    · rw [hnil, view, remembered]
      simp
    · rfl

end Known

/-- A start that does not restore finds nothing stored of a user. -/
def Restores (u : GoString) (s : RiskState) (ev : Event) : Prop :=
  ev = .restart none → stored s.risks u = []

/-- Whatever happens to the service, it is to a user's signals what can happen to a value that is written
behind. -/
theorem Known.step (h : Known u s) {ev : Event} {s' : RiskState} (hok : Restores u s ev)
    (hs : svc.step s ev = some s') :
    Known u s' ∧ WriteBehind.Steps (· <+: ·) (view u s) (view u s') := by
  obtain rfl := Option.some.inj hs
  have hsame : ∀ docs, Known u ⟨s.store, s.risks, docs⟩ ∧
      WriteBehind.Steps (· <+: ·) (view u s) (view u ⟨s.store, s.risks, docs⟩) :=
    fun docs => ⟨⟨h.named, h.keyed, h.known, h.kept, h.remembers, h.stores⟩, .refl⟩
  cases ev with
  | signal q =>
    obtain ⟨h', hview⟩ : Known u (svc.addSignal q s) ∧ _ := h.addSignal q
    refine ⟨h', .single ?_⟩
    show WriteBehind.Step _ _ (view u (svc.addSignal q s))
    rw [hview]
    refine .grow _ ?_
    split_ifs
    · exact List.prefix_append _ _
    · exact List.prefix_rfl
  | flush v now collection a =>
    rw [after]
    rcases hget : s.store[v]? with - | risk
    · exact ⟨h, .refl⟩
    · obtain ⟨h', hsame | ⟨-, hsaved⟩⟩ := h.upsert hget now a
      · dsimp only
        split_ifs
        · exact ⟨h', by rw [hsame]⟩
        · exact ⟨h, .refl⟩
      · dsimp only
        split_ifs
        · refine ⟨h', .single ?_⟩
          rw [hsaved]
          exact .save
        · exact ⟨h, .refl⟩
  | restart listed =>
    cases listed with
    | some order =>
      obtain ⟨h', hview⟩ := h.restore order
      refine ⟨h', .single ?_⟩
      show WriteBehind.Step _ _ (view u { s with store := RiskService.restore order s.risks })
      rw [hview]
      exact .recover
    | none =>
      obtain ⟨h', hview⟩ := h.forget (hok rfl)
      refine ⟨h', .single ?_⟩
      show WriteBehind.Step _ _ (view u { s with store := ∅ })
      rw [hview]
      exact .recover
  | create tenantID r key now ok => exact hsame _
  | release tenantID userID now ok =>
    rw [after]
    split_ifs
    · exact hsame _
    · exact ⟨h, .refl⟩
  | delete key ok =>
    rw [after]
    split_ifs
    · exact hsame _
    · exact ⟨h, .refl⟩

/-- The runs of the service, from an empty database. -/
abbrev Reach (svc : RiskService) : Run.History RiskState Event → RiskState → Prop :=
  Run.Reach svc.step Run.Any {}

theorem known_of_reach {hist : Run.History RiskState Event} (h : svc.Reach hist s)
    (hrestores : ∀ e ∈ hist, Restores u e.1 e.2) :
    Known u s ∧ (view u s).Behind (· <+: ·) ∧ ∀ e ∈ hist, Known u e.1 ∧ (view u e.1).Behind (· <+: ·) ∧
      ∀ s₁, svc.step e.1 e.2 = some s₁ → (view u s₁).Behind (· <+: ·) ∧
        WriteBehind.Steps (· <+: ·) (view u s₁) (view u s) := by
  have hrun : Run.Reach svc.step (fun _ => Restores u) {} hist s :=
    Run.Reach.restrict h fun e he _ => hrestores e he
  have hbehind : (view u {}).Behind (· <+: ·) := List.nil_prefix
  refine WriteBehind.kept_of_reach Known.start hbehind ?_ hrun
  exact fun h hok hs => h.step hok hs

/-- **What is stored of a user is remembered** at every moment of a run exactly if each start of it that did
not restore found nothing stored of him. -/
theorem signals_kept_iff (svc : RiskService) (u : GoString) {hist : Run.History RiskState Event}
    {s : RiskState} (h : svc.Reach hist s) :
    (∀ s' ∈ s :: hist.map Prod.fst, stored s'.risks u <+: remembered s' u) ↔
      ∀ e ∈ hist, Restores u e.1 e.2 := by
  constructor
  · intro hkept e he hev
    obtain ⟨s', hmem, hs'⟩ := h.led e he
    rw [hev] at hs'
    obtain rfl := Option.some.inj hs'
    have hnil : stored e.1.risks u <+: [] := by simpa [after, remembered] using hkept _ hmem
    exact List.prefix_nil.mp hnil
  · intro hrestores
    obtain ⟨-, hbehind, hpast⟩ := known_of_reach h hrestores
    refine List.forall_mem_cons.mpr ⟨hbehind, fun s' hs' => ?_⟩
    obtain ⟨e, he, rfl⟩ := List.mem_map.mp hs'
    exact (hpast e he).2.1

/-- The arithmetic of floats, right on the sum of the examples, and a repository of restrictions. -/
def sampleService : RiskService where
  ops :=
    { add x y := if x = ⟨0⟩ then y else ⟨0x4064000000000000⟩
      mul x _ := x
      div x _ := x
      min x _ := x
      log10 x := x
      round x := x
      ofInt _ := .c1 }
  privRepo := true

/-- A signal that counts 80. -/
def sampleRequest (now : Time) : SignalRequest where
  tenantID := str "t1"
  userID := str "u1"
  username := str "alice"
  signal := { type := str "impossible_travel", score := .c80, detail := [], detectedAt := now }
  now := now
  answer := { key := str "1" }

/-- The state after one signal. -/
def sampleSignalled : RiskState := sampleService.after {} (.signal (sampleRequest 1))

/-- The state after the flush. -/
def sampleFlushed : RiskState :=
  sampleService.after sampleSignalled (.flush (str "u1") 2 true { key := str "7" })

theorem reach_sampleSignalled :
    sampleService.Reach [({}, .signal (sampleRequest 1))] sampleSignalled := .next .start trivial rfl

theorem reach_sampleFlushed :
    sampleService.Reach [(sampleSignalled, .flush (str "u1") 2 true { key := str "7" }),
      ({}, .signal (sampleRequest 1))] sampleFlushed := .next reach_sampleSignalled trivial rfl

/-- After a flush, a start that does not restore remembers less than is stored. -/
theorem signals_kept_iff_of_forgotten : ∃ hist s, sampleService.Reach hist s ∧
    ¬∀ s' ∈ s :: hist.map Prod.fst,
      stored s'.risks (str "u1") <+: remembered s' (str "u1") := by
  have hforgotten : sampleService.Reach ((sampleFlushed, .restart none) :: _) _ :=
    .next reach_sampleFlushed trivial rfl
  refine ⟨_, _, hforgotten, fun hkept => ?_⟩
  have hnone : stored sampleFlushed.risks (str "u1") = [] :=
    (signals_kept_iff sampleService (str "u1") hforgotten).mp hkept _ List.mem_cons_self rfl
  revert hnone
  decide

/-- **What was flushed is kept**: in a run without such a start, the signals of a user that a turn of the
flush met, with no call failing, are the first that are stored and remembered of him ever after. -/
theorem flushed_kept {u : GoString} {hist : Run.History RiskState Event} {s : RiskState}
    (h : svc.Reach hist s)
    (hrestores : ∀ e ∈ hist, Restores u e.1 e.2) {e : RiskState × Event}
    (he : e ∈ hist) {now : Time} {order : MapRange} {key : GoString}
    (hev : e.2 = .flush u now true { lookup := .found order, key }) (hkey : key ≠ [])
    (hnew : e.1.risks[key]? = none) :
    remembered e.1 u <+: stored s.risks u ∧ stored s.risks u <+: remembered s u := by
  obtain ⟨-, hbehind, hpast⟩ := known_of_reach h hrestores
  refine ⟨?_, hbehind⟩
  obtain ⟨hknown, -, hafter⟩ := hpast e he
  obtain ⟨s₁, -, hs₁⟩ := h.led e he
  obtain ⟨hbehind₁, hsteps⟩ := hafter s₁ hs₁
  have hstored : remembered e.1 u <+: stored s₁.risks u := by
    rw [hev] at hs₁
    obtain rfl := Option.some.inj hs₁
    rcases hget : e.1.store[u]? with - | risk
    · rw [remembered, hget]
      exact List.nil_prefix
    · have hturn : svc.after e.1 (.flush u now true { lookup := .found order, key }) =
          RiskService.upsert risk now { lookup := .found order, key } e.1 := by
        rw [after, hget]
        rfl
      rw [hturn, hknown.upsert_stores hget now rfl rfl hkey hnew]
  exact hstored.trans (hsteps.stored_le hbehind₁)

theorem flushed_kept_of_restart :
    let s := sampleService.after sampleFlushed (.restart (some .byKey))
    remembered sampleSignalled (str "u1") <+: stored s.risks (str "u1") ∧
      stored s.risks (str "u1") <+: remembered s (str "u1") := by
  have hrestarted : sampleService.Reach ((sampleFlushed, .restart (some .byKey)) :: _) _ :=
    .next reach_sampleFlushed trivial rfl
  refine flushed_kept hrestarted ?_ (List.mem_cons_of_mem _ List.mem_cons_self) rfl ?_ ?_
  · simp [Restores]
  · decide
  · decide

/-- **What a start does not restore is overwritten**: with the next signal of a user, and the flush after
it, that signal is all that is stored of him. -/
theorem overwritten {u : GoString} {hist : Run.History RiskState Event} {s : RiskState}
    (h : svc.Reach hist s)
    (hrestores : ∀ e ∈ hist, Restores u e.1 e.2)
    (hstored : stored s.risks u ≠ []) {q : SignalRequest} (hq : q.userID = u) (now : Time)
    (order : MapRange) (key : GoString) :
    stored (svc.after (svc.after (svc.after s (.restart none)) (.signal q))
      (.flush u now true { lookup := .found order, key })).risks u = [q.signal] := by
  have hknown := (known_of_reach h hrestores).1
  subst hq
  rw [Ne, hknown.stored_eq_nil_iff] at hstored
  push Not at hstored
  obtain ⟨k, d, hk, huser⟩ := hstored
  set s₁ := svc.after (svc.after s (.restart none)) (.signal q) with hs₁
  have hrisks : s₁.risks = s.risks := rfl
  have hget : s₁.store[q.userID]? = some (svc.signalled q none) := by
    have hstore : s₁.store = (∅ : GoMap UserRisk).insert q.userID (svc.signalled q none) := by
      rw [hs₁]
      simp [after, addSignal]
    rw [hstore, GoMap.getElem?_insert, if_pos rfl]
  have hturn : svc.after s₁ (.flush q.userID now true { lookup := .found order, key }) =
      RiskService.upsert (svc.signalled q none) now { lookup := .found order, key } s₁ := by
    rw [after, hget]
    rfl
  rw [hturn, RiskService.upsert]
  rcases hres : (Lookup.found order).result s₁.risks (ofUser (svc.signalled q none).userID)
    with - | - | ⟨k', d'⟩
  · exact absurd (decide_eq_true huser) ((result_eq_none hres).resolve_left (by simp) k d hk)
  · obtain ⟨kd, -, heq⟩ := Option.map_eq_some_iff.mp hres
    cases heq
  · obtain ⟨hk', huser'⟩ := (result_eq_some hres).2 (k', d') rfl
    have hown : d'.userID = q.userID := of_decide_eq_true huser'
    have hsignals : (patched (svc.signalled q none) now d').riskSignals ≠ [] := by
      simp [patched, signalled]
    have hdoc : Known q.userID { s with
        risks := s.risks.insert k' (patched (svc.signalled q none) now d') } :=
      hknown.setDoc hk' rfl hsignals
    exact hdoc.stored_insert_self (d := patched (svc.signalled q none) now d') rfl hown

theorem overwritten_of_flushed :
    stored (sampleService.after (sampleService.after (sampleService.after sampleFlushed (.restart none))
      (.signal (sampleRequest 3))) (.flush (str "u1") 4 true { key := str "8" })).risks (str "u1") =
        [(sampleRequest 3).signal] := by
  refine overwritten reach_sampleFlushed ?_ ?_ rfl 4 .byKey (str "8")
  · simp [Restores]
  · show stored sampleFlushed.risks (str "u1") ≠ []
    decide

/-! ### Tenants -/

/-- Signals, one after the other. -/
def addSignals (svc : RiskService) (qs : List SignalRequest) (s : RiskState) : RiskState :=
  qs.foldl (fun s q => svc.addSignal q s) s

/-- What is seen of a user by a tenant: `List` shows the risks that are of the tenant. -/
def seen (tenantID : GoString) (s : RiskState) (u : GoString) : Option UserRisk :=
  s.store[u]?.filter fun r => r.tenantID = tenantID

/-- The risk of a user, by the signals about him. -/
def riskOf (svc : RiskService) (qs : List SignalRequest) (old : Option UserRisk) : Option UserRisk :=
  qs.foldl (fun r q => some (svc.signalled q r)) old

/-- The risk of a user is that of the signals about him. -/
theorem store_addSignals (svc : RiskService) (u : GoString) (qs : List SignalRequest) :
    ∀ s, (svc.addSignals qs s).store[u]? = svc.riskOf (qs.filter (·.userID = u)) s.store[u]? := by
  induction qs with
  | nil => exact fun s => rfl
  | cons q qs ih =>
    intro s
    refine (ih (svc.addSignal q s)).trans ?_
    have hstore : (svc.addSignal q s).store = s.store.insert q.userID (svc.signalled q s.store[q.userID]?) :=
      rfl
    rw [hstore, GoMap.getElem?_insert, List.filter_cons]
    split_ifs with hu hq hq
    · rw [← hu]
      rfl
    · exact absurd (decide_eq_true hu.symm) hq
    · exact absurd (of_decide_eq_true hq).symm hu
    · rfl

/-- A risk is of the tenant of the first signal, and has the signals of all. -/
theorem riskOf_some (svc : RiskService) (qs : List SignalRequest) :
    ∀ old : UserRisk, ∃ r, svc.riskOf qs (some old) = some r ∧ r.tenantID = old.tenantID ∧
      r.riskSignals = old.riskSignals ++ qs.map SignalRequest.signal := by
  induction qs with
  | nil => exact fun old => ⟨old, rfl, rfl, by simp⟩
  | cons q qs ih =>
    intro old
    obtain ⟨r, hr, htenant, hsignals⟩ := ih (svc.signalled q (some old))
    refine ⟨r, hr, htenant, ?_⟩
    rw [hsignals]
    simp [signalled]

theorem riskOf_cons (svc : RiskService) (q : SignalRequest) (qs : List SignalRequest) :
    ∃ r, svc.riskOf (q :: qs) none = some r ∧ r.tenantID = q.tenantID ∧
      r.riskSignals = (q :: qs).map SignalRequest.signal := by
  obtain ⟨r, hr, htenant, hsignals⟩ := riskOf_some svc qs (svc.signalled q none)
  exact ⟨r, hr, htenant, by rw [hsignals]; simp [signalled]⟩

/-- Of some signals about one user, a tenant sees what it sees of its own alone, exactly if none or all of
them are its own. -/
theorem filter_riskOf_eq_iff (svc : RiskService) (tenantID : GoString) (qs : List SignalRequest) :
    (svc.riskOf qs none).filter (fun r => r.tenantID = tenantID) =
        (svc.riskOf (qs.filter (·.tenantID = tenantID)) none).filter (fun r => r.tenantID = tenantID) ↔
      ∀ q ∈ qs, q.tenantID = tenantID → ∀ q' ∈ qs, q'.tenantID = tenantID := by
  constructor
  · intro heq q hq htenant
    -- its own signals are there, so that its own risk is seen
    have hown : q ∈ qs.filter (·.tenantID = tenantID) := List.mem_filter.mpr ⟨hq, decide_eq_true htenant⟩
    obtain ⟨q₀, own, hown⟩ := List.exists_cons_of_ne_nil (List.ne_nil_of_mem hown)
    obtain ⟨r₀, hr₀, htenant₀, hsignals₀⟩ := svc.riskOf_cons q₀ own
    have hq₀ : q₀.tenantID = tenantID := by
      have hmem : q₀ ∈ qs.filter (·.tenantID = tenantID) := hown ▸ List.mem_cons_self
      exact of_decide_eq_true (List.mem_filter.mp hmem).2
    obtain ⟨q₁, rest, rfl⟩ := List.exists_cons_of_ne_nil (List.ne_nil_of_mem hq)
    obtain ⟨r₁, hr₁, -, hsignals₁⟩ := svc.riskOf_cons q₁ rest
    rw [hown, hr₀, hr₁, Option.filter_some, Option.filter_some,
      if_pos (decide_eq_true (htenant₀.trans hq₀))] at heq
    split_ifs at heq
    -- the signals of the risk are as many as its own, so that they are all there are
    have hlength : ((q₁ :: rest).filter (·.tenantID = tenantID)).length = (q₁ :: rest).length := by
      have h := congrArg (fun r => r.riskSignals.length) (Option.some.inj heq)
      rw [hsignals₀, hsignals₁, List.length_map, List.length_map] at h
      rw [hown, h]
    intro q' hq'
    exact of_decide_eq_true (List.length_filter_eq_length_iff.mp hlength q' hq')
  · intro hall
    by_cases hany : ∃ q ∈ qs, q.tenantID = tenantID
    · obtain ⟨q, hq, htenant⟩ := hany
      rw [List.filter_eq_self.mpr fun q' hq' => decide_eq_true (hall q hq htenant q' hq')]
    · have hnone : qs.filter (·.tenantID = tenantID) = [] :=
        List.filter_eq_nil_iff.mpr fun q hq htenant => hany ⟨q, hq, of_decide_eq_true htenant⟩
      rw [hnone]
      cases qs with
      | nil => rfl
      | cons q qs =>
        obtain ⟨r, hr, htenant, -⟩ := svc.riskOf_cons q qs
        rw [hr, Option.filter_some, if_neg]
        · rfl
        · intro hseen
          exact hany ⟨q, List.mem_cons_self, htenant.symm.trans (of_decide_eq_true hseen)⟩

/-- **A tenant sees what its own signals make of its users** exactly if none of them shares the ID with a
user of another tenant. -/
theorem tenants_separate_iff (svc : RiskService) (tenantID : GoString) (qs : List SignalRequest) :
    (∀ u, seen tenantID (svc.addSignals qs {}) u =
        seen tenantID (svc.addSignals (qs.filter (·.tenantID = tenantID)) {}) u) ↔
      ∀ q ∈ qs, q.tenantID = tenantID → ∀ q' ∈ qs, q'.userID = q.userID → q'.tenantID = tenantID := by
  have hseen : ∀ (u : GoString) (qs : List SignalRequest), seen tenantID (svc.addSignals qs {}) u =
      (svc.riskOf (qs.filter (·.userID = u)) none).filter fun r => r.tenantID = tenantID := by
    intro u qs
    rw [seen, store_addSignals]
    simp
  simp only [hseen]
  constructor
  · intro heq q hq htenant q' hq' huser
    have hu := heq q.userID
    rw [List.filter_comm] at hu
    refine (svc.filter_riskOf_eq_iff tenantID _).mp hu q ?_ htenant q' ?_
    · exact List.mem_filter.mpr ⟨hq, by simp⟩
    · exact List.mem_filter.mpr ⟨hq', by simpa using huser⟩
  · intro hown u
    rw [List.filter_comm]
    refine (svc.filter_riskOf_eq_iff tenantID _).mpr fun q hq htenant q' hq' => ?_
    obtain ⟨hq, hu⟩ := List.mem_filter.mp hq
    obtain ⟨hq', hu'⟩ := List.mem_filter.mp hq'
    exact hown q hq htenant q' hq' ((of_decide_eq_true hu').trans (of_decide_eq_true hu).symm)

end RiskService

end Identity

end Xsiam
