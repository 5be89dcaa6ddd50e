import Xsiam.Go.Text
import Xsiam.Etl.Model
import Xsiam.Lib.Collection
import Xsiam.Lib.Traces

/-!
# Cached statistics

`pkg/statscache` with those who go through it: `Stats`, `IsolateEndpoint` and `ReleaseIsolation` of
`internal/domain/endpoint/service.go`, `GetStats` of `internal/domain/dashboard/service.go`, and the
tasks of `registerStatsCronTasks` that compute the figures of the dashboard and of the endpoints before
they are asked for. A reader that finds nothing in the cache computes the figures and puts them there,
and nothing holds the cache between the two. An isolation takes the figures of its tenant out of the
cache, a release does not, and the tasks ask like any other reader.

Every event has a moment, and figures are marked with the moment they were computed, for the statements
only. `Xsiam.Dashboard.fresh_of_inTime` says when nobody is shown figures from before an isolation that
has returned or before a run of the tasks that has finished.
-/

namespace Xsiam

namespace Dashboard

open Go

/-! ### Isolations -/

/-- `model.IsolatedEndpoint`, by the fields that are written here. -/
structure IsolatedEndpoint where
  tenantID : GoString
  deviceKey : GoString
  reason : GoString
  operator : GoString
  status : GoString
  isolatedAt : Time := 0
  releasedAt : Option Time := none
  releasedBy : GoString := []
  createdAt : Time := 0
  updatedAt : Time := 0

/-- The documents of `isolated_endpoints`. -/
abbrev Isolations := Collection IsolatedEndpoint

/-- `CreateIsolation` -/
def createIsolation (isolations : Isolations) (iso : IsolatedEndpoint) (now : Time) : Isolations :=
  isolations.insert { iso with isolatedAt := now, createdAt := now, updatedAt := now }

/-- `ReleaseIsolation` of the repository, where the document of a key may be missing. -/
def releaseIsolation (isolations : Isolations) (key : ℕ) (operatorID : GoString) (now : Time) :
    Option Isolations :=
  Collection.update isolations key fun iso =>
    { iso with status := str "released", releasedAt := some now, releasedBy := operatorID,
               updatedAt := now }

/-- `CountIsolated` -/
def countIsolated (isolations : Isolations) (tenantID status : GoString) : ℤ :=
  (isolations.docs.filter fun d => d.2.tenantID = tenantID && d.2.status = status).length

/-- `CountIsolationsInWindow`: `notBefore` is `doc.isolated_at >= @since`. -/
def countIsolationsInWindow (notBefore : Time → Time → Bool) (isolations : Isolations)
    (tenantID : GoString) (hours : ℕ) (now : Time) : ℤ :=
  (isolations.docs.filter fun d => d.2.tenantID = tenantID &&
    notBefore d.2.isolatedAt (now - hours * 3600000000000)).length

/-! ### Figures -/

/-- `model.EndpointStats`, by the fields that are written. -/
structure EndpointStats where
  tenantID : GoString
  total : ℤ
  online : ℤ
  isolated : ℤ
  isolationsWeek : ℤ
  alertsToday : ℤ
  computedAt : Time

/-- The figures that are cached: those of a dashboard, whatever they are, or those of the endpoints. -/
inductive Figures (δ : Type) where
  | dashboard (stats : δ)
  | endpoint (stats : EndpointStats)

/-- Figures with the moment they were computed. -/
structure Computed (δ : Type) where
  figures : Figures δ
  moment : ℕ

/-- What is cached: `PfxDashboardStats` or `PfxEndpointStats`. -/
inductive Kind where
  | dashboard
  | endpoint
deriving DecidableEq

/-- `statscache.Key` -/
def statsKey : Kind → GoString → GoString
  | .dashboard, tenantID => str "stats:dashboard:" ++ tenantID
  | .endpoint, tenantID => str "stats:endpoint:" ++ tenantID

/-- `TTLFast` or `TTLMedium`, in milliseconds. -/
def Kind.ttl : Kind → ℕ
  | .dashboard => 600000
  | .endpoint => 1800000

theorem statsKey_ne (tenantID tenantID' : GoString) :
    statsKey .dashboard tenantID ≠ statsKey .endpoint tenantID' := by
  intro h
  have htake := congrArg (List.take 7) h
  rw [statsKey, statsKey, List.take_append_of_le_length (by decide),
    List.take_append_of_le_length (by decide)] at htake
  exact absurd htake (by decide)

theorem statsKey_inj {kind kind' : Kind} {tenantID tenantID' : GoString}
    (h : statsKey kind tenantID = statsKey kind' tenantID') : kind = kind' ∧ tenantID = tenantID' := by
  cases kind with
  | dashboard =>
    cases kind' with
    | dashboard => exact ⟨rfl, List.append_cancel_left h⟩
    | endpoint => exact absurd h (statsKey_ne _ _)
  | endpoint =>
    cases kind' with
    | dashboard => exact absurd h.symm (statsKey_ne _ _)
    | endpoint => exact ⟨rfl, List.append_cancel_left h⟩

/-! ### Stores and calls -/

/-- The isolations, the cache with the time each entry dies at, and the time in milliseconds. -/
structure Stores (δ : Type) where
  isolations : Isolations
  cache : GoString → Option (Computed δ × ℕ)
  clock : ℕ

/-- The calls. -/
inductive Call (δ : Type) where
  | get (kind : Kind) (tenantID : GoString)
  | compute (kind : Kind) (tenantID : GoString)
  | set (kind : Kind) (tenantID : GoString) (stats : Computed δ)
  | del (kind : Kind) (tenantID : GoString)
  | createIsolation (iso : IsolatedEndpoint)
  | releaseIsolation (key : ℕ) (operatorID : GoString)
  | listTenants

/-- What a call returns. A release is told the tenant of its document, if there is one, for the
statements only: what it looks at is whether there is one. -/
abbrev Call.Reply {δ : Type} : Call δ → Type
  | .get _ _ => Option (Computed δ)
  | .compute _ _ => Computed δ
  | .set _ _ _ | .del _ _ => Unit
  | .createIsolation _ => ℕ
  | .releaseIsolation _ _ => Option GoString
  | .listTenants => List GoString

/-- A program that makes these calls. -/
abbrev Work (δ : Type) := Prog (Call.Reply (δ := δ))

section Programs

variable {δ : Type}

namespace Work

def get (kind : Kind) (tenantID : GoString) : Work δ (Option (Computed δ)) :=
  Prog.send (Call.get kind tenantID)

def compute (kind : Kind) (tenantID : GoString) : Work δ (Computed δ) :=
  Prog.send (Call.compute kind tenantID)

def set (kind : Kind) (tenantID : GoString) (stats : Computed δ) : Work δ Unit :=
  Prog.send (Call.set kind tenantID stats)

def del (kind : Kind) (tenantID : GoString) : Work δ Unit := Prog.send (Call.del kind tenantID)

def createIsolation (iso : IsolatedEndpoint) : Work δ ℕ := Prog.send (Call.createIsolation iso)

def releaseIsolation (key : ℕ) (operatorID : GoString) : Work δ (Option GoString) :=
  Prog.send (Call.releaseIsolation key operatorID)

def listTenants : Work δ (List GoString) := Prog.send Call.listTenants

end Work

/-- `GetStats` of the dashboard, and `Stats` of the endpoints. -/
def cachedStats (kind : Kind) (tenantID : GoString) : Work δ (Computed δ) := do
  match ← Work.get kind tenantID with
  | some cached => pure cached
  | none => do
    let stats ← Work.compute kind tenantID
    Work.set kind tenantID stats
    pure stats

/-- The loop of `stats_precompute_dashboard` and of `stats_precompute_endpoint`. -/
def precompute (kind : Kind) : List GoString → Work δ Unit
  | [] => pure ()
  | tid :: rest => do
    let _ ← cachedStats kind tid
    precompute kind rest

/-- What is asked for: by a reader, by an operator, or by the timer. -/
inductive Request where
  | stats (kind : Kind) (tenantID : GoString)
  | isolateEndpoint (tenantID deviceKey reason operator : GoString)
  | releaseIsolation (key : ℕ) (operatorID : GoString)
  | precompute (kind : Kind)

/-- The program of a request, with the figures that a reader is shown. -/
def Request.program : Request → Work δ (Option (Computed δ))
  | .stats kind tenantID => do
    let stats ← cachedStats kind tenantID
    pure (some stats)
  | .isolateEndpoint tenantID deviceKey reason operator => do
    let _ ← Work.createIsolation { tenantID, deviceKey, reason, operator, status := str "active" }
    -- invalidate the cache so that the next read picks up the new isolation
    Work.del .endpoint tenantID
    pure none
  | .releaseIsolation key operatorID => do
    let _ ← Work.releaseIsolation key operatorID
    pure none
  | .precompute kind => do
    let tenants ← Work.listTenants
    Dashboard.precompute kind tenants
    pure none

/-- What a call finds: the time that passes before it, and what the other collections answer. -/
structure Turn (δ : Type) where
  wait : ℕ := 0
  tenants : List GoString := []
  dashboard : δ
  total : ℤ := 0
  online : ℤ := 0
  alertsToday : ℤ := 0

namespace Stores

variable (st : Stores δ)

/-- Time passes. -/
def wait (ms : ℕ) : Stores δ := { st with clock := st.clock + ms }

/-- `time.Now()` -/
def now : Time := st.clock * 1000000

/-- What is found in the cache. -/
def cached (kind : Kind) (tenantID : GoString) : Option (Computed δ) :=
  ((st.cache (statsKey kind tenantID)).filter fun e => st.clock < e.2).map Prod.fst

/-- `computeStats` of the endpoints -/
def endpointStats (notBefore : Time → Time → Bool) (w : Turn δ) (tenantID : GoString) :
    EndpointStats where
  tenantID
  total := w.total
  online := w.online
  isolated := countIsolated st.isolations tenantID (str "active")
  isolationsWeek := countIsolationsInWindow notBefore st.isolations tenantID 168 st.now
  alertsToday := w.alertsToday
  computedAt := st.now

/-- What is computed at a moment. -/
def computed (notBefore : Time → Time → Bool) (w : Turn δ) (moment : ℕ) (tenantID : GoString) :
    Kind → Computed δ
  | .dashboard => ⟨.dashboard w.dashboard, moment⟩
  | .endpoint => ⟨.endpoint (st.endpointStats notBefore w tenantID), moment⟩

/-- The cache with an entry, or without it. -/
def put (kind : Kind) (tenantID : GoString) (entry : Option (Computed δ × ℕ)) : Stores δ :=
  { st with cache := Function.update st.cache (statsKey kind tenantID) entry }

end Stores

/-- What the stores do with a call at a moment. -/
def answer (notBefore : Time → Time → Bool) (w : Turn δ) (moment : ℕ) :
    (i : Call δ) → Stores δ → i.Reply × Stores δ
  | .get kind tenantID, st => (st.cached kind tenantID, st)
  | .compute kind tenantID, st => (st.computed notBefore w moment tenantID kind, st)
  | .set kind tenantID stats, st => ((), st.put kind tenantID (some (stats, st.clock + kind.ttl)))
  | .del kind tenantID, st => ((), st.put kind tenantID none)
  | .createIsolation iso, st =>
    (st.isolations.next, { st with isolations := createIsolation st.isolations iso st.now })
  | .releaseIsolation key operatorID, st =>
    match releaseIsolation st.isolations key operatorID st.now with
    | some isolations => ((st.isolations.get key).map (·.tenantID), { st with isolations })
    | none => (none, st)
  | .listTenants, st => (w.tenants, st)

/-- What the stores do with a call when its turn has come. -/
def serve (notBefore : Time → Time → Bool) (w : Turn δ) :
    Prog.TimedService (Call.Reply (δ := δ)) (Stores δ) :=
  fun moment i st => answer notBefore w moment i (st.wait w.wait)

end Programs

/-! ### What programs ensure -/

section Ensures

variable {δ : Type}

/-- A call with its reply. -/
abbrev Entry (δ : Type) := Prog.Entry (Call.Reply (δ := δ))

/-- What is put into the cache was computed by the same program, and an isolation is written first. -/
def Before (trace : List (Entry δ)) : Call δ → Prop
  | .set kind tenantID stats => ⟨.compute kind tenantID, stats⟩ ∈ trace
  | .createIsolation _ => trace = []
  | _ => True

/-- Whatever was not found in the cache was put there. -/
def Filled (kind : Kind) (trace : List (Entry δ)) : Prop :=
  ∀ tenantID r, (⟨.get kind tenantID, r⟩ : Entry δ) ∈ trace →
    (∃ stats, r = some stats) ∨ ∃ stats, (⟨.set kind tenantID stats, ()⟩ : Entry δ) ∈ trace

/-- What is ensured at the end of a request. -/
def Request.Final : Request → List (Entry δ) → Option (Computed δ) → Prop
  | .stats kind tenantID, trace, r => ∀ stats ∈ r,
      (⟨.get kind tenantID, some stats⟩ : Entry δ) ∈ trace ∨
        (⟨.compute kind tenantID, stats⟩ : Entry δ) ∈ trace
  | .isolateEndpoint tenantID _ _ _, trace, _ => (⟨.del .endpoint tenantID, ()⟩ : Entry δ) ∈ trace
  | .releaseIsolation _ _, _, _ => True
  | .precompute kind, trace, _ => Filled kind trace

theorem Filled.cons {kind : Kind} {trace : List (Entry δ)} (h : Filled kind trace) {e : Entry δ}
    (he : ∀ tenantID, e ≠ ⟨.get kind tenantID, none⟩) : Filled kind (e :: trace) := by
  intro tenantID r hr
  obtain heq | hr := List.mem_cons.mp hr
  · cases r with
    | none => exact absurd heq.symm (he tenantID)
    | some stats => exact .inl ⟨stats, rfl⟩
  · obtain hfound | ⟨stats, hset⟩ := h tenantID r hr
    · exact .inl hfound
    · exact .inr ⟨stats, List.mem_cons_of_mem _ hset⟩

theorem ensures_cachedStats {kind : Kind} {tenantID : GoString} {trace : List (Entry δ)}
    (h : Filled kind trace) :
    (cachedStats kind tenantID).Ensures Before (fun trace stats =>
      ((⟨.get kind tenantID, some stats⟩ : Entry δ) ∈ trace ∨
        (⟨.compute kind tenantID, stats⟩ : Entry δ) ∈ trace) ∧ Filled kind trace) trace := by
  refine ⟨trivial, fun r => ?_⟩
  cases r with
  | some stats =>
    refine ⟨.inl (List.mem_cons_self ..), h.cons fun tid heq => ?_⟩
    cases heq
  | none =>
    refine ⟨trivial, fun stats => ⟨List.mem_cons_self .., fun _ => ⟨.inr ?_, ?_⟩⟩⟩
    · exact List.mem_cons_of_mem _ (List.mem_cons_self ..)
    · intro tid r hr
      have hset : (⟨.set kind tenantID stats, ()⟩ : Entry δ) ∈
          ⟨.set kind tenantID stats, ()⟩ :: ⟨.compute kind tenantID, stats⟩ ::
            ⟨.get kind tenantID, none⟩ :: trace := List.mem_cons_self ..
      obtain heq | hr := List.mem_cons.mp hr
      · cases heq
      obtain heq | hr := List.mem_cons.mp hr
      · cases heq
      obtain heq | hr := List.mem_cons.mp hr
      · -- what was not found is there now
        cases heq
        exact .inr ⟨stats, hset⟩
      · obtain hfound | ⟨stats', hold⟩ := h tid r hr
        · exact .inl hfound
        · exact .inr ⟨stats', List.mem_cons_of_mem _ (List.mem_cons_of_mem _
            (List.mem_cons_of_mem _ hold))⟩

theorem ensures_precompute {kind : Kind} : ∀ {tenants : List GoString} {trace : List (Entry δ)},
    Filled kind trace →
      (precompute kind tenants).Ensures Before (fun trace _ => Filled kind trace) trace
  | [], _, h => h
  | _ :: _, _, h => (ensures_cachedStats h).bind fun _ _ hmid => ensures_precompute hmid.2

theorem filled_nil (kind : Kind) : Filled kind ([] : List (Entry δ)) :=
  fun _ _ hr => absurd hr List.not_mem_nil

/-- **What a request ensures**, whatever others do. -/
theorem ensures_program (req : Request) :
    (req.program : Work δ _).Ensures Before req.Final [] := by
  cases req with
  | stats kind tenantID =>
    refine (ensures_cachedStats (filled_nil kind)).bind fun trace stats hmid stats' hstats => ?_
    obtain rfl := Option.some.inj hstats
    exact hmid.1
  | isolateEndpoint tenantID deviceKey reason operator =>
    exact ⟨rfl, fun _ => ⟨trivial, fun _ => List.mem_cons_self ..⟩⟩
  | releaseIsolation key operatorID => exact ⟨trivial, fun _ => trivial⟩
  | precompute kind =>
    refine ⟨trivial, fun tenants => ?_⟩
    refine (ensures_precompute ((filled_nil kind).cons fun tid heq => ?_)).bind
      fun trace _ hfilled => hfilled
    cases heq

end Ensures

/-! ### What makes older figures obsolete -/

section Runs

variable {δ : Type}

/-- A request in progress. -/
abbrev Task (δ : Type) := Prog.Doing (Call.Reply (δ := δ)) Request (Option (Computed δ))

/-- Requests in progress. -/
abbrev Pool (δ : Type) := Prog.Traced (Call.Reply (δ := δ)) Request (Stores δ) (Option (Computed δ))

/-- What happens: a request arrives, or makes its next call. -/
abbrev Occurrence (δ : Type) := Prog.Pool.Event Request (Turn δ)

/-- One occurrence. -/
abbrev handle (notBefore : Time → Time → Bool) : Pool δ → Occurrence δ → Option (Pool δ) :=
  Prog.Traced.step Request.program (serve notBefore)

/-- From the moment `m` on, a task wants no figures of a tenant shown that are older than the moment
`n`: an isolation from when it has cleared the cache, a release from when it is written, and a run of
the timer from when it has found figures or put some into the cache. -/
inductive Settles (t : Task δ) : Kind → GoString → ℕ → ℕ → Prop where
  | isolated {tenantID deviceKey reason operator : GoString} {iso : IsolatedEndpoint} {n m key : ℕ}
      (hreq : t.req = .isolateEndpoint tenantID deviceKey reason operator)
      (hwritten : (n, ⟨.createIsolation iso, key⟩) ∈ t.trace)
      (hcleared : (m, ⟨.del .endpoint tenantID, ()⟩) ∈ t.trace) : Settles t .endpoint tenantID n m
  | released {tenantID operatorID : GoString} {n key : ℕ}
      (hwritten : (n, ⟨.releaseIsolation key operatorID, some tenantID⟩) ∈ t.trace) :
      Settles t .endpoint tenantID n n
  | found {kind : Kind} {tenantID : GoString} {stats : Computed δ} {m : ℕ}
      (hreq : t.req = .precompute kind) (hfound : (m, ⟨.get kind tenantID, some stats⟩) ∈ t.trace) :
      Settles t kind tenantID t.began m
  | stored {kind : Kind} {tenantID : GoString} {stats : Computed δ} {m : ℕ}
      (hreq : t.req = .precompute kind) (hstored : (m, ⟨.set kind tenantID stats, ()⟩) ∈ t.trace) :
      Settles t kind tenantID t.began m

/-- No figures are put into the cache behind something that made them obsolete; nothing is cached of the
tenant when an isolation is released; and what the timer finds in the cache is not older than its run. -/
def CallInTime (s : Pool δ) (w : Turn δ) (t : Task δ) : Call δ → Prop
  | .set kind tenantID stats => ∀ id' t' n m, s.tasks id' = some t' →
      Settles t' kind tenantID n m → n ≤ stats.moment
  | .releaseIsolation key _ => ∀ iso, s.store.isolations.get key = some iso →
      (s.store.wait w.wait).cached .endpoint iso.tenantID = none
  | .get kind tenantID => t.req = .precompute kind →
      ∀ stats, (s.store.wait w.wait).cached kind tenantID = some stats → t.began ≤ stats.moment
  | _ => True

/-- Every call is in time. -/
def InTime (s : Pool δ) : Occurrence δ → Prop
  | .start _ _ => True
  | .call id w => ∀ t i next, s.tasks id = some t → t.left = .call i next → CallInTime s w t i

theorem inTime_call {s : Pool δ} (id : ℕ) (w : Turn δ) {req : Request} {began : ℕ}
    {trace : List (ℕ × Entry δ)} {i : Call δ} {next : i.Reply → Work δ (Option (Computed δ))}
    (htask : s.tasks id = some ⟨req, began, trace, .call i next⟩)
    (h : CallInTime s w ⟨req, began, trace, .call i next⟩ i) : InTime s (.call id w) := by
  intro t i' next' ht hleft
  obtain rfl := Option.some.inj (htask.symm.trans ht)
  cases hleft
  exact h

/-- All calls of a task were made before another one began. -/
def DoneBefore (t t' : Task δ) : Prop := ∃ r, t.left = .done r ∧ ∀ e ∈ t.trace, e.1 < t'.began

/-- A reader that comes after an isolation or a release is shown no figures from before it, and one that
comes after a run of the timer over its tenant none from before that run. -/
def Fresh (s : Pool δ) : Prop :=
  ∀ id t id' t' kind tenantID stats, s.tasks id = some t → s.tasks id' = some t' →
    DoneBefore t t' → t'.req = .stats kind tenantID → t'.left = .done (some stats) →
      (∀ deviceKey reason operator iso key n,
        t.req = .isolateEndpoint tenantID deviceKey reason operator → kind = .endpoint →
          (n, ⟨.createIsolation iso, key⟩) ∈ t.trace → n ≤ stats.moment) ∧
      (∀ key operatorID n, kind = .endpoint →
        (n, ⟨.releaseIsolation key operatorID, some tenantID⟩) ∈ t.trace → n ≤ stats.moment) ∧
      (∀ n r, t.req = .precompute kind → (n, ⟨.get kind tenantID, r⟩) ∈ t.trace →
        t.began ≤ stats.moment)

/-! ### The cache -/

section Cache

variable {st : Stores δ} {kind kind' : Kind} {tenantID tenantID' : GoString} {stats : Computed δ}

theorem cached_wait {ms : ℕ} (h : (st.wait ms).cached kind tenantID = some stats) :
    st.cached kind tenantID = some stats := by
  obtain ⟨e, he, rfl⟩ := Option.map_eq_some_iff.mp h
  obtain ⟨hmem, hlive⟩ := Option.filter_eq_some_iff.mp he
  refine Option.map_eq_some_iff.mpr ⟨e, Option.filter_eq_some_iff.mpr ⟨hmem, ?_⟩, rfl⟩
  have hlt : st.clock + ms < e.2 := of_decide_eq_true hlive
  exact decide_eq_true (by omega)

/-- An entry that is written is the only one that changes. -/
theorem cached_put {entry : Option (Computed δ × ℕ)} :
    (st.put kind' tenantID' entry).cached kind tenantID =
      if kind = kind' ∧ tenantID = tenantID' then
        (entry.filter fun e => st.clock < e.2).map Prod.fst
      else st.cached kind tenantID := by
  simp only [Stores.cached, Stores.put, Function.update_apply]
  split_ifs with hkey hsame hsame
  · rfl
  · exact absurd (statsKey_inj hkey) hsame
  · obtain ⟨rfl, rfl⟩ := hsame
    exact absurd rfl hkey
  · rfl

/-- Figures in the cache were found there before, or have just been put there. -/
theorem cached_serve {notBefore : Time → Time → Bool} {w : Turn δ} {moment : ℕ} {i : Call δ}
    (h : (serve notBefore w moment i st).2.cached kind tenantID = some stats) :
    i = .set kind tenantID stats ∨
      (st.wait w.wait).cached kind tenantID = some stats ∧ i ≠ .del kind tenantID ∧
        ∀ stats', i ≠ .set kind tenantID stats' := by
  cases i with
  | set kind' tenantID' stats' =>
    rw [serve, answer, cached_put] at h
    split_ifs at h with hsame
    · obtain ⟨rfl, rfl⟩ := hsame
      obtain ⟨e, he, rfl⟩ := Option.map_eq_some_iff.mp h
      obtain rfl := Option.some.inj (Option.filter_eq_some_iff.mp he).1
      exact .inl rfl
    · refine .inr ⟨h, nofun, fun stats'' heq => hsame ?_⟩
      obtain ⟨rfl, rfl, -⟩ := Call.set.inj heq
      exact ⟨rfl, rfl⟩
  | del kind' tenantID' =>
    rw [serve, answer, cached_put] at h
    split_ifs at h with hsame
    · exact absurd h (by simp)
    · refine .inr ⟨h, fun heq => hsame ?_, nofun⟩
      obtain ⟨rfl, rfl⟩ := Call.del.inj heq
      exact ⟨rfl, rfl⟩
  | releaseIsolation key operatorID =>
    rw [serve, answer] at h
    split at h
    · exact .inr ⟨h, nofun, nofun⟩
    · exact .inr ⟨h, nofun, nofun⟩
  | get kind' tenantID' => exact .inr ⟨h, nofun, nofun⟩
  | compute kind' tenantID' => exact .inr ⟨h, nofun, nofun⟩
  | createIsolation iso => exact .inr ⟨h, nofun, nofun⟩
  | listTenants => exact .inr ⟨h, nofun, nofun⟩

/-- A release is told the tenant of its document. -/
theorem released_serve {notBefore : Time → Time → Bool} {w : Turn δ} {moment key : ℕ}
    {operatorID : GoString}
    (h : (serve notBefore w moment (.releaseIsolation key operatorID) st).1 = some tenantID) :
    ∃ iso, st.isolations.get key = some iso ∧ iso.tenantID = tenantID := by
  rw [serve, answer] at h
  split at h
  · exact Option.map_eq_some_iff.mp h
  · exact absurd h nofun

end Cache

/-! ### One call -/

section Step

variable {notBefore : Time → Time → Bool}

/-- What a call makes obsolete, if it does. -/
inductive NewlySettles (req : Request) (began now : ℕ) (e : Entry δ) :
    Kind → GoString → ℕ → Prop where
  | isolated {tenantID : GoString} {n : ℕ} (h : e = ⟨.del .endpoint tenantID, ()⟩) :
      NewlySettles req began now e .endpoint tenantID n
  | released {tenantID operatorID : GoString} {key : ℕ}
      (h : e = ⟨.releaseIsolation key operatorID, some tenantID⟩) :
      NewlySettles req began now e .endpoint tenantID now
  | found {kind : Kind} {tenantID : GoString} {stats : Computed δ} (hreq : req = .precompute kind)
      (h : e = ⟨.get kind tenantID, some stats⟩) : NewlySettles req began now e kind tenantID began
  | stored {kind : Kind} {tenantID : GoString} {stats : Computed δ} (hreq : req = .precompute kind)
      (h : e = ⟨.set kind tenantID stats, ()⟩) : NewlySettles req began now e kind tenantID began

/-- What a task settles after a call it settled before, or the call does. -/
theorem settles_cons {req : Request} {began now : ℕ} {trace : List (ℕ × Entry δ)} {e : Entry δ}
    {left left' : Work δ (Option (Computed δ))} (hfirst : ∀ iso key,
      e = ⟨.createIsolation iso, key⟩ → trace = []) {kind : Kind} {tenantID : GoString} {n m : ℕ}
    (h : Settles ⟨req, began, (now, e) :: trace, left'⟩ kind tenantID n m) :
    Settles ⟨req, began, trace, left⟩ kind tenantID n m ∨
      m = now ∧ NewlySettles req began now e kind tenantID n := by
  cases h with
  | isolated hreq hwritten hcleared =>
    obtain heq | hcleared := List.mem_cons.mp hcleared
    · obtain ⟨rfl, rfl⟩ := Prod.mk.inj heq
      exact .inr ⟨rfl, .isolated rfl⟩
    · obtain heq | hwritten := List.mem_cons.mp hwritten
      · -- the isolation is written first
        rw [hfirst _ _ (Prod.mk.inj heq).2.symm] at hcleared
        exact absurd hcleared List.not_mem_nil
      · exact .inl (.isolated hreq hwritten hcleared)
  | released hwritten =>
    obtain heq | hwritten := List.mem_cons.mp hwritten
    · obtain ⟨rfl, rfl⟩ := Prod.mk.inj heq
      exact .inr ⟨rfl, .released rfl⟩
    · exact .inl (.released hwritten)
  | found hreq hfound =>
    obtain heq | hfound := List.mem_cons.mp hfound
    · obtain ⟨rfl, rfl⟩ := Prod.mk.inj heq
      exact .inr ⟨rfl, .found hreq rfl⟩
    · exact .inl (.found hreq hfound)
  | stored hreq hstored =>
    obtain heq | hstored := List.mem_cons.mp hstored
    · obtain ⟨rfl, rfl⟩ := Prod.mk.inj heq
      exact .inr ⟨rfl, .stored hreq rfl⟩
    · exact .inl (.stored hreq hstored)

/-- What is settled was settled before this moment. -/
theorem Settles.lt {t : Task δ} {kind : Kind} {tenantID : GoString} {n m now : ℕ}
    (h : Settles t kind tenantID n m) (ht : Prog.Traced.Timely now t) : m < now := by
  cases h with
  | isolated _ _ hcleared => exact (ht.between _ hcleared).2
  | released hwritten => exact (ht.between _ hwritten).2
  | found _ hfound => exact (ht.between _ hfound).2
  | stored _ hstored => exact (ht.between _ hstored).2

/-- What holds while everything is in time. -/
structure Kept (s : Pool δ) : Prop where
  tracked : s.Tracked (fun _ => Before) Request.Final
  /-- Nothing in the cache is obsolete. -/
  cached : ∀ kind tenantID stats, s.store.cached kind tenantID = some stats →
    ∀ id t n m, s.tasks id = some t → Settles t kind tenantID n m → n ≤ stats.moment
  /-- Nothing that was found was obsolete when it was. -/
  found : ∀ id t m kind tenantID stats, s.tasks id = some t →
    (m, ⟨.get kind tenantID, some stats⟩) ∈ t.trace →
      ∀ id' t' n m', s.tasks id' = some t' → Settles t' kind tenantID n m' → m' ≤ m →
        n ≤ stats.moment
  computed : ∀ id t m kind tenantID stats, s.tasks id = some t →
    (m, ⟨.compute kind tenantID, stats⟩) ∈ t.trace → stats.moment = m

theorem Kept.start {s : Pool δ} {id : ℕ} {req : Request} (h : Kept s)
    (htracked : (s.goOn id s.store ⟨req, s.now, [], req.program⟩).Tracked (fun _ => Before)
      Request.Final) : Kept (s.goOn id s.store ⟨req, s.now, [], req.program⟩) := by
  have hsettles {id' : ℕ} {t : Task δ} {kind : Kind} {tenantID : GoString} {n m : ℕ}
      (ht : (s.goOn id s.store ⟨req, s.now, [], req.program⟩).tasks id' = some t)
      (hsettles : Settles t kind tenantID n m) : s.tasks id' = some t := by
    rw [Prog.Traced.goOn_tasks] at ht
    split_ifs at ht
    · -- a request that has done nothing settles nothing
      obtain rfl := Option.some.inj ht
      cases hsettles <;> contradiction
    · exact ht
  have htrace {id' : ℕ} {t : Task δ} {e : ℕ × Entry δ}
      (ht : (s.goOn id s.store ⟨req, s.now, [], req.program⟩).tasks id' = some t)
      (he : e ∈ t.trace) : s.tasks id' = some t := by
    rw [Prog.Traced.goOn_tasks] at ht
    split_ifs at ht
    · obtain rfl := Option.some.inj ht
      exact absurd he List.not_mem_nil
    · exact ht
  exact
    { tracked := htracked
      cached := fun kind tenantID stats hcached id' t n m ht hs =>
        h.cached kind tenantID stats hcached id' t n m (hsettles ht hs) hs
      found := fun id' t m kind tenantID stats ht he id'' t' n m' ht' hs hle =>
        h.found id' t m kind tenantID stats (htrace ht he) he id'' t' n m' (hsettles ht' hs) hs hle
      computed := fun id' t m kind tenantID stats ht he =>
        h.computed id' t m kind tenantID stats (htrace ht he) he }

section Call

variable {s : Pool δ} {id : ℕ} {w : Turn δ} {req : Request} {began : ℕ}
  {trace : List (ℕ × Entry δ)} {i : Call δ} {next : i.Reply → Work δ (Option (Computed δ))}
  {kind : Kind} {tenantID : GoString} {stats : Computed δ} {n : ℕ}

/-- What is put into the cache was computed after the task began. -/
theorem Kept.began_le_of_set {next : Unit → Work δ (Option (Computed δ))} (h : Kept s)
    (htask : s.tasks id = some ⟨req, began, trace, .call (.set kind tenantID stats) next⟩) :
    began ≤ stats.moment := by
  obtain ⟨hensures, htimes⟩ := h.tracked id _ htask
  obtain ⟨⟨m, e⟩, hmem, rfl⟩ := List.mem_map.mp hensures.1
  rw [h.computed id _ m kind tenantID stats htask hmem]
  exact Nat.le_of_lt (htimes.between _ hmem).1

/-- **Nothing in the cache is obsolete after a call.** -/
theorem Kept.cached_call (h : Kept s) (hin : InTime s (.call id w))
    (htask : s.tasks id = some ⟨req, began, trace, .call i next⟩)
    (hcached : (serve notBefore w s.now i s.store).2.cached kind tenantID = some stats) :
    (∀ id' t n m, s.tasks id' = some t → Settles t kind tenantID n m → n ≤ stats.moment) ∧
      (NewlySettles req began s.now ⟨i, (serve notBefore w s.now i s.store).1⟩ kind tenantID n →
        n ≤ stats.moment) := by
  have hcond := hin _ i next htask rfl
  obtain rfl | ⟨hthere, hdel, hset⟩ := cached_serve hcached
  · refine ⟨fun id' t n m => hcond id' t n m, fun hnew => ?_⟩
    cases hnew with
    | isolated heq => cases heq
    | released heq => cases heq
    | found hreq heq => cases heq
    | stored hreq heq => exact h.began_le_of_set htask
  · refine ⟨fun id' t n m => h.cached kind tenantID stats (cached_wait hthere) id' t n m,
      fun hnew => ?_⟩
    cases hnew with
    | isolated heq => exact absurd (Sigma.mk.inj heq).1 hdel
    | @released _ operatorID key heq =>
      obtain rfl : i = .releaseIsolation key operatorID := (Sigma.mk.inj heq).1
      obtain ⟨iso, hiso, rfl⟩ := released_serve (eq_of_heq (Sigma.mk.inj heq).2)
      rw [hcond iso hiso] at hthere
      exact absurd hthere nofun
    | found hreq heq =>
      obtain rfl : i = .get kind tenantID := (Sigma.mk.inj heq).1
      exact hcond hreq stats hthere
    | stored hreq heq => exact absurd (Sigma.mk.inj heq).1 (hset _)

/-- **Nothing that a call finds is obsolete.** -/
theorem Kept.found_call (h : Kept s) (hin : InTime s (.call id w))
    (htask : s.tasks id = some ⟨req, began, trace, .call i next⟩)
    (hfound : (⟨i, (serve notBefore w s.now i s.store).1⟩ : Entry δ) =
      ⟨.get kind tenantID, some stats⟩) :
    (∀ id' t n m, s.tasks id' = some t → Settles t kind tenantID n m → n ≤ stats.moment) ∧
      (NewlySettles req began s.now ⟨i, (serve notBefore w s.now i s.store).1⟩ kind tenantID n →
        n ≤ stats.moment) := by
  obtain rfl : i = .get kind tenantID := (Sigma.mk.inj hfound).1
  -- a search leaves the cache as it is
  exact h.cached_call hin htask (eq_of_heq (Sigma.mk.inj hfound).2)

/-- **What holds while everything is in time holds after a call.** -/
theorem Kept.call (h : Kept s) (hin : InTime s (.call id w))
    (htask : s.tasks id = some ⟨req, began, trace, .call i next⟩)
    (htracked : (s.goOn id (serve notBefore w s.now i s.store).2
      ⟨req, began, (s.now, ⟨i, (serve notBefore w s.now i s.store).1⟩) :: trace,
        next (serve notBefore w s.now i s.store).1⟩).Tracked (fun _ => Before) Request.Final) :
    Kept (s.goOn id (serve notBefore w s.now i s.store).2
      ⟨req, began, (s.now, ⟨i, (serve notBefore w s.now i s.store).1⟩) :: trace,
        next (serve notBefore w s.now i s.store).1⟩) := by
  generalize hserve : serve notBefore w s.now i s.store = served at htracked ⊢
  have hfirst (iso : IsolatedEndpoint) (key : ℕ)
      (heq : (⟨i, served.1⟩ : Entry δ) = ⟨.createIsolation iso, key⟩) : trace = [] := by
    obtain rfl : i = .createIsolation iso := (Sigma.mk.inj heq).1
    exact List.map_eq_nil_iff.mp (h.tracked id _ htask).1.1
  -- what is settled now was settled before, or is by this call
  have hsettles {id' : ℕ} {t : Task δ} {kind : Kind} {tenantID : GoString} {n m : ℕ}
      (ht : (s.goOn id served.2 ⟨req, began, (s.now, ⟨i, served.1⟩) :: trace,
        next served.1⟩).tasks id' = some t) (hs : Settles t kind tenantID n m) :
      (∃ t₀, s.tasks id' = some t₀ ∧ Settles t₀ kind tenantID n m) ∨
        m = s.now ∧ NewlySettles req began s.now ⟨i, served.1⟩ kind tenantID n := by
    rw [Prog.Traced.goOn_tasks] at ht
    split_ifs at ht with hid
    · obtain rfl := Option.some.inj ht
      obtain hold | hnew : Settles ⟨req, began, trace, .call i next⟩ kind tenantID n m ∨ _ :=
        settles_cons hfirst hs
      · exact .inl ⟨_, hid ▸ htask, hold⟩
      · exact .inr hnew
    · exact .inl ⟨t, ht, hs⟩
  have htrace {id' : ℕ} {t : Task δ} {m : ℕ} {e : Entry δ}
      (ht : (s.goOn id served.2 ⟨req, began, (s.now, ⟨i, served.1⟩) :: trace,
        next served.1⟩).tasks id' = some t) (he : (m, e) ∈ t.trace) :
      (∃ t₀, s.tasks id' = some t₀ ∧ (m, e) ∈ t₀.trace) ∨ m = s.now ∧ e = ⟨i, served.1⟩ := by
    rw [Prog.Traced.goOn_tasks] at ht
    split_ifs at ht with hid
    · obtain rfl := Option.some.inj ht
      obtain heq | he := List.mem_cons.mp he
      · exact .inr (Prod.mk.inj heq)
      · exact .inl ⟨_, hid ▸ htask, he⟩
    · exact .inl ⟨t, ht, he⟩
  refine ⟨htracked, ?_, ?_, ?_⟩
  · intro kind tenantID stats hcached id' t n m ht hs
    have hcached' : (serve notBefore w s.now i s.store).2.cached kind tenantID = some stats :=
      hserve ▸ hcached
    have hcall := h.cached_call (n := n) hin htask hcached'
    rw [hserve] at hcall
    obtain ⟨t₀, ht₀, hs₀⟩ | ⟨-, hnew⟩ := hsettles ht hs
    · exact hcall.1 id' t₀ n m ht₀ hs₀
    · exact hcall.2 hnew
  · intro id' t m kind tenantID stats ht he id'' t' n m' ht' hs hle
    obtain ⟨t₀, ht₀, he₀⟩ | ⟨rfl, heq⟩ := htrace ht he
    · obtain ⟨t₁, ht₁, hs₁⟩ | ⟨rfl, -⟩ := hsettles ht' hs
      · exact h.found id' t₀ m kind tenantID stats ht₀ he₀ id'' t₁ n m' ht₁ hs₁ hle
      · -- it was found before this moment
        have hlt := ((h.tracked id' t₀ ht₀).2.between _ he₀).2
        exact absurd hle (Nat.not_le_of_lt hlt)
    · have hget : (⟨i, (serve notBefore w s.now i s.store).1⟩ : Entry δ) =
          ⟨.get kind tenantID, some stats⟩ := by
        rw [hserve]
        exact heq.symm
      have hcall := h.found_call (n := n) hin htask hget
      rw [hserve] at hcall
      obtain ⟨t₁, ht₁, hs₁⟩ | ⟨-, hnew⟩ := hsettles ht' hs
      · exact hcall.1 id'' t₁ n m' ht₁ hs₁
      · exact hcall.2 hnew
  · intro id' t m kind tenantID stats ht he
    obtain ⟨t₀, ht₀, he₀⟩ | ⟨rfl, heq⟩ := htrace ht he
    · exact h.computed id' t₀ m kind tenantID stats ht₀ he₀
    · obtain rfl : i = .compute kind tenantID := (Sigma.mk.inj heq).1.symm
      obtain rfl : stats = served.1 := eq_of_heq (Sigma.mk.inj heq).2
      rw [← hserve]
      cases kind with
      | dashboard => rfl
      | endpoint => rfl

end Call

/-- What is settled is settled by a call, and is not older than that call. -/
theorem Settles.mem {t : Task δ} {kind : Kind} {tenantID : GoString} {n m now : ℕ}
    (h : Settles t kind tenantID n m) (ht : Prog.Traced.Timely now t) :
    (∃ e, (m, e) ∈ t.trace) ∧ ∃ e ∈ t.trace, n ≤ e.1 := by
  cases h with
  | isolated _ hwritten hcleared => exact ⟨⟨_, hcleared⟩, _, hwritten, Nat.le_refl _⟩
  | released hwritten => exact ⟨⟨_, hwritten⟩, _, hwritten, Nat.le_refl _⟩
  | found _ hfound => exact ⟨⟨_, hfound⟩, _, hfound, Nat.le_of_lt (ht.between _ hfound).1⟩
  | stored _ hstored => exact ⟨⟨_, hstored⟩, _, hstored, Nat.le_of_lt (ht.between _ hstored).1⟩

/-- A reader is shown nothing that was obsolete when it began. -/
theorem Kept.le_moment {s : Pool δ} (h : Kept s) {id id' : ℕ} {t t' : Task δ} {kind : Kind}
    {tenantID : GoString} {stats : Computed δ} {n m : ℕ} (ht : s.tasks id = some t)
    (ht' : s.tasks id' = some t') (hbefore : ∀ e ∈ t.trace, e.1 < t'.began)
    (hreq : t'.req = .stats kind tenantID) (hleft : t'.left = .done (some stats))
    (hs : Settles t kind tenantID n m) : n ≤ stats.moment := by
  obtain ⟨⟨e, hm⟩, e', he', hn⟩ := hs.mem (h.tracked id t ht).2
  obtain ⟨hfinal, htimes⟩ := h.tracked id' t' ht'
  rw [hleft, hreq] at hfinal
  obtain hget | hcompute := hfinal stats rfl
  · obtain ⟨⟨m₀, e₀⟩, hmem, rfl⟩ := List.mem_map.mp hget
    refine h.found id' t' m₀ kind tenantID stats ht' hmem id t n m ht hs ?_
    exact Nat.le_of_lt ((hbefore _ hm).trans (htimes.between _ hmem).1)
  · obtain ⟨⟨m₀, e₀⟩, hmem, rfl⟩ := List.mem_map.mp hcompute
    rw [h.computed id' t' m₀ kind tenantID stats ht' hmem]
    exact hn.trans (Nat.le_of_lt ((hbefore _ he').trans (htimes.between _ hmem).1))

theorem Kept.fresh {s : Pool δ} (h : Kept s) : Fresh s := by
  rintro id t id' t' kind tenantID stats ht ht' ⟨r, hdone, hbefore⟩ hreq hleft
  have hle {n m : ℕ} (hs : Settles t kind tenantID n m) : n ≤ stats.moment :=
    h.le_moment ht ht' hbefore hreq hleft hs
  have hfinal := (h.tracked id t ht).1
  rw [hdone] at hfinal
  refine ⟨?_, ?_, ?_⟩
  · rintro deviceKey reason operator iso key n hisolate rfl hwritten
    rw [hisolate] at hfinal
    obtain ⟨⟨m, e⟩, hcleared, rfl⟩ := List.mem_map.mp hfinal
    exact hle (.isolated hisolate hwritten hcleared)
  · rintro key operatorID n rfl hwritten
    exact hle (.released hwritten)
  · rintro n r' hprecompute hget
    rw [hprecompute] at hfinal
    obtain ⟨stats', rfl⟩ | ⟨stats', hset⟩ := hfinal tenantID r' (List.mem_map.mpr ⟨_, hget, rfl⟩)
    · exact hle (.found hprecompute hget)
    · obtain ⟨⟨m, e⟩, hstored, rfl⟩ := List.mem_map.mp hset
      exact hle (.stored hprecompute hstored)

end Step

/-- Nothing has been cached yet. -/
def Stores.init (isolations : Isolations) (clock : ℕ) : Stores δ := ⟨isolations, fun _ => none, clock⟩

/-- **Nobody is shown obsolete figures**, in every run in which nothing obsolete is put into the cache,
releases find nothing in it, and the timer finds nothing in it that is older than its run. -/
theorem fresh_of_inTime {notBefore : Time → Time → Bool} {isolations : Isolations} {clock : ℕ}
    {hist : Run.History (Pool δ) (Occurrence δ)} {s : Pool δ}
    (h : Run.Reach (handle notBefore) (fun _ s ev => InTime s ev)
      (.idle (Stores.init isolations clock)) hist s) : Fresh s := by
  have hkept : Kept s := by
    refine @Run.Reach.invariant _ _ _ _ _ (fun _ s => Kept s) ⟨?_, ?_, ?_, ?_⟩ ?_ _ _ h
    · exact fun id t ht => absurd ht (by simp [Prog.Traced.idle])
    · exact fun kind tenantID stats hcached => absurd hcached (by
        simp [Prog.Traced.idle, Stores.init, Stores.cached])
    · exact fun id t m kind tenantID stats ht => absurd ht (by simp [Prog.Traced.idle])
    · exact fun id t m kind tenantID stats ht => absurd ht (by simp [Prog.Traced.idle])
    · rintro hist s s' ev hkept hin hstep
      have htracked := hkept.tracked.step ensures_program hstep
      obtain ⟨id, req, rfl, -, rfl⟩ | ⟨id, w, req, began, trace, i, next, rfl, htask, rfl⟩ :=
        Prog.Traced.step_cases hstep
      · exact hkept.start htracked
      · exact hkept.call hin htask htracked
  exact hkept.fresh

/-! ### What can be shown -/

/-- An endpoint that was isolated before. -/
def isolatedBefore : Isolations :=
  createIsolation .empty
    { tenantID := str "t-1", deviceKey := str "d-1", reason := str "malware", operator := str "u-1",
      status := str "active" } 0

/-- A turn when nothing else is to be found. -/
def quiet : Turn Unit := { dashboard := () }

/-- A tenant isolates an endpoint and reads its statistics, and everything is in time. -/
theorem fresh_isolated : ∃ hist s, Run.Reach (handle fun _ _ => true) (fun _ s ev => InTime s ev)
    (.idle (Stores.init isolatedBefore 0 : Stores Unit)) hist s ∧ Fresh s ∧ s.now = 7 := by
  have h₁ : Run.Reach (handle fun _ _ => true) (fun _ s ev => InTime s ev)
      (.idle (Stores.init isolatedBefore 0 : Stores Unit)) _ _ :=
    .next .start (show InTime _ (.start 0
      (.isolateEndpoint (str "t-1") (str "d-2") (str "malware") (str "u-1"))) from trivial) rfl
  have h₂ := h₁.next (inTime_call 0 quiet rfl trivial) rfl
  have h₃ := h₂.next (inTime_call 0 quiet rfl trivial) rfl
  have h₄ := h₃.next (show InTime _ (.start 1 (.stats .endpoint (str "t-1"))) from trivial) rfl
  have h₅ := h₄.next (inTime_call 1 quiet rfl fun hreq => nomatch hreq) rfl
  have h₆ := h₅.next (inTime_call 1 quiet rfl trivial) rfl
  have h₇ := h₆.next (inTime_call 1 quiet rfl fun id' t' n m ht hs => by
    -- the figures are of the last moment, and nothing that is settled is later
    obtain ⟨-, e, he, hn⟩ := hs.mem ((Prog.Traced.tracked_reach ensures_program h₆) id' t' ht).2
    exact hn.trans (Nat.le_of_lt_succ
      (((Prog.Traced.tracked_reach ensures_program h₆) id' t' ht).2.between e he).2)) rfl
  exact ⟨_, _, h₇, fresh_of_inTime h₇, rfl⟩

/-- The statistics of a tenant are read, an isolation is released, and they are read again. -/
def readReleaseRead : List (Occurrence Unit) :=
  [.start 0 (.stats .endpoint (str "t-1")), .call 0 quiet, .call 0 quiet, .call 0 quiet,
    .start 1 (.releaseIsolation 0 (str "u-1")), .call 1 quiet,
    .start 2 (.stats .endpoint (str "t-1")), .call 2 quiet]

/-- **A release leaves the statistics from before it in the cache.** -/
theorem not_fresh : ∃ hist s, Run.Reach (handle fun _ _ => true) Run.Any
    (.idle (Stores.init isolatedBefore 0 : Stores Unit)) hist s ∧ ¬Fresh s := by
  have hreplay : ((Run.replay (handle fun _ _ => true) []
      (.idle (Stores.init isolatedBefore 0)) readReleaseRead).map fun r =>
        (r.2.tasks 1, r.2.tasks 2)) = some
      (some ⟨.releaseIsolation 0 (str "u-1"), 4,
        [(5, ⟨.releaseIsolation 0 (str "u-1"), some (str "t-1")⟩)], .done none⟩,
      some ⟨.stats .endpoint (str "t-1"), 6,
        [(7, ⟨.get .endpoint (str "t-1"),
          some ((Stores.init isolatedBefore 0).computed (fun _ _ => true) quiet 2 (str "t-1") .endpoint)⟩)],
        .done (some ((Stores.init isolatedBefore 0).computed (fun _ _ => true) quiet 2 (str "t-1")
          .endpoint))⟩) := rfl
  obtain ⟨⟨hist, s⟩, hrun, htasks⟩ := Option.map_eq_some_iff.mp hreplay
  obtain ⟨ht, ht'⟩ := Prod.mk.inj htasks
  refine ⟨hist, s, Run.Reach.start.replay hrun, fun h => ?_⟩
  have hle := (h 1 _ 2 _ .endpoint (str "t-1") _ ht ht'
    ⟨none, rfl, fun e he => by rw [List.mem_singleton.mp he]; decide⟩ rfl rfl).2.1
      0 (str "u-1") 5 rfl (List.mem_singleton.mpr rfl)
  exact absurd hle (by decide)

end Runs

end Dashboard

end Xsiam
