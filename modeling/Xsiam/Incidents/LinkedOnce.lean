import Xsiam.Incidents.Pool

/-!
# Links under several workers

What the correlation workers should leave of the links, however their steps come one after the
other (`Xsiam.Incidents.LinkedOnce`): no alert is in the lists of two incidents, an alert that
refers to an incident is in its list, no link is overwritten, and of alerts that are all
correlated with each other only one has made an incident.

It is so in every run in which a worker creates an incident only while none of the alerts it
has found is in the list of an incident (`Xsiam.Incidents.linkedOnce_of_reach`). Two workers that
have both read before either of them creates break it.
-/

namespace Xsiam

namespace Incidents

open Go Pool CausalityService

variable {W : Type}

/-! ### The law -/

/-- The alert whose correlation an event has made an incident for. -/
def creator (e : Pool W × Act W) : Option Alert :=
  match e.2 with
  | .create w => match e.1.phase w with
    | .creating root _ _ _ => some root
    | _ => none
  | _ => none

/-- Two alerts that are each correlated with both. -/
def MutuallyCorrelated (svc : CausalityService) (a b : Alert) : Prop :=
  svc.correlates a a = true ∧ svc.correlates a b = true ∧ svc.correlates b a = true ∧
    svc.correlates b b = true

/-- The lists of different incidents have no alert in common, and the incident an alert refers
to lists it. -/
structure Settled (s : Store) : Prop where
  once : s.incidents.docs.Pairwise fun i j => i.alertIDs.Disjoint j.alertIDs
  listed : ∀ a ∈ s.alerts.docs, ∀ ref, a.incidentID = some ref →
    ∃ inc ∈ s.incidents.docs, inc.Named ref ∧ a.alertID ∈ inc.alertIDs

/-- **Every alert is linked once**: the links are settled, those there were still are, and no two
alerts of a group of mutually correlated ones, the same twice included, have made an incident. -/
structure LinkedOnce (svc : CausalityService) (hist : Run.History (Pool W) (Act W))
    (s : Pool W) : Prop where
  settled : Settled s.store
  kept : ∀ e ∈ hist, ∀ a ∈ e.1.store.alerts.docs, ∀ ref, a.incidentID = some ref →
    ∃ d ∈ s.store.alerts.docs, d.key = a.key ∧ d.incidentID = some ref
  group : (hist.filterMap creator).Pairwise fun a b => ¬MutuallyCorrelated svc a b

/-- A worker creates an incident only while none of the alerts it has found is listed. -/
def CreatesUnlisted (_ : Run.History (Pool W) (Act W)) (s : Pool W) : Act W → Prop
  | .create w => match s.phase w with
    | .creating _ _ _ alerts =>
      ∀ a ∈ alerts, ∀ inc ∈ s.store.incidents.docs, a.alertID ∉ inc.alertIDs
    | _ => True
  | _ => True

instance (hist : Run.History (Pool W) (Act W)) (s : Pool W) (act : Act W) :
    Decidable (CreatesUnlisted hist s act) := by
  cases act with
  | create w =>
    unfold CreatesUnlisted
    dsimp only
    split <;> infer_instance
  | _ => exact isTrue trivial

/-- The workers have nothing to do yet, and the links of the store are settled. -/
structure Starts (s : Pool W) : Prop where
  idle : ∀ w, s.phase w = .idle
  settled : Settled s.store

/-! ### What a worker knows -/

/-- An alert without its reference. -/
def unlink (a : Alert) : Alert := { a with incidentID := none }

/-- An alert that is in the store, up to its reference. -/
def Known (alerts : AlertDocs) (a : Alert) : Prop := ∃ b ∈ alerts.docs, unlink b = unlink a

theorem key_eq_of_unlink {a b : Alert} (h : unlink a = unlink b) : a.key = b.key := by
  have hkey := congrArg Alert.key h
  exact hkey

theorem alertID_eq_of_unlink {a b : Alert} (h : unlink a = unlink b) : a.alertID = b.alertID := by
  have hid := congrArg Alert.alertID h
  exact hid

theorem unlink_setIncident (key ref : GoString) (a : Alert) :
    unlink (AlertDocs.setIncident key ref a) = unlink a := by
  rw [AlertDocs.setIncident]
  split <;> rfl

theorem mem_link {alerts : AlertDocs} {key ref : GoString} {d : Alert} :
    d ∈ (alerts.link key ref).docs ↔ ∃ a ∈ alerts.docs, AlertDocs.setIncident key ref a = d :=
  List.mem_map

theorem Known.link {alerts : AlertDocs} {a : Alert} (h : Known alerts a) (key ref : GoString) :
    Known (alerts.link key ref) a := by
  obtain ⟨b, hb, heq⟩ := h
  exact ⟨_, mem_link.mpr ⟨b, hb, rfl⟩, (unlink_setIncident ..).trans heq⟩

/-- A test that does not look at references. -/
def Blind (test : Alert → Bool) : Prop := ∀ a, test (unlink a) = test a

theorem Blind.congr {test : Alert → Bool} (h : Blind test) {a b : Alert}
    (heq : unlink a = unlink b) : test a = test b := by
  rw [← h a, heq, h b]

theorem blind_correlates (svc : CausalityService) (root : Alert) : Blind (svc.correlates root) :=
  fun _ => rfl

/-- A list has the IDs of all alerts that pass a test. -/
def Covers (alerts : AlertDocs) (test : Alert → Bool) (ids : List GoString) : Prop :=
  ∀ b ∈ alerts.docs, test b = true → b.alertID ∈ ids

theorem Covers.link {alerts : AlertDocs} {test : Alert → Bool} {ids : List GoString}
    (h : Covers alerts test ids) (hblind : Blind test) (key ref : GoString) :
    Covers (alerts.link key ref) test ids := by
  intro d hd htest
  obtain ⟨b, hb, rfl⟩ := mem_link.mp hd
  rw [AlertDocs.alertID_setIncident]
  exact h b hb ((hblind.congr (unlink_setIncident ..)).symm.trans htest)

/-- What a query returns. -/
theorem covers_findSince (svc : CausalityService) (alerts : AlertDocs) (test : Alert → Bool)
    (since : Time) : Covers alerts (fun b => test b && svc.notBefore b.triggeredAt since)
      ((alerts.findSince svc.notBefore test since).map (·.alertID)) :=
  fun _ hb htest => List.mem_map_of_mem (List.mem_filter.mpr ⟨hb, htest⟩)

theorem known_findSince {svc : CausalityService} {alerts : AlertDocs} {test : Alert → Bool}
    {since : Time} : ∀ a ∈ alerts.findSince svc.notBefore test since, Known alerts a :=
  fun a ha => ⟨a, List.mem_of_mem_filter ha, rfl⟩

/-- The incident a worker is linking alerts to: it is in the store, the alerts that are left are
in its list, and no alert of its list refers to another. -/
structure Owned (alerts : AlertDocs) (incidents : IncidentDocs) (inc : Incident)
    (keys : List GoString) : Prop where
  stored : ∃ i ∈ incidents.docs, i.incidentID = inc.incidentID ∧ i.alertIDs = inc.alertIDs
  left : ∀ a ∈ alerts.docs, a.key ∈ keys → a.alertID ∈ inc.alertIDs
  free : ∀ a ∈ alerts.docs, a.alertID ∈ inc.alertIDs → ∀ ref, a.incidentID = some ref →
    ref = inc.incidentID

/-- What a worker has read, against the store as it is. -/
structure Read (alerts : AlertDocs) (root : Alert) (test : Alert → Bool) (found : List Alert) :
    Prop where
  rootKnown : Known alerts root
  known : ∀ a ∈ found, Known alerts a
  covers : Covers alerts test (found.map (·.alertID))

namespace Read

variable {alerts : AlertDocs} {root : Alert} {test : Alert → Bool} {found : List Alert}

theorem link (h : Read alerts root test found) (hblind : Blind test) (key ref : GoString) :
    Read (alerts.link key ref) root test found :=
  ⟨h.rootKnown.link key ref, fun a ha => (h.known a ha).link key ref,
    h.covers.link hblind key ref⟩

/-- One more query. -/
theorem append {svc : CausalityService} {since : Time} (h : Read alerts root test found)
    {test' query : Alert → Bool}
    (htest : ∀ b, test' b = true → test b = true ∨
      (query b && svc.notBefore b.triggeredAt since) = true) :
    Read alerts root test' (found ++ alerts.findSince svc.notBefore query since) := by
  refine ⟨h.rootKnown, fun a ha => ?_, fun b hb hb' => ?_⟩
  · exact (List.mem_append.mp ha).elim (h.known a) (known_findSince a)
  · rw [List.map_append, List.mem_append]
    exact (htest b hb').imp (h.covers b hb) (covers_findSince svc alerts query since b hb)

theorem dedup (h : Read alerts root test found) :
    Read alerts root test (CausalityService.dedup [] found) := by
  refine ⟨h.rootKnown, fun a ha => h.known a (mem_of_mem_dedup ha), fun b hb hb' => ?_⟩
  obtain ⟨a, ha, heq⟩ := List.mem_map.mp (h.covers b hb hb')
  have hkept := (alertID_mem_dedup ha []).resolve_left List.not_mem_nil
  rwa [heq] at hkept

end Read

/-- The alerts of the asset of the root. -/
def assetTest (svc : CausalityService) (root b : Alert) : Bool :=
  AlertDocs.onAsset root.assetID b && svc.notBefore b.triggeredAt (since root)

/-- Those and the alerts with its indicators. -/
def iocTest (svc : CausalityService) (root b : Alert) : Bool :=
  (AlertDocs.onAsset root.assetID b || AlertDocs.withIoc (root.iocs.map (·.value)) b) &&
    svc.notBefore b.triggeredAt (since root)

/-- **What a worker knows**, by where it is. -/
def PhaseOk (svc : CausalityService) (alerts : AlertDocs) (incidents : IncidentDocs) :
    Phase → Prop
  | .found root => Known alerts root
  | .byAsset root found => Read alerts root (assetTest svc root) found
  | .byIoc root found => Read alerts root (iocTest svc root) found
  | .creating root _ _ found => Read alerts root (svc.correlates root) found
  | .updating _ inc keys => Owned alerts incidents inc keys
  | _ => True

/-- An alert that is patched is in the list of the incident, and its link is not another's. -/
theorem Owned.link {alerts : AlertDocs} {incidents : IncidentDocs} {inc : Incident}
    {key : GoString} {keys : List GoString} (h : Owned alerts incidents inc (key :: keys)) :
    Owned (alerts.link key inc.incidentID) incidents inc keys := by
  refine ⟨h.stored, fun d hd hkey => ?_, fun d hd hlist ref href => ?_⟩
  · obtain ⟨a, ha, rfl⟩ := mem_link.mp hd
    rw [AlertDocs.key_setIncident] at hkey
    rw [AlertDocs.alertID_setIncident]
    exact h.left a ha (List.mem_cons_of_mem _ hkey)
  · obtain ⟨a, ha, rfl⟩ := mem_link.mp hd
    rw [AlertDocs.alertID_setIncident] at hlist
    rw [AlertDocs.setIncident] at href
    split at href
    · exact (Option.some.inj href).symm
    · exact h.free a ha hlist ref href

/-- A link that another worker writes is of an alert of another list. -/
theorem Owned.link_of_disjoint {alerts : AlertDocs} {incidents : IncidentDocs}
    {inc inc' : Incident} {key : GoString} {keys : List GoString}
    (h : Owned alerts incidents inc keys) (hdisj : inc.alertIDs.Disjoint inc'.alertIDs)
    (hkey : ∀ a ∈ alerts.docs, a.key = key → a.alertID ∈ inc'.alertIDs) :
    Owned (alerts.link key inc'.incidentID) incidents inc keys := by
  refine ⟨h.stored, fun d hd hmem => ?_, fun d hd hlist ref href => ?_⟩
  · obtain ⟨a, ha, rfl⟩ := mem_link.mp hd
    rw [AlertDocs.key_setIncident] at hmem
    rw [AlertDocs.alertID_setIncident]
    exact h.left a ha hmem
  · obtain ⟨a, ha, rfl⟩ := mem_link.mp hd
    rw [AlertDocs.alertID_setIncident] at hlist
    rw [AlertDocs.setIncident, if_neg fun hk => hdisj hlist (hkey a ha hk)] at href
    exact h.free a ha hlist ref href

/-- More incidents change nothing of what a worker knows. -/
theorem PhaseOk.mono {svc : CausalityService} {alerts : AlertDocs}
    {incidents incidents' : IncidentDocs} {p : Phase} (h : PhaseOk svc alerts incidents p)
    (hsub : ∀ i ∈ incidents.docs, i ∈ incidents'.docs) : PhaseOk svc alerts incidents' p := by
  cases p with
  | updating graph inc keys =>
    obtain ⟨i, hi, hrest⟩ := Owned.stored h
    exact ⟨⟨i, hsub i hi, hrest⟩, Owned.left h, Owned.free h⟩
  | _ => exact h

/-- A link that another worker writes changes nothing of what a worker knows. -/
theorem PhaseOk.link {svc : CausalityService} {alerts : AlertDocs} {incidents : IncidentDocs}
    {p : Phase} {inc : Incident} {key : GoString} (h : PhaseOk svc alerts incidents p)
    (hapart : ∀ graph inc' keys, p = .updating graph inc' keys →
      inc'.alertIDs.Disjoint inc.alertIDs)
    (hkey : ∀ a ∈ alerts.docs, a.key = key → a.alertID ∈ inc.alertIDs) :
    PhaseOk svc (alerts.link key inc.incidentID) incidents p := by
  cases p with
  | found root => exact Known.link h key inc.incidentID
  | byAsset root found => exact Read.link h (fun _ => rfl) key inc.incidentID
  | byIoc root found => exact Read.link h (fun _ => rfl) key inc.incidentID
  | creating root call graph found =>
    exact Read.link h (blind_correlates svc root) key inc.incidentID
  | updating graph inc' keys => exact Owned.link_of_disjoint h (hapart _ _ _ rfl) hkey
  | _ => trivial

/-- A worker that is linking alerts. -/
def isUpdating : Phase → Bool
  | .updating _ _ _ => true
  | _ => false

theorem phaseOk_afterReads {svc : CausalityService} {call : Call} {alerts : AlertDocs}
    {incidents : IncidentDocs} {root : Alert} {found : List Alert}
    (h : Read alerts root (svc.correlates root) found) :
    PhaseOk svc alerts incidents (afterReads svc call root found) ∧
      isUpdating (afterReads svc call root found) = false := by
  rw [afterReads]
  split
  · exact ⟨trivial, rfl⟩
  · split
    · exact ⟨trivial, rfl⟩
    · exact ⟨h, rfl⟩

/-- A read adds to what a worker knows. -/
theorem phaseOk_read {svc : CausalityService} {call : Call} {s : Store} {p q : Phase}
    (hp : PhaseOk svc s.alerts s.incidents p) (hq : Pool.read svc call s p = some q) :
    PhaseOk svc s.alerts s.incidents q ∧ isUpdating q = false := by
  cases p with
  | taken alertID =>
    obtain rfl := Option.some.inj hq
    split
    · exact ⟨trivial, rfl⟩
    · next root hroot => exact ⟨⟨root, List.mem_of_find?_eq_some hroot, rfl⟩, rfl⟩
  | found root =>
    obtain rfl := Option.some.inj hq
    exact ⟨⟨hp, known_findSince, covers_findSince svc _ _ _⟩, rfl⟩
  | byAsset root found =>
    obtain rfl := Option.some.inj hq
    refine ⟨Read.append hp fun b hb => ?_, rfl⟩
    simpa [iocTest, assetTest, or_and_right] using hb
  | byIoc root found =>
    obtain rfl := Option.some.inj hq
    refine phaseOk_afterReads (Read.dedup (Read.append hp fun b hb => ?_))
    simpa [iocTest, correlates, or_and_right] using hb
  | _ => cases hq

/-! ### What every run keeps -/

/-- **The invariant**: the law, and what makes it last. An incident that has been made for an
alert lists all that are correlated with it, each worker knows what it has read, and no two of
them link alerts of the same list. -/
structure Inv (svc : CausalityService) (hist : Run.History (Pool W) (Act W)) (s : Pool W) :
    Prop where
  linked : LinkedOnce svc hist s
  made : ∀ root ∈ hist.filterMap creator, ∃ inc ∈ s.store.incidents.docs,
    ∀ b ∈ s.store.alerts.docs, svc.correlates root b = true → b.alertID ∈ inc.alertIDs
  phases : ∀ w, PhaseOk svc s.store.alerts s.store.incidents (s.phase w)
  apart : ∀ w w', w ≠ w' → ∀ graph inc keys graph' inc' keys',
    s.phase w = .updating graph inc keys → s.phase w' = .updating graph' inc' keys' →
    inc.alertIDs.Disjoint inc'.alertIDs

namespace Inv

variable {svc : CausalityService} {hist : Run.History (Pool W) (Act W)} {s s' : Pool W}
  {act : Act W}

/-- At the start. -/
theorem start (h : Starts s) : Inv svc [] s where
  linked := ⟨h.settled, fun _ he => absurd he List.not_mem_nil, List.Pairwise.nil⟩
  made := fun _ hr => absurd hr List.not_mem_nil
  phases w := by
    rw [h.idle w]
    trivial
  apart w _ _ _ _ _ _ _ _ hw := by
    rw [h.idle w] at hw
    cases hw

/-- An event that writes no link and makes no incident, after which a worker may know more. -/
theorem quiet (h : Inv svc hist s) (hact : creator (s, act) = none)
    (halerts : s'.store.alerts = s.store.alerts)
    (hincidents : s'.store.incidents = s.store.incidents)
    (hphase : ∀ w, s'.phase w = s.phase w ∨
      (PhaseOk svc s.store.alerts s.store.incidents (s'.phase w) ∧
        isUpdating (s'.phase w) = false)) :
    Inv svc ((s, act) :: hist) s' := by
  have hstay {w : W} {graph : CausalityGraph} {inc : Incident} {keys : List GoString}
      (hw : s'.phase w = .updating graph inc keys) : s.phase w = .updating graph inc keys := by
    rcases hphase w with heq | ⟨-, hnot⟩
    · exact heq.symm.trans hw
    · rw [hw] at hnot
      cases hnot
  refine ⟨⟨?_, ?_, ?_⟩, ?_, fun w => ?_, ?_⟩
  · exact ⟨hincidents ▸ h.linked.settled.once,
      by rw [halerts, hincidents]; exact h.linked.settled.listed⟩
  · rw [halerts]
    rintro e he a ha ref href
    rcases List.mem_cons.mp he with rfl | he
    · exact ⟨a, ha, rfl, href⟩
    · exact h.linked.kept e he a ha ref href
  · rw [List.filterMap_cons_none hact]
    exact h.linked.group
  · rw [List.filterMap_cons_none hact, halerts, hincidents]
    exact h.made
  · rw [halerts, hincidents]
    rcases hphase w with heq | ⟨hok, -⟩
    · exact heq ▸ h.phases w
    · exact hok
  · intro w w' hne graph inc keys graph' inc' keys' hw hw'
    exact h.apart w w' hne _ _ _ _ _ _ (hstay hw) (hstay hw')

section Writes

variable [DecidableEq W]

/-- An incident is created, for alerts none of which is listed. -/
theorem create (h : Inv svc hist s) {w : W} {root : Alert} {call : Call} {graph : CausalityGraph}
    {found : List Alert} (hw : s.phase w = .creating root call graph found)
    (hunlisted : ∀ a ∈ found, ∀ inc ∈ s.store.incidents.docs, a.alertID ∉ inc.alertIDs)
    (hs' : step svc s (.create w) = some s') : Inv svc ((s, .create w) :: hist) s' := by
  rw [step, hw] at hs'
  obtain rfl := Option.some.inj hs'
  have hcreator : creator (s, Act.create w) = some root := by simp only [creator, hw]
  have hread : Read s.store.alerts root (svc.correlates root) found := by
    have hphase := h.phases w
    rwa [hw] at hphase
  -- an alert that is found is in no list, so it has no link
  have hnew {i : Incident} (hi : i ∈ s.store.incidents.docs) {id : GoString}
      (hid : id ∈ i.alertIDs) : id ∉ found.map (·.alertID) := by
    intro hmem
    obtain ⟨a, ha, rfl⟩ := List.mem_map.mp hmem
    exact hunlisted a ha i hi hid
  have hmore {i : Incident} (hi : i ∈ s.store.incidents.docs) : i ∈ (svc.create s.store.incidents
      (buildAutoIncident call found) call.now).docs := List.mem_append_left _ hi
  refine ⟨⟨⟨?_, ?_⟩, ?_, ?_⟩, ?_, fun w' => ?_, ?_⟩
  · refine List.pairwise_append.mpr ⟨h.linked.settled.once, List.pairwise_singleton .., ?_⟩
    intro i hi j hj id hid hmem
    rw [List.mem_singleton.mp hj] at hmem
    exact hnew hi hid hmem
  · intro a ha ref href
    obtain ⟨i, hi, hrest⟩ := h.linked.settled.listed a ha ref href
    exact ⟨i, hmore hi, hrest⟩
  · intro e he a ha ref href
    rcases List.mem_cons.mp he with rfl | he
    · exact ⟨a, ha, rfl, href⟩
    · exact h.linked.kept e he a ha ref href
  · rw [List.filterMap_cons_some hcreator, List.pairwise_cons]
    refine ⟨?_, h.linked.group⟩
    rintro r hr ⟨hself, -, hroot, -⟩
    obtain ⟨i, hi, hlists⟩ := h.made r hr
    obtain ⟨b, hb, heq⟩ := hread.rootKnown
    have hin := hlists b hb (((blind_correlates svc r).congr heq).trans hroot)
    exact hnew hi hin (hread.covers b hb (((blind_correlates svc root).congr heq).trans hself))
  · rw [List.filterMap_cons_some hcreator]
    intro r hr
    rcases List.mem_cons.mp hr with rfl | hr
    · exact ⟨_, List.mem_append_right _ (List.mem_singleton_self _), hread.covers⟩
    · obtain ⟨i, hi, hlists⟩ := h.made r hr
      exact ⟨i, hmore hi, hlists⟩
  · by_cases hww : w' = w
    · subst hww
      rw [phase_goTo]
      refine ⟨⟨_, List.mem_append_right _ (List.mem_singleton_self _), rfl, rfl⟩, ?_, ?_⟩
      · intro a ha hkey
        obtain ⟨x, hx, hxa⟩ := List.mem_map.mp hkey
        obtain ⟨b, hb, heq⟩ := hread.known x hx
        obtain rfl := s.store.alerts.eq_of_key hb ha ((key_eq_of_unlink heq).trans hxa)
        exact List.mem_map.mpr ⟨x, hx, (alertID_eq_of_unlink heq).symm⟩
      · intro a ha hlist ref href
        obtain ⟨i, hi, -, hin⟩ := h.linked.settled.listed a ha ref href
        exact absurd hlist (hnew hi hin)
    · rw [phase_goTo_of_ne _ hww]
      exact (h.phases w').mono fun i hi => hmore hi
  · -- the list of another worker is that of an incident there was before
    have hapart {w' : W} (hne : w' ≠ w) {graph' : CausalityGraph} {inc' : Incident}
        {keys' : List GoString} (hw' : s.phase w' = .updating graph' inc' keys') :
        inc'.alertIDs.Disjoint (found.map (·.alertID)) := by
      have hphase := h.phases w'
      rw [hw'] at hphase
      obtain ⟨i, hi, -, hlist⟩ := Owned.stored hphase
      exact fun id hid => hnew hi (hlist ▸ hid)
    intro w₁ w₂ hne graph₁ inc₁ keys₁ graph₂ inc₂ keys₂ hw₁ hw₂
    by_cases hfirst : w₁ = w
    · subst hfirst
      rw [phase_goTo] at hw₁
      rw [phase_goTo_of_ne _ hne.symm] at hw₂
      cases hw₁
      exact (hapart hne.symm hw₂).symm
    · rw [phase_goTo_of_ne _ hfirst] at hw₁
      by_cases hsecond : w₂ = w
      · subst hsecond
        rw [phase_goTo] at hw₂
        cases hw₂
        exact hapart hne hw₁
      · rw [phase_goTo_of_ne _ hsecond] at hw₂
        exact h.apart w₁ w₂ hne _ _ _ _ _ _ hw₁ hw₂

/-- A link is written. -/
theorem update (h : Inv svc hist s) {w : W} {graph : CausalityGraph} {inc : Incident}
    {key : GoString} {keys : List GoString} (hw : s.phase w = .updating graph inc (key :: keys))
    (hs' : step svc s (.update w) = some s') : Inv svc ((s, .update w) :: hist) s' := by
  rw [step, hw] at hs'
  obtain rfl := Option.some.inj hs'
  have hcreator : creator (s, Act.update w) = none := rfl
  have hown : Owned s.store.alerts s.store.incidents inc (key :: keys) := by
    have hphase := h.phases w
    rwa [hw] at hphase
  have hkey (a : Alert) (ha : a ∈ s.store.alerts.docs) (hk : a.key = key) :
      a.alertID ∈ inc.alertIDs := hown.left a ha (hk ▸ List.mem_cons_self)
  refine ⟨⟨⟨h.linked.settled.once, ?_⟩, ?_, ?_⟩, ?_, fun w' => ?_, ?_⟩
  · intro d hd ref href
    obtain ⟨a, ha, rfl⟩ := mem_link.mp hd
    rw [AlertDocs.alertID_setIncident]
    rw [AlertDocs.setIncident] at href
    split at href
    · next hk =>
      obtain ⟨i, hi, hid, hlist⟩ := hown.stored
      exact ⟨i, hi, Or.inl (hid.trans (Option.some.inj href)), hlist ▸ hkey a ha hk⟩
    · exact h.linked.settled.listed a ha ref href
  · -- a link that is written over is the same
    have hkept {d : Alert} (hd : d ∈ s.store.alerts.docs) {ref : GoString}
        (href : d.incidentID = some ref) :
        (AlertDocs.setIncident key inc.incidentID d).incidentID = some ref := by
      rw [AlertDocs.setIncident]
      split
      · next hk => rw [hown.free d hd (hkey d hd hk) ref href]
      · exact href
    intro e he a ha ref href
    rcases List.mem_cons.mp he with rfl | he
    · exact ⟨_, mem_link.mpr ⟨a, ha, rfl⟩, AlertDocs.key_setIncident .., hkept ha href⟩
    · obtain ⟨d, hd, hdkey, hdref⟩ := h.linked.kept e he a ha ref href
      exact ⟨_, mem_link.mpr ⟨d, hd, rfl⟩, (AlertDocs.key_setIncident ..).trans hdkey,
        hkept hd hdref⟩
  · rw [List.filterMap_cons_none hcreator]
    exact h.linked.group
  · rw [List.filterMap_cons_none hcreator]
    intro r hr
    obtain ⟨i, hi, hlists⟩ := h.made r hr
    exact ⟨i, hi, Covers.link hlists (blind_correlates svc r) key inc.incidentID⟩
  · by_cases hww : w' = w
    · subst hww
      rw [phase_goTo]
      exact hown.link
    · rw [phase_goTo_of_ne _ hww]
      exact (h.phases w').link (fun _ _ _ hw' => h.apart w' w hww _ _ _ _ _ _ hw' hw) hkey
  · -- the lists are those of before, the keys that are left may be fewer
    have hstay {w' : W} {graph' : CausalityGraph} {inc' : Incident} {keys' : List GoString}
        (hw' : (goTo { s with store := { s.store with
          alerts := s.store.alerts.link key inc.incidentID } } w (.updating graph inc keys)).phase
          w' = .updating graph' inc' keys') : ∃ keys₀, s.phase w' = .updating graph' inc' keys₀ := by
      by_cases hww : w' = w
      · subst hww
        rw [phase_goTo] at hw'
        cases hw'
        exact ⟨_, hw⟩
      · rw [phase_goTo_of_ne _ hww] at hw'
        exact ⟨_, hw'⟩
    intro w₁ w₂ hne graph₁ inc₁ keys₁ graph₂ inc₂ keys₂ hw₁ hw₂
    obtain ⟨keys₁', hw₁'⟩ := hstay hw₁
    obtain ⟨keys₂', hw₂'⟩ := hstay hw₂
    exact h.apart w₁ w₂ hne _ _ _ _ _ _ hw₁' hw₂'

end Writes

end Inv

variable [DecidableEq W]

/-- A worker that goes on knows what it should, if it has read it. -/
theorem phase_goTo_or {svc : CausalityService} {alerts : AlertDocs} {incidents : IncidentDocs}
    (s : Pool W) (w w' : W) {p : Phase}
    (hp : PhaseOk svc alerts incidents p ∧ isUpdating p = false) :
    (s.goTo w p).phase w' = s.phase w' ∨
      (PhaseOk svc alerts incidents ((s.goTo w p).phase w') ∧
        isUpdating ((s.goTo w p).phase w') = false) := by
  by_cases hww : w' = w
  · subst hww
    exact Or.inr (by rwa [phase_goTo])
  · exact Or.inl (phase_goTo_of_ne _ hww _)

/-- The invariant holds in every run in which incidents are only created for alerts that are in
no list. -/
theorem inv_of_reach {svc : CausalityService} {init s : Pool W}
    {hist : Run.History (Pool W) (Act W)} (hinit : Starts init)
    (h : Run.Reach (step svc) CreatesUnlisted init hist s) : Inv svc hist s := by
  refine h.invariant (Inv.start hinit) ?_
  intro hist s s' act hinv hok hs'
  cases act with
  | submit alertID =>
    obtain rfl := Option.some.inj hs'
    split
    · exact hinv.quiet rfl rfl rfl fun w => Or.inl rfl
    · exact hinv.quiet rfl rfl rfl fun w => Or.inl rfl
  | take w =>
    rw [step] at hs'
    split at hs'
    · obtain rfl := Option.some.inj hs'
      exact hinv.quiet rfl rfl rfl fun w' => phase_goTo_or _ w w' ⟨trivial, rfl⟩
    · cases hs'
  | read w call =>
    obtain ⟨q, hq, rfl⟩ := Option.map_eq_some_iff.mp hs'
    exact hinv.quiet rfl rfl rfl fun w' => phase_goTo_or _ w w' (phaseOk_read (hinv.phases w) hq)
  | create w =>
    cases hw : s.phase w with
    | creating root call graph found =>
      -- an incident is created for alerts that are in no list
      simp only [CreatesUnlisted, hw] at hok
      exact hinv.create hw hok hs'
    | _ =>
      rw [step, hw] at hs'
      cases hs'
  | update w =>
    cases hw : s.phase w with
    | updating graph inc keys =>
      cases keys with
      | nil =>
        rw [step, hw] at hs'
        cases hs'
      | cons key keys => exact hinv.update hw hs'
    | _ =>
      rw [step, hw] at hs'
      cases hs'
  | upsert w =>
    rw [step] at hs'
    split at hs'
    · obtain rfl := Option.some.inj hs'
      exact hinv.quiet rfl rfl rfl fun w' => phase_goTo_or _ w w' ⟨trivial, rfl⟩
    · obtain rfl := Option.some.inj hs'
      exact hinv.quiet rfl rfl rfl fun w' => phase_goTo_or _ w w' ⟨trivial, rfl⟩
    · cases hs'

/-- **In every run in which an incident is only created for alerts that are in no list, every
alert is linked once.** -/
theorem linkedOnce_of_reach {svc : CausalityService} {init s : Pool W}
    {hist : Run.History (Pool W) (Act W)} (hinit : Starts init)
    (h : Run.Reach (step svc) CreatesUnlisted init hist s) : LinkedOnce svc hist s :=
  (inv_of_reach hinit h).linked

/-! ### One worker, and two -/

/-- Two alerts that are not linked, and two workers. -/
def sampleStart : Pool Bool where
  store := sampleStore

theorem starts_sampleStart : Starts sampleStart where
  idle _ := rfl
  settled := {
    once := List.Pairwise.nil
    listed := by
      intro a ha ref href
      have hnone : ∀ a ∈ sampleStore.alerts.docs, a.incidentID = none := by decide +kernel
      rw [hnone a ha] at href
      cases href }

/-- Two workers take an alert each and take turns: while the one reads, creates an incident and links
its alerts, the other reads, and finds the incident there. -/
def sampleRun : List (Act Bool) :=
  [.submit (str "ALT-1"), .submit (str "ALT-2"), .take true, .take false, .read true sampleCall,
    .read false sampleCall, .read true sampleCall, .read true sampleCall, .read true sampleCall,
    .create true, .update true, .read false sampleCall, .update true, .read false sampleCall,
    .read false sampleCall, .upsert true, .upsert false]

/-- They create one incident between them, and every alert is linked once. -/
theorem linkedOnce_sampleRun : ∃ hist s,
    Run.Reach (step sampleService) CreatesUnlisted sampleStart hist s ∧
      s.store.incidents.docs.map (·.alertIDs) = [[str "ALT-1", str "ALT-2"]] ∧
        LinkedOnce sampleService hist s := by
  have hrun : ((Run.replay (step sampleService) [] sampleStart sampleRun).any fun r =>
      (r.1.all fun e => CreatesUnlisted [] e.1 e.2) &&
        r.2.store.incidents.docs.map (·.alertIDs) = [[str "ALT-1", str "ALT-2"]]) = true := by
    decide +kernel
  obtain ⟨⟨hist, s⟩, hreplay, hcheck⟩ := (Option.any_eq_true ..).mp hrun
  obtain ⟨hunlisted, hone⟩ := Bool.and_eq_true_iff.mp hcheck
  have hreach : Run.Reach (step sampleService) CreatesUnlisted sampleStart hist s :=
    (Run.Reach.replay .start hreplay).restrict fun e he _ =>
      of_decide_eq_true (List.all_eq_true.mp hunlisted e he)
  exact ⟨hist, s, hreach, of_decide_eq_true hone,
    linkedOnce_of_reach starts_sampleStart hreach⟩

/-- Both workers take an alert and read, before either of them creates. -/
def racingRun : List (Act Bool) :=
  [.submit (str "ALT-1"), .submit (str "ALT-2"), .take true, .take false] ++
    List.replicate 4 (.read true sampleCall) ++ List.replicate 4 (.read false sampleCall) ++
    [.create true, .create false]

/-- Two incidents list the same alerts. -/
theorem not_linkedOnce : ¬∀ (svc : CausalityService) (init s : Pool Bool)
    (hist : Run.History (Pool Bool) (Act Bool)), Starts init →
    Run.Reach (step svc) Run.Any init hist s → LinkedOnce svc hist s := by
  intro h
  have hrun : ((Run.replay (step sampleService) [] sampleStart racingRun).any fun r =>
      r.2.store.incidents.docs.map (·.alertIDs) =
        [[str "ALT-1", str "ALT-2"], [str "ALT-1", str "ALT-2"]]) = true := by decide +kernel
  obtain ⟨⟨hist, s⟩, hreplay, hcheck⟩ := (Option.any_eq_true ..).mp hrun
  have honce := (h _ _ _ _ starts_sampleStart (Run.Reach.replay .start hreplay)).settled.once
  have hlists := List.pairwise_map.mpr honce
  rw [of_decide_eq_true hcheck] at hlists
  exact List.rel_of_pairwise_cons hlists List.mem_cons_self List.mem_cons_self List.mem_cons_self

end Incidents

end Xsiam
