import Mathlib.Data.List.Sort
import Xsiam.Dashboard.Stats
import Xsiam.Incidents.Causality
import Xsiam.Lib.Beside

/-!
# Dashboards and tenants

Whose documents the figures of a dashboard depend on. All of them but two depend on the documents of
the tenant only (`Xsiam.Dashboard.ownFigures_factorsThrough`,
`Xsiam.Dashboard.extendedStats_factorsThrough`). The alerts of the last days and the tactics count
the documents of all tenants, so two stores that agree on a tenant's documents have the same
dashboard for the tenant exactly if what the others have in them makes no difference to these two
(`Xsiam.Dashboard.sameStats_iff_alike`).
-/

namespace Xsiam

namespace Dashboard

open Go Repository Beside

/-! ### The tenant's documents -/

/-- A document is one of those that a list for a tenant has. -/
def owned (tenantID : GoString) (d : Document) : Bool :=
  OfTenant tenantID (d.text (str "tenant_id"))

/-- The documents of a tenant. -/
def ofTenant (tenantID : GoString) (docs : Docs) : Docs := fun c =>
  ownPart (owned tenantID) (docs c)

variable {tenantID : GoString} {docs docs' : Docs} {d : Document}

theorem owned_of_hasTenant (h : hasTenant tenantID d = true) : owned tenantID d = true := by
  rw [hasTenant, decide_eq_true_eq] at h
  rw [owned, Document.text, h]
  exact decide_eq_true (.inr rfl)

/-- A query that asks for documents of a tenant finds the same in stores that agree on them. -/
theorem filter_eq_of_ofTenant {p : Document → Bool} (hp : ∀ d, p d = true → owned tenantID d = true)
    (h : ofTenant tenantID docs = ofTenant tenantID docs') (c : Source) :
    (docs c).filter p = (docs' c).filter p := filter_factorsThrough hp (congrFun h c)

theorem filter_hasTenant_eq (h : ofTenant tenantID docs = ofTenant tenantID docs') (c : Source) :
    (docs c).filter (hasTenant tenantID) = (docs' c).filter (hasTenant tenantID) :=
  filter_eq_of_ofTenant (fun _ => owned_of_hasTenant) h c

theorem passes_tenantFilter_append {o : ListOptions Document}
    {filters : List (Repository.Filter Document)}
    (h : o.filters = tenantFilter (·.text (str "tenant_id")) tenantID ++ filters)
    (hpass : o.passes d = true) : owned tenantID d = true := by
  rw [ListOptions.passes, h, List.all_append, Bool.and_eq_true] at hpass
  exact decide_eq_true
    ((@all_tenantFilter _ (fun d : Document => d.text (str "tenant_id")) _ _).mp hpass.1)

variable (e : Engine)

/-- **A page depends on the tenant's documents only**, if the tenant is the first thing it asks for.
-/
theorem listPage_factorsThrough (q : Asked) (fields : Fields) (c : Source)
    {o : ListOptions Document} {filters : List (Repository.Filter Document)}
    (ho : o.filters = tenantFilter (·.text (str "tenant_id")) tenantID ++ filters) :
    (fun docs => listPage e q fields (e.collection docs c) o).FactorsThrough
      (ofTenant tenantID) := by
  intro docs docs' h
  have hdocs : (e.collection docs c).docs.filter o.passes =
      (e.collection docs' c).docs.filter o.passes :=
    filter_eq_of_ofTenant (fun _ => passes_tenantFilter_append ho) h c
  have hrows : (e.collection docs c).rows o = (e.collection docs' c).rows o := by
    rw [DBCollection.rows, DBCollection.matching, hdocs]
    rfl
  simp only [listPage, findPaged, hdocs, hrows]

theorem tenantPage_factorsThrough (q : Asked) (fields : Fields) (c : Source) (collection : String)
    (pageSize : ℤ) (sortBy : String) (sortDesc : Bool) :
    (fun docs => listPage e q fields (e.collection docs c)
      (tenantPage collection tenantID pageSize sortBy sortDesc)).FactorsThrough
        (ofTenant tenantID) :=
  listPage_factorsThrough e q fields c (List.append_nil _).symm

/-- What is counted of the tenant's documents depends on them only. -/
theorem countDocs_factorsThrough (q : Asked) (c : Source) {test : Document → Bool}
    (htest : ∀ d, test d = true → hasTenant tenantID d = true) :
    (fun docs : Docs => countDocs e q test (docs c)).FactorsThrough (ofTenant tenantID) := by
  intro docs docs' h
  simp only [countDocs,
    filter_eq_of_ofTenant (fun d hd => owned_of_hasTenant (htest d hd)) h c]

/-- **What `GetExtendedStats` adds depends on the tenant's documents only.** -/
theorem extendedStats_factorsThrough :
    (extendedStats e tenantID).FactorsThrough (ofTenant tenantID) := by
  intro docs docs' h
  have hactive : ∀ d, (hasTenant tenantID d && isActive d) = true → hasTenant tenantID d = true :=
    fun d hd => (Bool.and_eq_true_iff.mp hd).1
  have hrules := filter_eq_of_ofTenant (fun d hd => owned_of_hasTenant (hactive d hd)) h
  simp only [extendedStats, aggregateBySourceType, aggregateTopAssets, aggregateByMitreTenant,
    filter_hasTenant_eq h, hrules]
  have hcount := fun q c =>
    countDocs_factorsThrough e q c (fun d (hd : hasTenant tenantID d) => hd) h
  have hcount' := fun q c => countDocs_factorsThrough e q c hactive h
  simp only at hcount hcount'
  simp only [hcount, hcount']

/-- The figures without those of the last days and the tactics. -/
def ownFigures (stats : Stats) : Stats := { stats with alertsByDay := [], topTactics := [] }

/-- **All other figures depend on the tenant's documents only.** -/
theorem ownFigures_factorsThrough (clock : Clock) (order order' : MapRange)
    (h : ofTenant tenantID docs = ofTenant tenantID docs') :
    ownFigures (computeStats e clock order tenantID docs) =
      ownFigures (computeStats e clock order' tenantID docs') := by
  have hpage := fun q fields c collection pageSize sortBy sortDesc =>
    tenantPage_factorsThrough e q fields c collection pageSize sortBy sortDesc h
  have hcrit : listPage e .critical vulnerabilityFields (e.collection docs .vulnerabilities)
      (criticalPage tenantID) = listPage e .critical vulnerabilityFields
        (e.collection docs' .vulnerabilities) (criticalPage tenantID) :=
    listPage_factorsThrough e .critical vulnerabilityFields .vulnerabilities rfl h
  have hcount := fun q c =>
    countDocs_factorsThrough e q c (fun d (hd : hasTenant tenantID d) => hd) h
  simp only at hpage hcount
  simp only [ownFigures, computeStats, hpage, hcrit, hcount]

/-! ### The last days -/

theorem getElem?_increments (ks : List GoString) (m : GoMap ℤ) (k : GoString) :
    ((increments m ks)[k]?).getD 0 = m[k]?.getD 0 + ks.count k := by
  induction ks generalizing m with
  | nil => simp [increments]
  | cons k' ks ih =>
    rw [increments, List.foldl_cons, ← increments, ih, GoMap.getElem?_insert, List.count_cons]
    by_cases hk : k = k'
    · subst hk
      simp
      omega
    · simp [hk, Ne.symm hk]

/-- A map that is made of zeros counts nothing. -/
theorem getElem?_zeros (days : List GoString) (k : GoString) :
    ((GoMap.insertAll ∅ (days.map fun day => (day, (0 : ℤ))))[k]?).getD 0 = 0 := by
  have hzero : ∀ (days : List GoString) (m : GoMap ℤ), m[k]?.getD 0 = 0 →
      ((GoMap.insertAll m (days.map fun day => (day, (0 : ℤ))))[k]?).getD 0 = 0 := by
    intro days
    induction days with
    | nil => exact fun m hm => hm
    | cons day days ih =>
      intro m hm
      refine ih (m.insert day 0) ?_
      rw [GoMap.getElem?_insert]
      split_ifs
      · rfl
      · exact hm
  exact hzero days ∅ rfl

/-- How many alerts there are of each of the seven days. -/
def dayTally (clock : Clock) : Tally Document (Fin 7) := .ofTest fun i d => dayOf d = clock.day i

/-- **The figure of a day is the number of alerts of the day.** -/
theorem alertsByDay_eq (clock : Clock) (ds : List Document) : alertsByDay clock ds =
    ([6, 5, 4, 3, 2, 1, 0] : List (Fin 7)).map fun i =>
      ⟨clock.day i, (dayTally clock).count ds i⟩ := by
  have hcount : ∀ day, (ds.map dayOf).count day = ds.countP fun d => dayOf d = day := by
    intro day
    rw [List.count, List.countP_map]
    refine List.countP_congr fun d _ => ?_
    simp
  simp only [alertsByDay, getElem?_increments, getElem?_zeros, zero_add, hcount]
  rfl

theorem alertsByDay_eq_iff {clock : Clock} {ds ds' : List Document} :
    alertsByDay clock ds = alertsByDay clock ds' ↔
      (dayTally clock).count ds = (dayTally clock).count ds' := by
  rw [alertsByDay_eq, alertsByDay_eq]
  refine ⟨fun h => ?_, fun h => by rw [h]⟩
  ext i
  have hmem : i ∈ ([6, 5, 4, 3, 2, 1, 0] : List (Fin 7)) := by
    revert i
    decide
  have hday := (List.map_inj_left.mp h) i hmem
  exact Int.ofNat.inj (congrArg DayCount.count hday)

/-- The alerts of all tenants within the last seven days. -/
def inRange (clock : Clock) (docs : Docs) : List Document :=
  Incidents.findByTimeRange (docs .alerts) clock.sevenDaysAgo clock.now

/-- What can be read in the collection can be read in the range. -/
theorem reads_inRange (clock : Clock) (h : ∀ d ∈ docs .alerts, d.Reads e.times alertFields) :
    ∀ d ∈ inRange clock docs, d.Reads e.times alertFields := by
  rintro d hd
  rw [inRange, Incidents.findByTimeRange] at hd
  exact h d (List.mem_of_mem_filter hd)

theorem findRecentRange_eq (clock : Clock) (docs : Docs) : findRecentRange e clock (docs .alerts) =
    if e.fails .recentRange then []
    else (readAll (fun d => d.Reads e.times alertFields) (inRange clock docs)).getD [] := by
  rw [findRecentRange, ← inRange, readAll]
  by_cases hfails : e.fails .recentRange = true
  · rw [if_pos (.inl hfails), if_pos hfails]
  by_cases hall : ((inRange clock docs).all fun d => d.Reads e.times alertFields) = true
  · rw [if_neg (not_or.mpr ⟨hfails, not_not.mpr hall⟩), if_neg hfails, if_pos hall]
    rfl
  · rw [if_pos (.inr hall), if_neg hfails, if_neg hall]
    rfl

/-- What the others have within the last days makes no difference. -/
def DaysAlike (clock : Clock) (tenantID : GoString) (docs docs' : Docs) : Prop :=
  e.fails .recentRange = true ∨ (dayTally clock).Alike (owned tenantID)
    (fun d => d.Reads e.times alertFields) (inRange clock docs) (inRange clock docs')

theorem ownPart_inRange_eq (h : ofTenant tenantID docs = ofTenant tenantID docs') (clock : Clock) :
    ownPart (owned tenantID) (inRange clock docs) =
      ownPart (owned tenantID) (inRange clock docs') := by
  have halerts : ownPart (owned tenantID) (docs .alerts) =
      ownPart (owned tenantID) (docs' .alerts) :=
    congrFun h .alerts
  rw [inRange, inRange, Incidents.findByTimeRange, Incidents.findByTimeRange, ownPart_filter,
    ownPart_filter, halerts]

/-- **The alerts of the last days are counted alike exactly if the others make no difference.** -/
theorem alertsByDay_eq_iff_daysAlike (h : ofTenant tenantID docs = ofTenant tenantID docs')
    (clock : Clock) :
    alertsByDay clock (findRecentRange e clock (docs .alerts)) =
      alertsByDay clock (findRecentRange e clock (docs' .alerts)) ↔
        DaysAlike e clock tenantID docs docs' := by
  rw [DaysAlike, findRecentRange_eq, findRecentRange_eq]
  by_cases hfails : e.fails .recentRange = true
  · rw [if_pos hfails, if_pos hfails]
    exact iff_of_true rfl (.inl hfails)
  · rw [if_neg hfails, if_neg hfails, alertsByDay_eq_iff, or_iff_right hfails]
    exact Tally.eq_iff_alike _ (ownPart_inRange_eq h clock)

/-- Where the others' alerts can be read, the number of them on each day is what makes a difference.
-/
theorem daysAlike_iff_of_read (clock : Clock)
    (hreads : ∀ d ∈ inRange clock docs, d.Reads e.times alertFields)
    (hreads' : ∀ d ∈ inRange clock docs', d.Reads e.times alertFields) :
    DaysAlike e clock tenantID docs docs' ↔ e.fails .recentRange = true ∨
      ∀ i : Fin 7, (dayTally clock).count (strangers (owned tenantID) (inRange clock docs)) i =
        (dayTally clock).count (strangers (owned tenantID) (inRange clock docs')) i := by
  have hread : ∀ {ds : List Document}, (∀ d ∈ ds, d.Reads e.times alertFields) →
      ds.all (fun d => d.Reads e.times alertFields) = true :=
    fun hds => List.all_eq_true.mpr fun d hd => decide_eq_true (hds d hd)
  rw [DaysAlike, Tally.alike_iff_of_all _ (hread hreads) (hread hreads')]
  exact or_congr_right (forall_congr' fun i => Tally.ofTest_append_eq_iff)

/-! ### The tactics -/

/-- The tactic of a rule. -/
def tacticOf (d : Document) : Value := d.get (str "mitre_tactic")

/-- The technique of a rule. -/
def techniqueOf (d : Document) : Value := d.get (str "mitre_technique")

/-- A rule can be read in the row of its tactic. -/
def readsRule (d : Document) : Bool := readsTexts e [tacticOf d, techniqueOf d]

/-- The value that a tactic stands for: a rule with no tactic is shown under the empty text, but
only if no rule has the empty text for its tactic. -/
def shownAs (rules : List Document) (tactic : GoString) : Value :=
  if tactic = [] ∧ ∀ d ∈ rules, tacticOf d ≠ .str [] then .null else .str tactic

/-- How many rules are shown under each tactic. -/
def tacticTally : Tally Document GoString where
  count rules tactic := rules.countP fun d => tacticOf d = shownAs rules tactic
  perm {l l'} h := by
    ext tactic
    have hshown : shownAs l tactic = shownAs l' tactic := by
      rw [shownAs, shownAs]
      exact if_congr (and_congr_right' ⟨fun hl d hd => hl d (h.mem_iff.mpr hd),
        fun hl d hd => hl d (h.mem_iff.mp hd)⟩) rfl rfl
    rw [hshown]
    exact h.countP_eq _
  nil _ := rfl

variable {e} {rules : List Document}

theorem readsTexts_iff {vs : List Value} :
    readsTexts e vs = true ↔ ∀ v ∈ vs, v = .null ∨ ∃ s, v = .str s := by
  rw [readsTexts, List.all_eq_true]
  refine forall₂_congr fun v _ => ?_
  cases v <;> simp [Repository.Kind.accepts]

theorem mem_collect_iff {α : Type} {key : α → List Value} {rows : List α} {k : List Value}
    {g : List α} : (k, g) ∈ e.collect key rows ↔
      (∃ r ∈ rows, key r = k) ∧ g = rows.filter fun r => key r = k := by
  simp only [Engine.collect, List.mem_map, (e.groupOrder_perm _).mem_iff, List.mem_dedup,
    Prod.mk.injEq]
  constructor
  · rintro ⟨_, hr, rfl, rfl⟩
    exact ⟨hr, rfl⟩
  · rintro ⟨hr, rfl⟩
    exact ⟨k, hr, rfl, rfl⟩

variable (e rules) in
/-- The rows of `AggregateByMitre`. -/
def tacticRows : List (List Value × List Value) :=
  (e.collect (fun d => [tacticOf d]) rules).map fun g => (g.1, g.2.map techniqueOf)

variable (e rules) in
/-- The map that they are written into. -/
def tacticMap : GoMap (List GoString) := GoMap.insertAll ∅ ((tacticRows e rules).map fun r =>
  (Document.valueText (r.1.headD .null), r.2.map Document.valueText))

/-- The rows can be read if every rule can be read in its row. -/
theorem all_tacticRows : (tacticRows e rules).all (fun r => readsTexts e (r.1 ++ r.2)) =
    rules.all (readsRule e) := by
  rw [Bool.eq_iff_iff]
  simp only [tacticRows, List.all_map, List.all_eq_true, Function.comp_apply, readsRule,
    readsTexts_iff, List.mem_append, List.mem_map, List.forall_mem_cons]
  constructor
  · intro h d hd
    have hrow := h ([tacticOf d], rules.filter fun r => [tacticOf r] = [tacticOf d])
      (mem_collect_iff.mpr ⟨⟨d, hd, rfl⟩, rfl⟩)
    refine ⟨hrow _ (.inl List.mem_cons_self), hrow _ (.inr ⟨d, ?_, rfl⟩), by simp⟩
    exact List.mem_filter.mpr ⟨hd, decide_eq_true rfl⟩
  · rintro h ⟨k, g⟩ hg v hv
    obtain ⟨⟨d, hd, rfl⟩, rfl⟩ := mem_collect_iff.mp hg
    obtain hv | ⟨d', hd', rfl⟩ := hv
    · rw [List.mem_singleton.mp hv]
      exact (h d hd).1
    · exact (h d' (List.mem_of_mem_filter hd')).2.1

theorem aggregateByMitre_eq (ds : List Document) : aggregateByMitre e ds =
    if e.fails .mitreMap then none
    else (readAll (readsRule e) (ds.filter isActive)).map (tacticMap e) := by
  have hrows : aggregateByMitre e ds = if e.fails .mitreMap = true ∨
      ¬(tacticRows e (ds.filter isActive)).all (fun r => readsTexts e (r.1 ++ r.2)) = true then none
      else some (tacticMap e (ds.filter isActive)) := rfl
  rw [hrows, all_tacticRows, readAll]
  by_cases hfails : e.fails .mitreMap = true
  · rw [if_pos (.inl hfails), if_pos hfails]
  by_cases hall : (ds.filter isActive).all (readsRule e) = true
  · rw [if_neg (not_or.mpr ⟨hfails, not_not.mpr hall⟩), if_neg hfails, if_pos hall]
    rfl
  · rw [if_pos (.inr hall), if_neg hfails, if_neg hall]
    rfl

theorem valueText_shownAs (rules : List Document) (tactic : GoString) :
    Document.valueText (shownAs rules tactic) = tactic := by
  rw [shownAs]
  split_ifs with h
  · exact h.1.symm
  · rfl

/-- **What the map has under a tactic**: the techniques of the rules that are shown under it. -/
theorem getElem?_tacticMap (hread : rules.all (readsRule e) = true) (tactic : GoString) :
    (tacticMap e rules)[tactic]? =
      if ∃ d ∈ rules, tacticOf d = shownAs rules tactic then
        some ((rules.filter fun d => tacticOf d = shownAs rules tactic).map fun d =>
          Document.valueText (techniqueOf d))
      else none := by
  let keys := e.groupOrder (rules.map fun d => [tacticOf d]).dedup
  let entry := fun k : List Value => (Document.valueText (k.headD .null),
    (rules.filter fun d => [tacticOf d] = k).map fun d => Document.valueText (techniqueOf d))
  have hmap : tacticMap e rules = GoMap.insertAll ∅ (keys.map entry) := by
    simp only [tacticMap, tacticRows, Engine.collect, List.map_map, Function.comp_def, keys, entry]
  have hkeys : ∀ {k}, k ∈ keys ↔ ∃ d ∈ rules, [tacticOf d] = k := by
    intro k
    rw [(e.groupOrder_perm _).mem_iff, List.mem_dedup, List.mem_map]
  have hnull := e.groupOrder_null _ (rules.map fun d => [tacticOf d]).nodup_dedup
  have hnodup : keys.Nodup := (e.groupOrder_perm _).nodup_iff.mpr (List.nodup_dedup _)
  -- what is written under the tactic is the group of its value, or before it the one of null
  have hshown : ∀ k ∈ keys, (entry k).1 = tactic →
      k = [shownAs rules tactic] ∨ k = [.null] ∧ [shownAs rules tactic] ∈ keys := by
    intro k hk htext
    obtain ⟨d, hd, rfl⟩ := hkeys.mp hk
    have hreads := readsTexts_iff.mp (List.all_eq_true.mp hread d hd) _ List.mem_cons_self
    have htext' : Document.valueText (tacticOf d) = tactic := htext
    rw [shownAs]
    obtain hd' | ⟨s, hs⟩ := hreads
    · rw [hd'] at htext' ⊢
      split_ifs with hempty
      · exact .inl rfl
      · refine .inr ⟨rfl, hkeys.mpr ?_⟩
        subst htext'
        obtain ⟨d', hd', hempty'⟩ : ∃ d ∈ rules, tacticOf d = .str [] := by
          simpa [Document.valueText] using hempty
        exact ⟨d', hd', by rw [hempty']; rfl⟩
    · rw [hs] at htext' ⊢
      obtain rfl : s = tactic := htext'
      rw [if_neg fun hempty => hempty.2 d hd (hs.trans (by rw [hempty.1]))]
      exact .inl rfl
  rw [hmap]
  split_ifs with hthere
  · obtain ⟨d, hd, hvalue⟩ := hthere
    obtain ⟨pre, post, hsplit⟩ := List.append_of_mem (hkeys.mpr ⟨d, hd, rfl⟩)
    rw [hvalue] at hsplit
    have hentry : entry [shownAs rules tactic] = (tactic,
        (rules.filter fun d => tacticOf d = shownAs rules tactic).map fun d =>
          Document.valueText (techniqueOf d)) := by
      simp only [entry, List.headD_cons, valueText_shownAs, List.cons.injEq, and_true]
    rw [hsplit, List.map_append, List.map_cons, hentry]
    refine GoMap.getElem?_insertAll_append_cons (fun kv hkv htext => ?_) _ _ _
    obtain ⟨k, hk, rfl⟩ := List.mem_map.mp hkv
    have hk' : k ∈ keys := by rw [hsplit]; exact List.mem_append_right _ (List.mem_cons_of_mem _ hk)
    obtain rfl | ⟨rfl, -⟩ := hshown k hk' htext
    · rw [hsplit] at hnodup
      exact (List.nodup_cons.mp (List.nodup_append.mp hnodup).2.1).1 hk
    · have hlater : keys.Pairwise fun _ k => k ≠ [.null] := hnull
      rw [hsplit] at hlater
      exact (List.pairwise_cons.mp (List.pairwise_append.mp hlater).2.1).1 _ hk rfl
  · have hnot : ¬[shownAs rules tactic] ∈ keys := by
      rintro hmem
      obtain ⟨d, hd, hvalue⟩ := hkeys.mp hmem
      exact hthere ⟨d, hd, List.singleton_inj.mp hvalue⟩
    rw [GoMap.getElem?_insertAll_of_notMem]
    · rfl
    · intro kv hkv htext
      obtain ⟨k, hk, rfl⟩ := List.mem_map.mp hkv
      obtain rfl | ⟨-, hmem⟩ := hshown k hk htext
      · exact hnot hk
      · exact hnot hmem

/-- How many techniques a map has under a tactic. -/
def techniqueCount (mitreMap : Option (GoMap (List GoString))) (tactic : GoString) : ℕ :=
  ((mitreMap.getD ∅)[tactic]?.map List.length).getD 0

/-- A map with a technique at least under each of its tactics. -/
def NoneEmpty (mitreMap : Option (GoMap (List GoString))) : Prop :=
  ∀ tactic : GoString, (mitreMap.getD ∅)[tactic]? ≠ some []

theorem mem_topTactics_iff {order : MapRange} {mitreMap : Option (GoMap (List GoString))}
    (h : NoneEmpty mitreMap) {c : TacticCount} : c ∈ topTactics order mitreMap ↔
      c.count = techniqueCount mitreMap c.tactic ∧ c.count ≠ 0 := by
  obtain ⟨tactic, count⟩ := c
  simp only [topTactics, List.mem_map, TacticCount.mk.injEq, Prod.exists, order.mem_entries,
    techniqueCount]
  constructor
  · rintro ⟨tactic, ts, hts, rfl, rfl⟩
    refine ⟨by rw [hts]; rfl, fun hzero => h tactic ?_⟩
    rw [hts, List.eq_nil_of_length_eq_zero (Int.ofNat.inj hzero)]
  · rintro ⟨hcount, hpos⟩
    cases hts : (mitreMap.getD ∅)[tactic]? with
    | none =>
      rw [hts] at hcount
      exact absurd hcount hpos
    | some ts =>
      rw [hts] at hcount
      exact ⟨tactic, ts, hts, rfl, hcount.symm⟩

theorem nodup_topTactics (order : MapRange) (mitreMap : Option (GoMap (List GoString))) :
    (topTactics order mitreMap).Nodup := by
  have hkeys := order.nodup_keys (mitreMap.getD ∅)
  refine List.Nodup.of_map TacticCount.tactic ?_
  rw [topTactics, List.map_map]
  exact hkeys

/-- **The tactics are the same, in some order, exactly if each has as many techniques.** -/
theorem topTactics_perm_iff {order order' : MapRange} {m m' : Option (GoMap (List GoString))}
    (h : NoneEmpty m) (h' : NoneEmpty m') :
    (topTactics order m).Perm (topTactics order' m') ↔ techniqueCount m = techniqueCount m' := by
  rw [List.perm_ext_iff_of_nodup (nodup_topTactics order m) (nodup_topTactics order' m')]
  simp only [mem_topTactics_iff h, mem_topTactics_iff h']
  constructor
  · intro hmem
    ext tactic
    by_cases hzero : techniqueCount m tactic = 0
    · by_contra hne
      have hthere := (hmem ⟨tactic, techniqueCount m' tactic⟩).mpr ⟨rfl, fun hzero' =>
        hne (hzero.trans (Int.ofNat.inj hzero').symm)⟩
      exact hne (Int.ofNat.inj hthere.1).symm
    · exact Int.ofNat.inj ((hmem ⟨tactic, techniqueCount m tactic⟩).mp
        ⟨rfl, fun hz => hzero (Int.ofNat.inj hz)⟩).1
  · intro heq c
    rw [heq]

/-- The active rules of all tenants. -/
def activeRules (docs : Docs) : List Document := (docs .detectionRules).filter isActive

theorem techniqueCount_eq (hfails : e.fails .mitreMap = false) (docs : Docs) :
    techniqueCount (aggregateByMitre e (docs .detectionRules)) =
      tacticTally.count ((readAll (readsRule e) (activeRules docs)).getD []) := by
  ext tactic
  rw [aggregateByMitre_eq, hfails, if_neg Bool.false_ne_true, ← activeRules]
  cases hread : readAll (readsRule e) (activeRules docs) with
  | none => rfl
  | some rules =>
    obtain rfl := eq_of_readAll hread
    have hall : (activeRules docs).all (readsRule e) = true := by
      rw [← isSome_readAll, hread]
      rfl
    rw [Option.map_some, techniqueCount, Option.getD_some, getElem?_tacticMap hall,
      Option.getD_some]
    split_ifs with hthere
    · rw [Option.map_some, Option.getD_some, List.length_map, ← List.countP_eq_length_filter]
      rfl
    · refine (List.countP_eq_zero.mpr fun d hd heq => hthere ⟨d, hd, ?_⟩).symm
      exact of_decide_eq_true heq

theorem noneEmpty_aggregateByMitre (ds : List Document) : NoneEmpty (aggregateByMitre e ds) := by
  intro tactic
  rw [aggregateByMitre_eq]
  split_ifs with hfails
  · exact Option.some_ne_none _ ∘ Eq.symm
  cases hread : readAll (readsRule e) (ds.filter isActive) with
  | none => exact Option.some_ne_none _ ∘ Eq.symm
  | some rules =>
    obtain rfl := eq_of_readAll hread
    have hall : (ds.filter isActive).all (readsRule e) = true := by
      rw [← isSome_readAll, hread]
      rfl
    rw [Option.map_some, Option.getD_some, getElem?_tacticMap hall]
    split_ifs with hthere
    · obtain ⟨d, hd, hvalue⟩ := hthere
      intro heq
      have hnil := List.map_eq_nil_iff.mp (Option.some.inj heq)
      exact List.ne_nil_of_mem (List.mem_filter.mpr ⟨hd, decide_eq_true hvalue⟩) hnil
    · exact Option.some_ne_none _ ∘ Eq.symm

variable (e)

/-- What the active rules of the others are makes no difference. -/
def TacticsAlike (tenantID : GoString) (docs docs' : Docs) : Prop :=
  e.fails .mitreMap = true ∨
    tacticTally.Alike (owned tenantID) (readsRule e) (activeRules docs) (activeRules docs')

/-- **The tactics are the same exactly if the others make no difference.** -/
theorem topTactics_perm_iff_tacticsAlike (h : ofTenant tenantID docs = ofTenant tenantID docs')
    (order order' : MapRange) :
    (topTactics order (aggregateByMitre e (docs .detectionRules))).Perm
        (topTactics order' (aggregateByMitre e (docs' .detectionRules))) ↔
      TacticsAlike e tenantID docs docs' := by
  have hrules : ownPart (owned tenantID) (docs .detectionRules) =
      ownPart (owned tenantID) (docs' .detectionRules) := congrFun h .detectionRules
  rw [topTactics_perm_iff (noneEmpty_aggregateByMitre _) (noneEmpty_aggregateByMitre _),
    TacticsAlike]
  cases hfails : e.fails .mitreMap with
  | true =>
    refine iff_of_true ?_ (.inl rfl)
    rw [aggregateByMitre_eq, aggregateByMitre_eq, hfails]
    rfl
  | false =>
    rw [techniqueCount_eq hfails, techniqueCount_eq hfails, or_iff_right Bool.false_ne_true]
    refine Tally.eq_iff_alike _ ?_
    rw [activeRules, activeRules, ownPart_filter, ownPart_filter, hrules]

/-! ### The dashboard -/

/-- The same figures, with the tactics in some order. -/
def SameStats (stats stats' : Stats) : Prop :=
  { stats with topTactics := [] } = { stats' with topTactics := [] } ∧
    stats.topTactics.Perm stats'.topTactics

/-- **Two stores that agree on a tenant's documents have the same dashboard for the tenant exactly
if the others make no difference** to the alerts of the last days and to the tactics. -/
theorem sameStats_iff_alike (h : ofTenant tenantID docs = ofTenant tenantID docs') (clock : Clock)
    (order order' : MapRange) :
    SameStats (computeStats e clock order tenantID docs)
        (computeStats e clock order' tenantID docs') ∧
      extendedStats e tenantID docs = extendedStats e tenantID docs' ↔
    DaysAlike e clock tenantID docs docs' ∧ TacticsAlike e tenantID docs docs' := by
  have hown := ownFigures_factorsThrough e clock order order' h
  rw [and_iff_left (extendedStats_factorsThrough e h), SameStats,
    ← alertsByDay_eq_iff_daysAlike e h clock, ← topTactics_perm_iff_tacticsAlike e h order order']
  refine and_congr_left' ?_
  simp only [ownFigures, Stats.mk.injEq, true_and] at hown ⊢
  constructor
  · exact fun hsame => hsame.2.2.2.2.2.2.2.2.2.2.2.1
  · intro hdays
    simp only [hown, true_and, and_true]
    exact hdays

/-! ### Two tenants -/

/-- Times of twenty bytes that end in `Z`. -/
def plainTimes : TimeFormat where
  text _ := str "1970-01-01T00:00:00Z"
  reads s := s.length = 20 && s.getLast? = some 0x5A
  reads_text _ := by decide

/-- A database that sorts groups with null first and keeps what it does not have to sort. -/
def plainEngine : Engine where
  times := plainTimes
  ops := Incidents.sampleOps
  hoursBetween _ _ := .c1
  sort _ _ _ ds := ds
  sort_perm _ _ _ ds := .refl ds
  other _ _ _ := .error []
  groupOrder ks := ks.filter (fun k => k = [.null]) ++ ks.filter fun k => !decide (k = [.null])
  groupOrder_perm ks := List.filter_append_perm _ ks
  groupOrder_null ks hks := by
    refine List.pairwise_append.mpr
      ⟨?_, ?_, fun _ _ k hk => by simpa using (List.mem_filter.mp hk).2⟩
    · -- there is one null at most
      refine (hks.filter _).imp_of_mem fun {k k'} hk hk' hne hnull => hne ?_
      rw [hnull]
      simpa using (List.mem_filter.mp hk).2
    · refine List.Pairwise.imp_of_mem (fun _ hk' _ => ?_) (hks.filter _)
      simpa using (List.mem_filter.mp hk').2
  ranked rows := rows.mergeSort fun r r' => r'.2 ≤ r.2
  ranked_perm rows := List.mergeSort_perm rows _
  ranked_desc rows := by
    have htrans : ∀ a b c : List Value × ℕ, decide (b.2 ≤ a.2) = true → decide (c.2 ≤ b.2) = true →
        decide (c.2 ≤ a.2) = true := fun a b c hab hbc =>
      decide_eq_true ((of_decide_eq_true hbc).trans (of_decide_eq_true hab))
    have htotal : ∀ a b : List Value × ℕ, (decide (b.2 ≤ a.2) || decide (a.2 ≤ b.2)) = true :=
      fun a b => by simpa using Nat.le_total b.2 a.2
    exact (List.pairwise_mergeSort htrans htotal rows).imp of_decide_eq_true
  fails _ := false

/-- Shortly after noon of a day. -/
def noonClock : Clock where
  now := Incidents.TimedQuery.afterNoon
  sevenDaysAgo := ⟨43200500000000 - 604800000000000, 0, Stamp.utc_bound, by decide⟩
  day i := (["1970-01-01", "1969-12-31", "1969-12-30", "1969-12-29", "1969-12-28", "1969-12-27",
    "1969-12-26"].map str).getD i []

/-- An alert of a tenant at noon. -/
def noonAlert (tenantID alertID : String) : Document :=
  Document.ofEntries [("tenant_id", .str (str tenantID)), ("alert_id", .str (str alertID)),
    ("triggered_at", .str Incidents.TimedQuery.noon.text)]

/-- A rule of a tenant. -/
def persistenceRule (tenantID status : String) : Document :=
  Document.ofEntries [("tenant_id", .str (str tenantID)), ("status", .str (str status)),
    ("mitre_tactic", .str (str "Persistence")), ("mitre_technique", .str (str "T1053"))]

/-- Alerts and rules. -/
def alertsAndRules (alerts rules : List Document) : Docs
  | .alerts => alerts
  | .detectionRules => rules
  | _ => []

/-- **Another alert of another tenant on the same day, and a rule of its that is not active, make no
difference.** -/
theorem sameStats_sameDay :
    SameStats
        (computeStats plainEngine noonClock .byKey (str "t-1") (alertsAndRules
          [noonAlert "t-1" "a-1", noonAlert "t-2" "a-2"] [persistenceRule "t-1" "active"]))
        (computeStats plainEngine noonClock .byKey (str "t-1") (alertsAndRules
          [noonAlert "t-1" "a-1", noonAlert "t-2" "a-3"]
          [persistenceRule "t-1" "active", persistenceRule "t-2" "draft"])) ∧
      extendedStats plainEngine (str "t-1") (alertsAndRules
          [noonAlert "t-1" "a-1", noonAlert "t-2" "a-2"] [persistenceRule "t-1" "active"]) =
        extendedStats plainEngine (str "t-1") (alertsAndRules
          [noonAlert "t-1" "a-1", noonAlert "t-2" "a-3"]
          [persistenceRule "t-1" "active", persistenceRule "t-2" "draft"]) := by
  have hown : owned (str "t-1") (noonAlert "t-2" "a-2") = false ∧
      owned (str "t-1") (noonAlert "t-2" "a-3") = false ∧
      owned (str "t-1") (persistenceRule "t-2" "draft") = false := by decide +kernel
  have hdraft : isActive (persistenceRule "t-2" "draft") = false := by decide +kernel
  refine (sameStats_iff_alike plainEngine ?_ noonClock .byKey .byKey).mpr ⟨?_, .inr ?_⟩
  · funext c
    cases c <;> simp [ofTenant, alertsAndRules, ownPart, List.filter_cons, hown]
  · refine (daysAlike_iff_of_read plainEngine noonClock ?_ ?_).mpr (.inr ?_)
    · exact reads_inRange plainEngine noonClock (by decide +kernel)
    · exact reads_inRange plainEngine noonClock (by decide +kernel)
    · decide +kernel
  · refine Tally.alike_of_perm _ ?_ ?_
    all_goals
      simp [activeRules, alertsAndRules, ownPart, List.filter_cons, hdraft]

/-- **An active rule of another tenant is seen in the figures of every tenant.** -/
theorem not_sameStats : ¬∀ (e : Engine) (clock : Clock) (order order' : MapRange)
    (tenantID : GoString) (docs docs' : Docs), ofTenant tenantID docs = ofTenant tenantID docs' →
      SameStats (computeStats e clock order tenantID docs)
        (computeStats e clock order' tenantID docs') ∧
      extendedStats e tenantID docs = extendedStats e tenantID docs' := by
  intro h
  have hown : owned (str "t-1") (persistenceRule "t-2" "active") = false := by decide +kernel
  have hsame := (h plainEngine noonClock .byKey .byKey (str "t-1")
    (alertsAndRules [] [persistenceRule "t-2" "active"]) (alertsAndRules [] []) (by
      funext c
      cases c <;> simp [ofTenant, alertsAndRules, ownPart, hown])).1.2.length_eq
  have hone : (topTactics .byKey (aggregateByMitre plainEngine
    [persistenceRule "t-2" "active"])).length = 1 := by decide +kernel
  have hnone : (topTactics .byKey (aggregateByMitre plainEngine [])).length = 0 := by decide +kernel
  exact absurd (hone.symm.trans (hsame.trans hnone)) (by decide)

end Dashboard

end Xsiam
