import Xsiam.Lib.PartialFold
import Xsiam.Query.Xql

/-!
# The two parsers, compared

`parseXQLForNgx` returns unless a slice is out of range, behind the word `dataset` or in a filter
stage, and both slices go wrong where lower-casing moves what the parser looks for
(`Xsiam.Query.parseXQLForNgx_returns_iff`). `parseXQL` returns when moreover a name follows the word
`dataset`, and then returns the same with the conditions in a map (`Xsiam.Query.parseXQL_eq`). So
the two agree exactly on the queries where neither panics and no field is named twice
(`Xsiam.Query.parsers_agree_iff`).
-/

namespace Xsiam

namespace Query

open Go Etl Separator

/-! ### What a query says, by its text -/

/-- The dataset clause. -/
def firstStage (q : GoString) : GoString := (queryStages q).headD []

/-- The stages behind the dataset clause. -/
def laterStages (q : GoString) : List GoString := (queryStages q).tail

/-- The expression of a filter stage. -/
def filterText (part : GoString) : GoString := trimSpace (part.drop 6)

/-- A stage is a filter stage. -/
def IsFilter (part : GoString) : Prop := hasPrefix (toLower part) (str "filter") = true

instance (part : GoString) : Decidable (IsFilter part) := inferInstanceAs (Decidable (_ = _))

/-- The conditions in a stage. -/
def stageConditions (part : GoString) : List (GoString × GoString) :=
  if IsFilter part then (pieces (filterText part)).filterMap condition else []

theorem stageConditions_of_filter {part : GoString} (h : IsFilter part) :
    stageConditions part = (pieces (filterText part)).filterMap condition := if_pos h

theorem stageConditions_of_not {part : GoString} (h : ¬IsFilter part) :
    stageConditions part = [] := if_neg h

/-- The conditions in a query. -/
def queryConditions (q : GoString) : List (GoString × GoString) :=
  (laterStages q).flatMap stageConditions

/-- The word `dataset`, where lower-casing shows it, is inside the dataset clause. -/
def DatasetInside (q : GoString) : Prop :=
  ∀ idx, index (str "dataset") (toLower (firstStage q)) = some idx →
    idx + 7 ≤ (firstStage q).length

/-- A name follows the word `dataset`. -/
def DatasetNamed (q : GoString) : Prop :=
  ∀ idx, index (str "dataset") (toLower (firstStage q)) = some idx →
    fields (trimPrefix (trimSpace ((firstStage q).drop (idx + 7))) (str "=")) ≠ []

/-- The separators of every filter stage are inside its expression. -/
def FiltersInside (q : GoString) : Prop :=
  ∀ part ∈ laterStages q, IsFilter part → CutsInside (filterText part)

/-! ### One stage -/

section Stage

variable {φ : Type} {P : Variant φ}

/-- Behind the name of a stage there is always something to slice. -/
theorem sliceFrom_of_hasPrefix {part w : GoString} (hw : ∀ x ∈ w, x.toNat < 0x80)
    (h : hasPrefix (toLower part) w = true) :
    sliceFrom part w.length = some (part.drop w.length) := by
  rw [hasPrefix, List.isPrefixOf_iff_prefix] at h
  rw [sliceFrom, if_pos (length_le_of_prefix_toLower hw h)]

theorem sliceFrom_filter {part : GoString} (h : hasPrefix (toLower part) (str "filter") = true) :
    sliceFrom part 6 = some (part.drop 6) :=
  sliceFrom_of_hasPrefix (w := str "filter") (by decide +kernel) h

theorem sliceFrom_fields {part : GoString} (h : hasPrefix (toLower part) (str "fields") = true) :
    sliceFrom part 6 = some (part.drop 6) :=
  sliceFrom_of_hasPrefix (w := str "fields") (by decide +kernel) h

theorem sliceFrom_sort {part : GoString} (h : hasPrefix (toLower part) (str "sort") = true) :
    sliceFrom part 4 = some (part.drop 4) :=
  sliceFrom_of_hasPrefix (w := str "sort") (by decide +kernel) h

theorem sliceFrom_limit {part : GoString} (h : hasPrefix (toLower part) (str "limit") = true) :
    sliceFrom part 5 = some (part.drop 5) :=
  sliceFrom_of_hasPrefix (w := str "limit") (by decide +kernel) h

theorem filters_sortTokens (toks : List GoString) : ∀ p : Parsed φ,
    (toks.foldl sortToken p).filters = p.filters := by
  induction toks with
  | nil => intro p; rfl
  | cons tok toks ih =>
    intro p
    rw [List.foldl_cons, ih, sortToken]
    split_ifs <;> rfl

/-- A stage panics only in its filter expression. -/
theorem parseStage_returns_iff (hP : P.splitAnd = splitAnd) (p : Parsed φ) (part : GoString) :
    (∃ p', parseStage P p part = some p') ↔ (IsFilter part → CutsInside (filterText part)) := by
  unfold parseStage IsFilter
  simp only
  split_ifs with hfilter hfields hsort hlimit
  · rw [sliceFrom_filter hfilter, hP, Option.bind_some, splitAnd_eq]
    rw [filterText]
    by_cases hin : CutsInside (trimSpace (part.drop 6))
    · exact iff_of_true ⟨_, by rw [if_pos hin]; rfl⟩ fun _ => hin
    · refine iff_of_false ?_ fun h => hin (h hfilter)
      rw [if_neg hin]
      simp
  · exact iff_of_true ⟨_, by rw [sliceFrom_fields hfields]; rfl⟩ fun h => absurd h hfilter
  · exact iff_of_true ⟨_, by rw [sliceFrom_sort hsort]; rfl⟩ fun h => absurd h hfilter
  · exact iff_of_true ⟨_, by rw [sliceFrom_limit hlimit]; rfl⟩ fun h => absurd h hfilter
  · exact iff_of_true ⟨p, rfl⟩ fun h => absurd h hfilter

/-- What a stage does to the conditions. -/
theorem parseStage_filters (hP : P.splitAnd = splitAnd) {p p' : Parsed φ} {part : GoString}
    (h : parseStage P p part = some p') :
    p'.filters = (stageConditions part).foldl P.add p.filters := by
  unfold parseStage at h
  simp only at h
  split_ifs at h with hfilter hfields hsort hlimit
  · rw [sliceFrom_filter hfilter, hP, Option.bind_some, splitAnd_eq] at h
    obtain ⟨conds, hconds, rfl⟩ := Option.map_eq_some_iff.mp h
    by_cases hin : CutsInside (trimSpace (part.drop 6))
    · rw [if_pos hin] at hconds
      rw [stageConditions_of_filter hfilter, ← Option.some.inj hconds]
      rfl
    · rw [if_neg hin] at hconds
      cases hconds
  · obtain ⟨rest, -, rfl⟩ := Option.map_eq_some_iff.mp h
    rw [stageConditions_of_not hfilter]
    rfl
  · obtain ⟨rest, -, rfl⟩ := Option.map_eq_some_iff.mp h
    rw [stageConditions_of_not hfilter, filters_sortTokens]
    rfl
  · obtain ⟨rest, -, rfl⟩ := Option.map_eq_some_iff.mp h
    rw [stageConditions_of_not hfilter]
    split_ifs <;> rfl
  · obtain rfl := Option.some.inj h
    rw [stageConditions_of_not hfilter]
    rfl

end Stage

/-! ### Conditions, kept here or there -/

section Kept

variable {φ ψ : Type}

/-- The same query, its conditions kept elsewhere. -/
def Parsed.mapFilters (f : φ → ψ) (p : Parsed φ) : Parsed ψ :=
  { dataset := p.dataset, filters := f p.filters, fields := p.fields, sortBy := p.sortBy,
    sortDesc := p.sortDesc, limit := p.limit }

theorem sortTokens_mapFilters (f : φ → ψ) (toks : List GoString) : ∀ p : Parsed φ,
    toks.foldl sortToken (p.mapFilters f) = (toks.foldl sortToken p).mapFilters f := by
  induction toks with
  | nil => intro p; rfl
  | cons tok toks ih =>
    intro p
    have hstep : sortToken (p.mapFilters f) tok = (sortToken p tok).mapFilters f := by
      rw [sortToken, sortToken]
      split_ifs <;> rfl
    rw [List.foldl_cons, List.foldl_cons, hstep, ih]

variable {P : Variant φ} {P' : Variant ψ}

theorem parseStage_mapFilters (hsplit : P'.splitAnd = P.splitAnd) {f : φ → ψ}
    (hadd : ∀ s kv, f (P.add s kv) = P'.add (f s) kv) (p : Parsed φ) (part : GoString) :
    parseStage P' (p.mapFilters f) part = (parseStage P p part).map (Parsed.mapFilters f) := by
  unfold parseStage
  simp only
  split_ifs with hfilter hfields hsort hlimit
  · rw [sliceFrom_filter hfilter, hsplit, Option.bind_some, Option.bind_some]
    cases P.splitAnd (trimSpace (part.drop 6)) with
    | none => rfl
    | some conds =>
      have hfold : (conds.filterMap condition).foldl P'.add (f p.filters) =
          f ((conds.filterMap condition).foldl P.add p.filters) :=
        List.foldl_hom f fun s kv => (hadd s kv).symm
      simp only [Option.map_some, Parsed.mapFilters, hfold]
  · rw [sliceFrom_fields hfields]
    rfl
  · rw [sliceFrom_sort hsort, Option.map_some, Option.map_some, sortTokens_mapFilters,
      Option.map_some]
  · rw [sliceFrom_limit hlimit, Option.map_some, Option.map_some, Option.map_some]
    split_ifs <;> rfl
  · rfl

end Kept

/-- Entries written over an empty map are its entries exactly when no key is written twice. -/
theorem insertAll_perm_iff (kvs : List (GoString × GoString)) :
    (GoMap.insertAll ∅ kvs).toList.Perm kvs ↔ (kvs.map Prod.fst).Nodup := by
  have hkeys : ((GoMap.insertAll ∅ kvs).toList.map Prod.fst).Nodup :=
    MapRange.byKey.nodup_keys _
  constructor
  · intro hperm
    rwa [← (hperm.map Prod.fst).nodup_iff]
  · intro hnodup
    rw [List.perm_ext_iff_of_nodup hkeys.of_map hnodup.of_map]
    rintro ⟨k, v⟩
    rw [Std.ExtTreeMap.mem_toList_iff_getElem?_eq_some]
    exact GoMap.getElem?_insertAll_of_nodup hnodup k v

/-! ### A whole query -/

theorem parseWith_eq {φ : Type} (P : Variant φ) (q : GoString) :
    parseWith P q = (datasetClause P (firstStage q)).bind fun dataset =>
      (laterStages q).foldlM (parseStage P) { dataset := dataset, filters := P.empty } := rfl

/-- Behind the end of a stage there is no word. -/
theorem fields_drop_of_le {part : GoString} {n : ℕ} (h : part.length ≤ n) :
    fields (trimPrefix (trimSpace (part.drop n)) (str "=")) = [] := by
  rw [List.drop_eq_nil_of_le h]
  rfl

theorem datasetClause_ngx_returns_iff (q : GoString) :
    (∃ d, datasetClause ngxVariant (firstStage q) = some d) ↔ DatasetInside q := by
  rw [datasetClause, DatasetInside]
  cases index (str "dataset") (toLower (firstStage q)) with
  | none => simp
  | some idx =>
    simp only [Option.some.injEq, forall_eq']
    rw [sliceFrom]
    split_ifs with hin
    · exact iff_of_true ⟨_, rfl⟩ hin
    · exact iff_of_false (by simp) hin

/-- A name behind the word, and the parsers read the same one. -/
theorem datasetClause_service (q : GoString) (h : DatasetNamed q) :
    datasetClause serviceVariant (firstStage q) = datasetClause ngxVariant (firstStage q) := by
  rw [datasetClause, datasetClause]
  cases hidx : index (str "dataset") (toLower (firstStage q)) with
  | none => rfl
  | some idx =>
    simp only
    rw [sliceFrom]
    split_ifs with hin
    · obtain ⟨w, ws, hw⟩ := List.exists_cons_of_ne_nil (h idx hidx)
      rw [Option.bind_some, Option.bind_some, hw]
      rfl
    · rfl

/-- No name behind the word, and `parseXQL` panics. -/
theorem datasetClause_service_none {q : GoString} (h : ¬DatasetNamed q) :
    datasetClause serviceVariant (firstStage q) = none := by
  unfold DatasetNamed at h
  push Not at h
  obtain ⟨idx, hidx, hnone⟩ := h
  rw [datasetClause, hidx]
  simp only
  rw [sliceFrom]
  split_ifs with hin
  · rw [Option.bind_some, hnone]
    rfl
  · rfl

/-- **When `parseXQLForNgx` returns.** -/
theorem parseXQLForNgx_returns_iff (q : GoString) :
    (∃ p, parseXQLForNgx q = some p) ↔ DatasetInside q ∧ FiltersInside q := by
  rw [parseXQLForNgx, parseWith_eq, ← datasetClause_ngx_returns_iff]
  have hstages := PartialFold.returns_iff
    (parseStage_returns_iff (P := ngxVariant) (funext fun _ => rfl)) (laterStages q)
  cases hd : datasetClause ngxVariant (firstStage q) with
  | none => simp
  | some d =>
    rw [Option.bind_some]
    exact (hstages _).trans ⟨fun h => ⟨⟨d, rfl⟩, h⟩, fun h => h.2⟩

theorem foldl_add_ngx (kvs : List (GoString × GoString)) : ∀ l : List (GoString × GoString),
    kvs.foldl ngxVariant.add l = l ++ kvs := by
  induction kvs with
  | nil => intro l; exact l.append_nil.symm
  | cons kv kvs ih =>
    intro l
    rw [List.foldl_cons, ih]
    exact List.append_assoc l [kv] kvs

/-- The conditions it returns are those of the text. -/
theorem parseXQLForNgx_filters {q : GoString} {p : Parsed (List (GoString × GoString))}
    (h : parseXQLForNgx q = some p) : p.filters = queryConditions q := by
  rw [parseXQLForNgx, parseWith_eq] at h
  obtain ⟨d, -, hfold⟩ := Option.bind_eq_some_iff.mp h
  have hproj := PartialFold.proj_foldlM Parsed.filters
    (fun l part => (stageConditions part).foldl ngxVariant.add l)
    (fun h => parseStage_filters (funext fun _ => rfl) h) hfold
  rw [hproj, ← List.foldl_flatMap, foldl_add_ngx]
  rfl

/-- **What `parseXQL` returns**: what `parseXQLForNgx` does, the conditions in a map. -/
theorem parseXQL_eq {q : GoString} (h : DatasetNamed q) :
    parseXQL q = (parseXQLForNgx q).map (Parsed.mapFilters (GoMap.insertAll ∅)) := by
  have hadd : ∀ (l : List (GoString × GoString)) (kv : GoString × GoString),
      GoMap.insertAll ∅ (ngxVariant.add l kv) =
        serviceVariant.add (GoMap.insertAll ∅ l) kv := by
    intro l kv
    exact List.foldl_append
  rw [parseXQL, parseXQLForNgx, parseWith_eq, parseWith_eq, datasetClause_service q h]
  cases datasetClause ngxVariant (firstStage q) with
  | none => rfl
  | some d =>
    rw [Option.bind_some, Option.bind_some]
    exact PartialFold.foldlM_hom
      (@parseStage_mapFilters _ _ ngxVariant serviceVariant rfl _ hadd) (laterStages q)
      { dataset := d, filters := [] }

theorem parseXQL_eq_none {q : GoString} (h : ¬DatasetNamed q) : parseXQL q = none := by
  rw [parseXQL, parseWith_eq, datasetClause_service_none h]
  rfl

/-- A query whose dataset is named has the word inside. -/
theorem DatasetNamed.inside {q : GoString} (h : DatasetNamed q) : DatasetInside q := by
  intro idx hidx
  by_contra hout
  exact h idx hidx (fields_drop_of_le (by omega))

/-! ### Agreement -/

/-- The two parsers return the same: the dataset, the conditions, whose order a map does not keep,
the fields, the sort key and its direction, and the limit. -/
structure Agree (p : Parsed (GoMap GoString)) (p' : Parsed (List (GoString × GoString))) :
    Prop where
  dataset : p.dataset = p'.dataset
  filters : p.filters.toList.Perm p'.filters
  fields : p.fields = p'.fields
  sortBy : p.sortBy = p'.sortBy
  sortDesc : p.sortDesc = p'.sortDesc
  limit : p.limit = p'.limit

/-- Both parsers return, and agree. -/
def SameLanguage (q : GoString) : Prop :=
  ∃ p p', parseXQL q = some p ∧ parseXQLForNgx q = some p' ∧ Agree p p'

theorem SameLanguage.named {q : GoString} (h : SameLanguage q) : DatasetNamed q := by
  obtain ⟨p, p', hp, -, -⟩ := h
  by_contra hnot
  rw [parseXQL_eq_none hnot] at hp
  cases hp

theorem SameLanguage.nodup {q : GoString} (h : SameLanguage q) :
    ((queryConditions q).map Prod.fst).Nodup := by
  have hnamed := h.named
  obtain ⟨p, p', hp, hp', hagree⟩ := h
  rw [parseXQL_eq hnamed, hp'] at hp
  obtain rfl := Option.some.inj hp
  rw [← parseXQLForNgx_filters hp', ← insertAll_perm_iff]
  exact hagree.filters

/-- **The queries the two parsers agree on**: those that name their dataset where they have the
word, whose separators lower-casing leaves inside the filter expressions, and that name no field
twice. -/
theorem parsers_agree_iff (q : GoString) :
    SameLanguage q ↔
      DatasetNamed q ∧ FiltersInside q ∧ ((queryConditions q).map Prod.fst).Nodup := by
  constructor
  · intro h
    obtain ⟨p, p', -, hp', -⟩ := id h
    exact ⟨h.named, ((parseXQLForNgx_returns_iff q).mp ⟨p', hp'⟩).2, h.nodup⟩
  · rintro ⟨hnamed, hfilters, hnodup⟩
    obtain ⟨p', hp'⟩ := (parseXQLForNgx_returns_iff q).mpr ⟨hnamed.inside, hfilters⟩
    refine ⟨p'.mapFilters (GoMap.insertAll ∅), p', by rw [parseXQL_eq hnamed, hp']; rfl, hp', ?_⟩
    rw [← parseXQLForNgx_filters hp', ← insertAll_perm_iff] at hnodup
    exact ⟨rfl, hnodup, rfl, rfl, rfl, rfl⟩

/-- Without a name behind the word only one parser returns; a field named twice has two conditions
in the one result and one in the other; and a letter that is longer in lower case makes both slice
out of range. -/
theorem not_sameLanguage :
    ¬SameLanguage (str "dataset = | filter host = \"a\"") ∧
      ¬SameLanguage (str "dataset = d | filter host = \"a\" and host = \"b\"") ∧
        ¬SameLanguage (str "dataset = d | filter ȺȺ and x") := by
  refine ⟨fun h => ?_, fun h => ?_, ?_⟩
  · exact absurd (h.named 0 (by decide +kernel)) (by decide +kernel)
  · exact absurd h.nodup (by decide +kernel)
  · rintro ⟨-, p', -, hp', -⟩
    have hnone : (parseXQLForNgx (str "dataset = d | filter ȺȺ and x")).isNone = true := by
      decide +kernel
    rw [hp'] at hnone
    cases hnone

end Query

end Xsiam
