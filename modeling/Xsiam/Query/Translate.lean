import Xsiam.Query.Parsers

/-!
# Translating a query

`NgxTranslator.Translate` (`internal/datalake/ngx_translator.go`) writes what `parseXQLForNgx` read
as a search of the lake, one stage after the other with bars between them. The fields and the values
of the conditions are pasted in as they are, the values between quotes.

Whatever a query says, nothing that is pasted has a bar in it: the parser cuts at every bar, the
ones between quotes too (`Xsiam.Query.parseXQLForNgx_noBar`).
-/

namespace Xsiam

namespace Query

open Go

/-! ### The translator -/

/-- The stage of a condition. -/
def whereStage (cond : GoString × GoString) : GoString :=
  str " | where " ++ cond.1 ++ str "=\"" ++ cond.2 ++ str "\""

/-- The stages behind those of the conditions. -/
def closingStages {φ : Type} (p : Parsed φ) : GoString :=
  (if p.fields ≠ [] then str " | fields " ++ join p.fields (str ",") else []) ++
    (if p.sortBy ≠ [] then
      (if p.sortDesc then str " | sort -" else str " | sort +") ++ p.sortBy
    else []) ++
    (if 0 < p.limit then str " | head " ++ str (toString p.limit) else [])

/-- The text that `Translate` builds. -/
def searchText (p : Parsed (List (GoString × GoString))) : GoString :=
  str "search index=" ++ p.dataset ++ p.filters.flatMap whereStage ++ closingStages p

/-- `NgxTranslator.Translate`: a search, or an error; `none` is a panic of the parser. -/
def translate (xql : GoString) : Option (Except GoString GoString) :=
  (parseXQLForNgx xql).map fun p =>
    if p.dataset = [] then
      .error (str "ngx translator: XQL must start with: dataset = <name>")
    else .ok (searchText p)

/-! ### No bar is pasted -/

/-- The byte between the stages. -/
abbrev bar : UInt8 := 0x7C

theorem bar_notMem_stage {q part : GoString} (h : part ∈ queryStages q) : bar ∉ part := by
  obtain ⟨s, hs, rfl⟩ := List.mem_map.mp h
  intro hbar
  exact notMem_of_mem_split (b := bar) hs (trimSpace_subset s hbar)

/-- What a parser read has no bar. -/
structure NoBar (p : Parsed (List (GoString × GoString))) : Prop where
  dataset : bar ∉ p.dataset
  conditions : ∀ c ∈ p.filters, bar ∉ c.1 ∧ bar ∉ c.2
  fields : ∀ f ∈ p.fields, bar ∉ f
  sortBy : bar ∉ p.sortBy

theorem condition_subset {cond : GoString} {c : GoString × GoString}
    (h : condition cond = some c) : c.1 ⊆ cond ∧ c.2 ⊆ cond := by
  unfold condition at h
  simp only at h
  split at h
  · split_ifs at h
    obtain rfl := Option.some.inj h
    refine ⟨fun x hx => ?_, fun x hx => ?_⟩
    · exact trimSpace_subset _ (List.mem_of_mem_take (trimSpace_subset _ hx))
    · exact trimSpace_subset _ (List.mem_of_mem_drop
        (trimSpace_subset _ (trim_subset _ _ hx)))
  · cases h

theorem mem_of_mem_piecesFrom {expr piece : GoString} {x : UInt8} (os : List ℕ) : ∀ start,
    piece ∈ piecesFrom expr start os → x ∈ piece → x ∈ expr := by
  induction os with
  | nil =>
    intro start h hx
    rw [piecesFrom, List.mem_singleton] at h
    subst h
    exact List.mem_of_mem_drop hx
  | cons o os ih =>
    intro start h hx
    rw [piecesFrom] at h
    rcases List.mem_cons.mp h with rfl | h
    · exact List.mem_of_mem_take (List.mem_of_mem_drop hx)
    · exact ih (o + 5) h hx

theorem stageConditions_subset {part : GoString} {c : GoString × GoString}
    (h : c ∈ stageConditions part) : c.1 ⊆ part ∧ c.2 ⊆ part := by
  by_cases hfilter : IsFilter part
  · rw [stageConditions_of_filter hfilter] at h
    obtain ⟨cond, hcond, hc⟩ := List.mem_filterMap.mp h
    have hpart : cond ⊆ part := fun x hx =>
      List.mem_of_mem_drop (trimSpace_subset _ (mem_of_mem_piecesFrom _ 0 hcond hx))
    exact ⟨fun x hx => hpart ((condition_subset hc).1 hx),
      fun x hx => hpart ((condition_subset hc).2 hx)⟩
  · rw [stageConditions_of_not hfilter] at h
    cases h

/-- The words of a sort stage: the fields stay, the sort key is one of them or stays. -/
theorem sortTokens_spec {φ : Type} (toks : List GoString) : ∀ p : Parsed φ,
    (toks.foldl sortToken p).fields = p.fields ∧
      (toks.foldl sortToken p).dataset = p.dataset ∧
      ((toks.foldl sortToken p).sortBy = p.sortBy ∨ (toks.foldl sortToken p).sortBy ∈ toks) := by
  induction toks with
  | nil => intro p; exact ⟨rfl, rfl, Or.inl rfl⟩
  | cons tok toks ih =>
    intro p
    have hstep : (sortToken p tok).fields = p.fields ∧ (sortToken p tok).dataset = p.dataset ∧
        ((sortToken p tok).sortBy = p.sortBy ∨ (sortToken p tok).sortBy = tok) := by
      rw [sortToken]
      split_ifs
      · exact ⟨rfl, rfl, Or.inl rfl⟩
      · exact ⟨rfl, rfl, Or.inl rfl⟩
      · exact ⟨rfl, rfl, Or.inr rfl⟩
    obtain ⟨hf, hd, hs⟩ := ih (sortToken p tok)
    rw [List.foldl_cons]
    refine ⟨hf.trans hstep.1, hd.trans hstep.2.1, ?_⟩
    rcases hs with hs | hs
    · rw [hs]
      rcases hstep.2.2 with h | h
      · exact Or.inl h
      · exact Or.inr (by rw [h]; exact List.mem_cons_self)
    · exact Or.inr (List.mem_cons_of_mem tok hs)

/-- A stage without a bar brings none in. -/
theorem noBar_parseStage {p p' : Parsed (List (GoString × GoString))} {part : GoString}
    (hpart : bar ∉ part) (hp : NoBar p) (h : parseStage ngxVariant p part = some p') :
    NoBar p' := by
  have hfilters := parseStage_filters (funext fun _ => rfl) h
  have hconds : ∀ c ∈ p'.filters, bar ∉ c.1 ∧ bar ∉ c.2 := by
    have hsnoc : p'.filters = p.filters ++ stageConditions part := by
      rw [hfilters]
      exact foldl_add_ngx _ _
    rw [hsnoc]
    intro c hc
    rcases List.mem_append.mp hc with hc | hc
    · exact hp.conditions c hc
    · exact ⟨fun hbar => hpart ((stageConditions_subset hc).1 hbar),
        fun hbar => hpart ((stageConditions_subset hc).2 hbar)⟩
  unfold parseStage at h
  simp only at h
  -- each stage takes what it adds from its own text
  split_ifs at h with hfilter hfields hsort hlimit
  · rw [sliceFrom_filter hfilter, Option.bind_some] at h
    obtain ⟨conds, -, rfl⟩ := Option.map_eq_some_iff.mp h
    exact ⟨hp.dataset, hconds, hp.fields, hp.sortBy⟩
  · rw [sliceFrom_fields hfields, Option.map_some] at h
    obtain rfl := Option.some.inj h
    refine ⟨hp.dataset, hconds, fun f hf => ?_, hp.sortBy⟩
    rcases List.mem_append.mp hf with hf | hf
    · exact hp.fields f hf
    · obtain ⟨g, hg, rfl⟩ := List.mem_map.mp (List.mem_filter.mp hf).1
      exact fun hbar => hpart (List.mem_of_mem_drop (trimSpace_subset _
        (mem_of_mem_split hg (trimSpace_subset _ hbar))))
  · rw [sliceFrom_sort hsort, Option.map_some] at h
    obtain rfl := Option.some.inj h
    obtain ⟨hf, hd, hs⟩ := sortTokens_spec (Go.fields (trimSpace (part.drop 4))) p
    refine ⟨by rw [hd]; exact hp.dataset, hconds, by rw [hf]; exact hp.fields, ?_⟩
    rcases hs with hs | hs
    · rw [hs]
      exact hp.sortBy
    · exact fun hbar => hpart (List.mem_of_mem_drop (trimSpace_subset _
        (mem_of_mem_fields hs hbar)))
  · rw [sliceFrom_limit hlimit, Option.map_some] at h
    obtain rfl := Option.some.inj h
    split_ifs at hconds ⊢
    · exact ⟨hp.dataset, hconds, hp.fields, hp.sortBy⟩
    · exact hp
  · obtain rfl := Option.some.inj h
    exact hp

theorem trimPrefix_subset (s w : GoString) : trimPrefix s w ⊆ s := by
  rw [trimPrefix, cutPrefix]
  split_ifs
  · exact List.drop_subset _ _
  · exact List.Subset.refl s

theorem datasetClause_subset {part d : GoString} (h : datasetClause ngxVariant part = some d) :
    d ⊆ part := by
  rw [datasetClause] at h
  split at h
  · obtain rfl := Option.some.inj h
    exact List.nil_subset part
  · next idx hidx =>
    obtain ⟨rest, hrest, h⟩ := Option.bind_eq_some_iff.mp h
    rw [sliceFrom] at hrest
    split_ifs at hrest
    obtain rfl := Option.some.inj hrest
    obtain ⟨w, hw, rfl⟩ := Option.map_eq_some_iff.mp h
    obtain rfl := Option.some.inj hw
    intro x hx
    -- the first word, or nothing
    have hword := trim_subset _ _ hx
    cases hf : Go.fields (trimPrefix (trimSpace (part.drop (idx + 7))) (str "=")) with
    | nil =>
      rw [hf] at hword
      cases hword
    | cons w ws =>
      rw [hf] at hword
      have hmem : w ∈ Go.fields (trimPrefix (trimSpace (part.drop (idx + 7))) (str "=")) := by
        rw [hf]
        exact List.mem_cons_self
      exact List.mem_of_mem_drop (trimSpace_subset _ (trimPrefix_subset _ _
        (mem_of_mem_fields hmem hword)))

/-- **No bar gets into what is parsed.** -/
theorem parseXQLForNgx_noBar {q : GoString} {p : Parsed (List (GoString × GoString))}
    (h : parseXQLForNgx q = some p) : NoBar p := by
  rw [parseXQLForNgx, parseWith_eq] at h
  obtain ⟨d, hd, hfold⟩ := Option.bind_eq_some_iff.mp h
  have hfirst : bar ∉ firstStage q := bar_notMem_stage (q := q) List.mem_cons_self
  refine PartialFold.foldlM_invariant NoBar (fun hx hp hs => ?_) ?_ hfold
  · exact noBar_parseStage (bar_notMem_stage (q := q) (List.mem_cons_of_mem _ hx)) hp hs
  · exact ⟨fun hbar => hfirst (datasetClause_subset hd hbar), by simp [ngxVariant], by simp, by simp⟩

end Query

end Xsiam
