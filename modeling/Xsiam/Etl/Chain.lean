import Xsiam.Etl.Applied

/-!
# The sequential pass as a fold

`Process` first collects the sequential rules that match and then applies them, so the
matching and the applying are two walks over the rule list. Read as one walk, a rule
meets two entries when its turn comes: the one that arrived, and the one the rules
before it left. `Xsiam.Etl.Pipeline.seqFold` is that walk, for any choice of the entry
the criteria are evaluated on.

* `Process` is the fold that *matches* the arriving entry and *executes* on the current
  one (`Xsiam.Etl.Pipeline.route_eq_fold`, first half);
* it is the fold that does both on the current entry as long as no rule that is reached
  tells the two apart (second half), and not beyond: a rule that looks for a dataset
  which an earlier rule sets is skipped
  (`Xsiam.Etl.Pipeline.setDataset_unseen`).
-/

namespace Xsiam

namespace Etl

open Go

namespace Pipeline

variable (p : Pipeline)

/-! ### One walk for both passes -/

section Fold

/-- Whether a rule is a sequential one that matches an entry. -/
def seqMatches (tag : GoString) (e : LogEntry) (rule : CompiledRule) : Bool :=
  rule.processingMode = .sequential && matchesEntry p.lib rule e tag

variable (view : LogEntry → LogEntry → LogEntry) (entry : LogEntry) (tag : GoString)

/-- The sequential rules, matched one by one as they are reached. The entry a rule is
matched against is chosen by `view` from the arriving one and the current one; the
actions always run on the current one. There is no outcome when no rule matched. -/
def seqFold (rawIdx : GoString) (lastOut : Option ETLOutput) (st : ExecState)
    (current : LogEntry) : List CompiledRule → Option Outcome × ExecState
  | [] => (lastOut.map fun out => .done rawIdx out current, st)
  | rule :: rules =>
    if p.seqMatches tag (view entry current) rule then
      let rawIdx := rawAfter rule rawIdx
      if rule.rawWriteMode = .rawOnly then (some (.rawOnly rawIdx), st)
      else match p.runActions st current rule.actions with
        | (none, st) => (some .dropped, st)
        | (some current, st) => seqFold rawIdx (some rule.output) st current rules
    else seqFold rawIdx lastOut st current rules

/-- `route`, with its sequential pass replaced by the fold. -/
def routeBy (st : ExecState) : Outcome × ExecState :=
  match p.seqFold view entry tag (rawIndex tag) none st entry p.rules with
  | (some o, st) => (o, st)
  | (none, st) => p.firstMatch st entry tag p.rules

end Fold

/-- The entry that arrived. -/
def arrived : LogEntry → LogEntry → LogEntry := fun arriving _ => arriving

/-- The entry the rules before left. -/
def current : LogEntry → LogEntry → LogEntry := fun _ latest => latest

/-! ### Matching on the arriving entry -/

section Arrived

variable (entry : LogEntry) (tag : GoString)

/-- Once a rule has matched, the fold is the chain over the other rules that match. -/
theorem seqFold_arrived_some (rules : List CompiledRule) :
    ∀ (rawIdx : GoString) (lastOut : ETLOutput) (st : ExecState) (e : LogEntry),
      p.seqFold arrived entry tag rawIdx (some lastOut) st e rules =
        ((p.seqChain rawIdx lastOut st e (rules.filter (p.seqMatches tag entry))).map
          some id) := by
  induction rules with
  | nil => intro rawIdx lastOut st e; rfl
  | cons rule rules ih =>
    intro rawIdx lastOut st e
    rw [seqFold]
    by_cases hm : p.seqMatches tag entry rule = true
    · rw [if_pos (show p.seqMatches tag (arrived entry e) rule = true from hm),
        List.filter_cons_of_pos hm, seqChain]
      split_ifs with hraw
      · rfl
      · rcases p.runActions st e rule.actions with ⟨_ | e', st'⟩
        · rfl
        · exact ih (rawAfter rule rawIdx) rule.output st' e'
    · rw [if_neg (show ¬p.seqMatches tag (arrived entry e) rule = true from hm),
        List.filter_cons_of_neg hm]
      exact ih rawIdx lastOut st e

/-- Before that, it skips rules. -/
theorem seqFold_arrived_none (rules : List CompiledRule) (st : ExecState) (e : LogEntry) :
    p.seqFold arrived entry tag (rawIndex tag) none st e rules =
      if rules.filter (p.seqMatches tag entry) = [] then (none, st)
      else ((p.seqChain (rawIndex tag) {} st e
        (rules.filter (p.seqMatches tag entry))).map some id) := by
  induction rules with
  | nil => rfl
  | cons rule rules ih =>
    rw [seqFold]
    by_cases hm : p.seqMatches tag entry rule = true
    · rw [if_pos (show p.seqMatches tag (arrived entry e) rule = true from hm),
        List.filter_cons_of_pos hm, if_neg (List.cons_ne_nil _ _), seqChain]
      split_ifs with hraw
      · rfl
      · rcases p.runActions st e rule.actions with ⟨_ | e', st'⟩
        · rfl
        · exact p.seqFold_arrived_some entry tag rules (rawAfter rule (rawIndex tag))
            rule.output st' e'
    · rw [if_neg (show ¬p.seqMatches tag (arrived entry e) rule = true from hm),
        List.filter_cons_of_neg hm]
      exact ih

end Arrived

/-- `Process` is the fold that matches the arriving entry. -/
theorem route_eq_routeBy_arrived (st : ExecState) (entry : LogEntry) (tag : GoString) :
    p.route st entry tag = p.routeBy arrived entry tag st := by
  have hfold := p.seqFold_arrived_none entry tag p.rules st entry
  change _ = if p.seqMatched entry tag = [] then (none, st)
    else (p.seqChain (rawIndex tag) {} st entry (p.seqMatched entry tag)).map some id at hfold
  rw [route, routeBy]
  rw [hfold]
  by_cases hseq : p.seqMatched entry tag = []
  · rw [if_neg (not_not.mpr hseq), if_pos hseq]
  · rw [if_pos hseq, if_neg hseq]
    rfl

/-! ### When the two readings agree -/

/-- Along the rules that are reached, matching the arriving entry and matching the current
one come to the same. -/
def Settled (entry : LogEntry) (tag : GoString) (st : ExecState) (e : LogEntry) :
    List CompiledRule → Prop
  | [] => True
  | rule :: rules =>
    p.seqMatches tag e rule = p.seqMatches tag entry rule ∧
      if p.seqMatches tag entry rule then
        rule.rawWriteMode = .rawOnly ∨
          ∀ e', (p.runActions st e rule.actions).1 = some e' →
            Settled entry tag (p.runActions st e rule.actions).2 e' rules
      else Settled entry tag st e rules

theorem seqFold_current_of_settled (entry : LogEntry) (tag : GoString)
    (rules : List CompiledRule) :
    ∀ (rawIdx : GoString) (lastOut : Option ETLOutput) (st : ExecState) (e : LogEntry),
      p.Settled entry tag st e rules →
        p.seqFold current entry tag rawIdx lastOut st e rules =
          p.seqFold arrived entry tag rawIdx lastOut st e rules := by
  induction rules with
  | nil => intro rawIdx lastOut st e _; rfl
  | cons rule rules ih =>
    rintro rawIdx lastOut st e ⟨hsame, hrest⟩
    rw [seqFold, seqFold]
    change (if p.seqMatches tag e rule then _ else _)
      = if p.seqMatches tag entry rule then _ else _
    rw [hsame]
    split_ifs at hrest ⊢ with hm hraw
    · rfl
    · have hgo := hrest.resolve_left hraw
      rcases hacts : p.runActions st e rule.actions with ⟨_ | e', st'⟩
      · rfl
      · rw [hacts] at hgo
        exact ih (rawAfter rule rawIdx) (some rule.output) st' e' (hgo e' rfl)
    · exact ih rawIdx lastOut st e hrest

/-- **`Process` as a fold.** The sequential rules are applied in order, each to the entry
the rules before it left, and a rule applies exactly when the *arriving* entry
satisfies its criteria. That is the fold which also matches the entry the rules before
left, as long as no rule that is reached tells the two entries apart. -/
theorem route_eq_fold (st : ExecState) (entry : LogEntry) (tag : GoString) :
    p.route st entry tag = p.routeBy arrived entry tag st ∧
      (p.Settled entry tag st entry p.rules →
        p.route st entry tag = p.routeBy current entry tag st) := by
  refine ⟨p.route_eq_routeBy_arrived st entry tag, fun hsettled => ?_⟩
  rw [p.route_eq_routeBy_arrived]
  unfold routeBy
  rw [p.seqFold_current_of_settled entry tag p.rules _ _ _ _ hsettled]

/-! ### Where they do not -/

/-- A rule that sets the dataset, and one for the entries of that dataset. -/
def setThenMatchDataset : Pipeline where
  lib := literalLib
  rules :=
    [openRule .sequential .both [textAction .setDataset [("dataset", "dns")]]
        { ngxIndex := str "etl_set" },
      { openRule .sequential .both [] { ngxIndex := str "etl_dns" } with
        matchCriteria := { dataset := [str "dns"] } }]
  executor := some plainExecutor

/-- The second rule matches what the first one leaves, and is not applied to it. -/
theorem setDataset_unseen :
    setThenMatchDataset.route .init (entryWith (str "t") []) (str "tag") ≠
      setThenMatchDataset.routeBy current (entryWith (str "t") []) (str "tag") .init := by
  have hcode : (setThenMatchDataset.route .init (entryWith (str "t") []) (str "tag")).1 =
      .done (rawIndex (str "tag")) { ngxIndex := str "etl_set" }
        { entryWith (str "t") [] with dataset := str "dns" } := rfl
  have hfold : (setThenMatchDataset.routeBy current (entryWith (str "t") []) (str "tag")
      .init).1 = .done (rawIndex (str "tag")) { ngxIndex := str "etl_dns" }
        { entryWith (str "t") [] with dataset := str "dns" } := rfl
  intro heq
  rw [heq, hfold] at hcode
  simp at hcode

end Pipeline

end Etl

end Xsiam
