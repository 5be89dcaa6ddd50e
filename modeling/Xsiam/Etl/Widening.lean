import Xsiam.Query.SplitAnd
import Xsiam.Etl.Applied

/-!
# What an author writes, and what a rule matches

A rule should match no more than its author wrote. Compiling it swallows errors in three
places: a glob that `path.Match` rejects becomes the one that matches every tag, a
condition that does not parse is left out, and so is one in the condition of a sink. What
is left out can no longer hold anything back.

What the author wrote is read off the text here (`Xsiam.Etl.writtenParts`): the conditions
stand between separators in any letter case, a value in quotes is one value, and a
condition is cut at the first operator in it. Where the parser reads an expression like
that (`Xsiam.Etl.AsWritten`), a rule and its sinks let through only what was meant exactly
when everything parses, or nothing gets through at all
(`Xsiam.Etl.neverWidens_iff`).
-/

namespace Xsiam

namespace Etl

open Go Separator

/-! ### The conditions of an expression -/

/-- Where a reader of an expression is: in the open, behind an operator, or in quotes. -/
inductive Reading where
  | plain
  | value
  | quoted (q : UInt8)

/-- Where a reader is behind a byte in the open: an operator ends in one of three
bytes. -/
def Reading.after (b : UInt8) : Reading :=
  if b = 0x3D ∨ b = 0x3C ∨ b = 0x3E then .value else .plain

/-- An expression with every byte of a quoted value blotted out. A quote opens a value
behind an operator, and only if it is closed again. -/
def mask : Reading → GoString → GoString
  | _, [] => []
  | .quoted q, b :: bs => 0 :: mask (if b = q then .plain else .quoted q) bs
  | .plain, b :: bs => b :: mask (.after b) bs
  | .value, b :: bs =>
    if b = 0x20 then b :: mask .value bs
    else if (b = 0x22 ∨ b = 0x27) ∧ b ∈ bs then 0 :: mask (.quoted b) bs
    else b :: mask (.after b) bs

theorem length_mask (s : GoString) : ∀ m : Reading, (mask m s).length = s.length := by
  induction s with
  | nil => intro m; cases m <;> rfl
  | cons b bs ih =>
    intro m
    cases m with
    | plain => simp [mask, ih]
    | quoted q => simp [mask, ih]
    | value =>
      rw [mask]
      split_ifs <;> simp [ih]

/-- The offsets of the separators that stand outside of quotes. -/
def writtenCuts (expr : GoString) : List ℕ := cuts andSep ((mask .plain expr).map lowerByte)

/-- The conditions an expression is written with. -/
def writtenParts (expr : GoString) : List GoString :=
  ((Query.piecesFrom (trimSpace expr) 0 (writtenCuts (trimSpace expr))).map trimSpace).filter
    (· ≠ [])

/-! ### The operator of a condition -/

/-- The operator a text starts with, the longest of those it does. -/
def opAt (s : GoString) : Option FilterOp := conditionOps.find? fun op => hasPrefix s op.text

/-- The operator a condition is written with: the first one in it. -/
def writtenOp : GoString → Option FilterOp
  | [] => none
  | b :: bs => (opAt (b :: bs)).or (writtenOp bs)

/-- A condition has an operator, with a field before it. -/
def offers (part : GoString) (op : FilterOp) : Bool :=
  match index op.text part with
  | none => false
  | some idx => idx ≠ 0 ∧ trimSpace (part.take idx) ≠ []

/-- A condition, cut at an operator. `none` where the operator is not in it, or takes a
regular expression and is given none. -/
def conditionAt (lib : StdLib) (part : GoString) (op : FilterOp) : Option FilterCondition :=
  (index op.text part).bind fun idx =>
    let field := trimSpace (part.take idx)
    let value := trim (trimSpace (part.drop (idx + op.text.length))) (str "\"'")
    match op with
    | .regex => (lib.regexpCompile value).map fun re => { field, op, value, compiled := some re }
    | _ => some { field, op, value, compiled := none }

/-- A condition as it is written. -/
def readCondition (lib : StdLib) (part : GoString) : Option FilterCondition :=
  ((writtenOp part).filter (offers part)).bind (conditionAt lib part)

/-- The parser cuts a condition at the first operator of its own list that it offers. -/
theorem parseConditionFrom_eq (lib : StdLib) (s : GoString) (ops : List FilterOp) :
    parseConditionFrom lib s ops = (ops.find? (offers s)).bind (conditionAt lib s) := by
  induction ops with
  | nil => rfl
  | cons op ops ih =>
    rw [parseConditionFrom, ih]
    rcases hidx : index op.text s with _ | idx
    · rw [List.find?_cons_of_neg (by simp [offers, hidx])]
    · by_cases hno : idx = 0 ∨ trimSpace (s.take idx) = []
      · have hoffer : ¬offers s op = true := by
          simpa [offers, hidx, Classical.or_iff_not_imp_left] using hno
        rw [List.find?_cons_of_neg hoffer]
        simp only [if_pos hno]
      · have hoffer : offers s op = true := by
          simpa [offers, hidx, not_or] using hno
        rw [List.find?_cons_of_pos hoffer]
        simp only [if_neg hno]
        cases op <;> simp [conditionAt, hidx]

/-- **An expression is read as it is written**: lower-casing shows a separator exactly where
there is one outside of quotes, and of the operators in a condition the parser takes the
first. -/
structure AsWritten (expr : GoString) : Prop where
  cuts : cuts andSep (toLower (trimSpace expr)) = writtenCuts (trimSpace expr)
  ops : ∀ part ∈ writtenParts expr,
    conditionOps.find? (offers part) = (writtenOp part).filter (offers part)

instance (expr : GoString) : Decidable (AsWritten expr) :=
  decidable_of_iff (_ ∧ _) ⟨fun h => ⟨h.1, h.2⟩, fun h => ⟨h.cuts, h.ops⟩⟩

theorem AsWritten.parseCondition {expr : GoString} (h : AsWritten expr) (lib : StdLib)
    {part : GoString} (hpart : part ∈ writtenParts expr) :
    parseCondition lib part = readCondition lib part := by
  rw [Etl.parseCondition, parseConditionFrom_eq, h.ops part hpart]
  rfl

/-- What the parser makes of such an expression: the conditions that parse. -/
theorem AsWritten.parseFilterExpr {expr : GoString} (h : AsWritten expr) (lib : StdLib) :
    parseFilterExpr lib expr = some ((writtenParts expr).filterMap (readCondition lib)) := by
  have hinside : Query.CutsInside (trimSpace expr) := by
    intro o ho
    rw [h.cuts] at ho
    have hpre := (prefix_of_mem_cutsFrom ho).2
    have hlen := hpre.length_le
    rw [andSep_length, List.length_drop, List.length_map, length_mask] at hlen
    omega
  have hsplit := (Query.splitAnd_eq_splitAND (trimSpace expr)).1
  rw [Query.splitAnd_eq, if_pos hinside, Query.pieces, h.cuts] at hsplit
  rw [Etl.parseFilterExpr, ← hsplit]
  split_ifs with hempty
  · -- an empty expression has no conditions
    rw [writtenParts, hempty]
    rfl
  · exact congrArg some (List.filterMap_congr fun part hpart => h.parseCondition lib hpart)

/-! ### What the author meant -/

section Meaning

variable (lib : StdLib)

/-- An entry satisfies a condition as it is written. -/
def Holds (part : GoString) (e : LogEntry) : Prop :=
  ∃ c, readCondition lib part = some c ∧ c.matches lib e = true

/-- Every condition of an expression parses. -/
def ExprParses (expr : GoString) : Prop :=
  ∀ part ∈ writtenParts expr, (readCondition lib part).isSome

/-- What an expression admits: nothing where a condition does not parse, and otherwise what
satisfies one of the conditions or all of them. -/
def ExprAdmits (orMode : Bool) (expr : GoString) (e : LogEntry) : Prop :=
  ExprParses lib expr ∧
    if orMode then writtenParts expr = [] ∨ ∃ part ∈ writtenParts expr, Holds lib part e
    else ∀ part ∈ writtenParts expr, Holds lib part e

/-- What passes the conditions of an expression that parse. -/
def ExprPasses (orMode : Bool) (expr : GoString) (e : LogEntry) : Prop :=
  let conds := (writtenParts expr).filterMap (readCondition lib)
  if orMode then conds = [] ∨ ∃ c ∈ conds, c.matches lib e = true
  else ∀ c ∈ conds, c.matches lib e = true

instance (expr : GoString) : Decidable (ExprParses lib expr) :=
  inferInstanceAs (Decidable (∀ part ∈ _, _))

/-- A glob parses, or there is none. -/
def GlobParses (pattern : GoString) : Prop := pattern = [] ∨ (lib.pathMatch pattern []).isSome

/-- The mode of a rule. -/
def orMode (r : ETLRule) : Bool := toLower r.matchCriteria.filterMode = str "or"

/-- The whitelists of a rule let an entry through. -/
def Whitelisted (r : ETLRule) (e : LogEntry) : Prop :=
  (r.matchCriteria.dataset = [] ∨ e.dataset ∈ r.matchCriteria.dataset) ∧
    (r.matchCriteria.kind = [] ∨ e.kind ∈ r.matchCriteria.kind)

/-- What the author of a rule meant it to match. -/
structure RuleAdmits (r : ETLRule) (e : LogEntry) (tag : GoString) : Prop where
  whitelisted : Whitelisted r e
  globParses : GlobParses lib r.matchCriteria.tagPattern
  glob : r.matchCriteria.tagPattern = [] ∨
    lib.pathMatch r.matchCriteria.tagPattern tag = some true
  filter : ExprAdmits lib (orMode r) r.matchCriteria.filterExpr e

/-- What passes the criteria of a rule that parse. -/
structure RulePasses (r : ETLRule) (e : LogEntry) (tag : GoString) : Prop where
  whitelisted : Whitelisted r e
  glob : GlobParses lib r.matchCriteria.tagPattern → r.matchCriteria.tagPattern = [] ∨
    lib.pathMatch r.matchCriteria.tagPattern tag = some true
  filter : ExprPasses lib (orMode r) r.matchCriteria.filterExpr e

/-- **A rule never matches more than its author wrote**, and no sink is routed to for more
than its condition says. -/
structure NeverWidens (r : ETLRule) : Prop where
  rule : ∀ compiled, compileRule lib r = some compiled → ∀ e tag,
    matchesEntry lib compiled e tag = true → RuleAdmits lib r e tag
  sinks : ∀ sink ∈ r.output.sinks, ∀ e results, resolveSink lib e sink = some results →
    results ≠ [] → ExprAdmits lib false sink.condition e

/-! ### What the code matches -/

variable {lib}

/-- Where everything parses, what passes is what was meant. -/
theorem exprAdmits_iff {orMode : Bool} {expr : GoString} {e : LogEntry}
    (h : ExprParses lib expr) :
    ExprAdmits lib orMode expr e ↔ ExprPasses lib orMode expr e := by
  -- the conditions are those of the parts, one for each
  have hempty : (writtenParts expr).filterMap (readCondition lib) = [] ↔ writtenParts expr = [] := by
    rw [List.filterMap_eq_nil_iff]
    refine ⟨fun hnone => List.eq_nil_iff_forall_not_mem.mpr fun part hpart => ?_,
      fun hnil part hpart => ?_⟩
    · have hparse := h part hpart
      rw [hnone part hpart] at hparse
      exact absurd hparse (by simp)
    · rw [hnil] at hpart
      exact absurd hpart (by simp)
  have hexists : (∃ c ∈ (writtenParts expr).filterMap (readCondition lib), c.matches lib e = true) ↔
      ∃ part ∈ writtenParts expr, Holds lib part e := by
    constructor
    · rintro ⟨c, hc, hmatch⟩
      obtain ⟨part, hpart, hread⟩ := List.mem_filterMap.mp hc
      exact ⟨part, hpart, c, hread, hmatch⟩
    · rintro ⟨part, hpart, c, hread, hmatch⟩
      exact ⟨c, List.mem_filterMap.mpr ⟨part, hpart, hread⟩, hmatch⟩
  have hforall : (∀ c ∈ (writtenParts expr).filterMap (readCondition lib), c.matches lib e = true) ↔
      ∀ part ∈ writtenParts expr, Holds lib part e := by
    constructor
    · intro hall part hpart
      obtain ⟨c, hread⟩ := Option.isSome_iff_exists.mp (h part hpart)
      exact ⟨c, hread, hall c (List.mem_filterMap.mpr ⟨part, hpart, hread⟩)⟩
    · intro hall c hc
      obtain ⟨part, hpart, hread⟩ := List.mem_filterMap.mp hc
      obtain ⟨c', hread', hmatch⟩ := hall part hpart
      obtain rfl := Option.some.inj (hread.symm.trans hread')
      exact hmatch
  rw [ExprAdmits, ExprPasses, hempty, hexists, hforall]
  exact and_iff_right h

theorem filterMatches_iff (r : CompiledRule) (e : LogEntry) :
    filterMatches lib r e = true ↔
      if r.filterOrMode then r.filterConds = [] ∨ ∃ c ∈ r.filterConds, c.matches lib e = true
      else ∀ c ∈ r.filterConds, c.matches lib e = true := by
  rw [filterMatches]
  by_cases hnil : r.filterConds = []
  · simp [hnil]
  · split_ifs <;> simp [hnil]

/-- A compiled rule matches what passes the criteria that parse. -/
theorem matchesEntry_iff {r : ETLRule} (h : AsWritten r.matchCriteria.filterExpr)
    {compiled : CompiledRule} (hcomp : compileRule lib r = some compiled) (e : LogEntry)
    (tag : GoString) :
    matchesEntry lib compiled e tag = true ↔ RulePasses lib r e tag := by
  rw [compileRule, h.parseFilterExpr lib] at hcomp
  obtain rfl := Option.some.inj hcomp
  -- a pattern that does not parse is compiled to none, which every tag passes
  have hglob : (compileGlob lib r.matchCriteria.tagPattern = [] ∨
      lib.pathMatch (compileGlob lib r.matchCriteria.tagPattern) tag = some true) ↔
      (GlobParses lib r.matchCriteria.tagPattern → r.matchCriteria.tagPattern = [] ∨
        lib.pathMatch r.matchCriteria.tagPattern tag = some true) := by
    rw [compileGlob, GlobParses]
    split_ifs with hparse
    · simp [hparse.1, hparse.2]
    · rw [not_and_or, not_not] at hparse
      rcases hparse with hnil | hbad
      · simp [hnil]
      · refine iff_of_true (Or.inl rfl) ?_
        rintro (hnil | hok)
        · exact Or.inl hnil
        · exact absurd hok hbad
  rw [matchesEntry]
  simp only [Bool.and_eq_true, filterMatches_iff]
  constructor
  · rintro ⟨⟨⟨hdata, hkind⟩, htag⟩, hfilter⟩
    exact ⟨⟨by simpa using hdata, by simpa using hkind⟩, hglob.mp (by simpa using htag), hfilter⟩
  · rintro ⟨⟨hdata, hkind⟩, htag, hfilter⟩
    exact ⟨⟨⟨by simpa using hdata, by simpa using hkind⟩, by simpa using hglob.mpr htag⟩, hfilter⟩

/-- A sink is routed to for what passes the conditions that parse. -/
theorem resolveSink_iff {sink : ETLSink} (h : AsWritten sink.condition) (e : LogEntry) :
    (∃ results, resolveSink lib e sink = some results ∧ results ≠ []) ↔
      (sink.ngxIndex ≠ [] ∨ sink.arangoCollection ≠ []) ∧
        ExprPasses lib false sink.condition e := by
  have hmatch : ∃ ok, sinkMatches lib sink e = some ok ∧
      (ok = true ↔ ExprPasses lib false sink.condition e) := by
    rw [sinkMatches, h.parseFilterExpr lib]
    split_ifs with hempty
    · refine ⟨true, rfl, iff_of_true rfl ?_⟩
      rw [hempty]
      exact fun c hc => absurd hc (by simp [writtenParts, writtenCuts, mask, cuts, cutsFrom,
        Query.piecesFrom, show trimSpace [] = [] from rfl])
    · exact ⟨_, rfl, by simp only [List.all_eq_true]; rfl⟩
  obtain ⟨ok, hok, hpasses⟩ := hmatch
  rw [resolveSink, ← hpasses]
  split_ifs with hnone
  · exact iff_of_false (by simp) (fun hc => hc.1.elim (· hnone.1) (· hnone.2))
  · rw [not_and_or] at hnone
    rw [hok, and_iff_right hnone]
    cases ok <;> simp

end Meaning

/-- **When a rule never matches more than its author wrote**: where its expressions are read
as they are written, exactly when everything in its criteria parses or nothing passes
those that do, and the same for each sink that names a destination. -/
theorem neverWidens_iff (lib : StdLib) (r : ETLRule) (h : AsWritten r.matchCriteria.filterExpr)
    (hsinks : ∀ sink ∈ r.output.sinks, AsWritten sink.condition) :
    NeverWidens lib r ↔
      (GlobParses lib r.matchCriteria.tagPattern ∧ ExprParses lib r.matchCriteria.filterExpr ∨
        ∀ e tag, ¬RulePasses lib r e tag) ∧
      ∀ sink ∈ r.output.sinks, sink.ngxIndex ≠ [] ∨ sink.arangoCollection ≠ [] →
        ExprParses lib sink.condition ∨ ∀ e, ¬ExprPasses lib false sink.condition e := by
  have hcompile : ∃ compiled, compileRule lib r = some compiled := by
    rw [compileRule, h.parseFilterExpr lib]
    exact ⟨_, rfl⟩
  obtain ⟨compiled, hcomp⟩ := hcompile
  constructor
  · rintro ⟨hrule, hsink⟩
    refine ⟨?_, fun sink hmem hdest => ?_⟩
    · -- one entry that passes shows that everything in the criteria parses
      by_cases hpass : ∃ e tag, RulePasses lib r e tag
      · obtain ⟨e, tag, hpass⟩ := hpass
        have hadmits := hrule compiled hcomp e tag ((matchesEntry_iff h hcomp e tag).mpr hpass)
        exact Or.inl ⟨hadmits.globParses, hadmits.filter.1⟩
      · exact Or.inr fun e tag hpass' => hpass ⟨e, tag, hpass'⟩
    · by_cases hpass : ∃ e, ExprPasses lib false sink.condition e
      · obtain ⟨e, hpass⟩ := hpass
        obtain ⟨results, hres, hne⟩ := (resolveSink_iff (hsinks sink hmem) e).mpr ⟨hdest, hpass⟩
        exact Or.inl (hsink sink hmem e results hres hne).1
      · exact Or.inr fun e hpass' => hpass ⟨e, hpass'⟩
  · rintro ⟨hrule, hsink⟩
    constructor
    · intro compiled' hcomp' e tag hmatch
      have hpass := (matchesEntry_iff h hcomp' e tag).mp hmatch
      rcases hrule with ⟨hglob, hparses⟩ | hnone
      · exact ⟨hpass.whitelisted, hglob, hpass.glob hglob, (exprAdmits_iff hparses).mpr hpass.filter⟩
      · exact absurd hpass (hnone e tag)
    · intro sink hmem e results hres hne
      obtain ⟨hdest, hpass⟩ :=
        (resolveSink_iff (hsinks sink hmem) e).mp ⟨results, hres, hne⟩
      rcases hsink sink hmem hdest with hparses | hnone
      · exact (exprAdmits_iff hparses).mpr hpass
      · exact absurd hpass (hnone e)

/-- Neither expression is read as it is written: in the one the separator is in quotes, in
the other the parser prefers the operator in the value. -/
example : ¬AsWritten (str "user='a and b'") ∧ ¬AsWritten (str "url=a!=b") := by decide +kernel

/-- A rule for DNS events of one host, with a sink for those of one agent. -/
def dnsRule : ETLRule where
  ruleID := str "r"
  matchCriteria := { tagPattern := str "sysmon", filterExpr := str "kind=dns AND hostname='a'" }
  output := { sinks := [{ ngxIndex := str "i", condition := str "agent_id~=7 and src_ip!=x" }] }

/-- Everything in the rule parses, so it matches what it says. -/
theorem neverWidens_iff_dns : NeverWidens literalLib dnsRule := by
  have hparses : ExprParses literalLib dnsRule.matchCriteria.filterExpr := by decide +kernel
  have hglob : GlobParses literalLib dnsRule.matchCriteria.tagPattern := Or.inr rfl
  have hsink : ∀ sink ∈ dnsRule.output.sinks, AsWritten sink.condition := by decide +kernel
  refine (neverWidens_iff literalLib dnsRule (by decide +kernel) hsink).mpr
    ⟨Or.inl ⟨hglob, hparses⟩, fun sink hmem _ => Or.inl ?_⟩
  obtain rfl := List.mem_singleton.mp hmem
  decide +kernel

/-- A condition without an operator is left out, and the rule matches every event. -/
theorem not_neverWidens : ¬∀ lib r, NeverWidens lib r := by
  intro h
  let r : ETLRule := { ruleID := str "r", matchCriteria := { filterExpr := str "severity high" } }
  have hwritten : AsWritten r.matchCriteria.filterExpr := by decide +kernel
  have hbad : ¬ExprParses literalLib r.matchCriteria.filterExpr := by decide +kernel
  have hnone : (writtenParts r.matchCriteria.filterExpr).filterMap (readCondition literalLib) = [] := by
    decide +kernel
  obtain ⟨compiled, hcomp⟩ : ∃ compiled, compileRule literalLib r = some compiled := by
    rw [compileRule, hwritten.parseFilterExpr literalLib]
    exact ⟨_, rfl⟩
  have hpass : RulePasses literalLib r (entryWith (str "t") []) (str "tag") := by
    refine ⟨⟨Or.inl rfl, Or.inl rfl⟩, fun _ => Or.inl rfl, ?_⟩
    rw [ExprPasses, hnone]
    exact fun c hc => absurd hc (by simp)
  have hadmits := (h literalLib r).rule compiled hcomp _ _
    ((matchesEntry_iff hwritten hcomp _ _).mpr hpass)
  exact hbad hadmits.filter.1

end Etl

end Xsiam
