import Xsiam.Etl.Widening
import Xsiam.Query.Opening

/-!
# Conditions, printed and parsed back

A condition is printed as its field, its operator and its value, one behind the other. The parser of
conditions does not look for the first operator of the text: it looks for one operator after the
other, the longer ones first, each of them anywhere. So what it finds first may stand in the value.
And it trims the quotes of a value as long as there are any.

A field of no operator byte has no operator in it, and none begins in it. So every operator of the
text is at or behind the one that was printed (`Xsiam.Etl.offers_printed`), and a condition comes
back exactly when no operator that is tried before its own is there, and trimming takes no more than
one pair of quotes from its value (`Xsiam.Etl.parsesBack_iff`).
-/

namespace Xsiam

namespace Etl

open Go Query

/-! ### Quotes -/

/-- Whether a byte is a quote. -/
def isQuote (b : UInt8) : Bool := (str "\"'").contains b

/-- A text without the pair of quotes around it, if there is one. -/
def unquote : GoString → GoString
  | [] => []
  | q :: s => if isQuote q = true ∧ s.getLast? = some q then s.dropLast else q :: s

/-- A text that neither begins nor ends with a quote. -/
structure Bare (s : GoString) : Prop where
  first : ∀ b ∈ s.head?, isQuote b = false
  last : ∀ b ∈ s.getLast?, isQuote b = false

instance (s : GoString) : Decidable (Bare s) :=
  decidable_of_iff ((∀ b ∈ s.head?, isQuote b = false) ∧ ∀ b ∈ s.getLast?, isQuote b = false)
    ⟨fun h => ⟨h.1, h.2⟩, fun h => ⟨h.first, h.last⟩⟩

theorem isQuote_iff (b : UInt8) : isQuote b = true ↔ b = 0x22 ∨ b = 0x27 := by
  rw [isQuote, show str "\"'" = [0x22, 0x27] from rfl]
  simp

theorem visible_of_isQuote {b : UInt8} (h : isQuote b = true) : Visible b := by
  rcases (isQuote_iff b).mp h with rfl | rfl <;> decide

/-- `strings.Trim` with both quotes. -/
theorem trim_quotes (s : GoString) :
    trim s (str "\"'") = ((s.dropWhile isQuote).reverse.dropWhile isQuote).reverse := rfl

theorem dropWhile_of_first {s : GoString} (h : ∀ b ∈ s.head?, isQuote b = false) :
    s.dropWhile isQuote = s := by
  cases s with
  | nil => rfl
  | cons b s => exact List.dropWhile_cons_of_neg (by simp [h b rfl])

theorem trim_of_bare {s : GoString} (h : Bare s) : trim s (str "\"'") = s := by
  have hend : ∀ b ∈ s.reverse.head?, isQuote b = false := by
    rw [List.head?_reverse]
    exact h.last
  rw [trim_quotes, dropWhile_of_first h.first, dropWhile_of_first hend, List.reverse_reverse]

theorem first_dropWhile (s : GoString) : ∀ b ∈ (s.dropWhile isQuote).head?, isQuote b = false := by
  intro b hb
  have h := List.head?_dropWhile_not isQuote s
  rw [Option.mem_def.mp hb] at h
  simpa using h

/-- Trimmed of its quotes, a text has none at its ends. -/
theorem bare_trim (s : GoString) : Bare (trim s (str "\"'")) := by
  rw [trim_quotes]
  constructor
  · -- what is trimmed at the end leaves the first byte, or nothing
    intro b hb
    obtain ⟨t, ht⟩ := List.dropWhile_suffix (l := (s.dropWhile isQuote).reverse) isQuote
    have hfront : ((s.dropWhile isQuote).reverse.dropWhile isQuote).reverse ++ t.reverse =
        s.dropWhile isQuote := by
      rw [← List.reverse_append, ht, List.reverse_reverse]
    refine first_dropWhile s b ?_
    rw [← hfront, List.head?_append, Option.mem_def.mp hb]
    rfl
  · rw [List.getLast?_reverse]
    exact first_dropWhile _

/-- A quote at either end is trimmed. -/
theorem trim_cons_quote {q : UInt8} (hq : isQuote q = true) (s : GoString) :
    trim (q :: s) (str "\"'") = trim s (str "\"'") := by
  rw [trim_quotes, trim_quotes, List.dropWhile_cons_of_pos hq]

theorem trim_concat_quote {q : UInt8} (hq : isQuote q = true) (s : GoString) :
    trim (s ++ [q]) (str "\"'") = trim s (str "\"'") := by
  rw [trim_quotes, trim_quotes, List.dropWhile_append]
  split_ifs with hnil
  · rw [List.isEmpty_iff.mp hnil, List.dropWhile_cons_of_pos hq]
    rfl
  · rw [List.reverse_append, List.reverse_singleton, List.singleton_append,
      List.dropWhile_cons_of_pos hq]

theorem trim_unquote (s : GoString) : trim (unquote s) (str "\"'") = trim s (str "\"'") := by
  cases s with
  | nil => rfl
  | cons q s =>
    rw [unquote]
    split_ifs with h
    · obtain ⟨hq, hlast⟩ := h
      obtain ⟨m, rfl⟩ := List.getLast?_eq_some_iff.mp hlast
      rw [List.dropLast_concat, trim_cons_quote hq, trim_concat_quote hq]
    · rfl

/-- **When trimming takes no more than a pair of quotes.** -/
theorem trim_eq_unquote_iff (s : GoString) :
    trim s (str "\"'") = unquote s ↔ Bare (unquote s) := by
  refine ⟨fun h => h ▸ bare_trim s, fun h => ?_⟩
  rw [← trim_unquote, trim_of_bare h]

/-! ### Fields and operators -/

theorem FilterOp.text_equal : FilterOp.equal.text = [0x3D] := rfl

/-- Whether operators are made of a byte. -/
def isOpByte (b : UInt8) : Bool := (str "=!~<>").contains b

/-- The name of a field: trimmed, and without a byte of operators. -/
structure FieldName (f : GoString) : Prop where
  trimmed : trimSpace f = f
  noOp : ∀ b ∈ f, isOpByte b = false

instance (f : GoString) : Decidable (FieldName f) :=
  decidable_of_iff (trimSpace f = f ∧ ∀ b ∈ f, isOpByte b = false)
    ⟨fun h => ⟨h.1, h.2⟩, fun h => ⟨h.trimmed, h.noOp⟩⟩

/-- An operator begins with a byte of operators, which is visible. -/
theorem FilterOp.exists_text (op : FilterOp) :
    ∃ c cs, op.text = c :: cs ∧ isOpByte c = true ∧ Visible c := by
  cases op with
  | equal => exact ⟨0x3D, [], rfl, by decide, by decide⟩
  | notEqual => exact ⟨0x21, [0x3D], rfl, by decide, by decide⟩
  | regex => exact ⟨0x7E, [0x3D], rfl, by decide, by decide⟩
  | greater => exact ⟨0x3E, [], rfl, by decide, by decide⟩
  | less => exact ⟨0x3C, [], rfl, by decide, by decide⟩
  | greaterEqual => exact ⟨0x3E, [0x3D], rfl, by decide, by decide⟩
  | lessEqual => exact ⟨0x3C, [0x3D], rfl, by decide, by decide⟩

theorem FieldName.index_text {f : GoString} (hf : FieldName f) (op : FilterOp) (t : GoString) :
    index op.text (f ++ t) = (index op.text t).map (f.length + ·) := by
  obtain ⟨c, cs, htext, hc, -⟩ := op.exists_text
  rw [htext]
  refine Go.index_append (fun hmem => ?_) t
  rw [hf.noOp c hmem] at hc
  exact Bool.false_ne_true hc

/-- A trimmed text is trimmed at its front. -/
theorem dropWords_of_trimmed {f : GoString} (h : trimSpace f = f) : dropWords spaces 0 f = f := by
  have hend := (prefix_trimEnd (dropWords spaces 0 f)).length_le
  have heq : trimEnd (dropWords spaces 0 f) = f := h
  rw [heq] at hend
  exact (dropWords_suffix spaces f 0).eq_of_length_le hend

/-- What is behind a field and begins with a visible byte leaves it a field. -/
theorem trimSpace_append_visible {f : GoString} (hf : trimSpace f = f) {b : UInt8} (hb : Visible b)
    (t : GoString) : trimSpace (f ++ b :: t) = f ++ b :: trimEnd t := by
  have hfront := dropWords_append (spaces_visible hb) t f 0 (Nat.zero_le _)
  rw [dropWords_of_trimmed hf] at hfront
  change trimEnd (dropWords spaces 0 (f ++ b :: t)) = _
  rw [hfront, trimEnd_append hb]

/-- **Every operator of a printed condition is at or behind the one that was printed.** -/
theorem offers_printed {f : GoString} (hf : FieldName f) (hne : f ≠ []) (op op' : FilterOp)
    (value : GoString) :
    offers (f ++ (op.text ++ value)) op' = true ↔ op'.text <:+: op.text ++ value := by
  rw [offers, hf.index_text, ← isSome_index_iff]
  cases hidx : index op'.text (op.text ++ value) with
  | none => simp
  | some i =>
    -- what is before it is the field, and maybe more behind the field
    obtain ⟨c, cs, htext, -, hvis⟩ := op.exists_text
    have htake : (f ++ (op.text ++ value)).take (f.length + i) =
        f ++ (op.text ++ value).take i := List.take_length_add_append i
    have hpos : f.length + i ≠ 0 := by
      have := List.length_pos_iff.mpr hne
      omega
    have hfield : trimSpace (f ++ (op.text ++ value).take i) ≠ [] := by
      rcases i with _ | i
      · rwa [List.take_zero, List.append_nil, hf.trimmed]
      · rw [htext, List.cons_append, List.take_succ_cons, trimSpace_append_visible hf.trimmed hvis]
        simp
    simp [htake, hpos, hfield, -Nat.add_eq_zero_iff]

/-! ### The first operator that is tried -/

/-- The operators that are tried before one. -/
def triedBefore (op : FilterOp) : List FilterOp := conditionOps.takeWhile (· ≠ op)

theorem find?_eq_some_iff_takeWhile {α : Type} [DecidableEq α] {p : α → Bool} {a : α} {l : List α}
    (ha : a ∈ l) :
    l.find? p = some a ↔ p a = true ∧ ∀ b ∈ l.takeWhile (· ≠ a), ¬p b = true := by
  induction l with
  | nil => exact absurd ha List.not_mem_nil
  | cons x l ih =>
    by_cases hx : x = a
    · subst hx
      rw [List.takeWhile_cons_of_neg (by simp)]
      cases hp : p x with
      | true => simp [List.find?_cons_of_pos hp]
      | false =>
        rw [List.find?_cons_of_neg (by simp [hp])]
        refine iff_of_false (fun hfind => ?_) (by simp)
        rw [List.find?_some hfind] at hp
        cases hp
    · rw [List.takeWhile_cons_of_pos (by simpa using hx), List.forall_mem_cons]
      have hmem : a ∈ l := (List.mem_cons.mp ha).resolve_left fun h => hx h.symm
      cases hp : p x with
      | true => simp [List.find?_cons_of_pos hp, hx]
      | false => rw [List.find?_cons_of_neg (by simp [hp]), ih hmem]; simp

theorem mem_conditionOps (op : FilterOp) : op ∈ conditionOps := by cases op <;> decide

/-- What a condition that is cut at an operator has. -/
theorem conditionAt_eq_some {lib : StdLib} {s : GoString} {op : FilterOp} {c : FilterCondition}
    (h : conditionAt lib s op = some c) :
    ∃ idx, index op.text s = some idx ∧ c.field = trimSpace (s.take idx) ∧ c.op = op ∧
      c.value = trim (trimSpace (s.drop (idx + op.text.length))) (str "\"'") ∧
      (op = .regex → (lib.regexpCompile c.value).isSome = true) := by
  obtain ⟨idx, hidx, hc⟩ := Option.bind_eq_some_iff.mp h
  refine ⟨idx, hidx, ?_⟩
  cases op with
  | regex =>
    obtain ⟨re, hre, rfl⟩ := Option.map_eq_some_iff.mp hc
    exact ⟨rfl, rfl, rfl, fun _ => by simp [hre]⟩
  | _ =>
    obtain rfl := Option.some.inj hc
    exact ⟨rfl, rfl, rfl, fun h => nomatch h⟩

/-! ### Printing and parsing -/

/-- A condition, printed. -/
def printCondition (field : GoString) (op : FilterOp) (value : GoString) : GoString :=
  field ++ (op.text ++ value)

/-- A printed condition is parsed as itself: its field, its operator, and its value, trimmed and
without a pair of quotes around it. -/
def ParsesBack (lib : StdLib) (field : GoString) (op : FilterOp) (value : GoString) : Prop :=
  ∃ c, parseCondition lib (printCondition field op value) = some c ∧
    c.field = field ∧ c.op = op ∧ c.value = unquote (trimSpace value)

/-- The operator of a condition that comes back is the first one that is tried. -/
theorem find?_of_parseCondition {lib : StdLib} {s : GoString} {c : FilterCondition}
    (h : parseCondition lib s = some c) :
    conditionOps.find? (offers s) = some c.op ∧ conditionAt lib s c.op = some c := by
  rw [parseCondition, parseConditionFrom_eq] at h
  obtain ⟨op, hop, hc⟩ := Option.bind_eq_some_iff.mp h
  obtain ⟨-, -, -, rfl, -⟩ := conditionAt_eq_some hc
  exact ⟨hop, hc⟩

/-- No condition has an empty field. -/
theorem field_ne_nil {lib : StdLib} {s : GoString} {c : FilterCondition}
    (h : parseCondition lib s = some c) : c.field ≠ [] := by
  obtain ⟨hfind, hat⟩ := find?_of_parseCondition h
  obtain ⟨idx, hidx, hfield, -⟩ := conditionAt_eq_some hat
  have hoffers := List.find?_some hfind
  rw [offers, hidx] at hoffers
  rw [hfield]
  exact (by simpa using hoffers : _ ∧ _).2

/-- Cut at its own operator, a printed condition is what was printed. -/
theorem conditionAt_printed {lib : StdLib} {f : GoString} (hf : FieldName f) (op : FilterOp)
    (value : GoString) :
    (∃ c, conditionAt lib (printCondition f op value) op = some c ∧ c.field = f ∧
        c.value = unquote (trimSpace value)) ↔
      Bare (unquote (trimSpace value)) ∧
        (op = .regex → (lib.regexpCompile (unquote (trimSpace value))).isSome = true) := by
  have hself : index op.text (op.text ++ value) = some 0 := by
    obtain ⟨c, cs, htext, -⟩ := op.exists_text
    rw [htext, List.cons_append, index, if_pos]
    rw [List.isPrefixOf_iff_prefix, ← List.cons_append]
    exact List.prefix_append _ _
  have hidx : index op.text (printCondition f op value) = some f.length := by
    rw [printCondition, hf.index_text, hself]
    rfl
  have hdrop : (printCondition f op value).drop (f.length + op.text.length) = value := by
    rw [printCondition, ← List.append_assoc, ← List.length_append, List.drop_left]
  rw [← trim_eq_unquote_iff]
  constructor
  · rintro ⟨c, hc, -, hvalue⟩
    obtain ⟨idx, hidx', -, -, htrim, hregex⟩ := conditionAt_eq_some hc
    obtain rfl := Option.some.inj (hidx.symm.trans hidx')
    rw [hdrop] at htrim
    rw [hvalue] at htrim hregex
    exact ⟨htrim.symm, hregex⟩
  · rintro ⟨htrim, hregex⟩
    have htake : (printCondition f op value).take f.length = f := List.take_left
    rw [conditionAt, hidx, Option.bind_some]
    simp only [htake, hdrop, hf.trimmed, htrim]
    cases op with
    | regex =>
      obtain ⟨re, hre⟩ := Option.isSome_iff_exists.mp (hregex rfl)
      exact ⟨⟨f, .regex, unquote (trimSpace value), some re⟩, by rw [hre]; rfl, rfl, rfl⟩
    | _ => exact ⟨_, rfl, rfl, rfl⟩

/-- **The conditions that come back**: those that have a field, with no operator that is tried
before their own anywhere behind the field, whose value has no more quotes at its ends than one pair
around it, and is a regular expression where one is asked for. -/
theorem parsesBack_iff (lib : StdLib) {field : GoString} (hf : FieldName field) (op : FilterOp)
    (value : GoString) :
    ParsesBack lib field op value ↔
      field ≠ [] ∧ (∀ op' ∈ triedBefore op, ¬op'.text <:+: op.text ++ value) ∧
        Bare (unquote (trimSpace value)) ∧
          (op = .regex → (lib.regexpCompile (unquote (trimSpace value))).isSome = true) := by
  rw [← conditionAt_printed hf]
  constructor
  · rintro ⟨c, hparse, hfield, rfl, hvalue⟩
    obtain ⟨hfind, hat⟩ := find?_of_parseCondition hparse
    have hne : field ≠ [] := hfield ▸ field_ne_nil hparse
    have hfirst := ((find?_eq_some_iff_takeWhile (mem_conditionOps c.op)).mp hfind).2
    refine ⟨hne, fun op' hop' => ?_, c, hat, hfield, hvalue⟩
    rw [← offers_printed hf hne]
    exact hfirst op' hop'
  · rintro ⟨hne, hearlier, c, hat, hfield, hvalue⟩
    have hown : offers (printCondition field op value) op = true :=
      (offers_printed hf hne op op value).mpr (List.prefix_append _ _).isInfix
    have hfind : conditionOps.find? (offers (printCondition field op value)) = some op := by
      refine (find?_eq_some_iff_takeWhile (mem_conditionOps op)).mpr ⟨hown, fun op' hop' => ?_⟩
      rw [printCondition, offers_printed hf hne]
      exact hearlier op' hop'
    obtain ⟨-, -, -, hop, -⟩ := conditionAt_eq_some hat
    refine ⟨c, ?_, hfield, hop, hvalue⟩
    rw [parseCondition, parseConditionFrom_eq, hfind]
    exact hat

/-- A value with an operator that is tried later, in quotes of the other kind. -/
theorem parsesBack_later : ParsesBack literalLib (str "url") .notEqual (str " \"http://h/?q='a'=b\"") :=
  (parsesBack_iff literalLib (by decide +kernel) .notEqual _).mpr
    ⟨by decide, by decide +kernel, by decide +kernel, fun h => nomatch h⟩

/-- A value with an operator that is tried before `=`, and a value that begins with two quotes. -/
theorem not_parsesBack :
    ¬ParsesBack literalLib (str "url") .equal (str "a!=b") ∧
      ¬ParsesBack literalLib (str "note") .equal (str "\"'a' or b\"") := by
  constructor
  · rintro ⟨c, hparse, hfield, -⟩
    have hread : (parseCondition literalLib (printCondition (str "url") .equal (str "a!=b"))).map
        FilterCondition.field = some (str "url=a") := by decide +kernel
    rw [hparse, Option.map_some, hfield] at hread
    exact absurd hread (by decide +kernel)
  · rintro ⟨c, hparse, -, -, hvalue⟩
    have hread : (parseCondition literalLib
        (printCondition (str "note") .equal (str "\"'a' or b\""))).map FilterCondition.value =
          some (str "a' or b") := by decide +kernel
    rw [hparse, Option.map_some, hvalue] at hread
    exact absurd hread (by decide +kernel)

end Etl

end Xsiam
