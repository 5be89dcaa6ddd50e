import Xsiam.Lib.Quoting
import Xsiam.Query.Translate

/-!
# Reading a search back

What a translated query asks for, read from its text alone: the name of the index, and for each
`where` stage the conditions in it, alternatives of conditions that hold together
(`Xsiam.Query.readSearch`). A condition is a name, `=` and a quoted string; a name is a word without
white space and punctuation that is no operator.

A translation reads back as its conditions and nothing else exactly when every name in it is a name
and every value can stand between quotes (`Xsiam.Query.injectionFree_iff`): the reader never returns
anything but such names and values, and the parser lets no bar through that could begin a stage of
its own.
-/

namespace Xsiam

namespace Query

open Go Quoting

/-! ### The reader -/

/-- A condition: a field and its value. -/
abbrev Cond := GoString × GoString

/-- What a search asks for: an index, and for each `where` stage its alternatives. -/
structure Search where
  index : GoString
  clauses : List (List (List Cond))
deriving DecidableEq

/-- A byte of a name. -/
def nameByte (b : UInt8) : Bool := 0x20 < b.toNat ∧ b ∉ str "\"'=<>!()[],|"

/-- A name: a word that is no operator. -/
def IsName (s : GoString) : Prop :=
  s ≠ [] ∧ (∀ b ∈ s, nameByte b = true) ∧
    s.map lowerByte ∉ [str "and", str "or", str "not"]

instance (s : GoString) : Decidable (IsName s) := inferInstanceAs (Decidable (_ ∧ _ ∧ _))

/-- A value that can stand between double quotes. -/
abbrev IsValue (s : GoString) : Prop := Quotable (0x22 : UInt8) 0x5C s

instance (s : GoString) : Decidable (IsValue s) :=
  decidable_of_iff _ (quotable_iff (by decide) s)

/-- A condition that is written the way a search has it. -/
def IsCond (c : Cond) : Prop := IsName c.1 ∧ IsValue c.2

instance (c : Cond) : Decidable (IsCond c) := inferInstanceAs (Decidable (_ ∧ _))

/-- Nothing but blanks. -/
def Blank (s : GoString) : Prop := ∀ b ∈ s, b = 0x20

instance (s : GoString) : Decidable (Blank s) := inferInstanceAs (Decidable (∀ b ∈ s, _))

/-- The name in front of a text, and what is behind it. -/
def readName (s : GoString) : Option (GoString × GoString) :=
  if IsName (s.takeWhile nameByte) then some (s.takeWhile nameByte, s.dropWhile nameByte) else none

/-- The condition in front of a text, and what is behind it. -/
def readCond (s : GoString) : Option (Cond × GoString) :=
  (readName s).bind fun name =>
    (cutPrefix name.2 (str "=\"")).bind fun rest =>
      (readBody 0x22 0x5C rest).map fun value => ((name.1, value.1), value.2)

/-- The conditions of a `where` stage: alternatives of conditions that hold together. The counter
is the number of bytes left, of which every condition takes some. -/
def readClause : ℕ → GoString → Option (List (List Cond))
  | 0, _ => none
  | n + 1, s =>
    (readCond s).bind fun cond =>
      if Blank cond.2 then some [[cond.1]]
      else match cutPrefix cond.2 (str " AND ") with
        | some rest =>
          (readClause n rest).map fun alts => (cond.1 :: alts.headD []) :: alts.tail
        | none =>
          (cutPrefix cond.2 (str " OR ")).bind fun rest =>
            (readClause n rest).map fun alts => [cond.1] :: alts

/-- The clauses of a stage: one if it is a `where` stage. -/
def readStage (s : GoString) : Option (List (List (List Cond))) :=
  match cutPrefix (s.dropWhile (· = 0x20)) (str "where ") with
  | some rest => (readClause rest.length rest).map ([·])
  | none => some []

/-- The clauses of the stages. -/
def readStages : List GoString → Option (List (List (List Cond)))
  | [] => some []
  | s :: ss => (readStage s).bind fun cs => (readStages ss).map (cs ++ ·)

/-- What a search asks for. -/
def readSearch (s : GoString) : Option Search :=
  let stages := cut 0x22 0x5C bar .outside s
  (cutPrefix stages.1 (str "search index=")).bind fun rest =>
    (readName rest).bind fun name =>
      if Blank name.2 then (readStages stages.2).map fun cs => ⟨name.1, cs⟩ else none

/-- The search for an index and conditions that all hold. -/
def Search.exactly (index : GoString) (conds : List Cond) : Search :=
  ⟨index, conds.map fun c => [[c]]⟩

/-! ### What the reader returns -/

theorem readName_isName {s : GoString} {r : GoString × GoString} (h : readName s = some r) :
    IsName r.1 := by
  rw [readName] at h
  split_ifs at h with hname
  rw [← Option.some.inj h]
  exact hname

theorem readCond_isCond {s : GoString} {r : Cond × GoString} (h : readCond s = some r) :
    IsCond r.1 := by
  obtain ⟨name, hname, h⟩ := Option.bind_eq_some_iff.mp h
  obtain ⟨rest, -, h⟩ := Option.bind_eq_some_iff.mp h
  obtain ⟨value, hvalue, rfl⟩ := Option.map_eq_some_iff.mp h
  have hn := readName_isName hname
  exact ⟨hn, (quotable_of_readBody hvalue).2⟩

/-- Every condition in a clause is one. -/
def ClauseOk (alts : List (List Cond)) : Prop := ∀ conj ∈ alts, ∀ c ∈ conj, IsCond c

theorem readClause_ok (n : ℕ) : ∀ {s : GoString} {alts : List (List Cond)},
    readClause n s = some alts → ClauseOk alts := by
  induction n with
  | zero => intro s alts h; cases h
  | succ n ih =>
    intro s alts h
    obtain ⟨cond, hcond, h⟩ := Option.bind_eq_some_iff.mp h
    have hc := readCond_isCond hcond
    split_ifs at h with hblank
    · obtain rfl := Option.some.inj h
      intro conj hconj c hmem
      rw [List.mem_singleton.mp hconj] at hmem
      rw [List.mem_singleton.mp hmem]
      exact hc
    split at h
    · next rest _ =>
      -- joined to the first alternative of what is behind `AND`
      obtain ⟨alts', halts', rfl⟩ := Option.map_eq_some_iff.mp h
      have hok := ih halts'
      intro conj hconj c hmem
      rcases alts' with _ | ⟨conj', alts'⟩
      · obtain rfl : conj = [cond.1] := by simpa using hconj
        obtain rfl : c = cond.1 := by simpa using hmem
        exact hc
      rcases List.mem_cons.mp hconj with rfl | hconj
      · rcases List.mem_cons.mp hmem with rfl | hmem
        · exact hc
        · exact hok conj' List.mem_cons_self c hmem
      · exact hok conj (List.mem_cons_of_mem _ hconj) c hmem
    · obtain ⟨rest, -, h⟩ := Option.bind_eq_some_iff.mp h
      obtain ⟨alts', halts', rfl⟩ := Option.map_eq_some_iff.mp h
      intro conj hconj c hmem
      rcases List.mem_cons.mp hconj with rfl | hconj
      · obtain rfl : c = cond.1 := by simpa using hmem
        exact hc
      · exact ih halts' conj hconj c hmem

theorem readStages_ok {stages : List GoString} : ∀ {cs : List (List (List Cond))},
    readStages stages = some cs → ∀ alts ∈ cs, ClauseOk alts := by
  induction stages with
  | nil =>
    intro cs h
    obtain rfl := Option.some.inj h
    simp
  | cons s ss ih =>
    intro cs h
    obtain ⟨here, hhere, h⟩ := Option.bind_eq_some_iff.mp h
    obtain ⟨there, hthere, rfl⟩ := Option.map_eq_some_iff.mp h
    intro alts halts
    rcases List.mem_append.mp halts with halts | halts
    · rw [readStage] at hhere
      split at hhere
      · obtain ⟨alts', halts', rfl⟩ := Option.map_eq_some_iff.mp hhere
        rw [List.mem_singleton.mp halts]
        exact readClause_ok _ halts'
      · obtain rfl := Option.some.inj hhere
        cases halts
    · exact ih hthere alts halts

/-- **The reader returns names and values only.** -/
theorem readSearch_ok {s : GoString} {r : Search} (h : readSearch s = some r) :
    IsName r.index ∧ ∀ alts ∈ r.clauses, ClauseOk alts := by
  obtain ⟨rest, -, h⟩ := Option.bind_eq_some_iff.mp h
  obtain ⟨name, hname, h⟩ := Option.bind_eq_some_iff.mp h
  split_ifs at h
  obtain ⟨cs, hcs, rfl⟩ := Option.map_eq_some_iff.mp h
  exact ⟨readName_isName hname, readStages_ok hcs⟩

/-! ### Names and values are read back -/

/-- A name is read up to a byte that is not one of a name. -/
theorem readName_append {n rest : GoString} (hn : IsName n)
    (hrest : ∀ b ∈ rest.head?, nameByte b = false) :
    readName (n ++ rest) = some (n, rest) := by
  have hstop : rest.takeWhile nameByte = [] ∧ rest.dropWhile nameByte = rest := by
    rcases rest with _ | ⟨b, rest⟩
    · exact ⟨rfl, rfl⟩
    · have hb := hrest b rfl
      exact ⟨List.takeWhile_cons_of_neg (by simp [hb]), List.dropWhile_cons_of_neg (by simp [hb])⟩
  have htake : (n ++ rest).takeWhile nameByte = n := by
    rw [List.takeWhile_append_of_pos hn.2.1, hstop.1, List.append_nil]
  have hdrop : (n ++ rest).dropWhile nameByte = rest := by
    rw [List.dropWhile_append_of_pos hn.2.1, hstop.2]
  rw [readName, htake, hdrop, if_pos hn]

theorem head_blank {s : GoString} (hs : Blank s) : ∀ b ∈ s.head?, nameByte b = false := by
  intro b hb
  rw [hs b (List.mem_of_mem_head? hb)]
  rfl

/-- A condition as a search has it. -/
def condText (c : Cond) : GoString := c.1 ++ (str "=\"" ++ (c.2 ++ str "\""))

theorem readCond_condText {c : Cond} (hc : IsCond c) (rest : GoString) :
    readCond (condText c ++ rest) = some (c, rest) := by
  have hname : readName (condText c ++ rest) =
      some (c.1, str "=\"" ++ ((c.2 ++ str "\"") ++ rest)) := by
    rw [condText, List.append_assoc, List.append_assoc]
    refine readName_append hc.1 fun b hb => ?_
    obtain rfl : 0x3D = b := Option.some.inj hb
    decide
  have hbody : readBody 0x22 0x5C ((c.2 ++ str "\"") ++ rest) = some (c.2, rest) := by
    rw [List.append_assoc]
    exact readBody_of_quotable (by decide) hc.2 rest
  rw [readCond, hname, Option.bind_some, cutPrefix_eq_some.mpr rfl, Option.bind_some, hbody]
  rfl

/-- The stage of one condition is read as this condition. -/
theorem readStage_condText {c : Cond} (hc : IsCond c) {rest : GoString} (hrest : Blank rest) :
    readStage (str " where " ++ condText c ++ rest) = some [[[c]]] := by
  have hdrop : (str " where " ++ condText c ++ rest).dropWhile (· = 0x20) =
      str "where " ++ (condText c ++ rest) := rfl
  obtain ⟨n, hn⟩ : ∃ n, (condText c ++ rest).length = n + 1 := by
    obtain ⟨b, bs, hb⟩ := List.exists_cons_of_ne_nil hc.1.1
    exact ⟨(bs ++ (str "=\"" ++ (c.2 ++ str "\"")) ++ rest).length, by rw [condText, hb]; rfl⟩
  rw [readStage, hdrop, cutPrefix_eq_some.mpr rfl]
  simp only
  rw [hn, readClause, readCond_condText hc, Option.bind_some, if_pos hrest]
  rfl

/-- A stage that begins otherwise has no conditions. -/
theorem readStage_other {b : UInt8} (hb : b ≠ 0x20) (hw : b ≠ 0x77) (s : GoString) :
    readStage (0x20 :: b :: s) = some [] := by
  have hdrop : ((0x20 : UInt8) :: b :: s).dropWhile (· = 0x20) = b :: s := by
    simp [List.dropWhile, hb]
  have hcut : cutPrefix (b :: s) (str "where ") = none := by
    rw [cutPrefix, if_neg]
    rw [List.isPrefixOf_iff_prefix]
    intro hpre
    exact hw (List.cons_prefix_cons.mp hpre).1.symm
  rw [readStage, hdrop, hcut]

/-! ### The stages of a translation -/

theorem whereStage_eq (c : Cond) :
    whereStage c = [0x20] ++ bar :: (str " where " ++ condText c) := by
  rw [whereStage, condText]
  simp only [List.append_assoc]
  rfl

/-- The text of a condition closes the string it opens. -/
theorem run_condText {c : Cond} (hc : IsCond c) :
    Place.run (0x22 : UInt8) 0x5C .outside (str " where " ++ condText c) = .outside := by
  have hname : (0x22 : UInt8) ∉ str " where " ++ c.1 ++ str "=" := by
    intro hmem
    rcases List.mem_append.mp hmem with hmem | hmem
    · rcases List.mem_append.mp hmem with hmem | hmem
      · revert hmem
        decide
      · exact absurd (hc.1.2.1 _ hmem) (by decide)
    · revert hmem
      decide
  have htext : str " where " ++ condText c =
      (str " where " ++ c.1 ++ str "=") ++ 0x22 :: (c.2 ++ [0x22]) := by
    rw [condText]
    simp only [List.append_assoc]
    rfl
  rw [htext, Place.run_append, Place.run_outside hname, Place.run_quoted (by decide) hc.2]

/-- A stage outside of strings begins behind a blank and a bar. -/
theorem cut_next (s : GoString) : cut 0x22 0x5C bar .outside ([0x20] ++ bar :: s) =
    ([0x20], (cut 0x22 0x5C bar .outside s).1 :: (cut 0x22 0x5C bar .outside s).2) := rfl

theorem cut_whereStage {c : Cond} (hc : IsCond c) (hbar : bar ∉ c.1 ∧ bar ∉ c.2) (t : GoString) :
    cut 0x22 0x5C bar .outside (whereStage c ++ t) =
      ([0x20], (str " where " ++ condText c ++ (cut 0x22 0x5C bar .outside t).1) ::
        (cut 0x22 0x5C bar .outside t).2) := by
  have hstage : bar ∉ str " where " ++ condText c := by
    rw [condText]
    simp only [List.mem_append, not_or]
    exact ⟨by decide, hbar.1, by decide, hbar.2, by decide⟩
  have hnext := cut_next (str " where " ++ condText c ++ t)
  rw [cut_append hstage, run_condText hc] at hnext
  rw [whereStage_eq]
  exact hnext

/-- What is read of the stages behind some conditions is read of all stages. -/
theorem readStages_conditions {t : GoString} (hblank : Blank (cut 0x22 0x5C bar .outside t).1)
    (hread : readStages (cut 0x22 0x5C bar .outside t).2 = some []) (conds : List Cond)
    (hconds : ∀ c ∈ conds, IsCond c ∧ bar ∉ c.1 ∧ bar ∉ c.2) :
    Blank (cut 0x22 0x5C bar .outside (conds.flatMap whereStage ++ t)).1 ∧
      readStages (cut 0x22 0x5C bar .outside (conds.flatMap whereStage ++ t)).2 =
        some (conds.map fun c => [[c]]) := by
  induction conds with
  | nil => exact ⟨hblank, hread⟩
  | cons c conds ih =>
    obtain ⟨hc, hrest⟩ := List.forall_mem_cons.mp hconds
    obtain ⟨hb, hr⟩ := ih hrest
    rw [List.flatMap_cons, List.append_assoc, cut_whereStage hc.1 hc.2]
    refine ⟨by simp [Blank], ?_⟩
    rw [readStages, readStage_condText hc.1 hb, Option.bind_some, hr]
    rfl

/-- The texts of the closing stages. -/
def closingParts (p : Parsed (List Cond)) : List GoString :=
  (if p.fields ≠ [] then [str " fields " ++ join p.fields (str ",")] else []) ++
    (if p.sortBy ≠ [] then
      [(if p.sortDesc then str " sort -" else str " sort +") ++ p.sortBy]
    else []) ++
    (if 0 < p.limit then [str " head " ++ str (toString p.limit)] else [])

theorem closingStages_eq (p : Parsed (List Cond)) :
    closingStages p = (closingParts p).flatMap fun a => [0x20] ++ bar :: a := by
  have hfields : str " | fields " = [0x20] ++ bar :: str " fields " := rfl
  have hdesc : str " | sort -" = [0x20] ++ bar :: str " sort -" := rfl
  have hasc : str " | sort +" = [0x20] ++ bar :: str " sort +" := rfl
  have hhead : str " | head " = [0x20] ++ bar :: str " head " := rfl
  unfold closingStages closingParts
  split_ifs <;> simp [hfields, hdesc, hasc, hhead]

/-- A closing stage has no bar, and is no `where` stage. -/
theorem closingParts_spec {p : Parsed (List Cond)} (hp : NoBar p) :
    ∀ a ∈ closingParts p, bar ∉ a ∧ ∃ b s, a = 0x20 :: b :: s ∧ b ≠ 0x20 ∧ b ≠ 0x77 := by
  intro a ha
  rw [closingParts, List.mem_append, List.mem_append] at ha
  rcases ha with (ha | ha) | ha
  · split_ifs at ha
    · obtain rfl := List.mem_singleton.mp ha
      refine ⟨fun hbar => ?_, _, _, rfl, by decide, by decide⟩
      rcases List.mem_append.mp hbar with hbar | hbar
      · exact absurd hbar (by decide)
      · rcases mem_join hbar with hbar | ⟨f, hf, hbar⟩
        · exact absurd hbar (by decide)
        · exact hp.fields f hf hbar
    · cases ha
  · split_ifs at ha with hsort hdesc
    · obtain rfl := List.mem_singleton.mp ha
      refine ⟨fun hbar => ?_, _, _, rfl, by decide, by decide⟩
      rcases List.mem_append.mp hbar with hbar | hbar
      · exact absurd hbar (by decide)
      · exact hp.sortBy hbar
    · obtain rfl := List.mem_singleton.mp ha
      refine ⟨fun hbar => ?_, _, _, rfl, by decide, by decide⟩
      rcases List.mem_append.mp hbar with hbar | hbar
      · exact absurd hbar (by decide)
      · exact hp.sortBy hbar
    · cases ha
  · split_ifs at ha
    · obtain rfl := List.mem_singleton.mp ha
      refine ⟨fun hbar => ?_, _, _, rfl, by decide, by decide⟩
      rcases List.mem_append.mp hbar with hbar | hbar
      · exact absurd hbar (by decide)
      · -- a number has no bar
        rcases mem_str_toString hbar with h | h
        · exact absurd h (by decide)
        · exact absurd h.2 (by decide)
    · cases ha

theorem readStages_other {stages : List GoString} (h : ∀ s ∈ stages, readStage s = some []) :
    readStages stages = some [] := by
  induction stages with
  | nil => rfl
  | cons s ss ih =>
    obtain ⟨hs, hss⟩ := List.forall_mem_cons.mp h
    rw [readStages, hs, Option.bind_some, ih hss]
    rfl

/-- The closing stages have no conditions, whatever strings are left open in them. -/
theorem readStages_closing {p : Parsed (List Cond)} (hp : NoBar p) :
    Blank (cut 0x22 0x5C bar .outside (closingStages p)).1 ∧
      readStages (cut 0x22 0x5C bar .outside (closingStages p)).2 = some [] := by
  have hparts := closingParts_spec hp
  rw [closingStages_eq]
  constructor
  · rcases closingParts p with _ | ⟨a, parts⟩
    · simp [cut, Blank]
    · have hnext := cut_next (a ++ parts.flatMap fun a => [0x20] ++ bar :: a)
      have hblank : Blank [0x20] := by simp [Blank]
      rw [List.flatMap_cons]
      exact (congrArg (fun r => Blank r.1) hnext).mpr hblank
  · refine readStages_other fun s hs => ?_
    obtain ⟨a, ha, t, rfl⟩ := cut_parts (by decide) (closingParts p)
      (fun a ha => (hparts a ha).1) .outside s hs
    obtain ⟨-, b, s, rfl, hb, hw⟩ := hparts a ha
    exact readStage_other hb hw (s ++ t)

/-! ### Injection -/

/-- **A translation of names and values reads back as they are.** -/
theorem readSearch_searchText {p : Parsed (List Cond)} (hp : NoBar p) (hname : IsName p.dataset)
    (hconds : ∀ c ∈ p.filters, IsCond c) :
    readSearch (searchText p) = some (Search.exactly p.dataset p.filters) := by
  obtain ⟨hcb, hcr⟩ := readStages_closing hp
  obtain ⟨hblank, hread⟩ := readStages_conditions hcb hcr p.filters
    fun c hc => ⟨hconds c hc, hp.conditions c hc⟩
  have hhead : (0x22 : UInt8) ∉ str "search index=" ++ p.dataset := by
    intro hmem
    rcases List.mem_append.mp hmem with hmem | hmem
    · revert hmem
      decide
    · exact absurd (hname.2.1 _ hmem) (by decide)
  have hbar : bar ∉ str "search index=" ++ p.dataset := by
    rw [List.mem_append, not_or]
    exact ⟨by decide, hp.dataset⟩
  rw [readSearch, searchText, List.append_assoc, cut_append hbar, Place.run_outside hhead]
  simp only
  rw [List.append_assoc, cutPrefix_eq_some.mpr rfl, Option.bind_some,
    readName_append hname (head_blank hblank), Option.bind_some, if_pos hblank, hread]
  rfl

/-- The dataset that a query names. -/
def datasetName (q : GoString) : GoString := (datasetClause ngxVariant (firstStage q)).getD []

/-- The translation of a query, where there is one, asks for the dataset it names and its
conditions, and for nothing else. -/
def InjectionFree (q : GoString) : Prop :=
  ∀ p, parseXQLForNgx q = some p → ∀ out, translate q = some (.ok out) →
    readSearch out = some (Search.exactly p.dataset p.filters)

/-- `parseXQLForNgx` returns, and with a dataset. -/
def Accepted (q : GoString) : Prop :=
  DatasetInside q ∧ FiltersInside q ∧ datasetName q ≠ []

theorem dataset_sortTokens {φ : Type} (toks : List GoString) (p : Parsed φ) :
    (toks.foldl sortToken p).dataset = p.dataset := (sortTokens_spec toks p).2.1

theorem parseStage_dataset {p p' : Parsed (List Cond)} {part : GoString}
    (h : parseStage ngxVariant p part = some p') : p'.dataset = p.dataset := by
  unfold parseStage at h
  simp only at h
  split_ifs at h
  · obtain ⟨rest, -, h⟩ := Option.bind_eq_some_iff.mp h
    obtain ⟨conds, -, rfl⟩ := Option.map_eq_some_iff.mp h
    rfl
  · obtain ⟨rest, -, rfl⟩ := Option.map_eq_some_iff.mp h
    rfl
  · obtain ⟨rest, -, rfl⟩ := Option.map_eq_some_iff.mp h
    exact dataset_sortTokens _ p
  · obtain ⟨rest, -, rfl⟩ := Option.map_eq_some_iff.mp h
    split_ifs <;> rfl
  · rw [Option.some.inj h]

theorem parseXQLForNgx_dataset {q : GoString} {p : Parsed (List Cond)}
    (h : parseXQLForNgx q = some p) : p.dataset = datasetName q := by
  rw [parseXQLForNgx, parseWith_eq] at h
  obtain ⟨d, hd, hfold⟩ := Option.bind_eq_some_iff.mp h
  rw [datasetName, hd]
  exact PartialFold.foldlM_invariant (fun p : Parsed (List Cond) => p.dataset = d)
    (fun _ hp hs => (parseStage_dataset hs).trans hp) rfl hfold

/-- **When a translation asks for nothing but what the query says**: when the dataset it names is a
name, and so is the field of every condition, and every value can stand between quotes. -/
theorem injectionFree_iff (q : GoString) :
    InjectionFree q ↔
      (Accepted q → IsName (datasetName q) ∧ ∀ c ∈ queryConditions q, IsCond c) := by
  constructor
  · rintro h ⟨hinside, hfilters, hnamed⟩
    obtain ⟨p, hp⟩ := (parseXQLForNgx_returns_iff q).mpr ⟨hinside, hfilters⟩
    have hdataset := parseXQLForNgx_dataset hp
    have hout : translate q = some (.ok (searchText p)) := by
      rw [translate, hp, Option.map_some, if_neg (by rw [hdataset]; exact hnamed)]
    obtain ⟨hname, hclauses⟩ := readSearch_ok (h p hp _ hout)
    refine ⟨hdataset ▸ hname, fun c hc => ?_⟩
    rw [← parseXQLForNgx_filters hp] at hc
    exact hclauses [[c]] (List.mem_map_of_mem hc) [c] List.mem_cons_self c List.mem_cons_self
  · intro h p hp out hout
    rw [translate, hp, Option.map_some] at hout
    split_ifs at hout with hempty
    · cases hout
    obtain rfl := Except.ok.inj (Option.some.inj hout)
    obtain ⟨hinside, hfilters⟩ := (parseXQLForNgx_returns_iff q).mp ⟨p, hp⟩
    rw [parseXQLForNgx_dataset hp] at hempty
    obtain ⟨hname, hconds⟩ := h ⟨hinside, hfilters, hempty⟩
    rw [← parseXQLForNgx_dataset hp] at hname
    rw [← parseXQLForNgx_filters hp] at hconds
    exact readSearch_searchText (parseXQLForNgx_noBar hp) hname hconds

/-- A query whose value has quotes in it: the parser reads one condition, and the search asks for
that or for anything in any index. -/
def disjunctQuery : GoString := str "dataset = d | filter host = \"a\" OR index=\"*\""

/-- Its translation has an alternative that the query has no condition for. -/
theorem not_injectionFree :
    ∃ out, translate disjunctQuery = some (.ok out) ∧
      readSearch out = some
        ⟨str "d", [[[(str "host", str "a")], [(str "index", str "*")]]]⟩ ∧
      ¬InjectionFree disjunctQuery := by
  have hout : translate disjunctQuery = some (.ok
      (str "search index=d | where host=\"a\" OR index=\"*\" | head 100")) := by
    decide +kernel
  have hread : readSearch (str "search index=d | where host=\"a\" OR index=\"*\" | head 100") =
      some ⟨str "d", [[[(str "host", str "a")], [(str "index", str "*")]]]⟩ := by
    decide +kernel
  refine ⟨_, hout, hread, fun h => ?_⟩
  obtain ⟨p, hp, -⟩ := Option.map_eq_some_iff.mp hout
  have hexact := hread.symm.trans (h p hp _ hout)
  -- every clause of an exact search is one condition
  have hclauses := congrArg Search.clauses (Option.some.inj hexact)
  have hone : ∀ alts ∈ (Search.exactly p.dataset p.filters).clauses, alts.length = 1 := by
    intro alts halts
    obtain ⟨c, -, rfl⟩ := List.mem_map.mp halts
    rfl
  rw [← hclauses] at hone
  exact absurd (hone _ List.mem_cons_self) (by decide)

end Query

end Xsiam
