import Xsiam.Etl.Inverses

/-!
# Splitting a value and joining it again

`split_record` puts the segments of a text next to it, as a list, and `multiline_join` makes a text of
such a list. With the same separator that is the text there was, also where segments are empty and where
the separator overlaps itself (`Xsiam.Go.join_split`).

Without a separator each of the actions takes its own: texts are split at commas, and joined by line
breaks. So a text with a comma does not come back then (`Xsiam.Etl.keepsWhole_iff`).
-/

namespace Xsiam

namespace Etl

open Go

/-- A `split_record` action on a field, and a `multiline_join` action on the list it makes, both with
the same separator. -/
structure SplitPair (a b : ETLAction) (field sep : GoString) : Prop where
  split : a.type = .splitRecord
  join : b.type = .multilineJoin
  source : a.strParam "src_key" = field
  list : b.strParam "src_key" = field ++ str "_parts"
  splitSep : a.strParam "separator" = sep
  joinSep : b.strParam "separator" = sep

/-- What stands before the first separator. -/
def firstSegment (raw sep : GoString) : GoString := ((index sep raw).map raw.take).getD raw

/-- Behind the two actions the list is the text again, and the field has the first segment. -/
def KeepsWhole (ex : ActionExecutor) (st : ExecState) (e : LogEntry) (a b : ETLAction)
    (field sep raw : GoString) : Prop :=
  ∃ e', (applyActions ex st e [a, b]).1 = some e' ∧
    e'.fields[field ++ str "_parts"]? = some (.str raw) ∧
    e'.fields[field]? = some (.str (firstSegment raw (orDefault sep (str ","))))

namespace SplitPair

variable {lib : StdLib} {e : LogEntry} {a b : ETLAction} {field sep raw : GoString}

/-- What `split_record` makes of a text. -/
theorem splitRecord_eq (p : SplitPair a b field sep) (hfield : field ≠ [])
    (hplain : toLower field ∉ memberNames) (hvalue : e.fields[field]? = some (.str raw))
    (hraw : raw ≠ []) :
    splitRecord lib e a =
      setEntry (setEntry e (field ++ str "_parts")
        (.arr ((Go.split raw (orDefault sep (str ","))).map .str))) field
        (.str (firstSegment raw (orDefault sep (str ",")))) := by
  have hentry : entryFieldStr lib e field = raw := by
    rw [entryFieldStr_of_notMem hplain, hvalue]
    rfl
  have hsep : orDefault sep (str ",") ≠ [] := by
    rw [orDefault]
    split_ifs with hnil
    · decide
    · exact hnil
  rw [splitRecord, p.source, p.splitSep]
  simp only [hentry]
  rw [if_neg (not_or.mpr ⟨hfield, hraw⟩), headD_split hsep, firstSegment]

/-- What `multiline_join` makes of a list of texts. -/
theorem multilineJoin_eq (p : SplitPair a b field sep) (hfield : field ≠ []) {parts : List GoString}
    (hlist : e.fields[field ++ str "_parts"]? = some (.arr (parts.map .str))) :
    multilineJoin lib e b =
      setEntry e (field ++ str "_parts") (.str (Go.join parts (orDefault sep (str "\n")))) := by
  have hkey : field ++ str "_parts" ≠ [] := List.append_ne_nil_of_left_ne_nil hfield _
  have hsprint : lib.sprint ∘ Value.str = id := by
    funext s
    exact lib.sprint_str s
  rw [multilineJoin, p.list, p.joinSep]
  simp only [hlist]
  rw [if_neg hkey, List.map_map, hsprint, List.map_id]

end SplitPair

/-- Texts that were split at commas and joined by line breaks. -/
theorem join_split_comma_iff (raw : GoString) :
    join (split raw (str ",")) (str "\n") = raw ↔ 0x2C ∉ raw := by
  constructor
  · intro h hcomma
    rw [← h] at hcomma
    -- neither a segment nor a line break has a comma
    rcases mem_join hcomma with hsep | ⟨p, hp, hmem⟩
    · exact absurd hsep (by decide)
    · exact notMem_of_mem_split hp hmem
  · intro hcomma
    rw [show str "," = [0x2C] from rfl, split_of_notMem hcomma, join_singleton]

/-- **A text is kept whole with every separator**, and without one exactly if it has no comma. -/
theorem keepsWhole_iff (ex : ActionExecutor) (st : ExecState) {e : LogEntry} {a b : ETLAction}
    {field sep raw : GoString} (p : SplitPair a b field sep) (hfield : field ≠ [])
    (hplain : toLower field ∉ memberNames) (hvalue : e.fields[field]? = some (.str raw))
    (hraw : raw ≠ []) :
    KeepsWhole ex st e a b field sep raw ↔ sep ≠ [] ∨ 0x2C ∉ raw := by
  have hne : field ≠ field ++ str "_parts" :=
    fun h => absurd (List.self_eq_append_right.mp h) (by decide)
  have hrun : (applyActions ex st e [a, b]).1 =
      some (multilineJoin ex.lib (splitRecord ex.lib e a) b) := by
    simp only [applyActions, apply, applyPlain, p.split, p.join]
  have hlist : (splitRecord ex.lib e a).fields[field ++ str "_parts"]? =
      some (.arr ((split raw (orDefault sep (str ","))).map .str)) := by
    rw [p.splitRecord_eq hfield hplain hvalue hraw, setEntry,
      GoMap.getElem?_insert_of_ne (Ne.symm hne), setEntry, GoMap.getElem?_insert, if_pos rfl]
  -- the field itself has the first segment, whatever is joined
  have hfirst : (multilineJoin ex.lib (splitRecord ex.lib e a) b).fields[field]? =
      some (.str (firstSegment raw (orDefault sep (str ",")))) := by
    rw [p.multilineJoin_eq hfield hlist, setEntry, GoMap.getElem?_insert_of_ne hne,
      p.splitRecord_eq hfield hplain hvalue hraw, setEntry, GoMap.getElem?_insert, if_pos rfl]
  have hjoined : (multilineJoin ex.lib (splitRecord ex.lib e a) b).fields[field ++ str "_parts"]? =
      some (.str (join (split raw (orDefault sep (str ","))) (orDefault sep (str "\n")))) := by
    rw [p.multilineJoin_eq hfield hlist, setEntry, GoMap.getElem?_insert, if_pos rfl]
  have hwhole : KeepsWhole ex st e a b field sep raw ↔
      join (split raw (orDefault sep (str ","))) (orDefault sep (str "\n")) = raw := by
    constructor
    · rintro ⟨e', he', hparts, -⟩
      rw [hrun] at he'
      obtain rfl := Option.some.inj he'
      rw [hjoined] at hparts
      exact Value.str.inj (Option.some.inj hparts)
    · intro h
      exact ⟨_, hrun, by rw [hjoined, h], hfirst⟩
  rw [hwhole]
  by_cases hsep : sep = []
  · -- without a separator it is split at commas and joined with line breaks
    rw [hsep, orDefault, orDefault, if_pos rfl, if_pos rfl, join_split_comma_iff]
    exact (or_iff_right (not_not.mpr rfl)).symm
  · rw [orDefault, orDefault, if_neg hsep, if_neg hsep]
    exact iff_of_true (join_split hsep raw) (.inl hsep)

/-- The two actions on the field `tags`. -/
def splitTags (sep : String) : ETLAction :=
  textAction .splitRecord [("src_key", "tags"), ("separator", sep)]

/-- The action that joins its segments. -/
def joinTags (sep : String) : ETLAction :=
  textAction .multilineJoin [("src_key", "tags_parts"), ("separator", sep)]

/-- An entry with the field `tags`. -/
def tagsEntry (tags : String) : LogEntry := entryWith (str "t1") [(str "tags", .str (str tags))]

/-- A separator that overlaps itself, and segments that are empty. -/
theorem keepsWhole_overlap :
    KeepsWhole plainExecutor .init (tagsEntry "::a::::b:") (splitTags "::") (joinTags "::") (str "tags")
      (str "::") (str "::a::::b:") :=
  (keepsWhole_iff plainExecutor .init
    ⟨rfl, rfl, by decide +kernel, by decide +kernel, by decide +kernel, by decide +kernel⟩
    (by decide) (by decide +kernel) (by decide +kernel) (by decide)).mpr (.inl (by decide))

/-- Without a separator, a text with a comma becomes two lines. -/
theorem not_keepsWhole :
    SplitPair (splitTags "") (joinTags "") (str "tags") [] ∧
    (tagsEntry "a,b").fields[str "tags"]? = some (.str (str "a,b")) ∧
    ¬KeepsWhole plainExecutor .init (tagsEntry "a,b") (splitTags "") (joinTags "") (str "tags") []
      (str "a,b") := by
  refine ⟨⟨rfl, rfl, by decide +kernel, by decide +kernel, by decide +kernel, by decide +kernel⟩,
    by decide +kernel, ?_⟩
  rintro ⟨e', he', hparts, -⟩
  have hlines : ((applyActions plainExecutor .init (tagsEntry "a,b") [splitTags "", joinTags ""]).1.map
      fun e' => e'.fields[str "tags_parts"]?) = some (some (.str (str "a\nb"))) := by decide +kernel
  rw [he', Option.map_some, show str "tags_parts" = str "tags" ++ str "_parts" by decide, hparts] at hlines
  exact absurd hlines (by decide +kernel)

end Etl

end Xsiam
