import Xsiam.Etl.Applied

/-!
# What an action leaves alone

Almost every action writes to `Fields` and to nothing else
(`Xsiam.Etl.onlyFields_applyPlain`). The exceptions are `set_dataset` and `set_kind`,
with a member each, and `custom_lua`, which may write every member that a script can
name. No action changes the tenant of an entry (`Xsiam.Etl.apply_tenantID`), nor do all
the actions that a pipeline runs on it
(`Xsiam.Etl.Pipeline.runActions_tenantID`).
-/

namespace Xsiam

namespace Etl

open Go

/-! ### Actions on the fields -/

/-- The second entry is the first one with other fields. -/
def OnlyFields (e e' : LogEntry) : Prop := ∃ m, e' = { e with fields := m }

namespace OnlyFields

theorem refl (e : LogEntry) : OnlyFields e e := ⟨e.fields, rfl⟩

theorem trans {e₁ e₂ e₃ : LogEntry} (h₁ : OnlyFields e₁ e₂) (h₂ : OnlyFields e₂ e₃) :
    OnlyFields e₁ e₃ := by
  obtain ⟨m₁, rfl⟩ := h₁
  obtain ⟨m₂, rfl⟩ := h₂
  exact ⟨m₂, rfl⟩

theorem tenantID {e e' : LogEntry} (h : OnlyFields e e') : e'.tenantID = e.tenantID := by
  obtain ⟨m, rfl⟩ := h
  rfl

/-- A loop that writes to the fields in each turn. -/
theorem foldl {β : Type} {f : LogEntry → β → LogEntry} (hf : ∀ e b, OnlyFields e (f e b))
    (bs : List β) : ∀ e : LogEntry, OnlyFields e (bs.foldl f e) := by
  induction bs with
  | nil => exact refl
  | cons b bs ih =>
    intro e
    exact (hf e b).trans (ih _)

variable (e : LogEntry)

theorem set (k : GoString) (v : Value) : OnlyFields e (setEntry e k v) := ⟨_, rfl⟩

theorem sets (kvs : List (GoString × Value)) : OnlyFields e (setEntries e kvs) := ⟨_, rfl⟩

theorem delete (k : GoString) : OnlyFields e (deleteEntry e k) := ⟨_, rfl⟩

end OnlyFields

section Fields

variable (lib : StdLib) (e : LogEntry) (a : ETLAction)

theorem onlyFields_setField : OnlyFields e (setField lib e a) := by
  unfold setField
  dsimp only
  split_ifs
  · exact .refl e
  · exact .set ..

theorem onlyFields_renameField : OnlyFields e (renameField e a) := by
  unfold renameField
  dsimp only
  split_ifs
  · exact .refl e
  · split
    · exact (OnlyFields.set ..).trans (.delete ..)
    · exact .refl e

theorem onlyFields_deleteField : OnlyFields e (deleteField e a) := by
  unfold deleteField
  dsimp only
  split_ifs
  · exact .refl e
  · exact .delete ..

theorem onlyFields_copyKey : OnlyFields e (copyKey e a) := by
  unfold copyKey
  dsimp only
  split_ifs
  · exact .refl e
  · split
    · exact .set ..
    · exact .refl e

theorem onlyFields_hashKey : OnlyFields e (hashKey lib e a) := by
  unfold hashKey
  dsimp only
  split_ifs
  · exact .refl e
  · exact .set ..

theorem onlyFields_parseNumber : OnlyFields e (parseNumber lib e a) := by
  unfold parseNumber
  dsimp only
  split_ifs
  · exact .refl e
  · split
    · exact .set ..
    · split
      · exact .set ..
      · exact .refl e

theorem onlyFields_filterKeys (keep : Bool) : OnlyFields e (filterKeys lib keep e a) := by
  unfold filterKeys
  dsimp only
  split_ifs
  · exact .refl e
  · split
    · exact .refl e
    · exact ⟨_, rfl⟩

theorem onlyFields_replaceValue (dflt : GoString) :
    OnlyFields e (replaceValue lib dflt e a) := by
  rw [replaceValue]
  dsimp only
  split_ifs
  · exact .refl e
  · split
    · exact .refl e
    · exact .refl e
  · split
    · exact .refl e
    · exact .set ..

theorem onlyFields_flattenSubrecord : OnlyFields e (flattenSubrecord e a) := by
  unfold flattenSubrecord
  dsimp only
  split_ifs
  · exact .refl e
  · split
    · exact (OnlyFields.delete ..).trans (.sets ..)
    · exact .refl e

theorem onlyFields_nestKeys : OnlyFields e (nestKeys e a) := by
  rw [nestKeys]
  dsimp only
  split_ifs
  · exact .refl e
  · exact ⟨_, rfl⟩
  · exact ⟨_, rfl⟩

theorem onlyFields_decodeCSV : OnlyFields e (decodeCSV lib e a) := by
  rw [decodeCSV]
  dsimp only
  split_ifs
  · exact .refl e
  all_goals
    split
    · exact .refl e
    · exact .sets ..

theorem onlyFields_encodeJSON : OnlyFields e (encodeJSON lib e a) := by
  rw [encodeJSON]
  dsimp only
  split_ifs
  · exact .refl e
  all_goals
    split
    · exact .set ..
    · exact .refl e

theorem onlyFields_encodeCSV : OnlyFields e (encodeCSV lib e a) := by
  rw [encodeCSV]
  dsimp only
  split_ifs
  · exact .refl e
  all_goals
    split
    · exact .refl e
    · split
      · exact .set ..
      · exact .refl e

theorem onlyFields_multilineJoin : OnlyFields e (multilineJoin lib e a) := by
  unfold multilineJoin
  dsimp only
  split_ifs
  · exact .refl e
  · split
    · exact .set ..
    · exact .refl e

theorem onlyFields_splitRecord : OnlyFields e (splitRecord lib e a) := by
  rw [splitRecord]
  dsimp only
  split_ifs
  · exact .refl e
  · exact (OnlyFields.set ..).trans (.set ..)

theorem onlyFields_liftSubmap : OnlyFields e (liftSubmap e a) := by
  rw [liftSubmap]
  dsimp only
  split_ifs
  · exact .refl e
  · split
    · exact .refl e
    · exact .sets ..
  · split
    · exact .refl e
    · exact (OnlyFields.sets ..).trans (.delete ..)

theorem onlyFields_joinRecords : OnlyFields e (joinRecords lib e a) := by
  rw [joinRecords]
  dsimp only
  split_ifs
  · exact .refl e
  · split
    · refine OnlyFields.foldl (fun e name => ?_) _ e
      split_ifs
      · exact .refl e
      · exact .set ..
    · exact .refl e

theorem onlyFields_parseJSON : OnlyFields e (parseJSON lib e a) := by
  unfold parseJSON
  dsimp only
  split_ifs
  · exact .refl e
  · split
    · exact ⟨_, rfl⟩
    · exact .refl e

theorem onlyFields_grok : OnlyFields e (grok lib e a) := by
  unfold grok
  dsimp only
  split_ifs
  · exact .refl e
  · split
    · exact .refl e
    · split
      · exact .refl e
      · exact .sets ..

end Fields

section Enrichment

variable (ex : ActionExecutor) (tick : ℕ) (e : LogEntry) (a : ETLAction)

theorem onlyFields_lookupAsset : OnlyFields e (lookupAsset ex tick e) := by
  unfold lookupAsset
  dsimp only
  split
  · exact .refl e
  · split_ifs
    · exact .refl e
    · split
      · exact .refl e
      · exact .sets ..

theorem onlyFields_lookupThreat : OnlyFields e (lookupThreat ex tick e) := by
  rw [lookupThreat]
  dsimp only
  split
  · exact .refl e
  · split
    · exact .refl e
    · exact .sets ..

theorem onlyFields_lookupGeoIP : OnlyFields e (lookupGeoIP ex e a) := by
  have hite : ∀ (c : Prop) [Decidable c] (e : LogEntry) (k : GoString) (v : Value),
      OnlyFields e (if c then e else setEntry e k v) := by
    intro c _ e k v
    split_ifs
    · exact .refl e
    · exact .set ..
  rw [lookupGeoIP]
  split
  · exact .refl e
  · next lookup _ =>
    by_cases hip : entryFieldStr ex.lib e (orDefault (a.strParam "src_key") (str "src_ip")) = []
    · rw [if_pos hip]
      exact .refl e
    · rw [if_neg hip]
      have hplace := fun k v k' v' geo => (hite (GeoRecord.country geo = []) e k v).trans
        (hite (GeoRecord.city geo = []) _ k' v')
      by_cases hasn : (lookup
          (entryFieldStr ex.lib e (orDefault (a.strParam "src_key") (str "src_ip")))).asn = 0
      · rw [if_pos hasn]
        exact hplace ..
      · rw [if_neg hasn]
        exact ((hplace ..).trans (.set ..)).trans (.set ..)

end Enrichment

/-! ### The switch -/

section Switch

variable (ex : ActionExecutor) {st : ExecState} {tick : ℕ} {e e' : LogEntry} {a : ETLAction}

theorem filterRecords_eq {lib : StdLib} {keep : Bool}
    (h : filterRecords lib keep e a = some e') : e' = e := by
  rw [filterRecords] at h
  dsimp only at h
  split_ifs at h
  · exact (Option.some.inj h).symm
  · split at h
    · exact (Option.some.inj h).symm
    · split_ifs at h
      exact (Option.some.inj h).symm
  · split at h
    · exact (Option.some.inj h).symm
    · split_ifs at h
      exact (Option.some.inj h).symm

theorem randomSample_eq (h : randomSample ex tick e a = some e') : e' = e := by
  rw [randomSample] at h
  split_ifs at h
  exact (Option.some.inj h).symm

/-- The types of the actions that write to other members than `Fields`. -/
def writesMembers (t : ETLActionType) : Bool :=
  t = .setDataset || t = .setKind || t = .customLua

/-- **Every other action writes to `Fields` alone.** -/
theorem onlyFields_applyPlain (ha : writesMembers a.type = false)
    (h : applyPlain ex tick e a = some e') : OnlyFields e e' := by
  rw [applyPlain] at h
  split at h
  -- three actions keep an entry or drop it, and three may write the members
  case h_9 => obtain rfl := filterRecords_eq h; exact .refl e'
  case h_10 => obtain rfl := filterRecords_eq h; exact .refl e'
  case h_24 => obtain rfl := randomSample_eq ex h; exact .refl e'
  case h_28 ht => simp [writesMembers, ht] at ha
  case h_29 ht => simp [writesMembers, ht] at ha
  case h_30 => simp at h
  case h_31 ht => simp [writesMembers, ht] at ha
  -- every other one writes its fields
  all_goals obtain rfl := Option.some.inj h
  case h_1 => exact onlyFields_setField ..
  case h_2 => exact onlyFields_renameField ..
  case h_3 => exact onlyFields_deleteField ..
  case h_4 => exact onlyFields_copyKey ..
  case h_5 => exact onlyFields_hashKey ..
  case h_6 => exact onlyFields_parseNumber ..
  case h_7 => exact onlyFields_filterKeys ..
  case h_8 => exact onlyFields_filterKeys ..
  case h_11 => exact onlyFields_replaceValue ..
  case h_12 => exact onlyFields_replaceValue ..
  case h_13 => exact onlyFields_flattenSubrecord ..
  case h_14 => exact onlyFields_nestKeys ..
  case h_15 => exact onlyFields_decodeCSV ..
  case h_16 => exact onlyFields_encodeJSON ..
  case h_17 => exact onlyFields_encodeCSV ..
  case h_18 => exact onlyFields_multilineJoin ..
  case h_19 => exact onlyFields_splitRecord ..
  case h_20 => exact onlyFields_liftSubmap ..
  case h_21 => exact onlyFields_joinRecords ..
  case h_22 => exact onlyFields_parseJSON ..
  case h_23 => exact onlyFields_grok ..
  case h_25 => exact onlyFields_lookupAsset ..
  case h_26 => exact onlyFields_lookupThreat ..
  case h_27 => exact onlyFields_lookupGeoIP ..
  case h_32 => exact .refl e
  case h_33 => exact .refl e

theorem setDataset_tenantID (e : LogEntry) (a : ETLAction) :
    (setDataset e a).tenantID = e.tenantID := by
  unfold setDataset
  dsimp only
  split_ifs <;> rfl

theorem setKind_tenantID (e : LogEntry) (a : ETLAction) :
    (setKind e a).tenantID = e.tenantID := by
  rw [setKind]
  split <;> rfl

theorem customLua_tenantID (h : customLua ex tick e a = some e') : e'.tenantID = e.tenantID := by
  unfold customLua at h
  dsimp only at h
  split at h
  · rw [← Option.some.inj h]
  · next vm _ =>
    split_ifs at h
    · rw [← Option.some.inj h]
    · split at h
      · rw [← Option.some.inj h]
      · simp at h
      · next heq =>
        obtain rfl := Option.some.inj h
        -- the only entry a script can produce is the table written over the entry
        rw [luaRun] at heq
        grind [applyLuaTable_tenantID]

theorem applyPlain_tenantID (h : applyPlain ex tick e a = some e') :
    e'.tenantID = e.tenantID := by
  by_cases ha : writesMembers a.type = false
  · exact (onlyFields_applyPlain ex ha h).tenantID
  · have ht : a.type = .setDataset ∨ a.type = .setKind ∨ a.type = .customLua := by
      simpa only [writesMembers, Bool.not_eq_false, Bool.or_eq_true, decide_eq_true_eq, or_assoc]
        using ha
    rcases ht with ht | ht | ht
    · rw [applyPlain, ht] at h
      rw [← Option.some.inj h, setDataset_tenantID]
    · rw [applyPlain, ht] at h
      rw [← Option.some.inj h, setKind_tenantID]
    · rw [applyPlain, ht] at h
      exact customLua_tenantID ex h

theorem dedupAction_eq (h : (dedupAction ex st e a).1 = some e') : e' = e := by
  rw [dedupAction] at h
  split at h
  · exact (Option.some.inj h).symm
  · dsimp only at h
    split_ifs at h
    exact (Option.some.inj h).symm

/-- **No action changes the tenant of an entry.** -/
theorem apply_tenantID (h : (apply ex st e a).1 = some e') : e'.tenantID = e.tenantID := by
  rw [apply] at h
  split at h
  · rw [dedupAction_eq ex h]
  · exact applyPlain_tenantID ex h

theorem applyActions_tenantID (as : List ETLAction) : ∀ {st : ExecState} {e : LogEntry},
    (applyActions ex st e as).1 = some e' → e'.tenantID = e.tenantID := by
  induction as with
  | nil =>
    intro st e h
    rw [← Option.some.inj h]
  | cons a as ih =>
    intro st e h
    rw [applyActions] at h
    split at h
    · simp at h
    · next e₁ st₁ heq =>
      rw [ih h]
      exact @apply_tenantID ex st e e₁ a (by rw [heq])

end Switch

/-- **Nor do the actions of a rule.** -/
theorem Pipeline.runActions_tenantID (p : Pipeline) {st : ExecState} {e e' : LogEntry}
    {as : List ETLAction} (h : (p.runActions st e as).1 = some e') :
    e'.tenantID = e.tenantID := by
  rw [Pipeline.runActions] at h
  split at h
  · next ex _ => exact applyActions_tenantID ex as h
  · dsimp only at h
    split_ifs at h
    rw [← Option.some.inj h]

end Etl

end Xsiam
