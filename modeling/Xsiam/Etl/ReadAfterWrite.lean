import Xsiam.Etl.Applied

/-!
# Reading a field after it was rewritten

`set_field`, `redact_value` and `search_replace` write their result into `Fields`,
whatever the field is called. The two functions that read a field,
`Xsiam.Etl.entryFieldStr` for actions and `Xsiam.Etl.fieldStr` for matching, answer
some names from a member of the entry instead, and so does whoever reads the stored
document. A rewritten field therefore reads back as it was rewritten exactly when its
name stands for no member, or the member holds the rewritten text already
(`Xsiam.Etl.apply_readsBack_iff`). A redacted `raw_log` is not redacted.

The two readers do not know the same members: the session, the kind and the tenant are known to the
one for matching only, the raw log to the other (`Xsiam.Etl.Member.Shared`). So they see the same of
an entry (`Xsiam.Etl.readers_agree_iff`) exactly if the name stands for no such member, or `Fields`
says under that name what the member does; and a name that stands for one is read differently in
some entry (`Xsiam.Etl.readers_agree_always_iff`).
-/

namespace Xsiam

namespace Etl

open Go

/-! ### Names that stand for members -/

/-- The members of an entry that a field name can stand for. -/
inductive Member where
  | hostname
  | sourceIP
  | agentID
  | sessionID
  | dataset
  | kind
  | tenantID
  | rawLog
deriving DecidableEq

/-- The member a name stands for, to one reader or the other, in any letter case. -/
def memberOf (field : GoString) : Option Member :=
  let f := toLower field
  if f = str "hostname" then some .hostname
  else if f = str "src_ip" ∨ f = str "source_ip" then some .sourceIP
  else if f = str "agent_id" then some .agentID
  else if f = str "session_id" then some .sessionID
  else if f = str "dataset" then some .dataset
  else if f = str "kind" then some .kind
  else if f = str "tenant_id" then some .tenantID
  else if f = str "raw_log" then some .rawLog
  else none

/-- The text of a member. -/
def Member.read (e : LogEntry) : Member → GoString
  | .hostname => e.hostname
  | .sourceIP => e.sourceIP
  | .agentID => e.agentID
  | .sessionID => e.sessionID
  | .dataset => e.dataset
  | .kind => kindName e.kind
  | .tenantID => e.tenantID
  | .rawLog => e.rawLog

/-- The members `entryFieldStr` answers from. -/
def Member.executorReads : Member → Bool
  | .hostname | .sourceIP | .agentID | .rawLog | .dataset => true
  | .sessionID | .kind | .tenantID => false

/-- The members `fieldStr` answers from. -/
def Member.matcherReads : Member → Bool
  | .rawLog => false
  | _ => true

/-- The text of an entry of `Fields`, empty where there is none. -/
def fieldText (lib : StdLib) (e : LogEntry) (field : GoString) : GoString :=
  match e.fields[field]? with
  | some v => lib.sprint v
  | none => []

/-- A reader that knows some of the members. -/
def readBy (knows : Member → Bool) (lib : StdLib) (e : LogEntry) (field : GoString) : GoString :=
  match (memberOf field).filter knows with
  | some m => m.read e
  | none => fieldText lib e field

theorem entryFieldStr_eq (lib : StdLib) (e : LogEntry) (field : GoString) :
    entryFieldStr lib e field = readBy Member.executorReads lib e field := by
  unfold entryFieldStr readBy memberOf
  simp only
  generalize toLower field = f
  split_ifs <;> first | rfl | simp_all

theorem fieldStr_eq (lib : StdLib) (e : LogEntry) (field : GoString) :
    fieldStr lib e field = readBy Member.matcherReads lib e field := by
  unfold fieldStr readBy memberOf
  simp only
  generalize toLower field = f
  split_ifs <;> first | rfl | simp_all

/-! ### Reading back -/

/-- Every place a field is read from holds a text: both readers say it, the member the
name stands for holds it, and so does the entry of `Fields` under that name. -/
structure ReadsBack (lib : StdLib) (e : LogEntry) (field v : GoString) : Prop where
  /-- the actions that follow, which read with `entryFieldStr` -/
  action : entryFieldStr lib e field = v
  /-- filters and sink conditions, which read with `fieldStr` -/
  filter : fieldStr lib e field = v
  /-- the member, as it is stored -/
  stored : ∀ m, memberOf field = some m → m.read e = v
  /-- `Fields`, as it is stored, and read by the actions that look a key up -/
  mapped : ∀ w, e.fields[field]? = some w → lib.sprint w = v

/-- The name stands for no member, or for one that holds the text already. -/
def MemberHolds (e : LogEntry) (field v : GoString) : Prop :=
  ∀ m, memberOf field = some m → m.read e = v

theorem readBy_of_memberHolds {knows : Member → Bool} {lib : StdLib} {e : LogEntry}
    {field v : GoString} (hmem : MemberHolds e field v) (htext : fieldText lib e field = v) :
    readBy knows lib e field = v := by
  rw [readBy]
  split
  · next m hm => exact hmem m (Option.eq_some_of_filter_eq_some hm)
  · exact htext

/-- Where `Fields` reads as a text, everything does exactly when the member does. -/
theorem readsBack_iff {lib : StdLib} {e : LogEntry} {field v : GoString}
    (htext : fieldText lib e field = v) : ReadsBack lib e field v ↔ MemberHolds e field v := by
  constructor
  · exact fun h => h.stored
  · intro hmem
    refine ⟨?_, ?_, hmem, ?_⟩
    · exact (entryFieldStr_eq lib e field).trans (readBy_of_memberHolds hmem htext)
    · exact (fieldStr_eq lib e field).trans (readBy_of_memberHolds hmem htext)
    · intro w hw
      rw [fieldText, hw] at htext
      exact htext

/-- Writing to `Fields` leaves the members alone. -/
theorem memberHolds_setEntry (e : LogEntry) (field v k : GoString) (w : Value) :
    MemberHolds (setEntry e k w) field v ↔ MemberHolds e field v := by
  refine forall_congr' fun m => ?_
  rcases m <;> rfl

theorem fieldText_setEntry (lib : StdLib) (e : LogEntry) (field v : GoString) :
    fieldText lib (setEntry e field (.str v)) field = v := by
  simp [fieldText, setEntry]

theorem readsBack_setEntry_iff (lib : StdLib) (e : LogEntry) (field v : GoString) :
    ReadsBack lib (setEntry e field (.str v)) field v ↔ MemberHolds e field v :=
  (readsBack_iff (fieldText_setEntry lib e field v)).trans (memberHolds_setEntry ..)

/-- An empty text reads back where neither the member nor `Fields` has one. -/
theorem readsBack_nil_iff (lib : StdLib) (e : LogEntry) (field : GoString) :
    ReadsBack lib e field [] ↔ MemberHolds e field [] ∧ fieldText lib e field = [] := by
  constructor
  · intro hback
    refine ⟨hback.stored, ?_⟩
    rw [fieldText]
    split
    · next w hw => exact hback.mapped w hw
    · rfl
  · rintro ⟨hmem, htext⟩
    exact (readsBack_iff htext).mpr hmem

/-! ### The rewriting actions -/

/-- What a rewriting action asks for. -/
structure Rewrite where
  field : GoString
  /-- The text the field should read as. -/
  value : GoString
  /-- Whether the action writes it: an empty text is not replaced. -/
  writes : Bool

/-- The rewrite of `redact_value` and `search_replace`, where the regular expression
compiles. -/
def replacement (lib : StdLib) (dflt : GoString) (e : LogEntry) (a : ETLAction) :
    Option Rewrite :=
  if a.strParam "key" = [] ∨ a.strParam "regex" = [] then none
  else (lib.regexpCompile (a.strParam "regex")).map fun re =>
    let val := entryFieldStr lib e (a.strParam "key")
    if val = [] then ⟨a.strParam "key", [], false⟩
    else ⟨a.strParam "key",
      re.replaceAllString val (orDefault (a.strParam "replacement") dflt), true⟩

/-- The rewrite an action asks for on an entry, for the actions that rewrite a field. -/
def rewriteOf (lib : StdLib) (e : LogEntry) (a : ETLAction) : Option Rewrite :=
  match a.type with
  | .setField =>
    if a.strParam "field" = [] then none
    else some ⟨a.strParam "field", setFieldValue lib e (a.strParam "value"), true⟩
  | .redactValue => replacement lib (str "***") e a
  | .searchReplace => replacement lib [] e a
  | _ => none

/-- When a rewrite reads back: the name stands for no member, or the member has the text
already; and a text that is not written because it is empty is not in `Fields` either. -/
def Rewrite.Holds (lib : StdLib) (e : LogEntry) (w : Rewrite) : Prop :=
  MemberHolds e w.field w.value ∧ (w.writes = false → fieldText lib e w.field = w.value)

theorem setField_readsBack_iff {lib : StdLib} {e : LogEntry} {a : ETLAction}
    (hfield : a.strParam "field" ≠ []) :
    ReadsBack lib (setField lib e a) (a.strParam "field")
        (setFieldValue lib e (a.strParam "value")) ↔
      MemberHolds e (a.strParam "field") (setFieldValue lib e (a.strParam "value")) := by
  rw [setField, if_neg hfield]
  exact readsBack_setEntry_iff ..

theorem replaceValue_readsBack_iff {lib : StdLib} {dflt : GoString} {e : LogEntry}
    {a : ETLAction} {w : Rewrite} (h : replacement lib dflt e a = some w) :
    ReadsBack lib (replaceValue lib dflt e a) w.field w.value ↔ w.Holds lib e := by
  rw [replacement] at h
  rw [replaceValue, Rewrite.Holds]
  split_ifs at h with hparams
  obtain ⟨re, hre, rfl⟩ := Option.map_eq_some_iff.mp h
  simp only [if_neg hparams, hre]
  by_cases hval : entryFieldStr lib e (a.strParam "key") = []
  · -- the entry is left as it was
    simpa only [if_pos hval, true_implies] using readsBack_nil_iff lib e (a.strParam "key")
  · simpa only [if_neg hval, Bool.true_eq_false, false_implies, and_true]
      using readsBack_setEntry_iff lib e (a.strParam "key") _

/-- **When a rewritten field reads back as rewritten**, for the readers of both kinds, the
stored member and the stored map at once. -/
theorem apply_readsBack_iff (ex : ActionExecutor) (st : ExecState) (e : LogEntry)
    (a : ETLAction) (w : Rewrite) (h : rewriteOf ex.lib e a = some w) :
    ∃ e', (apply ex st e a).1 = some e' ∧
      (ReadsBack ex.lib e' w.field w.value ↔ w.Holds ex.lib e) := by
  rw [rewriteOf] at h
  rw [apply, applyPlain]
  split at h
  · next htype =>
    split_ifs at h with hfield
    obtain rfl := Option.some.inj h
    refine ⟨setField ex.lib e a, by rw [htype], ?_⟩
    simpa [Rewrite.Holds] using setField_readsBack_iff hfield
  · next htype => exact ⟨redactValue ex.lib e a, by rw [htype], replaceValue_readsBack_iff h⟩
  · next htype => exact ⟨searchReplace ex.lib e a, by rw [htype], replaceValue_readsBack_iff h⟩
  · exact absurd h (by simp)

/-- An action that redacts a word in a field. -/
def redactSecret (field : String) : ETLAction :=
  textAction .redactValue [("key", field), ("regex", "secret")]

/-- A redacted field of the map reads as redacted. -/
theorem apply_readsBack_iff_msg :
    ∃ e', (apply plainExecutor .init (entryWith (str "t") [(str "msg", .str (str "a secret"))])
        (redactSecret "msg")).1 = some e' ∧
      ReadsBack literalLib e' (str "msg") (str "a ***") := by
  obtain ⟨e', happly, hiff⟩ := apply_readsBack_iff plainExecutor .init
    (entryWith (str "t") [(str "msg", .str (str "a secret"))]) (redactSecret "msg")
    ⟨str "msg", str "a ***", true⟩ (by rfl)
  refine ⟨e', happly, hiff.mpr ⟨?_, by simp⟩⟩
  have hname : memberOf (str "msg") = none := by rfl
  intro m hm
  simp [hname] at hm

/-- An entry whose raw text has the word in it. -/
def secretEntry : LogEntry := { entryWith (str "t") [] with rawLog := str "a secret" }

/-- A redacted `raw_log` is stored, and read by every later action, as it was. -/
theorem redact_rawLog_leaks :
    rewriteOf literalLib secretEntry (redactSecret "raw_log") =
        some ⟨str "raw_log", str "a ***", true⟩ ∧
      ∃ e', (apply plainExecutor .init secretEntry (redactSecret "raw_log")).1 = some e' ∧
        e'.rawLog = str "a secret" ∧ entryFieldStr literalLib e' (str "raw_log") = str "a secret" ∧
          ¬ReadsBack literalLib e' (str "raw_log") (str "a ***") := by
  refine ⟨by rfl, _, rfl, rfl, rfl, ?_⟩
  intro hback
  have hread := hback.action
  change str "a secret" = str "a ***" at hread
  simp at hread

/-! ### A field as conditions and as actions see it -/

/-- Both readers know a member, or neither does. -/
def Member.Shared (m : Member) : Prop := m.matcherReads = m.executorReads

instance (m : Member) : Decidable m.Shared := inferInstanceAs (Decidable (_ = _))

/-- A name that stands for no member is one of `Fields`, to both readers. -/
theorem readBy_of_none {knows : Member → Bool} {field : GoString} (h : memberOf field = none)
    (lib : StdLib) (e : LogEntry) : readBy knows lib e field = fieldText lib e field := by
  rw [readBy, h]
  rfl

/-- A name that stands for a member is that member, to a reader that knows it. -/
theorem readBy_of_some {knows : Member → Bool} {field : GoString} {m : Member}
    (h : memberOf field = some m) (lib : StdLib) (e : LogEntry) :
    readBy knows lib e field = if knows m then m.read e else fieldText lib e field := by
  rw [readBy, h, Option.filter_some]
  split_ifs <;> rfl

/-- A name that stands for no member is read alike. -/
theorem fieldStr_eq_of_none {field : GoString} (h : memberOf field = none) (lib : StdLib) (e : LogEntry) :
    fieldStr lib e field = entryFieldStr lib e field := by
  rw [fieldStr_eq, entryFieldStr_eq, readBy_of_none h, readBy_of_none h]

/-- The two differ where one of them knows the member and the other does not. -/
theorem fieldStr_eq_iff_of_some {field : GoString} {m : Member} (h : memberOf field = some m)
    (lib : StdLib) (e : LogEntry) : fieldStr lib e field = entryFieldStr lib e field ↔
      (¬m.Shared → m.read e = fieldText lib e field) := by
  rw [fieldStr_eq, entryFieldStr_eq, readBy_of_some h, readBy_of_some h, Member.Shared]
  cases m.matcherReads with
  | true => cases m.executorReads <;> simp
  | false => cases m.executorReads <;> simp [eq_comm]

/-- **Conditions and actions see the same of a field exactly if it is no member that only one of the
readers knows, or `Fields` has the text of the member.** -/
theorem readers_agree_iff (lib : StdLib) (e : LogEntry) (field : GoString) :
    fieldStr lib e field = entryFieldStr lib e field ↔
      ∀ m, memberOf field = some m → ¬m.Shared → m.read e = fieldText lib e field := by
  rcases hmember : memberOf field with _ | m
  · refine iff_of_true (fieldStr_eq_of_none hmember lib e) fun m hm => ?_
    exact absurd hm.symm (Option.some_ne_none m)
  · rw [fieldStr_eq_iff_of_some hmember lib e]
    simp only [Option.some.injEq, forall_eq']

/-! ### Names and entries -/

/-- An entry without fields, of the tenant `t`. -/
def noFields (sessionID rawLog : GoString) : LogEntry where
  tenantID := str "t"
  dataset := datasetEndpoint
  kind := logKindProcess
  agentID := str "1"
  sessionID
  hostname := []
  sourceIP := []
  fields := ∅
  rawLog
  eventTimestamp := 0
  ingestedAt := 0

theorem fieldText_noFields (lib : StdLib) (sessionID rawLog field : GoString) :
    fieldText lib (noFields sessionID rawLog) field = [] := by
  rw [fieldText, noFields]
  simp

/-- **A name is read alike in all entries exactly if it stands for no member that only one of the
readers knows.** -/
theorem readers_agree_always_iff (lib : StdLib) (field : GoString) :
    (∀ e, fieldStr lib e field = entryFieldStr lib e field) ↔
      ∀ m, memberOf field = some m → m.Shared := by
  constructor
  · intro h m hmember
    by_contra hshared
    have hread := (fieldStr_eq_iff_of_some hmember lib _).mp
      (h (noFields (str "s") (str "raw"))) hshared
    rw [fieldText_noFields] at hread
    -- the members that are not shared have a text in this entry
    revert hread hshared
    cases m <;> decide
  · intro h e
    rcases hmember : memberOf field with _ | m
    · exact fieldStr_eq_of_none hmember lib e
    · exact (fieldStr_eq_iff_of_some hmember lib e).mpr fun hshared => absurd (h m hmember) hshared

/-- The session of an entry, in a condition and in an action. -/
theorem readers_differ :
    ¬∀ (lib : StdLib) (e : LogEntry) (field : GoString),
      fieldStr lib e field = entryFieldStr lib e field := by
  intro h
  have heq := h literalLib (noFields (str "s1") []) (str "session_id")
  exact absurd heq (by decide +kernel)

end Etl

end Xsiam
