import Xsiam.Etl.Frame
import Xsiam.Ingest.Entry

/-!
# Entries that can be stored

An event goes to the lake as JSON, and JSON has no number that is not finite. The encoder
of `ingest` in `internal/datalake/hec.go` stops at the first event that has one in it, and
none of its batch is sent.

No row of a batch brings such a number, since all its fields are texts. Of the actions that
take what they write from the entry and their parameters, one can make one: `parse_number`
reads a text with `strconv.ParseFloat`, which takes `NaN` and `Inf` for numbers. All others
write texts and finite numbers, or move what is there (`Xsiam.Etl.finiteFields_apply_iff`). So the
entries that a list of actions passes on can be stored exactly when no text that
`parse_number` reads is one of those (`Xsiam.Etl.storable_iff`).
-/

namespace Xsiam

namespace Etl

open Go Ingest

/-! ### Fields with finite numbers -/

/-- Every field can be encoded. -/
def FiniteFields (m : GoMap Value) : Prop := ∀ (k : GoString) (v : Value), m[k]? = some v → finite v = true

namespace FiniteFields

variable {m m' : GoMap Value}

theorem insert (h : FiniteFields m) {v : Value} (hv : finite v = true) (k : GoString) :
    FiniteFields (m.insert k v) :=
  GoMap.Each.insert h hv

theorem insertAll {kvs : List (GoString × Value)} (hkvs : ∀ kv ∈ kvs, finite kv.2 = true)
    (h : FiniteFields m) : FiniteFields (GoMap.insertAll m kvs) :=
  GoMap.Each.insertAll h hkvs

theorem erase (h : FiniteFields m) (k : GoString) : FiniteFields (m.erase k) :=
  GoMap.Each.erase h k

theorem filterKeys (h : FiniteFields m) (p : GoString → Bool) :
    FiniteFields (GoMap.filterKeys m p) :=
  GoMap.Each.filterKeys h p

theorem copy (h : FiniteFields m) (h' : FiniteFields m') : FiniteFields (GoMap.copy m m') := by
  intro k v hget
  rw [GoMap.getElem?_copy, Option.or_eq_some_iff] at hget
  rcases hget with hget | ⟨-, hget⟩
  · exact h' k v hget
  · exact h k v hget

theorem toList (h : FiniteFields m) : ∀ kv ∈ m.toList, finite kv.2 = true := by
  rintro ⟨k, v⟩ hkv
  exact h k v (Std.ExtTreeMap.mem_toList_iff_getElem?_eq_some.mp hkv)

end FiniteFields

/-! ### The actions, one by one -/

/-- The second entry can be encoded if the first one can. -/
def Passes (e e' : LogEntry) : Prop := FiniteFields e.fields → FiniteFields e'.fields

namespace Passes

theorem refl (e : LogEntry) : Passes e e := id

theorem trans {e₁ e₂ e₃ : LogEntry} (h₁ : Passes e₁ e₂) (h₂ : Passes e₂ e₃) : Passes e₁ e₃ :=
  h₂ ∘ h₁

/-- A loop that passes the entry on in each turn. -/
theorem foldl {β : Type} {f : LogEntry → β → LogEntry} (hf : ∀ e b, Passes e (f e b))
    (bs : List β) : ∀ e : LogEntry, Passes e (bs.foldl f e) := by
  induction bs with
  | nil => exact refl
  | cons b bs ih =>
    intro e
    exact (hf e b).trans (ih _)

variable (e : LogEntry)

theorem set (k : GoString) {v : Value} (hv : finite v = true) : Passes e (setEntry e k v) :=
  fun h => h.insert hv k

theorem setText (k s : GoString) : Passes e (setEntry e k (.str s)) := set e k rfl

theorem sets {kvs : List (GoString × Value)} (hkvs : ∀ kv ∈ kvs, finite kv.2 = true) :
    Passes e (setEntries e kvs) := fun h => FiniteFields.insertAll hkvs h

theorem setTexts {β : Type} (key val : β → GoString) (bs : List β) :
    Passes e (setEntries e (bs.map fun b => (key b, .str (val b)))) := by
  refine sets e fun kv hkv => ?_
  obtain ⟨b, -, rfl⟩ := List.mem_map.mp hkv
  rfl

theorem delete (k : GoString) : Passes e (deleteEntry e k) := fun h => h.erase k

end Passes

section Actions

variable {lib : StdLib} {e : LogEntry} {a : ETLAction}

theorem passes_setField : Passes e (setField lib e a) := by
  unfold setField
  dsimp only
  split_ifs
  · exact .refl e
  · exact .setText _ _ _

theorem passes_renameField : Passes e (renameField e a) := by
  unfold renameField
  dsimp only
  split_ifs
  · exact .refl e
  · split
    · next v hv => exact fun h => ((Passes.set e _ (h _ v hv)).trans (.delete _ _)) h
    · exact .refl e

theorem passes_deleteField : Passes e (deleteField e a) := by
  unfold deleteField
  dsimp only
  split_ifs
  · exact .refl e
  · exact .delete _ _

theorem passes_copyKey : Passes e (copyKey e a) := by
  unfold copyKey
  dsimp only
  split_ifs
  · exact .refl e
  · split
    · next v hv => exact fun h => (Passes.set e _ (h _ v hv)) h
    · exact .refl e

theorem passes_hashKey : Passes e (hashKey lib e a) := by
  unfold hashKey
  dsimp only
  split_ifs
  · exact .refl e
  · exact .setText _ _ _

theorem passes_filterKeys (keep : Bool) : Passes e (filterKeys lib keep e a) := by
  unfold filterKeys
  dsimp only
  split_ifs
  · exact .refl e
  · split
    · exact .refl e
    · exact fun h => h.filterKeys _

theorem passes_replaceValue (dflt : GoString) : Passes e (replaceValue lib dflt e a) := by
  rw [replaceValue]
  dsimp only
  split_ifs
  · exact .refl e
  · split
    · exact .refl e
    · exact .refl e
  · split
    · exact .refl e
    · exact .setText _ _ _

/-- What is in a nested map can be encoded if the fields can. -/
theorem finite_subMap (h : FiniteFields e.fields) {key : GoString}
    {kvs : List (GoString × Value)} (hsub : subMap e key = some kvs) :
    ∀ kv ∈ kvs, finite kv.2 = true := by
  rw [subMap] at hsub
  split at hsub
  · next kvs' hget =>
    obtain rfl := Option.some.inj hsub
    exact (finite_obj_iff kvs').mp (h key _ hget)
  · exact absurd hsub (by simp)

theorem passes_spread {kvs : List (GoString × Value)} (hkvs : ∀ kv ∈ kvs, finite kv.2 = true)
    (pfx : GoString) : Passes e (spread e pfx kvs) := by
  refine .sets e fun kv hkv => ?_
  obtain ⟨kv', hkv', rfl⟩ := List.mem_map.mp hkv
  exact hkvs kv' hkv'

theorem passes_flattenSubrecord : Passes e (flattenSubrecord e a) := by
  unfold flattenSubrecord
  dsimp only
  split_ifs
  · exact .refl e
  · split
    · next sub hsub =>
      exact fun h => ((Passes.delete e _).trans (passes_spread (finite_subMap h hsub) _)) h
    · exact .refl e

theorem passes_nestKeys : Passes e (nestKeys e a) := by
  rw [nestKeys]
  dsimp only
  split_ifs
  · exact .refl e
  · exact fun h => h.filterKeys _
  · intro h
    refine (h.filterKeys _).insert ((finite_obj_iff _).mpr fun kv hkv => ?_) _
    obtain ⟨kv', hkv', hcut⟩ := List.mem_filterMap.mp hkv
    obtain ⟨rest, -, rfl⟩ := Option.map_eq_some_iff.mp hcut
    exact h.toList kv' hkv'

theorem passes_decodeCSV : Passes e (decodeCSV lib e a) := by
  rw [decodeCSV]
  dsimp only
  split_ifs
  · exact .refl e
  all_goals
    split
    · exact .refl e
    · exact .setTexts e _ _ _

theorem passes_encodeJSON : Passes e (encodeJSON lib e a) := by
  rw [encodeJSON]
  dsimp only
  split_ifs
  · exact .refl e
  all_goals
    split
    · exact .setText _ _ _
    · exact .refl e

theorem passes_encodeCSV : Passes e (encodeCSV lib e a) := by
  rw [encodeCSV]
  dsimp only
  split_ifs
  · exact .refl e
  all_goals
    split
    · exact .refl e
    · split
      · exact .setText _ _ _
      · exact .refl e

theorem passes_multilineJoin : Passes e (multilineJoin lib e a) := by
  unfold multilineJoin
  dsimp only
  split_ifs
  · exact .refl e
  · split
    · exact .setText _ _ _
    · exact .refl e

theorem passes_splitRecord : Passes e (splitRecord lib e a) := by
  rw [splitRecord]
  dsimp only
  split_ifs
  · exact .refl e
  · refine (Passes.set e _ ((finite_arr_iff _).mpr fun v hv => ?_)).trans (.setText _ _ _)
    obtain ⟨s, -, rfl⟩ := List.mem_map.mp hv
    rfl

theorem passes_liftSubmap : Passes e (liftSubmap e a) := by
  rw [liftSubmap]
  dsimp only
  split_ifs
  · exact .refl e
  · split
    · exact .refl e
    · next sub hsub => exact fun h => passes_spread (finite_subMap h hsub) _ h
  · split
    · exact .refl e
    · next sub hsub =>
      exact fun h => ((passes_spread (finite_subMap h hsub) _).trans (.delete _ _)) h

theorem passes_joinRecords : Passes e (joinRecords lib e a) := by
  rw [joinRecords]
  dsimp only
  split_ifs
  · exact .refl e
  · split
    · refine Passes.foldl (fun e name => ?_) _ e
      split_ifs
      · exact .refl e
      · exact .setText _ _ _
    · exact .refl e

theorem passes_grok : Passes e (grok lib e a) := by
  unfold grok
  dsimp only
  split_ifs
  · exact .refl e
  · split
    · exact .refl e
    · split
      · exact .refl e
      · exact .setTexts e _ _ _

/-- What `json.Unmarshal` reads has no numbers that are not finite: JSON can write none, and
one that is out of range is an error. -/
def ReadsJSON (lib : StdLib) : Prop := ∀ s m, lib.jsonUnmarshal s = some m → FiniteFields m

theorem passes_parseJSON (hlib : ReadsJSON lib) : Passes e (parseJSON lib e a) := by
  unfold parseJSON
  dsimp only
  split_ifs
  · exact .refl e
  · split
    · next parsed hparse => exact fun h => h.copy (hlib _ parsed hparse)
    · exact .refl e

/-- The text `parse_number` is given, if it is given one, is no number that is not
finite. -/
def ReadsFinite (lib : StdLib) (e : LogEntry) (a : ETLAction) : Prop :=
  a.type = .parseNumber →
    let raw := entryFieldStr lib e (a.strParam "key")
    a.strParam "key" ≠ [] → raw ≠ [] → parseInt raw = none →
      ∀ x, lib.parseFloat raw = some x → isFinite x = true

/-- `parse_number` passes an entry on that can be encoded exactly when the text is none of
those. -/
theorem parseNumber_iff (ha : a.type = .parseNumber) (h : FiniteFields e.fields) :
    FiniteFields (parseNumber lib e a).fields ↔ ReadsFinite lib e a := by
  rw [ReadsFinite, parseNumber]
  dsimp only
  split_ifs with hskip
  · rw [iff_true_left h]
    rintro - hkey hraw
    exact absurd hskip (not_or.mpr ⟨hkey, hraw⟩)
  · obtain ⟨hkey, hraw⟩ := not_or.mp hskip
    simp only [ha, hkey, hraw, ne_eq, not_false_eq_true, true_imp_iff]
    split
    · next i hint =>
      simp only [hint]
      exact iff_of_true (h.insert rfl _) (by simp)
    · next hint =>
      simp only [hint, true_imp_iff]
      split
      · next x hx =>
        simp only [hx, Option.some.injEq, forall_eq']
        constructor
        · intro hfin
          exact hfin (a.strParam "key") (.float x) (by simp [setEntry])
        · exact fun hfin => h.insert (v := .float x) hfin _
      · next hx => exact iff_of_true h (by simp [hx])

end Actions

/-! ### Lists of actions -/

section Run

variable {ex : ActionExecutor} {st st' : ExecState} {e e' : LogEntry} {a : ETLAction}

/-- The types of the actions that write what they are given from outside: lookups, samples
and scripts. -/
def readsOutside (t : ETLActionType) : Bool :=
  t = .lookupAsset || t = .lookupThreat || t = .lookupGeoIP || t = .randomSample || t = .customLua

/-- Every other action but `parse_number` passes an entry on that can be encoded. -/
theorem passes_applyPlain (hlib : ReadsJSON ex.lib) {tick : ℕ} (ha : readsOutside a.type = false)
    (hnum : a.type ≠ .parseNumber) (h : applyPlain ex tick e a = some e') : Passes e e' := by
  rw [applyPlain] at h
  split at h
  case h_6 ht => exact absurd ht hnum
  case h_9 => obtain rfl := filterRecords_eq h; exact .refl e'
  case h_10 => obtain rfl := filterRecords_eq h; exact .refl e'
  case h_24 ht => simp [readsOutside, ht] at ha
  case h_25 ht => simp [readsOutside, ht] at ha
  case h_26 ht => simp [readsOutside, ht] at ha
  case h_27 ht => simp [readsOutside, ht] at ha
  case h_30 => simp at h
  case h_31 ht => simp [readsOutside, ht] at ha
  all_goals obtain rfl := Option.some.inj h
  case h_1 => exact passes_setField
  case h_2 => exact passes_renameField
  case h_3 => exact passes_deleteField
  case h_4 => exact passes_copyKey
  case h_5 => exact passes_hashKey
  case h_7 => exact passes_filterKeys _
  case h_8 => exact passes_filterKeys _
  case h_11 => exact passes_replaceValue _
  case h_12 => exact passes_replaceValue _
  case h_13 => exact passes_flattenSubrecord
  case h_14 => exact passes_nestKeys
  case h_15 => exact passes_decodeCSV
  case h_16 => exact passes_encodeJSON
  case h_17 => exact passes_encodeCSV
  case h_18 => exact passes_multilineJoin
  case h_19 => exact passes_splitRecord
  case h_20 => exact passes_liftSubmap
  case h_21 => exact passes_joinRecords
  case h_22 => exact passes_parseJSON hlib
  case h_23 => exact passes_grok
  case h_28 =>
    -- the fields are what they were
    rw [setDataset]
    split_ifs <;> exact id
  case h_29 =>
    rw [setKind]
    split <;> exact id
  case h_32 => exact .refl e
  case h_33 => exact .refl e

/-- **What one action does to an entry that can be encoded**: it can still be, unless the
action is a `parse_number` that is given a text for no finite number. -/
theorem finiteFields_apply_iff (hlib : ReadsJSON ex.lib) (ha : readsOutside a.type = false)
    (h : FiniteFields e.fields) (happ : (apply ex st e a).1 = some e') :
    FiniteFields e'.fields ↔ ReadsFinite ex.lib e a := by
  by_cases hnum : a.type = .parseNumber
  · have hplain : parseNumber ex.lib e a = e' := by
      simpa [apply, applyPlain, hnum] using happ
    rw [← hplain]
    exact parseNumber_iff hnum h
  · refine iff_of_true ?_ fun hc => absurd hc hnum
    by_cases hdedup : a.type = .dedup
    · -- a `dedup` action passes the entry on as it is, or not at all
      have hsame : e' = e := by
        rw [apply, hdedup] at happ
        simp only [dedupAction] at happ
        split at happ
        · exact (Option.some.inj happ).symm
        · split_ifs at happ
          exact (Option.some.inj happ).symm
      exact hsame ▸ h
    · have hplain : applyPlain ex st.tick e a = some e' := by
        rw [apply] at happ
        split at happ
        · next hc => exact absurd hc hdedup
        · exact happ
      exact passes_applyPlain hlib ha hnum hplain h

/-- The entry that the first `k` actions pass on. -/
def entryAfter (ex : ActionExecutor) (st : ExecState) (e : LogEntry) (as : List ETLAction) (k : ℕ) :
    Option LogEntry := (applyActions ex st e (as.take k)).1

/-- The next entry is what the next action makes of this one. -/
theorem entryAfter_succ {as : List ETLAction} {k : ℕ} (hk : as[k]? = some a)
    (h : entryAfter ex st e as (k + 1) = some e') :
    ∃ e₀ st₀, entryAfter ex st e as k = some e₀ ∧ (apply ex st₀ e₀ a).1 = some e' := by
  rw [entryAfter, List.take_add_one, hk, Option.toList_some, Pipeline.applyActions_append] at h
  rw [entryAfter]
  rcases hrun : applyActions ex st e (as.take k) with ⟨_ | e₀, st₀⟩
  · rw [hrun] at h
    exact absurd h (by simp)
  · refine ⟨e₀, st₀, rfl, ?_⟩
    rw [hrun] at h
    simp only [applyActions] at h
    rcases happ : apply ex st₀ e₀ a with ⟨_ | e₁, st₁⟩
    · rw [happ] at h
      exact absurd h (by simp)
    · rw [happ] at h
      exact h

/-- An action that passes on an entry passes on the next one. -/
theorem entryAfter_of_apply {as : List ETLAction} {k : ℕ} (hk : as[k]? = some a)
    (h : entryAfter ex st e as k = some e') :
    ∃ st₀, entryAfter ex st e as (k + 1) = (apply ex st₀ e' a).1 := by
  rw [entryAfter] at h
  rcases hrun : applyActions ex st e (as.take k) with ⟨_ | e₀, st₀⟩
  · rw [hrun] at h
    exact absurd h (by simp)
  · rw [hrun] at h
    obtain rfl := Option.some.inj h
    refine ⟨st₀, ?_⟩
    rw [entryAfter, List.take_add_one, hk, Option.toList_some, Pipeline.applyActions_append, hrun]
    simp only [applyActions]
    rcases apply ex st₀ e₀ a with ⟨_ | e₁, st₁⟩ <;> rfl

/-- **Which lists of actions pass on entries that can be encoded**, from one that can be:
those in which `parse_number` is given no text for a number that is not finite. -/
theorem finiteFields_iff (hlib : ReadsJSON ex.lib) (h : FiniteFields e.fields)
    {as : List ETLAction} (has : ∀ a ∈ as, readsOutside a.type = false) :
    (∀ k e', entryAfter ex st e as k = some e' → FiniteFields e'.fields) ↔
      ∀ k a e', as[k]? = some a → entryAfter ex st e as k = some e' → ReadsFinite ex.lib e' a := by
  constructor
  · intro hall k a e' hk hbefore
    obtain ⟨st₀, hnext⟩ := entryAfter_of_apply hk hbefore
    have hout : readsOutside a.type = false := has a (List.mem_of_getElem? hk)
    rcases happ : (apply ex st₀ e' a).1 with _ | e₁
    · -- the action drops the entry, so it is no `parse_number`
      intro hnum
      simp [apply, applyPlain, hnum] at happ
    · exact (finiteFields_apply_iff hlib hout (hall k e' hbefore) happ).mp
        (hall (k + 1) e₁ (hnext.trans happ))
  · intro hreads k
    induction k with
    | zero =>
      intro e' he'
      obtain rfl := Option.some.inj he'
      exact h
    | succ k ih =>
      intro e' he'
      rcases hk : as[k]? with _ | a
      · -- the list has ended
        have hlen := List.getElem?_eq_none_iff.mp hk
        refine ih e' ?_
        rwa [entryAfter, List.take_of_length_le (by omega),
          ← List.take_of_length_le hlen] at he'
      · obtain ⟨e₀, st₀, hbefore, happ⟩ := entryAfter_succ hk he'
        exact (finiteFields_apply_iff hlib (has a (List.mem_of_getElem? hk)) (ih e₀ hbefore)
          happ).mpr (hreads k a e₀ hk hbefore)

end Run

/-! ### Batches for the lake -/

section Batches

/-- **An entry can be stored**: every field can be encoded, and its event never makes the
encoding of a batch fail. -/
def Storable (lib : StdLib) (e : LogEntry) : Prop :=
  FiniteFields e.fields ∧ ∀ index sourcetype before after,
    encodesAll (before ++ after) = true →
      encodesAll (before ++ entryToHEC lib e index sourcetype :: after) = true

/-- The members of an entry can be encoded. -/
theorem finiteFields_hecMembers (lib : StdLib) (e : LogEntry) : FiniteFields (hecMembers lib e) := by
  have hempty : FiniteFields ∅ := by
    intro k v hget
    simp at hget
  rw [hecMembers]
  split_ifs
  · exact FiniteFields.insertAll (by simp [finite]) hempty
  · exact (FiniteFields.insertAll (by simp [finite]) hempty).insert rfl _

/-- An entry can be stored if its fields can be encoded. -/
theorem storable_iff_finiteFields (lib : StdLib) (e : LogEntry) :
    Storable lib e ↔ FiniteFields e.fields := by
  refine ⟨fun h => h.1, fun h => ⟨h, fun index sourcetype before after hrest => ?_⟩⟩
  have hev : encodes (entryToHEC lib e index sourcetype) = true := by
    rw [encodes, finite_obj_iff]
    exact ((finiteFields_hecMembers lib e).copy h).toList
  rw [encodesAll, List.all_append, Bool.and_eq_true] at hrest
  rw [encodesAll, List.all_append, List.all_cons, hev, hrest.1, hrest.2]
  rfl

/-- The fields of a row are texts. -/
theorem finiteFields_buildEntry (lib : StdLib) (tenantID : GoString) (row : List GoString)
    (colIdx : GoMap ℕ) (agentID tag dataset : GoString) (now : Time) :
    FiniteFields (buildEntry lib tenantID row colIdx agentID tag dataset now).fields := by
  intro k v hget
  change (GoMap.eraseAll (rowFields row colIdx) memberColumns)[k]? = some v at hget
  rw [GoMap.getElem?_eraseAll] at hget
  split_ifs at hget
  rw [rowFields, Std.ExtTreeMap.getElem?_filterMap'] at hget
  obtain ⟨i, -, hcell⟩ := Option.bind_eq_some_iff.mp hget
  split at hcell
  · split_ifs at hcell
    obtain rfl := Option.some.inj hcell
    rfl
  · exact absurd hcell (by simp)

/-- **When the output of a list of actions can be stored**, for an entry built from a row: an
action list without lookups, samples and scripts, and each of its beginnings, passes on
an entry that can be stored, exactly when `parse_number` is given no text for a number that
is not finite. -/
theorem storable_iff {ex : ActionExecutor} (hlib : ReadsJSON ex.lib) (st : ExecState)
    (tenantID : GoString) (row : List GoString) (colIdx : GoMap ℕ)
    (agentID tag dataset : GoString) (now : Time) {as : List ETLAction}
    (has : ∀ a ∈ as, readsOutside a.type = false) :
    (∀ k e', entryAfter ex st (buildEntry ex.lib tenantID row colIdx agentID tag dataset now) as k =
        some e' → Storable ex.lib e') ↔
      ∀ k a e', as[k]? = some a →
        entryAfter ex st (buildEntry ex.lib tenantID row colIdx agentID tag dataset now) as k =
          some e' → ReadsFinite ex.lib e' a := by
  rw [← finiteFields_iff hlib (finiteFields_buildEntry _ _ _ _ _ _ _ _) has]
  simp only [storable_iff_finiteFields]

/-- A row with a number in it. -/
def scoreRow (score : String) : LogEntry :=
  buildEntry literalLib (str "t") [str score] (buildColIndex [str "score"]) (str "a") (str "tag")
    datasetEndpoint 0

/-- The action that makes a number of it. -/
def scoreNumber : ETLAction := textAction .parseNumber [("key", "score")]

/-- The actions on it. -/
def scoreActions : List ETLAction :=
  [scoreNumber, textAction .copyKey [("from", "score"), ("to", "n")]]

theorem storable_iff_twelve : ∃ e', entryAfter plainExecutor .init (scoreRow "12") scoreActions 2 =
    some e' ∧ Storable literalLib e' := by
  have hlib : ReadsJSON literalLib := fun s m h => absurd h (by simp [literalLib])
  have hall : ∀ k e', entryAfter plainExecutor .init (scoreRow "12") scoreActions k = some e' →
      Storable literalLib e' := by
    refine (@storable_iff plainExecutor hlib .init _ _ _ _ _ _ _ _ (by decide)).mpr
      fun k a e' hk he' hnum => ?_
    rcases k with _ | _ | k
    · -- the cell is the text of an integer
      obtain rfl := Option.some.inj hk
      obtain rfl := Option.some.inj he'
      intro raw _ _ hint
      have hsome : (parseInt raw).isSome = true := by decide +kernel
      rw [hint] at hsome
      exact absurd hsome (by simp)
    · obtain rfl := Option.some.inj hk
      exact absurd hnum (by decide)
    · exact absurd hk (by simp [scoreActions])
  exact ⟨_, rfl, hall 2 _ rfl⟩

/-- The library, with one number that is not finite. -/
def nanLib : StdLib :=
  { literalLib with parseFloat := fun s => if s = str "NaN" then some ⟨0x7FF8000000000001⟩ else none }

/-- A cell `NaN` is made a number that cannot be encoded. -/
theorem not_storable : ¬∀ (ex : ActionExecutor) (st : ExecState) (tenantID : GoString)
    (row : List GoString) (colIdx : GoMap ℕ) (agentID tag dataset : GoString) (now : Time)
    (as : List ETLAction), ReadsJSON ex.lib → (∀ a ∈ as, readsOutside a.type = false) → ∀ e',
      (applyActions ex st (buildEntry ex.lib tenantID row colIdx agentID tag dataset now) as).1 =
        some e' → Storable ex.lib e' := by
  intro h
  have hlib : ReadsJSON nanLib := fun s m h => absurd h (by simp [nanLib, literalLib])
  have hrun : ∃ e', (applyActions { plainExecutor with lib := nanLib } .init
      (buildEntry nanLib (str "t") [str "NaN"] (buildColIndex [str "score"]) (str "a") (str "tag")
        datasetEndpoint 0) [scoreNumber]).1 = some e' ∧
      e'.fields[str "score"]? = some (.float ⟨0x7FF8000000000001⟩) :=
    ⟨_, rfl, by decide +kernel⟩
  obtain ⟨e', hrun, hget⟩ := hrun
  have hstore := h { plainExecutor with lib := nanLib } .init (str "t") [str "NaN"]
    (buildColIndex [str "score"]) (str "a") (str "tag") datasetEndpoint 0 [scoreNumber] hlib
    (by decide) e' hrun
  exact absurd (hstore.1 _ _ hget) (by decide)

end Batches

end Etl

end Xsiam
