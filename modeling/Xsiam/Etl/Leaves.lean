import Xsiam.Etl.Applied

/-!
# Actions that move fields

Five actions move values about the fields of an entry: `rename_field` and `copy_key` from one key
to another, `nest_keys` into a sub-record, `flatten_subrecord` and `lift_submap` out of one. None
of them looks into what it moves, so what counts is the leaves (`Xsiam.Etl.leavesOf`), the values in
the fields that are no maps, wherever the maps around them are.

Each action deletes and writes keys of one map. Where it deletes first, or writes keys that it does
not delete, the leaves are only moved. Two actions delete last: `rename_field`, which loses a field
that is renamed to its own name, and `lift_submap`, which loses what it has just written to the key
it lifts from. Nothing else is ever lost, as long as no action writes over a field that it does not
move (`Xsiam.Etl.keepsLeaves_iff`).
-/

namespace Xsiam

namespace Etl

open Go

/-! ### What a map holds -/

section Contents

variable {β γ : Type} (f : β → List γ)

/-- What the values of a map hold, one after the other. -/
def contents (m : GoMap β) : List γ := m.toList.flatMap fun kv => f kv.2

variable {f}

theorem nodup_toList (m : GoMap β) : m.toList.Nodup := (MapRange.byKey.nodup_keys m).of_map

theorem mem_toList {m : GoMap β} {k : GoString} {v : β} : (k, v) ∈ m.toList ↔ m[k]? = some v :=
  Std.ExtTreeMap.mem_toList_iff_getElem?_eq_some

/-- An entry, and the others. -/
theorem toList_perm {m : GoMap β} {k : GoString} {v : β} (h : m[k]? = some v) :
    m.toList.Perm ((k, v) :: (m.erase k).toList) := by
  have hnot : (k, v) ∉ (m.erase k).toList := by
    rw [mem_toList, GoMap.getElem?_erase, if_pos rfl]
    exact fun h => nomatch h
  rw [List.perm_ext_iff_of_nodup (nodup_toList m) (List.nodup_cons.mpr ⟨hnot, nodup_toList _⟩)]
  rintro ⟨k', v'⟩
  rw [List.mem_cons, mem_toList, mem_toList, GoMap.getElem?_erase, Prod.mk.injEq]
  split_ifs with hk
  · subst hk
    rw [h, Option.some.injEq]
    simp [eq_comm]
  · simp [hk]

theorem contents_erase {m : GoMap β} {k : GoString} {v : β} (h : m[k]? = some v) :
    (contents f m).Perm (f v ++ contents f (m.erase k)) :=
  (toList_perm h).flatMap_right _

theorem erase_of_none {m : GoMap β} {k : GoString} (h : m[k]? = none) : m.erase k = m := by
  refine Std.ExtTreeMap.ext_getElem? fun a => ?_
  rw [GoMap.getElem?_erase]
  split_ifs with ha
  · rw [ha, h]
  · rfl

theorem erase_insert (m : GoMap β) (k : GoString) (v : β) : (m.insert k v).erase k = m.erase k := by
  refine Std.ExtTreeMap.ext_getElem? fun a => ?_
  rw [GoMap.getElem?_erase, GoMap.getElem?_erase]
  split_ifs with ha
  · rfl
  · rw [GoMap.getElem?_insert_of_ne ha]

theorem contents_insert (m : GoMap β) (k : GoString) (v : β) :
    (contents f (m.insert k v)).Perm (f v ++ contents f (m.erase k)) := by
  have hget : (m.insert k v)[k]? = some v := by rw [GoMap.getElem?_insert, if_pos rfl]
  have h := contents_erase (f := f) hget
  rwa [erase_insert] at h

theorem contents_insert_of_none {m : GoMap β} {k : GoString} (h : m[k]? = none) (v : β) :
    (contents f (m.insert k v)).Perm (f v ++ contents f m) := by
  have hinsert := contents_insert (f := f) m k v
  rwa [erase_of_none h] at hinsert

/-- **Entries under new keys are added.** -/
theorem contents_insertAll {kvs : List (GoString × β)} (hkeys : (kvs.map Prod.fst).Nodup) :
    ∀ {m : GoMap β}, (∀ kv ∈ kvs, m[kv.1]? = none) →
      (contents f (GoMap.insertAll m kvs)).Perm
        ((kvs.flatMap fun kv => f kv.2) ++ contents f m) := by
  induction kvs with
  | nil => exact fun _ => .refl _
  | cons kv kvs ih =>
    intro m hnew
    obtain ⟨hkv, hrest⟩ := List.forall_mem_cons.mp hnew
    rw [List.map_cons, List.nodup_cons] at hkeys
    have hnew' : ∀ kv' ∈ kvs, (m.insert kv.1 kv.2)[kv'.1]? = none := by
      intro kv' hkv'
      have hne : kv'.1 ≠ kv.1 := fun heq =>
        hkeys.1 (heq ▸ List.mem_map_of_mem (f := Prod.fst) hkv')
      rw [GoMap.getElem?_insert_of_ne hne]
      exact hrest kv' hkv'
    have hone := contents_insert_of_none (f := f) hkv kv.2
    refine (ih hkeys.2 hnew').trans ?_
    rw [List.flatMap_cons]
    refine (hone.append_left _).trans ?_
    rw [← List.append_assoc]
    exact List.perm_append_comm.append_right _

/-- The entries with one kind of key, and the others. -/
theorem contents_filter (m : GoMap β) (p : GoString → Bool) :
    (contents f m).Perm (((m.toList.filter fun kv => p kv.1).flatMap fun kv => f kv.2) ++
      contents f (GoMap.filterKeys m fun k => !p k)) := by
  have hrest : (GoMap.filterKeys m fun k => !p k).toList = m.toList.filter fun kv => !p kv.1 := by
    rw [GoMap.filterKeys, Std.ExtTreeMap.toList_filter]
  rw [contents, contents, hrest, ← List.flatMap_append]
  exact (List.filter_append_perm _ _).symm.flatMap_right _

end Contents

/-! ### Leaves -/

mutual
/-- The leaves of a value: what is no map, in a map at any depth or by itself. -/
def leaves : Value → List Value
  | .obj kvs => leavesKvs kvs
  | v => [v]
/-- The leaves of a list of entries. -/
def leavesKvs : List (GoString × Value) → List Value
  | [] => []
  | (_, v) :: kvs => leaves v ++ leavesKvs kvs
end

mutual
/-- In no map of a value is a key twice. -/
def distinctKeys : Value → Bool
  | .obj kvs => (kvs.map Prod.fst).Nodup && distinctKeysKvs kvs
  | _ => true
/-- `distinctKeys`, for the values of a list of entries. -/
def distinctKeysKvs : List (GoString × Value) → Bool
  | [] => true
  | (_, v) :: kvs => distinctKeys v && distinctKeysKvs kvs
end

theorem leaves_obj (kvs : List (GoString × Value)) :
    leaves (.obj kvs) = kvs.flatMap fun kv => leaves kv.2 := by
  rw [leaves]
  induction kvs with
  | nil => rfl
  | cons kv kvs ih => rw [leavesKvs, ih, List.flatMap_cons]

theorem distinctKeys_obj_iff (kvs : List (GoString × Value)) :
    distinctKeys (.obj kvs) = true ↔
      (kvs.map Prod.fst).Nodup ∧ ∀ kv ∈ kvs, distinctKeys kv.2 = true := by
  have hkvs : distinctKeysKvs kvs = true ↔ ∀ kv ∈ kvs, distinctKeys kv.2 = true := by
    induction kvs with
    | nil => simp [distinctKeysKvs]
    | cons kv kvs ih => rw [distinctKeysKvs, Bool.and_eq_true, ih, List.forall_mem_cons]
  rw [distinctKeys, Bool.and_eq_true, hkvs, decide_eq_true_eq]

/-- The leaves of the fields of an entry. -/
def leavesOf (e : LogEntry) : List Value := contents leaves e.fields

/-- The values in the fields of an entry are maps as Go has them: no key is there twice. -/
def ProperFields (m : GoMap Value) : Prop :=
  ∀ (k : GoString) (v : Value), m[k]? = some v → distinctKeys v = true

namespace ProperFields

variable {m : GoMap Value}

theorem insert (h : ProperFields m) {v : Value} (hv : distinctKeys v = true) (k : GoString) :
    ProperFields (m.insert k v) :=
  GoMap.Each.insert h hv

theorem erase (h : ProperFields m) (k : GoString) : ProperFields (m.erase k) :=
  GoMap.Each.erase h k

theorem insertAll (h : ProperFields m) {kvs : List (GoString × Value)}
    (hkvs : ∀ kv ∈ kvs, distinctKeys kv.2 = true) : ProperFields (GoMap.insertAll m kvs) :=
  GoMap.Each.insertAll h hkvs

theorem filterKeys (h : ProperFields m) (p : GoString → Bool) :
    ProperFields (GoMap.filterKeys m p) :=
  GoMap.Each.filterKeys h p

end ProperFields

/-! ### The five actions -/

/-- The actions that move fields. -/
def structuralTypes : List ETLActionType :=
  [.renameField, .copyKey, .nestKeys, .flattenSubrecord, .liftSubmap]

/-- What an action that moves fields makes of an entry. -/
def structural (e : LogEntry) (a : ETLAction) : LogEntry :=
  match a.type with
  | .renameField => renameField e a
  | .copyKey => copyKey e a
  | .nestKeys => nestKeys e a
  | .flattenSubrecord => flattenSubrecord e a
  | .liftSubmap => liftSubmap e a
  | _ => e

/-- The keys that an action writes. -/
def writtenKeys (e : LogEntry) (a : ETLAction) : List GoString :=
  match a.type with
  | .renameField | .copyKey =>
    if a.strParam "from" = [] ∨ a.strParam "to" = [] ∨ e.fields[a.strParam "from"]? = none then []
    else [a.strParam "to"]
  | .nestKeys =>
    if a.strParam "key_prefix" = [] ∨ a.strParam "dest_key" = [] ∨
      ∀ kv ∈ e.fields.toList, hasPrefix kv.1 (a.strParam "key_prefix") = false then []
    else [a.strParam "dest_key"]
  | .flattenSubrecord =>
    if a.strParam "key" = [] then []
    else ((subMap e (a.strParam "key")).getD []).map (a.strParam "prefix" ++ ·.1)
  | .liftSubmap =>
    if a.strParam "src_key" = [] then []
    else ((subMap e (a.strParam "src_key")).getD []).map (a.strParam "prefix" ++ ·.1)
  | _ => []

/-- The keys whose values an action moves. -/
def moves (a : ETLAction) (k : GoString) : Bool :=
  match a.type with
  | .renameField | .copyKey => k = a.strParam "from"
  | .nestKeys => hasPrefix k (a.strParam "key_prefix")
  | .flattenSubrecord => k = a.strParam "key"
  | .liftSubmap => k = a.strParam "src_key"
  | _ => false

/-- An action writes over no field that it does not move. -/
def CollisionFree (e : LogEntry) (a : ETLAction) : Prop :=
  ∀ k ∈ writtenKeys e a, e.fields[k]? ≠ none → moves a k = true

instance (e : LogEntry) (a : ETLAction) : Decidable (CollisionFree e a) :=
  inferInstanceAs (Decidable (∀ k ∈ _, _))

/-- Every leaf of an entry is still there in what has become of it, and so often. -/
def KeepsLeaves (e e' : LogEntry) : Prop := (leavesOf e).Subperm (leavesOf e')

/-- An action does not delete what it has written: a field that holds a leaf is not renamed to its
own name, and no leaf is lifted to the key it is lifted from, unless that one is kept. -/
def Careful (e : LogEntry) (a : ETLAction) : Prop :=
  (a.type = .renameField → a.strParam "from" = a.strParam "to" → a.strParam "from" ≠ [] →
    ∀ v ∈ e.fields[a.strParam "from"]?, leaves v = []) ∧
  (a.type = .liftSubmap → a.strParam "keep_src" ≠ str "true" → a.strParam "src_key" ≠ [] →
    ∀ kv ∈ (subMap e (a.strParam "src_key")).getD [],
      a.strParam "prefix" ++ kv.1 = a.strParam "src_key" → leaves kv.2 = [])

instance (e : LogEntry) (a : ETLAction) : Decidable (Careful e a) :=
  inferInstanceAs (Decidable (_ ∧ _))

/-! ### What each of them keeps -/

/-- What is left when something is taken away is all there was only if that was nothing. -/
theorem subperm_iff_of_perm {α : Type} {l l' t : List α} (h : l.Perm (t ++ l')) :
    l.Subperm l' ↔ t = [] := by
  constructor
  · intro hsub
    have hlen := hsub.length_le
    rw [h.length_eq, List.length_append] at hlen
    exact List.length_eq_zero_iff.mp (by omega)
  · rintro rfl
    exact h.subperm

section Actions

variable {e : LogEntry} {a : ETLAction}

/-- A key that an action writes and does not move is a new one. -/
theorem fresh_of_collisionFree (hfree : CollisionFree e a) {k : GoString} (hk : k ∈ writtenKeys e a)
    (hmoves : ¬moves a k = true) : e.fields[k]? = none := by
  by_contra hne
  exact hmoves (hfree k hk hne)

theorem keepsLeaves_renameField (ha : a.type = .renameField) (hfree : CollisionFree e a) :
    KeepsLeaves e (structural e a) ↔ Careful e a := by
  simp only [KeepsLeaves, structural, Careful, ha, reduceCtorEq, forall_const, false_implies,
    and_true]
  by_cases hempty : a.strParam "from" = [] ∨ a.strParam "to" = []
  · rw [renameField, if_pos hempty]
    refine iff_of_true (List.Subperm.refl _) fun heq hne => ?_
    rcases hempty with h | h
    · exact absurd h hne
    · exact absurd (heq.trans h) hne
  · cases hv : e.fields[a.strParam "from"]? with
    | none =>
      simp only [renameField, if_neg hempty, hv]
      exact iff_of_true (List.Subperm.refl _) fun _ _ v hv => nomatch hv
    | some v =>
      simp only [renameField, if_neg hempty, hv]
      have hall := contents_erase (f := leaves) hv
      by_cases hsame : a.strParam "from" = a.strParam "to"
      · -- what is written under the name is deleted again
        rw [← hsame]
        have hlost : (leavesOf e).Perm (leaves v ++
            leavesOf (deleteEntry (setEntry e (a.strParam "from") v) (a.strParam "from"))) := by
          rw [leavesOf, leavesOf, deleteEntry, setEntry, erase_insert]
          exact hall
        rw [subperm_iff_of_perm hlost]
        exact ⟨fun h _ _ w hw => Option.some.inj hw ▸ h,
          fun h => h rfl (fun hnil => hempty (.inl hnil)) v rfl⟩
      · refine iff_of_true ?_ fun heq => absurd heq hsame
        have hwritten : a.strParam "to" ∈ writtenKeys e a := by
          simp [writtenKeys, ha, not_or.mp hempty, hv]
        have hfresh := fresh_of_collisionFree hfree hwritten
          (by simpa [moves, ha] using Ne.symm hsame)
        -- with two names the order of writing and deleting does not matter
        have hfields : (e.fields.insert (a.strParam "to") v).erase (a.strParam "from") =
            (e.fields.erase (a.strParam "from")).insert (a.strParam "to") v := by
          refine Std.ExtTreeMap.ext_getElem? fun k => ?_
          rw [GoMap.getElem?_erase, GoMap.getElem?_insert, GoMap.getElem?_insert,
            GoMap.getElem?_erase]
          split_ifs with hfrom hto
          · exact absurd (hfrom.symm.trans hto) hsame
          · rfl
          · rfl
          · rfl
        have hfresh' : (e.fields.erase (a.strParam "from"))[a.strParam "to"]? = none := by
          rw [GoMap.getElem?_erase, if_neg (Ne.symm hsame), hfresh]
        have hmoved := contents_insert_of_none (f := leaves) hfresh' v
        rw [leavesOf, leavesOf, deleteEntry, setEntry, hfields]
        exact (hall.trans hmoved.symm).subperm

theorem keepsLeaves_copyKey (ha : a.type = .copyKey) (hfree : CollisionFree e a) :
    KeepsLeaves e (structural e a) := by
  simp only [KeepsLeaves, structural, ha]
  by_cases hempty : a.strParam "from" = [] ∨ a.strParam "to" = []
  · rw [copyKey, if_pos hempty]
  · cases hv : e.fields[a.strParam "from"]? with
    | none => simp only [copyKey, if_neg hempty, hv, List.Subperm.refl]
    | some v =>
      simp only [copyKey, if_neg hempty, hv]
      have hwritten : a.strParam "to" ∈ writtenKeys e a := by
        simp [writtenKeys, ha, not_or.mp hempty, hv]
      by_cases hsame : a.strParam "to" = a.strParam "from"
      · have hnew := contents_insert (f := leaves) e.fields (a.strParam "to") v
        rw [hsame] at hnew ⊢
        exact ((contents_erase hv).trans hnew.symm).subperm
      · have hfresh := fresh_of_collisionFree hfree hwritten (by simpa [moves, ha] using hsame)
        refine List.Subperm.trans ?_ (contents_insert_of_none (f := leaves) hfresh v).symm.subperm
        exact (List.sublist_append_right _ _).subperm

/-- What is nested are the entries with the prefix, without it. -/
theorem map_nested (p : GoString) (kvs : List (GoString × Value)) :
    ((kvs.filterMap fun kv => (cutPrefix kv.1 p).map (·, kv.2)).map fun kv => (p ++ kv.1, kv.2)) =
      kvs.filter fun kv => hasPrefix kv.1 p := by
  induction kvs with
  | nil => rfl
  | cons kv kvs ih =>
    rw [List.filterMap_cons, List.filter_cons, hasPrefix]
    cases hcut : cutPrefix kv.1 p with
    | none =>
      have hnot : ¬p.isPrefixOf kv.1 = true := by
        intro hp
        rw [cutPrefix, if_pos hp] at hcut
        cases hcut
      rw [Option.map_none, if_neg hnot]
      exact ih
    | some rest =>
      have hkey := cutPrefix_eq_some.mp hcut
      have hp : p.isPrefixOf kv.1 = true := by rw [hkey, List.isPrefixOf_iff_prefix]; simp
      rw [Option.map_some, List.map_cons, ih, if_pos hp, ← hkey]

theorem flatMap_nested (p : GoString) (kvs : List (GoString × Value)) :
    ((kvs.filterMap fun kv => (cutPrefix kv.1 p).map (·, kv.2)).flatMap fun kv => leaves kv.2) =
      (kvs.filter fun kv => hasPrefix kv.1 p).flatMap fun kv => leaves kv.2 := by
  rw [← map_nested, List.flatMap_map]

theorem keepsLeaves_nestKeys (ha : a.type = .nestKeys) (hfree : CollisionFree e a) :
    KeepsLeaves e (structural e a) := by
  simp only [KeepsLeaves, structural, ha]
  rw [nestKeys]
  simp only
  split_ifs with hempty hnested
  · exact List.Subperm.refl _
  · -- nothing has the prefix
    have hall := contents_filter (f := leaves) e.fields
      fun k => hasPrefix k (a.strParam "key_prefix")
    rw [← flatMap_nested, hnested, List.flatMap_nil, List.nil_append] at hall
    exact hall.subperm
  · have hall := contents_filter (f := leaves) e.fields
      fun k => hasPrefix k (a.strParam "key_prefix")
    rw [← flatMap_nested, ← leaves_obj] at hall
    have hfresh : (GoMap.filterKeys e.fields fun k =>
        !hasPrefix k (a.strParam "key_prefix"))[a.strParam "dest_key"]? = none := by
      rw [GoMap.getElem?_filterKeys]
      split_ifs with hdest
      · refine fresh_of_collisionFree hfree ?_ (by simpa [moves, ha] using hdest)
        rw [not_or] at hempty
        have hsome : ¬∀ kv ∈ e.fields.toList, hasPrefix kv.1 (a.strParam "key_prefix") = false := by
          intro hnone
          refine hnested (List.filterMap_eq_nil_iff.mpr fun kv hkv => ?_)
          have hkey := hnone kv hkv
          rw [hasPrefix] at hkey
          rw [cutPrefix, if_neg (by simp [hkey])]
          rfl
        simp only [writtenKeys, ha]
        rw [if_neg (by tauto)]
        exact List.mem_singleton_self _
      · rfl
    exact (hall.trans (contents_insert_of_none hfresh _).symm).subperm

theorem subMap_eq_some {k : GoString} {sub : List (GoString × Value)} :
    subMap e k = some sub ↔ e.fields[k]? = some (.obj sub) := by
  rw [subMap]
  split
  · next kvs h => rw [h]; simp
  · next hnot =>
    refine iff_of_false (fun h => nomatch h) fun h => hnot sub h

/-- The entries of a sub-record under their new keys. -/
theorem spread_keys {sub : List (GoString × Value)} (hsub : (sub.map Prod.fst).Nodup)
    (p : GoString) :
    ((sub.map fun kv => (p ++ kv.1, kv.2)).map Prod.fst).Nodup ∧
      ((sub.map fun kv => (p ++ kv.1, kv.2)).flatMap fun kv => leaves kv.2) =
        leaves (.obj sub) := by
  constructor
  · rw [List.map_map]
    have hcomp : (Prod.fst ∘ fun kv : GoString × Value => (p ++ kv.1, kv.2)) =
        (p ++ ·) ∘ Prod.fst := rfl
    rw [hcomp, ← List.map_map]
    exact hsub.map (List.append_right_injective p)
  · rw [leaves_obj, List.flatMap_map]

theorem keepsLeaves_flattenSubrecord (he : ProperFields e.fields) (ha : a.type = .flattenSubrecord)
    (hfree : CollisionFree e a) : KeepsLeaves e (structural e a) := by
  simp only [KeepsLeaves, structural, ha]
  rw [flattenSubrecord]
  split_ifs with hempty
  · exact List.Subperm.refl _
  · cases hsub : subMap e (a.strParam "key") with
    | none => exact List.Subperm.refl _
    | some sub =>
      have hget := subMap_eq_some.mp hsub
      obtain ⟨hkeys, hleaves⟩ :=
        spread_keys ((distinctKeys_obj_iff sub).mp (he _ _ hget)).1 (a.strParam "prefix")
      have hnew : ∀ kv ∈ sub.map fun kv => (a.strParam "prefix" ++ kv.1, kv.2),
          (e.fields.erase (a.strParam "key"))[kv.1]? = none := by
        intro kv hkv
        rw [GoMap.getElem?_erase]
        split_ifs with hkey
        · rfl
        · refine fresh_of_collisionFree hfree ?_ (by simpa [moves, ha] using hkey)
          obtain ⟨kv', hkv', rfl⟩ := List.mem_map.mp hkv
          simp only [writtenKeys, ha, if_neg hempty, hsub, Option.getD_some]
          exact List.mem_map.mpr ⟨kv', hkv', rfl⟩
      have hspread := contents_insertAll (f := leaves) hkeys hnew
      rw [hleaves] at hspread
      exact ((contents_erase hget).trans hspread.symm).subperm

/-- What is written over does not matter. -/
theorem insertAll_erase {k : GoString} {kvs : List (GoString × Value)} (hk : k ∈ kvs.map Prod.fst) :
    ∀ m : GoMap Value, GoMap.insertAll (m.erase k) kvs = GoMap.insertAll m kvs := by
  induction kvs with
  | nil => exact absurd hk List.not_mem_nil
  | cons kv kvs ih =>
    intro m
    change GoMap.insertAll ((m.erase k).insert kv.1 kv.2) kvs =
      GoMap.insertAll (m.insert kv.1 kv.2) kvs
    by_cases hkv : k = kv.1
    · have hfirst : (m.erase k).insert kv.1 kv.2 = m.insert kv.1 kv.2 := by
        refine Std.ExtTreeMap.ext_getElem? fun a => ?_
        rw [GoMap.getElem?_insert, GoMap.getElem?_insert, GoMap.getElem?_erase, hkv]
        split_ifs <;> rfl
      rw [hfirst]
    · have hfirst : (m.erase k).insert kv.1 kv.2 = (m.insert kv.1 kv.2).erase k := by
        refine Std.ExtTreeMap.ext_getElem? fun a => ?_
        rw [GoMap.getElem?_insert, GoMap.getElem?_erase, GoMap.getElem?_erase,
          GoMap.getElem?_insert]
        split_ifs with h₁ h₂
        · exact absurd (h₂.symm.trans h₁) hkv
        · rfl
        · rfl
        · rfl
      rw [hfirst]
      exact ih ((List.mem_cons.mp hk).resolve_left hkv) _

/-- A value lifted to the key of its own map takes the place of the map. -/
theorem lifted_over {m : GoMap Value} {k : GoString} {v : Value} {kvs : List (GoString × Value)}
    (hget : m[k]? = some v) (hkeys : (kvs.map Prod.fst).Nodup)
    (hleaves : (kvs.flatMap fun kv => leaves kv.2) = leaves v) (hself : k ∈ kvs.map Prod.fst)
    (hnew : ∀ kv ∈ kvs, kv.1 ≠ k → m[kv.1]? = none) :
    (contents leaves m).Perm (contents leaves (GoMap.insertAll m kvs)) := by
  have hnew' : ∀ kv ∈ kvs, (m.erase k)[kv.1]? = none := by
    intro kv hkv
    rw [GoMap.getElem?_erase]
    split_ifs with hkey
    · rfl
    · exact hnew kv hkv hkey
  have hspread := contents_insertAll (f := leaves) hkeys hnew'
  rw [hleaves, insertAll_erase hself] at hspread
  exact (contents_erase hget).trans hspread.symm

theorem keepsLeaves_liftSubmap (he : ProperFields e.fields) (ha : a.type = .liftSubmap)
    (hfree : CollisionFree e a) : KeepsLeaves e (structural e a) ↔ Careful e a := by
  simp only [KeepsLeaves, structural, Careful, ha, reduceCtorEq, forall_const, false_implies,
    true_and]
  rw [liftSubmap]
  simp only
  by_cases hempty : a.strParam "src_key" = []
  · rw [if_pos hempty]
    exact iff_of_true (List.Subperm.refl _) fun _ hne => absurd hempty hne
  rw [if_neg hempty]
  cases hsub : subMap e (a.strParam "src_key") with
  | none => exact iff_of_true (List.Subperm.refl _) fun _ _ kv hkv => nomatch hkv
  | some sub =>
    have hget := subMap_eq_some.mp hsub
    obtain ⟨hkeys, hleaves⟩ :=
      spread_keys ((distinctKeys_obj_iff sub).mp (he _ _ hget)).1 (a.strParam "prefix")
    have hnew : ∀ kv ∈ sub.map fun kv => (a.strParam "prefix" ++ kv.1, kv.2),
        kv.1 ≠ a.strParam "src_key" → e.fields[kv.1]? = none := by
      intro kv hkv hkey
      refine fresh_of_collisionFree hfree ?_ (by simpa [moves, ha] using hkey)
      obtain ⟨kv', hkv', rfl⟩ := List.mem_map.mp hkv
      simp only [writtenKeys, ha, if_neg hempty, hsub, Option.getD_some]
      exact List.mem_map.mpr ⟨kv', hkv', rfl⟩
    have hentry : ∀ v, (a.strParam "src_key", v) ∈
        (sub.map fun kv => (a.strParam "prefix" ++ kv.1, kv.2)) ↔
        ∃ kv ∈ sub, a.strParam "prefix" ++ kv.1 = a.strParam "src_key" ∧ kv.2 = v := by
      intro v
      simp only [List.mem_map, Prod.mk.injEq]
    have hlifted : (spread e (a.strParam "prefix") sub).fields = GoMap.insertAll e.fields
        (sub.map fun kv => (a.strParam "prefix" ++ kv.1, kv.2)) := rfl
    simp only [Option.getD_some]
    generalize sub.map (fun kv => (a.strParam "prefix" ++ kv.1, kv.2)) = kvs at *
    rcases GoMap.getElem?_insertAll_cases kvs (a.strParam "src_key") e.fields with
      ⟨v, hv, hgetv⟩ | ⟨hnot, hsame⟩
    · have hover := lifted_over hget hkeys hleaves (List.mem_map_of_mem (f := Prod.fst) hv) hnew
      split_ifs with hkeep
      · rw [leavesOf, leavesOf, hlifted]
        exact iff_of_true hover.subperm fun h => absurd hkeep h
      · -- what was written to the key is deleted again
        have hlost := hover.trans (contents_erase (f := leaves) hgetv)
        rw [leavesOf, leavesOf, deleteEntry, hlifted, subperm_iff_of_perm hlost]
        constructor
        · intro hnil _ _ kv hkv hkey
          have hmem := (hentry kv.2).mpr ⟨kv, hkv, hkey, rfl⟩
          have heq := List.inj_on_of_nodup_map hkeys hmem hv rfl
          rw [(Prod.mk.inj heq).2, hnil]
        · intro hcareful
          obtain ⟨kv, hkv, hkey, rfl⟩ := (hentry v).mp hv
          exact hcareful hkeep hempty kv hkv hkey
    · -- no value is lifted to the key itself
      have hvacuous : ∀ kv ∈ sub, a.strParam "prefix" ++ kv.1 = a.strParam "src_key" →
          leaves kv.2 = [] := by
        intro kv hkv hkey
        exact absurd rfl (hnot _ ((hentry kv.2).mpr ⟨kv, hkv, hkey, rfl⟩))
      have hspread := contents_insertAll (f := leaves) hkeys fun kv hkv =>
        hnew kv hkv (hnot kv hkv)
      rw [hleaves] at hspread
      split_ifs with hkeep
      · rw [leavesOf, leavesOf, hlifted]
        refine iff_of_true ?_ fun h => absurd hkeep h
        exact (List.sublist_append_right _ _).subperm.trans hspread.symm.subperm
      · rw [leavesOf, leavesOf, deleteEntry, hlifted]
        refine iff_of_true ?_ fun _ _ => hvacuous
        have hdeleted := contents_erase (f := leaves) (hsame.trans hget)
        exact ((List.perm_append_left_iff _).mp (hspread.symm.trans hdeleted)).subperm

/-- **An action loses nothing exactly if it is careful.** -/
theorem keepsLeaves_iff_careful (he : ProperFields e.fields) (ha : a.type ∈ structuralTypes)
    (hfree : CollisionFree e a) : KeepsLeaves e (structural e a) ↔ Careful e a := by
  have htrue : ∀ {t : ETLActionType}, a.type = t → t ≠ .renameField → t ≠ .liftSubmap →
      Careful e a := by
    rintro t rfl hrename hlift
    exact ⟨fun h => absurd h hrename, fun h => absurd h hlift⟩
  simp only [structuralTypes, List.mem_cons, List.not_mem_nil, or_false] at ha
  rcases ha with ha | ha | ha | ha | ha
  · exact keepsLeaves_renameField ha hfree
  · exact iff_of_true (keepsLeaves_copyKey ha hfree) (htrue ha (by decide) (by decide))
  · exact iff_of_true (keepsLeaves_nestKeys ha hfree) (htrue ha (by decide) (by decide))
  · exact iff_of_true (keepsLeaves_flattenSubrecord he ha hfree)
      (htrue ha (by decide) (by decide))
  · exact keepsLeaves_liftSubmap he ha hfree

/-! ### Maps stay maps -/

theorem ProperFields.nested {m : GoMap Value} (h : ProperFields m) (p : GoString) :
    distinctKeys (.obj (m.toList.filterMap fun kv => (cutPrefix kv.1 p).map (·, kv.2))) = true := by
  rw [distinctKeys_obj_iff]
  constructor
  · refine List.Nodup.of_map (p ++ ·) ?_
    have hkeys := congrArg (List.map Prod.fst) (map_nested p m.toList)
    rw [List.map_map] at hkeys
    rw [List.map_map]
    have hnodup : ((m.toList.filter fun kv => hasPrefix kv.1 p).map Prod.fst).Nodup :=
      (MapRange.byKey.nodup_keys m).sublist (List.filter_sublist.map Prod.fst)
    rw [← hkeys] at hnodup
    exact hnodup
  · intro kv hkv
    obtain ⟨⟨k, v⟩, hmem, hcut⟩ := List.mem_filterMap.mp hkv
    obtain ⟨rest, -, rfl⟩ := Option.map_eq_some_iff.mp hcut
    exact h k v (mem_toList.mp hmem)

theorem ProperFields.spread {m : GoMap Value} (h : ProperFields m) {sub : List (GoString × Value)}
    (hsub : distinctKeys (.obj sub) = true) (p : GoString) :
    ProperFields (GoMap.insertAll m (sub.map fun kv => (p ++ kv.1, kv.2))) := by
  refine h.insertAll fun kv hkv => ?_
  obtain ⟨kv', hkv', rfl⟩ := List.mem_map.mp hkv
  exact ((distinctKeys_obj_iff sub).mp hsub).2 kv' hkv'

/-- An action that moves fields leaves maps in the fields. -/
theorem properFields_structural (he : ProperFields e.fields) (a : ETLAction) :
    ProperFields (structural e a).fields := by
  rw [structural]
  split
  · rw [renameField]
    split_ifs
    · exact he
    · split
      · next v hv => exact (he.insert (he _ _ hv) _).erase _
      · exact he
  · rw [copyKey]
    split_ifs
    · exact he
    · split
      · next v hv => exact he.insert (he _ _ hv) _
      · exact he
  · rw [nestKeys]
    simp only
    split_ifs
    · exact he
    · exact he.filterKeys _
    · exact (he.filterKeys _).insert (he.nested _) _
  · rw [flattenSubrecord]
    split_ifs
    · exact he
    · split
      · next sub hsub => exact (he.erase _).spread (he _ _ (subMap_eq_some.mp hsub)) _
      · exact he
  · rw [liftSubmap]
    split
    · exact he
    · split
      · exact he
      · next sub hsub =>
        -- the key is taken out of what was spread, where it is not kept
        have hspread := he.spread (he _ _ (subMap_eq_some.mp hsub)) (a.strParam "prefix")
        simp only
        split_ifs
        · exact hspread
        · exact hspread.erase _
  · exact he

end Actions

/-! ### Whole runs -/

/-- An action that moves fields never drops an entry. -/
theorem apply_structural {a : ETLAction} (ha : a.type ∈ structuralTypes) (ex : ActionExecutor)
    (st : ExecState) (e : LogEntry) :
    apply ex st e a = (some (structural e a), { st with tick := st.tick + 1 }) := by
  simp only [structuralTypes, List.mem_cons, List.not_mem_nil, or_false] at ha
  rcases ha with ha | ha | ha | ha | ha <;> rw [apply, ha] <;>
    simp only [applyPlain, structural, ha]

/-- Something holds of every action of a run, with the entry it gets and the one it leaves. -/
def Along (ex : ActionExecutor) (P : LogEntry → ETLAction → LogEntry → Prop) :
    ExecState → LogEntry → List ETLAction → Prop
  | _, _, [] => True
  | st, e, a :: as => match apply ex st e a with
    | (none, _) => False
    | (some e', st') => P e a e' ∧ Along ex P st' e' as

instance (ex : ActionExecutor) (P : LogEntry → ETLAction → LogEntry → Prop)
    [∀ e a e', Decidable (P e a e')] :
    ∀ (st : ExecState) (e : LogEntry) (as : List ETLAction), Decidable (Along ex P st e as)
  | _, _, [] => .isTrue trivial
  | st, e, a :: as => match h : apply ex st e a with
    | (none, _) => .isFalse (by rw [Along, h]; exact id)
    | (some e', st') =>
      haveI := instDecidableAlong ex P st' e' as
      decidable_of_iff (P e a e' ∧ Along ex P st' e' as) (by rw [Along, h])

/-- **A run loses nothing exactly if all its actions are careful.** As long as no action writes over
a field that it does not move, each action keeps every leaf if and only if it does not delete what
it has written; and what none of the actions loses is there at the end. -/
theorem keepsLeaves_iff (ex : ActionExecutor) (as : List ETLAction)
    (htypes : ∀ a ∈ as, a.type ∈ structuralTypes) (st : ExecState) (e : LogEntry)
    (he : ProperFields e.fields) (hfree : Along ex (fun e a _ => CollisionFree e a) st e as) :
    (Along ex (fun e _ e' => KeepsLeaves e e') st e as ↔
      Along ex (fun e a _ => Careful e a) st e as) ∧
    (Along ex (fun e a _ => Careful e a) st e as →
      ∃ e', (applyActions ex st e as).1 = some e' ∧ KeepsLeaves e e') := by
  induction as generalizing st e with
  | nil => exact ⟨Iff.rfl, fun _ => ⟨e, rfl, List.Subperm.refl _⟩⟩
  | cons a as ih =>
    obtain ⟨ha, has⟩ := List.forall_mem_cons.mp htypes
    rw [Along, apply_structural ha] at hfree
    have hstep := keepsLeaves_iff_careful he ha hfree.1
    obtain ⟨hiff, hend⟩ := ih has _ _ (properFields_structural he a) hfree.2
    rw [Along, Along, applyActions, apply_structural ha]
    simp only
    rw [hstep, hiff]
    refine ⟨Iff.rfl, fun hcareful => ?_⟩
    obtain ⟨e', hrun, hkeeps⟩ := hend hcareful.2
    exact ⟨e', hrun, (hstep.mpr hcareful.1).trans hkeeps⟩

theorem properFields_entryWith (tenantID : GoString) {kvs : List (GoString × Value)}
    (h : ∀ kv ∈ kvs, distinctKeys kv.2 = true) : ProperFields (entryWith tenantID kvs).fields := by
  refine ProperFields.insertAll (fun k v hv => ?_) h
  simp at hv

/-- Keys are nested under a key that has the prefix itself, the map is lifted out with its keys
renamed, and one of them gets another name. -/
theorem keepsLeaves_nested :
    ∃ e', (applyActions plainExecutor .init
        (entryWith (str "t1")
          [(str "p.", .obj [(str "x", .bool true)]), (str "p.a", .str (str "v"))])
        [textAction .nestKeys [("key_prefix", "p."), ("dest_key", "p.")],
          textAction .liftSubmap [("src_key", "p."), ("prefix", "q.")],
          textAction .renameField [("from", "q.a"), ("to", "p.")]]).1 = some e' ∧
      KeepsLeaves
        (entryWith (str "t1")
          [(str "p.", .obj [(str "x", .bool true)]), (str "p.a", .str (str "v"))])
        e' :=
  (keepsLeaves_iff plainExecutor _ (by decide) .init _
    (properFields_entryWith _ (by decide +kernel)) (by decide +kernel)).2 (by decide +kernel)

/-- A field renamed to its own name is gone, and so is an entry of a sub-record that has the name of
its sub-record: neither action writes over another field. -/
theorem not_keepsLeaves :
    (Along plainExecutor (fun e a _ => CollisionFree e a) .init
        (entryWith (str "t1") [(str "x", .str (str "v"))])
        [textAction .renameField [("from", "x"), ("to", "x")]] ∧
      .str (str "v") ∈ leavesOf (entryWith (str "t1") [(str "x", .str (str "v"))]) ∧
      ∃ e', (applyActions plainExecutor .init (entryWith (str "t1") [(str "x", .str (str "v"))])
          [textAction .renameField [("from", "x"), ("to", "x")]]).1 = some e' ∧
        .str (str "v") ∉ leavesOf e') ∧
    (Along plainExecutor (fun e a _ => CollisionFree e a) .init
        (entryWith (str "t1") [(str "s", .obj [(str "s", .str (str "v"))])])
        [textAction .liftSubmap [("src_key", "s")]] ∧
      .str (str "v") ∈
        leavesOf (entryWith (str "t1") [(str "s", .obj [(str "s", .str (str "v"))])]) ∧
      ∃ e', (applyActions plainExecutor .init
          (entryWith (str "t1") [(str "s", .obj [(str "s", .str (str "v"))])])
          [textAction .liftSubmap [("src_key", "s")]]).1 = some e' ∧
        .str (str "v") ∉ leavesOf e') :=
  ⟨⟨by decide +kernel, by decide +kernel, _, rfl, by decide +kernel⟩,
    ⟨by decide +kernel, by decide +kernel, _, rfl, by decide +kernel⟩⟩

end Etl

end Xsiam
