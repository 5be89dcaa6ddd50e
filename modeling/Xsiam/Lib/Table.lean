import Mathlib.Data.List.Find
import Mathlib.Data.List.Nodup

/-!
# Tables of rows with keys

Rows in the order they were added, no two with one key, where the key of a row is part of
it. A row is looked up by its key (`Table.find`), added unless its key is taken
(`Table.add`), and changed in place, its key kept (`Table.modify`, `Table.mapRows`).
-/

universe u v

/-- Rows, no two with one key. -/
structure Table {α : Type u} {κ : Type v} (key : α → κ) where
  rows : List α
  nodup : (rows.map key).Nodup

namespace Table

variable {α : Type u} {κ : Type v} {key : α → κ}

/-- A table without rows. -/
def empty : Table key := ⟨[], List.nodup_nil⟩

variable [DecidableEq κ] (t : Table key)

/-- The row of a key. -/
def find (k : κ) : Option α := t.rows.find? fun a => key a = k

theorem find_empty (k : κ) : (empty : Table key).find k = none := rfl

/-- A row at the end, unless its key is taken. -/
def add (a : α) : Table key :=
  if h : key a ∈ t.rows.map key then t
  else ⟨t.rows ++ [a], by
    rw [List.map_append, List.map_cons, List.map_nil]
    exact List.nodup_append_comm.mp (List.nodup_cons.mpr ⟨h, t.nodup⟩)⟩

/-- The row of a key changed. -/
def modifyRow (k : κ) (f : α → α) (a : α) : α := if key a = k then f a else a

theorem key_modifyRow {k : κ} {f : α → α} (hf : ∀ a, key (f a) = key a) (a : α) :
    key (@modifyRow α κ key _ k f a) = key a := by
  rw [modifyRow]
  split_ifs
  · exact hf a
  · rfl

/-- The row of a key is changed in place. -/
def modify (k : κ) (f : α → α) (hf : ∀ a, key (f a) = key a) : Table key where
  rows := t.rows.map (@modifyRow α κ key _ k f)
  nodup := by
    have hkeys : key ∘ @modifyRow α κ key _ k f = key := funext (key_modifyRow hf)
    rw [List.map_map, hkeys]
    exact t.nodup

/-- All rows are changed in place. -/
def mapRows (t : Table key) (f : α → α) (hf : ∀ a, key (f a) = key a) : Table key where
  rows := t.rows.map f
  nodup := by
    have hkeys : key ∘ f = key := funext hf
    rw [List.map_map, hkeys]
    exact t.nodup

variable {t}

/-! ### What holds of all rows -/

theorem forall_add {P : α → Prop} (h : ∀ a ∈ t.rows, P a) {a : α} (ha : P a) :
    ∀ b ∈ (t.add a).rows, P b := by
  rw [add]
  split_ifs
  · exact h
  · intro b hb
    rcases List.mem_append.mp hb with hb | hb
    · exact h b hb
    · rw [List.mem_singleton.mp hb]
      exact ha

theorem forall_modify {P : α → Prop} (h : ∀ a ∈ t.rows, P a) {k : κ} {f : α → α}
    (hf : ∀ a, key (f a) = key a) (hP : ∀ a, P a → P (f a)) :
    ∀ b ∈ (t.modify k f hf).rows, P b := by
  intro b hb
  obtain ⟨a, ha, rfl⟩ := List.mem_map.mp hb
  rw [modifyRow]
  split_ifs
  · exact hP a (h a ha)
  · exact h a ha

/-! ### Tables that agree

Two tables agree under a reading of rows that keeps their keys if they have the same rows as read. -/

section Agree

variable {t' : Table key} {f : α → α}

/-- What is found in tables that agree does. -/
theorem map_find_eq (hf : ∀ a, key (f a) = key a) (h : t.rows.map f = t'.rows.map f) (k : κ) :
    (t.find k).map f = (t'.find k).map f := by
  have hread : ∀ t : Table key, (t.find k).map f = (t.rows.map f).find? fun a => key a = k := by
    intro t
    rw [List.find?_map, Function.comp_def]
    simp only [hf]
    rfl
  rw [hread, hread, h]

theorem map_rows_add_eq (hf : ∀ a, key (f a) = key a) (h : t.rows.map f = t'.rows.map f) {a a' : α}
    (ha : f a = f a') : (t.add a).rows.map f = (t'.add a').rows.map f := by
  have hkeys : ∀ t : Table key, t.rows.map key = (t.rows.map f).map key := by
    intro t
    rw [List.map_map]
    exact List.map_congr_left fun a _ => (hf a).symm
  have hkey : key a = key a' := by rw [← hf a, ha, hf a']
  have htaken : key a ∈ t.rows.map key ↔ key a' ∈ t'.rows.map key := by
    rw [hkeys t, hkeys t', h, hkey]
  by_cases hin : key a ∈ t.rows.map key
  · rw [add, dif_pos hin, add, dif_pos (htaken.mp hin), h]
  · rw [add, dif_neg hin, add, dif_neg (mt htaken.mpr hin)]
    simp only [List.map_append, List.map_cons, List.map_nil, h, ha]

theorem map_rows_modify_eq (hf : ∀ a, key (f a) = key a) (h : t.rows.map f = t'.rows.map f) {k : κ}
    {g g' : α → α} (hg : ∀ a, key (g a) = key a) (hg' : ∀ a, key (g' a) = key a)
    (hsame : ∀ a a', f a = f a' → f (g a) = f (g' a')) :
    (t.modify k g hg).rows.map f = (t'.modify k g' hg').rows.map f := by
  have hrow : ∀ a a', f a = f a' →
      f (@modifyRow α κ key _ k g a) = f (@modifyRow α κ key _ k g' a') := by
    intro a a' ha
    have hkey : key a = key a' := by rw [← hf a, ha, hf a']
    rw [modifyRow, modifyRow, hkey]
    split_ifs
    · exact hsame a a' ha
    · exact ha
  have hrows : ∀ rows rows' : List α, rows.map f = rows'.map f →
      (rows.map (@modifyRow α κ key _ k g)).map f = (rows'.map (@modifyRow α κ key _ k g')).map f := by
    intro rows
    induction rows with
    | nil =>
      intro rows' h
      rw [List.map_eq_nil_iff.mp h.symm]
      rfl
    | cons a rows ih =>
      intro rows' h
      cases rows' with
      | nil => exact absurd h (by simp)
      | cons a' rows' =>
        obtain ⟨ha, hrest⟩ := List.cons.inj h
        rw [List.map_cons, List.map_cons, List.map_cons, List.map_cons, hrow a a' ha, ih rows' hrest]
  exact hrows t.rows t'.rows h

end Agree

/-! ### What is found -/

theorem find_eq_none_iff {k : κ} : t.find k = none ↔ k ∉ t.rows.map key := by
  rw [find, List.find?_eq_none, List.mem_map]
  constructor
  · rintro h ⟨a, ha, hk⟩
    exact h a ha (decide_eq_true hk)
  · exact fun h a ha hk => h ⟨a, ha, of_decide_eq_true hk⟩

theorem key_of_find {k : κ} {a : α} (h : t.find k = some a) : key a = k := by
  rw [find] at h
  have hmeets := List.find?_some h
  exact of_decide_eq_true hmeets

/-- The rows are what is found by their keys. -/
theorem mem_rows_iff {a : α} : a ∈ t.rows ↔ t.find (key a) = some a := by
  constructor
  · intro ha
    cases hfind : t.find (key a) with
    | none => exact absurd (List.mem_map_of_mem ha) (find_eq_none_iff.mp hfind)
    | some b =>
      have hb : b ∈ t.rows := List.mem_of_find?_eq_some hfind
      rw [List.inj_on_of_nodup_map t.nodup hb ha (key_of_find hfind)]
  · exact List.mem_of_find?_eq_some

/-- What is found after a row was added. -/
theorem find_add (a : α) (k : κ) :
    (t.add a).find k = (t.find k).or (if key a = k then some a else none) := by
  rw [add]
  split_ifs with htaken hk hk
  · -- the key is taken: there is a row to be found already
    have hne : t.find k ≠ none := by
      rw [Ne, find_eq_none_iff, not_not, ← hk]
      exact htaken
    obtain ⟨b, hb⟩ := Option.ne_none_iff_exists'.mp hne
    rw [hb, Option.some_or]
  · rw [Option.or_none]
  · rw [find, List.find?_append, List.find?_singleton, if_pos (decide_eq_true hk), find]
  · rw [find, List.find?_append, List.find?_singleton, if_neg (by simpa using hk), find]

/-- **What is found after a row was changed.** -/
theorem find_modify {k : κ} {f : α → α} (hf : ∀ a, key (f a) = key a) (k' : κ) :
    (t.modify k f hf).find k' = if k' = k then (t.find k').map f else t.find k' := by
  have hsame : (fun a => decide (key (@modifyRow α κ key _ k f a) = k')) =
      fun a => decide (key a = k') := by
    ext a
    rw [key_modifyRow hf]
  rw [find, modify, List.find?_map, Function.comp_def, hsame]
  show (t.find k').map _ = _
  cases hfind : t.find k' with
  | none => simp
  | some a =>
    rw [Option.map_some, modifyRow, key_of_find hfind]
    split_ifs
    · rfl
    · rfl

/-- What is found after all rows were changed. -/
theorem find_mapRows {f : α → α} (hf : ∀ a, key (f a) = key a) (k : κ) :
    (t.mapRows f hf).find k = (t.find k).map f := by
  have hsame : (fun a => decide (key (f a) = k)) = fun a => decide (key a = k) := by
    ext a
    rw [hf]
  rw [find, mapRows, List.find?_map, Function.comp_def, hsame]
  rfl

end Table
