import Mathlib.Data.List.Find
import Mathlib.Data.List.Nodup

/-!
# Collections of documents

A document database, as far as a program sees it: documents in an order that queries go
through, each under a key of its own that the database chose when it was written. A query
for one document is answered with the first that meets its condition
(`Collection.first`) or with the one of a key (`Collection.get`). A write goes to the document
of a key (`Collection.update`) or to all documents that meet a condition
(`Collection.updateWhere`), and a document may be taken out (`Collection.erase`).

A write that leaves the condition of a query as it is leaves which document answers it as it
is too. The laws below say how each of the two queries goes with each write.
-/

universe u

/-- Documents, each under a key of its own. -/
structure Collection (δ : Type u) where
  docs : List (ℕ × δ)
  /-- The key of the next document. -/
  next : ℕ
  lt_next : ∀ d ∈ docs, d.1 < next
  nodup : (docs.map Prod.fst).Nodup

namespace Collection

variable {δ : Type u}

/-- A collection without documents. -/
def empty : Collection δ := ⟨[], 0, by simp, by simp⟩

variable (c : Collection δ)

/-- The first document that meets a condition, with its key. -/
def first (p : δ → Bool) : Option (ℕ × δ) := c.docs.find? fun d => p d.2

/-- A new document. -/
def insert (d : δ) : Collection δ where
  docs := c.docs ++ [(c.next, d)]
  next := c.next + 1
  lt_next := by
    intro e he
    rcases List.mem_append.mp he with he | he
    · exact Nat.lt_succ_of_lt (c.lt_next e he)
    · rw [List.mem_singleton.mp he]
      exact Nat.lt_succ_self c.next
  nodup := by
    rw [List.map_append, List.map_cons, List.map_nil]
    refine c.nodup.append (List.nodup_singleton _) ?_
    -- the key is above all others
    rintro k hk hk'
    obtain ⟨e, he, rfl⟩ := List.mem_map.mp hk
    exact absurd (List.mem_singleton.mp hk') (Nat.ne_of_lt (c.lt_next e he))

/-- A document written, its key kept. -/
def write (q : ℕ × δ → Bool) (f : δ → δ) (d : ℕ × δ) : ℕ × δ := if q d then (d.1, f d.2) else d

@[simp]
theorem write_fst (q : ℕ × δ → Bool) (f : δ → δ) (d : ℕ × δ) : (write q f d).1 = d.1 := by
  rw [write]
  split_ifs
  · rfl
  · rfl

/-- All documents written that meet a condition. -/
def updateWhere (q : ℕ × δ → Bool) (f : δ → δ) : Collection δ where
  docs := c.docs.map (write q f)
  next := c.next
  lt_next := by
    intro e he
    obtain ⟨d, hd, rfl⟩ := List.mem_map.mp he
    rw [write_fst]
    exact c.lt_next d hd
  nodup := by
    have hkeys : (Prod.fst ∘ write q f : ℕ × δ → ℕ) = Prod.fst := funext (write_fst q f)
    rw [List.map_map, hkeys]
    exact c.nodup

/-- The document of a key written, where there is one. -/
def update (key : ℕ) (f : δ → δ) : Option (Collection δ) :=
  if c.docs.any fun d => d.1 = key then some (c.updateWhere (fun d => d.1 = key) f) else none

/-- The document of a key. -/
def get (key : ℕ) : Option δ := (c.docs.find? fun d => d.1 = key).map (·.2)

/-- The document of a key taken out, where there is one. -/
def erase (key : ℕ) : Collection δ where
  docs := c.docs.filter fun d => d.1 ≠ key
  next := c.next
  lt_next := fun d hd => c.lt_next d (List.mem_of_mem_filter hd)
  nodup := c.nodup.sublist (List.filter_sublist.map Prod.fst)

variable {c}

/-- A key has one document. -/
theorem eq_of_fst_eq {d e : ℕ × δ} (hd : d ∈ c.docs) (he : e ∈ c.docs) (h : d.1 = e.1) : d = e :=
  List.inj_on_of_nodup_map c.nodup hd he h

theorem mem_of_first {p : δ → Bool} {d : ℕ × δ} (h : c.first p = some d) : d ∈ c.docs :=
  List.mem_of_find?_eq_some h

theorem prop_of_first {p : δ → Bool} {d : ℕ × δ} (h : c.first p = some d) : p d.2 = true := by
  rw [first] at h
  have hmeets := List.find?_some h
  exact hmeets

/-! ### What answers a query after a write -/

/-- A new document answers what nothing answered before. -/
theorem first_insert (p : δ → Bool) (d : δ) :
    (c.insert d).first p = (c.first p).or (if p d then some (c.next, d) else none) := by
  rw [first, insert, List.find?_append, first]
  congr 1
  rw [List.find?_singleton]

/-- A write that no query condition can tell leaves which document answers. -/
theorem first_updateWhere {p : δ → Bool} {q : ℕ × δ → Bool} {f : δ → δ}
    (h : ∀ d ∈ c.docs, q d = true → p (f d.2) = p d.2) :
    (c.updateWhere q f).first p = (c.first p).map (write q f) := by
  have hsame : ∀ d ∈ c.docs, p (write q f d).2 = p d.2 := by
    intro d hd
    rw [write]
    split_ifs with hq
    · exact h d hd hq
    · rfl
  rw [first, updateWhere, List.find?_map, first]
  congr 1
  exact List.find?_congr hsame

/-- **Writing the document that answers a query**, for the answers to all others: each is
that document, as written, or another one and as it was. -/
theorem first_update {p r : δ → Bool} {d : ℕ × δ} {f : δ → δ} (h : c.first p = some d)
    (hr : r (f d.2) = r d.2) :
    ∃ c', c.update d.1 f = some c' ∧
      c'.first r = (c.first r).map fun e => if e.1 = d.1 then (d.1, f d.2) else e := by
  have hd : d ∈ c.docs := mem_of_first h
  have hany : c.docs.any (fun e => e.1 = d.1) = true :=
    List.any_eq_true.mpr ⟨d, hd, decide_eq_true rfl⟩
  refine ⟨c.updateWhere (fun e => e.1 = d.1) f, by rw [update, if_pos hany], ?_⟩
  rw [first_updateWhere fun e he heq => ?_]
  · refine Option.map_congr fun e he => ?_
    rw [write]
    split_ifs with hkey hkey' hkey'
    · rw [eq_of_fst_eq (mem_of_first he) hd hkey']
    · exact absurd (of_decide_eq_true hkey) hkey'
    · exact absurd (decide_eq_true hkey') hkey
    · rfl
  · rw [eq_of_fst_eq he hd (of_decide_eq_true heq)]
    exact hr

/-! ### What stands under a key after a write -/

/-- Nothing stands under a key that is still to come. -/
theorem get_next : c.get c.next = none := by
  refine Option.map_eq_none_iff.mpr (List.find?_eq_none.mpr fun d hd hkey => ?_)
  exact Nat.ne_of_lt (c.lt_next d hd) (of_decide_eq_true hkey)

theorem get_insert (d : δ) (k : ℕ) :
    (c.insert d).get k = if k = c.next then some d else c.get k := by
  rw [get, insert, List.find?_append, List.find?_singleton, get]
  split_ifs with hnext hk hk
  · have hnone : c.docs.find? (fun e => e.1 = k) = none :=
      Option.map_eq_none_iff.mp (hk ▸ c.get_next)
    rw [hnone, Option.none_or, Option.map_some]
  · exact absurd (of_decide_eq_true hnext).symm hk
  · exact absurd (decide_eq_true hk.symm) hnext
  · rw [Option.or_none]

theorem get_updateWhere (key : ℕ) (f : δ → δ) (k : ℕ) :
    (c.updateWhere (fun d => d.1 = key) f).get k =
      if k = key then (c.get k).map f else c.get k := by
  have hsame : (fun d : ℕ × δ => decide ((write (fun d => d.1 = key) f d).1 = k)) =
      fun d => decide (d.1 = k) := by
    ext d
    rw [write_fst]
  rw [get, updateWhere, List.find?_map, Function.comp_def, hsame, get]
  cases hfind : c.docs.find? fun d => d.1 = k with
  | none => simp
  | some d =>
    have hmeets := List.find?_some hfind
    rw [Option.map_some, Option.map_some, write, Option.map_some,
      of_decide_eq_true hmeets]
    split_ifs with hd hk hk
    · rfl
    · exact absurd (of_decide_eq_true hd) hk
    · exact absurd (decide_eq_true hk) hd
    · rfl

theorem get_erase (key k : ℕ) :
    (c.erase key).get k = if k = key then none else c.get k := by
  rw [get, erase, List.find?_filter, get]
  split_ifs with hk
  · refine Option.map_eq_none_iff.mpr (List.find?_eq_none.mpr fun d _ hd => ?_)
    simp only [decide_eq_true_eq] at hd
    exact hd.1 (hd.2.trans hk)
  · congr 1
    refine List.find?_congr fun d _ => ?_
    by_cases hd : d.1 = k
    · simp [hd, hk]
    · simp [hd]

end Collection
