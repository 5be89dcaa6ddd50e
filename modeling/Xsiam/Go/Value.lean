import Xsiam.Go.Unicode

/-!
# Dynamic values, maps, and the parts of the standard library left abstract

What a Go `any` holds in this program (`Xsiam.Go.Value`), maps keyed by strings
(`Xsiam.Go.GoMap`), `float64` up to comparison and conversion
(`Xsiam.Go.Float64`), and the record of library functions the code calls and this
development does not define (`Xsiam.Go.StdLib`).

Maps are the extensional tree maps of the standard library: two maps with the same
entries are equal, so a statement that an action gives back the original map is an
equation. Where the order in which a `for range` loop meets the entries can show, the loop
runs over a list of them in any order (`Xsiam.Go.MapRange`).
A map inside a value is the list of its entries in key order, which is the order
`fmt` prints them in.
-/

namespace Xsiam

namespace Go

/-! ### Maps -/

/-- A Go `map[string]β`. -/
abbrev GoMap (β : Type) := Std.ExtTreeMap GoString β compare

namespace GoMap

variable {β : Type}

theorem getElem?_insert (m : GoMap β) (k a : GoString) (v : β) :
    (m.insert k v)[a]? = if a = k then some v else m[a]? := by
  rw [Std.ExtTreeMap.getElem?_insert]
  refine if_congr ?_ rfl rfl
  rw [Std.LawfulEqCmp.compare_eq_iff_eq]
  exact eq_comm

theorem getElem?_insert_of_ne {m : GoMap β} {k a : GoString} (h : a ≠ k) (v : β) :
    (m.insert k v)[a]? = m[a]? := by
  rw [getElem?_insert, if_neg h]

theorem getElem?_erase (m : GoMap β) (k a : GoString) :
    (m.erase k)[a]? = if a = k then none else m[a]? := by
  rw [Std.ExtTreeMap.getElem?_erase]
  refine if_congr ?_ rfl rfl
  rw [Std.LawfulEqCmp.compare_eq_iff_eq]
  exact eq_comm

/-- What is left after a deletion was there before it. -/
theorem getElem?_of_erase {m : GoMap β} {k a : GoString} {v : β} (h : (m.erase k)[a]? = some v) :
    m[a]? = some v := by
  rw [getElem?_erase] at h
  split_ifs at h
  exact h

/-- `maps.Copy`: every entry of `src` is written over `dst`. -/
def copy (dst src : GoMap β) : GoMap β := dst ∪ src

theorem getElem?_copy (dst src : GoMap β) (a : GoString) :
    (copy dst src)[a]? = (src[a]?).or dst[a]? :=
  Std.ExtTreeMap.getElem?_union

/-- Write a list of entries, the later ones over the earlier ones. -/
def insertAll (m : GoMap β) (kvs : List (GoString × β)) : GoMap β :=
  kvs.foldl (fun m kv => m.insert kv.1 kv.2) m

theorem getElem?_insertAll_of_notMem {kvs : List (GoString × β)} {a : GoString}
    (h : ∀ kv ∈ kvs, kv.1 ≠ a) : ∀ m : GoMap β, (insertAll m kvs)[a]? = m[a]? := by
  induction kvs with
  | nil => intro m; rfl
  | cons kv kvs ih =>
    intro m
    have hne : a ≠ kv.1 := fun hc => h kv List.mem_cons_self hc.symm
    change (insertAll (m.insert kv.1 kv.2) kvs)[a]? = _
    rw [ih (fun x hx => h x (List.mem_cons_of_mem _ hx)), getElem?_insert_of_ne hne]

/-- Under a key stands what one of the entries wrote there, or what stood there before. -/
theorem getElem?_insertAll_cases (kvs : List (GoString × β)) (a : GoString) : ∀ m : GoMap β,
    (∃ v, (a, v) ∈ kvs ∧ (insertAll m kvs)[a]? = some v) ∨
      (∀ kv ∈ kvs, kv.1 ≠ a) ∧ (insertAll m kvs)[a]? = m[a]? := by
  induction kvs with
  | nil => exact fun m => .inr ⟨fun kv hkv => absurd hkv List.not_mem_nil, rfl⟩
  | cons kv kvs ih =>
    intro m
    change (∃ v, (a, v) ∈ kv :: kvs ∧ (insertAll (m.insert kv.1 kv.2) kvs)[a]? = some v) ∨
      (∀ kv' ∈ kv :: kvs, kv'.1 ≠ a) ∧ (insertAll (m.insert kv.1 kv.2) kvs)[a]? = m[a]?
    rcases ih (m.insert kv.1 kv.2) with ⟨v, hmem, hget⟩ | ⟨hnone, hget⟩
    · exact .inl ⟨v, List.mem_cons_of_mem _ hmem, hget⟩
    · rw [hget, getElem?_insert]
      split_ifs with ha
      · exact .inl ⟨kv.2, by rw [ha]; exact List.mem_cons_self, rfl⟩
      · exact .inr ⟨List.forall_mem_cons.mpr ⟨fun h => ha h.symm, hnone⟩, rfl⟩

/-- Entries with different keys, written over an empty map, can all be read. -/
theorem getElem?_insertAll_of_nodup {kvs : List (GoString × β)} (h : (kvs.map Prod.fst).Nodup)
    (a : GoString) (v : β) : (insertAll ∅ kvs)[a]? = some v ↔ (a, v) ∈ kvs := by
  induction kvs using List.reverseRecOn with
  | nil => simp [insertAll]
  | append_singleton kvs kv ih =>
    rw [List.map_append, List.nodup_append] at h
    obtain ⟨hinit, -, hlast⟩ := h
    have hsplit : insertAll ∅ (kvs ++ [kv]) = (insertAll ∅ kvs).insert kv.1 kv.2 :=
      List.foldl_append
    rw [hsplit, getElem?_insert, List.mem_append, List.mem_singleton]
    split_ifs with hk
    · subst hk
      rw [Option.some.injEq]
      constructor
      · rintro rfl
        exact Or.inr rfl
      · rintro (hmem | heq)
        · exact absurd rfl (hlast _ (List.mem_map_of_mem hmem) _ (by simp))
        · rw [← heq]
    · rw [ih hinit]
      exact ⟨Or.inl, fun hor => hor.resolve_right fun heq => hk (by rw [← heq])⟩

/-- What is written last under a key stands there. -/
theorem getElem?_insertAll_append_cons {post : List (GoString × β)} {a : GoString}
    (h : ∀ kv ∈ post, kv.1 ≠ a) (m : GoMap β) (pre : List (GoString × β)) (v : β) :
    (insertAll m (pre ++ (a, v) :: post))[a]? = some v := by
  have hsplit : insertAll m (pre ++ (a, v) :: post) =
      insertAll ((insertAll m pre).insert a v) post := List.foldl_append
  rw [hsplit, getElem?_insertAll_of_notMem h, getElem?_insert, if_pos rfl]

/-- Delete a list of keys. -/
def eraseAll (m : GoMap β) (ks : List GoString) : GoMap β := ks.foldl (fun m k => m.erase k) m

theorem getElem?_eraseAll (ks : List GoString) (a : GoString) :
    ∀ m : GoMap β, (eraseAll m ks)[a]? = if a ∈ ks then none else m[a]? := by
  induction ks with
  | nil => intro m; simp [eraseAll]
  | cons k ks ih =>
    intro m
    change (eraseAll (m.erase k) ks)[a]? = _
    rw [ih, getElem?_erase]
    by_cases ha : a ∈ ks
    · simp [ha]
    · by_cases hk : a = k <;> simp [ha, hk]

/-- Keep the entries whose key passes a test. -/
def filterKeys (m : GoMap β) (p : GoString → Bool) : GoMap β := m.filter fun k _ => p k

theorem getElem?_filterKeys (m : GoMap β) (p : GoString → Bool) (a : GoString) :
    (filterKeys m p)[a]? = if p a = true then m[a]? else none := by
  rw [filterKeys, Std.ExtTreeMap.getElem?_filter']
  cases m[a]? with
  | none => simp
  | some v => rw [Option.filter_some]

/-- Something holds of every entry of a map. -/
def Each (P : GoString → β → Prop) (m : GoMap β) : Prop := ∀ k v, m[k]? = some v → P k v

section Each

variable {P : GoString → β → Prop} {m : GoMap β}

theorem Each.insert (h : Each P m) {k : GoString} {v : β} (hv : P k v) : Each P (m.insert k v) := by
  intro k' v' hget
  rw [getElem?_insert] at hget
  split_ifs at hget with hk
  · rw [hk, ← Option.some.inj hget]
    exact hv
  · exact h k' v' hget

theorem Each.erase (h : Each P m) (k : GoString) : Each P (m.erase k) :=
  fun k' v' hget => h k' v' (getElem?_of_erase hget)

theorem Each.insertAll {kvs : List (GoString × β)} (h : Each P m) (hkvs : ∀ kv ∈ kvs, P kv.1 kv.2) :
    Each P (GoMap.insertAll m kvs) := by
  intro k v hget
  rcases getElem?_insertAll_cases kvs k m with ⟨v', hmem, hv'⟩ | ⟨-, hsame⟩
  · obtain rfl := Option.some.inj (hv'.symm.trans hget)
    exact hkvs _ hmem
  · exact h k v (hsame.symm.trans hget)

theorem Each.filterKeys (h : Each P m) (p : GoString → Bool) : Each P (GoMap.filterKeys m p) := by
  intro k v hget
  rw [getElem?_filterKeys] at hget
  split_ifs at hget
  exact h k v hget

/-- Entries that share no name share none with a new one either, if its names are free. -/
theorem unique_insert {α : Type} {Named : α → β → Prop} {key : GoString} {v : β}
    (h : ∀ (a : α) (k k' : GoString) (w w' : β), m[k]? = some w → m[k']? = some w' →
      Named a w → Named a w' → k = k')
    (hfree : ∀ (a : α) (k : GoString) (w : β), Named a v → k ≠ key → m[k]? = some w → ¬Named a w)
    (a : α) (k k' : GoString) (w w' : β) (hk : (m.insert key v)[k]? = some w)
    (hk' : (m.insert key v)[k']? = some w') (hw : Named a w) (hw' : Named a w') : k = k' := by
  rw [getElem?_insert] at hk hk'
  split_ifs at hk hk' with heq heq' heq'
  · rw [heq, heq']
  · obtain rfl := Option.some.inj hk
    exact absurd hw' (hfree a k' w' hw heq' hk')
  · obtain rfl := Option.some.inj hk'
    exact absurd hw (hfree a k w hw' heq hk)
  · exact h a k k' w w' hk hk' hw hw'

theorem unique_erase {α : Type} {Named : α → β → Prop}
    (h : ∀ (a : α) (k k' : GoString) (w w' : β), m[k]? = some w → m[k']? = some w' →
      Named a w → Named a w' → k = k') (key : GoString) (a : α) (k k' : GoString) (w w' : β)
    (hk : (m.erase key)[k]? = some w) (hk' : (m.erase key)[k']? = some w') :
    Named a w → Named a w' → k = k' :=
  h a k k' w w' (getElem?_of_erase hk) (getElem?_of_erase hk')

end Each

end GoMap

/-- The orders in which `for range` meets the entries of maps. -/
structure MapRange where
  entries : {β : Type} → GoMap β → List (GoString × β)
  perm : ∀ {β : Type} (m : GoMap β), (entries m).Perm m.toList

namespace MapRange

/-- By key, one of the orders there are. -/
def byKey : MapRange where
  entries m := m.toList
  perm _ := .refl _

variable {β : Type} (r : MapRange) (m : GoMap β)

theorem mem_entries (k : GoString) (v : β) : (k, v) ∈ r.entries m ↔ m[k]? = some v := by
  rw [(r.perm m).mem_iff]
  exact Std.ExtTreeMap.mem_toList_iff_getElem?_eq_some

/-- A loop meets each key once. -/
theorem nodup_keys : ((r.entries m).map Prod.fst).Nodup := by
  rw [((r.perm m).map Prod.fst).nodup_iff, List.Nodup, List.pairwise_map]
  refine Std.ExtTreeMap.distinct_keys_toList.imp fun h heq => h ?_
  rw [heq]
  exact Std.ReflCmp.compare_self

end MapRange

/-! ### Floating-point numbers -/

/-- A `float64`, by its bits. -/
structure Float64 where
  /-- Sign, exponent and fraction, as IEEE 754 lays them out. -/
  bits : BitVec 64
deriving DecidableEq

namespace Float64

/-- Exponent and fraction together, a number that grows with the absolute value. -/
def magnitude (x : Float64) : ℕ := x.bits.toNat % 2 ^ 63

/-- Whether the sign bit is set. -/
def negative (x : Float64) : Bool := 2 ^ 63 ≤ x.bits.toNat

/-- `math.IsNaN`. -/
def isNaN (x : Float64) : Bool := 0x7FF0000000000000 < x.magnitude

/-- A number that compares as the float does, for floats that are not NaN. -/
def key (x : Float64) : ℤ := if x.negative then -(x.magnitude : ℤ) else x.magnitude

/-- The operator `<`, which is false next to a NaN. -/
def lt (x y : Float64) : Bool := !x.isNaN && !y.isNaN && x.key < y.key

/-- The operator `<=`, which is false next to a NaN. -/
def le (x y : Float64) : Bool := !x.isNaN && !y.isNaN && x.key ≤ y.key

/-- The integer part of a finite float, its fraction dropped. -/
def trunc (x : Float64) : ℤ :=
  let e := x.magnitude / 2 ^ 52
  let f := x.magnitude % 2 ^ 52
  let m : ℕ :=
    if e = 0 then 0
    else if 1075 ≤ e then (2 ^ 52 + f) * 2 ^ (e - 1075) else (2 ^ 52 + f) / 2 ^ (1075 - e)
  if x.negative then -(m : ℤ) else m

/-- The conversion `int(x)`. Out of range the language leaves the result to the
machine; this is what amd64 does. -/
def toInt (x : Float64) : ℤ :=
  if x.magnitude < 0x43E0000000000000 then x.trunc else -2 ^ 63

/-- The conversion `uint8(x)`, by way of `int(x)`. -/
def toUInt8 (x : Float64) : UInt8 := UInt8.ofNat (x.toInt % 256).toNat

end Float64

/-! ### Dynamic values -/

/-- The integer types an `any` may hold here. -/
inductive IntKind where
  /-- `int` -/
  | int
  /-- `int64` -/
  | int64
  /-- `uint` -/
  | uint
  /-- `uint8` -/
  | uint8
deriving DecidableEq

/-- What an `any` holds: the values JSON has, and the integers the code writes. -/
inductive Value where
  /-- `nil` -/
  | null : Value
  /-- `bool` -/
  | bool : Bool → Value
  /-- An integer of one of the integer types. -/
  | int : IntKind → ℤ → Value
  /-- `float64` -/
  | float : Float64 → Value
  /-- `string` -/
  | str : GoString → Value
  /-- `[]any` -/
  | arr : List Value → Value
  /-- `map[string]any`, its entries in key order. -/
  | obj : List (GoString × Value) → Value

namespace Value

mutual
/-- Equality of values, decided. -/
def beq : Value → Value → Bool
  | .null, .null => true
  | .bool a, .bool b => a == b
  | .int k i, .int k' i' => k = k' && i = i'
  | .float x, .float y => x = y
  | .str s, .str t => s = t
  | .arr vs, .arr ws => beqs vs ws
  | .obj kvs, .obj kws => beqKvs kvs kws
  | _, _ => false
/-- Equality of lists of values, decided. -/
def beqs : List Value → List Value → Bool
  | [], [] => true
  | v :: vs, w :: ws => beq v w && beqs vs ws
  | _, _ => false
/-- Equality of lists of entries, decided. -/
def beqKvs : List (GoString × Value) → List (GoString × Value) → Bool
  | [], [] => true
  | (k, v) :: kvs, (k', w) :: kws => k = k' && (beq v w && beqKvs kvs kws)
  | _, _ => false
end

mutual
theorem beq_iff : ∀ v w : Value, beq v w = true ↔ v = w
  | .null, w => by cases w <;> simp [beq]
  | .bool _, w => by cases w <;> simp [beq]
  | .int _ _, w => by cases w <;> simp [beq]
  | .float _, w => by cases w <;> simp [beq]
  | .str _, w => by cases w <;> simp [beq]
  | .arr vs, w => by cases w <;> simp [beq, beqs_iff vs]
  | .obj kvs, w => by cases w <;> simp [beq, beqKvs_iff kvs]
theorem beqs_iff : ∀ vs ws : List Value, beqs vs ws = true ↔ vs = ws
  | [], ws => by cases ws <;> simp [beqs]
  | v :: vs, ws => by cases ws <;> simp [beqs, beq_iff v, beqs_iff vs]
theorem beqKvs_iff : ∀ kvs kws : List (GoString × Value), beqKvs kvs kws = true ↔ kvs = kws
  | [], kws => by cases kws <;> simp [beqKvs]
  | (k, v) :: kvs, kws => by
    rcases kws with _ | ⟨⟨k', w⟩, kws⟩
    · simp [beqKvs]
    · simp [beqKvs, beq_iff v, beqKvs_iff kvs, and_assoc]
end

instance : DecidableEq Value := fun v w => decidable_of_iff _ (beq_iff v w)

mutual
/-- `fmt.Sprintf("%v", v)`. How a float is printed is left to the library. -/
def sprintV (formatFloat : Float64 → GoString) : Value → GoString
  | .null => Go.str "<nil>"
  | .bool b => if b then Go.str "true" else Go.str "false"
  | .int _ i => Go.str (toString i)
  | .float x => formatFloat x
  | .str s => s
  | .arr vs => Go.str "[" ++ sprintVs formatFloat vs ++ Go.str "]"
  | .obj kvs => Go.str "map[" ++ sprintKvs formatFloat kvs ++ Go.str "]"
/-- The elements of a slice, as `%v` prints them. -/
def sprintVs (formatFloat : Float64 → GoString) : List Value → GoString
  | [] => []
  | [v] => sprintV formatFloat v
  | v :: vs => sprintV formatFloat v ++ Go.str " " ++ sprintVs formatFloat vs
/-- The entries of a map, as `%v` prints them. -/
def sprintKvs (formatFloat : Float64 → GoString) : List (GoString × Value) → GoString
  | [] => []
  | [(k, v)] => k ++ Go.str ":" ++ sprintV formatFloat v
  | (k, v) :: kvs =>
    k ++ Go.str ":" ++ sprintV formatFloat v ++ Go.str " " ++ sprintKvs formatFloat kvs
end

/-- The type assertion `v.(string)`, with its zero value where it fails. -/
def asString : Option Value → GoString
  | some (.str s) => s
  | _ => []

/-- The type assertion `v.(bool)`, with its zero value where it fails. -/
def asBool : Option Value → Bool
  | some (.bool b) => b
  | _ => false

end Value

/-! ### Integers in decimal -/

/-- The value of a string of decimal digits. -/
def digits (s : GoString) : Option ℕ :=
  if s = [] then none
  else s.foldl (fun acc b => acc.bind fun n =>
    if 0x30 ≤ b.toNat ∧ b.toNat ≤ 0x39 then some (10 * n + (b.toNat - 0x30)) else none) (some 0)

/-- `strconv.ParseInt(s, 10, 64)`, or `none` where it returns an error. -/
def parseInt (s : GoString) : Option ℤ :=
  let i : Option ℤ := match s with
    | 0x2D :: ds => (digits ds).map fun n => -(n : ℤ)
    | 0x2B :: ds => (digits ds).map fun n => (n : ℤ)
    | ds => (digits ds).map fun n => (n : ℤ)
  i.filter fun i => -2 ^ 63 ≤ i ∧ i < 2 ^ 63

/-! ### The standard library -/

/-- A compiled regular expression, by the methods the code calls on it. -/
structure Regexp where
  /-- `MatchString` -/
  matchString : GoString → Bool
  /-- `ReplaceAllString` -/
  replaceAllString : GoString → GoString → GoString
  /-- `SubexpNames` -/
  subexpNames : List GoString
  /-- `FindStringSubmatch` -/
  findStringSubmatch : GoString → Option (List GoString)

/-- The functions of the standard library the code calls and this development leaves
abstract. `none` is an error return. -/
structure StdLib where
  /-- `regexp.Compile` -/
  regexpCompile : GoString → Option Regexp
  /-- `path.Match`, pattern first. -/
  pathMatch : GoString → GoString → Option Bool
  /-- `strconv.ParseFloat(s, 64)` -/
  parseFloat : GoString → Option Float64
  /-- The number `strconv.ParseFloat(s, 64)` returns next to an error. -/
  parseFloatOnError : GoString → Float64
  /-- The conversion `float64(i)`. -/
  floatOfInt : ℤ → Float64
  /-- How `%v` prints a `float64`. -/
  formatFloat : Float64 → GoString
  /-- `template.New("").Parse`, and `Execute` of the result on a map. -/
  templateParse : GoString → Option (GoMap Value → Option GoString)
  /-- `json.Unmarshal` into a `map[string]any`. -/
  jsonUnmarshal : GoString → Option (GoMap Value)
  /-- `json.Marshal` -/
  jsonMarshal : Value → Option GoString
  /-- The first record a `csv.Reader` reads. -/
  csvRead : GoString → Option (List GoString)
  /-- What a `csv.Writer` writes for one record. -/
  csvWrite : List GoString → Option GoString
  /-- `sha256.Sum256`, in hexadecimal. -/
  sha256Hex : GoString → GoString
  /-- `time.Parse(time.RFC3339, s)`, in nanoseconds. -/
  parseRFC3339 : GoString → Option ℤ
  /-- `time.Parse(time.RFC3339Nano, s)`, in nanoseconds. -/
  parseRFC3339Nano : GoString → Option ℤ
  /-- `t.UTC().Format(time.RFC3339)` -/
  formatRFC3339 : ℤ → GoString

/-- `fmt.Sprintf("%v", v)`. -/
def StdLib.sprint (lib : StdLib) (v : Value) : GoString := v.sprintV lib.formatFloat

@[simp] theorem StdLib.sprint_str (lib : StdLib) (s : GoString) : lib.sprint (.str s) = s := rfl

/-- A regular expression without special characters: it matches its own text. -/
def literalRegexp (pattern : GoString) : Regexp where
  matchString s := contains s pattern
  replaceAllString s repl := replaceAll s pattern repl
  subexpNames := [[]]
  findStringSubmatch s := if contains s pattern then some [pattern] else none

/-- The library on texts without special characters: a regular expression is its own
text, a glob matches itself, a number is a string of digits, a template renders to
its text. What it prints for a float, an encoding or a date stands for no real one. -/
def literalLib : StdLib where
  regexpCompile s := some (literalRegexp s)
  pathMatch p name := some (p == name)
  parseFloat _ := none
  parseFloatOnError _ := ⟨0⟩
  floatOfInt _ := ⟨0⟩
  formatFloat _ := []
  templateParse s := some fun _ => some s
  jsonUnmarshal _ := none
  jsonMarshal _ := none
  csvRead s := some [s]
  csvWrite _ := none
  sha256Hex s := s
  parseRFC3339 _ := none
  parseRFC3339Nano _ := none
  formatRFC3339 _ := []

end Go

end Xsiam
