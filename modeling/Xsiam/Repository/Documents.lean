import Xsiam.Etl.Model

/-!
# Documents

A document of the database is a JSON object: attributes with values. What the program makes of one
is a structure, each field of which is read from the attribute of its name, so a document is such a
structure exactly if the values of these attributes are of the kinds of the fields
(`Xsiam.Repository.Fields`), and it cannot be read otherwise. An attribute that is missing, or null,
is the zero value.

A patch is merged into a document (`Xsiam.Repository.Document.patch`): it writes its own attributes
and leaves all others as they are, an object into an object attribute by attribute. The attributes
that belong to the database cannot be written.
-/

namespace Xsiam

namespace Repository

open Go

/-- The attributes of a document. -/
abbrev Document := GoMap Value

/-! ### Kinds of fields -/

/-- How a point in time is written. What is written can be read. -/
structure TimeFormat where
  /-- `json.Marshal` of a `time.Time` -/
  text : Time → GoString
  /-- `json.Unmarshal` into a `time.Time` succeeds. -/
  reads : GoString → Bool
  reads_text : ∀ t, reads (text t) = true

/-- The format of times, at the start of the epoch. -/
def epochTimes : TimeFormat where
  text _ := str "1970-01-01T00:00:00Z"
  reads s := s = str "1970-01-01T00:00:00Z"
  reads_text _ := by decide

/-- The integer that a float is, if it is one. -/
def floatInt (x : Float64) : Option ℤ :=
  let e := x.magnitude / 2 ^ 52
  let m := if e = 0 then x.magnitude else 2 ^ 52 + x.magnitude % 2 ^ 52
  if e = 2047 then none
  else if 1075 ≤ e ∨ m % 2 ^ (1075 - max e 1) = 0 then some x.trunc
  else none

/-- The integer that a JSON number is, if it is one. -/
def numberInt : Value → Option ℤ
  | .int _ i => some i
  | .float x => floatInt x
  | _ => none

/-- A digit of base64. -/
def isBase64Digit (b : UInt8) : Bool :=
  (0x41 ≤ b.toNat && b.toNat ≤ 0x5A) || (0x61 ≤ b.toNat && b.toNat ≤ 0x7A) ||
    (0x30 ≤ b.toNat && b.toNat ≤ 0x39) || b = 0x2B || b = 0x2F

/-- `base64.StdEncoding` can decode a text: line breaks are skipped, and fours of digits are padded
with two signs at most. -/
def isBase64 (s : GoString) : Bool :=
  let t := s.filter fun b => b ≠ 0x0A && b ≠ 0x0D
  let ds := (t.reverse.dropWhile (· = 0x3D)).reverse
  t.length % 4 = 0 && t.length ≤ ds.length + 2 && ds.all isBase64Digit

/-- A value can be read into a byte of a slice. -/
def isByte (v : Value) : Bool := v = .null || (numberInt v).any fun i => 0 ≤ i ∧ i < 256

/-- The type of a field, as far as it says which JSON values can be read into it. -/
inductive Kind where
  | any
  | text
  | flag
  | int
  | uint8
  | uint64
  /-- A slice of `uint8`, which is written in base64. -/
  | bytes
  | float
  | time
  | list (k : Kind)
  | map (k : Kind)
  | record (fields : List (GoString × Kind))

/-- The fields of a structure: the names of their attributes, and their kinds. -/
abbrev Fields := List (GoString × Kind)

/-- The value of a name among entries. -/
def entryValue (kvs : List (GoString × Value)) (name : GoString) : Value :=
  ((kvs.find? fun kv => kv.1 = name).map (·.2)).getD .null

mutual
/-- A value can be read into a field of a kind. -/
def Kind.accepts (times : TimeFormat) : Kind → Value → Bool
  | .any, _ => true
  | .text, v => match v with
    | .null | .str _ => true
    | _ => false
  | .flag, v => match v with
    | .null | .bool _ => true
    | _ => false
  | .int, v => match v with
    | .null => true
    | v => (numberInt v).any fun i => -2 ^ 63 ≤ i ∧ i < 2 ^ 63
  | .uint8, v => match v with
    | .null => true
    | v => (numberInt v).any fun i => 0 ≤ i ∧ i < 256
  | .uint64, v => match v with
    | .null => true
    | v => (numberInt v).any fun i => 0 ≤ i ∧ i < 2 ^ 64
  | .bytes, v => match v with
    | .null => true
    | .str s => isBase64 s
    | .arr vs => vs.all isByte
    | _ => false
  | .float, v => match v with
    | .null | .int _ _ | .float _ => true
    | _ => false
  | .time, v => match v with
    | .null => true
    | .str s => times.reads s
    | _ => false
  | .list k, v => match v with
    | .null => true
    | .arr vs => vs.all fun v => k.accepts times v
    | _ => false
  | .map k, v => match v with
    | .null => true
    | .obj kvs => kvs.all fun kv => k.accepts times kv.2
    | _ => false
  | .record fields, v => match v with
    | .null => true
    | .obj kvs => acceptsFields times fields (entryValue kvs)
    | _ => false
/-- Values can be read into the fields of a structure, each under its name. -/
def acceptsFields (times : TimeFormat) : List (GoString × Kind) → (GoString → Value) → Bool
  | [], _ => true
  | (name, k) :: fields, get => k.accepts times (get name) && acceptsFields times fields get
end

theorem acceptsFields_iff {times : TimeFormat} {fields : Fields} {get : GoString → Value} :
    acceptsFields times fields get = true ↔ ∀ f ∈ fields, f.2.accepts times (get f.1) = true := by
  induction fields with
  | nil => simp [acceptsFields]
  | cons f fields ih => simp [acceptsFields, ih]

namespace Document

/-! ### Reading -/

/-- The attribute of a name, null if there is none. -/
def get (doc : Document) (name : GoString) : Value := doc[name]?.getD .null

/-- A document can be read into a structure. -/
def Reads (times : TimeFormat) (fields : Fields) (doc : Document) : Prop :=
  acceptsFields times fields doc.get = true

instance (times : TimeFormat) (fields : Fields) (doc : Document) :
    Decidable (doc.Reads times fields) :=
  inferInstanceAs (Decidable (_ = true))

/-- The text a value is read as. -/
def valueText : Value → GoString
  | .str s => s
  | _ => []

/-- A field of type `string`. -/
def text (doc : Document) (name : GoString) : GoString := valueText (doc.get name)

/-- A field of type `bool`. -/
def flag (doc : Document) (name : GoString) : Bool :=
  match doc.get name with
  | .bool b => b
  | _ => false

/-- A field of an integer type. -/
def int (doc : Document) (name : GoString) : ℤ := (numberInt (doc.get name)).getD 0

/-- A field of a slice type. -/
def list (doc : Document) (name : GoString) : List Value :=
  match doc.get name with
  | .arr vs => vs
  | _ => []

/-- A field of type `[]string`. -/
def texts (doc : Document) (name : GoString) : List GoString := (doc.list name).map valueText

/-- The texts a value is read as. -/
def valueTexts : Value → List GoString
  | .arr vs => vs.map valueText
  | _ => []

theorem texts_eq (doc : Document) (name : GoString) : doc.texts name = valueTexts (doc.get name) := by
  rw [texts, list]
  cases doc.get name <;> rfl

/-- A `[]string` as it is written. -/
def ofTexts (ss : List GoString) : Value := .arr (ss.map .str)

/-- A document with the attributes of a list. -/
def ofEntries (kvs : List (String × Value)) : Document :=
  GoMap.insertAll ∅ (kvs.map fun kv => (str kv.1, kv.2))

variable {times : TimeFormat} {fields : Fields} {doc : Document}

theorem reads_iff : doc.Reads times fields ↔
    ∀ f ∈ fields, f.2.accepts times (doc.get f.1) = true := acceptsFields_iff

theorem texts_of_get {name : GoString} {ss : List GoString} (h : doc.get name = ofTexts ss) :
    doc.texts name = ss := by
  rw [texts, list, h]
  show (ss.map Value.str).map valueText = ss
  rw [List.map_map]
  exact List.map_id ss

theorem getElem?_ofEntries {kvs : List (String × Value)} (h : (kvs.map Prod.fst).Nodup)
    (name : String) (v : Value) : (ofEntries kvs)[str name]? = some v ↔ (name, v) ∈ kvs := by
  have hkeys : ((kvs.map fun kv => (str kv.1, kv.2)).map Prod.fst).Nodup := by
    rw [List.map_map]
    have hcomp : (Prod.fst ∘ fun kv : String × Value => (str kv.1, kv.2)) = str ∘ Prod.fst := rfl
    rw [hcomp, ← List.map_map]
    exact h.map fun s t hst => str_inj.mp hst
  rw [ofEntries, GoMap.getElem?_insertAll_of_nodup hkeys, List.mem_map]
  constructor
  · rintro ⟨⟨name', v'⟩, hmem, heq⟩
    obtain ⟨hname, rfl⟩ := Prod.mk.inj heq
    rwa [← str_inj.mp hname]
  · exact fun hmem => ⟨(name, v), hmem, rfl⟩

theorem get_ofEntries {kvs : List (String × Value)} (h : (kvs.map Prod.fst).Nodup)
    {name : String} {v : Value} (hmem : (name, v) ∈ kvs) : (ofEntries kvs).get (str name) = v := by
  rw [get, (getElem?_ofEntries h name v).mpr hmem, Option.getD_some]

theorem getElem?_ofEntries_of_notMem {kvs : List (String × Value)} {name : String}
    (h : name ∉ kvs.map Prod.fst) : (ofEntries kvs)[str name]? = none := by
  rw [ofEntries, GoMap.getElem?_insertAll_of_notMem]
  · exact Std.ExtTreeMap.getElem?_empty
  · rintro ⟨k, v⟩ hmem rfl
    obtain ⟨⟨name', v'⟩, hkv, heq⟩ := List.mem_map.mp hmem
    exact h (List.mem_map.mpr ⟨(name', v'), hkv, str_inj.mp (congrArg Prod.fst heq)⟩)

/-! ### Patches -/

/-- The attributes that belong to the database. -/
def systemNames : List GoString := [str "_key", str "_id", str "_rev"]

end Document

/-- An entry among others, in the order of the keys. -/
def putEntry (k : GoString) (v : Value) : List (GoString × Value) → List (GoString × Value)
  | [] => [(k, v)]
  | kv :: kvs =>
    match compare k kv.1 with
    | .lt => (k, v) :: kv :: kvs
    | .eq => (k, v) :: kvs
    | .gt => kv :: putEntry k v kvs

mutual
/-- A value written where another one is: objects are merged. -/
def mergeValue : Value → Value → Value
  | .obj olds, .obj news => .obj (mergeEntries olds news)
  | _, .null => .null
  | _, .bool b => .bool b
  | _, .int k i => .int k i
  | _, .float x => .float x
  | _, .str s => .str s
  | _, .arr vs => .arr vs
  | _, .obj news => .obj news
/-- Entries written where others are. -/
def mergeEntries : List (GoString × Value) → List (GoString × Value) → List (GoString × Value)
  | olds, [] => olds
  | olds, (k, v) :: news => mergeEntries (putEntry k (mergeValue (entryValue olds k) v) olds) news
end

@[simp] theorem mergeValue_null (old : Value) : mergeValue old .null = .null := by
  cases old <;> rfl

@[simp] theorem mergeValue_bool (old : Value) (b : Bool) : mergeValue old (.bool b) = .bool b := by
  cases old <;> rfl

@[simp] theorem mergeValue_int (old : Value) (k : IntKind) (i : ℤ) :
    mergeValue old (.int k i) = .int k i := by
  cases old <;> rfl

@[simp] theorem mergeValue_float (old : Value) (x : Float64) :
    mergeValue old (.float x) = .float x := by
  cases old <;> rfl

@[simp] theorem mergeValue_str (old : Value) (s : GoString) : mergeValue old (.str s) = .str s := by
  cases old <;> rfl

@[simp] theorem mergeValue_arr (old : Value) (vs : List Value) :
    mergeValue old (.arr vs) = .arr vs := by
  cases old <;> rfl

/-- What is merged is a text only if the new value is that text. -/
theorem mergeValue_eq_str_iff {old new : Value} {s : GoString} :
    mergeValue old new = .str s ↔ new = .str s := by
  cases new with
  | obj news => cases old <;> simp [mergeValue]
  | _ => simp

theorem mergeValue_eq_bool_iff {old new : Value} {b : Bool} :
    mergeValue old new = .bool b ↔ new = .bool b := by
  cases new with
  | obj news => cases old <;> simp [mergeValue]
  | _ => simp

theorem mergeValue_eq_arr_iff {old new : Value} {vs : List Value} :
    mergeValue old new = .arr vs ↔ new = .arr vs := by
  cases new with
  | obj news => cases old <;> simp [mergeValue]
  | _ => simp

namespace Document

/-- `UpdateDocument`: a document with a patch merged into it. -/
def patch (doc p : Document) : Document :=
  GoMap.copy doc ((p.filter fun k _ => k ∉ systemNames).map fun k v => mergeValue (doc.get k) v)

/-- **What stands under a name after a patch.** -/
theorem getElem?_patch (doc p : Document) (name : GoString) : (doc.patch p)[name]? =
    if name ∈ systemNames then doc[name]?
    else (p[name]?.map (mergeValue (doc.get name))).or doc[name]? := by
  rw [patch, GoMap.getElem?_copy, Std.ExtTreeMap.getElem?_map, Std.ExtTreeMap.getElem?_filter']
  cases hp : p[name]? with
  | none => simp
  | some v =>
    by_cases hname : name ∈ systemNames
    · simp [hname]
    · simp [hname]

/-- A patch leaves what it has no attribute for. -/
theorem getElem?_patch_of_none {doc p : Document} {name : GoString} (h : p[name]? = none) :
    (doc.patch p)[name]? = doc[name]? := by
  rw [getElem?_patch, h]
  split_ifs
  · rfl
  · rfl

theorem get_patch_of_none {doc p : Document} {name : GoString} (h : p[name]? = none) :
    (doc.patch p).get name = doc.get name := by
  rw [get, getElem?_patch_of_none h, get]

/-- A patch writes its attributes. -/
theorem get_patch_of_some {doc p : Document} {name : GoString} {v : Value} (h : p[name]? = some v)
    (hname : name ∉ systemNames) : (doc.patch p).get name = mergeValue (doc.get name) v := by
  rw [get, getElem?_patch, if_neg hname, h]
  rfl

/-- What is merged is read as the text of the new value. -/
theorem valueText_mergeValue (old new : Value) :
    valueText (mergeValue old new) = valueText new := by
  cases new with
  | obj news => cases old <;> rfl
  | _ => cases old <;> rfl

theorem valueTexts_mergeValue (old new : Value) :
    valueTexts (mergeValue old new) = valueTexts new := by
  cases new with
  | obj news => cases old <;> rfl
  | _ => cases old <;> rfl

/-- The texts a patch leaves. -/
theorem texts_patch {doc p : Document} {name : GoString} (hname : name ∉ systemNames) :
    (doc.patch p).texts name = (p[name]?.map valueTexts).getD (doc.texts name) := by
  rcases hp : p[name]? with _ | v
  · rw [texts_eq, get_patch_of_none hp, ← texts_eq]
    rfl
  · rw [texts_eq, get_patch_of_some hp hname, valueTexts_mergeValue]
    rfl

theorem text_patch_of_none {doc p : Document} {name : GoString} (h : p[name]? = none) :
    (doc.patch p).text name = doc.text name := by
  rw [text, get_patch_of_none h, text]

/-- A patch writes its texts. -/
theorem text_patch_of_some {doc p : Document} {name : GoString} {v : Value} (h : p[name]? = some v)
    (hname : name ∉ systemNames) : (doc.patch p).text name = valueText v := by
  rw [text, get_patch_of_some h hname, valueText_mergeValue]

/-- What a patch leaves under a name, unless both are objects. -/
def after (doc p : Document) (name : GoString) : Value := p[name]?.getD (doc.get name)

theorem get_patch_eq_str_iff {doc p : Document} {name s : GoString} (hname : name ∉ systemNames) :
    (doc.patch p).get name = .str s ↔ doc.after p name = .str s := by
  rw [after]
  rcases hp : p[name]? with _ | v
  · rw [get_patch_of_none hp, Option.getD_none]
  · rw [get_patch_of_some hp hname, Option.getD_some, mergeValue_eq_str_iff]

theorem get_patch_eq_arr_iff {doc p : Document} {name : GoString} {vs : List Value}
    (hname : name ∉ systemNames) :
    (doc.patch p).get name = .arr vs ↔ doc.after p name = .arr vs := by
  rw [after]
  rcases hp : p[name]? with _ | v
  · rw [get_patch_of_none hp, Option.getD_none]
  · rw [get_patch_of_some hp hname, Option.getD_some, mergeValue_eq_arr_iff]

end Document

/-! ### What AQL compares

`<=` and `>=` in a filter, of an attribute and a text that is bound: values of different kinds are
ordered by their kinds, and texts by their bytes, which for UTF-8 is the order of the code points. -/

/-- `v >= @text` -/
def atLeast (v : Value) (text : GoString) : Bool :=
  match v with
  | .str s => text ≤ s
  | .arr _ | .obj _ => true
  | .null | .bool _ | .int _ _ | .float _ => false

/-- `v <= @text` -/
def atMost (v : Value) (text : GoString) : Bool :=
  match v with
  | .str s => s ≤ text
  | .arr _ | .obj _ => false
  | .null | .bool _ | .int _ _ | .float _ => true

end Repository

end Xsiam
