import Mathlib

/-!
# JSON texts

What a sequence of bytes says as JSON: it must be UTF-8 (`Json.Utf8`), and then a reader that
goes from left to right takes one value off it, with white space around it and nothing behind
it (`Json.decode`). A string is the bytes it stands for, its escapes resolved; a number is left as
it is written; an object is its members in their order, so that a member that is there twice
shows.

What is pasted between quotes without being escaped is read as itself only where it needs no
escape (`Json.clean_of_readString`).
-/

/-- A value of JSON. -/
inductive Json where
  | null
  | bool (b : Bool)
  /-- A number, as it is written. -/
  | number (text : List UInt8)
  | string (s : List UInt8)
  | array (vs : List Json)
  | object (members : List (List UInt8 × Json))

namespace Json

/-! ### UTF-8 -/

/-- Where a text stands: between two characters, or before a byte of one, which has bounds of
its own, with some more bytes to come. -/
inductive Place where
  | between
  | inside (lo hi more : ℕ)
deriving DecidableEq

/-- One byte of UTF-8, if it may stand there. -/
def Place.step : Place → UInt8 → Option Place
  | .between, b =>
    let n := b.toNat
    if n < 0x80 then some .between
    else if n < 0xC2 then none
    else if n < 0xE0 then some (.inside 0x80 0xBF 0)
    else if n = 0xE0 then some (.inside 0xA0 0xBF 1)
    else if n = 0xED then some (.inside 0x80 0x9F 1)
    else if n < 0xF0 then some (.inside 0x80 0xBF 1)
    else if n = 0xF0 then some (.inside 0x90 0xBF 2)
    else if n < 0xF4 then some (.inside 0x80 0xBF 2)
    else if n = 0xF4 then some (.inside 0x80 0x8F 2)
    else none
  | .inside lo hi more, b =>
    if 0x80 ≤ b.toNat ∧ lo ≤ b.toNat ∧ b.toNat ≤ hi then
      some (if more = 0 then .between else .inside 0x80 0xBF (more - 1))
    else none

/-- The bytes of a text, one after the other. -/
def Place.run (p : Place) : List UInt8 → Option Place
  | [] => some p
  | b :: bs => (p.step b).bind fun p => p.run bs

/-- A text is UTF-8. -/
def Utf8 (bs : List UInt8) : Prop := Place.between.run bs = some .between

instance (bs : List UInt8) : Decidable (Utf8 bs) := inferInstanceAs (Decidable (_ = _))

theorem Place.run_append (xs ys : List UInt8) : ∀ p : Place,
    p.run (xs ++ ys) = (p.run xs).bind fun p => p.run ys := by
  induction xs with
  | nil => exact fun p => rfl
  | cons x xs ih =>
    intro p
    rw [List.cons_append, run, run]
    cases p.step x with
    | none => rfl
    | some p => exact ih p

/-- An ASCII byte only stands between characters. -/
theorem Place.step_ascii {b : UInt8} (hb : b.toNat < 0x80) (p : Place) :
    p.step b = if p = .between then some .between else none := by
  cases p with
  | between => rw [step, if_pos hb, if_pos rfl]
  | inside lo hi more => rw [step, if_neg (by omega), if_neg (by simp)]

/-- ASCII text stands between characters, as long as there is some. -/
theorem Place.run_ascii {xs : List UInt8} (hxs : ∀ x ∈ xs, x.toNat < 0x80) (hne : xs ≠ []) (p : Place) :
    p.run xs = if p = .between then some .between else none := by
  induction xs generalizing p with
  | nil => exact absurd rfl hne
  | cons x xs ih =>
    rw [run, step_ascii (hxs x List.mem_cons_self)]
    split_ifs with hp
    · rcases eq_or_ne xs [] with rfl | hxs'
      · rfl
      · exact (ih (fun y hy => hxs y (List.mem_cons_of_mem x hy)) hxs' .between).trans (if_pos rfl)
    · rfl

theorem utf8_nil : Utf8 [] := rfl

theorem utf8_of_ascii {xs : List UInt8} (hxs : ∀ x ∈ xs, x.toNat < 0x80) : Utf8 xs := by
  rcases eq_or_ne xs [] with rfl | hne
  · exact utf8_nil
  · exact (Place.run_ascii hxs hne .between).trans (if_pos rfl)

/-- **ASCII text cuts a text in two**, each of which is UTF-8 on its own. -/
theorem utf8_append_ascii {ys : List UInt8} (hys : ∀ y ∈ ys, y.toNat < 0x80) (hne : ys ≠ [])
    (xs zs : List UInt8) : Utf8 (xs ++ ys ++ zs) ↔ Utf8 xs ∧ Utf8 zs := by
  rw [Utf8, Utf8, Utf8, Place.run_append, Place.run_append]
  cases Place.between.run xs with
  | none => simp
  | some p =>
    rw [Option.bind_some, Place.run_ascii hys hne]
    by_cases hp : p = .between
    · simp [hp]
    · simp [hp]

/-- Text that begins with ASCII. -/
theorem utf8_ascii_append {ys : List UInt8} (hys : ∀ y ∈ ys, y.toNat < 0x80) (zs : List UInt8) :
    Utf8 (ys ++ zs) ↔ Utf8 zs := by
  rcases eq_or_ne ys [] with rfl | hne
  · rfl
  · have hcut := utf8_append_ascii hys hne [] zs
    rw [List.nil_append] at hcut
    exact hcut.trans (and_iff_right utf8_nil)

/-- A byte of ASCII changes nothing. -/
theorem utf8_cons {b : UInt8} (hb : b.toNat < 0x80) (bs : List UInt8) : Utf8 (b :: bs) ↔ Utf8 bs :=
  @utf8_ascii_append [b] (by simpa using hb) bs

/-! ### Strings -/

/-- A byte that stands for itself in a string. -/
def Plain (b : UInt8) : Prop := b ≠ 0x22 ∧ b ≠ 0x5C ∧ 0x20 ≤ b

instance (b : UInt8) : Decidable (Plain b) := inferInstanceAs (Decidable (_ ∧ _))

/-- A text that needs no escape. -/
def Clean (bs : List UInt8) : Prop := ∀ b ∈ bs, Plain b

instance (bs : List UInt8) : Decidable (Clean bs) := inferInstanceAs (Decidable (∀ b ∈ bs, _))

/-- A text is ASCII and needs no escape; this is what literals are checked by. -/
def plainASCII (bs : List UInt8) : Bool :=
  bs.all fun b => Nat.ble 0x20 b.toNat && Nat.ble b.toNat 0x7E && b.toNat != 0x22 &&
    b.toNat != 0x5C

theorem of_plainASCII {bs : List UInt8} (h : plainASCII bs = true) : Clean bs ∧ Utf8 bs := by
  have hbyte : ∀ b ∈ bs, ((0x20 ≤ b.toNat ∧ b.toNat ≤ 0x7E) ∧ b.toNat ≠ 0x22) ∧ b.toNat ≠ 0x5C := by
    intro b hb
    have hb' := List.all_eq_true.mp h b hb
    simpa [Nat.ble_eq] using hb'
  refine ⟨fun b hb => ?_, utf8_of_ascii fun b hb => ?_⟩
  · obtain ⟨⟨⟨hlow, -⟩, hquote⟩, hback⟩ := hbyte b hb
    refine ⟨?_, ?_, UInt8.le_iff_toNat_le.mpr hlow⟩
    · rintro rfl
      exact hquote rfl
    · rintro rfl
      exact hback rfl
  · obtain ⟨⟨⟨-, hhigh⟩, -⟩, -⟩ := hbyte b hb
    omega

/-- What stands in a string: a byte as it, or a UTF-16 code unit that is escaped. -/
inductive Item where
  | raw (b : UInt8)
  | unit (u : ℕ)
deriving DecidableEq

/-- The value of a hexadecimal digit. -/
def hexValue (b : UInt8) : Option ℕ :=
  if 0x30 ≤ b ∧ b ≤ 0x39 then some (b.toNat - 0x30)
  else if 0x41 ≤ b ∧ b ≤ 0x46 then some (b.toNat - 0x37)
  else if 0x61 ≤ b ∧ b ≤ 0x66 then some (b.toNat - 0x57)
  else none

/-- The value of four hexadecimal digits. -/
def hexValue₄ (b₃ b₂ b₁ b₀ : UInt8) : Option ℕ :=
  (hexValue b₃).bind fun n₃ => (hexValue b₂).bind fun n₂ => (hexValue b₁).bind fun n₁ =>
    (hexValue b₀).map fun n₀ => ((n₃ * 16 + n₂) * 16 + n₁) * 16 + n₀

/-- What the letter of a short escape stands for. -/
def shortEscape (b : UInt8) : Option ℕ :=
  if b = 0x22 ∨ b = 0x5C ∨ b = 0x2F then some b.toNat
  else if b = 0x62 then some 0x08
  else if b = 0x66 then some 0x0C
  else if b = 0x6E then some 0x0A
  else if b = 0x72 then some 0x0D
  else if b = 0x74 then some 0x09
  else none

/-- The items of a string, read from behind its opening quote, and what is behind the closing
one. -/
def readItems : List UInt8 → Option (List Item × List UInt8)
  | [] => none
  | b :: bs =>
    if b = 0x22 then some ([], bs)
    else if b = 0x5C then
      match bs with
      | [] => none
      | e :: bs =>
        if e = 0x75 then
          match bs with
          | b₃ :: b₂ :: b₁ :: b₀ :: bs =>
            (hexValue₄ b₃ b₂ b₁ b₀).bind fun u => (readItems bs).map fun p => (.unit u :: p.1, p.2)
          | _ => none
        else (shortEscape e).bind fun u => (readItems bs).map fun p => (.unit u :: p.1, p.2)
    else if b < 0x20 then none
    else (readItems bs).map fun p => (.raw b :: p.1, p.2)

/-- A UTF-16 code unit that does not stand for a character alone. -/
def IsSurrogate (u : ℕ) : Prop := 0xD800 ≤ u ∧ u < 0xE000

instance (u : ℕ) : Decidable (IsSurrogate u) := inferInstanceAs (Decidable (_ ∧ _))

/-- The UTF-8 of a code unit; a surrogate without its other half is replaced. -/
def unitBytes (u : ℕ) : List UInt8 :=
  String.utf8EncodeChar (if IsSurrogate u then '\uFFFD' else Char.ofNat u)

/-- The UTF-8 of two surrogates. -/
def pairBytes (u v : ℕ) : List UInt8 :=
  String.utf8EncodeChar (Char.ofNat (0x10000 + (u - 0xD800) * 0x400 + (v - 0xDC00)))

/-- What the items of a string stand for. -/
def itemBytes : List Item → List UInt8
  | [] => []
  | .raw b :: is => b :: itemBytes is
  | .unit u :: .unit v :: is =>
    if 0xD800 ≤ u ∧ u < 0xDC00 ∧ 0xDC00 ≤ v ∧ v < 0xE000 then pairBytes u v ++ itemBytes is
    else unitBytes u ++ itemBytes (.unit v :: is)
  | .unit u :: is => unitBytes u ++ itemBytes is

/-- A string, read from behind its opening quote. -/
def readString (bs : List UInt8) : Option (List UInt8 × List UInt8) :=
  (readItems bs).map fun p => (itemBytes p.1, p.2)

/-! ### Numbers -/

/-- A decimal digit. -/
def isDigit (b : UInt8) : Bool := 0x30 ≤ b ∧ b ≤ 0x39

/-- Some digits, at least one. -/
def readDigits (bs : List UInt8) : Option (List UInt8 × List UInt8) :=
  if bs.takeWhile isDigit = [] then none else some (bs.takeWhile isDigit, bs.dropWhile isDigit)

/-- One text and then another one. -/
def andThen (read read' : List UInt8 → Option (List UInt8 × List UInt8)) (bs : List UInt8) :
    Option (List UInt8 × List UInt8) :=
  (read bs).bind fun p => (read' p.2).map fun q => (p.1 ++ q.1, q.2)

/-- What comes behind one of some bytes, where one of them is there. -/
def optionally (heads : List UInt8) (read : List UInt8 → Option (List UInt8 × List UInt8)) :
    List UInt8 → Option (List UInt8 × List UInt8)
  | [] => some ([], [])
  | b :: bs => if b ∈ heads then (read bs).map fun p => (b :: p.1, p.2) else some ([], b :: bs)

/-- The integer part of a number: a zero, or digits that do not begin with one. -/
def readInt : List UInt8 → Option (List UInt8 × List UInt8)
  | [] => none
  | b :: bs => if b = 0x30 then some ([b], bs) else readDigits (b :: bs)

/-- A number: an optional sign, the integer part, an optional fraction, an optional exponent. -/
def readNumber : List UInt8 → Option (List UInt8 × List UInt8) :=
  andThen (optionally [0x2D] fun bs => some ([], bs)) <| andThen readInt <|
    andThen (optionally [0x2E] readDigits) <|
      optionally [0x65, 0x45] <| andThen (optionally [0x2B, 0x2D] fun bs => some ([], bs)) readDigits

/-! ### Values -/

/-- A byte of white space. -/
def isSpace (b : UInt8) : Bool := b = 0x20 ∨ b = 0x09 ∨ b = 0x0A ∨ b = 0x0D

/-- White space is passed over. -/
def skip (bs : List UInt8) : List UInt8 := bs.dropWhile isSpace

/-- The next byte that is not white space, and what is behind it. -/
def next (bs : List UInt8) : Option (UInt8 × List UInt8) :=
  match skip bs with
  | [] => none
  | b :: rest => some (b, rest)

/-- Things with commas between them and a byte behind the last one; `fuel` bounds their number. -/
def readSeq {α : Type} (one : List UInt8 → Option (α × List UInt8)) (close : UInt8) :
    (fuel : ℕ) → List UInt8 → Option (List α × List UInt8)
  | 0, _ => none
  | fuel + 1, bs =>
    (one bs).bind fun p => (next p.2).bind fun q =>
      if q.1 = close then some ([p.1], q.2)
      else if q.1 = 0x2C then (readSeq one close fuel q.2).map fun r => (p.1 :: r.1, r.2)
      else none

/-- Such a sequence, which may be empty. -/
def readSeq? {α : Type} (one : List UInt8 → Option (α × List UInt8)) (close : UInt8) (fuel : ℕ)
    (bs : List UInt8) : Option (List α × List UInt8) :=
  (next bs).bind fun p => if p.1 = close then some ([], p.2) else readSeq one close fuel bs

/-- A member of an object. -/
def readMember (value : List UInt8 → Option (Json × List UInt8)) (bs : List UInt8) :
    Option ((List UInt8 × Json) × List UInt8) :=
  (next bs).bind fun p =>
    if p.1 = 0x22 then
      (readString p.2).bind fun q => (next q.2).bind fun r =>
        if r.1 = 0x3A then (value r.2).map fun v => ((q.1, v.1), v.2) else none
    else none

/-- A literal name. -/
def readName (name : List UInt8) (v : Json) (bs : List UInt8) : Option (Json × List UInt8) :=
  if name.isPrefixOf bs then some (v, bs.drop name.length) else none

/-- A value, and what is behind it; `fuel` bounds how deep values are nested, and how many are
in a row. -/
def readValue : (fuel : ℕ) → List UInt8 → Option (Json × List UInt8)
  | 0, _ => none
  | fuel + 1, bs =>
    (next bs).bind fun p =>
      if p.1 = 0x22 then (readString p.2).map fun q => (.string q.1, q.2)
      else if p.1 = 0x5B then
        (readSeq? (readValue fuel) 0x5D fuel p.2).map fun q => (.array q.1, q.2)
      else if p.1 = 0x7B then
        (readSeq? (readMember (readValue fuel)) 0x7D fuel p.2).map fun q => (.object q.1, q.2)
      else if p.1 = 0x6E then readName [0x75, 0x6C, 0x6C] .null p.2
      else if p.1 = 0x74 then readName [0x72, 0x75, 0x65] (.bool true) p.2
      else if p.1 = 0x66 then readName [0x61, 0x6C, 0x73, 0x65] (.bool false) p.2
      else (readNumber (skip bs)).map fun q => (.number q.1, q.2)

/-- The value that a text is. -/
def decode (bs : List UInt8) : Option Json :=
  if Utf8 bs then
    match readValue (bs.length + 1) bs with
    | none => none
    | some (v, rest) => if skip rest = [] then some v else none
  else none

/-! ### What stands in a string -/

/-- What stands between the quotes of a string, with its items. -/
inductive Literal : List UInt8 → List Item → Prop where
  | nil : Literal [] []
  | raw {b : UInt8} {bs : List UInt8} {is : List Item} (hb : Plain b) (h : Literal bs is) :
    Literal (b :: bs) (.raw b :: is)
  | short {e : UInt8} {u : ℕ} {bs : List UInt8} {is : List Item} (he : shortEscape e = some u)
    (h : Literal bs is) : Literal (0x5C :: e :: bs) (.unit u :: is)
  | long {b₃ b₂ b₁ b₀ : UInt8} {u : ℕ} {bs : List UInt8} {is : List Item}
    (hu : hexValue₄ b₃ b₂ b₁ b₀ = some u) (h : Literal bs is) :
    Literal (0x5C :: 0x75 :: b₃ :: b₂ :: b₁ :: b₀ :: bs) (.unit u :: is)

theorem Literal.append {xs ys : List UInt8} {is js : List Item} (h : Literal xs is)
    (h' : Literal ys js) : Literal (xs ++ ys) (is ++ js) := by
  induction h with
  | nil => exact h'
  | raw hb _ ih => exact .raw hb ih
  | short he _ ih => exact .short he ih
  | long hu _ ih => exact .long hu ih

theorem map_cons_eq_some {r : Option (List Item × List UInt8)} {i : Item} {is : List Item}
    {rest : List UInt8} : r.map (fun p => (i :: p.1, p.2)) = some (is, rest) ↔
      ∃ is', r = some (is', rest) ∧ i :: is' = is := by
  rw [Option.map_eq_some_iff]
  constructor
  · rintro ⟨⟨is', rest'⟩, hread, heq⟩
    obtain ⟨rfl, rfl⟩ := Prod.mk.inj heq
    exact ⟨is', hread, rfl⟩
  · rintro ⟨is', hread, rfl⟩
    exact ⟨_, hread, rfl⟩

/-- What is read up to a closing quote. -/
theorem literal_of_readItems (bs : List UInt8) : ∀ {rest : List UInt8} {is : List Item},
    readItems bs = some (is, rest) → ∃ content, Literal content is ∧ bs = content ++ 0x22 :: rest := by
  fun_induction readItems bs with
  | case1 => exact fun h => absurd h (by simp)
  | case2 bs =>
    intro rest is h
    obtain ⟨rfl, rfl⟩ := Prod.mk.inj (Option.some.inj h)
    exact ⟨[], .nil, rfl⟩
  | case3 => exact fun h => absurd h (by simp)
  | case4 b₃ b₂ b₁ b₀ bs _ ih =>
    intro rest is h
    obtain ⟨u, hu, h⟩ := Option.bind_eq_some_iff.mp h
    obtain ⟨is', hread, rfl⟩ := map_cons_eq_some.mp h
    obtain ⟨content, hcontent, rfl⟩ := ih hread
    exact ⟨_, .long hu hcontent, rfl⟩
  | case5 => exact fun h => absurd h (by simp)
  | case6 e bs _ _ ih =>
    intro rest is h
    obtain ⟨u, hu, h⟩ := Option.bind_eq_some_iff.mp h
    obtain ⟨is', hread, rfl⟩ := map_cons_eq_some.mp h
    obtain ⟨content, hcontent, rfl⟩ := ih hread
    exact ⟨_, .short hu hcontent, rfl⟩
  | case7 => exact fun h => absurd h (by simp)
  | case8 b bs hquote hback hlow ih =>
    intro rest is h
    obtain ⟨is', hread, rfl⟩ := map_cons_eq_some.mp h
    obtain ⟨content, hcontent, rfl⟩ := ih hread
    exact ⟨_, .raw ⟨hquote, hback, UInt8.not_lt.mp hlow⟩ hcontent, rfl⟩

theorem readItems_quote (bs : List UInt8) : readItems (0x22 :: bs) = some ([], bs) := by
  rw [readItems.eq_def]
  exact if_pos rfl

theorem readItems_raw {b : UInt8} (hb : Plain b) (bs : List UInt8) :
    readItems (b :: bs) = (readItems bs).map fun p => (.raw b :: p.1, p.2) := by
  rw [readItems.eq_def]
  dsimp only
  rw [if_neg hb.1, if_neg hb.2.1, if_neg (UInt8.not_lt.mpr hb.2.2)]

theorem readItems_short {e : UInt8} {u : ℕ} (he : shortEscape e = some u) (bs : List UInt8) :
    readItems (0x5C :: e :: bs) = (readItems bs).map fun p => (.unit u :: p.1, p.2) := by
  have hne : e ≠ 0x75 := by
    rintro rfl
    exact absurd he (by simp [shortEscape])
  rw [readItems.eq_def]
  dsimp only
  rw [if_neg (by decide), if_pos rfl, if_neg hne, he, Option.bind_some]

theorem readItems_long {b₃ b₂ b₁ b₀ : UInt8} {u : ℕ} (hu : hexValue₄ b₃ b₂ b₁ b₀ = some u)
    (bs : List UInt8) :
    readItems (0x5C :: 0x75 :: b₃ :: b₂ :: b₁ :: b₀ :: bs) =
      (readItems bs).map fun p => (.unit u :: p.1, p.2) := by
  rw [readItems.eq_def]
  dsimp only
  rw [if_neg (by decide), if_pos rfl, if_pos rfl, hu, Option.bind_some]

theorem readItems_of_literal {content : List UInt8} {is : List Item} (h : Literal content is)
    (rest : List UInt8) : readItems (content ++ 0x22 :: rest) = some (is, rest) := by
  induction h with
  | nil => exact readItems_quote rest
  | raw hb _ ih => rw [List.cons_append, readItems_raw hb, ih, Option.map_some]
  | short he _ ih =>
    rw [List.cons_append, List.cons_append, readItems_short he, ih, Option.map_some]
  | long hu _ ih =>
    simp only [List.cons_append]
    rw [readItems_long hu, ih, Option.map_some]

theorem readString_of_literal {content : List UInt8} {is : List Item} (h : Literal content is)
    (rest : List UInt8) : readString (content ++ 0x22 :: rest) = some (itemBytes is, rest) := by
  rw [readString, readItems_of_literal h, Option.map_some]

theorem length_readString {bs s rest : List UInt8} (h : readString bs = some (s, rest)) :
    rest.length < bs.length := by
  obtain ⟨⟨is, rest'⟩, hread, heq⟩ := Option.map_eq_some_iff.mp h
  obtain ⟨-, rfl⟩ := Prod.mk.inj heq
  obtain ⟨content, -, rfl⟩ := literal_of_readItems bs hread
  simp only [List.length_append, List.length_cons]
  omega

/-! ### Text that is not escaped -/

theorem unitBytes_ascii : ∀ u < 0x80, unitBytes u = [UInt8.ofNat u] := by decide

theorem length_unitBytes (u : ℕ) : (unitBytes u).length ≤ if u < 0x80 then 1 else 4 := by
  split_ifs with hu
  · rw [unitBytes_ascii u hu]
    exact le_rfl
  · rw [unitBytes, String.length_utf8EncodeChar]
    exact Char.utf8Size_le_four _

/-- An escaped unit stands for itself, or for a character together with the next one. -/
theorem itemBytes_unit (u : ℕ) (is : List Item) :
    itemBytes (.unit u :: is) = unitBytes u ++ itemBytes is ∨
      ∃ v js, is = .unit v :: js ∧ (0xD800 ≤ u ∧ u < 0xDC00 ∧ 0xDC00 ≤ v ∧ v < 0xE000) ∧
        itemBytes (.unit u :: is) = pairBytes u v ++ itemBytes js := by
  rcases is with _ | ⟨b | v, js⟩
  · exact Or.inl rfl
  · exact Or.inl rfl
  · rw [itemBytes]
    split_ifs with hpair
    · exact Or.inr ⟨v, js, rfl, hpair, rfl⟩
    · exact Or.inl rfl

theorem itemBytes_unit_of_lt {u : ℕ} (hu : u < 0x80) (is : List Item) :
    itemBytes (.unit u :: is) = UInt8.ofNat u :: itemBytes is := by
  rcases itemBytes_unit u is with heq | ⟨v, js, -, hpair, -⟩
  · rw [heq, unitBytes_ascii u hu, List.singleton_append]
  · exact absurd hpair.1 (by omega)

/-- What an escaped unit adds to the text at most, also where it goes with the next one. -/
theorem length_itemBytes_unit (u : ℕ) (is : List Item) :
    (itemBytes (.unit u :: is)).length ≤ (if u < 0x80 then 1 else 4) + (itemBytes is).length := by
  rcases itemBytes_unit u is with heq | ⟨v, js, rfl, hpair, heq⟩
  · rw [heq, List.length_append]
    exact Nat.add_le_add_right (length_unitBytes u) _
  · have hfour : (pairBytes u v).length ≤ 4 := by
      rw [pairBytes, String.length_utf8EncodeChar]
      exact Char.utf8Size_le_four _
    -- the second half of a pair does not go with what comes after it
    have hsecond : itemBytes (.unit v :: js) = unitBytes v ++ itemBytes js := by
      rcases itemBytes_unit v js with heq' | ⟨w, ks, -, hpair', -⟩
      · exact heq'
      · exact absurd hpair'.2.1 (by omega)
    rw [heq, hsecond, List.length_append, List.length_append, if_neg (by omega)]
    omega

theorem shortEscape_lt {e : UInt8} {u : ℕ} (h : shortEscape e = some u) : u < 0x80 := by
  rw [shortEscape] at h
  split_ifs at h with hself
  · obtain rfl := Option.some.inj h
    rcases hself with rfl | rfl | rfl <;> decide
  all_goals
    obtain rfl := Option.some.inj h
    decide

/-- **An escape is longer than what it stands for**: a string is at most as long as its text, and
as long only if nothing is escaped in it. -/
theorem Literal.length_le {content : List UInt8} {is : List Item} (h : Literal content is) :
    (itemBytes is).length ≤ content.length ∧
      (content.length ≤ (itemBytes is).length → Clean content ∧ itemBytes is = content) := by
  induction h with
  | nil => exact ⟨le_rfl, fun _ => ⟨fun b hb => absurd hb List.not_mem_nil, rfl⟩⟩
  | @raw b bs is hb _ ih =>
    rw [itemBytes, List.length_cons, List.length_cons]
    refine ⟨Nat.succ_le_succ ih.1, fun hle => ?_⟩
    obtain ⟨hclean, heq⟩ := ih.2 (Nat.le_of_succ_le_succ hle)
    exact ⟨List.forall_mem_cons.mpr ⟨hb, hclean⟩, by rw [heq]⟩
  | @short e u bs is he _ ih =>
    have hunit := length_itemBytes_unit u is
    rw [if_pos (shortEscape_lt he)] at hunit
    simp only [List.length_cons]
    exact ⟨by omega, fun hle => absurd hle (by omega)⟩
  | @long b₃ b₂ b₁ b₀ u bs is hu _ ih =>
    have hunit := length_itemBytes_unit u is
    have hfour : (if u < 0x80 then 1 else 4) ≤ 4 := by split_ifs <;> omega
    simp only [List.length_cons]
    exact ⟨by omega, fun hle => absurd hle (by omega)⟩

/-- **Text that is pasted between quotes is read as itself only if it needs no escape**, where no
other quote comes after the closing one. -/
theorem clean_of_readString {s rest : List UInt8} {c : UInt8} (hc : c ≠ 0x22)
    (h : readString (s ++ [0x22, c]) = some (s, rest)) : Clean s := by
  obtain ⟨⟨is, rest'⟩, hread, heq⟩ := Option.map_eq_some_iff.mp h
  obtain ⟨his, rfl⟩ := Prod.mk.inj heq
  obtain ⟨content, hcontent, htext⟩ := literal_of_readItems _ hread
  have hlen := congrArg List.length htext
  simp only [List.length_append, List.length_cons, List.length_nil] at hlen
  obtain ⟨hle, hclean⟩ := hcontent.length_le
  rw [his] at hle hclean
  by_cases hsame : content.length ≤ s.length
  · exact (hclean hsame).2 ▸ (hclean hsame).1
  · -- the string would have to end behind its own closing quote
    have hrest : rest' = [] := List.length_eq_zero_iff.mp (by omega)
    rw [hrest] at htext
    have hlast := congrArg List.getLast? htext
    simp at hlast
    exact absurd hlast hc

/-! ### Fuel -/

theorem length_skip_le (bs : List UInt8) : (skip bs).length ≤ bs.length :=
  (List.dropWhile_suffix _).length_le

theorem length_next {bs rest : List UInt8} {b : UInt8} (h : next bs = some (b, rest)) :
    rest.length < bs.length := by
  have hskip := length_skip_le bs
  rw [next] at h
  split at h
  · exact absurd h (by simp)
  · next b' rest' heq =>
    obtain ⟨-, rfl⟩ := Prod.mk.inj (Option.some.inj h)
    rw [heq, List.length_cons] at hskip
    omega

/-- A reader cuts the text in two. -/
def Cuts (read : List UInt8 → Option (List UInt8 × List UInt8)) : Prop :=
  ∀ {bs t rest : List UInt8}, read bs = some (t, rest) → bs = t ++ rest

theorem cuts_readDigits : Cuts readDigits := by
  intro bs t rest h
  rw [readDigits] at h
  split_ifs at h
  obtain ⟨rfl, rfl⟩ := Prod.mk.inj (Option.some.inj h)
  exact (List.takeWhile_append_dropWhile).symm

theorem andThen_eq_some {read read' : List UInt8 → Option (List UInt8 × List UInt8)}
    {bs t rest : List UInt8} : andThen read read' bs = some (t, rest) ↔
      ∃ t₁ mid t₂, read bs = some (t₁, mid) ∧ read' mid = some (t₂, rest) ∧ t₁ ++ t₂ = t := by
  rw [andThen, Option.bind_eq_some_iff]
  constructor
  · rintro ⟨⟨t₁, mid⟩, hfst, h⟩
    obtain ⟨⟨t₂, rest'⟩, hsnd, heq⟩ := Option.map_eq_some_iff.mp h
    obtain ⟨rfl, rfl⟩ := Prod.mk.inj heq
    exact ⟨t₁, mid, t₂, hfst, hsnd, rfl⟩
  · rintro ⟨t₁, mid, t₂, hfst, hsnd, rfl⟩
    exact ⟨_, hfst, Option.map_eq_some_iff.mpr ⟨_, hsnd, rfl⟩⟩

theorem cuts_andThen {read read' : List UInt8 → Option (List UInt8 × List UInt8)} (h : Cuts read)
    (h' : Cuts read') : Cuts (andThen read read') := by
  intro bs t rest hread
  obtain ⟨t₁, mid, t₂, hfst, hsnd, rfl⟩ := andThen_eq_some.mp hread
  rw [h hfst, h' hsnd, List.append_assoc]

theorem cuts_optionally (heads : List UInt8)
    {read : List UInt8 → Option (List UInt8 × List UInt8)} (h : Cuts read) :
    Cuts (optionally heads read) := by
  intro bs t rest hread
  rcases bs with _ | ⟨b, bs⟩
  · obtain ⟨rfl, rfl⟩ := Prod.mk.inj (Option.some.inj hread)
    rfl
  · rw [optionally] at hread
    split_ifs at hread
    · obtain ⟨⟨t', rest'⟩, hrest, heq⟩ := Option.map_eq_some_iff.mp hread
      obtain ⟨rfl, rfl⟩ := Prod.mk.inj heq
      rw [h hrest, List.cons_append]
    · obtain ⟨rfl, rfl⟩ := Prod.mk.inj (Option.some.inj hread)
      rfl

theorem cuts_nothing : Cuts fun bs => some ([], bs) := by
  intro bs t rest h
  obtain ⟨rfl, rfl⟩ := Prod.mk.inj (Option.some.inj h)
  rfl

/-- The integer part takes something. -/
theorem length_readInt {bs t rest : List UInt8} (h : readInt bs = some (t, rest)) :
    bs = t ++ rest ∧ t ≠ [] := by
  rcases bs with _ | ⟨b, bs⟩
  · exact absurd h (by simp [readInt])
  · rw [readInt] at h
    split_ifs at h
    · obtain ⟨rfl, rfl⟩ := Prod.mk.inj (Option.some.inj h)
      exact ⟨rfl, by simp⟩
    · refine ⟨cuts_readDigits h, ?_⟩
      rw [readDigits] at h
      split_ifs at h with hnil
      obtain ⟨rfl, -⟩ := Prod.mk.inj (Option.some.inj h)
      exact hnil

theorem length_readNumber {bs t rest : List UInt8} (h : readNumber bs = some (t, rest)) :
    rest.length < bs.length := by
  obtain ⟨t₁, mid, t₂, hsign, h, -⟩ := andThen_eq_some.mp h
  obtain ⟨t₃, mid', t₄, hint, hfrac, -⟩ := andThen_eq_some.mp h
  obtain ⟨hmid, hne⟩ := length_readInt hint
  have hmid' := cuts_andThen (cuts_optionally _ cuts_readDigits) (cuts_optionally _
    (cuts_andThen (cuts_optionally _ cuts_nothing) cuts_readDigits)) hfrac
  have hpos := List.length_pos_iff.mpr hne
  rw [cuts_optionally _ cuts_nothing hsign, hmid, hmid']
  simp only [List.length_append]
  omega

section Fuel

variable {α : Type} {one one' : List UInt8 → Option (α × List UInt8)} {k : ℕ}

/-- What is read from a short text leaves a shorter one, and is read by another reader too. -/
def Refines (k : ℕ) (one one' : List UInt8 → Option (α × List UInt8)) : Prop :=
  ∀ {bs : List UInt8} {a : α} {rest : List UInt8}, bs.length ≤ k → one bs = some (a, rest) →
    rest.length < bs.length ∧ one' bs = some (a, rest)

/-- A sequence needs no more fuel than its text is long. -/
theorem Refines.readSeq (h : Refines k one one') (close : UInt8) {fuel : ℕ} :
    ∀ {fuel' : ℕ} {bs : List UInt8} {as : List α} {rest : List UInt8}, bs.length ≤ k →
      bs.length ≤ fuel' → Json.readSeq one close fuel bs = some (as, rest) →
        rest.length < bs.length ∧ Json.readSeq one' close fuel' bs = some (as, rest) := by
  induction fuel with
  | zero => exact fun _ _ hread => absurd hread (by simp [Json.readSeq])
  | succ fuel ih =>
    intro fuel' bs as rest hk hfuel' hread
    obtain ⟨⟨a, mid⟩, hone, hread⟩ := Option.bind_eq_some_iff.mp hread
    obtain ⟨⟨b, mid'⟩, hnext, hread⟩ := Option.bind_eq_some_iff.mp hread
    obtain ⟨hshort, hone'⟩ := h hk hone
    have hshort' : mid'.length < mid.length := length_next hnext
    obtain ⟨fuel', rfl⟩ : ∃ m, fuel' = m + 1 := ⟨fuel' - 1, by omega⟩
    rw [Json.readSeq, hone', Option.bind_some, hnext, Option.bind_some]
    dsimp only at hread ⊢
    split_ifs at hread ⊢
    · obtain ⟨rfl, rfl⟩ := Prod.mk.inj (Option.some.inj hread)
      exact ⟨by omega, rfl⟩
    · obtain ⟨⟨as', rest'⟩, hrest, heq⟩ := Option.map_eq_some_iff.mp hread
      obtain ⟨rfl, rfl⟩ := Prod.mk.inj heq
      obtain ⟨hlt, hrest'⟩ := @ih fuel' mid' as' rest' (by omega) (by omega) hrest
      exact ⟨lt_of_lt_of_le (b := mid'.length) hlt (by omega), by rw [hrest', Option.map_some]⟩

theorem Refines.readSeq? (h : Refines k one one') (close : UInt8) {fuel fuel' : ℕ}
    (hfuel : k ≤ fuel') :
    Refines k (Json.readSeq? one close fuel) (Json.readSeq? one' close fuel') := by
  intro bs as rest hk hread
  obtain ⟨⟨b, mid⟩, hnext, hread⟩ := Option.bind_eq_some_iff.mp hread
  have hshort := length_next hnext
  rw [Json.readSeq?, hnext, Option.bind_some]
  split_ifs at hread ⊢
  · obtain ⟨rfl, rfl⟩ := Prod.mk.inj (Option.some.inj hread)
    exact ⟨by omega, rfl⟩
  · exact h.readSeq close hk (by omega) hread

theorem Refines.readMember {value value' : List UInt8 → Option (Json × List UInt8)}
    (h : Refines k value value') : Refines k (Json.readMember value) (Json.readMember value') := by
  intro bs m rest hk hread
  obtain ⟨⟨b, mid⟩, hnext, hread⟩ := Option.bind_eq_some_iff.mp hread
  have hshort := length_next hnext
  rw [Json.readMember, hnext, Option.bind_some]
  split_ifs at hread ⊢
  obtain ⟨⟨s, mid'⟩, hstring, hread⟩ := Option.bind_eq_some_iff.mp hread
  obtain ⟨⟨c, mid''⟩, hnext', hread⟩ := Option.bind_eq_some_iff.mp hread
  have hshort' : mid'.length < mid.length := length_readString hstring
  have hshort'' : mid''.length < mid'.length := length_next hnext'
  rw [hstring, Option.bind_some, hnext', Option.bind_some]
  split_ifs at hread ⊢
  obtain ⟨⟨v, rest'⟩, hvalue, heq⟩ := Option.map_eq_some_iff.mp hread
  obtain ⟨rfl, rfl⟩ := Prod.mk.inj heq
  obtain ⟨hlt, hvalue'⟩ := @h mid'' v rest' (by omega) hvalue
  exact ⟨hlt.trans (by omega), by rw [hvalue', Option.map_some]⟩

theorem length_readName {name bs rest : List UInt8} {v v' : Json}
    (h : readName name v bs = some (v', rest)) : rest.length ≤ bs.length := by
  rw [readName] at h
  split_ifs at h
  obtain ⟨-, rfl⟩ := Prod.mk.inj (Option.some.inj h)
  rw [List.length_drop]
  exact Nat.sub_le _ _

/-- **A value needs no more fuel than its text is long.** -/
theorem refines_readValue {fuel : ℕ} : ∀ {fuel' : ℕ},
    Refines fuel' (readValue fuel) (readValue fuel') := by
  induction fuel with
  | zero => exact fun _ hread => absurd hread (by simp [readValue])
  | succ fuel ih =>
    intro fuel' bs v rest hk hread
    obtain ⟨⟨b, mid⟩, hnext, hread⟩ := Option.bind_eq_some_iff.mp hread
    have hshort := length_next hnext
    obtain ⟨fuel', rfl⟩ : ∃ m, fuel' = m + 1 := ⟨fuel' - 1, by omega⟩
    rw [readValue, hnext, Option.bind_some]
    dsimp only at hread ⊢
    split_ifs at hread ⊢
    · obtain ⟨⟨s, rest'⟩, hstring, heq⟩ := Option.map_eq_some_iff.mp hread
      obtain ⟨-, rfl⟩ := Prod.mk.inj heq
      have hshort' := length_readString hstring
      exact ⟨by dsimp only; omega, hread⟩
    · obtain ⟨⟨vs, rest'⟩, hseq, heq⟩ := Option.map_eq_some_iff.mp hread
      obtain ⟨rfl, rfl⟩ := Prod.mk.inj heq
      obtain ⟨hlt, hseq'⟩ := Refines.readSeq? (@ih fuel') 0x5D le_rfl (by omega) hseq
      exact ⟨by dsimp only; omega, by rw [hseq', Option.map_some]⟩
    · obtain ⟨⟨ms, rest'⟩, hseq, heq⟩ := Option.map_eq_some_iff.mp hread
      obtain ⟨rfl, rfl⟩ := Prod.mk.inj heq
      obtain ⟨hlt, hseq'⟩ := Refines.readSeq? (Refines.readMember (@ih fuel')) 0x7D le_rfl
        (by omega) hseq
      exact ⟨by dsimp only; omega, by rw [hseq', Option.map_some]⟩
    · exact ⟨(length_readName hread).trans_lt hshort, hread⟩
    · exact ⟨(length_readName hread).trans_lt hshort, hread⟩
    · exact ⟨(length_readName hread).trans_lt hshort, hread⟩
    · obtain ⟨⟨t, rest'⟩, hnumber, heq⟩ := Option.map_eq_some_iff.mp hread
      obtain ⟨-, rfl⟩ := Prod.mk.inj heq
      exact ⟨(length_readNumber hnumber).trans_le (length_skip_le bs), hread⟩

end Fuel

/-- **What it means to be the value of a text**, whatever the fuel. -/
theorem decode_eq_some {bs : List UInt8} {v : Json} :
    decode bs = some v ↔
      Utf8 bs ∧ ∃ fuel rest, readValue fuel bs = some (v, rest) ∧ skip rest = [] := by
  rw [decode]
  constructor
  · intro h
    split_ifs at h with hutf8
    refine ⟨hutf8, bs.length + 1, ?_⟩
    split at h
    · exact absurd h (by simp)
    · next v' rest heq =>
      split_ifs at h with hrest
      obtain rfl := Option.some.inj h
      exact ⟨rest, heq, hrest⟩
  · rintro ⟨hutf8, fuel, rest, hread, hrest⟩
    obtain ⟨-, hread'⟩ := @refines_readValue fuel (bs.length + 1) bs v rest (Nat.le_succ _) hread
    rw [if_pos hutf8, hread']
    exact if_pos hrest

end Json
