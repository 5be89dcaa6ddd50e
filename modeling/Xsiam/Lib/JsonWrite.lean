import Xsiam.Lib.Json

/-!
# Writing JSON

A writer without white space is given by how it escapes the bytes of a string (`Json.Escapes`,
`Json.write`). What it writes is UTF-8 exactly when all texts in the value are
(`Json.utf8_write`), and then reading gives back the value (`Json.decode_write`). A string that
is pasted between its quotes instead is read as itself exactly if it needs no escape
(`Json.decode_pasted`).
-/

namespace Json

/-! ### The writer -/

/-- A writer of strings escapes them byte by byte, and what it writes for a byte reads as this
byte. -/
structure Escapes (esc : UInt8 → List UInt8) : Prop where
  item : ∀ b, ∃ i, Literal (esc b) [i] ∧ ∀ is, itemBytes (i :: is) = b :: itemBytes is
  run : ∀ (b : UInt8) (p : Place), p.run (esc b) = p.step b

section Write

variable (esc : UInt8 → List UInt8)

/-- A string between its quotes. -/
def quote (s : List UInt8) : List UInt8 := 0x22 :: s.flatMap esc ++ [0x22]

mutual
/-- A value without white space. -/
def write : Json → List UInt8
  | .null => [0x6E, 0x75, 0x6C, 0x6C]
  | .bool true => [0x74, 0x72, 0x75, 0x65]
  | .bool false => [0x66, 0x61, 0x6C, 0x73, 0x65]
  | .number text => text
  | .string s => quote esc s
  | .array vs => 0x5B :: writeElements vs ++ [0x5D]
  | .object ms => 0x7B :: writeMembers ms ++ [0x7D]
/-- The elements of an array. -/
def writeElements : List Json → List UInt8
  | [] => []
  | [v] => write v
  | v :: w :: vs => write v ++ 0x2C :: writeElements (w :: vs)
/-- The members of an object. -/
def writeMembers : List (List UInt8 × Json) → List UInt8
  | [] => []
  | [(k, v)] => quote esc k ++ 0x3A :: write v
  | (k, v) :: m :: ms => quote esc k ++ 0x3A :: write v ++ 0x2C :: writeMembers (m :: ms)
end

theorem write_string (s : List UInt8) : write esc (.string s) = quote esc s := by rw [write]

theorem write_array (vs : List Json) :
    write esc (.array vs) = 0x5B :: (writeElements esc vs ++ [0x5D]) := by
  rw [write, List.cons_append]

theorem write_object (ms : List (List UInt8 × Json)) :
    write esc (.object ms) = 0x7B :: (writeMembers esc ms ++ [0x7D]) := by
  rw [write, List.cons_append]

theorem writeElements_singleton (v : Json) : writeElements esc [v] = write esc v := by
  rw [writeElements]

theorem writeElements_cons_cons (v w : Json) (vs : List Json) :
    writeElements esc (v :: w :: vs) = write esc v ++ 0x2C :: writeElements esc (w :: vs) := by
  rw [writeElements]

theorem writeElements_cons (v : Json) : ∀ vs : List Json,
    writeElements esc (v :: vs) = write esc v ++ vs.flatMap fun w => 0x2C :: write esc w
  | [] => by rw [writeElements_singleton, List.flatMap_nil, List.append_nil]
  | w :: vs => by
    rw [writeElements_cons_cons, writeElements_cons w vs, List.flatMap_cons, List.cons_append]

theorem writeMembers_singleton (k : List UInt8) (v : Json) :
    writeMembers esc [(k, v)] = quote esc k ++ 0x3A :: write esc v := by
  rw [writeMembers]

theorem writeMembers_cons_cons (k : List UInt8) (v : Json) (m : List UInt8 × Json)
    (ms : List (List UInt8 × Json)) :
    writeMembers esc ((k, v) :: m :: ms) =
      quote esc k ++ 0x3A :: write esc v ++ 0x2C :: writeMembers esc (m :: ms) := by
  rw [writeMembers]

/-- What a value is made of, besides its structure. -/
inductive Leaf where
  | text (s : List UInt8)
  | numeral (t : List UInt8)

mutual
/-- The texts and numbers in a value. -/
def leaves : Json → List Leaf
  | .null => []
  | .bool _ => []
  | .number t => [.numeral t]
  | .string s => [.text s]
  | .array vs => leavesElements vs
  | .object ms => leavesMembers ms
/-- Those in some values. -/
def leavesElements : List Json → List Leaf
  | [] => []
  | v :: vs => leaves v ++ leavesElements vs
/-- Those in the members of an object. -/
def leavesMembers : List (List UInt8 × Json) → List Leaf
  | [] => []
  | (k, v) :: ms => .text k :: leaves v ++ leavesMembers ms
end

theorem mem_leavesElements {l : Leaf} :
    ∀ {vs : List Json}, l ∈ leavesElements vs ↔ ∃ v ∈ vs, l ∈ leaves v
  | [] => by simp [leavesElements]
  | v :: vs => by
    rw [leavesElements, List.mem_append, mem_leavesElements]
    simp only [List.mem_cons, exists_eq_or_imp]

theorem mem_leavesMembers {l : Leaf} : ∀ {ms : List (List UInt8 × Json)},
    l ∈ leavesMembers ms ↔ ∃ m ∈ ms, l = .text m.1 ∨ l ∈ leaves m.2
  | [] => by simp [leavesMembers]
  | (k, v) :: ms => by
    rw [leavesMembers, List.mem_append, mem_leavesMembers, List.mem_cons]
    simp only [List.mem_cons, exists_eq_or_imp]

/-- A natural number in decimal. -/
def Numeral (t : List UInt8) : Prop := t ≠ [] ∧ (∀ b ∈ t, isDigit b) ∧ (t.head? = some 0x30 → t = [0x30])

/-- All numbers in a value are natural ones. -/
def Natural (v : Json) : Prop := ∀ t, .numeral t ∈ leaves v → Numeral t

theorem natural_array {vs : List Json} (h : ∀ v ∈ vs, Natural v) : Natural (.array vs) := by
  intro t ht
  obtain ⟨v, hv, hleaf⟩ := mem_leavesElements.mp ht
  exact h v hv t hleaf

theorem natural_object {ms : List (List UInt8 × Json)} (h : ∀ m ∈ ms, Natural m.2) :
    Natural (.object ms) := by
  intro t ht
  obtain ⟨m, hm, hleaf⟩ := mem_leavesMembers.mp ht
  exact hleaf.elim (fun htext => absurd htext (by simp)) (h m hm t)

theorem natural_string (s : List UInt8) : Natural (.string s) := fun t ht =>
  absurd (List.mem_singleton.mp ht) (by simp)

/-- What may stand behind a value: a comma, the end of an array or object, or nothing. -/
def Ends (rest : List UInt8) : Prop := ∀ b ∈ rest.head?, b = 0x2C ∨ b = 0x5D ∨ b = 0x7D

variable {esc}

theorem literal_flatMap (h : Escapes esc) (s : List UInt8) :
    ∃ is, Literal (s.flatMap esc) is ∧ itemBytes is = s := by
  induction s with
  | nil => exact ⟨[], .nil, rfl⟩
  | cons b s ih =>
    obtain ⟨is, hlit, his⟩ := ih
    obtain ⟨i, hi, hbytes⟩ := h.item b
    exact ⟨i :: is, hi.append hlit, by rw [hbytes, his]⟩

theorem readString_quote (h : Escapes esc) (s rest : List UInt8) :
    readString (s.flatMap esc ++ 0x22 :: rest) = some (s, rest) := by
  obtain ⟨is, hlit, his⟩ := literal_flatMap h s
  rw [readString_of_literal hlit, his]

theorem next_cons {b : UInt8} (hb : isSpace b = false) (bs : List UInt8) :
    next (b :: bs) = some (b, bs) := by
  rw [next, skip, List.dropWhile_cons_of_neg (by simp [hb])]

theorem optionally_of_notMem {heads bs : List UInt8} (h : ∀ b ∈ bs.head?, b ∉ heads)
    (read : List UInt8 → Option (List UInt8 × List UInt8)) :
    optionally heads read bs = some ([], bs) := by
  rcases bs with _ | ⟨b, bs⟩
  · rfl
  · exact if_neg (h b rfl)

theorem Ends.notMem {rest heads : List UInt8} (h : Ends rest)
    (hheads : ∀ b ∈ heads, b ≠ 0x2C ∧ b ≠ 0x5D ∧ b ≠ 0x7D) : ∀ b ∈ rest.head?, b ∉ heads := by
  intro b hb hmem
  obtain ⟨hcomma, hbracket, hbrace⟩ := hheads b hmem
  rcases h b hb with rfl | rfl | rfl
  · exact hcomma rfl
  · exact hbracket rfl
  · exact hbrace rfl

theorem readDigits_append {t rest : List UInt8} (hne : t ≠ []) (ht : ∀ b ∈ t, isDigit b)
    (hrest : Ends rest) : readDigits (t ++ rest) = some (t, rest) := by
  have hnone : rest.takeWhile isDigit = [] ∧ rest.dropWhile isDigit = rest := by
    rcases rest with _ | ⟨b, rest⟩
    · exact ⟨rfl, rfl⟩
    · have hb : isDigit b = false := by
        rcases hrest b rfl with rfl | rfl | rfl <;> decide
      rw [List.takeWhile_cons_of_neg (by simp [hb]), List.dropWhile_cons_of_neg (by simp [hb])]
      exact ⟨rfl, rfl⟩
  rw [readDigits, List.takeWhile_append_of_pos ht, List.dropWhile_append_of_pos ht, hnone.1,
    hnone.2, List.append_nil, if_neg hne]

theorem readNumber_of_numeral {t rest : List UInt8} (h : Numeral t) (hrest : Ends rest) :
    readNumber (t ++ rest) = some (t, rest) := by
  obtain ⟨hne, hdigits, hzero⟩ := h
  have hint : readInt (t ++ rest) = some (t, rest) := by
    obtain ⟨b, t', rfl⟩ := List.exists_cons_of_ne_nil hne
    rw [List.cons_append, readInt]
    split_ifs with hb
    · obtain ⟨-, rfl⟩ := List.cons.inj (hzero (by rw [List.head?_cons, hb]))
      rfl
    · exact readDigits_append hne hdigits hrest
  have hsign : ∀ b ∈ (t ++ rest).head?, b ∉ [(0x2D : UInt8)] := by
    obtain ⟨b, t', rfl⟩ := List.exists_cons_of_ne_nil hne
    rintro b' hb' hmem
    obtain rfl : b = b' := Option.some.inj hb'
    rw [List.mem_singleton.mp hmem] at hdigits
    exact absurd (hdigits 0x2D List.mem_cons_self) (by decide)
  refine andThen_eq_some.mpr ⟨[], _, t, optionally_of_notMem hsign _, ?_, rfl⟩
  refine andThen_eq_some.mpr ⟨t, _, [], hint, ?_, List.append_nil t⟩
  refine andThen_eq_some.mpr ⟨[], _, [], optionally_of_notMem (hrest.notMem ?_) _, ?_, rfl⟩
  · simp
  · exact optionally_of_notMem (hrest.notMem (by simp)) _

/-- A text begins with a byte that is neither white space nor the end of something. -/
def Begins (text : List UInt8) : Prop :=
  ∃ b bs, text = b :: bs ∧ isSpace b = false ∧ b ≠ 0x5D ∧ b ≠ 0x7D

theorem begins_quote (s : List UInt8) : Begins (quote esc s) := ⟨0x22, _, rfl, rfl, by decide, by decide⟩

theorem begins_write {v : Json} (hv : Natural v) : Begins (write esc v) := by
  cases v with
  | null => exact ⟨_, _, rfl, rfl, by decide, by decide⟩
  | bool b => cases b <;> exact ⟨_, _, rfl, rfl, by decide, by decide⟩
  | string s => exact begins_quote s
  | array vs => exact ⟨_, _, rfl, rfl, by decide, by decide⟩
  | object ms => exact ⟨_, _, rfl, rfl, by decide, by decide⟩
  | number t =>
    obtain ⟨hne, hdigits, -⟩ := hv t (List.mem_singleton_self _)
    obtain ⟨b, t', rfl⟩ := List.exists_cons_of_ne_nil hne
    have hb : isDigit b = true := hdigits b List.mem_cons_self
    refine ⟨b, t', rfl, ?_, ?_, ?_⟩
    · rw [Bool.eq_false_iff]
      intro hspace
      simp only [isSpace, isDigit, decide_eq_true_eq] at hspace hb
      rcases hspace with rfl | rfl | rfl | rfl <;> exact absurd hb (by decide)
    · rintro rfl
      exact absurd hb (by decide)
    · rintro rfl
      exact absurd hb (by decide)

theorem Begins.append {text : List UInt8} (h : Begins text) (rest : List UInt8) :
    Begins (text ++ rest) := by
  obtain ⟨b, bs, rfl, hb⟩ := h
  exact ⟨b, bs ++ rest, rfl, hb⟩

theorem begins_writeElements {v : Json} (hv : Natural v) (vs : List Json) :
    Begins (writeElements esc (v :: vs)) := by
  rcases vs with _ | ⟨w, vs⟩
  · exact begins_write hv
  · exact (begins_write hv).append _

theorem begins_writeMembers (m : List UInt8 × Json) (ms : List (List UInt8 × Json)) :
    Begins (writeMembers esc (m :: ms)) := by
  rcases ms with _ | ⟨m', ms⟩
  · exact (begins_quote m.1).append _
  · rw [writeMembers, List.append_assoc]
    exact (begins_quote m.1).append _

theorem Begins.length_pos {text : List UInt8} (h : Begins text) : 0 < text.length := by
  obtain ⟨b, bs, rfl, -⟩ := h
  exact Nat.succ_pos _

/-- A sequence that does not end at once. -/
theorem readSeq?_of_begins {α : Type} {text : List UInt8} (h : Begins text) {close : UInt8}
    (hclose : close = 0x5D ∨ close = 0x7D) (one : List UInt8 → Option (α × List UInt8)) (fuel : ℕ) :
    readSeq? one close fuel text = readSeq one close fuel text := by
  obtain ⟨b, bs, rfl, hb, hbracket, hbrace⟩ := h
  have hne : b ≠ close := by
    rcases hclose with rfl | rfl
    · exact hbracket
    · exact hbrace
  rw [readSeq?, next_cons hb, Option.bind_some, if_neg hne]

theorem ends_cons {b : UInt8} (hb : b = 0x2C ∨ b = 0x5D ∨ b = 0x7D) (bs : List UInt8) :
    Ends (b :: bs) := by
  rintro b' hb'
  rwa [← Option.some.inj hb']

/-- The last thing of a sequence. -/
theorem readSeq_last {α : Type} {one : List UInt8 → Option (α × List UInt8)} {close : UInt8}
    (hclose : isSpace close = false) {text rest : List UInt8} {a : α}
    (hone : one (text ++ close :: rest) = some (a, close :: rest)) (fuel : ℕ) :
    readSeq one close (fuel + 1) (text ++ close :: rest) = some ([a], rest) := by
  rw [readSeq, hone, Option.bind_some, next_cons hclose, Option.bind_some, if_pos rfl]

/-- One that is not the last. -/
theorem readSeq_comma {α : Type} {one : List UInt8 → Option (α × List UInt8)} {close : UInt8}
    (hclose : close ≠ 0x2C) {text text' rest : List UInt8} {a : α} {as : List α} {fuel : ℕ}
    (hone : one (text ++ 0x2C :: text') = some (a, 0x2C :: text'))
    (hrest : readSeq one close fuel text' = some (as, rest)) :
    readSeq one close (fuel + 1) (text ++ 0x2C :: text') = some (a :: as, rest) := by
  rw [readSeq, hone, Option.bind_some, next_cons rfl, Option.bind_some, if_neg hclose.symm,
    if_pos rfl, hrest, Option.map_some]

theorem readMember_write (h : Escapes esc) {value : List UInt8 → Option (Json × List UInt8)}
    {text rest : List UInt8} {v : Json} (hv : value text = some (v, rest)) (k : List UInt8) :
    readMember value (quote esc k ++ 0x3A :: text) = some ((k, v), rest) := by
  rw [quote, List.cons_append, List.cons_append, List.append_assoc, List.singleton_append,
    readMember, next_cons rfl, Option.bind_some, if_pos rfl, readString_quote h, Option.bind_some,
    next_cons rfl, Option.bind_some, if_pos rfl, hv, Option.map_some]

theorem readNumber_begins {t rest : List UInt8} (h : Numeral t) (hrest : Ends rest) (fuel : ℕ) :
    readValue (fuel + 1) (t ++ rest) = some (.number t, rest) := by
  have hnumber := readNumber_of_numeral h hrest
  obtain ⟨hne, hdigits, -⟩ := h
  obtain ⟨b, t', rfl⟩ := List.exists_cons_of_ne_nil hne
  have hb : isDigit b = true := hdigits b List.mem_cons_self
  have hspace : isSpace b = false := by
    rw [Bool.eq_false_iff]
    intro hspace
    simp only [isSpace, isDigit, decide_eq_true_eq] at hspace hb
    rcases hspace with rfl | rfl | rfl | rfl <;> exact absurd hb (by decide)
  have hother : ∀ c : UInt8, isDigit c = false → b ≠ c := by
    rintro c hc rfl
    exact absurd (hb.symm.trans hc) (by simp)
  have hskip : skip (b :: t' ++ rest) = b :: t' ++ rest :=
    List.dropWhile_cons_of_neg (by simp [hspace])
  rw [readValue, List.cons_append, next_cons hspace, Option.bind_some, if_neg (hother 0x22 rfl),
    if_neg (hother 0x5B rfl), if_neg (hother 0x7B rfl), if_neg (hother 0x6E rfl),
    if_neg (hother 0x74 rfl), if_neg (hother 0x66 rfl), ← List.cons_append, hskip, hnumber,
    Option.map_some]

mutual
theorem readValue_write (h : Escapes esc) : ∀ v : Json, Natural v → ∀ {fuel : ℕ} {rest : List UInt8},
    (write esc v).length ≤ fuel → Ends rest →
      readValue fuel (write esc v ++ rest) = some (v, rest)
  | .null, _, fuel + 1, rest, _, _ => rfl
  | .bool true, _, fuel + 1, rest, _, _ => rfl
  | .bool false, _, fuel + 1, rest, _, _ => rfl
  | .number t, hv, fuel + 1, rest, _, hrest =>
    readNumber_begins (hv t (List.mem_singleton_self _)) hrest fuel
  | .string s, _, fuel + 1, rest, _, _ => by
    rw [write, quote, List.cons_append, List.cons_append, List.append_assoc,
      List.singleton_append, readValue, next_cons rfl, Option.bind_some, if_pos rfl,
      readString_quote h, Option.map_some]
  | .array [], _, fuel + 1, rest, _, _ => rfl
  | .array (v :: vs), hv, fuel + 1, rest, hfuel, _ => by
    have hlen : (writeElements esc (v :: vs)).length ≤ fuel := by
      rw [write, List.length_append, List.length_cons, List.length_singleton] at hfuel
      omega
    have hquote : ¬(0x5B : UInt8) = 0x22 := by decide
    have hbegins : Begins (writeElements esc (v :: vs)) :=
      begins_writeElements (fun t ht => hv t (List.mem_append_left _ ht)) vs
    rw [write, List.cons_append, List.cons_append, List.append_assoc, List.singleton_append,
      readValue, next_cons rfl, Option.bind_some, if_neg hquote, if_pos rfl,
      readSeq?_of_begins (hbegins.append _) (Or.inl rfl),
      readSeq_elements h (v :: vs) (by simp) hv hlen hlen, Option.map_some]
  | .object [], _, fuel + 1, rest, _, _ => rfl
  | .object ((k, v) :: ms), hv, fuel + 1, rest, hfuel, _ => by
    have hlen : (writeMembers esc ((k, v) :: ms)).length ≤ fuel := by
      rw [write, List.length_append, List.length_cons, List.length_singleton] at hfuel
      omega
    have hquote : ¬(0x7B : UInt8) = 0x22 := by decide
    have hbracket : ¬(0x7B : UInt8) = 0x5B := by decide
    rw [write, List.cons_append, List.cons_append, List.append_assoc, List.singleton_append,
      readValue, next_cons rfl, Option.bind_some, if_neg hquote, if_neg hbracket,
      if_pos rfl, readSeq?_of_begins ((begins_writeMembers (k, v) ms).append _) (Or.inr rfl),
      readSeq_members h ((k, v) :: ms) (by simp) hv hlen hlen, Option.map_some]
  | v, hv, 0, rest, hfuel, _ => absurd (@begins_write esc v hv).length_pos (by omega)
theorem readSeq_elements (h : Escapes esc) : ∀ vs : List Json, vs ≠ [] →
    (∀ t, .numeral t ∈ leavesElements vs → Numeral t) → ∀ {fuel fuel' : ℕ} {rest : List UInt8},
    (writeElements esc vs).length ≤ fuel → (writeElements esc vs).length ≤ fuel' →
      readSeq (readValue fuel) 0x5D fuel' (writeElements esc vs ++ 0x5D :: rest) = some (vs, rest)
  | [], hne, _, _, _, _, _, _ => absurd rfl hne
  | [v], _, hvs, fuel, fuel' + 1, rest, hfuel, _ => by
    have hv : Natural v := fun t ht => hvs t (List.mem_append_left _ ht)
    exact readSeq_last rfl (readValue_write h v hv hfuel (ends_cons (by decide) rest)) fuel'
  | v :: w :: vs, _, hvs, fuel, fuel' + 1, rest, hfuel, hfuel' => by
    have hv : Natural v := fun t ht => hvs t (List.mem_append_left _ ht)
    rw [writeElements, List.length_append, List.length_cons] at hfuel hfuel'
    rw [writeElements, List.append_assoc, List.cons_append]
    refine readSeq_comma (by decide) (readValue_write h v hv (by omega) (ends_cons (by decide) _)) ?_
    exact readSeq_elements h (w :: vs) (by simp) (fun t ht => hvs t (List.mem_append_right _ ht))
      (by omega) (by omega)
  | v :: vs, _, hvs, fuel, 0, rest, _, hfuel' =>
    absurd (@begins_writeElements esc v (fun t ht => hvs t (List.mem_append_left _ ht)) vs).length_pos
      (by omega)
theorem readSeq_members (h : Escapes esc) : ∀ ms : List (List UInt8 × Json), ms ≠ [] →
    (∀ t, .numeral t ∈ leavesMembers ms → Numeral t) → ∀ {fuel fuel' : ℕ} {rest : List UInt8},
    (writeMembers esc ms).length ≤ fuel → (writeMembers esc ms).length ≤ fuel' →
      readSeq (readMember (readValue fuel)) 0x7D fuel' (writeMembers esc ms ++ 0x7D :: rest) =
        some (ms, rest)
  | [], hne, _, _, _, _, _, _ => absurd rfl hne
  | [(k, v)], _, hvs, fuel, fuel' + 1, rest, hfuel, _ => by
    have hv : Natural v := fun t ht =>
      hvs t (List.mem_append_left _ (List.mem_cons_of_mem _ ht))
    refine readSeq_last rfl ?_ fuel'
    rw [writeMembers, List.length_append, List.length_cons] at hfuel
    rw [writeMembers, List.append_assoc, List.cons_append]
    exact readMember_write h (readValue_write h v hv (by omega) (ends_cons (by decide) rest)) k
  | (k, v) :: m :: ms, _, hvs, fuel, fuel' + 1, rest, hfuel, hfuel' => by
    have hv : Natural v := fun t ht =>
      hvs t (List.mem_append_left _ (List.mem_cons_of_mem _ ht))
    have hlen : (writeMembers esc ((k, v) :: m :: ms)).length = (quote esc k).length +
        (write esc v).length + (writeMembers esc (m :: ms)).length + 2 := by
      simp only [writeMembers, List.length_append, List.length_cons]
      omega
    have htext : writeMembers esc ((k, v) :: m :: ms) ++ 0x7D :: rest =
        (quote esc k ++ 0x3A :: write esc v) ++ 0x2C :: (writeMembers esc (m :: ms) ++ 0x7D :: rest) := by
      simp only [writeMembers, List.append_assoc, List.cons_append]
    rw [hlen] at hfuel hfuel'
    rw [htext]
    refine readSeq_comma (by decide) ?_ (readSeq_members h (m :: ms) (by simp)
      (fun t ht => hvs t (List.mem_append_right _ ht)) (by omega) (by omega))
    rw [List.append_assoc, List.cons_append]
    exact readMember_write h (readValue_write h v hv (by omega) (ends_cons (by decide) _)) k
  | m :: ms, _, hvs, fuel, 0, rest, _, hfuel' =>
    absurd (@begins_writeMembers esc m ms).length_pos (by omega)
end

theorem run_flatMap (h : Escapes esc) (s : List UInt8) :
    ∀ p : Place, p.run (s.flatMap esc) = p.run s := by
  induction s with
  | nil => exact fun p => rfl
  | cons b s ih =>
    intro p
    rw [List.flatMap_cons, Place.run_append, h.run, Place.run]
    exact congrArg _ (funext ih)

theorem utf8_quote (h : Escapes esc) (s bs : List UInt8) :
    Utf8 (quote esc s ++ bs) ↔ Utf8 s ∧ Utf8 bs := by
  have hopen : Utf8 ([0x22] ++ (s.flatMap esc ++ [0x22] ++ bs)) ↔
      Utf8 (s.flatMap esc ++ [0x22] ++ bs) :=
    utf8_ascii_append (by simp) _
  rw [quote, List.cons_append, List.cons_append]
  refine hopen.trans ((utf8_append_ascii (by simp) (by simp) _ _).trans (and_congr_left fun _ => ?_))
  rw [Utf8, run_flatMap h, Utf8]

/-- All texts among some leaves are UTF-8. -/
def Utf8Texts (ls : List Leaf) : Prop := ∀ s, .text s ∈ ls → Utf8 s

theorem utf8Texts_append (ls ls' : List Leaf) :
    Utf8Texts (ls ++ ls') ↔ Utf8Texts ls ∧ Utf8Texts ls' := by
  simp only [Utf8Texts, List.mem_append, or_imp, forall_and]

theorem utf8Texts_cons (s : List UInt8) (ls : List Leaf) :
    Utf8Texts (.text s :: ls) ↔ Utf8 s ∧ Utf8Texts ls := by
  simp only [Utf8Texts, List.mem_cons, Leaf.text.injEq, or_imp, forall_and, forall_eq]

theorem utf8Texts_array {vs : List Json} :
    Utf8Texts (leaves (.array vs)) ↔ ∀ v ∈ vs, Utf8Texts (leaves v) := by
  simp only [Utf8Texts, leaves, mem_leavesElements]
  exact ⟨fun h v hv s hs => h s ⟨v, hv, hs⟩, fun h s ⟨v, hv, hs⟩ => h v hv s hs⟩

theorem utf8Texts_object {ms : List (List UInt8 × Json)} :
    Utf8Texts (leaves (.object ms)) ↔ ∀ m ∈ ms, Utf8 m.1 ∧ Utf8Texts (leaves m.2) := by
  simp only [Utf8Texts, leaves, mem_leavesMembers, Leaf.text.injEq]
  constructor
  · exact fun h m hm => ⟨h m.1 ⟨m, hm, Or.inl rfl⟩, fun s hs => h s ⟨m, hm, Or.inr hs⟩⟩
  · rintro h s ⟨m, hm, rfl | hs⟩
    · exact (h m hm).1
    · exact (h m hm).2 s hs

theorem utf8Texts_string {s : List UInt8} : Utf8Texts (leaves (.string s)) ↔ Utf8 s := by
  simp [Utf8Texts, leaves]

mutual
/-- **A value that is written is UTF-8 exactly when its texts are.** -/
theorem utf8_write (h : Escapes esc) : ∀ v : Json, Natural v → ∀ bs : List UInt8,
    Utf8 (write esc v ++ bs) ↔ Utf8Texts (leaves v) ∧ Utf8 bs
  | .null, _, bs => by
    rw [write, leaves]
    exact (utf8_ascii_append (by simp) bs).trans (by simp [Utf8Texts])
  | .bool true, _, bs => by
    rw [write, leaves]
    exact (utf8_ascii_append (by simp) bs).trans (by simp [Utf8Texts])
  | .bool false, _, bs => by
    rw [write, leaves]
    exact (utf8_ascii_append (by simp) bs).trans (by simp [Utf8Texts])
  | .number t, hv, bs => by
    have hdigits : ∀ b ∈ t, b.toNat < 0x80 := by
      intro b hb
      have hdigit := (hv t (List.mem_singleton_self _)).2.1 b hb
      rw [isDigit, decide_eq_true_eq, UInt8.le_iff_toNat_le, UInt8.le_iff_toNat_le] at hdigit
      exact hdigit.2.trans_lt (by decide)
    rw [write, leaves]
    exact (utf8_ascii_append hdigits bs).trans (by simp [Utf8Texts])
  | .string s, _, bs => by
    rw [write, leaves, utf8_quote h]
    simp [Utf8Texts]
  | .array vs, hv, bs => by
    rw [write, leaves, List.cons_append, List.cons_append, utf8_cons (by decide), List.append_assoc,
      utf8_elements h vs hv, List.singleton_append, utf8_cons (by decide)]
  | .object ms, hv, bs => by
    rw [write, leaves, List.cons_append, List.cons_append, utf8_cons (by decide), List.append_assoc,
      utf8_members h ms hv, List.singleton_append, utf8_cons (by decide)]
theorem utf8_elements (h : Escapes esc) : ∀ vs : List Json,
    (∀ t, .numeral t ∈ leavesElements vs → Numeral t) → ∀ bs : List UInt8,
    Utf8 (writeElements esc vs ++ bs) ↔ Utf8Texts (leavesElements vs) ∧ Utf8 bs
  | [], _, bs => by simp [writeElements, leavesElements, Utf8Texts]
  | [v], hvs, bs => by
    have hv : Natural v := fun t ht => hvs t (List.mem_append_left _ ht)
    rw [writeElements, utf8_write h v hv, leavesElements, leavesElements, List.append_nil]
  | v :: w :: vs, hvs, bs => by
    have hv : Natural v := fun t ht => hvs t (List.mem_append_left _ ht)
    rw [writeElements, List.append_assoc, List.cons_append, utf8_write h v hv, utf8_cons (by decide),
      utf8_elements h (w :: vs) fun t ht => hvs t (List.mem_append_right _ ht), ← and_assoc]
    exact and_congr_left fun _ => (utf8Texts_append _ _).symm
theorem utf8_members (h : Escapes esc) : ∀ ms : List (List UInt8 × Json),
    (∀ t, .numeral t ∈ leavesMembers ms → Numeral t) → ∀ bs : List UInt8,
    Utf8 (writeMembers esc ms ++ bs) ↔ Utf8Texts (leavesMembers ms) ∧ Utf8 bs
  | [], _, bs => by simp [writeMembers, leavesMembers, Utf8Texts]
  | [(k, v)], hvs, bs => by
    have hv : Natural v := fun t ht =>
      hvs t (List.mem_append_left _ (List.mem_cons_of_mem _ ht))
    rw [writeMembers, List.append_assoc, List.cons_append, utf8_quote h, utf8_cons (by decide),
      utf8_write h v hv, leavesMembers, leavesMembers, List.append_nil, utf8Texts_cons, and_assoc]
  | (k, v) :: m :: ms, hvs, bs => by
    have hv : Natural v := fun t ht =>
      hvs t (List.mem_append_left _ (List.mem_cons_of_mem _ ht))
    have htext : writeMembers esc ((k, v) :: m :: ms) ++ bs =
        quote esc k ++ 0x3A :: (write esc v ++ 0x2C :: (writeMembers esc (m :: ms) ++ bs)) := by
      simp only [writeMembers, List.append_assoc, List.cons_append]
    rw [htext, utf8_quote h, utf8_cons (by decide), utf8_write h v hv, utf8_cons (by decide),
      utf8_members h (m :: ms) fun t ht => hvs t (List.mem_append_right _ ht), ← and_assoc,
      ← and_assoc]
    refine and_congr_left fun _ => Iff.trans ?_ (utf8Texts_append (.text k :: leaves v) _).symm
    rw [utf8Texts_cons]
end

/-- **Reading gives back what was written**, exactly when that is UTF-8. -/
theorem decode_write (h : Escapes esc) {v : Json} (hv : Natural v) :
    decode (write esc v) = some v ↔ Utf8Texts (leaves v) := by
  have hutf8 := utf8_write h v hv []
  have hread := @readValue_write esc h v hv (write esc v).length [] le_rfl (by simp [Ends])
  rw [List.append_nil] at hutf8 hread
  rw [decode_eq_some, hutf8, and_iff_left utf8_nil]
  exact and_iff_left ⟨_, [], hread, rfl⟩

/-- What is not UTF-8 is no JSON. -/
theorem decode_write_eq_none (h : Escapes esc) {v : Json} (hv : Natural v)
    (hnot : ¬Utf8Texts (leaves v)) : decode (write esc v) = none := by
  have hutf8 := utf8_write h v hv []
  rw [List.append_nil, and_iff_left utf8_nil] at hutf8
  rw [decode, if_neg (mt hutf8.mp hnot)]

end Write

/-! ### Text that is pasted -/

section Pasted

variable {esc : UInt8 → List UInt8}

/-- What comes behind a thing that is not the last. -/
theorem readSeq_comma_inv {α : Type} {one : List UInt8 → Option (α × List UInt8)} {close : UInt8}
    (hclose : close ≠ 0x2C) {text text' rest : List UInt8} {a : α} {as : List α} {fuel : ℕ}
    (hone : one (text ++ 0x2C :: text') = some (a, 0x2C :: text'))
    (h : readSeq one close fuel (text ++ 0x2C :: text') = some (as, rest)) :
    ∃ fuel' as', as = a :: as' ∧ readSeq one close fuel' text' = some (as', rest) := by
  rcases fuel with _ | fuel
  · exact absurd h (by simp [readSeq])
  · rw [readSeq, hone, Option.bind_some, next_cons rfl, Option.bind_some, if_neg hclose.symm,
      if_pos rfl] at h
    obtain ⟨⟨as', rest'⟩, hrest, heq⟩ := Option.map_eq_some_iff.mp h
    obtain ⟨rfl, rfl⟩ := Prod.mk.inj heq
    exact ⟨fuel, as', rfl, hrest⟩

/-- **Members that are written are read as themselves**, whatever comes behind them. -/
theorem readSeq_members_inv (h : Escapes esc) : ∀ {ms : List (List UInt8 × Json)}, ms ≠ [] →
    (∀ t, .numeral t ∈ leavesMembers ms → Numeral t) → ∀ {fuel fuel' : ℕ} {text rest : List UInt8}
    {ms' : List (List UInt8 × Json)}, (writeMembers esc ms).length ≤ fuel →
      readSeq (readMember (readValue fuel)) 0x7D fuel' (writeMembers esc ms ++ 0x2C :: text) =
        some (ms', rest) →
      ∃ fuel'' ms'', ms' = ms ++ ms'' ∧
        readSeq (readMember (readValue fuel)) 0x7D fuel'' text = some (ms'', rest)
  | [], hne, _, _, _, _, _, _, _, _ => absurd rfl hne
  | [(k, v)], _, hms, fuel, fuel', text, rest, ms', hfuel, hread => by
    have hv : Natural v := fun t ht =>
      hms t (List.mem_append_left _ (List.mem_cons_of_mem _ ht))
    rw [writeMembers, List.length_append, List.length_cons] at hfuel
    refine readSeq_comma_inv (by decide) ?_ hread
    rw [writeMembers, List.append_assoc, List.cons_append]
    exact readMember_write h (readValue_write h v hv (by omega) (ends_cons (by decide) _)) k
  | (k, v) :: m :: ms, _, hms, fuel, fuel', text, rest, ms', hfuel, hread => by
    have hv : Natural v := fun t ht =>
      hms t (List.mem_append_left _ (List.mem_cons_of_mem _ ht))
    -- the first member ends with its comma, and the others are read behind it
    have htext : writeMembers esc ((k, v) :: m :: ms) ++ 0x2C :: text =
        (quote esc k ++ 0x3A :: write esc v) ++ 0x2C :: (writeMembers esc (m :: ms) ++ 0x2C :: text) := by
      simp only [writeMembers, List.append_assoc, List.cons_append]
    have hlen : (writeMembers esc ((k, v) :: m :: ms)).length = (quote esc k).length +
        (write esc v).length + (writeMembers esc (m :: ms)).length + 2 := by
      simp only [writeMembers, List.length_append, List.length_cons]
      omega
    rw [hlen] at hfuel
    rw [htext] at hread
    have hone : readMember (readValue fuel) ((quote esc k ++ 0x3A :: write esc v) ++
        0x2C :: (writeMembers esc (m :: ms) ++ 0x2C :: text)) =
          some ((k, v), 0x2C :: (writeMembers esc (m :: ms) ++ 0x2C :: text)) := by
      rw [List.append_assoc, List.cons_append]
      exact readMember_write h (readValue_write h v hv (by omega) (ends_cons (by decide) _)) k
    have hfuel' : (writeMembers esc (m :: ms)).length ≤ fuel := by omega
    obtain ⟨fuel₁, ms₁, rfl, hread₁⟩ := readSeq_comma_inv (by decide) hone hread
    obtain ⟨fuel₂, ms₂, rfl, hread₂⟩ := readSeq_members_inv h (by simp)
      (fun t ht => hms t (List.mem_append_right _ ht)) hfuel' hread₁
    exact ⟨fuel₂, ms₂, rfl, hread₂⟩

/-- An object whose last member is a string that is pasted between its quotes. -/
def pasted (esc : UInt8 → List UInt8) (ms : List (List UInt8 × Json)) (k s : List UInt8) :
    List UInt8 :=
  0x7B :: (writeMembers esc ms ++ 0x2C :: (quote esc k ++ 0x3A :: 0x22 :: (s ++ [0x22, 0x7D])))

theorem write_append_string (hplain : ∀ b, Plain b → esc b = [b]) (k : List UInt8) {s : List UInt8}
    (hs : Clean s) : ∀ {ms : List (List UInt8 × Json)}, ms ≠ [] →
      writeMembers esc (ms ++ [(k, .string s)]) =
        writeMembers esc ms ++ 0x2C :: (quote esc k ++ 0x3A :: 0x22 :: (s ++ [0x22]))
  | [], hne => absurd rfl hne
  | [(k', v)], _ => by
    have hflat : s.flatMap esc = s := by
      rw [List.flatMap_congr fun b hb => hplain b (hs b hb)]
      exact List.flatMap_singleton' s
    rw [List.singleton_append, writeMembers, writeMembers, writeMembers, write]
    simp only [quote, hflat, List.append_assoc, List.cons_append]
  | (k', v) :: m :: ms, _ => by
    have ih := @write_append_string hplain k s hs (m :: ms) (by simp)
    rw [List.cons_append] at ih
    simp only [List.cons_append, writeMembers, ih, List.append_assoc]

/-- The string that is read of the last member. -/
theorem readString_of_readSeq (h : Escapes esc) {fuel fuel' : ℕ} {k s rest : List UInt8}
    (hread : readSeq (readMember (readValue fuel)) 0x7D fuel'
      (quote esc k ++ 0x3A :: 0x22 :: (s ++ [0x22, 0x7D])) = some ([(k, .string s)], rest)) :
    ∃ rest', readString (s ++ [0x22, 0x7D]) = some (s, rest') := by
  rcases fuel' with _ | fuel'
  · exact absurd hread (by simp [readSeq])
  · obtain ⟨⟨m, mid⟩, hone, hread⟩ := Option.bind_eq_some_iff.mp hread
    have hm : m = (k, .string s) := by
      obtain ⟨⟨b, mid'⟩, -, hread⟩ := Option.bind_eq_some_iff.mp hread
      dsimp only at hread
      split_ifs at hread
      · exact (List.cons.inj (Prod.mk.inj (Option.some.inj hread)).1).1
      · obtain ⟨⟨ms, rest'⟩, -, heq⟩ := Option.map_eq_some_iff.mp hread
        exact (List.cons.inj (Prod.mk.inj heq).1).1
    rw [hm] at hone
    rw [readMember, quote, List.cons_append, List.cons_append, List.append_assoc,
      List.singleton_append, next_cons rfl, Option.bind_some, if_pos rfl, readString_quote h,
      Option.bind_some, next_cons rfl, Option.bind_some, if_pos rfl] at hone
    obtain ⟨⟨v, rest'⟩, hvalue, heq⟩ := Option.map_eq_some_iff.mp hone
    obtain ⟨hv, -⟩ := Prod.mk.inj heq
    obtain rfl : v = .string s := (Prod.mk.inj hv).2
    rcases fuel with _ | fuel
    · exact absurd hvalue (by simp [readValue])
    · rw [readValue, next_cons rfl, Option.bind_some, if_pos rfl] at hvalue
      obtain ⟨⟨s', rest''⟩, hstring, heq'⟩ := Option.map_eq_some_iff.mp hvalue
      obtain ⟨hs, -⟩ := Prod.mk.inj heq'
      obtain rfl : s' = s := Json.string.inj hs
      exact ⟨rest'', hstring⟩

theorem leavesMembers_append (ms' : List (List UInt8 × Json)) :
    ∀ ms : List (List UInt8 × Json), leavesMembers (ms ++ ms') = leavesMembers ms ++ leavesMembers ms'
  | [] => rfl
  | (k, v) :: ms => by
    rw [List.cons_append, leavesMembers, leavesMembers, leavesMembers_append ms' ms,
      List.cons_append, List.cons_append, List.cons_append, List.append_assoc]

/-- **A string that is pasted is read as itself exactly if it needs no escape.** -/
theorem decode_pasted (h : Escapes esc) (hplain : ∀ b, Plain b → esc b = [b])
    {ms : List (List UInt8 × Json)} (hne : ms ≠ [])
    (hms : ∀ t, .numeral t ∈ leavesMembers ms → Numeral t) (k s : List UInt8) :
    decode (pasted esc ms k s) = some (.object (ms ++ [(k, .string s)])) ↔
      Utf8Texts (leavesMembers ms) ∧ Utf8 k ∧ Utf8 s ∧ Clean s := by
  have hutf8 : Utf8 (pasted esc ms k s) ↔ Utf8Texts (leavesMembers ms) ∧ Utf8 k ∧ Utf8 s := by
    have hs := @utf8_append_ascii [0x22, 0x7D] (by simp) (by simp) s []
    rw [List.append_nil, and_iff_left utf8_nil] at hs
    rw [pasted, utf8_cons (by decide), utf8_members h ms hms, utf8_cons (by decide), utf8_quote h,
      utf8_cons (by decide), utf8_cons (by decide), hs]
  constructor
  · intro hdecode
    obtain ⟨hall, -⟩ := decode_eq_some.mp hdecode
    obtain ⟨hleaves, hk, hs⟩ := hutf8.mp hall
    refine ⟨hleaves, hk, hs, ?_⟩
    rw [decode, if_pos hall] at hdecode
    split at hdecode
    · exact absurd hdecode (by simp)
    · next v rest hread =>
      split_ifs at hdecode
      obtain rfl := Option.some.inj hdecode
      have hlen : (writeMembers esc ms).length ≤ (pasted esc ms k s).length := by
        simp only [pasted, List.length_cons, List.length_append]
        omega
      generalize (pasted esc ms k s).length = n at hread hlen
      have hquote : ¬(0x7B : UInt8) = 0x22 := by decide
      have hbracket : ¬(0x7B : UInt8) = 0x5B := by decide
      obtain ⟨m, ms', rfl⟩ := List.exists_cons_of_ne_nil hne
      rw [pasted, readValue, next_cons rfl, Option.bind_some, if_neg hquote, if_neg hbracket,
        if_pos rfl, readSeq?_of_begins ((begins_writeMembers m ms').append _) (Or.inr rfl)] at hread
      obtain ⟨⟨all, rest'⟩, hseq, heq⟩ := Option.map_eq_some_iff.mp hread
      obtain ⟨hv, -⟩ := Prod.mk.inj heq
      obtain rfl : all = m :: ms' ++ [(k, .string s)] := Json.object.inj hv
      -- the members before are read back, so what is pasted is the last one
      obtain ⟨fuel, last, hlast, hread'⟩ := readSeq_members_inv h hne hms hlen hseq
      rw [← List.append_cancel_left hlast] at hread'
      obtain ⟨rest'', hstring⟩ := readString_of_readSeq h hread'
      exact clean_of_readString (by decide) hstring
  · rintro ⟨hleaves, hk, hs, hclean⟩
    -- a string without escapes is pasted as it is written
    have htext : pasted esc ms k s = write esc (.object (ms ++ [(k, .string s)])) := by
      rw [pasted, write, write_append_string hplain k hclean hne]
      simp only [List.cons_append, List.append_assoc, List.nil_append]
    have hleavesAll : leaves (.object (ms ++ [(k, .string s)])) =
        leavesMembers ms ++ [.text k, .text s] :=
      leavesMembers_append _ ms
    rw [htext, decode_write h, hleavesAll, utf8Texts_append, utf8Texts_cons, utf8Texts_cons]
    · exact ⟨hleaves, hk, hs, fun t ht => absurd ht List.not_mem_nil⟩
    · intro t ht
      rw [hleavesAll] at ht
      rcases List.mem_append.mp ht with ht | ht
      · exact hms t ht
      · exact absurd ht (by simp)

end Pasted

end Json
