import Mathlib.Data.List.Basic

/-!
# The words of a query

How the text of an AQL query is read into tokens, byte by byte (`Aql.scan`): words, bind
parameters, marks of one byte, and strings and names in quotes. Blanks and comments come between
tokens and are dropped. A comment in bars and stars or a string that is still open at the end makes the text
no query (`Aql.tokens`).

A reader has a mode, and that is all it keeps, so a text that is pasted together is read piece
by piece (`Aql.scan_append`). What is behind a pasted piece is read as it is meant to be where
the piece leaves the reader in the open; behind a line comment it is not read at all, and
behind an open string or comment the text is no query (`Aql.tokens_pasted`).
-/

namespace Aql

/-! ### Tokens and modes -/

/-- The quotes: two for strings, two for names. -/
inductive Quote where
  | single
  | double
  | back
  /-- The forward tick, which has two bytes. -/
  | tick
deriving DecidableEq

/-- A token. -/
inductive Token where
  | word (w : List UInt8)
  /-- A bind parameter, by what is behind the `@`. -/
  | param (w : List UInt8)
  | mark (b : UInt8)
  | quoted (q : Quote) (body : List UInt8)
deriving DecidableEq

/-- Where a reader is. -/
inductive Mode where
  | plain
  | word (w : List UInt8)
  | param (w : List UInt8)
  /-- Behind a slash, which may open a comment. -/
  | slash
  /-- Behind the first byte of a forward tick. -/
  | lead
  | line
  | block (star : Bool)
  | quoted (q : Quote) (body : List UInt8)
  | escape (q : Quote) (body : List UInt8)
  /-- Behind the first byte of the forward tick that may close a name. -/
  | closing (body : List UInt8)
deriving DecidableEq

/-- A byte of a word: a letter, a digit or an underscore. -/
def isWord (b : UInt8) : Bool :=
  (0x30 ≤ b.toNat && b.toNat ≤ 0x39) || (0x41 ≤ b.toNat && b.toNat ≤ 0x5A) ||
    (0x61 ≤ b.toNat && b.toNat ≤ 0x7A) || b.toNat = 0x5F

/-- A blank. -/
def isBlank (b : UInt8) : Bool := b = 0x20 || (0x09 ≤ b.toNat && b.toNat ≤ 0x0D)

/-- The quotes of one byte. -/
def quoteOf (b : UInt8) : Option Quote :=
  if b = 0x27 then some .single else if b = 0x22 then some .double
  else if b = 0x60 then some .back else none

/-- A byte in the open. A dollar sign can only be the first byte of a word. -/
def first (b : UInt8) : List Token × Mode :=
  if isWord b || b = 0x24 then ([], .word [b])
  else if b = 0x40 then ([], .param [])
  else if b = 0x2F then ([], .slash)
  else if b = 0xC2 then ([], .lead)
  else if isBlank b then ([], .plain)
  else match quoteOf b with
    | some q => ([], .quoted q [])
    | none => ([.mark b], .plain)

/-- A byte in the open, behind a token that it ends. -/
def firstAfter (t : Token) (b : UInt8) : List Token × Mode := (t :: (first b).1, (first b).2)

/-- One byte: the tokens it completes, and the mode behind it. -/
def step : Mode → UInt8 → List Token × Mode
  | .plain, b => first b
  | .word w, b => if isWord b then ([], .word (w ++ [b])) else firstAfter (.word w) b
  | .param w, b => if isWord b then ([], .param (w ++ [b])) else firstAfter (.param w) b
  | .slash, b =>
    if b = 0x2F then ([], .line) else if b = 0x2A then ([], .block false)
    else firstAfter (.mark 0x2F) b
  | .lead, b => if b = 0xB4 then ([], .quoted .tick []) else firstAfter (.mark 0xC2) b
  | .line, b => ([], if b = 0x0A then .plain else .line)
  | .block star, b => ([], if star && b = 0x2F then .plain else .block (b = 0x2A))
  | .quoted q body, b =>
    if b = 0x5C then ([], .escape q body)
    else if q = .tick && b = 0xC2 then ([], .closing body)
    else if quoteOf b = some q then ([.quoted q body], .plain)
    else ([], .quoted q (body ++ [b]))
  | .escape q body, b => ([], .quoted q (body ++ [0x5C, b]))
  | .closing body, b =>
    if b = 0xB4 then ([.quoted .tick body], .plain)
    else if b = 0xC2 then ([], .closing (body ++ [0xC2]))
    else if b = 0x5C then ([], .escape .tick (body ++ [0xC2]))
    else ([], .quoted .tick (body ++ [0xC2, b]))

/-- A text, from a mode: the tokens it completes, and the mode behind it. -/
def scan : Mode → List UInt8 → List Token × Mode
  | m, [] => ([], m)
  | m, b :: bs => ((step m b).1 ++ (scan (step m b).2 bs).1, (scan (step m b).2 bs).2)

/-- What is left at the end of a text. -/
def finish : Mode → Option (List Token)
  | .plain => some []
  | .word w => some [.word w]
  | .param w => some [.param w]
  | .slash => some [.mark 0x2F]
  | .lead => some [.mark 0xC2]
  | .line => some []
  | _ => none

/-- The rest of a text from a mode, to its end. -/
def tokensFrom (m : Mode) (s : List UInt8) : Option (List Token) :=
  (finish (scan m s).2).map ((scan m s).1 ++ ·)

/-- The tokens of a text. -/
def tokens (s : List UInt8) : Option (List Token) := tokensFrom .plain s

/-! ### Texts in pieces -/

/-- **A text in two pieces.** -/
theorem scan_append (a b : List UInt8) : ∀ m : Mode, scan m (a ++ b) =
    ((scan m a).1 ++ (scan (scan m a).2 b).1, (scan (scan m a).2 b).2) := by
  induction a with
  | nil => intro m; rfl
  | cons x a ih =>
    intro m
    rw [List.cons_append, scan, scan, ih]
    simp

theorem tokensFrom_append (m : Mode) (a b : List UInt8) :
    tokensFrom m (a ++ b) = (tokensFrom (scan m a).2 b).map ((scan m a).1 ++ ·) := by
  rw [tokensFrom, tokensFrom, scan_append, Option.map_map]
  refine congrArg (Option.map · _) ?_
  ext1 ts
  exact List.append_assoc ..

/-- A text that a reader can be done with: with a blank behind it, the reader is in the
open. -/
def Closed (s : List UInt8) : Prop := (scan .plain (s ++ [0x20])).2 = .plain

instance (s : List UInt8) : Decidable (Closed s) := inferInstanceAs (Decidable (_ = _))

/-- The tokens of such a text. -/
def closedTokens (s : List UInt8) : List Token := (scan .plain (s ++ [0x20])).1

theorem append_blank (a b : List UInt8) : a ++ 0x20 :: b = (a ++ [0x20]) ++ b := by simp

theorem tokens_closed {a : List UInt8} (h : Closed a) (b : List UInt8) :
    tokens (a ++ 0x20 :: b) = (tokens b).map (closedTokens a ++ ·) := by
  rw [append_blank, tokens, tokensFrom_append, h]
  rfl

theorem closedTokens_append {a : List UInt8} (h : Closed a) (b : List UInt8) :
    closedTokens (a ++ 0x20 :: b) = closedTokens a ++ closedTokens b := by
  have hsplit : a ++ 0x20 :: b ++ [0x20] = (a ++ [0x20]) ++ (b ++ [0x20]) := by simp
  rw [closedTokens, hsplit, scan_append, h]
  rfl

theorem Closed.append {a b : List UInt8} (ha : Closed a) (hb : Closed b) :
    Closed (a ++ 0x20 :: b) := by
  rw [Closed] at ha hb ⊢
  have hsplit : a ++ 0x20 :: b ++ [0x20] = (a ++ [0x20]) ++ (b ++ [0x20]) := by simp
  rw [hsplit, scan_append, ha]
  exact hb

/-! ### What is behind a pasted text -/

/-- A text that ends no comment and no string, and has no escape in it. -/
def Quiet (s : List UInt8) : Prop :=
  ∀ b ∈ s, b ≠ 0x0A ∧ b ≠ 0x2A ∧ b ≠ 0x5C ∧ b ≠ 0xC2 ∧ quoteOf b = none

instance (s : List UInt8) : Decidable (Quiet s) := inferInstanceAs (Decidable (∀ b ∈ s, _))

theorem scan_line {s : List UInt8} (h : Quiet s) : scan .line s = ([], .line) := by
  induction s with
  | nil => rfl
  | cons b s ih =>
    obtain ⟨hb, hs⟩ := List.forall_mem_cons.mp h
    rw [scan, step, if_neg hb.1, ih hs]
    rfl

theorem scan_block {s : List UInt8} (h : Quiet s) :
    scan (.block false) s = ([], .block false) := by
  induction s with
  | nil => rfl
  | cons b s ih =>
    obtain ⟨hb, hs⟩ := List.forall_mem_cons.mp h
    have hstep : step (.block false) b = ([], .block false) := by simp [step, hb.2.1]
    rw [scan, hstep, ih hs]
    rfl

theorem scan_quoted {s : List UInt8} (h : Quiet s) (q : Quote) :
    ∀ body, ∃ body', scan (.quoted q body) s = ([], .quoted q body') := by
  induction s with
  | nil => intro body; exact ⟨body, rfl⟩
  | cons b s ih =>
    intro body
    obtain ⟨hb, hs⟩ := List.forall_mem_cons.mp h
    obtain ⟨body', hrest⟩ := ih hs (body ++ [b])
    have hstep : step (.quoted q body) b = ([], .quoted q (body ++ [b])) := by
      simp [step, hb.2.2.1, hb.2.2.2.1, hb.2.2.2.2]
    exact ⟨body', by rw [scan, hstep, hrest]; rfl⟩

/-- Behind a blank, a reader is in the open, in a comment or in quotes. -/
theorem step_blank (m : Mode) : (step m 0x20).2 = .plain ∨ (step m 0x20).2 = .line ∨
    (step m 0x20).2 = .block false ∨ ∃ q body, (step m 0x20).2 = .quoted q body := by
  cases m with
  | line => exact Or.inr (Or.inl rfl)
  | block star => cases star <;> exact Or.inr (Or.inr (Or.inl rfl))
  | quoted q body => exact Or.inr (Or.inr (Or.inr ⟨q, body ++ [0x20], by cases q <;> rfl⟩))
  | escape q body => exact Or.inr (Or.inr (Or.inr ⟨q, _, rfl⟩))
  | closing body => exact Or.inr (Or.inr (Or.inr ⟨.tick, _, rfl⟩))
  | _ => exact Or.inl rfl

/-- **What is behind a pasted text**, where it is quiet and there is a blank between them. -/
theorem tokens_pasted (a : List UInt8) {s : List UInt8} (h : Quiet s) :
    tokens (a ++ 0x20 :: s) =
      match (scan .plain (a ++ [0x20])).2 with
      | .plain => (tokens s).map (closedTokens a ++ ·)
      | .line => some (closedTokens a)
      | _ => none := by
  rw [append_blank, tokens, tokensFrom_append]
  have hmode : (scan .plain (a ++ [0x20])).2 = (step (scan .plain a).2 0x20).2 := by
    rw [scan_append]
    rfl
  rcases step_blank (scan .plain a).2 with hm | hm | hm | ⟨q, body, hm⟩
  · rw [hmode, hm]
    rfl
  · rw [hmode, hm, tokensFrom, scan_line h]
    simp [finish, closedTokens]
  · rw [hmode, hm, tokensFrom, scan_block h]
    rfl
  · obtain ⟨body', hq⟩ := scan_quoted h q body
    rw [hmode, hm, tokensFrom, hq]
    rfl

/-! ### Attribute paths -/

/-- A text in ASCII. -/
def ascii (s : String) : List UInt8 := s.toUTF8.data.toList

/-- The keywords, which are no names. -/
def keywords : List (List UInt8) :=
  ["AGGREGATE", "ALL", "ALL_SHORTEST_PATHS", "AND", "ANY", "ASC", "COLLECT", "DESC", "DISTINCT",
    "FALSE", "FILTER", "FOR", "GRAPH", "IN", "INBOUND", "INSERT", "INTO", "K_PATHS",
    "K_SHORTEST_PATHS", "LET", "LIKE", "LIMIT", "NONE", "NOT", "NULL", "OR", "OUTBOUND", "REMOVE",
    "REPLACE", "RETURN", "SHORTEST_PATH", "SORT", "TRUE", "UPDATE", "UPSERT", "WINDOW",
    "WITH"].map ascii

/-- A letter in upper case. -/
def upper (b : UInt8) : UInt8 := if 0x61 ≤ b.toNat ∧ b.toNat ≤ 0x7A then b - 0x20 else b

/-- A letter. -/
def isLetter (b : UInt8) : Bool := 0x41 ≤ (upper b).toNat && (upper b).toNat ≤ 0x5A

/-- What a name starts with: a letter, behind one dollar sign or any number of underscores. -/
def startsName : List UInt8 → Bool
  | 0x24 :: w => w.head?.any isLetter
  | w => (w.dropWhile (· = 0x5F)).head?.any isLetter

/-- A name: a word that starts like one and is no keyword in any letter case, or anything between
the quotes for names. -/
def Token.isName : Token → Bool
  | .word w => startsName w && !keywords.contains (w.map upper)
  | .param _ => false
  | .mark _ => false
  | .quoted q body => (q = .back || q = .tick) && !body.isEmpty

/-- A bind parameter with a name, which has more than underscores. -/
def Token.isParam : Token → Bool
  | .param w => w.any (· ≠ 0x5F)
  | _ => false

/-- A string. -/
def Token.isString : Token → Bool
  | .quoted q _ => q = .single || q = .double
  | _ => false

/-- What comes next in an attribute path. -/
inductive Expect where
  | name
  | step
  | subscript
  | close
deriving DecidableEq

/-- The rest of an attribute path, in which bind parameters may stand for names or may not. -/
def isPathFrom (params : Bool) : Expect → List Token → Bool
  | e, [] => e = .step
  | .name, t :: ts => (t.isName || params && t.isParam) && isPathFrom params .step ts
  | .step, t :: ts =>
    if t = .mark 0x2E then isPathFrom params .name ts
    else t = .mark 0x5B && isPathFrom params .subscript ts
  | .subscript, t :: ts => (t.isString || params && t.isParam) && isPathFrom params .close ts
  | .close, t :: ts => t = .mark 0x5D && isPathFrom params .step ts

/-- An attribute path that is spelled out: a name, and behind it names with a dot in front of them
and strings in brackets. -/
def isPath (ts : List Token) : Bool := isPathFrom false .name ts

/-- An attribute path, in which bind parameters may stand for names and strings. -/
def isBoundPath (ts : List Token) : Bool := isPathFrom true .name ts

/-! ### Statements that write -/

/-- The words that change documents. -/
def writingWords : List (List UInt8) :=
  ["INSERT", "REMOVE", "REPLACE", "UPDATE", "UPSERT"].map ascii

/-- A word that changes documents, in any letter case. -/
def Token.isWriting : Token → Bool
  | .word w => writingWords.contains (w.map upper)
  | .param _ => false
  | .mark _ => false
  | .quoted _ _ => false

/-- A text is a query that has such a word. -/
def isWriting (s : List UInt8) : Bool := ((tokens s).getD []).any Token.isWriting

end Aql
