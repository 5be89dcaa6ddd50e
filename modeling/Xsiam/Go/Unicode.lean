import Xsiam.Go.Text

/-!
# Runes: decoding, lower-casing, white space

The functions of packages `unicode/utf8`, `unicode` and `strings` that look at a
string as a sequence of runes. A byte that starts no valid encoding is a rune of
its own, `RuneError`, one byte wide: that is how a `for range` loop reads a string
that is not UTF-8, and what `strings.ToLower` then writes back is the three-byte
encoding of U+FFFD. So lower-casing changes the length of a string in two ways: at
a byte that is not UTF-8, and at a character whose lower-case form has another
width (`İ` shrinks, `Ⱥ` grows).

The case table is the one of package `unicode`, reduced to the lower-case column:
a range of code points, every first or every second of which moves by one delta.

What the users of `ToLower` need from it is `Xsiam.Go.toLower_cons_ascii` (on ASCII
it is the arithmetic one) and `Xsiam.Go.toLower_cons_wide` (outside ASCII it writes
no letter but `i` and `k`, and no punctuation or space).
-/

namespace Xsiam

namespace Go

/-! ### UTF-8 -/

/-- `utf8.RuneError`. -/
def runeError : ℕ := 0xFFFD

/-- Whether a byte continues an encoding. -/
def isCont (b : UInt8) : Bool := 0x80 ≤ b.toNat ∧ b.toNat ≤ 0xBF

/-- The bounds package `utf8` puts on the second byte of an encoding. -/
def secondOk (b₀ b₁ : UInt8) : Bool :=
  if b₀.toNat = 0xE0 then 0xA0 ≤ b₁.toNat ∧ b₁.toNat ≤ 0xBF
  else if b₀.toNat = 0xED then 0x80 ≤ b₁.toNat ∧ b₁.toNat ≤ 0x9F
  else if b₀.toNat = 0xF0 then 0x90 ≤ b₁.toNat ∧ b₁.toNat ≤ 0xBF
  else if b₀.toNat = 0xF4 then 0x80 ≤ b₁.toNat ∧ b₁.toNat ≤ 0x8F
  else isCont b₁

/-- `utf8.DecodeRuneInString` on a non-empty string: the first rune, and the number
of bytes behind its first one. -/
def decodeRune (b₀ : UInt8) (bs : GoString) : ℕ × ℕ :=
  let n := b₀.toNat
  if n < 0x80 then (n, 0)
  else if n < 0xC2 then (runeError, 0)
  else if n < 0xE0 then
    match bs with
    | b₁ :: _ =>
      if isCont b₁ then ((n - 0xC0) * 0x40 + (b₁.toNat - 0x80), 1) else (runeError, 0)
    | _ => (runeError, 0)
  else if n < 0xF0 then
    match bs with
    | b₁ :: b₂ :: _ =>
      if secondOk b₀ b₁ && isCont b₂ then
        ((n - 0xE0) * 0x1000 + (b₁.toNat - 0x80) * 0x40 + (b₂.toNat - 0x80), 2)
      else (runeError, 0)
    | _ => (runeError, 0)
  else if n < 0xF5 then
    match bs with
    | b₁ :: b₂ :: b₃ :: _ =>
      if secondOk b₀ b₁ && isCont b₂ && isCont b₃ then
        ((n - 0xF0) * 0x40000 + (b₁.toNat - 0x80) * 0x1000 + (b₂.toNat - 0x80) * 0x40 +
          (b₃.toNat - 0x80), 3)
      else (runeError, 0)
    | _ => (runeError, 0)
  else (runeError, 0)

/-- `utf8.AppendRune`: a surrogate and a number past the last code point are written
as `RuneError`. -/
def encodeRune (r : ℕ) : GoString :=
  if r < 0x80 then [UInt8.ofNat r]
  else if r < 0x800 then [UInt8.ofNat (0xC0 + r / 0x40), UInt8.ofNat (0x80 + r % 0x40)]
  else if (0xD800 ≤ r ∧ r ≤ 0xDFFF) ∨ 0x10FFFF < r then [0xEF, 0xBF, 0xBD]
  else if r < 0x10000 then
    [UInt8.ofNat (0xE0 + r / 0x1000), UInt8.ofNat (0x80 + r / 0x40 % 0x40),
      UInt8.ofNat (0x80 + r % 0x40)]
  else
    [UInt8.ofNat (0xF0 + r / 0x40000), UInt8.ofNat (0x80 + r / 0x1000 % 0x40),
      UInt8.ofNat (0x80 + r / 0x40 % 0x40), UInt8.ofNat (0x80 + r % 0x40)]

/-! ### The case table -/

/-- A range of the case table: from `lo` to `hi` in steps of `stride`, each code
point moves by `delta`. -/
structure CaseRange where
  /-- The first code point. -/
  lo : ℕ
  /-- The last code point. -/
  hi : ℕ
  /-- `1`, or `2` where upper and lower case alternate. -/
  stride : ℕ
  /-- What is added to reach the lower-case form. -/
  delta : ℤ

/-- The lower-case column of `unicode.CaseRanges`, above ASCII. -/
def caseRanges : List CaseRange :=
  [⟨0x00C0, 0x00D6, 1, 32⟩, ⟨0x00D8, 0x00DE, 1, 32⟩, ⟨0x0100, 0x012E, 2, 1⟩,
   ⟨0x0130, 0x0130, 1, -199⟩, ⟨0x0132, 0x0136, 2, 1⟩, ⟨0x0139, 0x0147, 2, 1⟩,
   ⟨0x014A, 0x0176, 2, 1⟩, ⟨0x0178, 0x0178, 1, -121⟩, ⟨0x0179, 0x017D, 2, 1⟩,
   ⟨0x0181, 0x0181, 1, 210⟩, ⟨0x0182, 0x0184, 2, 1⟩, ⟨0x0186, 0x0186, 1, 206⟩,
   ⟨0x0187, 0x0187, 1, 1⟩, ⟨0x0189, 0x018A, 1, 205⟩, ⟨0x018B, 0x018B, 1, 1⟩,
   ⟨0x018E, 0x018E, 1, 79⟩, ⟨0x018F, 0x018F, 1, 202⟩, ⟨0x0190, 0x0190, 1, 203⟩,
   ⟨0x0191, 0x0191, 1, 1⟩, ⟨0x0193, 0x0193, 1, 205⟩, ⟨0x0194, 0x0194, 1, 207⟩,
   ⟨0x0196, 0x0196, 1, 211⟩, ⟨0x0197, 0x0197, 1, 209⟩, ⟨0x0198, 0x0198, 1, 1⟩,
   ⟨0x019C, 0x019C, 1, 211⟩, ⟨0x019D, 0x019D, 1, 213⟩, ⟨0x019F, 0x019F, 1, 214⟩,
   ⟨0x01A0, 0x01A4, 2, 1⟩, ⟨0x01A6, 0x01A6, 1, 218⟩, ⟨0x01A7, 0x01A7, 1, 1⟩,
   ⟨0x01A9, 0x01A9, 1, 218⟩, ⟨0x01AC, 0x01AC, 1, 1⟩, ⟨0x01AE, 0x01AE, 1, 218⟩,
   ⟨0x01AF, 0x01AF, 1, 1⟩, ⟨0x01B1, 0x01B2, 1, 217⟩, ⟨0x01B3, 0x01B5, 2, 1⟩,
   ⟨0x01B7, 0x01B7, 1, 219⟩, ⟨0x01B8, 0x01B8, 1, 1⟩, ⟨0x01BC, 0x01BC, 1, 1⟩,
   ⟨0x01C4, 0x01C4, 1, 2⟩, ⟨0x01C5, 0x01C5, 1, 1⟩, ⟨0x01C7, 0x01C7, 1, 2⟩, ⟨0x01C8, 0x01C8, 1, 1⟩,
   ⟨0x01CA, 0x01CA, 1, 2⟩, ⟨0x01CB, 0x01DB, 2, 1⟩, ⟨0x01DE, 0x01EE, 2, 1⟩, ⟨0x01F1, 0x01F1, 1, 2⟩,
   ⟨0x01F2, 0x01F4, 2, 1⟩, ⟨0x01F6, 0x01F6, 1, -97⟩, ⟨0x01F7, 0x01F7, 1, -56⟩,
   ⟨0x01F8, 0x021E, 2, 1⟩, ⟨0x0220, 0x0220, 1, -130⟩, ⟨0x0222, 0x0232, 2, 1⟩,
   ⟨0x023A, 0x023A, 1, 10795⟩, ⟨0x023B, 0x023B, 1, 1⟩, ⟨0x023D, 0x023D, 1, -163⟩,
   ⟨0x023E, 0x023E, 1, 10792⟩, ⟨0x0241, 0x0241, 1, 1⟩, ⟨0x0243, 0x0243, 1, -195⟩,
   ⟨0x0244, 0x0244, 1, 69⟩, ⟨0x0245, 0x0245, 1, 71⟩, ⟨0x0246, 0x024E, 2, 1⟩,
   ⟨0x0370, 0x0372, 2, 1⟩, ⟨0x0376, 0x0376, 1, 1⟩, ⟨0x037F, 0x037F, 1, 116⟩,
   ⟨0x0386, 0x0386, 1, 38⟩, ⟨0x0388, 0x038A, 1, 37⟩, ⟨0x038C, 0x038C, 1, 64⟩,
   ⟨0x038E, 0x038F, 1, 63⟩, ⟨0x0391, 0x03A1, 1, 32⟩, ⟨0x03A3, 0x03AB, 1, 32⟩,
   ⟨0x03CF, 0x03CF, 1, 8⟩, ⟨0x03D8, 0x03EE, 2, 1⟩, ⟨0x03F4, 0x03F4, 1, -60⟩,
   ⟨0x03F7, 0x03F7, 1, 1⟩, ⟨0x03F9, 0x03F9, 1, -7⟩, ⟨0x03FA, 0x03FA, 1, 1⟩,
   ⟨0x03FD, 0x03FF, 1, -130⟩, ⟨0x0400, 0x040F, 1, 80⟩, ⟨0x0410, 0x042F, 1, 32⟩,
   ⟨0x0460, 0x0480, 2, 1⟩, ⟨0x048A, 0x04BE, 2, 1⟩, ⟨0x04C0, 0x04C0, 1, 15⟩,
   ⟨0x04C1, 0x04CD, 2, 1⟩, ⟨0x04D0, 0x052E, 2, 1⟩, ⟨0x0531, 0x0556, 1, 48⟩,
   ⟨0x10A0, 0x10C5, 1, 7264⟩, ⟨0x10C7, 0x10C7, 1, 7264⟩, ⟨0x10CD, 0x10CD, 1, 7264⟩,
   ⟨0x13A0, 0x13EF, 1, 38864⟩, ⟨0x13F0, 0x13F5, 1, 8⟩, ⟨0x1C90, 0x1CBA, 1, -3008⟩,
   ⟨0x1CBD, 0x1CBF, 1, -3008⟩, ⟨0x1E00, 0x1E94, 2, 1⟩, ⟨0x1E9E, 0x1E9E, 1, -7615⟩,
   ⟨0x1EA0, 0x1EFE, 2, 1⟩, ⟨0x1F08, 0x1F0F, 1, -8⟩, ⟨0x1F18, 0x1F1D, 1, -8⟩,
   ⟨0x1F28, 0x1F2F, 1, -8⟩, ⟨0x1F38, 0x1F3F, 1, -8⟩, ⟨0x1F48, 0x1F4D, 1, -8⟩,
   ⟨0x1F59, 0x1F5F, 2, -8⟩, ⟨0x1F68, 0x1F6F, 1, -8⟩, ⟨0x1F88, 0x1F8F, 1, -8⟩,
   ⟨0x1F98, 0x1F9F, 1, -8⟩, ⟨0x1FA8, 0x1FAF, 1, -8⟩, ⟨0x1FB8, 0x1FB9, 1, -8⟩,
   ⟨0x1FBA, 0x1FBB, 1, -74⟩, ⟨0x1FBC, 0x1FBC, 1, -9⟩, ⟨0x1FC8, 0x1FCB, 1, -86⟩,
   ⟨0x1FCC, 0x1FCC, 1, -9⟩, ⟨0x1FD8, 0x1FD9, 1, -8⟩, ⟨0x1FDA, 0x1FDB, 1, -100⟩,
   ⟨0x1FE8, 0x1FE9, 1, -8⟩, ⟨0x1FEA, 0x1FEB, 1, -112⟩, ⟨0x1FEC, 0x1FEC, 1, -7⟩,
   ⟨0x1FF8, 0x1FF9, 1, -128⟩, ⟨0x1FFA, 0x1FFB, 1, -126⟩, ⟨0x1FFC, 0x1FFC, 1, -9⟩,
   ⟨0x2126, 0x2126, 1, -7517⟩, ⟨0x212A, 0x212A, 1, -8383⟩, ⟨0x212B, 0x212B, 1, -8262⟩,
   ⟨0x2132, 0x2132, 1, 28⟩, ⟨0x2160, 0x216F, 1, 16⟩, ⟨0x2183, 0x2183, 1, 1⟩,
   ⟨0x24B6, 0x24CF, 1, 26⟩, ⟨0x2C00, 0x2C2F, 1, 48⟩, ⟨0x2C60, 0x2C60, 1, 1⟩,
   ⟨0x2C62, 0x2C62, 1, -10743⟩, ⟨0x2C63, 0x2C63, 1, -3814⟩, ⟨0x2C64, 0x2C64, 1, -10727⟩,
   ⟨0x2C67, 0x2C6B, 2, 1⟩, ⟨0x2C6D, 0x2C6D, 1, -10780⟩, ⟨0x2C6E, 0x2C6E, 1, -10749⟩,
   ⟨0x2C6F, 0x2C6F, 1, -10783⟩, ⟨0x2C70, 0x2C70, 1, -10782⟩, ⟨0x2C72, 0x2C72, 1, 1⟩,
   ⟨0x2C75, 0x2C75, 1, 1⟩, ⟨0x2C7E, 0x2C7F, 1, -10815⟩, ⟨0x2C80, 0x2CE2, 2, 1⟩,
   ⟨0x2CEB, 0x2CED, 2, 1⟩, ⟨0x2CF2, 0x2CF2, 1, 1⟩, ⟨0xA640, 0xA66C, 2, 1⟩, ⟨0xA680, 0xA69A, 2, 1⟩,
   ⟨0xA722, 0xA72E, 2, 1⟩, ⟨0xA732, 0xA76E, 2, 1⟩, ⟨0xA779, 0xA77B, 2, 1⟩,
   ⟨0xA77D, 0xA77D, 1, -35332⟩, ⟨0xA77E, 0xA786, 2, 1⟩, ⟨0xA78B, 0xA78B, 1, 1⟩,
   ⟨0xA78D, 0xA78D, 1, -42280⟩, ⟨0xA790, 0xA792, 2, 1⟩, ⟨0xA796, 0xA7A8, 2, 1⟩,
   ⟨0xA7AA, 0xA7AA, 1, -42308⟩, ⟨0xA7AB, 0xA7AB, 1, -42319⟩, ⟨0xA7AC, 0xA7AC, 1, -42315⟩,
   ⟨0xA7AD, 0xA7AD, 1, -42305⟩, ⟨0xA7AE, 0xA7AE, 1, -42308⟩, ⟨0xA7B0, 0xA7B0, 1, -42258⟩,
   ⟨0xA7B1, 0xA7B1, 1, -42282⟩, ⟨0xA7B2, 0xA7B2, 1, -42261⟩, ⟨0xA7B3, 0xA7B3, 1, 928⟩,
   ⟨0xA7B4, 0xA7C2, 2, 1⟩, ⟨0xA7C4, 0xA7C4, 1, -48⟩, ⟨0xA7C5, 0xA7C5, 1, -42307⟩,
   ⟨0xA7C6, 0xA7C6, 1, -35384⟩, ⟨0xA7C7, 0xA7C9, 2, 1⟩, ⟨0xA7D0, 0xA7D0, 1, 1⟩,
   ⟨0xA7D6, 0xA7D8, 2, 1⟩, ⟨0xA7F5, 0xA7F5, 1, 1⟩, ⟨0xFF21, 0xFF3A, 1, 32⟩,
   ⟨0x10400, 0x10427, 1, 40⟩, ⟨0x104B0, 0x104D3, 1, 40⟩, ⟨0x10570, 0x1057A, 1, 39⟩,
   ⟨0x1057C, 0x1058A, 1, 39⟩, ⟨0x1058C, 0x10592, 1, 39⟩, ⟨0x10594, 0x10595, 1, 39⟩,
   ⟨0x10C80, 0x10CB2, 1, 64⟩, ⟨0x118A0, 0x118BF, 1, 32⟩, ⟨0x16E40, 0x16E5F, 1, 32⟩,
   ⟨0x1E900, 0x1E921, 1, 34⟩]

/-- Whether a code point is one of a range. -/
def CaseRange.covers (c : CaseRange) (r : ℕ) : Bool :=
  c.lo ≤ r ∧ r ≤ c.hi ∧ (r - c.lo) % c.stride = 0

/-- `unicode.ToLower`. -/
def unicodeToLower (r : ℕ) : ℕ :=
  if r < 0x80 then (if 0x41 ≤ r ∧ r ≤ 0x5A then r + 0x20 else r)
  else match caseRanges.find? (·.covers r) with
    | some c => ((r : ℤ) + c.delta).toNat
    | none => r

/-! ### `strings.ToLower` -/

/-- `strings.Map`, from a position where `skip` bytes still belong to the rune
before. -/
def mapRunes (f : ℕ → ℕ) : ℕ → GoString → GoString
  | _, [] => []
  | k + 1, _ :: bs => mapRunes f k bs
  | 0, b :: bs => encodeRune (f (decodeRune b bs).1) ++ mapRunes f (decodeRune b bs).2 bs

/-- `strings.ToLower`. The source's two short cuts, for a string that is ASCII and
for one that no rune changes, return what the general path returns. -/
def toLower (s : GoString) : GoString := mapRunes unicodeToLower 0 s

/-- Lower-casing one ASCII byte. -/
def lowerByte (b : UInt8) : UInt8 := if 0x41 ≤ b.toNat ∧ b.toNat ≤ 0x5A then b + 0x20 else b

theorem mapRunes_drop (f : ℕ → ℕ) :
    ∀ (k : ℕ) (bs : GoString), mapRunes f k bs = mapRunes f 0 (bs.drop k)
  | 0, bs => by simp
  | _ + 1, [] => by simp [mapRunes]
  | k + 1, _ :: bs => by
    rw [mapRunes, mapRunes_drop f k bs]
    rfl

@[simp] theorem toLower_nil : toLower [] = [] := rfl

/-- On an ASCII byte `ToLower` is the arithmetic one. -/
theorem toLower_cons_ascii {b : UInt8} (hb : b.toNat < 0x80) (bs : GoString) :
    toLower (b :: bs) = lowerByte b :: toLower bs := by
  have hdec : decodeRune b bs = (b.toNat, 0) := by simp [decodeRune, hb]
  rw [toLower, mapRunes, hdec, unicodeToLower, if_pos hb, encodeRune, lowerByte]
  by_cases hup : 0x41 ≤ b.toNat ∧ b.toNat ≤ 0x5A
  · rw [if_pos hup, if_pos hup, if_pos (by omega)]
    have : UInt8.ofNat (b.toNat + 0x20) = b + 0x20 := by
      apply UInt8.toNat_inj.mp
      rw [UInt8.toNat_add]
      simp
    rw [this]
    rfl
  · rw [if_neg hup, if_neg hup, if_pos hb, UInt8.ofNat_toNat]
    rfl

theorem isCont_ge {x : UInt8} (h : isCont x = true) : 0x80 ≤ x.toNat := by
  simp only [isCont, decide_eq_true_eq] at h
  exact h.1

/-- What the bounds on a second byte give: it is outside ASCII, and far enough outside
behind the two first bytes that could start an overlong encoding. -/
theorem secondOk_ge {x y : UInt8} (h : secondOk x y = true) :
    0x80 ≤ y.toNat ∧ (x.toNat = 0xE0 → 0xA0 ≤ y.toNat) ∧ (x.toNat = 0xF0 → 0x90 ≤ y.toNat) := by
  rw [secondOk] at h
  split_ifs at h with h₁ h₂ h₃ h₄
  · simp only [decide_eq_true_eq] at h
    omega
  · simp only [decide_eq_true_eq] at h
    omega
  · simp only [decide_eq_true_eq] at h
    omega
  · simp only [decide_eq_true_eq] at h
    omega
  · exact ⟨isCont_ge h, fun hc => absurd hc h₁, fun hc => absurd hc h₃⟩

/-- What a decoding does at a byte outside ASCII: the rune is outside ASCII, and so are
the bytes behind the first one that it is made of. -/
theorem decodeRune_wide {b : UInt8} (hb : 0x80 ≤ b.toNat) (bs : GoString) :
    0x80 ≤ (decodeRune b bs).1 ∧ ∀ x ∈ bs.take (decodeRune b bs).2, 0x80 ≤ x.toNat := by
  have herr : 0x80 ≤ ((runeError, 0) : ℕ × ℕ).1 ∧
      ∀ x ∈ bs.take ((runeError, 0) : ℕ × ℕ).2, 0x80 ≤ x.toNat :=
    ⟨by decide, by simp⟩
  simp only [decodeRune]
  rw [if_neg (by omega)]
  -- by the number of bytes that the first one asks for
  split_ifs with h₂ h₃ h₄ h₅
  · exact herr
  · rcases bs with _ | ⟨b₁, bs⟩
    · exact herr
    · simp only
      split_ifs with h
      · refine ⟨by simp only; omega, fun x hx => ?_⟩
        obtain rfl : x = b₁ := by simpa using hx
        exact isCont_ge h
      · exact herr
  · rcases bs with _ | ⟨b₁, _ | ⟨b₂, bs⟩⟩
    · exact herr
    · exact herr
    · simp only
      split_ifs with h
      · rw [Bool.and_eq_true] at h
        have hs := secondOk_ge h.1
        refine ⟨by simp only; omega, fun x hx => ?_⟩
        obtain rfl | rfl : x = b₁ ∨ x = b₂ := by simpa using hx
        · exact hs.1
        · exact isCont_ge h.2
      · exact herr
  · rcases bs with _ | ⟨b₁, _ | ⟨b₂, _ | ⟨b₃, bs⟩⟩⟩
    · exact herr
    · exact herr
    · exact herr
    · simp only
      split_ifs with h
      · simp only [Bool.and_eq_true] at h
        have hs := secondOk_ge h.1.1
        refine ⟨by simp only; omega, fun x hx => ?_⟩
        obtain rfl | rfl | rfl : x = b₁ ∨ x = b₂ ∨ x = b₃ := by simpa using hx
        · exact hs.1
        · exact isCont_ge h.1.2
        · exact isCont_ge h.2
      · exact herr
  · exact herr

/-- The bytes of a rune outside ASCII are outside ASCII. -/
theorem encodeRune_wide {r : ℕ} (hr : 0x80 ≤ r) : ∀ x ∈ encodeRune r, 0x80 ≤ x.toNat := by
  intro x hx
  rw [encodeRune, if_neg (by omega)] at hx
  split at hx
  · simp only [List.mem_cons, List.not_mem_nil, or_false] at hx
    rcases hx with rfl | rfl <;> simp only [UInt8.toNat_ofNat'] <;> omega
  split at hx
  · simp only [List.mem_cons, List.not_mem_nil, or_false] at hx
    rcases hx with rfl | rfl | rfl <;> decide
  split at hx
  · simp only [List.mem_cons, List.not_mem_nil, or_false] at hx
    rcases hx with rfl | rfl | rfl <;> simp only [UInt8.toNat_ofNat'] <;> omega
  · simp only [List.mem_cons, List.not_mem_nil, or_false] at hx
    rcases hx with rfl | rfl | rfl | rfl <;> simp only [UInt8.toNat_ofNat'] <;> omega

theorem encodeRune_ne_nil (r : ℕ) : encodeRune r ≠ [] := by
  rw [encodeRune]
  split_ifs <;> simp

/-- A range of the table stays outside ASCII, or is `İ` or the Kelvin sign. -/
theorem caseRanges_low : ∀ c ∈ caseRanges,
    0x80 ≤ (c.lo : ℤ) + c.delta ∨ (c.lo = c.hi ∧ ((c.lo : ℤ) + c.delta = 0x69 ∨
      (c.lo : ℤ) + c.delta = 0x6B)) := by
  decide +kernel

/-- **Outside ASCII lower-casing reaches no ASCII but `i` and `k`.** -/
theorem unicodeToLower_wide {r : ℕ} (hr : 0x80 ≤ r) :
    0x80 ≤ unicodeToLower r ∨ unicodeToLower r = 0x69 ∨ unicodeToLower r = 0x6B := by
  rw [unicodeToLower, if_neg (by omega)]
  split
  · next c hc =>
    have hcov : c.covers r = true := by simpa using List.find?_some hc
    simp only [CaseRange.covers, decide_eq_true_eq] at hcov
    rcases caseRanges_low c (List.mem_of_find?_eq_some hc) with h | ⟨heq, h | h⟩
    · left
      omega
    · right; left
      omega
    · right; right
      omega
  · exact Or.inl hr

/-- The letters and marks a rune outside ASCII can never be lower-cased to: the ASCII
bytes other than `i` and `k`. -/
def FarByte (x : UInt8) : Prop := 0x80 ≤ x.toNat ∨ x = 0x69 ∨ x = 0x6B

/-- On a byte outside ASCII, `ToLower` passes over the bytes of one rune, all outside
ASCII, and writes at least one byte, none of them an ASCII byte other than `i` and
`k`. -/
theorem toLower_cons_wide {b : UInt8} (hb : 0x80 ≤ b.toNat) (bs : GoString) :
    ∃ u v rest, b :: bs = (b :: u) ++ rest ∧ (∀ x ∈ u, 0x80 ≤ x.toNat) ∧ v ≠ [] ∧
      (∀ x ∈ v, FarByte x) ∧ toLower (b :: bs) = v ++ toLower rest := by
  refine ⟨bs.take (decodeRune b bs).2, encodeRune (unicodeToLower (decodeRune b bs).1),
    bs.drop (decodeRune b bs).2, by simp, (decodeRune_wide hb bs).2, encodeRune_ne_nil _, ?_, ?_⟩
  · intro x hx
    rcases unicodeToLower_wide (decodeRune_wide hb bs).1 with h | h | h
    · exact Or.inl (encodeRune_wide h x hx)
    · rw [h] at hx
      obtain rfl : x = 0x69 := by simpa [encodeRune] using hx
      exact Or.inr (Or.inl rfl)
    · rw [h] at hx
      obtain rfl : x = 0x6B := by simpa [encodeRune] using hx
      exact Or.inr (Or.inr rfl)
  · rw [toLower, mapRunes, mapRunes_drop]
    rfl

/-- A word of ASCII in front of a lower-cased string stands for as many bytes of the string at
least: no rune is lower-cased to more than one byte of it. -/
theorem length_le_of_prefix_toLower {w : GoString} (hw : ∀ x ∈ w, x.toNat < 0x80) :
    ∀ {s : GoString}, w <+: toLower s → w.length ≤ s.length := by
  induction w with
  | nil => intro s _; simp
  | cons c w ih =>
    intro s h
    have htail := @ih fun x hx => hw x (List.mem_cons_of_mem c hx)
    have hc : c.toNat < 0x80 := hw c List.mem_cons_self
    rcases s with _ | ⟨b, bs⟩
    · simp at h
    by_cases hb : b.toNat < 0x80
    · rw [toLower_cons_ascii hb, List.cons_prefix_cons] at h
      simpa using htail h.2
    · -- a wide rune writes no byte of ASCII, or one
      have hwide := (decodeRune_wide (not_lt.mp hb) bs).1
      rw [toLower, mapRunes, mapRunes_drop] at h
      have hone : ∀ r : ℕ, r < 0x80 → c :: w <+: encodeRune r ++
          mapRunes unicodeToLower 0 (bs.drop (decodeRune b bs).2) → (c :: w).length ≤ bs.length + 1 := by
        intro r hr hpre
        rw [encodeRune, if_pos hr, List.singleton_append, List.cons_prefix_cons] at hpre
        have hle := htail hpre.2
        rw [List.length_drop] at hle
        rw [List.length_cons]
        omega
      rcases unicodeToLower_wide hwide with hr | hr | hr
      · obtain ⟨y, v, hv⟩ := List.exists_cons_of_ne_nil
          (encodeRune_ne_nil (unicodeToLower (decodeRune b bs).1))
        have hy := encodeRune_wide hr y (by rw [hv]; exact List.mem_cons_self)
        rw [hv, List.cons_append, List.cons_prefix_cons] at h
        rw [h.1] at hc
        omega
      · exact hone _ (by omega) h
      · exact hone _ (by omega) h

/-! ### White space -/

/-- The encodings of the runes `unicode.IsSpace` accepts. -/
def spaces : List GoString :=
  [[0x09], [0x0A], [0x0B], [0x0C], [0x0D], [0x20], [0xC2, 0x85], [0xC2, 0xA0],
    [0xE1, 0x9A, 0x80], [0xE2, 0x80, 0x80], [0xE2, 0x80, 0x81], [0xE2, 0x80, 0x82],
    [0xE2, 0x80, 0x83], [0xE2, 0x80, 0x84], [0xE2, 0x80, 0x85], [0xE2, 0x80, 0x86],
    [0xE2, 0x80, 0x87], [0xE2, 0x80, 0x88], [0xE2, 0x80, 0x89], [0xE2, 0x80, 0x8A],
    [0xE2, 0x80, 0xA8], [0xE2, 0x80, 0xA9], [0xE2, 0x80, 0xAF], [0xE2, 0x81, 0x9F],
    [0xE3, 0x80, 0x80]]

/-- Drop from the front of a string every word of a list, as long as one is there.
The counter is what is left of the word being passed over. -/
def dropWords (ws : List GoString) : ℕ → GoString → GoString
  | _, [] => []
  | k + 1, _ :: bs => dropWords ws k bs
  | 0, b :: bs =>
    match ws.find? (·.isPrefixOf (b :: bs)) with
    | some w => dropWords ws (w.length - 1) bs
    | none => b :: bs

/-- `strings.TrimSpace`. A rune of white space at the end of a string is found there
by its encoding read backwards, as `utf8.DecodeLastRuneInString` does. -/
def trimSpace (s : GoString) : GoString :=
  (dropWords (spaces.map List.reverse) 0 (dropWords spaces 0 s).reverse).reverse

/-- The words of `strings.Fields`: the current word, and the words behind it. -/
def fieldsGo : ℕ → GoString → GoString × List GoString
  | _, [] => ([], [])
  | k + 1, _ :: bs => fieldsGo k bs
  | 0, b :: bs =>
    match spaces.find? (·.isPrefixOf (b :: bs)) with
    | some w =>
      ([], (fieldsGo (w.length - 1) bs).1 :: (fieldsGo (w.length - 1) bs).2)
    | none => (b :: (fieldsGo 0 bs).1, (fieldsGo 0 bs).2)

/-- `strings.Fields`: the non-empty words between runs of white space. -/
def fields (s : GoString) : List GoString :=
  ((fieldsGo 0 s).1 :: (fieldsGo 0 s).2).filter (· ≠ [])

theorem dropWords_suffix (ws : List GoString) (s : GoString) : ∀ k, dropWords ws k s <:+ s := by
  induction s with
  | nil => intro k; rcases k with _ | k <;> exact List.suffix_rfl
  | cons b bs ih =>
    intro k
    rcases k with _ | k
    · rw [dropWords]
      split
      · exact (ih _).trans (List.suffix_cons b bs)
      · exact List.suffix_rfl
    · rw [dropWords]
      exact (ih k).trans (List.suffix_cons b bs)

theorem trimSpace_subset (s : GoString) : trimSpace s ⊆ s := by
  intro x hx
  have h₁ := List.mem_reverse.mp hx
  have h₂ := List.mem_reverse.mp ((dropWords_suffix _ _ 0).subset h₁)
  exact (dropWords_suffix _ _ 0).subset h₂

theorem madeOf_fieldsGo (s : GoString) : ∀ k, MadeOf (fieldsGo k s) s := by
  induction s with
  | nil => intro k; rcases k with _ | k <;> exact .nil []
  | cons b bs ih =>
    intro k
    rcases k with _ | k
    · rw [fieldsGo]
      split
      · exact (ih _).cut
      · exact (ih 0).cons
    · rw [fieldsGo]
      exact (ih k).skip

/-- The words of a string are made of its bytes. -/
theorem mem_of_mem_fields {s p : GoString} (hp : p ∈ fields s) {x : UInt8} (hx : x ∈ p) :
    x ∈ s := by
  rcases List.mem_cons.mp (List.mem_filter.mp hp).1 with rfl | hp
  · exact (madeOf_fieldsGo s 0).first hx
  · exact (madeOf_fieldsGo s 0).rest p hp hx

end Go

end Xsiam
