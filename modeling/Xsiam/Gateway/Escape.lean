import Xsiam.Gateway.Wire
import Xsiam.Lib.JsonWrite

/-!
# The escaper of the gateway

`json_escape_append` goes byte by byte: it escapes quotes, backslashes and control characters and
leaves every other byte as it is. So it is an escaper of JSON strings in the sense of
`Json.Escapes` (`Xsiam.Gateway.escapes_jsonEscapeByte`), whatever the bytes are: what is not UTF-8
stays what it is.
-/

namespace Xsiam

namespace Gateway

/-- Text without a character that needs escaping. -/
def PlainText (s : CString) : Prop := Json.Clean s ∧ Json.Utf8 s

instance (s : CString) : Decidable (PlainText s) := inferInstanceAs (Decidable (_ ∧ _))

/-- A hexadecimal digit as `snprintf` writes it. -/
def hexDigit (n : UInt8) : UInt8 := if n < 10 then 0x30 + n else 0x57 + n

theorem jsonEscapeByte_eq (b : UInt8) :
    jsonEscapeByte b =
      if b = 0x5C then [0x5C, 0x5C]
      else if b = 0x22 then [0x5C, 0x22]
      else if b = 0x0A then [0x5C, 0x6E]
      else if b = 0x0D then [0x5C, 0x72]
      else if b = 0x09 then [0x5C, 0x74]
      else if b < 0x20 then [0x5C, 0x75, 0x30, 0x30, hexDigit (b / 16), hexDigit (b % 16)]
      else [b] := rfl

theorem jsonEscapeByte_of_plain {b : UInt8} (h : Json.Plain b) : jsonEscapeByte b = [b] := by
  obtain ⟨hquote, hback, hlow⟩ := h
  have hne : ∀ c : UInt8, c < 0x20 → b ≠ c := by
    rintro c hc rfl
    exact UInt8.not_lt.mpr hlow hc
  rw [jsonEscapeByte, if_neg hback, if_neg hquote, if_neg (hne 0x0A (by decide)),
    if_neg (hne 0x0D (by decide)), if_neg (hne 0x09 (by decide)), if_neg (UInt8.not_lt.mpr hlow)]

theorem hexDigit_control : ∀ n < 0x20, (hexDigit (UInt8.ofNat n / 16)).toNat < 0x80 ∧
    (hexDigit (UInt8.ofNat n % 16)).toNat < 0x80 ∧
    Json.hexValue₄ 0x30 0x30 (hexDigit (UInt8.ofNat n / 16)) (hexDigit (UInt8.ofNat n % 16)) =
      some n := by
  decide

/-- What is written for a byte is ASCII where the byte is. -/
theorem jsonEscapeByte_ascii {b : UInt8} (hb : b.toNat < 0x80) :
    jsonEscapeByte b ≠ [] ∧ ∀ b' ∈ jsonEscapeByte b, b'.toNat < 0x80 := by
  rw [jsonEscapeByte_eq]
  split_ifs with _ _ _ _ _ hlow
  · simp
  · simp
  · simp
  · simp
  · simp
  · have hdigits := hexDigit_control b.toNat hlow
    rw [UInt8.ofNat_toNat] at hdigits
    exact ⟨by simp, by simp [hdigits.1, hdigits.2.1]⟩
  · exact ⟨by simp, by simpa using hb⟩

/-- A byte that is not ASCII is never escaped. -/
theorem plain_of_le {b : UInt8} (h : 0x80 ≤ b.toNat) : Json.Plain b := by
  refine ⟨?_, ?_, UInt8.le_iff_toNat_le.mpr (le_trans (by decide) h)⟩
  · rintro rfl
    exact absurd h (by decide)
  · rintro rfl
    exact absurd h (by decide)

/-- What is written for a byte is one item, which reads as this byte. -/
theorem item_jsonEscapeByte (b : UInt8) : ∃ i, Json.Literal (jsonEscapeByte b) [i] ∧
    ∀ is, Json.itemBytes (i :: is) = b :: Json.itemBytes is := by
  have hshort : ∀ {e : UInt8} {u : ℕ}, Json.shortEscape e = some u → u < 0x80 →
      ∃ i, Json.Literal [0x5C, e] [i] ∧
        ∀ is, Json.itemBytes (i :: is) = UInt8.ofNat u :: Json.itemBytes is :=
    fun he hu => ⟨_, .short he .nil, Json.itemBytes_unit_of_lt hu⟩
  rw [jsonEscapeByte_eq]
  split_ifs with hback hquote hnl hcr htab hlow
  · rw [hback]
    exact @hshort 0x5C 0x5C rfl (by decide)
  · rw [hquote]
    exact @hshort 0x22 0x22 rfl (by decide)
  · rw [hnl]
    exact @hshort 0x6E 0x0A rfl (by decide)
  · rw [hcr]
    exact @hshort 0x72 0x0D rfl (by decide)
  · rw [htab]
    exact @hshort 0x74 0x09 rfl (by decide)
  · have hdigits := hexDigit_control b.toNat hlow
    rw [UInt8.ofNat_toNat] at hdigits
    have hascii : b.toNat < 0x80 := lt_trans hlow (by decide)
    refine ⟨_, .long hdigits.2.2 .nil, fun is => ?_⟩
    rw [Json.itemBytes_unit_of_lt hascii, UInt8.ofNat_toNat]
  · exact ⟨.raw b, .raw ⟨hquote, hback, UInt8.not_lt.mp hlow⟩ .nil, fun is => by rw [Json.itemBytes]⟩

/-- **The escaper of the plugin writes every byte so that it is read as itself.** -/
theorem escapes_jsonEscapeByte : Json.Escapes jsonEscapeByte where
  item := item_jsonEscapeByte
  run := by
    intro b p
    by_cases hascii : b.toNat < 0x80
    · obtain ⟨hne, hall⟩ := jsonEscapeByte_ascii hascii
      rw [Json.Place.run_ascii hall hne, Json.Place.step_ascii hascii]
    · rw [jsonEscapeByte_of_plain (plain_of_le (not_lt.mp hascii)), Json.Place.run]
      exact Option.bind_fun_some _

theorem quote_of_clean {s : CString} (hs : Json.Clean s) :
    Json.quote jsonEscapeByte s = 0x22 :: (s ++ [0x22]) := by
  have hflat : s.flatMap jsonEscapeByte = s := by
    rw [List.flatMap_congr fun b hb => jsonEscapeByte_of_plain (hs b hb)]
    exact List.flatMap_singleton' s
  rw [Json.quote, hflat, List.cons_append]

end Gateway

end Xsiam
