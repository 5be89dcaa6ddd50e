import Mathlib

/-!
# Go strings

A Go `string` is a sequence of bytes, with no promise that the bytes are UTF-8.
This file has the type, its literals, and the functions of package `strings`
that work on bytes alone; the ones that look at runes are in `Xsiam.Go.Unicode`.

A literal is written `str "hostname"`. Two literals are equal exactly when their
texts are (`Xsiam.Go.str_inj`), which is a simp lemma, so that the resolution of
a field name by a chain of comparisons is decided by `simp`.

The searches of package `strings` that a loop of the source runs over a shrinking
suffix are all instances of one function, `Xsiam.Go.index`; the facts about it are
the ones such a loop needs: where the match starts, that it fits, and that nothing
matches before it.
-/

namespace Xsiam

namespace Go

/-- A Go `string`: any sequence of bytes. -/
abbrev GoString := List UInt8

instance : LawfulBEq GoString := inferInstance

/-- A string literal of the source. -/
def str (s : String) : GoString := s.toUTF8.data.toList

@[simp] theorem str_inj {s t : String} : str s = str t ↔ s = t := by
  constructor
  · intro h
    have hd : s.toUTF8.data = t.toUTF8.data := Array.toList_inj.mp h
    refine String.toByteArray_inj.mp ?_
    change s.toUTF8 = t.toUTF8
    cases hs : s.toUTF8
    cases ht : t.toUTF8
    simp_all
  · rintro rfl
    rfl

theorem str_ofList (cs : List Char) : str (String.ofList cs) = cs.flatMap String.utf8EncodeChar := by
  rw [str, String.toUTF8_eq_toByteArray, String.toByteArray_ofList, List.utf8Encode]
  simp

/-- A natural number in decimal is made of digits. -/
theorem mem_str_repr {n : ℕ} {b : UInt8} (hb : b ∈ str n.repr) :
    0x30 ≤ b.toNat ∧ b.toNat ≤ 0x39 := by
  rw [Nat.repr_eq_ofList_toDigits, str_ofList, List.mem_flatMap] at hb
  obtain ⟨c, hc, hb⟩ := hb
  have hdigit := Nat.isDigit_of_mem_toDigits (by decide) (by decide) hc
  simp only [Char.isDigit, Bool.and_eq_true, decide_eq_true_eq] at hdigit
  have hlow : c.val.toNat ≤ 0x39 := hdigit.2
  have hhigh : 0x30 ≤ c.val.toNat := hdigit.1
  have hone : c.utf8Size = 1 := by
    rw [Char.utf8Size_eq_one_iff]
    change c.val.toNat ≤ 127
    omega
  rw [String.utf8EncodeChar_eq_singleton hone, List.mem_singleton] at hb
  subst hb
  rw [UInt32.toNat_toUInt8]
  omega

/-- The bytes of an integer in decimal. -/
theorem mem_str_toString {i : ℤ} {b : UInt8} (hb : b ∈ str (toString i)) :
    b = 0x2D ∨ (0x30 ≤ b.toNat ∧ b.toNat ≤ 0x39) := by
  rw [Int.toString_eq_repr, Int.repr_eq_if] at hb
  split_ifs at hb
  · exact Or.inr (mem_str_repr hb)
  · have hsplit : str ("-" ++ (-i).toNat.repr) = 0x2D :: str (-i).toNat.repr := by
      rw [str, String.toUTF8_eq_toByteArray, String.toByteArray_append]
      simp
      rfl
    rw [hsplit] at hb
    exact (List.mem_cons.mp hb).imp id mem_str_repr

/-! ### Searching -/

/-- `strings.Index`: the first byte offset at which `sep` stands in `s`. -/
def index (sep : GoString) : GoString → Option ℕ
  | [] => if sep = [] then some 0 else none
  | b :: bs => if sep.isPrefixOf (b :: bs) then some 0 else (index sep bs).map (· + 1)

/-- `strings.Contains`. -/
def contains (s sep : GoString) : Bool := (index sep s).isSome

/-- `strings.HasPrefix`. -/
def hasPrefix (s p : GoString) : Bool := p.isPrefixOf s

/-- `strings.CutPrefix`: what is left of `s` behind `p`, when `s` starts with it. -/
def cutPrefix (s p : GoString) : Option GoString :=
  if p.isPrefixOf s then some (s.drop p.length) else none

theorem cutPrefix_eq_some {s p rest : GoString} : cutPrefix s p = some rest ↔ s = p ++ rest := by
  rw [cutPrefix]
  constructor
  · intro h
    split_ifs at h with hp
    obtain ⟨t, rfl⟩ := List.isPrefixOf_iff_prefix.mp hp
    rw [← Option.some.inj h, List.drop_left]
  · rintro rfl
    rw [if_pos (List.isPrefixOf_iff_prefix.mpr (List.prefix_append p rest)), List.drop_left]

/-- What `index` says when it finds something: a match at that offset, and none
before it. -/
theorem index_eq_some {sep : GoString} :
    ∀ {s : GoString} {i : ℕ}, index sep s = some i →
      i + sep.length ≤ s.length ∧ sep <+: s.drop i ∧ ∀ j < i, ¬sep <+: s.drop j := by
  intro s
  induction s with
  | nil =>
    intro i h
    rw [index] at h
    split at h
    · next hsep =>
      obtain rfl : i = 0 := (Option.some.inj h).symm
      subst hsep
      simp
    · exact absurd h (by simp)
  | cons b bs ih =>
    intro i h
    rw [index] at h
    split at h
    · next hp =>
      obtain rfl : i = 0 := (Option.some.inj h).symm
      rw [List.isPrefixOf_iff_prefix] at hp
      exact ⟨by simpa using hp.length_le, by simpa using hp, by omega⟩
    · next hp =>
      obtain ⟨k, hk, rfl⟩ := Option.map_eq_some_iff.mp h
      obtain ⟨hlen, hpre, hmin⟩ := ih hk
      refine ⟨by simp only [List.length_cons]; omega, by simpa using hpre, fun j hj => ?_⟩
      rcases j with _ | j
      · simpa [List.isPrefixOf_iff_prefix] using hp
      · simpa using hmin j (by omega)

/-- What `index` says when it finds nothing. -/
theorem index_eq_none {sep : GoString} :
    ∀ {s : GoString}, index sep s = none → ∀ j, ¬sep <+: s.drop j := by
  intro s
  induction s with
  | nil =>
    intro h j
    rw [index] at h
    split at h
    · exact absurd h (by simp)
    · next hsep => simpa using hsep
  | cons b bs ih =>
    intro h j
    rw [index] at h
    split at h
    · exact absurd h (by simp)
    · next hp =>
      rcases j with _ | j
      · simpa [List.isPrefixOf_iff_prefix] using hp
      · simpa using ih (by simpa using h) j

/-- A search passes over a text that the separator does not begin in. -/
theorem index_append {c : UInt8} {cs h : GoString} (hc : c ∉ h) (t : GoString) :
    index (c :: cs) (h ++ t) = (index (c :: cs) t).map (h.length + ·) := by
  induction h with
  | nil => simp
  | cons b h ih =>
    obtain ⟨hne, hrest⟩ := List.ne_and_not_mem_of_not_mem_cons hc
    have hnot : ¬((c :: cs).isPrefixOf (b :: (h ++ t)) = true) := by simp [hne]
    rw [List.cons_append, index, if_neg hnot, ih hrest, Option.map_map]
    congr 1
    ext1 i
    simp only [Function.comp_apply, List.length_cons]
    omega

/-- A search finds what is there. -/
theorem isSome_index_iff {sep s : GoString} : (index sep s).isSome = true ↔ sep <:+: s := by
  constructor
  · intro h
    obtain ⟨i, hi⟩ := Option.isSome_iff_exists.mp h
    exact (index_eq_some hi).2.1.isInfix.trans (List.drop_suffix i s).isInfix
  · rintro ⟨a, b, rfl⟩
    cases hidx : index sep (a ++ sep ++ b) with
    | some i => rfl
    | none =>
      refine absurd ?_ (index_eq_none hidx a.length)
      rw [List.append_assoc, List.drop_left]
      exact List.prefix_append sep b

/-! ### Trimming -/

/-- `strings.Trim` with a cutset of ASCII characters. -/
def trim (s cutset : GoString) : GoString :=
  ((s.dropWhile (cutset.contains ·)).reverse.dropWhile (cutset.contains ·)).reverse

theorem trim_subset (s cutset : GoString) : trim s cutset ⊆ s := by
  intro x hx
  have h₁ := List.mem_reverse.mp hx
  have h₂ := List.mem_reverse.mp ((List.dropWhile_suffix _).subset h₁)
  exact (List.dropWhile_suffix _).subset h₂

/-- `strings.TrimRight` with a cutset of ASCII characters. -/
def trimRight (s cutset : GoString) : GoString :=
  (s.reverse.dropWhile (cutset.contains ·)).reverse

/-- A byte that is not cut off ends the trimming. -/
theorem trimRight_append_cons {cutset : GoString} {b : UInt8} (hb : b ∉ cutset) (p s : GoString) :
    trimRight (p ++ b :: s) cutset = p ++ b :: trimRight s cutset := by
  have hkeep : ¬(cutset.contains b = true) := by simpa using hb
  rw [trimRight, List.reverse_append, List.reverse_cons, List.append_assoc, List.singleton_append,
    List.dropWhile_append]
  split_ifs with hall
  · rw [List.dropWhile_cons_of_neg hkeep, trimRight, List.isEmpty_iff.mp hall]
    simp
  · rw [trimRight]
    simp

theorem trimRight_subset (s cutset : GoString) : trimRight s cutset ⊆ s := by
  intro b hb
  exact List.mem_reverse.mp ((List.dropWhile_suffix _).subset (List.mem_reverse.mp hb))

/-- What is left whole is what does not end with a byte to be cut off. -/
theorem trimRight_eq_self_iff {s cutset : GoString} :
    trimRight s cutset = s ↔ ∀ b ∈ s.getLast?, b ∉ cutset := by
  rw [trimRight, List.reverse_eq_iff, List.dropWhile_eq_self_iff, ← List.head?_reverse]
  cases s.reverse with
  | nil => simp
  | cons b t => simp

/-- `strings.TrimPrefix`. -/
def trimPrefix (s p : GoString) : GoString := (cutPrefix s p).getD s

/-! ### Splitting and joining -/

/-- The segments of a string between the occurrences of a non-empty separator: the
first one, and the rest. The counter is the number of bytes of the separator still
to be passed over. -/
def splitGo (sep : GoString) : ℕ → GoString → GoString × List GoString
  | _, [] => ([], [])
  | k + 1, _ :: bs => splitGo sep k bs
  | 0, b :: bs =>
    if sep.isPrefixOf (b :: bs) then
      ([], (splitGo sep (sep.length - 1) bs).1 :: (splitGo sep (sep.length - 1) bs).2)
    else
      (b :: (splitGo sep 0 bs).1, (splitGo sep 0 bs).2)

/-- `strings.Split` with a non-empty separator. -/
def split (s sep : GoString) : List GoString := (splitGo sep 0 s).1 :: (splitGo sep 0 s).2

/-- Segments, the first one and the rest, that are made of the bytes of a string. -/
structure MadeOf (segments : GoString × List GoString) (s : GoString) : Prop where
  first : segments.1 ⊆ s
  rest : ∀ p ∈ segments.2, p ⊆ s

namespace MadeOf

variable {segments : GoString × List GoString} {s : GoString} {b : UInt8}

theorem nil (s : GoString) : MadeOf ([], []) s := ⟨List.nil_subset s, by simp⟩

/-- A byte is passed over. -/
theorem skip (h : MadeOf segments s) : MadeOf segments (b :: s) where
  first := List.subset_cons_of_subset b h.first
  rest p hp := List.subset_cons_of_subset b (h.rest p hp)

/-- A byte belongs to the first segment. -/
theorem cons (h : MadeOf segments s) : MadeOf (b :: segments.1, segments.2) (b :: s) where
  first := List.cons_subset_cons b h.first
  rest := h.skip.rest

/-- The string is cut at a byte. -/
theorem cut (h : MadeOf segments s) : MadeOf ([], segments.1 :: segments.2) (b :: s) where
  first := List.nil_subset _
  rest := List.forall_mem_cons.mpr ⟨h.skip.first, h.skip.rest⟩

end MadeOf

theorem madeOf_splitGo {sep : GoString} (s : GoString) : ∀ k, MadeOf (splitGo sep k s) s := by
  induction s with
  | nil => intro k; rcases k with _ | k <;> exact .nil []
  | cons b bs ih =>
    intro k
    rcases k with _ | k
    · rw [splitGo]
      split_ifs
      · exact (ih _).cut
      · exact (ih 0).cons
    · rw [splitGo]
      exact (ih k).skip

/-- The segments of a string are made of its bytes. -/
theorem mem_of_mem_split {s sep p : GoString} (hp : p ∈ split s sep) {x : UInt8} (hx : x ∈ p) :
    x ∈ s := by
  rcases List.mem_cons.mp hp with rfl | hp
  · exact (madeOf_splitGo s 0).first hx
  · exact (madeOf_splitGo s 0).rest p hp hx

/-- No segment has the byte that the string was split at. -/
theorem notMem_of_mem_split {s : GoString} {b : UInt8} {p : GoString} (hp : p ∈ split s [b]) :
    b ∉ p := by
  have hgo : ∀ s : GoString, b ∉ (splitGo [b] 0 s).1 ∧ ∀ p ∈ (splitGo [b] 0 s).2, b ∉ p := by
    intro s
    induction s with
    | nil => simp [splitGo]
    | cons c cs ih =>
      rw [splitGo]
      split_ifs with hc
      · refine ⟨by simp, fun p hp => ?_⟩
        rcases List.mem_cons.mp hp with rfl | hp
        · exact ih.1
        · exact ih.2 p hp
      · refine ⟨fun hmem => ?_, ih.2⟩
        rcases List.mem_cons.mp hmem with rfl | hmem
        · simp at hc
        · exact ih.1 hmem
  rcases List.mem_cons.mp hp with rfl | hp
  · exact (hgo s).1
  · exact (hgo s).2 p hp

/-- Splitting at a byte goes on behind a text without it. -/
theorem split_append {b : UInt8} {h : GoString} (hb : b ∉ h) (t : GoString) :
    split (h ++ t) [b] = (h ++ (splitGo [b] 0 t).1) :: (splitGo [b] 0 t).2 := by
  induction h with
  | nil => rfl
  | cons c h ih =>
    obtain ⟨hne, hrest⟩ := List.ne_and_not_mem_of_not_mem_cons hb
    have hgo := ih hrest
    rw [split, List.cons.injEq] at hgo
    have hnot : ¬([b].isPrefixOf (c :: (h ++ t)) = true) := by simpa using hne
    rw [split, List.cons_append, splitGo, if_neg hnot, hgo.1, hgo.2]
    rfl

/-- And starts anew behind the byte. -/
theorem split_append_cons {b : UInt8} {h : GoString} (hb : b ∉ h) (t : GoString) :
    split (h ++ b :: t) [b] = h :: split t [b] := by
  have hpos : [b].isPrefixOf (b :: t) = true := by simp
  rw [split_append hb, splitGo, if_pos hpos, List.append_nil]
  rfl

theorem split_of_notMem {b : UInt8} {s : GoString} (hb : b ∉ s) : split s [b] = [s] := by
  have h := split_append hb []
  rwa [List.append_nil, splitGo, List.append_nil] at h

/-- `strings.Join`. -/
def join (parts : List GoString) (sep : GoString) : GoString := (parts.intersperse sep).flatten

@[simp] theorem join_singleton (p sep : GoString) : join [p] sep = p := by
  rw [join, List.intersperse_singleton, List.flatten_singleton]

theorem join_cons_cons (p q : GoString) (ps : List GoString) (sep : GoString) :
    join (p :: q :: ps) sep = p ++ (sep ++ join (q :: ps) sep) := by
  rw [join, List.intersperse_cons_cons, List.flatten_cons, List.flatten_cons, join]

theorem mem_join {b : UInt8} {parts : List GoString} {sep : GoString} (h : b ∈ join parts sep) :
    b ∈ sep ∨ ∃ p ∈ parts, b ∈ p := by
  induction parts with
  | nil => exact absurd h List.not_mem_nil
  | cons p parts ih =>
    cases parts with
    | nil =>
      rw [join_singleton] at h
      exact .inr ⟨p, List.mem_cons_self, h⟩
    | cons q parts =>
      rw [join_cons_cons, List.mem_append, List.mem_append] at h
      rcases h with h | h | h
      · exact .inr ⟨p, List.mem_cons_self, h⟩
      · exact .inl h
      · obtain hsep | ⟨p', hp', hb⟩ := ih h
        · exact .inl hsep
        · exact .inr ⟨p', List.mem_cons_of_mem p hp', hb⟩

theorem join_append (h p : GoString) (parts : List GoString) (sep : GoString) :
    join ((h ++ p) :: parts) sep = h ++ join (p :: parts) sep := by
  cases parts with
  | nil => rw [join_singleton, join_singleton]
  | cons q parts => rw [join_cons_cons, join_cons_cons, List.append_assoc]

theorem join_splitGo {sep : GoString} (hsep : sep ≠ []) (s : GoString) :
    ∀ k, join ((splitGo sep k s).1 :: (splitGo sep k s).2) sep = s.drop k := by
  induction s with
  | nil =>
    intro k
    rw [splitGo, join_singleton, List.drop_nil]
  | cons b bs ih =>
    rintro (_ | k)
    · rw [splitGo]
      split_ifs with hpre
      · -- the separator, and what is left behind it
        obtain ⟨t, ht⟩ := List.isPrefixOf_iff_prefix.mp hpre
        obtain ⟨c, cs, rfl⟩ := List.exists_cons_of_ne_nil hsep
        rw [List.cons_append, List.cons.injEq] at ht
        obtain ⟨rfl, rfl⟩ := ht
        rw [join_cons_cons, ih, List.nil_append, List.length_cons, Nat.add_sub_cancel, List.drop_left,
          List.drop_zero]
        rfl
      · have hone := join_append [b] (splitGo sep 0 bs).1 (splitGo sep 0 bs).2 sep
        rw [ih, List.drop_zero] at hone
        exact hone
    · rw [splitGo, ih, List.drop_succ_cons]

/-- **The segments, joined by the separator they were split at, are the string.** -/
theorem join_split {sep : GoString} (hsep : sep ≠ []) (s : GoString) : join (split s sep) sep = s :=
  join_splitGo hsep s 0

/-- The first segment is what stands before the first separator. -/
theorem headD_split {sep : GoString} (hsep : sep ≠ []) (s : GoString) :
    (split s sep).headD [] = ((index sep s).map s.take).getD s := by
  rw [split, List.headD_cons]
  induction s with
  | nil =>
    rw [splitGo, index, if_neg hsep]
    rfl
  | cons b bs ih =>
    rw [splitGo, index]
    split_ifs with hpre
    · rfl
    · rw [ih]
      cases index sep bs <;> rfl

/-- Segments without a byte are those of what they are joined to by it. -/
theorem split_join {b : UInt8} {parts : List GoString} (hne : parts ≠ []) (h : ∀ p ∈ parts, b ∉ p) :
    split (join parts [b]) [b] = parts := by
  induction parts with
  | nil => exact absurd rfl hne
  | cons p parts ih =>
    obtain ⟨hp, hrest⟩ := List.forall_mem_cons.mp h
    cases parts with
    | nil => rw [join_singleton, split_of_notMem hp]
    | cons q parts =>
      rw [join_cons_cons, List.singleton_append, split_append_cons hp,
        ih (List.cons_ne_nil q parts) hrest]

/-- `strings.ReplaceAll` with a non-empty `old`. -/
def replaceAll (s old new : GoString) : GoString := join (split s old) new

end Go

end Xsiam
