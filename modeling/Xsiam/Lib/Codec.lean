import Mathlib.Algebra.Group.Nat.Defs
import Mathlib.Data.List.Induction

/-!
# Writers and readers of a stream

A writer turns a value into items of a stream, a reader takes a value off the front of a
stream or fails. The two are *exact* (`Codec.Exact`) when the reader accepts what the
writer has written and nothing else: it gives the value back, leaves what comes after it
alone, and whatever it accepts is the writing of the value it returns.

Exactness passes from parts to wholes: to one value after another (`Codec.Exact.andThen`),
and to a stream read until it is exhausted (`Codec.Reader.readAll_eq_ok`), provided that
the reader always takes something. The one base case needed here is a number of fixed
width with its most significant byte first (`Codec.beBytes`).
-/

namespace Codec

universe u v w

variable {α : Type u} {β : Type v} {γ : Type w} {ε : Type*}

/-! ### Taking a number of items -/

/-- The first `n` items of a stream and the rest, where there are that many. -/
def readFull (n : ℕ) (bs : List β) : Option (List β × List β) :=
  if n ≤ bs.length then some (bs.take n, bs.drop n) else none

theorem readFull_eq_some {n : ℕ} {bs xs rest : List β} :
    readFull n bs = some (xs, rest) ↔ xs.length = n ∧ bs = xs ++ rest := by
  rw [readFull]
  constructor
  · intro h
    split_ifs at h with hn
    obtain ⟨rfl, rfl⟩ := Prod.mk.inj (Option.some.inj h)
    exact ⟨List.length_take_of_le hn, (List.take_append_drop n bs).symm⟩
  · rintro ⟨rfl, rfl⟩
    rw [if_pos (by simp), List.take_left, List.drop_left]

theorem readFull_append (xs rest : List β) :
    readFull xs.length (xs ++ rest) = some (xs, rest) :=
  readFull_eq_some.mpr ⟨rfl, rfl⟩

/-- What stands at an offset of a stream. -/
theorem take_drop_of_append (pre rest : List β) {field bs : List β} {off k : ℕ}
    (hbs : bs = pre ++ (field ++ rest)) (hoff : pre.length = off) (hk : field.length = k) :
    (bs.drop off).take k = field := by
  rw [hbs, ← hoff, ← hk, List.drop_left, List.take_left]

/-- One value is read, and then another one, in a way that may depend on the first. -/
def thenRead (read : List β → Except ε (α × List β))
    (read' : α → List β → Except ε (γ × List β)) (bs : List β) : Except ε ((α × γ) × List β) :=
  match read bs with
  | .error e => .error e
  | .ok (a, rest) =>
    match read' a rest with
    | .error e => .error e
    | .ok (c, rest') => .ok ((a, c), rest')

/-! ### Exactness -/

/-- A reader accepts what a writer has written of the values with a property, and nothing
else. -/
def Exact (P : α → Prop) (write : α → List β) (read : List β → Except ε (α × List β)) : Prop :=
  ∀ bs a rest, read bs = .ok (a, rest) ↔ P a ∧ bs = write a ++ rest

namespace Exact

variable {P : α → Prop} {write : α → List β} {read : List β → Except ε (α × List β)}

theorem read_write (h : Exact P write read) {a : α} (ha : P a) (rest : List β) :
    read (write a ++ rest) = .ok (a, rest) :=
  (h _ _ _).mpr ⟨ha, rfl⟩

/-- Errors may be told apart in another way. -/
theorem mapError {ε' : Type*} (h : Exact P write read) (f : ε → ε') :
    Exact P write fun bs => (read bs).mapError f := by
  intro bs a rest
  rw [← h bs a rest]
  rcases hread : read bs with e | p <;> simp [Except.mapError, hread]

/-- **One value after another.** -/
theorem andThen {P' : α → γ → Prop} {write' : α → γ → List β}
    {read' : α → List β → Except ε (γ × List β)} (h : Exact P write read)
    (h' : ∀ a, P a → Exact (P' a) (write' a) (read' a)) :
    Exact (fun p : α × γ => P p.1 ∧ P' p.1 p.2) (fun p => write p.1 ++ write' p.1 p.2)
      (thenRead read read') := by
  rintro bs ⟨a, c⟩ rest
  rw [thenRead]
  constructor
  · intro hread
    rcases hfst : read bs with e | ⟨a', mid⟩
    · rw [hfst] at hread
      exact absurd hread (by simp)
    · obtain ⟨ha, hbs⟩ := (h _ _ _).mp hfst
      rw [hfst] at hread
      dsimp only at hread
      rcases hsnd : read' a' mid with e | ⟨c', rest'⟩
      · rw [hsnd] at hread
        exact absurd hread (by simp)
      · obtain ⟨hc, hmid⟩ := (h' a' ha _ _ _).mp hsnd
        rw [hsnd] at hread
        obtain ⟨hpair, rfl⟩ := Prod.mk.inj (Except.ok.inj hread)
        obtain ⟨rfl, rfl⟩ := Prod.mk.inj hpair
        refine ⟨⟨ha, hc⟩, ?_⟩
        rw [hbs, hmid, List.append_assoc]
  · rintro ⟨⟨ha, hc⟩, rfl⟩
    rw [List.append_assoc, h.read_write ha]
    dsimp only
    rw [(h' a ha).read_write hc]

end Exact

/-! ### Reading until the stream is exhausted -/

/-- A reader that takes at least one item when it succeeds. -/
structure Reader (β : Type v) (ε : Type*) (α : Type u) where
  run : List β → Except ε (α × List β)
  shorter : ∀ {bs : List β} {a : α} {rest : List β}, run bs = .ok (a, rest) →
    rest.length < bs.length

namespace Reader

/-- Values are read until nothing is left. -/
def readAll (r : Reader β ε α) (bs : List β) : Except ε (List α) :=
  if bs = [] then .ok []
  else
    match _hrun : r.run bs with
    | .error e => .error e
    | .ok (a, rest) => (r.readAll rest).map (a :: ·)
termination_by bs.length
decreasing_by exact r.shorter _hrun

variable {r : Reader β ε α} {P : α → Prop} {write : α → List β}

theorem readAll_nil (r : Reader β ε α) : r.readAll [] = .ok [] := by
  rw [readAll, if_pos rfl]

theorem readAll_of_ok {bs rest : List β} {a : α} (h : r.run bs = .ok (a, rest)) :
    r.readAll bs = (r.readAll rest).map (a :: ·) := by
  have hne : bs ≠ [] := by
    rintro rfl
    exact absurd (r.shorter h) (by simp)
  rw [readAll, if_neg hne]
  split
  · next e herr => exact absurd (h.symm.trans herr) (by simp)
  · next a' rest' hok =>
    obtain ⟨rfl, rfl⟩ := Prod.mk.inj (Except.ok.inj (h.symm.trans hok))
    rfl

theorem readAll_of_error {bs : List β} {e : ε} (hne : bs ≠ []) (h : r.run bs = .error e) :
    r.readAll bs = .error e := by
  rw [readAll, if_neg hne]
  split
  · next e' herr =>
    rw [Except.error.inj (h.symm.trans herr)]
  · next a rest hok => exact absurd (h.symm.trans hok) (by simp)

/-- **An exact reader reads exactly the streams that its writer writes**, value after
value. -/
theorem readAll_eq_ok (h : Exact P write r.run) {as : List α} : ∀ {bs : List β},
    r.readAll bs = .ok as ↔ (∀ a ∈ as, P a) ∧ bs = as.flatMap write := by
  induction as with
  | nil =>
    intro bs
    by_cases hbs : bs = []
    · subst hbs
      simp [readAll_nil]
    · -- bytes that are left are read or refused, never dropped
      refine ⟨fun hread => ?_, fun hnil => absurd hnil.2 hbs⟩
      cases hrun : r.run bs with
      | error e =>
        rw [readAll_of_error hbs hrun] at hread
        exact absurd hread (by simp)
      | ok p =>
        rw [readAll_of_ok hrun] at hread
        cases hrest : r.readAll p.2 with
        | error e => simp [hrest, Except.map] at hread
        | ok as => simp [hrest, Except.map] at hread
  | cons a as ih =>
    intro bs
    constructor
    · -- the first value is what the reader takes off, and the rest is read after it
      intro hread
      have hbs : bs ≠ [] := by
        rintro rfl
        rw [readAll_nil] at hread
        exact absurd hread (by simp)
      cases hrun : r.run bs with
      | error e =>
        rw [readAll_of_error hbs hrun] at hread
        exact absurd hread (by simp)
      | ok p =>
        obtain ⟨a', rest⟩ := p
        rw [readAll_of_ok hrun] at hread
        cases hrest : r.readAll rest with
        | error e => simp [hrest, Except.map] at hread
        | ok as' =>
          rw [hrest] at hread
          obtain ⟨rfl, rfl⟩ := List.cons.inj (Except.ok.inj hread)
          obtain ⟨hall, htail⟩ := ih.mp hrest
          obtain ⟨ha, hcut⟩ := (h _ _ _).mp hrun
          refine ⟨List.forall_mem_cons.mpr ⟨ha, hall⟩, ?_⟩
          rw [hcut, htail, List.flatMap_cons]
    · rintro ⟨hall, rfl⟩
      obtain ⟨ha, htail⟩ := List.forall_mem_cons.mp hall
      rw [List.flatMap_cons, readAll_of_ok (h.read_write ha _), ih.mpr ⟨htail, rfl⟩]
      rfl

end Reader

/-! ### Numbers, most significant byte first -/

/-- A number in `k` bytes. What does not fit is lost. -/
def beBytes : ℕ → ℕ → List UInt8
  | 0, _ => []
  | k + 1, n => beBytes k (n / 256) ++ [UInt8.ofNat n]

/-- The number some bytes stand for. -/
def beNat (bs : List UInt8) : ℕ := bs.foldl (fun n b => n * 256 + b.toNat) 0

@[simp] theorem length_beBytes (k n : ℕ) : (beBytes k n).length = k := by
  induction k generalizing n with
  | zero => rfl
  | succ k ih => rw [beBytes, List.length_append, ih, List.length_singleton]

theorem beNat_concat (bs : List UInt8) (b : UInt8) :
    beNat (bs ++ [b]) = beNat bs * 256 + b.toNat := by
  rw [beNat, List.foldl_append, ← beNat]
  rfl

theorem beNat_beBytes (k : ℕ) : ∀ n : ℕ, n < 256 ^ k → beNat (beBytes k n) = n := by
  induction k with
  | zero =>
    intro n hn
    have hzero : n = 0 := by simpa using hn
    rw [hzero]
    rfl
  | succ k ih =>
    intro n hn
    have hdiv : n / 256 < 256 ^ k := by
      rw [Nat.pow_succ] at hn
      exact Nat.div_lt_of_lt_mul (by omega)
    rw [beBytes, beNat_concat, ih _ hdiv, UInt8.toNat_ofNat']
    omega

theorem beNat_lt (bs : List UInt8) : beNat bs < 256 ^ bs.length := by
  induction bs using List.reverseRecOn with
  | nil => simp [beNat]
  | append_singleton bs b ih =>
    have hb : b.toNat < 256 := b.toNat_lt
    rw [beNat_concat, List.length_append, List.length_singleton, Nat.pow_succ]
    omega

/-- Bytes are the bytes of the number they stand for. -/
theorem beBytes_beNat (bs : List UInt8) : beBytes bs.length (beNat bs) = bs := by
  induction bs using List.reverseRecOn with
  | nil => rfl
  | append_singleton bs b ih =>
    have hb : b.toNat < 256 := b.toNat_lt
    have hdiv : (beNat bs * 256 + b.toNat) / 256 = beNat bs := by omega
    have hlast : UInt8.ofNat (beNat bs * 256 + b.toNat) = b := by
      refine UInt8.toNat_inj.mp ?_
      rw [UInt8.toNat_ofNat']
      omega
    rw [List.length_append, List.length_singleton, beNat_concat, beBytes, hdiv, ih, hlast]

/-! ### Words -/

/-- A word of two bytes. -/
def be16 (v : UInt16) : List UInt8 := beBytes 2 v.toNat

/-- A word of four bytes. -/
def be32 (v : UInt32) : List UInt8 := beBytes 4 v.toNat

/-- A word of eight bytes. -/
def be64 (v : UInt64) : List UInt8 := beBytes 8 v.toNat

/-- The word that two bytes are. -/
def word16 (bs : List UInt8) : UInt16 := UInt16.ofNat (beNat bs)

/-- The word that four bytes are. -/
def word32 (bs : List UInt8) : UInt32 := UInt32.ofNat (beNat bs)

/-- The word that eight bytes are. -/
def word64 (bs : List UInt8) : UInt64 := UInt64.ofNat (beNat bs)

@[simp] theorem length_be16 (v : UInt16) : (be16 v).length = 2 := length_beBytes 2 _

@[simp] theorem length_be32 (v : UInt32) : (be32 v).length = 4 := length_beBytes 4 _

@[simp] theorem length_be64 (v : UInt64) : (be64 v).length = 8 := length_beBytes 8 _

@[simp] theorem word16_be16 (v : UInt16) : word16 (be16 v) = v := by
  rw [word16, be16, beNat_beBytes 2 _ v.toNat_lt, UInt16.ofNat_toNat]

@[simp] theorem word32_be32 (v : UInt32) : word32 (be32 v) = v := by
  rw [word32, be32, beNat_beBytes 4 _ v.toNat_lt, UInt32.ofNat_toNat]

@[simp] theorem word64_be64 (v : UInt64) : word64 (be64 v) = v := by
  rw [word64, be64, beNat_beBytes 8 _ v.toNat_lt, UInt64.ofNat_toNat]

theorem toNat_word16 {bs : List UInt8} (h : bs.length = 2) : (word16 bs).toNat = beNat bs := by
  have hlt := beNat_lt bs
  rw [h] at hlt
  exact UInt16.toNat_ofNat_of_lt' hlt

theorem toNat_word32 {bs : List UInt8} (h : bs.length = 4) : (word32 bs).toNat = beNat bs := by
  have hlt := beNat_lt bs
  rw [h] at hlt
  exact UInt32.toNat_ofNat_of_lt' hlt

theorem toNat_word64 {bs : List UInt8} (h : bs.length = 8) : (word64 bs).toNat = beNat bs := by
  have hlt := beNat_lt bs
  rw [h] at hlt
  exact UInt64.toNat_ofNat_of_lt' hlt

theorem be16_word16 {bs : List UInt8} (h : bs.length = 2) : be16 (word16 bs) = bs := by
  rw [be16, toNat_word16 h, ← h, beBytes_beNat]

theorem be32_word32 {bs : List UInt8} (h : bs.length = 4) : be32 (word32 bs) = bs := by
  rw [be32, toNat_word32 h, ← h, beBytes_beNat]

theorem be64_word64 {bs : List UInt8} (h : bs.length = 8) : be64 (word64 bs) = bs := by
  rw [be64, toNat_word64 h, ← h, beBytes_beNat]

end Codec
