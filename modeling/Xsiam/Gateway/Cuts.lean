import Xsiam.Gateway.Reading

/-!
# Streams and the cuts between reads

A connection in a run of reads stands where the messages of the bytes received have brought it
(`Xsiam.Gateway.standing_of_reach`), as long as all of the reads are careful. So any two careful runs
over one stream end alike, however they cut it, and the lines of a text give one record each
(`Xsiam.Gateway.cuts_harmless`).

Reads that are not careful make a difference. Text of 36 bytes without a newline or a priority is
taken for an unknown protocol and the connection dropped, though a read that had brought the
newline with it would have been a line (`Xsiam.Gateway.not_cuts_harmless`).
-/

namespace Xsiam

namespace Gateway

open Go (str)

open Framing Run

variable {cfg : Config} {lim : BufferConfig} {c : ℕ} {conn : Conn}

/-! ### Sizes -/

/-- The number of chunks that a buffer grows to at most: as long as one more is within the limit, and the
size within an `int`. -/
def BufferConfig.maxChunks (lim : BufferConfig) : ℕ :=
  max 1 (min ((lim.bufferSize.toNat - lim.chunkSize.toNat) / lim.chunk.toNat + 1)
    ((2 ^ 31 - 1) / lim.chunk.toNat))

/-- The size that a buffer grows to at most. -/
def BufferConfig.maxSize (lim : BufferConfig) : ℕ := lim.chunk.toNat * lim.maxChunks

theorem BufferConfig.chunk_eq_bmod (lim : BufferConfig) :
    lim.chunk = (lim.chunkSize.toNat : ℤ).bmod (2 ^ 32) := by
  have hcast : lim.chunk = (lim.chunkSize.toUInt32.toNat : ℤ).bmod (2 ^ 32) :=
    BitVec.toInt_eq_toNat_bmod ..
  rw [hcast, UInt64.toNat_toUInt32, Int.natCast_mod]
  exact Int.emod_bmod ..

/-- What a size is as an `int`. -/
theorem BufferConfig.chunk_cases (lim : BufferConfig) :
    (lim.chunk = (lim.chunkSize.toNat % 4294967296 : ℕ) ∧ lim.chunkSize.toNat % 4294967296 < 2147483648) ∨
      (lim.chunk = (lim.chunkSize.toNat % 4294967296 : ℕ) - 4294967296 ∧
        2147483648 ≤ lim.chunkSize.toNat % 4294967296) := by
  have hmod : ((2 ^ 32 : ℕ) : ℤ) = 4294967296 := by norm_num
  have hhalf : (((2 ^ 32 : ℕ) : ℤ) + 1) / 2 = 2147483648 := by norm_num
  rw [chunk_eq_bmod, Int.bmod_def, hhalf, hmod]
  split_ifs with hlt
  · left
    omega
  · right
    omega

theorem BufferConfig.chunk_lt (lim : BufferConfig) : lim.chunk.toNat < 2 ^ 31 := by
  rcases lim.chunk_cases with ⟨h, hlt⟩ | ⟨h, hle⟩
  · omega
  · omega

theorem BufferConfig.chunk_eq (h : lim.chunkSize.toNat < 2 ^ 31) : lim.chunk = lim.chunkSize.toNat := by
  rcases lim.chunk_cases with ⟨heq, -⟩ | ⟨-, hlt⟩
  · rw [heq, Nat.mod_eq_of_lt (by omega)]
  · omega

/-- A size that is an `int` and a chunk are a `size_t`, where the chunk is positive as an `int`. -/
theorem BufferConfig.toNat_add_chunkSize (hchunk : 0 < lim.chunk.toNat) {n : ℕ} (hn : n < 2 ^ 31) :
    (UInt64.ofNat n + lim.chunkSize).toNat = n + lim.chunkSize.toNat := by
  have hsize : lim.chunkSize.toNat < 2 ^ 64 := lim.chunkSize.toNat_lt
  rw [UInt64.toNat_add, UInt64.toNat_ofNat', Nat.mod_eq_of_lt (by omega : n < 2 ^ 64), Nat.mod_eq_of_lt]
  rcases lim.chunk_cases with ⟨h, hlt⟩ | ⟨h, hle⟩
  · omega
  · omega

/-- Sizes of less than two gigabytes that are a number of chunks are the limit. -/
theorem BufferConfig.maxSize_eq (hpos : 0 < lim.bufferSize.toNat) (hint : lim.bufferSize.toNat < 2 ^ 31)
    (h : lim.chunkSize.toNat ∣ lim.bufferSize.toNat) : lim.maxSize = lim.bufferSize.toNat := by
  obtain ⟨n, hn⟩ := h
  have hchunk : 0 < lim.chunkSize.toNat := Nat.pos_of_ne_zero fun hzero => by simp [hn, hzero] at hpos
  have hone : 1 ≤ n := Nat.pos_of_ne_zero fun hzero => by simp [hn, hzero] at hpos
  have hle : lim.chunkSize.toNat ≤ lim.bufferSize.toNat := hn ▸ Nat.le_mul_of_pos_right _ hone
  have hsame : lim.chunk.toNat = lim.chunkSize.toNat := by
    rw [chunk_eq (by omega), Int.toNat_natCast]
  have hlimit : (lim.bufferSize.toNat - lim.chunkSize.toNat) / lim.chunkSize.toNat + 1 = n := by
    rw [hn, ← Nat.mul_sub_one, Nat.mul_div_cancel_left _ hchunk]
    omega
  have hroom : n ≤ (2 ^ 31 - 1) / lim.chunkSize.toNat := by
    rw [Nat.le_div_iff_mul_le hchunk, Nat.mul_comm, ← hn]
    omega
  rw [maxSize, maxChunks, hsame, hlimit, min_eq_left hroom, max_eq_right hone, hn]

/-- A buffer of some chunks. -/
structure Buffer.Sized (lim : BufferConfig) (b : Buffer) : Prop where
  chunks : ∃ n, 1 ≤ n ∧ n ≤ lim.maxChunks ∧ b.size = lim.chunk.toNat * n
  fits : b.data.length ≤ b.size

theorem Buffer.data_of_grow {b b' : Buffer} (h : b.grow lim = some b') : b'.data = b.data := by
  rw [Buffer.grow] at h
  split_ifs at h
  all_goals rw [← Option.some.inj h]

/-- How many chunks there may be. -/
theorem BufferConfig.succ_le_maxChunks_iff (hchunk : 0 < lim.chunk.toNat) {n : ℕ} (hn : 1 ≤ n) :
    n + 1 ≤ lim.maxChunks ↔ lim.chunk.toNat * n + lim.chunkSize.toNat ≤ lim.bufferSize.toNat ∧
      lim.chunk.toNat * n + lim.chunk.toNat < 2 ^ 31 := by
  have hpos : 0 < lim.chunk.toNat * n := Nat.mul_pos hchunk hn
  have hone : ¬n + 1 ≤ 1 := by omega
  rw [maxChunks, le_max_iff, or_iff_right hone, le_min_iff, Nat.add_le_add_iff_right,
    Nat.le_div_iff_mul_le hchunk, Nat.le_div_iff_mul_le hchunk, Nat.mul_comm n, Nat.mul_comm (n + 1),
    Nat.mul_succ]
  omega

namespace Buffer.Sized

variable {b b' : Buffer}

theorem size_le (h : b.Sized lim) : b.size ≤ lim.maxSize := by
  obtain ⟨n, -, hn, hsize⟩ := h.chunks
  rw [hsize, BufferConfig.maxSize]
  exact Nat.mul_le_mul_left _ hn

theorem length_le (h : b.Sized lim) : b.data.length ≤ lim.maxSize := h.fits.trans h.size_le

/-- A buffer is no larger than an `int`. -/
theorem size_lt (h : b.Sized lim) : b.size < 2 ^ 31 := by
  refine h.size_le.trans_lt ?_
  rw [BufferConfig.maxSize]
  have hchunk := lim.chunk_lt
  have hroom : lim.chunk.toNat * ((2 ^ 31 - 1) / lim.chunk.toNat) ≤ 2 ^ 31 - 1 := Nat.mul_div_le ..
  rw [BufferConfig.maxChunks, ← Nat.mul_max_mul_left]
  refine max_lt (by omega) ((Nat.mul_le_mul_left _ (min_le_right ..)).trans_lt ?_)
  omega

/-- A full buffer that does not get one more chunk is as large as any. -/
theorem length_of_full (h : b.Sized lim) (hfull : b.size - b.data.length < 1)
    (hmore : ¬(0 < lim.chunk.toNat ∧
      UInt64.ofNat b.size + lim.chunkSize ≤ lim.bufferSize ∧ b.size + lim.chunk.toNat < 2 ^ 31)) :
    b.data.length = lim.maxSize := by
  have hfits := h.fits
  have hlen : b.data.length = b.size := by omega
  have hint := h.size_lt
  obtain ⟨n, hone, hn, hsize⟩ := h.chunks
  rw [hlen, hsize, BufferConfig.maxSize]
  rcases Nat.eq_zero_or_pos lim.chunk.toNat with hzero | hchunk
  · rw [hzero, Nat.zero_mul, Nat.zero_mul]
  · have hlast : ¬n + 1 ≤ lim.maxChunks := by
      rw [BufferConfig.succ_le_maxChunks_iff hchunk hone, ← hsize,
        ← BufferConfig.toNat_add_chunkSize hchunk hint]
      exact fun hnext => hmore ⟨hchunk, UInt64.le_iff_toNat_le.mpr hnext.1, hnext.2⟩
    rw [le_antisymm hn (Nat.lt_succ_iff.mp (Nat.not_le.mp hlast))]

/-- A buffer that may not grow is as large as any. -/
theorem length_of_grow (h : b.Sized lim) (hgrow : b.grow lim = none) :
    b.data.length = lim.maxSize := by
  rw [Buffer.grow] at hgrow
  split_ifs at hgrow with hfull hlimit
  exact h.length_of_full hfull fun hmore => absurd hlimit (UInt64.not_lt.mpr hmore.2.1)

/-- And so is one that is still full when it was to grow. -/
theorem length_of_still_full (h : b.Sized lim) (hgrow : b.grow lim = some b')
    (hfull : b'.size - b'.data.length < 1) : b.data.length = lim.maxSize := by
  rw [Buffer.grow] at hgrow
  split_ifs at hgrow with hfull' hlimit hroom
  · obtain rfl := Option.some.inj hgrow
    have hgrown : (b.size + lim.chunk).toNat - b.data.length < 1 := hfull
    have hfits := h.fits
    refine h.length_of_full hfull' fun hmore => ?_
    omega
  · refine h.length_of_full hfull' fun hmore => hroom ?_
    omega
  · obtain rfl := Option.some.inj hgrow
    exact absurd hfull hfull'

/-- A buffer grows by a chunk, if it does. -/
theorem grow (h : b.Sized lim) (hgrow : b.grow lim = some b') : b'.Sized lim := by
  rw [Buffer.grow] at hgrow
  have hfits := h.fits
  have hint := h.size_lt
  split_ifs at hgrow with hfull hlimit hroom
  · obtain rfl := Option.some.inj hgrow
    obtain ⟨n, hone, hn, hsize⟩ := h.chunks
    by_cases hchunk : 0 < lim.chunk.toNat
    · have hgrown : (b.size + lim.chunk).toNat = b.size + lim.chunk.toNat := by omega
      have hnext : n + 1 ≤ lim.maxChunks := by
        rw [BufferConfig.succ_le_maxChunks_iff hchunk hone, ← hsize,
          ← BufferConfig.toNat_add_chunkSize hchunk hint]
        exact ⟨UInt64.le_iff_toNat_le.mp (UInt64.not_lt.mp hlimit), by omega⟩
      refine ⟨⟨n + 1, Nat.le_add_left _ _, hnext, ?_⟩, ?_⟩
      · rw [hgrown, Nat.mul_succ, ← hsize]
      · exact hfits.trans (hgrown ▸ Nat.le_add_right _ _)
    · -- without chunks there is no size either
      have hzero : lim.chunk.toNat = 0 := by omega
      rw [hzero, Nat.zero_mul] at hsize
      omega
  · obtain rfl := Option.some.inj hgrow
    exact h
  · obtain rfl := Option.some.inj hgrow
    exact h

end Buffer.Sized

theorem sized_opened (plugin : State) : (Session.opened lim plugin).buf.Sized lim :=
  ⟨⟨1, le_rfl, le_max_left .., (Nat.mul_one _).symm⟩, Nat.zero_le _⟩

/-! ### Reads -/

/-- A read that brings something, and of which no call fails. -/
def Read.Plain (r : Read) : Prop := r.bytes ≠ [] ∧ ∀ n, r.ans n = {}

/-- A read that leaves the buffer such that no cut in it makes a difference. -/
def CarefulRead (lim : BufferConfig) (c : ℕ) (s : Session) (r : Read) : Prop :=
  s.Open c → ∀ buf, s.buf.grow lim = some buf → CarefulBuffer (buf.data ++ r.bytes)

/-- Where a connection stands that has received some messages: it is open, and what is left over
is in its buffer, or it is gone. -/
inductive Standing (cfg : Config) (lim : BufferConfig) (c : ℕ) (s₀ : State) (s : Session)
    (ms : List Input) : Option (List UInt8) → Prop where
  | reading : s.Open c → s.buf.Sized lim →
      Alike s.plugin ((s₀.takeAll cfg c ms).settle c s.buf.data) →
      Standing cfg lim c s₀ s ms (some s.buf.data)
  | gone : s.plugin.conns.get c = none →
      Alike s.plugin (connDel cfg (s₀.takeAll cfg c ms) c) → Standing cfg lim c s₀ s ms none

theorem get_connDel (s : State) : (connDel cfg s c).conns.get c = none := by
  rw [connDel]
  show (Collection.erase _ c).get c = none
  rw [Collection.get_erase, if_pos rfl]

theorem get_settle {s : State} (hget : s.conns.get c = some conn) (data : List UInt8) :
    ∃ conn', (s.settle c data).conns.get c = some conn' := by
  rw [State.settle]
  cases tagsOf data with
  | none => exact ⟨conn, hget⟩
  | some tags => exact ⟨_, get_setConn _ hget⟩

theorem takeAll_append (s : State) (ms ms' : List Input) :
    s.takeAll cfg c (ms ++ ms') = (s.takeAll cfg c ms).takeAll cfg c ms' := List.foldl_append

theorem connDel_settle {s : State} (hget : s.conns.get c = some conn) (data : List UInt8) :
    Alike (connDel cfg (s.settle c data) c) (connDel cfg s c) := by
  rw [State.settle]
  cases tagsOf data with
  | none => exact .refl _
  | some tags => exact connDel_setConn hget rfl

/-- What a connection is settled as does not matter once there is more. -/
theorem settle_takeAll_settle {s : State} {max : ℕ} (hget : s.conns.get c = some conn)
    {data v rest : List UInt8} {ms : List Input} (hreads : Reads (finder max) (data ++ v) ms (some rest)) :
    Alike (((s.settle c data).takeAll cfg c ms).settle c rest) ((s.takeAll cfg c ms).settle c rest) := by
  cases ms with
  | nil =>
    rw [eq_of_reads_nil hreads]
    exact settle_settle hget data v
  | cons i is => exact (takeAll_settle hget data i is).settle c rest

theorem connDel_takeAll_settle {s : State} (hget : s.conns.get c = some conn) (data : List UInt8)
    (ms : List Input) :
    Alike (connDel cfg ((s.settle c data).takeAll cfg c ms) c) (connDel cfg (s.takeAll cfg c ms) c) := by
  cases ms with
  | nil => exact connDel_settle hget data
  | cons i is => exact (takeAll_settle hget data i is).connDel c

section Steps

variable {s₀ : State} {s s' : Session} {r : Read} {w : List UInt8} {ms : List Input}
  {rest : Option (List UInt8)}

/-- What a read is: it comes too late, or the buffer is full, or it is put into the buffer, which
is then looked at. -/
theorem connEvent_cases (hplain : r.Plain) (h : connEvent cfg lim c s r = some s') :
    (s.plugin.conns.get c = none ∧ s' = s) ∨
    (∃ conn, s.plugin.conns.get c = some conn ∧
      ((s.buf.grow lim = none ∧
          s' = { s with plugin := connDel cfg { s.plugin with now := r.now } c }) ∨
        ∃ buf, s.buf.grow lim = some buf ∧
          (buf.data.length ≤ buf.size → (buf.data ++ r.bytes).length ≤ buf.size) ∧
          ∃ p, p = processBuffer cfg c r.ans { s.plugin with now := r.now } conn (buf.data ++ r.bytes) ∧
          ((p.2 = none ∧ s' = ⟨connDel cfg p.1 c, { buf with data := buf.data ++ r.bytes }⟩) ∨
            ∃ k, p.2 = some k ∧
              s' = ⟨p.1, { buf with data := consumeBytes (buf.data ++ r.bytes) k }⟩))) := by
  rw [connEvent] at h
  dsimp only at h
  cases hget : s.plugin.conns.get c with
  | none =>
    rw [hget] at h
    exact Or.inl ⟨rfl, (Option.some.inj h).symm⟩
  | some conn =>
    rw [hget] at h
    refine Or.inr ⟨conn, rfl, ?_⟩
    cases hgrow : s.buf.grow lim with
    | none =>
      rw [hgrow] at h
      exact Or.inl ⟨rfl, (Option.some.inj h).symm⟩
    | some buf =>
      rw [hgrow] at h
      dsimp only at h
      split_ifs at h with hspace hempty
      · -- a plain read has bytes
        exact absurd hempty hplain.1
      · refine Or.inr ⟨buf, rfl, ?_, _, rfl, ?_⟩
        · rw [List.length_append]
          intro hfits
          omega
        · split at h
          · next hp => exact Or.inl ⟨hp, (Option.some.inj h).symm⟩
          · next k hp => exact Or.inr ⟨k, hp, (Option.some.inj h).symm⟩

theorem consumeBytes_eq {data : List UInt8} {k : ℕ} (hk : k ≤ data.length) :
    consumeBytes data k = data.drop k := by
  rw [consumeBytes]
  split_ifs with hpos
  · rfl
  · have hzero : k = 0 := by
      by_contra hne
      exact hpos ⟨Nat.pos_of_ne_zero hne, hk⟩
    rw [hzero, List.drop_zero]

/-- **A careful read brings the connection where its messages do.** -/
theorem Standing.step (h₀ : s₀.conns.get c = some conn)
    (hreads : Reads (finder lim.maxSize) w ms rest) (h : Standing cfg lim c s₀ s ms rest)
    (hstep : connEvent cfg lim c s r = some s') (hplain : r.Plain) (hcareful : CarefulRead lim c s r) :
    ∃ ms' rest', Reads (finder lim.maxSize) (w ++ r.bytes) ms' rest' ∧
      Standing cfg lim c s₀ s' ms' rest' := by
  cases h with
  | gone hnone halike =>
    rcases connEvent_cases hplain hstep with ⟨-, rfl⟩ | ⟨conn', hget, -⟩
    · exact ⟨ms, none, hreads.append_none _, .gone hnone halike⟩
    · exact absurd (hnone.symm.trans hget) (by simp)
  | reading hopen hsized halike =>
    obtain ⟨conn₁, h₁⟩ := @get_takeAll cfg c ms s₀ conn h₀
    rcases connEvent_cases hplain hstep with ⟨hnone, -⟩ | ⟨conn', hget, hcases⟩
    · obtain ⟨conn', hget⟩ := hopen
      exact absurd (hnone.symm.trans hget) (by simp)
    have hnow : Alike { s.plugin with now := r.now } ((s₀.takeAll cfg c ms).settle c s.buf.data) :=
      (Alike.tick s.plugin r.now).trans halike
    rcases hcases with ⟨hgrow, rfl⟩ | ⟨buf, hgrow, hspace, p, hp, hcases⟩
    · -- the buffer is full of what is no message, and the connection ends
      have hmore : look s.buf.data = .more := by
        rw [← find_of_length_le hsized.length_le]
        exact hreads.rest.1
      have hstop := find_of_full (hsized.length_of_grow hgrow) hmore hplain.1
      refine ⟨ms ++ [], none, hreads.append (.stop (m := none) hstop), .gone (get_connDel _) ?_⟩
      rw [List.append_nil]
      exact (hnow.connDel c).trans (connDel_settle h₁ _)
    · have hsized' := hsized.grow hgrow
      have hdata := Buffer.data_of_grow hgrow
      have hfits := hspace hsized'.fits
      have hread : BufferRead cfg c lim.maxSize (buf.data ++ r.bytes) { s.plugin with now := r.now } p := by
        rw [hp]
        exact reads_processBuffer hplain.2 (hfits.trans hsized'.size_le) hget (hcareful ⟨conn', hget⟩ buf hgrow)
      obtain ⟨ms', ⟨k, hk, hkle, hreads', halike'⟩ | ⟨hnone, hreads', halike'⟩⟩ := hread
      · -- the connection goes on, with what is left over
        rcases hcases with ⟨hpnone, -⟩ | ⟨k', hk', rfl⟩
        · exact absurd (hpnone.symm.trans hk) (by simp)
        obtain rfl := Option.some.inj (hk.symm.trans hk')
        rw [hdata] at hreads' halike' hkle hfits ⊢
        rw [consumeBytes_eq hkle]
        have hsettled := halike'.trans (((hnow.takeAll ms').settle c _).trans
          (settle_takeAll_settle h₁ hreads'))
        rw [← takeAll_append] at hsettled
        refine ⟨ms ++ ms', some _, hreads.append hreads', .reading ?_ ⟨hsized'.chunks, ?_⟩ hsettled⟩
        · obtain ⟨conn₂, h₂⟩ := @get_takeAll cfg c (ms ++ ms') s₀ conn h₀
          obtain ⟨conn₃, h₃⟩ := get_settle h₂ ((s.buf.data ++ r.bytes).drop k)
          exact ⟨conn₃, (hsettled.conns c).trans h₃⟩
        · show ((s.buf.data ++ r.bytes).drop k).length ≤ buf.size
          rw [List.length_drop]
          omega
      · rcases hcases with ⟨-, rfl⟩ | ⟨k', hk', -⟩
        · -- what is left over is no message
          rw [hdata] at hreads'
          refine ⟨ms ++ ms', none, hreads.append hreads', .gone (get_connDel _) ?_⟩
          rw [takeAll_append]
          exact halike'.trans (((hnow.takeAll ms').connDel c).trans (connDel_takeAll_settle h₁ _ ms'))
        · exact absurd (hnone.symm.trans hk') (by simp)

end Steps

/-! ### Runs -/

/-- What the reads of a run have brought. -/
def received (hist : History Session Read) : List UInt8 := hist.reverse.flatMap fun p => p.2.bytes

theorem received_cons (s : Session) (r : Read) (hist : History Session Read) :
    received ((s, r) :: hist) = received hist ++ r.bytes := by
  rw [received, List.reverse_cons, List.flatMap_append, List.flatMap_singleton, received]

section Runs

variable {s₀ : State} {hist hist₁ hist₂ : History Session Read} {s s₁ s₂ : Session}

theorem standing_opened (h₀ : s₀.conns.get c = some conn) :
    Standing cfg lim c s₀ (.opened lim s₀) [] (some []) := by
  refine .reading ⟨conn, h₀⟩ (sized_opened s₀) ?_
  exact .refl s₀

/-- **In a careful run the connection stands where the messages received have brought it.** -/
theorem standing_of_reach (h₀ : s₀.conns.get c = some conn)
    (h : Reach (connEvent cfg lim c) Any (.opened lim s₀) hist s)
    (hplain : ∀ p ∈ hist, p.2.Plain) (hcareful : ∀ p ∈ hist, CarefulRead lim c p.1 p.2) :
    ∃ ms rest, Reads (finder lim.maxSize) (received hist) ms rest ∧ Standing cfg lim c s₀ s ms rest := by
  induction h with
  | start => exact ⟨[], some [], .more (find_of_length_le (Nat.zero_le _)), standing_opened h₀⟩
  | @next hist s s' r _ _ hstep ih =>
    obtain ⟨hplain, hplains⟩ := List.forall_mem_cons.mp hplain
    obtain ⟨hcareful, hcarefuls⟩ := List.forall_mem_cons.mp hcareful
    obtain ⟨ms, rest, hreads, hstanding⟩ := ih hplains hcarefuls
    rw [received_cons]
    exact hstanding.step h₀ hreads hstep hplain hcareful

/-- **Two careful runs over one stream end alike.** -/
theorem alike_of_careful (h₀ : s₀.conns.get c = some conn)
    (h₁ : Reach (connEvent cfg lim c) Any (.opened lim s₀) hist₁ s₁)
    (h₂ : Reach (connEvent cfg lim c) Any (.opened lim s₀) hist₂ s₂)
    (hbytes : received hist₁ = received hist₂)
    (hplain₁ : ∀ p ∈ hist₁, p.2.Plain) (hplain₂ : ∀ p ∈ hist₂, p.2.Plain)
    (hcareful₁ : ∀ p ∈ hist₁, CarefulRead lim c p.1 p.2)
    (hcareful₂ : ∀ p ∈ hist₂, CarefulRead lim c p.1 p.2) : Alike s₁.plugin s₂.plugin := by
  obtain ⟨ms₁, rest₁, hreads₁, hstanding₁⟩ := standing_of_reach h₀ h₁ hplain₁ hcareful₁
  obtain ⟨ms₂, rest₂, hreads₂, hstanding₂⟩ := standing_of_reach h₀ h₂ hplain₂ hcareful₂
  rw [hbytes] at hreads₁
  obtain ⟨rfl, rfl⟩ := hreads₁.unique hreads₂
  cases hstanding₁ with
  | gone _ halike₁ =>
    cases hstanding₂ with
    | gone _ halike₂ => exact halike₁.trans halike₂.symm
  | reading _ _ halike₁ =>
    generalize hdata : some s₁.buf.data = rest at hstanding₂
    cases hstanding₂ with
    | gone _ _ => exact absurd hdata (by simp)
    | reading _ _ halike₂ =>
      rw [Option.some.inj hdata] at halike₁
      exact halike₁.trans halike₂.symm

end Runs

/-! ### Lines -/

/-- A line of text, without its newline: the start of it is recognised, it fits the buffer, and its
length the cast. -/
structure TextLine (lim : BufferConfig) (line : List UInt8) : Prop where
  newline : (0x0A : UInt8) ∉ line
  text : looksLikeSyslog (line ++ [0x0A]) = true
  fits : line.length + 1 ≤ lim.maxSize
  short : (trimCR line).length < 2 ^ 16

theorem look_part {tail more : List UInt8} (h : TextLine lim (tail ++ more)) : look tail = .more := by
  have htext := h.text
  rw [List.append_assoc] at htext
  have hnone : (0x0A : UInt8) ∉ tail := fun hmem => h.newline (List.mem_append_left _ hmem)
  rw [look, looksLikeWzcp_eq_false_of_part htext, if_neg (by simp)]
  split_ifs with hsyslog hcontrol
  · rw [lookLine, firstLine_eq_none hnone]
  · -- a text does not begin with a control character
    exfalso
    obtain ⟨hlong, hfirst⟩ := hcontrol
    rw [wzcpHeaderSize] at hlong
    have hne : tail ≠ [] := by
      rintro rfl
      simp at hlong
    obtain ⟨v', htake, -⟩ := take_append_exists tail (more ++ [0x0A]) 128
    rw [looksLikeSyslog, if_neg hne] at hsyslog
    rw [looksLikeSyslog, if_neg (by simp [hne]), hasPriority_append (by omega), htake,
      newlineFirst_eq_false (controlFirst_append hfirst v')] at htext
    split_ifs at hsyslog htext
    exact hsyslog rfl
  · rfl

theorem syslogLines_textLine {line : List UInt8} (h : TextLine lim line) :
    syslogLines (line ++ [0x0A]) = [trimCR line].filter (· ≠ []) := by
  rw [syslogLines, completeLines_of_newline h.newline, List.nil_append]
  show (([trimCR line]).filter (· ≠ [])).map castLine = _
  have hcast : castLine (trimCR line) = trimCR line := by
    rw [castLine, Nat.mod_eq_of_lt h.short, List.take_length]
  rw [List.filter_singleton]
  cases decide (trimCR line ≠ []) with
  | true => exact congrArg ([·]) hcast
  | false => rfl

theorem records_hand (s : State) (records : List LogRecord) :
    (s.hand records).handed.flatten = s.handed.flatten ++ records := by
  rw [State.hand]
  split_ifs with hempty
  · rw [hempty, List.append_nil]
  · simp

/-- The records of some lines. -/
theorem records_takeAll_lines {s : State} (hget : s.conns.get c = some conn)
    {lines : List (List UInt8)} (hlines : ∀ line ∈ lines, TextLine lim line) :
    (s.takeAll cfg c (lines.map lineInput)).handed.flatten = s.handed.flatten ++
      ((lines.map trimCR).filter (· ≠ [])).map
        (syslogLogRecord c (conn.classify (str "syslog") (str "device"))) := by
  have hclassified : (s.setConn c fun conn => conn.classify textTags.1 textTags.2).conns.get c =
      some (conn.classify textTags.1 textTags.2) := get_setConn _ hget
  have hsame : (s.takeAll cfg c (lines.map lineInput)).handed.flatten =
      ((s.setConn c fun conn => conn.classify textTags.1 textTags.2).takeAll cfg c
        (lines.map lineInput)).handed.flatten := by
    cases lines with
    | nil => rfl
    | cons line lines =>
      exact (((take_setConn_classify hget textTags (lineInput line)).takeAll
        (lines.map lineInput)).records).symm
  rw [hsame, (takeAll_lines hclassified ⟨rfl, rfl⟩).records, records_hand]
  refine congrArg (s.handed.flatten ++ ·) ?_
  clear hsame
  induction lines with
  | nil => rfl
  | cons line lines ih =>
    obtain ⟨hline, hlines⟩ := List.forall_mem_cons.mp hlines
    have hone : textRecords c (conn.classify textTags.1 textTags.2) (line ++ [0x0A]) =
        ([trimCR line].filter (· ≠ [])).map
          (syslogLogRecord c (conn.classify (str "syslog") (str "device"))) := by
      rw [textRecords, syslogLines_textLine hline]
      rfl
    rw [List.flatMap_cons, ih hlines, hone, ← List.map_append, ← List.filter_append]
    rfl

section Lines

variable {s₀ : State} {hist hist₁ hist₂ : History Session Read} {s s₁ s₂ : Session}

/-- **A text that is read carefully gives one record for each line**, with the line as its message. -/
theorem records_of_text (h₀ : s₀.conns.get c = some conn)
    (h : Reach (connEvent cfg lim c) Any (.opened lim s₀) hist s)
    (hplain : ∀ p ∈ hist, p.2.Plain) (hcareful : ∀ p ∈ hist, CarefulRead lim c p.1 p.2)
    {lines : List (List UInt8)} {tail more : List UInt8} (hbytes : received hist = unlines lines ++ tail)
    (hlines : ∀ line ∈ lines, TextLine lim line) (htail : TextLine lim (tail ++ more)) :
    s.Open c ∧ s.plugin.handed.flatten = s₀.handed.flatten ++
      ((lines.map trimCR).filter (· ≠ [])).map
        (syslogLogRecord c (conn.classify (str "syslog") (str "device"))) := by
  obtain ⟨ms, rest, hreads, hstanding⟩ := standing_of_reach h₀ h hplain hcareful
  have hlen : tail.length ≤ lim.maxSize := by
    have hfits := htail.fits
    rw [List.length_append] at hfits
    omega
  have hrest : Reads (finder lim.maxSize) tail [] (some tail) :=
    .more ((find_of_length_le hlen).trans (look_part htail))
  have htext := reads_lines (fun line hline =>
    ⟨(hlines line hline).newline, (hlines line hline).text, (hlines line hline).fits⟩) hrest
  rw [hbytes] at hreads
  obtain ⟨rfl, rfl⟩ := hreads.unique htext
  generalize hdata : some tail = rest at hstanding
  cases hstanding with
  | gone _ _ => exact absurd hdata (by simp)
  | reading hopen _ halike =>
    refine ⟨hopen, ?_⟩
    have hsettle : ∀ (s : State) (data : List UInt8), (s.settle c data).handed = s.handed := by
      intro s data
      rw [State.settle]
      cases tagsOf data with
      | none => rfl
      | some tags => rfl
    rw [halike.records, hsettle, records_takeAll_lines h₀ hlines]

/-- **Cuts in careful runs are harmless**: two such runs over one stream end alike, and a text gives
one record for each of its lines that is not empty. -/
theorem cuts_harmless (h₀ : s₀.conns.get c = some conn)
    (h₁ : Reach (connEvent cfg lim c) Any (.opened lim s₀) hist₁ s₁)
    (h₂ : Reach (connEvent cfg lim c) Any (.opened lim s₀) hist₂ s₂)
    (hbytes : received hist₁ = received hist₂)
    (hplain₁ : ∀ p ∈ hist₁, p.2.Plain) (hplain₂ : ∀ p ∈ hist₂, p.2.Plain)
    (hcareful₁ : ∀ p ∈ hist₁, CarefulRead lim c p.1 p.2)
    (hcareful₂ : ∀ p ∈ hist₂, CarefulRead lim c p.1 p.2) :
    Alike s₁.plugin s₂.plugin ∧
      ∀ lines tail more, received hist₁ = unlines lines ++ tail →
        (∀ line ∈ lines, TextLine lim line) → TextLine lim (tail ++ more) →
        s₁.Open c ∧ s₁.plugin.handed.flatten = s₀.handed.flatten ++
          ((lines.map trimCR).filter (· ≠ [])).map
            (syslogLogRecord c (conn.classify (str "syslog") (str "device"))) :=
  ⟨alike_of_careful h₀ h₁ h₂ hbytes hplain₁ hplain₂ hcareful₁ hcareful₂,
    fun _ _ _ htext hlines htail => records_of_text h₀ h₁ hplain₁ hcareful₁ htext hlines htail⟩

end Lines

/-! ### Two runs -/

/-- A plugin with a connection that was accepted. -/
def accepted : State := { State.init 0 with conns := Collection.empty.insert {} }

theorem cuts_harmless_ab :
    ∃ hist₁ s₁ hist₂ s₂,
      replay (connEvent {} {} 0) [] (.opened {} accepted) [⟨5, [0x61, 0x62, 0x0A], fun _ => {}⟩] =
        some (hist₁, s₁) ∧
      replay (connEvent {} {} 0) [] (.opened {} accepted)
        [⟨5, [0x61], fun _ => {}⟩, ⟨6, [0x62, 0x0A], fun _ => {}⟩] = some (hist₂, s₂) ∧
      s₁.plugin.handed.flatten.length = 1 ∧ Alike s₁.plugin s₂.plugin := by
  obtain ⟨hist₁, s₁, hist₂, s₂, r, hrun₁, hrun₂, hone, hhist₁, hhist₂, hdata⟩ :
      ∃ hist₁ s₁ hist₂ s₂ r,
      replay (connEvent {} {} 0) [] (.opened {} accepted) [⟨5, [0x61, 0x62, 0x0A], fun _ => {}⟩] =
        some (hist₁, s₁) ∧
      replay (connEvent {} {} 0) [] (.opened {} accepted)
        [⟨5, [0x61], fun _ => {}⟩, ⟨6, [0x62, 0x0A], fun _ => {}⟩] = some (hist₂, s₂) ∧
      s₁.plugin.handed.flatten.length = 1 ∧
      hist₁ = [(.opened {} accepted, ⟨5, [0x61, 0x62, 0x0A], fun _ => {}⟩)] ∧
      hist₂ = [(r, ⟨6, [0x62, 0x0A], fun _ => {}⟩), (.opened {} accepted, ⟨5, [0x61], fun _ => {}⟩)] ∧
      r.buf.data = [0x61] :=
    ⟨_, _, _, _, _, rfl, rfl, rfl, rfl, rfl, rfl⟩
  -- the line is read as a whole in the end, and before that too short to say
  have hline : CarefulBuffer [0x61, 0x62, 0x0A] := by
    rw [CarefulBuffer, if_neg (by decide), if_pos (by decide)]
    exact ⟨by decide, by decide, Or.inl (by decide)⟩
  have hpart : CarefulBuffer [0x61] := by
    rw [CarefulBuffer, if_neg (by decide), if_neg (by decide)]
    exact Or.inl (by decide)
  have hread : ∀ (s : Session) (r : Read), CarefulBuffer (s.buf.data ++ r.bytes) → CarefulRead {} 0 s r :=
    fun s r h _ buf hgrow => by rwa [Buffer.data_of_grow hgrow]
  have hsame : received hist₁ = received hist₂ := by
    rw [hhist₁, hhist₂]
    rfl
  refine ⟨hist₁, s₁, hist₂, s₂, hrun₁, hrun₂, hone, (cuts_harmless rfl (Reach.start.replay hrun₁)
    (Reach.start.replay hrun₂) hsame ?_ ?_ ?_ ?_).1⟩
  · rw [hhist₁]
    exact List.forall_mem_singleton.mpr ⟨List.cons_ne_nil _ _, fun _ => rfl⟩
  · rw [hhist₂]
    exact List.forall_mem_cons.mpr ⟨⟨List.cons_ne_nil _ _, fun _ => rfl⟩,
      List.forall_mem_singleton.mpr ⟨List.cons_ne_nil _ _, fun _ => rfl⟩⟩
  · rw [hhist₁]
    exact List.forall_mem_singleton.mpr (hread _ _ hline)
  · rw [hhist₂]
    exact List.forall_mem_cons.mpr ⟨hread _ _ (hdata ▸ hline), List.forall_mem_singleton.mpr
      (hread _ _ hpart)⟩

/-- Text of 36 bytes is dropped before its newline comes. -/
theorem not_cuts_harmless :
    ¬∀ (cfg : Config) (lim : BufferConfig) (c : ℕ) (conn : Conn) (s₀ : State)
      (hist₁ hist₂ : History Session Read) (s₁ s₂ : Session), s₀.conns.get c = some conn →
      Reach (connEvent cfg lim c) Any (.opened lim s₀) hist₁ s₁ →
      Reach (connEvent cfg lim c) Any (.opened lim s₀) hist₂ s₂ →
      received hist₁ = received hist₂ → (∀ p ∈ hist₁, p.2.Plain) → (∀ p ∈ hist₂, p.2.Plain) →
      s₁.plugin.handed.flatten = s₂.plugin.handed.flatten := by
  intro h
  obtain ⟨hist₁, s₁, hist₂, s₂, r, r', hrun₁, hrun₂, hone, hnone, hhist₁, hhist₂⟩ :
      ∃ hist₁ s₁ hist₂ s₂ r r',
      replay (connEvent {} {} 0) [] (.opened {} accepted)
        [⟨5, List.replicate 36 0x61 ++ [0x0A], fun _ => {}⟩] = some (hist₁, s₁) ∧
      replay (connEvent {} {} 0) [] (.opened {} accepted)
        [⟨5, List.replicate 36 0x61, fun _ => {}⟩, ⟨6, [0x0A], fun _ => {}⟩] = some (hist₂, s₂) ∧
      s₁.plugin.handed.flatten.length = 1 ∧ s₂.plugin.handed.flatten.length = 0 ∧
      hist₁ = [(.opened {} accepted, ⟨5, List.replicate 36 0x61 ++ [0x0A], fun _ => {}⟩)] ∧
      hist₂ = [(r, ⟨6, [0x0A], fun _ => {}⟩), (r', ⟨5, List.replicate 36 0x61, fun _ => {}⟩)] :=
    ⟨_, _, _, _, _, _, rfl, rfl, rfl, rfl, rfl, rfl⟩
  have hsame : received hist₁ = received hist₂ := by
    rw [hhist₁, hhist₂]
    rfl
  have hrecords := h {} {} 0 {} accepted hist₁ hist₂ s₁ s₂ rfl (Reach.start.replay hrun₁)
    (Reach.start.replay hrun₂) hsame ?_ ?_
  · rw [hrecords, hnone] at hone
    exact absurd hone (by simp)
  · rw [hhist₁]
    exact List.forall_mem_singleton.mpr ⟨by simp, fun _ => rfl⟩
  · rw [hhist₂]
    exact List.forall_mem_cons.mpr ⟨⟨by simp, fun _ => rfl⟩,
      List.forall_mem_singleton.mpr ⟨by simp, fun _ => rfl⟩⟩

end Gateway

end Xsiam
