import Xsiam.Gateway.FrameStream

/-!
# Room for frames

A frame may be as long as `WZCP_MAX_FRAME`, and a buffer as long as its settings let it grow, which
have nothing to do with it. A connection receives a stream of frames if and only if it gets a buffer
at all and each of them fits the largest one that it may have (`Xsiam.Gateway.receives_iff`): then
however the stream is cut, every frame is handled and the connection stays open, and otherwise the
first frame that does not fit is never read to its end, when the buffer is full of the start of it. So
a setting is good for every frame if and only if the longest one fits
(`Xsiam.Gateway.receives_all_iff`), and the one that the plugin has by default is not
(`Xsiam.Gateway.not_receives`).
-/

namespace Xsiam

namespace Gateway

open Framing Run

variable {cfg : Config} {lim : BufferConfig} {c : ℕ} {conn : Conn}

/-! ### Settings -/

/-- `(size_t)atoi(..) * 1024`, of the `int` that `atoi` reads -/
def sizeOfKB (kb : Int32) : UInt64 := kb.toInt64.toUInt64 * 1024

/-- The buffer sizing of `init`, from the values of `chunk_size` and `buffer_size`, if they are set. -/
def bufferSizing (chunkSize bufferSize : Option Int32) : BufferConfig :=
  let chunk := chunkSize.elim 32768 sizeOfKB
  { chunkSize := chunk, bufferSize := bufferSize.elim (chunk * 8) sizeOfKB }

/-- Without settings, there are eight chunks. -/
theorem maxSize_default : (bufferSizing none none).maxSize = 8 * 32768 := by decide

/-! ### Frames of any length -/

/-- The bytes of a frame that the protocol allows: its length is within `WZCP_MAX_FRAME`, its header is
accepted, and its body can be read. -/
structure LegalFrame (w : List UInt8) (f : Frame) : Prop where
  start : looksLikeWzcp w = true
  length : w.length = 4 + beAt w 0 4
  header : frameAt w = some f
  body : f.WellFormed

theorem LegalFrame.good {w : List UInt8} {f : Frame} (h : LegalFrame w f) (hfits : w.length ≤ lim.maxSize) :
    GoodFrame lim w f :=
  ⟨h.start, h.length, h.header, h.body, hfits⟩

theorem LegalFrame.length_le {w : List UInt8} {f : Frame} (h : LegalFrame w f) :
    w.length ≤ 4 + wzcpMaxFrame := by
  have hlength := (looksLikeWzcp_iff.mp h.start).2.2.1
  rw [h.length]
  omega

/-- A buffer of one chunk that every frame fits. -/
def BufferConfig.roomy : BufferConfig := ⟨1048580, 1048580⟩

theorem BufferConfig.maxSize_roomy : roomy.maxSize = 4 + wzcpMaxFrame := by decide

theorem LegalFrame.good_roomy {w : List UInt8} {f : Frame} (h : LegalFrame w f) : GoodFrame .roomy w f :=
  h.good (BufferConfig.maxSize_roomy ▸ h.length_le)

variable {frames : List (List UInt8 × Frame)} {w : List UInt8}

theorem LegalFrame.look {w : List UInt8} {f : Frame} (h : LegalFrame w f) :
    Gateway.look w = .message (.frame f) w.length :=
  h.good_roomy.look

/-- A buffer that is full of part of a frame, and more of it. -/
theorem LegalFrame.find_of_part {max : ℕ} {u v x : List UInt8} {f : Frame} (h : LegalFrame (u ++ v) f)
    (hv : v ≠ []) (hfull : u.length = max) (hx : x ≠ []) : (finder max).find (u ++ x) = .stop none :=
  find_of_full hfull (h.good_roomy.look_part hv) hx

theorem drop_ne_nil {n : ℕ} (h : n < w.length) : w.drop n ≠ [] := by
  rw [ne_eq, List.drop_eq_nil_iff]
  exact Nat.not_le.mpr h

/-- The first frame does not fit, and there is more of it than does. -/
theorem LegalFrame.find_of_long {max : ℕ} {p : List UInt8 × Frame} (hp : LegalFrame p.1 p.2)
    (h : w <+: streamOf (p :: frames)) (hlong : max < p.1.length) (hmore : max < w.length) :
    (finder max).find w = .stop none := by
  have hstart : w.take max = p.1.take max := by
    obtain ⟨v, hv⟩ := h
    rw [streamOf, List.flatMap_cons] at hv
    rw [← List.take_append_of_le_length hmore.le, hv, List.take_append_of_le_length hlong.le]
  have hframe : LegalFrame (w.take max ++ p.1.drop max) p.2 := by
    rw [hstart, List.take_append_drop]
    exact hp
  rw [← List.take_append_drop max w]
  refine hframe.find_of_part (drop_ne_nil hlong) ?_ (drop_ne_nil hmore)
  rw [List.length_take, min_eq_left hmore.le]

/-- A frame that fits is the first message. -/
theorem LegalFrame.reads_cons {p : List UInt8 × Frame} (hp : LegalFrame p.1 p.2)
    (hfits : p.1.length ≤ lim.maxSize) {ms : List Input} {r : Option (List UInt8)}
    (h : Reads (finder lim.maxSize) w ms r) :
    Reads (finder lim.maxSize) (p.1 ++ w) (.frame p.2 :: ms) r := by
  have hfind : (finder lim.maxSize).find p.1 = .message (.frame p.2) p.1.length := by
    rw [find_of_length_le hfits]
    exact hp.look
  refine .message ((finder lim.maxSize).message_append w hfind) ?_
  rw [List.drop_left]
  exact h

/-- **The messages of a stream of frames**: they are its frames, up to the first that does not fit. -/
theorem reads_of_legal (hlegal : ∀ p ∈ frames, LegalFrame p.1 p.2) (h : w <+: streamOf frames) :
    (∃ k rest, Complete frames w k rest ∧
      Reads (finder lim.maxSize) w ((frames.take k).map fun p => .frame p.2) (some rest)) ∨
    ∃ ms, Reads (finder lim.maxSize) w ms none := by
  induction frames generalizing w with
  | nil =>
    obtain rfl := List.prefix_nil.mp h
    refine Or.inl ⟨0, [], ⟨rfl, h, fun p hp => absurd hp (by simp), fun _ => rfl⟩, .more ?_⟩
    exact find_of_length_le (Nat.zero_le _)
  | cons p frames ih =>
    obtain ⟨hp, hrest⟩ := List.forall_mem_cons.mp hlegal
    rcases prefix_streamOf_cons h with ⟨v, hv, heq⟩ | ⟨w', rfl, hw'⟩
    · have hpos : 0 < v.length := List.length_pos_iff.mpr hv
      have hlen : p.1.length = w.length + v.length := by rw [heq, List.length_append]
      rcases Nat.lt_or_ge lim.maxSize w.length with hlong | hfits
      · exact Or.inr ⟨_, .stop (hp.find_of_long h (by omega) hlong)⟩
      · refine Or.inl ⟨0, w, ⟨rfl, h, fun q hq => ?_, fun hnone => absurd hnone (by simp)⟩, .more ?_⟩
        · obtain rfl : p = q := Option.some.inj hq
          omega
        · have hpart : LegalFrame (w ++ v) p.2 := heq ▸ hp
          rw [find_of_length_le hfits]
          exact hpart.good_roomy.look_part hv
    · rcases Nat.lt_or_ge lim.maxSize p.1.length with hlong | hfits
      · refine Or.inr ⟨_, .stop (hp.find_of_long h hlong ?_)⟩
        rw [List.length_append]
        omega
      · rcases ih hrest hw' with ⟨k, rest, hcomplete, hreads⟩ | ⟨ms, hreads⟩
        · refine Or.inl ⟨k + 1, rest, ⟨?_, hcomplete.part, hcomplete.short, hcomplete.none⟩, ?_⟩
          · rw [List.take_succ_cons, streamOf, List.flatMap_cons, List.append_assoc]
            exact congrArg (p.1 ++ ·) hcomplete.bytes
          · rw [List.take_succ_cons, List.map_cons]
            exact hp.reads_cons hfits hreads
        · exact Or.inr ⟨_, hp.reads_cons hfits hreads⟩

/-- A frame that does not fit ends the stream. -/
theorem reads_none_of_long (hlegal : ∀ p ∈ frames, LegalFrame p.1 p.2)
    (hlong : ∃ p ∈ frames, lim.maxSize < p.1.length) :
    ∃ ms, Reads (finder lim.maxSize) (streamOf frames) ms none := by
  induction frames with
  | nil => exact absurd hlong (by simp)
  | cons p frames ih =>
    obtain ⟨hp, hrest⟩ := List.forall_mem_cons.mp hlegal
    have hlength : (streamOf (p :: frames)).length = p.1.length + (streamOf frames).length := by
      rw [streamOf, List.flatMap_cons, List.length_append, streamOf]
    rcases Nat.lt_or_ge lim.maxSize p.1.length with hfirst | hfits
    · exact ⟨_, .stop (hp.find_of_long List.prefix_rfl hfirst (by omega))⟩
    · obtain ⟨q, hq, hqlong⟩ := hlong
      rcases List.mem_cons.mp hq with rfl | hq
      · exact absurd hqlong (Nat.not_lt.mpr hfits)
      · obtain ⟨ms, hreads⟩ := ih hrest ⟨q, hq, hqlong⟩
        exact ⟨_, hp.reads_cons hfits hreads⟩

/-! ### Runs -/

/-- A read leaves the buffer with some chunks, and with no more in it than it has room for. -/
theorem sized_of_connEvent {s s' : Session} {r : Read} (hplain : r.Plain) (hsized : s.buf.Sized lim)
    (h : connEvent cfg lim c s r = some s') : s'.buf.Sized lim := by
  rcases connEvent_cases hplain h with ⟨-, rfl⟩ | ⟨_, -, ⟨-, rfl⟩ | ⟨buf, hgrow, hspace, _, -, hcases⟩⟩
  · exact hsized
  · exact hsized
  · have hbuf := hsized.grow hgrow
    rcases hcases with ⟨-, rfl⟩ | ⟨k, -, rfl⟩
    · exact ⟨hbuf.chunks, hspace hbuf.fits⟩
    · refine ⟨hbuf.chunks, le_trans ?_ (hspace hbuf.fits)⟩
      show (consumeBytes _ k).length ≤ _
      rw [consumeBytes]
      split_ifs
      · rw [List.length_drop]
        exact Nat.sub_le _ _
      · exact le_rfl

/-- A read of one byte. -/
def byteRead (b : UInt8) : Read := { now := 0, bytes := [b] }

theorem plain_byteRead (b : UInt8) : (byteRead b).Plain := ⟨List.cons_ne_nil _ _, fun _ => rfl⟩

/-- There is room for a byte in a buffer that has not grown as far as it may. -/
theorem connEvent_byteRead {s : Session} (hsized : s.buf.Sized lim)
    (hroom : s.buf.data.length < lim.maxSize) (b : UInt8) :
    ∃ s', connEvent cfg lim c s (byteRead b) = some s' := by
  rw [connEvent]
  dsimp only
  cases s.plugin.conns.get c with
  | none => exact ⟨_, rfl⟩
  | some conn =>
    cases hgrow : s.buf.grow lim with
    | none => exact absurd (hsized.length_of_grow hgrow) (Nat.ne_of_lt hroom)
    | some buf =>
      have hspace : ¬buf.size - buf.data.length < max 1 (byteRead b).bytes.length := fun hfull =>
        absurd (hsized.length_of_still_full hgrow hfull) (Nat.ne_of_lt hroom)
      dsimp only
      rw [if_neg hspace, if_neg (plain_byteRead b).1]
      split
      · exact ⟨_, rfl⟩
      · exact ⟨_, rfl⟩

section Runs

variable {s₀ : State} {hist : History Session Read} {s : Session}

/-- **Every read of a stream of frames is careful**, whether they fit or not. -/
theorem careful_of_legal (h₀ : s₀.conns.get c = some conn)
    (hlegal : ∀ p ∈ frames, LegalFrame p.1 p.2)
    (h : Reach (connEvent cfg lim c) Any (.opened lim s₀) hist s) (hplain : ∀ p ∈ hist, p.2.Plain)
    (hstart : received hist <+: streamOf frames) : ∀ p ∈ hist, CarefulRead lim c p.1 p.2 := by
  refine careful_of_step (fun r hreach hplains hcareful hstart hopen buf hgrow => ?_) h hplain hstart
  obtain ⟨ms, rest, hreads, hstanding⟩ := standing_of_reach h₀ hreach hplains hcareful
  cases hstanding with
  | gone hnone _ =>
    obtain ⟨conn', hget⟩ := hopen
    exact absurd (hnone.symm.trans hget) (by simp)
  | reading _ _ _ =>
    rcases @reads_of_legal lim _ _ hlegal ((List.prefix_append _ _).trans hstart) with
      ⟨k, rest, hcomplete, hreads'⟩ | ⟨ms', hreads'⟩
    · -- what is in the buffer, with what is read, is the start of the frames that are to come
      obtain rfl := Option.some.inj (hreads.unique hreads').2
      rw [Buffer.data_of_grow hgrow]
      exact carefulBuffer_of_start (fun p hp => (hlegal p (List.mem_of_mem_drop hp)).good_roomy)
        (hcomplete.start_behind hstart)
    · exact absurd (hreads.unique hreads').2 (by simp)

/-- Part of a stream of frames that fit is there in reads of one byte. -/
theorem exists_run (h₀ : s₀.conns.get c = some conn) (hlegal : ∀ p ∈ frames, LegalFrame p.1 p.2)
    (hfits : ∀ p ∈ frames, p.1.length ≤ lim.maxSize) (w : List UInt8) (hstart : w <+: streamOf frames) :
    ∃ hist s, Reach (connEvent cfg lim c) Any (.opened lim s₀) hist s ∧ s.buf.Sized lim ∧
      (∀ p ∈ hist, p.2.Plain) ∧ received hist = w := by
  induction w using List.reverseRecOn with
  | nil => exact ⟨[], _, .start, sized_opened s₀, fun p hp => absurd hp List.not_mem_nil, rfl⟩
  | append_singleton w b ih =>
    have hbefore : w <+: streamOf frames := (List.prefix_append _ _).trans hstart
    obtain ⟨hist, s, hreach, hsized, hplain, hreceived⟩ := ih hbefore
    have hgood : ∀ p ∈ frames, GoodFrame lim p.1 p.2 := fun p hp => (hlegal p hp).good (hfits p hp)
    have hpart : received hist <+: streamOf frames := hreceived ▸ hbefore
    obtain ⟨k, hcomplete, -⟩ := standing_of_frames h₀ hgood hreach hplain
      (careful_of_legal h₀ hlegal hreach hplain hpart) hpart
    -- the buffer holds part of a frame that fits
    have hroom : s.buf.data.length < lim.maxSize := by
      cases hget : frames[k]? with
      | some p => exact (hcomplete.short p hget).trans_le (hfits p (List.mem_of_getElem? hget))
      | none =>
        exfalso
        have hall : w = streamOf frames := by
          rw [← hreceived, hcomplete.bytes, hcomplete.none hget, List.append_nil,
            List.take_of_length_le (List.getElem?_eq_none_iff.mp hget)]
        have hlength := hstart.length_le
        rw [← hall, List.length_append, List.length_singleton] at hlength
        omega
    obtain ⟨s', hstep⟩ := @connEvent_byteRead cfg lim c s hsized hroom b
    refine ⟨_, s', .next hreach trivial hstep, sized_of_connEvent (plain_byteRead b) hsized hstep,
      List.forall_mem_cons.mpr ⟨plain_byteRead b, hplain⟩, ?_⟩
    rw [received_cons, hreceived]
    rfl

/-- A run in which the connection is brought a stream, in reads of any size. -/
structure Delivers (cfg : Config) (lim : BufferConfig) (c : ℕ) (s₀ : State) (stream : List UInt8)
    (hist : History Session Read) (s : Session) : Prop where
  reach : Reach (connEvent cfg lim c) Any (.opened lim s₀) hist s
  plain : ∀ p ∈ hist, p.2.Plain
  all : received hist = stream

/-- A connection gets its buffer and can be brought a stream of frames, and however it is, it is open
afterwards, has handled all of them, and has nothing left over. -/
def Receives (cfg : Config) (lim : BufferConfig) (c : ℕ) (s₀ : State) (frames : List (List UInt8 × Frame)) :
    Prop :=
  lim.Allocates ∧ (∃ hist s, Delivers cfg lim c s₀ (streamOf frames) hist s) ∧
    ∀ hist s, Delivers cfg lim c s₀ (streamOf frames) hist s → s.Open c ∧ s.buf.data = [] ∧
      Alike s.plugin (s₀.takeAll cfg c (frames.map fun p => .frame p.2))

/-- A stream that has come is complete. -/
theorem complete_all {k : ℕ} {rest : List UInt8} (h : Complete frames (streamOf frames) k rest) :
    rest = [] ∧ frames.take k = frames := by
  have hend : frames[k]? = none := by
    cases hget : frames[k]? with
    | none => rfl
    | some p =>
      -- the next frame is not complete, though all the bytes of it are there
      obtain ⟨hk, hp⟩ := List.getElem?_eq_some_iff.mp hget
      have hsplit : streamOf frames = streamOf (frames.take k) ++ streamOf (frames.drop k) := by
        rw [streamOf, streamOf, streamOf, ← List.flatMap_append, List.take_append_drop]
      have hrest : rest = streamOf (frames.drop k) :=
        List.append_cancel_left (h.bytes.symm.trans hsplit)
      have hshort := h.short p hget
      rw [hrest, List.drop_eq_getElem_cons hk, hp, streamOf, List.flatMap_cons, List.length_append] at hshort
      omega
  exact ⟨h.none hend, List.take_of_length_le (List.getElem?_eq_none_iff.mp hend)⟩

theorem receives_of_fits (h₀ : s₀.conns.get c = some conn) (hlegal : ∀ p ∈ frames, LegalFrame p.1 p.2)
    (hbuffer : lim.Allocates) (hfits : ∀ p ∈ frames, p.1.length ≤ lim.maxSize) :
    Receives cfg lim c s₀ frames := by
  refine ⟨hbuffer, ?_, fun hist s h => ?_⟩
  · obtain ⟨hist, s, hreach, -, hplain, hall⟩ :=
      @exists_run cfg lim c conn frames s₀ h₀ hlegal hfits _ List.prefix_rfl
    exact ⟨hist, s, hreach, hplain, hall⟩
  · have hstart : received hist <+: streamOf frames := h.all ▸ List.prefix_rfl
    have hgood : ∀ p ∈ frames, GoodFrame lim p.1 p.2 := fun p hp => (hlegal p hp).good (hfits p hp)
    obtain ⟨k, hcomplete, -, hopen, halike⟩ := standing_of_frames h₀ hgood h.reach h.plain
      (careful_of_legal h₀ hlegal h.reach h.plain hstart) hstart
    rw [h.all] at hcomplete
    obtain ⟨hrest, hframes⟩ := complete_all hcomplete
    rw [hrest, hframes] at halike
    exact ⟨hopen, hrest, halike⟩

theorem fits_of_receives (h₀ : s₀.conns.get c = some conn) (hlegal : ∀ p ∈ frames, LegalFrame p.1 p.2)
    (h : Receives cfg lim c s₀ frames) : ∀ p ∈ frames, p.1.length ≤ lim.maxSize := by
  intro p hp
  by_contra hlong
  obtain ⟨-, ⟨hist, s, hrun⟩, hall⟩ := h
  have hstart : received hist <+: streamOf frames := hrun.all ▸ List.prefix_rfl
  obtain ⟨ms, rest, hreads, hstanding⟩ := standing_of_reach h₀ hrun.reach hrun.plain
    (careful_of_legal h₀ hlegal hrun.reach hrun.plain hstart)
  obtain ⟨ms', hreads'⟩ := reads_none_of_long hlegal ⟨p, hp, Nat.not_le.mp hlong⟩
  rw [hrun.all] at hreads
  obtain ⟨-, rfl⟩ := hreads.unique hreads'
  cases hstanding with
  | gone hnone _ =>
    obtain ⟨⟨conn', hget⟩, -⟩ := hall hist s hrun
    exact absurd (hnone.symm.trans hget) (by simp)

/-- **A stream of frames is received if and only if there is a buffer and each of them fits the largest
one** that the settings allow. -/
theorem receives_iff (h₀ : s₀.conns.get c = some conn) (hlegal : ∀ p ∈ frames, LegalFrame p.1 p.2) :
    Receives cfg lim c s₀ frames ↔ lim.Allocates ∧ ∀ p ∈ frames, p.1.length ≤ lim.maxSize :=
  ⟨fun h => ⟨h.1, fits_of_receives h₀ hlegal h⟩, fun h => receives_of_fits h₀ hlegal h.1 h.2⟩

end Runs

/-! ### The longest frame -/

/-- The header of a heartbeat with as long a body as there may be. -/
def longestHeader : List UInt8 :=
  [0, 16, 0, 0, 0x57, 0x5A, 0x43, 0x50, 1, 32, 0, 4, 0, 0, 0, 0, 0, 0, 0, 0, 0, 0, 0, 1,
    0, 0, 0, 0, 0, 0, 0, 0, 0, 15, 255, 224]

def longestBytes : List UInt8 := longestHeader ++ List.replicate (wzcpMaxFrame - wzcpHeaderSize) 0

def longestFrame : Frame :=
  { msgType := wzcpMsgHeartbeat, seq := 1, body := List.replicate (wzcpMaxFrame - wzcpHeaderSize) 0 }

theorem length_longestBytes : longestBytes.length = 4 + wzcpMaxFrame := by
  rw [longestBytes, List.length_append, List.length_replicate]
  rfl

theorem unpackHeader_longest :
    unpackHeader (longestBytes.drop 4) = some ⟨wzcpMsgHeartbeat, 0, 1, wzcpMaxFrame - wzcpHeaderSize⟩ := by
  have hbody : beAt (longestHeader.drop 4) 28 4 = wzcpMaxFrame - wzcpHeaderSize := by decide
  rw [longestBytes, List.drop_append_of_le_length (by decide), unpackHeader_append (by decide),
    unpackHeader, hbody, if_neg (by decide)]
  rfl

theorem legal_longest : LegalFrame longestBytes longestFrame where
  start := (looksLikeWzcp_append (by decide) _).trans (by decide)
  length := by
    rw [length_longestBytes, longestBytes, beAt_append (by decide)]
    rfl
  header := by
    have hlength : beAt longestBytes 0 4 = wzcpMaxFrame := by
      rw [longestBytes, beAt_append (by decide)]
      rfl
    have hbody : longestBytes.drop (4 + wzcpHeaderSize) =
        List.replicate (wzcpMaxFrame - wzcpHeaderSize) 0 := by
      rw [longestBytes, List.drop_left' (by decide)]
    rw [frameAt, unpackHeader_longest]
    dsimp only
    rw [hlength, if_neg (not_not.mpr rfl), hbody, List.take_replicate, min_self]
    rfl
  body := ⟨fun h => absurd h (by decide), fun h => absurd h (by decide)⟩

/-- **A setting is good for every frame if and only if the longest one fits.** -/
theorem receives_all_iff {s₀ : State} (h₀ : s₀.conns.get c = some conn) :
    (∀ w f, LegalFrame w f → Receives cfg lim c s₀ [(w, f)]) ↔ 4 + wzcpMaxFrame ≤ lim.maxSize := by
  constructor
  · intro h
    have hfits := fits_of_receives h₀ (List.forall_mem_singleton.mpr legal_longest)
      (h _ _ legal_longest) _ List.mem_cons_self
    rwa [length_longestBytes] at hfits
  · intro hmax w f hlegal
    -- a size that is negative as an `int` leaves no room at all
    have hbuffer : lim.Allocates := by
      rw [BufferConfig.Allocates]
      by_contra hneg
      have hnone : lim.chunk.toNat = 0 := Int.toNat_of_nonpos (Int.not_le.mp hneg).le
      rw [BufferConfig.maxSize, hnone, Nat.zero_mul] at hmax
      exact absurd hmax (by decide)
    exact receives_of_fits h₀ (List.forall_mem_singleton.mpr hlegal) hbuffer
      (List.forall_mem_singleton.mpr (hlegal.length_le.trans hmax))

/-- With chunks of one megabyte and a bit, the longest frame is received. -/
theorem receives_longest : Receives {} (bufferSizing (some 1025) none) 0 accepted
    [(longestBytes, longestFrame)] := by
  refine (receives_iff rfl (List.forall_mem_singleton.mpr legal_longest)).mpr
    ⟨by decide, List.forall_mem_singleton.mpr ?_⟩
  rw [length_longestBytes]
  decide

/-- **Not every legal frame is received**: with the settings that the plugin has by default, the
longest one closes its connection. -/
theorem not_receives : ¬∀ (chunkSize bufferSize : Option Int32) (w : List UInt8) (f : Frame), LegalFrame w f →
    Receives {} (bufferSizing chunkSize bufferSize) 0 accepted [(w, f)] := by
  intro h
  have hfits := fits_of_receives rfl (List.forall_mem_singleton.mpr legal_longest)
    (h none none _ _ legal_longest) _ List.mem_cons_self
  rw [length_longestBytes, maxSize_default] at hfits
  exact absurd hfits (by decide)

end Gateway

end Xsiam
