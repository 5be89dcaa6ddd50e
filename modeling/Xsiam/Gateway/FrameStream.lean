import Xsiam.Gateway.Cuts

/-!
# Streams of frames

A stream that is made of frames, each with a header that is accepted and a body that can be read, is
read as it should be however it is cut: every read of it is careful
(`Xsiam.Gateway.careful_of_frames`), the connection stays open, the frames that are complete have been
handled one after the other, and what is left in the buffer are the bytes behind the last of them
(`Xsiam.Gateway.frames_however_cut`).
-/

namespace Xsiam

namespace Gateway

open Go (str)

open Framing Run

variable {cfg : Config} {lim : BufferConfig} {c : ℕ} {conn : Conn}

/-! ### Frames -/

/-- A body that its handler can read. -/
def Frame.WellFormed (f : Frame) : Prop :=
  (f.msgType = wzcpMsgHello → parseHello f.body ≠ none) ∧
    (f.msgType = wzcpMsgEventBatch → parseEventBatch f.body ≠ none)

/-- The bytes of a frame that a connection can take. -/
structure GoodFrame (lim : BufferConfig) (w : List UInt8) (f : Frame) : Prop where
  /-- The length is one that a frame may have, and the magic number is there. -/
  start : looksLikeWzcp w = true
  length : w.length = 4 + beAt w 0 4
  /-- The header is accepted, and goes with the length. -/
  header : frameAt w = some f
  body : f.WellFormed
  fits : w.length ≤ lim.maxSize

theorem survives_of_wellFormed {f : Frame} (h : f.WellFormed) : (Input.frame f).survives {} = true := by
  rw [Input.survives]
  split_ifs with hhello hheartbeat hbatch
  · obtain ⟨hello, hparse⟩ := Option.ne_none_iff_exists'.mp (h.1 hhello)
    rw [hparse]
    rfl
  · rfl
  · obtain ⟨events, hparse⟩ := Option.ne_none_iff_exists'.mp (h.2 hbatch)
    rw [hparse, Option.any_some, encodes_default]
    rfl
  · rfl

theorem GoodFrame.look {w : List UInt8} {f : Frame} (h : GoodFrame lim w f) :
    look w = .message (.frame f) w.length := by
  rw [Gateway.look, if_pos h.start, lookFrame, if_neg (by rw [h.length]; omega), h.header]
  dsimp only
  rw [if_pos (survives_of_wellFormed h.body), h.length]

/-- The first byte of a frame is no text. -/
theorem looksLikeSyslog_of_part {w v : List UInt8} (h : looksLikeWzcp (w ++ v) = true) :
    looksLikeSyslog w = false := by
  by_contra hsyslog
  have hsyslog := looksLikeSyslog_append (Bool.eq_true_of_not_eq_false hsyslog) v
  exact absurd ((looksLikeWzcp_eq_false hsyslog).symm.trans h) (by simp)

/-- Part of a frame is no message yet. -/
theorem GoodFrame.look_part {w v : List UInt8} {f : Frame} (h : GoodFrame lim (w ++ v) f)
    (hv : v ≠ []) : Gateway.look w = .more := by
  by_cases hshort : w.length < 4 + wzcpHeaderSize
  · exact look_short hshort (looksLikeSyslog_of_part h.start)
  · have hlong := Nat.not_lt.mp hshort
    have hpos : 0 < v.length := List.length_pos_iff.mpr hv
    have hlength := h.length
    rw [wzcpHeaderSize] at hlong
    rw [beAt_append (by omega), List.length_append] at hlength
    rw [Gateway.look, ← looksLikeWzcp_append (Nat.not_lt.mp hshort) v, if_pos h.start, lookFrame,
      if_pos (by omega)]

/-! ### Streams -/

/-- The bytes of some frames. -/
def streamOf (frames : List (List UInt8 × Frame)) : List UInt8 := frames.flatMap (·.1)

variable {frames : List (List UInt8 × Frame)} {w rest : List UInt8}

/-- The start of a stream is part of its first frame, or that frame and the start of the rest. -/
theorem prefix_streamOf_cons {p : List UInt8 × Frame} (h : w <+: streamOf (p :: frames)) :
    (∃ v, v ≠ [] ∧ p.1 = w ++ v) ∨ ∃ w', w = p.1 ++ w' ∧ w' <+: streamOf frames := by
  rw [streamOf, List.flatMap_cons] at h
  rcases List.prefix_or_prefix_of_prefix h (List.prefix_append p.1 _) with ⟨v, hv⟩ | ⟨w', rfl⟩
  · by_cases hempty : v = []
    · rw [hempty, List.append_nil] at hv
      exact Or.inr ⟨[], by rw [hv, List.append_nil], List.nil_prefix⟩
    · exact Or.inl ⟨v, hempty, hv.symm⟩
  · exact Or.inr ⟨w', rfl, (List.prefix_append_right_inj p.1).mp h⟩

/-- **The start of a stream is framed.** -/
theorem framed_of_start (hframes : ∀ p ∈ frames, GoodFrame lim p.1 p.2) (h : w <+: streamOf frames) :
    Framed w := by
  by_cases hshort : w.length < 4 + wzcpHeaderSize
  · refine Or.inr ⟨hshort, ?_⟩
    cases frames with
    | nil =>
      rw [List.prefix_nil.mp h]
      rfl
    | cons p frames =>
      have hp := hframes p List.mem_cons_self
      rcases prefix_streamOf_cons h with ⟨v, -, hv⟩ | ⟨w', rfl, -⟩
      · exact looksLikeSyslog_of_part (hv ▸ hp.start)
      · have hlong := (looksLikeWzcp_iff.mp hp.start).1
        rw [List.length_append] at hshort
        omega
  · have hlong := Nat.not_lt.mp hshort
    refine Or.inl ?_
    cases frames with
    | nil =>
      rw [List.prefix_nil.mp h, wzcpHeaderSize] at hlong
      exact absurd hlong (by simp)
    | cons p frames =>
      have hp := hframes p List.mem_cons_self
      rcases prefix_streamOf_cons h with ⟨v, -, hv⟩ | ⟨w', rfl, -⟩
      · rw [← looksLikeWzcp_append hlong v, ← hv]
        exact hp.start
      · rw [looksLikeWzcp_append (looksLikeWzcp_iff.mp hp.start).1]
        exact hp.start

/-- What is behind some frames of a stream is the start of one. -/
theorem framed_of_behind (h : Behind w rest) : ∀ {frames : List (List UInt8 × Frame)},
    (∀ p ∈ frames, GoodFrame lim p.1 p.2) → w <+: streamOf frames → Framed rest := by
  induction h with
  | here w => exact fun hframes hstart => framed_of_start hframes hstart
  | @frame w rest f n hlook _ ih =>
    intro frames hframes hstart
    cases frames with
    | nil =>
      have hempty : look ([] : List UInt8) = .more := rfl
      rw [List.prefix_nil.mp hstart, hempty] at hlook
      exact absurd hlook (by simp)
    | cons p frames =>
      obtain ⟨hp, hrest⟩ := List.forall_mem_cons.mp hframes
      rcases prefix_streamOf_cons hstart with ⟨v, hv, heq⟩ | ⟨w', rfl, hw'⟩
      · rw [(heq ▸ hp : GoodFrame lim (w ++ v) p.2).look_part hv] at hlook
        exact absurd hlook (by simp)
      · rw [look_message_append w' hp.look] at hlook
        obtain ⟨-, rfl⟩ := Found.message.inj hlook
        rw [List.drop_left] at ih
        exact ih hrest hw'

theorem carefulBuffer_of_start (hframes : ∀ p ∈ frames, GoodFrame lim p.1 p.2)
    (h : w <+: streamOf frames) : CarefulBuffer w := by
  have hframed := framed_of_start hframes h
  rw [CarefulBuffer]
  split_ifs with hwzcp hsyslog
  · exact fun rest hrest => framed_of_behind hrest hframes h
  · rcases hframed with hwzcp' | ⟨-, hsyslog'⟩
    · exact absurd hwzcp' hwzcp
    · exact absurd (hsyslog'.symm.trans hsyslog) (by simp)
  · exact Or.inl (hframed.resolve_left hwzcp).1

/-- How far a stream goes: some frames that are complete, and part of the next one. -/
structure Complete (frames : List (List UInt8 × Frame)) (w : List UInt8) (k : ℕ) (rest : List UInt8) :
    Prop where
  bytes : w = streamOf (frames.take k) ++ rest
  part : rest <+: streamOf (frames.drop k)
  /-- The next frame is not complete, and if there is none nothing is left over. -/
  short : ∀ p, frames[k]? = some p → rest.length < p.1.length
  none : frames[k]? = none → rest = []

/-- What comes next is the start of the frames that are not complete. -/
theorem Complete.start_behind {k : ℕ} {rest bs : List UInt8} (h : Complete frames w k rest)
    (hstart : w ++ bs <+: streamOf frames) : rest ++ bs <+: streamOf (frames.drop k) := by
  have hsplit : streamOf frames = streamOf (frames.take k) ++ streamOf (frames.drop k) := by
    rw [streamOf, streamOf, streamOf, ← List.flatMap_append, List.take_append_drop]
  rw [h.bytes, hsplit, List.append_assoc] at hstart
  exact (List.prefix_append_right_inj _).mp hstart

/-- **The frames of a stream are its messages.** -/
theorem reads_of_start (hframes : ∀ p ∈ frames, GoodFrame lim p.1 p.2) (h : w <+: streamOf frames) :
    ∃ k rest, Complete frames w k rest ∧
      Reads (finder lim.maxSize) w ((frames.take k).map fun p => .frame p.2) (some rest) := by
  induction frames generalizing w with
  | nil =>
    obtain rfl := List.prefix_nil.mp h
    refine ⟨0, [], ⟨rfl, h, fun p hp => absurd hp (by simp), fun _ => rfl⟩, .more ?_⟩
    exact find_of_length_le (Nat.zero_le _)
  | cons p frames ih =>
    obtain ⟨hp, hrest⟩ := List.forall_mem_cons.mp hframes
    rcases prefix_streamOf_cons h with ⟨v, hv, heq⟩ | ⟨w', rfl, hw'⟩
    · have hpos : 0 < v.length := List.length_pos_iff.mpr hv
      have hlen : p.1.length = w.length + v.length := by rw [heq, List.length_append]
      refine ⟨0, w, ⟨rfl, h, fun q hq => ?_, fun hnone => absurd hnone (by simp)⟩, .more ?_⟩
      · obtain rfl : p = q := Option.some.inj hq
        omega
      · have hfits := hp.fits
        rw [find_of_length_le (by omega)]
        exact (heq ▸ hp : GoodFrame lim (w ++ v) p.2).look_part hv
    · obtain ⟨k, rest, hcomplete, hreads⟩ := ih hrest hw'
      have hfind : (finder lim.maxSize).find p.1 = .message (.frame p.2) p.1.length := by
        rw [find_of_length_le hp.fits]
        exact hp.look
      refine ⟨k + 1, rest, ⟨?_, hcomplete.part, hcomplete.short, hcomplete.none⟩, ?_⟩
      · rw [List.take_succ_cons, streamOf, List.flatMap_cons, List.append_assoc]
        exact congrArg (p.1 ++ ·) hcomplete.bytes
      · rw [List.take_succ_cons, List.map_cons]
        refine .message ((finder lim.maxSize).message_append w' hfind) ?_
        rw [List.drop_left]
        exact hreads

/-! ### Runs -/

section Runs

variable {s₀ : State} {hist hist₁ hist₂ : History Session Read} {s s₁ s₂ : Session}

/-- A connection in a careful run over a stream of frames. -/
theorem standing_of_frames (h₀ : s₀.conns.get c = some conn)
    (hframes : ∀ p ∈ frames, GoodFrame lim p.1 p.2)
    (h : Reach (connEvent cfg lim c) Any (.opened lim s₀) hist s) (hplain : ∀ p ∈ hist, p.2.Plain)
    (hcareful : ∀ p ∈ hist, CarefulRead lim c p.1 p.2) (hstart : received hist <+: streamOf frames) :
    ∃ k, Complete frames (received hist) k s.buf.data ∧
      Reads (finder lim.maxSize) (received hist) ((frames.take k).map fun p => .frame p.2)
        (some s.buf.data) ∧
      s.Open c ∧ Alike s.plugin
        ((s₀.takeAll cfg c ((frames.take k).map fun p => .frame p.2)).settle c s.buf.data) := by
  obtain ⟨ms, rest, hreads, hstanding⟩ := standing_of_reach h₀ h hplain hcareful
  obtain ⟨k, rest', hcomplete, hreads'⟩ := reads_of_start hframes hstart
  obtain ⟨rfl, rfl⟩ := hreads.unique hreads'
  generalize hdata : some rest' = rest at hstanding
  cases hstanding with
  | gone _ _ => exact absurd hdata (by simp)
  | reading hopen _ halike =>
    rw [Option.some.inj hdata] at hcomplete hreads
    exact ⟨k, hcomplete, hreads, hopen, halike⟩

/-- Every read of a stream is careful if each of them is behind reads that are. -/
theorem careful_of_step {stream : List UInt8}
    (hread : ∀ {hist : History Session Read} {s : Session} (r : Read),
      Reach (connEvent cfg lim c) Any (.opened lim s₀) hist s → (∀ p ∈ hist, p.2.Plain) →
        (∀ p ∈ hist, CarefulRead lim c p.1 p.2) → received hist ++ r.bytes <+: stream →
          CarefulRead lim c s r)
    (h : Reach (connEvent cfg lim c) Any (.opened lim s₀) hist s) (hplain : ∀ p ∈ hist, p.2.Plain)
    (hstart : received hist <+: stream) : ∀ p ∈ hist, CarefulRead lim c p.1 p.2 := by
  induction h with
  | start => exact fun p hp => absurd hp List.not_mem_nil
  | @next hist s s' r hreach _ _ ih =>
    rw [received_cons] at hstart
    have hplains := (List.forall_mem_cons.mp hplain).2
    have hcareful := ih hplains ((List.prefix_append _ _).trans hstart)
    exact List.forall_mem_cons.mpr ⟨hread r hreach hplains hcareful hstart, hcareful⟩

/-- **Every read of a stream of frames is careful.** -/
theorem careful_of_frames (h₀ : s₀.conns.get c = some conn)
    (hframes : ∀ p ∈ frames, GoodFrame lim p.1 p.2)
    (h : Reach (connEvent cfg lim c) Any (.opened lim s₀) hist s) (hplain : ∀ p ∈ hist, p.2.Plain)
    (hstart : received hist <+: streamOf frames) : ∀ p ∈ hist, CarefulRead lim c p.1 p.2 := by
  refine careful_of_step (fun r hreach hplains hcareful hstart _ buf hgrow => ?_) h hplain hstart
  -- what is in the buffer, with what is read, is the start of the frames that are to come
  obtain ⟨k, hcomplete, -⟩ := standing_of_frames h₀ hframes hreach hplains hcareful
    ((List.prefix_append _ _).trans hstart)
  rw [Buffer.data_of_grow hgrow]
  exact carefulBuffer_of_start (fun p hp => hframes p (List.mem_of_mem_drop hp))
    (hcomplete.start_behind hstart)

/-- **However a stream of frames is cut**, a connection that has read some of it is open, has handled
the frames that are complete, one after the other, and has left the bytes behind them in its buffer;
and two connections that have read the same of it are alike. -/
theorem frames_however_cut (h₀ : s₀.conns.get c = some conn)
    (hframes : ∀ p ∈ frames, GoodFrame lim p.1 p.2)
    (h₁ : Reach (connEvent cfg lim c) Any (.opened lim s₀) hist₁ s₁)
    (h₂ : Reach (connEvent cfg lim c) Any (.opened lim s₀) hist₂ s₂)
    (hplain₁ : ∀ p ∈ hist₁, p.2.Plain) (hplain₂ : ∀ p ∈ hist₂, p.2.Plain)
    (hstart : received hist₁ <+: streamOf frames) (hbytes : received hist₁ = received hist₂) :
    (∃ k, Complete frames (received hist₁) k s₁.buf.data ∧ Alike s₁.plugin
      ((s₀.takeAll cfg c ((frames.take k).map fun p => .frame p.2)).settle c s₁.buf.data)) ∧
    s₁.Open c ∧ s₂.Open c ∧ s₁.buf.data = s₂.buf.data ∧ Alike s₁.plugin s₂.plugin := by
  have hstart₂ : received hist₂ <+: streamOf frames := hbytes ▸ hstart
  have hcareful₁ := careful_of_frames h₀ hframes h₁ hplain₁ hstart
  have hcareful₂ := careful_of_frames h₀ hframes h₂ hplain₂ hstart₂
  obtain ⟨k₁, hcomplete₁, hreads₁, hopen₁, halike₁⟩ :=
    standing_of_frames h₀ hframes h₁ hplain₁ hcareful₁ hstart
  obtain ⟨k₂, -, hreads₂, hopen₂, -⟩ :=
    standing_of_frames h₀ hframes h₂ hplain₂ hcareful₂ hstart₂
  rw [← hbytes] at hreads₂
  exact ⟨⟨k₁, hcomplete₁, halike₁⟩, hopen₁, hopen₂, Option.some.inj (hreads₁.unique hreads₂).2,
    alike_of_careful h₀ h₁ h₂ hbytes hplain₁ hplain₂ hcareful₁ hcareful₂⟩

end Runs

/-! ### A frame in two reads -/

/-- The HELLO of an agent. -/
def helloBytes : List UInt8 :=
  [0, 0, 0, 43, 0x57, 0x5A, 0x43, 0x50, 1, 32, 0, 1, 0, 0, 0, 0, 0, 0, 0, 0, 0, 0, 0, 1,
    0, 0, 0, 0, 0, 0, 0, 0, 0, 0, 0, 11, 0, 1, 0, 0, 0, 1, 0x61, 0, 0, 0, 0]

/-- The frame of it. -/
def helloFrame : Frame :=
  { msgType := wzcpMsgHello, seq := 1, body := [0, 1, 0, 0, 0, 1, 0x61, 0, 0, 0, 0] }

theorem goodFrame_hello : GoodFrame {} helloBytes helloFrame where
  start := by decide +kernel
  length := by decide +kernel
  header := by decide +kernel
  body := ⟨fun _ => by decide, fun h => absurd h (by decide)⟩
  fits := by decide +kernel

theorem frames_however_cut_hello :
    ∃ hist₁ s₁ hist₂ s₂,
      replay (connEvent {} {} 0) [] (.opened {} accepted) [⟨5, helloBytes, fun _ => {}⟩] =
        some (hist₁, s₁) ∧
      replay (connEvent {} {} 0) [] (.opened {} accepted)
        [⟨5, helloBytes.take 40, fun _ => {}⟩, ⟨6, helloBytes.drop 40, fun _ => {}⟩] = some (hist₂, s₂) ∧
      s₁.plugin.acks = [(0, 1)] ∧ s₂.Open 0 ∧ Alike s₁.plugin s₂.plugin := by
  obtain ⟨hist₁, s₁, hist₂, s₂, r₁, r₂, r₃, hrun₁, hrun₂, hacks, hhist₁, hhist₂⟩ :
      ∃ hist₁ s₁ hist₂ s₂ r₁ r₂ r₃,
      replay (connEvent {} {} 0) [] (.opened {} accepted) [⟨5, helloBytes, fun _ => {}⟩] =
        some (hist₁, s₁) ∧
      replay (connEvent {} {} 0) [] (.opened {} accepted)
        [⟨5, helloBytes.take 40, fun _ => {}⟩, ⟨6, helloBytes.drop 40, fun _ => {}⟩] = some (hist₂, s₂) ∧
      s₁.plugin.acks = [(0, 1)] ∧ hist₁ = [(r₁, ⟨5, helloBytes, fun _ => {}⟩)] ∧
      hist₂ = [(r₃, ⟨6, helloBytes.drop 40, fun _ => {}⟩), (r₂, ⟨5, helloBytes.take 40, fun _ => {}⟩)] :=
    ⟨_, _, _, _, _, _, _, rfl, rfl, rfl, rfl, rfl⟩
  have hplain₁ : ∀ p ∈ hist₁, p.2.Plain := by
    rw [hhist₁]
    exact List.forall_mem_singleton.mpr ⟨List.cons_ne_nil _ _, fun _ => rfl⟩
  have hplain₂ : ∀ p ∈ hist₂, p.2.Plain := by
    rw [hhist₂]
    exact List.forall_mem_cons.mpr ⟨⟨List.cons_ne_nil _ _, fun _ => rfl⟩,
      List.forall_mem_singleton.mpr ⟨List.cons_ne_nil _ _, fun _ => rfl⟩⟩
  have hstream : received hist₁ <+: streamOf [(helloBytes, helloFrame)] := by
    rw [hhist₁]
    exact List.prefix_rfl
  have hsame : received hist₁ = received hist₂ := by
    rw [hhist₁, hhist₂]
    rfl
  obtain ⟨-, -, hopen, -, halike⟩ := frames_however_cut rfl (List.forall_mem_singleton.mpr goodFrame_hello)
    (Reach.start.replay hrun₁) (Reach.start.replay hrun₂) hplain₁ hplain₂ hstream hsame
  exact ⟨hist₁, s₁, hist₂, s₂, hrun₁, hrun₂, hacks, hopen, halike⟩

end Gateway

end Xsiam
