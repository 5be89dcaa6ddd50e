import Xsiam.Gateway.Classified
import Xsiam.Gateway.Lines

/-!
# Reads and messages

What a read does to a connection, next to the messages of the bytes it has received. A buffer is
read as its messages are (`Xsiam.Gateway.reads_processBuffer`) where no cut could make a difference
to it: behind frames there are only frames, or too little to say; lines are recognised as text each
by itself, and so is what is behind them; and nothing is dropped that might still become a line
(`Xsiam.Gateway.CarefulBuffer`). In a run of such reads the connection stands where the messages
received, one after the other, have brought it (`Xsiam.Gateway.standing_of_reach`).
-/

namespace Xsiam

namespace Gateway

open Go (str)

open Framing Run

variable {cfg : Config} {s s' : State} {c : ℕ} {conn : Conn}

/-! ### Buffers -/

/-- What a buffer holds behind some of its frames. -/
inductive Behind : List UInt8 → List UInt8 → Prop where
  | here (w : List UInt8) : Behind w w
  | frame {w rest : List UInt8} {f : Frame} {n : ℕ} : look w = .message (.frame f) n →
      Behind (w.drop n) rest → Behind w rest

/-- A frame, or too little to say, but nothing that is taken for text. -/
def Framed (rest : List UInt8) : Prop :=
  looksLikeWzcp rest = true ∨ (rest.length < 4 + wzcpHeaderSize ∧ looksLikeSyslog rest = false)

/-- No cut in a buffer makes a difference to what is read of it. -/
def CarefulBuffer (data : List UInt8) : Prop :=
  if looksLikeWzcp data then ∀ rest, Behind data rest → Framed rest
  else if looksLikeSyslog data then
    (∀ line ∈ completeLines [] data, looksLikeSyslog (line ++ [0x0A]) = true) ∧
      looksLikeWzcp (data.drop (consumedLines data)) = false ∧
      ((data.drop (consumedLines data)).length < 4 + wzcpHeaderSize ∨
        looksLikeSyslog (data.drop (consumedLines data)) = true)
  else data.length < 4 + wzcpHeaderSize ∨ controlFirst (data.take 128) = true

/-! ### Frames -/

/-- How a connection that reads frames is classified. -/
abbrev frameTags : CString × CString := (str "agent_wzcp", str "agent")

theorem take_frame (hget : s.conns.get c = some conn) (hconn : conn.Is frameTags) (f : Frame) :
    Alike (processFrame cfg s c conn f {}).1 (s.take cfg c (.frame f)) := by
  rw [State.take, hget]
  show Alike _ (processFrame cfg (s.setConn c fun _ => conn.classify (str "agent_wzcp") (str "agent")) c
    (conn.classify (str "agent_wzcp") (str "agent")) f {}).1
  have hclass : conn.classify (str "agent_wzcp") (str "agent") = conn := hconn.classify
  rw [hclass]
  exact (alike_setConn hget rfl).symm.processFrame c conn f {}

theorem look_short {w : List UInt8} (hshort : w.length < 4 + wzcpHeaderSize)
    (hsyslog : looksLikeSyslog w = false) : look w = .more := by
  have hwzcp : looksLikeWzcp w = false := by
    rw [looksLikeWzcp, if_pos hshort]
  rw [look, hwzcp, hsyslog, if_neg (by simp), if_neg (by simp), if_neg]
  rintro ⟨hlong, -⟩
  omega

/-- A connection classified as one that reads frames. -/
def InFrames (s : State) (c : ℕ) : Prop := ∃ conn, s.conns.get c = some conn ∧ conn.Is frameTags

/-- What the loop makes of a state: the messages of what was left of the buffer are handled, and
either it gives how far they go, or the connection ends with them. -/
def FramesRead (cfg : Config) (c max : ℕ) (data : List UInt8) (consumed : ℕ) (s : State)
    (p : State × Option ℕ) : Prop :=
  ∃ ms, Alike p.1 (s.takeAll cfg c ms) ∧
    ((∃ k, p.2 = some k ∧ k ≤ data.length ∧
        Reads (finder max) (data.drop consumed) ms (some (data.drop k)) ∧ Framed (data.drop k) ∧
        InFrames (s.takeAll cfg c ms) c) ∨
      (p.2 = none ∧ Reads (finder max) (data.drop consumed) ms none))

section Loop

variable {max consumed : ℕ} {data : List UInt8}

theorem find_drop (hmax : data.length ≤ max) (consumed : ℕ) :
    (finder max).find (data.drop consumed) = look (data.drop consumed) := by
  refine find_of_length_le ?_
  rw [List.length_drop]
  omega

/-- The loop ends where nothing more is found. -/
theorem framesRead_more (hmax : data.length ≤ max) (hle : consumed ≤ data.length) (hs : InFrames s c)
    (hframed : Framed (data.drop consumed)) (hmore : look (data.drop consumed) = .more) :
    FramesRead cfg c max data consumed s (s, some consumed) :=
  ⟨[], .refl s, Or.inl ⟨consumed, rfl, hle, .more ((find_drop hmax consumed).trans hmore), hframed, hs⟩⟩

/-- The loop ends where the buffer does. -/
theorem framesRead_short (hmax : data.length ≤ max) (hle : consumed ≤ data.length) (hs : InFrames s c)
    (hframed : Framed (data.drop consumed)) (hshort : (data.drop consumed).length < 4 + wzcpHeaderSize) :
    FramesRead cfg c max data consumed s (s, some consumed) := by
  refine framesRead_more hmax hle hs hframed (look_short hshort ?_)
  rcases hframed with hwzcp | ⟨-, hsyslog⟩
  · exact absurd (looksLikeWzcp_iff.mp hwzcp).1 (Nat.not_le.mpr hshort)
  · exact hsyslog

/-- A frame, and what the loop makes of the rest. -/
theorem FramesRead.frame (hmax : data.length ≤ max) (hget : s.conns.get c = some conn)
    (hconn : conn.Is frameTags) {f : Frame} {n : ℕ}
    (hlook : look (data.drop consumed) = .message (.frame f) n) {p : State × Option ℕ}
    (h : FramesRead cfg c max data (consumed + n) (processFrame cfg s c conn f {}).1 p) :
    FramesRead cfg c max data consumed s p := by
  obtain ⟨ms, halike, hcases⟩ := h
  have htake : Alike (State.takeAll cfg c (processFrame cfg s c conn f {}).1 ms)
      ((s.take cfg c (.frame f)).takeAll cfg c ms) := (take_frame hget hconn f).takeAll ms
  have hfirst := (find_drop hmax consumed).trans hlook
  refine ⟨.frame f :: ms, halike.trans htake, ?_⟩
  rw [← List.drop_drop] at hcases
  rcases hcases with ⟨k, hk, hkle, hreads, hframed, conn', hget', hconn'⟩ | ⟨hk, hreads⟩
  · exact Or.inl ⟨k, hk, hkle, .message hfirst hreads, hframed, conn', (htake.conns c).symm.trans hget',
      hconn'⟩
  · exact Or.inr ⟨hk, .message hfirst hreads⟩

/-- **The loop reads the frames of what is left of its buffer.** -/
theorem framesLoop_reads {ans : ℕ → Answers} (hans : ∀ n, ans n = {}) (hmax : data.length ≤ max)
    (n : ℕ) : ∀ {s : State} {consumed : ℕ}, (data.drop consumed).length ≤ n → consumed ≤ data.length →
    InFrames s c → (∀ rest, Behind (data.drop consumed) rest → Framed rest) →
    FramesRead cfg c max data consumed s (framesLoop cfg c ans n s data consumed) := by
  induction n with
  | zero =>
    intro s consumed hfuel hle hs hcareful
    refine framesRead_short hmax hle hs (hcareful _ (.here _)) ?_
    rw [wzcpHeaderSize]
    omega
  | succ n ih =>
    intro s consumed hfuel hle hs hcareful
    have hframed := hcareful _ (.here _)
    rw [framesLoop]
    dsimp only
    split_ifs with hshort hsize hpart
    · exact framesRead_short hmax hle hs hframed hshort
    · -- what is framed has a size
      obtain ⟨-, hmin, hmax', -⟩ := looksLikeWzcp_iff.mp (hframed.resolve_right fun h => hshort h.1)
      omega
    · have hwzcp := hframed.resolve_right fun h => hshort h.1
      refine framesRead_more hmax hle hs hframed ?_
      rw [look, if_pos hwzcp, lookFrame, if_pos hpart]
    · have hwzcp := hframed.resolve_right fun h => hshort h.1
      have hlook : look (data.drop consumed) = lookFrame (data.drop consumed) := by
        rw [look, if_pos hwzcp]
      rw [lookFrame, if_neg hpart] at hlook
      obtain ⟨conn, hget, hconn⟩ := hs
      rw [hget]
      cases hframe : frameAt (data.drop consumed) with
      | none =>
        rw [hframe] at hlook
        exact ⟨[], .refl s, Or.inr ⟨rfl, .stop ((find_drop hmax consumed).trans hlook)⟩⟩
      | some f =>
        rw [hframe] at hlook
        dsimp only at hlook ⊢
        rw [snd_processFrame, hans]
        split_ifs at hlook ⊢ with hsurvives
        · -- the frame is handled, and the loop goes on behind it
          rw [List.length_drop] at hpart hfuel
          refine .frame hmax hget hconn hlook (ih ?_ (by omega) (get_processFrame hget hconn {}) ?_)
          · rw [List.length_drop]
            omega
          · intro rest hrest
            rw [← List.drop_drop] at hrest
            exact hcareful rest (.frame hlook hrest)
        · exact ⟨[.frame f], take_frame hget hconn f,
            Or.inr ⟨rfl, .stop ((find_drop hmax consumed).trans hlook)⟩⟩

end Loop

/-! ### Text -/

/-- How a connection that reads text is classified. -/
abbrev textTags : CString × CString := (str "syslog", str "device")

theorem encodes_default (count : ℕ) : Answers.encodes {} count = true :=
  List.all_eq_true.mpr fun _ _ => rfl

theorem hand_nil (s : State) : s.hand [] = s := if_pos rfl

/-- Records handed on in two lists. -/
theorem hand_hand (s : State) (records records' : List LogRecord) :
    Alike ((s.hand records).hand records') (s.hand (records ++ records')) := by
  by_cases hempty : records = []
  · rw [hempty, hand_nil, List.nil_append]
    exact .refl _
  · by_cases hempty' : records' = []
    · rw [hempty', List.append_nil, hand_nil]
      exact .refl _
    · rw [State.hand, if_neg hempty', State.hand, if_neg hempty, State.hand, if_neg (by simp [hempty])]
      refine ⟨rfl, fun _ => rfl, rfl, ?_, rfl⟩
      simp

/-- The records of a text. -/
def textRecords (c : ℕ) (conn : Conn) (text : List UInt8) : List LogRecord :=
  (syslogLines text).map (syslogLogRecord c (conn.classify (str "syslog") (str "device")))

theorem process_syslog (text : List UInt8) :
    process cfg s c conn {} (.syslog text) =
      ((s.setConn c fun _ => conn.classify (str "syslog") (str "device")).hand (textRecords c conn text),
        true) := by
  rw [process, processSyslogLines, encodes_default, if_pos rfl]
  rfl

/-- **Lines handled one by one** are handed on as if it were at once. -/
theorem takeAll_lines {lines : List (List UInt8)} (hget : s.conns.get c = some conn)
    (hconn : conn.Is textTags) :
    Alike (s.takeAll cfg c (lines.map lineInput))
      (s.hand (lines.flatMap fun line => textRecords c conn (line ++ [0x0A]))) := by
  induction lines generalizing s with
  | nil => exact .refl s
  | cons line lines ih =>
    have htake : Alike (s.take cfg c (lineInput line)) (s.hand (textRecords c conn (line ++ [0x0A]))) := by
      rw [State.take, hget]
      show Alike (process cfg s c conn {} (.syslog (line ++ [0x0A]))).1 _
      rw [process_syslog]
      exact (alike_setConn hget hconn.classify).hand _
    have hget' : (s.take cfg c (lineInput line)).conns.get c = some conn := by
      rw [htake.conns, conns_hand, hget]
    exact (ih hget').trans ((htake.hand _).trans (hand_hand s _ _))

/-! ### Buffers read -/

/-- A connection that ends is not asked how it was classified. -/
theorem connDel_setConn (hget : s.conns.get c = some conn) {f : Conn → Conn}
    (hf : (f conn).agentKey = conn.agentKey) :
    Alike (connDel cfg (s.setConn c f) c) (connDel cfg s c) := by
  have herase : ∀ (agents : AgentTable) (posts : List Post),
      Alike { s.setConn c f with agents, posts, conns := (s.setConn c f).conns.erase c }
        { s with agents, posts, conns := s.conns.erase c } := by
    intro agents posts
    refine ⟨rfl, fun d => ?_, rfl, rfl, rfl⟩
    show ((s.setConn c f).conns.erase c).get d = (s.conns.erase c).get d
    rw [Collection.get_erase, Collection.get_erase]
    split_ifs with hd
    · rfl
    · rw [State.setConn, Collection.get_updateWhere, if_neg hd]
  have hkey : (s.setConn c f).agentKey c = s.agentKey c := by
    rw [agentKey_setConn, if_pos rfl, hget, Option.bind_some, hf, agentKey_of_get hget]
  rw [connDel, connDel, hkey]
  cases s.agentKey c with
  | none => exact herase s.agents s.posts
  | some id => exact herase _ _

/-- What is made of a buffer: its messages are handled, and either it is said how far they go, and
what is behind them may classify the connection, or the connection ends with them. -/
def BufferRead (cfg : Config) (c max : ℕ) (data : List UInt8) (s : State) (p : State × Option ℕ) :
    Prop :=
  ∃ ms, (∃ k, p.2 = some k ∧ k ≤ data.length ∧ Reads (finder max) data ms (some (data.drop k)) ∧
      Alike p.1 ((s.takeAll cfg c ms).settle c (data.drop k))) ∨
    (p.2 = none ∧ Reads (finder max) data ms none ∧
      Alike (connDel cfg p.1 c) (connDel cfg (s.takeAll cfg c ms) c))

section Buffers

variable {max : ℕ} {data : List UInt8}

/-- Nothing is left out that has no messages. -/
theorem eq_of_reads_nil {rest : List UInt8} (h : Reads (finder max) data [] (some rest)) : rest = data := by
  generalize hms : ([] : List Input) = ms at h
  cases h with
  | more _ => rfl
  | message _ _ => exact absurd hms (by simp)

/-- Messages read after their buffer had classified the connection. -/
theorem takeAll_classified (hget : s.conns.get c = some conn) {tags : CString × CString}
    (htags : tagsOf data = some tags) {ms : List Input} {rest : List UInt8}
    (hreads : Reads (finder max) data ms (some rest))
    (his : ∃ conn', ((s.setConn c fun conn => conn.classify tags.1 tags.2).takeAll cfg c ms).conns.get c =
      some conn' ∧ conn'.Is tags)
    (hrest : ∀ tags', tagsOf rest = some tags' → tags' = tags) :
    Alike ((s.setConn c fun conn => conn.classify tags.1 tags.2).takeAll cfg c ms)
      ((s.takeAll cfg c ms).settle c rest) := by
  cases ms with
  | nil =>
    rw [eq_of_reads_nil hreads, State.settle, htags]
    exact .refl _
  | cons i is =>
    have hsame : Alike ((s.setConn c fun conn => conn.classify tags.1 tags.2).takeAll cfg c (i :: is))
        (s.takeAll cfg c (i :: is)) := (take_setConn_classify hget tags i).takeAll is
    obtain ⟨conn', hget', hconn'⟩ := his
    rw [hsame.conns] at hget'
    exact hsame.trans (settle_of_is hget' hconn' hrest)

/-- The same for a connection that ends. -/
theorem connDel_takeAll_classified (hget : s.conns.get c = some conn) (tags : CString × CString)
    (ms : List Input) :
    Alike (connDel cfg ((s.setConn c fun conn => conn.classify tags.1 tags.2).takeAll cfg c ms) c)
      (connDel cfg (s.takeAll cfg c ms) c) := by
  cases ms with
  | nil => exact connDel_setConn hget rfl
  | cons i is =>
    have hsame : Alike ((s.setConn c fun conn => conn.classify tags.1 tags.2).takeAll cfg c (i :: is))
        (s.takeAll cfg c (i :: is)) := (take_setConn_classify hget tags i).takeAll is
    exact hsame.connDel c

theorem bufferRead_frames {ans : ℕ → Answers} (hans : ∀ n, ans n = {}) (hmax : data.length ≤ max)
    (hget : s.conns.get c = some conn) (hwzcp : looksLikeWzcp data = true)
    (hcareful : ∀ rest, Behind data rest → Framed rest) :
    BufferRead cfg c max data s (processFrames cfg c ans s data) := by
  have htags : tagsOf data = some frameTags := by
    rw [tagsOf, if_pos hwzcp]
  obtain ⟨ms, halike, hcases⟩ := @framesLoop_reads cfg c max data ans hans hmax data.length
    (s.setConn c fun conn => conn.classify frameTags.1 frameTags.2) 0 le_rfl (Nat.zero_le _)
    ⟨_, get_setConn _ hget, rfl, rfl⟩ hcareful
  refine ⟨ms, ?_⟩
  rcases hcases with ⟨k, hk, hkle, hreads, hframed, hframes⟩ | ⟨hk, hreads⟩
  · refine Or.inl ⟨k, hk, hkle, hreads, halike.trans (takeAll_classified hget htags hreads hframes ?_)⟩
    intro tags' htags'
    rw [tagsOf] at htags'
    split_ifs at htags' with hwzcp' hsyslog
    · exact (Option.some.inj htags').symm
    · -- what is behind the frames is not text
      rcases hframed with hwzcp'' | ⟨-, hsyslog'⟩
      · exact absurd hwzcp'' hwzcp'
      · exact absurd (hsyslog'.symm.trans hsyslog) (by simp)
  · exact Or.inr ⟨hk, hreads, (halike.connDel c).trans (connDel_takeAll_classified hget frameTags ms)⟩

theorem bufferRead_text (hmax : data.length ≤ max) (hget : s.conns.get c = some conn)
    (hsyslog : looksLikeSyslog data = true)
    (hlines : ∀ line ∈ completeLines [] data, looksLikeSyslog (line ++ [0x0A]) = true)
    (hwzcp : looksLikeWzcp (data.drop (consumedLines data)) = false)
    (hquiet : (data.drop (consumedLines data)).length < 4 + wzcpHeaderSize ∨
      looksLikeSyslog (data.drop (consumedLines data)) = true) :
    BufferRead cfg c max data s
      ((process cfg s c conn {} (.syslog data)).1, some (consumedLines data)) := by
  obtain ⟨lines, tail, rfl, hnone, htail⟩ := exists_unlines data
  rw [completeLines_unlines hnone htail] at hlines
  rw [drop_consumedLines htail] at hwzcp hquiet
  have htags : tagsOf (unlines lines ++ tail) = some textTags := by
    rw [tagsOf, looksLikeWzcp_eq_false hsyslog, if_neg (by simp), if_pos hsyslog]
  -- no line is longer than the buffer
  have hlen : ∀ line ∈ lines, line.length + 1 ≤ max := by
    intro line hline
    have hle : (line ++ [0x0A]).length ≤ (unlines lines).length := by
      have hmem : line ++ [0x0A] ∈ lines.map (· ++ [0x0A]) := List.mem_map_of_mem hline
      rw [unlines, List.flatMap_def]
      exact (List.sublist_flatten_of_mem hmem).length_le
    rw [List.length_append, List.length_singleton] at hle
    rw [List.length_append] at hmax
    omega
  have hrest : Reads (finder max) tail [] (some tail) := by
    refine .more ((find_of_length_le ?_).trans (look_rest hwzcp htail hquiet))
    rw [List.length_append] at hmax
    omega
  have hreads := reads_lines (fun line hline => ⟨hnone line hline, hlines line hline, hlen line hline⟩) hrest
  have hclassified : (s.setConn c fun conn => conn.classify textTags.1 textTags.2).conns.get c =
      some (conn.classify textTags.1 textTags.2) := get_setConn _ hget
  have hall := @takeAll_lines cfg _ c _ lines hclassified ⟨rfl, rfl⟩
  -- the text is handled at once, the lines one after the other: the same records
  have hprocess : Alike (process cfg s c conn {} (.syslog (unlines lines ++ tail))).1
      ((s.setConn c fun conn => conn.classify textTags.1 textTags.2).takeAll cfg c
        (lines.map lineInput)) := by
    have hrecords : textRecords c conn (unlines lines ++ tail) = lines.flatMap fun line =>
        textRecords c (conn.classify textTags.1 textTags.2) (line ++ [0x0A]) := by
      rw [textRecords, syslogLines_unlines hnone htail, List.map_flatMap]
      rfl
    have hsame : Alike (s.setConn c fun _ => conn.classify (str "syslog") (str "device"))
        (s.setConn c fun conn => conn.classify textTags.1 textTags.2) := alike_setConn_congr hget rfl
    rw [process_syslog, hrecords]
    exact (hsame.hand _).trans hall.symm
  refine ⟨lines.map lineInput, Or.inl ⟨_, rfl, ?_, ?_, ?_⟩⟩
  · rw [consumedLines_unlines htail, List.length_append]
    exact Nat.le_add_right _ _
  · rw [drop_consumedLines htail]
    exact hreads
  · rw [drop_consumedLines htail]
    refine hprocess.trans (takeAll_classified hget htags hreads
      ⟨conn.classify textTags.1 textTags.2, ?_, rfl, rfl⟩ ?_)
    · rw [hall.conns, conns_hand]
      exact hclassified
    · intro tags' htags'
      rw [tagsOf, hwzcp, if_neg (by simp)] at htags'
      split_ifs at htags'
      exact (Option.some.inj htags').symm

/-- **A careful buffer is read as its messages are.** -/
theorem reads_processBuffer {ans : ℕ → Answers} (hans : ∀ n, ans n = {}) (hmax : data.length ≤ max)
    (hget : s.conns.get c = some conn) (hcareful : CarefulBuffer data) :
    BufferRead cfg c max data s (processBuffer cfg c ans s conn data) := by
  rw [CarefulBuffer] at hcareful
  rw [processBuffer]
  split_ifs at hcareful ⊢ with hwzcp hsyslog hlong
  · exact bufferRead_frames hans hmax hget hwzcp hcareful
  · rw [hans]
    dsimp only
    rw [process_syslog, if_pos rfl, ← process_syslog]
    exact bufferRead_text hmax hget hsyslog hcareful.1 hcareful.2.1 hcareful.2.2
  · -- nothing that it could be
    refine ⟨[], Or.inr ⟨rfl, .stop (m := none) ((find_of_length_le hmax).trans ?_), .refl _⟩⟩
    rw [look, if_neg hwzcp, if_neg hsyslog, if_pos ⟨hlong, hcareful.resolve_left (Nat.not_lt.mpr hlong)⟩]
  · refine ⟨[], Or.inl ⟨0, rfl, Nat.zero_le _, .more ((find_of_length_le hmax).trans ?_), ?_⟩⟩
    · exact look_short (Nat.not_le.mp hlong) (Bool.eq_false_iff.mpr hsyslog)
    · have htags : tagsOf data = none := by
        rw [tagsOf, if_neg hwzcp, if_neg hsyslog]
      rw [List.drop_zero, State.settle, htags]
      exact .refl s

end Buffers

end Gateway

end Xsiam
