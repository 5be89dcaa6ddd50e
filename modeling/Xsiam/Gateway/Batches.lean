import Xsiam.Gateway.Conn

/-!
# Acknowledged batches

An agent deletes its events once their batch is acknowledged. `process_event_batch` threads every
failure of the parsing and of the encoding to the caller, which then sends no acknowledgement, but
not the one of `flb_input_log_append`: what the engine answers to the records is not looked at. Nor
does it look at what stands behind the last event.

So an acknowledged batch is in the engine exactly if the engine took it and its body ends with its
last event (`Xsiam.Gateway.batchSafe_iff`).
-/

namespace Xsiam

namespace Gateway

open Go (str)

/-- How the calls of the handler of a batch go, the one that it does not look at with them. -/
structure BatchAnswers extends Answers where
  /-- Whether `flb_input_log_append` takes the records. -/
  append : Bool := true

/-- The bytes that a batch of these events has. -/
def batchLength (events : List EventRecord) : ℕ :=
  2 + (events.map fun ev => 20 + ev.payload.length).sum

/-- The records that came into the engine between two states. -/
def taken (ans : BatchAnswers) (before after : State) : List LogRecord :=
  if ans.append then (after.handed.drop before.handed.length).flatten else []

/-- The connection that a frame is handled on. -/
def Conn.asAgent (conn : Conn) : Conn := conn.classify (str "agent_wzcp") (str "agent")

/-- **An acknowledged batch is not lost**: the frame was acknowledged only if its body is that of
some events, to the last byte, and the engine has a record of each. -/
def BatchSafe (cfg : Config) (s : State) (c : ℕ) (conn : Conn) (f : Frame) (ans : BatchAnswers) :
    Prop :=
  f.msgType = wzcpMsgEventBatch →
    let after := (process cfg s c conn ans.toAnswers (.frame f)).1
    after.acks = s.acks ++ [(c, f.seq)] →
      ∃ events, parseEventBatch f.body = some events ∧ batchLength events = f.body.length ∧
        taken ans s after = events.map (eventLogRecord c conn.asAgent f)

section

variable {cfg : Config} {s : State} {c : ℕ} {conn : Conn} {f : Frame} {ans : Answers}

theorem refresh_acks (s : State) (c : ℕ) : (s.refresh cfg c).acks = s.acks := by
  rw [State.refresh]
  split <;> rfl

theorem refresh_handed (s : State) (c : ℕ) : (s.refresh cfg c).handed = s.handed := by
  rw [State.refresh]
  split <;> rfl

/-- What is acknowledged and handed on of a batch. -/
theorem processEventBatch_spec (s : State) (c : ℕ) (conn : Conn) (f : Frame) (ans : Answers) :
    let after := (processEventBatch s c conn f ans).1
    (after.acks = s.acks ∧
      ∀ events, parseEventBatch f.body = some events →
        ¬(ans.encodes events.length = true ∧ ans.ack = true)) ∨
      ∃ events, parseEventBatch f.body = some events ∧ ans.encodes events.length = true ∧
        ans.ack = true ∧ after.acks = s.acks ++ [(c, f.seq)] ∧
        after.handed = (s.hand (events.map (eventLogRecord c conn f))).handed := by
  intro after
  have hhand : ∀ records, (s.hand records).acks = s.acks := by
    intro records
    rw [State.hand]
    split_ifs <;> rfl
  cases hparse : parseEventBatch f.body with
  | none =>
    refine Or.inl ⟨?_, fun _ h => absurd h (by simp)⟩
    simp only [after, processEventBatch, hparse]
  | some events =>
    by_cases henc : ans.encodes events.length = true
    · by_cases hack : ans.ack = true
      · refine Or.inr ⟨events, rfl, henc, hack, ?_, ?_⟩
        · simp only [after, processEventBatch, hparse, henc, if_true, State.sendAck, hack, hhand]
        · simp only [after, processEventBatch, hparse, henc, if_true, State.sendAck, hack]
      · refine Or.inl ⟨?_, fun evs h hboth => hack hboth.2⟩
        simp only [after, processEventBatch, hparse, henc, if_true, State.sendAck]
        rw [if_neg hack]
        exact hhand _
    · refine Or.inl ⟨?_, fun evs h hboth => ?_⟩
      · simp only [after, processEventBatch, hparse, henc]
        rfl
      · rw [← Option.some.inj h] at hboth
        exact henc hboth.1

/-- The handler of a frame that is a batch. -/
theorem process_batch (hf : f.msgType = wzcpMsgEventBatch) :
    process cfg s c conn ans (.frame f) =
      processEventBatch ((s.setConn c fun _ => conn.asAgent).refresh cfg c) c conn.asAgent f ans := by
  have hhello : f.msgType ≠ wzcpMsgHello := by rw [hf]; decide
  have hbeat : f.msgType ≠ wzcpMsgHeartbeat := by rw [hf]; decide
  change processFrame cfg (s.setConn c fun _ => conn.asAgent) c conn.asAgent f ans = _
  rw [processFrame, if_neg hhello, if_neg hbeat, if_pos hf]

/-- What the engine has of records that it was handed. -/
theorem taken_hand {before after : State} {records : List LogRecord} (ans : BatchAnswers)
    (h : after.handed = (before.hand records).handed) :
    taken ans before after = records ↔ records = [] ∨ ans.append = true := by
  rw [taken, h, State.hand]
  by_cases hrec : records = []
  · simp [hrec]
  · rw [if_neg hrec]
    by_cases happend : ans.append = true
    · simp [happend]
    · rw [if_neg happend]
      exact iff_of_false (fun hnil => hrec hnil.symm) (by simp [hrec, happend])

end

/-- **The batches that are safe**: those that are not acknowledged, because the body cannot be
parsed, a record cannot be encoded or the acknowledgement cannot be written; and those whose body
ends with its last event and that have no events, or whose records the engine takes. -/
theorem batchSafe_iff (cfg : Config) (s : State) (c : ℕ) (conn : Conn) (f : Frame)
    (ans : BatchAnswers) :
    BatchSafe cfg s c conn f ans ↔
      (f.msgType = wzcpMsgEventBatch → ∀ events, parseEventBatch f.body = some events →
        ans.encodes events.length = true → ans.ack = true →
          batchLength events = f.body.length ∧ (events = [] ∨ ans.append = true)) := by
  refine forall_congr' fun hf => ?_
  have hstart : ((s.setConn c fun _ => conn.asAgent).refresh cfg c).acks = s.acks :=
    refresh_acks _ c
  have hhanded : ((s.setConn c fun _ => conn.asAgent).refresh cfg c).handed = s.handed :=
    refresh_handed _ c
  rw [process_batch hf]
  rcases processEventBatch_spec ((s.setConn c fun _ => conn.asAgent).refresh cfg c) c conn.asAgent f
    ans.toAnswers with ⟨hacks, hnone⟩ | ⟨events, hparse, henc, hack, hacks, hafter⟩
  · -- not acknowledged
    rw [hstart] at hacks
    constructor
    · intro _ events hparse henc hack
      exact absurd ⟨henc, hack⟩ (hnone events hparse)
    · intro _ after hacked
      exact absurd (hacks.symm.trans hacked) (by simp)
  · rw [hstart] at hacks
    have hafter' : (processEventBatch ((s.setConn c fun _ => conn.asAgent).refresh cfg c) c
        conn.asAgent f ans.toAnswers).1.handed =
          (s.hand (events.map (eventLogRecord c conn.asAgent f))).handed := by
      rw [hafter, State.hand, State.hand]
      split_ifs
      · exact hhanded
      · simp only [hhanded]
    have htaken := taken_hand ans hafter'
    rw [List.map_eq_nil_iff] at htaken
    constructor
    · intro h events' hparse' _ _
      obtain rfl := Option.some.inj (hparse.symm.trans hparse')
      obtain ⟨events', hparse', hlen, hrec⟩ := h hacks
      obtain rfl := Option.some.inj (hparse.symm.trans hparse')
      exact ⟨hlen, htaken.mp hrec⟩
    · intro h after _
      obtain ⟨hlen, hor⟩ := h events hparse henc hack
      exact ⟨events, hparse, hlen, htaken.mpr hor⟩

/-- A batch of one event without a payload. -/
def oneEvent : Frame :=
  { msgType := wzcpMsgEventBatch, seq := 7, body := [0, 1] ++ List.replicate 20 0 }

/-- The engine is paused, and the batch is acknowledged all the same. -/
theorem not_batchSafe :
    (process {} (.init 0) 0 {} {} (.frame oneEvent)).1.acks = [(0, 7)] ∧
      ¬BatchSafe {} (.init 0) 0 {} oneEvent { append := false } := by
  have hacks : (process {} (.init 0) 0 {} {} (.frame oneEvent)).1.acks = [(0, 7)] := by decide
  refine ⟨hacks, fun h => ?_⟩
  obtain ⟨events, hparse, -, htaken⟩ := h rfl hacks
  have hone : (parseEventBatch oneEvent.body).map List.length = some 1 := by decide
  rw [hparse, Option.map_some] at hone
  have hlen := congrArg List.length htaken
  rw [List.length_map, Option.some.inj hone] at hlen
  exact absurd hlen (by simp [taken])

end Gateway

end Xsiam
