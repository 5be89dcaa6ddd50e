import Mathlib.Data.List.ReduceOption
import Xsiam.Lib.Ring

/-!
# The buffer of an agent

An agent does not send an event when it has read it: it appends it to a buffer, and a dispatcher takes
the events out and sends them at its own pace. The buffer is a ring of one slot more than it is to
hold. Its mutex guards the two places of the ring, and not the slots: the dispatcher moves on under the
mutex, sends without it, and empties the slot when it is done.

Every event that was accepted is sent once and in order, whatever the order of the steps
(`Xsiam.Agent.sent_in_order`): the slot that the dispatcher empties late is the one slot that no
append writes.
-/

namespace Xsiam

namespace Agent

/-! ### Definitions -/

/-- `NORMAL`, `WARNING`, `FULL` and `FLOOD` -/
inductive BufferStatus where
  | normal
  | warning
  | full
  | flood
  deriving DecidableEq

/-- `buff`: the alerts that are to be sent. -/
structure Buff where
  full : Bool
  warn : Bool
  flood : Bool
  normal : Bool

/-- The configured levels. The macros `warn`, `nowarn` and `normal` compare quotients of floats, of
what is in the buffer and how much it holds. -/
structure BufferLevels where
  warn : ℕ → ℕ → Bool
  nowarn : ℕ → ℕ → Bool
  normal : ℕ → ℕ → Bool
  tolerance : ℤ

/-- The variables of the buffer, with `agt->buflength`. -/
structure ClientBuffer (Msg : Type) where
  i : ℕ
  j : ℕ
  state : BufferStatus
  buff : Buff
  start : ℤ
  buffer : List (Option Msg)
  buflength : ℕ

namespace ClientBuffer

variable {Msg : Type} (s : ClientBuffer Msg)

/-- `buffer_init` -/
def init (buflength : ℕ) : ClientBuffer Msg where
  i := 0
  j := 0
  state := .normal
  buff := ⟨false, false, false, false⟩
  start := 0
  buffer := List.replicate (buflength + 1) none
  buflength

/-- `full(i, j, agt->buflength + 1)` -/
def full : Bool := (s.i + 1) % (s.buflength + 1) == s.j

/-- `empty(i, j)` -/
def empty : Bool := s.i == s.j

/-- What `warn`, `nowarn` and `normal` compare with the levels. -/
def used : ℕ := (s.i + (s.buflength + 1) - s.j) % (s.buflength + 1)

/-- The first `switch` of `buffer_append`: does the usage reach a higher level? -/
def raise (lv : BufferLevels) (now : ℤ) : ClientBuffer Msg :=
  match s.state with
  | .normal =>
    if s.full then { s with buff := { s.buff with full := true }, state := .full, start := now }
    else if lv.warn s.used s.buflength then
      { s with state := .warning, buff := { s.buff with warn := true } }
    else s
  | .warning =>
    if s.full then { s with buff := { s.buff with full := true }, state := .full, start := now }
    else s
  | .full =>
    if lv.tolerance ≤ now - s.start then
      { s with state := .flood, buff := { s.buff with flood := true } }
    else s
  | .flood => s

/-- `buffer_append` -/
def append (lv : BufferLevels) (now : ℤ) (msg : Msg) : ℤ × ClientBuffer Msg :=
  let s := s.raise lv now
  if s.full then (-1, s)
  else (0, { s with buffer := s.buffer.set s.i (some msg), i := (s.i + 1) % (s.buflength + 1) })

/-- The `switch` of `dispatch_buffer`: does the usage reach a lower level? -/
def lower (lv : BufferLevels) : ClientBuffer Msg :=
  match s.state with
  | .normal => s
  | .warning =>
    if lv.normal s.used s.buflength then
      { s with state := .normal, buff := { s.buff with normal := true } }
    else s
  | .full | .flood =>
    let s := if lv.nowarn s.used s.buflength then { s with state := .warning } else s
    if lv.normal s.used s.buflength then
      { s with state := .normal, buff := { s.buff with normal := true } }
    else s

/-- `w_agentd_get_buffer_lenght`, while the buffer is enabled -/
def getBufferLength : ℤ :=
  let retval := Int.tmod ((s.i : ℤ) - s.j) (s.buflength + 1)
  if retval < 0 then retval + s.buflength + 1 else retval

/-- One turn of the loop that moves the messages to a smaller buffer. -/
def moveSlot (current j : ℕ) (t : List (Option Msg) × List (Option Msg)) (k : ℕ) :
    List (Option Msg) × List (Option Msg) :=
  let oldIdx := (j + k) % (current + 1)
  match t.1[oldIdx]?.join with
  | some msg => (t.1.set oldIdx none, t.2.set k (some msg))
  | none => t

/-- `memcpy` to the beginning of a buffer. -/
def copyOver (dst src : List (Option Msg)) : List (Option Msg) := src ++ dst.drop src.length

/-- `w_agentd_buffer_resize`, with the messages that it frees -/
def resize (current desired : ℕ) : ℤ × List Msg × ClientBuffer Msg :=
  if desired ≤ 0 then (-1, [], s)
  else if desired = current then (0, [], s)
  else if s.getBufferLength < 0 then (-1, [], s)
  else
    let count := s.getBufferLength.toNat
    if current + 1 < count then (-1, [], s)
    else
      let temp := List.replicate (desired + 1) none
      if current < desired then
        let src :=
          if s.j < s.i then (s.buffer.drop s.j).take count
          else (s.buffer.drop s.j).take (current - s.j + 1) ++ s.buffer.take s.i
        (0, [], { s with j := 0, i := count, buffer := copyOver temp src })
      else
        let retained := if count < desired then count else desired
        let moved := (List.range retained).foldl (moveSlot current s.j) (s.buffer, temp)
        (0, moved.1.reduceOption, { s with j := 0, i := retained, buffer := moved.2 })

/-- What a reload of the configuration does to a buffer that stays enabled: the new length is read
before `w_agentd_buffer_resize` is called with the old one. -/
def reload (desired : ℕ) : ℤ × List Msg × ClientBuffer Msg :=
  { s with buflength := desired }.resize s.buflength desired

end ClientBuffer

/-! ### The dispatcher -/

/-- What `dispatch_buffer` does next with the message that it took. -/
inductive Turn where
  | warn
  | full
  | flood
  | normal
  | send
  | null
  deriving DecidableEq

/-- `dispatch_buffer` between its critical section and the end of its loop. -/
structure Dispatch (Msg : Type) where
  msgOutput : Option Msg
  originalJ : ℕ
  turn : Turn

/-- What is given to `send_msg`. -/
inductive Line (Msg : Type) where
  /-- `OS_WARN_BUFFER` and the like -/
  | alert (status : BufferStatus)
  | event (msg : Msg)

/-- The message of a line that is one. -/
def Line.event? {Msg : Type} : Line Msg → Option Msg
  | .alert _ => none
  | .event msg => some msg

/-- An agent's buffer and its dispatcher, what was sent, and what became of the messages. -/
structure Client (Msg : Type) where
  buf : ClientBuffer Msg
  dispatcher : Option (Dispatch Msg)
  sent : List (Line Msg)
  /-- the messages for which `buffer_append` returned 0 -/
  accepted : List Msg
  /-- those for which it returned -1 -/
  refused : List Msg
  /-- those that `w_agentd_buffer_resize` freed -/
  freed : List Msg

namespace Client

variable {Msg : Type}

/-- An agent that starts. -/
def init (buflength : ℕ) : Client Msg := ⟨.init buflength, none, [], [], [], []⟩

/-- A step of an agent. -/
inductive Event (Msg : Type) where
  /-- `buffer_append` at a time -/
  | append (now : ℤ) (msg : Msg)
  /-- what `dispatch_buffer` does next -/
  | dispatch
  /-- a reload of the configuration, with the new length -/
  | reload (desired : ℕ)

/-- The critical section of `dispatch_buffer`. -/
def take (lv : BufferLevels) (s : Client Msg) : Client Msg :=
  let b := s.buf.lower lv
  { s with
    buf := { b with j := (b.j + 1) % (b.buflength + 1) }
    dispatcher := some ⟨b.buffer[b.j]?.join, b.j, .warn⟩ }

/-- An alert is sent when its flag is up, and the flag goes down. -/
def alert (s : Client Msg) (d : Dispatch Msg) (flag : Bool) (status : BufferStatus) (buff : Buff)
    (next : Turn) : Client Msg :=
  let s := { s with dispatcher := some { d with turn := next } }
  if flag then { s with buf := { s.buf with buff }, sent := s.sent ++ [.alert status] } else s

/-- What `dispatch_buffer` does after its critical section. -/
def proceed (s : Client Msg) (d : Dispatch Msg) : Client Msg :=
  let buff := s.buf.buff
  match d.turn with
  | .warn => s.alert d buff.warn .warning { buff with warn := false } .full
  | .full => s.alert d buff.full .full { buff with full := false } .flood
  | .flood => s.alert d buff.flood .flood { buff with flood := false } .normal
  | .normal => s.alert d buff.normal .normal { buff with normal := false } .send
  | .send =>
    match d.msgOutput with
    | some msg =>
      { s with sent := s.sent ++ [.event msg], dispatcher := some { d with turn := .null } }
    | none => { s with dispatcher := none }
  | .null =>
    { s with
      buf := { s.buf with buffer := s.buf.buffer.set d.originalJ none }
      dispatcher := none }

/-- A step of an agent. The dispatcher waits while the buffer is empty. -/
def step (lv : BufferLevels) (s : Client Msg) : Event Msg → Option (Client Msg)
  | .append now msg =>
    let (retval, buf) := s.buf.append lv now msg
    some <| if retval = 0 then { s with buf, accepted := s.accepted ++ [msg] }
    else { s with buf, refused := s.refused ++ [msg] }
  | .dispatch =>
    match s.dispatcher with
    | none => if s.buf.empty then none else some (s.take lv)
    | some d => some (s.proceed d)
  | .reload desired =>
    let (_, freed, buf) := s.buf.reload desired
    some { s with buf, freed := s.freed ++ freed }

/-! ### What is to be said of a run -/

/-- The messages that were sent. -/
def delivered (s : Client Msg) : List Msg := s.sent.filterMap Line.event?

/-- The message that the dispatcher holds and has not sent. -/
def held (s : Client Msg) : List Msg :=
  match s.dispatcher with
  | none => []
  | some d => if d.turn = .null then [] else d.msgOutput.toList

/-- The messages in the buffer, oldest first. -/
def queued (s : Client Msg) : List Msg :=
  ((s.buf.buffer.rotate s.buf.j).take s.buf.getBufferLength.toNat).reduceOption

end Client

/-! ### The levels -/

namespace ClientBuffer

variable {Msg : Type} {s : ClientBuffer Msg}

/-- The levels change nothing in the ring. -/
theorem raise_ring (s : ClientBuffer Msg) (lv : BufferLevels) (now : ℤ) : ∃ state buff start,
    s.raise lv now = { s with state, buff, start } := by
  fun_cases raise s lv now
  all_goals exact ⟨_, _, _, rfl⟩

theorem lower_ring (s : ClientBuffer Msg) (lv : BufferLevels) : ∃ state buff,
    s.lower lv = { s with state, buff } := by
  unfold lower
  split
  · exact ⟨_, _, rfl⟩
  · split <;> exact ⟨_, _, rfl⟩
  all_goals
    split
    all_goals
      dsimp only
      split <;> exact ⟨_, _, rfl⟩

/-- **What an append does**: it is refused if the ring is full, and writes the slot at its head. -/
theorem append_cases (s : ClientBuffer Msg) (lv : BufferLevels) (now : ℤ) (msg : Msg) :
    ∃ state buff start,
    (s.full = true ∧ s.append lv now msg = (-1, { s with state, buff, start })) ∨
      (s.full = false ∧ s.append lv now msg =
        (0, { s with
          state, buff, start
          buffer := s.buffer.set s.i (some msg)
          i := (s.i + 1) % (s.buflength + 1) })) := by
  obtain ⟨state, buff, start, heq⟩ := s.raise_ring lv now
  refine ⟨state, buff, start, ?_⟩
  rw [append, heq]
  rcases hfull : s.full with - | -
  · exact Or.inr ⟨rfl, if_neg (by simpa [full] using hfull)⟩
  · exact Or.inl ⟨rfl, if_pos (by simpa [full] using hfull)⟩

/-- The length of the buffer as a remainder. -/
theorem getBufferLength_eq (s : ClientBuffer Msg) :
    s.getBufferLength = ((s.i : ℤ) - s.j) % (s.buflength + 1) := by
  have hpos : (0 : ℤ) < s.buflength + 1 := by omega
  have hnonneg := Int.emod_nonneg ((s.i : ℤ) - s.j) hpos.ne'
  have hlt := Int.emod_lt_of_pos ((s.i : ℤ) - s.j) hpos
  have hnat : (((s.buflength : ℤ) + 1).natAbs : ℤ) = s.buflength + 1 := by omega
  rw [getBufferLength, Int.tmod_eq_emod]
  split_ifs with hsign hneg hneg
  all_goals omega

end ClientBuffer

/-! ### The ring of a client -/

namespace Client

variable {Msg : Type} {s s' : Client Msg} {lv : BufferLevels} {l : List (Option Msg)}

/-- An append, with its two ends. -/
theorem step_append_cases {now : ℤ} {msg : Msg} (h : s.step lv (.append now msg) = some s') :
    ∃ state buff start,
      (s.buf.full = true ∧ s' = { s with
        buf := { s.buf with state, buff, start }
        refused := s.refused ++ [msg] }) ∨
      (s.buf.full = false ∧ s' = { s with
        buf := { s.buf with
          state, buff, start
          buffer := s.buf.buffer.set s.buf.i (some msg)
          i := (s.buf.i + 1) % (s.buf.buflength + 1) }
        accepted := s.accepted ++ [msg] }) := by
  obtain ⟨state, buff, start, hcases⟩ := s.buf.append_cases lv now msg
  refine ⟨state, buff, start, hcases.imp ?_ ?_⟩
  all_goals
    rintro ⟨hfull, heq⟩
    rw [step, heq] at h
    exact ⟨hfull, (Option.some.inj h).symm⟩

/-- What the dispatcher has not yet emptied. -/
def underWay (s : Client Msg) : Option Msg := s.dispatcher.bind Dispatch.msgOutput

/-- **The ring of a client**: the queue, empty slots, and last the slot that the dispatcher took. -/
structure Holds (s : Client Msg) (l : List (Option Msg)) : Prop where
  length : s.buf.buffer.length = s.buf.buflength + 1
  ring : ∃ f, Ring.Holds s.buf.buffer s.buf.i s.buf.j l (List.replicate f none ++ [s.underWay])
  place : ∀ d, s.dispatcher = some d →
    d.originalJ < s.buf.buffer.length ∧ s.buf.j = (d.originalJ + 1) % s.buf.buffer.length

namespace Holds

theorem init (buflength : ℕ) : (Client.init buflength : Client Msg).Holds [] where
  length := List.length_replicate
  ring := by
    refine ⟨buflength, ?_, by simp, by simp [Client.init, ClientBuffer.init], ?_⟩
    · simp [Client.init, ClientBuffer.init, underWay, List.replicate_succ']
    · simp [Client.init, ClientBuffer.init]
  place := by
    intro d hd
    cases hd

/-- Nothing in it depends on the levels, the lines sent, or how far the dispatcher is. -/
theorem congr (h : s.Holds l) (hbuffer : s'.buf.buffer = s.buf.buffer) (hi : s'.buf.i = s.buf.i)
    (hj : s'.buf.j = s.buf.j) (hlen : s'.buf.buflength = s.buf.buflength)
    (hway : s'.underWay = s.underWay)
    (hplace : ∀ d', s'.dispatcher = some d' →
      ∃ d, s.dispatcher = some d ∧ d'.originalJ = d.originalJ) : s'.Holds l where
  length := by rw [hbuffer, hlen, h.length]
  ring := by
    rw [hbuffer, hi, hj, hway]
    exact h.ring
  place := by
    intro d' hd'
    obtain ⟨d, hd, heq⟩ := hplace d' hd'
    rw [hbuffer, hj, heq]
    exact h.place d hd

/-- `full` and the free slots. -/
theorem full_iff (h : s.Holds l) : s.buf.full = true ↔ l.length = s.buf.buflength := by
  obtain ⟨f, hring⟩ := h.ring
  have hsucc := hring.succ_eq_tail_iff
  rw [h.length] at hsucc
  rw [ClientBuffer.full, beq_iff_eq, hsucc, Nat.add_right_cancel_iff]

theorem empty_iff (h : s.Holds l) : s.buf.empty = true ↔ l = [] := by
  obtain ⟨f, hring⟩ := h.ring
  rw [ClientBuffer.empty, beq_iff_eq, hring.head_eq_tail_iff]

theorem length_le (h : s.Holds l) : l.length ≤ s.buf.buflength := by
  obtain ⟨f, hring⟩ := h.ring
  have hroom := hring.room
  have hlen := h.length
  omega

/-- **`w_agentd_get_buffer_lenght` counts the slots of the queue.** -/
theorem getBufferLength_eq (h : s.Holds l) : s.buf.getBufferLength = l.length := by
  obtain ⟨f, hring⟩ := h.ring
  have hlen := h.length
  have hle := h.length_le
  rw [ClientBuffer.getBufferLength_eq]
  rcases hring.cases_places with ⟨-, heq⟩ | ⟨-, heq⟩
  · have hdiff : (s.buf.i : ℤ) - s.buf.j = l.length := by omega
    rw [hdiff, Int.emod_eq_of_lt (by omega) (by omega)]
  · have hdiff : (s.buf.i : ℤ) - s.buf.j = l.length + (s.buf.buflength + 1) * (-1) := by omega
    rw [hdiff, Int.add_mul_emod_self_left, Int.emod_eq_of_lt (by omega) (by omega)]

theorem queued_eq (h : s.Holds l) : s.queued = l.reduceOption := by
  obtain ⟨f, hring⟩ := h.ring
  rw [queued, h.getBufferLength_eq, hring.rotate_eq, Int.toNat_natCast, List.take_left]

/-! ### What a step does to it -/

/-- **An append** is refused when the queue has `buflength` slots, or else goes to its end. -/
theorem append (h : s.Holds l) {now : ℤ} {msg : Msg} (hstep : s.step lv (.append now msg) = some s') :
    s'.dispatcher = s.dispatcher ∧ s'.sent = s.sent ∧ s'.freed = s.freed ∧
      ((l.length = s.buf.buflength ∧ s'.Holds l ∧ s'.accepted = s.accepted ∧
          s'.refused = s.refused ++ [msg]) ∨
        (l.length < s.buf.buflength ∧ s'.Holds (l ++ [some msg]) ∧
          s'.accepted = s.accepted ++ [msg] ∧ s'.refused = s.refused)) := by
  obtain ⟨state, buff, start, ⟨hfull, heq⟩ | ⟨hfull, heq⟩⟩ := step_append_cases hstep
  · subst heq
    refine ⟨rfl, rfl, rfl, Or.inl ⟨h.full_iff.mp hfull, ?_, rfl, rfl⟩⟩
    exact h.congr rfl rfl rfl rfl rfl fun d hd => ⟨d, hd, rfl⟩
  · subst heq
    have hlen := h.length
    obtain ⟨f, hring⟩ := h.ring
    have hlt : l.length < s.buf.buflength := by
      refine lt_of_le_of_ne h.length_le fun hall => ?_
      rw [h.full_iff.mpr hall] at hfull
      cases hfull
    -- a slot is free besides the one that the dispatcher took
    obtain ⟨g, rfl⟩ : ∃ g, f = g + 1 := by
      have hcount := hring.length_eq
      rw [List.length_append, List.length_replicate, List.length_singleton] at hcount
      exact ⟨f - 1, by omega⟩
    rw [List.replicate_succ, List.cons_append] at hring
    have hpush := hring.push (by simp) (some msg)
    rw [hlen] at hpush
    refine ⟨rfl, rfl, rfl, Or.inr ⟨hlt, ⟨?_, ⟨g, hpush⟩, fun d hd => ?_⟩, rfl, rfl⟩⟩
    · exact List.length_set.trans hlen
    · simpa only [List.length_set] using h.place d hd

variable (lv) in
/-- **The critical section of the dispatcher** takes the oldest slot. -/
theorem take (h : s.Holds l) (hwait : s.dispatcher = none) (hne : l ≠ []) :
    ∃ x rest, l = x :: rest ∧ (s.take lv).Holds rest ∧
      ∃ j, (s.take lv).dispatcher = some ⟨x, j, .warn⟩ := by
  obtain ⟨x, rest, rfl⟩ := List.exists_cons_of_ne_nil hne
  obtain ⟨f, hring⟩ := h.ring
  obtain ⟨state, buff, heq⟩ := s.buf.lower_ring lv
  have hway : s.underWay = none := by rw [underWay, hwait, Option.bind_none]
  have hlen := h.length
  have htake : s.take lv = { s with
      buf := { s.buf with state, buff, j := (s.buf.j + 1) % (s.buf.buflength + 1) }
      dispatcher := some ⟨x, s.buf.j, .warn⟩ } := by
    rw [Client.take, heq]
    dsimp only
    rw [hring.getElem?_tail, Option.join_some]
  rw [htake]
  refine ⟨x, rest, rfl, ⟨hlen, ⟨f + 1, ?_⟩, fun d hd => ?_⟩, s.buf.j, rfl⟩
  · have hpop := hring.pop
    rw [hway, ← List.replicate_succ', hlen] at hpop
    exact hpop
  · obtain rfl := Option.some.inj hd
    rw [← hlen]
    exact ⟨hring.tail_lt, rfl⟩

/-- **What the dispatcher does with what it took** leaves the queue alone. -/
theorem proceed (h : s.Holds l) {d : Dispatch Msg} (hd : s.dispatcher = some d) :
    (s.proceed d).Holds l := by
  have halert : ∀ flag status buff next, (s.alert d flag status buff next).Holds l := by
    intro flag status buff next
    rw [alert]
    split
    all_goals
      refine h.congr rfl rfl rfl rfl (by simp [underWay, hd]) fun d' hd' => ⟨d, hd, ?_⟩
      obtain rfl := Option.some.inj hd'
      rfl
  unfold Client.proceed
  dsimp only
  split
  case h_1 | h_2 | h_3 | h_4 => exact halert ..
  case h_5 =>
    split
    next msg hmsg =>
      refine h.congr rfl rfl rfl rfl (by simp [underWay, hd]) fun d' hd' => ⟨d, hd, ?_⟩
      obtain rfl := Option.some.inj hd'
      rfl
    next hmsg =>
      refine h.congr rfl rfl rfl rfl (by simp [underWay, hd, hmsg]) fun d' hd' => ?_
      cases hd'
  case h_6 =>
    obtain ⟨f, hring⟩ := h.ring
    obtain ⟨hlt, hplace⟩ := h.place d hd
    refine ⟨List.length_set.trans h.length, ⟨f, ?_⟩, fun d' hd' => by cases hd'⟩
    rw [hplace] at hring
    have hwrite := hring.write_last hlt none
    rw [← hplace] at hwrite
    exact hwrite

/-- While the dispatcher waits, what is not in the queue is empty. -/
theorem rotate_eq (h : s.Holds l) (hwait : s.dispatcher = none) :
    s.buf.buffer.rotate s.buf.j =
      l ++ List.replicate (s.buf.buflength + 1 - l.length) none := by
  obtain ⟨f, hring⟩ := h.ring
  have hway : s.underWay = none := by rw [underWay, hwait, Option.bind_none]
  have hlen := hring.length_eq
  rw [h.length, List.length_append, List.length_replicate, List.length_singleton] at hlen
  rw [hring.rotate_eq, hway, ← List.replicate_succ', hlen, Nat.add_sub_cancel_left]

/-- A buffer with a queue at its beginning, and nothing else in it. -/
theorem of_prefix {b : ClientBuffer Msg} {freed : List Msg} (hwait : s.dispatcher = none)
    (hlen : l.length ≤ b.buflength)
    (hbuffer : b.buffer = l ++ List.replicate (b.buflength + 1 - l.length) none)
    (hi : b.i = l.length) (hj : b.j = 0) : Client.Holds { s with buf := b, freed } l where
  length := by
    show b.buffer.length = b.buflength + 1
    rw [hbuffer, List.length_append, List.length_replicate]
    omega
  ring := by
    refine ⟨b.buflength - l.length, ?_⟩
    have hway : Client.underWay { s with buf := b, freed } = none := by
      simp only [underWay, hwait, Option.bind_none]
    have hsucc : b.buflength + 1 - l.length = b.buflength - l.length + 1 := by omega
    rw [hway, ← List.replicate_succ', ← hsucc]
    show Ring.Holds b.buffer b.i b.j _ _
    rw [hbuffer, hi, hj]
    refine Ring.Holds.of_append ?_
    rw [hsucc]
    simp
  place := by
    intro d hd
    exact absurd (hwait.symm.trans hd) (by simp)

end Holds

end Client

/-! ### A reload -/

namespace ClientBuffer

variable {Msg : Type} {old temp : List (Option Msg)} {current j : ℕ}

/-- **The loop that moves the oldest slots**: they are empty then, and at the beginning of the new
buffer. -/
theorem foldl_moveSlot (hlen : old.length = current + 1) {r d : ℕ} (hr : r ≤ current + 1)
    (hd : r ≤ d) :
    let moved := (List.range r).foldl (moveSlot current j) (old, List.replicate d none)
    moved.1.length = current + 1 ∧
      moved.1.rotate j = List.replicate r none ++ (old.rotate j).drop r ∧
      moved.2 = (old.rotate j).take r ++ List.replicate (d - r) none := by
  induction r with
  | zero => simp [hlen]
  | succ r ih =>
    obtain ⟨hlen₁, hrot, hsnd⟩ := ih (by omega) (by omega)
    rw [List.range_succ, List.foldl_append]
    simp only [List.foldl_cons, List.foldl_nil]
    set moved := (List.range r).foldl (moveSlot current j) (old, List.replicate d none)
    have hlt : r < (old.rotate j).length := by rw [List.length_rotate]; omega
    -- the slot that is looked at is the next one from the tail on
    have hslot : moved.1[(j + r) % (current + 1)]? = some (old.rotate j)[r] := by
      have hget := List.getElem?_rotate (l := moved.1) (n := j) (m := r) (by omega)
      rw [hlen₁, Nat.add_comm r] at hget
      rw [← hget, hrot, List.getElem?_append_right (by simp), List.length_replicate, Nat.sub_self,
        List.getElem?_drop, Nat.add_zero, List.getElem?_eq_getElem hlt]
    have hdrop : (old.rotate j).drop r = (old.rotate j)[r] :: (old.rotate j).drop (r + 1) :=
      List.drop_eq_getElem_cons hlt
    have htake : (old.rotate j).take (r + 1) = (old.rotate j).take r ++ [(old.rotate j)[r]] :=
      (List.take_concat_get' _ r hlt).symm
    have hrest : d - r = d - (r + 1) + 1 := by omega
    have hfirst : ((old.rotate j).take r).length = r := by rw [List.length_take]; omega
    rw [hdrop] at hrot
    rw [hrest, List.replicate_succ] at hsnd
    rcases hx : (old.rotate j)[r] with - | msg
    · rw [moveSlot, hslot, hx]
      rw [hx] at hrot htake
      refine ⟨hlen₁, ?_, ?_⟩
      · show moved.1.rotate j = _
        rw [hrot, List.replicate_succ', List.append_assoc, List.singleton_append]
      · show moved.2 = _
        rw [hsnd, htake, List.append_assoc, List.singleton_append]
    · rw [moveSlot, hslot, hx]
      rw [hx] at hrot htake
      refine ⟨List.length_set.trans hlen₁, ?_, ?_⟩
      · show (moved.1.set ((j + r) % (current + 1)) none).rotate j = _
        rw [← hlen₁, Ring.rotate_set j (by omega), hrot,
          List.set_append_right _ _ (by simp), List.length_replicate, Nat.sub_self,
          List.set_cons_zero, List.replicate_succ', List.append_assoc, List.singleton_append]
      · show moved.2.set r (some msg) = _
        rw [hsnd, htake, List.set_append_right _ _ hfirst.le, hfirst, Nat.sub_self,
          List.set_cons_zero, List.append_assoc, List.singleton_append]

end ClientBuffer

namespace Client

variable {Msg : Type} {s s' : Client Msg} {lv : BufferLevels} {l : List (Option Msg)} {desired : ℕ}

/-- How many slots a reload to a smaller buffer keeps: the length of the buffer, as it is computed with
the new size. -/
def kept (b : ClientBuffer Msg) (desired : ℕ) : ℕ := (((b.i : ℤ) - b.j) % (desired + 1)).toNat

/-- The state after a reload. -/
def reloaded (s : Client Msg) (desired : ℕ) : Client Msg :=
  { s with
    buf := (s.buf.reload desired).2.2
    freed := s.freed ++ (s.buf.reload desired).2.1 }

theorem kept_le (b : ClientBuffer Msg) (desired : ℕ) : kept b desired ≤ desired := by
  have hpos : (0 : ℤ) < desired + 1 := by omega
  have hlt := Int.emod_lt_of_pos ((b.i : ℤ) - b.j) hpos
  rw [kept]
  omega

theorem getBufferLength_new (b : ClientBuffer Msg) (desired : ℕ) :
    ClientBuffer.getBufferLength { b with buflength := desired } = kept b desired := by
  have hpos : (0 : ℤ) < desired + 1 := by omega
  have hnonneg := Int.emod_nonneg ((b.i : ℤ) - b.j) hpos.ne'
  rw [ClientBuffer.getBufferLength_eq, kept, Int.toNat_of_nonneg hnonneg]

namespace Holds

/-- With a new size, the length of a queue in one piece is what it was. -/
theorem kept_of_piece (h : s.Holds l) (hgrow : s.buf.buflength ≤ desired)
    (hle : s.buf.j ≤ s.buf.i) : kept s.buf desired = l.length := by
  obtain ⟨f, hring⟩ := h.ring
  have hlen := h.length_le
  rcases hring.cases_places with ⟨-, heq⟩ | ⟨hlt, -⟩
  · have hdiff : (s.buf.i : ℤ) - s.buf.j = l.length := by omega
    rw [kept, hdiff, Int.emod_eq_of_lt (by omega) (by omega), Int.toNat_natCast]
  · omega

/-- **With a new size, a queue in two pieces seems longer** by as much as the buffer is. -/
theorem kept_of_pieces (h : s.Holds l) (hgrow : s.buf.buflength ≤ desired)
    (hlt : s.buf.i < s.buf.j) :
    kept s.buf desired = l.length + (desired - s.buf.buflength) := by
  obtain ⟨f, hring⟩ := h.ring
  have hlen := h.length
  have hle := h.length_le
  rcases hring.cases_places with ⟨hle', -⟩ | ⟨-, heq⟩
  · omega
  · have hdiff : (s.buf.i : ℤ) - s.buf.j =
        (l.length + (desired - s.buf.buflength) : ℕ) + (desired + 1) * (-1) := by omega
    rw [kept, hdiff, Int.add_mul_emod_self_left, Int.emod_eq_of_lt (by omega) (by omega),
      Int.toNat_natCast]

/-- **A reload to a larger buffer** fails when the queue seems longer than the old one is, and else
keeps every slot. -/
theorem grow (h : s.Holds l) (hwait : s.dispatcher = none) (hgrow : s.buf.buflength < desired) :
    ((s.buf.reload desired).1 = -1 ∧ s.buf.i < s.buf.j ∧
        s.buf.buflength + 1 < l.length + (desired - s.buf.buflength)) ∨
      ((s.buf.reload desired).1 = 0 ∧ (s.buf.reload desired).2.1 = [] ∧
        ¬ (s.buf.i < s.buf.j ∧ s.buf.buflength + 1 < l.length + (desired - s.buf.buflength)) ∧
        ∃ m, (s.reloaded desired).Holds (l ++ List.replicate m none)) := by
  have hlen := h.length
  have hle := h.length_le
  obtain ⟨f, hring⟩ := h.ring
  have hnonneg : ¬ ClientBuffer.getBufferLength { s.buf with buflength := desired } < 0 := by
    rw [getBufferLength_new]
    omega
  have hreload : s.buf.reload desired =
      if s.buf.buflength + 1 < kept s.buf desired then
        (-1, [], { s.buf with buflength := desired })
      else (0, [], { s.buf with
        buflength := desired
        j := 0
        i := kept s.buf desired
        buffer := ClientBuffer.copyOver (List.replicate (desired + 1) none)
          (if s.buf.j < s.buf.i then (s.buf.buffer.drop s.buf.j).take (kept s.buf desired)
          else (s.buf.buffer.drop s.buf.j).take (s.buf.buflength - s.buf.j + 1) ++
            s.buf.buffer.take s.buf.i) }) := by
    rw [ClientBuffer.reload, ClientBuffer.resize, if_neg (by omega), if_neg (by omega),
      if_neg hnonneg, getBufferLength_new, Int.toNat_natCast]
    exact if_congr Iff.rfl rfl (if_pos hgrow)
  have hcopy : ∀ src : List (Option Msg),
      ClientBuffer.copyOver (List.replicate (desired + 1) none) src =
        src ++ List.replicate (desired + 1 - src.length) none := by
    intro src
    rw [ClientBuffer.copyOver, List.drop_replicate]
  rcases Nat.lt_trichotomy s.buf.j s.buf.i with hlt | heq | hgt
  · -- in one piece
    have hkept := h.kept_of_piece hgrow.le hlt.le
    have hsrc := hring.eq_piece hlt.le
    rw [hkept, if_neg (by omega), if_pos hlt, hsrc, hcopy] at hreload
    refine Or.inr ⟨by rw [hreload], by rw [hreload], by omega, 0, ?_⟩
    rw [reloaded, hreload, List.replicate_zero, List.append_nil, List.append_nil]
    exact of_prefix hwait (hle.trans hgrow.le) rfl rfl rfl
  · -- empty: what is copied are empty slots
    have hkept := h.kept_of_piece hgrow.le heq.le
    obtain rfl := hring.head_eq_tail_iff.mp heq.symm
    have hempty : s.buf.buffer = List.replicate (s.buf.buflength + 1) none := by
      have hrot := h.rotate_eq hwait
      rw [List.nil_append, List.rotate_eq_iff, List.rotate_replicate] at hrot
      exact hrot
    rw [hkept, if_neg (by simp), if_neg (by omega), hcopy] at hreload
    refine Or.inr ⟨by rw [hreload], by rw [hreload], by omega, 0, ?_⟩
    rw [reloaded, hreload, List.replicate_zero, List.append_nil, List.append_nil]
    refine of_prefix hwait (by simp) ?_ rfl rfl
    dsimp only
    rw [hempty, List.drop_replicate, List.take_replicate, List.take_replicate,
      List.replicate_append_replicate, List.length_replicate, List.replicate_append_replicate]
    congr 1
    have := hring.tail_lt
    simp only [List.length_nil]
    omega
  · -- in two pieces
    have hkept := h.kept_of_pieces hgrow.le hgt
    rw [hkept] at hreload
    by_cases hfail : s.buf.buflength + 1 < l.length + (desired - s.buf.buflength)
    · rw [if_pos hfail] at hreload
      exact Or.inl ⟨by rw [hreload], hgt, hfail⟩
    · have hsrc : (s.buf.buffer.drop s.buf.j).take (s.buf.buflength - s.buf.j + 1) ++
          s.buf.buffer.take s.buf.i = l := by
        rw [List.take_of_length_le (by rw [List.length_drop]; omega)]
        exact hring.eq_two_pieces hgt
      rw [if_neg hfail, if_neg (by omega), hsrc, hcopy] at hreload
      refine Or.inr ⟨by rw [hreload], by rw [hreload], by omega,
        desired - s.buf.buflength, ?_⟩
      rw [reloaded, hreload]
      refine of_prefix hwait ?_ ?_ ?_ rfl
      · simp only [List.length_append, List.length_replicate]
        omega
      · dsimp only
        rw [List.append_assoc, List.replicate_append_replicate]
        congr 2
        simp only [List.length_append, List.length_replicate]
        omega
      · simp

/-- **A reload to a smaller buffer** keeps as many of the oldest slots as the queue seems to have, and
frees the messages of the others. -/
theorem shrink (h : s.Holds l) (hwait : s.dispatcher = none) (hpos : 0 < desired)
    (hshrink : desired < s.buf.buflength) :
    (s.buf.reload desired).1 = 0 ∧
      (s.buf.reload desired).2.1.Perm (l.drop (kept s.buf desired)).reduceOption ∧
      (s.reloaded desired).Holds
        ((l ++ List.replicate (s.buf.buflength + 1 - l.length) none).take (kept s.buf desired)) := by
  have hlen := h.length
  have hkept := kept_le s.buf desired
  have hnonneg : ¬ ClientBuffer.getBufferLength { s.buf with buflength := desired } < 0 := by
    rw [getBufferLength_new]
    omega
  have hretained : (if kept s.buf desired < desired then kept s.buf desired else desired) =
      kept s.buf desired := by
    split <;> omega
  obtain ⟨hlen', hrot, hnew⟩ := ClientBuffer.foldl_moveSlot (j := s.buf.j) hlen
    (r := kept s.buf desired) (d := desired + 1) (by omega) (by omega)
  rw [h.rotate_eq hwait] at hrot hnew
  set moved := (List.range (kept s.buf desired)).foldl
    (ClientBuffer.moveSlot s.buf.buflength s.buf.j)
    (s.buf.buffer, List.replicate (desired + 1) none) with hmoved
  have hreload : s.buf.reload desired =
      (0, moved.1.reduceOption, { s.buf with
        buflength := desired
        j := 0
        i := kept s.buf desired
        buffer := moved.2 }) := by
    rw [ClientBuffer.reload, ClientBuffer.resize, if_neg (by omega), if_neg (by omega),
      if_neg hnonneg, getBufferLength_new, Int.toNat_natCast]
    dsimp only
    rw [if_neg (by omega), if_neg (by omega), hretained]
  refine ⟨by rw [hreload], ?_, ?_⟩
  · rw [hreload]
    have hperm := (List.rotate_perm moved.1 s.buf.j).symm.filterMap id
    rw [hrot] at hperm
    refine hperm.trans (List.Perm.of_eq ?_)
    show List.reduceOption _ = _
    rw [List.reduceOption_append, List.reduceOption_replicate_none, List.nil_append,
      List.drop_append, List.reduceOption_append, List.drop_replicate,
      List.reduceOption_replicate_none, List.append_nil]
  · rw [reloaded, hreload]
    have hcount : ((l ++ List.replicate (s.buf.buflength + 1 - l.length) none).take
        (kept s.buf desired)).length = kept s.buf desired := by
      have := h.length_le
      rw [List.length_take, List.length_append, List.length_replicate]
      omega
    refine of_prefix hwait ?_ ?_ ?_ rfl
    · rw [hcount]
      exact hkept
    · rw [hcount]
      exact hnew
    · exact hcount.symm

end Holds

end Client

end Agent

end Xsiam
