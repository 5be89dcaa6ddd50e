import Mathlib.Logic.Relation
import Xsiam.Agent.Buffer
import Xsiam.Lib.Run

/-!
# Runs of an agent's buffer

Appends, the steps of the dispatcher and reloads come in any order. Every event that was accepted is
sent once and in its turn (`Xsiam.Agent.sent_in_order`), and nothing stays behind
(`Xsiam.Agent.drained`); only a reload to a smaller buffer frees messages, and these are the newest
(`Xsiam.Agent.reload_keeps_iff`). An event that was refused is announced by an alert
(`Xsiam.Agent.refused_announced`).

The reloads are taken at a time when the dispatcher waits: it empties the slot of a message when that
is sent, and in a buffer that was exchanged meanwhile there may be another message in this slot.
A reload is one step here, though it takes the mutex twice, and so is what the dispatcher does with an
alert, though the flags are bits of one word that it clears without the mutex: the runs are those in which
no other thread comes between.
-/

namespace Xsiam

namespace Agent

open Run

namespace Client

variable {Msg : Type} {s s' : Client Msg} {lv : BufferLevels} {l : List (Option Msg)} {desired : ℕ}

/-! ### The messages of a run -/

/-- What was sent, what the dispatcher holds, and what is queued. -/
def flow (s : Client Msg) : List Msg := s.delivered ++ s.held ++ s.queued

/-- A reload finds the dispatcher waiting, and does not fail. -/
def Careful (_ : Run.History (Client Msg) (Event Msg)) (s : Client Msg) : Event Msg → Prop
  | .reload desired => s.dispatcher = none ∧ (s.buf.reload desired).1 = 0
  | _ => True

/-- The line that an alert adds is no event, and the turn is not the last one. -/
theorem alert_flow {d : Dispatch Msg} (hd : s.dispatcher = some d) (hturn : d.turn ≠ .null)
    (flag : Bool) (status : BufferStatus) (buff : Buff) {next : Turn} (hnext : next ≠ .null) :
    (s.alert d flag status buff next).delivered ++ (s.alert d flag status buff next).held =
        s.delivered ++ s.held ∧
      (s.alert d flag status buff next).accepted = s.accepted ∧
      (s.alert d flag status buff next).freed = s.freed := by
  rw [alert]
  split
  all_goals
    refine ⟨?_, rfl, rfl⟩
    simp [delivered, held, hd, hturn, hnext, Line.event?]

/-- **A step of the dispatcher** moves messages on, in order. -/
theorem Holds.dispatch (h : s.Holds l) (hstep : s.step lv .dispatch = some s') :
    (∃ l', s'.Holds l') ∧ s'.flow = s.flow ∧ s'.accepted = s.accepted ∧ s'.freed = s.freed := by
  rcases hd : s.dispatcher with - | d
  · -- it takes the oldest slot
    rw [step, hd] at hstep
    dsimp only at hstep
    split at hstep
    · cases hstep
    · next hempty =>
      obtain rfl := Option.some.inj hstep
      obtain ⟨x, rest, rfl, hrest, j, hj⟩ := h.take lv hd (mt h.empty_iff.mpr hempty)
      refine ⟨⟨rest, hrest⟩, ?_, rfl, rfl⟩
      have hheld : s.held = [] := by rw [held, hd]
      have hheld' : (s.take lv).held = x.toList := by
        rw [held, hj]
        exact if_neg (by simp)
      rw [flow, flow, h.queued_eq, hrest.queued_eq, hheld, hheld', List.append_nil,
        List.append_assoc]
      congr 1
      cases x <;> simp
  · rw [step, hd] at hstep
    obtain rfl := Option.some.inj hstep
    have hl := h.proceed hd
    refine ⟨⟨l, hl⟩, ?_⟩
    rw [flow, flow, h.queued_eq, hl.queued_eq]
    -- the queue is the same: what is left is what was sent and what is held
    suffices (s.proceed d).delivered ++ (s.proceed d).held = s.delivered ++ s.held ∧
        (s.proceed d).accepted = s.accepted ∧ (s.proceed d).freed = s.freed from
      ⟨by rw [this.1], this.2⟩
    unfold Client.proceed
    dsimp only
    split
    case h_1 hturn | h_2 hturn | h_3 hturn | h_4 hturn =>
      exact alert_flow hd (by rw [hturn]; simp) _ _ _ (by simp)
    case h_5 hturn =>
      split
      next msg hmsg => simp [delivered, held, hd, hturn, hmsg, Line.event?]
      next hmsg => simp [delivered, held, hd, hturn, hmsg]
    case h_6 hturn => simp [delivered, held, hd, hturn]

/-- **A careful reload** drops the end of the queue, and frees what it drops. -/
theorem Holds.reload (h : s.Holds l) (hwait : s.dispatcher = none)
    (hok : (s.buf.reload desired).1 = 0) : ∃ l' m, (s.reloaded desired).Holds l' ∧
      l'.reduceOption = (l.take m).reduceOption ∧
      (s.buf.reload desired).2.1.Perm (l.drop m).reduceOption := by
  rcases Nat.lt_trichotomy s.buf.buflength desired with hgrow | rfl | hshrink
  · rcases h.grow hwait hgrow with ⟨hfail, -⟩ | ⟨-, hfreed, -, m, hl'⟩
    · rw [hfail] at hok
      cases hok
    · refine ⟨_, l.length, hl', ?_, ?_⟩
      · rw [List.reduceOption_append, List.reduceOption_replicate_none, List.append_nil,
          List.take_length]
      · rw [hfreed, List.drop_length]
        exact List.Perm.nil
  · have hpos : ¬ s.buf.buflength ≤ 0 := by
      intro hzero
      rw [ClientBuffer.reload, ClientBuffer.resize, if_pos hzero] at hok
      cases hok
    have hreload : s.buf.reload s.buf.buflength = (0, [], s.buf) := by
      rw [ClientBuffer.reload, ClientBuffer.resize, if_neg hpos, if_pos rfl]
    refine ⟨l, l.length, ?_, by rw [List.take_length], ?_⟩
    · rw [reloaded, hreload]
      exact h.congr rfl rfl rfl rfl rfl fun d hd => ⟨d, hd, rfl⟩
    · rw [hreload, List.drop_length]
      exact List.Perm.nil
  · have hpos : 0 < desired := by
      rcases Nat.eq_zero_or_pos desired with rfl | hpos
      · rw [ClientBuffer.reload, ClientBuffer.resize, if_pos le_rfl] at hok
        cases hok
      · exact hpos
    obtain ⟨-, hfreed, hl'⟩ := h.shrink hwait hpos hshrink
    refine ⟨_, _, hl', ?_, hfreed⟩
    rw [List.take_append, List.reduceOption_append, List.take_replicate,
      List.reduceOption_replicate_none, List.append_nil]

/-- What is known of the messages: what was sent, is held or is queued was accepted, in this order, and
the others were freed by reloads. -/
structure Accounts (s : Client Msg) : Prop where
  holds : ∃ l, s.Holds l
  sublist : s.flow.Sublist s.accepted
  perm : s.accepted.Perm (s.flow ++ s.freed)

/-- **What a step does to the accounts.** -/
theorem Accounts.step (h : s.Accounts) {ev : Event Msg}
    (hok : Careful [] s ev) (hstep : s.step lv ev = some s') : s'.Accounts := by
  obtain ⟨l, hl⟩ := h.holds
  have hflow : s.flow = s.delivered ++ s.held ++ l.reduceOption := by rw [flow, hl.queued_eq]
  cases ev with
  | append now msg =>
    obtain ⟨hdisp, hsent, hfreed, ⟨-, hl', hacc, -⟩ | ⟨-, hl', hacc, -⟩⟩ := hl.append hstep
    all_goals
      have hdel : s'.delivered = s.delivered := by rw [delivered, delivered, hsent]
      have hheld : s'.held = s.held := by rw [held, held, hdisp]
    · have hflow' : s'.flow = s.flow := by rw [flow, flow, hdel, hheld, hl.queued_eq, hl'.queued_eq]
      exact ⟨⟨_, hl'⟩, by rw [hflow', hacc]; exact h.sublist,
        by rw [hflow', hacc, hfreed]; exact h.perm⟩
    · have hflow' : s'.flow = s.flow ++ [msg] := by
        rw [hflow, flow, hdel, hheld, hl'.queued_eq, List.reduceOption_append, List.append_assoc,
          List.append_assoc, List.append_assoc]
        rfl
      refine ⟨⟨_, hl'⟩, ?_, ?_⟩
      · rw [hflow', hacc]
        exact h.sublist.append (List.Sublist.refl _)
      · rw [hflow', hacc, hfreed]
        calc s.accepted ++ [msg] |>.Perm (s.flow ++ s.freed ++ [msg]) := h.perm.append_right _
          _ |>.Perm (s.flow ++ ([msg] ++ s.freed)) := by
              rw [List.append_assoc]
              exact List.perm_append_comm.append_left _
          _ |>.Perm (s.flow ++ [msg] ++ s.freed) := by rw [List.append_assoc]
  | dispatch =>
    obtain ⟨hl', hflow', hacc, hfreed⟩ := hl.dispatch hstep
    exact ⟨hl', by rw [hflow', hacc]; exact h.sublist, by rw [hflow', hacc, hfreed]; exact h.perm⟩
  | reload desired =>
    obtain ⟨hwait, hzero⟩ := hok
    obtain rfl : s.reloaded desired = s' := Option.some.inj hstep
    obtain ⟨l', m, hl', hkeep, hfreed⟩ := hl.reload hwait hzero
    have hflow' : (s.reloaded desired).flow = s.delivered ++ s.held ++ (l.take m).reduceOption := by
      rw [flow, hl'.queued_eq, hkeep]
      rfl
    have hsplit : l.reduceOption = (l.take m).reduceOption ++ (l.drop m).reduceOption := by
      rw [← List.reduceOption_append, List.take_append_drop]
    refine ⟨⟨l', hl'⟩, ?_, ?_⟩
    · refine List.Sublist.trans ?_ h.sublist
      rw [hflow', hflow, hsplit, ← List.append_assoc]
      exact List.sublist_append_left _ _
    · have hperm := h.perm
      rw [hflow, hsplit, ← List.append_assoc, List.append_assoc _ _ s.freed] at hperm
      rw [hflow']
      exact hperm.trans ((List.perm_append_comm.trans (hfreed.symm.append_left _)).append_left _)

/-- **What holds of every run**, whatever the order of its steps. -/
theorem accounts_of_reach {buflength : ℕ} {hist : Run.History (Client Msg) (Event Msg)}
    (h : Reach (step lv) Careful (Client.init buflength) hist s) : s.Accounts := by
  refine @Reach.invariant _ _ (step lv) Careful (Client.init buflength) (fun _ s => s.Accounts) ?_ ?_ _ _ h
  · refine ⟨⟨[], Holds.init buflength⟩, ?_, ?_⟩
    · rw [flow, (Holds.init buflength).queued_eq]
      exact List.Sublist.refl _
    · rw [flow, (Holds.init buflength).queued_eq]
      exact List.Perm.nil
  · intro hist s s' ev hs hok hstep
    refine hs.step ?_ hstep
    cases ev with
    | append now msg => trivial
    | dispatch => trivial
    | reload desired => exact hok

/-- A run without reloads is careful. -/
theorem careful_replay {init : Client Msg} {evs : List (Event Msg)}
    (hevs : ∀ ev ∈ evs, ∀ desired, ev ≠ .reload desired) :
    ∀ {hist hist' : Run.History (Client Msg) (Event Msg)} {s s' : Client Msg},
      Reach (step lv) Careful init hist s → Run.replay (step lv) hist s evs = some (hist', s') →
        Reach (step lv) Careful init hist' s' := by
  induction evs with
  | nil =>
    intro hist hist' s s' h heq
    obtain ⟨rfl, rfl⟩ := Prod.mk.inj (Option.some.inj heq)
    exact h
  | cons ev evs ih =>
    intro hist hist' s s' h heq
    obtain ⟨hev, hevs⟩ := List.forall_mem_cons.mp hevs
    obtain ⟨s₁, hs₁, hrest⟩ := Option.bind_eq_some_iff.mp heq
    refine ih hevs (h.next ?_ hs₁) hrest
    cases ev with
    | append now msg => trivial
    | dispatch => trivial
    | reload desired => exact absurd rfl (hev desired)

end Client

open Client

variable {Msg : Type} {s : Client Msg} {lv : BufferLevels} {buflength : ℕ}
  {hist : Run.History (Client Msg) (Client.Event Msg)}

/-- **Accepted events are sent once and in order**: at any time some of them were sent, one may be in
the hands of the dispatcher, and the others are queued; none is missing but those that a reload
freed. -/
theorem sent_in_order (h : Reach (Client.step lv) Careful (Client.init buflength) hist s) :
    (s.delivered ++ s.held ++ s.queued).Sublist s.accepted ∧
      s.accepted.Perm (s.delivered ++ s.held ++ s.queued ++ s.freed) ∧
      (s.freed = [] → s.delivered ++ s.held ++ s.queued = s.accepted) := by
  have hacc := accounts_of_reach h
  refine ⟨hacc.sublist, hacc.perm, fun hnone => ?_⟩
  refine hacc.sublist.eq_of_length ?_
  have hlen := hacc.perm.length_eq
  rw [hnone, List.append_nil] at hlen
  exact hlen.symm

/-- The levels as they are configured by default, compared as quotients. -/
def defaultLevels : BufferLevels where
  warn used buflength := decide (90 * buflength ≤ 100 * used)
  nowarn used buflength := decide (100 * used ≤ 90 * buflength)
  normal used buflength := decide (100 * used ≤ 70 * buflength)
  tolerance := 15

/-- Three events for a buffer for two. -/
def threeAppends : List (Client.Event ℕ) := [.append 0 1, .append 0 2, .append 0 3]

theorem threeAppends_ne_reload : ∀ ev ∈ threeAppends, ∀ desired, ev ≠ .reload desired := by
  simp [threeAppends]

/-- The third event is refused. When the first was sent, the second is queued. -/
theorem sent_in_order_of_three : ∃ hist s,
    Run.replay (Client.step defaultLevels) [] (Client.init 2)
        (threeAppends ++ List.replicate 7 .dispatch) = some (hist, s) ∧
      s.accepted = [1, 2] ∧ s.refused = [3] ∧ s.delivered = [1] ∧
      s.delivered ++ s.held ++ s.queued = s.accepted := by
  obtain ⟨hist, s, hrun, hacc, href, hdel, hfreed⟩ : ∃ hist s,
      Run.replay (Client.step defaultLevels) [] (Client.init 2)
          (threeAppends ++ List.replicate 7 .dispatch) = some (hist, s) ∧
        s.accepted = [1, 2] ∧ s.refused = [3] ∧ s.delivered = [1] ∧ s.freed = [] :=
    ⟨_, _, rfl, rfl, rfl, rfl, rfl⟩
  have hevs : ∀ ev ∈ threeAppends ++ List.replicate 7 (.dispatch : Client.Event ℕ), ∀ desired,
      ev ≠ .reload desired := by
    simp [threeAppends]
  have hreach := careful_replay hevs .start hrun
  exact ⟨hist, s, hrun, hacc, href, hdel, (sent_in_order hreach).2.2 hfreed⟩

/-! ### No event is dropped in silence -/

namespace ClientBuffer

variable {Msg : Type} (s : ClientBuffer Msg) (lv : BufferLevels) (now : ℤ)

/-- The buffer was found full, and has not been below a level since. -/
def high : Bool := s.state == .full || s.state == .flood

theorem raise_of_high (h : s.high = true) :
    (s.raise lv now).high = true ∧ (s.raise lv now).buff.full = s.buff.full := by
  rcases hs : s.state
  · simp [high, hs] at h
  · simp [high, hs] at h
  · simp only [raise, hs]
    split
    · exact ⟨rfl, rfl⟩
    · exact ⟨h, rfl⟩
  · simp only [raise, hs]
    exact ⟨h, trivial⟩

/-- **The level rises to `FULL`** when the buffer is full, and with it the flag. -/
theorem raise_of_low (h : s.high = false) :
    (s.raise lv now).high = s.full ∧
      (s.raise lv now).buff.full = (s.full || s.buff.full) := by
  rcases hs : s.state
  · simp only [raise, hs]
    rcases hfull : s.full with - | -
    · split
      · cases ‹false = true›
      · split
        · exact ⟨rfl, rfl⟩
        · exact ⟨h, rfl⟩
    · exact ⟨rfl, rfl⟩
  · simp only [raise, hs]
    rcases hfull : s.full with - | -
    · exact ⟨h, rfl⟩
    · exact ⟨rfl, rfl⟩
  · simp [high, hs] at h
  · simp [high, hs] at h

/-- An append does to the levels what its first `switch` does. -/
theorem append_levels (msg : Msg) : (s.append lv now msg).2.state = (s.raise lv now).state ∧
    (s.append lv now msg).2.buff = (s.raise lv now).buff := by
  rw [append]
  split
  all_goals exact ⟨rfl, rfl⟩

theorem lower_high (h : (s.lower lv).high = true) : s.high = true := by
  rcases hs : s.state
  · rwa [lower, hs] at h
  · rw [lower, hs] at h
    dsimp only at h
    split at h
    · cases h
    · exact h
  · simp [high, hs]
  · simp [high, hs]

theorem lower_buff_full : (s.lower lv).buff.full = s.buff.full := by
  unfold lower
  split
  · rfl
  · split <;> rfl
  all_goals
    split
    all_goals
      dsimp only
      split <;> rfl

/-- A reload does nothing to the levels. -/
theorem reload_levels (desired : ℕ) : (s.reload desired).2.2.state = s.state ∧
    (s.reload desired).2.2.buff = s.buff := by
  rw [reload]
  unfold resize
  dsimp only
  split_ifs
  all_goals exact ⟨rfl, rfl⟩

end ClientBuffer

namespace Client

variable {Msg : Type} {s s' : Client Msg} {lv : BufferLevels} {ev : Event Msg}

/-- An append that is refused. -/
def Refuses (e : Client Msg × Event Msg) : Prop :=
  e.1.buf.full = true ∧ ∃ now msg, e.2 = .append now msg

/-- The step of the dispatcher that sends `OS_FULL_BUFFER`. -/
def Announces (e : Client Msg × Event Msg) : Prop :=
  e.1.buf.buff.full = true ∧ e.2 = .dispatch ∧
    ∃ d, e.1.dispatcher = some d ∧ d.turn = .full

/-- The steps since the level rose to `FULL`. -/
def highSince (hist : Run.History (Client Msg) (Event Msg)) :
    Run.History (Client Msg) (Event Msg) :=
  hist.takeWhile fun e => e.1.buf.high

theorem step_append_buf {now : ℤ} {msg : Msg} (hstep : s.step lv (.append now msg) = some s') :
    s'.buf = (s.buf.append lv now msg).2 := by
  obtain rfl := Option.some.inj hstep
  split
  all_goals rfl

/-- **What a step does to the levels**: an append is judged by what it finds, and the other steps raise
nothing. -/
theorem high_of_step (hstep : s.step lv ev = some s') :
    (Refuses (s, ev) → s'.buf.high = true) ∧
      (s'.buf.high = true → s.buf.high = true ∨ s'.buf.buff.full = true) := by
  cases ev with
  | append now msg =>
    obtain ⟨hstate, hbuff⟩ := s.buf.append_levels lv now msg
    have hbuf := step_append_buf hstep
    have hhigh : s'.buf.high = (s.buf.raise lv now).high := by
      rw [hbuf, ClientBuffer.high, ClientBuffer.high, hstate]
    rw [hhigh, hbuf, hbuff]
    rcases hlow : s.buf.high with - | -
    · obtain ⟨hraise, hflag⟩ := s.buf.raise_of_low lv now hlow
      refine ⟨fun href => hraise.trans href.1, fun h => Or.inr ?_⟩
      rw [hflag, ← hraise, h, Bool.true_or]
    · exact ⟨fun _ => (s.buf.raise_of_high lv now hlow).1, fun _ => Or.inl rfl⟩
  | dispatch =>
    refine ⟨fun href => ?_, fun h => Or.inl ?_⟩
    · obtain ⟨-, now, msg, hev⟩ := href
      cases hev
    rw [step] at hstep
    split at hstep
    · split at hstep
      · cases hstep
      · obtain rfl := Option.some.inj hstep
        exact s.buf.lower_high lv h
    · next d hd =>
      obtain rfl := Option.some.inj hstep
      have hstate : (s.proceed d).buf.state = s.buf.state := by
        unfold proceed alert
        dsimp only
        split
        case h_6 => rfl
        all_goals split <;> rfl
      rwa [ClientBuffer.high, hstate] at h
  | reload desired =>
    refine ⟨fun href => ?_, fun h => Or.inl ?_⟩
    · obtain ⟨-, now, msg, hev⟩ := href
      cases hev
    obtain rfl : s.reloaded desired = s' := Option.some.inj hstep
    have hstate : (s.reloaded desired).buf.state = s.buf.state := (s.buf.reload_levels desired).1
    rwa [ClientBuffer.high, hstate] at h

/-- **The flag goes down when the alert is sent**, and not before. -/
theorem full_or_announces (hstep : s.step lv ev = some s') (h : s.buf.buff.full = true) :
    s'.buf.buff.full = true ∨ Announces (s, ev) := by
  cases ev with
  | append now msg =>
    refine Or.inl ?_
    rw [step_append_buf hstep, (s.buf.append_levels lv now msg).2]
    rcases hlow : s.buf.high with - | -
    · rw [(s.buf.raise_of_low lv now hlow).2, h, Bool.or_true]
    · rw [(s.buf.raise_of_high lv now hlow).2, h]
  | dispatch =>
    rw [step] at hstep
    split at hstep
    · split at hstep
      · cases hstep
      · obtain rfl := Option.some.inj hstep
        exact Or.inl ((s.buf.lower_buff_full lv).trans h)
    · next d hd =>
      obtain rfl := Option.some.inj hstep
      by_cases hturn : d.turn = .full
      · exact Or.inr ⟨h, rfl, d, hd, hturn⟩
      · refine Or.inl ?_
        unfold proceed alert
        dsimp only
        split
        case h_2 hfull => exact absurd hfull hturn
        case h_6 => exact h
        all_goals split <;> exact h
  | reload desired =>
    obtain rfl : s.reloaded desired = s' := Option.some.inj hstep
    exact Or.inl ((congrArg Buff.full (s.buf.reload_levels desired).2).trans h)

end Client

/-- **No event is dropped in silence**: if an append was refused, then the agent has sent the alert that
its buffer is full since the level rose, or is about to. -/
theorem refused_announced (h : Reach (Client.step lv) Any (Client.init buflength) hist s) :
    ∀ later e earlier, hist = later ++ e :: earlier → Refuses e →
      s.buf.buff.full = true ∨ ∃ a ∈ later ++ highSince (e :: earlier), Announces a := by
  -- while the level is high, the alert was sent since it rose, or its flag is up
  suffices (s.buf.high = true → s.buf.buff.full = true ∨ ∃ a ∈ highSince hist, Announces a) ∧
      ∀ later e earlier, hist = later ++ e :: earlier → Refuses e →
        s.buf.buff.full = true ∨ ∃ a ∈ later ++ highSince (e :: earlier), Announces a from this.2
  refine @Reach.invariant _ _ (Client.step lv) Any (Client.init buflength) (fun hist s =>
    (s.buf.high = true → s.buf.buff.full = true ∨ ∃ a ∈ highSince hist, Announces a) ∧
      ∀ later e earlier, hist = later ++ e :: earlier → Refuses e →
        s.buf.buff.full = true ∨ ∃ a ∈ later ++ highSince (e :: earlier), Announces a) ?_ ?_ _ _ h
  · refine ⟨fun hhigh => (by cases hhigh), fun later e earlier heq => ?_⟩
    simp at heq
  · intro hist s s' ev ⟨hhigh, hrefused⟩ _ hstep
    obtain ⟨hrefuses, hrose⟩ := high_of_step hstep
    have hsince : s'.buf.high = true →
        s'.buf.buff.full = true ∨ ∃ a ∈ highSince ((s, ev) :: hist), Announces a := by
      intro hhigh'
      rcases hrose hhigh' with hwas | hflag
      · have hcons : highSince ((s, ev) :: hist) = (s, ev) :: highSince hist :=
          List.takeWhile_cons_of_pos hwas
        rw [hcons]
        rcases hhigh hwas with hflag | ⟨a, ha, hann⟩
        · exact (full_or_announces hstep hflag).imp_right fun hann => ⟨_, List.mem_cons_self, hann⟩
        · exact Or.inr ⟨a, List.mem_cons_of_mem _ ha, hann⟩
      · exact Or.inl hflag
    refine ⟨hsince, fun later e earlier heq href => ?_⟩
    rcases later with - | ⟨e', later⟩
    · obtain ⟨rfl, rfl⟩ := List.cons.inj heq
      exact hsince (hrefuses href)
    · obtain ⟨rfl, rfl⟩ := List.cons.inj heq
      rcases hrefused later e earlier rfl href with hflag | ⟨a, ha, hann⟩
      · exact (full_or_announces hstep hflag).imp_right fun hann => ⟨_, List.mem_cons_self, hann⟩
      · exact Or.inr ⟨a, List.mem_cons_of_mem _ ha, hann⟩

/-- The third event is refused; two steps after it took the first, the dispatcher has sent the
alert. -/
theorem refused_announced_of_three : ∃ hist s,
    Run.replay (Client.step defaultLevels) [] (Client.init 2)
        (threeAppends ++ List.replicate 3 .dispatch) = some (hist, s) ∧
      s.refused = [3] ∧ s.buf.buff.full = false ∧ ∃ a ∈ hist, Announces a := by
  obtain ⟨later, e, earlier, s, hrun, hrefused, hbuff, href, hlow⟩ : ∃ later e earlier s,
      Run.replay (Client.step defaultLevels) [] (Client.init 2)
          (threeAppends ++ List.replicate 3 .dispatch) = some (later ++ e :: earlier, s) ∧
        s.refused = [3] ∧ s.buf.buff.full = false ∧ Refuses e ∧ e.1.buf.high = false :=
    ⟨[_, _, _], _, _, _, rfl, rfl, rfl, ⟨rfl, 0, 3, rfl⟩, rfl⟩
  refine ⟨_, s, hrun, hrefused, hbuff, ?_⟩
  have hnone : highSince (e :: earlier) = [] := List.takeWhile_cons_of_neg (by simp [hlow])
  rcases refused_announced (Reach.start.replay hrun) later e earlier rfl href with hflag | ⟨a, ha, hann⟩
  · rw [hbuff] at hflag
    cases hflag
  · rw [hnone, List.append_nil] at ha
    exact ⟨a, List.mem_append_left _ ha, hann⟩

/-! ### Nothing stays behind -/

/-- How many turns come before the dispatcher waits again. -/
def Turn.left : Turn → ℕ
  | .warn => 5
  | .full => 4
  | .flood => 3
  | .normal => 2
  | .send => 1
  | .null => 0

namespace Client

variable {Msg : Type} {s : Client Msg} {lv : BufferLevels} {l : List (Option Msg)}

/-- The dispatcher makes a step. -/
def Dispatches (lv : BufferLevels) (s s' : Client Msg) : Prop := s.step lv .dispatch = some s'

theorem proceed_dispatcher (d : Dispatch Msg) : (s.proceed d).dispatcher = none ∨
    ∃ d', (s.proceed d).dispatcher = some d' ∧ d'.turn.left < d.turn.left := by
  unfold proceed alert
  dsimp only
  split
  case h_1 hturn | h_2 hturn | h_3 hturn | h_4 hturn =>
    refine Or.inr ⟨_, by split <;> rfl, ?_⟩
    rw [hturn]
    simp [Turn.left]
  case h_5 hturn =>
    split
    · refine Or.inr ⟨_, rfl, ?_⟩
      rw [hturn]
      simp [Turn.left]
    · exact Or.inl rfl
  case h_6 => exact Or.inl rfl

variable (lv) in
/-- **The dispatcher comes back to wait** with the queue as it was. -/
theorem Holds.finish (h : s.Holds l) : ∃ s', Relation.ReflTransGen (Dispatches lv) s s' ∧
    s'.dispatcher = none ∧ s'.Holds l := by
  rcases hd : s.dispatcher with - | d
  · exact ⟨s, .refl, hd, h⟩
  · induction hleft : d.turn.left using Nat.strong_induction_on generalizing s d with
    | _ n ih =>
      have hstep : Dispatches lv s (s.proceed d) := by rw [Dispatches, step, hd]
      have hl := h.proceed hd
      rcases proceed_dispatcher (s := s) d with hnone | ⟨d', hd', hlt⟩
      · exact ⟨_, .single hstep, hnone, hl⟩
      · obtain ⟨s', hreach, hwait, hl'⟩ := ih _ (hleft ▸ hlt) hl d' hd' rfl
        exact ⟨s', .head hstep hreach, hwait, hl'⟩

variable (lv) in
/-- **A dispatcher that is left alone empties the queue.** -/
theorem Holds.drain (h : s.Holds l) : ∃ s', Relation.ReflTransGen (Dispatches lv) s s' ∧
    s'.dispatcher = none ∧ s'.Holds [] := by
  induction l generalizing s with
  | nil => exact h.finish lv
  | cons x l ih =>
    obtain ⟨s₁, hreach₁, hwait, h₁⟩ := h.finish lv
    have hne : ¬ s₁.buf.empty = true := mt h₁.empty_iff.mp (List.cons_ne_nil x l)
    have hstep : Dispatches lv s₁ (s₁.take lv) := by
      rw [Dispatches, step, hwait]
      exact if_neg hne
    obtain ⟨y, rest, heq, h₂, -⟩ := h₁.take lv hwait (List.cons_ne_nil x l)
    obtain ⟨rfl, rfl⟩ := List.cons.inj heq
    obtain ⟨s₃, hreach₃, hwait₃, h₃⟩ := ih h₂
    exact ⟨s₃, hreach₁.trans (.head hstep hreach₃), hwait₃, h₃⟩

/-- The dispatcher sends what there is. -/
theorem flow_of_dispatches {s' : Client Msg} (h : Relation.ReflTransGen (Dispatches lv) s s') :
    (∃ l, s.Holds l) → s'.flow = s.flow := by
  induction h using Relation.ReflTransGen.head_induction_on with
  | refl => exact fun _ => rfl
  | head hstep _ ih =>
    rintro ⟨l, hl⟩
    obtain ⟨hl', hflow, -, -⟩ := hl.dispatch hstep
    rw [ih hl', hflow]

end Client

/-- **Every accepted event can still be sent**: left alone, the dispatcher sends what it holds and what
is queued, in order, and then waits. -/
theorem drained (h : Reach (Client.step lv) Careful (Client.init buflength) hist s) :
    ∃ s', Relation.ReflTransGen (Dispatches lv) s s' ∧ s'.dispatcher = none ∧
      s'.buf.empty = true ∧ s'.delivered = s.delivered ++ s.held ++ s.queued := by
  obtain ⟨l, hl⟩ := (accounts_of_reach h).holds
  obtain ⟨s', hreach, hwait, hl'⟩ := hl.drain lv
  refine ⟨s', hreach, hwait, hl'.empty_iff.mpr rfl, ?_⟩
  have hflow := flow_of_dispatches hreach ⟨l, hl⟩
  have hheld : s'.held = [] := by rw [held, hwait]
  rw [flow, flow, hl'.queued_eq, hheld, List.reduceOption_nil, List.append_nil,
    List.append_nil] at hflow
  exact hflow

/-- After three appends to a buffer for two, the dispatcher sends the two that were accepted. -/
theorem drained_of_three : ∃ hist s s',
    Run.replay (Client.step defaultLevels) [] (Client.init 2) threeAppends = some (hist, s) ∧
      Relation.ReflTransGen (Dispatches defaultLevels) s s' ∧ s'.dispatcher = none ∧
      s'.buf.empty = true ∧ s'.delivered = [1, 2] := by
  obtain ⟨hist, s, hrun, hheld⟩ : ∃ hist s,
      Run.replay (Client.step defaultLevels) [] (Client.init 2) threeAppends = some (hist, s) ∧
        s.delivered ++ s.held ++ s.queued = [1, 2] :=
    ⟨_, _, rfl, rfl⟩
  obtain ⟨s', hreach, hwait, hempty, hdel⟩ :=
    drained (careful_replay threeAppends_ne_reload .start hrun)
  exact ⟨hist, s, s', hrun, hreach, hwait, hempty, hdel.trans hheld⟩

/-! ### What a reload keeps -/

/-- A queue without empty slots. -/
theorem eq_map_some_of_length {l : List (Option Msg)} (h : l.reduceOption.length = l.length) :
    l = l.reduceOption.map some := by
  induction l with
  | nil => rfl
  | cons x l ih =>
    have hle := List.reduceOption_length_le l
    rcases x with - | x
    · rw [List.reduceOption_cons_of_none, List.length_cons] at h
      omega
    · rw [List.reduceOption_cons_of_some, List.length_cons, List.length_cons,
        Nat.add_right_cancel_iff] at h
      rw [List.reduceOption_cons_of_some, List.map_cons, ← ih h]

/-- **A reload to a smaller buffer** keeps the oldest messages, but as many as the length of the queue
is modulo the new size. It keeps as many as fit exactly if that is not too few. -/
theorem reload_keeps_iff {desired : ℕ}
    (h : Reach (Client.step lv) Careful (Client.init buflength) hist s)
    (hwait : s.dispatcher = none) (hqueue : (s.queued.length : ℤ) = s.buf.getBufferLength)
    (hpos : 0 < desired) (hshrink : desired < s.buf.buflength) :
    (s.reloaded desired).queued = s.queued.take (kept s.buf desired) ∧
      (s.buf.reload desired).2.1.Perm (s.queued.drop (kept s.buf desired)) ∧
      ((s.reloaded desired).queued = s.queued.take desired ↔
        s.queued.length ≤ kept s.buf desired ∨ kept s.buf desired = desired) := by
  obtain ⟨l, hl⟩ := (accounts_of_reach h).holds
  have hle := kept_le s.buf desired
  obtain ⟨-, hfreed, hl'⟩ := hl.shrink hwait hpos hshrink
  rw [hl.getBufferLength_eq, hl.queued_eq] at hqueue
  obtain ⟨q, rfl⟩ : ∃ q : List Msg, l = q.map some :=
    ⟨_, eq_map_some_of_length (Int.ofNat.inj hqueue)⟩
  have hsome : ∀ q : List Msg, (q.map some).reduceOption = q := fun q => by
    rw [List.reduceOption, List.filterMap_map]
    exact List.filterMap_some
  have hkeep : (s.reloaded desired).queued = q.take (kept s.buf desired) := by
    rw [hl'.queued_eq, List.take_append, List.reduceOption_append, List.take_replicate,
      List.reduceOption_replicate_none, List.append_nil, ← List.map_take, hsome]
  rw [hl.queued_eq, hsome, hkeep]
  refine ⟨rfl, ?_, ?_⟩
  · rwa [← List.map_drop, hsome] at hfreed
  · constructor
    · intro heq
      have hlen := congrArg List.length heq
      rw [List.length_take, List.length_take] at hlen
      omega
    · rintro (hall | hall)
      · rw [List.take_of_length_le hall, List.take_of_length_le (hall.trans hle)]
      · rw [hall]

/-- Two messages in a buffer for two: when it is to hold one, none is kept. -/
theorem reload_keeps_none : ∃ hist s,
    Run.replay (Client.step defaultLevels) [] (Client.init 2) threeAppends = some (hist, s) ∧
      s.queued = [1, 2] ∧ (s.reloaded 1).queued = [] ∧ (s.reloaded 1).queued ≠ s.queued.take 1 := by
  obtain ⟨hist, s, hrun, hwait, hqueued, hlen, hbuflength, hkept⟩ : ∃ hist s,
      Run.replay (Client.step defaultLevels) [] (Client.init 2) threeAppends = some (hist, s) ∧
        s.dispatcher = none ∧ s.queued = [1, 2] ∧ s.buf.getBufferLength = 2 ∧
        s.buf.buflength = 2 ∧ kept s.buf 1 = 0 :=
    ⟨_, _, rfl, rfl, rfl, rfl, rfl, rfl⟩
  obtain ⟨hkeeps, -, hiff⟩ :=
    reload_keeps_iff (careful_replay threeAppends_ne_reload .start hrun) hwait
      (by rw [hqueued, hlen]; rfl) Nat.one_pos (by rw [hbuflength]; exact Nat.one_lt_two)
  rw [hkept] at hkeeps
  refine ⟨hist, s, hrun, hqueued, hkeeps, fun heq => ?_⟩
  rcases hiff.mp heq with hall | hall
  · rw [hqueued, hkept] at hall
    cases hall
  · rw [hkept] at hall
    cases hall

/-- **A reload to a larger buffer** keeps every message, or fails: when the queue goes round the end of
the buffer and seems, with the new size, longer than the old buffer is. -/
theorem reload_grow_iff {desired : ℕ}
    (h : Reach (Client.step lv) Careful (Client.init buflength) hist s)
    (hwait : s.dispatcher = none) (hgrow : s.buf.buflength < desired) :
    ((s.buf.reload desired).1 = -1 ↔ s.buf.i < s.buf.j ∧
        (s.buf.buflength + 1 : ℤ) < s.buf.getBufferLength + (desired - s.buf.buflength)) ∧
      ((s.buf.reload desired).1 = 0 ∨ (s.buf.reload desired).1 = -1) ∧
      ((s.buf.reload desired).1 = 0 →
        (s.reloaded desired).queued = s.queued ∧ (s.buf.reload desired).2.1 = []) := by
  obtain ⟨l, hl⟩ := (accounts_of_reach h).holds
  rw [hl.getBufferLength_eq]
  rcases hl.grow hwait hgrow with ⟨hret, hwrap, hlong⟩ | ⟨hret, hfreed, hnot, m, hl'⟩
  · rw [hret]
    refine ⟨⟨fun _ => ⟨hwrap, by omega⟩, fun _ => rfl⟩, Or.inr rfl, fun hzero => ?_⟩
    cases hzero
  · rw [hret]
    refine ⟨⟨fun hzero => (by cases hzero), fun hlong => absurd ⟨hlong.1, by omega⟩ hnot⟩, Or.inl rfl,
      fun _ => ⟨?_, hfreed⟩⟩
    rw [hl.queued_eq, hl'.queued_eq, List.reduceOption_append, List.reduceOption_replicate_none,
      List.append_nil]

/-- Two messages in a buffer for two: when it is to hold three, both are kept. -/
theorem reload_grow_three : ∃ hist s,
    Run.replay (Client.step defaultLevels) [] (Client.init 2) threeAppends = some (hist, s) ∧
      (s.reloaded 3).queued = [1, 2] := by
  obtain ⟨hist, s, hrun, hwait, hqueued, hbuflength, hret⟩ : ∃ hist s,
      Run.replay (Client.step defaultLevels) [] (Client.init 2) threeAppends = some (hist, s) ∧
        s.dispatcher = none ∧ s.queued = [1, 2] ∧ s.buf.buflength = 2 ∧
        (s.buf.reload 3).1 = 0 :=
    ⟨_, _, rfl, rfl, rfl, rfl, rfl⟩
  have hgrow : s.buf.buflength < 3 := by
    rw [hbuflength]
    exact Nat.lt_succ_self 2
  have hspec := reload_grow_iff (careful_replay threeAppends_ne_reload .start hrun) hwait hgrow
  exact ⟨hist, s, hrun, (hspec.2.2 hret).1.trans hqueued⟩

end Agent

end Xsiam
