import Xsiam.Etl.Model
import Xsiam.Go.Text

/-!
# Agents in the tags of inputs

`extractAgentIDFromTag` and `pollFluentBit` of `internal/domain/device/liveness.go`: the poll takes an
input of the aggregator for a sign of the agent that its tag names, in one of three documented forms.

The agent is read off the tag from the right: it is the shortest text behind a dot that is longer than
three bytes, or else the whole tag. So a text behind the last dot is found exactly if it is longer than
three bytes and has no such text in it (`Xsiam.Devices.extract_append_iff`). That leaves the second form,
which ends with the same word for all agents, with no agent but that word, and of the first form the
agents that are short or have a long text behind a dot are lost (`Xsiam.Devices.findsAgents_iff`).
-/

namespace Xsiam

namespace Devices

open Go

/-! ### The agent of a tag -/

/-- The loop over the dots, from the last one of the first `i` bytes on. -/
def longSuffix (tag : GoString) : ℕ → Option GoString
  | 0 => none
  | i + 1 =>
    if tag[i]? = some 0x2E ∧ 3 < (tag.drop (i + 1)).length then some (tag.drop (i + 1))
    else longSuffix tag i

/-- `extractAgentIDFromTag` -/
def extractAgentIDFromTag (tag : GoString) : GoString :=
  match longSuffix tag tag.length with
  | some suffix => suffix
  | none => if 3 < tag.length then tag else []

/-- The loop ends at a dot with a long text behind it. -/
theorem longSuffix_succ {tag a s : GoString} (htag : tag = a ++ 0x2E :: s) (hlong : 3 < s.length) :
    longSuffix tag (a.length + 1) = some s := by
  have hdot : tag[a.length]? = some 0x2E := by
    rw [htag, List.getElem?_append_right le_rfl, Nat.sub_self, List.getElem?_cons_zero]
  have hdrop : tag.drop (a.length + 1) = s := by
    rw [htag, ← List.drop_drop, List.drop_left, List.drop_succ_cons, List.drop_zero]
  rw [longSuffix, hdrop, if_pos ⟨hdot, hlong⟩]

/-- It passes over a dot with a short text behind it, and over what is no dot. -/
theorem longSuffix_succ_of_short {tag : GoString} {i : ℕ}
    (h : ∀ a s, tag = a ++ 0x2E :: s → a.length = i → s.length ≤ 3) :
    longSuffix tag (i + 1) = longSuffix tag i := by
  rw [longSuffix, if_neg]
  rintro ⟨hdot, hlong⟩
  obtain ⟨hlt, hget⟩ := List.getElem?_eq_some_iff.mp hdot
  have htag : tag = tag.take i ++ 0x2E :: tag.drop (i + 1) := by
    rw [← hget, List.getElem_cons_drop, List.take_append_drop]
  exact absurd (h _ _ htag (List.length_take_of_le hlt.le)) (not_le.mpr hlong)

/-- **What the loop finds**: the first text from the right that is long enough, if there is one. -/
theorem longSuffix_spec (tag : GoString) (n : ℕ) :
    (longSuffix tag n = none ∧ ∀ a s, tag = a ++ 0x2E :: s → a.length < n → s.length ≤ 3) ∨
      ∃ a s, longSuffix tag n = some s ∧ tag = a ++ 0x2E :: s ∧ a.length < n ∧ 3 < s.length ∧
        ∀ a' s', tag = a' ++ 0x2E :: s' → a.length < a'.length → a'.length < n → s'.length ≤ 3 := by
  induction n with
  | zero => exact .inl ⟨rfl, fun a _ _ ha => absurd ha (Nat.not_lt_zero _)⟩
  | succ i ih =>
    -- the dot at `i` is the last one, so it decides where it has a long text behind it
    by_cases hfound : ∃ a s, tag = a ++ 0x2E :: s ∧ a.length = i ∧ 3 < s.length
    · obtain ⟨a, s, htag, rfl, hlong⟩ := hfound
      refine .inr ⟨a, s, longSuffix_succ htag hlong, htag, Nat.lt_succ_self _, hlong, ?_⟩
      intro a' s' _ hlt hle
      exact absurd hlt (by omega)
    · have hshort : ∀ a s, tag = a ++ 0x2E :: s → a.length = i → s.length ≤ 3 :=
        fun a s htag ha => not_lt.mp fun hlong => hfound ⟨a, s, htag, ha, hlong⟩
      rw [longSuffix_succ_of_short hshort]
      rcases ih with ⟨hnone, hall⟩ | ⟨a, s, hsome, htag, ha, hlong, hall⟩
      · refine .inl ⟨hnone, fun a s htag ha => ?_⟩
        rcases Nat.lt_succ_iff_lt_or_eq.mp ha with hlt | heq
        · exact hall a s htag hlt
        · exact hshort a s htag heq
      · refine .inr ⟨a, s, hsome, htag, by omega, hlong, fun a' s' htag' hlt hle => ?_⟩
        rcases Nat.lt_succ_iff_lt_or_eq.mp hle with hlt' | heq
        · exact hall a' s' htag' hlt hlt'
        · exact hshort a' s' htag' heq

/-- A text that is read off whole where it stands behind a dot. -/
def Whole (s : GoString) : Prop := 3 < s.length ∧ ∀ a b, s = a ++ 0x2E :: b → b.length ≤ 3

/-- What is read off a tag is longer than three bytes, or nothing. -/
theorem length_extract {tag : GoString} (h : extractAgentIDFromTag tag ≠ []) :
    3 < (extractAgentIDFromTag tag).length := by
  rw [extractAgentIDFromTag] at h ⊢
  rcases longSuffix_spec tag tag.length with ⟨hnone, -⟩ | ⟨a, s, hsome, -, -, hlong, -⟩
  · rw [hnone] at h ⊢
    dsimp only at h ⊢
    split_ifs at h ⊢ with hlen
    · exact hlen
    · exact absurd rfl h
  · rw [hsome]
    exact hlong

/-- **A text behind a dot is read off exactly if it is one that is read off whole.** -/
theorem extract_append_iff {p s : GoString} (hs : s ≠ []) :
    extractAgentIDFromTag (p ++ 0x2E :: s) = s ↔ Whole s := by
  have hbehind : ∀ a b, s = a ++ 0x2E :: b → p ++ 0x2E :: s = (p ++ 0x2E :: a) ++ 0x2E :: b := by
    rintro a b rfl
    rw [List.append_assoc, List.cons_append]
  have hlt : ∀ {a b : GoString}, p ++ 0x2E :: s = a ++ 0x2E :: b →
      a.length < (p ++ 0x2E :: s).length := by
    intro a b h
    rw [h, List.length_append, List.length_cons]
    omega
  have hlen : ∀ {a b : GoString}, p ++ 0x2E :: s = a ++ 0x2E :: b →
      p.length + s.length = a.length + b.length := by
    intro a b h
    have hcongr := congrArg List.length h
    simp only [List.length_append, List.length_cons] at hcongr
    omega
  have hspec := longSuffix_spec (p ++ 0x2E :: s) (p ++ 0x2E :: s).length
  constructor
  · intro h
    -- what is read off at all is long
    have hlong : 3 < s.length := by
      have hne : 3 < (extractAgentIDFromTag (p ++ 0x2E :: s)).length :=
        length_extract (by rw [h]; exact hs)
      rwa [h] at hne
    refine ⟨hlong, fun a b hab => ?_⟩
    rcases hspec with ⟨-, hall⟩ | ⟨a', s', hsome, htag, -, -, hall⟩
    · exact absurd (hall p s rfl (hlt rfl)) (not_le.mpr hlong)
    · -- what is found is what stands behind `p`, and nothing right of it is long
      rw [extractAgentIDFromTag, hsome] at h
      dsimp only at h
      subst h
      have hsum := hlen htag
      refine hall _ b (hbehind a b hab) ?_ (hlt (hbehind a b hab))
      rw [List.length_append, List.length_cons]
      omega
  · rintro ⟨hlong, hshort⟩
    rcases hspec with ⟨-, hall⟩ | ⟨a', s', hsome, htag, ha', hlong', hall⟩
    · exact absurd (hall p s rfl (hlt rfl)) (not_le.mpr hlong)
    · -- the dot before `s` is one that is found, unless one right of it is
      have hle : p.length ≤ a'.length := by
        by_contra hless
        exact absurd (hall p s rfl (not_le.mp hless) (hlt rfl)) (not_le.mpr hlong)
      obtain ⟨c, hc⟩ : p <+: a' := by
        refine List.prefix_of_prefix_length_le ?_ (List.prefix_append a' (0x2E :: s')) hle
        rw [← htag]
        exact List.prefix_append p _
      rw [extractAgentIDFromTag, hsome]
      dsimp only
      rcases c with _ | ⟨d, c⟩
      · rw [List.append_nil] at hc
        subst hc
        exact ((List.cons.inj (List.append_cancel_left htag)).2).symm
      · rw [← hc, List.append_assoc] at htag
        have hrest := List.append_cancel_left htag
        rw [List.cons_append, List.cons.injEq] at hrest
        exact absurd (hshort c s' hrest.2) (not_le.mpr hlong')

/-- A tag without a dot is read off whole. -/
theorem extract_of_notMem {tag : GoString} (h : 0x2E ∉ tag) :
    extractAgentIDFromTag tag = if 3 < tag.length then tag else [] := by
  rw [extractAgentIDFromTag]
  rcases longSuffix_spec tag tag.length with ⟨hnone, -⟩ | ⟨a, s, -, htag, -⟩
  · rw [hnone]
  · exact absurd (htag ▸ List.mem_append_right a List.mem_cons_self) h

/-! ### The documented tags -/

/-- The documented formats of a tag. -/
inductive TagFormat where
  | heartbeat
  | xsiam
  | bare
deriving DecidableEq

/-- The tag of an agent in a format. -/
def TagFormat.tag : TagFormat → GoString → GoString
  | .heartbeat, agentID => str "heartbeat." ++ agentID
  | .xsiam, agentID => str "xsiam." ++ agentID ++ str ".heartbeat"
  | .bare, agentID => agentID

/-- An agent with a tag of it. The bare format has no room for dots. -/
structure Tagged where
  format : TagFormat
  agentID : GoString
  ne_nil : agentID ≠ []
  dotless : format = .bare → 0x2E ∉ agentID

/-- The tag. -/
def Tagged.tag (t : Tagged) : GoString := t.format.tag t.agentID

/-- The agents that are found by their tags, in each of the formats. -/
def Tagged.Found (t : Tagged) : Prop :=
  match t.format with
  | .heartbeat => Whole t.agentID
  | .xsiam => t.agentID = str "heartbeat"
  | .bare => 3 < t.agentID.length

/-- Each tag of a set yields its agent, so that no two agents are taken for one. -/
structure FindsAgents (tags : Set Tagged) : Prop where
  finds : ∀ t ∈ tags, extractAgentIDFromTag t.tag = t.agentID
  apart : ∀ t ∈ tags, ∀ t' ∈ tags, t.agentID ≠ t'.agentID →
    extractAgentIDFromTag t.tag ≠ extractAgentIDFromTag t'.tag

theorem whole_heartbeat : Whole (str "heartbeat") := by
  refine ⟨by decide, fun a b h => ?_⟩
  have hdot : (0x2E : UInt8) ∈ str "heartbeat" := h ▸ List.mem_append_right a List.mem_cons_self
  exact absurd hdot (by decide)

/-- **Every tag of the second format yields the same agent.** -/
theorem extract_xsiam (agentID : GoString) :
    extractAgentIDFromTag (TagFormat.xsiam.tag agentID) = str "heartbeat" :=
  (extract_append_iff (p := str "xsiam." ++ agentID) (by decide)).mpr whole_heartbeat

/-- A tag yields its agent exactly if the agent is one of those of its format. -/
theorem extract_tag_iff (t : Tagged) : extractAgentIDFromTag t.tag = t.agentID ↔ t.Found := by
  rw [Tagged.tag, Tagged.Found]
  cases hformat : t.format with
  | heartbeat => exact extract_append_iff (p := str "heartbeat") t.ne_nil
  | xsiam =>
    dsimp only
    rw [extract_xsiam]
    exact eq_comm
  | bare =>
    dsimp only [TagFormat.tag]
    rw [extract_of_notMem (t.dotless hformat)]
    split_ifs with hlong
    · exact iff_of_true rfl hlong
    · exact iff_of_false (fun h => t.ne_nil h.symm) hlong

/-- **The tags that are in use yield their agents exactly if each of them is one that is found**, whatever
set of tags that is. -/
theorem findsAgents_iff (tags : Set Tagged) : FindsAgents tags ↔ ∀ t ∈ tags, t.Found := by
  constructor
  · intro h t ht
    exact (extract_tag_iff t).mp (h.finds t ht)
  · intro h
    have hfinds : ∀ t ∈ tags, extractAgentIDFromTag t.tag = t.agentID :=
      fun t ht => (extract_tag_iff t).mpr (h t ht)
    refine ⟨hfinds, fun t ht t' ht' hne hsame => hne ?_⟩
    rw [← hfinds t ht, hsame, hfinds t' ht']

/-- **Not all tags yield their agents**: the one that the source gives for the second format does not. -/
theorem not_findsAgents : ¬FindsAgents Set.univ := by
  intro h
  have hfound := h.finds ⟨.xsiam, str "agent-00001", by decide, by decide⟩ trivial
  rw [Tagged.tag, extract_xsiam] at hfound
  exact absurd hfound (by decide)

/-! ### What a poll records -/

/-- `fbInputMetrics`, with the time that `last_received` is made into. -/
structure InputMetrics where
  records : UInt64
  lastReceived : Option Time := none

/-- `pings`: when an agent was last heard of. -/
abbrev Pings := GoString → Option Time

/-- One input of a poll. -/
def recordInput (now : Time) (pings : Pings) (input : GoString × InputMetrics) : Pings :=
  if input.2.records = 0 then pings
  else
    let agentID := extractAgentIDFromTag input.1
    if agentID = [] then pings
    else
      match input.2.lastReceived with
      | some t => Function.update pings agentID (some t)
      | none => if (pings agentID).isSome then pings else Function.update pings agentID (some now)

/-- The loop of `pollFluentBit`, over the inputs in the order of the map. -/
def pollFluentBit (now : Time) (inputs : List (GoString × InputMetrics)) (pings : Pings) : Pings :=
  inputs.foldl (recordInput now) pings

/-- `IsOnline`, with a window of five minutes. -/
def isOnline (now : Time) (pings : Pings) (agentID : GoString) : Bool :=
  match pings agentID with
  | some t => now - t ≤ 300 * 10 ^ 9
  | none => false

/-- An input tells nothing of another agent than that of its tag. -/
theorem recordInput_of_ne {now : Time} {pings : Pings} {input : GoString × InputMetrics}
    {agentID : GoString} (h : agentID ≠ extractAgentIDFromTag input.1) :
    recordInput now pings input agentID = pings agentID := by
  rw [recordInput]
  dsimp only
  split_ifs
  · rfl
  · rfl
  · cases input.2.lastReceived with
    | some t => exact Function.update_of_ne h _ _
    | none => rfl
  · cases input.2.lastReceived with
    | some t => exact Function.update_of_ne h _ _
    | none => exact Function.update_of_ne h _ _

/-- **An agent that no tag yields is not heard of.** -/
theorem pollFluentBit_of_forall_ne {now : Time} {inputs : List (GoString × InputMetrics)}
    {agentID : GoString} (h : ∀ input ∈ inputs, agentID ≠ extractAgentIDFromTag input.1)
    (pings : Pings) : pollFluentBit now inputs pings agentID = pings agentID := by
  induction inputs generalizing pings with
  | nil => rfl
  | cons input inputs ih =>
    obtain ⟨hne, hrest⟩ := List.forall_mem_cons.mp h
    rw [pollFluentBit, List.foldl_cons]
    exact (ih hrest _).trans (recordInput_of_ne hne)

/-- **With tags of the second format no agent is online**, but one that is called like their end, as long
as nothing else tells of it. -/
theorem isOnline_pollFluentBit_xsiam {now now' : Time} {inputs : List (GoString × InputMetrics)}
    {pings : Pings} {agentID : GoString}
    (htags : ∀ input ∈ inputs, ∃ id, input.1 = TagFormat.xsiam.tag id)
    (hagent : agentID ≠ str "heartbeat") (hnever : pings agentID = none) :
    isOnline now' (pollFluentBit now inputs pings) agentID = false := by
  have hpings : pollFluentBit now inputs pings agentID = none := by
    rw [pollFluentBit_of_forall_ne, hnever]
    intro input hinput
    obtain ⟨id, hid⟩ := htags input hinput
    rwa [hid, extract_xsiam]
  rw [isOnline, hpings]

end Devices

end Xsiam
