import Mathlib.Data.List.Basic
import Mathlib.Data.List.Infix
import Mathlib.Tactic.Tauto

/-!
# Memories that forget

A stream of calls is answered one by one: a call is a *repeat* of an earlier one, or it
is *accepted*. What an ideal memory answers is decided by the latest earlier call about
the same thing that was accepted, and by whether that call is still fresh
(`WindowMemory.windowed`). A real memory keeps a record of every accepted call, files it
under a name that several things may share, and lets each call sweep out the records
that the sweeping call no longer keeps (`WindowMemory.Forgets`).

The main result, `WindowMemory.forgets_windowed_iff`, says for which streams a real
memory answers like the ideal one: those in which no call sweeps out a record that a
later call would still find fresh, and no record filed under a shared name stands in
for another (`WindowMemory.Undisturbed`). The second one,
`WindowMemory.Forgets.eq_filter_of_leftAlone`, says when a part of the stream is answered
as if it were alone.

A stream is a list with the *latest* call first, so that what a call has before it is
the tail of the list.
-/

/-- What calls are about, what they are filed under, and how long they are kept. In all
four, the later call comes first. -/
structure WindowMemory (α : Type*) where
  /-- The two calls are about the same thing. -/
  sameKey : α → α → Bool
  /-- The two calls are filed under the same name. -/
  sameFile : α → α → Bool
  /-- The earlier call is still fresh for the later one. -/
  fresh : α → α → Bool
  /-- The sweep of the later call keeps the record of the earlier one. -/
  keeps : α → α → Bool
  sameFile_of_sameKey : ∀ {c a}, sameKey c a = true → sameFile c a = true
  fresh_of_keeps : ∀ {c a}, keeps c a = true → fresh c a = true

namespace WindowMemory

variable {α : Type*}

/-- Whether a call is a repeat, after the earlier ones. -/
abbrev Policy (α : Type*) := α → List α → Bool

/-! ### Accepted calls -/

/-- The latest accepted call of a kind. -/
def lastAccepted (ans : Policy α) (kind : α → Bool) : List α → Option α
  | [] => none
  | c :: cs => if kind c && !ans c cs then some c else lastAccepted ans kind cs

/-- The calls after the latest accepted one of a kind. -/
def since (ans : Policy α) (kind : α → Bool) : List α → List α
  | [] => []
  | c :: cs => if kind c && !ans c cs then [] else c :: since ans kind cs

theorem lastAccepted_kind {ans : Policy α} {kind : α → Bool} {cs : List α} {a : α}
    (h : lastAccepted ans kind cs = some a) : kind a = true := by
  induction cs with
  | nil => simp [lastAccepted] at h
  | cons c cs ih =>
    rw [lastAccepted] at h
    split_ifs at h with hc
    · obtain rfl := Option.some.inj h
      exact (Bool.and_eq_true _ _ ▸ hc).1
    · exact ih h

/-- The latest accepted call of a kind is the latest one of every narrower kind that it
is of. -/
theorem lastAccepted_narrow {ans : Policy α} {kind narrow : α → Bool} {cs : List α} {a : α}
    (hsub : ∀ c, narrow c = true → kind c = true) (h : lastAccepted ans kind cs = some a)
    (ha : narrow a = true) : lastAccepted ans narrow cs = some a := by
  induction cs with
  | nil => simp [lastAccepted] at h
  | cons c cs ih =>
    rw [lastAccepted] at h ⊢
    rcases hans : ans c cs with _ | _
    · rcases hk : kind c with _ | _
      · have hn : narrow c = false := by
          by_contra hc
          rw [hsub c (by simpa using hc)] at hk
          exact absurd hk (by simp)
        simp only [hans, hk, hn, Bool.false_and, Bool.false_eq_true, if_false] at h ⊢
        exact ih h
      · simp only [hans, hk, Bool.not_false, Bool.and_self, if_true] at h
        obtain rfl := Option.some.inj h
        simp [ha]
    · simp only [hans, Bool.not_true, Bool.and_false, Bool.false_eq_true, if_false] at h ⊢
      exact ih h

/-- A wider kind has an accepted call where a narrower one has. -/
theorem lastAccepted_isSome_mono {ans : Policy α} {kind narrow : α → Bool} {cs : List α}
    (hsub : ∀ c, narrow c = true → kind c = true)
    (h : (lastAccepted ans narrow cs).isSome) : (lastAccepted ans kind cs).isSome := by
  induction cs with
  | nil => simp [lastAccepted] at h
  | cons c cs ih =>
    rw [lastAccepted] at h ⊢
    by_cases hk : (kind c && !ans c cs) = true
    · rw [if_pos hk]
      rfl
    · have hn : ¬(narrow c && !ans c cs) = true := by
        rw [Bool.and_eq_true] at hk ⊢
        exact fun hn => hk ⟨hsub c hn.1, hn.2⟩
      rw [if_neg hk]
      rw [if_neg hn] at h
      exact ih h

/-- Only the answers to the calls of a kind matter. -/
theorem lastAccepted_congr {ans ans' : Policy α} {kind : α → Bool} {cs : List α}
    (h : ∀ m rest, m :: rest <:+ cs → kind m = true → ans m rest = ans' m rest) :
    lastAccepted ans kind cs = lastAccepted ans' kind cs := by
  induction cs with
  | nil => rfl
  | cons c cs ih =>
    have htail := ih fun m rest hm => h m rest (hm.trans (List.suffix_cons c cs))
    rw [lastAccepted, lastAccepted, htail]
    rcases hk : kind c with _ | _
    · rfl
    · rw [h c cs List.suffix_rfl hk]

theorem since_congr {ans ans' : Policy α} {kind : α → Bool} {cs : List α}
    (h : ∀ m rest, m :: rest <:+ cs → kind m = true → ans m rest = ans' m rest) :
    since ans kind cs = since ans' kind cs := by
  induction cs with
  | nil => rfl
  | cons c cs ih =>
    have htail := ih fun m rest hm => h m rest (hm.trans (List.suffix_cons c cs))
    rw [since, since, htail]
    rcases hk : kind c with _ | _
    · rfl
    · rw [h c cs List.suffix_rfl hk]

variable (M : WindowMemory α)

/-! ### The ideal memory -/

/-- The calls the ideal memory accepts. -/
def allowed : List α → List α
  | [] => []
  | c :: cs =>
    if ((allowed cs).find? (M.sameKey c)).any (M.fresh c) then allowed cs else c :: allowed cs

/-- The answer of the ideal memory. -/
def windowed : Policy α := fun c cs => ((M.allowed cs).find? (M.sameKey c)).any (M.fresh c)

/-- What an answer should be, after the other answers: whether the latest accepted call
about the same thing is still fresh. -/
def repeats (ans : Policy α) (c : α) (cs : List α) : Bool :=
  (lastAccepted ans (M.sameKey c) cs).any (M.fresh c)

theorem lastAccepted_windowed (kind : α → Bool) (cs : List α) :
    lastAccepted M.windowed kind cs = (M.allowed cs).find? kind := by
  induction cs with
  | nil => rfl
  | cons c cs ih =>
    rw [lastAccepted, ih, allowed]
    change (if kind c && !M.windowed c cs then _ else _)
      = (if M.windowed c cs then _ else _ : List α).find? kind
    rcases M.windowed c cs with _ | _
    · rcases hk : kind c with _ | _ <;> simp [hk]
    · simp

/-- The ideal memory answers as it should, after its own answers. -/
theorem windowed_eq_repeats (c : α) (cs : List α) : M.windowed c cs = M.repeats M.windowed c cs := by
  rw [repeats, lastAccepted_windowed]
  rfl

/-- A policy is the ideal one along a stream if each of its answers is, provided that those before it
are. -/
theorem eq_windowed_of_step {ans : Policy α} {calls : List α}
    (h : ∀ c cs, c :: cs <:+ calls → (∀ m rest, m :: rest <:+ cs → ans m rest = M.windowed m rest) →
      ans c cs = M.windowed c cs) :
    ∀ c cs, c :: cs <:+ calls → ans c cs = M.windowed c cs := by
  induction calls with
  | nil =>
    intro c cs hsuf
    simpa using List.eq_nil_of_suffix_nil hsuf
  | cons d calls ih =>
    have htail := ih fun c cs hsuf => h c cs (hsuf.trans (List.suffix_cons d calls))
    intro c cs hsuf
    rcases List.suffix_cons_iff.mp hsuf with heq | hsuf
    · obtain ⟨rfl, rfl⟩ := List.cons.inj heq
      exact h c cs List.suffix_rfl htail
    · exact htail c cs hsuf

/-- A policy that answers as it should all along a stream is the ideal one there. -/
theorem eq_windowed_of_repeats {ans : Policy α} {calls : List α}
    (h : ∀ c cs, c :: cs <:+ calls → ans c cs = M.repeats ans c cs) :
    ∀ c cs, c :: cs <:+ calls → ans c cs = M.windowed c cs := by
  refine M.eq_windowed_of_step fun c cs hsuf hbefore => ?_
  rw [h c cs hsuf, windowed_eq_repeats, repeats, repeats,
    lastAccepted_congr fun m rest hm _ => hbefore m rest hm]

/-! ### Memories of records -/

/-- The record of a kind that is left: the latest accepted call, unless a call since then
has swept it out. -/
def remembered (ans : Policy α) (kind : α → Bool) : List α → Option α
  | [] => none
  | c :: cs =>
    if kind c && !ans c cs then some c else (remembered ans kind cs).filter (M.keeps c)

/-- A policy that answers from the records: a call is a repeat when a record filed under
the same name is left after its own sweep. -/
def Forgets (ans : Policy α) : Prop :=
  ∀ c cs, ans c cs = ((M.remembered ans (M.sameFile c) cs).filter (M.keeps c)).isSome

/-- A record is left when every call since keeps it. -/
theorem remembered_eq_some {ans : Policy α} {kind : α → Bool} {cs : List α} {a : α} :
    M.remembered ans kind cs = some a ↔
      lastAccepted ans kind cs = some a ∧ ∀ m ∈ since ans kind cs, M.keeps m a = true := by
  induction cs with
  | nil => simp [remembered, lastAccepted]
  | cons c cs ih =>
    rw [remembered, lastAccepted, since]
    split_ifs with hc
    · simp
    · rw [Option.filter_eq_some_iff, ih, List.forall_mem_cons]
      tauto

/-- What a memory of records answers, in terms of the calls since. -/
theorem Forgets.iff {M : WindowMemory α} {ans : Policy α} (hans : M.Forgets ans) (c : α)
    (cs : List α) : ans c cs = true ↔
      ∃ b, lastAccepted ans (M.sameFile c) cs = some b ∧
        ∀ m ∈ c :: since ans (M.sameFile c) cs, M.keeps m b = true := by
  rw [hans c cs, Option.isSome_iff_exists]
  refine exists_congr fun b => ?_
  rw [Option.filter_eq_some_iff, remembered_eq_some, List.forall_mem_cons]
  tauto

/-- The first call of a stream is no repeat. -/
theorem Forgets.nil {M : WindowMemory α} {ans : Policy α} (hans : M.Forgets ans) (c : α) :
    ans c [] = false := by
  rw [hans c []]
  rfl

/-- Nothing that the calls before did disturbs the answer to a call. Where it is a repeat,
no call since the latest record filed under its name has swept that record out; where it
is none, the record of another thing filed under the same name has been. -/
structure Undisturbed (c : α) (cs : List α) : Prop where
  kept : M.windowed c cs = true →
    ∀ b, lastAccepted M.windowed (M.sameFile c) cs = some b →
      ∀ m ∈ c :: since M.windowed (M.sameFile c) cs, M.keeps m b = true
  own : M.windowed c cs = false →
    ∀ b, lastAccepted M.windowed (M.sameFile c) cs = some b → M.sameKey c b = false →
      ∃ m ∈ c :: since M.windowed (M.sameFile c) cs, M.keeps m b = false

/-- After the ideal answers, one call is answered right exactly when nothing disturbs it. -/
theorem undisturbed_iff (c : α) (cs : List α) :
    ((∃ b, lastAccepted M.windowed (M.sameFile c) cs = some b ∧
        ∀ m ∈ c :: since M.windowed (M.sameFile c) cs, M.keeps m b = true) ↔
      M.windowed c cs = true) ↔ M.Undisturbed c cs := by
  constructor
  · intro hiff
    refine ⟨fun hrep b hb => ?_, fun hrep b hb _ => ?_⟩
    · obtain ⟨b', hb', hkeep⟩ := hiff.mpr hrep
      rw [hb] at hb'
      obtain rfl := Option.some.inj hb'
      exact hkeep
    · -- a record that every call of the window keeps would make the call a repeat
      by_contra hc
      push Not at hc
      have hall : ∀ m ∈ c :: since M.windowed (M.sameFile c) cs, M.keeps m b = true :=
        fun m hm => by simpa using hc m hm
      rw [hiff.mp ⟨b, hb, hall⟩] at hrep
      exact absurd hrep (by simp)
  · rintro ⟨hkept, hown⟩
    constructor
    · rintro ⟨b, hb, hkeep⟩
      by_contra hrep
      rw [Bool.not_eq_true] at hrep
      rcases hkey : M.sameKey c b with _ | _
      · obtain ⟨m, hm, hdrop⟩ := hown hrep b hb hkey
        rw [hkeep m hm] at hdrop
        exact absurd hdrop (by simp)
      · -- the record is the call's own, and the call itself keeps it
        have hlast := lastAccepted_narrow (fun _ => M.sameFile_of_sameKey) hb hkey
        have hfresh := M.fresh_of_keeps (hkeep c List.mem_cons_self)
        rw [windowed_eq_repeats, repeats, hlast, Option.any_some, hfresh] at hrep
        exact absurd hrep (by simp)
    · intro hrep
      have hsome : (lastAccepted M.windowed (M.sameFile c) cs).isSome := by
        refine lastAccepted_isSome_mono (fun _ => M.sameFile_of_sameKey) ?_
        rw [windowed_eq_repeats, repeats] at hrep
        rcases hlast : lastAccepted M.windowed (M.sameKey c) cs with _ | a
        · rw [hlast] at hrep
          exact absurd hrep (by simp)
        · rfl
      obtain ⟨b, hb⟩ := Option.isSome_iff_exists.mp hsome
      exact ⟨b, hb, hkept hrep b hb⟩

/-- A memory of records that is undisturbed all along a stream is the ideal memory
there. -/
theorem Forgets.eq_windowed {M : WindowMemory α} {ans : Policy α} (hans : M.Forgets ans)
    {calls : List α} (h : ∀ c cs, c :: cs <:+ calls → M.Undisturbed c cs) :
    ∀ c cs, c :: cs <:+ calls → ans c cs = M.windowed c cs := by
  refine M.eq_windowed_of_step fun c cs hsuf hbefore => ?_
  rw [Bool.eq_iff_iff, hans.iff,
    lastAccepted_congr fun m rest hm _ => hbefore m rest hm,
    since_congr fun m rest hm _ => hbefore m rest hm]
  exact (M.undisturbed_iff c cs).mpr (h c cs hsuf)

/-- **When a memory of records answers as it should**, all along a stream: exactly when
nothing disturbs any of the answers of the ideal memory. -/
theorem forgets_windowed_iff {ans : Policy α} (hans : M.Forgets ans) (calls : List α) :
    (∀ c cs, c :: cs <:+ calls → ans c cs = M.repeats ans c cs) ↔
      ∀ c cs, c :: cs <:+ calls → M.Undisturbed c cs := by
  constructor
  · intro hright c cs hsuf
    have hideal := M.eq_windowed_of_repeats hright
    have hbefore : ∀ m rest, m :: rest <:+ cs → ans m rest = M.windowed m rest :=
      fun m rest hm => hideal m rest ((hm.trans (List.suffix_cons c cs)).trans hsuf)
    rw [← undisturbed_iff, ← hideal c cs hsuf, hans.iff,
      lastAccepted_congr fun m rest hm _ => hbefore m rest hm,
      since_congr fun m rest hm _ => hbefore m rest hm]
  · intro hund c cs hsuf
    have hideal := hans.eq_windowed hund
    have hbefore : ∀ m rest, m :: rest <:+ cs → ans m rest = M.windowed m rest :=
      fun m rest hm => hideal m rest ((hm.trans (List.suffix_cons c cs)).trans hsuf)
    rw [hideal c cs hsuf, windowed_eq_repeats, repeats, repeats,
      lastAccepted_congr fun m rest hm _ => hbefore m rest hm]

/-! ### A part of a stream on its own -/

/-- The part of a stream that a call belongs to is apart from the rest of it: an earlier
call outside of it is filed under another name, and keeps what the part has recorded
under the call's. -/
def Apart (mine : α → Bool) (c : α) (cs : List α) : Prop :=
  ∀ m rest, m :: rest <:+ cs → mine m = false →
    M.sameFile c m = false ∧
      ∀ a ∈ rest, mine a = true → M.sameFile c a = true → M.keeps m a = true

theorem remembered_kind {ans : Policy α} {kind : α → Bool} {cs : List α} {a : α}
    (h : M.remembered ans kind cs = some a) : kind a = true :=
  lastAccepted_kind (M.remembered_eq_some.mp h).1

theorem remembered_mem {ans : Policy α} {kind : α → Bool} {cs : List α} {a : α}
    (h : M.remembered ans kind cs = some a) : a ∈ cs := by
  induction cs with
  | nil => simp [remembered] at h
  | cons c cs ih =>
    rw [remembered] at h
    split_ifs at h
    · obtain rfl := Option.some.inj h
      exact List.mem_cons_self
    · exact List.mem_cons_of_mem c (ih (Option.eq_some_of_filter_eq_some h))

/-- The rest of a stream leaves a call of a part alone. Of what the call itself would keep,
an earlier call outside of the part has filed nothing under the call's name, unless it was
a repeat, and has swept out nothing that the part has recorded there. -/
def LeftAlone (ans : Policy α) (mine : α → Bool) (c : α) (cs : List α) : Prop :=
  ∀ m rest, m :: rest <:+ cs → mine m = false →
    (M.sameFile c m = true → M.keeps c m = true → ans m rest = true) ∧
      ∀ a ∈ rest, mine a = true → M.sameFile c a = true → M.keeps c a = true →
        M.keeps m a = true

theorem Apart.leftAlone {M : WindowMemory α} {mine : α → Bool} {c : α} {cs : List α}
    (h : M.Apart mine c cs) (ans : Policy α) : M.LeftAlone ans mine c cs := by
  intro m rest hm hmine
  obtain ⟨hfile, hkeep⟩ := h m rest hm hmine
  refine ⟨fun hsame _ => ?_, fun a ha hmine' hsame _ => hkeep a ha hmine' hsame⟩
  rw [hfile] at hsame
  exact absurd hsame (by simp)

theorem filter_filter_comm (o : Option α) (p q : α → Bool) :
    (o.filter p).filter q = (o.filter q).filter p := by
  rw [Option.filter_filter, Option.filter_filter]
  refine congrArg (o.filter ·) ?_
  funext a
  exact Bool.and_comm _ _

/-- What a call keeps of the records is what its own part left of them. -/
theorem remembered_filter_keeps {M : WindowMemory α} {ans : Policy α} (hans : M.Forgets ans)
    (hfile : ∀ c m, M.sameFile c m = true → M.sameFile m = M.sameFile c) {mine : α → Bool}
    {c : α} {cs : List α} (hleft : M.LeftAlone ans mine c cs)
    (halone : ∀ m rest, m :: rest <:+ cs → mine m = true →
      ans m rest = ans m (rest.filter mine)) :
    (M.remembered ans (M.sameFile c) cs).filter (M.keeps c) =
      (M.remembered ans (M.sameFile c) (cs.filter mine)).filter (M.keeps c) := by
  induction cs with
  | nil => rfl
  | cons d cs ih =>
    have hsub : ∀ m rest, m :: rest <:+ cs → m :: rest <:+ d :: cs :=
      fun m rest hm => hm.trans (List.suffix_cons d cs)
    have htail := ih (fun m rest hm => hleft m rest (hsub m rest hm))
      fun m rest hm => halone m rest (hsub m rest hm)
    rcases hd : mine d with _ | _
    · obtain ⟨hfiled, hswept⟩ := hleft d cs List.suffix_rfl hd
      -- what the call keeps is in its own part, and a call outside of it keeps it too
      have hkept : ∀ a, (M.remembered ans (M.sameFile c) cs).filter (M.keeps c) = some a →
          M.keeps d a = true := by
        intro a ha
        have hmem : a ∈ cs.filter mine :=
          M.remembered_mem (Option.eq_some_of_filter_eq_some (htail ▸ ha))
        obtain ⟨hrem, hkeep⟩ := Option.filter_eq_some_iff.mp ha
        rw [List.mem_filter] at hmem
        exact hswept a hmem.1 hmem.2 (M.remembered_kind hrem) hkeep
      rw [List.filter_cons_of_neg (by simp [hd]), ← htail, remembered]
      split_ifs with hrec
      · -- a record outside of the part is none that the call keeps, and there was no other
        obtain ⟨hsame, hacc⟩ : M.sameFile c d = true ∧ ans d cs = false := by simpa using hrec
        have hold : M.keeps c d = false := by
          by_contra hc
          rw [hfiled hsame (by simpa using hc)] at hacc
          exact absurd hacc (by simp)
        rw [hans d cs, hfile c d hsame] at hacc
        rw [Option.filter_some_neg (by simp [hold])]
        rcases hrem : (M.remembered ans (M.sameFile c) cs).filter (M.keeps c) with _ | a
        · rfl
        · rw [Option.eq_some_of_filter_eq_some hrem] at hacc
          simp [hkept a hrem] at hacc
      · -- the call sees past this sweep
        rcases hrem : (M.remembered ans (M.sameFile c) cs).filter (M.keeps c) with _ | a
        · rw [filter_filter_comm, hrem]
          rfl
        · rw [filter_filter_comm, hrem, Option.filter_some_pos (hkept a hrem)]
    · rw [List.filter_cons_of_pos hd, remembered, remembered,
        halone d cs List.suffix_rfl hd]
      split_ifs
      · rfl
      · rw [filter_filter_comm, htail, filter_filter_comm]

/-- **When a part of a stream is answered as if it were alone**: when the rest leaves each
of its calls alone. -/
theorem Forgets.eq_filter_of_leftAlone {M : WindowMemory α} {ans : Policy α}
    (hans : M.Forgets ans) (hfile : ∀ c m, M.sameFile c m = true → M.sameFile m = M.sameFile c)
    (mine : α → Bool) {calls : List α}
    (h : ∀ c cs, c :: cs <:+ calls → mine c = true → M.LeftAlone ans mine c cs) :
    ∀ c cs, c :: cs <:+ calls → mine c = true → ans c cs = ans c (cs.filter mine) := by
  induction calls with
  | nil =>
    intro c cs hsuf
    simpa using List.eq_nil_of_suffix_nil hsuf
  | cons d calls ih =>
    have htail := ih fun c cs hsuf => h c cs (hsuf.trans (List.suffix_cons d calls))
    intro c cs hsuf hc
    rcases List.suffix_cons_iff.mp hsuf with heq | hsuf
    · obtain ⟨rfl, rfl⟩ := List.cons.inj heq
      rw [hans c cs, hans c (cs.filter mine),
        remembered_filter_keeps hans hfile (h c cs List.suffix_rfl hc) htail]
    · exact htail c cs hsuf hc

/-- A part that is apart from the rest at each of its calls is left alone. -/
theorem Forgets.eq_filter {M : WindowMemory α} {ans : Policy α} (hans : M.Forgets ans)
    (hfile : ∀ c m, M.sameFile c m = true → M.sameFile m = M.sameFile c)
    (mine : α → Bool) {calls : List α}
    (h : ∀ c cs, c :: cs <:+ calls → mine c = true → M.Apart mine c cs) :
    ∀ c cs, c :: cs <:+ calls → mine c = true → ans c cs = ans c (cs.filter mine) :=
  hans.eq_filter_of_leftAlone hfile mine fun c cs hsuf hc => (h c cs hsuf hc).leftAlone ans

/-! ### Calls inside other data -/

variable {β : Type*}

/-- The memory of calls that are read off other data. -/
def comap (f : β → α) : WindowMemory β where
  sameKey c a := M.sameKey (f c) (f a)
  sameFile c a := M.sameFile (f c) (f a)
  fresh c a := M.fresh (f c) (f a)
  keeps c a := M.keeps (f c) (f a)
  sameFile_of_sameKey := M.sameFile_of_sameKey
  fresh_of_keeps := M.fresh_of_keeps

theorem remembered_comap (f : β → α) (ans : Policy α) (kind : α → Bool) (cs : List β) :
    ((M.comap f).remembered (fun c earlier => ans (f c) (earlier.map f)) (fun b => kind (f b))
      cs).map f = M.remembered ans kind (cs.map f) := by
  induction cs with
  | nil => rfl
  | cons c cs ih =>
    rw [remembered, List.map_cons, remembered, ← ih]
    split_ifs
    · rfl
    · rw [Option.filter_map]
      rfl

theorem Forgets.comap {M : WindowMemory α} {ans : Policy α} (hans : M.Forgets ans)
    (f : β → α) : (M.comap f).Forgets fun c cs => ans (f c) (cs.map f) := by
  intro c cs
  refine (hans (f c) (cs.map f)).trans ?_
  rw [← M.remembered_comap f ans, Option.filter_map, Option.isSome_map]
  rfl

end WindowMemory
