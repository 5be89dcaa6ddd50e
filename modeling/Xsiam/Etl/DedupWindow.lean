import Xsiam.Lib.Window
import Xsiam.Etl.Dedup

/-!
# What the deduplicator answers

One deduplicator serves every caller, so its answers are those of a memory that
forgets (`WindowMemory`): a call files its record under the flattened key of tenant and
value, and sweeps out every record that is older than *its own* window
(`Xsiam.Etl.answer_forgets`).

The answer it should give is that a call is a duplicate when the latest earlier call for
the same tenant and value that was no duplicate is at most the window of the call away.
`Xsiam.Etl.answer_windowed_iff` says exactly which sequences of calls are answered like
that. Two things go wrong in the others. A call with a short window sweeps out records
that a call with a longer one still needs; and two pairs with a NUL in them can flatten
to one key. A window that overflows 64 bits is of the first kind: it is short.
-/

namespace Xsiam

namespace Etl

open Go WindowMemory

/-! ### Times and windows -/

/-- A window in 64 bits is no longer than the window that was asked for. -/
theorem windowOf_le {w : ℤ} (h : 0 < w) : windowOf w ≤ w * 1000000000 := by
  rw [windowOf]
  rw [Int.bmod_def]
  split_ifs <;> omega

/-- A window in 64 bits is an even number of nanoseconds, so it is below the greatest
difference of two times. -/
theorem windowOf_lt (w : ℤ) : windowOf w < 2 ^ 63 - 1 := by
  rw [windowOf]
  rw [Int.bmod_def]
  split_ifs <;> omega

/-- A record within a window in 64 bits is within the window that was asked for. -/
theorem sub_le_of_timeSub_le {now t w : ℤ} (hw : 0 < w)
    (h : timeSub now t ≤ windowOf w) : now - t ≤ w * 1000000000 := by
  have hle := windowOf_le hw
  have hlt := windowOf_lt w
  rw [timeSub] at h
  omega

/-! ### One call -/

/-- The key a call files under. -/
def LiveCall.file (c : LiveCall) : GoString := compositeKey c.tenantID c.keyVal

/-- Whether the sweep of a call leaves a record of a given time. -/
def LiveCall.spares (c : LiveCall) (t : Time) : Bool := timeSub c.now t ≤ windowOf c.windowSec

theorem getElem?_evict (d : Deduplicator) (c : LiveCall) (k : GoString) :
    (d.evict c.now (windowOf c.windowSec)).seen[k]? = (d.seen[k]?).filter c.spares := by
  rw [Deduplicator.evict, Std.ExtTreeMap.getElem?_filter']
  congr 1
  funext t
  rw [LiveCall.spares, ← decide_not, decide_eq_decide, not_lt]

/-- A call is a duplicate when a record of its key is left after its own sweep. -/
theorem run_fst (d : Deduplicator) (c : LiveCall) :
    (c.run d).1 = ((d.seen[c.file]?).filter c.spares).isSome := by
  have hlive : ¬(c.windowSec ≤ 0 ∨ c.keyVal = []) :=
    not_or.mpr ⟨not_le.mpr c.window_pos, c.keyVal_ne⟩
  have hget := getElem?_evict d c c.file
  rw [DedupCall.run, Deduplicator.isDuplicate, if_neg hlive]
  dsimp only
  rw [← LiveCall.file, hget]
  rcases hrec : (d.seen[c.file]?).filter c.spares with _ | t
  · rfl
  · have hspare : timeSub c.now t ≤ windowOf c.windowSec := by
      simpa [LiveCall.spares] using (Option.filter_eq_some_iff.mp hrec).2
    simp [hspare]

/-- What a call leaves: the records its sweep spares, and its own unless it was a
duplicate. -/
theorem run_snd (d : Deduplicator) (c : LiveCall) (k : GoString) :
    (c.run d).2.seen[k]? =
      if c.file = k ∧ (c.run d).1 = false then some c.now
      else (d.seen[k]?).filter c.spares := by
  have hlive : ¬(c.windowSec ≤ 0 ∨ c.keyVal = []) :=
    not_or.mpr ⟨not_le.mpr c.window_pos, c.keyVal_ne⟩
  rw [run_fst, ← getElem?_evict d c k, ← getElem?_evict d c c.file]
  rw [DedupCall.run, Deduplicator.isDuplicate, if_neg hlive]
  dsimp only
  rw [← LiveCall.file]
  rcases hrec : (d.evict c.now (windowOf c.windowSec)).seen[c.file]? with _ | t
  · change ((d.evict c.now (windowOf c.windowSec)).seen.insert c.file c.now)[k]? = _
    rw [GoMap.getElem?_insert]
    simp [eq_comm]
  · have hspare : timeSub c.now t ≤ windowOf c.windowSec := by
      rw [getElem?_evict] at hrec
      simpa [LiveCall.spares] using (Option.filter_eq_some_iff.mp hrec).2
    simp [hspare]

/-! ### Sequences of calls -/

/-- The deduplicator after a sequence of calls, the latest first. -/
def seenAfter : List LiveCall → Deduplicator
  | [] => newDeduplicator
  | c :: earlier => (c.run (seenAfter earlier)).2

/-- The answer to a call after earlier ones. -/
def answer (c : LiveCall) (earlier : List LiveCall) : Bool := (c.run (seenAfter earlier)).1

/-- Two calls for the same tenant and value. -/
def samePair (c a : LiveCall) : Bool := a.tenantID = c.tenantID && a.keyVal = c.keyVal

/-- The deduplicator as a memory that forgets. -/
def memory : WindowMemory LiveCall where
  sameKey := samePair
  sameFile c a := a.file = c.file
  fresh c a := c.now - a.now ≤ c.windowSec * 1000000000
  keeps c a := c.spares a.now
  sameFile_of_sameKey {c a} h := by
    obtain ⟨ht, hk⟩ : a.tenantID = c.tenantID ∧ a.keyVal = c.keyVal := by
      simpa [samePair] using h
    simp [LiveCall.file, ht, hk]
  fresh_of_keeps {c a} h := by
    have hspare : timeSub c.now a.now ≤ windowOf c.windowSec := by
      simpa [LiveCall.spares] using h
    simpa using sub_le_of_timeSub_le c.window_pos hspare

/-- Calls filed under one key are filed with the same others. -/
theorem sameFile_congr {c m : LiveCall} (h : memory.sameFile c m = true) :
    memory.sameFile m = memory.sameFile c := by
  have hfile : m.file = c.file := by simpa [memory] using h
  ext a
  simp [memory, hfile]

/-- The map holds, for every key, the record that is left of the calls filed under it. -/
theorem getElem?_seenAfter (k : GoString) (calls : List LiveCall) :
    (seenAfter calls).seen[k]? =
      (memory.remembered answer (fun a => a.file = k) calls).map (·.now) := by
  induction calls with
  | nil => simp [seenAfter, newDeduplicator, remembered]
  | cons c earlier ih =>
    rw [seenAfter, run_snd, remembered, ih]
    by_cases hown : c.file = k ∧ (c.run (seenAfter earlier)).1 = false
    · rw [if_pos hown, if_pos (by simpa [answer] using hown)]
      rfl
    · rw [if_neg hown, if_neg (by simpa [answer] using hown), Option.filter_map]
      rfl

/-- **The deduplicator is a memory that forgets.** -/
theorem answer_forgets : memory.Forgets answer := by
  intro c earlier
  rw [answer, run_fst, getElem?_seenAfter, Option.filter_map, Option.isSome_map]
  rfl

/-- **Which sequences of calls are answered as they should be**: those in which nothing
disturbs an answer. -/
theorem answer_windowed_iff (calls : List LiveCall) :
    (∀ c earlier, c :: earlier <:+ calls →
      (answer c earlier = true ↔
        ∃ a, lastAccepted answer (samePair c) earlier = some a ∧
          c.now - a.now ≤ c.windowSec * 1000000000)) ↔
      ∀ c earlier, c :: earlier <:+ calls → memory.Undisturbed c earlier := by
  rw [← memory.forgets_windowed_iff answer_forgets calls]
  refine forall_congr' fun c => forall_congr' fun earlier => imp_congr_right fun _ => ?_
  refine Iff.trans ?_ Bool.eq_iff_iff.symm
  rw [repeats, Option.any_eq_true]
  simp [memory]

/-- A call on the value `k` of the tenant `t`, with a window of a minute. -/
def minuteCall (seconds : ℤ) : LiveCall :=
  ⟨⟨seconds * 1000000000, str "t", str "k", 60⟩, show (0 : ℤ) < 60 by decide,
    show str "k" ≠ [] by decide⟩

/-- A call on another value, with a window of a second. -/
def secondCall (seconds : ℤ) : LiveCall :=
  ⟨⟨seconds * 1000000000, str "t", str "x", 1⟩, show (0 : ℤ) < 1 by decide,
    show str "x" ≠ [] by decide⟩

/-- The call with the short window makes the deduplicator forget the first call, which
was 20 seconds ago. -/
theorem secondCall_forgets_minuteCall :
    answer (minuteCall 20) [secondCall 10, minuteCall 0] = false ∧
      lastAccepted answer (samePair (minuteCall 20)) [secondCall 10, minuteCall 0] =
        some (minuteCall 0) ∧
      (minuteCall 20).now - (minuteCall 0).now ≤ (minuteCall 20).windowSec * 1000000000 := by
  decide +kernel

end Etl

end Xsiam
