import Mathlib.Data.List.Rotate
import Mathlib.Data.Nat.ModEq

/-!
# Rings

A queue in an array that is used round and round: it starts at a place, the tail, and ends before
another one, the head, where the next element goes. Read from the tail on, the array is the queue and
then the free slots (`Ring.Holds`). One slot is always free, so that a full ring and an empty one are
told apart by the two places alone (`Ring.Holds.head_eq_tail_iff`, `Ring.Holds.succ_eq_tail_iff`).

Adding turns the first free slot into the last of the queue, and taking leaves the slot of the element
behind as the last free one (`Ring.Holds.push`, `Ring.Holds.pop`). That one can still be written for as
long as the tail does not move, whatever is added meanwhile (`Ring.Holds.write_last`).
-/

namespace Ring

variable {α : Type*} {slots l free : List α} {head tail : ℕ}

/-- **A ring holds a list**, oldest first, and has free slots. -/
structure Holds (slots : List α) (head tail : ℕ) (l free : List α) : Prop where
  rotate_eq : slots.rotate tail = l ++ free
  free_ne : free ≠ []
  tail_lt : tail < slots.length
  head_eq : head = (tail + l.length) % slots.length

/-! ### Places -/

/-- Less than a round apart, places are apart. -/
theorem place_inj {n t k m : ℕ} (hk : k < n) (hm : m < n) (h : (t + k) % n = (t + m) % n) :
    k = m :=
  Nat.ModEq.eq_of_lt_of_lt (Nat.ModEq.add_left_cancel' t h) hk hm

/-- **A slot of the array, read from the tail on.** -/
theorem rotate_set (tail : ℕ) {d : ℕ} (hd : d < slots.length) (x : α) :
    (slots.set ((tail + d) % slots.length) x).rotate tail = (slots.rotate tail).set d x := by
  refine List.ext_getElem (by simp) fun k hk _ => ?_
  rw [List.length_rotate, List.length_set] at hk
  rw [List.getElem_rotate, List.getElem_set, List.getElem_set, List.getElem_rotate]
  simp only [List.length_set]
  by_cases hkd : d = k
  · rw [if_pos hkd, if_pos (by rw [hkd, Nat.add_comm])]
  · rw [if_neg hkd, if_neg]
    intro heq
    rw [Nat.add_comm k] at heq
    exact hkd (place_inj hd hk heq)

namespace Holds

theorem length_eq (h : Holds slots head tail l free) : slots.length = l.length + free.length := by
  rw [← List.length_rotate slots tail, h.rotate_eq, List.length_append]

theorem free_pos (h : Holds slots head tail l free) : 0 < free.length :=
  List.length_pos_iff.mpr h.free_ne

theorem room (h : Holds slots head tail l free) : l.length < slots.length := by
  have := h.length_eq
  have := h.free_pos
  omega

theorem pos (h : Holds slots head tail l free) : 0 < slots.length := by
  have := h.room
  omega

theorem head_lt (h : Holds slots head tail l free) : head < slots.length := by
  rw [h.head_eq]
  exact Nat.mod_lt _ h.pos

/-! ### The two places -/

/-- **It is empty when they are one.** -/
theorem head_eq_tail_iff (h : Holds slots head tail l free) : head = tail ↔ l = [] := by
  rw [← List.length_eq_zero_iff]
  constructor
  · intro heq
    refine place_inj h.room h.pos (t := tail) ?_
    rw [← h.head_eq, heq, Nat.add_zero, Nat.mod_eq_of_lt h.tail_lt]
  · intro hlen
    rw [h.head_eq, hlen, Nat.add_zero, Nat.mod_eq_of_lt h.tail_lt]

/-- **It is full when the tail comes next behind the head**: one slot is free. -/
theorem succ_eq_tail_iff (h : Holds slots head tail l free) :
    (head + 1) % slots.length = tail ↔ l.length + 1 = slots.length := by
  have hsucc : (head + 1) % slots.length = (tail + (l.length + 1)) % slots.length := by
    rw [h.head_eq, Nat.mod_add_mod, Nat.add_assoc]
  rw [hsucc]
  constructor
  · intro heq
    by_contra hne
    have hlt : l.length + 1 < slots.length := by
      have := h.room
      omega
    have := place_inj hlt h.pos (t := tail) (by rw [heq, Nat.add_zero, Nat.mod_eq_of_lt h.tail_lt])
    omega
  · intro hlen
    rw [hlen, Nat.add_mod_right, Nat.mod_eq_of_lt h.tail_lt]

/-- The two orders of the places: the list is in one piece, or it goes on at the beginning. -/
theorem cases_places (h : Holds slots head tail l free) :
    (tail ≤ head ∧ head = tail + l.length) ∨
      (head < tail ∧ head + slots.length = tail + l.length) := by
  have hroom := h.room
  have htail := h.tail_lt
  rcases Nat.lt_or_ge (tail + l.length) slots.length with hlt | hge
  · have heq : head = tail + l.length := by rw [h.head_eq, Nat.mod_eq_of_lt hlt]
    exact Or.inl ⟨by omega, heq⟩
  · have heq : head = tail + l.length - slots.length := by
      rw [h.head_eq, Nat.mod_eq_sub_mod hge, Nat.mod_eq_of_lt (by omega)]
    exact Or.inr ⟨by omega, by omega⟩

/-! ### The array -/

/-- The array from the tail on, and round to it. -/
theorem eq_drop_append_take (h : Holds slots head tail l free) :
    l ++ free = slots.drop tail ++ slots.take tail := by
  rw [← h.rotate_eq, List.rotate_eq_drop_append_take h.tail_lt.le]

/-- **In one piece**, the list is a part of the array. -/
theorem eq_piece (h : Holds slots head tail l free) (hle : tail ≤ head) :
    (slots.drop tail).take l.length = l := by
  rcases h.cases_places with ⟨-, heq⟩ | ⟨hlt, -⟩
  · have hfits : l.length ≤ (slots.drop tail).length := by
      have := h.head_lt
      rw [List.length_drop]
      omega
    rw [← List.take_append_of_le_length hfits, ← h.eq_drop_append_take, List.take_left]
  · omega

/-- **In two pieces**, it is the end of the array and then its beginning. -/
theorem eq_two_pieces (h : Holds slots head tail l free) (hlt : head < tail) :
    slots.drop tail ++ slots.take head = l := by
  rcases h.cases_places with ⟨hle, -⟩ | ⟨-, heq⟩
  · omega
  · have htail := h.tail_lt
    have hlen : l.length = (slots.drop tail).length + head := by
      rw [List.length_drop]
      omega
    calc slots.drop tail ++ slots.take head
        = slots.drop tail ++ (slots.take tail).take head := by
          rw [List.take_take, min_eq_left hlt.le]
      _ = (slots.drop tail ++ slots.take tail).take l.length := by
          rw [hlen, List.take_length_add_append]
      _ = l := by rw [← h.eq_drop_append_take, List.take_left]

/-- A list at the beginning of an array. -/
theorem of_append (hfree : free ≠ []) : Holds (l ++ free) l.length 0 l free where
  rotate_eq := List.rotate_zero _
  free_ne := hfree
  tail_lt := by
    have := List.length_pos_iff.mpr hfree
    rw [List.length_append]
    omega
  head_eq := by
    have := List.length_pos_iff.mpr hfree
    rw [Nat.zero_add, Nat.mod_eq_of_lt (by rw [List.length_append]; omega)]

/-! ### Operations -/

/-- **Adding**, when one more slot stays free. -/
theorem push {f : α} (h : Holds slots head tail l (f :: free)) (hfree : free ≠ []) (x : α) :
    Holds (slots.set head x) ((head + 1) % slots.length) tail (l ++ [x]) free where
  rotate_eq := by
    rw [h.head_eq, rotate_set tail h.room, h.rotate_eq, List.set_append_right l.length x le_rfl,
      Nat.sub_self, List.set_cons_zero, List.append_assoc, List.singleton_append]
  free_ne := hfree
  tail_lt := by
    rw [List.length_set]
    exact h.tail_lt
  head_eq := by
    rw [List.length_set, List.length_append, List.length_singleton, h.head_eq, Nat.mod_add_mod,
      Nat.add_assoc]

/-- What is next. -/
theorem getElem?_tail {x : α} (h : Holds slots head tail (x :: l) free) :
    slots[tail]? = some x := by
  have hrot := List.getElem?_rotate (l := slots) (n := tail) (m := 0) h.pos
  rwa [h.rotate_eq, Nat.zero_add, Nat.mod_eq_of_lt h.tail_lt, List.cons_append,
    List.getElem?_cons_zero, eq_comm] at hrot

/-- **Taking.** -/
theorem pop {x : α} (h : Holds slots head tail (x :: l) free) :
    Holds slots head ((tail + 1) % slots.length) l (free ++ [x]) where
  rotate_eq := by
    rw [List.rotate_mod, ← List.rotate_rotate, h.rotate_eq, List.cons_append,
      List.rotate_cons_succ, List.rotate_zero, List.append_assoc]
  free_ne := by simp
  tail_lt := Nat.mod_lt _ h.pos
  head_eq := by
    rw [h.head_eq, List.length_cons, Nat.mod_add_mod, Nat.add_assoc, Nat.add_comm 1]

/-- **The slot that was taken last** can be written, whatever was added since. -/
theorem write_last {taken : ℕ} {y : α} (htaken : taken < slots.length)
    (h : Holds slots head ((taken + 1) % slots.length) l (free ++ [y])) (x : α) :
    Holds (slots.set taken x) head ((taken + 1) % slots.length) l (free ++ [x]) := by
  have hlen := h.length_eq
  rw [List.length_append, List.length_singleton] at hlen
  -- it is the last of the slots when they are read from the tail on
  have hplace : ((taken + 1) % slots.length + (l ++ free).length) % slots.length = taken := by
    have hround : taken + 1 + (l ++ free).length = taken + slots.length := by
      rw [List.length_append]
      omega
    rw [Nat.mod_add_mod, hround, Nat.add_mod_right, Nat.mod_eq_of_lt htaken]
  have hinside : (l ++ free).length < slots.length := by
    rw [List.length_append]
    omega
  have hset := rotate_set ((taken + 1) % slots.length) hinside x
  rw [hplace, h.rotate_eq, ← List.append_assoc, List.set_append_right _ _ le_rfl, Nat.sub_self,
    List.set_cons_zero, List.append_assoc] at hset
  refine ⟨hset, by simp, ?_, ?_⟩
  · rw [List.length_set]
    exact h.tail_lt
  · rw [List.length_set]
    exact h.head_eq

end Holds

end Ring
