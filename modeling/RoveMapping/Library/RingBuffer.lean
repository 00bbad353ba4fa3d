import Mathlib.Data.Nat.ModEq
import Mathlib.Data.List.Basic
import Mathlib.Tactic.Ring

/-! # A ring of slots under two counters that wrap

The counters count what was put in and what was taken out, modulo `2 ^ w`, and the low bits of a counter name
its slot. As long as the ring has a power of two of slots, fewer than `2 ^ w`, it is a bounded queue however
often the counters wrap.
-/
namespace RingBuffer
set_option autoImplicit false

structure Ring (w : ℕ) (α : Type) where
  slots : List α
  rd : BitVec w
  wr : BitVec w
  mask : BitVec w

variable {w : ℕ} {α : Type}

namespace Ring

def slot (ring : Ring w α) (counter : BitVec w) : ℕ := (counter &&& ring.mask).toNat

def used (ring : Ring w α) : BitVec w := ring.wr - ring.rd
def full (ring : Ring w α) : Bool := ring.mask < ring.used
def empty (ring : Ring w α) : Bool := ring.rd == ring.wr

/-- Changes the slot that the next element will have; the element is not in the ring yet. -/
def fill (ring : Ring w α) (f : α → α) : Ring w α := { ring with slots := ring.slots.modify (ring.slot ring.wr) f }

def bump (ring : Ring w α) : Ring w α := { ring with wr := ring.wr + 1 }
def drop (ring : Ring w α) : Ring w α := { ring with rd := ring.rd + 1 }
def front? (ring : Ring w α) : Option α := ring.slots[ring.slot ring.rd]?

def contents (ring : Ring w α) : List α :=
  (List.range ring.used.toNat).filterMap fun i => ring.slots[ring.slot (ring.rd + BitVec.ofNat w i)]?

/-- The ring is this queue, the oldest element first. -/
structure Holds (ring : Ring w α) (content : List α) : Prop where
  power : ∃ k < w, ring.slots.length = 2 ^ k ∧ ring.mask = BitVec.ofNat w (2 ^ k - 1)
  used : ring.used.toNat = content.length
  bound : content.length ≤ ring.slots.length
  slots : ∀ i (hi : i < content.length), ring.slots[ring.slot (ring.rd + BitVec.ofNat w i)]? = some content[i]

end Ring

/-- What a ring is for: a queue that takes no more than its capacity. -/
structure Fifo (α : Type) where
  capacity : ℕ
  content : List α
  bound : content.length ≤ capacity

namespace Fifo

def ofCapacity (capacity : ℕ) : Fifo α := ⟨capacity, [], Nat.zero_le _⟩

def offer (queue : Fifo α) (a : α) : Fifo α :=
  if h : queue.content.length < queue.capacity then
    ⟨queue.capacity, queue.content ++ [a], by rw [List.length_append]; exact h⟩
  else queue

def take (queue : Fifo α) : Option α × Fifo α :=
  (queue.content.head?, ⟨queue.capacity, queue.content.tail, by
    rw [List.length_tail]
    exact (Nat.sub_le _ _).trans queue.bound⟩)

@[simp] theorem capacity_offer (queue : Fifo α) (a : α) : (queue.offer a).capacity = queue.capacity := by
  unfold offer
  split <;> rfl

theorem content_offer_of_lt {queue : Fifo α} (h : queue.content.length < queue.capacity) (a : α) :
    (queue.offer a).content = queue.content ++ [a] := by rw [offer, dif_pos h]

theorem offer_of_full {queue : Fifo α} (h : queue.content.length = queue.capacity) (a : α) : queue.offer a = queue := by
  rw [offer, dif_neg (by omega)]

end Fifo

theorem mask_toNat {k : ℕ} (hk : k < w) : (BitVec.ofNat w (2 ^ k - 1)).toNat = 2 ^ k - 1 := by
  rw [BitVec.toNat_ofNat]
  exact Nat.mod_eq_of_lt (lt_of_le_of_lt (Nat.sub_le _ _) (Nat.pow_lt_pow_right (by omega) hk))

/-- The slot is the counter modulo the number of slots, whether or not the counter has wrapped. -/
theorem and_mask_toNat {k : ℕ} (hk : k < w) (counter : BitVec w) (i : ℕ) :
    ((counter + BitVec.ofNat w i) &&& BitVec.ofNat w (2 ^ k - 1)).toNat = (counter.toNat + i) % 2 ^ k := by
  rw [BitVec.toNat_and, mask_toNat hk, Nat.and_two_pow_sub_one_eq_mod, BitVec.toNat_add, BitVec.toNat_ofNat,
    Nat.mod_mod_of_dvd _ (Nat.pow_dvd_pow 2 hk.le), Nat.add_mod, Nat.mod_mod_of_dvd _ (Nat.pow_dvd_pow 2 hk.le),
    ← Nat.add_mod]

theorem add_mod_ne {a i j m : ℕ} (hi : i < j) (hj : j < m) : (a + i) % m ≠ (a + j) % m := by
  intro h
  have h' : i % m = j % m := Nat.ModEq.add_left_cancel' a h
  rw [Nat.mod_eq_of_lt (by omega), Nat.mod_eq_of_lt hj] at h'
  omega

theorem filterMap_getElem?_range (xs : List α) : (List.range xs.length).filterMap (fun i => xs[i]?) = xs := by
  induction xs with
  | nil => rfl
  | cons x xs ih =>
    rw [List.length_cons, List.range_succ_eq_map, List.filterMap_cons, List.filterMap_map]
    simpa using ih

namespace Ring.Holds

variable {ring : Ring w α} {content : List α}

theorem slot_add (h : ring.Holds content) (counter : BitVec w) (i : ℕ) :
    ring.slot (counter + BitVec.ofNat w i) = (counter.toNat + i) % ring.slots.length := by
  obtain ⟨k, hk, hLength, hMask⟩ := h.power
  rw [slot, hMask, and_mask_toNat hk, hLength]

theorem slot_eq (h : ring.Holds content) (counter : BitVec w) :
    ring.slot counter = counter.toNat % ring.slots.length := by
  simpa using h.slot_add counter 0

theorem wr_eq (h : ring.Holds content) : ring.wr = ring.rd + BitVec.ofNat w content.length := by
  have hUsed : ring.used = BitVec.ofNat w content.length := by
    rw [← h.used, BitVec.ofNat_toNat, BitVec.setWidth_eq]
  rw [← hUsed, Ring.used, BitVec.add_comm, BitVec.sub_add_cancel]

theorem size_pos (h : ring.Holds content) : 0 < ring.slots.length := by
  obtain ⟨k, -, hLength, -⟩ := h.power
  rw [hLength]
  exact Nat.two_pow_pos k

theorem size_lt (h : ring.Holds content) : ring.slots.length < 2 ^ w := by
  obtain ⟨k, hk, hLength, -⟩ := h.power
  rw [hLength]
  exact Nat.pow_lt_pow_right (by omega) hk

theorem slot_lt (h : ring.Holds content) (counter : BitVec w) : ring.slot counter < ring.slots.length := by
  rw [h.slot_eq]
  exact Nat.mod_lt _ h.size_pos

theorem slot_wr (h : ring.Holds content) :
    ring.slot ring.wr = (ring.rd.toNat + content.length) % ring.slots.length := by
  rw [h.wr_eq, h.slot_add]

theorem empty_iff (h : ring.Holds content) : ring.empty = true ↔ content = [] := by
  rw [Ring.empty, beq_iff_eq, ← List.length_eq_zero_iff, ← h.used, Ring.used]
  constructor
  · intro hEq
    rw [hEq, BitVec.sub_self]
    rfl
  · intro hZero
    have hSub : ring.wr - ring.rd = 0 := BitVec.eq_of_toNat_eq hZero
    calc
      ring.rd = ring.wr - ring.rd + ring.rd := by simp [hSub]
      _ = ring.wr := BitVec.sub_add_cancel ring.wr ring.rd

theorem full_iff (h : ring.Holds content) : ring.full = true ↔ content.length = ring.slots.length := by
  obtain ⟨k, hk, hLength, hMask⟩ := h.power
  have hBound := h.bound
  rw [Ring.full, decide_eq_true_iff, BitVec.lt_def, h.used, hMask, mask_toNat hk]
  have hPos := Nat.two_pow_pos k
  omega

theorem not_full (h : ring.Holds content) (hFull : ring.full = false) : content.length < ring.slots.length := by
  have hNe : ¬content.length = ring.slots.length := fun hEq => by
    rw [h.full_iff.mpr hEq] at hFull
    cases hFull
  exact lt_of_le_of_ne h.bound hNe

theorem front?_eq {a : α} {rest : List α} (h : ring.Holds (a :: rest)) : ring.front? = some a := by
  have hSlot := h.slots 0 (Nat.succ_pos _)
  rwa [h.slot_add, Nat.add_zero, ← h.slot_eq] at hSlot

theorem contents_eq (h : ring.Holds content) : ring.contents = content := by
  rw [Ring.contents, h.used]
  have hRange : (List.range content.length).filterMap (fun i => ring.slots[ring.slot (ring.rd + BitVec.ofNat w i)]?) =
      (List.range content.length).filterMap (fun i => content[i]?) := by
    refine List.filterMap_congr fun i hi => ?_
    have hLt := List.mem_range.mp hi
    rw [h.slots i hLt, List.getElem?_eq_getElem hLt]
  rw [hRange]
  exact filterMap_getElem?_range content

theorem fill (h : ring.Holds content) (hRoom : content.length < ring.slots.length) (f : α → α) :
    (ring.fill f).Holds content where
  power := by simpa only [Ring.fill, List.length_modify] using h.power
  used := h.used
  bound := by simpa only [Ring.fill, List.length_modify] using h.bound
  slots i hi := by
    have hNe : ring.slot ring.wr ≠ ring.slot (ring.rd + BitVec.ofNat w i) := by
      rw [h.slot_wr, h.slot_add]
      exact (add_mod_ne hi hRoom).symm
    have hSlot : (ring.fill f).slot (ring.rd + BitVec.ofNat w i) = ring.slot (ring.rd + BitVec.ofNat w i) := rfl
    rw [show (ring.fill f).rd = ring.rd from rfl, hSlot]
    simp only [Ring.fill]
    rw [List.getElem?_modify_ne _ _ hNe]
    exact h.slots i hi

theorem bump (h : ring.Holds content) (hRoom : content.length < ring.slots.length) {a : α}
    (ha : ring.slots[ring.slot ring.wr]? = some a) : ring.bump.Holds (content ++ [a]) where
  power := h.power
  used := by
    have hWr : ring.wr + 1 - ring.rd = BitVec.ofNat w (content.length + 1) := by
      rw [h.wr_eq, BitVec.add_assoc, BitVec.add_comm ring.rd, BitVec.add_sub_cancel, BitVec.ofNat_add]
      rfl
    have hLt := h.size_lt
    rw [Ring.used, Ring.bump, hWr, BitVec.toNat_ofNat, Nat.mod_eq_of_lt (by omega), List.length_append]
    rfl
  bound := by
    rw [List.length_append]
    exact hRoom
  slots i hi := by
    have hSlot (counter : BitVec w) : ring.bump.slot counter = ring.slot counter := rfl
    simp only [hSlot, show ring.bump.rd = ring.rd from rfl, show ring.bump.slots = ring.slots from rfl]
    rw [List.length_append, List.length_singleton] at hi
    rcases Nat.lt_succ_iff_lt_or_eq.mp hi with hLt | rfl
    · rw [List.getElem_append_left hLt]
      exact h.slots i hLt
    · rw [← h.wr_eq, ha, List.getElem_concat_length rfl]

theorem drop {a : α} {rest : List α} (h : ring.Holds (a :: rest)) : ring.drop.Holds rest where
  power := h.power
  used := by
    have hRd : ring.wr - (ring.rd + 1) = BitVec.ofNat w rest.length := by
      have hOne : BitVec.ofNat w (rest.length + 1) = 1 + BitVec.ofNat w rest.length := by
        rw [BitVec.ofNat_add, BitVec.add_comm]
        rfl
      rw [h.wr_eq, List.length_cons, hOne, ← BitVec.add_assoc, BitVec.add_comm (ring.rd + 1), BitVec.add_sub_cancel]
    have hLt := h.size_lt
    have hBound := h.bound
    rw [List.length_cons] at hBound
    rw [Ring.used, Ring.drop, hRd, BitVec.toNat_ofNat, Nat.mod_eq_of_lt (by omega)]
  bound := (Nat.le_succ _).trans h.bound
  slots i hi := by
    have hSlot := h.slots (i + 1) (by simpa using hi)
    have hRd : ring.rd + 1 + BitVec.ofNat w i = ring.rd + BitVec.ofNat w (i + 1) := by
      rw [BitVec.add_assoc, BitVec.ofNat_add, BitVec.add_comm 1]
      rfl
    simp only [Ring.drop, Ring.slot] at hSlot ⊢
    rw [hRd, hSlot]
    simp

end Ring.Holds

theorem holds_nil {k : ℕ} (hk : k < w) {slots : List α} (hSlots : slots.length = 2 ^ k) (counter : BitVec w) :
    (⟨slots, counter, counter, BitVec.ofNat w (2 ^ k - 1)⟩ : Ring w α).Holds [] where
  power := ⟨k, hk, hSlots, rfl⟩
  used := by
    rw [Ring.used, BitVec.sub_self]
    rfl
  bound := Nat.zero_le _
  slots i hi := by cases hi

end RingBuffer
