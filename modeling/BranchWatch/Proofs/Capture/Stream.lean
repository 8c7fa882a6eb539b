import BranchWatch.Capture.Event
import BranchWatch.Proofs.Capture.Span
import Mathlib.Data.Nat.ModEq

/-!
# The stream that the processor writes

All bytes that the processor ever wrote are one stream.  The byte with number `n` stands in the ring
at `n` modulo its size, until another one is written there.  `PerfEvent.Carries` says that the ring
still holds the stream from a mark on: this is so as long as the processor does not come further than
one ring behind the mark, and then what `Span.locate` finds between the mark and the head is the rest
of the stream (`Carries.bytes_locate`).

The counters are numbers of 64 bits and run freely.  A place in the ring does not notice when they
start again, because the size of the ring divides `2 ^ 64`.
-/

namespace BranchWatch

/-- The last request to start or stop that was granted was one to start. -/
def EventCall.switchedOn : List EventCall → Bool
  | [] => false
  | .control .enable none :: _ => true
  | .control .disable none :: _ => false
  | _ :: calls => switchedOn calls

namespace PerfEvent

/-- The event is switched on. -/
def isOn (e : PerfEvent) : Bool := EventCall.switchedOn e.calls

/-- What the processor writes before the next successful request to stop is granted. -/
def pending (e : PerfEvent) : List UInt8 := e.traces.headD []

/-- The kernel lets the processor write so many bytes: it does not overtake the reader. -/
def HasRoom (e : PerfEvent) (length : Nat) : Prop :=
  (e.page.head - e.page.tail).toNat + length ≤ e.page.auxSize.toNat

instance (e : PerfEvent) (length : Nat) : Decidable (e.HasRoom length) :=
  inferInstanceAs (Decidable (_ ≤ _))

/-- The stream was written, and the ring holds it from the mark on. -/
structure Carries (e : PerfEvent) (size : Nat) (stream : List UInt8) (mark : Nat) : Prop where
  auxSize : e.page.auxSize.toNat = size
  ring : e.ring.size = size
  head : e.page.head = UInt64.ofNat stream.length
  mark_le : mark ≤ stream.length
  room : stream.length ≤ mark + size
  holds : ∀ i, mark ≤ i → i < stream.length → e.ring[i % size]? = stream[i]?

/-! ## Writing -/

@[simp] theorem produce_nil (e : PerfEvent) : e.produce [] = e := rfl

@[simp] theorem produce_cons (e : PerfEvent) (byte : UInt8) (bytes : List UInt8) :
    e.produce (byte :: bytes) = (e.writeByte byte).produce bytes := rfl

/-- Writing touches the ring and the head only. -/
theorem produce_frame (e : PerfEvent) (bytes : List UInt8) :
    (e.produce bytes).page.tail = e.page.tail ∧ (e.produce bytes).calls = e.calls := by
  induction bytes generalizing e with
  | nil => exact ⟨rfl, rfl⟩
  | cons byte bytes ih => exact ih (e.writeByte byte)

@[simp] theorem produce_tail (e : PerfEvent) (bytes : List UInt8) :
    (e.produce bytes).page.tail = e.page.tail := (e.produce_frame bytes).1

@[simp] theorem produce_isOn (e : PerfEvent) (bytes : List UInt8) :
    (e.produce bytes).isOn = e.isOn := congrArg EventCall.switchedOn (e.produce_frame bytes).2

/-- Less than one ring apart, no two bytes stand at the same place. -/
theorem mod_ne_mod {i n size : Nat} (hi : i < n) (hn : n < i + size) : i % size ≠ n % size := by
  intro h
  have hdvd : size ∣ n - i := (Nat.modEq_iff_dvd' hi.le).1 h
  have := Nat.le_of_dvd (by omega) hdvd
  omega

/-- The place of a byte does not notice when the counter starts again. -/
theorem toNat_ofNat_mod {size : Nat} (hsize : size ∣ 2 ^ 64) (n : Nat) :
    (UInt64.ofNat n).toNat % size = n % size := by
  rw [UInt64.toNat_ofNat']
  exact Nat.mod_mod_of_dvd n hsize

/-- Two counters are as far apart as what they count. -/
theorem toNat_sub_ofNat {m n : Nat} (h : m ≤ n) (hnear : n - m < 2 ^ 64) :
    (UInt64.ofNat n - UInt64.ofNat m).toNat = n - m := by
  obtain ⟨d, rfl⟩ := Nat.exists_eq_add_of_le h
  rw [UInt64.ofNat_add, UInt64.add_comm, UInt64.add_sub_cancel, UInt64.toNat_ofNat',
    Nat.add_sub_cancel_left]
  exact Nat.mod_eq_of_lt (by omega)

namespace Carries

variable {e e' : PerfEvent} {size mark : Nat} {stream : List UInt8}

/-- Before the first byte. -/
theorem start (hsize : e.page.auxSize.toNat = size) (hring : e.ring.size = size)
    (hhead : e.page.head = 0) : Carries e size [] 0 :=
  ⟨hsize, hring, hhead, Nat.le_refl _, Nat.zero_le _, fun _ _ hi => absurd hi (Nat.not_lt_zero _)⟩

/-- Only the ring, its size and the head count. -/
theorem frame (h : Carries e size stream mark) (hsize : e'.page.auxSize = e.page.auxSize)
    (hhead : e'.page.head = e.page.head) (hring : e'.ring = e.ring) :
    Carries e' size stream mark where
  auxSize := by rw [hsize, h.auxSize]
  ring := by rw [hring, h.ring]
  head := by rw [hhead, h.head]
  mark_le := h.mark_le
  room := h.room
  holds := by
    rw [hring]
    exact h.holds

/-- What was read need not be held any more. -/
theorem release (h : Carries e size stream mark) : Carries e size stream stream.length :=
  ⟨h.auxSize, h.ring, h.head, Nat.le_refl _, Nat.le_add_right _ _, fun _ hi hlt =>
    absurd hlt (Nat.not_lt.2 hi)⟩

theorem size_pos (h : Carries e size stream mark) (hroom : stream.length < mark + size) :
    0 < size := by
  have := h.mark_le
  omega

theorem writeByte (h : Carries e size stream mark) (hsize : size ∣ 2 ^ 64)
    (hroom : stream.length < mark + size) (byte : UInt8) :
    Carries (e.writeByte byte) size (stream ++ [byte]) mark := by
  have hplace : e.page.head.toNat % e.page.auxSize.toNat = stream.length % size := by
    rw [h.head, h.auxSize, toNat_ofNat_mod hsize]
  refine ⟨h.auxSize, ?_, ?_, ?_, ?_, ?_⟩
  · simp [PerfEvent.writeByte, h.ring]
  · simp [PerfEvent.writeByte, h.head]
  · rw [List.length_append]
    exact Nat.le_add_right_of_le h.mark_le
  · rw [List.length_append]
    exact hroom
  · intro i hi hlt
    rw [List.length_append, List.length_singleton] at hlt
    show (e.ring.setIfInBounds (e.page.head.toNat % e.page.auxSize.toNat) byte)[i % size]? = _
    rw [hplace, Array.getElem?_setIfInBounds]
    rcases Nat.lt_succ_iff_lt_or_eq.1 hlt with hold | rfl
    · -- The new byte does not stand at the place of one that is still held.
      rw [if_neg (mod_ne_mod hold (by omega)).symm, h.holds i hi hold, List.getElem?_append_left hold]
    · rw [if_pos rfl, if_pos (by rw [h.ring]; exact Nat.mod_lt _ (h.size_pos hroom)),
        List.getElem?_append_right (Nat.le_refl _), Nat.sub_self]
      rfl

theorem produce (h : Carries e size stream mark) (hsize : size ∣ 2 ^ 64) {bytes : List UInt8}
    (hroom : stream.length + bytes.length ≤ mark + size) :
    Carries (e.produce bytes) size (stream ++ bytes) mark := by
  induction bytes generalizing e stream with
  | nil => simpa using h
  | cons byte bytes ih =>
      rw [List.length_cons] at hroom
      have hbyte := h.writeByte hsize (by omega) byte
      have hrest := ih hbyte (by rw [List.length_append, List.length_singleton]; omega)
      rwa [List.append_assoc, List.singleton_append] at hrest

/-- The head is as far in front of the mark as bytes are to be read. -/
theorem toNat_head_sub (h : Carries e size stream mark) :
    (e.page.head - UInt64.ofNat mark).toNat = stream.length - mark := by
  -- They fit into one ring, whose size is a counter itself.
  have hnear : stream.length - mark < 2 ^ 64 := by
    have hlt := e.page.auxSize.toNat_lt
    have hle := h.room
    rw [h.auxSize] at hlt
    omega
  rw [h.head]
  exact toNat_sub_ofNat h.mark_le hnear

/-- What the kernel lets the processor write keeps the bytes from the mark on. -/
theorem room_of_hasRoom (h : Carries e size stream mark) (htail : e.page.tail = UInt64.ofNat mark)
    {length : Nat} (hroom : e.HasRoom length) : stream.length + length ≤ mark + size := by
  unfold HasRoom at hroom
  rw [htail, h.auxSize, h.toNat_head_sub] at hroom
  have hle := h.mark_le
  omega

/-! ## Reading -/

/-- **Between the mark and the head stands the rest of the stream.** -/
theorem bytes_locate (h : Carries e size stream mark) (hsize : size ∣ 2 ^ 64) (hpos : 0 < size) :
    (Span.locate (UInt64.ofNat mark) e.page.head size).1.bytes e.ring = stream.drop mark ∧
      (Span.locate (UInt64.ofNat mark) e.page.head size).2 =
        decide ((stream.drop mark).length = size) := by
  have hlocated : Span.located (UInt64.ofNat mark) e.page.head size = (stream.drop mark).length := by
    have hle := h.room
    unfold Span.located
    rw [h.toNat_head_sub, List.length_drop]
    omega
  refine ⟨List.ext_getElem? fun i => ?_, ?_⟩
  · rw [Span.getElem?_bytes_locate h.ring, hlocated, List.length_drop, List.getElem?_drop]
    split
    next hi =>
      have hplace : ((UInt64.ofNat mark).toNat + i) % size = (mark + i) % size := by
        rw [← Nat.mod_add_mod, toNat_ofNat_mod hsize, Nat.mod_add_mod]
      rw [hplace]
      exact h.holds (mark + i) (Nat.le_add_right _ _) (by omega)
    next hi => exact (List.getElem?_eq_none (by omega)).symm
  · rw [Span.locate_full hpos, hlocated]

end Carries

/-! ## Requests -/

/-- A request is written down; one to stop that is granted lets the processor finish. -/
theorem control_eq (r : Control) (e : PerfEvent) :
    ∃ controlFailures traces, (e.control r).2 =
      ({ e with controlFailures, traces }.produce
        (if r = Control.disable ∧ (e.control r).1 = none then e.pending else [])).log
          (.control r (e.control r).1) := by
  unfold control pending
  cases e.controlFailures r with
  | nil =>
      cases r <;> cases htraces : e.traces <;>
        exact ⟨_, _, rfl⟩
  | cons failure later =>
      cases r <;> cases failure <;> cases htraces : e.traces <;>
        exact ⟨_, _, rfl⟩

/-- Other requests than one to stop touch neither the control page nor the ring. -/
theorem control_idle {r : Control} (hr : r ≠ .disable) (e : PerfEvent) :
    (e.control r).2.page = e.page ∧ (e.control r).2.ring = e.ring := by
  obtain ⟨controlFailures, traces, h⟩ := control_eq r e
  rw [h, if_neg fun hdisable => hr hdisable.1]
  exact ⟨rfl, rfl⟩

@[simp] theorem control_tail (r : Control) (e : PerfEvent) :
    (e.control r).2.page.tail = e.page.tail := by
  obtain ⟨controlFailures, traces, h⟩ := control_eq r e
  rw [h]
  exact produce_tail _ _

/-- Only a request that is granted switches the event. -/
theorem control_isOn (r : Control) (e : PerfEvent) :
    (e.control r).2.isOn = match r, (e.control r).1 with
      | .enable, none => true
      | .disable, none => false
      | _, _ => e.isOn := by
  obtain ⟨controlFailures, traces, h⟩ := control_eq r e
  generalize (e.control r).1 = answer at h ⊢
  rw [h]
  cases r <;> cases answer <;> rfl

theorem Carries.control {e : PerfEvent} {size mark : Nat} {stream : List UInt8}
    (h : e.Carries size stream mark) (hsize : size ∣ 2 ^ 64) {r : Control} {written : List UInt8}
    (hwritten : written = if r = .disable ∧ (e.control r).1 = none then e.pending else [])
    (hroom : stream.length + written.length ≤ mark + size) :
    (e.control r).2.Carries size (stream ++ written) mark := by
  obtain ⟨controlFailures, traces, heq⟩ := control_eq r e
  have hidle : { e with controlFailures, traces }.Carries size stream mark := h.frame rfl rfl rfl
  rw [heq, ← hwritten]
  exact (hidle.produce hsize hroom).frame rfl rfl rfl

end PerfEvent

end BranchWatch
