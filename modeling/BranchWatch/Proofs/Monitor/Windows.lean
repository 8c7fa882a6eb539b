import BranchWatch.Monitor.Run

/-!
# What a window comes to

A window that the decoder opens is a list of items.  This module says, without the analysis, which
of them are taken (`drained`), which instructions are judged (`records`), and what follows for the
report (`Opening.reason?`, `Report.closing`), and which decoder is left behind them
(`ItemStream.decoderBehind`).  `drain_drains` says that the analysis comes to the same.
-/

namespace BranchWatch

/-- The item says that there are no more. -/
def Item.isEnd : Item → Bool
  | .error .endOfStream => true
  | _ => false

/-- The instruction, if the item is one. -/
def Item.record? : Item → Option InstructionRecord
  | .ok r => some r
  | .error _ => none

/-- The items that are taken from a window: up to the end, or up to the first instruction behind
`room` others, which is the last one taken. -/
def drained : Nat → List Item → List Item
  | _, [] => []
  | _, .error .endOfStream :: _ => []
  | room, .error e :: items => .error e :: drained room items
  | 0, .ok r :: _ => [.ok r]
  | room + 1, .ok r :: items => .ok r :: drained room items

/-- The instructions of a window, up to its end. -/
def records (items : List Item) : List InstructionRecord :=
  (items.takeWhile fun i => !Item.isEnd i).filterMap Item.record?

/-- The decoder behind the items that are taken, the one that says that there are no more
included. -/
def ItemStream.decoderBehind {δ : Type} : Nat → ItemStream δ → δ
  | _, done left => left
  | _, item (.error .endOfStream) left _ => left
  | room, item (.error _) _ rest => decoderBehind room (rest ())
  | 0, item (.ok _) left _ => left
  | room + 1, item (.ok _) _ rest => decoderBehind room (rest ())

section

variable {e : DecodeError} {r : InstructionRecord} {items : List Item} {room : Nat}

@[simp] theorem records_nil : records [] = [] := rfl

@[simp] theorem records_end : records (.error .endOfStream :: items) = [] := rfl

@[simp] theorem records_ok : records (.ok r :: items) = r :: records items := rfl

theorem records_error (he : e ≠ .endOfStream) : records (.error e :: items) = records items := by
  cases e <;> first | rfl | exact absurd rfl he

theorem drained_error (he : e ≠ .endOfStream) :
    drained room (.error e :: items) = .error e :: drained room items := by
  cases room <;> cases e <;> first | rfl | exact absurd rfl he

/-- The instruction that has no room is taken as well. -/
theorem countP_isOk_drained (room : Nat) (items : List Item) :
    (drained room items).countP (·.isOk) = min (records items).length (room + 1) := by
  fun_induction drained room items with
  | case1 => rfl
  | case2 => rfl
  | case3 room e items he ih =>
      rw [records_error he]
      simpa [Except.isOk, Except.toBool] using ih
  | case4 r items => simp [Except.isOk, Except.toBool]
  | case5 room r items ih =>
      simp [Except.isOk, Except.toBool] at ih ⊢
      omega

end

theorem ItemStream.decoderBehind_error {δ : Type} (he : e ≠ .endOfStream) (left : δ)
    (rest : Unit → ItemStream δ) :
    decoderBehind room (.item (.error e) left rest) = decoderBehind room (rest ()) := by
  cases room <;> cases e <;> first | rfl | exact absurd rfl he

/-- What taking the items of a window comes to, from a buffer and a number of errors. -/
structure Drains {δ : Type} (b : WindowBuffer) (errors : Nat) (stream : ItemStream δ)
    (d : RunStep.Drained δ) : Prop where
  capacity : d.buffer.capacity = b.capacity
  buffer : d.buffer.toList = b.toList ++ (records stream.toList).take (b.capacity - b.size)
  errors : d.errors = errors + (drained (b.capacity - b.size) stream.toList).countP (!·.isOk)
  overflow : d.overflow =
    if b.capacity - b.size < (records stream.toList).length then some ⟨b.capacity⟩ else none
  decoder : d.decoder = stream.decoderBehind (b.capacity - b.size)

section

variable {δ : Type} {b : WindowBuffer} {errors : Nat} {e : DecodeError} {r : InstructionRecord}
  {left : δ} {stream : ItemStream δ} {rest : Unit → ItemStream δ} {d : RunStep.Drained δ}

/-- Nothing is taken. -/
theorem Drains.nothing (notices : List Notice) (h : records stream.toList = [])
    (h' : drained (b.capacity - b.size) stream.toList = [])
    (hleft : stream.decoderBehind (b.capacity - b.size) = left) :
    Drains b errors stream ⟨left, b, none, errors, notices⟩ where
  capacity := rfl
  buffer := by simp [h]
  errors := by simp [h']
  overflow := by simp [h]
  decoder := hleft.symm

theorem Drains.error (he : e ≠ .endOfStream) (h : Drains b (errors + 1) (rest ()) d) :
    Drains b errors (.item (.error e) left rest) d where
  capacity := h.capacity
  buffer := by rw [h.buffer, ItemStream.toList, records_error he]
  errors := by
    rw [h.errors, ItemStream.toList, drained_error he]
    simp [Except.isOk, Except.toBool]
    omega
  overflow := by rw [h.overflow, ItemStream.toList, records_error he]
  decoder := by rw [h.decoder, ItemStream.decoderBehind_error he]

theorem Drains.ok (hroom : b.records.size < b.capacity)
    (h : Drains (b.add r hroom) errors (rest ()) d) :
    Drains b errors (.item (.ok r) left rest) d := by
  -- One place less is left.
  have hleft : b.capacity - b.size = ((b.add r hroom).capacity - (b.add r hroom).size) + 1 := by
    simp [WindowBuffer.add, WindowBuffer.size]
    omega
  have hadd : (b.add r hroom).toList = b.toList ++ [r] := by
    simp [WindowBuffer.add, WindowBuffer.toList]
  refine ⟨h.capacity, ?_, ?_, ?_, ?_⟩
  · rw [h.buffer, hadd, hleft, ItemStream.toList, records_ok, List.take_succ_cons,
      List.append_assoc]
    rfl
  · rw [h.errors, hleft, ItemStream.toList]
    simp [drained, Except.isOk, Except.toBool]
  · rw [h.overflow, hleft, ItemStream.toList, records_ok, List.length_cons]
    simp only [Nat.succ_lt_succ_iff]
    rfl
  · rw [h.decoder, hleft]
    rfl

/-- The instruction does not fit. -/
theorem Drains.full (notices : List Notice) (hroom : ¬ b.records.size < b.capacity) :
    Drains b errors (.item (.ok r) left rest) ⟨left, b, some ⟨b.capacity⟩, errors, notices⟩ := by
  have hleft : b.capacity - b.size = 0 := by
    unfold WindowBuffer.size
    omega
  exact ⟨rfl, by simp [hleft],
    by simp [hleft, ItemStream.toList, drained, Except.isOk, Except.toBool],
    by simp [hleft, ItemStream.toList], by rw [hleft]; rfl⟩

/-- The analysis takes the items as it should. -/
theorem drain_drains (window : Nat) (logged : Bool) (b : WindowBuffer) (errors : Nat)
    (notices : List Notice) (stream : ItemStream δ) :
    Drains b errors stream (RunStep.drain window logged b errors notices stream) := by
  induction stream generalizing b errors notices with
  | done left => exact .nothing notices rfl rfl rfl
  | item i left rest ih =>
      rcases i with e | r
      · by_cases he : e = .endOfStream
        · subst he
          exact .nothing notices rfl (by unfold ItemStream.toList drained; rfl)
            (by unfold ItemStream.decoderBehind; rfl)
        · have hdrain : RunStep.drain window logged b errors notices (.item (.error e) left rest) =
              RunStep.drain window logged b (errors + 1) (.decodeError window e :: notices)
                (rest ()) := by
            cases e <;> first | rfl | exact absurd rfl he
          rw [hdrain]
          exact .error he (ih () _ _ _)
      · unfold RunStep.drain
        simp only
        split
        next hroom => exact .ok hroom (ih () _ _ _)
        next hroom => exact .full _ hroom

/-- The analysis of a whole window, whatever the buffer held before. -/
theorem drain_clear (window : Nat) (logged : Bool) (b : WindowBuffer) (notices : List Notice)
    (stream : ItemStream δ) :
    let d := RunStep.drain window logged b.clear 0 notices stream
    let taken := drained b.capacity stream.toList
    d.buffer.capacity = b.capacity ∧
      d.buffer.size = min (taken.countP (·.isOk)) b.capacity ∧
      d.errors = taken.countP (!·.isOk) ∧
      d.overflow =
        (if b.capacity < (records stream.toList).length then some ⟨b.capacity⟩ else none) ∧
      ((records stream.toList).length ≤ b.capacity → d.buffer.toList = records stream.toList) ∧
      d.decoder = stream.decoderBehind b.capacity := by
  intro d taken
  have h : Drains b.clear 0 stream d := drain_drains window logged b.clear 0 notices stream
  have hroom : b.clear.capacity - b.clear.size = b.capacity := rfl
  have hbuffer : d.buffer.toList = (records stream.toList).take b.capacity := by
    rw [h.buffer, hroom]
    rfl
  have hsize : d.buffer.size = d.buffer.toList.length := Array.length_toList.symm
  refine ⟨h.capacity, ?_, ?_, h.overflow, ?_, h.decoder⟩
  · rw [hsize, hbuffer, countP_isOk_drained, List.length_take]
    omega
  · rw [h.errors, hroom, Nat.zero_add]
  · intro hfits
    rw [hbuffer, List.take_of_length_le hfits]

end

end BranchWatch
