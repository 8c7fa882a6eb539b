import BranchWatch.Proofs.Capture.Opening

/-!
# Switching an open collector

One equation for each thing that can be asked of an open collector, with all the ways in which the
requests to the event can fail.  Switching on gives back what was handed out before the first request
is made, so it is given back also if a request fails.  Switching off finds the new window only if the
request is granted.
-/

namespace BranchWatch

namespace Collector

variable {c : Collector}

/-- A request that is not granted ends a step. -/
theorem request_bind {β : Type} (r : Control) (f : PUnit → EStateM CollectorError Collector β)
    (c : Collector) : (request r >>= f) c = match (c.event.control r).1 with
      | some errno => .error (.errno errno) { c with event := (c.event.control r).2 }
      | none => f ⟨⟩ { c with event := (c.event.control r).2 } := by
  have hrequest : request r c = match (c.event.control r).1 with
      | some errno => .error (.errno errno) { c with event := (c.event.control r).2 }
      | none => .ok () { c with event := (c.event.control r).2 } := by
    rw [request, use_bind]
    cases (c.event.control r).1 <;> rfl
  simp only [bind, EStateM.bind, hrequest]
  cases (c.event.control r).1 <;> rfl

theorem release_eq (hbase : c.base.isSome = true) : c.release =
    { c with event := c.event.writeTail c.head, consumed := c.head, span := .empty,
             truncated := false } := by
  unfold release
  rw [hbase]
  rfl

/-- A collector that is on is left as it is. -/
theorem enable_of_enabled (hdescriptor : c.descriptor.isSome = true) (hon : c.enabled = true) :
    TraceCapture.enable c = (.ok (), c) := by
  obtain ⟨fd, hfd⟩ := Option.isSome_iff_exists.1 hdescriptor
  show outcome switchOn c = _
  unfold outcome switchOn
  rw [get_bind, hfd, hon]
  rfl

/-- A closed collector is not switched on. -/
theorem enable_of_closed (hclosed : c.descriptor = none) :
    TraceCapture.enable c = (.error .closed, c) := by
  show outcome switchOn c = _
  unfold outcome switchOn
  rw [get_bind, hclosed]
  rfl

/-- Switching on drops the last window first. -/
theorem enable_eq (hdescriptor : c.descriptor.isSome = true) (hoff : c.enabled = false) :
    TraceCapture.enable c = outcome (do
      request .reset
      request .enable
      modify fun c => { c with enabled := true }) c.release := by
  obtain ⟨fd, hfd⟩ := Option.isSome_iff_exists.1 hdescriptor
  show outcome switchOn c = _
  unfold outcome switchOn
  rw [get_bind, hfd, hoff]
  rfl

/-- Switching on: the last window is dropped, whether the event can be started or not. -/
theorem enable_of_off (hdescriptor : c.descriptor.isSome = true) (hbase : c.base.isSome = true)
    (hoff : c.enabled = false) (hisOn : c.event.isOn = false) :
    ∃ answer event, TraceCapture.enable c = (answer,
        { c with event := event, enabled := answer.isOk, consumed := c.head, span := .empty,
                 truncated := false }) ∧
      event.page = { c.event.page with tail := c.head } ∧ event.ring = c.event.ring ∧
      event.isOn = answer.isOk := by
  rw [enable_eq hdescriptor hoff, release_eq hbase]
  unfold outcome
  rw [request_bind]
  simp only
  -- What the first request leaves, and then what the second one does.
  have hreset := PerfEvent.control_idle (r := .reset) nofun (c.event.writeTail c.head)
  have hresetOn : ((c.event.writeTail c.head).control .reset).2.isOn = false :=
    (PerfEvent.control_isOn _ _).trans hisOn
  generalize (c.event.writeTail c.head).control .reset = reset at hreset hresetOn ⊢
  rcases reset with ⟨resetAnswer, event⟩
  cases resetAnswer with
  | some errno =>
      refine ⟨.error (.errno errno), event, ?_, hreset.1, hreset.2, hresetOn⟩
      simp only [hoff]
      rfl
  | none =>
      simp only
      rw [request_bind]
      simp only
      have henable := PerfEvent.control_idle (r := .enable) nofun event
      have henableOn := PerfEvent.control_isOn .enable event
      generalize event.control .enable = enable at henable henableOn ⊢
      rcases enable with ⟨enableAnswer, event'⟩
      have hpage := henable.1.trans hreset.1
      have hring := henable.2.trans hreset.2
      cases enableAnswer with
      | some errno =>
          refine ⟨.error (.errno errno), event', ?_, hpage, hring, henableOn.trans hresetOn⟩
          simp only [hoff]
          rfl
      | none => exact ⟨.ok (), event', rfl, hpage, hring, henableOn⟩

/-- A collector that is off is left as it is. -/
theorem disable_of_off (hoff : c.enabled = false) : TraceCapture.disable c = (.ok (), c) := by
  show outcome switchOff c = _
  unfold outcome switchOff
  rw [get_bind, hoff]
  simp
  rfl

/-- A closed collector is left as it is. -/
theorem disable_of_closed (hclosed : c.descriptor = none) :
    TraceCapture.disable c = (.ok (), c) := by
  show outcome switchOff c = _
  unfold outcome switchOff
  rw [get_bind, hclosed]
  rfl

/-- Switching off asks first, and then finds the new window. -/
theorem disable_eq (hdescriptor : c.descriptor.isSome = true) (hon : c.enabled = true) :
    TraceCapture.disable c = outcome (do
      request .disable
      modify fun c => { c with enabled := false }
      modify snapshot) c := by
  obtain ⟨fd, hfd⟩ := Option.isSome_iff_exists.1 hdescriptor
  show outcome switchOff c = _
  unfold outcome switchOff
  rw [get_bind, hfd, hon]
  rfl

/-- Switching off: the new window is found if the event can be stopped. -/
theorem disable_of_on (hdescriptor : c.descriptor.isSome = true) (hon : c.enabled = true) :
    TraceCapture.disable c = match (c.event.control .disable).1 with
      | some errno => (.error (.errno errno), { c with event := (c.event.control .disable).2 })
      | none =>
        (.ok (), { c with event := (c.event.control .disable).2, enabled := false }.snapshot) := by
  rw [disable_eq hdescriptor hon]
  unfold outcome
  rw [request_bind]
  cases (c.event.control .disable).1 <;> rfl

/-! ## Finding the new window -/

@[simp] theorem snapshot_descriptor (c : Collector) : c.snapshot.descriptor = c.descriptor := by
  unfold snapshot
  split <;> rfl

@[simp] theorem snapshot_base (c : Collector) : c.snapshot.base = c.base := by
  unfold snapshot
  split <;> rfl

@[simp] theorem snapshot_aux (c : Collector) : c.snapshot.aux = c.aux := by
  unfold snapshot
  split <;> rfl

@[simp] theorem snapshot_enabled (c : Collector) : c.snapshot.enabled = c.enabled := by
  unfold snapshot
  split <;> rfl

@[simp] theorem snapshot_isOn (c : Collector) : c.snapshot.event.isOn = c.event.isOn := by
  unfold snapshot
  split <;> rfl

/-- The new window is what stands between what was handed out and the head. -/
theorem snapshot_eq {size : Nat} (hbase : c.base.isSome = true) (haux : c.aux = some size) :
    ∃ copied, c.snapshot =
        { c with
          event := c.event.log .readHead
          head := c.event.page.head
          span := (Span.locate c.consumed c.event.page.head size).1
          truncated := (Span.locate c.consumed c.event.page.head size).2
          copied := copied } ∧
      c.snapshot.window =
        ⟨(Span.locate c.consumed c.event.page.head size).1.bytes c.event.ring,
          (Span.locate c.consumed c.event.page.head size).2⟩ := by
  obtain ⟨base, hbase⟩ := Option.isSome_iff_exists.1 hbase
  have hempty : (Span.locate c.consumed c.event.page.head size).1 = .empty →
      (Span.locate c.consumed c.event.page.head size).2 = false := by
    intro h
    rcases Nat.eq_zero_or_pos (Span.located c.consumed c.event.page.head size) with hnone | hsome
    · rw [Span.locate_of_located_eq_zero hnone]
    · rw [Span.locate_of_located_pos hsome] at h
      simp only at h
      split at h <;> cases h
  unfold snapshot
  rw [hbase, haux]
  simp only [PerfEvent.readHead]
  generalize Span.locate c.consumed c.event.page.head size = found at hempty ⊢
  rcases found with ⟨span, full⟩
  refine ⟨_, rfl, ?_⟩
  cases span with
  | empty =>
      simp only at hempty ⊢
      rw [hempty trivial]
      rfl
  | direct start length => rfl
  | wrapped start first length => rfl

/-- If the ring carries a stream from what was handed out on, the new window is the rest of it. -/
theorem snapshot_of_carries {size mark : Nat} {stream : List UInt8} (hbase : c.base.isSome = true)
    (haux : c.aux = some size) (hsize : size ∣ 2 ^ 64) (hpos : 0 < size)
    (hcarries : c.event.Carries size stream mark) (hconsumed : c.consumed = UInt64.ofNat mark) :
    c.snapshot.window = ⟨stream.drop mark, decide ((stream.drop mark).length = size)⟩ ∧
      c.snapshot.event.Carries size stream stream.length ∧
      c.snapshot.head = UInt64.ofNat stream.length := by
  obtain ⟨copied, heq, hwindow⟩ := snapshot_eq hbase haux
  obtain ⟨hbytes, hfull⟩ := hcarries.bytes_locate hsize hpos
  refine ⟨?_, ?_, ?_⟩
  · rw [hwindow, hconsumed, hbytes, hfull]
  · rw [heq]
    exact hcarries.release.frame rfl rfl rfl
  · rw [heq]
    exact hcarries.head

end Collector

end BranchWatch
