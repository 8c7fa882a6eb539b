import BranchWatch.Proofs.Capture.Switching

/-!
# The windows are the stream

An open collector is used in any order, any request to the event may fail, and between two uses the
processor writes as much as the kernel lets it: only while the event is on, and no further than one
ring behind what was given back.  A `Recording` keeps the stream that was written and the windows
that were found beside the collector.

The windows, one behind the other, are the stream up to the last time that the capture was switched
off, and each of them is what was written since the time before (`Recording.windows_partition`).  The
invariant is `Recording.Sound`: the ring still holds what is in no window yet.
-/

namespace BranchWatch

/-- A use of an open collector, or some work of the processor between two uses. -/
inductive CaptureUse where
  | enable
  | disable
  | produce (bytes : List UInt8)
  deriving DecidableEq, Repr

/-- A collector in use. -/
structure Recording where
  collector : Collector
  /-- Everything that the processor has written. -/
  stream : List UInt8 := []
  /-- What was found each time that the capture was switched off. -/
  windows : List TraceWindow := []
  /-- It was not asked for a start since the last window was found. -/
  shown : Bool := false

namespace Recording

/-- The bytes of all windows. -/
def read (r : Recording) : List UInt8 := r.windows.flatMap (·.bytes)

/-- The window that can be seen: the last one, until a start is asked for, even one that fails. -/
def current (r : Recording) : TraceWindow :=
  if r.shown then r.windows.getLastD .empty else .empty

/-- The collector is on, and a request to stop would be granted. -/
def disables (r : Recording) : Bool :=
  r.collector.enabled && (TraceCapture.disable r.collector).1.isOk

def step (r : Recording) : CaptureUse → Recording
  | .enable => { r with collector := (TraceCapture.enable r.collector).2, shown := false }
  | .disable =>
    let collector := (TraceCapture.disable r.collector).2
    if r.disables then
      { collector
        stream := r.stream ++ r.collector.event.pending
        windows := r.windows ++ [collector.window]
        shown := true }
    else { r with collector }
  | .produce bytes =>
    { r with
      collector := { r.collector with event := r.collector.event.produce bytes }
      stream := r.stream ++ bytes }

theorem step_disable {r : Recording} (h : r.disables = true) : r.step .disable =
    { collector := (TraceCapture.disable r.collector).2
      stream := r.stream ++ r.collector.event.pending
      windows := r.windows ++ [(TraceCapture.disable r.collector).2.window]
      shown := true } := by
  unfold step
  rw [h]
  rfl

theorem step_disable_of_not {r : Recording} (h : r.disables = false) :
    r.step .disable = { r with collector := (TraceCapture.disable r.collector).2 } := by
  unfold step
  rw [h]
  rfl

def run (r : Recording) (uses : List CaptureUse) : Recording := uses.foldl step r

/-- What the kernel promises: the processor writes only while the event is on, and does not overtake
the reader. -/
def Allows (r : Recording) : CaptureUse → Prop
  | .enable => True
  | .disable => r.disables = true → r.collector.event.HasRoom r.collector.event.pending.length
  | .produce bytes => r.collector.event.isOn = true ∧ r.collector.event.HasRoom bytes.length

instance (r : Recording) (u : CaptureUse) : Decidable (r.Allows u) :=
  match u with
  | .enable => inferInstanceAs (Decidable True)
  | .disable => inferInstanceAs (Decidable (_ → _))
  | .produce _ => inferInstanceAs (Decidable (_ ∧ _))

/-- The kernel keeps its promise all the way. -/
def AllowsAll : Recording → List CaptureUse → Prop
  | _, [] => True
  | r, u :: uses => r.Allows u ∧ (r.step u).AllowsAll uses

instance decidableAllowsAll : (r : Recording) → (uses : List CaptureUse) →
    Decidable (r.AllowsAll uses)
  | _, [] => inferInstanceAs (Decidable True)
  | r, u :: uses =>
    haveI := decidableAllowsAll (r.step u) uses
    inferInstanceAs (Decidable (_ ∧ _))

/-- The windows are the stream as far as it was read, and the ring holds the rest. -/
structure Sound (size : Nat) (r : Recording) : Prop where
  descriptor : r.collector.descriptor.isSome = true
  base : r.collector.base.isSome = true
  aux : r.collector.aux = some size
  carries : r.collector.event.Carries size r.stream r.read.length
  enabled : r.collector.enabled = r.collector.event.isOn
  read : r.read = r.stream.take r.read.length
  fits : ∀ w ∈ r.windows, w.bytes.length ≤ size ∧ (w.truncated = true ↔ w.bytes.length = size)
  on : r.collector.enabled = true → r.collector.consumed = UInt64.ofNat r.read.length ∧
    r.collector.event.page.tail = UInt64.ofNat r.read.length ∧ r.shown = false
  off : r.collector.enabled = false → r.read.length = r.stream.length ∧
    r.collector.head = UInt64.ofNat r.stream.length
  span : r.shown = false → r.collector.span = .empty
  current : r.collector.window = r.current

namespace Sound

variable {size : Nat} {r : Recording} {c : Collector}

theorem window_of_span_eq_empty (h : c.span = .empty) : c.window = .empty := by
  unfold Collector.window
  rw [h]
  cases c.aux <;> rfl

theorem start (h : c.Opened size) : Sound size { collector := c } where
  descriptor := h.descriptor
  base := h.base
  aux := h.aux
  carries := PerfEvent.Carries.start h.auxSize h.ring h.written
  enabled := h.enabled.trans h.isOn.symm
  read := rfl
  fits := List.forall_mem_nil _
  on := by
    intro hon
    rw [h.enabled] at hon
    cases hon
  off := fun _ => ⟨rfl, h.head⟩
  span := fun _ => h.span
  current := window_of_span_eq_empty h.span

/-- While the capture is on, no window can be seen. -/
theorem window_of_enabled (h : r.Sound size) (hon : r.collector.enabled = true) :
    r.collector.window = .empty :=
  window_of_span_eq_empty (h.span (h.on hon).2.2)

/-- While the capture is off, everything was read. -/
theorem read_of_off (h : r.Sound size) (hoff : r.collector.enabled = false) : r.read = r.stream := by
  rw [h.read, (h.off hoff).1, List.take_length]

/-- While the capture is on and stays on, only the ring and the stream change. -/
theorem goesOn {event : PerfEvent} {written : List UInt8} (h : r.Sound size)
    (hon : r.collector.enabled = true)
    (hcarries : event.Carries size (r.stream ++ written) r.read.length)
    (hisOn : event.isOn = r.collector.event.isOn)
    (htail : event.page.tail = r.collector.event.page.tail) :
    Sound size { r with
      collector := { r.collector with event := event }
      stream := r.stream ++ written } := by
  obtain ⟨hconsumed, htailed, hshown⟩ := h.on hon
  have hempty := h.span hshown
  have hnothing : r.current = .empty := h.current.symm.trans (h.window_of_enabled hon)
  exact {
    descriptor := h.descriptor
    base := h.base
    aux := h.aux
    carries := hcarries
    enabled := h.enabled.trans hisOn.symm
    read := h.read.trans (List.take_append_of_le_length h.carries.mark_le).symm
    fits := h.fits
    on := fun _ => ⟨hconsumed, htail.trans htailed, hshown⟩
    off := fun hoff => absurd (hon.symm.trans hoff) nofun
    span := fun _ => hempty
    current := by
      refine Eq.trans ?_ hnothing.symm
      exact window_of_span_eq_empty hempty }

theorem produce (h : r.Sound size) (hsize : size ∣ 2 ^ 64) {bytes : List UInt8}
    (hallowed : r.Allows (.produce bytes)) : (r.step (.produce bytes)).Sound size := by
  obtain ⟨hisOn, hroom⟩ := hallowed
  have hon : r.collector.enabled = true := h.enabled.trans hisOn
  refine h.goesOn hon ?_ (PerfEvent.produce_isOn _ _) (PerfEvent.produce_tail _ _)
  exact h.carries.produce hsize (h.carries.room_of_hasRoom (h.on hon).2.1 hroom)

theorem enable (h : r.Sound size) : (r.step .enable).Sound size := by
  cases hon : r.collector.enabled with
  | true =>
      have hstep : r.step .enable = r := by
        unfold step
        rw [Collector.enable_of_enabled h.descriptor hon, ← (h.on hon).2.2]
      rw [hstep]
      exact h
  | false =>
      obtain ⟨hread, hhead⟩ := h.off hon
      obtain ⟨answer, event, henable, hpage, hring, hisOn⟩ := Collector.enable_of_off h.descriptor
        h.base hon (h.enabled.symm.trans hon)
      have hstep : r.step .enable =
          { r with collector := (TraceCapture.enable r.collector).2, shown := false } := rfl
      rw [hstep, henable]
      exact {
        descriptor := h.descriptor
        base := h.base
        aux := h.aux
        carries := h.carries.frame (by rw [hpage]) (by rw [hpage]) hring
        enabled := hisOn.symm
        read := h.read
        fits := h.fits
        on := by
          intro _
          refine ⟨?_, ?_, rfl⟩
          · show r.collector.head = UInt64.ofNat r.read.length
            rw [hread, hhead]
          · show event.page.tail = UInt64.ofNat r.read.length
            rw [hpage, hread, hhead]
        off := fun _ => ⟨hread, hhead⟩
        span := fun _ => rfl
        current := window_of_span_eq_empty rfl }

/-- A stop that is not granted, or not needed, changes nothing that can be seen. -/
theorem disable_of_not (h : r.Sound size) (hsize : size ∣ 2 ^ 64) (hnot : r.disables = false) :
    (r.step .disable).Sound size := by
  rw [step_disable_of_not hnot]
  cases hon : r.collector.enabled with
  | false =>
      rw [Collector.disable_of_off hon]
      exact h
  | true =>
      have hdisable := Collector.disable_of_on h.descriptor hon
      have hcarries := h.carries.control hsize (r := .disable) rfl
      have hisOn := PerfEvent.control_isOn .disable r.collector.event
      have htail := PerfEvent.control_tail .disable r.collector.event
      unfold disables at hnot
      generalize r.collector.event.control .disable = answer at hdisable hcarries hisOn htail
      rcases answer with ⟨_ | errno, event⟩
      · -- The request was granted after all.
        rw [hon, hdisable] at hnot
        cases hnot
      · have hcarried : event.Carries size (r.stream ++ []) r.read.length := by
          simpa using hcarries (by simpa using h.carries.room)
        have hgoesOn := h.goesOn hon hcarried hisOn htail
        rw [List.append_nil] at hgoesOn
        rw [hdisable]
        exact hgoesOn

/-- The event was stopped, and behind it the new window is found. -/
theorem snapshot (h : r.Sound size) (hsize : size ∣ 2 ^ 64) (hpos : 0 < size)
    (hon : r.collector.enabled = true) {event : PerfEvent} {stream : List UInt8}
    (hcarries : event.Carries size stream r.read.length)
    (hold : r.read = stream.take r.read.length) (hisOn : event.isOn = false) :
    let collector := { r.collector with event := event, enabled := false }.snapshot
    let r' : Recording :=
      { collector := collector
        stream := stream
        windows := r.windows ++ [collector.window]
        shown := true }
    r'.Sound size ∧ collector.window.bytes = stream.drop r.read.length ∧ r'.read = stream := by
  obtain ⟨hwindow, hreleased, hhead⟩ := Collector.snapshot_of_carries
    (c := { r.collector with event := event, enabled := false }) h.base h.aux hsize hpos hcarries
    (h.on hon).1
  generalize hnew : { r.collector with event := event, enabled := false }.snapshot = collector
    at hwindow hreleased hhead ⊢
  intro collector' r'
  -- The old windows and the new one are the stream, and nothing is left to be read.
  have hread : r'.read = stream := by
    show (r.windows ++ [collector.window]).flatMap (·.bytes) = stream
    rw [List.flatMap_append, List.flatMap_singleton, hwindow]
    exact (congrArg (· ++ stream.drop r.read.length) hold).trans (List.take_append_drop _ _)
  refine ⟨?_, congrArg TraceWindow.bytes hwindow, hread⟩
  exact {
    descriptor := by simpa [r', collector', ← hnew] using h.descriptor
    base := by simpa [r', collector', ← hnew] using h.base
    aux := by simpa [r', collector', ← hnew] using h.aux
    carries := by
      rw [hread]
      exact hreleased
    enabled := by simpa [r', collector', ← hnew] using hisOn.symm
    read := by
      rw [hread]
      exact (List.take_length).symm
    fits := by
      intro w hw
      rcases List.mem_append.1 hw with hw | hw
      · exact h.fits w hw
      · obtain rfl := List.mem_singleton.1 hw
        have hroom := hcarries.room
        rw [hwindow, decide_eq_true_iff, List.length_drop]
        exact ⟨by omega, Iff.rfl⟩
    on := by simp [r', collector', ← hnew]
    off := by
      intro _
      rw [hread]
      exact ⟨rfl, hhead⟩
    span := nofun
    current := by
      unfold Recording.current
      rw [List.getLastD_concat]
      rfl }

/-- A stop that is granted finds what was written since the last one. -/
theorem disable (h : r.Sound size) (hsize : size ∣ 2 ^ 64) (hpos : 0 < size)
    (hallowed : r.Allows .disable) (hdisables : r.disables = true) :
    (r.step .disable).Sound size ∧
      (r.step .disable).collector.window.bytes = (r.step .disable).stream.drop r.read.length ∧
      (r.step .disable).read = (r.step .disable).stream := by
  have hon : r.collector.enabled = true := (Bool.and_eq_true_iff.1 hdisables).1
  have hok : (TraceCapture.disable r.collector).1.isOk = true := (Bool.and_eq_true_iff.1 hdisables).2
  have hroom := h.carries.room_of_hasRoom (h.on hon).2.1 (hallowed hdisables)
  have hdisable := Collector.disable_of_on h.descriptor hon
  have hcarries := h.carries.control hsize (r := .disable) rfl
  have hisOn := PerfEvent.control_isOn .disable r.collector.event
  generalize r.collector.event.control .disable = answer at hdisable hcarries hisOn
  rcases answer with ⟨_ | errno, event⟩
  · -- Before it stops, the processor writes its last bytes.
    have hcarried : event.Carries size (r.stream ++ r.collector.event.pending) r.read.length := by
      simpa using hcarries (by simpa using hroom)
    have hold : r.read = (r.stream ++ r.collector.event.pending).take r.read.length := by
      rw [List.take_append_of_le_length h.carries.mark_le]
      exact h.read
    rw [step_disable hdisables, hdisable]
    exact h.snapshot hsize hpos hon hcarried hold hisOn
  · rw [hdisable] at hok
    cases hok

/-- Whatever is done, and whatever of it fails, the windows stay the stream as far as it was read. -/
theorem step (h : r.Sound size) (hsize : size ∣ 2 ^ 64) (hpos : 0 < size) {u : CaptureUse}
    (hallowed : r.Allows u) : (r.step u).Sound size := by
  cases u with
  | enable => exact h.enable
  | produce bytes => exact h.produce hsize hallowed
  | disable =>
      cases hdisables : r.disables with
      | true => exact (h.disable hsize hpos hallowed hdisables).1
      | false => exact h.disable_of_not hsize hdisables

theorem run (h : r.Sound size) (hsize : size ∣ 2 ^ 64) (hpos : 0 < size) {uses : List CaptureUse}
    (hallowed : r.AllowsAll uses) : (r.run uses).Sound size := by
  induction uses generalizing r with
  | nil => exact h
  | cons u uses ih => exact ih (h.step hsize hpos hallowed.1) hallowed.2

end Sound

/-- The ring of an open collector divides the range of its counters. -/
theorem dvd_of_opened {size : Nat} {c : Collector} (hopen : c.Opened size)
    (hsize : ∃ k, size = 2 ^ k) : size ∣ 2 ^ 64 := by
  obtain ⟨k, rfl⟩ := hsize
  have hlt : 2 ^ k < 2 ^ 64 := by
    rw [← hopen.auxSize]
    exact UInt64.toNat_lt _
  exact Nat.pow_dvd_pow 2 (Nat.pow_lt_pow_iff_right (by decide) |>.1 hlt).le

/-- **The windows partition the stream.**  However an open collector is used, and whichever requests
fail: what was read is the stream without what was written last, and all of it while the capture is
off; each successful stop finds just the bytes written since the one before, in order; a window has
at most the size of the ring and is marked if and only if it has just this size; and no window can be
seen while the capture is on, before the first one was found, or once a start was asked for. -/
theorem windows_partition {size : Nat} {c : Collector} {uses : List CaptureUse}
    (hopen : c.Opened size) (hsize : ∃ k, size = 2 ^ k)
    (hallowed : AllowsAll { collector := c } uses) :
    let r := run { collector := c } uses
    r.collector.event.page.head = UInt64.ofNat r.stream.length ∧
      r.read = r.stream.take r.read.length ∧
      (r.collector.enabled = false → r.read = r.stream) ∧
      (r.disables = true → r.Allows .disable →
        (r.step .disable).windows = r.windows ++ [(r.step .disable).collector.window] ∧
          (r.step .disable).collector.window.bytes =
            (r.step .disable).stream.drop r.read.length ∧
          (r.step .disable).read = (r.step .disable).stream) ∧
      (∀ w ∈ r.windows, w.bytes.length ≤ size ∧ (w.truncated = true ↔ w.bytes.length = size)) ∧
      r.collector.window = r.current ∧
      (r.collector.enabled = true ∨ r.windows = [] → r.collector.window = .empty) ∧
      (r.step .enable).collector.window = .empty := by
  intro r
  have hdvd := dvd_of_opened hopen hsize
  have hpos : 0 < size := Nat.pos_of_dvd_of_pos hdvd (by decide)
  have hr : r.Sound size := (Sound.start hopen).run hdvd hpos hallowed
  refine ⟨hr.carries.head, hr.read, hr.read_of_off, ?_, hr.fits, hr.current, ?_, ?_⟩
  · intro hdisables hroom
    obtain ⟨-, hbytes, hread⟩ := hr.disable hdvd hpos hroom hdisables
    refine ⟨?_, hbytes, hread⟩
    rw [step_disable hdisables]
  · rintro (hon | hnone)
    · exact hr.window_of_enabled hon
    · rw [hr.current, current, hnone]
      exact ite_self _
  · rw [hr.enable.current]
    rfl

/-- A ring of four bytes: three bytes, then as many around its end, where a first stop fails, and then
four more, which fill it. -/
theorem windows_partition_four :
    let c : Collector :=
      { event :=
          { typeFile := none
            controlFailures := fun r => if r = .disable then [none, some ⟨5⟩] else []
            page := { auxSize := 4 }
            ring := #[0, 0, 0, 0] }
        descriptor := some 3
        base := some 4096
        aux := some 4 }
    let uses : List CaptureUse :=
      [.enable, .produce [1, 2, 3], .disable, .enable, .produce [4, 5], .disable, .produce [6],
        .disable, .enable, .produce [7, 8, 9, 10], .disable]
    c.Opened 4 ∧ (∃ k, 4 = 2 ^ k) ∧ AllowsAll { collector := c } uses ∧
      (run { collector := c } uses).windows =
        [⟨[1, 2, 3], false⟩, ⟨[4, 5, 6], false⟩, ⟨[7, 8, 9, 10], true⟩] ∧
      (run { collector := c } uses).read = (run { collector := c } uses).stream := by
  intro c uses
  have hopen : c.Opened 4 := ⟨rfl, rfl, rfl, rfl, rfl, rfl, rfl, rfl, rfl, rfl⟩
  have hsize : ∃ k, 4 = 2 ^ k := ⟨2, rfl⟩
  have hallowed : AllowsAll { collector := c } uses := by decide +kernel
  have hoff : (run { collector := c } uses).collector.enabled = false := by decide +kernel
  obtain ⟨-, -, hread, -⟩ := windows_partition hopen hsize hallowed
  exact ⟨hopen, hsize, hallowed, by decide +kernel, hread hoff⟩

end Recording

end BranchWatch
