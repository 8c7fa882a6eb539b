import BranchWatch.Proofs.Capture.Switching

/-!
# Giving back what was acquired

The calls that an event has seen say which resources were acquired and which were given back, whether
the kernel took them or not.  A call fits behind earlier ones if all it needs is still held: the
control page is touched only while it is mapped, a request is made only to an open descriptor, and
only what is held is given back.

While a collector is opened nothing is given back (`Gathering`).  From then on what it holds is what
was acquired and not given back yet (`Custody`), and every use keeps it so, whichever requests fail.
Closing empties it, so at the end everything was given back once (`released_once`).
-/

namespace BranchWatch

/-- The resource that a call acquired. -/
def EventCall.acquired? : EventCall → Option Resource
  | opened none => some .descriptor
  | mapped region _ _ none => some (.mapping region)
  | _ => none

/-- The resource that a call gave back, whether the kernel took it or not. -/
def EventCall.released? : EventCall → Option Resource
  | unmapped region _ => some (.mapping region)
  | closed _ => some .descriptor
  | _ => none

/-- The resource that the kernel did not take, and why. -/
def EventCall.unreleased? : EventCall → Option (Resource × Errno)
  | unmapped region failure => failure.map (.mapping region, ·)
  | closed failure => failure.map (.descriptor, ·)
  | _ => none

/-- The calls acquired a resource and did not give it back. -/
def Held (calls : List EventCall) (r : Resource) : Prop :=
  r ∈ calls.filterMap EventCall.acquired? ∧ r ∉ calls.filterMap EventCall.released?

/-- A call does what can be done behind the earlier ones. -/
def EventCall.Fits (earlier : List EventCall) : EventCall → Prop
  | opened _ => earlier.filterMap acquired? = []
  | mapped region length offset _ =>
    Held earlier .descriptor ∧ .mapping region ∉ earlier.filterMap acquired? ∧
      (region = .aux →
        Held earlier (.mapping .base) ∧ placedRing offset length.toUInt64 ∈ earlier)
  | readPlace | placedRing .. | readHead | wroteTail => Held earlier (.mapping .base)
  | control .. => Held earlier .descriptor
  | unmapped region _ => Held earlier (.mapping region)
  | closed _ => Held earlier .descriptor

/-- Every call fits behind those before it; the latest comes first. -/
def Orderly : List EventCall → Prop
  | [] => True
  | call :: earlier => call.Fits earlier ∧ Orderly earlier

theorem Orderly.fits {later earlier : List EventCall} {call : EventCall}
    (h : Orderly (later ++ call :: earlier)) : call.Fits earlier := by
  induction later with
  | nil => exact h.1
  | cons _ later ih => exact ih h.2

/-- The order in which everything is given back. -/
def releaseOrder : List Resource := [.mapping .aux, .mapping .base, .descriptor]

/-! ## While resources are acquired -/

/-- Orderly calls that acquired exactly what is held; the latest comes first. -/
structure Gathering (calls : List EventCall) (held : List Resource) : Prop where
  orderly : Orderly calls
  acquired : calls.filterMap EventCall.acquired? = held
  released : calls.filterMap EventCall.released? = []

namespace Gathering

variable {calls : List EventCall} {held : List Resource} {r : Resource}

theorem nil : Gathering [] [] := ⟨trivial, rfl, rfl⟩

theorem holds (h : Gathering calls held) (hr : r ∈ held) : Held calls r := by
  rw [Held, h.acquired, h.released]
  exact ⟨hr, List.not_mem_nil⟩

/-- A call that gives nothing back adds what it acquired. -/
theorem cons (call : EventCall) (h : Gathering calls held) (hfits : call.Fits calls)
    (hreleased : call.released? = none) :
    Gathering (call :: calls) (call.acquired?.toList ++ held) where
  orderly := ⟨hfits, h.orderly⟩
  acquired := by
    rw [List.filterMap_cons, h.acquired]
    cases call.acquired? <;> rfl
  released := by rw [List.filterMap_cons_none hreleased, h.released]

end Gathering

/-! ## What is held -/

/-- Orderly calls behind which exactly this is still held; the latest call comes first. -/
structure Custody (calls : List EventCall) (held : List Resource) : Prop where
  orderly : Orderly calls
  acquired : calls.filterMap EventCall.acquired? <:+ releaseOrder
  /-- What was given back, in this order, and then what is held. -/
  accounted : (calls.filterMap EventCall.released?).reverse ++ held =
    calls.filterMap EventCall.acquired?

theorem Gathering.custody {calls : List EventCall} {held : List Resource} (h : Gathering calls held)
    (hheld : held <:+ releaseOrder) : Custody calls held where
  orderly := h.orderly
  acquired := by rwa [h.acquired]
  accounted := by rw [h.released, h.acquired, List.reverse_nil, List.nil_append]

namespace Custody

variable {calls : List EventCall} {held : List Resource} {call : EventCall} {r : Resource}

/-- What is held was acquired and not given back, since no resource is acquired twice. -/
theorem holds (h : Custody calls held) (hr : r ∈ held) : Held calls r := by
  have hnodup : (calls.filterMap EventCall.acquired?).Nodup :=
    List.Nodup.sublist h.acquired.sublist (by decide)
  rw [← h.accounted, List.nodup_append] at hnodup
  refine ⟨h.accounted ▸ List.mem_append_right _ hr, fun hreleased => ?_⟩
  exact hnodup.2.2 r (List.mem_reverse.2 hreleased) r hr rfl

/-- A call that neither acquires nor gives back. -/
theorem cons (h : Custody calls held) (hfits : call.Fits calls) (hacquired : call.acquired? = none)
    (hreleased : call.released? = none) : Custody (call :: calls) held where
  orderly := ⟨hfits, h.orderly⟩
  acquired := by
    rw [List.filterMap_cons_none hacquired]
    exact h.acquired
  accounted := by
    rw [List.filterMap_cons_none hacquired, List.filterMap_cons_none hreleased]
    exact h.accounted

/-- A call that gives back what is first in the order. -/
theorem giveBack (h : Custody calls (r :: held)) (hfits : Held calls r → call.Fits calls)
    (hacquired : call.acquired? = none) (hreleased : call.released? = some r) :
    Custody (call :: calls) held where
  orderly := ⟨hfits (h.holds List.mem_cons_self), h.orderly⟩
  acquired := by
    rw [List.filterMap_cons_none hacquired]
    exact h.acquired
  accounted := by
    rw [List.filterMap_cons_none hacquired, List.filterMap_cons_some hreleased, List.reverse_cons,
      List.append_assoc]
    exact h.accounted

/-- The same for a resource that may be held or not. -/
theorem giveBackIf (call : EventCall) {present : Bool}
    (h : Custody calls ((if present then [r] else []) ++ held))
    (hfits : Held calls r → call.Fits calls) (hacquired : call.acquired? = none)
    (hreleased : call.released? = some r) :
    Custody ((if present then [call] else []) ++ calls) held := by
  cases present with
  | true => exact giveBack h hfits hacquired hreleased
  | false => exact h

end Custody

namespace PerfEvent

theorem map_calls (region : Region) (length : Nat) (offset : UInt64) (e : PerfEvent) :
    (e.map region length offset).2.calls =
      .mapped region length offset (e.map region length offset).1 :: e.calls := by
  unfold map
  simp only
  generalize (e.mapFailure region).or _ = failure
  cases region <;> cases failure <;> rfl

theorem control_calls (r : Control) (e : PerfEvent) :
    (e.control r).2.calls = .control r (e.control r).1 :: e.calls := by
  obtain ⟨controlFailures, traces, h⟩ := control_eq r e
  rw [h]
  exact congrArg _ (produce_frame _ _).2

theorem tryOpen_calls (attributes : EventAttributes) (e : PerfEvent) :
    (e.tryOpen attributes).2.calls =
      .opened (match (e.tryOpen attributes).1 with | .ok _ => none | .error errno => some errno) ::
        e.calls := by
  unfold tryOpen
  cases e.openFailures with
  | nil => rfl
  | cons answer later => cases answer <;> rfl

end PerfEvent

namespace Collector

/-- What a collector has to give back, in this order. -/
def held (c : Collector) : List Resource :=
  (if c.aux.isSome then [.mapping .aux] else []) ++
    ((if c.base.isSome then [.mapping .base] else []) ++
      (if c.descriptor.isSome then [.descriptor] else []))

/-- What the calls of an event and the fields of a collector say is held agree. -/
def Keeps (c : Collector) : Prop := Custody c.event.calls c.held

/-! ## Opening -/

/-- Whatever a step answers, the collector behind it holds exactly what was acquired. -/
def Gathers : EStateM.Result CollectorError Collector Unit → Prop
  | .ok _ c | .error _ c => Gathering c.event.calls c.held ∧ c.held <:+ releaseOrder

variable {c c' : Collector}

theorem check_bind (answer : Except CollectorError Unit) (f : Unit → Step Unit) (c : Collector) :
    (check answer >>= f) c = match answer with
      | .error e => .error e c
      | .ok () => f () c := by
  cases answer <;> rfl

/-- A region that cannot be mapped ends a step. -/
theorem mapRegion_bind (region : Region) (length : Nat) (offset : UInt64)
    (f : PUnit → Step Unit) (c : Collector) :
    (mapRegion region length offset >>= f) c = match (c.event.map region length offset).1 with
      | some errno => .error (.mappingFailed region errno)
          { c with event := (c.event.map region length offset).2 }
      | none => f ⟨⟩ { c with event := (c.event.map region length offset).2 } := by
  have hmap : mapRegion region length offset c = match (c.event.map region length offset).1 with
      | some errno => .error (.mappingFailed region errno)
          { c with event := (c.event.map region length offset).2 }
      | none => .ok () { c with event := (c.event.map region length offset).2 } := by
    rw [mapRegion, use_bind]
    cases (c.event.map region length offset).1 <;> rfl
  simp only [bind, EStateM.bind, hmap]
  cases (c.event.map region length offset).1 <;> rfl

/-- Mapping a region adds to what is held, or leaves it and ends the step. -/
theorem gathers_mapRegion_bind {region : Region} {length : Nat} {offset : UInt64}
    {f : PUnit → Step Unit} {held : List Resource} (h : Gathering c.event.calls held)
    (hheld : c.held = held) (hsuffix : held <:+ releaseOrder)
    (hfits : ∀ failure, (EventCall.mapped region length offset failure).Fits c.event.calls)
    (hmapped : ∀ event, Gathering event.calls (.mapping region :: held) →
      Gathers (f ⟨⟩ { c with event })) :
    Gathers ((mapRegion region length offset >>= f) c) := by
  have hmap := h.cons _ (hfits (c.event.map region length offset).1) rfl
  rw [← PerfEvent.map_calls] at hmap
  rw [mapRegion_bind]
  cases hanswer : (c.event.map region length offset).1 with
  | some errno =>
      rw [hanswer] at hmap
      refine ⟨?_, ?_⟩
      · show Gathering _ c.held
        rwa [hheld]
      · show c.held <:+ _
        rwa [hheld]
  | none =>
      rw [hanswer] at hmap
      exact hmapped _ hmap

/-- The ring is mapped once the control page names its place. -/
theorem gathers_mapRing {offset : UInt64} {size : Nat}
    (h : Gathering c.event.calls [.mapping .base, .descriptor])
    (hbase : c.base.isSome = true) (haux : c.aux = none) (hdescriptor : c.descriptor.isSome = true)
    (hplaced : .placedRing offset size.toUInt64 ∈ c.event.calls) :
    Gathers ((do
      mapRegion .aux size offset
      modify fun c => { c with aux := some size } : Step Unit) c) := by
  have hheld : c.held = [.mapping .base, .descriptor] := by
    rw [held, hdescriptor, hbase, haux]
    rfl
  have hfits (failure : Option Errno) :
      (EventCall.mapped .aux size offset failure).Fits c.event.calls := by
    refine ⟨h.holds (by decide), ?_, fun _ => ⟨h.holds (by decide), hplaced⟩⟩
    rw [h.acquired]
    decide
  refine gathers_mapRegion_bind h hheld (by decide) hfits fun event hevent => ?_
  have hall : held { c with event, aux := some size } = releaseOrder := by
    rw [held, hdescriptor, hbase]
    rfl
  show Gathering event.calls (held { c with event, aux := some size }) ∧ held _ <:+ _
  rw [hall]
  exact ⟨hevent, List.suffix_refl _⟩

theorem gathers_mapRegions (config : CaptureConfig) (h : Gathering c.event.calls [.descriptor])
    (hbase : c.base = none) (haux : c.aux = none) (hdescriptor : c.descriptor.isSome = true) :
    Gathers (mapRegions config c) := by
  have hheld : c.held = [.descriptor] := by
    rw [held, hdescriptor, hbase, haux]
    rfl
  have hfits (length : Nat) (failure : Option Errno) :
      (EventCall.mapped .base length 0 failure).Fits c.event.calls := by
    refine ⟨h.holds (by decide), ?_, nofun⟩
    rw [h.acquired]
    decide
  unfold mapRegions
  refine gathers_mapRegion_bind h hheld (by decide) (hfits _) fun event hevent => ?_
  rw [modify_bind, use_bind, use_bind]
  -- The control page is mapped by now, so it may be read and written.
  have hread : Gathering event.readPlace.2.calls [.mapping .base, .descriptor] :=
    hevent.cons .readPlace (hevent.holds (by decide)) rfl
  exact gathers_mapRing (hread.cons (.placedRing _ _) (hread.holds (by decide)) rfl) rfl haux
    hdescriptor List.mem_cons_self

/-- Asking again opens the descriptor at most once. -/
theorem gathering_retryWhileBusy (attributes : EventAttributes) (attempts : Nat) {e : PerfEvent}
    (h : Gathering e.calls []) :
    Gathering (retryWhileBusy attempts (·.tryOpen attributes) e).2.calls
      (match (retryWhileBusy attempts (·.tryOpen attributes) e).1 with
        | .ok _ => [.descriptor]
        | .error _ => []) := by
  have hgo (left : Nat) {e : PerfEvent} (h : Gathering e.calls []) :
      Gathering (retryWhileBusy.go attempts (·.tryOpen attributes) left e).2.calls
        (match (retryWhileBusy.go attempts (·.tryOpen attributes) left e).1 with
          | .ok _ => [.descriptor]
          | .error _ => []) := by
    induction left generalizing e with
    | zero => exact h
    | succ left ih =>
        have hfirst := h.cons (.opened (match (e.tryOpen attributes).1 with
          | .ok _ => none
          | .error errno => some errno)) h.acquired rfl
        rw [← PerfEvent.tryOpen_calls] at hfirst
        unfold retryWhileBusy.go
        rcases hanswer : e.tryOpen attributes with ⟨errno | fd, e'⟩ <;> rw [hanswer] at hfirst
        · simp only
          split
          · exact ih hfirst
          · exact hfirst
        · exact hfirst
  exact hgo attempts h

/-- Opening leaves a collector that holds exactly what was acquired. -/
theorem gathers_acquire (event : PerfEvent) (pid : Int) (config : CaptureConfig)
    (h : event.calls = []) : Gathers (acquire pid config { event }) := by
  have hnothing : Gathering event.calls [] := by
    rw [h]
    exact .nil
  have hempty : ([] : List Resource) <:+ releaseOrder := List.nil_suffix
  rw [acquire, check_bind]
  cases config.validate with
  | error e => exact ⟨hnothing, hempty⟩
  | ok _ =>
      simp only
      rw [get_bind]
      cases EventType.read EventType.path event.typeFile with
      | error fault =>
          simp only
          exact ⟨hnothing, hempty⟩
      | ok typeNumber =>
          simp only
          rw [use_bind]
          have hopened := gathering_retryWhileBusy
            { typeNumber, config := config.eventConfig, auxWatermark := config.watermark pageSize, pid }
            config.openAttempts hnothing
          generalize retryWhileBusy config.openAttempts _ event = answer at hopened ⊢
          rcases answer with ⟨e | fd, event'⟩
          · exact ⟨hopened, hempty⟩
          · exact gathers_mapRegions config hopened rfl rfl rfl

/-! ## Closing -/

/-- The calls that close a collector, the latest first. -/
def closing (c : Collector) : List EventCall :=
  (if c.descriptor.isSome then [.closed c.event.closeFailure] else []) ++
    ((if c.base.isSome then [.unmapped .base (c.event.unmapFailure .base)] else []) ++
      (if c.aux.isSome then [.unmapped .aux (c.event.unmapFailure .aux)] else []))

/-- What the kernel did not take, in the order of the calls; of those the latest comes first. -/
def unreleased (calls : List EventCall) : List (Resource × Errno) :=
  (calls.filterMap EventCall.unreleased?).reverse

@[simp] theorem unreleased_nil : unreleased [] = [] := rfl

@[simp] theorem unreleased_cons (call : EventCall) (calls : List EventCall) :
    unreleased (call :: calls) = unreleased calls ++ call.unreleased?.toList := by
  unfold unreleased
  cases h : call.unreleased? with
  | none => rw [List.filterMap_cons_none h, Option.toList_none, List.append_nil]
  | some failure => rw [List.filterMap_cons_some h, List.reverse_cons, Option.toList_some]

/-- The answer to closing lists what the kernel did not take. -/
def closeAnswer (calls : List EventCall) : Except CloseError Unit :=
  if (unreleased calls).isEmpty then .ok () else .error ⟨unreleased calls⟩

theorem close_eq (c : Collector) : c.close = (closeAnswer c.closing,
    { c with
      event := { c.event with calls := c.closing ++ c.event.calls }
      aux := none, base := none, descriptor := none, enabled := false, span := .empty }) := by
  rcases c with ⟨event, typeNumber, descriptor, base, aux, enabled, consumed, head, span, truncated,
    copied⟩
  cases aux <;> cases base <;> cases descriptor <;>
    simp [close, closing, giveBack, closeAnswer, PerfEvent.unmap, PerfEvent.close, PerfEvent.log,
      EventCall.unreleased?]

/-- Closing gives back all that is held, and nothing else. -/
theorem Keeps.close (h : c.Keeps) : Custody c.close.2.event.calls [] := by
  -- The three resources in their order, each behind what was done about the ones before it.
  have haux := Custody.giveBackIf (.unmapped .aux (c.event.unmapFailure .aux)) h id rfl rfl
  have hbase := haux.giveBackIf (.unmapped .base (c.event.unmapFailure .base)) id rfl rfl
  rw [← List.append_nil (if c.descriptor.isSome then _ else _)] at hbase
  have hdescriptor := hbase.giveBackIf (.closed c.event.closeFailure) id rfl rfl
  rw [close_eq]
  show Custody (c.closing ++ c.event.calls) []
  rwa [closing, List.append_assoc, List.append_assoc]

@[simp] theorem held_close (c : Collector) : c.close.2.held = [] := by
  rw [close_eq]
  rfl

/-! ## Uses -/

/-- What is asked of an open collector. -/
inductive Use where
  | enable
  | disable
  | window
  | close
  deriving DecidableEq, Repr

/-- A use of a collector, whatever its answer is. -/
def Use.apply : Use → Collector → Collector
  | enable, c => (TraceCapture.enable c).2
  | disable, c => (TraceCapture.disable c).2
  -- Looking at the window changes nothing.
  | window, c => c
  | close, c => c.close.2

/-- One use after the other. -/
def run (uses : List Use) (c : Collector) : Collector := uses.foldl (fun c use => use.apply c) c

theorem Keeps.holds_base (h : c.Keeps) (hbase : c.base.isSome = true) :
    Held c.event.calls (.mapping .base) :=
  Custody.holds h (by simp [held, hbase])

theorem Keeps.holds_descriptor (h : c.Keeps) (hdescriptor : c.descriptor.isSome = true) :
    Held c.event.calls .descriptor :=
  Custody.holds h (by simp [held, hdescriptor])

/-- A call that neither acquires nor gives back. -/
theorem Keeps.call {call : EventCall} (h : c.Keeps) (hcalls : c'.event.calls = call :: c.event.calls)
    (hheld : c'.held = c.held) (hfits : call.Fits c.event.calls) (hacquired : call.acquired? = none)
    (hreleased : call.released? = none) : c'.Keeps := by
  unfold Keeps
  rw [hcalls, hheld]
  exact Custody.cons h hfits hacquired hreleased

@[simp] theorem release_descriptor (c : Collector) : c.release.descriptor = c.descriptor := rfl

theorem Keeps.release (h : c.Keeps) : c.release.Keeps := by
  cases hbase : c.base.isSome with
  | true =>
      rw [release_eq hbase]
      exact h.call rfl rfl (h.holds_base hbase) rfl rfl
  | false =>
      unfold Collector.release
      rw [hbase]
      exact h

theorem Keeps.snapshot (h : c.Keeps) : c.snapshot.Keeps := by
  unfold Collector.snapshot
  split
  next hbase _ => exact h.call rfl rfl (h.holds_base (Option.isSome_iff_exists.2 ⟨_, hbase⟩)) rfl rfl
  next => exact h

/-- A request to an open descriptor, granted or not, and what is done behind it. -/
theorem Keeps.request_bind {r : Control} {f : PUnit → Step Unit} (h : c.Keeps)
    (hdescriptor : c.descriptor.isSome = true)
    (hgranted : ∀ event, Keeps { c with event } → (outcome (f ⟨⟩) { c with event }).2.Keeps) :
    (outcome (request r >>= f) c).2.Keeps := by
  have hrequest : Keeps { c with event := (c.event.control r).2 } :=
    h.call (PerfEvent.control_calls r c.event) rfl (h.holds_descriptor hdescriptor) rfl rfl
  unfold outcome
  rw [Collector.request_bind]
  cases (c.event.control r).1 with
  | some errno => exact hrequest
  | none => exact hgranted _ hrequest

theorem Keeps.enable (h : c.Keeps) : (TraceCapture.enable c).2.Keeps := by
  cases hdescriptor : c.descriptor with
  | none =>
      rw [enable_of_closed hdescriptor]
      exact h
  | some fd =>
      have hopen : c.descriptor.isSome = true := by rw [hdescriptor]; rfl
      cases hon : c.enabled with
      | true =>
          rw [enable_of_enabled hopen hon]
          exact h
      | false =>
          rw [enable_eq hopen hon]
          -- The last window is dropped, and then the two requests are made.
          refine h.release.request_bind (by rwa [release_descriptor]) fun event hreset => ?_
          exact hreset.request_bind (by rwa [← release_descriptor] at hopen) fun _ henable => henable

theorem Keeps.disable (h : c.Keeps) : (TraceCapture.disable c).2.Keeps := by
  cases hdescriptor : c.descriptor with
  | none =>
      rw [disable_of_closed hdescriptor]
      exact h
  | some fd =>
      have hopen : c.descriptor.isSome = true := by rw [hdescriptor]; rfl
      cases hon : c.enabled with
      | false =>
          rw [disable_of_off hon]
          exact h
      | true =>
          rw [disable_eq hopen hon]
          exact h.request_bind hopen fun _ hdisable => Keeps.snapshot hdisable

theorem Keeps.apply (h : c.Keeps) : ∀ use : Use, (use.apply c).Keeps
  | .enable => h.enable
  | .disable => h.disable
  | .window => h
  | .close => by
      show Custody _ c.close.2.held
      rw [held_close]
      exact h.close

theorem Keeps.run (h : c.Keeps) (uses : List Use) : (c.run uses).Keeps := by
  induction uses generalizing c with
  | nil => exact h
  | cons use uses ih => exact ih (h.apply use)

/-- After a failure to open, what was acquired is given back at once. -/
theorem openFor_cases (event : PerfEvent) (pid : Int) (config : CaptureConfig)
    (h : event.calls = []) :
    match openFor event pid config with
    | (.error _, c) => Custody c.event.calls []
    | (.ok (), c) => c.Keeps := by
  have hgathers := gathers_acquire event pid config h
  unfold openFor
  cases hacquire : acquire pid config { event } with
  | ok _ c =>
      rw [hacquire] at hgathers
      exact hgathers.1.custody hgathers.2
  | error e c =>
      rw [hacquire] at hgathers
      exact Keeps.close (hgathers.1.custody hgathers.2)

end Collector

/-! ## From the opening to the end -/

/-- Calls that are orderly, in which what was acquired was given back once, the ring before the
control page and this before the descriptor; the latest call comes first. -/
structure Balanced (calls : List EventCall) : Prop where
  fits : ∀ later call earlier, calls = later ++ call :: earlier → call.Fits earlier
  acquired : calls.filterMap EventCall.acquired? <:+ releaseOrder
  released : (calls.filterMap EventCall.released?).reverse = calls.filterMap EventCall.acquired?

theorem Custody.balanced {calls : List EventCall} (h : Custody calls []) : Balanced calls where
  fits _ _ _ hcalls := Orderly.fits (hcalls ▸ h.orderly)
  acquired := h.acquired
  released := by rw [← h.accounted, List.append_nil]

/-- **Everything that was acquired is given back once.**  Whatever fails in opening a collector, in
using it and in giving back what it holds: if it is not opened, all is given back by then, and else
when it is closed at the end.  The answer to closing lists what the kernel did not take among the
calls that it made. -/
theorem released_once (event : PerfEvent) (pid : Int) (config : CaptureConfig)
    (uses : List Collector.Use) :
    match Collector.openFor { event with calls := [] } pid config with
    | (.error _, c) => Balanced c.event.calls
    | (.ok (), opened) =>
      let c := opened.run uses
      Balanced c.close.2.event.calls ∧
        ∃ made, c.close.2.event.calls = made ++ c.event.calls ∧
          c.close.1 = Collector.closeAnswer made := by
  have hopen := Collector.openFor_cases { event with calls := [] } pid config rfl
  split
  next c hanswer =>
    rw [hanswer] at hopen
    exact hopen.balanced
  next opened hanswer =>
    rw [hanswer] at hopen
    refine ⟨(hopen.run uses).close.balanced, (opened.run uses).closing, ?_, ?_⟩ <;>
      rw [Collector.close_eq]

/-- Neither mapping is taken back, and the second one to close finds nothing. -/
example :
    let event : PerfEvent :=
      { typeFile := some "8\n".toUTF8, unmapFailure := fun _ => some .invalidArgument }
    let opened := (Collector.openFor event 7 {}).2
    let used := opened.run [.enable, .disable, .close, .enable, .close]
    opened.close.1 = .error
        ⟨[(.mapping .aux, .invalidArgument), (.mapping .base, .invalidArgument)]⟩ ∧
      used.close.1 = .ok () ∧
      used.close.2.event.calls.filterMap EventCall.released? =
        [.descriptor, .mapping .base, .mapping .aux] := by
  decide +kernel

end BranchWatch
