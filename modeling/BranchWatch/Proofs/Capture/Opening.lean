import BranchWatch.Capture.Collector
import BranchWatch.Proofs.Capture.Stream

/-!
# An open collector

Opening asks for the event, maps both regions and tells the kernel the place of the ring.  None of
this switches the event on or writes to the ring, so the collector of a new event is at the start of
the stream (`Collector.opened_of_openFor`).
-/

namespace BranchWatch

namespace PerfEvent

/-- Neither was the event switched nor anything written to its ring. -/
structure Idle (e e' : PerfEvent) : Prop where
  head : e'.page.head = e.page.head
  isOn : e'.isOn = e.isOn

theorem Idle.trans {e e' e'' : PerfEvent} (h : Idle e e') (h' : Idle e' e'') : Idle e e'' :=
  ⟨h'.head.trans h.head, h'.isOn.trans h.isOn⟩

theorem idle_tryOpen (attributes : EventAttributes) (e : PerfEvent) :
    Idle e (e.tryOpen attributes).2 := by
  unfold tryOpen
  cases e.openFailures with
  | nil => exact ⟨rfl, rfl⟩
  | cons answer later => cases answer <;> exact ⟨rfl, rfl⟩

theorem idle_readPlace (e : PerfEvent) : Idle e e.readPlace.2 := ⟨rfl, rfl⟩

theorem idle_placeRing (offset size : UInt64) (e : PerfEvent) :
    Idle e (e.placeRing offset size) := ⟨rfl, rfl⟩

theorem idle_map (region : Region) (length : Nat) (offset : UInt64) (e : PerfEvent) :
    Idle e (e.map region length offset).2 := by
  unfold map
  simp only
  split <;> exact ⟨rfl, rfl⟩

/-- The ring gets the length that was asked for. -/
theorem map_aux_ring {length : Nat} {offset : UInt64} {e : PerfEvent}
    (h : (e.map .aux length offset).1 = none) : (e.map .aux length offset).2.ring.size = length ∧
      (e.map .aux length offset).2.page = e.page := by
  unfold map at h ⊢
  simp only at h ⊢
  split at h
  next hfailure => simp [hfailure, log]
  next hfailure => exact absurd h (hfailure rfl)

end PerfEvent

/-- Asking again does not touch what a request does not touch. -/
theorem idle_retryWhileBusy {α : Type} (attempts : Nat)
    {request : PerfEvent → Except Errno α × PerfEvent} (hrequest : ∀ e, PerfEvent.Idle e (request e).2)
    (e : PerfEvent) : e.Idle (retryWhileBusy attempts request e).2 := by
  have hgo (left : Nat) (e : PerfEvent) : e.Idle (retryWhileBusy.go attempts request left e).2 := by
    induction left generalizing e with
    | zero => exact ⟨rfl, rfl⟩
    | succ left ih =>
        have hfirst := hrequest e
        unfold retryWhileBusy.go
        rcases hanswer : request e with ⟨errno | a, e'⟩ <;> rw [hanswer] at hfirst <;> simp only
        · split
          · exact hfirst.trans (ih e')
          · exact hfirst
        · exact hfirst
  exact hgo attempts e

namespace Collector

variable {α β : Type} {c c' : Collector}

/-- What comes to an answer in two steps comes to one in each. -/
theorem bind_eq_ok {x : EStateM CollectorError Collector α}
    {f : α → EStateM CollectorError Collector β} {b : β} (h : (x >>= f) c = .ok b c') :
    ∃ a m, x c = .ok a m ∧ f a m = .ok b c' := by
  simp only [bind, EStateM.bind] at h
  cases hx : x c with
  | ok a m =>
      rw [hx] at h
      exact ⟨a, m, rfl, h⟩
  | error e m =>
      rw [hx] at h
      cases h

theorem use_bind (act : PerfEvent → α × PerfEvent) (f : α → EStateM CollectorError Collector β)
    (c : Collector) : (use act >>= f) c = f (act c.event).1 { c with event := (act c.event).2 } :=
  rfl

theorem get_bind (f : Collector → EStateM CollectorError Collector β) (c : Collector) :
    ((get : EStateM CollectorError Collector Collector) >>= f) c = f c c := rfl

theorem modify_bind (g : Collector → Collector) (f : PUnit → EStateM CollectorError Collector β)
    (c : Collector) :
    ((modify g : EStateM CollectorError Collector PUnit) >>= f) c = f ⟨⟩ (g c) := rfl

theorem check_eq_ok {answer : Except CollectorError Unit} (h : check answer c = .ok () c') :
    answer = .ok () ∧ c' = c := by
  cases answer with
  | ok _ =>
      cases h
      exact ⟨rfl, rfl⟩
  | error e => cases h

theorem mapRegion_eq_ok {region : Region} {length : Nat} {offset : UInt64}
    (h : mapRegion region length offset c = .ok () c') :
    ∃ event, c' = { c with event } ∧ c.event.Idle event ∧
      (region = .aux → event.ring.size = length ∧ event.page = c.event.page) := by
  have hidle := PerfEvent.idle_map region length offset c.event
  rw [mapRegion, use_bind] at h
  cases hanswer : (c.event.map region length offset).1 with
  | none =>
      rw [hanswer] at h
      cases h
      refine ⟨_, rfl, hidle, ?_⟩
      rintro rfl
      exact PerfEvent.map_aux_ring hanswer
  | some errno =>
      rw [hanswer] at h
      cases h

/-- An open collector before its first use, with a ring of the given size: the capture is off,
nothing was written and nothing handed out. -/
structure Opened (size : Nat) (c : Collector) : Prop where
  descriptor : c.descriptor.isSome = true
  base : c.base.isSome = true
  aux : c.aux = some size
  enabled : c.enabled = false
  head : c.head = 0
  span : c.span = .empty
  written : c.event.page.head = 0
  isOn : c.event.isOn = false
  auxSize : c.event.page.auxSize.toNat = size
  ring : c.event.ring.size = size

theorem mapRegions_eq_ok {config : CaptureConfig} (h : mapRegions config c = .ok () c') :
    ∃ base event, c' = { c with event, base := some base, aux := some (config.auxBytes pageSize) } ∧
      c.event.Idle event ∧ event.page.auxSize = (config.auxBytes pageSize).toUInt64 ∧
      event.ring.size = config.auxBytes pageSize := by
  obtain ⟨_, m, hbase, h⟩ := bind_eq_ok h
  obtain ⟨event, rfl, hidle, -⟩ := mapRegion_eq_ok hbase
  rw [modify_bind, use_bind, use_bind] at h
  obtain ⟨_, m, haux, h⟩ := bind_eq_ok h
  obtain ⟨event', rfl, hidle', hmapped⟩ := mapRegion_eq_ok haux
  cases h
  obtain ⟨hring, hpage⟩ := hmapped rfl
  have hread := hidle.trans event.idle_readPlace
  refine ⟨_, event', rfl, (hread.trans (PerfEvent.idle_placeRing _ _ event.readPlace.2)).trans hidle',
    ?_, hring⟩
  rw [hpage]
  rfl

/-- The settings that are accepted give a ring whose size is a power of two. -/
theorem auxBytes_of_validate {config : CaptureConfig} (h : config.validate = .ok ()) :
    ∃ k, config.auxBytes pageSize = 2 ^ k := by
  have haux : CaptureConfig.isPowerOfTwo config.auxPages = true := by
    unfold CaptureConfig.validate at h
    cases haux : CaptureConfig.isPowerOfTwo config.auxPages with
    | true => rfl
    | false =>
        rw [haux] at h
        split at h <;> cases h
  have hpages : 2 ^ config.auxPages.log2 = config.auxPages := of_decide_eq_true haux
  refine ⟨config.auxPages.log2 + 12, ?_⟩
  rw [Nat.pow_add, hpages]
  rfl

/-- **An open collector is at the start.**  If a new event is opened, then all three resources are
held, and the ring has the size that the settings say, which is a power of two. -/
theorem opened_of_openFor {event : PerfEvent} {pid : Int} {config : CaptureConfig}
    (hwritten : event.page.head = 0) (hoff : event.isOn = false)
    (hsize : config.auxBytes pageSize < 2 ^ 64) (h : openFor event pid config = (.ok (), c)) :
    Opened (config.auxBytes pageSize) c ∧ ∃ k, config.auxBytes pageSize = 2 ^ k := by
  have hacquire : acquire pid config { event } = .ok () c := by
    unfold openFor at h
    cases hacquire : acquire pid config { event } with
    | ok _ m =>
        rw [hacquire] at h
        cases h
        rfl
    | error e m =>
        rw [hacquire] at h
        cases h
  -- Each step of opening came to an answer, and none of them touches what the event is at.
  obtain ⟨_, m, hcheck, hacquire⟩ := bind_eq_ok hacquire
  obtain ⟨hvalid, rfl⟩ := check_eq_ok hcheck
  rw [get_bind] at hacquire
  cases htype : EventType.read EventType.path event.typeFile with
  | error fault =>
      simp only [htype] at hacquire
      cases hacquire
  | ok typeNumber =>
      simp only [htype] at hacquire
      rw [use_bind] at hacquire
      have hidle := idle_retryWhileBusy config.openAttempts (PerfEvent.idle_tryOpen
        { typeNumber, config := config.eventConfig, auxWatermark := config.watermark pageSize, pid })
        event
      generalize retryWhileBusy config.openAttempts _ event = answer at hacquire hidle
      rcases answer with ⟨e | fd, opened⟩
      · cases hacquire
      · simp only at hacquire
        rw [modify_bind] at hacquire
        obtain ⟨base, mapped, rfl, hmapped, hplaced, hring⟩ := mapRegions_eq_ok hacquire
        have hopened := hidle.trans hmapped
        refine ⟨⟨rfl, rfl, rfl, rfl, rfl, rfl, hopened.head.trans hwritten, hopened.isOn.trans hoff,
          ?_, hring⟩, auxBytes_of_validate hvalid⟩
        rw [hplaced]
        exact Nat.mod_eq_of_lt hsize

end Collector

end BranchWatch
