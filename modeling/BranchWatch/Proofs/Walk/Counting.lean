import BranchWatch.Proofs.Packet.Padding
import BranchWatch.Proofs.Walk.TracingOff

/-!
# What makes the count of steps start again

Each packet read makes the count of steps start again, also one that does not affect the path.  But
where a step finds the address of its instruction, either it has read no packet or one of those it
has read affects the path.  So whether the count starts again is decided by the packets that matter
(`counted_of_step`), and other packets cannot hide a walk that goes on for too long.
-/

namespace BranchWatch

namespace Cursor

variable {c d e : Cursor} {ps : List (Nat × Packet)}

/-- From `c` to `d` a packet that matters for the path was read. -/
structure Restarted (c d : Cursor) : Prop where
  weight : d.reader.weight < c.reader.weight
  steps : d.steps = 0

/-- From `c` to `d` no packet was read that counts, or the count of steps started again. -/
inductive Counted (c d : Cursor) : Prop
  | on (hweight : d.reader.weight = c.reader.weight) (hsteps : d.steps = c.steps)
  | again (h : Restarted c d)

theorem Still.counted (h : Still c d) : Counted c d :=
  .on (by rw [h.reader]) h.steps

theorem weight_consume {p : Packet} {n : Nat} (h : c.reader.peek = .ok (some (p, n))) :
    c.reader.weight = (c.consume p n).reader.weight + if p.isTiming then 0 else 1 :=
  PacketReader.weight_of_packet h

theorem Reads.weight_le (h : Reads c ps d) : d.reader.weight ≤ c.reader.weight := by
  induction h with
  | still h => exact Nat.le_of_eq (by rw [h.reader])
  | read hp _ ih =>
      have hweight := weight_consume hp
      omega

/-- Whatever is read behind a packet that matters. -/
theorem Restarted.reads (h : Restarted c d) (hr : Reads d ps e) : Restarted c e := by
  refine ⟨Nat.lt_of_le_of_lt hr.weight_le h.weight, ?_⟩
  rcases hr.last with ⟨_, _, hsteps⟩ | ⟨_, hsteps, _⟩
  · rw [hsteps, h.steps]
  · exact hsteps

theorem Restarted.of_follows {α : Type} {a : α} {r : Walked α} (h : Restarted c d)
    (hr : Follows d r) (hok : r = .ok a e) : Restarted c e := by
  obtain ⟨ps, hps⟩ := hr.reads hok
  exact h.reads hps

theorem Counted.trans (h : Counted c d) (h' : Counted d e) : Counted c e := by
  cases h with
  | on hweight hsteps =>
      cases h' with
      | on hweight' hsteps' => exact .on (hweight'.trans hweight) (hsteps'.trans hsteps)
      | again h' => exact .again ⟨hweight ▸ h'.weight, h'.steps⟩
  | again h =>
      cases h' with
      | on hweight' hsteps' => exact .again ⟨hweight' ▸ h.weight, hsteps'.trans h.steps⟩
      | again h' => exact .again ⟨Nat.lt_trans h'.weight h.weight, h'.steps⟩

/-- An event is told by a packet that matters. -/
theorem restarted_of_nextEvent {event : FlowEvent} (h : nextEvent c = .ok (some event) d) :
    Restarted c d := by
  fun_induction nextEvent c with
  | case1 => cases h
  | case2 => cases h
  | case3 => cases h
  | case4 c p n hp event he =>
      cases h
      have htiming : p.isTiming = false := by
        rw [Bool.eq_false_iff]
        intro htiming
        rw [FlowState.event_of_isTiming htiming] at he
        cases he
      have hweight := weight_consume hp
      rw [htiming] at hweight
      exact ⟨by rw [hweight]; exact Nat.lt_succ_self _, rfl⟩
  | case5 c p n hp he ih =>
      have hweight := weight_consume hp
      obtain ⟨hlt, hsteps⟩ := ih h
      exact ⟨by omega, hsteps⟩

theorem restarted_of_nextBranch {branch : Branch} (h : nextBranch c = .ok (some branch) d) :
    Restarted c d := by
  rw [nextBranch_eq] at h
  rcases he : nextEvent c with ⟨_ | event, f⟩ | ⟨e, f⟩ <;> rw [he] at h
  · cases h
  · have hread := restarted_of_nextEvent he
    rcases event with _ | ⟨_ | _ | _ | _, ip⟩ | ip
    case status => exact hread.of_follows (nextBranch_follows f) h
    case ip.pge => cases h
    case ip.fup => cases h
    all_goals
      cases h
      exact hread
  · cases h

/-- The answer to a branch was waiting, or a packet that matters has brought it. -/
theorem Asks.counted {ip : Option UInt64} (h : Asks ip c d) : Counted c d := by
  cases h with
  | nothing hstill => exact hstill.counted
  | outcomes hb hstill => exact .again ((restarted_of_nextBranch hb).reads (.still hstill))
  | target hstill hb => exact hstill.counted.trans (.again (restarted_of_nextBranch hb))

theorem counted_of_resolve (h : resolve c = .ok true d) : Counted c d := by
  cases hp : c.flow.pending with
  | none =>
      rw [resolve_none hp] at h
      cases h
      exact (Still.refl c).counted
  | some p =>
      have htaken : Still c (c.withPending none) := .withFlow c rfl rfl
      rw [resolve_some hp] at h
      rcases hs : successor p (c.withPending none) with ⟨_ | ip, f⟩ | ⟨e, f⟩ <;>
        simp only [hs] at h <;> cases h
      have hmoved : Still f (f.withIp ip) := .withFlow f rfl rfl
      exact (htaken.counted.trans (successor_asks hs).counted).trans hmoved.counted

theorem restarted_of_acquire (h : acquire c = .ok true d) : Restarted c d := by
  have hfollows := acquire_follows c
  rw [acquire_eq] at h
  rcases he : nextEvent c with ⟨_ | event, f⟩ | ⟨e, f⟩ <;> simp only [he] at h
  · cases h
  · have hread := restarted_of_nextEvent he
    have hcleared : Reads f [] (f.withTnt []) := .still (.withFlow f rfl rfl)
    split at h
    · cases h
      exact hread.reads (.still (.withFlow f rfl rfl))
    · split at h
      · exact (hread.reads hcleared).of_follows (acquire_follows _) h
      · exact hread.of_follows (acquire_follows f) h
  · cases h

/-- Looking ahead leaves everything as it is, unless there is an event. -/
theorem eq_of_asyncEvent {ip : UInt64} (h : asyncEvent c ip = .ok false d) : d = c := by
  unfold asyncEvent at h
  split at h
  · split at h
    next => cases h
    next => cases h; rfl
    next hahead =>
      obtain ⟨payload, hfirst, _⟩ := firstFlowPacket_of_asyncAhead hahead
      split at h
      next => cases h
      next he =>
        obtain ⟨_, _, event, hevent, _⟩ := nextEvent_ahead hfirst he
        cases hevent
      next => split at h <;> cases h
  · cases h
    rfl

theorem restarted_of_asyncEvent {ip : UInt64} (h : asyncEvent c ip = .ok true d) :
    Restarted c d := by
  unfold asyncEvent at h
  split at h
  · split at h
    next => cases h
    next => cases h
    next =>
      split at h
      next => cases h
      next => cases h
      next f he =>
        split at h
        next => cases h
        next second g hf =>
          cases h
          -- The second packet may be missing, but the first one was read.
          have hread := (restarted_of_nextEvent he).of_follows (nextEvent_follows f) hf
          exact hread.reads (.still (asyncTarget_still second g))
  · cases h

theorem counted_of_locate {ip : UInt64} (h : locate c = .ok (some ip) d) : Counted c d := by
  cases hip : c.flow.ip with
  | none =>
      rw [locate_none hip] at h
      rcases ha : acquire c with ⟨_ | _, f⟩ | ⟨e, f⟩ <;> simp only [ha] at h
      · cases h
      · exact .again ((restarted_of_acquire ha).of_follows (locate_follows f) h)
      · cases h
  | some a =>
      rw [locate_some hip] at h
      rcases ha : asyncEvent c a with ⟨_ | _, f⟩ | ⟨e, f⟩ <;> simp only [ha] at h
      · cases h
        rw [eq_of_asyncEvent ha]
        exact (Still.refl c).counted
      · exact .again ((restarted_of_asyncEvent ha).of_follows (locate_follows f) h)
      · cases h

/-- Where a step finds the address of its instruction, its count goes on from before or starts
again, whichever packets that do not matter were read. -/
theorem counted_of_step {ip : UInt64} (hresolve : resolve c = .ok true d)
    (hlocate : locate d = .ok (some ip) e) : Counted c e :=
  (counted_of_resolve hresolve).trans (counted_of_locate hlocate)

end Cursor

end BranchWatch
