import BranchWatch.Proofs.Walk.Edges
import BranchWatch.Proofs.Walk.Following
import Mathlib.Data.List.Induction

/-!
# What the stack of returns can answer

The walk remembers no more than `returnDepth` calls.  Compare it with a stack that forgets nothing
(`outstanding?`): what is remembered are the latest calls that are outstanding, so that a return is
never led to a wrong address, and the only call that a return can miss is one that was forgotten,
because as many later calls were outstanding as are remembered (`ReturnStack.pop?_after`).

A call is forgotten at one moment and missed at a later one.  So the calls are told by their places
among the events, and `Evicted` looks back over all moments.  The invariant `Recalls` says of each
outstanding call whether it is still there; it is carried through the events one by one.

The stack of a walk is that of the calls and returns on its way (`after?_callEvents`): a call of
either kind is remembered, and a return for which an outcome stands takes the latest one.  So such a
return goes to the latest outstanding call or fails (`resolve_of_ret`).
-/

namespace BranchWatch

/-- What happens to the calls that are remembered: one more, or a return to the latest. -/
inductive CallEvent where
  | call (address : UInt64)
  | ret
  deriving DecidableEq

/-! ## Both stacks -/

theorem returnDepth_pos : 0 < returnDepth := by decide

namespace ReturnStack

/-- The stack behind an event; `none` if there is no call for a return. -/
def act? (s : ReturnStack) : CallEvent → Option ReturnStack
  | .call address => some (s.push address)
  | .ret => s.pop?.map (·.2)

/-- The stack behind events. -/
def after? (events : List CallEvent) : Option ReturnStack := events.foldlM act? empty

variable {s t : ReturnStack} {address : UInt64}

theorem pop?_eq_some_iff : s.pop? = some (address, t) ↔ s.addresses = address :: t.addresses := by
  obtain ⟨_ | ⟨a, older⟩, hs⟩ := s
  · exact ⟨nofun, nofun⟩
  · obtain ⟨addresses, ht⟩ := t
    simp [pop?]

theorem pop?_eq_none_iff : s.pop? = none ↔ s.addresses = [] := by
  obtain ⟨_ | ⟨a, older⟩, hs⟩ := s
  · exact ⟨fun _ => rfl, fun _ => rfl⟩
  · exact ⟨nofun, nofun⟩

/-- Nothing is forgotten while there is room. -/
theorem addresses_push_of_lt (h : s.addresses.length < returnDepth) (address : UInt64) :
    (s.push address).addresses = address :: s.addresses := List.take_of_length_le h

theorem act?_ret_eq_some_iff : s.act? .ret = some t ↔
    ∃ address, s.addresses = address :: t.addresses := by
  simp [act?, pop?_eq_some_iff]

theorem after?_concat (events : List CallEvent) (e : CallEvent) :
    after? (events ++ [e]) = (after? events).bind (act? · e) := by
  simp [after?, List.foldlM_append]

end ReturnStack

/-- The calls behind an event at a place, if none is ever forgotten; `none` if there is none for a
return. -/
def CallEvent.actAll? (calls : List (Nat × UInt64)) : CallEvent → Nat → Option (List (Nat × UInt64))
  | .call address, place => some ((place, address) :: calls)
  | .ret, _ => calls.tail?

/-- The calls that are outstanding behind events, the latest first, each with its place. -/
def outstanding? (events : List CallEvent) : Option (List (Nat × UInt64)) :=
  events.zipIdx.foldlM (fun calls e => e.1.actAll? calls e.2) []

/-- More than `returnDepth` calls have been outstanding at once, the one at the place and later
ones. -/
def Evicted (events : List CallEvent) (place : Nat) : Prop :=
  ∃ early calls, early <+: events ∧ outstanding? early = some calls ∧
    place ∈ calls.map (·.1) ∧ returnDepth < calls.countP (place ≤ ·.1)

/-! ## What is remembered -/

/-- The stack has the latest calls, and exactly those that were never one too many. -/
structure Recalls (events : List CallEvent) (s : ReturnStack) (calls : List (Nat × UInt64)) :
    Prop where
  latest : s.addresses <+: calls.map (·.2)
  kept : ∀ x ∈ calls,
    calls.countP (x.1 ≤ ·.1) ≤ s.addresses.length ↔ ¬ Evicted events x.1

section

variable {events : List CallEvent} {e : CallEvent} {calls : List (Nat × UInt64)}
  {s t : ReturnStack} {x : Nat × UInt64}

theorem outstanding?_concat (events : List CallEvent) (e : CallEvent) :
    outstanding? (events ++ [e]) =
      (outstanding? events).bind fun calls => e.actAll? calls events.length := by
  simp [outstanding?, List.zipIdx_append, List.foldlM_append]

theorem outstanding?_call (h : outstanding? events = some calls) (address : UInt64) :
    outstanding? (events ++ [.call address]) = some ((events.length, address) :: calls) := by
  rw [outstanding?_concat, h]
  rfl

theorem outstanding?_ret (h : outstanding? events = some (x :: calls)) :
    outstanding? (events ++ [.ret]) = some calls := by
  rw [outstanding?_concat, h]
  rfl

/-- The calls are those of earlier events, and the later a call the higher it stands. -/
theorem places_of_outstanding? (h : outstanding? events = some calls) :
    calls.Pairwise (fun x y => y.1 < x.1) ∧ ∀ x ∈ calls, x.1 < events.length := by
  induction events using List.reverseRecOn generalizing calls with
  | nil =>
      cases h
      exact ⟨.nil, nofun⟩
  | append_singleton events e ih =>
      rw [outstanding?_concat, Option.bind_eq_some_iff] at h
      obtain ⟨earlier, hearlier, h⟩ := h
      obtain ⟨hsorted, hbelow⟩ := ih hearlier
      rw [List.length_append, List.length_singleton]
      cases e with
      | call address =>
          cases h
          refine ⟨List.pairwise_cons.2 ⟨hbelow, hsorted⟩, List.forall_mem_cons.2 ⟨?_, ?_⟩⟩
          · exact Nat.lt_succ_self _
          · exact fun x hx => Nat.lt_succ_of_lt (hbelow x hx)
      | ret =>
          cases earlier with
          | nil => cases h
          | cons x earlier =>
              cases h
              obtain ⟨-, hbelow⟩ := List.forall_mem_cons.1 hbelow
              exact ⟨hsorted.of_cons, fun y hy => Nat.lt_succ_of_lt (hbelow y hy)⟩

/-- A call counts itself and those above it. -/
theorem countP_cons_of_outstanding? (h : outstanding? events = some (x :: calls)) :
    (x :: calls).countP (x.1 ≤ ·.1) = 1 ∧
      ∀ y ∈ calls, (x :: calls).countP (y.1 ≤ ·.1) = calls.countP (y.1 ≤ ·.1) + 1 := by
  have hbelow := (List.pairwise_cons.1 (places_of_outstanding? h).1).1
  constructor
  · rw [List.countP_cons_of_pos (by simp), List.countP_eq_zero.2]
    intro y hy
    simpa using hbelow y hy
  · intro y hy
    rw [List.countP_cons_of_pos]
    simpa using Nat.le_of_lt (hbelow y hy)

/-- A call that is outstanding is forgotten by now, or it is one too many right now. -/
theorem evicted_concat (h : outstanding? (events ++ [e]) = some calls) (hx : x ∈ calls) :
    Evicted (events ++ [e]) x.1 ↔
      Evicted events x.1 ∨ returnDepth < calls.countP (x.1 ≤ ·.1) := by
  constructor
  · rintro ⟨early, calls', hearly, hcalls', hplace, hdeep⟩
    rcases List.prefix_concat_iff.1 hearly with rfl | hearly
    · rw [h] at hcalls'
      cases hcalls'
      exact .inr hdeep
    · exact .inl ⟨early, calls', hearly, hcalls', hplace, hdeep⟩
  · rintro (⟨early, calls', hearly, hcalls', hplace, hdeep⟩ | hdeep)
    · exact ⟨early, calls', hearly.trans (List.prefix_append _ _), hcalls', hplace, hdeep⟩
    · exact ⟨_, calls, List.prefix_rfl, h, List.mem_map_of_mem hx, hdeep⟩

/-- A call cannot be forgotten before it is made. -/
theorem not_evicted_of_length_le {place : Nat} (h : events.length ≤ place) :
    ¬ Evicted events place := by
  rintro ⟨early, calls, hearly, hcalls, hplace, -⟩
  obtain ⟨x, hx, rfl⟩ := List.mem_map.1 hplace
  have hlt := (places_of_outstanding? hcalls).2 x hx
  have hle := hearly.length_le
  omega

namespace Recalls

theorem empty : Recalls [] .empty [] := ⟨List.prefix_rfl, nofun⟩

/-- A call is remembered, and may push out the oldest one. -/
theorem call {address : UInt64} (h : Recalls events s calls)
    (hcalls : outstanding? events = some calls) :
    Recalls (events ++ [.call address]) (s.push address) ((events.length, address) :: calls) := by
  have hnext := outstanding?_call hcalls address
  obtain ⟨hnew, hold⟩ := countP_cons_of_outstanding? hnext
  have hlength : (s.push address).addresses.length =
      min returnDepth (s.addresses.length + 1) := by
    rw [ReturnStack.push, List.length_take, List.length_cons]
  refine ⟨(List.take_prefix _ _).trans ((List.prefix_cons_inj _).2 h.latest), fun x hx => ?_⟩
  rw [evicted_concat hnext hx, hlength, not_or, Nat.not_lt]
  -- The new call stands alone, and every other one has one more above it.
  rcases List.mem_cons.1 hx with rfl | hx
  · rw [hnew]
    exact iff_of_true (Nat.le_min.2 ⟨returnDepth_pos, Nat.le_add_left _ _⟩)
      ⟨not_evicted_of_length_le (Nat.le_refl _), returnDepth_pos⟩
  · rw [hold x hx, ← h.kept x hx, Nat.le_min, Nat.add_le_add_iff_right, and_comm]

/-- A return takes the latest call, and the others stay what they are. -/
theorem ret (h : Recalls events s (x :: calls)) (hcalls : outstanding? events = some (x :: calls))
    {address : UInt64} (hs : s.addresses = address :: t.addresses) :
    Recalls (events ++ [.ret]) t calls := by
  have hnext := outstanding?_ret hcalls
  have hlatest := h.latest
  rw [hs, List.map_cons, List.cons_prefix_cons] at hlatest
  refine ⟨hlatest.2, fun y hy => ?_⟩
  have hkept := h.kept y (List.mem_cons_of_mem x hy)
  rw [(countP_cons_of_outstanding? hcalls).2 y hy, hs, List.length_cons,
    Nat.add_le_add_iff_right] at hkept
  -- What is left is not a full stack, so no call is one too many right now.
  have hle := t.length_le
  rw [evicted_concat hnext hy, not_or, ← hkept]
  omega

/-- The latest call is missing if and only if it was forgotten. -/
theorem pop?_eq_none_iff (h : Recalls events s (x :: calls))
    (hcalls : outstanding? events = some (x :: calls)) :
    s.pop? = none ↔ Evicted events x.1 := by
  have hkept := h.kept x List.mem_cons_self
  rw [(countP_cons_of_outstanding? hcalls).1] at hkept
  rw [ReturnStack.pop?_eq_none_iff, ← List.length_eq_zero_iff, ← not_iff_not, ← hkept]
  omega

/-- A return is led to the latest call. -/
theorem exists_of_pop? (h : Recalls events s calls) {address : UInt64}
    (hpop : s.pop? = some (address, t)) :
    ∃ place older, calls = (place, address) :: older := by
  have hlatest := h.latest
  rw [ReturnStack.pop?_eq_some_iff.1 hpop] at hlatest
  cases calls with
  | nil => cases List.prefix_nil.1 hlatest
  | cons x older =>
      rw [List.map_cons, List.cons_prefix_cons] at hlatest
      exact ⟨x.1, older, by rw [hlatest.1]⟩

end Recalls

/-- As long as the stack can answer there is also a stack that forgets nothing. -/
theorem ReturnStack.recalls_after? (h : ReturnStack.after? events = some s) :
    ∃ calls, outstanding? events = some calls ∧ Recalls events s calls := by
  induction events using List.reverseRecOn generalizing s with
  | nil =>
      cases h
      exact ⟨[], rfl, .empty⟩
  | append_singleton events e ih =>
      rw [after?_concat, Option.bind_eq_some_iff] at h
      obtain ⟨t, ht, h⟩ := h
      obtain ⟨calls, hcalls, hrecalls⟩ := ih ht
      cases e with
      | call address =>
          cases h
          exact ⟨_, outstanding?_call hcalls address, hrecalls.call hcalls⟩
      | ret =>
          obtain ⟨address, ht⟩ := act?_ret_eq_some_iff.1 h
          have hlatest := hrecalls.latest
          cases calls with
          | nil =>
              rw [ht] at hlatest
              cases List.prefix_nil.1 hlatest
          | cons x calls => exact ⟨calls, outstanding?_ret hcalls, hrecalls.ret hcalls ht⟩

/-- While no call is one too many nothing is forgotten. -/
theorem ReturnStack.addresses_after?
    (h : ∀ early calls, early <+: events → outstanding? early = some calls →
      calls.length ≤ returnDepth) :
    (after? events).map (·.addresses) = (outstanding? events).map (·.map (·.2)) := by
  induction events using List.reverseRecOn with
  | nil => rfl
  | append_singleton events e ih =>
      have ih := ih fun early calls hearly =>
        h early calls (hearly.trans (List.prefix_append _ _))
      rw [after?_concat]
      cases hcalls : outstanding? events with
      | none =>
          rw [hcalls, Option.map_none, Option.map_eq_none_iff] at ih
          rw [outstanding?_concat, hcalls, ih]
          rfl
      | some calls =>
          rw [hcalls, Option.map_some, Option.map_eq_some_iff] at ih
          obtain ⟨s, hs, haddresses⟩ := ih
          rw [hs, Option.bind_some]
          cases e with
          | call address =>
              have hnext := outstanding?_call hcalls address
              have hlength : calls.length < returnDepth := h _ _ List.prefix_rfl hnext
              have hroom : s.addresses.length < returnDepth := by rwa [haddresses, List.length_map]
              rw [hnext, act?, Option.map_some, addresses_push_of_lt hroom, haddresses]
              rfl
          | ret =>
              cases calls with
              | nil =>
                  rw [outstanding?_concat, hcalls, act?, pop?_eq_none_iff.2 haddresses]
                  rfl
              | cons x calls =>
                  obtain ⟨t, hpop, ht⟩ := pop?_of_cons haddresses
                  rw [outstanding?_ret hcalls, act?, hpop, Option.map_some, Option.map_some, ht]
                  rfl

end

namespace ReturnStack

/-- **The stack of returns never gives a wrong address.**  Behind whatever calls and returns it
could answer, it has the latest of the calls that are outstanding.  So a return that it answers goes
to the call that a stack without bound has on top, and it cannot answer if and only if there is none
or that call was forgotten.  If there are never more than `returnDepth` calls outstanding, both
stacks are the same throughout. -/
theorem pop?_after (events : List CallEvent) :
    (∀ s, after? events = some s → ∃ calls, outstanding? events = some calls ∧
        s.addresses <+: calls.map (·.2) ∧
        (∀ address t, s.pop? = some (address, t) →
          ∃ place older, calls = (place, address) :: older ∧ ¬ Evicted events place) ∧
        (s.pop? = none ↔ ∀ x older, calls = x :: older → Evicted events x.1)) ∧
      ((∀ early calls, early <+: events → outstanding? early = some calls →
          calls.length ≤ returnDepth) →
        (after? events).map (·.addresses) = (outstanding? events).map (·.map (·.2))) := by
  refine ⟨fun s hs => ?_, addresses_after?⟩
  obtain ⟨calls, hcalls, hrecalls⟩ := recalls_after? hs
  refine ⟨calls, hcalls, hrecalls.latest, fun address t hpop => ?_, ?_⟩
  · obtain ⟨place, older, rfl⟩ := hrecalls.exists_of_pop? hpop
    refine ⟨place, older, rfl, fun hevicted => ?_⟩
    rw [(hrecalls.pop?_eq_none_iff hcalls).2 hevicted] at hpop
    cases hpop
  · cases calls with
    | nil =>
        have hnil : s.addresses = [] := List.prefix_nil.1 hrecalls.latest
        exact iff_of_true (pop?_eq_none_iff.2 hnil) nofun
    | cons x older =>
        rw [hrecalls.pop?_eq_none_iff hcalls]
        exact ⟨fun h y _ hy => (List.cons.inj hy).1 ▸ h, fun h => h x older rfl⟩

/-- With one call more than are remembered, the last return misses the first call. -/
example :
    let events : List CallEvent := .replicate 65 (.call 0x1000) ++ .replicate 64 .ret
    (after? events).map (·.addresses) = some [] ∧ outstanding? events = some [(0, 0x1000)] := by
  decide +kernel

end ReturnStack

/-! ## What the walk does with the stack -/

namespace Cursor

variable {c d : Cursor} {k : Nat}

/-- An outcome stands for the return: one is open, or the next packet to matter has some. -/
def returnsByOutcome (c : Cursor) : Bool :=
  match c.flow.tnt with
  | _ :: _ => true
  | [] =>
    match nextBranch c with
    | .ok (some .tnt) _ => true
    | _ => false

/-- What moving on from an instruction does to the calls. -/
def callEvent? (p : Pending) (c : Cursor) : Option CallEvent :=
  match p.flow with
  | .call _ | .indirectCall => some (.call p.fallThrough)
  | .ret => if c.returnsByOutcome then some .ret else none
  | _ => none

/-- What the next step does to the calls. -/
def nextCallEvent? (c : Cursor) : Option CallEvent :=
  c.flow.pending.bind fun p => callEvent? p (c.withPending none)

/-- The calls and returns on the way to item number `k`. -/
def callEvents (c : Cursor) (k : Nat) : List CallEvent :=
  (List.range k).filterMap fun i => (c.after i).nextCallEvent?

/-- The stack of `d` is that of `c` behind an event, if there is one. -/
def Remembers (c : Cursor) (e : Option CallEvent) (d : Cursor) : Prop :=
  e.elim (some c.flow.returns) c.flow.returns.act? = some d.flow.returns

theorem Remembers.of_eq (h : d.flow.returns = c.flow.returns) : Remembers c none d :=
  congrArg some h.symm

theorem nextBranch_frame {b : Option Branch} (h : nextBranch c = .ok b d) : Frame c d := by
  fun_induction nextBranch c with
  | case1 => cases h
  | case2 c d he => cases h; exact nextEvent_frame he
  | case3 c ip d he ih => exact (nextEvent_frame he).trans (ih h)
  | case4 c d he => cases h; exact nextEvent_frame he
  | case5 c ip d he => cases h; exact nextEvent_frame he
  | case6 c ip d he => cases h; exact nextEvent_frame he
  | case7 => cases h

theorem returns_of_takeTnt {b : Option Bool} (h : takeTnt c = .ok b d) :
    d.flow.returns = c.flow.returns := by
  have hpop {e : Cursor} (h : popTnt e = .ok b d) : d.flow.returns = e.flow.returns := by
    cases he : e.flow.tnt with
    | nil => rw [popTnt_nil he] at h; cases h; rfl
    | cons taken rest => rw [popTnt_cons he] at h; cases h; rfl
  cases hc : c.flow.tnt with
  | cons taken rest =>
      rw [takeTnt_cons hc] at h
      cases h
      rfl
  | nil =>
      rw [takeTnt_nil hc] at h
      rcases hb : nextBranch c with ⟨_ | _ | _, e⟩ | ⟨e, f⟩ <;> rw [hb] at h
      · cases h
        exact (nextBranch_frame hb).returns
      · exact (hpop h).trans (nextBranch_frame hb).returns
      · cases h
      · cases h

theorem returns_of_takeTarget {ip : Option (Option UInt64)} (h : takeTarget c = .ok ip d) :
    d.flow.returns = c.flow.returns := by
  cases hc : c.flow.tnt with
  | cons taken rest =>
      rw [takeTarget_cons hc] at h
      cases h
  | nil =>
      rw [takeTarget_nil hc] at h
      rcases hb : nextBranch c with ⟨_ | _ | _, e⟩ | ⟨e, f⟩ <;> rw [hb] at h
      · cases h
        exact (nextBranch_frame hb).returns
      · cases h
      · cases h
        exact (nextBranch_frame hb).returns
      · cases h

/-! ### A return -/

/-- The answer to a return for which an outcome stands, if the stack was `s`: the outcome is not
taken, the call is missing, or the return goes to the latest call. -/
def PopsFrom (s : ReturnStack) : Walked (Option (Option UInt64)) → Prop
  | .ok ip d => ∃ address, ip = some (some address) ∧ s.pop? = some (address, d.flow.returns)
  | .error e d => e = d.desync .takenReturn ∨ e = d.desync .matchingCall ∧ s.pop? = none

theorem compressedReturn_pops (c : Cursor) :
    PopsFrom c.flow.returns (returned (compressedReturn c)) := by
  rcases hc : c.flow.tnt with _ | ⟨_ | _, rest⟩
  · rw [compressedReturn_nil hc]
    exact .inl rfl
  · rw [compressedReturn_false hc]
    exact .inl rfl
  · rw [compressedReturn_true hc]
    rcases hpop : c.flow.returns.pop? with _ | ⟨address, returns⟩
    · exact .inr ⟨rfl, hpop⟩
    · exact ⟨address, rfl, hpop⟩

theorem takeReturn_pops (h : c.returnsByOutcome = true) :
    PopsFrom c.flow.returns (takeReturn c) := by
  unfold returnsByOutcome at h
  cases hc : c.flow.tnt with
  | cons taken rest =>
      rw [takeReturn_cons hc]
      exact compressedReturn_pops c
  | nil =>
      rw [hc] at h
      rcases hb : nextBranch c with ⟨_ | _ | _, e⟩ | ⟨e, f⟩ <;> rw [hb] at h
      · cases h
      · rw [takeReturn_nil hc, hb, ← (nextBranch_frame hb).returns]
        exact compressedReturn_pops e
      · cases h
      · cases h

/-- A return to an address that a packet names leaves the calls alone. -/
theorem returns_of_takeReturn {ip : Option (Option UInt64)} (h : takeReturn c = .ok ip d)
    (hout : c.returnsByOutcome = false) : d.flow.returns = c.flow.returns := by
  unfold returnsByOutcome at hout
  cases hc : c.flow.tnt with
  | cons taken rest =>
      rw [hc] at hout
      cases hout
  | nil =>
      rw [takeReturn_nil hc] at h
      rw [hc] at hout
      rcases hb : nextBranch c with ⟨_ | _ | _, e⟩ | ⟨e, f⟩ <;> rw [hb] at h hout
      · cases h
        exact (nextBranch_frame hb).returns
      · cases hout
      · cases h
        exact (nextBranch_frame hb).returns
      · cases h

/-! ### A step -/

/-- A call of either kind is remembered.  A return for which an outcome stands takes the latest
call; nothing else touches the calls. -/
theorem successor_remembers {p : Pending} {ip : Option (Option UInt64)}
    (h : successor p c = .ok ip d) : Remembers c (callEvent? p c) d := by
  unfold callEvent?
  rw [successor_eq] at h
  cases hflow : p.flow with
  | next => rw [hflow] at h; cases h; exact .of_eq rfl
  | jump target => rw [hflow] at h; cases h; exact .of_eq rfl
  | call target => rw [hflow] at h; cases h; exact rfl
  | conditional target =>
      rw [hflow] at h
      rcases htnt : takeTnt c with ⟨_ | taken, e⟩ | ⟨e, f⟩ <;> simp only [htnt] at h
      · cases h
        exact .of_eq (returns_of_takeTnt htnt)
      · cases h
        exact .of_eq (returns_of_takeTnt htnt)
      · cases h
  | ret =>
      rw [hflow] at h
      have h : takeReturn c = .ok ip d := h
      cases hout : c.returnsByOutcome with
      | false => exact .of_eq (returns_of_takeReturn h hout)
      | true =>
          have hpops := takeReturn_pops hout
          rw [h] at hpops
          obtain ⟨address, -, hpop⟩ := hpops
          exact ReturnStack.act?_ret_eq_some_iff.2 ⟨address, ReturnStack.pop?_eq_some_iff.1 hpop⟩
  | indirectCall =>
      rw [hflow] at h
      exact congrArg some (returns_of_takeTarget h).symm
  | indirectJump =>
      rw [hflow] at h
      exact .of_eq (returns_of_takeTarget h)
  | far =>
      rw [hflow] at h
      exact .of_eq (returns_of_takeTarget h)

theorem resolve_remembers {going : Bool} (h : resolve c = .ok going d) :
    Remembers c c.nextCallEvent? d := by
  unfold nextCallEvent?
  cases hp : c.flow.pending with
  | none =>
      rw [resolve_none hp] at h
      cases h
      exact .of_eq rfl
  | some p =>
      rw [resolve_some hp] at h
      rcases hs : successor p (c.withPending none) with ⟨_ | ip, e⟩ | ⟨e, f⟩ <;> rw [hs] at h <;>
        cases h
      · exact successor_remembers hs
      · have hremembers : Remembers (c.withPending none) _ e := successor_remembers hs
        exact hremembers

theorem returns_of_acquire (h : acquire c = .ok true d) : d.flow.returns = c.flow.returns := by
  fun_induction acquire c with
  | case1 => cases h
  | case2 => cases h
  | case3 c event e he ip hip =>
      cases h
      exact (nextEvent_frame he).returns
  | case4 c e _ he _ ih => exact (ih h).trans (nextEvent_frame he).returns
  | case5 c event e he _ _ _ ih => exact (ih h).trans (nextEvent_frame he).returns

theorem returns_of_asyncEvent {ip : UInt64} {found : Bool} (h : asyncEvent c ip = .ok found d) :
    d.flow.returns = c.flow.returns := by
  unfold asyncEvent at h
  split at h
  next =>
    split at h
    next => cases h
    next => cases h; rfl
    next =>
      split at h
      next => cases h
      next he =>
        cases h
        exact (nextEvent_frame he).returns
      next e he =>
        split at h
        next => cases h
        next event f hf =>
          cases h
          have hmove : (asyncTarget event f).flow.returns = f.flow.returns := by
            unfold asyncTarget
            split <;> rfl
          exact hmove.trans ((nextEvent_frame he).trans (nextEvent_frame hf)).returns
  next => cases h; rfl

theorem returns_of_locate {ip : Option UInt64} (h : locate c = .ok ip d) (hip : ip ≠ none) :
    d.flow.returns = c.flow.returns := by
  fun_induction locate c with
  | case1 => cases h
  | case2 => cases h; exact absurd rfl hip
  | case3 c _ e he ih => exact (ih h).trans (returns_of_acquire he)
  | case4 => cases h
  | case5 c _ _ e he => cases h; exact returns_of_asyncEvent he
  | case6 c _ _ e he ih => exact (ih h).trans (returns_of_asyncEvent he)

theorem next_remembers {r : InstructionRecord} (h : c.next.1 = some (.ok r)) :
    Remembers c c.nextCallEvent? c.next.2 := by
  obtain ⟨d, e, f, flow, hres, hloc, hfetch, -, -, hnext⟩ := next_emitted h
  have hreturns : c.next.2.flow.returns = d.flow.returns := by
    rw [hnext]
    show f.flow.returns = d.flow.returns
    rw [hfetch.flow_eq]
    have hlocated := returns_of_locate hloc (Option.some_ne_none _)
    exact hlocated
  unfold Remembers
  rw [hreturns]
  exact resolve_remembers hres

/-! ### The whole run -/

theorem callEvents_succ (c : Cursor) (k : Nat) :
    c.callEvents (k + 1) = c.callEvents k ++ (c.after k).nextCallEvent?.toList := by
  unfold callEvents
  rw [List.range_succ, List.filterMap_append]
  cases hevent : (c.after k).nextCallEvent? <;> simp [hevent]

/-- From nothing known on, the stack of the walk is that of its calls and returns. -/
theorem after?_callEvents (hf : Fresh c) (h : ∀ i < k, ∃ r, c.item i = some (.ok r)) :
    ReturnStack.after? (c.callEvents k) = some (c.after k).flow.returns := by
  induction k with
  | zero =>
      show some ReturnStack.empty = some c.flow.returns
      rw [hf.flow]
      rfl
  | succ k ih =>
      obtain ⟨r, hr⟩ := h k (Nat.lt_succ_self k)
      have hnext : Remembers (c.after k) (c.after k).nextCallEvent? (c.after (k + 1)) :=
        next_remembers hr
      rw [callEvents_succ]
      unfold Remembers at hnext
      cases hevent : (c.after k).nextCallEvent? with
      | none =>
          rw [hevent] at hnext
          rw [Option.toList_none, List.append_nil, ih fun i hi => h i (Nat.lt_succ_of_lt hi)]
          exact hnext
      | some e =>
          rw [hevent] at hnext
          rw [Option.toList_some, ReturnStack.after?_concat,
            ih fun i hi => h i (Nat.lt_succ_of_lt hi)]
          exact hnext

/-- **A return never goes to a wrong call.**  Take the walk from where nothing was known, up to a
return for which an outcome stands.  If the walk moves on, it goes to the latest call that is
outstanding on its way.  If it fails, the outcome was not taken, or there is no such call, or as
many later ones as are remembered have pushed it out. -/
theorem resolve_of_ret (hf : Fresh c) (h : ∀ i < k, ∃ r, c.item i = some (.ok r))
    (hret : (c.after k).nextCallEvent? = some .ret) :
    match resolve (c.after k) with
    | .ok going d => going = true ∧ ∃ place address older,
        outstanding? (c.callEvents k) = some ((place, address) :: older) ∧
        d.flow.ip = some address
    | .error e d => e = d.desync .takenReturn ∨ e = d.desync .matchingCall ∧
        ∀ x older, outstanding? (c.callEvents k) = some (x :: older) →
          Evicted (c.callEvents k) x.1 := by
  obtain ⟨calls, hcalls, hrecalls⟩ := ReturnStack.recalls_after? (after?_callEvents hf h)
  unfold nextCallEvent? at hret
  obtain ⟨p, hp, hevent⟩ := Option.bind_eq_some_iff.1 hret
  unfold callEvent? at hevent
  cases hflow : p.flow <;> simp only [hflow, reduceCtorEq] at hevent
  case call => cases hevent
  case indirectCall => cases hevent
  case ret =>
    rw [ite_eq_left_iff] at hevent
    have hout : ((c.after k).withPending none).returnsByOutcome = true := by
      by_contra hnone
      exact nomatch hevent hnone
    have hpops := takeReturn_pops hout
    have hsuccessor : successor p ((c.after k).withPending none) =
        takeReturn ((c.after k).withPending none) := by rw [successor_eq, hflow]
    rw [resolve_some hp, hsuccessor]
    generalize takeReturn ((c.after k).withPending none) = answer at hpops ⊢
    rcases answer with ⟨ip, d⟩ | ⟨e, d⟩
    · obtain ⟨address, rfl, hpop⟩ := hpops
      obtain ⟨place, older, rfl⟩ := hrecalls.exists_of_pop? hpop
      exact ⟨rfl, place, address, older, hcalls, rfl⟩
    · refine hpops.imp_right fun ⟨he, hpop⟩ => ⟨he, fun x older hx => ?_⟩
      rw [hcalls] at hx
      cases hx
      exact (hrecalls.pop?_eq_none_iff hcalls).1 hpop

end Cursor

end BranchWatch
