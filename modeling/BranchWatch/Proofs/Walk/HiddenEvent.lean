import BranchWatch.Proofs.Walk.StatusGroup
import BranchWatch.Proofs.Walk.Termination

/-!
# A group of status packets in front of an event

A walk that has come to an address looks ahead whether an asynchronous event is reported there.  It
looks past timing packets, but not past a group of status packets.  So a group hides the event in
front of whose report it stands (`Ahead.located`): the walk goes on at the source of the event, and
it cannot come further than to the first place where it reads a packet, which is the report
(`DeadEnd`).

This settles all places of a trace at which an address is known (`item_insertGroup`).  In front of
a packet that is read to move on from an instruction a group changes nothing; in front of a packet
that leads to the report of an event it brings in an error.  Only a group inside another one is left
out, which closes that one.
-/

namespace BranchWatch

namespace Cursor

variable {c d e f : Cursor} {a ip : UInt64} {p j k : Nat} {q : Packet} {payload : IpPayload}

/-- The packets that lead to the reports of asynchronous events, up to the next instruction: those
passed over where an address is known, and the first packet of the event. -/
def reports (c : Cursor) : List (Nat × Packet) :=
  match c.flow.ip with
  | none =>
    match _h : acquire c with
    | .ok true d => reports d
    | _ => []
  | some ip =>
    match _h : asyncEvent c ip with
    | .ok true d => c.reader.upTo (behind (nextEvent c)).reader.offset ++ reports d
    | _ => []
termination_by c.reader.rest.length
decreasing_by
  · exact acquire_lt ‹_›
  · exact asyncEvent_lt ‹_›

/-- The same for the next item. -/
def eventReports (c : Cursor) : List (Nat × Packet) :=
  if c.done then []
  else
    match resolve c with
    | .ok true d => d.reports
    | _ => []

/-- An event that is there was reported ahead. -/
theorem ahead_of_asyncEvent (h : asyncEvent c ip = .ok true d) :
    c.flow.tnt = [] ∧ ∃ payload, c.reader.firstFlowPacket = .ok (some (.ip .fup payload)) := by
  unfold asyncEvent at h
  split at h
  next hempty =>
    split at h
    next => cases h
    next => cases h
    next hahead =>
      obtain ⟨payload, hfirst, -⟩ := firstFlowPacket_of_asyncAhead hahead
      exact ⟨List.isEmpty_iff.1 hempty, payload, hfirst⟩
  next => cases h

/-- The reports are packets that are still to be read. -/
theorem mem_upTo_of_reports (h : (p, q) ∈ c.reports) : ∃ stop, (p, q) ∈ c.reader.upTo stop := by
  fun_induction reports c with
  | case1 c hip d hd ih =>
      obtain ⟨ps, hps⟩ := (acquire_follows c).reads hd
      obtain ⟨stop, hmem⟩ := ih h
      exact ⟨stop, hps.mem_upTo hmem⟩
  | case2 => cases h
  | case3 c ip hip d hd ih =>
      rcases List.mem_append.1 h with h | h
      · exact ⟨_, h⟩
      · obtain ⟨ps, hps⟩ := (asyncEvent_follows c ip).reads hd
        obtain ⟨stop, hmem⟩ := ih h
        exact ⟨stop, hps.mem_upTo hmem⟩
  | case4 => cases h

theorem offset_le_of_reports (h : (p, q) ∈ c.reports) : c.reader.offset ≤ p := by
  obtain ⟨stop, hmem⟩ := mem_upTo_of_reports h
  exact (PacketReader.offset_bounds_of_mem_upTo hmem).1

theorem mem_upTo_of_answers (h : (p, q) ∈ c.answers) : ∃ stop, (p, q) ∈ c.reader.upTo stop := by
  have hmem := h
  unfold answers at hmem
  rw [if_neg (Bool.eq_false_iff.1 (answers_bounds h).1)] at hmem
  exact ⟨_, hmem⟩

theorem mem_upTo_of_eventReports (h : (p, q) ∈ c.eventReports) :
    ∃ stop, (p, q) ∈ c.reader.upTo stop := by
  unfold eventReports at h
  split at h
  next => cases h
  next =>
    split at h
    next d hres =>
      obtain ⟨ps, hps⟩ := (resolve_follows c).reads hres
      obtain ⟨stop, hmem⟩ := mem_upTo_of_reports h
      exact ⟨stop, hps.mem_upTo hmem⟩
    next => cases h

/-! ## In front of the group -/

theorem Agree.exists_of_ok {α : Type} {R : Cursor → Cursor → Prop}
    {E : DecodeError → DecodeError → Prop} {r s : Walked α} {x : α} (h : Agree R E r s)
    (hr : r = .ok x c) : ∃ d, s = .ok x d ∧ R c d := by
  subst hr
  cases h with
  | ok x h => exact ⟨_, rfl, h⟩

/-- As long as the first walk does not come behind the place, both stay in front of it. -/
theorem Ahead.after (h : Ahead a p c d) (hok : ∀ k e, c.item k ≠ some (.error e))
    (hle : (c.after j).reader.offset ≤ p) :
    Ahead a p (c.after j) (d.after j) ∧ ∀ k < j, c.item k = d.item k := by
  -- An event that is looked for on the way is in front of the place, as the walk goes on behind it.
  have hclear {k : Nat} (hk : k < j) (hc : (c.after k).done = false) (e : Cursor)
      (hres : resolve (c.after k) = .ok true e) : (behind e.locate).reader.offset ≤ p := by
    have hnext : (c.after (k + 1)).reader = (behind (step (c.after k))).reader :=
      reader_next hc (hok k)
    rw [← step_reader hres, ← hnext]
    exact Nat.le_trans (offset_mono hok hk) hle
  have hboth {k : Nat} (hk : k ≤ j) : Alongside a p (c.after k) (d.after k) := by
    induction k with
    | zero => exact .inl h
    | succ k ih =>
        exact ((ih (Nat.le_of_succ_le hk)).next (hok k) fun hc e hres _ => hclear hk hc e hres).2
  refine ⟨(hboth (Nat.le_refl j)).ahead hle, fun k hk => ?_⟩
  exact ((hboth (Nat.le_of_lt hk)).next (hok k) fun hc e hres _ => hclear hk hc e hres).1

/-! ## The event is hidden -/

/-- If the report of an event is the first packet to matter and a group stands in front of it, then
the group comes first. -/
theorem Ahead.hidden (h : Ahead a p c d)
    (hfirst : c.reader.firstFlowPacket = .ok (some (.ip .fup payload)))
    (hlt : p < (behind (Cursor.nextEvent c)).reader.offset) :
    d.reader.firstFlowPacket = .ok (some .psb) ∧ c.inPsb = false := by
  rcases h.firstFlowPacket with ⟨q, hq, -, hle⟩ | ⟨hgroup, hin, -⟩
  · rw [hfirst] at hq
    cases hq
    exact absurd (hle .fup payload rfl) (Nat.not_le_of_lt hlt)
  · exact ⟨hgroup, hin⟩

/-- The report of an event is no answer to a branch. -/
theorem nextBranch_of_report (hfirst : c.reader.firstFlowPacket = .ok (some (.ip .fup payload)))
    (hin : c.inPsb = false) : ∃ e f, nextBranch c = .error e f := by
  induction hn : c.reader.rest.length using Nat.strongRecOn generalizing c with
  | ind m ih =>
      rw [PacketReader.firstFlowPacket_eq] at hfirst
      rcases hq : c.reader.peek with e | _ | ⟨q, n⟩ <;> rw [hq] at hfirst
      · cases hfirst
      · cases hfirst
      · rw [nextBranch_of_packet hq]
        cases htiming : q.isTiming with
        | true =>
            simp only [htiming, if_true] at hfirst
            rw [FlowState.event_of_isTiming htiming]
            exact ih _ (hn ▸ PacketReader.advance_rest_lt hq) hfirst
              ((inPsbAfter_of_isTiming htiming c.inPsb).trans hin) rfl
        | false =>
            simp only [htiming, Bool.false_eq_true, if_false] at hfirst
            cases hfirst
            rw [hin]
            exact ⟨_, _, rfl⟩

/-- From a place on, where a group may be open, no event is seen, and waiting for a branch fails. -/
structure DeadEnd (r : PacketReader) (inPsb : Bool) : Prop where
  ahead : r.firstFlowPacket = .ok (some .psb)
  branch {c : Cursor} : c.reader = r → c.inPsb = inPsb → ∃ e f, nextBranch c = .error e f

theorem Ahead.deadEnd (h : Ahead a p c d)
    (hfirst : c.reader.firstFlowPacket = .ok (some (.ip .fup payload)))
    (hlt : p < (behind (Cursor.nextEvent c)).reader.offset) : DeadEnd d.reader d.inPsb := by
  obtain ⟨hgroup, hin⟩ := h.hidden hfirst hlt
  refine ⟨hgroup, fun {g} hreader hinPsb => ?_⟩
  -- The same walk in front of the place in the window without the group.
  have hg : Ahead a p { g with reader := c.reader } g := by
    refine ⟨?_, ?_, h.absolute⟩
    · rw [h.eq] at hreader
      cases g
      cases hreader
      rfl
    · rw [h.eq] at hinPsb
      have hopen : g.inPsb = c.inPsb := hinPsb
      exact hopen ▸ h.meets
  have hbranch := Alongside.nextBranch (.inl hg)
  have hclosed : g.inPsb = false := by
    rw [hinPsb, h.eq]
    exact hin
  obtain ⟨err, f, herror⟩ :=
    nextBranch_of_report (c := { g with reader := c.reader }) hfirst hclosed
  rw [herror] at hbranch
  generalize nextBranch g = r at hbranch ⊢
  cases hbranch with
  | error => exact ⟨_, _, rfl⟩

theorem DeadEnd.asyncEvent (h : DeadEnd c.reader c.inPsb) (ip : UInt64) :
    Cursor.asyncEvent c ip = .ok false c := by
  have hahead : c.asyncAhead ip = .ok false := by
    unfold asyncAhead
    rw [h.ahead]
  unfold Cursor.asyncEvent
  rw [hahead]
  split <;> rfl

/-- The walk comes to the source of the event, and the event is not seen. -/
theorem Ahead.located (h : Ahead a p c d) (hp : (p, q) ∈ c.reports) :
    ∃ ip f, locate d = .ok (some ip) f ∧ f.flow.tnt = [] ∧ DeadEnd f.reader f.inPsb := by
  fun_induction reports c generalizing d with
  | case1 c hip e he ih =>
      have hd : d.flow.ip = none := by
        rw [h.eq]
        exact hip
      have hagree := (Ahead.simulation a p).toScoped.acquire h (by
        show Within (UpTo p) c.acquire
        rw [he]
        exact ⟨rfl, offset_le_of_reports hp⟩)
      obtain ⟨e', he', hahead⟩ := hagree.exists_of_ok he
      rw [locate_none hd, he']
      exact ih hahead hp
  | case2 => cases hp
  | case3 c ip hip e he ih =>
      have hd : d.flow.ip = some ip := by
        rw [h.eq]
        exact hip
      rw [locate_some hd]
      rcases List.mem_append.1 hp with hp | hp
      · obtain ⟨htnt, payload, hfirst⟩ := ahead_of_asyncEvent he
        have hdead := h.deadEnd hfirst (PacketReader.offset_bounds_of_mem_upTo hp).2
        rw [hdead.asyncEvent ip]
        refine ⟨ip, d, rfl, ?_, hdead⟩
        rw [h.eq]
        exact htnt
      · have hagree := (Ahead.simulation a p).toScoped.asyncEvent ip h (by
          show Within (UpTo p) (c.asyncEvent ip)
          rw [he]
          exact ⟨rfl, offset_le_of_reports hp⟩)
        obtain ⟨e', he', hahead⟩ := hagree.exists_of_ok he
        rw [he']
        exact ih hahead hp
  | case4 => cases hp

/-! ## No way out -/

/-- Nothing is read any more: the walk goes on from an instruction as far as it can on its own. -/
structure Blind (c : Cursor) : Prop where
  deadEnd : DeadEnd c.reader c.inPsb
  done : c.done = false
  tnt : c.flow.tnt = []
  pending : c.flow.pending ≠ none

/-- A step that has found an address either fails or goes on blindly. -/
theorem blind_of_located (hdone : c.done = false) (hres : resolve c = .ok true d)
    (hlocate : locate d = .ok (some ip) f) (htnt : f.flow.tnt = [])
    (hdead : DeadEnd f.reader f.inPsb) :
    (∃ e, c.next.1 = some (.error e)) ∨ (∃ r, c.next.1 = some (.ok r)) ∧ Blind c.next.2 := by
  obtain ⟨ps, hps⟩ := (resolve_follows c).reads hres
  obtain ⟨qs, hqs⟩ := (locate_follows d).reads hlocate
  have hf : f.done = false := (hps.trans hqs).done_eq.trans hdone
  have hstep := step_eq c
  rw [hres] at hstep
  simp only [hlocate] at hstep
  unfold next
  simp only [hdone, Bool.false_eq_true, if_false, hstep]
  by_cases hsteps : f.steps = maxSteps
  · rw [if_pos hsteps]
    exact .inl ⟨_, rfl⟩
  · rw [if_neg hsteps]
    have hfetch := fetch_outcome ip f.countStep
    generalize fetch ip f.countStep = r at hfetch
    rcases r with ⟨⟨record, flow⟩, g⟩ | ⟨e, g⟩
    · obtain ⟨hrefreshed, -⟩ := hfetch
      refine .inr ⟨⟨record, rfl⟩, ?_, ?_, ?_, nofun⟩
      · show DeadEnd g.reader g.inPsb
        rw [hrefreshed.reader_eq, hrefreshed.inPsb_eq]
        exact hdead
      · exact hrefreshed.done_eq.trans hf
      · show g.flow.tnt = []
        rw [hrefreshed.flow_eq]
        exact htnt
    · exact .inl ⟨e, rfl⟩

/-- An instruction that asks for nothing leads to one place. -/
theorem resolve_of_asked_eq_none {r : Pending} (hp : c.flow.pending = some r)
    (htnt : c.flow.tnt = []) (hasked : c.asked? = none) :
    ∃ ip d, resolve c = .ok true d ∧ Still c d ∧ d.flow.tnt = [] ∧ d.flow.ip = some ip := by
  unfold asked? asking at hasked
  rw [hp] at hasked
  rw [resolve_some hp, successor_eq]
  have hnil : (c.withPending none).flow.tnt = [] := htnt
  cases hflow : r.flow <;> simp only [hflow, hnil, List.isEmpty_nil, if_true] at hasked ⊢
  case next => exact ⟨_, _, rfl, .withFlow c rfl rfl, htnt, rfl⟩
  case jump => exact ⟨_, _, rfl, .withFlow c rfl rfl, htnt, rfl⟩
  case call => exact ⟨_, _, rfl, .withFlow c rfl rfl, htnt, rfl⟩
  all_goals cases hasked

theorem still_of_asked (hasked : d ∈ c.asked?) : Still c d := by
  unfold asked? at hasked
  cases hp : c.flow.pending with
  | none =>
      rw [hp] at hasked
      cases hasked
  | some r =>
      rw [hp] at hasked
      unfold asking at hasked
      simp only at hasked
      cases hempty : (c.withPending none).flow.tnt.isEmpty <;>
        cases hflow : r.flow <;> simp only [hflow, hempty] at hasked <;> cases hasked <;>
        exact .withFlow c rfl rfl

theorem Blind.next (h : Blind c) :
    (∃ e, c.next.1 = some (.error e)) ∨ (∃ r, c.next.1 = some (.ok r)) ∧ Blind c.next.2 := by
  obtain ⟨r, hp⟩ := Option.ne_none_iff_exists'.1 h.pending
  cases hasked : c.asked? with
  | some c' =>
      have hstill := still_of_asked hasked
      obtain ⟨e, f, herror⟩ := h.deadEnd.branch hstill.reader hstill.inPsb
      have hresolve := resolve_of_asked hasked
      rw [herror] at hresolve
      refine .inl ⟨e, ?_⟩
      unfold Cursor.next
      simp only [h.done, Bool.false_eq_true, if_false, step_eq, hresolve]
  | none =>
      obtain ⟨ip, d, hres, hstill, htnt, hip⟩ := resolve_of_asked_eq_none hp h.tnt hasked
      have hdead : DeadEnd d.reader d.inPsb := by
        rw [hstill.reader, hstill.inPsb]
        exact h.deadEnd
      have hlocate : locate d = .ok (some ip) d := by
        rw [locate_some hip, hdead.asyncEvent ip]
      exact blind_of_located h.done hres hlocate htnt hdead

/-- A blind walk comes to an error, since a window ends. -/
theorem Blind.exists_error (h : Blind c) {n : Nat} (hend : c.item n = none) :
    ∃ k e, c.item k = some (.error e) := by
  induction n generalizing c with
  | zero =>
      rcases h.next with ⟨e, he⟩ | ⟨⟨r, hr⟩, -⟩
      · exact ⟨0, e, he⟩
      · cases hr.symm.trans hend
  | succ n ih =>
      rcases h.next with ⟨e, he⟩ | ⟨-, hblind⟩
      · exact ⟨0, e, he⟩
      · obtain ⟨k, e, he⟩ := ih hblind (item_succ c n ▸ hend)
        exact ⟨k + 1, e, (item_succ c k).trans he⟩

/-- A group in front of the report of an event brings in an error. -/
theorem Ahead.exists_error (h : Ahead a p c d) (hok : ∀ k e, c.item k ≠ some (.error e))
    (hp : (p, q) ∈ (c.after j).eventReports) {n : Nat} (hend : d.item n = none) :
    (∀ k < j, c.item k = d.item k) ∧ ∃ k ≥ j, ∃ e, d.item k = some (.error e) := by
  unfold eventReports at hp
  cases hdone : (c.after j).done with
  | true =>
      rw [if_pos hdone] at hp
      cases hp
  | false =>
      simp only [hdone, Bool.false_eq_true, if_false] at hp
      rcases hres : Cursor.resolve (c.after j) with ⟨_ | _, e⟩ | ⟨err, e⟩ <;> rw [hres] at hp
      · cases hp
      · have hle : e.reader.offset ≤ p := offset_le_of_reports hp
        obtain ⟨ps, hps⟩ := (resolve_follows (c.after j)).reads hres
        obtain ⟨hahead, hitems⟩ := h.after hok (Nat.le_trans hps.offset_le hle)
        obtain ⟨e', hres', hboth⟩ := (Alongside.resolve (.inl hahead)).exists_of_ok hres
        obtain ⟨ip, f, hlocate, htnt, hdead⟩ := (hboth.ahead hle).located hp
        have hdone' : (d.after j).done = false := by
          rw [hahead.eq]
          exact hdone
        refine ⟨hitems, ?_⟩
        rcases blind_of_located hdone' hres' hlocate htnt hdead with ⟨err, herr⟩ | ⟨-, hblind⟩
        · exact ⟨j, Nat.le_refl j, err, herr⟩
        · -- The walk is blind from the next item on, and the items end.
          have hlast : (d.after (j + 1)).item n = none := by
            rw [← item_add]
            exact item_eq_none_of_le hend (Nat.le_add_left n (j + 1))
          obtain ⟨k, err, herr⟩ := Blind.exists_error hblind hlast
          exact ⟨j + 1 + k, by omega, err, (item_add d (j + 1) k).trans herr⟩
      · cases hp

/-! ## All places -/

/-- Take a window that starts with a synchronisation point, whose items are no errors and whose
addresses are understood without the ones before, and a place in it at which no group is open.  A
group of status packets that is inserted there leaves all items as they are if the packet at the
place is read to move on from an instruction.  It does not matter which address the group tells.  If
the packet leads to the report of an event, or is that report, the group hides the event, and an
error comes in. -/
theorem item_insertGroup {decoder : Decoder} {window : List UInt8} {rebuilt : Bool}
    (hstart : Packet.psbPattern <+: window)
    (hok : ∀ k e, (start decoder window rebuilt).item k ≠ some (.error e))
    (habs : (PacketReader.mkAt window 0).Absolute)
    (hclosed : openBehind false ((PacketReader.mkAt window 0).upTo p) = false) :
    ((p, q) ∈ ((start decoder window rebuilt).after j).answers →
      ∀ k, (start decoder (insertGroup ip p window) rebuilt).item k =
        (start decoder window rebuilt).item k) ∧
    ((p, q) ∈ ((start decoder window rebuilt).after j).eventReports →
      (∀ k < j, (start decoder (insertGroup ip p window) rebuilt).item k =
        (start decoder window rebuilt).item k) ∧
      ∃ k ≥ j, ∃ e, (start decoder (insertGroup ip p window) rebuilt).item k =
        some (.error e)) := by
  have hreader : (start decoder window rebuilt).reader = .mkAt window 0 := by
    rw [start_of_psbPattern hstart]
  have hahead (hmem : ∃ stop, (p, q) ∈
      ((start decoder window rebuilt).after j).reader.upTo stop) :
      Ahead ip p (start decoder window rebuilt)
        (start decoder (insertGroup ip p window) rebuilt) := by
    obtain ⟨stop, hmem⟩ := hmem
    exact ahead_start hstart habs (.of_mem (hreader ▸ mem_upTo_of_after hok hmem) hclosed)
  constructor
  · intro hp k
    exact ((hahead (mem_upTo_of_answers hp)).item_eq hok hp k).symm
  · intro hp
    obtain ⟨n, -, -, hend⟩ := exists_end_start decoder (insertGroup ip p window) rebuilt
    obtain ⟨hitems, herror⟩ := (hahead (mem_upTo_of_eventReports hp)).exists_error hok hp hend
    exact ⟨fun k hk => (hitems k hk).symm, herror⟩

/-- What has to be looked at to see that a run of `n` items has no errors. -/
theorem ne_error_of_all {n : Nat} (hall : ∀ k < n, (c.item k).all Except.toBool = true)
    (hend : c.item n = none) (k : Nat) (e : DecodeError) : c.item k ≠ some (.error e) := by
  intro h
  rcases Nat.lt_or_ge k n with hlt | hge
  · have hk := hall k hlt
    rw [h] at hk
    cases hk
  · rw [item_eq_none_of_le hend hge] at h
    cases h

theorem absolute_of_all {r : PacketReader}
    (h : (r.items.filterMap Except.toOption).all (fun x => x.2.isAbsolute) = true) :
    r.Absolute := by
  intro x hx
  exact List.all_eq_true.1 h x (List.mem_filterMap.2 ⟨.ok x, hx, rfl⟩)

/-- A return waits for its outcome, and before that an event is reported at the call. -/
theorem item_insertGroup_places :
    let code : Section :=
      ⟨0x1000, #[0x90, 0xe8, 5, 0, 0, 0, 0x74, 2, 0x0f, 5, 0x90, 0xc3], by decide, by decide⟩
    let image : Image := ⟨[code], List.pairwise_singleton _ _⟩
    let decoder : Decoder := { source := fun _ => .ok image, image := some image }
    let window := Packet.psbPattern ++ [0x02, 0x23] ++ Packet.ipBytes .pge .full 0x1000 ++
      Packet.ipBytes .fup .full 0x1001 ++ [0x01] ++ Packet.ipBytes .pge .full 0x1001 ++ [0x0c, 0x01]
    (46, .tnt [true, false]) ∈ ((start decoder window true).after 3).answers ∧
      (∀ k, (start decoder (insertGroup 0x100b 46 window) true).item k =
        (start decoder window true).item k) ∧
      (27, .ip .fup (.full 0x1001)) ∈ ((start decoder window true).after 1).eventReports ∧
      ∃ k ≥ 1, ∃ e, (start decoder (insertGroup 0x1001 27 window) true).item k =
        some (.error e) := by
  intro code image decoder window
  have hstart : Packet.psbPattern <+: window := by decide +kernel
  have hall : ∀ k < 5, ((start decoder window true).item k).all Except.toBool = true := by
    decide +kernel
  have hend : (start decoder window true).item 5 = none := by decide +kernel
  have habs : (PacketReader.mkAt window 0).Absolute := absolute_of_all (by decide +kernel)
  have hanswer : (46, .tnt [true, false]) ∈ ((start decoder window true).after 3).answers := by
    decide +kernel
  have hreport : (27, .ip .fup (.full 0x1001)) ∈
      ((start decoder window true).after 1).eventReports := by
    decide +kernel
  have hok := ne_error_of_all hall hend
  refine ⟨hanswer, ?_, hreport, ?_⟩
  · exact (item_insertGroup hstart hok habs (by decide +kernel)).1 hanswer
  · exact ((item_insertGroup hstart hok habs (by decide +kernel)).2 hreport).2

/-- An event is reported at the call, where execution stands, and a group that tells so comes right
before the report.  The call is walked through as if there were no event, and the report is taken
for the answer to the return. -/
theorem item_insertGroup_before_event :
    let code : Section :=
      ⟨0x1000, #[0x90, 0xe8, 5, 0, 0, 0, 0x74, 2, 0x0f, 5, 0x90, 0xc3], by decide, by decide⟩
    let image : Image := ⟨[code], List.pairwise_singleton _ _⟩
    let decoder : Decoder := { source := fun _ => .ok image, image := some image }
    let window := Packet.psbPattern ++ [0x02, 0x23] ++ Packet.ipBytes .pge .full 0x1000 ++
      Packet.ipBytes .fup .full 0x1001 ++ [0x01] ++ Packet.ipBytes .pge .full 0x1001 ++ [0x0c, 0x01]
    Packet.psbPattern <+: window ∧
      (∀ k e, (start decoder window true).item k ≠ some (.error e)) ∧
      (PacketReader.mkAt window 0).Absolute ∧
      openBehind false ((PacketReader.mkAt window 0).upTo 27) = false ∧
      (27, .ip .fup (.full 0x1001)) ∈ ((start decoder window true).after 1).eventReports ∧
      (start decoder window true).item 3 =
        some (.ok (.ofParts 0x1006 [0x74, 2] .bits64 .conditionalJump)) ∧
      (start decoder (insertGroup 0x1001 27 window) true).item 3 =
        some (.error (.desync 54 .branchPacket)) := by
  intro code image decoder window
  have hall : ∀ k < 5, ((start decoder window true).item k).all Except.toBool = true := by
    decide +kernel
  have hend : (start decoder window true).item 5 = none := by decide +kernel
  refine ⟨?_, ne_error_of_all hall hend, absolute_of_all ?_, ?_, ?_, ?_, ?_⟩
  · decide +kernel
  · decide +kernel
  · decide +kernel
  · decide +kernel
  · decide +kernel
  · decide +kernel

/-- A group inside another one closes it: the packet that tells where execution stands is then taken
for an event.  It is in front of that packet that the group has been inserted. -/
example :
    let code : Section :=
      ⟨0x1000, #[0x90, 0xe8, 5, 0, 0, 0, 0x74, 2, 0x0f, 5, 0x90, 0xc3], by decide, by decide⟩
    let image : Image := ⟨[code], List.pairwise_singleton _ _⟩
    let decoder : Decoder := { source := fun _ => .ok image, image := some image }
    let window := Packet.psbPattern ++ [0x02, 0x23] ++ Packet.ipBytes .pge .full 0x1006 ++
      statusGroup 0x1006 ++ [0x04, 0x01]
    Packet.psbPattern <+: window ∧
      (∀ k e, (start decoder window true).item k ≠ some (.error e)) ∧
      (PacketReader.mkAt window 0).Absolute ∧
      (43, .ip .fup (.full 0x1006)) ∈ ((start decoder window true).after 1).answers ∧
      (start decoder window true).item 1 =
        some (.ok (.ofParts 0x1008 [0x0f, 0x05] .bits64 .farTransfer)) ∧
      (start decoder (insertGroup 0x1006 43 window) true).item 1 =
        some (.error (.desync 70 .branchPacket)) := by
  intro code image decoder window
  have hall : ∀ k < 2, ((start decoder window true).item k).all Except.toBool = true := by
    decide +kernel
  have hend : (start decoder window true).item 2 = none := by decide +kernel
  refine ⟨?_, ne_error_of_all hall hend, absolute_of_all ?_, ?_, ?_, ?_⟩
  · decide +kernel
  · decide +kernel
  · decide +kernel
  · decide +kernel
  · decide +kernel

end Cursor

end BranchWatch
