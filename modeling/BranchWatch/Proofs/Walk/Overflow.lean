import BranchWatch.Proofs.Walk.Recovery

/-!
# After an overflow

An overflow makes the walk forget the path, and reading goes on with the next packet.  Of what was
read before only one thing is left: a synchronisation group that was open stays open.

* `Apart` relates two walks at the same place, of which the second one may stand inside a group
  while the first one does not.  A packet that tells the source of an event is then a status packet
  for the second walk only (`Apart.nextEvent`).
* This matters in one place.  Where the answer to a branch is awaited, the first walk fails at such
  a packet and the second one passes over it (`Apart.nextBranch`).  Everything else agrees, so the
  items do as long as the first walk does not fail like this (`Apart.item_eq`).
* `items_after_overflow` compares any two windows that are the same behind an overflow packet.

The exception is met (`not_items_after_overflow`).
-/

namespace BranchWatch

/-- Two decoders go on alike: they have the same code, read instructions alike, and their sources
will answer alike. -/
structure Decoder.Alike (d e : Decoder) : Prop where
  disassembler : d.disassembler = e.disassembler
  image : d.image = e.image
  answers : ∀ i, d.source (d.builds + i) = e.source (e.builds + i)

namespace Decoder.Alike

variable {d e : Decoder}

theorem symm (h : d.Alike e) : e.Alike d :=
  ⟨h.disassembler.symm, h.image.symm, fun i => (h.answers i).symm⟩

/-- Both sources give the same answer to the next request, and go on alike. -/
theorem rebuild (h : d.Alike e) : d.rebuild.1 = e.rebuild.1 ∧ d.rebuild.2.Alike e.rebuild.2 := by
  have hnow : d.source d.builds = e.source e.builds := h.answers 0
  have hlater : ∀ i, d.source (d.builds + 1 + i) = e.source (e.builds + 1 + i) := by
    intro i
    have hi := h.answers (1 + i)
    rwa [← Nat.add_assoc, ← Nat.add_assoc] at hi
  unfold Decoder.rebuild
  rw [hnow]
  cases e.source e.builds with
  | ok image => exact ⟨rfl, h.disassembler, rfl, hlater⟩
  | error cause => exact ⟨rfl, h.disassembler, h.image, hlater⟩

end Decoder.Alike

/-- Only what tells the source of an event depends on an open group. -/
theorem FlowState.event_of_ne_fup {p : Packet} (hp : ∀ payload, p ≠ .ip .fup payload)
    (s : FlowState) (inPsb inPsb' : Bool) (offset : Nat) :
    s.event inPsb offset p = s.event inPsb' offset p := by
  cases p with
  | ip kind payload =>
      have hkind : kind ≠ .fup := by
        rintro rfl
        exact hp payload rfl
      simp [event, hkind]
  | _ => rfl

/-- The bytes of an overflow packet. -/
def Packet.overflowBytes : List UInt8 := [0x02, 0xf3]

theorem Packet.parse_overflowBytes (rest : List UInt8) :
    parse (overflowBytes ++ rest) = .ok (some (.overflow, 2)) := rfl

namespace Cursor

variable {α : Type} {c d : Cursor} {differ : Bool}

/-- Two walks stand at the same place and know the same.  If `differ` says so, the second one may
stand inside a group while the first one does not. -/
structure Apart (differ : Bool) (c d : Cursor) : Prop where
  eq : d = { c with inPsb := d.inPsb, decoder := d.decoder }
  groups : c.inPsb = d.inPsb ∨ differ = true ∧ c.inPsb = false ∧ d.inPsb = true
  decoder : c.decoder.Alike d.decoder

/-- Two results agree, or the first walk found something else in front of it than the answer to a
branch, which can only be if the walks differ. -/
inductive AgreeOrStuck (differ : Bool) : Walked α → Walked α → Prop
  | agree {r s : Walked α} (h : Agree (Apart differ) (· = ·) r s) : AgreeOrStuck differ r s
  | stuck (hdiffer : differ = true) {offset : Nat} {f : Cursor} {s : Walked α} :
      AgreeOrStuck differ (.error (.desync offset .branchPacket) f) s

/-- Two walks read the same event, or one that only the second walk takes for a status. -/
inductive SameNews (differ : Bool) :
    Walked (Option FlowEvent) → Walked (Option FlowEvent) → Prop
  | same {r s : Walked (Option FlowEvent)} (h : Agree (Apart differ) (· = ·) r s) :
      SameNews differ r s
  | fup (hdiffer : differ = true) (ip : Option UInt64) {c d : Cursor} (h : Apart differ c d) :
      SameNews differ (.ok (some (.ip .fup ip)) c) (.ok (some (.status ip)) d)

namespace Apart

theorem kindred (differ : Bool) : Kindred (Apart differ) (· = ·) :=
  .ofFlow (fun h => by rw [h.eq]) (fun flow h => ⟨by rw [h.eq], h.groups, h.decoder⟩)
    fun expected h => by rw [h.eq]; rfl

theorem reader (h : Apart differ c d) : d.reader = c.reader := by rw [h.eq]

theorem flow (h : Apart differ c d) : d.flow = c.flow := by rw [h.eq]

/-- A packet that starts or ends a group does so for both walks. -/
theorem consume (h : Apart differ c d) (p : Packet) (n : Nat) :
    Apart differ (c.consume p n) (d.consume p n) := by
  refine ⟨by rw [h.eq]; rfl, ?_, h.decoder⟩
  cases p with
  | psb => exact .inl rfl
  | psbEnd => exact .inl rfl
  | _ => exact h.groups

/-- The events are the same but for one kind. -/
theorem nextEvent (h : Apart differ c d) : SameNews differ c.nextEvent d.nextEvent := by
  induction hn : c.reader.rest.length using Nat.strongRecOn generalizing c d with
  | ind n ih =>
      have hreader := h.reader
      have hflow := h.flow
      rcases hpeek : c.reader.peek with e | _ | ⟨p, k⟩
      · rw [nextEvent_of_fault hpeek, nextEvent_of_fault (hreader ▸ hpeek)]
        exact .same (.error rfl h)
      · rw [nextEvent_of_end hpeek, nextEvent_of_end (hreader ▸ hpeek)]
        exact .same (.ok none h)
      · have hp := h.consume p k
        have hd : d.reader.peek = .ok (some (p, k)) := hreader ▸ hpeek
        rw [nextEvent_of_packet hpeek, nextEvent_of_packet hd, hflow, hreader]
        by_cases hfup : ∃ payload, p = .ip .fup payload
        · obtain ⟨payload, rfl⟩ := hfup
          -- The flag decides what the packet means.
          rcases h.groups with hsame | ⟨hdiffer, hc, hd⟩
          · rw [← hsame]
            cases c.inPsb with
            | false => exact .same (.ok _ hp)
            | true => exact .same (.ok _ hp)
          · rw [hc, hd]
            exact .fup hdiffer _ hp
        · have hne : ∀ payload, p ≠ .ip .fup payload := fun payload he => hfup ⟨payload, he⟩
          rw [c.flow.event_of_ne_fup hne d.inPsb c.inPsb]
          rcases c.flow.event c.inPsb c.reader.offset p with e | _ | event
          · exact .same (.error rfl hp)
          · exact ih _ (hn ▸ PacketReader.advance_rest_lt hpeek) hp rfl
          · exact .same (.ok _ hp)

/-! ## Moving on from an instruction -/

/-- Where an answer is awaited, a status packet is passed over, and what tells the source of an
event is not the answer. -/
theorem nextBranch (h : Apart differ c d) : AgreeOrStuck differ c.nextBranch d.nextBranch := by
  induction hn : c.reader.rest.length using Nat.strongRecOn generalizing c d with
  | ind n ih =>
      have hnews := h.nextEvent
      rw [nextBranch_eq c, nextBranch_eq d]
      generalize hc : c.nextEvent = r at hnews ⊢
      generalize d.nextEvent = s at hnews ⊢
      rcases hnews with ⟨⟨e, h⟩ | ⟨rfl, h⟩⟩ | ⟨hdiffer, ip, h⟩
      · rcases e with _ | _ | ⟨kind, ip⟩ | ip
        · exact .agree (.ok _ h)
        · exact .agree (.ok _ h)
        · cases kind with
          | tip => exact .agree (.ok _ h)
          | pgd => exact .agree (.ok _ h)
          | _ => exact .agree (.error ((kindred differ).desync _ h) h)
        · exact ih _ (hn ▸ nextEvent_lt hc) h rfl
      · exact .agree (.error rfl h)
      · exact .stuck hdiffer

theorem resolve (h : Apart differ c d) : AgreeOrStuck differ (resolve c) (resolve d) := by
  by_cases hstuck : ∃ c' ∈ c.asked?, ∃ offset f,
      c'.nextBranch = .error (.desync offset .branchPacket) f ∧ differ = true
  · obtain ⟨c', hasked, offset, f, herror, hdiffer⟩ := hstuck
    have hresolve := resolve_of_asked hasked
    rw [herror] at hresolve
    rw [hresolve]
    exact .stuck hdiffer
  · refine .agree ((kindred differ).resolve (fun c' hasked d' h => ?_) h)
    have hbranch := h.nextBranch
    generalize hc : c'.nextBranch = r at hbranch ⊢
    generalize d'.nextBranch = s at hbranch ⊢
    cases hbranch with
    | agree h => exact h
    | stuck hdiffer => exact absurd ⟨c', hasked, _, _, hc, hdiffer⟩ hstuck

/-! ## Finding the next address -/

/-- For a walk that waits for a place, a status and the source of an event say the same. -/
theorem acquire (h : Apart differ c d) : Agree (Apart differ) (· = ·) c.acquire d.acquire := by
  induction hn : c.reader.rest.length using Nat.strongRecOn generalizing c d with
  | ind n ih =>
      have hnews := h.nextEvent
      rw [acquire_eq c, acquire_eq d]
      generalize hc : c.nextEvent = r at hnews ⊢
      generalize d.nextEvent = s at hnews ⊢
      have place {c d : Cursor} (ip : UInt64) (h : Apart differ c d) :
          Apart differ ((c.withIp (some ip)).withTnt []) ((d.withIp (some ip)).withTnt []) :=
        (kindred differ).withTnt [] ((kindred differ).withIp (some ip) h)
      rcases hnews with ⟨⟨_ | event, h⟩ | ⟨rfl, h⟩⟩ | ⟨hdiffer, ip, h⟩
      · exact .ok _ h
      · have hlt := nextEvent_lt hc
        simp only
        cases hres : resumption? event with
        | some ip => exact .ok _ (place ip h)
        | none =>
            rcases event with _ | ⟨kind, ip⟩ | ip
            · exact ih _ (hn ▸ hlt) ((kindred differ).withTnt [] h) rfl
            · exact ih _ (hn ▸ hlt) h rfl
            · exact ih _ (hn ▸ hlt) h rfl
      · exact .error rfl h
      · cases ip with
        | some ip => exact .ok _ (place ip h)
        | none => exact ih _ (hn ▸ nextEvent_lt hc) h rfl

/-- Whatever the first packet of an event is taken for, the second one is taken alike. -/
theorem asyncSecond (h : Apart differ c d) : Agree (Apart differ) (· = ·)
    (match c.nextEvent with
      | .error e f => .error e f
      | .ok event f => .ok true (Cursor.asyncTarget event f) : Walked Bool)
    (match d.nextEvent with
      | .error e f => .error e f
      | .ok event f => .ok true (Cursor.asyncTarget event f)) := by
  have hnews := h.nextEvent
  generalize c.nextEvent = r at hnews ⊢
  generalize d.nextEvent = s at hnews ⊢
  rcases hnews with ⟨⟨event, h⟩ | ⟨rfl, h⟩⟩ | ⟨hdiffer, ip, h⟩
  · exact .ok _ ((kindred differ).asyncTarget event h)
  · exact .error rfl h
  · exact .ok _ h

/-- Both packets of an event are taken alike. -/
theorem asyncEvent (h : Apart differ c d) (ip : UInt64) :
    Agree (Apart differ) (· = ·) (c.asyncEvent ip) (d.asyncEvent ip) := by
  have hflow := h.flow
  have hahead : d.asyncAhead ip = c.asyncAhead ip := by
    unfold asyncAhead
    rw [h.reader, hflow]
  unfold Cursor.asyncEvent
  rw [hahead, hflow]
  split
  · split
    · exact .error rfl h
    · exact .ok _ h
    · have hnews := h.nextEvent
      generalize Cursor.nextEvent c = r at hnews ⊢
      generalize Cursor.nextEvent d = s at hnews ⊢
      rcases hnews with ⟨⟨_ | event, h⟩ | ⟨rfl, h⟩⟩ | ⟨hdiffer, ip, h⟩
      · exact .ok _ h
      · exact asyncSecond h
      · exact .error rfl h
      · exact asyncSecond h
  · exact .ok _ h

theorem locate (h : Apart differ c d) : Agree (Apart differ) (· = ·) c.locate d.locate := by
  induction hn : c.reader.rest.length using Nat.strongRecOn generalizing c d with
  | ind n ih =>
      have hflow := h.flow
      cases hip : c.flow.ip with
      | none =>
          have hagree := h.acquire
          rw [locate_none hip, locate_none (hflow ▸ hip)]
          generalize hc : c.acquire = r at hagree ⊢
          generalize d.acquire = s at hagree ⊢
          rcases hagree with ⟨_ | _, h⟩ | ⟨rfl, h⟩
          · exact .ok _ h
          · exact ih _ (hn ▸ acquire_lt hc) h rfl
          · exact .error rfl h
      | some ip =>
          have hagree := h.asyncEvent ip
          rw [locate_some hip, locate_some (hflow ▸ hip)]
          generalize hc : c.asyncEvent ip = r at hagree ⊢
          generalize d.asyncEvent ip = s at hagree ⊢
          rcases hagree with ⟨_ | _, h⟩ | ⟨rfl, h⟩
          · exact .ok _ h
          · exact ih _ (hn ▸ asyncEvent_lt hc) h rfl
          · exact .error rfl h

/-! ## Items -/

theorem rebuild (h : Apart differ c d) : Apart differ c.rebuild d.rebuild :=
  ⟨by rw [h.eq]; rfl, h.groups, h.decoder.rebuild.2⟩

theorem readInstruction (h : Apart differ c d) (ip : UInt64) :
    d.readInstruction ip = c.readInstruction ip := by
  have hflow := h.flow
  unfold Cursor.readInstruction
  rw [hflow, h.decoder.image, h.decoder.disassembler]

theorem fetch (h : Apart differ c d) (ip : UInt64) :
    Agree (Apart differ) (· = ·) (fetch ip c) (fetch ip d) := by
  have hrebuilt : d.rebuilt = c.rebuilt := by rw [h.eq]
  have hsame := h.readInstruction ip
  cases hc : c.readInstruction ip with
  | ok found =>
      rw [fetch_of_ok hc, fetch_of_ok (hsame.trans hc)]
      exact .ok _ h
  | error e =>
      by_cases hmiss : ∃ missing, e = .noMap missing ∧ c.rebuilt = false
      · obtain ⟨missing, rfl, hfirst⟩ := hmiss
        rw [fetch_of_noMap hc hfirst, fetch_of_noMap (hsame.trans hc) (hrebuilt.trans hfirst),
          h.decoder.rebuild.1, h.rebuild.readInstruction ip]
        split
        · exact .error rfl h.rebuild
        · split
          · exact .ok _ h.rebuild
          · exact .error rfl h.rebuild
      · have hmiss : c.rebuilt = true ∨ ∀ missing, e ≠ .noMap missing := by
          cases hfirst : c.rebuilt with
          | true => exact .inl rfl
          | false => exact .inr fun missing he => hmiss ⟨missing, he, hfirst⟩
        rw [fetch_of_error hc hmiss, fetch_of_error (hsame.trans hc) (hrebuilt ▸ hmiss)]
        exact .error rfl h

theorem step (h : Apart differ c d) : AgreeOrStuck differ (step c) (step d) := by
  have hresolve := h.resolve
  generalize hc : Cursor.resolve c = r at hresolve
  generalize hd : Cursor.resolve d = s at hresolve
  cases hresolve with
  | agree hagree =>
      refine .agree ((kindred differ).step (fun h => by rw [h.eq]) ?_ (fun _ _ => rfl)
        (fun ip h => h.fetch ip) (hc ▸ hd ▸ hagree) fun _ h => h.locate)
      intro c d h
      exact ⟨by rw [h.eq]; rfl, h.groups, h.decoder⟩
  | stuck hdiffer =>
      rw [step_eq, hc]
      exact .stuck hdiffer

/-- Only behind an overflow a group stays open. -/
theorem recover (h : Apart differ c d) (e : DecodeError) :
    Apart differ (c.recover e) (d.recover e) := by
  rcases overflow_or_ne e with ⟨offset, rfl⟩ | he
  · exact ⟨by rw [h.eq]; rfl, h.groups, h.decoder⟩
  · have hfailing : d.failing e = c.failing e := by rw [h.eq]; rfl
    rw [recover_eq he, recover_eq he, hfailing, h.reader]
    split
    · exact ⟨by rw [h.eq], .inl rfl, h.decoder⟩
    · exact ⟨by rw [h.eq], .inl rfl, h.decoder⟩

/-- The next item is the same, or the first walk has no answer to a branch. -/
theorem next (h : Apart differ c d) :
    (c.next.1 = d.next.1 ∧ Apart differ c.next.2 d.next.2) ∨
      differ = true ∧ ∃ offset, c.next.1 = some (.error (.desync offset .branchPacket)) := by
  have hdone : d.done = c.done := by rw [h.eq]
  cases hc : c.done with
  | true =>
      rw [next_of_done hc, next_of_done (hdone.trans hc)]
      exact .inl ⟨rfl, h⟩
  | false =>
      have hstep := h.step
      unfold Cursor.next
      simp only [hdone.trans hc, hc, Bool.false_eq_true, if_false]
      generalize Cursor.step c = r at hstep ⊢
      generalize Cursor.step d = s at hstep ⊢
      cases hstep with
      | stuck hdiffer => exact .inr ⟨hdiffer, _, rfl⟩
      | agree h =>
          rcases h with ⟨_ | record, h⟩ | ⟨rfl, h⟩
          · exact .inl ⟨rfl, by rw [h.eq], h.groups, h.decoder⟩
          · exact .inl ⟨rfl, h⟩
          · exact .inl ⟨rfl, h.recover _⟩

theorem after (h : Apart differ c d) (k : Nat) :
    Apart differ (c.after k) (d.after k) ∨ differ = true ∧
      ∃ i < k, ∃ offset, c.item i = some (.error (.desync offset .branchPacket)) := by
  induction k with
  | zero => exact .inl h
  | succ k ih =>
      rcases ih with h | ⟨hdiffer, i, hi, hstuck⟩
      · rcases h.next with ⟨_, h⟩ | ⟨hdiffer, hstuck⟩
        · exact .inl h
        · exact .inr ⟨hdiffer, k, by omega, hstuck⟩
      · exact .inr ⟨hdiffer, i, by omega, hstuck⟩

/-- The items are the same, up to the first one at which the first walk has no answer to a
branch. -/
theorem item_eq (h : Apart differ c d) (k : Nat) :
    c.item k = d.item k ∨ differ = true ∧
      ∃ i ≤ k, ∃ offset, c.item i = some (.error (.desync offset .branchPacket)) := by
  rcases h.after k with h | ⟨hdiffer, i, hi, hstuck⟩
  · rcases h.next with ⟨hitem, _⟩ | ⟨hdiffer, hstuck⟩
    · exact .inl hitem
    · exact .inr ⟨hdiffer, k, by omega, hstuck⟩
  · exact .inr ⟨hdiffer, i, by omega, hstuck⟩

end Apart

/-! ## Two windows that end alike -/

/-- The reader stands directly behind the last packet that was read. -/
theorem Reads.offset_of_getLast? {ps : List (Nat × Packet)} {o : Nat} {p : Packet}
    (h : Reads c ps d) (hlast : ps.getLast? = some (o, p)) :
    ∃ n, Packet.parse (c.reader.buffer.drop o) = .ok (some (p, n)) ∧ d.reader.offset = o + n := by
  induction h with
  | still => cases hlast
  | @read c d q n ps hq h ih =>
      cases ps with
      | nil =>
          cases hlast
          cases h with
          | still h =>
              refine ⟨n, ?_, by rw [h.reader]; rfl⟩
              rw [← c.reader.rest_eq]
              exact PacketReader.parse_of_peek hq
      | cons x ps => exact ih (by rwa [List.getLast?_cons_cons] at hlast)

/-- Where an overflow is reported, the walk goes on behind its packet and knows nothing. -/
theorem after_overflow {k o : Nat} {rest : List UInt8} (h : c.item k = some (.error (.overflow o)))
    (hbytes : c.reader.buffer.drop o = Packet.overflowBytes ++ rest) :
    Fresh (c.after (k + 1)) ∧ (c.after (k + 1)).done = false ∧
      (c.after (k + 1)).lastOffset = o ∧ (c.after (k + 1)).reader.offset = o + 2 := by
  have hc := done_of_next_eq_some h
  have hcalled := next_called hc
  have hitem : (c.after k).next.1 = some (.error (.overflow o)) := h
  show Fresh (c.after k).next.2 ∧ (c.after k).next.2.done = false ∧
    (c.after k).next.2.lastOffset = o ∧ (c.after k).next.2.reader.offset = o + 2
  rw [hitem] at hcalled
  generalize (c.after k).reads = ps at hcalled
  generalize (c.after k).next.2 = d at hcalled ⊢
  cases hcalled with
  | @failed d _ _ hr hraised =>
      have hlast : ps.getLast? = some (o, .overflow) := hraised
      obtain ⟨n, hparse, hoffset⟩ := hr.offset_of_getLast? hlast
      have hparse' : Packet.parse (Packet.overflowBytes ++ rest) = .ok (some (.overflow, 2)) :=
        Packet.parse_overflowBytes rest
      rw [buffer_after, hbytes, hparse'] at hparse
      cases hparse
      refine ⟨fresh_recover d _, hr.done_eq.trans hc, ?_, hoffset⟩
      rcases hr.last with ⟨rfl, _⟩ | ⟨⟨p, hp⟩, _⟩
      · cases hlast
      · rw [hlast] at hp
        cases hp
        rfl
  | missed _ _ _ he => cases he

/-- On the way to an overflow no new image is asked for. -/
theorem decoder_after_overflow {k o : Nat} (h : c.item k = some (.error (.overflow o))) :
    (c.after (k + 1)).decoder = (c.after k).decoder := by
  have hcalled := next_called (done_of_next_eq_some h)
  have hitem : (c.after k).next.1 = some (.error (.overflow o)) := h
  show (c.after k).next.2.decoder = (c.after k).decoder
  rw [hitem] at hcalled
  generalize (c.after k).reads = ps at hcalled
  generalize (c.after k).next.2 = d at hcalled ⊢
  cases hcalled with
  | @failed d _ _ hr => exact hr.decoder_eq
  | missed _ _ _ he => cases he

theorem Item.shift_shift (m n : Nat) (i : Item) :
    Item.shift m (Item.shift n i) = Item.shift (n + m) i := by
  rcases i with (_ | e | _ | _ | _ | _ | _ | _) | r <;>
    simp [Item.shift, Except.mapError, DecodeError.shift, PacketError.shift, Nat.add_assoc]

/-- Two walks that know nothing and have the same bytes before them, one further on than the
other. -/
theorem shifted_of_fresh {front front' rest : List UInt8} {n m : Nat} (hc : Fresh c) (hd : Fresh d)
    (hn : front.length = front'.length + n) (hcbuffer : c.reader.buffer = front ++ rest)
    (hdbuffer : d.reader.buffer = front' ++ rest) (hcdone : c.done = false) (hddone : d.done = false)
    (hclast : c.lastOffset = front.length) (hdlast : d.lastOffset = front'.length)
    (hcoffset : c.reader.offset = front.length + m)
    (hdoffset : d.reader.offset = front'.length + m)
    (hmode : c.flow.mode = d.flow.mode) (hrebuilt : c.rebuilt = d.rebuilt) :
    Shifted n front'.length c { d with inPsb := c.inPsb, decoder := c.decoder } := by
  have hflow : c.flow = d.flow := by
    rw [hc.flow, hd.flow]
    unfold FlowState.reset
    rw [hmode]
  refine ⟨?_, ?_, ?_, ?_, ?_, ?_, ?_, ?_, rfl, ?_, rfl, hrebuilt⟩
  · intro o ho
    show c.reader.buffer.drop (o + n) = d.reader.buffer.drop o
    have hfront : front.drop (o + n) = [] := List.drop_eq_nil_of_le (by omega)
    have hfront' : front'.drop o = [] := List.drop_eq_nil_of_le ho
    rw [hcbuffer, hdbuffer, List.drop_append, List.drop_append, hfront, hfront', hn,
      Nat.add_sub_add_right]
  · show front'.length ≤ d.reader.offset
    omega
  · show front'.length ≤ d.lastOffset + 1
    omega
  · show c.reader.offset = d.reader.offset + n
    omega
  · show c.flow.Alike d.flow
    exact hflow ▸ .refl _
  · exact .inl (congrArg (·.lastIp) hflow)
  · show c.lastOffset = d.lastOffset + n
    omega
  · exact hc.steps.trans hd.steps.symm
  · exact hcdone.trans hddone.symm

/-- The first walk stands outside a group and the second one inside, and up to the item number `j`
the first one has found something else in front of it than the answer to a branch. -/
def StuckOutside (c d : Cursor) (j : Nat) : Prop :=
  c.inPsb = false ∧ d.inPsb = true ∧
    ∃ i ≤ j, ∃ offset, c.item i = some (.error (.desync offset .branchPacket))

/-- Two walks at the same bytes, the first one further on in its window. -/
theorem item_eq_or_stuckOutside {n base : Nat}
    (h : Shifted n base c { d with inPsb := c.inPsb, decoder := c.decoder })
    (hdecoder : c.decoder.Alike d.decoder) (j : Nat) :
    c.item j = (d.item j).map (Item.shift n) ∨ StuckOutside c d j ∨ StuckOutside d c j := by
  generalize hf : ({ d with inPsb := c.inPsb, decoder := c.decoder } : Cursor) = f at h
  have hitem := h.item_eq
  have hd : d = { f with inPsb := d.inPsb, decoder := d.decoder } := by rw [← hf]
  have hfd : f = { d with inPsb := f.inPsb, decoder := f.decoder } := by rw [← hf]
  have hgroup : f.inPsb = c.inPsb := h.inPsb.symm
  have hdf : d.decoder.Alike f.decoder := h.decoder ▸ hdecoder.symm
  rcases hcin : c.inPsb with _ | _ <;> rcases hdin : d.inPsb with _ | _
  · have happart : Apart false f d := ⟨hd, .inl (by rw [hgroup, hcin, hdin]), hdf.symm⟩
    rcases happart.item_eq j with hsame | ⟨hdiffer, _⟩
    · exact .inl (by rw [hitem, hsame])
    · cases hdiffer
  · have happart : Apart true f d := ⟨hd, .inr ⟨rfl, hgroup.trans hcin, hdin⟩, hdf.symm⟩
    rcases happart.item_eq j with hsame | ⟨_, i, hi, offset, hstuck⟩
    · exact .inl (by rw [hitem, hsame])
    · exact .inr (.inl ⟨hcin, hdin, i, hi, offset + n, by rw [hitem, hstuck]; rfl⟩)
  · have happart : Apart true d f := ⟨hfd, .inr ⟨rfl, hdin, hgroup.trans hcin⟩, hdf⟩
    rcases happart.item_eq j with hsame | ⟨_, hstuck⟩
    · exact .inl (by rw [hitem, hsame])
    · exact .inr (.inr ⟨hdin, hcin, hstuck⟩)
  · have happart : Apart false f d := ⟨hd, .inl (by rw [hgroup, hcin, hdin]), hdf.symm⟩
    rcases happart.item_eq j with hsame | ⟨hdiffer, _⟩
    · exact .inl (by rw [hitem, hsame])
    · cases hdiffer

/-- The items behind an overflow packet, as far as the packets before it may count. -/
theorem item_eq_of_after_overflow {front front' rest : List UInt8} {k k' : Nat}
    (hc : c.reader.buffer = front ++ (Packet.overflowBytes ++ rest))
    (hd : d.reader.buffer = front' ++ (Packet.overflowBytes ++ rest))
    (hle : front'.length ≤ front.length)
    (hk : c.item k = some (.error (.overflow front.length)))
    (hk' : d.item k' = some (.error (.overflow front'.length)))
    (hmode : (c.after (k + 1)).flow.mode = (d.after (k' + 1)).flow.mode)
    (hdecoder : (c.after (k + 1)).decoder.Alike (d.after (k' + 1)).decoder)
    (hrebuilt : (c.after (k + 1)).rebuilt = (d.after (k' + 1)).rebuilt) (j : Nat) :
    (c.item (k + 1 + j)).map (Item.shift front'.length) =
        (d.item (k' + 1 + j)).map (Item.shift front.length) ∨
      StuckOutside (c.after (k + 1)) (d.after (k' + 1)) j ∨
      StuckOutside (d.after (k' + 1)) (c.after (k + 1)) j := by
  obtain ⟨n, hn⟩ := Nat.exists_eq_add_of_le hle
  have hbytes : c.reader.buffer.drop front.length = Packet.overflowBytes ++ rest := by
    rw [hc, List.drop_left]
  have hbytes' : d.reader.buffer.drop front'.length = Packet.overflowBytes ++ rest := by
    rw [hd, List.drop_left]
  obtain ⟨hfresh, hdone, hlast, hoffset⟩ := after_overflow hk hbytes
  obtain ⟨hfresh', hdone', hlast', hoffset'⟩ := after_overflow hk' hbytes'
  have hshifted := shifted_of_fresh hfresh hfresh' hn ((buffer_after c _).trans hc)
    ((buffer_after d _).trans hd) hdone hdone' hlast hlast' hoffset hoffset' hmode hrebuilt
  refine (item_eq_or_stuckOutside hshifted hdecoder j).imp_left fun hitem => ?_
  rw [item_add, item_add, hitem, Option.map_map]
  congr 1
  funext i
  rw [hn, Nat.add_comm front'.length n]
  exact Item.shift_shift _ _ i

/-- Take two windows that are the same from an overflow packet on, both decoded up to the report of
this overflow, in the same mode, with the same code and with sources that will answer alike.  Then
the items that follow are the same up to the offsets in errors, whatever came before.

There is one exception: if one of the walks came to the packet inside a synchronisation group and
the other one did not, they agree until the other one fails because it finds something else than the
answer to a branch. -/
theorem items_after_overflow (decoder decoder' : Decoder) (front front' rest : List UInt8)
    (rebuilt rebuilt' : Bool) (k k' : Nat) :
    let c := start decoder (front ++ (Packet.overflowBytes ++ rest)) rebuilt
    let d := start decoder' (front' ++ (Packet.overflowBytes ++ rest)) rebuilt'
    c.item k = some (.error (.overflow front.length)) →
    d.item k' = some (.error (.overflow front'.length)) →
    (c.after (k + 1)).flow.mode = (d.after (k' + 1)).flow.mode →
    (c.after (k + 1)).decoder.Alike (d.after (k' + 1)).decoder →
    (c.after (k + 1)).rebuilt = (d.after (k' + 1)).rebuilt →
    ∀ j, (c.item (k + 1 + j)).map (Item.shift front'.length) =
        (d.item (k' + 1 + j)).map (Item.shift front.length) ∨
      StuckOutside (c.after (k + 1)) (d.after (k' + 1)) j ∨
      StuckOutside (d.after (k' + 1)) (c.after (k + 1)) j := by
  intro c d hk hk' hmode hdecoder hrebuilt j
  rcases Nat.le_total front'.length front.length with hle | hle
  · exact item_eq_of_after_overflow rfl rfl hle hk hk' hmode hdecoder hrebuilt j
  · have hswapped := item_eq_of_after_overflow (c := d) (d := c) rfl rfl hle hk' hk hmode.symm
      hdecoder.symm hrebuilt.symm j
    rcases hswapped with hitem | hstuck | hstuck
    · exact .inl hitem.symm
    · exact .inr (.inr hstuck)
    · exact .inr (.inl hstuck)

/-- An outcome read before the overflow is not the answer to a branch behind it. -/
theorem items_after_overflow_forget_outcome :
    let code : Section := ⟨0x1000, #[0x90, 0x74, 2, 0x0f, 5, 0xc3], by decide, by decide⟩
    let image : Image := ⟨[code], List.pairwise_singleton _ _⟩
    let decoder : Decoder := { source := fun _ => .ok image, image := some image }
    let front := Packet.psbPattern ++ [0x02, 0x23, 0x06]
    let front' := Packet.psbPattern ++ [0x02, 0x23]
    let rest := [0xdd, 0x00, 0x10, 0, 0, 0, 0, 0, 0] ++ [0x04, 0x01]
    let c := start decoder (front ++ (Packet.overflowBytes ++ rest)) true
    let d := start decoder (front' ++ (Packet.overflowBytes ++ rest)) true
    ∀ j, (c.item (1 + j)).map (Item.shift front'.length) =
      (d.item (1 + j)).map (Item.shift front.length) := by
  intro code image decoder front front' rest c d j
  have hc : c.item 0 = some (.error (.overflow front.length)) := by decide +kernel
  have hd : d.item 0 = some (.error (.overflow front'.length)) := by decide +kernel
  have halike : (c.after 1).decoder.Alike (d.after 1).decoder := by
    rw [decoder_after_overflow hc, decoder_after_overflow hd]
    exact ⟨rfl, rfl, fun _ => rfl⟩
  have hmode : (c.after 1).flow.mode = (d.after 1).flow.mode := by decide +kernel
  have hrebuilt : (c.after 1).rebuilt = (d.after 1).rebuilt := by decide +kernel
  have houtside : (c.after 1).inPsb = false ∧ (d.after 1).inPsb = false := by decide +kernel
  rcases items_after_overflow decoder decoder front front' rest true true 0 0 hc hd hmode halike
    hrebuilt j with hitem | ⟨_, hinside, _⟩ | ⟨_, hinside, _⟩
  · exact hitem
  · exact absurd (houtside.2.symm.trans hinside) Bool.false_ne_true
  · exact absurd (houtside.1.symm.trans hinside) Bool.false_ne_true

/-- The same bytes behind an overflow, first with a closed group before it and then with an open
one.  Both walks take the jump at `0x1006` to be pending.  Outside the group the packet that names
`0x1000` is the source of an event and so no answer, inside it is passed over and the jump is not
taken. -/
theorem not_items_after_overflow :
    let code : Section :=
      ⟨0x1000, #[0x90, 0xe8, 5, 0, 0, 0, 0x74, 2, 0x0f, 5, 0x90, 0xc3], by decide, by decide⟩
    let image : Image := ⟨[code], List.pairwise_singleton _ _⟩
    let decoder : Decoder := { source := fun _ => .ok image, image := some image }
    let front := Packet.psbPattern ++ [0x02, 0x23]
    let front' := Packet.psbPattern
    let rest := [0xdd, 0x06, 0x10, 0, 0, 0, 0, 0, 0] ++ [0xdd, 0x00, 0x10, 0, 0, 0, 0, 0, 0] ++
      [0x04, 0x01]
    let c := start decoder (front ++ (Packet.overflowBytes ++ rest)) true
    let d := start decoder (front' ++ (Packet.overflowBytes ++ rest)) true
    c.item 0 = some (.error (.overflow front.length)) ∧
      d.item 0 = some (.error (.overflow front'.length)) ∧
      (c.after 1).flow.mode = (d.after 1).flow.mode ∧
      (c.after 1).decoder.Alike (d.after 1).decoder ∧
      (c.after 1).rebuilt = (d.after 1).rebuilt ∧
      c.item 2 = some (.error (.desync 29 .branchPacket)) ∧
      d.item 2 = some (.ok (.ofParts 0x1008 [0x0f, 5] .bits64 .farTransfer)) := by
  intro code image decoder front front' rest c d
  have hc : c.item 0 = some (.error (.overflow front.length)) := by decide +kernel
  have hd : d.item 0 = some (.error (.overflow front'.length)) := by decide +kernel
  have halike : (c.after 1).decoder.Alike (d.after 1).decoder := by
    rw [decoder_after_overflow hc, decoder_after_overflow hd]
    exact ⟨rfl, rfl, fun _ => rfl⟩
  refine ⟨hc, hd, ?_, halike, ?_, ?_, ?_⟩
  all_goals decide +kernel

end Cursor

end BranchWatch
