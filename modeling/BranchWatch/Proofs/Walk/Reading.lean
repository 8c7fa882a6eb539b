import BranchWatch.Proofs.Packet.Reader
import BranchWatch.Proofs.Walk.Equations

/-!
# The packets that are read on the way

Reading a packet (`Cursor.consume`) is the only thing in a step of the walk that moves the reader.
`Reads c ps d` says that from `c` to `d` exactly the packets `ps` are read, whatever else becomes of
the path.  Every part of a step that follows packets reads some of them and then gives a result, or an
error that says where it comes from (`Follows`).

The packets read are a matter of the two places alone: they are what lies between them
(`Reads.upTo_eq`).
-/

namespace BranchWatch

namespace PacketReader

/-- The packets from a place on that start before the offset `stop`, each with its offset. -/
def upTo (r : PacketReader) (stop : Nat) : List (Nat × Packet) :=
  if r.offset < stop then
    match _h : r.peek with
    | .ok (some (p, n)) => (r.offset, p) :: (r.advance n).upTo stop
    | _ => []
  else []
termination_by r.rest.length
decreasing_by exact advance_rest_lt ‹_›

theorem upTo_of_le {r : PacketReader} {stop : Nat} (h : stop ≤ r.offset) : r.upTo stop = [] := by
  unfold upTo
  rw [if_neg (Nat.not_lt.mpr h)]

theorem upTo_of_packet {r : PacketReader} {stop : Nat} {p : Packet} {n : Nat}
    (hp : r.peek = .ok (some (p, n))) (h : r.offset < stop) :
    r.upTo stop = (r.offset, p) :: (r.advance n).upTo stop := by
  conv => lhs; unfold upTo
  rw [if_pos h]
  split
  next h' => rw [hp] at h'; cases h'; rfl
  next hne => exact absurd hp (hne p n)

end PacketReader

theorem FlowState.event_eq_error {s : FlowState} {inPsb : Bool} {offset : Nat} {p : Packet}
    {e : DecodeError} (h : s.event inPsb offset p = .error e) :
    p = .overflow ∧ e = .overflow offset := by
  unfold FlowState.event at h
  split at h
  next => cases h; exact ⟨rfl, rfl⟩
  next => cases h
  next => cases h
  next => simp only at h; split at h <;> cases h
  next => cases h

namespace Cursor

variable {α β : Type}

/-- Two states agree in all that only reading a packet, fetching or an error changes. -/
structure Still (c d : Cursor) : Prop where
  reader : d.reader = c.reader
  lastOffset : d.lastOffset = c.lastOffset
  steps : d.steps = c.steps
  inPsb : d.inPsb = c.inPsb
  lastIp : d.flow.lastIp = c.flow.lastIp
  mode : d.flow.mode = c.flow.mode
  decoder : d.decoder = c.decoder
  rebuilt : d.rebuilt = c.rebuilt
  done : d.done = c.done

theorem Still.refl (c : Cursor) : Still c c :=
  ⟨rfl, rfl, rfl, rfl, rfl, rfl, rfl, rfl, rfl⟩

theorem Still.trans {c d e : Cursor} (h : Still c d) (h' : Still d e) : Still c e :=
  ⟨h'.reader.trans h.reader, h'.lastOffset.trans h.lastOffset, h'.steps.trans h.steps,
    h'.inPsb.trans h.inPsb, h'.lastIp.trans h.lastIp, h'.mode.trans h.mode,
    h'.decoder.trans h.decoder, h'.rebuilt.trans h.rebuilt, h'.done.trans h.done⟩

/-- Only the last address and the mode count among what is known about the path. -/
theorem Still.withFlow (c : Cursor) {flow : FlowState} (hlast : flow.lastIp = c.flow.lastIp)
    (hmode : flow.mode = c.flow.mode) : Still c { c with flow } :=
  ⟨rfl, rfl, rfl, rfl, hlast, hmode, rfl, rfl, rfl⟩

/-- `Reads c ps d`: from `c` to `d` exactly the packets `ps` are read. -/
inductive Reads : Cursor → List (Nat × Packet) → Cursor → Prop
  | still {c d : Cursor} (h : Still c d) : Reads c [] d
  | read {c d : Cursor} {p : Packet} {n : Nat} {ps : List (Nat × Packet)}
      (hp : c.reader.peek = .ok (some (p, n))) (h : Reads (c.consume p n) ps d) :
      Reads c ((c.reader.offset, p) :: ps) d

theorem Still.consume {c d : Cursor} (h : Still c d) (p : Packet) (n : Nat) :
    Still (c.consume p n) (d.consume p n) where
  reader := by simp only [Cursor.consume, h.reader]
  lastOffset := by simp only [Cursor.consume, h.reader]
  steps := rfl
  inPsb := by simp only [Cursor.consume, h.inPsb]
  lastIp := by
    cases p <;> simp only [Cursor.consume, FlowState.absorb, h.lastIp]
  mode := by
    cases p <;> simp only [Cursor.consume, FlowState.absorb, h.mode]
  decoder := h.decoder
  rebuilt := h.rebuilt
  done := h.done

theorem Reads.of_still {c d e : Cursor} {ps : List (Nat × Packet)} (h : Still c d)
    (hr : Reads d ps e) : Reads c ps e := by
  induction hr generalizing c with
  | still h' => exact .still (h.trans h')
  | read hp _ ih =>
      rw [h.reader] at hp ⊢
      exact .read hp (ih (h.consume _ _))

theorem Reads.trans {c d e : Cursor} {ps qs : List (Nat × Packet)} (h : Reads c ps d)
    (h' : Reads d qs e) : Reads c (ps ++ qs) e := by
  induction h with
  | still hs => exact h'.of_still hs
  | read hp _ ih => exact .read hp (ih h')

/-- Where the errors of following packets come from.  `ps` are the packets read before the error,
`d` is the state in which it arose. -/
def Raised (ps : List (Nat × Packet)) (d : Cursor) : DecodeError → Prop
  | .packet p => d.reader.offset ≤ p.offset
  | .desync offset _ => offset = d.lastOffset
  | .overflow offset => ps.getLast? = some (offset, .overflow)
  | _ => False

theorem Raised.append {ps qs : List (Nat × Packet)} {d : Cursor} {e : DecodeError}
    (h : Raised qs d e) : Raised (ps ++ qs) d e := by
  cases e with
  | overflow offset =>
      have hlast : qs.getLast? = some (offset, .overflow) := h
      show (ps ++ qs).getLast? = some (offset, .overflow)
      rw [List.getLast?_append, hlast]
      rfl
  | _ => exact h

/-- The outcome of following packets from `c`: reading some packets, and then a result or an error
that says where it comes from. -/
def Follows (c : Cursor) : Walked α → Prop
  | .ok _ d => ∃ ps, Reads c ps d
  | .error e d => ∃ ps, Reads c ps d ∧ Raised ps d e

theorem Follows.ok {c d : Cursor} {a : α} (h : Still c d) : Follows c (.ok a d : Walked α) :=
  ⟨[], .still h⟩

theorem Follows.desync (c : Cursor) (expected : Expected) :
    Follows c (.error (c.desync expected) c : Walked α) :=
  ⟨[], .still (.refl c), rfl⟩

theorem Follows.after {c d : Cursor} {ps : List (Nat × Packet)} {r : Walked α}
    (h : Reads c ps d) (hr : Follows d r) : Follows c r := by
  cases r with
  | ok a e =>
      obtain ⟨qs, hqs⟩ := hr
      exact ⟨ps ++ qs, h.trans hqs⟩
  | error err e =>
      obtain ⟨qs, hqs, hraised⟩ := hr
      exact ⟨ps ++ qs, h.trans hqs, hraised.append⟩

theorem nextEvent_follows (c : Cursor) : Follows c (nextEvent c) := by
  fun_induction nextEvent c with
  | case1 c e hp =>
      exact ⟨[], .still (.refl c), Nat.le_of_eq (PacketReader.offset_of_peek_eq_error hp).symm⟩
  | case2 c hp => exact .ok (.refl c)
  | case3 c p n hp e he =>
      obtain ⟨rfl, rfl⟩ := FlowState.event_eq_error he
      exact ⟨[(c.reader.offset, .overflow)], .read hp (.still (.refl _)), rfl⟩
  | case4 c p n hp event he => exact ⟨_, .read hp (.still (.refl _))⟩
  | case5 c p n hp he ih => exact .after (.read hp (.still (.refl _))) ih

theorem Follows.reads {c d : Cursor} {a : α} {r : Walked α} (h : Follows c r) (hr : r = .ok a d) :
    ∃ ps, Reads c ps d := by
  rw [hr] at h
  exact h

/-- An error of a part of a step is an error of the step. -/
theorem Follows.error {c d : Cursor} {e : DecodeError} {r : Walked α} (h : Follows c r)
    (hr : r = .error e d) : Follows c (.error e d : Walked β) := by
  rw [hr] at h
  exact h

theorem nextBranch_follows (c : Cursor) : Follows c (nextBranch c) := by
  fun_induction nextBranch c with
  | case1 c e d he => exact (nextEvent_follows c).error he
  | case2 c d he => exact (nextEvent_follows c).reads he
  | case3 c ip d he ih =>
      obtain ⟨ps, hps⟩ := (nextEvent_follows c).reads he
      exact .after hps ih
  | case4 c d he => exact (nextEvent_follows c).reads he
  | case5 c ip d he => exact (nextEvent_follows c).reads he
  | case6 c ip d he => exact (nextEvent_follows c).reads he
  | case7 c kind ip d hTip hPgd he =>
      obtain ⟨ps, hps⟩ := (nextEvent_follows c).reads he
      exact .after hps (.desync d .branchPacket)

theorem popTnt_follows (c : Cursor) : Follows c (popTnt c) := by
  cases h : c.flow.tnt with
  | nil =>
      rw [popTnt_nil h]
      exact .ok (.refl c)
  | cons taken rest =>
      rw [popTnt_cons h]
      exact .ok (.withFlow c rfl rfl)

theorem takeTnt_follows (c : Cursor) : Follows c (takeTnt c) := by
  cases h : c.flow.tnt with
  | cons taken rest =>
      rw [takeTnt_cons h]
      exact .ok (.withFlow c rfl rfl)
  | nil =>
      rw [takeTnt_nil h]
      have hb := nextBranch_follows c
      generalize nextBranch c = r at hb ⊢
      rcases r with ⟨_ | _ | _, d⟩ | ⟨e, d⟩
      · exact hb
      · obtain ⟨ps, hps⟩ := hb
        exact .after hps (popTnt_follows d)
      · obtain ⟨ps, hps⟩ := hb
        exact .after hps (.desync d .tntBit)
      · exact hb

theorem takeTarget_follows (c : Cursor) : Follows c (takeTarget c) := by
  cases h : c.flow.tnt with
  | cons taken rest =>
      rw [takeTarget_cons h]
      exact .desync c .tip
  | nil =>
      rw [takeTarget_nil h]
      have hb := nextBranch_follows c
      generalize nextBranch c = r at hb ⊢
      rcases r with ⟨_ | _ | _, d⟩ | ⟨e, d⟩
      · exact hb
      · obtain ⟨ps, hps⟩ := hb
        exact .after hps (.desync d .tip)
      · exact hb
      · exact hb

theorem compressedReturn_follows (c : Cursor) : Follows c (compressedReturn c) := by
  rcases h : c.flow.tnt with _ | ⟨_ | _, rest⟩
  · rw [compressedReturn_nil h]
    exact .desync c .takenReturn
  · rw [compressedReturn_false h]
    exact .after (d := c.withTnt rest) (.still (.withFlow c rfl rfl)) (.desync _ .takenReturn)
  · rw [compressedReturn_true h]
    cases c.flow.returns.pop? with
    | none =>
        exact .after (d := c.withTnt rest) (.still (.withFlow c rfl rfl)) (.desync _ .matchingCall)
    | some found => exact .ok (.withFlow c rfl rfl)

theorem takeReturn_follows (c : Cursor) : Follows c (takeReturn c) := by
  have ofReturn (d : Cursor) : Follows d (returned (compressedReturn d)) := by
    have hr := compressedReturn_follows d
    generalize compressedReturn d = r at hr ⊢
    cases r <;> exact hr
  cases h : c.flow.tnt with
  | cons taken rest =>
      rw [takeReturn_cons h]
      exact ofReturn c
  | nil =>
      rw [takeReturn_nil h]
      have hb := nextBranch_follows c
      generalize nextBranch c = r at hb ⊢
      rcases r with ⟨_ | _ | _, d⟩ | ⟨e, d⟩
      · exact hb
      · obtain ⟨ps, hps⟩ := hb
        exact .after hps (ofReturn d)
      · exact hb
      · exact hb

theorem successor_follows (p : Pending) (c : Cursor) : Follows c (successor p c) := by
  have pushed : Still c (c.withReturns (c.flow.returns.push p.fallThrough)) :=
    .withFlow c rfl rfl
  rw [successor_eq]
  cases p.flow with
  | next => exact .ok (.refl c)
  | jump target => exact .ok (.refl c)
  | call target => exact .ok pushed
  | conditional target =>
      have htnt := takeTnt_follows c
      generalize takeTnt c = r at htnt ⊢
      rcases r with ⟨_ | taken, d⟩ | ⟨e, d⟩
      · exact htnt
      · exact htnt
      · exact htnt
  | ret => exact takeReturn_follows c
  | indirectCall => exact .after (.still pushed) (takeTarget_follows _)
  | indirectJump => exact takeTarget_follows c
  | far => exact takeTarget_follows c

theorem resolve_follows (c : Cursor) : Follows c (resolve c) := by
  cases hp : c.flow.pending with
  | none =>
      rw [resolve_none hp]
      exact .ok (.refl c)
  | some p =>
      rw [resolve_some hp]
      have hs := successor_follows p (c.withPending none)
      refine Follows.after (d := c.withPending none) (.still (.withFlow c rfl rfl)) ?_
      generalize successor p (c.withPending none) = r at hs ⊢
      rcases r with ⟨_ | ip, d⟩ | ⟨e, d⟩
      · exact hs
      · obtain ⟨ps, hps⟩ := hs
        exact .after hps (.ok (.withFlow d rfl rfl))
      · exact hs

theorem acquire_follows (c : Cursor) : Follows c (acquire c) := by
  fun_induction acquire c with
  | case1 c e d he => exact (nextEvent_follows c).error he
  | case2 c d he => exact (nextEvent_follows c).reads he
  | case3 c event d he ip hip =>
      obtain ⟨ps, hps⟩ := (nextEvent_follows c).reads he
      exact .after hps (.ok (.withFlow d rfl rfl))
  | case4 c d _ he _ ih =>
      obtain ⟨ps, hps⟩ := (nextEvent_follows c).reads he
      exact .after hps (.after (d := d.withTnt []) (.still (.withFlow d rfl rfl)) ih)
  | case5 c event d he _ _ _ ih =>
      obtain ⟨ps, hps⟩ := (nextEvent_follows c).reads he
      exact .after hps ih

theorem asyncTarget_still (event : Option FlowEvent) (c : Cursor) :
    Still c (asyncTarget event c) := by
  unfold asyncTarget
  split
  · exact .withFlow c rfl rfl
  · exact .withFlow c rfl rfl
  · exact .withFlow c rfl rfl
  · exact .refl c

theorem asyncEvent_follows (c : Cursor) (ip : UInt64) : Follows c (asyncEvent c ip) := by
  unfold asyncEvent
  split
  · split
    · rename_i e he
      refine ⟨[], .still (.refl c), ?_⟩
      unfold asyncAhead at he
      split at he
      next h => cases he; exact PacketReader.offset_le_of_firstFlowPacket_eq_error h
      next => cases he
      next => cases he
    · exact .ok (.refl c)
    · split
      next he => exact (nextEvent_follows c).error he
      next he => exact (nextEvent_follows c).reads he
      next he =>
        obtain ⟨ps, hps⟩ := (nextEvent_follows c).reads he
        refine .after hps ?_
        split
        next hf => exact (nextEvent_follows _).error hf
        next event f hf =>
          obtain ⟨qs, hqs⟩ := (nextEvent_follows _).reads hf
          exact .after hqs (.ok (asyncTarget_still event f))
  · exact .ok (.refl c)

theorem locate_follows (c : Cursor) : Follows c (locate c) := by
  fun_induction locate c with
  | case1 c hip e d h => exact (acquire_follows c).error h
  | case2 c hip d h => exact (acquire_follows c).reads h
  | case3 c hip d h ih =>
      obtain ⟨ps, hps⟩ := (acquire_follows c).reads h
      exact .after hps ih
  | case4 c ip hip e d h => exact (asyncEvent_follows c ip).error h
  | case5 c ip hip d h => exact (asyncEvent_follows c ip).reads h
  | case6 c ip hip d h ih =>
      obtain ⟨ps, hps⟩ := (asyncEvent_follows c ip).reads h
      exact .after hps ih

/-! ## What reading leaves behind -/

section

variable {c d : Cursor} {ps : List (Nat × Packet)}

theorem Reads.buffer_eq (h : Reads c ps d) : d.reader.buffer = c.reader.buffer := by
  induction h with
  | still h => rw [h.reader]
  | read _ _ ih => exact ih

theorem Reads.done_eq (h : Reads c ps d) : d.done = c.done := by
  induction h with
  | still h => exact h.done
  | read _ _ ih => exact ih

theorem Reads.decoder_eq (h : Reads c ps d) : d.decoder = c.decoder := by
  induction h with
  | still h => exact h.decoder
  | read _ _ ih => exact ih

theorem Reads.rebuilt_eq (h : Reads c ps d) : d.rebuilt = c.rebuilt := by
  induction h with
  | still h => exact h.rebuilt
  | read _ _ ih => exact ih

theorem Reads.offset_le (h : Reads c ps d) : c.reader.offset ≤ d.reader.offset := by
  induction h with
  | still h => exact Nat.le_of_eq (by rw [h.reader])
  | read _ _ ih => exact Nat.le_trans (Nat.le_add_right _ _) ih

/-- The packets read are those between the two places. -/
theorem Reads.upTo_eq (h : Reads c ps d) : c.reader.upTo d.reader.offset = ps := by
  induction h with
  | still h => exact PacketReader.upTo_of_le (Nat.le_of_eq (by rw [h.reader]))
  | @read c d p n ps hp h ih =>
      have hpos := (PacketReader.offset_add_le_of_peek hp).1
      have hle : c.reader.offset + n ≤ d.reader.offset := h.offset_le
      rw [PacketReader.upTo_of_packet hp (by omega)]
      exact congrArg ((c.reader.offset, p) :: ·) ih

/-- Each packet read starts at or behind the first place and before the second one, and inside the
window. -/
theorem Reads.offset_bounds (h : Reads c ps d) {x : Nat × Packet} (hx : x ∈ ps) :
    c.reader.offset ≤ x.1 ∧ x.1 < d.reader.offset ∧ x.1 < c.reader.buffer.length := by
  induction h with
  | still => cases hx
  | @read c d p n ps hp h ih =>
      obtain ⟨hpos, hlen⟩ := PacketReader.offset_add_le_of_peek hp
      have hle : c.reader.offset + n ≤ d.reader.offset := h.offset_le
      rcases List.mem_cons.1 hx with rfl | hx
      · exact ⟨Nat.le_refl _, by omega, by omega⟩
      · obtain ⟨hfrom, hto, hin⟩ := ih hx
        have hfrom : c.reader.offset + n ≤ x.1 := hfrom
        exact ⟨by omega, hto, hin⟩

/-- Each packet read stands in the window. -/
theorem Reads.parse_drop (h : Reads c ps d) {x : Nat × Packet} (hx : x ∈ ps) :
    ∃ n, Packet.parse (c.reader.buffer.drop x.1) = .ok (some (x.2, n)) := by
  induction h with
  | still => cases hx
  | @read c d p n ps hp h ih =>
      rcases List.mem_cons.1 hx with rfl | hx
      · rw [← c.reader.rest_eq]
        exact ⟨n, PacketReader.parse_of_peek hp⟩
      · exact ih hx

theorem Reads.pairwise_offset (h : Reads c ps d) : (ps.map (·.1)).Pairwise (· < ·) := by
  induction h with
  | still => exact .nil
  | @read c d p n ps hp h ih =>
      have hpos := (PacketReader.offset_add_le_of_peek hp).1
      refine List.pairwise_cons.2 ⟨fun o ho => ?_, ih⟩
      obtain ⟨x, hx, rfl⟩ := List.mem_map.1 ho
      have hfrom : c.reader.offset + n ≤ x.1 := (h.offset_bounds hx).1
      show c.reader.offset < x.1
      omega

/-- The last packet read sets the offset that errors refer to, and the count of steps starts
again. -/
theorem Reads.last (h : Reads c ps d) :
    (ps = [] ∧ d.lastOffset = c.lastOffset ∧ d.steps = c.steps) ∨
      (∃ p, ps.getLast? = some (d.lastOffset, p)) ∧ d.steps = 0 ∧
        d.lastOffset < d.reader.offset := by
  -- Induction on the packets: if later ones are read, the last of them counts.
  induction h with
  | still h => exact .inl ⟨rfl, h.lastOffset, h.steps⟩
  | @read c d p n ps hp h ih =>
      have hpos := (PacketReader.offset_add_le_of_peek hp).1
      have hle : c.reader.offset + n ≤ d.reader.offset := h.offset_le
      right
      rcases ih with ⟨rfl, hlast, hsteps⟩ | ⟨⟨q, hq⟩, hsteps, hlt⟩
      · have hlast : d.lastOffset = c.reader.offset := hlast
        exact ⟨⟨p, by rw [hlast]; rfl⟩, hsteps, by omega⟩
      · exact ⟨⟨q, by rw [List.getLast?_cons, hq]; rfl⟩, hsteps, hlt⟩

end

/-- The state behind a step, whether it gives a result or an error. -/
def behind : Walked α → Cursor
  | .ok _ d => d
  | .error _ d => d

theorem Follows.offset_le {c : Cursor} {r : Walked α} (h : Follows c r) :
    c.reader.offset ≤ (behind r).reader.offset := by
  cases r with
  | ok a d =>
      obtain ⟨ps, hps⟩ := h
      exact hps.offset_le
  | error e d =>
      obtain ⟨ps, hps, _⟩ := h
      exact hps.offset_le

/-! ## A packet in front is read -/

section

variable {c : Cursor} {p : Packet} {n : Nat}

theorem nextEvent_offset_lt (hp : c.reader.peek = .ok (some (p, n))) :
    c.reader.offset < (behind (nextEvent c)).reader.offset := by
  have hpos := (PacketReader.offset_add_le_of_peek hp).1
  have hlt : c.reader.offset < (c.consume p n).reader.offset := Nat.lt_add_of_pos_right hpos
  rw [nextEvent_of_packet hp]
  split
  next => exact hlt
  next => exact hlt
  next => exact Nat.lt_of_lt_of_le hlt (nextEvent_follows _).offset_le

theorem acquire_offset_lt (hp : c.reader.peek = .ok (some (p, n))) :
    c.reader.offset < (behind (acquire c)).reader.offset := by
  have hlt := nextEvent_offset_lt hp
  rw [acquire_eq]
  rcases he : nextEvent c with ⟨_ | event, d⟩ | ⟨e, d⟩ <;> rw [he] at hlt <;> simp only
  · exact hlt
  · split
    next => exact hlt
    next =>
      split
      next => exact Nat.lt_of_lt_of_le hlt (acquire_follows (d.withTnt [])).offset_le
      next => exact Nat.lt_of_lt_of_le hlt (acquire_follows d).offset_le
  · exact hlt

theorem locate_offset_lt (hp : c.reader.peek = .ok (some (p, n))) (hip : c.flow.ip = none) :
    c.reader.offset < (behind (locate c)).reader.offset := by
  have hlt := acquire_offset_lt hp
  rw [locate_none hip]
  rcases ha : acquire c with ⟨_ | _, d⟩ | ⟨e, d⟩ <;> rw [ha] at hlt <;> simp only
  · exact hlt
  · exact Nat.lt_of_lt_of_le hlt (locate_follows d).offset_le
  · exact hlt

end

/-! ## The address that is found -/

/-- What a packet leaves alone: the place, the calls and the last instruction. -/
structure Frame (c d : Cursor) : Prop where
  ip : d.flow.ip = c.flow.ip
  returns : d.flow.returns = c.flow.returns
  pending : d.flow.pending = c.flow.pending

theorem Frame.trans {c d e : Cursor} (h : Frame c d) (h' : Frame d e) : Frame c e :=
  ⟨h'.ip.trans h.ip, h'.returns.trans h.returns, h'.pending.trans h.pending⟩

theorem frame_consume (c : Cursor) (p : Packet) (n : Nat) : Frame c (c.consume p n) := by
  cases p <;> exact ⟨rfl, rfl, rfl⟩

theorem nextEvent_frame {c d : Cursor} {event : Option FlowEvent}
    (h : nextEvent c = .ok event d) : Frame c d := by
  fun_induction nextEvent c with
  | case1 => cases h
  | case2 => cases h; exact ⟨rfl, rfl, rfl⟩
  | case3 => cases h
  | case4 c p n => cases h; exact frame_consume c p n
  | case5 c p n hp he ih => exact (frame_consume c p n).trans (ih h)

theorem ip_of_asyncEvent {c d : Cursor} {ip : UInt64} (h : asyncEvent c ip = .ok false d) :
    d.flow.ip = c.flow.ip := by
  unfold asyncEvent at h
  split at h
  next =>
    split at h
    next => cases h
    next => cases h; rfl
    next =>
      split at h
      next => cases h
      next he => cases h; exact (nextEvent_frame he).ip
      next => split at h <;> cases h
  next => cases h; rfl

/-- The address that is found is where the path stands. -/
theorem ip_of_locate {c d : Cursor} {ip : UInt64} (h : locate c = .ok (some ip) d) :
    d.flow.ip = some ip := by
  fun_induction locate c with
  | case1 => cases h
  | case2 => cases h
  | case3 c hip d' ha ih => exact ih h
  | case4 => cases h
  | case5 c ip' hip d' ha =>
      cases h
      exact (ip_of_asyncEvent ha).trans hip
  | case6 c ip' hip d' ha ih => exact ih h

end Cursor

end BranchWatch
