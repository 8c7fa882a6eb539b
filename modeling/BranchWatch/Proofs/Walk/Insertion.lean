import BranchWatch.Proofs.Packet.Extent
import BranchWatch.Proofs.Walk.Shift

/-!
# A group of status packets more

Two walks are compared, one of them through a window into which a group of status packets has been
inserted at some place (`insertGroup`).  In front of the place they are the same walk; behind it
they have the same bytes before them, and their paths are alike (`Alongside`).

A walk that waits for a branch passes over the group, so moving on from an instruction agrees
wherever the place is (`Alongside.resolve`).  A walk that looks for an asynchronous event does not
look past a group, so finding the next address agrees as long as it stays in front of the place
(`Alongside.locate`).
-/

namespace BranchWatch

/-- A group of status packets that tells where execution stands. -/
def statusGroup (ip : UInt64) : List UInt8 :=
  Packet.psbPattern ++ Packet.ipBytes .fup .full ip ++ [0x02, 0x23]

/-- A window with such a group in front of the offset `p`. -/
def insertGroup (ip : UInt64) (p : Nat) (window : List UInt8) : List UInt8 :=
  window.take p ++ statusGroup ip ++ window.drop p

section

variable {ip : UInt64} {p o n : Nat} {window : List UInt8}

theorem length_statusGroup (ip : UInt64) : (statusGroup ip).length = 27 := by
  rw [statusGroup, List.length_append, List.length_append, Packet.length_ipBytes]
  rfl

theorem take_drop_insertGroup (hp : p ≤ window.length) (h : o + n ≤ p) :
    ((insertGroup ip p window).drop o).take n = (window.drop o).take n := by
  have htake : (insertGroup ip p window).take (o + n) = window.take (o + n) := by
    rw [insertGroup, List.append_assoc, List.take_append_of_le_length, List.take_take,
      Nat.min_eq_left h]
    rw [List.length_take]
    omega
  rw [List.take_drop, List.take_drop, htake]

theorem drop_insertGroup (hp : p ≤ window.length) :
    (insertGroup ip p window).drop p = statusGroup ip ++ window.drop p := by
  have hlength : (window.take p).length = p := by
    rw [List.length_take]
    omega
  rw [insertGroup, List.append_assoc, List.drop_left' hlength]

theorem drop_add_insertGroup (hp : p ≤ window.length) (h : p ≤ o) :
    (insertGroup ip p window).drop (o + 27) = window.drop o := by
  have hgroup := length_statusGroup ip
  have hrest : (insertGroup ip p window).drop (p + 27) = window.drop p := by
    rw [← List.drop_drop, drop_insertGroup hp, List.drop_left' hgroup]
  rw [show o + 27 = p + 27 + (o - p) by omega, ← List.drop_drop, hrest, List.drop_drop,
    Nat.add_sub_cancel' h]

end

namespace PacketReader

variable {r : PacketReader} {ip : UInt64} {p n : Nat} {q : Packet} {inPsb : Bool}

/-- From a place on, where a group may be open, reading comes to the offset `p`.  There is a packet,
and no group is open. -/
inductive Meets (p : Nat) : PacketReader → Bool → Prop
  | here {r : PacketReader} {inPsb : Bool} {q : Packet} {n : Nat} (hoffset : r.offset = p)
      (hclosed : inPsb = false) (hq : r.peek = .ok (some (q, n))) : Meets p r inPsb
  | there {r : PacketReader} {inPsb : Bool} {q : Packet} {n : Nat}
      (hq : r.peek = .ok (some (q, n))) (h : Meets p (r.advance n) (inPsbAfter inPsb q)) :
      Meets p r inPsb

theorem Meets.bounds (h : Meets p r inPsb) : r.offset ≤ p ∧ p < r.buffer.length := by
  induction h with
  | here hoffset _ hq =>
      have hin := offset_add_le_of_peek hq
      omega
  | @there r _ _ n hq _ ih =>
      have hle : r.offset + n ≤ p := ih.1
      exact ⟨by omega, ih.2⟩

/-- The same place in the window with the group. -/
def withGroup (ip : UInt64) (p : Nat) (r : PacketReader) : PacketReader :=
  .mkAt (insertGroup ip p r.buffer) r.offset

theorem advance_withGroup (ip : UInt64) (p : Nat) (r : PacketReader) (n : Nat) :
    (r.withGroup ip p).advance n = (r.advance n).withGroup ip p :=
  advance_eq_seek _ n

/-- In front of the group the packets are the same. -/
theorem peek_withGroup (hq : r.peek = .ok (some (q, n))) (hle : r.offset + n ≤ p)
    (hp : p ≤ r.buffer.length) : (r.withGroup ip p).peek = .ok (some (q, n)) := by
  have hparse : Packet.parse (r.withGroup ip p).rest = .ok (some (q, n)) := by
    refine Packet.parse_of_take (parse_of_peek hq) ?_
    rw [r.rest_eq]
    exact take_drop_insertGroup hp hle
  exact peek_of_parse rfl hparse

theorem rest_withGroup (hoffset : r.offset = p) (hp : p ≤ r.buffer.length) :
    (r.withGroup ip p).rest = statusGroup ip ++ r.rest := by
  rw [r.rest_eq, hoffset]
  show (insertGroup ip p r.buffer).drop r.offset = _
  rw [hoffset, drop_insertGroup hp]

theorem peek_of_psbPattern {rest : List UInt8} (h : r.rest = Packet.psbPattern ++ rest) :
    r.peek = .ok (some (.psb, 16)) :=
  peek_of_parse h (Packet.parse_psbPattern rest)

end PacketReader

namespace Cursor

variable {c d : Cursor} {ip : UInt64} {p n : Nat} {q : Packet}

/-- The same state in the window with the group. -/
def withGroup (ip : UInt64) (p : Nat) (c : Cursor) : Cursor :=
  { c with reader := c.reader.withGroup ip p }

theorem consume_withGroup (ip : UInt64) (p : Nat) (c : Cursor) (q : Packet) (n : Nat) :
    (c.withGroup ip p).consume q n = (c.consume q n).withGroup ip p := by
  unfold consume withGroup
  rw [PacketReader.advance_withGroup]
  rfl

/-- Two walks in front of the place `p`, the second one through the window with the group. -/
structure Ahead (ip : UInt64) (p : Nat) (c d : Cursor) : Prop where
  eq : d = c.withGroup ip p
  meets : c.reader.Meets p c.inPsb
  absolute : c.reader.Absolute

theorem Ahead.kindred (ip : UInt64) (p : Nat) : Kindred (Ahead ip p) fun _ _ => True :=
  .ofFlow (fun h => by rw [h.eq]; rfl)
    (fun flow h => ⟨by rw [h.eq]; rfl, h.meets, h.absolute⟩) (fun _ _ => trivial)

theorem Ahead.event_eq (h : Ahead ip p c d) (q : Packet) :
    d.flow.event d.inPsb d.reader.offset q = c.flow.event c.inPsb c.reader.offset q := by
  rw [h.eq]
  rfl

theorem Ahead.consume (hq : c.reader.peek = .ok (some (q, n))) (h : Ahead ip p c d)
    (hmeets : (c.reader.advance n).Meets p (inPsbAfter c.inPsb q)) :
    d.reader.peek = .ok (some (q, n)) ∧ Ahead ip p (c.consume q n) (d.consume q n) := by
  obtain ⟨rfl, _, habs⟩ := h
  obtain ⟨hle, hlt⟩ := hmeets.bounds
  exact ⟨PacketReader.peek_withGroup hq hle (Nat.le_of_lt hlt), c.consume_withGroup ip p q n,
    hmeets, habs.advance hq⟩

/-! ## Passing over the group -/

/-- The packet inside the group. -/
def standing (ip : UInt64) : Packet := .ip .fup (.full (IpForm.full.sent ip))

/-- The state behind the group. -/
def passGroup (ip : UInt64) (c : Cursor) : Cursor :=
  ((c.consume .psb 16).consume (standing ip) 9).consume .psbEnd 2

/-- A walk that waits for a branch passes over the group. -/
theorem nextBranch_passGroup {rest : List UInt8} (h : c.reader.rest = statusGroup ip ++ rest) :
    nextBranch c = nextBranch (c.passGroup ip) ∧ (c.passGroup ip).reader.rest = rest := by
  have hlength : (Packet.ipBytes .fup .full ip).length = 9 := Packet.length_ipBytes .fup .full ip
  have hpsb : c.reader.rest =
      Packet.psbPattern ++ (Packet.ipBytes .fup .full ip ++ ([0x02, 0x23] ++ rest)) := by
    rw [h, statusGroup, List.append_assoc, List.append_assoc]
  have hfup : (c.consume .psb 16).reader.rest =
      Packet.ipBytes .fup .full ip ++ ([0x02, 0x23] ++ rest) := by
    show c.reader.rest.drop 16 = _
    rw [hpsb]
    rfl
  have hend : ((c.consume .psb 16).consume (standing ip) 9).reader.rest = [0x02, 0x23] ++ rest := by
    show (c.consume .psb 16).reader.rest.drop 9 = _
    rw [hfup, List.drop_left' hlength]
  have hpeekFup : (c.consume .psb 16).reader.peek = .ok (some (standing ip, 9)) :=
    PacketReader.peek_of_parse hfup (Packet.parse_ipBytes .fup .full ip _)
  have hpeekEnd : ((c.consume .psb 16).consume (standing ip) 9).reader.peek =
      .ok (some (.psbEnd, 2)) := PacketReader.peek_of_parse hend (Packet.parse_psbEnd rest)
  constructor
  · calc
      nextBranch c = nextBranch (c.consume .psb 16) :=
        nextBranch_of_packet (PacketReader.peek_of_psbPattern hpsb)
      _ = nextBranch ((c.consume .psb 16).consume (standing ip) 9) :=
        nextBranch_of_packet hpeekFup
      _ = nextBranch (c.passGroup ip) := nextBranch_of_packet hpeekEnd
  · show ((c.consume .psb 16).consume (standing ip) 9).reader.rest.drop 2 = rest
    rw [hend]
    rfl

/-- Behind the first packet that comes after the group, nothing of the group is left but its
length. -/
theorem Ahead.shifted (h : Ahead ip p c d) (hoffset : c.reader.offset = p) (hin : c.inPsb = false)
    (hq : c.reader.peek = .ok (some (q, n))) :
    Shifted 27 (p + 1) ((d.passGroup ip).consume q n) (c.consume q n) := by
  obtain ⟨rfl, hmeets, habs⟩ := h
  have hlt := hmeets.bounds.2
  have hpos := (PacketReader.offset_add_le_of_peek hq).1
  refine ⟨fun o ho => drop_add_insertGroup (Nat.le_of_lt hlt) (Nat.le_of_succ_le ho), ?_, ?_, ?_,
    ?_, .inr (habs.advance hq), ?_, rfl, ?_, rfl, rfl, rfl⟩
  · show p + 1 ≤ c.reader.offset + n
    omega
  · show p + 1 ≤ c.reader.offset + 1
    omega
  · show c.reader.offset + 16 + 9 + 2 + n = c.reader.offset + n + 27
    omega
  · have hflow : ((c.withGroup ip p).passGroup ip).flow.Alike c.flow := ⟨rfl, rfl, rfl, rfl, rfl⟩
    exact hflow.absorb q
  · show c.reader.offset + 16 + 9 + 2 = c.reader.offset + 27
    omega
  · show inPsbAfter false q = inPsbAfter c.inPsb q
    rw [hin]

/-! ## Side by side -/

/-- The second walk goes through the window with the group: both are in front of it, or both are
behind it. -/
def Alongside (ip : UInt64) (p : Nat) (c d : Cursor) : Prop :=
  Ahead ip p c d ∨ Shifted 27 (p + 1) d c

namespace Alongside

theorem kindred (ip : UInt64) (p : Nat) : Kindred (Alongside ip p) fun _ _ => True :=
  (Ahead.kindred ip p).or ((Shifted.kindred 27 (p + 1)).symm.mono fun _ => trivial)

/-- Where the first walk is not behind the place, both are in front of it. -/
theorem ahead (h : Alongside ip p c d) (hle : c.reader.offset ≤ p) : Ahead ip p c d :=
  h.resolve_right fun hshifted =>
    Nat.not_succ_le_self p (Nat.le_trans hshifted.base_le_offset hle)

/-- If both walks read the same packet, it is enough that they agree behind it. -/
theorem nextBranch_of_packet (hc : c.reader.peek = .ok (some (q, n)))
    (hd : d.reader.peek = .ok (some (q, n))) {f : DecodeError → DecodeError}
    (hevent : d.flow.event d.inPsb d.reader.offset q =
      (c.flow.event c.inPsb c.reader.offset q).mapError f)
    (h : Alongside ip p (c.consume q n) (d.consume q n))
    (hnext : Agree (Alongside ip p) (fun _ _ => True) (c.consume q n).nextBranch
      (d.consume q n).nextBranch) :
    Agree (Alongside ip p) (fun _ _ => True) c.nextBranch d.nextBranch := by
  rw [Cursor.nextBranch_of_packet hc, Cursor.nextBranch_of_packet hd, hevent]
  rcases c.flow.event c.inPsb c.reader.offset q with e | _ | _ | ⟨_ | _ | _ | _, ip⟩ | ip
  case ok.none => exact hnext
  case ok.some.status => exact hnext
  case error => exact .error trivial h
  case ok.some.ip.pge => exact .error trivial h
  case ok.some.ip.fup => exact .error trivial h
  all_goals exact .ok _ h

theorem nextBranch_of_shifted (h : Shifted 27 (p + 1) d c) :
    Agree (Alongside ip p) (fun _ _ => True) c.nextBranch d.nextBranch :=
  ((Shifted.simulation 27 (p + 1)).nextBranch h (by cases d.nextBranch <;> trivial)).symm.mono .inr
    fun _ => trivial

/-- Waiting for a branch agrees, wherever the group is. -/
theorem nextBranch_of_ahead (h : Ahead ip p c d) :
    Agree (Alongside ip p) (fun _ _ => True) c.nextBranch d.nextBranch := by
  induction hn : c.reader.rest.length using Nat.strongRecOn generalizing c d with
  | ind m ih =>
      have hp := Nat.le_of_lt h.meets.bounds.2
      cases h.meets with
      | here hoffset hclosed hq =>
        -- The second walk passes over the group, then both read the packet behind it.
        have hrest : d.reader.rest = statusGroup ip ++ c.reader.rest := by
          rw [h.eq]
          exact PacketReader.rest_withGroup hoffset hp
        obtain ⟨hpass, hrest⟩ := nextBranch_passGroup hrest
        have hoffset' : (d.passGroup ip).reader.offset = c.reader.offset + 27 := by
          rw [h.eq]
          rfl
        have hpeek := PacketReader.peek_shift hrest hoffset'
        rw [hq] at hpeek
        have hshifted := h.shifted hoffset hclosed hq
        rw [hpass]
        refine nextBranch_of_packet (f := DecodeError.shift 27) hq hpeek ?_ (.inr hshifted)
          (nextBranch_of_shifted hshifted)
        have hin : (d.passGroup ip).inPsb = c.inPsb := hclosed.symm
        rw [hin, hoffset']
        exact FlowState.event_shift _ _ _ fun kind payload hip =>
          IpPayload.apply_of_isAbsolute (h.absolute.isAbsolute (hip ▸ hq)) _ _
      | @there _ _ q n hq hmeets =>
        obtain ⟨hd, hconsume⟩ := h.consume hq hmeets
        have hevent : d.flow.event d.inPsb d.reader.offset q =
            (c.flow.event c.inPsb c.reader.offset q).mapError id := by
          rw [h.event_eq]
          cases c.flow.event c.inPsb c.reader.offset q <;> rfl
        exact nextBranch_of_packet hq hd hevent (.inl hconsume)
          (ih _ (hn ▸ PacketReader.advance_rest_lt hq) hconsume rfl)

theorem nextBranch (h : Alongside ip p c d) :
    Agree (Alongside ip p) (fun _ _ => True) c.nextBranch d.nextBranch :=
  h.elim nextBranch_of_ahead nextBranch_of_shifted

theorem resolve (h : Alongside ip p c d) :
    Agree (Alongside ip p) (fun _ _ => True) (Cursor.resolve c) (Cursor.resolve d) :=
  (kindred ip p).resolve (fun _ _ _ h => nextBranch h) h

end Alongside

/-! ## In front of the group -/

/-- The walk has not failed, and it has not come behind the place. -/
def UpTo (p : Nat) (err : Option DecodeError) (c : Cursor) : Prop :=
  err = none ∧ c.reader.offset ≤ p

theorem ok_of_within {α : Type} {e : DecodeError} : ¬ Within (UpTo p) (.error e c : Walked α) :=
  fun hw => Option.some_ne_none e hw.1

theorem offset_le_of_within {α : Type} {r : Walked α} (hw : Within (UpTo p) r) :
    (behind r).reader.offset ≤ p := by
  cases r <;> exact hw.2

theorem Ahead.nextEvent (h : Ahead ip p c d) (hw : Within (UpTo p) c.nextEvent) :
    Agree (Ahead ip p) (fun _ _ => True) c.nextEvent d.nextEvent := by
  induction hn : c.reader.rest.length using Nat.strongRecOn generalizing c d with
  | ind m ih =>
      cases h.meets with
      | here hoffset hclosed hq =>
        -- The packet at the place would be read.
        have hlt := nextEvent_offset_lt hq
        have hle := offset_le_of_within hw
        omega
      | @there _ _ q n hq hmeets =>
        obtain ⟨hd, hconsume⟩ := h.consume hq hmeets
        rw [nextEvent_of_packet hq] at hw ⊢
        rw [nextEvent_of_packet hd, h.event_eq]
        rcases hevent : c.flow.event c.inPsb c.reader.offset q with e | _ | event
        · exact .error trivial hconsume
        · rw [hevent] at hw
          exact ih _ (hn ▸ PacketReader.advance_rest_lt hq) hconsume hw rfl
        · exact .ok _ hconsume

/-- Looking ahead, both walks see the same packet, which is in front of the place, or only timing
packets come before the group. -/
theorem Ahead.firstFlowPacket (h : Ahead ip p c d) :
    (∃ q, c.reader.firstFlowPacket = .ok (some q) ∧ d.reader.firstFlowPacket = .ok (some q) ∧
      ∀ kind payload, q = .ip kind payload → (behind (Cursor.nextEvent c)).reader.offset ≤ p) ∨
      d.reader.firstFlowPacket = .ok (some .psb) ∧ c.inPsb = false ∧
        p < (behind (Cursor.nextEvent c)).reader.offset := by
  induction hn : c.reader.rest.length using Nat.strongRecOn generalizing c d with
  | ind m ih =>
      cases h.meets with
      | here hoffset hclosed hq =>
        right
        have hrest : d.reader.rest = statusGroup ip ++ c.reader.rest := by
          rw [h.eq]
          exact PacketReader.rest_withGroup hoffset (Nat.le_of_lt h.meets.bounds.2)
        rw [statusGroup, List.append_assoc, List.append_assoc] at hrest
        refine ⟨?_, hclosed, hoffset ▸ nextEvent_offset_lt hq⟩
        rw [PacketReader.firstFlowPacket_eq, PacketReader.peek_of_psbPattern hrest]
        rfl
      | @there _ _ q n hq hmeets =>
        obtain ⟨hd, hconsume⟩ := h.consume hq hmeets
        rw [c.reader.firstFlowPacket_eq, d.reader.firstFlowPacket_eq, hq, hd]
        cases htiming : q.isTiming with
        | false =>
            refine .inl ⟨q, by simp only [htiming]; rfl, by simp only [htiming]; rfl, ?_⟩
            rintro kind payload rfl
            have hle : c.reader.offset + n ≤ p := hmeets.bounds.1
            obtain ⟨event, hevent⟩ : ∃ event,
                c.flow.event c.inPsb c.reader.offset (.ip kind payload) = .ok (some event) := by
              unfold FlowState.event
              simp only
              split <;> exact ⟨_, rfl⟩
            rw [nextEvent_of_packet hq, hevent]
            exact hle
        | true =>
            simp only [htiming, if_true]
            rw [nextEvent_of_packet hq, FlowState.event_of_isTiming htiming,
              ← inPsbAfter_of_isTiming htiming c.inPsb]
            exact ih _ (hn ▸ PacketReader.advance_rest_lt hq) hconsume rfl

/-- An event that is ahead is read. -/
theorem asyncEvent_offset_le (htnt : c.flow.tnt = []) (hahead : c.asyncAhead ip = .ok true) :
    (behind (nextEvent c)).reader.offset ≤ (behind (asyncEvent c ip)).reader.offset := by
  unfold asyncEvent
  rw [htnt, hahead]
  simp only [List.isEmpty_nil, if_true]
  rcases nextEvent c with ⟨_ | first, e⟩ | ⟨err, e⟩
  · exact Nat.le_refl _
  · have hle := (nextEvent_follows e).offset_le
    simp only
    generalize nextEvent e = r at hle ⊢
    cases r with
    | ok second f =>
        show e.reader.offset ≤ (asyncTarget second f).reader.offset
        rw [asyncTarget_reader]
        exact hle
    | error err f => exact hle
  · exact Nat.le_refl _

theorem Ahead.asyncAhead (a : UInt64) (h : Ahead ip p c d) (htnt : c.flow.tnt = [])
    (hw : Within (UpTo p) (c.asyncEvent a)) :
    ∃ ahead, c.asyncAhead a = .ok ahead ∧ d.asyncAhead a = .ok ahead := by
  have hflow : d.flow = c.flow := by
    rw [h.eq]
    rfl
  rcases hahead : c.asyncAhead a with e | ahead
  · unfold Cursor.asyncEvent at hw
    rw [htnt, hahead] at hw
    exact absurd hw ok_of_within
  · refine ⟨ahead, rfl, ?_⟩
    rcases h.firstFlowPacket with ⟨q, hc, hd, -⟩ | ⟨hd, -, hlt⟩
    · rw [← hahead]
      unfold Cursor.asyncAhead
      rw [hc, hd, hflow]
    · -- The second walk sees the group.  If the first one sees an event, it is not in front of it.
      have hnone : d.asyncAhead a = .ok false := by
        unfold Cursor.asyncAhead
        rw [hd]
      cases ahead with
      | false => exact hnone
      | true =>
          have hle := asyncEvent_offset_le htnt hahead
          have hlimit := offset_le_of_within hw
          omega

theorem Ahead.simulation (ip : UInt64) (p : Nat) :
    Simulation (UpTo p) (Ahead ip p) fun _ _ => True where
  toKindred := Ahead.kindred ip p
  within {_ _ r} hr hw := by
    have hle := offset_le_of_within hw
    have hfrom := hr.offset_le
    exact ⟨rfl, Nat.le_trans hfrom hle⟩
  nextEvent h hw := h.nextEvent hw
  asyncAhead a h htnt hw := .inl (h.asyncAhead a htnt hw)

/-- Finding the next address agrees as long as it stays in front of the group. -/
theorem Alongside.locate (h : Alongside ip p c d)
    (hw : c.reader.offset ≤ p → Within (UpTo p) c.locate) :
    Agree (Alongside ip p) (fun _ _ => True) c.locate d.locate := by
  rcases h with h | h
  · have hagree := (Ahead.simulation ip p).locate h (hw h.meets.bounds.1)
    exact hagree.mono .inl fun _ => trivial
  · have hagree := (Shifted.simulation 27 (p + 1)).locate h (by cases d.locate <;> trivial)
    exact hagree.symm.mono .inr fun _ => trivial

end Cursor

end BranchWatch
