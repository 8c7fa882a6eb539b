import BranchWatch.Proofs.Packet.Format
import BranchWatch.Proofs.Walk.Looking
import BranchWatch.Proofs.Walk.Recovery

/-!
# A window that is cut off

A window may end anywhere, also inside of a packet.  If more bytes follow (`Cursor.extend`), the
walk through them is the same as long as it does not look past the end of the shorter window: each
part of a step does the same if none of the places where it looks is cut off (`Extended.scope`), and
a search that finds a synchronisation packet finds the same one (`Extended.recover`).  So the items
are the same up to the first call that looks past the end (`items_before_end`).  No item before it
can be the error that a packet is cut off (`looksPast_of_truncated`).
-/

namespace BranchWatch

namespace PacketReader

variable {r : PacketReader}

/-- The same place in a buffer that goes on with more bytes. -/
def extend (more : List UInt8) (r : PacketReader) : PacketReader :=
  .mkAt (r.buffer ++ more) r.offset

theorem advance_extend (more : List UInt8) (n : Nat) :
    (r.extend more).advance n = (r.advance n).extend more := by
  rw [advance_eq_seek]
  rfl

theorem rest_extend (h : r.offset ≤ r.buffer.length) (more : List UInt8) :
    (r.extend more).rest = r.rest ++ more := by
  show (r.buffer ++ more).drop r.offset = _
  rw [List.drop_append_of_le_length h, r.rest_eq]

/-- Where the bytes suffice, a fault is not that the packet is cut off. -/
theorem fault_ne_truncated {e : PacketError} (h : r.isCut = false) (he : r.peek = .error e) :
    e.fault ≠ .truncated := by
  unfold isCut at h
  rw [he] at h
  exact of_decide_eq_false h

/-- Where the bytes suffice, it does not matter what follows them. -/
theorem peek_extend (h : r.isCut = false) (more : List UInt8) : (r.extend more).peek = r.peek := by
  rcases hpeek : r.peek with e | _ | ⟨p, n⟩
  · have hmkAt : (mkAt r.buffer r.offset).peek = .error e := by
      obtain ⟨buffer, offset, rest, rfl⟩ := r
      exact hpeek
    exact peek_append_of_error hmkAt (fault_ne_truncated h hpeek) more
  · unfold isCut at h
    rw [hpeek] at h
    cases h
  · have hparse := parse_of_peek hpeek
    have hle := (offset_add_le_of_peek hpeek).2
    have htake : (r.rest ++ more).take n = r.rest.take n :=
      List.take_append_of_le_length (Packet.parse_length hparse).2
    rw [peek_eq, rest_extend (by omega), Packet.parse_of_take hparse htake]

/-- None of the places is cut off. -/
def Uncut (rs : List PacketReader) : Prop := ∀ r ∈ rs, r.isCut = false

theorem uncut_cons {rs : List PacketReader} : Uncut (r :: rs) ↔ r.isCut = false ∧ Uncut rs :=
  List.forall_mem_cons

theorem uncut_append {rs ss : List PacketReader} : Uncut (rs ++ ss) ↔ Uncut rs ∧ Uncut ss :=
  List.forall_mem_append

theorem firstFlowPacket_extend (h : Uncut r.flowLooks) (more : List UInt8) :
    (r.extend more).firstFlowPacket = r.firstFlowPacket := by
  fun_induction firstFlowPacket r with
  | case1 r e hpeek =>
      unfold flowLooks at h
      have hsame := peek_extend (uncut_cons.1 h).1 more
      rw [firstFlowPacket_eq, hsame, hpeek]
  | case2 r hpeek =>
      unfold flowLooks at h
      have hsame := peek_extend (uncut_cons.1 h).1 more
      rw [firstFlowPacket_eq, hsame, hpeek]
  | case3 r p n hpeek htiming ih =>
      rw [flowLooks_of_packet hpeek, htiming] at h
      obtain ⟨hfront, hbehind⟩ := uncut_cons.1 h
      rw [firstFlowPacket_eq, peek_extend hfront, hpeek]
      simp only [htiming, if_true]
      rw [advance_extend]
      exact ih hbehind
  | case4 r p n hpeek htiming =>
      rw [flowLooks_of_packet hpeek] at h
      rw [firstFlowPacket_eq, peek_extend (uncut_cons.1 h).1, hpeek]
      simp only [htiming]
      rfl

theorem fault_ne_truncated_of_firstFlowPacket {e : PacketError} (h : Uncut r.flowLooks)
    (he : r.firstFlowPacket = .error e) : e.fault ≠ .truncated := by
  fun_induction firstFlowPacket r with
  | case1 r e' hpeek =>
      cases he
      unfold flowLooks at h
      exact fault_ne_truncated (uncut_cons.1 h).1 hpeek
  | case2 => cases he
  | case3 r p n hpeek htiming ih =>
      rw [flowLooks_of_packet hpeek, htiming] at h
      exact ih (uncut_cons.1 h).2 he
  | case4 => cases he

end PacketReader

namespace Cursor

open PacketReader (Uncut uncut_cons uncut_append)

variable {α : Type} {c d : Cursor} {more : List UInt8}

/-- The same state in a window that goes on with more bytes. -/
def extend (more : List UInt8) (c : Cursor) : Cursor :=
  { c with reader := c.reader.extend more }

/-- The second state is the first one in the longer window. -/
def Extended (more : List UInt8) (c d : Cursor) : Prop := d = c.extend more

/-- The two errors are the same, and it is not that a packet is cut off. -/
structure SameError (e e' : DecodeError) : Prop where
  eq : e' = e
  whole : ∀ p, e = .packet p → p.fault ≠ .truncated

theorem SameError.of_unfetched {e : DecodeError} (h : Unfetched e) : SameError e e := by
  refine ⟨rfl, fun p hp => ?_⟩
  rw [hp] at h
  cases h

namespace Extended

theorem kindred (more : List UInt8) : Kindred (Extended more) SameError :=
  .ofFlow (fun h => by rw [h]; rfl) (fun flow h => by rw [h]; rfl)
    fun expected h => ⟨by rw [h]; rfl, nofun⟩

theorem consume (more : List UInt8) (c : Cursor) (p : Packet) (n : Nat) :
    Extended more (c.consume p n) ((c.extend more).consume p n) := by
  show { c.consume p n with reader := (c.reader.extend more).advance n } = _
  rw [PacketReader.advance_extend]
  rfl

theorem peek (h : Extended more c d) (huncut : Uncut c.eventLooks) :
    d.reader.peek = c.reader.peek := by
  unfold eventLooks at huncut
  rw [h]
  exact PacketReader.peek_extend (uncut_cons.1 huncut).1 more

theorem nextEvent (h : Extended more c d) (huncut : Uncut c.eventLooks) :
    Agree (Extended more) SameError c.nextEvent d.nextEvent := by
  have hpeek := h.peek huncut
  have hevent (c : Cursor) (p : Packet) : (c.extend more).flow.event (c.extend more).inPsb
      (c.extend more).reader.offset p = c.flow.event c.inPsb c.reader.offset p := rfl
  fun_induction Cursor.nextEvent c generalizing d with
  | case1 c e hp =>
      unfold eventLooks at huncut
      have hfault := PacketReader.fault_ne_truncated (uncut_cons.1 huncut).1 hp
      rw [nextEvent_of_fault (hpeek.trans hp)]
      refine .error ⟨rfl, fun p he => ?_⟩ h
      cases he
      exact hfault
  | case2 c hp =>
      rw [nextEvent_of_end (hpeek.trans hp)]
      exact .ok none h
  | case3 c p n hp e he =>
      obtain rfl := h
      obtain ⟨rfl, rfl⟩ := FlowState.event_eq_error he
      rw [nextEvent_of_packet (hpeek.trans hp), hevent, he]
      exact .error ⟨rfl, fun p hp => by cases hp⟩ (consume more c _ n)
  | case4 c p n hp event he =>
      obtain rfl := h
      rw [nextEvent_of_packet (hpeek.trans hp), hevent, he]
      exact .ok _ (consume more c p n)
  | case5 c p n hp he ih =>
      obtain rfl := h
      rw [eventLooks_of_packet hp, he] at huncut
      have hbehind := (uncut_cons.1 huncut).2
      rw [nextEvent_of_packet (hpeek.trans hp), hevent, he]
      exact ih (consume more c p n) hbehind ((consume more c p n).peek hbehind)

theorem asyncAhead (h : Extended more c d) (ip : UInt64) (huncut : Uncut c.reader.flowLooks) :
    d.asyncAhead ip = c.asyncAhead ip := by
  obtain rfl := h
  have hfirst : (c.extend more).reader.firstFlowPacket = c.reader.firstFlowPacket :=
    PacketReader.firstFlowPacket_extend huncut more
  unfold Cursor.asyncAhead
  rw [hfirst]
  rfl

theorem fault_ne_truncated_of_asyncAhead {ip : UInt64} {e : PacketError}
    (huncut : Uncut c.reader.flowLooks) (he : c.asyncAhead ip = .error e) :
    e.fault ≠ .truncated := by
  unfold Cursor.asyncAhead at he
  split at he
  next hfirst =>
    cases he
    exact PacketReader.fault_ne_truncated_of_firstFlowPacket huncut hfirst
  next => cases he
  next => cases he

/-- The walks agree where no place that a part looks at is cut off. -/
theorem scope (more : List UInt8) :
    Scoped (fun a c => Uncut (a.looks c)) (Extended more) SameError where
  toKindred := kindred more
  uses huses huncut r hr := huncut r (Part.looks_of_uses huses hr)
  nextEvent h huncut := h.nextEvent huncut
  asyncAhead {c d} ip h htnt huncut := by
    have huncut : Uncut (c.asyncLooks ip) := huncut
    rw [asyncLooks_nil htnt] at huncut
    have hahead := (uncut_append.1 huncut).1
    rw [h.asyncAhead ip hahead]
    cases hc : c.asyncAhead ip with
    | ok ahead => exact .inl ⟨ahead, rfl, rfl⟩
    | error e =>
        refine .inr ⟨e, e, rfl, rfl, rfl, fun p he => ?_⟩
        cases he
        exact fault_ne_truncated_of_asyncAhead hahead hc

theorem fetch (h : Extended more c d) (ip : UInt64) :
    Agree (Extended more) SameError (fetch ip c) (fetch ip d) :=
  .fetch ip (by rw [h]; rfl) (by rw [h]; rfl) (by rw [h]; rfl) (fun _ => .of_unfetched) h
    (by rw [h]; rfl)

/-- A whole step. -/
theorem step (h : Extended more c d) (huncut : Uncut c.stepLooks) :
    Agree (Extended more) SameError c.step d.step := by
  unfold stepLooks at huncut
  obtain ⟨hasked, hlater⟩ := uncut_append.1 huncut
  have hresolve : Agree (Extended more) SameError c.resolve d.resolve := by
    refine (kindred more).resolve (fun c' hc' _ h => (scope more).nextBranch h ?_) h
    rw [Option.mem_def.1 hc'] at hasked
    exact hasked
  refine (kindred more).step (fun h => by rw [h]; rfl) (fun h => by rw [h]; rfl)
    (fun _ _ => ⟨rfl, nofun⟩) (fun ip h => h.fetch ip) hresolve fun hc h => (scope more).locate h ?_
  rw [hc] at hlater
  exact hlater

/-- Going on after an error, if the search finds a synchronisation packet. -/
theorem recover (h : Extended more c d) {e : DecodeError} (hfound : c.searchFails e = false) :
    Extended more (c.recover e) (d.recover e) := by
  obtain rfl := h
  rcases overflow_or_ne e with ⟨offset, rfl⟩ | he
  · rfl
  · rw [searchFails_of_ne he] at hfound
    rcases hplace : findPsb (c.failing e + 1) (c.reader.buffer.drop (c.failing e + 1)) with
      _ | place
    · rw [hplace] at hfound
      cases hfound
    · have hsame : findPsb ((c.extend more).failing e + 1)
          ((c.extend more).reader.buffer.drop ((c.extend more).failing e + 1)) = some place :=
        findPsb_append_of_some hplace more
      rw [recover_eq he, recover_eq he, hplace, hsame]
      rfl

theorem next (h : Extended more c d) (hlooks : c.looksPast = false) :
    d.next.1 = c.next.1 ∧ Extended more c.next.2 d.next.2 ∧
      ∀ p, c.next.1 = some (.error (.packet p)) → p.fault ≠ .truncated := by
  have hdone : d.done = c.done := by rw [h]; rfl
  unfold looksPast at hlooks
  unfold Cursor.next
  rw [hdone]
  cases hc : c.done with
  | true => exact ⟨rfl, h, fun p hp => by cases hp⟩
  | false =>
      rw [hc] at hlooks
      obtain ⟨hlooks, hsearch⟩ := Bool.or_eq_false_iff.1 hlooks
      have huncut : Uncut c.stepLooks := fun r hr =>
        Bool.eq_false_iff.2 fun hcut => List.any_eq_false.1 hlooks r hr hcut
      have hstep := h.step huncut
      simp only [Bool.false_eq_true, if_false]
      generalize Cursor.step c = r at hstep hsearch ⊢
      generalize Cursor.step d = s at hstep ⊢
      cases hstep with
      | error he h =>
          obtain ⟨rfl, hwhole⟩ := he
          refine ⟨rfl, h.recover hsearch, fun p hp => ?_⟩
          cases hp
          exact hwhole p rfl
      | ok record h =>
          cases record with
          | none => exact ⟨rfl, by rw [h]; rfl, fun p hp => by cases hp⟩
          | some record => exact ⟨rfl, h, fun p hp => by cases hp⟩

end Extended

/-- If the error is that a packet is cut off, the call has looked past the end of the window. -/
theorem looksPast_of_truncated {p : PacketError} (h : c.next.1 = some (.error (.packet p)))
    (hfault : p.fault = .truncated) : c.looksPast = true := by
  cases hlooks : c.looksPast with
  | true => rfl
  | false =>
      have hsame : Extended [] c (c.extend []) := rfl
      obtain ⟨_, _, hwhole⟩ := hsame.next hlooks
      exact absurd hfault (hwhole p h)

/-- The walk through a longer window starts at the same place, if there is a synchronisation
packet. -/
theorem start_append {window : List UInt8} {p : Nat} (hpsb : PsbAt window p) (more : List UInt8)
    (decoder : Decoder) (rebuilt : Bool) :
    Extended more (start decoder window rebuilt) (start decoder (window ++ more) rebuilt) := by
  have hfind : findPsb 0 window ≠ none := fun hnone =>
    findPsb_eq_none_iff.1 hnone p (Nat.zero_le p) hpsb
  obtain ⟨place, hplace⟩ := Option.ne_none_iff_exists'.1 hfind
  have hsame : findPsb 0 (window ++ more) = some place := findPsb_append_of_some hplace more
  unfold start
  rw [hplace, hsame]
  rfl

/-- Let a window hold a synchronisation packet, and let the walk through it not look past its end
while it gives its first `k` items.  Then whatever bytes follow, and whatever the images and their
source, the walk through the longer window gives the same first `k` items. -/
theorem items_before_end {window : List UInt8} (hpsb : ∃ p, PsbAt window p) (more : List UInt8)
    (decoder : Decoder) (rebuilt : Bool) (k : Nat)
    (hlooks : ∀ j < k, ((start decoder window rebuilt).after j).looksPast = false) :
    ∀ j < k, (start decoder (window ++ more) rebuilt).item j =
      (start decoder window rebuilt).item j := by
  obtain ⟨p, hpsb⟩ := hpsb
  have hafter (j : Nat) (hj : j ≤ k) : Extended more ((start decoder window rebuilt).after j)
      ((start decoder (window ++ more) rebuilt).after j) := by
    induction j with
    | zero => exact start_append hpsb more decoder rebuilt
    | succ j ih => exact ((ih (by omega)).next (hlooks j (by omega))).2.1
  exact fun j hj => ((hafter j (by omega)).next (hlooks j hj)).1

/-- A window that ends inside of a packet: behind the conditional jump at `0x1001` the walk looks at
the packet that is cut off.  The two instructions before do not depend on how it goes on. -/
theorem items_before_end_of_cut_target :
    let code : Section := ⟨0x1000, #[0x90, 0x74, 2, 0x90, 0x90, 0x90, 0x90], by decide, by decide⟩
    let image : Image := ⟨[code], List.pairwise_singleton _ _⟩
    let decoder : Decoder := { source := fun _ => .ok image, image := some image }
    let enable : List UInt8 := [0xd1, 0x00, 0x10, 0, 0, 0, 0, 0, 0]
    let window := Packet.psbPattern ++ ([0x02, 0x23] ++ (enable ++ ([0x06] ++ [0x2d, 0x00])))
    let c := start decoder window true
    (c.after 2).looksPast = true ∧
      ∀ j < 2, (start decoder (window ++ [0x10, 0x06]) true).item j = c.item j := by
  intro code image decoder enable window c
  have hlooks : ∀ j < 2, (c.after j).looksPast = false := by decide +kernel
  have hpsb : ∃ p, PsbAt window p := ⟨0, List.prefix_append _ _⟩
  exact ⟨by decide +kernel, items_before_end hpsb [0x10, 0x06] decoder true 2 hlooks⟩

end Cursor

end BranchWatch
