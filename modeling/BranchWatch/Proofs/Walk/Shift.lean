import BranchWatch.Proofs.Walk.Sources
import BranchWatch.Proofs.Walk.Simulation

/-!
# The same bytes further on

Two walks that have the same bytes before them go on in the same way, wherever these bytes lie in
their windows: they give the same items, and the offsets in their errors differ by the distance of
the two places (`Shifted.item_eq`).

Their paths must be alike.  The address that compressed ones refer to may differ if no address that
is still to come refers to it (`PacketReader.Absolute`).
-/

namespace BranchWatch

/-- The same packet further on. -/
def PacketError.shift (n : Nat) (e : PacketError) : PacketError := { e with offset := e.offset + n }

/-- The same error in a window that has `n` bytes more in front. -/
def DecodeError.shift (n : Nat) : DecodeError → DecodeError
  | packet e => packet (e.shift n)
  | desync offset expected => desync (offset + n) expected
  | overflow offset => overflow (offset + n)
  | e => e

/-- The same item in a window that has `n` bytes more in front. -/
def Item.shift (n : Nat) (i : Item) : Item := i.mapError (DecodeError.shift n)

theorem DecodeError.shift_of_unfetched {e : DecodeError} (h : Cursor.Unfetched e) (n : Nat) :
    e.shift n = e := by
  cases h <;> rfl

theorem DecodeError.shift_ne_overflow {e : DecodeError} (h : ∀ offset, e ≠ .overflow offset)
    (n : Nat) : ∀ offset, e.shift n ≠ .overflow offset := by
  cases e with
  | overflow offset => exact absurd rfl (h offset)
  | _ => exact nofun

/-- If the packet carries an address, it is understood without the ones before. -/
def Packet.isAbsolute : Packet → Bool
  | .ip _ (.update16 _) | .ip _ (.update32 _) | .ip _ (.update48 _) => false
  | _ => true

theorem IpPayload.apply_of_isAbsolute {kind : IpKind} {payload : IpPayload}
    (h : (Packet.ip kind payload).isAbsolute = true) (last last' : UInt64) :
    payload.apply last = payload.apply last' := by
  cases payload <;> first | rfl | cases h

namespace PacketReader

variable {r s : PacketReader} {n k : Nat} {p : Packet}

/-- No packet from the place on refers to an address before it. -/
def Absolute (r : PacketReader) : Prop := ∀ x, .ok x ∈ r.items → x.2.isAbsolute = true

theorem Absolute.isAbsolute (h : r.Absolute) (hp : r.peek = .ok (some (p, k))) :
    p.isAbsolute = true := by
  refine h (r.offset, p) ?_
  rw [items_of_packet hp]
  exact List.mem_cons_self

theorem Absolute.advance (h : r.Absolute) (hp : r.peek = .ok (some (p, k))) :
    (r.advance k).Absolute := by
  intro x hx
  refine h x ?_
  rw [items_of_packet hp]
  exact List.mem_cons_of_mem _ hx

theorem Absolute.firstFlowPacket (h : r.Absolute) (hp : r.firstFlowPacket = .ok (some p)) :
    p.isAbsolute = true := by
  fun_induction PacketReader.firstFlowPacket r with
  | case1 => cases hp
  | case2 => cases hp
  | case3 r q k hq ht ih => exact ih (h.advance hq) hp
  | case4 r q k hq ht => cases hp; exact h.isAbsolute hq

/-! ## The same bytes at another offset -/

theorem peek_shift (hrest : r.rest = s.rest) (hoffset : r.offset = s.offset + n) :
    r.peek = s.peek.mapError (·.shift n) := by
  rw [r.peek_eq, s.peek_eq, hrest, hoffset]
  cases Packet.parse s.rest <;> rfl

theorem firstFlowPacket_shift (hrest : r.rest = s.rest) (hoffset : r.offset = s.offset + n) :
    r.firstFlowPacket = s.firstFlowPacket.mapError (·.shift n) := by
  have hpeek := peek_shift hrest hoffset
  fun_induction PacketReader.firstFlowPacket s generalizing r with
  | case1 s e hs =>
      rw [hs] at hpeek
      rw [r.firstFlowPacket_eq, hpeek]
      rfl
  | case2 s hs =>
      rw [hs] at hpeek
      rw [r.firstFlowPacket_eq, hpeek]
      rfl
  | case3 s q k hs ht ih =>
      rw [hs] at hpeek
      have hrest' : (r.advance k).rest = (s.advance k).rest := congrArg (List.drop k) hrest
      have hoffset' : (r.advance k).offset = (s.advance k).offset + n := by
        show r.offset + k = s.offset + k + n
        omega
      rw [r.firstFlowPacket_eq, hpeek]
      simp only [Except.mapError, ht, if_true]
      exact ih hrest' hoffset' (peek_shift hrest' hoffset')
  | case4 s q k hs ht =>
      rw [hs] at hpeek
      rw [r.firstFlowPacket_eq, hpeek]
      simp only [Except.mapError, ht]
      rfl

end PacketReader

/-- What a packet means depends on its offset only in an error, and on the last address only if it
refers to it. -/
theorem FlowState.event_shift {s t : FlowState} {p : Packet} (inPsb : Bool) (offset n : Nat)
    (hip : ∀ kind payload, p = .ip kind payload →
      payload.apply s.lastIp = payload.apply t.lastIp) :
    s.event inPsb (offset + n) p = (t.event inPsb offset p).mapError (DecodeError.shift n) := by
  cases p with
  | ip kind payload =>
      unfold event
      simp only [hip kind payload rfl]
      split <;> rfl
  | _ => rfl

namespace Cursor

variable {c d : Cursor} {n base : Nat}

/-- The state `c` has the same bytes before it as `d`, `n` bytes further on in its window.  The
windows agree from the offset `base` of `d` on. -/
structure Shifted (n base : Nat) (c d : Cursor) : Prop where
  bytes : ∀ o ≥ base, c.reader.buffer.drop (o + n) = d.reader.buffer.drop o
  base_le_offset : base ≤ d.reader.offset
  base_le_last : base ≤ d.lastOffset + 1
  offset : c.reader.offset = d.reader.offset + n
  alike : c.flow.Alike d.flow
  lastIp : c.flow.lastIp = d.flow.lastIp ∨ d.reader.Absolute
  lastOffset : c.lastOffset = d.lastOffset + n
  steps : c.steps = d.steps
  inPsb : c.inPsb = d.inPsb
  done : c.done = d.done
  decoder : c.decoder = d.decoder
  rebuilt : c.rebuilt = d.rebuilt

namespace Shifted

theorem rest (h : Shifted n base c d) : c.reader.rest = d.reader.rest := by
  rw [c.reader.rest_eq, d.reader.rest_eq, h.offset]
  exact h.bytes _ h.base_le_offset

theorem peek (h : Shifted n base c d) :
    c.reader.peek = d.reader.peek.mapError (·.shift n) :=
  PacketReader.peek_shift h.rest h.offset

theorem apply_eq (h : Shifted n base c d) (kind : IpKind) {payload : IpPayload}
    (habs : d.reader.Absolute → (Packet.ip kind payload).isAbsolute = true) :
    payload.apply c.flow.lastIp = payload.apply d.flow.lastIp := by
  rcases h.lastIp with heq | hahead
  · rw [heq]
  · exact IpPayload.apply_of_isAbsolute (habs hahead) _ _

theorem withFlow {s t : FlowState} (h : Shifted n base c d) (halike : s.Alike t)
    (hs : s.lastIp = c.flow.lastIp) (ht : t.lastIp = d.flow.lastIp) :
    Shifted n base { c with flow := s } { d with flow := t } :=
  { h with alike := halike, lastIp := by rw [hs, ht]; exact h.lastIp }

theorem kindred (n base : Nat) :
    Kindred (Shifted n base) fun e e' => e = e'.shift n where
  alike h := h.alike
  withTnt _ h := h.withFlow { h.alike with tnt := rfl } rfl rfl
  withReturns _ h := h.withFlow { h.alike with returns := rfl } rfl rfl
  withIp _ h := h.withFlow { h.alike with ip := rfl } rfl rfl
  withPending _ h := h.withFlow { h.alike with pending := rfl } rfl rfl
  desync _ h := congrArg (DecodeError.desync · _) h.lastOffset

theorem consume {p : Packet} {k : Nat} (h : Shifted n base c d)
    (hp : d.reader.peek = .ok (some (p, k))) :
    Shifted n base (c.consume p k) (d.consume p k) := by
  have hbase := h.base_le_offset
  refine ⟨h.bytes, ?_, ?_, ?_, h.alike.absorb p, ?_, h.offset, rfl,
    congrArg (inPsbAfter · p) h.inPsb, h.done, h.decoder, h.rebuilt⟩
  · show base ≤ d.reader.offset + k
    omega
  · show base ≤ d.reader.offset + 1
    omega
  · show c.reader.offset + k = d.reader.offset + k + n
    rw [h.offset]
    omega
  · rcases h.lastIp with heq | hahead
    · left
      rw [lastIp_consume, lastIp_consume, heq]
    · exact .inr (hahead.advance hp)

theorem nextEvent (h : Shifted n base c d) :
    Agree (Shifted n base) (fun e e' => e = e'.shift n) c.nextEvent d.nextEvent := by
  induction hn : d.reader.rest.length using Nat.strongRecOn generalizing c d with
  | ind m ih =>
      have hpeek := h.peek
      rcases hd : d.reader.peek with e | _ | ⟨p, k⟩ <;> rw [hd] at hpeek
      · rw [nextEvent_of_fault hpeek, nextEvent_of_fault hd]
        exact .error rfl h
      · rw [nextEvent_of_end hpeek, nextEvent_of_end hd]
        exact .ok none h
      · have hp := h.consume hd
        have hevent := FlowState.event_shift (s := c.flow) (t := d.flow) (p := p) d.inPsb
          d.reader.offset n fun kind payload hip =>
            h.apply_eq kind fun hahead => hahead.isAbsolute (hip ▸ hd)
        rw [nextEvent_of_packet hpeek, nextEvent_of_packet hd, h.inPsb, h.offset, hevent]
        rcases d.flow.event d.inPsb d.reader.offset p with e | _ | event
        · exact .error rfl hp
        · exact ih _ (hn ▸ PacketReader.advance_rest_lt hd) hp rfl
        · exact .ok _ hp

theorem asyncAhead (ip : UInt64) (h : Shifted n base c d) :
    c.asyncAhead ip = (d.asyncAhead ip).mapError (·.shift n) := by
  have hfirst := PacketReader.firstFlowPacket_shift h.rest h.offset
  unfold Cursor.asyncAhead
  rw [hfirst]
  rcases hd : d.reader.firstFlowPacket with e | _ | p
  · rfl
  · rfl
  · cases p with
    | ip kind payload =>
        cases kind with
        | fup =>
            have happly := h.apply_eq .fup fun hahead => hahead.firstFlowPacket hd
            simp only [Except.mapError, happly]
        | _ => rfl
    | _ => rfl

theorem simulation (n base : Nat) :
    Simulation (fun _ _ => True) (Shifted n base) fun e e' => e = e'.shift n where
  toKindred := kindred n base
  within _ _ := trivial
  nextEvent h _ := h.nextEvent
  asyncAhead {c d} ip h _ _ := by
    rw [h.asyncAhead ip]
    cases d.asyncAhead ip with
    | ok ahead => exact .inl ⟨ahead, rfl, rfl⟩
    | error e => exact .inr ⟨e.shift n, e, rfl, rfl, rfl⟩

end Shifted

/-! ## Fetching -/

theorem readInstruction_congr (ip : UInt64) (hdecoder : c.decoder = d.decoder)
    (hmode : c.flow.mode = d.flow.mode) : c.readInstruction ip = d.readInstruction ip := by
  unfold readInstruction
  rw [hdecoder, hmode]

/-- Walks with the same code and the same mode fetch the same instructions. -/
theorem Agree.fetch {R : Cursor → Cursor → Prop} {E : DecodeError → DecodeError → Prop}
    (ip : UInt64) (hdecoder : c.decoder = d.decoder) (hmode : c.flow.mode = d.flow.mode)
    (hrebuilt : c.rebuilt = d.rebuilt) (hE : ∀ e, Unfetched e → E e e) (h : R c d)
    (hrebuild : R c.rebuild d.rebuild) : Agree R E (fetch ip c) (fetch ip d) := by
  have hsame := readInstruction_congr ip hdecoder hmode
  cases hd : d.readInstruction ip with
  | ok found =>
      rw [fetch_of_ok hd, fetch_of_ok (hsame.trans hd)]
      exact .ok _ h
  | error e =>
      by_cases hmiss : ∃ missing, e = .noMap missing ∧ d.rebuilt = false
      · obtain ⟨missing, rfl, hfirst⟩ := hmiss
        have hagain : c.rebuild.readInstruction ip = d.rebuild.readInstruction ip :=
          readInstruction_congr ip (congrArg (·.rebuild.2) hdecoder) hmode
        rw [fetch_of_noMap hd hfirst, fetch_of_noMap (hsame.trans hd) (hrebuilt.trans hfirst),
          hdecoder, hagain]
        rcases hb : d.decoder.rebuild with ⟨e | ⟨⟨⟩⟩, d'⟩
        · exact .error (hE e (rebuild_error hb)) hrebuild
        · cases hfound : d.rebuild.readInstruction ip with
          | ok found => exact .ok _ hrebuild
          | error e => exact .error (hE e (readInstruction_error hfound)) hrebuild
      · have hmiss : d.rebuilt = true ∨ ∀ missing, e ≠ .noMap missing := by
          cases hfirst : d.rebuilt with
          | true => exact .inl rfl
          | false => exact .inr fun missing he => hmiss ⟨missing, he, hfirst⟩
        rw [fetch_of_error hd hmiss, fetch_of_error (hsame.trans hd) (hrebuilt ▸ hmiss)]
        exact .error (hE e (readInstruction_error hd)) h

/-! ## Items -/

namespace Shifted

theorem rebuild (h : Shifted n base c d) : Shifted n base c.rebuild d.rebuild :=
  { h with decoder := congrArg (·.rebuild.2) h.decoder, rebuilt := rfl }

theorem countStep (h : Shifted n base c d) : Shifted n base c.countStep d.countStep :=
  { h with steps := congrArg (· + 1) h.steps }

theorem failing (e : DecodeError) (h : Shifted n base c d) :
    c.failing (e.shift n) = d.failing e + n := by
  cases e with
  | packet e =>
      show max c.lastOffset (e.offset + n) = max d.lastOffset e.offset + n
      rw [h.lastOffset]
      omega
  | _ => exact h.lastOffset

theorem recover (e : DecodeError) (h : Shifted n base c d) :
    Shifted n base (c.recover (e.shift n)) (d.recover e) := by
  have hreset : c.flow.reset = d.flow.reset := h.alike.reset_eq
  have halike : c.flow.reset.Alike d.flow.reset := hreset ▸ .refl _
  have hlastIp : c.flow.reset.lastIp = d.flow.reset.lastIp := congrArg (·.lastIp) hreset
  rcases overflow_or_ne e with ⟨offset, rfl⟩ | he
  · exact { h with alike := halike, lastIp := .inl hlastIp, steps := rfl }
  · have hlast := h.base_le_last
    have hfail := lastOffset_le_failing d e
    -- Both searches run over the same bytes.
    have hfind : findPsb (c.failing (e.shift n) + 1)
        (c.reader.buffer.drop (c.failing (e.shift n) + 1)) =
        (findPsb (d.failing e + 1) (d.reader.buffer.drop (d.failing e + 1))).map (· + n) := by
      rw [h.failing, Nat.add_right_comm, h.bytes _ (by omega), findPsb_add]
    rw [recover_eq he, recover_eq (DecodeError.shift_ne_overflow he n), hfind]
    rcases hplace : findPsb (d.failing e + 1) (d.reader.buffer.drop (d.failing e + 1)) with
      _ | place
    · exact ⟨h.bytes, h.base_le_offset, (by omega : base ≤ d.failing e + 1), h.offset, halike,
        .inl hlastIp, h.failing e, rfl, rfl, rfl, h.decoder, h.rebuilt⟩
    · have hle : d.failing e + 1 ≤ place := findPsb_le hplace
      exact ⟨h.bytes, (by omega : base ≤ place), (by omega : base ≤ d.failing e + 1), rfl, halike,
        .inl hlastIp, h.failing e, rfl, rfl, h.done, h.decoder, h.rebuilt⟩

theorem next (h : Shifted n base c d) :
    c.next.1 = d.next.1.map (Item.shift n) ∧ Shifted n base c.next.2 d.next.2 := by
  have hagree := (simulation n base).step (fun h => h.steps) (fun h => h.countStep)
    (fun _ _ => rfl)
    (fun ip h => .fetch ip h.decoder h.alike.mode h.rebuilt
      (fun e he => (DecodeError.shift_of_unfetched he n).symm) h h.rebuild) h
  unfold Cursor.next
  rw [h.done]
  cases d.done with
  | true => exact ⟨rfl, h⟩
  | false =>
      simp only [Bool.false_eq_true, if_false]
      generalize step c = r at hagree ⊢
      generalize step d = s at hagree ⊢
      cases hagree with
      | @error e e' c d he h =>
          cases he
          exact ⟨rfl, h.recover e'⟩
      | ok record h =>
          cases record with
          | none => exact ⟨rfl, { h with done := rfl }⟩
          | some record => exact ⟨rfl, h⟩

theorem after (h : Shifted n base c d) (k : Nat) : Shifted n base (c.after k) (d.after k) := by
  induction k with
  | zero => exact h
  | succ k ih => exact ih.next.2

/-- The same items further on. -/
theorem item_eq (h : Shifted n base c d) (k : Nat) :
    c.item k = (d.item k).map (Item.shift n) :=
  (h.after k).next.1

end Shifted

end Cursor

end BranchWatch
