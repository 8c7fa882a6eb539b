import BranchWatch.Proofs.Packet.Format
import BranchWatch.Proofs.Walk.Following
import Mathlib.Algebra.Group.Nat.Defs

/-!
# Addresses that are sent one after the other

An address is sent in one of several forms, most of which leave out bits of the address that was
sent before.  `Sending.roundtrip` says that nothing is lost: whatever form is taken for each
address, as long as it fits (`Sending.Fit`), and wherever packets without an address stand in
between, the walk finds the very same addresses.  The other way round, every packet that is read
stands for one address and no other.

A packet without an address leaves alone what the next address is compared with.  Sender and walk
agree about that, and so the induction over what is sent carries the last address along.
-/

namespace BranchWatch

/-! ## One address -/

namespace IpForm

variable {form : IpForm} {last ip value : UInt64} {k : Nat}

/-- Upper bits of one number and lower bits of another make an address. -/
theorem exists_update (hk : k ≤ 64) (last : UInt64) (h : value.toNat < 2 ^ k) :
    ∃ ip : UInt64, ip.toNat >>> k = last.toNat >>> k ∧ ip.toNat % 2 ^ k = value.toNat := by
  have hpow : 2 ^ k * 2 ^ (64 - k) = 2 ^ 64 := by rw [← Nat.pow_add, Nat.add_sub_cancel' hk]
  have hupper : last.toNat / 2 ^ k < 2 ^ (64 - k) := by
    rw [Nat.div_lt_iff_lt_mul (Nat.two_pow_pos k), Nat.mul_comm, hpow]
    exact last.toNat_lt
  have hlt : 2 ^ k * (last.toNat / 2 ^ k) + value.toNat < 2 ^ 64 :=
    calc 2 ^ k * (last.toNat / 2 ^ k) + value.toNat
        < 2 ^ k * (last.toNat / 2 ^ k) + 2 ^ k := Nat.add_lt_add_left h _
      _ = 2 ^ k * (last.toNat / 2 ^ k + 1) := rfl
      _ ≤ 2 ^ k * 2 ^ (64 - k) := Nat.mul_le_mul_left _ hupper
      _ = 2 ^ 64 := hpow
  refine ⟨(2 ^ k * (last.toNat / 2 ^ k) + value.toNat).toUInt64, ?_, ?_⟩
  · rw [UInt64.toNat_ofNat_of_lt' hlt, Nat.shiftRight_eq_div_pow, Nat.shiftRight_eq_div_pow,
      Nat.mul_add_div (Nat.two_pow_pos k), Nat.div_eq_of_lt h, Nat.add_zero]
  · rw [UInt64.toNat_ofNat_of_lt' hlt, Nat.mul_add_mod, Nat.mod_eq_of_lt h]

/-- There is an address whose upper bits repeat bit 47, with any lower 48 bits. -/
theorem exists_sext48 (h : value.toNat < 2 ^ 48) :
    ∃ ip : UInt64, (ip >>> 47 = 0 ∨ ip >>> 47 = 0x1ffff) ∧ ip.toNat % 2 ^ 48 = value.toNat := by
  have hshift (ip : UInt64) : (ip >>> 47).toNat = ip.toNat / 2 ^ 47 := by
    rw [UInt64.toNat_shiftRight, Nat.shiftRight_eq_div_pow]
    rfl
  -- Bit 47 says whether the upper bits are all clear or all set.
  by_cases hlow : value.toNat < 2 ^ 47
  · refine ⟨value, .inl (UInt64.toNat_inj.1 ?_), Nat.mod_eq_of_lt h⟩
    rw [hshift]
    exact Nat.div_eq_of_lt hlow
  · have htoNat : (value + 0xffff000000000000).toNat = value.toNat + 0xffff000000000000 := by
      rw [UInt64.toNat_add]
      exact Nat.mod_eq_of_lt (Nat.add_lt_add_right h _)
    refine ⟨value + 0xffff000000000000, .inr (UInt64.toNat_inj.1 ?_), ?_⟩
    · rw [hshift, htoNat]
      show _ = 0x1ffff
      omega
    · rw [htoNat]
      omega

theorem sent_eq (h : ip.toNat % Nat.pow 256 form.width = value.toNat) : form.sent ip = value := by
  rw [sent, h]
  exact value.ofNat_toNat

/-- Every contents of the field stands for an address. -/
theorem exists_fits (form : IpForm) (last : UInt64) (h : value.toNat < Nat.pow 256 form.width) :
    ∃ ip, form.Fits last ip ∧ form.sent ip = value := by
  have hupdate (k : UInt64) (hk : k.toNat < 64) (h : value.toNat < 2 ^ k.toNat) :
      ∃ ip : UInt64, ip >>> k = last >>> k ∧ ip.toNat % 2 ^ k.toNat = value.toNat := by
    obtain ⟨ip, hupper, hlower⟩ := exists_update (Nat.le_of_lt hk) last h
    refine ⟨ip, UInt64.toNat_inj.1 ?_, hlower⟩
    rwa [UInt64.toNat_shiftRight, UInt64.toNat_shiftRight, Nat.mod_eq_of_lt hk]
  cases form with
  | update16 =>
      obtain ⟨ip, hupper, hlower⟩ := hupdate 16 (by decide) h
      exact ⟨ip, hupper, sent_eq hlower⟩
  | update32 =>
      obtain ⟨ip, hupper, hlower⟩ := hupdate 32 (by decide) h
      exact ⟨ip, hupper, sent_eq hlower⟩
  | sext48 =>
      obtain ⟨ip, hupper, hlower⟩ := exists_sext48 h
      exact ⟨ip, hupper, sent_eq hlower⟩
  | update48 =>
      obtain ⟨ip, hupper, hlower⟩ := hupdate 48 (by decide) h
      exact ⟨ip, hupper, sent_eq hlower⟩
  | full => exact ⟨value, trivial, sent_of_lt h⟩

/-- It is restored, and there is no other one. -/
theorem exists_unique_fits (form : IpForm) (last : UInt64)
    (h : value.toNat < Nat.pow 256 form.width) :
    ∃ ip, (form.payload value).apply last = some ip ∧ form.Fits last ip ∧ form.sent ip = value ∧
      ∀ other, form.Fits last other → form.sent other = value → other = ip := by
  obtain ⟨ip, hfits, hsent⟩ := form.exists_fits last h
  have happly {other : UInt64} (hfits : form.Fits last other) (hsent : form.sent other = value) :
      (form.payload value).apply last = some other := hsent ▸ apply_payload hfits
  refine ⟨ip, happly hfits hsent, hfits, hsent, fun other hother hsent' => ?_⟩
  exact Option.some.inj ((happly hother hsent').symm.trans (happly hfits hsent))

end IpForm

/-- The payload of a packet with an address fits into its field. -/
theorem PacketForm.payload_of_ip {form : PacketForm} {kind : IpKind} {payload : IpPayload}
    (h : form.packet = .ip kind payload) : payload = .suppressed ∨
      ∃ (form : IpForm) (value : UInt64), value.toNat < Nat.pow 256 form.width ∧
        payload = form.payload value := by
  cases form with
  | suppressedIp =>
      cases h
      exact .inl rfl
  | ip _ form value fits =>
      cases h
      exact .inr ⟨form, value, fits, rfl⟩
  | extended form => cases form <;> cases h
  | _ => cases h

/-! ## Many addresses -/

/-- What is sent about addresses: one of them in a form, or that there is none to tell. -/
inductive Sending where
  | address (kind : IpKind) (form : IpForm) (ip : UInt64)
  | suppressed (kind : IpKind)

namespace Sending

def kind : Sending → IpKind
  | address kind _ _ | suppressed kind => kind

/-- The address that is sent, if there is one. -/
def ip? : Sending → Option UInt64
  | address _ _ ip => some ip
  | suppressed _ => none

def payload : Sending → IpPayload
  | address _ form ip => form.payload (form.sent ip)
  | suppressed _ => .suppressed

def bytes : Sending → List UInt8
  | address kind form ip => Packet.ipBytes kind form ip
  | suppressed kind => [Packet.ipOpcode kind]

/-- Every address is sent in a form that can stand for it after the address sent before it. -/
def Fit : UInt64 → List Sending → Prop
  | _, [] => True
  | last, address _ form ip :: sendings => form.Fits last ip ∧ Fit ip sendings
  | last, suppressed _ :: sendings => Fit last sendings

/-- The packets with their offsets, the first one at `offset`. -/
def packets (offset : Nat) : List Sending → List (Nat × Packet)
  | [] => []
  | s :: sendings => (offset, .ip s.kind s.payload) :: packets (offset + s.bytes.length) sendings

/-- What the walk is to hear of it. -/
def event (inPsb : Bool) (s : Sending) : FlowEvent :=
  if s.kind = .fup ∧ inPsb then .status s.ip? else .ip s.kind s.ip?

theorem parse_bytes (s : Sending) (rest : List UInt8) :
    Packet.parse (s.bytes ++ rest) = .ok (some (.ip s.kind s.payload, s.bytes.length)) := by
  cases s with
  | address kind form ip =>
      rw [bytes, Packet.length_ipBytes]
      exact Packet.parse_ipBytes kind form ip rest
  | suppressed kind => exact (PacketForm.suppressedIp kind).parse_append rest

/-- The first address is restored, and the others fit after it. -/
theorem Fit.apply_payload {s : Sending} {sendings : List Sending} {last : UInt64}
    (h : Fit last (s :: sendings)) :
    s.payload.apply last = s.ip? ∧ Fit (s.ip?.getD last) sendings := by
  cases s with
  | address kind form ip => exact ⟨IpForm.apply_payload h.1, h.2⟩
  | suppressed kind => exact ⟨rfl, h⟩

theorem items_of_sendings {r : PacketReader} {sendings : List Sending}
    (hr : r.rest = sendings.flatMap bytes) :
    r.items = (packets r.offset sendings).map .ok := by
  induction sendings generalizing r with
  | nil =>
      rw [PacketReader.items_of_end (PacketReader.peek_of_nil hr)]
      rfl
  | cons s sendings ih =>
      rw [List.flatMap_cons] at hr
      rw [PacketReader.items_of_packet (PacketReader.peek_of_parse hr (s.parse_bytes _)),
        ih (PacketReader.advance_of_rest hr)]
      rfl

end Sending

/-- The first `n` events that a walk hears of. -/
def Cursor.events : Nat → Cursor → List FlowEvent
  | 0, _ => []
  | n + 1, c =>
    match nextEvent c with
    | .ok (some event) d => event :: d.events n
    | _ => []

namespace Sending

/-- The walk hears of one sending, and remembers its address. -/
theorem nextEvent_eq {c : Cursor} {s : Sending} {rest : List UInt8}
    (hr : c.reader.rest = s.bytes ++ rest) (h : s.payload.apply c.flow.lastIp = s.ip?) :
    ∃ d, c.nextEvent = .ok (some (s.event c.inPsb)) d ∧ d.reader.rest = rest ∧
      d.inPsb = c.inPsb ∧ d.flow.lastIp = s.ip?.getD c.flow.lastIp := by
  have hevent : c.flow.event c.inPsb c.reader.offset (.ip s.kind s.payload) =
      .ok (some (s.event c.inPsb)) := by
    simp only [FlowState.event, h, event]
    split <;> rfl
  refine ⟨c.consume (.ip s.kind s.payload) s.bytes.length, ?_, PacketReader.advance_of_rest hr, rfl,
    ?_⟩
  · rw [Cursor.nextEvent_of_packet (PacketReader.peek_of_parse hr (s.parse_bytes _)), hevent]
  · rw [← h]
    rfl

theorem events_of_fit {c : Cursor} {sendings : List Sending} {rest : List UInt8}
    (h : Fit c.flow.lastIp sendings) (hr : c.reader.rest = sendings.flatMap bytes ++ rest) :
    c.events sendings.length = sendings.map (event c.inPsb) := by
  induction sendings generalizing c with
  | nil => rfl
  | cons s sendings ih =>
      rw [List.flatMap_cons, List.append_assoc] at hr
      obtain ⟨happly, hfit⟩ := h.apply_payload
      obtain ⟨d, hevent, hrest, hpsb, hlast⟩ := nextEvent_eq hr happly
      rw [List.length_cons, Cursor.events, hevent, List.map_cons, ← hpsb]
      exact congrArg _ (ih (hlast ▸ hfit) hrest)

/-- **Addresses come through whatever form they are sent in.** -/
theorem roundtrip :
    (∀ (last : UInt64) (sendings : List Sending), Fit last sendings →
      (∀ before : List UInt8,
        (PacketReader.mkAt (before ++ sendings.flatMap bytes) before.length).items =
          (packets before.length sendings).map .ok) ∧
      ∀ (c : Cursor) (rest : List UInt8), c.flow.lastIp = last →
        c.reader.rest = sendings.flatMap bytes ++ rest →
          c.events sendings.length = sendings.map (event c.inPsb)) ∧
    ∀ (r : PacketReader) (kind : IpKind) (payload : IpPayload) (n : Nat) (last : UInt64),
      r.peek = .ok (some (.ip kind payload, n)) →
        (payload = .suppressed ∧ payload.apply last = none) ∨
        ∃ (form : IpForm) (value ip : UInt64), payload = form.payload value ∧
          payload.apply last = some ip ∧ form.Fits last ip ∧ form.sent ip = value ∧
          ∀ other, form.Fits last other → form.sent other = value → other = ip := by
  refine ⟨fun last sendings hfit => ⟨fun before => ?_, fun c rest hlast hr => ?_⟩,
    fun r kind payload n last hpeek => ?_⟩
  · exact items_of_sendings List.drop_left
  · exact events_of_fit (hlast ▸ hfit) hr
  · obtain ⟨form, hform, -⟩ := Packet.exists_form (PacketReader.parse_of_peek hpeek)
    rcases PacketForm.payload_of_ip hform with rfl | ⟨form, value, hvalue, rfl⟩
    · exact .inl ⟨rfl, rfl⟩
    · obtain ⟨ip, happly, hfits, hsent, hunique⟩ := form.exists_unique_fits last hvalue
      exact .inr ⟨form, value, ip, rfl, happly, hfits, hsent, hunique⟩

/-- Lower bits, no address, an address of the kernel, and lower bits of that one. -/
example : Fit 0x7fff12345678 [.address .tip .update16 0x7fff1234abcd, .suppressed .pgd,
    .address .pge .sext48 0xffffffff80000000, .address .tip .update32 0xffffffff00401000] :=
  ⟨rfl, .inr rfl, rfl, trivial⟩

end Sending

end BranchWatch
