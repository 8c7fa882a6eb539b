import BranchWatch.Proofs.Packet.Extent

/-!
# Every form of a packet

`PacketForm` lists the ways in which a packet can stand in a trace, with the contents that the reader
ignores.  A form carries the bounds of its contents, so whatever can be said with `PacketForm` can be
sent.  Each form is read back as its packet, whatever bytes follow (`PacketForm.parse_append`), so
none of them is the beginning of another (`PacketForm.eq_of_isPrefix`).
-/

namespace BranchWatch

/-- The extended packets of a fixed length whose contents do not matter. -/
inductive ExtendedForm where
  | psbEnd
  | overflow
  | traceStop
  /-- With the bit that says that an address follows, or without. -/
  | exstop (withIp : Bool)
  | cbr
  | pwre
  | tma
  | vmcs
  | pwrx
  | pip
  | mwait
  | mnt
  /-- The three highest bits of the opcode: whether an address follows, and how much was written. -/
  | ptw (code : Fin 8)
  deriving DecidableEq, Repr

namespace ExtendedForm

/-- The byte that follows the escape byte. -/
def opcode : ExtendedForm → UInt8
  | psbEnd => 0x23
  | overflow => 0xf3
  | traceStop => 0x83
  | exstop withIp => if withIp then 0xe2 else 0x62
  | cbr => 0x03
  | pwre => 0x22
  | tma => 0x73
  | vmcs => 0xc8
  | pwrx => 0xa2
  | pip => 0x43
  | mwait => 0xc2
  | mnt => 0xc3
  | ptw code => UInt8.ofNat (32 * code.val + 0x12)

/-- How many bytes follow the opcode. -/
def width : ExtendedForm → Nat
  | psbEnd | overflow | traceStop | exstop _ => 0
  | cbr | pwre => 2
  | tma | vmcs | pwrx => 5
  | pip => 6
  | mwait => 8
  | mnt => 9
  | ptw code => if code.val % 4 = 0 then 4 else 8

def packet : ExtendedForm → Packet
  | psbEnd => .psbEnd
  | overflow => .overflow
  | traceStop => .traceStop
  | exstop _ => .exstop
  | cbr => .cbr
  | pwre => .pwre
  | tma => .tma
  | vmcs => .vmcs
  | pwrx => .pwrx
  | pip => .pip
  | mwait => .mwait
  | mnt => .mnt
  | ptw _ => .ptw

/-- The opcode tells the packet and its length. -/
theorem extendedForm?_opcode (form : ExtendedForm) :
    Packet.extendedForm? form.opcode = some (form.packet, form.width + 2) := by
  cases form with
  | exstop withIp => cases withIp <;> rfl
  | ptw code =>
      revert code
      decide
  | _ => rfl

/-- The five lowest bits select a written value, whatever the others are. -/
theorem exists_ptw {opcode : UInt8} (h : opcode &&& 0x1f = 0x12) :
    ∃ form : ExtendedForm, form.opcode = opcode ∧ form.packet = .ptw ∧
      (if opcode &&& 0x60 = 0 then 6 else 10) = form.width + 2 := by
  have hlow (b : UInt8) : b &&& 0x1f = 0x12 →
      UInt8.ofNat (32 * (b.toNat / 32) + 0x12) = b ∧
        (if b &&& 0x60 = 0 then 6 else 10) = (if b.toNat / 32 % 4 = 0 then 4 else 8) + 2 := by
    obtain ⟨b⟩ := b
    revert b
    decide +kernel
  have hcode : opcode.toNat / 32 < 8 := by
    have := opcode.toNat_lt
    omega
  exact ⟨ptw ⟨opcode.toNat / 32, hcode⟩, (hlow opcode h).1, rfl, (hlow opcode h).2⟩

/-- Only these opcodes are known. -/
theorem exists_of_extendedForm? {opcode : UInt8} {p : Packet} {n : Nat}
    (h : Packet.extendedForm? opcode = some (p, n)) :
    ∃ form : ExtendedForm, form.opcode = opcode ∧ form.packet = p ∧ n = form.width + 2 := by
  have hopcode {form : ExtendedForm} (h : opcode.toNat = form.opcode.toNat) :
      form.opcode = opcode := (UInt8.toNat_inj.1 h).symm
  unfold Packet.extendedForm? at h
  split at h <;> rename_i heq
  case h_14 =>
    split at h
    next hlow =>
      cases h
      exact exists_ptw hlow
    next => cases h
  all_goals obtain ⟨rfl, rfl⟩ := Prod.mk.inj (Option.some.inj h)
  case h_1 => exact ⟨psbEnd, hopcode heq, rfl, rfl⟩
  case h_2 => exact ⟨overflow, hopcode heq, rfl, rfl⟩
  case h_3 => exact ⟨traceStop, hopcode heq, rfl, rfl⟩
  case h_4 => exact ⟨exstop false, hopcode heq, rfl, rfl⟩
  case h_5 => exact ⟨exstop true, hopcode heq, rfl, rfl⟩
  case h_6 => exact ⟨cbr, hopcode heq, rfl, rfl⟩
  case h_7 => exact ⟨pwre, hopcode heq, rfl, rfl⟩
  case h_8 => exact ⟨tma, hopcode heq, rfl, rfl⟩
  case h_9 => exact ⟨vmcs, hopcode heq, rfl, rfl⟩
  case h_10 => exact ⟨pwrx, hopcode heq, rfl, rfl⟩
  case h_11 => exact ⟨pip, hopcode heq, rfl, rfl⟩
  case h_12 => exact ⟨mwait, hopcode heq, rfl, rfl⟩
  case h_13 => exact ⟨mnt, hopcode heq, rfl, rfl⟩

end ExtendedForm

/-- The payload of a mode packet reports this mode. -/
def Reports (payload : UInt8) : ExecMode → Prop
  | .bits64 => payload.toNat % 2 = 1
  | .bits32 => payload.toNat % 4 = 2
  | .bits16 => payload.toNat % 4 = 0

/-- A way in which a packet can stand in a trace. -/
inductive PacketForm where
  | pad
  | psb
  | shortTnt (taken : List Bool) (nonempty : taken ≠ []) (short : taken.length ≤ 6)
  | longTnt (taken : List Bool) (short : taken.length ≤ 47)
  | suppressedIp (kind : IpKind)
  | ip (kind : IpKind) (form : IpForm) (value : UInt64)
      (fits : value.toNat < Nat.pow 256 form.width)
  | execMode (mode : ExecMode) (payload : UInt8) (low : payload.toNat < 32)
      (reports : Reports payload mode)
  | transaction (payload : UInt8) (high : 32 ≤ payload.toNat)
  | tsc (payload : List UInt8) (length : payload.length = 7)
  | mtc (payload : UInt8)
  /-- A cycle counter that fits into the header. -/
  | shortCycle (header : UInt8) (last : header.toNat % 8 = 3)
  /-- A cycle counter that goes on; its last byte is even. -/
  | longCycle (header : UInt8) (more : header.toNat % 8 = 7) (middle : List UInt8)
      (odd : ∀ b ∈ middle, b.toNat % 2 = 1) (last : UInt8) (even : last.toNat % 2 = 0)
  | extended (form : ExtendedForm) (payload : List UInt8) (length : payload.length = form.width)

/-- What fits into the field is sent as it is. -/
theorem IpForm.sent_of_lt {form : IpForm} {value : UInt64}
    (h : value.toNat < Nat.pow 256 form.width) : form.sent value = value := by
  unfold IpForm.sent
  rw [Nat.mod_eq_of_lt h]
  exact value.ofNat_toNat

namespace PacketForm

/-- What is sent. -/
def bytes : PacketForm → List UInt8
  | pad => [0x00]
  | psb => Packet.psbPattern
  | shortTnt taken _ _ => Packet.shortTnt taken
  | longTnt taken _ => Packet.longTnt taken
  | suppressedIp kind => [Packet.ipOpcode kind]
  | ip kind form value _ => Packet.ipBytes kind form value
  | execMode _ payload _ _ => [0x99, payload]
  | transaction payload _ => [0x99, payload]
  | tsc payload _ => 0x19 :: payload
  | mtc payload => [0x59, payload]
  | shortCycle header _ => [header]
  | longCycle header _ middle _ last _ => header :: (middle ++ [last])
  | extended form payload _ => 0x02 :: form.opcode :: payload

/-- What is meant. -/
def packet : PacketForm → Packet
  | pad => .pad
  | psb => .psb
  | shortTnt taken _ _ => .tnt taken
  | longTnt taken _ => .tnt taken
  | suppressedIp kind => .ip kind .suppressed
  | ip kind form value _ => .ip kind (form.payload value)
  | execMode mode _ _ _ => .execMode mode
  | transaction _ _ => .transaction
  | tsc _ _ => .tsc
  | mtc _ => .mtc
  | shortCycle _ _ => .cyc
  | longCycle _ _ _ _ _ _ => .cyc
  | extended form _ _ => form.packet

/-! ## The bits of a byte -/

theorem and_one_eq_zero_iff (b : UInt8) : b &&& 1 = 0 ↔ b.toNat % 2 = 0 := by
  obtain ⟨b⟩ := b
  revert b
  decide +kernel

theorem shortCycle_iff (b : UInt8) : b &&& 3 = 3 ∧ b &&& 4 = 0 ↔ b.toNat % 8 = 3 := by
  obtain ⟨b⟩ := b
  revert b
  decide +kernel

theorem longCycle_iff (b : UInt8) : b &&& 3 = 3 ∧ b &&& 4 ≠ 0 ↔ b.toNat % 8 = 7 := by
  obtain ⟨b⟩ := b
  revert b
  decide +kernel

theorem shiftRight_five_eq_zero_iff (b : UInt8) : b >>> 5 = 0 ↔ b.toNat < 32 := by
  obtain ⟨b⟩ := b
  revert b
  decide +kernel

theorem modeOf_eq_iff (payload : UInt8) (mode : ExecMode) :
    Packet.modeOf payload = mode ↔ Reports payload mode := by
  have hone : payload &&& 1 = 0 ↔ payload.toNat % 2 = 0 := and_one_eq_zero_iff payload
  have htwo : payload &&& 2 = 0 ↔ payload.toNat / 2 % 2 = 0 := by
    obtain ⟨b⟩ := payload
    revert b
    decide +kernel
  simp only [Packet.modeOf, ne_eq, hone, htwo]
  split_ifs <;> cases mode <;> simp [Reports] <;> omega

/-! ## Reading a form -/

theorem fixed_append {p : Packet} {n : Nat} {group : List UInt8} (h : group.length = n)
    (rest : List UInt8) : Packet.fixed p n (group ++ rest) = .ok (p, n) := by
  unfold Packet.fixed
  rw [List.take_left' h, if_pos h]

theorem parse_extended {form : ExtendedForm} {payload : List UInt8}
    (h : payload.length = form.width) (rest : List UInt8) :
    Packet.parse (0x02 :: form.opcode :: (payload ++ rest)) =
      .ok (some (form.packet, payload.length + 2)) := by
  have hform := form.extendedForm?_opcode
  have hpsb : form.opcode ≠ 0x82 := fun h => by rw [h] at hform; cases hform
  have htnt : form.opcode ≠ 0xa3 := fun h => by rw [h] at hform; cases hform
  have hlen : (0x02 :: form.opcode :: payload).length = form.width + 2 := by
    rw [List.length_cons, List.length_cons, h]
  rw [Packet.parse_escape]
  unfold Packet.parseExtended
  simp only [if_neg hpsb, if_neg htnt, hform]
  rw [← List.cons_append, ← List.cons_append, fixed_append hlen, h]
  rfl

theorem parse_tsc {payload : List UInt8} (h : payload.length = 7) (rest : List UInt8) :
    Packet.parse (0x19 :: (payload ++ rest)) = .ok (some (.tsc, payload.length + 1)) := by
  have hlen : (0x19 :: payload).length = 8 := congrArg (· + 1) h
  have hfixed : Packet.parse (0x19 :: (payload ++ rest)) =
      some <$> Packet.fixed .tsc 8 (0x19 :: payload ++ rest) := rfl
  rw [hfixed, fixed_append hlen, h]
  rfl

theorem parse_mode (payload : UInt8) (rest : List UInt8) :
    Packet.parse (0x99 :: payload :: rest) = .ok (some
      (if payload.toNat < 32 then .execMode (Packet.modeOf payload) else .transaction, 2)) := by
  have hparse : Packet.parse (0x99 :: payload :: rest) = .ok (some
      (if payload >>> 5 = 0 then .execMode (Packet.modeOf payload) else .transaction, 2)) := rfl
  simp only [hparse, shiftRight_five_eq_zero_iff]

/-- A counter is read up to its first even byte. -/
theorem cycleTail_append {middle : List UInt8} (hmiddle : ∀ b ∈ middle, b.toNat % 2 = 1)
    {last : UInt8} (hlast : last.toNat % 2 = 0) (rest : List UInt8) :
    Packet.cycleTail (middle ++ [last] ++ rest) = .ok (middle.length + 1) := by
  induction middle with
  | nil =>
      rw [← and_one_eq_zero_iff] at hlast
      show Packet.cycleTail (last :: rest) = _
      rw [Packet.cycleTail, if_pos hlast]
      rfl
  | cons b middle ih =>
      have hodd : b &&& 1 ≠ 0 := by
        rw [Ne, and_one_eq_zero_iff, hmiddle b List.mem_cons_self]
        decide
      show Packet.cycleTail (b :: (middle ++ [last] ++ rest)) = _
      rw [Packet.cycleTail, if_neg hodd, ih fun b hb => hmiddle b (List.mem_cons_of_mem _ hb)]
      rfl

/-- The headers of cycle counters have no other meaning. -/
theorem cycleHeader_ne {header : UInt8} (h : header &&& 3 = 3) :
    header ≠ 0x00 ∧ header ≠ 0x02 ∧ header &&& 1 ≠ 0 := by
  obtain ⟨b⟩ := header
  revert b
  decide +kernel

theorem parse_shortCycle {header : UInt8} (hlow : header &&& 3 = 3) (hshort : header &&& 4 = 0)
    (rest : List UInt8) : Packet.parse (header :: rest) = .ok (some (.cyc, 1)) := by
  obtain ⟨hpad, hescape, hodd⟩ := cycleHeader_ne hlow
  unfold Packet.parse
  simp only [if_neg hpad, if_neg hescape, if_neg hodd, if_pos hlow, if_pos hshort]
  rfl

theorem parse_longCycle {header : UInt8} (hlow : header &&& 3 = 3) (hlong : header &&& 4 ≠ 0)
    {rest : List UInt8} {n : Nat} (htail : Packet.cycleTail rest = .ok n) :
    Packet.parse (header :: rest) = .ok (some (.cyc, n + 1)) := by
  obtain ⟨hpad, hescape, hodd⟩ := cycleHeader_ne hlow
  unfold Packet.parse
  simp only [if_neg hpad, if_neg hescape, if_neg hodd, if_pos hlow, if_neg hlong, htail]
  rfl

theorem parse_append (form : PacketForm) (rest : List UInt8) :
    Packet.parse (form.bytes ++ rest) = .ok (some (form.packet, form.bytes.length)) := by
  cases form with
  | pad => rfl
  | psb => rfl
  | shortTnt taken nonempty short => exact Packet.parse_shortTnt nonempty short rest
  | longTnt taken short =>
      rw [bytes, Packet.length_longTnt]
      exact Packet.parse_longTnt short rest
  | suppressedIp kind => cases kind <;> rfl
  | ip kind form value fits =>
      rw [bytes, Packet.length_ipBytes, Packet.parse_ipBytes, IpForm.sent_of_lt fits]
      rfl
  | execMode mode payload low reports =>
      rw [bytes, List.cons_append, List.cons_append, parse_mode, if_pos low,
        (modeOf_eq_iff payload mode).2 reports]
      rfl
  | transaction payload high =>
      rw [bytes, List.cons_append, List.cons_append, parse_mode, if_neg (Nat.not_lt.2 high)]
      rfl
  | tsc payload length => exact parse_tsc length rest
  | mtc payload => rfl
  | shortCycle header last =>
      obtain ⟨hlow, hshort⟩ := (shortCycle_iff header).2 last
      exact parse_shortCycle hlow hshort rest
  | longCycle header more middle odd last even =>
      obtain ⟨hlow, hlong⟩ := (longCycle_iff header).2 more
      rw [bytes, List.length_cons, List.length_append]
      exact parse_longCycle hlow hlong (cycleTail_append odd even rest)
  | extended form payload length => exact parse_extended length rest

/-- Taken, not taken, taken: the highest set bit and three outcomes, above a bit that is not set. -/
example : (shortTnt [true, false, true] (by decide) (by decide)).bytes = [0x1a] := by decide

end PacketForm

end BranchWatch
