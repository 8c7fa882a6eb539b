import BranchWatch.Proofs.Packet.Format
import Mathlib.Data.Nat.Bitwise

/-!
# How far reading a packet looks, in words

`Packet.parse` works on lists and whole numbers.  A reader in memory adds the length of a packet to
an offset before it knows whether the bytes are there, and it takes the outcomes out of a word with
shifts.  This module says how large these sums and shifts become.

`Packet.demand` is the number of bytes that reading looks for.  It is the length of the packet that
is read (`Packet.length_eq_demand`), and reading fails for want of bytes if and only if there are
fewer (`Packet.parse_truncated_iff`).  It is never far above what is there (`Packet.demand_le`).

`Packet.wordOutcomes?` takes the outcomes out of a 64-bit word and gives up at a shift by 64 places
or more.  On a payload that is not zero it never does, and it gives the outcomes of the payload
(`Packet.wordOutcomes?_eq`).  The outcomes of a packet come from such a payload
(`Packet.outcomes_of_parse`).  Addresses are only shifted by fixed numbers of places, all below 64.
-/

namespace BranchWatch

namespace Packet

variable {bytes rest : List UInt8} {p : Packet} {n : Nat} {fault : PacketFault}

/-! ## Bytes -/

/-- The bytes that a cycle counter looks for behind its header: up to the first even one, or one more
than there are. -/
def cycleDemand : List UInt8 → Nat
  | [] => 1
  | b :: rest => if b &&& 1 = 0 then 1 else cycleDemand rest + 1

/-- The bytes that an extended packet looks for; `rest` is what comes behind the escape byte. -/
def extendedDemand (rest : List UInt8) : Nat :=
  match rest with
  | [] => 2
  | opcode :: _ =>
    if opcode = 0x82 then 16
    else if opcode = 0xa3 then 8
    else match extendedForm? opcode with
      | some (_, n) => n
      | none => 2

/-- The bytes that a packet with an address looks for. -/
def ipDemand (header : UInt8) : Nat :=
  match ipKind? header, ipForm? (header >>> 5) with
  | some _, some (n, _) => n + 1
  | _, _ => 1

/-- The bytes that reading the packet in front looks for. -/
def demand : List UInt8 → Nat
  | [] => 0
  | header :: rest =>
    if header = 0x00 then 1
    else if header = 0x02 then extendedDemand rest
    else if header &&& 1 = 0 then 1
    else if header &&& 3 = 3 then if header &&& 4 = 0 then 1 else cycleDemand rest + 1
    else if header = 0x19 then 8
    else if header = 0x59 then 2
    else if header = 0x99 then 2
    else ipDemand header

/-- Reading looks for `n` bytes: a packet has this length, and a byte is missing if and only if there
are fewer. -/
def Demands (n : Nat) (bytes : List UInt8) : Except PacketFault (Packet × Nat) → Prop
  | .ok (_, length) => length = n
  | .error fault => fault = .truncated ↔ bytes.length < n

theorem length_lt_of_front (h : front n bytes = .error fault) : bytes.length < n := by
  unfold front at h
  split_ifs at h with hn
  rw [List.length_take] at hn
  omega

theorem demands_of_front (h : front n bytes = .error fault) : Demands n bytes (.error fault) :=
  iff_of_true (truncated_of_front h) (length_lt_of_front h)

/-- A fault that is no missing byte is found when all bytes are there. -/
theorem demands_of_le (hfault : fault ≠ .truncated) (h : n ≤ bytes.length) :
    Demands n bytes (.error fault) :=
  iff_of_false hfault (Nat.not_lt.mpr h)

theorem demands_fixed (p : Packet) (n : Nat) (bytes : List UInt8) :
    Demands n bytes (fixed p n bytes) := by
  unfold fixed
  split_ifs with hn
  · exact rfl
  · rw [List.length_take] at hn
    exact iff_of_true rfl (by omega)

theorem demands_cycleTail (rest : List UInt8) :
    match cycleTail rest with
    | .ok n => n = cycleDemand rest
    | .error _ => rest.length < cycleDemand rest := by
  induction rest with
  | nil => exact Nat.one_pos
  | cons b rest ih =>
      unfold cycleTail cycleDemand
      by_cases hlast : b &&& 1 = 0
      · rw [if_pos hlast, if_pos hlast]
      · rw [if_neg hlast, if_neg hlast]
        cases htail : cycleTail rest with
        | ok n =>
            rw [htail] at ih
            exact congrArg (· + 1) ih
        | error fault =>
            rw [htail] at ih
            exact Nat.succ_lt_succ ih

theorem demands_extended (escape : UInt8) (rest : List UInt8) :
    Demands (extendedDemand rest) (escape :: rest) (parseExtended (escape :: rest)) := by
  cases rest with
  | nil => exact iff_of_true rfl (by simp [extendedDemand])
  | cons opcode rest =>
      unfold parseExtended extendedDemand
      simp only
      split_ifs with hpsb htnt
      · cases hgroup : front 16 (escape :: opcode :: rest) with
        | error fault => exact demands_of_front hgroup
        | ok group =>
            simp only
            split_ifs
            · exact rfl
            · exact demands_of_le (by simp) (front_length hgroup)
      · cases hgroup : front 8 (escape :: opcode :: rest) with
        | error fault => exact demands_of_front hgroup
        | ok group =>
            simp only
            split_ifs
            · exact demands_of_le (by simp) (front_length hgroup)
            · exact rfl
      · rcases extendedForm? opcode with _ | ⟨p, n⟩
        · exact demands_of_le (by simp) (by simp)
        · exact demands_fixed p n _

theorem demands_ip (header : UInt8) (rest : List UInt8) :
    Demands (ipDemand header) (header :: rest) (parseIp header (header :: rest)) := by
  unfold parseIp ipDemand
  cases ipKind? header with
  | none => exact demands_of_le nofun (by simp)
  | some kind =>
      rcases ipForm? (header >>> 5) with _ | ⟨n, payload⟩
      · exact demands_of_le nofun (by simp)
      · simp only
        cases hgroup : front (n + 1) (header :: rest) with
        | error fault => exact demands_of_front hgroup
        | ok group => exact rfl

theorem exists_demands (header : UInt8) (rest : List UInt8) :
    ∃ r, parse (header :: rest) = some <$> r ∧
      Demands (demand (header :: rest)) (header :: rest) r := by
  refine ⟨_, rfl, ?_⟩
  -- Reading and its demand tell the headers apart in the same order.
  simp only [demand]
  split_ifs
  · exact rfl
  · exact demands_extended header rest
  · exact rfl
  · exact rfl
  · have htail := demands_cycleTail rest
    cases hcycle : cycleTail rest with
    | ok n =>
        rw [hcycle] at htail
        exact congrArg (· + 1) htail
    | error fault =>
        rw [hcycle] at htail
        exact iff_of_true (truncated_of_cycleTail hcycle) (Nat.succ_lt_succ htail)
  · exact demands_fixed tsc 8 _
  · exact demands_fixed mtc 2 _
  · cases rest with
    | nil => exact iff_of_true rfl (by simp)
    | cons payload rest => exact rfl
  · exact demands_ip header rest

/-- The length of a packet is what reading it looks for. -/
theorem length_eq_demand (h : parse bytes = .ok (some (p, n))) : n = demand bytes := by
  cases bytes with
  | nil => cases h
  | cons header rest =>
      obtain ⟨r, hr, hdemands⟩ := exists_demands header rest
      rw [hr, map_some_eq_ok] at h
      rw [h] at hdemands
      exact hdemands

/-- Bytes are missing if and only if there are fewer than reading looks for. -/
theorem parse_truncated_iff : parse bytes = .error .truncated ↔ bytes.length < demand bytes := by
  cases bytes with
  | nil => exact iff_of_false nofun (Nat.lt_irrefl 0)
  | cons header rest =>
      obtain ⟨r, hr, hdemands⟩ := exists_demands header rest
      rw [hr, map_some_eq_error]
      cases r with
      | error fault =>
          rw [← show fault = .truncated ↔ _ from hdemands]
          simp
      | ok found =>
          have hlength : found.2 = demand (header :: rest) := hdemands
          have hle : found.2 ≤ (header :: rest).length := (parse_length hr).2
          exact iff_of_false nofun (by omega)

theorem extendedForm?_le {opcode : UInt8} (h : extendedForm? opcode = some (p, n)) : n ≤ 11 := by
  unfold extendedForm? at h
  split at h
  case h_14 =>
    split at h
    next => cases h; split <;> decide
    next => cases h
  all_goals cases h; decide

theorem ipForm?_le {code : UInt8} {payload : UInt64 → IpPayload}
    (h : ipForm? code = some (n, payload)) : n ≤ 8 := by
  unfold ipForm? at h
  split at h <;> cases h <;> decide

theorem cycleDemand_le (rest : List UInt8) : cycleDemand rest ≤ rest.length + 1 := by
  induction rest with
  | nil => exact Nat.le_refl 1
  | cons b rest ih =>
      unfold cycleDemand
      split_ifs
      · simp
      · exact Nat.succ_le_succ ih

theorem extendedDemand_le (rest : List UInt8) : extendedDemand rest ≤ 16 := by
  unfold extendedDemand
  split
  · decide
  · split_ifs
    · decide
    · decide
    · split
      next hform => exact Nat.le_trans (extendedForm?_le hform) (by decide)
      next => decide

theorem ipDemand_le (header : UInt8) : ipDemand header ≤ 16 := by
  unfold ipDemand
  split
  next hform => exact Nat.le_trans (Nat.succ_le_succ (ipForm?_le hform)) (by decide)
  next => decide

/-- Reading looks for 16 bytes at most, or, in a cycle counter, for one more than there are. -/
theorem demand_le (bytes : List UInt8) : demand bytes ≤ max 16 (bytes.length + 1) := by
  cases bytes with
  | nil => decide
  | cons header rest =>
      have hextended := extendedDemand_le rest
      have hcycle := cycleDemand_le rest
      have hip := ipDemand_le header
      rw [List.length_cons]
      simp only [demand]
      split_ifs <;> omega

/-! ## Shifts -/

/-- One shifted to the left by `n` places, in a word of 64 bits; nothing if that is too far. -/
def bit? (n : Nat) : Option UInt64 := if n < 64 then some (1 <<< n.toUInt64) else none

/-- The place of the highest set bit: 63 less the number of leading zeros, if these are not more. -/
def highestBit? (payload : UInt64) : Option Nat :=
  let zeros := payload.toBitVec.clz.toNat
  if zeros ≤ 63 then some (63 - zeros) else none

/-- The outcomes of a payload, taken out of a word one by one, the oldest first. -/
def wordOutcomes? (payload : UInt64) : Option (List Bool) := do
  let count ← highestBit? payload
  let stop ← bit? count
  let bits := payload &&& (stop - 1)
  (List.range count).reverse.mapM fun i => do
    let bit ← bit? i
    return bits &&& bit ≠ 0

theorem bit?_of_lt (h : n < 64) : ∃ bit, bit? n = some bit ∧ bit.toNat = 2 ^ n := by
  refine ⟨1 <<< n.toUInt64, if_pos h, ?_⟩
  have hn : n.toUInt64.toNat = n := Nat.mod_eq_of_lt (by omega)
  have hpow : 2 ^ n < 2 ^ 64 := Nat.pow_lt_pow_right (by decide) h
  rw [UInt64.toNat_shiftLeft, hn, Nat.mod_eq_of_lt h, Nat.shiftLeft_eq]
  simpa using Nat.mod_eq_of_lt hpow

/-- A word that is not zero has a highest set bit. -/
theorem highestBit?_eq {payload : UInt64} (h : payload ≠ 0) :
    highestBit? payload = some payload.toNat.log2 ∧ payload.toNat.log2 < 64 := by
  have hne : payload.toBitVec ≠ 0#64 := fun hzero => h (UInt64.toBitVec_inj.1 hzero)
  have hpos : payload.toNat ≠ 0 := fun hzero => h (UInt64.toNat_inj.1 hzero)
  have hzeros : payload.toBitVec.clz.toNat < 64 := BitVec.clz_lt_iff_ne_zero.2 hne
  have hlow := BitVec.two_pow_sub_clz_le_toNat_of_ne_zero (by decide) hne
  have hhigh := BitVec.toNat_lt_two_pow_sub_clz (x := payload.toBitVec)
  have hlog : payload.toNat.log2 = 63 - payload.toBitVec.clz.toNat := by
    rw [Nat.log2_eq_iff hpos]
    refine ⟨hlow, ?_⟩
    rw [show 63 - payload.toBitVec.clz.toNat + 1 = 64 - payload.toBitVec.clz.toNat by omega]
    exact hhigh
  rw [hlog]
  exact ⟨if_pos (by omega), by omega⟩

/-- Below the highest set bit, the bits of a word are those of its number. -/
theorem and_bit_ne_zero_iff (payload : UInt64) {stop bit : UInt64} {count i : Nat}
    (hstop : stop.toNat = 2 ^ count) (hbit : bit.toNat = 2 ^ i) (hi : i < count) :
    payload &&& (stop - 1) &&& bit ≠ 0 ↔ payload.toNat.testBit i = true := by
  have hone : (1 : UInt64) ≤ stop := by
    rw [UInt64.le_iff_toNat_le, hstop]
    exact Nat.one_le_two_pow
  rw [ne_eq, ← UInt64.toNat_inj, UInt64.toNat_and, UInt64.toNat_and,
    UInt64.toNat_sub_of_le _ _ hone, hstop, hbit, UInt64.toNat_one,
    Nat.and_two_pow_sub_one_eq_mod, Nat.and_two_pow, Nat.testBit_mod_two_pow]
  cases payload.toNat.testBit i <;> simp [hi]

theorem mapM_eq_some_map {α β : Type} {f : α → Option β} {g : α → β} {l : List α}
    (h : ∀ a ∈ l, f a = some (g a)) : l.mapM f = some (l.map g) := by
  induction l with
  | nil => rfl
  | cons a l ih =>
      have ha : f a = some (g a) := h a List.mem_cons_self
      have hl := ih fun b hb => h b (List.mem_cons_of_mem a hb)
      simp [List.mapM_cons, ha, hl]

/-- No shift for the outcomes of a payload is too far, and they are those of its number. -/
theorem wordOutcomes?_eq {payload : UInt64} (h : payload ≠ 0) :
    wordOutcomes? payload = some (branchBits payload.toNat) := by
  obtain ⟨hcount, hlt⟩ := highestBit?_eq h
  obtain ⟨stop, hstop, hstopValue⟩ := bit?_of_lt hlt
  simp only [wordOutcomes?, hcount, hstop, Option.bind_eq_bind, Option.bind_some]
  refine mapM_eq_some_map fun i hi => ?_
  have hi : i < payload.toNat.log2 := by simpa using hi
  obtain ⟨bit, hbit, hbitValue⟩ := bit?_of_lt (Nat.lt_trans hi hlt)
  have hiff := and_bit_ne_zero_iff payload hstopValue hbitValue hi
  simp only [hbit, Option.bind_some]
  exact congrArg some ((decide_eq_decide.2 hiff).trans (Bool.decide_coe _))

/-- The outcomes of a packet come out of a payload that is not zero: of the header without its lowest
bit, or of the six bytes behind the opcode. -/
theorem outcomes_of_parse {taken : List Bool} (h : parse bytes = .ok (some (.tnt taken, n))) :
    ∃ payload : UInt64, payload ≠ 0 ∧ wordOutcomes? payload = some taken ∧
      taken.length < 64 ∧
      (bytes.take n = [(2 * payload.toNat).toUInt8] ∨
        bytes.take n = 0x02 :: 0xa3 :: LittleEndian.bytes 6 payload.toNat) := by
  obtain ⟨form, hpacket, hbytes⟩ := exists_form h
  have hpos := tntPayload_pos taken
  have hlast := (tntPayload_bounds taken).2
  have hpayload (hlength : taken.length ≤ 47) : ∃ payload : UInt64, payload ≠ 0 ∧
      wordOutcomes? payload = some taken ∧ payload.toNat = tntPayload taken := by
    have hpow : Nat.pow 2 (taken.length + 1) ≤ 2 ^ 48 :=
      Nat.pow_le_pow_right (by decide) (Nat.succ_le_succ hlength)
    have hvalue : (tntPayload taken).toUInt64.toNat = tntPayload taken :=
      Nat.mod_eq_of_lt (Nat.lt_of_lt_of_le (Nat.lt_of_lt_of_le hlast hpow) (by decide))
    have hne : (tntPayload taken).toUInt64 ≠ 0 := by
      intro hzero
      rw [hzero] at hvalue
      exact Nat.ne_of_gt hpos hvalue.symm
    refine ⟨_, hne, ?_, hvalue⟩
    rw [wordOutcomes?_eq hne, hvalue, branchBits_tntPayload]
  cases form with
  | shortTnt taken' hnonempty hshort =>
      cases hpacket
      obtain ⟨payload, hne, hword, hvalue⟩ := hpayload (by omega)
      exact ⟨payload, hne, hword, by omega, .inl (by rw [← hbytes, hvalue]; rfl)⟩
  | longTnt taken' hshort =>
      cases hpacket
      obtain ⟨payload, hne, hword, hvalue⟩ := hpayload hshort
      exact ⟨payload, hne, hword, by omega, .inr (by rw [← hbytes, hvalue]; rfl)⟩
  | extended form payload hlength =>
      cases form <;> cases hpacket
  | _ => cases hpacket

end Packet

end BranchWatch
