import BranchWatch.Proofs.Packet.Writing

/-!
# The bytes of a packet

A packet is a matter of its own bytes alone: where these stand, the same packet is read, whatever
comes behind them (`parse_of_take`).  Reading finds nothing only where there are no bytes
(`parse_eq_none_iff`).  Of the packets of outcomes only one form has none: the long one that
consists of its end mark (`longTnt_nil_isPrefix_of_parse`).
-/

namespace BranchWatch

/-- Equally many bytes stand for the same number only if they are the same. -/
theorem LittleEndian.eq_of_value {bytes bytes' : List UInt8} (hlen : bytes.length = bytes'.length)
    (h : value bytes = value bytes') : bytes = bytes' := by
  induction bytes generalizing bytes' with
  | nil => exact (List.eq_nil_of_length_eq_zero hlen.symm).symm
  | cons b rest ih =>
      cases bytes' with
      | nil => cases hlen
      | cons b' rest' =>
          have hb := b.toNat_lt
          have hb' := b'.toNat_lt
          have hvalue : b.toNat + 256 * value rest = b'.toNat + 256 * value rest' := h
          have hhead : b = b' := UInt8.toNat_inj.1 (by omega)
          have htail : rest = rest' := ih (Nat.succ.inj hlen) (by omega)
          rw [hhead, htail]

namespace Packet

variable {bytes bytes' rest rest' : List UInt8} {p : Packet} {n m : Nat}

/-- Reading fails or finds a packet, unless there are no bytes. -/
theorem parse_eq_none_iff : parse bytes = .ok none ↔ bytes = [] := by
  refine ⟨fun h => ?_, fun h => h ▸ rfl⟩
  cases bytes with
  | nil => rfl
  | cons header rest =>
      unfold parse at h
      simp only at h
      generalize (ite (header = 0x00) _ _ : Except PacketFault (Packet × Nat)) = r at h
      cases r <;> cases h

/-! ## Where the same bytes stand -/

theorem map_some_eq_ok {r : Except PacketFault (Packet × Nat)} :
    some <$> r = .ok (some (p, n)) ↔ r = .ok (p, n) := by
  cases r with
  | error e => exact ⟨nofun, nofun⟩
  | ok found =>
      refine ⟨fun h => ?_, fun h => h ▸ rfl⟩
      cases h
      rfl

theorem front_congr (h : bytes'.take n = bytes.take n) : front n bytes' = front n bytes := by
  unfold front
  rw [h]

theorem fixed_congr (p : Packet) (h : bytes'.take n = bytes.take n) :
    fixed p n bytes' = fixed p n bytes := by
  unfold fixed
  rw [h]

theorem cycleTail_of_take (h : cycleTail bytes = .ok n) (htake : bytes'.take n = bytes.take n) :
    cycleTail bytes' = .ok n := by
  induction bytes generalizing bytes' n with
  | nil => cases h
  | cons b rest ih =>
      -- The counter ends with the first byte whose lowest bit is not set.
      unfold cycleTail at h
      split at h
      next hlast =>
        cases h
        cases bytes' with
        | nil => cases htake
        | cons b' rest' =>
            obtain ⟨rfl, _⟩ := List.cons.inj htake
            unfold cycleTail
            rw [if_pos hlast]
      next hmore =>
        split at h
        next k hk =>
          cases h
          cases bytes' with
          | nil => cases htake
          | cons b' rest' =>
              obtain ⟨rfl, htail⟩ := List.cons.inj htake
              unfold cycleTail
              rw [if_neg hmore, ih hk htail]
        next => cases h

theorem two_le_of_extendedForm? {opcode : UInt8} (h : extendedForm? opcode = some (p, n)) :
    2 ≤ n := by
  unfold extendedForm? at h
  split at h
  case h_14 =>
    split at h
    next => cases h; split <;> decide
    next => cases h
  all_goals cases h; decide

/-- The opcode of an extended packet is one of its bytes. -/
theorem two_le_of_parseExtended (h : parseExtended bytes = .ok (p, n)) : 2 ≤ n := by
  unfold parseExtended at h
  split at h
  next =>
    split_ifs at h
    · split at h
      next => cases h
      next => split_ifs at h; cases h; decide
    · split at h
      next => cases h
      next => simp only at h; split_ifs at h; cases h; decide
    · split at h
      next hform =>
        obtain ⟨rfl, _⟩ := fixed_length h
        exact two_le_of_extendedForm? hform
      next => cases h
  next => cases h

theorem parseExtended_of_take (h : parseExtended bytes = .ok (p, n))
    (htake : bytes'.take n = bytes.take n) : parseExtended bytes' = .ok (p, n) := by
  obtain ⟨k, rfl⟩ := Nat.exists_eq_add_of_le' (two_le_of_parseExtended h)
  match bytes, bytes', htake with
  | escape :: opcode :: rest, escape' :: opcode' :: rest', htake =>
    obtain ⟨rfl, htail⟩ := List.cons.inj htake
    obtain ⟨rfl, _⟩ := List.cons.inj htail
    unfold parseExtended at h ⊢
    simp only at h ⊢
    split_ifs at h ⊢
    · have hk : k = 14 := by
        split at h
        next => cases h
        next => split_ifs at h; cases h; rfl
      subst hk
      rw [front_congr htake]
      exact h
    · have hk : k = 6 := by
        split at h
        next => cases h
        next => split_ifs at h; cases h; rfl
      subst hk
      rw [front_congr htake]
      exact h
    · split at h
      next hform =>
        obtain ⟨rfl, _⟩ := fixed_length h
        rw [fixed_congr _ htake]
        exact h
      next => cases h
  | [], _, _ => cases h
  | [_], _, _ => cases h

theorem parseIp_of_take {header : UInt8} (h : parseIp header bytes = .ok (p, n))
    (htake : bytes'.take n = bytes.take n) : parseIp header bytes' = .ok (p, n) := by
  unfold parseIp at h ⊢
  split at h
  next => cases h
  next =>
    split at h
    next => cases h
    next k payload hform =>
      have hn : n = k + 1 := by
        split at h
        next => cases h
        next => cases h; rfl
      rw [hn] at htake
      rw [front_congr htake]
      exact h

/-- The same bytes read as the same packet, whatever comes behind them. -/
theorem parse_of_take (h : parse bytes = .ok (some (p, n)))
    (htake : bytes'.take n = bytes.take n) : parse bytes' = .ok (some (p, n)) := by
  obtain ⟨k, rfl⟩ := Nat.exists_eq_add_of_lt (parse_length_pos h)
  rw [Nat.zero_add] at h htake ⊢
  match bytes, bytes', htake with
  | header :: rest, header' :: rest', htake =>
    obtain ⟨rfl, htail⟩ := List.cons.inj htake
    unfold parse at h ⊢
    simp only at h ⊢
    rw [map_some_eq_ok] at h ⊢
    -- The header decides which form is read.
    split_ifs at h ⊢
    · exact h
    · exact parseExtended_of_take h htake
    · exact h
    · exact h
    · split at h
      next hcycle =>
        cases h
        rw [cycleTail_of_take hcycle htail]
      next => cases h
    · obtain ⟨hk, _⟩ := fixed_length h
      rw [hk] at htake
      rw [fixed_congr _ htake]
      exact h
    · obtain ⟨hk, _⟩ := fixed_length h
      rw [hk] at htake
      rw [fixed_congr _ htake]
      exact h
    · match rest, rest', htail with
      | payload :: rest, payload' :: rest', htail =>
        cases h
        obtain ⟨rfl, _⟩ := List.cons.inj htail
        rfl
      | payload :: rest, [], htail =>
        cases h
        cases htail
      | [], _, _ => cases h
    · exact parseIp_of_take h htake
  | [], _, _ => cases h

/-! ## Packets without outcomes -/

theorem lt_two_of_branchBits {payload : Nat} (h : branchBits payload = []) : payload < 2 := by
  unfold branchBits at h
  rw [List.map_eq_nil_iff, List.reverse_eq_nil_iff, List.range_eq_nil] at h
  have hlt := Nat.lt_log2_self (n := payload)
  rwa [h] at hlt

theorem packet_of_fixed {q : Packet} (h : fixed q m bytes = .ok (p, n)) : p = q := by
  unfold fixed at h
  split_ifs at h
  cases h
  rfl

theorem extendedForm?_ne_tnt {opcode : UInt8} {taken : List Bool} :
    extendedForm? opcode ≠ some (tnt taken, n) := by
  intro h
  unfold extendedForm? at h
  split at h
  case h_14 => split_ifs at h <;> cases h
  all_goals cases h

/-- The payload of a long packet without outcomes is 1. -/
theorem longTnt_nil_isPrefix_of_parseExtended {opcode : UInt8}
    (h : parseExtended (0x02 :: opcode :: rest) = .ok (tnt [], n)) :
    longTnt [] <+: 0x02 :: opcode :: rest := by
  unfold parseExtended at h
  simp only at h
  split_ifs at h
  · split at h
    next => cases h
    next => split_ifs at h; cases h
  next hlong =>
    split at h
    next => cases h
    next group hgroup =>
      split_ifs at h
      next hzero =>
        obtain ⟨hpacket, _⟩ := Prod.mk.inj (Except.ok.inj h)
        have hlt := lt_two_of_branchBits (tnt.inj hpacket)
        have hone : LittleEndian.value (group.drop 2) = 1 := by omega
        unfold front at hgroup
        split_ifs at hgroup
        next hlen =>
          cases hgroup
          have hlen : (rest.take 6).length = 6 :=
            Nat.succ.inj (Nat.succ.inj hlen)
          have hbytes : rest.take 6 = [1, 0, 0, 0, 0, 0] := LittleEndian.eq_of_value hlen hone
          have htake : longTnt [] = (0x02 :: opcode :: rest).take 8 := by
            rw [List.take_succ_cons, List.take_succ_cons, hbytes, hlong]
            decide
          rw [htake]
          exact List.take_prefix _ _
  · split at h
    next hform =>
      cases packet_of_fixed h
      exact absurd hform extendedForm?_ne_tnt
    next => cases h

/-- A short packet of outcomes has one, since its header is neither 0 nor 2. -/
theorem branchBits_header_ne_nil {header : UInt8} (hpad : header ≠ 0x00)
    (hescape : header ≠ 0x02) (heven : header &&& 1 = 0) :
    branchBits (header >>> 1).toNat ≠ [] := by
  intro h
  have hlt := lt_two_of_branchBits h
  have hshift : (header >>> 1).toNat = header.toNat / 2 := by
    rw [UInt8.toNat_shiftRight, Nat.shiftRight_eq_div_pow]
    rfl
  have heven : header.toNat % 2 = 0 := by
    rw [← Nat.and_one_is_mod]
    exact congrArg UInt8.toNat heven
  have hcases : header.toNat = 0 ∨ header.toNat = 2 := by omega
  rcases hcases with hzero | htwo
  · exact hpad (UInt8.toNat_inj.1 hzero)
  · exact hescape (UInt8.toNat_inj.1 htwo)

/-- Of the packets of outcomes only the one that consists of its end mark has none. -/
theorem longTnt_nil_isPrefix_of_parse (h : parse bytes = .ok (some (tnt [], n))) :
    longTnt [] <+: bytes := by
  match bytes, h with
  | header :: rest, h =>
    unfold parse at h
    simp only at h
    rw [map_some_eq_ok] at h
    split_ifs at h
    next => cases h
    next hescape =>
      subst hescape
      cases rest with
      | nil => cases h
      | cons opcode rest => exact longTnt_nil_isPrefix_of_parseExtended h
    next hpad hescape heven =>
      obtain ⟨hpacket, _⟩ := Prod.mk.inj (Except.ok.inj h)
      exact absurd (tnt.inj hpacket) (branchBits_header_ne_nil hpad hescape heven)
    next => cases h
    next => split at h <;> cases h
    next => cases packet_of_fixed h
    next => cases packet_of_fixed h
    next =>
      split at h
      next => cases h
      next => split_ifs at h <;> cases h
    next =>
      unfold parseIp at h
      split at h
      next => cases h
      next =>
        split at h
        next => cases h
        next => split at h <;> cases h

end Packet

end BranchWatch
