import BranchWatch.Proofs.Packet.Form
import BranchWatch.Proofs.Packet.Reader

/-!
# The format of packets

The forms of `PacketForm` are all that the reader accepts: what it reads as a packet is one of the
forms of that packet (`exists_form`), and no form is the beginning of another
(`PacketForm.eq_of_isPrefix`).  So a packet is where its bytes are, in any buffer.  A fault other
than a missing byte is a matter of the bytes that are there, too: it does not go away when more bytes
come (`parse_append_of_error`).
-/

namespace BranchWatch

theorem LittleEndian.bytes_value (bytes : List UInt8) :
    LittleEndian.bytes bytes.length (value bytes) = bytes := by
  refine eq_of_value (length_bytes _ _) ?_
  rw [value_bytes, Nat.mod_eq_of_lt (value_lt bytes)]

namespace Packet

variable {bytes rest : List UInt8} {p : Packet} {n : Nat}

theorem length_branchBits (payload : Nat) : (branchBits payload).length = payload.log2 := by
  rw [branchBits, List.length_map, List.length_reverse, List.length_range]

/-- The outcomes of a payload have this payload. -/
theorem tntPayload_branchBits {payload : Nat} (h : 0 < payload) :
    tntPayload (branchBits payload) = payload := by
  induction payload using Nat.strongRecOn with
  | ind payload ih =>
      by_cases hone : payload = 1
      · rw [hone]
        decide
      · -- All but the lowest bit is a payload itself.
        have hbit : payload = 2 * (payload / 2) + (decide (payload % 2 = 1)).toNat := by
          rcases Nat.mod_two_eq_zero_or_one payload with hmod | hmod <;> simp [hmod] <;> omega
        have hhalf := ih (payload / 2) (by omega) (by omega)
        conv_lhs => rw [hbit]
        rw [branchBits_bit (by omega), tntPayload_concat, hhalf]
        exact hbit.symm

/-! ## What is read has a form -/

theorem front_eq_ok {group : List UInt8} (h : front n bytes = .ok group) :
    group = bytes.take n ∧ group.length = n := by
  unfold front at h
  split_ifs at h with hlen
  cases h
  exact ⟨rfl, hlen⟩

theorem exists_shortTnt {header : UInt8} (hpad : header ≠ 0x00) (hescape : header ≠ 0x02)
    (heven : header &&& 1 = 0) :
    ∃ form : PacketForm, form.packet = tnt (branchBits (header >>> 1).toNat) ∧
      form.bytes = [header] := by
  have hshift : (header >>> 1).toNat = header.toNat / 2 := by
    rw [UInt8.toNat_shiftRight, Nat.shiftRight_eq_div_pow]
    rfl
  have hlt := header.toNat_lt
  have hmod := (PacketForm.and_one_eq_zero_iff header).1 heven
  have hpad : header.toNat ≠ 0 := fun h => hpad (UInt8.toNat_inj.1 h)
  have hescape : header.toNat ≠ 2 := fun h => hescape (UInt8.toNat_inj.1 h)
  rw [hshift]
  have hpos : 0 < header.toNat / 2 := by omega
  have hnonempty : branchBits (header.toNat / 2) ≠ [] := fun h => by
    have := lt_two_of_branchBits h
    omega
  have hshort : (branchBits (header.toNat / 2)).length ≤ 6 := by
    rw [length_branchBits]
    exact Nat.le_of_lt_succ ((Nat.log2_lt (by omega)).2 (by omega))
  refine ⟨.shortTnt _ hnonempty hshort, rfl, ?_⟩
  show [(2 * tntPayload (branchBits (header.toNat / 2))).toUInt8] = [header]
  rw [tntPayload_branchBits hpos, show 2 * (header.toNat / 2) = header.toNat by omega]
  exact congrArg (· :: []) header.ofNat_toNat

theorem exists_longTnt {group : List UInt8} (hlen : group.length = 6)
    (hpos : LittleEndian.value group ≠ 0) :
    ∃ form : PacketForm, form.packet = tnt (branchBits (LittleEndian.value group)) ∧
      form.bytes = 0x02 :: 0xa3 :: group := by
  have hlt := LittleEndian.value_lt group
  rw [hlen] at hlt
  have hshort : (branchBits (LittleEndian.value group)).length ≤ 47 := by
    rw [length_branchBits]
    exact Nat.le_of_lt_succ ((Nat.log2_lt hpos).2 hlt)
  refine ⟨.longTnt _ hshort, rfl, ?_⟩
  show 0x02 :: 0xa3 :: LittleEndian.bytes 6 (tntPayload _) = _
  rw [tntPayload_branchBits (Nat.pos_of_ne_zero hpos), ← hlen, LittleEndian.bytes_value]

theorem exists_extended (h : parseExtended (0x02 :: rest) = .ok (p, n)) :
    ∃ form : PacketForm, form.packet = p ∧ form.bytes = (0x02 :: rest).take n := by
  unfold parseExtended at h
  split at h
  next opcode rest heq =>
    obtain ⟨-, rfl⟩ := List.cons.inj heq
    split_ifs at h with hpsb htnt
    · split at h
      next => cases h
      next group hgroup =>
        obtain ⟨rfl, -⟩ := front_eq_ok hgroup
        split_ifs at h with hpattern
        cases h
        exact ⟨.psb, rfl, hpattern.symm⟩
    · split at h
      next => cases h
      next group hgroup =>
        obtain ⟨rfl, hlen⟩ := front_eq_ok hgroup
        simp only at h
        split_ifs at h with hzero
        cases h
        subst htnt
        have hlen : (rest.take 6).length = 6 := Nat.succ.inj (Nat.succ.inj hlen)
        exact exists_longTnt hlen hzero
    · split at h
      next hform =>
        obtain ⟨rfl, hle⟩ := fixed_length h
        cases packet_of_fixed h
        obtain ⟨form, rfl, rfl, rfl⟩ := ExtendedForm.exists_of_extendedForm? hform
        have hlen : (rest.take form.width).length = form.width := by
          rw [List.length_take]
          simp only [List.length_cons] at hle
          omega
        exact ⟨.extended form _ hlen, rfl, rfl⟩
      next => cases h
  next => cases h

/-- A counter consists of odd bytes and then an even one. -/
theorem exists_of_cycleTail (h : cycleTail rest = .ok n) :
    ∃ middle last, (∀ b ∈ middle, b.toNat % 2 = 1) ∧ last.toNat % 2 = 0 ∧
      rest.take n = middle ++ [last] := by
  induction rest generalizing n with
  | nil => cases h
  | cons b rest ih =>
      unfold cycleTail at h
      split at h
      next hlast =>
        cases h
        exact ⟨[], b, fun _ hb => absurd hb List.not_mem_nil,
          (PacketForm.and_one_eq_zero_iff b).1 hlast, rfl⟩
      next hmore =>
        split at h
        next k hk =>
          cases h
          obtain ⟨middle, last, hmiddle, hlast, htake⟩ := ih hk
          rw [PacketForm.and_one_eq_zero_iff] at hmore
          refine ⟨b :: middle, last, ?_, hlast, ?_⟩
          · simp only [List.mem_cons, forall_eq_or_imp]
            exact ⟨by omega, hmiddle⟩
          · rw [List.take_succ_cons, htake]
            rfl
        next => cases h

theorem exists_cycle {header : UInt8} (hlow : header &&& 3 = 3) (hlong : header &&& 4 ≠ 0)
    (h : cycleTail rest = .ok n) :
    ∃ form : PacketForm, form.packet = cyc ∧ form.bytes = (header :: rest).take (n + 1) := by
  obtain ⟨middle, last, hmiddle, hlast, htake⟩ := exists_of_cycleTail h
  have hmore := (PacketForm.longCycle_iff header).1 ⟨hlow, hlong⟩
  refine ⟨.longCycle header hmore middle hmiddle last hlast, rfl, ?_⟩
  rw [List.take_succ_cons, htake]
  rfl

theorem exists_mode {payload : UInt8} :
    ∃ form : PacketForm, form.packet = (if payload >>> 5 = 0 then execMode (modeOf payload)
      else transaction) ∧ form.bytes = [0x99, payload] := by
  simp only [PacketForm.shiftRight_five_eq_zero_iff]
  split_ifs with hlow
  · exact ⟨.execMode _ payload hlow ((PacketForm.modeOf_eq_iff payload _).1 rfl), rfl, rfl⟩
  · exact ⟨.transaction payload (Nat.not_lt.1 hlow), rfl, rfl⟩

theorem opcode_of_ipKind? {header : UInt8} {kind : IpKind} (h : ipKind? header = some kind) :
    header &&& 0x1f = ipOpcode kind := by
  unfold ipKind? at h
  split at h <;> rename_i heq <;> cases h <;> exact UInt8.toNat_inj.1 heq

/-- Either no address is sent, or it is sent in one of the forms. -/
theorem form_of_ipForm? {code : UInt8} {k : Nat} {payload : UInt64 → IpPayload}
    (h : ipForm? code = some (k, payload)) :
    (code = 0 ∧ k = 0 ∧ payload = fun _ => .suppressed) ∨
      ∃ form : IpForm, form.code = code ∧ form.width = k ∧ form.payload = payload := by
  have hcode {form : IpForm} (h : code.toNat = form.code.toNat) : form.code = code :=
    (UInt8.toNat_inj.1 h).symm
  unfold ipForm? at h
  split at h <;> rename_i heq <;> cases h
  · exact .inl ⟨UInt8.toNat_inj.1 heq, rfl, rfl⟩
  · exact .inr ⟨.update16, hcode heq, rfl, rfl⟩
  · exact .inr ⟨.update32, hcode heq, rfl, rfl⟩
  · exact .inr ⟨.sext48, hcode heq, rfl, rfl⟩
  · exact .inr ⟨.update48, hcode heq, rfl, rfl⟩
  · exact .inr ⟨.full, hcode heq, rfl, rfl⟩

theorem exists_ipBytes {kind : IpKind} {form : IpForm} {group : List UInt8}
    (hlen : group.length = form.width) :
    ∃ packetForm : PacketForm,
      packetForm.packet = .ip kind (form.payload (LittleEndian.value group).toUInt64) ∧
        packetForm.bytes = (form.code <<< 5 ||| ipOpcode kind) :: group := by
  have hlt := LittleEndian.value_lt group
  rw [hlen] at hlt
  have hwidth : Nat.pow 256 form.width ≤ 2 ^ 64 := by cases form <;> decide
  have hvalue : (LittleEndian.value group).toUInt64.toNat = LittleEndian.value group :=
    UInt64.toNat_ofNat_of_lt' (Nat.lt_of_lt_of_le hlt hwidth)
  refine ⟨.ip kind form _ (by rwa [hvalue]), rfl, ?_⟩
  show _ :: LittleEndian.bytes form.width (LittleEndian.value group).toUInt64.toNat = _
  rw [hvalue, ← hlen, LittleEndian.bytes_value]

/-- A header consists of the code of the form and the opcode of the kind. -/
theorem header_eq (header : UInt8) : header = (header >>> 5) <<< 5 ||| (header &&& 0x1f) := by
  obtain ⟨b⟩ := header
  revert b
  decide +kernel

theorem exists_ip {header : UInt8} (h : parseIp header (header :: rest) = .ok (p, n)) :
    ∃ form : PacketForm, form.packet = p ∧ form.bytes = (header :: rest).take n := by
  have hheader := header_eq header
  unfold parseIp at h
  split at h
  next => cases h
  next kind hkind =>
    rw [opcode_of_ipKind? hkind] at hheader
    split at h
    next => cases h
    next k payload hform =>
      split at h
      next => cases h
      next group hgroup =>
        obtain ⟨rfl, hlen⟩ := front_eq_ok hgroup
        cases h
        rcases form_of_ipForm? hform with ⟨hcode, rfl, rfl⟩ | ⟨form, hcode, rfl, rfl⟩
        · rw [hcode] at hheader
          refine ⟨.suppressedIp kind, rfl, ?_⟩
          rw [hheader]
          cases kind <;> rfl
        · have hlen : (rest.take form.width).length = form.width := Nat.succ.inj hlen
          rw [← hcode] at hheader
          rw [List.take_succ_cons, hheader]
          exact exists_ipBytes hlen

theorem fixed_eq_ok {q : Packet} {m : Nat} (h : fixed q m bytes = .ok (p, n)) :
    p = q ∧ n = m ∧ (bytes.take m).length = m := by
  unfold fixed at h
  split_ifs at h with hlen
  cases h
  exact ⟨rfl, rfl, hlen⟩

/-- **What is read as a packet is one of its forms.** -/
theorem exists_form (h : parse bytes = .ok (some (p, n))) :
    ∃ form : PacketForm, form.packet = p ∧ form.bytes = bytes.take n := by
  match bytes, h with
  | header :: rest, h =>
    unfold parse at h
    simp only at h
    rw [map_some_eq_ok] at h
    split_ifs at h with hpad hescape heven hlow hlong htsc hmtc hmode
    · cases h
      exact ⟨.pad, rfl, congrArg (· :: []) hpad.symm⟩
    · subst hescape
      exact exists_extended h
    · cases h
      exact exists_shortTnt hpad hescape heven
    · cases h
      exact ⟨.shortCycle header ((PacketForm.shortCycle_iff header).1 ⟨hlow, hlong⟩), rfl, rfl⟩
    · split at h
      next hcycle =>
        cases h
        exact exists_cycle hlow hlong hcycle
      next => cases h
    · obtain ⟨rfl, rfl, hlen⟩ := fixed_eq_ok h
      subst htsc
      exact ⟨.tsc (rest.take 7) (Nat.succ.inj hlen), rfl, rfl⟩
    · obtain ⟨rfl, rfl, hlen⟩ := fixed_eq_ok h
      subst hmtc
      match rest, hlen with
      | payload :: rest, _ => exact ⟨.mtc payload, rfl, rfl⟩
    · subst hmode
      match rest, h with
      | payload :: rest, h =>
        cases h
        exact exists_mode
    · exact exists_ip h

/-! ## Faults -/

variable {fault : PacketFault}

theorem map_some_eq_error {r : Except PacketFault (Packet × Nat)} :
    some <$> r = .error fault ↔ r = .error fault := by
  cases r with
  | error e => exact ⟨fun h => by cases h; rfl, fun h => by cases h; rfl⟩
  | ok found => exact ⟨nofun, nofun⟩

theorem truncated_of_front (h : front n bytes = .error fault) : fault = .truncated := by
  unfold front at h
  split_ifs at h
  cases h
  rfl

theorem truncated_of_fixed (h : fixed p n bytes = .error fault) : fault = .truncated := by
  unfold fixed at h
  split_ifs at h
  cases h
  rfl

theorem truncated_of_cycleTail (h : cycleTail bytes = .error fault) : fault = .truncated := by
  induction bytes with
  | nil =>
      cases h
      rfl
  | cons b rest ih =>
      unfold cycleTail at h
      split at h
      next => cases h
      next =>
        split at h
        next => cases h
        next htail =>
          cases h
          exact ih htail

theorem front_append_of_ok {group : List UInt8} (h : front n bytes = .ok group)
    (more : List UInt8) : front n (bytes ++ more) = .ok group := by
  rw [← h]
  exact front_congr (List.take_append_of_le_length (front_length h))

theorem parseExtended_append_of_error (h : parseExtended bytes = .error fault)
    (hfault : fault ≠ .truncated) (more : List UInt8) :
    parseExtended (bytes ++ more) = .error fault := by
  match bytes, h with
  | [], h | [_], h =>
    cases h
    exact absurd rfl hfault
  | escape :: opcode :: rest, h =>
    unfold parseExtended at h ⊢
    simp only [List.cons_append] at h ⊢
    split_ifs at h ⊢
    · split at h
      next hfront =>
        cases h
        exact absurd (truncated_of_front hfront) hfault
      next hfront =>
        have hfront := front_append_of_ok hfront more
        simp only [List.cons_append] at hfront
        rw [hfront]
        exact h
    · split at h
      next hfront =>
        cases h
        exact absurd (truncated_of_front hfront) hfault
      next hfront =>
        have hfront := front_append_of_ok hfront more
        simp only [List.cons_append] at hfront
        rw [hfront]
        exact h
    · split at h
      next => exact absurd (truncated_of_fixed h) hfault
      next => exact h

theorem parseIp_append_of_error {header : UInt8} (h : parseIp header bytes = .error fault)
    (hfault : fault ≠ .truncated) (more : List UInt8) :
    parseIp header (bytes ++ more) = .error fault := by
  unfold parseIp at h ⊢
  split at h
  next => exact h
  next =>
    split at h
    next => exact h
    next =>
      split at h
      next hfront =>
        cases h
        exact absurd (truncated_of_front hfront) hfault
      next => cases h

/-- **A fault that is not a missing byte stays when more bytes come.** -/
theorem parse_append_of_error (h : parse bytes = .error fault) (hfault : fault ≠ .truncated)
    (more : List UInt8) : parse (bytes ++ more) = .error fault := by
  match bytes, h with
  | header :: rest, h =>
    unfold parse at h ⊢
    simp only [List.cons_append] at h ⊢
    rw [map_some_eq_error] at h ⊢
    split_ifs at h ⊢
    · exact parseExtended_append_of_error h hfault more
    · split at h
      next => cases h
      next htail =>
        cases h
        exact absurd (truncated_of_cycleTail htail) hfault
    · exact absurd (truncated_of_fixed h) hfault
    · exact absurd (truncated_of_fixed h) hfault
    · match rest, h with
      | [], h =>
        cases h
        exact absurd rfl hfault
    · exact parseIp_append_of_error h hfault more

end Packet

namespace PacketForm

/-- A form that is the beginning of another is the whole of it. -/
theorem eq_of_isPrefix {form form' : PacketForm} (h : form.bytes <+: form'.bytes) :
    form.bytes = form'.bytes ∧ form.packet = form'.packet := by
  obtain ⟨more, hmore⟩ := h
  have hread := form'.parse_append []
  rw [List.append_nil, ← hmore, form.parse_append] at hread
  obtain ⟨hpacket, hlength⟩ := Prod.mk.inj (Option.some.inj (Except.ok.inj hread))
  rw [List.length_append] at hlength
  have hnil : more = [] := List.eq_nil_of_length_eq_zero (by omega)
  rw [hnil, List.append_nil] at hmore
  exact ⟨hmore, hpacket⟩

end PacketForm

namespace PacketReader

theorem peek_mkAt_append {found : Packet × Nat} {bytes rest : List UInt8}
    (h : Packet.parse (bytes ++ rest) = .ok (some found)) (before : List UInt8) :
    (mkAt (before ++ bytes ++ rest) before.length).peek = .ok (some found) := by
  have hdrop : (before ++ bytes ++ rest).drop before.length = bytes ++ rest := by
    rw [List.append_assoc, List.drop_left]
  rw [peek_eq, mkAt_rest, hdrop, h]

theorem peek_append_of_error {buffer : List UInt8} {offset : Nat} {e : PacketError}
    (h : (mkAt buffer offset).peek = .error e) (hfault : e.fault ≠ .truncated) (more : List UInt8) :
    (mkAt (buffer ++ more) offset).peek = .error e := by
  cases hparse : Packet.parse (buffer.drop offset) with
  | ok found =>
      rw [peek_eq, mkAt_rest, hparse] at h
      cases h
  | error fault =>
      rw [peek_eq, mkAt_rest, hparse] at h
      cases h
      have hle : offset ≤ buffer.length := by
        by_contra hlt
        rw [List.drop_of_length_le (by omega)] at hparse
        cases hparse
      rw [peek_eq, mkAt_rest, List.drop_append_of_le_length hle,
        Packet.parse_append_of_error hparse hfault more]
      rfl

/-- **The format of packets.**  Every form is read as its packet, wherever it stands, and no form is
the beginning of another.  Whatever is read as a packet lies inside the buffer, is a form of this
packet, and reads the same wherever else it stands.  A fault other than a missing byte stays when
more bytes come. -/
theorem format_of_packets :
    (∀ (form : PacketForm) (before rest : List UInt8),
      (mkAt (before ++ form.bytes ++ rest) before.length).peek =
        .ok (some (form.packet, form.bytes.length))) ∧
    (∀ form form' : PacketForm, form.bytes <+: form'.bytes →
      form.bytes = form'.bytes ∧ form.packet = form'.packet) ∧
    (∀ (buffer : List UInt8) (offset : Nat) (p : Packet) (n : Nat),
      (mkAt buffer offset).peek = .ok (some (p, n)) →
        1 ≤ n ∧ offset + n ≤ buffer.length ∧
        (∀ before rest : List UInt8,
          (mkAt (before ++ (buffer.drop offset).take n ++ rest) before.length).peek =
            .ok (some (p, n))) ∧
        ∃ form : PacketForm, form.packet = p ∧ form.bytes = (buffer.drop offset).take n) ∧
    (∀ (buffer : List UInt8) (offset : Nat) (e : PacketError) (more : List UInt8),
      (mkAt buffer offset).peek = .error e → e.fault ≠ .truncated →
        (mkAt (buffer ++ more) offset).peek = .error e) := by
  refine ⟨fun form before rest => ?_, fun _ _ => PacketForm.eq_of_isPrefix,
    fun buffer offset p n hpeek => ?_, fun buffer offset e more hpeek hfault => ?_⟩
  · exact peek_mkAt_append (form.parse_append rest) before
  · have hparse : Packet.parse (buffer.drop offset) = .ok (some (p, n)) := parse_of_peek hpeek
    obtain ⟨hpos, hle⟩ := Packet.parse_length hparse
    rw [List.length_drop] at hle
    refine ⟨hpos, by omega, fun before rest => ?_, Packet.exists_form hparse⟩
    have htake : ((buffer.drop offset).take n).length = n := by
      rw [List.length_take, List.length_drop]
      omega
    refine peek_mkAt_append (Packet.parse_of_take hparse ?_) before
    rw [List.take_left' htake]
  · exact peek_append_of_error hpeek hfault more

end PacketReader

end BranchWatch
