import BranchWatch.Proofs.Packet.Format
import BranchWatch.Proofs.Packet.Synchronisation
import BranchWatch.Proofs.Walk.Reading

/-!
# Windows with more timing packets

Packets that do not affect the path may stand anywhere between two others.  `Padded u v` says that
`v` is the sequence of packets `u` with some of them added.  Then the two sequences have the same
packet in front that matters for the path (`PacketReader.firstFlowPacket_of_padded`) and the same
number of such packets (`PacketReader.weight_of_padded`).

Searches for a synchronisation packet look at bytes and not at packets.  They meet at corresponding
packets (`PacketReader.meeting_of_padded`) if the pattern of such a packet does not stand anywhere
else (`PacketReader.Aligned`).
-/

namespace BranchWatch

/-- A sequence of packets, and the same with more packets that do not affect the path. -/
inductive Padded : List UInt8 → List UInt8 → Prop
  | nil : Padded [] []
  /-- Both have the packet. -/
  | packet {bytes u v : List UInt8} {p : Packet}
      (h : Packet.parse bytes = .ok (some (p, bytes.length))) (rest : Padded u v) :
      Padded (bytes ++ u) (bytes ++ v)
  /-- The packet is added. -/
  | timing {bytes u v : List UInt8} {p : Packet}
      (h : Packet.parse bytes = .ok (some (p, bytes.length))) (htiming : p.isTiming = true)
      (rest : Padded u v) : Padded u (bytes ++ v)

/-- The only form of a synchronisation packet. -/
theorem Packet.eq_psbPattern {bytes : List UInt8}
    (h : parse bytes = .ok (some (psb, bytes.length))) : bytes = psbPattern := by
  obtain ⟨form, hpacket, hbytes⟩ := exists_form h
  rw [List.take_length] at hbytes
  cases form with
  | psb => exact hbytes.symm
  | extended form payload length => cases form <;> cases hpacket
  | _ => cases hpacket

namespace PacketReader

variable {r s : PacketReader} {p : Packet} {n : Nat} {bytes u v : List UInt8}

/-! ## The packet in front -/

theorem peek_of_rest (hrest : r.rest = bytes ++ u)
    (h : Packet.parse bytes = .ok (some (p, bytes.length))) :
    r.peek = .ok (some (p, bytes.length)) := by
  have htake : (bytes ++ u).take bytes.length = bytes.take bytes.length := by simp
  rw [peek_eq, hrest, Packet.parse_of_take h htake]

/-- The packet in front that matters for the path is the same, and there is no fault. -/
theorem firstFlowPacket_of_padded (h : Padded u v) (hr : r.rest = u) (hs : s.rest = v) :
    ∃ found, r.firstFlowPacket = .ok found ∧ s.firstFlowPacket = .ok found := by
  induction h generalizing r s with
  | nil =>
      rw [r.firstFlowPacket_eq, s.firstFlowPacket_eq, peek_of_nil hr, peek_of_nil hs]
      exact ⟨none, rfl, rfl⟩
  | @packet bytes u v p h _ ih =>
      rw [r.firstFlowPacket_eq, s.firstFlowPacket_eq, peek_of_rest hr h, peek_of_rest hs h]
      cases htiming : p.isTiming with
      | true =>
          simp only [htiming, if_true]
          exact ih (advance_of_rest hr) (advance_of_rest hs)
      | false => exact ⟨some p, by simp [htiming], by simp [htiming]⟩
  | timing h htiming _ ih =>
      rw [s.firstFlowPacket_eq, peek_of_rest hs h]
      simp only [htiming, if_true]
      exact ih hr (advance_of_rest hs)

/-! ## How many packets matter -/

/-- How many packets from the place on matter for the path. -/
def weight (r : PacketReader) : Nat :=
  r.items.countP fun
    | .ok x => !x.2.isTiming
    | .error _ => false

theorem weight_of_packet (h : r.peek = .ok (some (p, n))) :
    r.weight = (r.advance n).weight + if p.isTiming then 0 else 1 := by
  unfold weight
  rw [items_of_packet h, List.countP_cons]
  cases htiming : p.isTiming <;> simp [htiming]

theorem weight_of_nil (h : r.rest = []) : r.weight = 0 := by
  unfold weight
  rw [items_of_end (peek_of_nil h)]
  rfl

theorem weight_of_padded (h : Padded u v) (hr : r.rest = u) (hs : s.rest = v) :
    r.weight = s.weight := by
  induction h generalizing r s with
  | nil => rw [weight_of_nil hr, weight_of_nil hs]
  | packet h _ ih =>
      rw [weight_of_packet (peek_of_rest hr h), weight_of_packet (peek_of_rest hs h),
        ih (advance_of_rest hr) (advance_of_rest hs)]
  | timing h htiming _ ih =>
      rw [weight_of_packet (peek_of_rest hs h), htiming]
      exact ih hr (advance_of_rest hs)

/-! ## Where the pattern stands -/

/-- From the place on, the pattern of a synchronisation packet stands only where one is read. -/
def Aligned (r : PacketReader) : Prop :=
  ∀ o ≥ r.offset, PsbAt r.buffer o → .ok (o, .psb) ∈ r.items

theorem offset_le_of_mem_items {o : Nat} (h : .ok (o, p) ∈ r.items) : r.offset ≤ o := by
  fun_induction items r with
  | case1 => cases h
  | case2 r q n hpeek ih =>
      rcases List.mem_cons.1 h with heq | htail
      · cases heq
        exact Nat.le_refl _
      · exact Nat.le_of_add_right_le (ih htail)
  | case3 r e hpeek => cases List.mem_singleton.1 h

/-- Where a packet is in front, the pattern stands only at its start or behind it. -/
theorem Aligned.psbAt_cases (h : r.Aligned) (hpeek : r.peek = .ok (some (p, n))) {o : Nat}
    (ho : r.offset ≤ o) (hpsb : PsbAt r.buffer o) :
    o = r.offset ∧ p = .psb ∨ r.offset + n ≤ o ∧ .ok (o, .psb) ∈ (r.advance n).items := by
  have hmem := h o ho hpsb
  rw [items_of_packet hpeek] at hmem
  rcases List.mem_cons.1 hmem with heq | htail
  · cases heq
    exact .inl ⟨rfl, rfl⟩
  · exact .inr ⟨offset_le_of_mem_items htail, htail⟩

/-- It is enough that the pattern stands in front of the buffer and nowhere else. -/
theorem aligned_of_front {window : List UInt8} (hfront : Packet.psbPattern <+: window)
    (honly : ∀ o < window.length, Packet.psbPattern.isPrefixOf (window.drop o) = true → o = 0) :
    (mkAt window 0).Aligned := by
  intro o _ hpsb
  have hpsb : Packet.psbPattern <+: window.drop o := hpsb
  have ho : o < window.length := by
    by_contra hge
    rw [List.drop_eq_nil_of_le (Nat.le_of_not_lt hge)] at hpsb
    exact absurd hpsb (by decide)
  have hpeek : (mkAt window 0).peek = .ok (some (.psb, 16)) := peek_mkAt_of_isPrefix hfront
  rw [honly o ho (List.isPrefixOf_iff_prefix.2 hpsb), items_of_packet hpeek]
  exact List.mem_cons_self

theorem Aligned.advance (h : r.Aligned) (hpeek : r.peek = .ok (some (p, n))) :
    (r.advance n).Aligned := by
  intro o ho hpsb
  have hpos := (offset_add_le_of_peek hpeek).1
  have hle : r.offset + n ≤ o := ho
  rcases h.psbAt_cases hpeek (by omega) hpsb with ⟨heq, _⟩ | ⟨_, hmem⟩
  · omega
  · exact hmem

/-- Behind a packet in front, the pattern stands behind all of its bytes. -/
theorem Aligned.le_iff (h : r.Aligned) (hpeek : r.peek = .ok (some (p, n))) {o : Nat}
    (hpsb : PsbAt r.buffer o) : r.offset + 1 ≤ o ↔ r.offset + n ≤ o := by
  have hpos := (offset_add_le_of_peek hpeek).1
  refine ⟨fun ho => ?_, fun ho => by omega⟩
  rcases h.psbAt_cases hpeek (by omega) hpsb with ⟨heq, _⟩ | ⟨hle, _⟩
  · omega
  · exact hle

/-- Behind a packet that is not a synchronisation packet a search finds the same place. -/
theorem Aligned.findPsb_advance (h : r.Aligned) (hpeek : r.peek = .ok (some (p, n)))
    (hp : p ≠ .psb) :
    findPsb (r.advance n).offset (r.advance n).rest = findPsb r.offset r.rest := by
  rw [(r.advance n).rest_eq, r.rest_eq]
  refine findPsb_congr fun o hpsb => ⟨fun ho => ?_, fun ho => ?_⟩
  · have hle : r.offset + n ≤ o := ho
    omega
  · exact ((h.psbAt_cases hpeek ho hpsb).resolve_left fun hfront => hp hfront.2).1

/-- Two searches find corresponding synchronisation packets, or neither finds one. -/
inductive Meeting (r s : PacketReader) : Prop
  | found {place place' : Nat} (hr : findPsb r.offset r.rest = some place)
      (hs : findPsb s.offset s.rest = some place') (hr' : (r.seek place).Aligned)
      (hs' : (s.seek place').Aligned)
      (hrest : Padded ((r.seek place).rest.drop 16) ((s.seek place').rest.drop 16))
  | nowhere (hr : findPsb r.offset r.rest = none) (hs : findPsb s.offset s.rest = none)

/-- What is searched does not matter, only what is found. -/
theorem Meeting.congr {r' s' : PacketReader} (h : Meeting r s)
    (hr : findPsb r.offset r.rest = findPsb r'.offset r'.rest)
    (hs : findPsb s.offset s.rest = findPsb s'.offset s'.rest)
    (hbuffer : r.buffer = r'.buffer) (hbuffer' : s.buffer = s'.buffer) : Meeting r' s' := by
  have hseek (place : Nat) : r.seek place = r'.seek place := congrArg (mkAt · place) hbuffer
  have hseek' (place : Nat) : s.seek place = s'.seek place := congrArg (mkAt · place) hbuffer'
  cases h with
  | found hfound hfound' halign halign' hrest =>
      rw [hseek] at halign hrest
      rw [hseek'] at halign' hrest
      exact .found (hr ▸ hfound) (hs ▸ hfound') halign halign' hrest
  | nowhere hnone hnone' => exact .nowhere (hr ▸ hnone) (hs ▸ hnone')

theorem meeting_of_padded (h : Padded u v) (hr : r.rest = u) (hs : s.rest = v)
    (hr' : r.Aligned) (hs' : s.Aligned) : Meeting r s := by
  induction h generalizing r s with
  | nil => exact .nowhere (by rw [hr]; rfl) (by rw [hs]; rfl)
  | @packet bytes u v p h hrest ih =>
      have hpeek := peek_of_rest hr h
      have hpeek' := peek_of_rest hs h
      by_cases hp : p = .psb
      · subst hp
        obtain rfl := Packet.eq_psbPattern h
        have hfound : findPsb r.offset r.rest = some r.offset := by rw [hr, findPsb_append]
        have hfound' : findPsb s.offset s.rest = some s.offset := by rw [hs, findPsb_append]
        refine .found hfound hfound' ?_ ?_ ?_
        · rwa [seek_offset]
        · rwa [seek_offset]
        · rw [seek_offset, seek_offset, hr, hs]
          exact hrest
      · have hmeeting := ih (advance_of_rest hr) (advance_of_rest hs) (hr'.advance hpeek)
          (hs'.advance hpeek')
        exact hmeeting.congr (hr'.findPsb_advance hpeek hp) (hs'.findPsb_advance hpeek' hp)
          rfl rfl
  | @timing bytes u v p h htiming _ ih =>
      have hpeek := peek_of_rest hs h
      have hp : p ≠ .psb := by
        rintro rfl
        cases htiming
      have hmeeting := ih hr (advance_of_rest hs) hr' (hs'.advance hpeek)
      exact hmeeting.congr rfl (hs'.findPsb_advance hpeek hp) rfl rfl

theorem rest_of_findPsb {place : Nat} (h : findPsb r.offset r.rest = some place) :
    (r.seek place).rest = Packet.psbPattern ++ (r.seek place).rest.drop 16 := by
  rw [r.rest_eq] at h
  obtain ⟨more, hmore⟩ := psbAt_of_findPsb h
  have hrest : (r.seek place).rest = Packet.psbPattern ++ more := hmore.symm
  rw [hrest]
  rfl

/-- Also the synchronisation packets themselves are the same. -/
theorem padded_of_findPsb {place place' : Nat} (hr : findPsb r.offset r.rest = some place)
    (hs : findPsb s.offset s.rest = some place')
    (hrest : Padded ((r.seek place).rest.drop 16) ((s.seek place').rest.drop 16)) :
    Padded (r.seek place).rest (s.seek place').rest := by
  rw [rest_of_findPsb hr, rest_of_findPsb hs]
  exact .packet rfl hrest

/-! ## Searching behind the last packet -/

/-- The patterns from the place on are packets, and they are all that lie behind the start of the
last packet, at the offset `last`. -/
structure Poised (r : PacketReader) (last : Nat) : Prop where
  aligned : r.Aligned
  search : ∀ o, PsbAt r.buffer o → (last + 1 ≤ o ↔ r.offset ≤ o)

theorem Aligned.poised_advance (h : r.Aligned) (hpeek : r.peek = .ok (some (p, n))) :
    (r.advance n).Poised r.offset :=
  ⟨h.advance hpeek, fun _ => h.le_iff hpeek⟩

/-- A walk through a buffer without the pattern may start in front of it. -/
theorem Aligned.poised_of_none {window : List UInt8} (h : (mkAt window 0).Aligned)
    (hnone : findPsb 0 window = none) : (mkAt window 0).Poised 0 :=
  ⟨h, fun o hpsb => absurd hpsb (findPsb_eq_none_iff.1 hnone o (Nat.zero_le o))⟩

/-- A search behind the last packet is a search from the place on. -/
theorem Poised.findPsb_eq {last : Nat} (h : r.Poised last) :
    findPsb (last + 1) (r.buffer.drop (last + 1)) = findPsb r.offset r.rest := by
  rw [r.rest_eq]
  exact findPsb_congr h.search

theorem Poised.seek {last place : Nat} (h : r.Poised last)
    (hfound : findPsb r.offset r.rest = some place) (haligned : (r.seek place).Aligned) :
    (r.seek place).Poised last := by
  rw [r.rest_eq] at hfound
  have hfirst := firstPsb_of_findPsb hfound
  refine ⟨haligned, fun o hpsb => ?_⟩
  rw [h.search o hpsb]
  refine ⟨fun ho => ?_, fun ho => Nat.le_trans hfirst.le ho⟩
  by_contra hlt
  exact hfirst.first o ho (Nat.lt_of_not_le hlt) hpsb

end PacketReader

end BranchWatch
