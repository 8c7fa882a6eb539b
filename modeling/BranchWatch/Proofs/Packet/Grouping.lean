import BranchWatch.Proofs.Packet.Padding

/-!
# Branch outcomes in other packets

The processor may send the same branch outcomes in few packets or in many.  `Regrouped [] u v` says
that `v` is the sequence of packets `u` where the outcomes of some packets come in others, several
in a row (`Regrouped.cut`).  Whoever reads both sequences side by side stops in the middle of such
a row: then the second one still has outcomes in front that are `owed`.

As long as outcomes are owed, the second sequence has a packet with outcomes in front
(`PacketReader.peek_of_owed`).  Otherwise the packets in front that matter for the path are the same
or both have outcomes (`PacketReader.firstFlowPacket_of_regrouped`), and wherever one stands,
searches for a synchronisation packet end at corresponding ones
(`PacketReader.landed_of_regrouped`).
-/

namespace BranchWatch

/-- A sequence of packets, and the same with branch outcomes in other packets.  The outcomes `owed`
stand in front of the second one, and packets in front of the first one had them. -/
inductive Regrouped : List Bool → List UInt8 → List UInt8 → Prop
  | nil : Regrouped [] [] []
  /-- Both have the packet. -/
  | packet {bytes u v : List UInt8} {p : Packet}
      (h : Packet.parse bytes = .ok (some (p, bytes.length))) (rest : Regrouped [] u v) :
      Regrouped [] (bytes ++ u) (bytes ++ v)
  /-- The outcomes of the packet come in others. -/
  | whole {bytes u v : List UInt8} {taken : List Bool}
      (h : Packet.parse bytes = .ok (some (.tnt taken, bytes.length))) (htaken : taken ≠ [])
      (rest : Regrouped taken u v) : Regrouped [] (bytes ++ u) v
  /-- The packet has the first of the outcomes that are owed. -/
  | part {bytes u v : List UInt8} {taken later : List Bool}
      (h : Packet.parse bytes = .ok (some (.tnt taken, bytes.length))) (htaken : taken ≠ [])
      (rest : Regrouped later u v) : Regrouped (taken ++ later) u (bytes ++ v)

namespace Regrouped

variable {u v : List UInt8} (parts : List (List UInt8 × List Bool))

theorem append_parts
    (hparts : ∀ x ∈ parts, Packet.parse x.1 = .ok (some (.tnt x.2, x.1.length)) ∧ x.2 ≠ [])
    (h : Regrouped [] u v) :
    Regrouped (parts.flatMap Prod.snd) u (parts.flatMap Prod.fst ++ v) := by
  induction parts with
  | nil => exact h
  | cons x parts ih =>
      obtain ⟨hparse, htaken⟩ := hparts x List.mem_cons_self
      have hrest := ih fun y hy => hparts y (List.mem_cons_of_mem _ hy)
      rw [List.flatMap_cons, List.flatMap_cons, List.append_assoc]
      exact .part hparse htaken hrest

/-- Several packets stand for one that has the same outcomes in the same order. -/
theorem cut {bytes : List UInt8}
    (hwhole : Packet.parse bytes =
      .ok (some (.tnt (parts.flatMap Prod.snd), bytes.length)))
    (hparts : ∀ x ∈ parts, Packet.parse x.1 = .ok (some (.tnt x.2, x.1.length)) ∧ x.2 ≠ [])
    (hne : parts ≠ []) (h : Regrouped [] u v) :
    Regrouped [] (bytes ++ u) (parts.flatMap Prod.fst ++ v) := by
  refine .whole hwhole ?_ (append_parts parts hparts h)
  obtain ⟨x, parts, rfl⟩ := List.exists_cons_of_ne_nil hne
  rw [List.flatMap_cons]
  exact List.append_ne_nil_of_left_ne_nil (hparts x List.mem_cons_self).2 _

end Regrouped

namespace PacketReader

variable {r s : PacketReader} {owed : List Bool} {u v : List UInt8}

/-- Where outcomes are owed, the second sequence has some of them in front. -/
theorem peek_of_owed (h : Regrouped owed r.rest s.rest) (howed : owed ≠ []) :
    ∃ taken later n, s.peek = .ok (some (.tnt taken, n)) ∧ taken ≠ [] ∧ owed = taken ++ later ∧
      Regrouped later r.rest (s.advance n).rest := by
  generalize hu : r.rest = u at h
  generalize hv : s.rest = v at h
  cases h with
  | nil => exact absurd rfl howed
  | packet => exact absurd rfl howed
  | whole => exact absurd rfl howed
  | @part bytes _ _ taken later hparse htaken hrest =>
      refine ⟨taken, later, bytes.length, peek_of_rest hv hparse, htaken, rfl, ?_⟩
      rw [advance_of_rest hv]
      exact hrest

theorem firstFlowPacket_of_owed (h : Regrouped owed r.rest s.rest) (howed : owed ≠ []) :
    ∃ taken, s.firstFlowPacket = .ok (some (.tnt taken)) := by
  obtain ⟨taken, _, _, hpeek, _⟩ := peek_of_owed h howed
  rw [s.firstFlowPacket_eq, hpeek]
  exact ⟨taken, rfl⟩

/-- Where nothing is owed, the packet in front that matters for the path is the same, or it has
outcomes in both. -/
theorem firstFlowPacket_of_regrouped (h : Regrouped owed u v) (howed : owed = [])
    (hr : r.rest = u) (hs : s.rest = v) :
    (∃ found, r.firstFlowPacket = .ok found ∧ s.firstFlowPacket = .ok found) ∨
      ∃ taken taken', r.firstFlowPacket = .ok (some (.tnt taken)) ∧
        s.firstFlowPacket = .ok (some (.tnt taken')) := by
  induction h generalizing r s with
  | nil =>
      left
      rw [r.firstFlowPacket_eq, s.firstFlowPacket_eq, peek_of_nil hr, peek_of_nil hs]
      exact ⟨none, rfl, rfl⟩
  | @packet bytes u v p hparse _ ih =>
      rw [r.firstFlowPacket_eq, s.firstFlowPacket_eq, peek_of_rest hr hparse,
        peek_of_rest hs hparse]
      cases htiming : p.isTiming with
      | true =>
          simp only [htiming, if_true]
          exact ih rfl (advance_of_rest hr) (advance_of_rest hs)
      | false => exact .inl ⟨some p, by simp [htiming], by simp [htiming]⟩
  | @whole bytes u v taken hparse htaken hrest _ =>
      right
      rw [← advance_of_rest hr, ← hs] at hrest
      obtain ⟨taken', hfirst⟩ := firstFlowPacket_of_owed hrest htaken
      rw [r.firstFlowPacket_eq, peek_of_rest hr hparse]
      exact ⟨taken, taken', rfl, hfirst⟩
  | part _ htaken => exact absurd howed (List.append_ne_nil_of_left_ne_nil htaken _)

/-- Corresponding synchronisation packets stand at two places of two buffers. -/
structure Landed (buffer buffer' : List UInt8) (place place' : Nat) : Prop where
  aligned : (mkAt buffer place).Aligned
  aligned' : (mkAt buffer' place').Aligned
  rest : Regrouped [] ((mkAt buffer place).rest.drop 16) ((mkAt buffer' place').rest.drop 16)

/-- Also the synchronisation packets themselves are the same. -/
theorem Landed.regrouped {place place' : Nat} (h : Landed r.buffer s.buffer place place')
    (hr : findPsb r.offset r.rest = some place) (hs : findPsb s.offset s.rest = some place') :
    Regrouped [] (r.seek place).rest (s.seek place').rest := by
  rw [rest_of_findPsb hr, rest_of_findPsb hs]
  exact .packet rfl h.rest

theorem landed_of_regrouped (h : Regrouped owed u v) (hr : r.rest = u) (hs : s.rest = v)
    (hr' : r.Aligned) (hs' : s.Aligned) :
    Option.Rel (Landed r.buffer s.buffer) (findPsb r.offset r.rest) (findPsb s.offset s.rest) := by
  have htnt (taken : List Bool) : Packet.tnt taken ≠ .psb := nofun
  induction h generalizing r s with
  | nil =>
      rw [hr, hs]
      exact .none
  | @packet bytes u v p h hrest ih =>
      have hpeek := peek_of_rest hr h
      have hpeek' := peek_of_rest hs h
      by_cases hp : p = .psb
      · subst hp
        obtain rfl := Packet.eq_psbPattern h
        have hfound : findPsb r.offset r.rest = some r.offset := by rw [hr, findPsb_append]
        have hfound' : findPsb s.offset s.rest = some s.offset := by rw [hs, findPsb_append]
        rw [hfound, hfound']
        rw [← r.seek_offset] at hr hr'
        rw [← s.seek_offset] at hs hs'
        have hdrop : Regrouped [] ((r.seek r.offset).rest.drop 16)
            ((s.seek s.offset).rest.drop 16) := by
          rw [hr, hs]
          exact hrest
        exact .some ⟨hr', hs', hdrop⟩
      · have hfurther := ih (advance_of_rest hr) (advance_of_rest hs) (hr'.advance hpeek)
          (hs'.advance hpeek')
        rw [hr'.findPsb_advance hpeek hp, hs'.findPsb_advance hpeek' hp] at hfurther
        exact hfurther
  | whole h _ _ ih =>
      have hpeek := peek_of_rest hr h
      have hfurther := ih (advance_of_rest hr) hs (hr'.advance hpeek) hs'
      rw [hr'.findPsb_advance hpeek (htnt _)] at hfurther
      exact hfurther
  | part h _ _ ih =>
      have hpeek := peek_of_rest hs h
      have hfurther := ih hr (advance_of_rest hs) hr' (hs'.advance hpeek)
      rw [hs'.findPsb_advance hpeek (htnt _)] at hfurther
      exact hfurther

end PacketReader

end BranchWatch
