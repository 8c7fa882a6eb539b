import BranchWatch.Proofs.Image.Additions
import BranchWatch.Proofs.Walk.Progress
import BranchWatch.Proofs.Walk.Recovery

/-!
# Missing code

The walk reports that no code is mapped at an address.  An instruction is read from one section, so
this may mean two things: nothing is mapped there, or the section ends inside an instruction and the
address is the one behind the section (`Section.Cuts`).  `unmapped_or_cut` says that there is no
other way to this report, if the disassembler asks for more bytes only where an instruction may have
more (`Disassembler.Lawful.short`).

In the second case another section may begin at the address, and then the report is wrong
(`not_unmapped_at_seam`).
-/

namespace BranchWatch

/-- The instruction at `ip` goes on behind the end of the section, at `missing`. -/
structure Section.Cuts (disassembler : Disassembler) (s : Section) (mode : ExecMode)
    (ip missing : UInt64) : Prop where
  covers : s.covers ip = true
  short : s.stop < ip.toNat + maxInstructionLength
  cut : disassembler mode ip (s.bytes.toList.drop (ip.toNat - s.start.toNat)) = .noMoreBytes
  behind : missing = s.stop.toUInt64

/-- A cut instruction has got all bytes up to the end of the section. -/
theorem Section.cuts_of_noMoreBytes {disassembler : Disassembler} (hlaw : disassembler.Lawful)
    {s : Section} {mode : ExecMode} {ip : UInt64} (hip : s.covers ip = true)
    (h : disassembler mode ip (s.read ip maxInstructionLength) = .noMoreBytes) :
    s.Cuts disassembler mode ip (ip + (s.read ip maxInstructionLength).length.toUInt64) := by
  obtain ⟨hstart, hstop⟩ := covers_iff.1 hip
  have hshort := hlaw.short h
  have hall : s.read ip maxInstructionLength = s.bytes.toList.drop (ip.toNat - s.start.toNat) := by
    rw [read_eq, List.length_take] at hshort
    rw [read_eq]
    exact List.take_of_length_le (by omega)
  have hlength : (s.read ip maxInstructionLength).length = s.stop - ip.toNat := by
    rw [length_read hip] at hshort ⊢
    omega
  refine ⟨hip, by omega, hall ▸ h, ?_⟩
  rw [hlength]
  apply UInt64.toNat_inj.1
  simp [UInt64.toNat_add]
  omega

/-- The decoder has code at the address. -/
def Decoder.maps (d : Decoder) (ip : UInt64) : Bool := d.image.any (·.contains ip)

namespace Cursor

variable {c d : Cursor} {ip missing : UInt64}

/-- Why no code is found for the instruction at an address. -/
theorem readInstruction_noMap (hlaw : c.decoder.disassembler.Lawful)
    (h : c.readInstruction ip = .error (.noMap missing)) :
    (missing = ip ∧ c.decoder.maps ip = false) ∨
      ∃ image s, c.decoder.image = some image ∧ s ∈ image.sections ∧
        s.Cuts c.decoder.disassembler c.flow.mode ip missing := by
  unfold readInstruction at h
  cases himage : c.decoder.image with
  | none =>
      rw [himage] at h
      cases h
      exact .inl ⟨rfl, by simp [Decoder.maps, himage]⟩
  | some image =>
      rw [himage, Option.bind_some] at h
      cases hfind : image.find? ip with
      | none =>
          simp only [Image.read, hfind, Option.map_none] at h
          cases h
          exact .inl ⟨rfl, by simp [Decoder.maps, himage, Image.contains, hfind]⟩
      | some s =>
          obtain ⟨hs, hip⟩ := Image.find?_eq_some_iff.1 hfind
          simp only [Image.read, hfind, Option.map_some] at h
          rcases Disassembler.decode_eq_error h with ⟨hcut, hmissing⟩ | ⟨-, hinvalid⟩
          · cases hmissing
            exact .inr ⟨image, s, rfl, hs, Section.cuts_of_noMoreBytes hlaw hip hcut⟩
          · cases hinvalid

/-- A fetch reports a miss only after the image was asked for. -/
theorem fetch_noMap (h : fetch ip c = .error (.noMap missing) d) :
    d.rebuilt = true ∧ d.readInstruction ip = .error (.noMap missing) := by
  cases hr : c.readInstruction ip with
  | ok found =>
      rw [fetch_of_ok hr] at h
      cases h
  | error e =>
      by_cases hmiss : ∃ m, e = .noMap m ∧ c.rebuilt = false
      · obtain ⟨m, rfl, hc⟩ := hmiss
        rw [fetch_of_noMap hr hc] at h
        rcases hb : c.decoder.rebuild with ⟨e | ⟨⟨⟩⟩, decoder⟩ <;> rw [hb] at h
        · -- The source of images does not report a miss.
          cases h
          unfold Decoder.rebuild at hb
          split at hb <;> cases hb
        · cases hfound : c.rebuild.readInstruction ip with
          | ok found =>
              rw [hfound] at h
              cases h
          | error e =>
              rw [hfound] at h
              cases h
              exact ⟨rfl, hfound⟩
      · have hmiss : c.rebuilt = true ∨ ∀ m, e ≠ .noMap m := by
          cases hc : c.rebuilt with
          | true => exact .inl rfl
          | false => exact .inr fun m he => hmiss ⟨m, he, hc⟩
        rw [fetch_of_error hr hmiss] at h
        cases h
        exact ⟨hmiss.resolve_right fun hne => hne missing rfl, hr⟩

/-- Following packets reports no miss, so a miss comes from a fetch. -/
theorem step_noMap (h : step c = .error (.noMap missing) d) :
    d.rebuilt = true ∧ ∃ ip, d.readInstruction ip = .error (.noMap missing) := by
  have hresolve := resolve_follows c
  rw [step_eq] at h
  rcases hr : resolve c with ⟨_ | _, f⟩ | ⟨e, f⟩ <;> rw [hr] at h hresolve
  · cases h
  · have hlocate := locate_follows f
    rcases hl : locate f with ⟨_ | ip, g⟩ | ⟨e, g⟩ <;> rw [hl] at hlocate <;> simp only [hl] at h
    · cases h
    · split at h
      next => cases h
      next =>
        rcases hf : fetch ip g.countStep with ⟨⟨record, flow⟩, g'⟩ | ⟨e, g'⟩ <;>
          simp only [hf] at h
        · cases h
        · cases h
          exact ⟨(fetch_noMap hf).1, ip, (fetch_noMap hf).2⟩
    · cases h
      obtain ⟨_, _, hraised⟩ := hlocate
      cases hraised
  · cases h
    obtain ⟨_, _, hraised⟩ := hresolve
    cases hraised

theorem recover_kept (c : Cursor) (e : DecodeError) :
    (c.recover e).decoder = c.decoder ∧ (c.recover e).flow.mode = c.flow.mode ∧
      (c.recover e).rebuilt = c.rebuilt := by
  rcases overflow_or_ne e with ⟨offset, rfl⟩ | he
  · exact ⟨rfl, rfl, rfl⟩
  · rw [recover_eq he]
    split <;> exact ⟨rfl, rfl, rfl⟩

/-- All along a run the same disassembler is asked. -/
theorem disassembler_next (c : Cursor) :
    c.next.2.decoder.disassembler = c.decoder.disassembler := by
  cases hc : c.done with
  | true => rw [next_of_done hc]
  | false =>
      have hcalled := next_called hc
      generalize c.next.1 = i, c.next.2 = d at hcalled ⊢
      cases hcalled with
      | ended h => exact congrArg _ h.decoder_eq
      | @failed d ps e h => rw [(recover_kept d e).1, h.decoder_eq]
      | @runaway d ps ip h => rw [(recover_kept d _).1, h.decoder_eq]
      | @missed d f ps e h _ hfetch =>
          rw [(recover_kept f e).1, hfetch.disassembler_eq]
          exact congrArg _ h.decoder_eq
      | emitted h _ _ hfetch =>
          exact hfetch.disassembler_eq.trans (congrArg _ h.decoder_eq)

theorem disassembler_after (c : Cursor) (k : Nat) :
    (c.after k).decoder.disassembler = c.decoder.disassembler := by
  induction k with
  | zero => rfl
  | succ k ih => exact (disassembler_next _).trans ih

/-- Where a miss is reported, the walk goes on with the code it looked at, in the same mode. -/
theorem next_noMap (h : c.next.1 = some (.error (.noMap missing))) :
    c.next.2.rebuilt = true ∧ ∃ f : Cursor, f.decoder = c.next.2.decoder ∧
      f.flow.mode = c.next.2.flow.mode ∧ ∃ ip, f.readInstruction ip = .error (.noMap missing) := by
  have hc := done_of_next_eq_some h
  unfold next at h ⊢
  simp only [hc, Bool.false_eq_true, if_false] at h ⊢
  rcases hs : step c with ⟨_ | record, d⟩ | ⟨e, d⟩ <;> simp only [hs] at h ⊢
  · cases h
  · cases h
  · cases h
    obtain ⟨hrebuilt, ip, hmiss⟩ := step_noMap hs
    obtain ⟨hdecoder, hmode, hkept⟩ := recover_kept d (.noMap missing)
    exact ⟨hkept.trans hrebuilt, d, hdecoder.symm, hmode.symm, ip, hmiss⟩

end Cursor

/-- An address lies in one section only. -/
theorem Image.eq_of_covers {image : Image} {s t : Section} {ip : UInt64} (hs : s ∈ image.sections)
    (ht : t ∈ image.sections) (hsip : s.covers ip = true) (htip : t.covers ip = true) : s = t :=
  Option.some_inj.1 ((find?_eq_some_iff.2 ⟨hs, hsip⟩).symm.trans (find?_eq_some_iff.2 ⟨ht, htip⟩))

/-- A section that has the address behind a cut instruction begins there. -/
theorem Section.Cuts.start_eq {disassembler : Disassembler} {image : Image} {s t : Section}
    {mode : ExecMode} {ip missing : UInt64} (h : s.Cuts disassembler mode ip missing)
    (hs : s ∈ image.sections) (ht : t ∈ image.sections) (hmissing : t.covers missing = true) :
    t.start = missing := by
  have hs' := s.start_lt_stop
  have hstop := s.stop_lt
  obtain ⟨hstart, hlt⟩ := covers_iff.1 hmissing
  have hbehind : missing.toNat = s.stop := by
    rw [h.behind]
    exact Nat.mod_eq_of_lt hstop
  by_cases hbelow : t.start.toNat < s.stop
  · -- Otherwise both sections have the last address of the first one.
    have hlast : (s.stop - 1).toUInt64.toNat = s.stop - 1 :=
      Nat.mod_eq_of_lt (Nat.lt_of_le_of_lt (Nat.sub_le _ _) hstop)
    have hslast : s.covers (s.stop - 1).toUInt64 = true := covers_iff.2 (by omega)
    have htlast : t.covers (s.stop - 1).toUInt64 = true := covers_iff.2 (by omega)
    obtain rfl := Image.eq_of_covers hs ht hslast htlast
    omega
  · exact UInt64.toNat_inj.1 (by omega)

namespace Cursor

/-- Whatever the window, the images and their source, a miss is reported only after the image was
asked for in this window, and the image has nothing at the missing address, with one exception: the
instruction that was to be read is cut at the end of its section, and another section begins at the
address behind it. -/
theorem unmapped_or_cut (decoder : Decoder) (hlaw : decoder.disassembler.Lawful)
    (window : List UInt8) (rebuilt : Bool) (k : Nat) (missing : UInt64) :
    let c := start decoder window rebuilt
    let d := c.after (k + 1)
    c.item k = some (.error (.noMap missing)) →
      d.rebuilt = true ∧ (d.decoder.maps missing = false ∨
        ∃ image s t ip, d.decoder.image = some image ∧ s ∈ image.sections ∧
          t ∈ image.sections ∧ s.Cuts decoder.disassembler d.flow.mode ip missing ∧
          t.covers missing = true ∧ t.start = missing) := by
  intro c d h
  obtain ⟨hrebuilt, f, hdecoder, hmode, ip, hmiss⟩ := next_noMap (c := c.after k) h
  have hdecoder : f.decoder = d.decoder := hdecoder
  have hmode : f.flow.mode = d.flow.mode := hmode
  have hreader : f.decoder.disassembler = decoder.disassembler :=
    (congrArg Decoder.disassembler hdecoder).trans (disassembler_after c (k + 1))
  refine ⟨hrebuilt, ?_⟩
  rcases readInstruction_noMap (hreader ▸ hlaw) hmiss with
    ⟨rfl, hnone⟩ | ⟨image, s, himage, hs, hcuts⟩
  · exact .inl (hdecoder ▸ hnone)
  · rw [hdecoder] at himage
    rw [hmode, hreader] at hcuts
    cases hmaps : image.contains missing with
    | false => exact .inl (by simp [Decoder.maps, himage, hmaps])
    | true =>
        obtain ⟨t, ht, hcovers⟩ := Image.contains_iff.1 hmaps
        exact .inr ⟨image, s, t, ip, himage, hs, ht, hcuts, hcovers, hcuts.start_eq hs ht hcovers⟩

/-- There is no image, and the source cannot give one.  It is asked once in the window. -/
theorem unmapped_without_image :
    let failing : Decoder := { source := fun _ => .error (.mappings 1 (.notFound "/proc/1")) }
    let group := Packet.psbPattern ++ [0x02, 0x23, 0xd1, 0x00, 0x10, 0, 0, 0, 0, 0, 0]
    let c := start failing (group ++ group) false
    failing.disassembler.Lawful ∧ c.item 1 = some (.error (.noMap 0x1000)) ∧
      (c.after 2).rebuilt = true ∧ (c.after 2).decoder.maps 0x1000 = false := by
  intro failing group c
  have hmiss : c.item 1 = some (.error (.noMap 0x1000)) := by decide +kernel
  obtain ⟨hrebuilt, hunmapped | ⟨image, _, _, _, himage, _⟩⟩ :=
    unmapped_or_cut failing Disassembler.classic_lawful (group ++ group) false 1 0x1000 hmiss
  · exact ⟨Disassembler.classic_lawful, hmiss, hrebuilt, hunmapped⟩
  · have hnone : (c.after 2).decoder.image.isNone = true := by decide +kernel
    have himage : (c.after 2).decoder.image = some image := himage
    rw [himage] at hnone
    cases hnone

/-- A call of five bytes, two of them in one section and three in the next one, which begins where
the first one ends.  The address reported as missing is the first one of the second section. -/
theorem not_unmapped_at_seam :
    let front : Section := ⟨0x1000, #[0xe8, 0x00], by decide, by decide⟩
    let back : Section := ⟨0x1002, #[0x00, 0x00, 0x00, 0xc3], by decide, by decide⟩
    let image : Image := ⟨[front, back], List.pairwise_pair.2 (Nat.le_refl 0x1002)⟩
    let window := Packet.psbPattern ++ [0x02, 0x23, 0xd1, 0x00, 0x10, 0, 0, 0, 0, 0, 0]
    let c := start { source := fun _ => .ok image, image := some image } window true
    c.item 0 = some (.error (.noMap 0x1002)) ∧ (c.after 1).decoder.maps 0x1002 = true := by
  intro front back image window c
  decide +kernel

end Cursor

end BranchWatch
