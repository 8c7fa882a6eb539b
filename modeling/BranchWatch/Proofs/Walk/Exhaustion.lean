import BranchWatch.Proofs.Packet.Extent
import BranchWatch.Proofs.Walk.Edges
import BranchWatch.Proofs.Walk.Recovery

/-!
# How a window ends

A run should end in one of two ways (`ProperEnd`): with an error behind which no synchronisation
point lies, or with every byte read.  Each part of a step that says that the window has ended does
so in front of no bytes, but for one: a conditional branch waits for a packet of outcomes, and
takes it for the end if the packet has none.

So a run that does not end properly ends with a conditional branch and the long packet of outcomes
without any (`ends_properly_or_at_empty_tnt`).  There is such a run (`not_properEnd_of_empty_tnt`).
-/

namespace BranchWatch

open Happening

namespace Cursor

variable {c d : Cursor}

/-! ## The end of the window -/

theorem rest_of_nextEvent (h : nextEvent c = .ok none d) : d.reader.rest = [] := by
  fun_induction nextEvent c with
  | case1 => cases h
  | case2 c hp =>
      cases h
      exact PacketReader.rest_of_peek_eq_none hp
  | case3 => cases h
  | case4 => cases h
  | case5 c p n hp he ih => exact ih h

theorem rest_of_nextBranch (h : nextBranch c = .ok none d) : d.reader.rest = [] := by
  fun_induction nextBranch c with
  | case1 => cases h
  | case2 c e he => cases h; exact rest_of_nextEvent he
  | case3 c ip e he ih => exact ih h
  | case4 => cases h
  | case5 => cases h
  | case6 => cases h
  | case7 => cases h

theorem rest_of_acquire (h : acquire c = .ok false d) : d.reader.rest = [] := by
  fun_induction acquire c with
  | case1 => cases h
  | case2 c e he => cases h; exact rest_of_nextEvent he
  | case3 => cases h
  | case4 c e _ he _ ih => exact ih h
  | case5 c event e he _ _ _ ih => exact ih h

theorem rest_of_locate (h : locate c = .ok none d) : d.reader.rest = [] := by
  fun_induction locate c with
  | case1 => cases h
  | case2 c hip e ha => cases h; exact rest_of_acquire ha
  | case3 c hip e ha ih => exact ih h
  | case4 => cases h
  | case5 => cases h
  | case6 c ip hip e ha ih => exact ih h

theorem rest_of_takeTarget (h : takeTarget c = .ok none d) : d.reader.rest = [] := by
  cases hc : c.flow.tnt with
  | cons b rest =>
      rw [takeTarget_cons hc] at h
      cases h
  | nil =>
      rw [takeTarget_nil hc] at h
      rcases hb : nextBranch c with ⟨_ | _ | _, e⟩ | ⟨e, f⟩ <;> rw [hb] at h <;> cases h
      exact rest_of_nextBranch hb

theorem rest_of_takeReturn (h : takeReturn c = .ok none d) : d.reader.rest = [] := by
  have hreturned {r : Walked UInt64} {d : Cursor} : returned r ≠ .ok none d := by
    rcases r with ⟨a, e⟩ | ⟨e, f⟩ <;> exact nofun
  cases hc : c.flow.tnt with
  | cons b rest =>
      rw [takeReturn_cons hc] at h
      exact absurd h hreturned
  | nil =>
      rw [takeReturn_nil hc] at h
      rcases hb : nextBranch c with ⟨_ | _ | _, e⟩ | ⟨e, f⟩ <;> rw [hb] at h
      · cases h
        exact rest_of_nextBranch hb
      · exact absurd h hreturned
      · cases h
      · cases h

/-- A conditional branch takes a packet without outcomes for the end. -/
theorem rest_or_empty_of_takeTnt (h : takeTnt c = .ok none d) :
    d.reader.rest = [] ∨ ∃ ps o, Reads c (ps ++ [(o, .tnt [])]) d := by
  cases hc : c.flow.tnt with
  | cons b rest =>
      rw [takeTnt_cons hc] at h
      cases h
  | nil =>
      rw [takeTnt_nil hc] at h
      rcases hb : nextBranch c with ⟨_ | _ | _, e⟩ | ⟨e, f⟩ <;> rw [hb] at h
      · cases h
        exact .inl (rest_of_nextBranch hb)
      · obtain ⟨ps, ⟨o, p⟩, hreads, hanswers, _, htnt⟩ := nextBranch_last hb
        have hpop : popTnt e = .ok none d := h
        cases he : e.flow.tnt with
        | cons b rest =>
            rw [popTnt_cons he] at hpop
            cases hpop
        | nil =>
            rw [popTnt_nil he] at hpop
            cases hpop
            cases hanswers with
            | tnt taken =>
                -- No outcome was waiting before, so the packet has brought none.
                rw [he, hc, List.nil_append, outcomes_append] at htnt
                have hnone : taken ++ [] = [] := (List.append_eq_nil_iff.1 htnt.symm).2
                rw [List.append_nil] at hnone
                rw [hnone] at hreads
                exact .inr ⟨ps, o, hreads⟩
      · cases h
      · cases h

theorem rest_or_empty_of_successor {p : Pending} (h : successor p c = .ok none d) :
    d.reader.rest = [] ∨
      (∃ target, p.flow = .conditional target) ∧ ∃ ps o, Reads c (ps ++ [(o, .tnt [])]) d := by
  rw [successor_eq] at h
  cases hflow : p.flow with
  | next => rw [hflow] at h; cases h
  | jump => rw [hflow] at h; cases h
  | call => rw [hflow] at h; cases h
  | conditional target =>
      rw [hflow] at h
      rcases htnt : takeTnt c with ⟨_ | taken, e⟩ | ⟨e, f⟩ <;> simp only [htnt] at h <;> cases h
      exact (rest_or_empty_of_takeTnt htnt).imp_right fun hempty => ⟨⟨target, rfl⟩, hempty⟩
  | ret => rw [hflow] at h; exact .inl (rest_of_takeReturn h)
  | indirectCall => rw [hflow] at h; exact .inl (rest_of_takeTarget h)
  | indirectJump => rw [hflow] at h; exact .inl (rest_of_takeTarget h)
  | far => rw [hflow] at h; exact .inl (rest_of_takeTarget h)

/-- A step that finds the end of the window has read all bytes, or it has waited for the outcome of
the last instruction. -/
theorem rest_or_empty_of_step (h : step c = .ok none d) :
    d.reader.rest = [] ∨
      (∃ p target, c.flow.pending = some p ∧ p.flow = .conditional target) ∧
        ∃ ps o, Reads c (ps ++ [(o, .tnt [])]) d := by
  rw [step_eq] at h
  rcases hr : resolve c with ⟨_ | _, e⟩ | ⟨e, f⟩ <;> simp only [hr] at h
  · cases h
    cases hp : c.flow.pending with
    | none =>
        rw [resolve_none hp] at hr
        cases hr
    | some p =>
        rw [resolve_some hp] at hr
        rcases hs : successor p (c.withPending none) with ⟨_ | ip, e⟩ | ⟨e, f⟩ <;>
          rw [hs] at hr <;> cases hr
        refine (rest_or_empty_of_successor hs).imp_right fun ⟨⟨target, hflow⟩, ps, o, hreads⟩ => ?_
        have hclear : Still c (c.withPending none) := .withFlow c rfl rfl
        exact ⟨⟨p, target, rfl, hflow⟩, ps, o, hreads.of_still hclear⟩
  · rcases hl : locate e with ⟨_ | ip, f⟩ | ⟨err, f⟩ <;> simp only [hl] at h
    · cases h
      exact .inl (rest_of_locate hl)
    · split_ifs at h
      rcases hf : fetch ip f.countStep with ⟨⟨record, flow⟩, g⟩ | ⟨err, g⟩ <;>
        rw [hf] at h <;> cases h
    · cases h
  · cases h

/-! ## The end of a run -/

/-- The run of `n` items ends as it should. -/
inductive ProperEnd (c : Cursor) (n : Nat) : Prop
  /-- The last item is an error, and the pattern of a synchronisation point does not stand behind
  the failing offset. -/
  | lost {m : Nat} {e : DecodeError} (hn : n = m + 1) (he : c.item m = some (.error e))
      (hpsb : ∀ p > failingOffset (c.log n) e, ¬ PsbAt c.reader.buffer p)
  /-- Every byte has been read. -/
  | exhausted (h : (c.after (n + 1)).reader.atEnd = true)

/-- The run of `n` items ends with a conditional branch, behind which a packet without outcomes is
read. -/
structure EmptyEnd (c : Cursor) (n : Nat) : Prop where
  branch : ∃ m r, n = m + 1 ∧ c.item m = some (.ok r) ∧ r.cls = .conditionalJump
  packet : ∃ o, (c.log (n + 1)).getLast? = some (.read o (.tnt [])) ∧
    Packet.longTnt [] <+: c.reader.buffer.drop o

theorem atEnd_of_rest {r : PacketReader} (h : r.rest = []) : r.atEnd = true := by
  unfold PacketReader.atEnd
  rw [h]
  rfl

/-- What asking for an item beyond the last one can do. -/
theorem next_none (hc : c.done = false) (h : c.next.1 = none) :
    c.next.2.reader.atEnd = true ∨
      (∃ p target, c.flow.pending = some p ∧ p.flow = .conditional target) ∧
        ∃ o, c.reads.getLast? = some (o, .tnt []) ∧
          Packet.longTnt [] <+: c.reader.buffer.drop o := by
  unfold next reads at *
  simp only [hc, Bool.false_eq_true, if_false] at h ⊢
  rcases hs : step c with ⟨_ | record, d⟩ | ⟨e, d⟩ <;> simp only [hs] at h ⊢
  · refine (rest_or_empty_of_step hs).imp atEnd_of_rest fun ⟨hwaits, ps, o, hreads⟩ => ?_
    refine ⟨hwaits, o, ?_, ?_⟩
    · show (c.reader.upTo d.reader.offset).getLast? = _
      rw [hreads.upTo_eq]
      exact List.getLast?_concat
    · obtain ⟨n, hparse⟩ := hreads.parse_drop (List.mem_append_right _ (List.mem_singleton_self _))
      exact Packet.longTnt_nil_isPrefix_of_parse hparse
  · cases h
  · cases h

/-- A walk that knows nothing has read all bytes where no item comes. -/
theorem Fresh.atEnd_of_next_none (hf : Fresh c) (hc : c.done = false) (h : c.next.1 = none) :
    c.next.2.reader.atEnd = true := by
  rcases next_none hc h with hend | ⟨⟨p, target, hp, _⟩, _⟩
  · exact hend
  · rw [hf.pending] at hp
    cases hp

theorem done_of_emitted {r : InstructionRecord} (h : c.next.1 = some (.ok r)) :
    c.next.2.done = false := by
  have hc := done_of_next_eq_some h
  have hcalled := next_called hc
  rw [h] at hcalled
  generalize c.reads = ps at hcalled
  generalize c.next.2 = d at hcalled ⊢
  cases hcalled with
  | emitted hreads _ _ hfetch _ => exact hfetch.done_eq.trans (hreads.done_eq.trans hc)

/-- Behind an error the walk has ended, or it goes on without knowing anything. -/
theorem properEnd_of_error (hf : Fresh c) (hplace : c.lastOffset = c.reader.offset) {m : Nat}
    {e : DecodeError} (hi : c.item m = some (.error e)) (hend : c.item (m + 1) = none) :
    ProperEnd c (m + 1) := by
  obtain ⟨g, hfailing, hbuffer, hg, hafter⟩ := item_error hf hplace hi
  have hfresh : Fresh (c.after (m + 1)) := fresh_of_error hi
  have hwindow : g.reader.buffer = c.reader.buffer := hbuffer.trans (buffer_after c m)
  rcases overflow_or_ne e with ⟨offset, rfl⟩ | he
  · have hdone : (c.after (m + 1)).done = false := hafter ▸ hg
    exact .exhausted (hfresh.atEnd_of_next_none hdone hend)
  · rcases recover_place he hg with ⟨p, _, hdone, _⟩ | ⟨hnone, _⟩
    · rw [← hafter] at hdone
      exact .exhausted (hfresh.atEnd_of_next_none hdone hend)
    · rw [hfailing, hwindow] at hnone
      exact .lost rfl hi hnone

/-- Behind an instruction all bytes are read, or the outcome it waits for is missing from its
packet. -/
theorem properEnd_or_emptyEnd (hf : Fresh c) {m : Nat} {r : InstructionRecord}
    (hi : c.item m = some (.ok r)) (hend : c.item (m + 1) = none) :
    ProperEnd c (m + 1) ∨ EmptyEnd c (m + 1) := by
  obtain ⟨flow, hw⟩ := walking_after hf hi
  have hnone : (c.after (m + 1)).next.1 = none := hend
  have hout := next_none (c := c.after (m + 1)) (done_of_emitted hi) hnone
  refine hout.imp .exhausted ?_
  rintro ⟨⟨p, target, hp, hflow⟩, o, hlast, hbytes⟩
  rw [hw.pending] at hp
  cases hp
  have hlog : c.log (m + 1 + 1) = c.log (m + 1) ++ ofReads (c.after (m + 1)).reads := by
    rw [log_succ c (m + 1), hend]
    exact List.append_nil _
  refine ⟨⟨m, r, rfl, hi, ?_⟩, o, ?_, buffer_after c (m + 1) ▸ hbytes⟩
  · exact (readInstruction_found hw.found).2.1.trans (congrArg Flow.cls hflow)
  · rw [hlog, List.getLast?_append, ofReads, List.getLast?_map, hlast]
    rfl

/-- Whatever the window, the images and their source, the items end, and a run that does not end
properly ends with a conditional branch and a packet without outcomes. -/
theorem ends_properly_or_at_empty_tnt (decoder : Decoder) (window : List UInt8) (rebuilt : Bool) :
    let c := start decoder window rebuilt
    ∃ n, (∀ k < n, c.item k ≠ none) ∧ c.item n = none ∧ (ProperEnd c n ∨ EmptyEnd c n) := by
  intro c
  have hf : Fresh c := fresh_start decoder window rebuilt
  obtain ⟨n, _, hbefore, hend⟩ := exists_end_start decoder window rebuilt
  refine ⟨n, hbefore, hend, ?_⟩
  -- What was given last decides in which state the end is found.
  cases n with
  | zero => exact .inl (.exhausted (hf.atEnd_of_next_none rfl hend))
  | succ m =>
      rcases hi : c.item m with _ | e | r
      · exact absurd hi (hbefore m (Nat.lt_succ_self m))
      · exact .inl (properEnd_of_error hf rfl hi hend)
      · exact properEnd_or_emptyEnd hf hi hend

/-- A conditional branch waits for its outcome; behind a packet without one the outcome comes.  The
run ends in front of it. -/
theorem not_properEnd_of_empty_tnt :
    let code : Section := ⟨0x1006, #[0x74, 0x02, 0x0f, 0x05], by decide, by decide⟩
    let image : Image := ⟨[code], List.pairwise_singleton _ _⟩
    let window := Packet.psbPattern ++ [0x02, 0x23, 0xd1, 0x06, 0x10] ++ List.replicate 6 0x00 ++
      Packet.longTnt [] ++ [0x04, 0x01]
    let c := start { source := fun _ => .ok image, image := some image } window true
    ∃ n, (∀ k < n, c.item k ≠ none) ∧ c.item n = none ∧ ¬ ProperEnd c n := by
  intro code image window c
  let branch : InstructionRecord := .ofParts 0x1006 [0x74, 0x02] .bits64 .conditionalJump
  have hfirst : c.item 0 = some (.ok branch) := by decide +kernel
  have hend : c.item 1 = none := by decide +kernel
  have hleft : (c.after 2).reader.atEnd = false := by decide +kernel
  refine ⟨1, ?_, hend, ?_⟩
  · intro k hk
    rw [Nat.lt_one_iff.1 hk, hfirst]
    exact Option.some_ne_none _
  · rintro (⟨hn, he, _⟩ | hat)
    · cases hn
      rw [hfirst] at he
      cases he
    · rw [hleft] at hat
      cases hat

end Cursor

end BranchWatch
