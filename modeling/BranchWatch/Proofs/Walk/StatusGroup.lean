import BranchWatch.Proofs.Walk.Insertion
import BranchWatch.Proofs.Walk.Recovery

/-!
# Status packets in the middle of a trace

Two walks start in front of a place at which a group of status packets has been inserted into the
window of the second one.  If the first one meets no error and reads the packet at the place to move
on from an instruction (`Cursor.answers`), then both give the same items (`Ahead.item_eq`).  The
place is one at which there is a packet and no other group is open (`Meets.of_mem`).
-/

namespace BranchWatch

/-- A synchronisation group is open behind some packets. -/
def openBehind (inPsb : Bool) (ps : List (Nat × Packet)) : Bool :=
  ps.foldl (fun inPsb x => inPsbAfter inPsb x.2) inPsb

namespace PacketReader

variable {r : PacketReader} {p stop : Nat} {q : Packet} {inPsb : Bool}

theorem offset_bounds_of_mem_upTo {x : Nat × Packet} (h : x ∈ r.upTo stop) :
    r.offset ≤ x.1 ∧ x.1 < stop := by
  fun_induction upTo r stop with
  | case1 r hlt q n hq ih =>
      rcases List.mem_cons.1 h with rfl | h
      · exact ⟨Nat.le_refl _, hlt⟩
      · exact ⟨Nat.le_trans (Nat.le_add_right _ n) (ih h).1, (ih h).2⟩
  | case2 => cases h
  | case3 => cases h

/-- Reading comes to each packet. -/
theorem Meets.of_mem (h : (p, q) ∈ r.upTo stop) (hclosed : openBehind inPsb (r.upTo p) = false) :
    Meets p r inPsb := by
  fun_induction upTo r stop generalizing inPsb with
  | case1 r hlt q' n hq ih =>
      rcases List.mem_cons.1 h with heq | hmem
      · cases heq
        rw [upTo_of_le (Nat.le_refl _)] at hclosed
        exact .here rfl hclosed hq
      · have hpos := (offset_add_le_of_peek hq).1
        have hle : r.offset + n ≤ p := (offset_bounds_of_mem_upTo hmem).1
        rw [upTo_of_packet hq (by omega)] at hclosed
        exact .there hq (ih hmem hclosed)
  | case2 => cases h
  | case3 => cases h

end PacketReader

namespace Cursor

variable {c d : Cursor} {ip : UInt64} {p j k : Nat} {q : Packet}

/-- The packets that are read to move on from the last instruction. -/
def answers (c : Cursor) : List (Nat × Packet) :=
  if c.done then [] else c.reader.upTo (behind (resolve c)).reader.offset

/-! ## One item -/

theorem step_ne_error {e : DecodeError} {f : Cursor} (hc : c.done = false)
    (hok : ∀ e, c.next.1 ≠ some (.error e)) : step c ≠ .error e f := by
  intro hs
  refine hok e ?_
  unfold next
  simp only [hc, hs, Bool.false_eq_true, if_false]

/-- Where the steps of two walks agree, and they do not fail, so do the items. -/
theorem next_of_agree {R : Cursor → Cursor → Prop} {E : DecodeError → DecodeError → Prop}
    (h : R c d) (hdone : c.done = d.done) (hok : ∀ e, c.next.1 ≠ some (.error e))
    (hfinish : ∀ {c d : Cursor}, R c d → R { c with done := true } { d with done := true })
    (hstep : c.done = false → Agree R E (step c) (step d)) :
    c.next.1 = d.next.1 ∧ R c.next.2 d.next.2 := by
  cases hc : c.done with
  | true =>
      rw [next_of_done hc, next_of_done (hdone.symm.trans hc)]
      exact ⟨rfl, h⟩
  | false =>
      have hfault {e : DecodeError} {f : Cursor} : step c ≠ .error e f := step_ne_error hc hok
      have hagree := hstep hc
      unfold next
      simp only [hc, hdone.symm.trans hc, Bool.false_eq_true, if_false]
      generalize step c = r at hagree hfault ⊢
      generalize step d = s at hagree ⊢
      cases hagree with
      | error => exact absurd rfl hfault
      | ok record h =>
          cases record with
          | none => exact ⟨rfl, hfinish h⟩
          | some record => exact ⟨rfl, h⟩

namespace Alongside

theorem steps_eq (h : Alongside ip p c d) : c.steps = d.steps :=
  h.elim (fun h => by rw [h.eq]; rfl) fun h => h.steps.symm

theorem done_eq (h : Alongside ip p c d) : c.done = d.done :=
  h.elim (fun h => by rw [h.eq]; rfl) fun h => h.done.symm

theorem decoder_eq (h : Alongside ip p c d) : c.decoder = d.decoder :=
  h.elim (fun h => by rw [h.eq]; rfl) fun h => h.decoder.symm

theorem rebuilt_eq (h : Alongside ip p c d) : c.rebuilt = d.rebuilt :=
  h.elim (fun h => by rw [h.eq]; rfl) fun h => h.rebuilt.symm

theorem countStep (h : Alongside ip p c d) : Alongside ip p c.countStep d.countStep :=
  h.imp (fun h => ⟨by rw [h.eq]; rfl, h.meets, h.absolute⟩) fun h => h.countStep

theorem rebuild (h : Alongside ip p c d) : Alongside ip p c.rebuild d.rebuild :=
  h.imp (fun h => ⟨by rw [h.eq]; rfl, h.meets, h.absolute⟩) fun h => h.rebuild

theorem finish (h : Alongside ip p c d) :
    Alongside ip p { c with done := true } { d with done := true } :=
  h.imp (fun h => ⟨by rw [h.eq]; rfl, h.meets, h.absolute⟩) fun h => { h with done := rfl }

theorem step (h : Alongside ip p c d)
    (hlocate : ∀ e, Cursor.resolve c = .ok true e → e.reader.offset ≤ p →
      Within (UpTo p) e.locate) :
    Agree (Alongside ip p) (fun _ _ => True) (Cursor.step c) (Cursor.step d) :=
  (kindred ip p).step (fun h => h.steps_eq) (fun h => h.countStep) (fun _ _ => trivial)
    (fun a h => .fetch a h.decoder_eq ((kindred ip p).alike h).mode h.rebuilt_eq
      (fun _ _ => trivial) h h.rebuild)
    h.resolve fun hres h => h.locate (hlocate _ hres)

/-- The next item is the same, if it is no error and the walk does not look for an event across the
place. -/
theorem next (h : Alongside ip p c d) (hok : ∀ e, c.next.1 ≠ some (.error e))
    (hclear : c.done = false → ∀ e, Cursor.resolve c = .ok true e → e.reader.offset ≤ p →
      (behind e.locate).reader.offset ≤ p) :
    c.next.1 = d.next.1 ∧ Alongside ip p c.next.2 d.next.2 := by
  refine next_of_agree (E := fun _ _ => True) h h.done_eq hok (fun h => h.finish) fun hc => ?_
  refine h.step fun e hres hle => ?_
  have hbehind := hclear hc e hres hle
  cases hl : e.locate with
  | ok a f =>
      rw [hl] at hbehind
      exact ⟨rfl, hbehind⟩
  | error err f =>
      refine (step_ne_error hc hok (e := err) (f := f) ?_).elim
      rw [step_eq, hres]
      simp only [hl]

end Alongside

/-! ## A run without errors -/

theorem reader_next (hc : c.done = false) (hok : ∀ e, c.next.1 ≠ some (.error e)) :
    c.next.2.reader = (behind (step c)).reader := by
  unfold Cursor.next at hok ⊢
  simp only [hc, Bool.false_eq_true, if_false] at hok ⊢
  rcases hs : step c with ⟨_ | record, d⟩ | ⟨e, d⟩ <;> simp only [hs] at hok ⊢
  · rfl
  · rfl
  · exact absurd rfl (hok e)

/-- An item that is no error leaves the walk behind the packets read for it. -/
theorem next_reads (hc : c.done = false) (hok : ∀ e, c.next.1 ≠ some (.error e)) :
    ∃ e, Reads c c.reads e ∧ c.next.2.reader = e.reader := by
  have hcalled := next_called hc
  generalize c.reads = ps at hcalled ⊢
  generalize c.next.1 = i at hcalled hok
  generalize c.next.2 = d at hcalled ⊢
  cases hcalled with
  | ended h => exact ⟨_, h, rfl⟩
  | failed => exact absurd rfl (hok _)
  | runaway => exact absurd rfl (hok _)
  | missed => exact absurd rfl (hok _)
  | emitted h _ _ hfetch _ => exact ⟨_, h, hfetch.reader_eq⟩

theorem offset_le_next (hok : ∀ e, c.next.1 ≠ some (.error e)) :
    c.reader.offset ≤ c.next.2.reader.offset := by
  cases hc : c.done with
  | true =>
      have hsame : c.next.2 = c := congrArg Prod.snd (next_of_done hc)
      exact Nat.le_of_eq (by rw [hsame])
  | false =>
      obtain ⟨e, hreads, hreader⟩ := next_reads hc hok
      rw [hreader]
      exact hreads.offset_le

/-- The packets behind the walk and those before it are the packets of the window. -/
theorem Reads.upTo_append {ps : List (Nat × Packet)} {stop : Nat} (h : Reads c ps d)
    (hstop : d.reader.offset ≤ stop) : c.reader.upTo stop = ps ++ d.reader.upTo stop := by
  induction h with
  | still h => rw [h.reader, List.nil_append]
  | @read c d q n ps hq h ih =>
      have hpos := (PacketReader.offset_add_le_of_peek hq).1
      have hle : c.reader.offset + n ≤ d.reader.offset := h.offset_le
      rw [PacketReader.upTo_of_packet hq (by omega), List.cons_append]
      exact congrArg ((c.reader.offset, q) :: ·) (ih hstop)

/-- What can be read later on can be read now. -/
theorem Reads.mem_upTo {ps : List (Nat × Packet)} {stop : Nat} {x : Nat × Packet} (h : Reads c ps d)
    (hx : x ∈ d.reader.upTo stop) : x ∈ c.reader.upTo stop := by
  by_cases hstop : d.reader.offset ≤ stop
  · rw [h.upTo_append hstop]
    exact List.mem_append_right _ hx
  · rw [PacketReader.upTo_of_le (Nat.le_of_not_le hstop)] at hx
    cases hx

theorem mem_upTo_of_next {stop : Nat} {x : Nat × Packet} (hok : ∀ e, c.next.1 ≠ some (.error e))
    (hx : x ∈ c.next.2.reader.upTo stop) : x ∈ c.reader.upTo stop := by
  cases hc : c.done with
  | true =>
      rw [next_of_done hc] at hx
      exact hx
  | false =>
      obtain ⟨e, hreads, hreader⟩ := next_reads hc hok
      exact hreads.mem_upTo (hreader ▸ hx)

theorem answers_bounds (h : (p, q) ∈ c.answers) :
    c.done = false ∧ c.reader.offset ≤ p ∧ p < (behind (resolve c)).reader.offset := by
  unfold answers at h
  cases hc : c.done with
  | true =>
      rw [if_pos hc] at h
      cases h
  | false =>
      simp only [hc, Bool.false_eq_true, if_false] at h
      have hreads : ∃ ps, Reads c ps (behind (resolve c)) := by
        have hr := resolve_follows c
        generalize resolve c = r at hr ⊢
        cases r with
        | ok going d => exact hr
        | error e d =>
            obtain ⟨ps, hps, _⟩ := hr
            exact ⟨ps, hps⟩
      obtain ⟨ps, hps⟩ := hreads
      rw [hps.upTo_eq] at h
      have hin := hps.offset_bounds h
      exact ⟨rfl, hin.1, hin.2.1⟩

theorem resolve_offset_le (c : Cursor) :
    (behind (resolve c)).reader.offset ≤ (behind (step c)).reader.offset := by
  rcases hr : resolve c with ⟨_ | _, d⟩ | ⟨e, d⟩
  · rw [step_eq, hr]
    exact Nat.le_refl _
  · rw [step_reader hr]
    exact (locate_follows d).offset_le
  · rw [step_eq, hr]
    exact Nat.le_refl _

section

variable (hok : ∀ k e, c.item k ≠ some (.error e))

include hok

theorem offset_mono (hjk : j ≤ k) : (c.after j).reader.offset ≤ (c.after k).reader.offset := by
  induction hjk with
  | refl => exact Nat.le_refl _
  | @step k _ ih => exact Nat.le_trans ih (offset_le_next (hok k))

theorem mem_upTo_of_after {stop : Nat} {x : Nat × Packet}
    (hx : x ∈ (c.after k).reader.upTo stop) : x ∈ c.reader.upTo stop := by
  induction k with
  | zero => exact hx
  | succ k ih => exact ih (mem_upTo_of_next (hok k) hx)

/-- The walk does not look for an event across the place of a packet that it reads to move on from
an instruction. -/
theorem locate_offset_le (hp : (p, q) ∈ (c.after j).answers) (hc : (c.after k).done = false)
    {e : Cursor} (hres : resolve (c.after k) = .ok true e) (hle : e.reader.offset ≤ p) :
    (behind e.locate).reader.offset ≤ p := by
  obtain ⟨hj, hfrom, hto⟩ := answers_bounds hp
  have hnext {i : Nat} (hi : (c.after i).done = false) :
      (c.after (i + 1)).reader = (behind (step (c.after i))).reader := reader_next hi (hok i)
  rw [← step_reader hres, ← hnext hc]
  rcases Nat.lt_or_ge k j with hlt | hge
  · exact Nat.le_trans (offset_mono hok hlt) hfrom
  · -- The packet has been read before.
    exfalso
    have hbehind : p < e.reader.offset := by
      rcases Nat.eq_or_lt_of_le hge with rfl | hlt
      · rw [hres] at hto
        exact hto
      · have hmove : (c.after k).reader.offset ≤ e.reader.offset := by
          have hr := resolve_follows (c.after k)
          rw [hres] at hr
          exact hr.offset_le
        have hstep := resolve_offset_le (c.after j)
        have hmono := offset_mono hok hlt
        rw [hnext hj] at hmono
        omega
    omega

/-- Two walks that start in front of the place give the same items. -/
theorem Ahead.alongside_after (h : Ahead ip p c d) (hp : (p, q) ∈ (c.after j).answers) (k : Nat) :
    Alongside ip p (c.after k) (d.after k) := by
  induction k with
  | zero => exact .inl h
  | succ k ih =>
      exact (ih.next (hok k) fun hc _ hres hle => locate_offset_le hok hp hc hres hle).2

theorem Ahead.item_eq (h : Ahead ip p c d) (hp : (p, q) ∈ (c.after j).answers) (k : Nat) :
    c.item k = d.item k :=
  ((h.alongside_after hok hp k).next (hok k) fun hc _ hres hle =>
    locate_offset_le hok hp hc hres hle).1

end

/-! ## Inserting a group -/

/-- A pattern in front of a window stays there. -/
theorem isPrefix_insertGroup {window : List UInt8} (h : Packet.psbPattern <+: window)
    (hp : p = 0 ∨ 16 ≤ p) : Packet.psbPattern <+: insertGroup ip p window := by
  unfold insertGroup
  rcases hp with rfl | hp
  · rw [List.take_zero, List.nil_append, statusGroup, List.append_assoc, List.append_assoc]
    exact List.prefix_append _ _
  · rw [List.append_assoc]
    refine List.IsPrefix.trans ?_ (List.prefix_append _ _)
    exact List.prefix_take_iff.2 ⟨h, hp⟩

theorem start_of_psbPattern {window : List UInt8} (h : Packet.psbPattern <+: window)
    (decoder : Decoder) (rebuilt : Bool) : start decoder window rebuilt =
      { decoder, reader := .mkAt window 0, lastOffset := 0, rebuilt } := by
  have hat : PsbAt window 0 := h
  exact start_of_psbAt hat decoder rebuilt

theorem ahead_start {decoder : Decoder} {window : List UInt8} {rebuilt : Bool}
    (hstart : Packet.psbPattern <+: window) (habs : (PacketReader.mkAt window 0).Absolute)
    (hmeets : (PacketReader.mkAt window 0).Meets p false) :
    Ahead ip p (start decoder window rebuilt)
      (start decoder (insertGroup ip p window) rebuilt) := by
  have hpeek : (PacketReader.mkAt window 0).peek = .ok (some (.psb, 16)) :=
    PacketReader.peek_mkAt_of_isPrefix hstart
  have hp : p = 0 ∨ 16 ≤ p := by
    cases hmeets with
    | here hoffset => exact .inl hoffset.symm
    | there hq h =>
        rw [hpeek] at hq
        cases hq
        exact .inr h.bounds.1
  rw [start_of_psbPattern hstart, start_of_psbPattern (isPrefix_insertGroup hstart hp)]
  exact ⟨rfl, hmeets, habs⟩

end Cursor

end BranchWatch
