import BranchWatch.Proofs.Packet.Synchronisation
import BranchWatch.Proofs.Walk.Run

/-!
# What one item costs

Each item uses up some of the window, however malformed the window is and whatever the source of
images says.  The state between two items is either fresh, where nothing is known and the next
packet decides, or walking, where the last instruction waits for its successor (`Steady`).  Behind
an error other than an overflow the walk stands in front of a synchronisation packet, which can be
read (`Resynchronised`).  So each byte of the window accounts for at most `maxSteps + 1` items
(`budget_next`).
-/

namespace BranchWatch

namespace Cursor

variable {c d : Cursor}

/-- The state at the start of a window and behind an error: nothing is known about the path. -/
structure Fresh (c : Cursor) : Prop where
  flow : c.flow = c.flow.reset
  steps : c.steps = 0

theorem Fresh.ip (h : Fresh c) : c.flow.ip = none := by
  rw [h.flow]
  rfl

theorem Fresh.pending (h : Fresh c) : c.flow.pending = none := by
  rw [h.flow]
  rfl

theorem fresh_start (decoder : Decoder) (window : List UInt8) (rebuilt : Bool) :
    Fresh (start decoder window rebuilt) := ⟨rfl, rfl⟩

/-! ## Going on after an error -/

/-- The offset behind which the walk looks for a synchronisation point after an error. -/
def failing (c : Cursor) : DecodeError → Nat
  | .packet p => max c.lastOffset p.offset
  | _ => c.lastOffset

theorem lastOffset_le_failing (c : Cursor) (e : DecodeError) : c.lastOffset ≤ c.failing e := by
  cases e with
  | packet p => exact Nat.le_max_left _ _
  | _ => exact Nat.le_refl _

theorem recover_eq {e : DecodeError} (he : ∀ offset, e ≠ .overflow offset) :
    c.recover e = match findPsb (c.failing e + 1) (c.reader.buffer.drop (c.failing e + 1)) with
      | some offset =>
        { c with
          flow := c.flow.reset, steps := 0, inPsb := false
          lastOffset := c.failing e, reader := c.reader.seek offset }
      | none =>
        { c with
          flow := c.flow.reset, steps := 0, inPsb := false
          lastOffset := c.failing e, done := true } := by
  cases e with
  | overflow offset => exact absurd rfl (he offset)
  | _ => rfl

/-- Only an overflow is not followed by a search. -/
theorem overflow_or_ne (e : DecodeError) :
    (∃ offset, e = .overflow offset) ∨ ∀ offset, e ≠ .overflow offset := by
  cases e with
  | overflow offset => exact .inl ⟨offset, rfl⟩
  | _ => exact .inr nofun

theorem fresh_recover (c : Cursor) (e : DecodeError) : Fresh (c.recover e) := by
  rcases overflow_or_ne e with ⟨offset, rfl⟩ | he
  · exact ⟨rfl, rfl⟩
  · rw [recover_eq he]
    split <;> exact ⟨rfl, rfl⟩

theorem recover_buffer (c : Cursor) (e : DecodeError) :
    (c.recover e).reader.buffer = c.reader.buffer := by
  rcases overflow_or_ne e with ⟨offset, rfl⟩ | he
  · rfl
  · rw [recover_eq he]
    split <;> rfl

/-- Where the walk is after an error other than an overflow, if it goes on: in front of a
synchronisation packet that lies behind the failing one. -/
structure Resynchronised (c : Cursor) (e : DecodeError) (d : Cursor) : Prop where
  peek : d.reader.peek = .ok (some (.psb, 16))
  last_eq : d.lastOffset = c.failing e
  last_lt : d.lastOffset < d.reader.offset

theorem Resynchronised.lt_of_le {e : DecodeError} (h : Resynchronised c e d) {offset : Nat}
    (hle : offset ≤ c.failing e) : offset < d.reader.offset := by
  rw [← h.last_eq] at hle
  exact Nat.lt_of_le_of_lt hle h.last_lt

theorem recover_cases {e : DecodeError} (he : ∀ offset, e ≠ .overflow offset) :
    (c.recover e).done = true ∨ Resynchronised c e (c.recover e) := by
  rw [recover_eq he]
  split
  next place hplace =>
    have hlt : c.failing e < place := findPsb_le hplace
    exact .inr ⟨PacketReader.peek_of_findPsb hplace, rfl, hlt⟩
  next => exact .inl rfl

/-! ## One item -/

/-- The state between two items. -/
inductive Steady (c : Cursor) : Prop
  | fresh (h : Fresh c)
  | walking {p : Pending} (hp : c.flow.pending = some p) (hsteps : c.steps ≤ maxSteps)
      (hlast : c.lastOffset < c.reader.offset)

/-- What the next item means for the progress of the walk.  `g` is the state in which the packets
have been read. -/
inductive Turn (g : Cursor) (ps : List (Nat × Packet)) : Option Item → Cursor → Prop
  | ended {d : Cursor} (hdone : d.done = true) : Turn g ps none d
  | emitted {d : Cursor} {record : InstructionRecord} {p : Pending} (hp : d.flow.pending = some p)
      (hreader : d.reader = g.reader) (hlast : d.lastOffset = g.lastOffset)
      (hsteps : d.steps = g.steps + 1) (hlt : g.steps < maxSteps) (hdone : d.done = false) :
      Turn g ps (some (.ok record)) d
  | overflowed {d : Cursor} {offset : Nat} (hps : ps ≠ []) (hreader : d.reader = g.reader)
      (hlast : d.lastOffset = g.lastOffset) (hfresh : Fresh d) (hdone : d.done = false) :
      Turn g ps (some (.error (.overflow offset))) d
  | recovered {d : Cursor} {e : DecodeError} (hfresh : Fresh d)
      (hd : d.done = true ∨ Resynchronised g e d) : Turn g ps (some (.error e)) d

/-- The number of steps never passes its limit. -/
theorem Steady.steps_le {ps : List (Nat × Packet)} (h : Steady c) (hr : Reads c ps d) :
    d.steps ≤ maxSteps := by
  have hc : c.steps ≤ maxSteps := by
    cases h with
    | fresh h => exact h.steps ▸ Nat.zero_le _
    | walking _ hsteps _ => exact hsteps
  rcases hr.last with ⟨_, _, hsteps⟩ | ⟨_, hsteps, _⟩
  · omega
  · omega

theorem next_turn (hc : c.done = false) (hs : Steady c) :
    ∃ g, Reads c c.reads g ∧ Turn g c.reads c.next.1 c.next.2 := by
  have hcall := next_called hc
  generalize c.reads = ps at hcall ⊢
  generalize c.next.1 = i at hcall ⊢
  generalize c.next.2 = d at hcall ⊢
  cases hcall with
  | ended h => exact ⟨_, h, .ended rfl⟩
  | @failed d _ e h hraised =>
      refine ⟨d, h, ?_⟩
      rcases overflow_or_ne e with ⟨offset, rfl⟩ | he
      · -- The overflow packet itself has been read.
        have hlast : ps.getLast? = some (offset, .overflow) := hraised
        have hps : ps ≠ [] := by
          rintro rfl
          cases hlast
        exact .overflowed hps rfl rfl (fresh_recover d _) (h.done_eq.trans hc)
      · exact .recovered (fresh_recover d e) (recover_cases he)
  | @runaway d _ ip h hip hsteps =>
      have he : ∀ offset, DecodeError.runaway ip maxSteps ≠ .overflow offset := nofun
      exact ⟨d, h, .recovered (fresh_recover d _) (recover_cases he)⟩
  | @missed d f _ e h hsteps hfetch he =>
      have he : ∀ offset, e ≠ .overflow offset := by
        rintro offset rfl
        cases he
      refine ⟨d, h, .recovered (fresh_recover f e) ?_⟩
      rcases recover_cases (c := f) he with hdone | hpsb
      · exact .inl hdone
      · -- The fetch that failed left the place alone.
        have hlast : f.failing e = d.failing e := by
          unfold failing
          rw [hfetch.lastOffset_eq]
          rfl
        exact .inr ⟨hpsb.peek, hpsb.last_eq.trans hlast, hpsb.last_lt⟩
  | @emitted d f _ ip record flow h hip hsteps hfetch hfound =>
      have hle := hs.steps_le h
      exact ⟨d, h, .emitted rfl hfetch.reader_eq hfetch.lastOffset_eq hfetch.steps_eq
        (by omega) (hfetch.done_eq.trans (h.done_eq.trans hc))⟩

/-- In a fresh state the packet in front decides. -/
theorem fresh_cases (hc : c.done = false) (hf : Fresh c) :
    c.reads ≠ [] ∨ c.next.1 = none ∨
      ∃ e, c.reader.peek = .error e ∧ c.next.1 = some (.error (.packet e)) := by
  have hlocate := locate_none hf.ip
  rw [acquire_eq] at hlocate
  have hstep := step_eq c
  rw [resolve_none hf.pending] at hstep
  rcases hp : c.reader.peek with e | _ | ⟨p, n⟩
  · right; right
    rw [nextEvent_of_fault hp] at hlocate
    simp only [hlocate] at hstep
    refine ⟨e, rfl, ?_⟩
    unfold next
    simp only [hc, hstep, Bool.false_eq_true, if_false]
  · right; left
    rw [nextEvent_of_end hp] at hlocate
    simp only [hlocate] at hstep
    unfold next
    simp only [hc, hstep, Bool.false_eq_true, if_false]
  · left
    have hlt : c.reader.offset < (behind (step c)).reader.offset := by
      rw [step_reader (resolve_none hf.pending)]
      exact locate_offset_lt hp hf.ip
    unfold reads
    simp only [hc, Bool.false_eq_true, if_false]
    rw [PacketReader.upTo_of_packet hp hlt]
    exact List.cons_ne_nil _ _

theorem next_buffer (c : Cursor) : c.next.2.reader.buffer = c.reader.buffer := by
  cases hc : c.done with
  | true => rw [next_of_done hc]
  | false =>
      have hcall := next_called hc
      generalize c.reads = ps at hcall
      generalize c.next.1 = i at hcall
      generalize c.next.2 = d at hcall ⊢
      have hplace {d f : Cursor} (hfetch : Refreshed d.countStep f) :
          f.reader.buffer = d.reader.buffer := congrArg PacketReader.buffer hfetch.reader_eq
      cases hcall with
      | ended h => exact h.buffer_eq
      | failed h _ => exact (recover_buffer _ _).trans h.buffer_eq
      | runaway h _ _ => exact (recover_buffer _ _).trans h.buffer_eq
      | missed h _ hfetch _ =>
          exact (recover_buffer _ _).trans ((hplace hfetch).trans h.buffer_eq)
      | emitted h _ _ hfetch _ => exact (hplace hfetch).trans h.buffer_eq

/-- Where an item is given without reading a packet, the walk was walking, or the packet in front
of a fresh state cannot be read. -/
theorem fresh_silent {i : Item} (hc : c.done = false) (hf : Fresh c) (hreads : c.reads = [])
    (hi : c.next.1 = some i) : ∃ e, c.reader.peek = .error e ∧ i = .error (.packet e) := by
  rcases fresh_cases hc hf with hread | hnone | ⟨e, hpeek, he⟩
  · exact absurd hreads hread
  · rw [hnone] at hi
    cases hi
  · rw [hi] at he
    exact ⟨e, hpeek, Option.some.inj he⟩

/-- Between two items the state stays fresh or walking. -/
theorem steady_next (hc : c.done = false) (hs : Steady c) (hd : c.next.2.done = false) :
    Steady c.next.2 := by
  obtain ⟨g, hr, hturn⟩ := next_turn hc hs
  generalize hi : c.next.1 = i at hturn
  generalize c.next.2 = d at hturn hd ⊢
  cases hturn with
  | ended hdone =>
      rw [hdone] at hd
      cases hd
  | @emitted _ record p hp hreader hlast hsteps hlt hdone =>
      refine .walking hp (by omega) ?_
      rw [hreader, hlast]
      rcases hr.last with ⟨hnil, hsame, _⟩ | ⟨_, _, hlast⟩
      · -- No packet was read, so the walk was walking before.
        cases hs with
        | fresh hf =>
            obtain ⟨e, _, he⟩ := fresh_silent hc hf hnil hi
            cases he
        | walking _ _ hold =>
            have hle := hr.offset_le
            omega
      · exact hlast
  | overflowed _ _ _ hfresh _ => exact .fresh hfresh
  | recovered hfresh _ => exact .fresh hfresh

/-! ## How many items -/

/-- How many items can still come. -/
def budget (c : Cursor) : Nat :=
  if c.done then 0
  else match c.flow.pending with
    | some _ =>
      (c.reader.buffer.length - (c.lastOffset + 1)) * (maxSteps + 1) + (maxSteps - c.steps + 1)
    | none => (c.reader.buffer.length - c.reader.offset) * (maxSteps + 1)

theorem budget_of_done (h : c.done = true) : budget c = 0 := by
  unfold budget
  rw [if_pos h]

theorem budget_walking {p : Pending} (hc : c.done = false) (hp : c.flow.pending = some p) :
    budget c = (c.reader.buffer.length - (c.lastOffset + 1)) * (maxSteps + 1) +
      (maxSteps - c.steps + 1) := by
  unfold budget
  simp only [hc, hp, Bool.false_eq_true, if_false]

theorem budget_fresh (hc : c.done = false) (hf : Fresh c) :
    budget c = (c.reader.buffer.length - c.reader.offset) * (maxSteps + 1) := by
  unfold budget
  simp only [hc, hf.pending, Bool.false_eq_true, if_false]

/-- A state that goes on at some place behind the offset `last` has the bytes behind that offset
before it. -/
theorem budget_le_of_fresh (hf : Fresh d) {last : Nat} (hlt : d.done = true ∨ last < d.reader.offset) :
    budget d ≤ (d.reader.buffer.length - (last + 1)) * (maxSteps + 1) := by
  cases hd : d.done with
  | true =>
      rw [budget_of_done hd]
      exact Nat.zero_le _
  | false =>
      have hlt : last < d.reader.offset := hlt.resolve_left (Bool.eq_false_iff.1 hd)
      rw [budget_fresh hd hf]
      exact Nat.mul_le_mul_right _ (by omega)

/-- A packet that is read costs the bytes up to its offset. -/
theorem le_budget_of_steady (hc : c.done = false) (hs : Steady c) {m : Nat}
    (hm : c.reader.offset ≤ m) (hlt : m < c.reader.buffer.length) :
    (c.reader.buffer.length - (m + 1)) * (maxSteps + 1) + (maxSteps + 1) ≤ budget c := by
  have hmul {a : Nat} (ha : c.reader.buffer.length - (m + 1) + 1 ≤ a) :
      (c.reader.buffer.length - (m + 1)) * (maxSteps + 1) + (maxSteps + 1) ≤
        a * (maxSteps + 1) := by
    rw [← Nat.succ_mul]
    exact Nat.mul_le_mul_right _ ha
  cases hs with
  | fresh hf =>
      rw [budget_fresh hc hf]
      exact hmul (by omega)
  | walking hp _ hlast =>
      rw [budget_walking hc hp]
      exact Nat.le_trans (hmul (by omega)) (Nat.le_add_right _ _)

/-- Each item uses some of the budget. -/
theorem budget_next (hc : c.done = false) (hs : Steady c) {i : Item} (hi : c.next.1 = some i) :
    budget c.next.2 + 1 ≤ budget c := by
  obtain ⟨g, hr, hturn⟩ := next_turn hc hs
  have hbuffer := next_buffer c
  have hsilent := fun hf hreads => fresh_silent hc hf hreads hi
  rw [hi] at hturn
  generalize c.next.2 = d at hturn hbuffer ⊢
  rcases hr.last with ⟨hnil, hlast, hsteps⟩ | ⟨⟨p, hp⟩, hsteps, hlt⟩
  · -- Without a packet the walk goes on by one step, or the packet in front cannot be read.
    cases hs with
    | fresh hf =>
        obtain ⟨e, hpeek, rfl⟩ := hsilent hf hnil
        have hoffset := PacketReader.offset_of_peek_eq_error hpeek
        have hin := PacketReader.offset_lt_of_peek_eq_error hpeek
        have hle := le_budget_of_steady hc (.fresh hf) (Nat.le_refl _) hin
        cases hturn with
        | recovered hfresh hd =>
            have hfail : c.reader.offset ≤ g.failing (.packet e) := hoffset ▸ Nat.le_max_right _ _
            have hd := budget_le_of_fresh hfresh (hd.imp_right fun hpsb => hpsb.lt_of_le hfail)
            rw [hbuffer] at hd
            omega
    | walking hpending hle hplace =>
        have hbudget := budget_walking hc hpending
        cases hturn with
        | emitted hp' _ hlast' hsteps' hlt' hdone =>
            rw [budget_walking hdone hp', hbuffer, hlast', hlast, hsteps', hsteps, hbudget]
            omega
        | overflowed hps => exact absurd hnil hps
        | @recovered _ e hfresh hd =>
            have hfail : c.lastOffset ≤ g.failing e := hlast ▸ lastOffset_le_failing g e
            have hd := budget_le_of_fresh hfresh (hd.imp_right fun hpsb => hpsb.lt_of_le hfail)
            rw [hbuffer] at hd
            omega
  · -- The last packet read is paid for by the bytes in front of it.
    obtain ⟨hfrom, _, hin⟩ := hr.offset_bounds (List.mem_of_getLast? hp)
    have hle := le_budget_of_steady (m := g.lastOffset) hc hs hfrom hin
    cases hturn with
    | emitted hp' _ hlast' hsteps' hlt' hdone =>
        rw [budget_walking hdone hp', hbuffer, hlast', hsteps', hsteps]
        omega
    | overflowed _ hreader hlast' hfresh _ =>
        have hd := budget_le_of_fresh hfresh (.inr (hreader ▸ hlt))
        rw [hbuffer] at hd
        omega
    | @recovered _ e hfresh hd =>
        have hfail := lastOffset_le_failing g e
        have hd := budget_le_of_fresh hfresh (hd.imp_right fun hpsb => hpsb.lt_of_le hfail)
        rw [hbuffer] at hd
        omega

end Cursor

end BranchWatch
