import BranchWatch.Proofs.Walk.Shift

/-!
# A fresh start after an error

An error other than an overflow makes the walk go on at the next synchronisation point, and there
nothing of what happened before counts any more: the items that follow are those of a new walk
through the rest of the window, with the offsets in their errors shifted (`items_after_error`).
Only the execution mode and what is known about the code are kept.

The search for that point starts behind the failing offset.  It is told by the log of the run
(`failingOffset`): what the walk remembers of its last packet agrees with it (`Tracked`).
-/

namespace BranchWatch

open Happening

/-- The offset of the last packet that was read. -/
def lastRead (log : List Happening) : Nat :=
  (log.filterMap offset?).getLast?.getD 0

/-- The offset at which an error struck: that of the last packet that was read, or that of a packet
further on which cannot be read. -/
def failingOffset (log : List Happening) : DecodeError → Nat
  | .packet p => max (lastRead log) p.offset
  | _ => lastRead log

namespace Cursor

variable {c d : Cursor} {log : List Happening}

/-- A walk through a window that starts in a given execution mode. -/
def startIn (mode : ExecMode) (decoder : Decoder) (window : List UInt8) (rebuilt : Bool) : Cursor :=
  { start decoder window rebuilt with flow := { mode } }

/-! ## The failing offset -/

/-- Where the walk goes on after an error, in terms of the state in which the error arose. -/
theorem next_error {e : DecodeError} (h : c.next.1 = some (.error e)) :
    ∃ f, Reads c c.reads f ∧ ∃ g : Cursor, g.reader = f.reader ∧ g.lastOffset = f.lastOffset ∧
      g.done = false ∧ c.next.2 = g.recover e := by
  have hc := done_of_next_eq_some h
  have hcalled := next_called hc
  rw [h] at hcalled
  generalize c.reads = ps at hcalled ⊢
  generalize c.next.2 = d at hcalled ⊢
  cases hcalled with
  | @failed f _ _ hr => exact ⟨f, hr, f, rfl, rfl, hr.done_eq.trans hc, rfl⟩
  | @runaway f _ _ hr => exact ⟨f, hr, f, rfl, rfl, hr.done_eq.trans hc, rfl⟩
  | @missed f g _ _ hr _ hfetch =>
      exact ⟨f, hr, g, hfetch.reader_eq, hfetch.lastOffset_eq,
        hfetch.done_eq.trans (hr.done_eq.trans hc), rfl⟩

/-- What is remembered of the last packet agrees with the log, or is not looked at any more. -/
inductive Tracked (log : List Happening) (c : Cursor) : Prop
  | last (h : (log.filterMap offset?).getLast? = some c.lastOffset)
  /-- At the start no packet has been read. -/
  | first (hf : Fresh c) (hlog : log.filterMap offset? = [])
      (hplace : c.lastOffset = c.reader.offset)
  /-- Behind an error the next packet can be read. -/
  | ready (hf : Fresh c) (hpeek : c.reader.peek = .ok (some (.psb, 16)))

theorem getLast?_offsets_succ (c : Cursor) (k : Nat) :
    ((c.log (k + 1)).filterMap offset?).getLast? =
      ((c.after k).reads.getLast?.map (·.1)).or ((c.log k).filterMap offset?).getLast? := by
  rw [offsets_log_succ, List.getLast?_append, List.getLast?_map]

theorem Tracked.succ {k : Nat} (h : Tracked (c.log k) (c.after k)) (hs : Steady (c.after k))
    (hc : (c.after k).done = false) :
    (c.after (k + 1)).done = true ∨ Tracked (c.log (k + 1)) (c.after (k + 1)) := by
  obtain ⟨g, hr, hturn⟩ := next_turn hc hs
  have hsilent := fun {i : Item} hf hreads (hi : (c.after k).next.1 = some i) =>
    fresh_silent hc hf hreads hi
  have hlog := getLast?_offsets_succ c k
  show (c.after k).next.2.done = true ∨ Tracked (c.log (k + 1)) (c.after k).next.2
  generalize hi : (c.after k).next.1 = i at hturn
  generalize (c.after k).next.2 = d at hturn ⊢
  rcases hr.last with ⟨hnil, hlast, _⟩ | ⟨⟨p, hp⟩, _⟩
  · rw [hnil] at hlog
    cases hturn with
    | ended hdone => exact .inl hdone
    | emitted _ _ hlast' =>
        right
        have hnofault (hf : Fresh (c.after k)) : False := by
          obtain ⟨e, _, he⟩ := hsilent hf hnil hi
          cases he
        cases h with
        | last h => exact .last (hlog.trans (h.trans (by rw [hlast', hlast])))
        | first hf => exact (hnofault hf).elim
        | ready hf => exact (hnofault hf).elim
    | overflowed hps => exact absurd hnil hps
    | recovered hfresh hd => exact hd.imp_right fun hpsb => .ready hfresh hpsb.peek
  · rw [hp] at hlog
    cases hturn with
    | ended hdone => exact .inl hdone
    | emitted _ _ hlast' => exact .inr (.last (hlog.trans (by rw [hlast']; rfl)))
    | overflowed _ _ hlast' => exact .inr (.last (hlog.trans (by rw [hlast']; rfl)))
    | recovered hfresh hd => exact hd.imp_right fun hpsb => .ready hfresh hpsb.peek

theorem tracked_after (hf : Fresh c) (hplace : c.lastOffset = c.reader.offset) (k : Nat) :
    (c.after k).done = true ∨ Tracked (c.log k) (c.after k) := by
  induction k with
  | zero => exact .inr (.first hf rfl hplace)
  | succ k ih =>
      rcases hc : (c.after k).done with _ | _
      · have hcourse := (course_after hf k).resolve_left (Bool.eq_false_iff.1 hc)
        exact (ih.resolve_left (Bool.eq_false_iff.1 hc)).succ hcourse.steady hc
      · exact .inl (done_next hc)

/-- The state that goes on after an error searches behind the failing offset of the log. -/
theorem item_error (hf : Fresh c) (hplace : c.lastOffset = c.reader.offset) {k : Nat}
    {e : DecodeError} (h : c.item k = some (.error e)) :
    ∃ g : Cursor, g.failing e = failingOffset (c.log (k + 1)) e ∧
      g.reader.buffer = (c.after k).reader.buffer ∧ g.done = false ∧
      c.after (k + 1) = g.recover e := by
  obtain ⟨f, hr, g, hreader, hlast, hdone, hnext⟩ := next_error h
  have hc := done_of_next_eq_some h
  have htracked := (tracked_after hf hplace k).resolve_left (Bool.eq_false_iff.1 hc)
  refine ⟨g, ?_, by rw [hreader, hr.buffer_eq], hdone, hnext⟩
  have hfailing (hsame : lastRead (c.log (k + 1)) = g.lastOffset) :
      g.failing e = failingOffset (c.log (k + 1)) e := by
    unfold failingOffset
    rw [hsame]
    rfl
  have hlog := getLast?_offsets_succ c k
  rcases hr.last with ⟨hnil, hkept, _⟩ | ⟨⟨p, hp⟩, _⟩
  · rw [hnil] at hlog
    have hfault (hfresh : Fresh (c.after k)) :
        ∃ p, (c.after k).reader.peek = .error p ∧ e = .packet p := by
      obtain ⟨p, hp, he⟩ := fresh_silent hc hfresh hnil h
      exact ⟨p, hp, by cases he; rfl⟩
    cases htracked with
    | last hsome =>
        refine hfailing ?_
        unfold lastRead
        rw [hlog, hsome, hlast, hkept]
        rfl
    | first hfresh hempty hplace =>
        -- The packet in front of the start cannot be read.
        obtain ⟨p, hp, rfl⟩ := hfault hfresh
        have hoffset := PacketReader.offset_of_peek_eq_error hp
        have hzero : lastRead (c.log (k + 1)) = 0 := by
          unfold lastRead
          rw [hlog, hempty]
          rfl
        show max g.lastOffset p.offset = max (lastRead (c.log (k + 1))) p.offset
        rw [hzero, hlast, hkept, hplace, hoffset]
        omega
    | ready hfresh hpeek =>
        obtain ⟨p, hp, _⟩ := hfault hfresh
        rw [hpeek] at hp
        cases hp
  · refine hfailing ?_
    unfold lastRead
    rw [hlog, hp, hlast]
    rfl

/-! ## Nothing of the past counts -/

/-- A walk that knows nothing reads a synchronisation packet first, which leaves no trace of what
was remembered of the packet before it. -/
theorem next_consume_psb (hc : c.done = false) (hf : Fresh c)
    (hpeek : c.reader.peek = .ok (some (.psb, 16))) : c.next = (c.consume .psb 16).next := by
  have hevent : nextEvent c = nextEvent (c.consume .psb 16) := nextEvent_of_packet hpeek
  have hip : (c.consume .psb 16).flow.ip = none := hf.ip
  have hpending : (c.consume .psb 16).flow.pending = none := hf.pending
  have hdone : (c.consume .psb 16).done = false := hc
  have hstep : step c = step (c.consume .psb 16) := by
    rw [step_eq, step_eq, resolve_none hf.pending, resolve_none hpending]
    simp only
    rw [locate_none hf.ip, locate_none hip, acquire_eq c, acquire_eq (c.consume .psb 16), hevent]
  unfold Cursor.next
  rw [hstep, hc, hdone]
  rfl

theorem item_congr (h : c.next = d.next) (k : Nat) : c.item k = d.item k := by
  cases k with
  | zero => exact congrArg Prod.fst h
  | succ k => rw [item_succ, item_succ, h]

/-- A walk through a window with a synchronisation point in front starts there. -/
theorem start_of_psbAt {window : List UInt8} {p : Nat} (hp : PsbAt window p) (decoder : Decoder)
    (rebuilt : Bool) : start decoder (window.drop p) rebuilt =
      { decoder, reader := .mkAt (window.drop p) 0, lastOffset := 0, rebuilt } := by
  unfold start
  rw [hp.findPsb_drop 0]
  rfl

/-- A walk that knows nothing in front of a synchronisation point is a new walk through the bytes
from there on. -/
theorem item_of_psbAt {p : Nat} (hc : c.done = false) (hf : Fresh c)
    (hp : PsbAt c.reader.buffer p) (hplace : c.reader = .mkAt c.reader.buffer p)
    (j : Nat) :
    c.item j = ((startIn c.flow.mode c.decoder (c.reader.buffer.drop p) c.rebuilt).item j).map
      (Item.shift p) := by
  generalize hd : startIn c.flow.mode c.decoder (c.reader.buffer.drop p) c.rebuilt = d
  have hstart : d = {
      decoder := c.decoder
      reader := .mkAt (c.reader.buffer.drop p) 0
      flow := { mode := c.flow.mode }
      lastOffset := 0
      rebuilt := c.rebuilt } := by
    rw [← hd]
    unfold startIn
    rw [start_of_psbAt hp]
  have hpeek : c.reader.peek = .ok (some (.psb, 16)) := by
    rw [hplace]
    exact PacketReader.peek_mkAt_of_isPrefix hp
  have hpeek' : d.reader.peek = .ok (some (.psb, 16)) := by
    rw [hstart]
    exact PacketReader.peek_mkAt_of_isPrefix hp
  have hoffset : c.reader.offset = p := by rw [hplace]; rfl
  -- What the two walks remember of the packet before differs; behind the first packet it does not.
  have hshifted : Shifted p 0 (c.consume .psb 16) (d.consume .psb 16) := by
    subst hstart
    refine ⟨fun o _ => ?_, Nat.zero_le _, Nat.zero_le _, ?_, ?_, .inl rfl, ?_, rfl, rfl, hc, rfl,
      rfl⟩
    · show c.reader.buffer.drop (o + p) = (c.reader.buffer.drop p).drop o
      rw [List.drop_drop, Nat.add_comm]
    · show c.reader.offset + 16 = 0 + 16 + p
      omega
    · show (c.flow.absorb .psb).Alike (FlowState.absorb { mode := c.flow.mode } .psb)
      rw [hf.flow]
      exact .refl _
    · show c.reader.offset = 0 + p
      omega
  have hnext : d.next = (d.consume .psb 16).next := by
    refine next_consume_psb ?_ ?_ hpeek'
    · rw [hstart]
    · rw [hstart]
      exact ⟨rfl, rfl⟩
  rw [item_congr (next_consume_psb hc hf hpeek), item_congr hnext]
  exact hshifted.item_eq j

/-- The bytes before the first synchronisation point only shift the offsets in errors. -/
theorem shifted_start {window : List UInt8} {p : Nat} (hp : FirstPsb window 0 p) (decoder : Decoder)
    (rebuilt : Bool) :
    Shifted p 0 (start decoder window rebuilt) (start decoder (window.drop p) rebuilt) := by
  have hfind : findPsb 0 window = some p := findPsb_eq_some_iff.2 hp
  rw [start_of_psbAt hp.psbAt]
  unfold start
  rw [hfind]
  refine ⟨fun o _ => ?_, Nat.zero_le _, Nat.zero_le _, (Nat.zero_add p).symm, .refl _, .inl rfl,
    (Nat.zero_add p).symm, rfl, rfl, rfl, rfl, rfl⟩
  show window.drop (o + p) = (window.drop p).drop o
  rw [List.drop_drop, Nat.add_comm]

theorem buffer_after (c : Cursor) (k : Nat) : (c.after k).reader.buffer = c.reader.buffer := by
  induction k with
  | zero => rfl
  | succ k ih => exact (next_buffer (c.after k)).trans ih

/-- The state behind an error is fresh, and it stands in front of the first synchronisation point
behind the failing offset, or there is none and the window has ended. -/
theorem recover_place {g : Cursor} {e : DecodeError} (he : ∀ offset, e ≠ .overflow offset)
    (hg : g.done = false) :
    (∃ p, FirstPsb g.reader.buffer (g.failing e + 1) p ∧ (g.recover e).done = false ∧
      (g.recover e).reader = .mkAt g.reader.buffer p) ∨
    (∀ p > g.failing e, ¬ PsbAt g.reader.buffer p) ∧ (g.recover e).done = true := by
  rw [recover_eq he]
  rcases hfind : findPsb (g.failing e + 1) (g.reader.buffer.drop (g.failing e + 1)) with _ | p
  · exact .inr ⟨findPsb_eq_none_iff.1 hfind, rfl⟩
  · exact .inl ⟨p, findPsb_eq_some_iff.1 hfind, hg, rfl⟩

/-- Whatever the window, the images and their source, an error other than an overflow is followed by
a fresh start.  If the synchronisation pattern stands somewhere behind the failing offset, the items
that follow are those of a new walk through the bytes from the first such place on, with the same
mode, code and source, and with the offsets in errors shifted by that place; otherwise nothing
follows.  In the same way the bytes before the first pattern of a window only shift the offsets in
errors. -/
theorem items_after_error (decoder : Decoder) (window : List UInt8) (rebuilt : Bool) (k : Nat) :
    let c := start decoder window rebuilt
    let d := c.after (k + 1)
    (∀ e, c.item k = some (.error e) → (∀ offset, e ≠ .overflow offset) →
      (∀ p, FirstPsb window (failingOffset (c.log (k + 1)) e + 1) p → ∀ j,
        c.item (k + 1 + j) =
          ((startIn d.flow.mode d.decoder (window.drop p) d.rebuilt).item j).map (Item.shift p)) ∧
      ((∀ p > failingOffset (c.log (k + 1)) e, ¬ PsbAt window p) →
        ∀ j, c.item (k + 1 + j) = none)) ∧
    ∀ p, FirstPsb window 0 p → ∀ j,
      c.item j = ((start decoder (window.drop p) rebuilt).item j).map (Item.shift p) := by
  intro c d
  refine ⟨fun e h he => ?_, fun p hp j => (shifted_start hp decoder rebuilt).item_eq j⟩
  obtain ⟨g, hfailing, hbuffer, hg, hnext⟩ :=
    item_error (fresh_start decoder window rebuilt) rfl h
  have hwindow : g.reader.buffer = window := hbuffer.trans (buffer_after c k)
  have hd : d = g.recover e := hnext
  have hplace := recover_place he hg
  rw [hfailing, hwindow, ← hd] at hplace
  refine ⟨fun p hp j => ?_, fun hnone j => ?_⟩
  · rw [item_add]
    rcases hplace with ⟨q, hq, hdone, hreader⟩ | ⟨hnone, _⟩
    · cases hp.unique hq
      have hbuffer : d.reader.buffer = window := by rw [hreader]; rfl
      have hfresh : Fresh d := hd ▸ fresh_recover g e
      have hitem := item_of_psbAt hdone hfresh (hbuffer ▸ hp.psbAt) (hbuffer ▸ hreader) j
      rw [hbuffer] at hitem
      exact hitem
    · exact absurd hp.psbAt (hnone p hp.le)
  · rw [item_add]
    rcases hplace with ⟨q, hq, _⟩ | ⟨_, hdone⟩
    · exact absurd hq.psbAt (hnone q hq.le)
    · exact item_of_done hdone j

end Cursor

end BranchWatch
