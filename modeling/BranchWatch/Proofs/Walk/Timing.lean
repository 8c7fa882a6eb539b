import BranchWatch.Proofs.Walk.Counting
import BranchWatch.Proofs.Walk.Recovery

/-!
# Timing packets are passed over

A window with more packets that do not affect the path gives the same items (`items_padded`).  Only
the offsets in errors differ.

* `Beside` relates the walks through the two windows.  Reading an event keeps it, by induction on
  how the packets were added (`Beside.nextEvent_of_padded`).
* Going on after an error keeps it as well (`Beside.recover`).  The search for a synchronisation
  packet starts from the last packet that was read, and this is the same as to search from the place
  where the next one is (`PacketReader.Poised`).
* The walks need not count their steps alike while a step looks for its instruction.  Where it has
  found it they do (`Beside.steps_eq`).
-/

namespace BranchWatch

/-- The same error without the offset that it refers to. -/
def DecodeError.forgetOffset : DecodeError → DecodeError
  | packet e => packet { e with offset := 0 }
  | desync _ expected => desync 0 expected
  | overflow _ => overflow 0
  | e => e

/-- The same item without the offset in an error. -/
def Item.forgetOffset (i : Item) : Item := i.mapError DecodeError.forgetOffset

theorem DecodeError.forgetOffset_eq_runaway {e : DecodeError} {ip : UInt64} {n : Nat} :
    e.forgetOffset = .runaway ip n ↔ e = .runaway ip n := by
  cases e with
  | runaway => rfl
  | _ => simp [forgetOffset]

theorem Item.forgetOffset_eq_runaway {i : Option Item} {ip : UInt64} {n : Nat} :
    i.map forgetOffset = some (.error (.runaway ip n)) ↔ i = some (.error (.runaway ip n)) := by
  rcases i with _ | e | record
  · simp
  · have herror : (some (.error e) : Option Item).map forgetOffset =
        some (.error e.forgetOffset) := rfl
    rw [herror]
    simp only [Option.some.injEq, Except.error.injEq, DecodeError.forgetOffset_eq_runaway]
  · simp [forgetOffset, Except.mapError]

/-- What a packet means depends on its offset only in an overflow. -/
theorem FlowState.event_cases (s : FlowState) (inPsb : Bool) (p : Packet) :
    (∃ found, ∀ offset, s.event inPsb offset p = .ok found) ∨
      ∀ offset, s.event inPsb offset p = .error (.overflow offset) := by
  cases p with
  | overflow => exact .inr fun _ => rfl
  | ip kind payload =>
      left
      unfold event
      simp only
      split
      · exact ⟨_, fun _ => rfl⟩
      · exact ⟨_, fun _ => rfl⟩
  | _ => exact .inl ⟨_, fun _ => rfl⟩

namespace Cursor

variable {c d : Cursor}

/-- Two errors say the same about different places, and none of them is a packet that cannot be
read. -/
inductive Elsewhere : DecodeError → DecodeError → Prop
  | desync (offset offset' : Nat) (expected : Expected) :
      Elsewhere (.desync offset expected) (.desync offset' expected)
  | overflow (offset offset' : Nat) : Elsewhere (.overflow offset) (.overflow offset')
  | runaway (ip : UInt64) (n : Nat) : Elsewhere (.runaway ip n) (.runaway ip n)
  | unfetched {e : DecodeError} (h : Unfetched e) : Elsewhere e e

theorem Elsewhere.forgetOffset_eq {e e' : DecodeError} (h : Elsewhere e e') :
    e.forgetOffset = e'.forgetOffset := by
  cases h <;> rfl

/-- Two walks know the same, and the second one has more packets before it that do not matter. -/
structure Beside (c d : Cursor) : Prop where
  rest : Padded c.reader.rest d.reader.rest
  poised : c.reader.Poised c.lastOffset
  poised' : d.reader.Poised d.lastOffset
  flow : c.flow = d.flow
  inPsb : c.inPsb = d.inPsb
  done : c.done = d.done
  decoder : c.decoder = d.decoder
  rebuilt : c.rebuilt = d.rebuilt

namespace Beside

theorem kindred : Kindred Beside Elsewhere :=
  .ofFlow Beside.flow
    (fun _ h => { h with flow := rfl })
    fun expected _ => .desync _ _ expected

/-- Both walks read a packet that they have in common. -/
theorem consume {bytes u v : List UInt8} {p : Packet} (h : Beside c d)
    (hc : c.reader.rest = bytes ++ u) (hd : d.reader.rest = bytes ++ v)
    (hparse : Packet.parse bytes = .ok (some (p, bytes.length))) (hrest : Padded u v) :
    Beside (c.consume p bytes.length) (d.consume p bytes.length) where
  rest := by
    rw [← PacketReader.advance_of_rest hc, ← PacketReader.advance_of_rest hd] at hrest
    exact hrest
  poised := h.poised.aligned.poised_advance (PacketReader.peek_of_rest hc hparse)
  poised' := h.poised'.aligned.poised_advance (PacketReader.peek_of_rest hd hparse)
  flow := congrArg (FlowState.absorb · p) h.flow
  inPsb := congrArg (inPsbAfter · p) h.inPsb
  done := h.done
  decoder := h.decoder
  rebuilt := h.rebuilt

/-- The second walk reads a packet that was added. -/
theorem consume_timing {bytes v : List UInt8} {p : Packet} (h : Beside c d)
    (hd : d.reader.rest = bytes ++ v)
    (hparse : Packet.parse bytes = .ok (some (p, bytes.length))) (htiming : p.isTiming = true)
    (hrest : Padded c.reader.rest v) : Beside c (d.consume p bytes.length) where
  rest := by
    rw [← PacketReader.advance_of_rest hd] at hrest
    exact hrest
  poised := h.poised
  poised' := h.poised'.aligned.poised_advance (PacketReader.peek_of_rest hd hparse)
  flow := h.flow.trans (FlowState.absorb_of_isTiming htiming d.flow).symm
  inPsb := h.inPsb.trans (inPsbAfter_of_isTiming htiming d.inPsb).symm
  done := h.done
  decoder := h.decoder
  rebuilt := h.rebuilt

theorem nextEvent_of_padded {u v : List UInt8} (hpadded : Padded u v) (hc : c.reader.rest = u)
    (hd : d.reader.rest = v) (h : Beside c d) :
    Agree Beside Elsewhere c.nextEvent d.nextEvent := by
  -- Induction on how the packets were added: both walks read on, or only the second one.
  induction hpadded generalizing c d with
  | nil =>
      rw [nextEvent_of_end (PacketReader.peek_of_nil hc),
        nextEvent_of_end (PacketReader.peek_of_nil hd)]
      exact .ok none h
  | @packet bytes u v p hparse hrest ih =>
      have hread := h.consume hc hd hparse hrest
      rw [nextEvent_of_packet (PacketReader.peek_of_rest hc hparse),
        nextEvent_of_packet (PacketReader.peek_of_rest hd hparse), ← h.flow, ← h.inPsb]
      rcases c.flow.event_cases c.inPsb p with ⟨_ | event, hevent⟩ | hevent
      · rw [hevent, hevent]
        exact ih (PacketReader.advance_of_rest hc) (PacketReader.advance_of_rest hd) hread
      · rw [hevent, hevent]
        exact .ok _ hread
      · rw [hevent, hevent]
        exact .error (.overflow _ _) hread
  | @timing bytes u v p hparse htiming hrest ih =>
      have hread := h.consume_timing hd hparse htiming (hc ▸ hrest)
      rw [nextEvent_of_packet (PacketReader.peek_of_rest hd hparse),
        FlowState.event_of_isTiming htiming]
      exact ih hc (PacketReader.advance_of_rest hd) hread

theorem scope : Scoped (fun _ _ => True) Beside Elsewhere where
  toKindred := kindred
  uses _ _ := trivial
  nextEvent h _ := nextEvent_of_padded h.rest rfl rfl h
  asyncAhead {c d} ip h _ _ := by
    obtain ⟨found, hc, hd⟩ := PacketReader.firstFlowPacket_of_padded h.rest rfl rfl
    left
    unfold Cursor.asyncAhead
    rw [hc, hd, h.flow]
    rcases found with _ | p
    · exact ⟨false, rfl, rfl⟩
    · cases p with
      | ip kind payload =>
          cases kind with
          | fup => exact ⟨_, rfl, rfl⟩
          | _ => exact ⟨false, rfl, rfl⟩
      | _ => exact ⟨false, rfl, rfl⟩

/-! ## A whole step -/

/-- The count of steps goes on alike or starts again in both walks. -/
theorem steps_eq {e f : Cursor} (h : Beside c d) (h' : Beside e f) (hsteps : c.steps = d.steps)
    (hc : Counted c e) (hd : Counted d f) : e.steps = f.steps := by
  have hbefore := PacketReader.weight_of_padded h.rest rfl rfl
  have hbehind := PacketReader.weight_of_padded h'.rest rfl rfl
  cases hc with
  | on hweight hkept =>
      cases hd with
      | on _ hkept' => rw [hkept, hkept', hsteps]
      | again hd =>
          have hlt := hd.weight
          omega
  | again hc =>
      cases hd with
      | on hweight' _ =>
          have hlt := hc.weight
          omega
      | again hd => rw [hc.steps, hd.steps]

end Beside

/-- Both walks stand beside each other and have counted as many steps, which does not matter at the
end. -/
structure InStep (c d : Cursor) : Prop where
  beside : Beside c d
  steps : c.done = false → c.steps = d.steps

/-- Two steps have the same outcome. -/
inductive SameStep :
    Walked (Option InstructionRecord) → Walked (Option InstructionRecord) → Prop
  | ended {c d : Cursor} (h : Beside c d) : SameStep (.ok none c) (.ok none d)
  | failed {e e' : DecodeError} {c d : Cursor} (he : Elsewhere e e') (h : Beside c d) :
      SameStep (.error e c) (.error e' d)
  | emitted (record : InstructionRecord) {c d : Cursor} (h : Beside c d)
      (hsteps : c.steps = d.steps) : SameStep (.ok (some record) c) (.ok (some record) d)

namespace Beside

/-- What follows once the address of the instruction is found. -/
theorem fetch (h : Beside c d) (hsteps : c.steps = d.steps) (ip : UInt64) :
    Agree (fun c d => Beside c d ∧ c.steps = d.steps) Elsewhere (fetch ip c.countStep)
      (fetch ip d.countStep) := by
  have hcounted : Beside c.countStep d.countStep := { h with }
  have hrebuilt : Beside c.countStep.rebuild d.countStep.rebuild :=
    { h with decoder := congrArg (·.rebuild.2) h.decoder, rebuilt := rfl }
  have hmode : c.flow.mode = d.flow.mode := congrArg (·.mode) h.flow
  have hnext : c.steps + 1 = d.steps + 1 := congrArg (· + 1) hsteps
  exact .fetch ip h.decoder hmode h.rebuilt (fun _ he => .unfetched he) ⟨hcounted, hnext⟩
    ⟨hrebuilt, hnext⟩

theorem step (h : Beside c d) (hsteps : c.steps = d.steps) : SameStep c.step d.step := by
  have hresolve : Agree Beside Elsewhere (Cursor.resolve c) (Cursor.resolve d) :=
    kindred.resolve (fun _ _ _ h => scope.nextBranch h trivial) h
  rw [step_eq, step_eq]
  generalize hc : Cursor.resolve c = r at hresolve ⊢
  generalize hd : Cursor.resolve d = s at hresolve ⊢
  cases hresolve with
  | error he h => exact .failed he h
  | @ok going c' d' h' =>
      cases going with
      | false => exact .ended h'
      | true =>
          have hlocate := scope.locate h' trivial
          simp only
          generalize hc' : c'.locate = r at hlocate ⊢
          generalize hd' : d'.locate = s at hlocate ⊢
          cases hlocate with
          | error he h => exact .failed he h
          | @ok ip f g hbehind =>
              cases ip with
              | none => exact .ended hbehind
              | some ip =>
                  have hsame : f.steps = g.steps :=
                    h.steps_eq hbehind hsteps (counted_of_step hc hc') (counted_of_step hd hd')
                  simp only
                  rw [← hsame]
                  by_cases hmax : f.steps = maxSteps
                  · rw [if_pos hmax, if_pos hmax]
                    exact .failed (.runaway _ _) hbehind
                  · have hfetch := hbehind.fetch hsame ip
                    rw [if_neg hmax, if_neg hmax]
                    generalize Cursor.fetch ip f.countStep = r at hfetch ⊢
                    generalize Cursor.fetch ip g.countStep = s at hfetch ⊢
                    cases hfetch with
                    | error he h => exact .failed he h.1
                    | ok found h => exact .emitted _ (kindred.withPending _ h.1) h.2

/-! ## Going on after an error -/

/-- Behind an error both walks forget the same. -/
theorem reset (h : Beside c d) : Beside { c with flow := c.flow.reset, steps := 0 }
    { d with flow := d.flow.reset, steps := 0 } :=
  { h with flow := congrArg FlowState.reset h.flow }

/-- After an error other than an overflow both walks search for a synchronisation packet, and they
find corresponding ones. -/
theorem recover_of_ne {e e' : DecodeError} (h : Beside c d)
    (he : ∀ offset, e ≠ .overflow offset) (he' : ∀ offset, e' ≠ .overflow offset)
    (hc : c.failing e = c.lastOffset) (hd : d.failing e' = d.lastOffset) :
    InStep (c.recover e) (d.recover e') := by
  have hmeeting := PacketReader.meeting_of_padded h.rest rfl rfl h.poised.aligned h.poised'.aligned
  rw [recover_eq he, recover_eq he', hc, hd, h.poised.findPsb_eq, h.poised'.findPsb_eq]
  cases hmeeting with
  | @found place place' hfound hfound' haligned haligned' hrest =>
      rw [hfound, hfound']
      exact ⟨{
        rest := PacketReader.padded_of_findPsb hfound hfound' hrest
        poised := h.poised.seek hfound haligned
        poised' := h.poised'.seek hfound' haligned'
        flow := h.reset.flow
        inPsb := rfl
        done := h.done
        decoder := h.decoder
        rebuilt := h.rebuilt }, fun _ => rfl⟩
  | nowhere hnone hnone' =>
      rw [hnone, hnone']
      exact ⟨{ h.reset with inPsb := rfl, done := rfl }, fun _ => rfl⟩

theorem recover {e e' : DecodeError} (h : Beside c d) (he : Elsewhere e e') :
    InStep (c.recover e) (d.recover e') := by
  cases he with
  | desync => exact h.recover_of_ne nofun nofun rfl rfl
  | overflow => exact ⟨h.reset, fun _ => rfl⟩
  | runaway => exact h.recover_of_ne nofun nofun rfl rfl
  | unfetched he => cases he <;> exact h.recover_of_ne nofun nofun rfl rfl

end Beside

namespace InStep

theorem next (h : InStep c d) :
    c.next.1.map Item.forgetOffset = d.next.1.map Item.forgetOffset ∧ InStep c.next.2 d.next.2 := by
  unfold Cursor.next
  rw [← h.beside.done]
  cases hdone : c.done with
  | true => exact ⟨rfl, h⟩
  | false =>
      have hstep := h.beside.step (h.steps hdone)
      simp only [Bool.false_eq_true, if_false]
      generalize step c = r at hstep ⊢
      generalize step d = s at hstep ⊢
      cases hstep with
      | ended h =>
          exact ⟨rfl, { h with done := rfl }, nofun⟩
      | failed he h =>
          exact ⟨congrArg (fun e => some (.error e : Item)) he.forgetOffset_eq, h.recover he⟩
      | emitted record h hsteps => exact ⟨rfl, h, fun _ => hsteps⟩

theorem after (h : InStep c d) (k : Nat) : InStep (c.after k) (d.after k) := by
  induction k with
  | zero => exact h
  | succ k ih => exact ih.next.2

theorem item_eq (h : InStep c d) (k : Nat) :
    (c.item k).map Item.forgetOffset = (d.item k).map Item.forgetOffset :=
  (h.after k).next.1

end InStep

/-! ## The whole window -/

/-- The state at the start of a walk at an offset. -/
def atOffset (decoder : Decoder) (window : List UInt8) (rebuilt : Bool) (offset : Nat) : Cursor :=
  { decoder, reader := .mkAt window offset, lastOffset := offset, rebuilt }

/-- A walk that starts in front of a synchronisation packet goes on behind it. -/
theorem item_start_of_findPsb {window : List UInt8} {place : Nat}
    (h : findPsb 0 window = some place) (decoder : Decoder) (rebuilt : Bool) (k : Nat) :
    (start decoder window rebuilt).item k =
      ((atOffset decoder window rebuilt place).consume .psb 16).item k := by
  have hstart : start decoder window rebuilt = atOffset decoder window rebuilt place := by
    unfold start
    rw [h]
    rfl
  have hpeek : (PacketReader.mkAt window place).peek = .ok (some (.psb, 16)) :=
    PacketReader.peek_mkAt_of_isPrefix (psbAt_of_findPsb h)
  rw [hstart]
  exact item_congr (next_consume_psb rfl ⟨rfl, rfl⟩ hpeek) k

theorem start_of_findPsb_eq_none {window : List UInt8} (h : findPsb 0 window = none)
    (decoder : Decoder) (rebuilt : Bool) :
    start decoder window rebuilt = atOffset decoder window rebuilt 0 := by
  unfold start
  rw [h]
  rfl

section

variable {w w' : List UInt8} (hpadded : Padded w w') (hw : (PacketReader.mkAt w 0).Aligned)
  (hw' : (PacketReader.mkAt w' 0).Aligned) (decoder : Decoder) (rebuilt : Bool)

include hpadded hw hw'

/-- Both walks start at their first synchronisation packet, or in front if there is none. -/
theorem exists_inStep : ∃ c d, InStep c d ∧ ∀ k, (start decoder w rebuilt).item k = c.item k ∧
    (start decoder w' rebuilt).item k = d.item k := by
  have hmeeting := PacketReader.meeting_of_padded (r := .mkAt w 0) (s := .mkAt w' 0) hpadded rfl
    rfl hw hw'
  cases hmeeting with
  | @found place place' hfound hfound' haligned haligned' hrest =>
      have hfound : findPsb 0 w = some place := hfound
      have hfound' : findPsb 0 w' = some place' := hfound'
      have hpeek : (PacketReader.mkAt w place).peek = .ok (some (.psb, 16)) :=
        PacketReader.peek_mkAt_of_isPrefix (psbAt_of_findPsb hfound)
      have hpeek' : (PacketReader.mkAt w' place').peek = .ok (some (.psb, 16)) :=
        PacketReader.peek_mkAt_of_isPrefix (psbAt_of_findPsb hfound')
      have hbeside : Beside ((atOffset decoder w rebuilt place).consume .psb 16)
          ((atOffset decoder w' rebuilt place').consume .psb 16) :=
        ⟨hrest, haligned.poised_advance hpeek, haligned'.poised_advance hpeek', rfl, rfl, rfl, rfl,
          rfl⟩
      exact ⟨_, _, ⟨hbeside, fun _ => rfl⟩, fun k =>
        ⟨item_start_of_findPsb hfound decoder rebuilt k,
          item_start_of_findPsb hfound' decoder rebuilt k⟩⟩
  | nowhere hnone hnone' =>
      have hnone : findPsb 0 w = none := hnone
      have hnone' : findPsb 0 w' = none := hnone'
      have hbeside : Beside (atOffset decoder w rebuilt 0) (atOffset decoder w' rebuilt 0) :=
        ⟨hpadded, hw.poised_of_none hnone, hw'.poised_of_none hnone', rfl, rfl, rfl, rfl, rfl⟩
      rw [start_of_findPsb_eq_none hnone, start_of_findPsb_eq_none hnone']
      exact ⟨_, _, ⟨hbeside, fun _ => rfl⟩, fun k => ⟨rfl, rfl⟩⟩

/-- Let a window consist of whole packets, and let another one be the same with more packets that do
not affect the path, anywhere between two packets.  If in both the pattern of a synchronisation
packet stands only where such a packet is, then whatever the images and their source both give the
same items, apart from the offsets in errors.  So a walk that goes on for too long does so in
both. -/
theorem items_padded (k : Nat) :
    ((start decoder w' rebuilt).item k).map Item.forgetOffset =
        ((start decoder w rebuilt).item k).map Item.forgetOffset ∧
      ∀ ip n, (start decoder w' rebuilt).item k = some (.error (.runaway ip n)) ↔
        (start decoder w rebuilt).item k = some (.error (.runaway ip n)) := by
  obtain ⟨c, d, hinStep, hitems⟩ := exists_inStep hpadded hw hw' decoder rebuilt
  have hsame := hinStep.item_eq k
  rw [(hitems k).1, (hitems k).2]
  refine ⟨hsame.symm, fun ip n => ?_⟩
  rw [← Item.forgetOffset_eq_runaway, ← hsame, Item.forgetOffset_eq_runaway]

end

/-- A packet of padding inside a synchronisation group, and a clock packet between the two packets
of an asynchronous event. -/
theorem items_padded_async :
    let code : Section := ⟨0x1000, #[0x90, 0x90, 0x90, 0x90], by decide, by decide⟩
    let image : Image := ⟨[code], List.pairwise_singleton _ _⟩
    let decoder : Decoder := { source := fun _ => .ok image, image := some image }
    let enable : List UInt8 := [0xd1, 0x00, 0x10, 0, 0, 0, 0, 0, 0]
    let source : List UInt8 := [0xdd, 0x00, 0x10, 0, 0, 0, 0, 0, 0]
    let target : List UInt8 := [0xcd, 0x02, 0x10, 0, 0, 0, 0, 0, 0]
    let w := Packet.psbPattern ++ ([0x02, 0x23] ++ (enable ++ (source ++ (target ++ []))))
    let w' := Packet.psbPattern ++
      ([0x00] ++ ([0x02, 0x23] ++ (enable ++ (source ++ ([0x59, 0x05] ++ (target ++ []))))))
    ∀ k, ((start decoder w' true).item k).map Item.forgetOffset =
      ((start decoder w true).item k).map Item.forgetOffset := by
  intro code image decoder enable source target w w' k
  have hpadded : Padded w w' :=
    .packet rfl (.timing rfl rfl (.packet rfl (.packet rfl (.packet rfl (.timing rfl rfl
      (.packet rfl .nil))))))
  have hw : (PacketReader.mkAt w 0).Aligned :=
    PacketReader.aligned_of_front (List.prefix_append _ _) (by decide +kernel)
  have hw' : (PacketReader.mkAt w' 0).Aligned :=
    PacketReader.aligned_of_front (List.prefix_append _ _) (by decide +kernel)
  exact (items_padded hpadded hw hw' decoder true k).1

end Cursor

end BranchWatch
