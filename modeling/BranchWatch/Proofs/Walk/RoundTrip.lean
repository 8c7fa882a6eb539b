import BranchWatch.Proofs.Walk.Following
import BranchWatch.Proofs.Walk.Resync
import BranchWatch.Proofs.Walk.StraightCode
import BranchWatch.Proofs.Walk.Termination

/-!
# Decoding the trace of an execution

The walk through the trace of an execution gives its instructions back, one by one, exactly if the
processor never executed more than `maxSteps` instructions without a packet
(`answer_eq_iff_paced`).  It reads the packets late, so what counts is where the walk needs them:
each between the instruction that its first message is about and the next one.

`At` says that the walk stands where the processor stands; `next_of_leads` is one step and
`items_eq_iff` the run.
-/

namespace BranchWatch

/-- Never more than `maxSteps` instructions without a packet: from the instruction number `start` up
to the one that the first packet is about, from packet to packet, and up to the last instruction
before the number `stop`. -/
def Paced (start stop : Nat) (packets : List (Nat × List UInt8)) : Prop :=
  (start :: (packets.map (·.1 + 1) ++ [stop])).IsChain fun m n => n ≤ m + maxSteps

instance (start stop : Nat) (packets : List (Nat × List UInt8)) :
    Decidable (Paced start stop packets) :=
  inferInstanceAs (Decidable (List.IsChain _ _))

variable {disassembler : Disassembler} {image : Image} {stack stack' : List UInt64}
  {r r' : InstructionRecord}
  {flow flow' : Flow} {message : Option Message} {i : Nat} {rest : List InstructionRecord}
  {ms : List (Nat × Message)} {packets : List (Nat × List UInt8)}

theorem paced_nil {start stop : Nat} : Paced start stop [] ↔ stop ≤ start + maxSteps := by
  constructor
  · intro h
    exact (List.isChain_cons_cons.1 h).1
  · intro h
    exact List.isChain_cons_cons.2 ⟨h, .singleton _⟩

theorem paced_cons {start stop : Nat} {x : Nat × List UInt8} :
    Paced start stop (x :: packets) ↔ x.1 + 1 ≤ start + maxSteps ∧ Paced (x.1 + 1) stop packets :=
  List.isChain_cons_cons

/-- What comes next comes too late. -/
theorem not_paced {start stop : Nat} (hpackets : ∀ x ∈ packets, start + maxSteps ≤ x.1)
    (hstop : start + maxSteps < stop) : ¬ Paced start stop packets := by
  cases packets with
  | nil =>
      rw [paced_nil]
      omega
  | cons x packets =>
      have hx := hpackets x List.mem_cons_self
      rw [paced_cons]
      omega

namespace Cursor

variable {c d e : Cursor}

/-! ## One instruction -/

theorem readInstruction_of_image {ip : UInt64} (himage : c.decoder.image = some image)
    (hmode : c.flow.mode = .bits64)
    (hr : image.instruction? c.decoder.disassembler ip = some (r, flow)) :
    c.readInstruction ip = .ok (r, flow) := by
  obtain ⟨bytes, hread, hdecode⟩ := Option.bind_eq_some_iff.1 hr
  unfold readInstruction
  rw [himage, hmode, Option.bind_some, hread]
  simp only
  cases hfound : c.decoder.disassembler.decode .bits64 ip bytes with
  | ok found =>
      rw [hfound] at hdecode
      exact congrArg Except.ok (Option.some.inj hdecode)
  | error e =>
      rw [hfound] at hdecode
      cases hdecode

/-- The walk gives the instruction that stands where it is, or gives up. -/
theorem next_of_locate (hc : c.done = false) (hres : resolve c = .ok true d)
    (hloc : locate d = .ok (some r.ip) e) (himage : e.decoder.image = some image)
    (hmode : e.flow.mode = .bits64)
    (hr : image.instruction? e.decoder.disassembler r.ip = some (r, flow)) :
    c.next = if e.steps = maxSteps then
        (some (.error (.runaway r.ip maxSteps)), e.recover (.runaway r.ip maxSteps))
      else (some (.ok r), e.countStep.withPending (some ⟨r.ip, r.size, flow⟩)) := by
  have hfetch : fetch r.ip e.countStep = .ok (r, flow) e.countStep :=
    fetch_of_ok (readInstruction_of_image himage hmode hr)
  unfold next
  rw [hc, step_eq, hres]
  simp only [Bool.false_eq_true, if_false, hloc]
  by_cases hsteps : e.steps = maxSteps
  · simp only [hsteps, if_true]
  · simp only [hsteps, if_false, hfetch]

/-- The walk has given the instruction `r` and remembers the calls `stack`. -/
structure At (disassembler : Disassembler) (image : Image) (stack : List UInt64)
    (r : InstructionRecord) (flow : Flow) (c : Cursor) : Prop where
  reader : c.decoder.disassembler = disassembler
  loaded : c.decoder.image = some image
  done : c.done = false
  mode : c.flow.mode = .bits64
  pending : c.flow.pending = some ⟨r.ip, r.size, flow⟩
  calls : c.flow.returns.addresses = stack
  found : image.instruction? disassembler r.ip = some (r, flow)

theorem Holds.exists_message (h : Holds c ms packets) : ∀ x ∈ packets, ∃ y ∈ ms, y.1 = x.1 := by
  obtain ⟨owed, unread, hms, _, hwritten⟩ := h.queued
  intro x hx
  obtain ⟨y, hy, hxy⟩ := hwritten.exists_message x hx
  exact ⟨y, hms ▸ List.mem_append_right _ hy, hxy⟩

/-- From one instruction to the next, unless the walk has gone on for too long: `steps` is the count
of instructions when it is there. -/
theorem next_of_leads (hat : At disassembler image stack r flow c)
    (hleads : Leads stack r flow r'.ip message stack')
    (hr' : image.instruction? disassembler r'.ip = some (r', flow'))
    (h : Holds c (message.toList.map (i, ·) ++ ms) packets) :
    ∃ steps packets', (packets' = packets ∧ steps = c.steps ∨
        ∃ bytes, packets = (i, bytes) :: packets' ∧ steps = 0) ∧
      (∀ x ∈ packets', ∃ y ∈ ms, y.1 = x.1) ∧
      if steps = maxSteps then c.next.1 = some (.error (.runaway r'.ip maxSteps))
      else c.next.1 = some (.ok r') ∧ At disassembler image stack' r' flow' c.next.2 ∧
        Holds c.next.2 ms packets' ∧ c.next.2.steps = steps + 1 := by
  have hclear : Holds (c.withPending none) (message.toList.map (i, ·) ++ ms) packets :=
    ⟨h.queued, h.rest⟩
  have hbefore : (c.withPending none).flow.returns.addresses = stack := hat.calls
  obtain ⟨d, packets', hsucc, hholds, hcalls, htook⟩ :=
    successor_of_leads hleads hbefore hclear
  have hres : resolve c = .ok true (d.withIp (some r'.ip)) := by
    rw [resolve_some hat.pending, hsucc]
  have hmoved : Holds (d.withIp (some r'.ip)) ms packets' := ⟨hholds.queued, hholds.rest⟩
  have hreader : d.decoder.disassembler = disassembler := htook.decoder ▸ hat.reader
  have himage : d.decoder.image = some image := htook.decoder ▸ hat.loaded
  have hmode : d.flow.mode = .bits64 := htook.mode.trans hat.mode
  have hkept : (d.withIp (some r'.ip)).steps = d.steps := rfl
  refine ⟨d.steps, packets', htook.pace, hholds.exists_message, ?_⟩
  rw [next_of_locate hat.done hres (locate_of_holds hmoved rfl) himage hmode (hreader ▸ hr'), hkept]
  by_cases hsteps : d.steps = maxSteps
  · rw [if_pos hsteps, if_pos hsteps]
  · rw [if_neg hsteps, if_neg hsteps]
    exact ⟨rfl, ⟨hreader, himage, htook.done.trans hat.done, hmode, rfl, hcalls, hr'⟩,
      ⟨hholds.queued, hholds.rest⟩, rfl⟩

/-- At the end nothing comes. -/
theorem next_end (hat : At disassembler image stack r flow c) (hopen : flow.isOpen = true)
    (h : Holds c [] packets) : c.next.1 = none := by
  have hclear : Holds (c.withPending none) [] packets := ⟨h.queued, h.rest⟩
  obtain ⟨d, hsucc⟩ := successor_end hopen hclear
  have hres : resolve c = .ok false d := by
    rw [resolve_some hat.pending, hsucc]
  unfold next
  rw [hat.done, step_eq, hres]
  rfl

/-! ## The whole run -/

theorem items_eq_cons_iff {i : Item} (hi : c.next.1 = some i) (is : List Item) :
    (∀ k, c.item k = (i :: is)[k]?) ↔ ∀ k, c.next.2.item k = is[k]? := by
  constructor
  · intro h k
    rw [← item_succ, h (k + 1), List.getElem?_cons_succ]
  · intro h k
    cases k with
    | zero => exact hi
    | succ k => rw [item_succ, h k, List.getElem?_cons_succ]

/-- From an instruction on, the walk gives the others.  `b` is the number of the first instruction
behind the last packet, so the count of the walk and its number agree. -/
theorem items_eq_iff {b : Nat} (hexec : Execution disassembler image stack i (r :: rest) ms)
    (hat : At disassembler image stack r flow c) (h : Holds c ms packets) (hb : b + c.steps = i + 1)
    (hsteps : c.steps ≤ maxSteps) :
    (∀ k, c.item k = (rest.map Except.ok)[k]?) ↔ Paced b (i + 1 + rest.length) packets := by
  induction rest generalizing stack i r flow ms packets c b with
  | nil =>
      cases hexec with
      | last hr hopen =>
          -- The walk ends here for want of packets, whatever its count is.
          obtain rfl := (Prod.mk.inj (Option.some.inj (hr.symm.trans hat.found))).2
          have hend : c.item 0 = none := next_end hat hopen h
          have hle : i + 1 ≤ b + maxSteps := by omega
          rw [(nextBranch_end h).1, paced_nil]
          exact iff_of_true (fun k => item_eq_none_of_le hend (Nat.zero_le k)) hle
  | cons r' rest ih =>
      cases hexec with
      | @step _ stack' _ _ _ _ message _ ms hr hleads hrest =>
          obtain rfl := (Prod.mk.inj (Option.some.inj (hr.symm.trans hat.found))).2
          obtain ⟨flow', hr'⟩ := hrest.exists_flow
          obtain ⟨steps, packets', hpace, hlater, hnext⟩ := next_of_leads hat hleads hr' h
          have hstop : i + 1 + (r' :: rest).length = i + 1 + 1 + rest.length := by
            rw [List.length_cons]
            omega
          rw [hstop, List.map_cons]
          by_cases hmax : steps = maxSteps
          · -- The walk gives up, and a packet behind the next instruction is too late.
            rw [if_pos hmax] at hnext
            rcases hpace with ⟨rfl, rfl⟩ | ⟨bytes, rfl, rfl⟩
            · refine iff_of_false (fun hitems => ?_) (not_paced ?_ (by omega))
              · have hitem : c.next.1 = some (.ok r') := hitems 0
                rw [hnext] at hitem
                cases hitem
              · intro x hx
                obtain ⟨y, hy, hxy⟩ := hlater x hx
                have hle := hrest.le_of_mem y hy
                omega
            · cases hmax
          · rw [if_neg hmax] at hnext
            obtain ⟨hi, hat', hholds, hcount⟩ := hnext
            rw [items_eq_cons_iff hi]
            rcases hpace with ⟨rfl, rfl⟩ | ⟨bytes, rfl, rfl⟩
            · exact ih hrest hat' hholds (by omega) (by omega)
            · -- The packet read starts the count anew behind the instruction that it is about.
              have hle : i + 1 ≤ b + maxSteps := by omega
              rw [ih hrest hat' hholds (b := i + 1) (by omega) (by omega), paced_cons]
              exact (and_iff_right hle).symm

/-! ## The start -/

variable {form : IpForm} {ip : UInt64}

/-- A packet that means nothing for the path is passed over. -/
theorem nextEvent_pass {bytes more : List UInt8} {p : Packet} (hrest : c.reader.rest = bytes ++ more)
    (hp : Packet.parse (bytes ++ more) = .ok (some (p, bytes.length)))
    (he : c.flow.event c.inPsb c.reader.offset p = .ok none) :
    nextEvent c = nextEvent (c.consume p bytes.length) ∧
      (c.consume p bytes.length).reader.rest = more := by
  rw [nextEvent_of_packet (PacketReader.peek_of_parse hrest hp), he]
  exact ⟨rfl, PacketReader.advance_of_rest hrest⟩

/-- The status packets in front tell nothing. -/
theorem nextEvent_group {more : List UInt8} (hflow : c.flow = {})
    (hrest : c.reader.rest = Packet.psbPattern ++ ([0x02, 0x23] ++ more)) :
    ∃ d, nextEvent c = nextEvent d ∧ d.flow = {} ∧ d.reader.rest = more ∧
      d.decoder = c.decoder ∧ d.done = c.done := by
  obtain ⟨hpsb, hrest₁⟩ := nextEvent_pass hrest (Packet.parse_psbPattern _) rfl
  obtain ⟨hend, hrest₂⟩ := nextEvent_pass hrest₁ (Packet.parse_psbEnd _) rfl
  refine ⟨_, hpsb.trans hend, ?_, hrest₂, rfl, rfl⟩
  show (c.flow.absorb .psb).absorb .psbEnd = {}
  rw [hflow]
  rfl

/-- Behind the notice that tracing starts, the walk knows the place and nothing else. -/
theorem acquire_start (hflow : c.flow = {}) (hrest : c.reader.rest = traceFrom form ip packets)
    (hform : form.Fits 0 ip) (hw : Written ip ms packets) :
    ∃ d, acquire c = .ok true d ∧ Holds d ms packets ∧ d.flow.ip = some ip ∧
      d.flow.mode = .bits64 ∧ d.flow.returns.addresses = [] ∧ d.steps = 0 ∧
      d.decoder = c.decoder ∧ d.done = c.done := by
  simp only [traceFrom, List.append_assoc] at hrest
  obtain ⟨d, hgroup, hblank, hrest, hdecoder, hdone⟩ := nextEvent_group hflow hrest
  have hparse := Packet.parse_ipBytes .pge form ip (packets.flatMap (·.2))
  rw [← Packet.length_ipBytes .pge form ip] at hparse
  have hpge := nextEvent_of_packet (PacketReader.peek_of_parse hrest hparse)
  have hip := IpForm.apply_payload hform
  have hknown : (d.consume (.ip .pge (form.payload (form.sent ip)))
      (Packet.ipBytes .pge form ip).length).flow = { lastIp := ip } := by
    show d.flow.absorb (.ip .pge (form.payload (form.sent ip))) = { lastIp := ip }
    rw [hblank]
    simp only [FlowState.absorb, hip, Option.getD_some]
  have hacquire := acquire_eq c
  rw [hgroup, hpge, hblank] at hacquire
  simp only [FlowState.event, hip, reduceCtorEq, false_and, if_false, resumption?] at hacquire
  refine ⟨_, hacquire, ⟨⟨[], ms, rfl, rfl, ?_⟩, PacketReader.advance_of_rest hrest⟩, rfl, ?_, ?_,
    rfl, hdecoder, hdone⟩
  · simp only [withIp, withTnt, hknown]
    exact hw
  · simp only [withIp, withTnt, hknown]
  · simp only [withIp, withTnt, hknown]
    rfl

/-- The walk starts with the first instruction. -/
theorem next_start (hexec : Execution c.decoder.disassembler image [] 0 (r :: rest) ms)
    (hflow : c.flow = {}) (hrest : c.reader.rest = traceFrom form r.ip packets)
    (hform : form.Fits 0 r.ip) (hw : Written r.ip ms packets) (hc : c.done = false)
    (himage : c.decoder.image = some image) :
    c.next.1 = some (.ok r) ∧ (∃ flow, At c.decoder.disassembler image [] r flow c.next.2) ∧
      Holds c.next.2 ms packets ∧ c.next.2.steps = 1 := by
  obtain ⟨flow, hr⟩ := hexec.exists_flow
  obtain ⟨d, hacquire, hholds, hip, hmode, hcalls, hsteps, hdecoder, hdone⟩ :=
    acquire_start hflow hrest hform hw
  have hres : resolve c = .ok true c := resolve_none (by rw [hflow])
  have hloc : locate c = .ok (some r.ip) d := by
    rw [locate_none (by rw [hflow]), hacquire]
    exact locate_of_holds hholds hip
  have hreader : d.decoder.disassembler = c.decoder.disassembler :=
    congrArg Decoder.disassembler hdecoder
  have hloaded : d.decoder.image = some image := hdecoder ▸ himage
  have hfew : ¬ d.steps = maxSteps := by
    rw [hsteps]
    decide
  rw [next_of_locate hc hres hloc hloaded hmode (hreader.symm ▸ hr), if_neg hfew]
  refine ⟨rfl, ⟨flow, hreader, hloaded, hdone.trans hc, hmode, rfl, hcalls, hr⟩,
    ⟨hholds.queued, hholds.rest⟩, ?_⟩
  exact congrArg (· + 1) hsteps

/-- The walk gives the instructions of an execution back, exactly if it does not give up. -/
theorem items_start_iff (hexec : Execution c.decoder.disassembler image [] 0 (r :: rest) ms)
    (hflow : c.flow = {}) (hrest : c.reader.rest = traceFrom form r.ip packets)
    (hform : form.Fits 0 r.ip) (hw : Written r.ip ms packets) (hc : c.done = false)
    (himage : c.decoder.image = some image) :
    (∀ k, c.item k = ((r :: rest).map Except.ok)[k]?) ↔ Paced 0 (rest.length + 1) packets := by
  obtain ⟨hi, ⟨flow, hat⟩, hholds, hsteps⟩ := next_start hexec hflow hrest hform hw hc himage
  rw [List.map_cons, items_eq_cons_iff hi,
    items_eq_iff hexec hat hholds (b := 0) (by omega) (by rw [hsteps]; decide)]
  rw [Nat.zero_add, Nat.add_comm 1]

end Cursor

theorem start_rest (decoder : Decoder) (form : IpForm) (ip : UInt64)
    (packets : List (Nat × List UInt8)) (rebuilt : Bool) :
    (Cursor.start decoder (traceFrom form ip packets) rebuilt).reader.rest =
      traceFrom form ip packets := by
  have hfind : findPsb 0 (traceFrom form ip packets) = some 0 := by
    simp only [traceFrom, List.append_assoc]
    exact findPsb_append 0 _
  unfold Cursor.start
  rw [hfind]
  rfl

theorem answer_openWindow_eq_iff (decoder : Decoder) {window : List UInt8} (hne : window ≠ [])
    (rebuilt : Bool) (is : List Item) :
    (decoder.openWindow window rebuilt).answer = .ok is ↔
      ∀ k, (Cursor.start decoder window rebuilt).item k = is[k]? := by
  rw [Decoder.answer_openWindow, if_neg hne, Except.ok.injEq, List.ext_getElem?_iff]
  simp only [Cursor.getElem?_toList_start]

theorem traceFrom_ne_nil (form : IpForm) (ip : UInt64) (packets : List (Nat × List UInt8)) :
    traceFrom form ip packets ≠ [] := by
  simp [traceFrom]

/-- Decoding undoes the writing of an execution, if it is paced, and only then, whatever the
disassembler takes for instructions. -/
theorem answer_eq_iff_paced {decoder : Decoder} {form : IpForm}
    (himage : decoder.image = some image)
    (hexec : Execution decoder.disassembler image [] 0 (r :: rest) ms)
    (hform : form.Fits 0 r.ip) (hwritten : Written r.ip ms packets) (rebuilt : Bool) :
    ((decoder.openWindow (traceFrom form r.ip packets) rebuilt).answer =
        .ok ((r :: rest).map Except.ok) ↔ Paced 0 (rest.length + 1) packets) ∧
    ((∀ k, (Cursor.start decoder (traceFrom form r.ip packets) rebuilt).item k =
        ((r :: rest).map Except.ok)[k]?) ↔ Paced 0 (rest.length + 1) packets) := by
  have hitems := Cursor.items_start_iff (c := Cursor.start decoder (traceFrom form r.ip packets)
    rebuilt) hexec rfl (start_rest ..) hform hwritten rfl himage
  exact ⟨(answer_openWindow_eq_iff decoder (traceFrom_ne_nil _ _ _) rebuilt _).trans hitems, hitems⟩

/-- Code with a call of the return at its end, a jump, and another return. -/
def callCode : Image where
  sections :=
    [⟨0x1000, #[0xe8, 0x03, 0x00, 0x00, 0x00, 0x74, 0x00, 0xc3, 0xc3], by decide, by decide⟩]
  pairwise := List.pairwise_singleton _ _

/-- A call, the return to it, a jump that is taken, and a return to another address: two outcomes in
one packet, then an address of which two bytes are sent. -/
theorem answer_eq_of_callCode :
    let decoder : Decoder :=
      { source := fun _ => .ok callCode, disassembler := .classic, image := some callCode }
    let call : InstructionRecord :=
      .ofParts 0x1000 [0xe8, 0x03, 0x00, 0x00, 0x00] .bits64 .nearCall
    let jump : InstructionRecord := .ofParts 0x1005 [0x74, 0x00] .bits64 .conditionalJump
    let ret (ip : UInt64) : InstructionRecord := .ofParts ip [0xc3] .bits64 .nearReturn
    let packets : List (Nat × List UInt8) :=
      [(1, Packet.shortTnt [true, true]), (3, Packet.ipBytes .tip .update16 0x1008)]
    (decoder.openWindow (traceFrom .full 0x1000 packets) false).answer =
      .ok ([call, ret 0x1008, jump, ret 0x1007, ret 0x1008].map Except.ok) := by
  intro decoder call jump ret packets
  have hcall : callCode.instruction? .classic call.ip = some (call, .call 0x1008) := by
    decide +kernel
  have hback : callCode.instruction? .classic (ret 0x1008).ip = some (ret 0x1008, .ret) := by
    decide +kernel
  have hjump : callCode.instruction? .classic jump.ip = some (jump, .conditional 0x1007) := by
    decide +kernel
  have haway : callCode.instruction? .classic (ret 0x1007).ip = some (ret 0x1007, .ret) := by
    decide +kernel
  have hlast : Execution .classic callCode [] 4 [ret 0x1008] [] := .last hback rfl
  have hsent := Execution.step (i := 3) haway (.ret 0x1008) hlast
  have htaken := Execution.step (i := 2) hjump (.taken 0x1007) hsent
  have hcalls : remember [] call.fallThrough = [jump.ip] := by decide
  have hreturned := Execution.step (i := 1) hback (.compressed hcalls) htaken
  have hexec := Execution.step (i := 0) hcall (.call 0x1008) hreturned
  have haddress : Written 0x1000 [(3, .target 0x1008)]
      [(3, Packet.ipBytes .tip .update16 0x1008)] :=
    .target rfl .nil
  have hwritten := @Written.outcomes 0x1000 1 true [(2, true)] _ _ _ (.inl ⟨by decide, rfl⟩) haddress
  have hfull : IpForm.full.Fits 0 call.ip := trivial
  exact ((answer_eq_iff_paced rfl hexec hfull hwritten false).1).2 (by decide)

/-- The limit is sharp: straight code is given back exactly if there are fewer than `maxSteps`
instructions in front of the jump. -/
theorem answer_straightCode_iff {decoder : Decoder} {n : Nat} (hn : n < Nat.pow 2 62)
    (hreader : decoder.disassembler = .classic)
    (himage : decoder.image = some (straightCode n hn)) (rebuilt : Bool) :
    (decoder.openWindow (traceFrom .full 0x1000 []) rebuilt).answer =
      .ok ((straightPath 0x1000 n).map Except.ok) ↔ n < maxSteps := by
  have hexec := execution_straightCode hn
  rw [← hreader] at hexec
  have hlength := length_straightPath 0x1000 n
  obtain ⟨r, rest, hpath, hr⟩ := straightPath_head 0x1000 n
  have hfull : IpForm.full.Fits 0 r.ip := trivial
  rw [hpath] at hexec hlength ⊢
  have hcount : rest.length = n := Nat.succ.inj hlength
  rw [answer_openWindow_eq_iff decoder (traceFrom_ne_nil _ _ _), ← hr,
    Cursor.items_start_iff hexec rfl (start_rest ..) hfull .nil rfl himage, paced_nil, hcount,
    Nat.zero_add]
  exact Nat.succ_le_iff

/-- So the walk gives up on straight code that is too long. -/
theorem answer_straightCode_ne :
    let path := straightPath 0x1000 maxSteps
    let code := straightCode maxSteps (by decide)
    let decoder : Decoder :=
      { source := fun _ => .ok code, disassembler := .classic, image := some code }
    Execution decoder.disassembler code [] 0 path [] ∧ IpForm.full.Fits 0 0x1000 ∧
      Written 0x1000 [] [] ∧
      (decoder.openWindow (traceFrom .full 0x1000 []) false).answer ≠ .ok (path.map Except.ok) := by
  intro path code decoder
  have hn : maxSteps < Nat.pow 2 62 := by decide
  refine ⟨execution_straightCode hn, trivial, .nil, fun hanswer => ?_⟩
  exact Nat.lt_irrefl maxSteps ((answer_straightCode_iff hn rfl rfl false).1 hanswer)

end BranchWatch
