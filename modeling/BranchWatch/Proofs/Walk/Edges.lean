import BranchWatch.Proofs.Image.Lookup
import BranchWatch.Proofs.Walk.Sources

/-!
# No edge is invented

Each instruction that the walk gives stands at an address that the previous one leads to: the only
successor of a straight instruction or a direct branch, the one of two that the oldest open outcome
chooses, the latest open call for a return that an outcome stands for, or an address that a packet
read in between names.  Behind an error, and at the start, only a packet names an address.  The
bytes of an instruction are those of the image (`follows_edges`).

Between two items the walk knows what the ledger of the run so far has open (`Accounts`).
-/

namespace BranchWatch

open Happening

/-- The record of bytes that were read has bytes of the section, however many belong to it. -/
theorem Section.read_size_ofParts (s : Section) (ip : UInt64) (n : Nat) (mode : ExecMode)
    (cls : InstructionClass) :
    let r := InstructionRecord.ofParts ip ((s.read ip maxInstructionLength).take n) mode cls
    s.read ip r.size = r.bytes := by
  intro r
  have hbytes : r.bytes = (s.read ip maxInstructionLength).take (min maxInstructionLength n) :=
    List.take_take
  have hsize :
      r.size = min (min maxInstructionLength n) (s.read ip maxInstructionLength).length := by
    rw [InstructionRecord.size, hbytes, List.length_take]
  rw [hsize, ← s.take_read ip (n := maxInstructionLength) (by omega), hbytes,
    List.take_eq_take_iff]
  omega

namespace Cursor

variable {c d : Cursor} {l before : Ledger} {r : InstructionRecord} {flow : Flow}

/-! ## Giving an instruction -/

/-- The instruction found has its address, and its bytes stand there in the image. -/
theorem readInstruction_found {ip : UInt64} {flow : Flow}
    (h : c.readInstruction ip = .ok (r, flow)) : r.ip = ip ∧ r.cls = flow.cls ∧
      ∃ image, c.decoder.image = some image ∧ image.read ip r.size = some r.bytes := by
  unfold readInstruction at h
  cases himage : c.decoder.image with
  | none =>
      rw [himage] at h
      cases h
  | some image =>
      rw [himage, Option.bind_some] at h
      cases hread : image.read ip maxInstructionLength with
      | none =>
          rw [hread] at h
          cases h
      | some bytes =>
          rw [hread] at h
          obtain ⟨i, -, -, rfl⟩ := Disassembler.decode_eq_ok h
          refine ⟨rfl, rfl, image, rfl, ?_⟩
          obtain ⟨s, hs, rfl⟩ := Option.map_eq_some_iff.1 hread
          unfold Image.read
          rw [hs, Option.map_some, Section.read_size_ofParts]

/-- All parts of a step that gives an instruction. -/
theorem next_emitted (h : c.next.1 = some (.ok r)) :
    ∃ d e f flow, resolve c = .ok true d ∧ locate d = .ok (some r.ip) e ∧
      Refreshed e.countStep f ∧ f.readInstruction r.ip = .ok (r, flow) ∧
      step c = .ok (some r) c.next.2 ∧
      c.next.2 = f.withPending (some ⟨r.ip, r.size, flow⟩) := by
  have hc := done_of_next_eq_some h
  unfold next at h ⊢
  simp only [hc, Bool.false_eq_true, if_false] at h ⊢
  have hstep := step_eq c
  rcases hr : resolve c with ⟨_ | _, d⟩ | ⟨e, d⟩ <;> simp only [hr] at hstep
  · rw [hstep] at h
    cases h
  · rcases hl : locate d with ⟨_ | ip, e⟩ | ⟨err, e⟩ <;> simp only [hl] at hstep
    · rw [hstep] at h
      cases h
    · by_cases hmax : e.steps = maxSteps
      · rw [if_pos hmax] at hstep
        rw [hstep] at h
        cases h
      · rw [if_neg hmax] at hstep
        have hfetch := fetch_outcome ip e.countStep
        rcases hf : fetch ip e.countStep with ⟨⟨record, flow⟩, f⟩ | ⟨err, f⟩ <;>
          rw [hf] at hstep hfetch
        · rw [hstep] at h ⊢
          cases h
          obtain ⟨rfl, _⟩ := readInstruction_found hfetch.2
          exact ⟨d, e, f, flow, rfl, hl, hfetch.1, hfetch.2, rfl, rfl⟩
        · rw [hstep] at h
          cases h
    · rw [hstep] at h
      cases h
  · rw [hstep] at h
    cases h

/-- The packets that are read for an instruction. -/
theorem reads_of_emitted {e : Cursor} {ps : List (Nat × Packet)} (h : c.next.1 = some (.ok r))
    (hstep : step c = .ok (some r) c.next.2) (hplace : c.next.2.reader = e.reader)
    (hr : Reads c ps e) : c.reads = ps := by
  have hc := done_of_next_eq_some h
  unfold reads
  rw [hc, hstep]
  simp only [Bool.false_eq_true, if_false, behind]
  rw [hplace]
  exact hr.upTo_eq

/-- Behind an error the walk knows nothing. -/
theorem fresh_of_error {e : DecodeError} (h : c.next.1 = some (.error e)) : Fresh c.next.2 := by
  unfold next at h ⊢
  cases hc : c.done with
  | true =>
      simp only [hc, if_true] at h
      cases h
  | false =>
      simp only [hc, Bool.false_eq_true, if_false] at h ⊢
      rcases hs : step c with ⟨_ | record, d⟩ | ⟨err, d⟩ <;> simp only [hs] at h ⊢
      · cases h
      · cases h
      · exact fresh_recover d err

/-! ## The whole run -/

/-- The state behind an instruction, and the ledger in front of it. -/
structure Walking (before : Ledger) (r : InstructionRecord) (flow : Flow) (c : Cursor) : Prop where
  pending : c.flow.pending = some ⟨r.ip, r.size, flow⟩
  ip : c.flow.ip = some r.ip
  settled : Settled before c.flow
  lastIp : c.flow.lastIp = before.lastIp
  found : c.readInstruction r.ip = .ok (r, flow)

/-- What the walk knows between two items. -/
inductive Accounts (l : Ledger) (c : Cursor) : Prop
  | fresh (hf : Fresh c) (hl : l = {})
  | walking {before : Ledger} {r : InstructionRecord} {flow : Flow} (hl : l = before.emit r)
      (h : Walking before r flow c)

/-- The next instruction, in terms of the packets read up to its address. -/
theorem walking_next {d e f : Cursor} {ps : List (Nat × Packet)} (h : c.next.1 = some (.ok r))
    (hkept : Kept l c ps e) (hlast : c.flow.lastIp = l.lastIp) (hloc : locate d = .ok (some r.ip) e)
    (hfetch : Refreshed e.countStep f) (hfound : f.readInstruction r.ip = .ok (r, flow))
    (hstep : step c = .ok (some r) c.next.2)
    (hnext : c.next.2 = f.withPending (some ⟨r.ip, r.size, flow⟩)) :
    c.reads = ps ∧ Walking (l.feed c.reads) r flow c.next.2 := by
  have hplace : c.next.2.reader = e.reader := by
    rw [hnext]
    exact hfetch.reader_eq
  have hflow : f.flow = e.flow := hfetch.flow_eq
  have hreads := reads_of_emitted h hstep hplace hkept.reads
  refine ⟨hreads, ?_⟩
  rw [hreads, hnext]
  have hip : f.flow.ip = some r.ip := by
    rw [hflow]
    exact ip_of_locate hloc
  have hnew : f.flow.lastIp = (l.feed ps).lastIp := by
    rw [hflow, hkept.reads.lastIp_eq, l.lastIp_feed, hlast]
  have hsettled : Settled (l.feed ps) f.flow := hflow ▸ hkept.settled
  exact ⟨rfl, hip, ⟨hsettled.bits, hsettled.calls, hsettled.waiting⟩, hnew, hfound⟩

/-- From nothing known to an instruction: a packet names its address. -/
theorem Fresh.next_walking (hf : Fresh c) (h : c.next.1 = some (.ok r)) :
    (∃ flow, Walking (({} : Ledger).feed c.reads) r flow c.next.2) ∧
      r.ip ∈ addresses 0 c.reads := by
  obtain ⟨d, e, f, flow, hres, hloc, hfetch, hfound, hstep, hnext⟩ := next_emitted h
  rw [resolve_none hf.pending] at hres
  cases hres
  have hmatches : Matches {} c.flow := by
    rw [hf.flow]
    exact ⟨rfl, List.nil_prefix, rfl⟩
  have hlast : c.flow.lastIp = 0 := by
    rw [hf.flow]
    rfl
  obtain ⟨ps, hkept, hsource⟩ := locate_told hloc hmatches
  obtain ⟨hreads, hwalking⟩ := walking_next h hkept hlast hloc hfetch hfound hstep hnext
  refine ⟨⟨flow, hwalking⟩, ?_⟩
  rw [hreads]
  rcases hsource with hsame | hsent
  · rw [hf.ip] at hsame
    cases hsame
  · exact hlast ▸ hsent

/-- From an instruction to the next one: along an edge. -/
theorem Walking.next_walking {r' : InstructionRecord} (hw : Walking before r flow c)
    (h : c.next.1 = some (.ok r')) :
    (∃ flow', Walking ((before.emit r).feed c.reads) r' flow' c.next.2) ∧
      Edge before r c.reads flow r'.ip := by
  obtain ⟨d, e, f, flow', hres, hloc, hfetch, hfound, hstep, hnext⟩ := next_emitted h
  have hcls := (readInstruction_found hw.found).2.1
  -- Moving on reads `ps` and gives an address; looking for events on the way reads `qs`.
  obtain ⟨ps, hreads, hmatches, hedge⟩ :=
    resolve_told hres hw.pending hw.settled hw.lastIp hcls rfl
  obtain ⟨qs, hkept, hsource⟩ := locate_told hloc hmatches
  have hboth : Kept (before.emit r) c (ps ++ qs) e := hreads.trans_kept hkept
  have hlast : c.flow.lastIp = (before.emit r).lastIp :=
    hw.lastIp.trans (before.lastIp_emit r).symm
  obtain ⟨hall, hwalking⟩ := walking_next h hboth hlast hloc hfetch hfound hstep hnext
  refine ⟨⟨flow', hwalking⟩, ?_⟩
  rw [hall]
  rcases hsource with hsame | hsent
  · exact (hedge _ hsame).append qs
  · exact .sent (hw.lastIp ▸ hreads.mem_addresses_append hsent)

theorem Accounts.next_walking (ha : Accounts l c) (h : c.next.1 = some (.ok r)) :
    ∃ flow, Walking (l.feed c.reads) r flow c.next.2 := by
  cases ha with
  | fresh hf hl => exact hl ▸ (hf.next_walking h).1
  | walking hl hw => exact hl ▸ (hw.next_walking h).1

/-- What is open when the item number `k` is given. -/
def ledger (c : Cursor) (k : Nat) : Ledger :=
  Ledger.ofLog (c.log k ++ ofReads (c.after k).reads)

theorem ledger_eq (c : Cursor) (k : Nat) :
    c.ledger k = (Ledger.ofLog (c.log k)).feed (c.after k).reads := by
  unfold ledger
  rw [Ledger.ofLog_append, Ledger.foldl_happen_ofReads]

theorem ofLog_log_succ {k : Nat} {i : Item} (h : c.item k = some i) :
    Ledger.ofLog (c.log (k + 1)) = (c.ledger k).happen (.item i) := by
  rw [log_succ, h, Ledger.ofLog_append]
  rfl

theorem accounts_after (hf : Fresh c) (k : Nat) :
    (c.after k).done = true ∨ Accounts (Ledger.ofLog (c.log k)) (c.after k) := by
  induction k with
  | zero => exact .inr (.fresh hf rfl)
  | succ k ih =>
      rcases hi : c.item k with _ | e | r
      · exact .inl (done_of_next_eq_none hi)
      · right
        rw [ofLog_log_succ hi]
        exact .fresh (fresh_of_error hi) rfl
      · right
        have ha := ih.resolve_left (Bool.eq_false_iff.1 (done_of_next_eq_some hi))
        obtain ⟨flow, hw⟩ := ha.next_walking hi
        rw [ofLog_log_succ hi]
        exact .walking rfl (c.ledger_eq k ▸ hw)

theorem walking_after (hf : Fresh c) {k : Nat} (h : c.item k = some (.ok r)) :
    ∃ flow, Walking (c.ledger k) r flow (c.after (k + 1)) := by
  have ha := (accounts_after hf k).resolve_left (Bool.eq_false_iff.1 (done_of_next_eq_some h))
  rw [ledger_eq]
  exact ha.next_walking h

/-- Whatever the window, the images and their source, no edge is invented.  Of two instructions in
a row the first one is what the decoder reads at its address, and it leads to the second one: along
its flow, by the oldest open outcome, back to the latest open call, or to an address that a packet
read between the two names.  The address of an instruction at the start or behind an error is one
that a packet names.  The bytes of each instruction are those of the image at the time it was
fetched. -/
theorem follows_edges (decoder : Decoder) (window : List UInt8) (rebuilt : Bool) (k : Nat) :
    let c := start decoder window rebuilt
    (∀ r r', c.item k = some (.ok r) → c.item (k + 1) = some (.ok r') →
      ∃ flow, (c.after (k + 1)).readInstruction r.ip = .ok (r, flow) ∧
        Edge (c.ledger k) r (c.after (k + 1)).reads flow r'.ip) ∧
    (∀ r, c.item 0 = some (.ok r) → r.ip ∈ addresses 0 c.reads) ∧
    (∀ e r, c.item k = some (.error e) → c.item (k + 1) = some (.ok r) →
      r.ip ∈ addresses 0 (c.after (k + 1)).reads) ∧
    ∀ r, c.item k = some (.ok r) → ∃ image, (c.after (k + 1)).decoder.image = some image ∧
      image.read r.ip r.size = some r.bytes := by
  intro c
  have hf : Fresh c := fresh_start decoder window rebuilt
  refine ⟨?_, ?_, ?_, ?_⟩
  · intro r r' hr hr'
    obtain ⟨flow, hw⟩ := walking_after hf hr
    exact ⟨flow, hw.found, (hw.next_walking hr').2⟩
  · intro r hr
    exact (hf.next_walking hr).2
  · intro e r he hr
    exact ((fresh_of_error he).next_walking hr).2
  · intro r hr
    obtain ⟨flow, hw⟩ := walking_after hf hr
    exact (readInstruction_found hw.found).2.2

end Cursor

end BranchWatch
