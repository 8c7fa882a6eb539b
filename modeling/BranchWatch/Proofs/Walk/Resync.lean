import BranchWatch.Proofs.Image.Lookup
import BranchWatch.Proofs.Walk.Run
import BranchWatch.Proofs.Walk.Simulation

/-!
# Decoding with what is known about the code

Decoding a window with the image at hand (`resync`) is cheaper than looking at the code anew first
(`restart`).  If the code has only grown since, both give the same items (`resync_eq_restart`): what
the old image has, the new one has as well, and the first miss makes the cheap walk look at the code
anew and try again at the same place.

The two walks are related by `Lags`: they agree in everything but the code, and the cheap one
either has the new image or will get it at its first miss.
-/

namespace BranchWatch

variable {I J : Image}

namespace Cursor

variable {c d : Cursor}

/-- The state of a walk with an old image beside that of a walk with the new one. -/
structure Lags (I J : Image) (c d : Cursor) : Prop where
  reader : c.reader = d.reader
  flow : c.flow = d.flow
  lastOffset : c.lastOffset = d.lastOffset
  steps : c.steps = d.steps
  inPsb : c.inPsb = d.inPsb
  done : c.done = d.done
  disassembler : c.decoder.disassembler = d.decoder.disassembler
  new : d.rebuilt = true ∧ d.decoder.image = some J
  old : c.rebuilt = true ∧ c.decoder.image = some J ∨
    c.rebuilt = false ∧ c.decoder.image = some I ∧ c.decoder.source c.decoder.builds = .ok J

namespace Lags

theorem withFlow (flow : FlowState) (h : Lags I J c d) :
    Lags I J { c with flow } { d with flow } :=
  ⟨h.reader, rfl, h.lastOffset, h.steps, h.inPsb, h.done, h.disassembler, h.new, h.old⟩

theorem consume (p : Packet) (n : Nat) (h : Lags I J c d) :
    Lags I J (c.consume p n) (d.consume p n) := by
  refine ⟨?_, ?_, ?_, rfl, ?_, h.done, h.disassembler, h.new, h.old⟩
  · exact congrArg (·.advance n) h.reader
  · exact congrArg (·.absorb p) h.flow
  · exact congrArg (·.offset) h.reader
  · exact congrArg (inPsbAfter · p) h.inPsb

theorem nextEvent (h : Lags I J c d) : Agree (Lags I J) (· = ·) c.nextEvent d.nextEvent := by
  induction hn : c.reader.rest.length using Nat.strongRecOn generalizing c d with
  | ind n ih =>
      rcases hpeek : c.reader.peek with e | _ | ⟨p, k⟩
      · rw [nextEvent_of_fault hpeek, nextEvent_of_fault (h.reader ▸ hpeek)]
        exact .error rfl h
      · rw [nextEvent_of_end hpeek, nextEvent_of_end (h.reader ▸ hpeek)]
        exact .ok none h
      · have hp := h.consume p k
        have hd : d.reader.peek = .ok (some (p, k)) := h.reader ▸ hpeek
        rw [nextEvent_of_packet hpeek, nextEvent_of_packet hd, ← h.flow, ← h.inPsb, ← h.reader]
        split
        next => exact .error rfl hp
        next => exact .ok _ hp
        next => exact ih _ (hn ▸ PacketReader.advance_rest_lt hpeek) hp rfl

theorem kindred (I J : Image) : Kindred (Lags I J) (· = ·) :=
  .ofFlow (fun h => h.flow) (fun flow h => h.withFlow flow)
    fun _ h => congrArg (DecodeError.desync · _) h.lastOffset

theorem simulation (I J : Image) : Simulation (fun _ _ => True) (Lags I J) (· = ·) where
  toKindred := kindred I J
  within _ _ := trivial
  nextEvent h _ := h.nextEvent
  asyncAhead {c d} ip h _ _ := by
    have hsame : c.asyncAhead ip = d.asyncAhead ip := by
      unfold asyncAhead
      rw [h.reader, h.flow]
    rw [hsame]
    cases d.asyncAhead ip with
    | ok ahead => exact .inl ⟨ahead, rfl, rfl⟩
    | error e => exact .inr ⟨e, e, rfl, rfl, rfl⟩

/-! ## Fetching -/

theorem readInstruction_of_image (ip : UInt64) (hflow : c.flow = d.flow)
    (hreader : c.decoder.disassembler = d.decoder.disassembler)
    (hc : c.decoder.image = some J) (hd : d.decoder.image = some J) :
    c.readInstruction ip = d.readInstruction ip := by
  unfold readInstruction
  rw [hc, hd, hflow, hreader]

/-- What the old image has is the same in the new one. -/
theorem readInstruction_of_subset (hsub : ∀ s ∈ I.sections, s ∈ J.sections) (ip : UInt64)
    (hflow : c.flow = d.flow) (hreader : c.decoder.disassembler = d.decoder.disassembler)
    (hc : c.decoder.image = some I) (hd : d.decoder.image = some J) :
    c.readInstruction ip = .error (.noMap ip) ∨ c.readInstruction ip = d.readInstruction ip := by
  unfold readInstruction
  rw [hc, hd, hflow, hreader, Option.bind_some, Option.bind_some]
  cases hI : I.read ip maxInstructionLength with
  | none => exact .inl rfl
  | some bytes =>
      right
      rw [Image.read_of_subset hsub hI]

theorem fetch_of_rebuilt (ip : UInt64) (hc : c.rebuilt = true) :
    fetch ip c = match c.readInstruction ip with
      | .ok found => .ok found c
      | .error e => .error e c := by
  cases hr : c.readInstruction ip with
  | ok found => exact fetch_of_ok hr
  | error e => exact fetch_of_error hr (.inl hc)

/-- Once both walks have the new image, there is no difference. -/
theorem fetch_of_new (ip : UInt64) (h : Lags I J c d) (hc : c.rebuilt = true)
    (himage : c.decoder.image = some J) :
    Agree (Lags I J) (· = ·) (fetch ip c) (fetch ip d) := by
  obtain ⟨hd, hnew⟩ := h.new
  rw [fetch_of_rebuilt ip hc, fetch_of_rebuilt ip hd,
    readInstruction_of_image ip h.flow h.disassembler himage hnew]
  cases d.readInstruction ip with
  | ok found => exact .ok _ h
  | error e => exact .error rfl h

/-- The first miss of the cheap walk gets it the new image, and the fetch is tried again. -/
theorem fetch_of_miss (ip : UInt64) (h : Lags I J c d) (hc : c.rebuilt = false)
    (hsource : c.decoder.source c.decoder.builds = .ok J) {missing : UInt64}
    (hmiss : c.readInstruction ip = .error (.noMap missing)) :
    Agree (Lags I J) (· = ·) (fetch ip c) (fetch ip d) := by
  have hbuild := Decoder.rebuild_of_ok hsource
  have himage : c.rebuild.decoder.image = some J := by
    unfold rebuild
    rw [hbuild]
  have hrebuilt : Lags I J c.rebuild d :=
    ⟨h.reader, h.flow, h.lastOffset, h.steps, h.inPsb, h.done,
      c.decoder.rebuild_disassembler.trans h.disassembler, h.new, .inl ⟨rfl, himage⟩⟩
  have hagree := hrebuilt.fetch_of_new ip rfl himage
  rw [fetch_of_rebuilt (c := c.rebuild) ip rfl] at hagree
  rw [fetch_of_noMap hmiss hc, hbuild]
  exact hagree

theorem fetch (hsub : ∀ s ∈ I.sections, s ∈ J.sections) (ip : UInt64) (h : Lags I J c d) :
    Agree (Lags I J) (· = ·) (fetch ip c) (fetch ip d) := by
  obtain ⟨hd, hnew⟩ := h.new
  rcases h.old with ⟨hc, himage⟩ | ⟨hc, himage, hsource⟩
  · exact h.fetch_of_new ip hc himage
  · rcases readInstruction_of_subset hsub ip h.flow h.disassembler himage hnew with hmiss | hsame
    · exact h.fetch_of_miss ip hc hsource hmiss
    · cases hr : c.readInstruction ip with
      | ok found =>
          rw [fetch_of_ok hr, fetch_of_ok (hsame ▸ hr)]
          exact .ok _ h
      | error e =>
          -- A miss in both images also makes the cheap walk look anew; no other error does.
          by_cases hmiss : ∃ missing, e = .noMap missing
          · obtain ⟨missing, rfl⟩ := hmiss
            exact h.fetch_of_miss ip hc hsource hr
          · have hother : ∀ missing, e ≠ .noMap missing := fun missing he => hmiss ⟨missing, he⟩
            rw [fetch_of_error hr (.inr hother), fetch_of_error (hsame ▸ hr) (.inl hd)]
            exact .error rfl h

/-! ## Items -/

theorem recover (e : DecodeError) (h : Lags I J c d) : Lags I J (c.recover e) (d.recover e) := by
  unfold Cursor.recover
  rw [h.flow, h.lastOffset, h.reader]
  cases e with
  | overflow offset =>
      exact ⟨rfl, rfl, rfl, rfl, h.inPsb, h.done, h.disassembler, h.new, h.old⟩
  | _ =>
      simp only
      split
      next => exact ⟨rfl, rfl, rfl, rfl, rfl, h.done, h.disassembler, h.new, h.old⟩
      next => exact ⟨rfl, rfl, rfl, rfl, rfl, rfl, h.disassembler, h.new, h.old⟩

theorem next (hsub : ∀ s ∈ I.sections, s ∈ J.sections) (h : Lags I J c d) :
    c.next.1 = d.next.1 ∧ Lags I J c.next.2 d.next.2 := by
  have hagree := (simulation I J).step
    (fun h => h.steps)
    (fun h => ⟨h.reader, h.flow, h.lastOffset, congrArg (· + 1) h.steps, h.inPsb, h.done,
      h.disassembler, h.new, h.old⟩)
    (fun _ _ => rfl) (fun ip h => h.fetch hsub ip) h
  unfold Cursor.next
  rw [h.done]
  cases d.done with
  | true => exact ⟨rfl, h⟩
  | false =>
      simp only [Bool.false_eq_true, if_false]
      generalize step c = r at hagree ⊢
      generalize step d = s at hagree ⊢
      cases hagree with
      | @error e e' c d he h =>
          cases he
          exact ⟨rfl, h.recover e⟩
      | ok record h =>
          cases record with
          | none =>
              exact ⟨rfl, h.reader, h.flow, h.lastOffset, h.steps, h.inPsb, rfl, h.disassembler,
                h.new, h.old⟩
          | some record => exact ⟨rfl, h⟩

theorem after (hsub : ∀ s ∈ I.sections, s ∈ J.sections) (h : Lags I J c d) (k : Nat) :
    Lags I J (c.after k) (d.after k) := by
  induction k with
  | zero => exact h
  | succ k ih => exact (ih.next hsub).2

theorem item_eq (hsub : ∀ s ∈ I.sections, s ∈ J.sections) (h : Lags I J c d) (k : Nat) :
    c.item k = d.item k :=
  ((h.after hsub k).next hsub).1

theorem toList_items_eq (hsub : ∀ s ∈ I.sections, s ∈ J.sections) (h : Lags I J c d) :
    c.items.toList = d.items.toList := by
  refine List.ext_getElem? fun k => ?_
  unfold items
  rw [getElem?_toList_itemsWithin, getElem?_toList_itemsWithin, h.reader, h.item_eq hsub]

end Lags

theorem lags_start {d : Decoder} (hI : d.image = some I) (hJ : d.source d.builds = .ok J)
    (window : List UInt8) :
    Lags I J (start d window false) (start d.rebuild.2 window true) := by
  have himage : d.rebuild.2.image = some J := by
    rw [Decoder.rebuild_of_ok hJ]
  exact ⟨rfl, rfl, rfl, rfl, rfl, rfl, d.rebuild_disassembler.symm, ⟨rfl, himage⟩,
    .inr ⟨rfl, hI, hJ⟩⟩

end Cursor

/-- What a decoder says to a window, without the decoders that it leaves. -/
def Opening.answer {δ : Type} : Opening δ → Except DecodeError (List Item)
  | .refused e _ => .error e
  | .opened items => .ok items.toList

theorem Decoder.answer_openWindow (d : Decoder) (window : List UInt8) (rebuilt : Bool) :
    (d.openWindow window rebuilt).answer =
      if window = [] then .error .endOfStream
      else .ok (Cursor.start d window rebuilt).items.toList := by
  cases window with
  | nil => rfl
  | cons b rest =>
      have hopen : d.openWindow (b :: rest) rebuilt =
          .opened (Cursor.start d (b :: rest) rebuilt).items := rfl
      rw [hopen, if_neg (List.cons_ne_nil b rest), Opening.answer]

/-- If every section of the decoder's image is a section of the image that the source gives from
now on, decoding a window with the image at hand and decoding it anew agree: a window without bytes
is refused, and otherwise both give the same items, one by one and as streams. -/
theorem resync_eq_restart {d : Decoder} (hI : d.image = some I)
    (hsub : ∀ s ∈ I.sections, s ∈ J.sections) (hJ : ∀ k ≥ d.builds, d.source k = .ok J)
    (window : List UInt8) :
    (TraceDecoder.resync d window).answer = (TraceDecoder.restart d window).answer ∧
    (TraceDecoder.resync d window).answer =
      (if window = [] then .error .endOfStream
        else .ok (Cursor.start d window false).items.toList) ∧
    ∀ k, (Cursor.start d window false).item k =
      (Cursor.start d.rebuild.2 window true).item k := by
  have hbuild := Decoder.rebuild_of_ok (hJ d.builds (Nat.le_refl _))
  have hlags := Cursor.lags_start hI (hJ d.builds (Nat.le_refl _)) window
  have hrestart : TraceDecoder.restart d window = d.rebuild.2.openWindow window true := by
    simp only [TraceDecoder.restart, hbuild]
  have hresync : TraceDecoder.resync d window = d.openWindow window false := rfl
  rw [hresync, hrestart, Decoder.answer_openWindow, Decoder.answer_openWindow,
    hlags.toList_items_eq hsub]
  exact ⟨rfl, rfl, hlags.item_eq hsub⟩

/-- A second section has been mapped behind the first one, and the walk runs into it. -/
theorem resync_eq_restart_grown :
    let nop : Section := ⟨0x1000, #[0x90], by decide, by decide⟩
    let ret : Section := ⟨0x1001, #[0xc3], by decide, by decide⟩
    let old : Image := ⟨[nop], List.pairwise_singleton _ _⟩
    let new : Image := ⟨[nop, ret], List.pairwise_pair.2 (Nat.le_refl 0x1001)⟩
    let d : Decoder := { source := fun _ => .ok new, image := some old }
    let window := Packet.psbPattern ++ [0x02, 0x23, 0xd1, 0x00, 0x10, 0, 0, 0, 0, 0, 0]
    (TraceDecoder.resync d window).answer = (TraceDecoder.restart d window).answer := by
  intro nop ret old new d window
  have hsub : ∀ s ∈ old.sections, s ∈ new.sections := by
    intro s hs
    rw [List.mem_singleton.1 hs]
    exact List.mem_cons_self
  exact (resync_eq_restart (d := d) rfl hsub (fun _ _ => rfl) window).1

end BranchWatch
