import BranchWatch.Proofs.Walk.Reading

/-!
# Runs of the walk

A run asks for one item after the other: `item k` is the item number `k`, `after k` the state when
`k` items have been asked for.  What happens on the way is told in order by `log`: the packets that
are read and the items that are given.

`next_called` says once what asking for an item can do; all that is proved about runs starts from
it.  The end is an end for good (`item_eq_none_of_le`), so the bounded stream of items gives the
same items as long as its bound is not reached (`getElem?_toList_items`).
-/

namespace BranchWatch

/-- What happens in a run of the walk. -/
inductive Happening where
  | read (offset : Nat) (p : Packet)
  | item (i : Item)

namespace Cursor

variable {c d : Cursor}

/-- The state after `k` items have been asked for. -/
def after (c : Cursor) : Nat → Cursor
  | 0 => c
  | k + 1 => (c.after k).next.2

/-- The item number `k`, counted from 0; `none` behind the last one. -/
def item (c : Cursor) (k : Nat) : Option Item := (c.after k).next.1

theorem after_succ (c : Cursor) (k : Nat) : c.after (k + 1) = c.next.2.after k := by
  induction k with
  | zero => rfl
  | succ k ih =>
      show (c.after (k + 1)).next.2 = (c.next.2.after k).next.2
      rw [ih]

theorem item_succ (c : Cursor) (k : Nat) : c.item (k + 1) = c.next.2.item k := by
  unfold item
  rw [after_succ]

theorem after_add (c : Cursor) (j k : Nat) : c.after (j + k) = (c.after j).after k := by
  induction k with
  | zero => rfl
  | succ k ih =>
      show (c.after (j + k)).next.2 = ((c.after j).after k).next.2
      rw [ih]

theorem item_add (c : Cursor) (j k : Nat) : c.item (j + k) = (c.after j).item k := by
  unfold item
  rw [after_add]

theorem next_of_done (h : c.done = true) : c.next = (none, c) := by
  unfold next
  rw [if_pos h]

/-- Where no item comes the window has ended. -/
theorem done_of_next_eq_none (h : c.next.1 = none) : c.next.2.done = true := by
  unfold next at h ⊢
  by_cases hc : c.done = true
  · rw [if_pos hc]
    exact hc
  · rw [if_neg hc] at h ⊢
    rcases hs : step c with ⟨_ | record, d⟩ | ⟨e, d⟩ <;> simp only [hs] at h ⊢
    · cases h
    · cases h

/-- Where an item comes the window has not ended before. -/
theorem done_of_next_eq_some {i : Item} (h : c.next.1 = some i) : c.done = false := by
  cases hc : c.done with
  | false => rfl
  | true =>
      rw [next_of_done hc] at h
      cases h

theorem done_next (h : c.done = true) : c.next.2.done = true := by
  rw [next_of_done h]
  exact h

theorem item_of_done (h : c.done = true) (k : Nat) : c.item k = none := by
  induction k with
  | zero =>
      show c.next.1 = none
      rw [next_of_done h]
  | succ k ih =>
      rw [item_succ, next_of_done h]
      exact ih

/-- Behind the end there is nothing more. -/
theorem item_eq_none_of_le {j k : Nat} (h : c.item j = none) (hle : j ≤ k) : c.item k = none := by
  obtain ⟨m, rfl⟩ := Nat.exists_eq_add_of_le hle
  cases m with
  | zero => exact h
  | succ m =>
      rw [item_add, item_succ]
      exact item_of_done (done_of_next_eq_none h) m

/-! ## The bounded stream -/

theorem getElem?_toList_itemsWithin (n : Nat) (c : Cursor) (k : Nat) :
    (itemsWithin n c).toList[k]? = if k < n then c.item k else none := by
  induction n generalizing c k with
  | zero => rfl
  | succ n ih =>
      unfold itemsWithin
      rcases hn : c.next with ⟨_ | i, d⟩
      · have hdone : c.item 0 = none := congrArg Prod.fst hn
        have hk : c.item k = none := item_eq_none_of_le hdone (Nat.zero_le k)
        simp [ItemStream.toList, hk]
      · cases k with
        | zero =>
            have hi : c.item 0 = some i := congrArg Prod.fst hn
            simp [ItemStream.toList, hi]
        | succ k =>
            have hd : c.next.2 = d := congrArg Prod.snd hn
            simp only [ItemStream.toList, List.getElem?_cons_succ, item_succ, hd, ih,
              Nat.succ_lt_succ_iff]

/-- A run that ends within the bound is told in full by its stream. -/
theorem getElem?_toList_items {n : Nat} (h : c.item n = none)
    (hn : n ≤ itemBound c.reader.buffer.length) (k : Nat) :
    c.items.toList[k]? = c.item k := by
  unfold items
  rw [getElem?_toList_itemsWithin]
  split
  next => rfl
  next hk => exact (item_eq_none_of_le h (by omega)).symm

/-! ## What asking for an item can do -/

/-- The packets that asking for the next item reads, each with its offset. -/
def reads (c : Cursor) : List (Nat × Packet) :=
  if c.done then [] else c.reader.upTo (behind (step c)).reader.offset

/-- What a fetch may change: the source of images is asked, if it was not asked before. -/
def Refreshed (c d : Cursor) : Prop := d = c ∨ c.rebuilt = false ∧ d = c.rebuild

theorem Refreshed.reader_eq (h : Refreshed c d) : d.reader = c.reader := by
  rcases h with rfl | ⟨_, rfl⟩ <;> rfl

theorem Refreshed.flow_eq (h : Refreshed c d) : d.flow = c.flow := by
  rcases h with rfl | ⟨_, rfl⟩ <;> rfl

theorem Refreshed.inPsb_eq (h : Refreshed c d) : d.inPsb = c.inPsb := by
  rcases h with rfl | ⟨_, rfl⟩ <;> rfl

theorem Refreshed.lastOffset_eq (h : Refreshed c d) : d.lastOffset = c.lastOffset := by
  rcases h with rfl | ⟨_, rfl⟩ <;> rfl

theorem Refreshed.steps_eq (h : Refreshed c d) : d.steps = c.steps := by
  rcases h with rfl | ⟨_, rfl⟩ <;> rfl

theorem Refreshed.done_eq (h : Refreshed c d) : d.done = c.done := by
  rcases h with rfl | ⟨_, rfl⟩ <;> rfl

theorem Refreshed.disassembler_eq (h : Refreshed c d) :
    d.decoder.disassembler = c.decoder.disassembler := by
  rcases h with rfl | ⟨_, rfl⟩
  · rfl
  · exact c.decoder.rebuild_disassembler

/-- The errors of looking at the code. -/
inductive Unfetched : DecodeError → Prop
  | noMap (ip : UInt64) : Unfetched (.noMap ip)
  | badInstruction (ip : UInt64) : Unfetched (.badInstruction ip)
  | image (e : ImageError) : Unfetched (.image e)

theorem readInstruction_error {ip : UInt64} {e : DecodeError}
    (h : c.readInstruction ip = .error e) : Unfetched e := by
  unfold readInstruction at h
  split at h
  next => cases h; exact .noMap _
  next =>
    rcases Disassembler.decode_eq_error h with ⟨-, rfl⟩ | ⟨-, rfl⟩
    · exact .noMap _
    · exact .badInstruction _

theorem rebuild_error {d d' : Decoder} {e : DecodeError} (h : d.rebuild = (.error e, d')) :
    Unfetched e := by
  unfold Decoder.rebuild at h
  split at h
  next => cases h
  next => cases h; exact .image _

/-- A fetch gives what stands in the image that it leaves behind. -/
theorem fetch_outcome (ip : UInt64) (c : Cursor) :
    match fetch ip c with
    | .ok found d => Refreshed c d ∧ d.readInstruction ip = .ok found
    | .error e d => Refreshed c d ∧ Unfetched e := by
  cases hr : c.readInstruction ip with
  | ok found =>
      rw [fetch_of_ok hr]
      exact ⟨.inl rfl, hr⟩
  | error e =>
      -- Only the first miss asks the source.
      by_cases hmiss : ∃ missing, e = .noMap missing ∧ c.rebuilt = false
      · obtain ⟨missing, rfl, hc⟩ := hmiss
        rw [fetch_of_noMap hr hc]
        rcases hb : c.decoder.rebuild with ⟨e | ⟨⟨⟩⟩, d⟩
        · exact ⟨.inr ⟨hc, rfl⟩, rebuild_error hb⟩
        · cases hfound : c.rebuild.readInstruction ip with
          | ok found => exact ⟨.inr ⟨hc, rfl⟩, hfound⟩
          | error e => exact ⟨.inr ⟨hc, rfl⟩, readInstruction_error hfound⟩
      · have hmiss : c.rebuilt = true ∨ ∀ missing, e ≠ .noMap missing := by
          cases hc : c.rebuilt with
          | true => exact .inl rfl
          | false => exact .inr fun missing he => hmiss ⟨missing, he, hc⟩
        rw [fetch_of_error hr hmiss]
        exact ⟨.inl rfl, readInstruction_error hr⟩

/-- Everything that asking for an item can do: the packets read, the item, and the state behind. -/
inductive Called (c : Cursor) : List (Nat × Packet) → Option Item → Cursor → Prop
  /-- The window ends. -/
  | ended {d : Cursor} {ps : List (Nat × Packet)} (h : Reads c ps d) :
      Called c ps none { d with done := true }
  /-- The packets cannot be read, or do not fit the code. -/
  | failed {d : Cursor} {ps : List (Nat × Packet)} {e : DecodeError} (h : Reads c ps d)
      (hraised : Raised ps d e) : Called c ps (some (.error e)) (d.recover e)
  /-- The walk went on for too long without a packet. -/
  | runaway {d : Cursor} {ps : List (Nat × Packet)} {ip : UInt64} (h : Reads c ps d)
      (hip : d.flow.ip = some ip) (hsteps : d.steps = maxSteps) :
      Called c ps (some (.error (.runaway ip maxSteps))) (d.recover (.runaway ip maxSteps))
  /-- There is no instruction at the address. -/
  | missed {d f : Cursor} {ps : List (Nat × Packet)} {e : DecodeError} (h : Reads c ps d)
      (hsteps : d.steps ≠ maxSteps) (hfetch : Refreshed d.countStep f) (he : Unfetched e) :
      Called c ps (some (.error e)) (f.recover e)
  | emitted {d f : Cursor} {ps : List (Nat × Packet)} {ip : UInt64} {record : InstructionRecord}
      {flow : Flow} (h : Reads c ps d) (hip : d.flow.ip = some ip) (hsteps : d.steps ≠ maxSteps)
      (hfetch : Refreshed d.countStep f) (hfound : f.readInstruction ip = .ok (record, flow)) :
      Called c ps (some (.ok record)) (f.withPending (some ⟨ip, record.size, flow⟩))

theorem next_called (hc : c.done = false) : Called c c.reads c.next.1 c.next.2 := by
  have hreads {d e : Cursor} {ps : List (Nat × Packet)} (h : Reads c ps d)
      (he : e.reader = d.reader) : c.reader.upTo e.reader.offset = ps := by
    rw [he]
    exact h.upTo_eq
  unfold reads next
  simp only [hc, Bool.false_eq_true, if_false]
  rw [step_eq]
  unfold behind
  -- Moving on and finding the address read packets, in this order; the fetch reads none.
  have hresolve := resolve_follows c
  rcases hr : resolve c with ⟨_ | _, d⟩ | ⟨e, d⟩ <;> rw [hr] at hresolve
  · obtain ⟨ps, hps⟩ := hresolve
    simp only [hps.upTo_eq]
    exact .ended hps
  · obtain ⟨ps, hps⟩ := hresolve
    have hlocate := locate_follows d
    rcases hl : locate d with ⟨_ | ip, f⟩ | ⟨e, f⟩ <;> rw [hl] at hlocate <;> simp only [hl]
    · obtain ⟨qs, hqs⟩ := hlocate
      simp only [(hps.trans hqs).upTo_eq]
      exact .ended (hps.trans hqs)
    · obtain ⟨qs, hqs⟩ := hlocate
      have hip := ip_of_locate hl
      have hpq := hps.trans hqs
      by_cases hsteps : f.steps = maxSteps
      · simp only [hsteps, if_true, hpq.upTo_eq]
        exact .runaway hpq hip hsteps
      · simp only [hsteps, if_false]
        have hfetch := fetch_outcome ip f.countStep
        rcases hf : fetch ip f.countStep with ⟨⟨record, flow⟩, g⟩ | ⟨e, g⟩ <;> rw [hf] at hfetch
        · obtain ⟨hrefreshed, hfound⟩ := hfetch
          have hplace := hrefreshed.reader_eq
          simp only
          rw [hreads hpq (e := g.withPending (some ⟨ip, record.size, flow⟩)) hplace]
          exact .emitted hpq hip hsteps hrefreshed hfound
        · obtain ⟨hrefreshed, he⟩ := hfetch
          simp only
          rw [hreads hpq hrefreshed.reader_eq]
          exact .missed hpq hsteps hrefreshed he
    · obtain ⟨qs, hqs, hraised⟩ := hlocate
      simp only [(hps.trans hqs).upTo_eq]
      exact .failed (hps.trans hqs) hraised.append
  · obtain ⟨ps, hps, hraised⟩ := hresolve
    simp only [hps.upTo_eq]
    exact .failed hps hraised

/-- Looking at the code does not move the reader. -/
theorem step_reader (h : resolve c = .ok true d) :
    (behind (step c)).reader = (behind (locate d)).reader := by
  rw [step_eq, h]
  rcases hl : locate d with ⟨_ | ip, f⟩ | ⟨e, f⟩ <;> simp only [hl]
  · rfl
  · by_cases hsteps : f.steps = maxSteps
    · simp only [hsteps, if_true]
      rfl
    · have hfetch := fetch_outcome ip f.countStep
      rw [if_neg hsteps]
      rcases hf : fetch ip f.countStep with ⟨⟨record, flow⟩, g⟩ | ⟨e, g⟩ <;> rw [hf] at hfetch
      · exact hfetch.1.reader_eq
      · exact hfetch.1.reader_eq
  · rfl

/-! ## The course of a run -/

/-- What happens when the next item is asked for: packets are read, then the item is given. -/
def happenings (c : Cursor) : List Happening :=
  c.reads.map (fun x => .read x.1 x.2) ++ c.next.1.toList.map .item

/-- All that happens until `k` items have been asked for. -/
def log (c : Cursor) : Nat → List Happening
  | 0 => []
  | k + 1 => c.log k ++ (c.after k).happenings

end Cursor

end BranchWatch
