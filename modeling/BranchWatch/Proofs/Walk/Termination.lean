import BranchWatch.Proofs.Walk.Progress

/-!
# Bounds of a run

`Walk.Progress` says what one item costs.  Here this is added up over a run from the start of a
window:

* `decoding_ends`: the items end, after at most `maxSteps + 1` of them for each byte; in a stretch
  where no packet is read there are at most `maxSteps` instructions and two errors; and each packet
  starts behind the one read before it.

The stretches are the sublists of the log of the run.  The invariant is about the stretches at its
end, because these still grow (`Quiet`).
-/

namespace BranchWatch

namespace Happening

/-- The offset of the packet, where one is read. -/
def offset? : Happening → Option Nat
  | read offset _ => some offset
  | item _ => none

def isRecord : Happening → Bool
  | item (.ok _) => true
  | _ => false

def isError : Happening → Bool
  | item (.error _) => true
  | _ => false

/-- If no packet is read in `l`, there are at most `a` instructions and `b` errors. -/
def Sparse (a b : Nat) (l : List Happening) : Prop :=
  (∀ h ∈ l, h.offset? = none) → l.countP isRecord ≤ a ∧ l.countP isError ≤ b

/-- The stretches at the end of a log are sparse. -/
def SparseEnd (a b : Nat) (log : List Happening) : Prop :=
  ∀ l, l <:+ log → Sparse a b l

/-- All stretches of a log are sparse. -/
def SparseAll (a b : Nat) (log : List Happening) : Prop :=
  ∀ l, l <:+: log → Sparse a b l

variable {a b a' b' : Nat} {log : List Happening}

theorem SparseEnd.mono (h : SparseEnd a b log) (ha : a ≤ a') (hb : b ≤ b') :
    SparseEnd a' b' log := by
  intro l hl hsilent
  obtain ⟨hrecords, herrors⟩ := h l hl hsilent
  exact ⟨Nat.le_trans hrecords ha, Nat.le_trans herrors hb⟩

theorem sparseEnd_nil : SparseEnd 0 0 [] := by
  intro l hl _
  rw [List.suffix_nil.1 hl]
  exact ⟨Nat.le_refl 0, Nat.le_refl 0⟩

theorem SparseEnd.item (h : SparseEnd a b log) (i : Item) :
    SparseEnd (a + [item i].countP isRecord) (b + [item i].countP isError)
      (log ++ [.item i]) := by
  intro l hl hsilent
  rcases List.suffix_concat_iff.1 hl with rfl | ⟨t, rfl, ht⟩
  · exact ⟨Nat.zero_le _, Nat.zero_le _⟩
  · obtain ⟨hrecords, herrors⟩ := h t ht fun x hx => hsilent x (List.mem_append_left _ hx)
    rw [List.countP_append, List.countP_append]
    exact ⟨Nat.add_le_add_right hrecords _, Nat.add_le_add_right herrors _⟩

/-- A packet that is read ends all stretches. -/
theorem sparseEnd_read (log : List Happening) (offset : Nat) (p : Packet) :
    SparseEnd 0 0 (log ++ [.read offset p]) := by
  intro l hl hsilent
  rcases List.suffix_concat_iff.1 hl with rfl | ⟨t, rfl, _⟩
  · exact ⟨Nat.le_refl 0, Nat.le_refl 0⟩
  · have hread := hsilent (.read offset p) (List.mem_append_right _ (List.mem_singleton_self _))
    cases hread

theorem SparseAll.concat {h : Happening} (hall : SparseAll a b log)
    (hend : SparseEnd a b (log ++ [h])) : SparseAll a b (log ++ [h]) := by
  intro l hl
  rcases List.infix_concat_iff.1 hl with hl | hl
  · exact hend l hl
  · exact hall l hl

/-- The log of packets that are read. -/
def ofReads (ps : List (Nat × Packet)) : List Happening :=
  ps.map fun x => .read x.1 x.2

theorem SparseAll.reads (h : SparseAll a b log) (ps : List (Nat × Packet)) :
    SparseAll a b (log ++ ofReads ps) := by
  induction ps generalizing log with
  | nil =>
      rw [ofReads, List.map_nil, List.append_nil]
      exact h
  | cons x ps ih =>
      have hend := (sparseEnd_read log x.1 x.2).mono (Nat.zero_le a) (Nat.zero_le b)
      rw [ofReads, List.map_cons, List.append_cons]
      exact ih (h.concat hend)

theorem sparseEnd_reads (log : List Happening) {ps : List (Nat × Packet)} (h : ps ≠ []) :
    SparseEnd 0 0 (log ++ ofReads ps) := by
  rcases List.eq_nil_or_concat ps with hnil | ⟨qs, x, rfl⟩
  · exact absurd hnil h
  · rw [ofReads, List.concat_eq_append, List.map_append, ← List.append_assoc]
    exact sparseEnd_read _ _ _

theorem filterMap_offset?_ofReads (ps : List (Nat × Packet)) :
    (ofReads ps).filterMap offset? = ps.map (·.1) := by
  induction ps with
  | nil => rfl
  | cons x ps ih => exact congrArg (x.1 :: ·) ih

end Happening

namespace Cursor

open Happening

variable {c d g : Cursor} {ps : List (Nat × Packet)} {log : List Happening}

/-! ## Offsets grow -/

/-- A packet at the offset `o` lies behind the walk. -/
structure Passed (o : Nat) (c : Cursor) : Prop where
  le : o ≤ c.lastOffset
  lt : o < c.reader.offset

theorem Passed.reads {o : Nat} (h : Passed o c) (hr : Reads c ps d) : Passed o d := by
  have hle := hr.offset_le
  have hlt := h.lt
  refine ⟨?_, by omega⟩
  rcases hr.last with ⟨_, hlast, _⟩ | ⟨⟨p, hp⟩, _, _⟩
  · exact hlast ▸ h.le
  · have hfrom : c.reader.offset ≤ d.lastOffset :=
      (hr.offset_bounds (List.mem_of_getLast? hp)).1
    omega

theorem Reads.passed (hr : Reads c ps d) {x : Nat × Packet} (hx : x ∈ ps) : Passed x.1 d := by
  refine ⟨?_, (hr.offset_bounds hx).2.1⟩
  rcases hr.last with ⟨rfl, _, _⟩ | ⟨⟨p, hp⟩, _, _⟩
  · cases hx
  · obtain ⟨qs, rfl⟩ := List.getLast?_eq_some_iff.1 hp
    have hgrow := hr.pairwise_offset
    rw [List.map_append, List.pairwise_append] at hgrow
    rcases List.mem_append.1 hx with hx | hx
    · exact Nat.le_of_lt (hgrow.2.2 _ (List.mem_map_of_mem hx) _ (List.mem_singleton_self _))
    · cases List.mem_singleton.1 hx
      exact Nat.le_refl _

/-- Going back into the last packet never goes back to its start. -/
theorem Passed.turn {o : Nat} {i : Option Item} (h : Passed o g) (hturn : Turn g ps i d)
    (hd : d.done = false) : Passed o d := by
  have hle := h.le
  have hlt := h.lt
  cases hturn with
  | ended hdone =>
      rw [hdone] at hd
      cases hd
  | emitted _ hreader hlast _ _ _ => exact ⟨hlast ▸ hle, hreader ▸ hlt⟩
  | overflowed _ hreader hlast _ _ => exact ⟨hlast ▸ hle, hreader ▸ hlt⟩
  | @recovered _ e _ hgo =>
      have hpsb := hgo.resolve_left (Bool.eq_false_iff.1 hd)
      have hfail : o ≤ g.failing e := Nat.le_trans hle (lastOffset_le_failing g e)
      exact ⟨hpsb.last_eq ▸ hfail, hpsb.lt_of_le hfail⟩

/-! ## Stretches without a packet -/

/-- How many items may stand behind the last packet of the log. -/
inductive Quiet (log : List Happening) (c : Cursor) : Prop
  | walking {p : Pending} (hp : c.flow.pending = some p) (hend : SparseEnd c.steps 0 log)
  | fresh (hf : Fresh c) (hend : SparseEnd maxSteps 1 log)
  /-- The next packet can be read, so no third error comes before it. -/
  | ready (hf : Fresh c) (hpeek : c.reader.peek = .ok (some (.psb, 16)))
      (hend : SparseEnd maxSteps 2 log)

theorem quiet_of_turn {i : Item} (hturn : Turn g ps (some i) d) (hsteps : g.steps ≤ maxSteps)
    (h : SparseEnd g.steps 0 log ∨
      ps = [] ∧ (∃ e, i = .error e) ∧ SparseEnd maxSteps 1 log) :
    (d.done = true ∨ Quiet (log ++ [.item i]) d) ∧ SparseEnd maxSteps 2 (log ++ [.item i]) := by
  cases hturn with
  | @emitted _ record p hp _ _ hnext hlt _ =>
      rcases h with h | ⟨_, ⟨e, he⟩, _⟩
      · have hend : SparseEnd (g.steps + 1) 0 (log ++ [.item (.ok record)]) := h.item _
        exact ⟨.inr (.walking hp (hnext ▸ hend)), hend.mono hlt (Nat.zero_le 2)⟩
      · cases he
  | @overflowed _ offset hps _ _ hfresh _ =>
      rcases h with h | ⟨hnil, _⟩
      · have hend : SparseEnd g.steps 1 (log ++ [.item (.error (.overflow offset))]) := h.item _
        exact ⟨.inr (.fresh hfresh (hend.mono hsteps (Nat.le_refl 1))),
          hend.mono hsteps (by decide)⟩
      · exact absurd hnil hps
  | @recovered _ e hfresh hgo =>
      have hend : SparseEnd maxSteps 2 (log ++ [.item (.error e)]) := by
        rcases h with h | ⟨_, _, h⟩
        · have hend : SparseEnd g.steps 1 (log ++ [.item (.error e)]) := h.item _
          exact hend.mono hsteps (by decide)
        · exact h.item _
      exact ⟨hgo.imp_right fun hpsb => .ready hfresh hpsb.peek hend, hend⟩

theorem log_succ (c : Cursor) (k : Nat) : c.log (k + 1) =
    c.log k ++ ofReads (c.after k).reads ++ (c.item k).toList.map .item :=
  (List.append_assoc _ _ _).symm

/-- One item more keeps the stretches short. -/
theorem quiet_next {i : Item} (hc : c.done = false) (hs : Steady c) (h : Quiet log c)
    (hi : c.next.1 = some i) :
    (c.next.2.done = true ∨ Quiet (log ++ ofReads c.reads ++ [.item i]) c.next.2) ∧
      SparseEnd maxSteps 2 (log ++ ofReads c.reads ++ [.item i]) := by
  obtain ⟨g, hr, hturn⟩ := next_turn hc hs
  have hsteps := hs.steps_le hr
  rw [hi] at hturn
  refine quiet_of_turn hturn hsteps ?_
  by_cases hnil : c.reads = []
  · have hsame : log ++ ofReads c.reads = log := by
      rw [hnil, ofReads, List.map_nil, List.append_nil]
    rw [hsame]
    cases h with
    | walking hp hend =>
        left
        rcases hr.last with ⟨_, _, hg⟩ | ⟨⟨p, hlast⟩, _⟩
        · exact hg ▸ hend
        · rw [hnil] at hlast
          cases hlast
    | fresh hf hend =>
        obtain ⟨e, _, he⟩ := fresh_silent hc hf hnil hi
        exact .inr ⟨hnil, ⟨_, he⟩, hend⟩
    | ready hf hpeek _ =>
        obtain ⟨e, he, _⟩ := fresh_silent hc hf hnil hi
        rw [hpeek] at he
        cases he
  · exact .inl ((sparseEnd_reads log hnil).mono (Nat.zero_le _) (Nat.le_refl 0))

/-! ## The whole run -/

/-- What is known between two items of a run that has not ended. -/
structure Course (log : List Happening) (c : Cursor) : Prop where
  steady : Steady c
  quiet : Quiet log c
  passed : ∀ o ∈ log.filterMap offset?, Passed o c

theorem course_start (hf : Fresh c) : Course (c.log 0) (c.after 0) := by
  refine ⟨.fresh hf, .fresh hf ?_, ?_⟩
  · exact sparseEnd_nil.mono (Nat.zero_le _) (Nat.zero_le _)
  · intro o ho
    cases ho

theorem log_succ_of_done {k : Nat} (h : (c.after k).done = true) : c.log (k + 1) = c.log k := by
  have hreads : (c.after k).reads = [] := by
    unfold reads
    rw [if_pos h]
  have hitem : c.item k = none := congrArg Prod.fst (next_of_done h)
  rw [log_succ, hreads, hitem]
  simp [ofReads]

theorem offsets_log_succ (c : Cursor) (k : Nat) : (c.log (k + 1)).filterMap offset? =
    (c.log k).filterMap offset? ++ (c.after k).reads.map (·.1) := by
  have hitem (i : Option Item) : (i.toList.map Happening.item).filterMap offset? = [] := by
    cases i <;> rfl
  rw [log_succ, List.filterMap_append, List.filterMap_append, filterMap_offset?_ofReads, hitem,
    List.append_nil]

/-- One item more of a run. -/
theorem Course.next {k : Nat} (h : Course (c.log k) (c.after k))
    (hc : (c.after k).done = false) :
    (c.after (k + 1)).done = true ∨ Course (c.log (k + 1)) (c.after (k + 1)) := by
  obtain ⟨g, hr, hturn⟩ := next_turn hc h.steady
  rcases hd : (c.after (k + 1)).done with _ | _
  · right
    -- Packets of the log were passed before, and those of this item are now.
    have hpassed : ∀ o ∈ (c.log (k + 1)).filterMap offset?, Passed o (c.after (k + 1)) := by
      intro o ho
      rw [offsets_log_succ] at ho
      rcases List.mem_append.1 ho with ho | ho
      · exact ((h.passed o ho).reads hr).turn hturn hd
      · obtain ⟨x, hx, rfl⟩ := List.mem_map.1 ho
        exact (hr.passed hx).turn hturn hd
    rcases hi : c.item k with _ | i
    · exact absurd (done_of_next_eq_none hi) (Bool.eq_false_iff.1 hd)
    · have hquiet := (quiet_next hc h.steady h.quiet hi).1.resolve_left (Bool.eq_false_iff.1 hd)
      have hlog : c.log (k + 1) = c.log k ++ ofReads (c.after k).reads ++ [.item i] := by
        rw [log_succ, hi]
        rfl
      exact ⟨steady_next hc h.steady hd, hlog ▸ hquiet, hpassed⟩
  · exact .inl rfl

theorem course_after (hf : Fresh c) (k : Nat) :
    (c.after k).done = true ∨ Course (c.log k) (c.after k) := by
  induction k with
  | zero => exact .inr (course_start hf)
  | succ k ih =>
      rcases hc : (c.after k).done with _ | _
      · exact (ih.resolve_left (Bool.eq_false_iff.1 hc)).next hc
      · exact .inl (done_next hc)

theorem sparse_log (hf : Fresh c) (k : Nat) : SparseAll maxSteps 2 (c.log k) := by
  induction k with
  | zero =>
      intro l hl hsilent
      rw [List.infix_nil.1 hl]
      exact ⟨Nat.zero_le _, Nat.zero_le _⟩
  | succ k ih =>
      rcases hc : (c.after k).done with _ | _
      · have hcourse := (course_after hf k).resolve_left (Bool.eq_false_iff.1 hc)
        rw [log_succ]
        rcases hi : c.item k with _ | i
        · have hreads := ih.reads (c.after k).reads
          simpa using hreads
        · exact (ih.reads _).concat (quiet_next hc hcourse.steady hcourse.quiet hi).2
      · rw [log_succ_of_done hc]
        exact ih

/-- Each packet of a run starts behind the one read before it. -/
theorem pairwise_offsets_log (hf : Fresh c) (k : Nat) :
    ((c.log k).filterMap offset?).Pairwise (· < ·) := by
  induction k with
  | zero => exact .nil
  | succ k ih =>
      rcases hc : (c.after k).done with _ | _
      · have hcourse := (course_after hf k).resolve_left (Bool.eq_false_iff.1 hc)
        obtain ⟨g, hr, _⟩ := next_turn hc hcourse.steady
        rw [offsets_log_succ, List.pairwise_append]
        refine ⟨ih, hr.pairwise_offset, ?_⟩
        intro o ho o' ho'
        obtain ⟨x, hx, rfl⟩ := List.mem_map.1 ho'
        exact Nat.lt_of_lt_of_le (hcourse.passed o ho).lt (hr.offset_bounds hx).1
      · rw [log_succ_of_done hc]
        exact ih

/-- The items end, within the budget. -/
theorem exists_end {n : Nat} (h : c.done = true ∨ Steady c) (hn : budget c ≤ n) :
    ∃ m ≤ n, (∀ k < m, c.item k ≠ none) ∧ c.item m = none := by
  -- Each item lowers the budget, so `n` items are enough to use it up.
  induction n generalizing c with
  | zero =>
      refine ⟨0, Nat.le_refl 0, nofun, ?_⟩
      rcases hc : c.done with _ | _
      · have hs := h.resolve_left (Bool.eq_false_iff.1 hc)
        rcases hi : c.next.1 with _ | i
        · exact hi
        · have hlt := budget_next hc hs hi
          omega
      · exact item_of_done hc 0
  | succ n ih =>
      rcases hi : c.next.1 with _ | i
      · exact ⟨0, Nat.zero_le _, nofun, hi⟩
      · have hc := done_of_next_eq_some hi
        have hs := h.resolve_left (Bool.eq_false_iff.1 hc)
        have hlt := budget_next hc hs hi
        have hnext : c.next.2.done = true ∨ Steady c.next.2 := by
          rcases hd : c.next.2.done with _ | _
          · exact .inr (steady_next hc hs hd)
          · exact .inl rfl
        obtain ⟨m, hm, hbefore, hend⟩ := ih hnext (by omega)
        refine ⟨m + 1, Nat.succ_le_succ hm, ?_, ?_⟩
        · intro k hk
          cases k with
          | zero => exact fun hnone => Option.some_ne_none i (hi.symm.trans hnone)
          | succ k =>
              rw [item_succ]
              exact hbefore k (Nat.lt_of_succ_lt_succ hk)
        · rw [item_succ]
          exact hend

theorem budget_start_le (decoder : Decoder) (window : List UInt8) (rebuilt : Bool) :
    budget (start decoder window rebuilt) ≤ window.length * (maxSteps + 1) := by
  rw [budget_fresh rfl (fresh_start decoder window rebuilt)]
  exact Nat.mul_le_mul_right _ (Nat.sub_le _ _)

theorem exists_end_start (decoder : Decoder) (window : List UInt8) (rebuilt : Bool) :
    ∃ n ≤ window.length * (maxSteps + 1),
      (∀ k < n, (start decoder window rebuilt).item k ≠ none) ∧
      (start decoder window rebuilt).item n = none :=
  exists_end (.inr (.fresh (fresh_start decoder window rebuilt)))
    (budget_start_le decoder window rebuilt)

/-- The stream of a window has all its items. -/
theorem getElem?_toList_start (decoder : Decoder) (window : List UInt8) (rebuilt : Bool) (k : Nat) :
    (start decoder window rebuilt).items.toList[k]? = (start decoder window rebuilt).item k := by
  obtain ⟨n, hn, _, hend⟩ := exists_end_start decoder window rebuilt
  have hbound : n ≤ itemBound window.length := by
    refine Nat.le_trans hn ?_
    unfold itemBound
    exact Nat.mul_le_mul (Nat.le_succ _) (by omega)
  exact getElem?_toList_items hend hbound k

/-- Decoding ends, whatever the window and whatever the source of images says.  There are at most
`maxSteps + 1` items for each byte of the window, then there is nothing more, and the stream of
items is complete.  Where no packet is read there are at most `maxSteps` instructions and two
errors.  The offsets of the packets read grow. -/
theorem decoding_ends (decoder : Decoder) (window : List UInt8) (rebuilt : Bool) :
    (∃ n ≤ window.length * (maxSteps + 1),
      (∀ k < n, (start decoder window rebuilt).item k ≠ none) ∧
      (∀ k ≥ n, (start decoder window rebuilt).item k = none) ∧
      ∀ k, (start decoder window rebuilt).items.toList[k]? =
        (start decoder window rebuilt).item k) ∧
    (∀ k l, l <:+: (start decoder window rebuilt).log k → (∀ h ∈ l, h.offset? = none) →
      l.countP isRecord ≤ maxSteps ∧ l.countP isError ≤ 2) ∧
    ∀ k, (((start decoder window rebuilt).log k).filterMap offset?).Pairwise (· < ·) := by
  have hf := fresh_start decoder window rebuilt
  obtain ⟨n, hn, hbefore, hend⟩ := exists_end_start decoder window rebuilt
  refine ⟨⟨n, hn, hbefore, fun k hk => item_eq_none_of_le hend hk, ?_⟩,
    fun k l hl => sparse_log hf k l hl, pairwise_offsets_log hf⟩
  exact getElem?_toList_start decoder window rebuilt

end Cursor

end BranchWatch
