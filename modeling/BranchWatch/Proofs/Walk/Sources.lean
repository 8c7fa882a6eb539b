import BranchWatch.Proofs.Walk.Ledger

/-!
# Where the next address comes from

`Edge` lists the addresses that an instruction may lead to, in terms of the ledger and of the
packets that are read behind it.  Part by part it is proved that the walk goes along such an edge,
and that its knowledge stays what the ledger has open: what a branch takes, where an instruction
goes (`resolve_told`), and what packets do to the place in between (`locate_told`).
-/

namespace BranchWatch

open Happening

/-- Where an instruction of a given flow may lead, for what is open when it is given and the packets
that are read behind it. -/
inductive Edge (l : Ledger) (r : InstructionRecord) (ps : List (Nat × Packet)) :
    Flow → UInt64 → Prop
  | next : Edge l r ps .next r.fallThrough
  | jump (target : UInt64) : Edge l r ps (.jump target) target
  | call (target : UInt64) : Edge l r ps (.call target) target
  /-- The oldest open outcome chooses. -/
  | conditional (target : UInt64) {taken : Bool}
      (h : (l.bits ++ outcomes ps).head? = some taken) :
      Edge l r ps (.conditional target) (if taken then target else r.fallThrough)
  /-- A taken outcome stands for a return to the latest open call. -/
  | ret {a : UInt64} (h : (l.bits ++ outcomes ps).head? = some true)
      (hcall : l.calls.head? = some a) : Edge l r ps .ret a
  /-- A packet names the address. -/
  | sent {flow : Flow} {a : UInt64} (h : a ∈ addresses l.lastIp ps) : Edge l r ps flow a

variable {l : Ledger} {r : InstructionRecord} {ps qs : List (Nat × Packet)}

theorem head?_append_of_some {bits rest : List Bool} {taken : Bool}
    (h : bits.head? = some taken) : (bits ++ rest).head? = some taken := by
  cases bits with
  | nil => cases h
  | cons b bits => exact h

/-- More packets leave an edge as it is. -/
theorem Edge.append {flow : Flow} {a : UInt64} (h : Edge l r ps flow a)
    (qs : List (Nat × Packet)) : Edge l r (ps ++ qs) flow a := by
  have hhead {taken : Bool} (h : (l.bits ++ outcomes ps).head? = some taken) :
      (l.bits ++ outcomes (ps ++ qs)).head? = some taken := by
    rw [outcomes_append, ← List.append_assoc]
    exact head?_append_of_some h
  cases h with
  | next => exact .next
  | jump => exact .jump _
  | call => exact .call _
  | conditional target h => exact .conditional target (hhead h)
  | ret h hcall => exact .ret (hhead h) hcall
  | sent h => exact .sent (mem_addresses_of_mem h)

/-- The path agrees with the ledger, and nothing waits. -/
structure Settled (l : Ledger) (s : FlowState) : Prop where
  bits : s.tnt = l.bits
  calls : s.returns.addresses <+: l.calls
  waiting : l.waiting = none

/-- The same for a path whose place may not be known; there the walk has no use for outcomes. -/
structure Matches (l : Ledger) (s : FlowState) : Prop where
  bits : s.tnt = if s.ip = none then [] else l.bits
  calls : s.returns.addresses <+: l.calls
  waiting : l.waiting = none

theorem Matches.settled {s : FlowState} {ip : UInt64} (h : Matches l s) (hip : s.ip = some ip) :
    Settled l s := by
  have hne : s.ip ≠ none := by
    rw [hip]
    exact Option.some_ne_none ip
  exact ⟨h.bits.trans (if_neg hne), h.calls, h.waiting⟩

theorem Matches.idle {s : FlowState} (h : Matches l s) (hip : s.ip = none) : s.tnt = [] :=
  h.bits.trans (if_pos hip)

theorem Settled.matches {s : FlowState} (h : Settled l s) (ip : Option UInt64)
    (hidle : ip = none → s.tnt = []) : Matches l { s with ip } := by
  refine ⟨?_, h.calls, h.waiting⟩
  show s.tnt = if ip = none then [] else l.bits
  by_cases hip : ip = none
  · rw [if_pos hip]
    exact hidle hip
  · rw [if_neg hip]
    exact h.bits

namespace Cursor

variable {c d : Cursor}

theorem lastIp_consume (c : Cursor) (p : Packet) (n : Nat) :
    (c.consume p n).flow.lastIp = p.lastIp c.flow.lastIp := by
  cases p <;> rfl

theorem tnt_consume (c : Cursor) (p : Packet) (n : Nat) :
    (c.consume p n).flow.tnt = c.flow.tnt ++ p.outcomes := by
  cases p with
  | tnt taken => rfl
  | _ => exact (List.append_nil _).symm

theorem Reads.lastIp_eq (h : Reads c ps d) :
    d.flow.lastIp = lastIpAfter c.flow.lastIp ps := by
  induction h with
  | still h => exact h.lastIp
  | @read c d p n ps _ _ ih =>
      rw [ih, c.lastIp_consume p n]
      rfl

/-- Behind some packets the later ones name the addresses that they name in the whole. -/
theorem Reads.mem_addresses_append {a : UInt64} (h : Reads c ps d)
    (ha : a ∈ addresses d.flow.lastIp qs) : a ∈ addresses c.flow.lastIp (ps ++ qs) := by
  rw [addresses_append, ← h.lastIp_eq]
  exact List.mem_append_right _ ha

/-! ## Reading packets -/

theorem nextEvent_told {event : Option FlowEvent} (h : nextEvent c = .ok event d) :
    ∃ ps, Reads c ps d ∧ Told c.flow.lastIp ps event ∧
      d.flow.tnt = c.flow.tnt ++ outcomes ps := by
  fun_induction nextEvent c with
  | case1 => cases h
  | case2 c hp =>
      cases h
      exact ⟨[], .still (.refl d), .silent fun _ hx => absurd hx List.not_mem_nil,
        (List.append_nil _).symm⟩
  | case3 => cases h
  | case4 c p n hp e he =>
      cases h
      refine ⟨[(c.reader.offset, p)], .read hp (.still (.refl _)), ?_, ?_⟩
      · exact .single (FlowState.event_eq_ok he)
      · simpa [outcomes] using c.tnt_consume p n
  | case5 c p n hp he ih =>
      obtain ⟨ps, hreads, htold, htnt⟩ := ih h
      refine ⟨(c.reader.offset, p) :: ps, .read hp hreads, ?_, ?_⟩
      · rw [c.lastIp_consume p n] at htold
        exact htold.cons (FlowState.event_eq_ok he)
      · rw [htnt, c.tnt_consume p n, List.append_assoc]
        rfl

/-- What is read up to the next packet that says where a branch went, where no outcome was open. -/
inductive BranchTold (l : Ledger) (last : UInt64) (ps : List (Nat × Packet)) (d : Cursor) :
    Branch → Prop
  | tnt (htnt : d.flow.tnt = outcomes ps)
      (hfeed : ∃ newIp, l.feed ps = { l with lastIp := newIp, bits := outcomes ps }.answer) :
      BranchTold l last ps d .tnt
  | target {ip : Option UInt64} (htnt : d.flow.tnt = [])
      (hsent : ∀ a, ip = some a → a ∈ addresses last ps)
      (hfeed : ∃ newIp, l.feed ps = { l with lastIp := newIp, bits := [], waiting := none }) :
      BranchTold l last ps d (.target ip)

theorem nextBranch_told {branch : Branch} (h : nextBranch c = .ok (some branch) d)
    (hc : c.flow.tnt = []) (hl : l.bits = []) :
    ∃ ps, Reads c ps d ∧ Frame c d ∧ BranchTold l c.flow.lastIp ps d branch := by
  fun_induction nextBranch c generalizing l with
  | case1 => cases h
  | case2 => cases h
  -- A status packet is passed over.
  | case3 c ip e he ih =>
      obtain ⟨ps, hreads, htold, htnt⟩ := nextEvent_told he
      have hframe := nextEvent_frame he
      obtain ⟨hnone, _, newIp, hfeed⟩ := htold.of_status l
      rw [hc, hnone] at htnt
      obtain ⟨qs, hreads', hframe', hbranch⟩ := ih (l := l.feed ps) h htnt (by rw [hfeed])
      refine ⟨ps ++ qs, hreads.trans hreads', hframe.trans hframe', ?_⟩
      cases hbranch with
      | tnt htnt' hfeed' =>
          obtain ⟨newIp', hfeed'⟩ := hfeed'
          refine .tnt ?_ ⟨newIp', ?_⟩
          · rw [outcomes_append, hnone]
            exact htnt'
          · rw [l.feed_append, hfeed', hfeed, outcomes_append, hnone]
            rfl
      | target htnt' hsent hfeed' =>
          obtain ⟨newIp', hfeed'⟩ := hfeed'
          refine .target htnt' (fun a ha => hreads.mem_addresses_append (hsent a ha)) ⟨newIp', ?_⟩
          rw [l.feed_append, hfeed', hfeed]
  | case4 c e he =>
      cases h
      obtain ⟨ps, hreads, htold, htnt⟩ := nextEvent_told he
      have hframe := nextEvent_frame he
      obtain ⟨newIp, hfeed⟩ := htold.of_tnt l
      rw [hc] at htnt
      rw [hl] at hfeed
      exact ⟨ps, hreads, hframe, .tnt htnt ⟨newIp, hfeed⟩⟩
  | case5 c ip e he =>
      cases h
      obtain ⟨ps, hreads, htold, htnt⟩ := nextEvent_told he
      have hframe := nextEvent_frame he
      obtain ⟨hnone, hsent, newIp, hfeed⟩ := htold.of_ip l
      rw [hc, hnone] at htnt
      exact ⟨ps, hreads, hframe, .target htnt hsent ⟨newIp, hfeed⟩⟩
  | case6 c ip e he =>
      cases h
      obtain ⟨ps, hreads, htold, htnt⟩ := nextEvent_told he
      have hframe := nextEvent_frame he
      obtain ⟨hnone, _, newIp, hfeed⟩ := htold.of_ip l
      rw [hc, hnone] at htnt
      have hoff (a : UInt64) (ha : none = some a) : a ∈ addresses c.flow.lastIp ps := by
        cases ha
      exact ⟨ps, hreads, hframe, .target htnt hoff ⟨newIp, hfeed⟩⟩
  | case7 => cases h

/-- The last packet read is the event, and the others say nothing. -/
theorem nextEvent_last {event : FlowEvent} (h : nextEvent c = .ok (some event) d) :
    ∃ qs x, Reads c (qs ++ [x]) d ∧ Means (lastIpAfter c.flow.lastIp qs) x.2 event ∧
      (∀ y ∈ qs, y.2.isSilent = true) ∧ d.flow.tnt = c.flow.tnt ++ outcomes (qs ++ [x]) := by
  obtain ⟨ps, hreads, htold, htnt⟩ := nextEvent_told h
  cases htold with
  | event hsilent hmeans => exact ⟨_, _, hreads, hmeans, hsilent, htnt⟩

/-- The packet that says where a branch went. -/
inductive Answers (last : UInt64) : Packet → Branch → Prop
  | tnt (taken : List Bool) : Answers last (.tnt taken) .tnt
  | tip (payload : IpPayload) : Answers last (.ip .tip payload) (.target (payload.apply last))
  | pgd (payload : IpPayload) : Answers last (.ip .pgd payload) (.target none)
  | stop : Answers last .traceStop (.target none)

/-- The last packet read is the answer, and tracing has not stopped before. -/
theorem nextBranch_last {branch : Branch} (h : nextBranch c = .ok (some branch) d) :
    ∃ qs x, Reads c (qs ++ [x]) d ∧ Answers (lastIpAfter c.flow.lastIp qs) x.2 branch ∧
      (∀ y ∈ qs, y.2.isStop = false) ∧ d.flow.tnt = c.flow.tnt ++ outcomes (qs ++ [x]) := by
  have hon {ps : List (Nat × Packet)} (hps : ∀ y ∈ ps, y.2.isSilent = true) :
      ∀ y ∈ ps, y.2.isStop = false := fun y hy => Packet.isStop_of_isSilent (hps y hy)
  fun_induction nextBranch c with
  | case1 => cases h
  | case2 => cases h
  | case3 c ip e he ih =>
      obtain ⟨ps, ⟨o, p⟩, hreads, hmeans, hps, htnt⟩ := nextEvent_last he
      obtain ⟨qs, x, hreads', hanswers, hqs, htnt'⟩ := ih h
      refine ⟨ps ++ [(o, p)] ++ qs, x, ?_, ?_, ?_, ?_⟩
      · rw [List.append_assoc]
        exact hreads.trans hreads'
      · rw [lastIpAfter_append, ← hreads.lastIp_eq]
        exact hanswers
      · intro y hy
        rw [List.append_assoc, List.mem_append, List.singleton_append, List.mem_cons] at hy
        rcases hy with hy | rfl | hy
        · exact hon hps y hy
        · cases hmeans
          rfl
        · exact hqs y hy
      · rw [htnt', htnt, List.append_assoc _ qs, outcomes_append _ (qs ++ [x]), List.append_assoc]
  | case4 c e he =>
      cases h
      obtain ⟨ps, ⟨o, p⟩, hreads, hmeans, hps, htnt⟩ := nextEvent_last he
      cases hmeans with
      | tnt taken => exact ⟨ps, _, hreads, .tnt taken, hon hps, htnt⟩
  | case5 c ip e he =>
      cases h
      obtain ⟨ps, ⟨o, p⟩, hreads, hmeans, hps, htnt⟩ := nextEvent_last he
      cases hmeans with
      | ip _ payload => exact ⟨ps, _, hreads, .tip payload, hon hps, htnt⟩
  | case6 c ip e he =>
      cases h
      obtain ⟨ps, ⟨o, p⟩, hreads, hmeans, hps, htnt⟩ := nextEvent_last he
      cases hmeans with
      | ip _ payload => exact ⟨ps, _, hreads, .pgd payload, hon hps, htnt⟩
      | stop => exact ⟨ps, _, hreads, .stop, hon hps, htnt⟩
  | case7 => cases h

/-! ## Where an instruction goes -/

/-- The step from `c` to `d` reads `ps`, and the ledger behind them agrees with `d`. -/
structure Kept (l : Ledger) (c : Cursor) (ps : List (Nat × Packet)) (d : Cursor) : Prop where
  reads : Reads c ps d
  settled : Settled (l.feed ps) d.flow

/-- The ledger has to agree at the end only. -/
theorem Reads.trans_kept {e : Cursor} (h : Reads c ps d) (h' : Kept (l.feed ps) d qs e) :
    Kept l c (ps ++ qs) e :=
  ⟨h.trans h'.reads, l.feed_append ps qs ▸ h'.settled⟩

theorem popTnt_told {taken : Bool} (h : popTnt c = .ok (some taken) d) :
    ∃ rest, c.flow.tnt = taken :: rest ∧ d = c.withTnt rest := by
  cases hc : c.flow.tnt with
  | nil =>
      rw [popTnt_nil hc] at h
      cases h
  | cons b rest =>
      rw [popTnt_cons hc] at h
      cases h
      exact ⟨rest, rfl, rfl⟩

/-- A conditional branch takes the oldest outcome. -/
theorem takeTnt_told {taken : Bool} (h : takeTnt c = .ok (some taken) d)
    (hl : Settled l c.flow) :
    ∃ ps, Kept { l with waiting := some .conditionalJump }.answer c ps d ∧
      (l.bits ++ outcomes ps).head? = some taken := by
  cases hc : c.flow.tnt with
  | cons b rest =>
      have hrest : l.bits = b :: rest := hl.bits ▸ hc
      rw [takeTnt_cons hc] at h
      cases h
      refine ⟨[], ⟨.still (.withFlow c rfl rfl), ?_⟩, ?_⟩
      · unfold Ledger.answer
        rw [hrest]
        exact ⟨rfl, hl.calls, rfl⟩
      · rw [hrest]
        rfl
  | nil =>
      -- The branch waits in the ledger until the walk has read the packet with its outcome.
      have hnil : l.bits = [] := hl.bits ▸ hc
      have hsame : { l with waiting := some .conditionalJump }.answer =
          { l with waiting := some .conditionalJump } := Ledger.answer_of_bits hnil
      rw [takeTnt_nil hc] at h
      rcases hb : nextBranch c with ⟨_ | _ | _, e⟩ | ⟨e, f⟩ <;> rw [hb] at h
      · cases h
      · obtain ⟨rest, htnt, rfl⟩ := popTnt_told h
        obtain ⟨ps, hreads, hframe, hbranch⟩ :=
          nextBranch_told (l := { l with waiting := some .conditionalJump }) hb hc hnil
        cases hbranch with
        | tnt hall hfeed =>
            obtain ⟨newIp, hfeed⟩ := hfeed
            rw [htnt] at hall
            have hpop : Reads e [] (e.withTnt rest) := .still (.withFlow e rfl rfl)
            refine ⟨ps, ⟨ps.append_nil ▸ hreads.trans hpop, ?_⟩, ?_⟩
            · rw [hsame, hfeed, ← hall]
              exact ⟨rfl, hframe.returns.symm ▸ hl.calls, rfl⟩
            · rw [hnil, ← hall]
              rfl
      · cases h
      · cases h

/-- An indirect branch goes where the next packet says. -/
theorem takeTarget_told {ip : Option UInt64} (h : takeTarget c = .ok (some ip) d)
    (hl : Settled l c.flow) :
    ∃ ps, Kept l c ps d ∧ (ip = none → d.flow.tnt = []) ∧
      ∀ a, ip = some a → a ∈ addresses c.flow.lastIp ps := by
  cases hc : c.flow.tnt with
  | cons b rest =>
      rw [takeTarget_cons hc] at h
      cases h
  | nil =>
      rw [takeTarget_nil hc] at h
      rcases hb : nextBranch c with ⟨_ | _ | _, e⟩ | ⟨e, f⟩ <;> rw [hb] at h
      · cases h
      · cases h
      · cases h
        obtain ⟨ps, hreads, hframe, hbranch⟩ := nextBranch_told hb hc (hl.bits ▸ hc)
        cases hbranch with
        | target htnt hsent hfeed =>
            obtain ⟨newIp, hfeed⟩ := hfeed
            refine ⟨ps, ⟨hreads, ?_⟩, fun _ => htnt, hsent⟩
            rw [hfeed]
            exact ⟨htnt, hframe.returns.symm ▸ hl.calls, rfl⟩
      · cases h

theorem compressedReturn_told {a : UInt64} (h : compressedReturn c = .ok a d) :
    ∃ rest returns, c.flow.tnt = true :: rest ∧
      c.flow.returns.addresses = a :: returns.addresses ∧
      d = (c.withTnt rest).withReturns returns := by
  rcases hc : c.flow.tnt with _ | ⟨_ | _, rest⟩
  · rw [compressedReturn_nil hc] at h
    cases h
  · rw [compressedReturn_false hc] at h
    cases h
  · rw [compressedReturn_true hc] at h
    rcases hr : c.flow.returns with ⟨_ | ⟨b, addresses⟩, hle⟩ <;> rw [hr] at h
    · cases h
    · cases h
      exact ⟨rest, _, rfl, rfl, rfl⟩

/-- A taken outcome makes a return use the latest call. -/
theorem settled_of_compressedReturn {a : UInt64} {bits rest : List Bool} {returns : ReturnStack}
    (hcalls : c.flow.returns.addresses <+: l.calls)
    (hreturns : c.flow.returns.addresses = a :: returns.addresses) (hbits : bits = true :: rest) :
    l.calls.head? = some a ∧
      Settled { l with bits, waiting := some .nearReturn }.answer
        ((c.withTnt rest).withReturns returns).flow := by
  obtain ⟨older, holder⟩ := hcalls
  rw [hreturns] at holder
  unfold Ledger.answer
  rw [← holder, hbits]
  exact ⟨rfl, rfl, List.prefix_append _ _, rfl⟩

theorem takeReturn_told {ip : Option UInt64} (h : takeReturn c = .ok (some ip) d)
    (hl : Settled l c.flow) :
    ∃ ps, Kept { l with waiting := some .nearReturn }.answer c ps d ∧
      (ip = none → d.flow.tnt = []) ∧ ∀ a, ip = some a → a ∈ addresses c.flow.lastIp ps ∨
        (l.bits ++ outcomes ps).head? = some true ∧ l.calls.head? = some a := by
  cases hc : c.flow.tnt with
  | cons b rest =>
      rw [takeReturn_cons hc] at h
      rcases hret : compressedReturn c with ⟨a, e⟩ | ⟨e, f⟩ <;> rw [hret] at h
      · cases h
        obtain ⟨rest, returns, htnt, hreturns, rfl⟩ := compressedReturn_told hret
        have hrest : l.bits = true :: rest := hl.bits ▸ htnt
        obtain ⟨hhead, hsettled⟩ := settled_of_compressedReturn hl.calls hreturns hrest
        refine ⟨[], ⟨.still (.withFlow c rfl rfl), hsettled⟩, nofun, ?_⟩
        rintro _ ⟨rfl⟩
        exact .inr ⟨by rw [hrest]; rfl, hhead⟩
      · cases h
  | nil =>
      have hnil : l.bits = [] := hl.bits ▸ hc
      have hsame : { l with waiting := some .nearReturn }.answer =
          { l with waiting := some .nearReturn } := Ledger.answer_of_bits hnil
      rw [takeReturn_nil hc] at h
      rcases hb : nextBranch c with ⟨_ | _ | _, e⟩ | ⟨e, f⟩ <;> rw [hb] at h
      · cases h
      · obtain ⟨ps, hreads, hframe, hbranch⟩ :=
          nextBranch_told (l := { l with waiting := some .nearReturn }) hb hc hnil
        rcases hret : compressedReturn e with ⟨a, f⟩ | ⟨e', f⟩ <;> simp only [hret] at h
        · cases h
          obtain ⟨rest, returns, htnt, hreturns, rfl⟩ := compressedReturn_told hret
          cases hbranch with
          | tnt hall hfeed =>
              -- The ledger lets the return use its call as the outcome comes in.
              obtain ⟨newIp, hfeed⟩ := hfeed
              rw [htnt] at hall
              have hcalls : e.flow.returns.addresses <+: { l with lastIp := newIp }.calls :=
                hframe.returns.symm ▸ hl.calls
              obtain ⟨hhead, hsettled⟩ := settled_of_compressedReturn hcalls hreturns hall.symm
              have hpop : Reads e [] ((e.withTnt rest).withReturns returns) :=
                .still (.withFlow e rfl rfl)
              refine ⟨ps, ⟨ps.append_nil ▸ hreads.trans hpop, ?_⟩, nofun, ?_⟩
              · rw [hsame, hfeed]
                exact hsettled
              · rintro _ ⟨rfl⟩
                exact .inr ⟨by rw [hnil, ← hall]; rfl, hhead⟩
        · cases h
      · cases h
        obtain ⟨ps, hreads, hframe, hbranch⟩ :=
          nextBranch_told (l := { l with waiting := some .nearReturn }) hb hc hnil
        cases hbranch with
        | target htnt hsent hfeed =>
            obtain ⟨newIp, hfeed⟩ := hfeed
            refine ⟨ps, ⟨hreads, ?_⟩, fun _ => htnt, fun a ha => .inl (hsent a ha)⟩
            rw [hsame, hfeed]
            exact ⟨htnt, hframe.returns.symm ▸ hl.calls, rfl⟩
      · cases h

/-- Where an instruction goes is one of its edges. -/
theorem successor_told {p : Pending} {ip : Option UInt64} (h : successor p c = .ok (some ip) d)
    (hl : Settled l c.flow) (hlast : c.flow.lastIp = l.lastIp)
    (hcls : r.cls = p.flow.cls) (hfall : r.fallThrough = p.fallThrough) :
    ∃ ps, Kept (l.emit r) c ps d ∧ (ip = none → d.flow.tnt = []) ∧
      ∀ a, ip = some a → Edge l r ps p.flow a := by
  have hpushed : (c.flow.returns.push p.fallThrough).addresses <+: r.fallThrough :: l.calls := by
    rw [hfall]
    exact (List.take_prefix _ _).trans ((List.prefix_cons_inj _).2 hl.calls)
  have hsettled : Settled { l with calls := r.fallThrough :: l.calls }
      (c.withReturns (c.flow.returns.push p.fallThrough)).flow :=
    ⟨hl.bits, hpushed, hl.waiting⟩
  rw [successor_eq] at h
  unfold Ledger.emit
  rw [hcls]
  cases hflow : p.flow with
  | next =>
      rw [hflow] at h
      cases h
      refine ⟨[], ⟨.still (.refl _), hl⟩, nofun, ?_⟩
      rintro _ ⟨rfl⟩
      exact hfall ▸ .next
  | jump target =>
      rw [hflow] at h
      cases h
      refine ⟨[], ⟨.still (.refl _), hl⟩, nofun, ?_⟩
      rintro _ ⟨rfl⟩
      exact .jump target
  | call target =>
      rw [hflow] at h
      cases h
      refine ⟨[], ⟨.still (.withFlow c rfl rfl), hsettled⟩, nofun, ?_⟩
      rintro _ ⟨rfl⟩
      exact .call target
  | conditional target =>
      rw [hflow] at h
      rcases htnt : takeTnt c with ⟨_ | taken, e⟩ | ⟨e, f⟩ <;> simp only [htnt] at h
      · cases h
      · cases h
        obtain ⟨ps, hkept, hhead⟩ := takeTnt_told htnt hl
        refine ⟨ps, hkept, nofun, ?_⟩
        rintro _ ⟨rfl⟩
        exact hfall ▸ .conditional target hhead
      · cases h
  | ret =>
      rw [hflow] at h
      obtain ⟨ps, hkept, hidle, hsource⟩ := takeReturn_told h hl
      refine ⟨ps, hkept, hidle, fun a ha => ?_⟩
      rcases hsource a ha with hsent | ⟨hhead, hcall⟩
      · exact .sent (hlast ▸ hsent)
      · exact .ret hhead hcall
  | indirectCall =>
      rw [hflow] at h
      obtain ⟨ps, hkept, hidle, hsent⟩ := takeTarget_told h hsettled
      have hpush : Reads c [] (c.withReturns (c.flow.returns.push p.fallThrough)) :=
        .still (.withFlow c rfl rfl)
      exact ⟨ps, ⟨hpush.trans hkept.reads, hkept.settled⟩, hidle,
        fun a ha => .sent (hlast ▸ hsent a ha)⟩
  | indirectJump =>
      rw [hflow] at h
      obtain ⟨ps, hkept, hidle, hsent⟩ := takeTarget_told h hl
      exact ⟨ps, hkept, hidle, fun a ha => .sent (hlast ▸ hsent a ha)⟩
  | far =>
      rw [hflow] at h
      obtain ⟨ps, hkept, hidle, hsent⟩ := takeTarget_told h hl
      exact ⟨ps, hkept, hidle, fun a ha => .sent (hlast ▸ hsent a ha)⟩

theorem resolve_told {p : Pending} (h : resolve c = .ok true d) (hp : c.flow.pending = some p)
    (hl : Settled l c.flow) (hlast : c.flow.lastIp = l.lastIp)
    (hcls : r.cls = p.flow.cls) (hfall : r.fallThrough = p.fallThrough) :
    ∃ ps, Reads c ps d ∧ Matches ((l.emit r).feed ps) d.flow ∧
      ∀ a, d.flow.ip = some a → Edge l r ps p.flow a := by
  have hclear : Reads c [] (c.withPending none) := .still (.withFlow c rfl rfl)
  rw [resolve_some hp] at h
  rcases hs : successor p (c.withPending none) with ⟨_ | ip, e⟩ | ⟨e, f⟩ <;> rw [hs] at h
  · cases h
  · cases h
    obtain ⟨ps, hkept, hidle, hedge⟩ :=
      successor_told hs (l := l) ⟨hl.bits, hl.calls, hl.waiting⟩ hlast hcls hfall
    have hmove : Reads e [] (e.withIp ip) := .still (.withFlow e rfl rfl)
    exact ⟨ps, ps.append_nil ▸ hclear.trans (hkept.reads.trans hmove),
      hkept.settled.matches ip hidle, hedge⟩
  · cases h

/-! ## Where the next address comes from -/

/-- An event is read while no outcome is open. -/
theorem nextEvent_kept {event : Option FlowEvent} (h : nextEvent c = .ok event d)
    (hc : c.flow.tnt = []) (hl : Settled l c.flow) :
    ∃ ps, Kept l c ps d ∧ (event ≠ some .tnt → d.flow.tnt = []) ∧
      ∀ kind a, event = some (.ip kind (some a)) → a ∈ addresses c.flow.lastIp ps := by
  obtain ⟨ps, hreads, htold, htnt⟩ := nextEvent_told h
  have hnil : l.bits = [] := hl.bits ▸ hc
  have hcalls : d.flow.returns.addresses <+: l.calls := (nextEvent_frame h).returns.symm ▸ hl.calls
  rw [hc] at htnt
  rcases event with _ | _ | ⟨kind, ip⟩ | ip
  · obtain ⟨hnone, newIp, hfeed⟩ := htold.of_none l
    rw [hnone] at htnt
    refine ⟨ps, ⟨hreads, ?_⟩, fun _ => htnt, nofun⟩
    rw [hfeed]
    exact ⟨htnt.trans hnil.symm, hcalls, hl.waiting⟩
  · obtain ⟨newIp, hfeed⟩ := htold.of_tnt l
    refine ⟨ps, ⟨hreads, ?_⟩, fun hne => absurd rfl hne, nofun⟩
    rw [hfeed, hnil]
    unfold Ledger.answer
    rw [hl.waiting]
    exact ⟨htnt, hcalls, rfl⟩
  · obtain ⟨hnone, hsent, newIp, hfeed⟩ := htold.of_ip l
    rw [hnone] at htnt
    refine ⟨ps, ⟨hreads, ?_⟩, fun _ => htnt, ?_⟩
    · rw [hfeed, hl.waiting]
      exact ⟨htnt, hcalls, ite_self _⟩
    · rintro _ a ⟨rfl, rfl⟩
      exact hsent a rfl
  · obtain ⟨hnone, _, newIp, hfeed⟩ := htold.of_status l
    rw [hnone] at htnt
    refine ⟨ps, ⟨hreads, ?_⟩, fun _ => htnt, nofun⟩
    rw [hfeed]
    exact ⟨htnt, hcalls, hl.waiting⟩

/-- While the place is not known, outcomes mean nothing, and the place found is one that a packet
names. -/
theorem acquire_told (h : acquire c = .ok true d) (hc : c.flow.tnt = [])
    (hcalls : c.flow.returns.addresses <+: l.calls) (hw : l.waiting = none) :
    ∃ ps, Kept l c ps d ∧ ∃ a, d.flow.ip = some a ∧ a ∈ addresses c.flow.lastIp ps := by
  fun_induction acquire c generalizing l with
  | case1 => cases h
  | case2 => cases h
  | case3 c event e he ip hip =>
      cases h
      obtain ⟨ps, hreads, htold, _⟩ := nextEvent_told he
      have hframe := nextEvent_frame he
      have hcalls : e.flow.returns.addresses <+: l.calls := hframe.returns.symm ▸ hcalls
      have hmove : Reads e [] { e with flow := { e.flow with ip := some ip, tnt := [] } } :=
        .still (.withFlow e rfl rfl)
      have hreads := ps.append_nil ▸ hreads.trans hmove
      rcases event with _ | ⟨kind, address⟩ | address
      · cases hip
      · obtain ⟨_, hsent, newIp, hfeed⟩ := htold.of_ip l
        have haddress : address = some ip := by
          cases kind with
          | pgd => cases hip
          | _ => exact hip
        refine ⟨ps, ⟨hreads, ?_⟩, ip, rfl, hsent ip haddress⟩
        rw [hfeed, hw]
        exact ⟨rfl, hcalls, ite_self _⟩
      · obtain ⟨_, hsent, newIp, hfeed⟩ := htold.of_status l
        refine ⟨ps, ⟨hreads, ?_⟩, ip, rfl, hsent ip hip⟩
        rw [hfeed]
        exact ⟨rfl, hcalls, hw⟩
  | case4 c e _ he _ ih =>
      obtain ⟨ps, hreads, htold, _⟩ := nextEvent_told he
      have hframe := nextEvent_frame he
      obtain ⟨newIp, hfeed⟩ := htold.of_tnt l
      have hclear : Reads e [] (e.withTnt []) := .still (.withFlow e rfl rfl)
      have hreads := ps.append_nil ▸ hreads.trans hclear
      have hsame : l.feed ps = { l with lastIp := newIp, bits := l.bits ++ outcomes ps } :=
        hfeed.trans (Ledger.answer_of_waiting hw)
      obtain ⟨qs, hkept, a, ha, hsent⟩ := ih (l := l.feed ps) h rfl
        (by rw [hsame]; exact hframe.returns.symm ▸ hcalls) (by rw [hsame]; exact hw)
      refine ⟨ps ++ qs, hreads.trans_kept hkept, a, ha, ?_⟩
      exact hreads.mem_addresses_append hsent
  | case5 c event e he _ he' hne ih =>
      obtain ⟨ps, hreads, htold, htnt⟩ := nextEvent_told he
      have hframe := nextEvent_frame he
      have hstep : outcomes ps = [] ∧ (l.feed ps).calls = l.calls ∧ (l.feed ps).waiting = none := by
        rcases event with _ | ⟨kind, address⟩ | address
        · exact (hne he' rfl HEq.rfl).elim
        · obtain ⟨hnone, _, newIp, hfeed⟩ := htold.of_ip l
          rw [hfeed, hw]
          exact ⟨hnone, rfl, ite_self _⟩
        · obtain ⟨hnone, _, newIp, hfeed⟩ := htold.of_status l
          rw [hfeed]
          exact ⟨hnone, rfl, hw⟩
      obtain ⟨hnone, hsame, hw⟩ := hstep
      rw [hc, hnone] at htnt
      obtain ⟨qs, hkept, a, ha, hsent⟩ := ih (l := l.feed ps) h htnt
        (by rw [hsame]; exact hframe.returns.symm ▸ hcalls) hw
      refine ⟨ps ++ qs, hreads.trans_kept hkept, a, ha, ?_⟩
      exact hreads.mem_addresses_append hsent

/-- If an address packet is the first one to matter, it is the next event. -/
theorem nextEvent_ahead {kind : IpKind} {payload : IpPayload} {event : Option FlowEvent}
    (hahead : c.reader.firstFlowPacket = .ok (some (.ip kind payload)))
    (h : nextEvent c = .ok event d) :
    ∃ qs o e, event = some e ∧ Reads c (qs ++ [(o, .ip kind payload)]) d ∧
      Means (lastIpAfter c.flow.lastIp qs) (.ip kind payload) e ∧
      ∀ x ∈ qs, x.2.isSilent = true := by
  fun_induction nextEvent c with
  | case1 => cases h
  | case2 c hp =>
      rw [PacketReader.firstFlowPacket_eq, hp] at hahead
      cases hahead
  | case3 => cases h
  | case4 c p n hp e he =>
      cases h
      have hmeans : Means c.flow.lastIp p e := FlowState.event_eq_ok he
      have htiming : p.isTiming = false := by cases hmeans <;> rfl
      rw [PacketReader.firstFlowPacket_eq, hp] at hahead
      simp only [htiming, Bool.false_eq_true, if_false] at hahead
      cases hahead
      exact ⟨[], c.reader.offset, e, rfl, .read hp (.still (.refl _)), hmeans,
        List.forall_mem_nil _⟩
  | case5 c p n hp he ih =>
      have hsilent : p.isSilent = true := FlowState.event_eq_ok he
      rw [PacketReader.firstFlowPacket_eq, hp] at hahead
      cases htiming : p.isTiming with
      | false =>
          simp only [htiming, Bool.false_eq_true, if_false] at hahead
          cases hahead
          cases hsilent
      | true =>
          simp only [htiming, if_true] at hahead
          obtain ⟨qs, o, e, hevent, hreads, hmeans, hqs⟩ := ih hahead h
          rw [c.lastIp_consume p n] at hmeans
          refine ⟨(c.reader.offset, p) :: qs, o, e, hevent, .read hp hreads, hmeans, ?_⟩
          intro x hx
          rcases List.mem_cons.1 hx with rfl | hx
          · exact hsilent
          · exact hqs x hx

theorem nextEvent_ne_tnt {kind : IpKind} {payload : IpPayload} {event : Option FlowEvent}
    (hahead : c.reader.firstFlowPacket = .ok (some (.ip kind payload)))
    (h : nextEvent c = .ok event d) : event ≠ some .tnt := by
  obtain ⟨_, _, e, rfl, _, hmeans, _⟩ := nextEvent_ahead hahead h
  rintro ⟨rfl⟩
  cases hmeans

theorem firstFlowPacket_of_asyncAhead {ip : UInt64} (h : c.asyncAhead ip = .ok true) :
    ∃ payload, c.reader.firstFlowPacket = .ok (some (.ip .fup payload)) ∧
      payload.apply c.flow.lastIp = some ip := by
  unfold asyncAhead at h
  split at h
  next => cases h
  next payload hp => exact ⟨payload, hp, by simpa using h⟩
  next => cases h

theorem asyncEvent_false {ip : UInt64} (h : asyncEvent c ip = .ok false d)
    (hl : Settled l c.flow) : ∃ ps, Kept l c ps d := by
  have hsame : Kept l c [] c := ⟨.still (.refl c), hl⟩
  unfold asyncEvent at h
  split at h
  next hempty =>
    split at h
    next => cases h
    next =>
      cases h
      exact ⟨[], hsame⟩
    next =>
      split at h
      next => cases h
      next he =>
        cases h
        obtain ⟨ps, hkept, _⟩ := nextEvent_kept he (List.isEmpty_iff.1 hempty) hl
        exact ⟨ps, hkept⟩
      next => split at h <;> cases h
  next =>
    cases h
    exact ⟨[], hsame⟩

/-- Behind an asynchronous event execution goes on where the second packet says, if it says so. -/
theorem asyncEvent_true {ip : UInt64} (h : asyncEvent c ip = .ok true d)
    (hip : c.flow.ip = some ip) (hl : Settled l c.flow) :
    ∃ ps, Reads c ps d ∧ Matches (l.feed ps) d.flow ∧
      ∀ a, d.flow.ip = some a → c.flow.ip = some a ∨ a ∈ addresses c.flow.lastIp ps := by
  unfold asyncEvent at h
  split at h
  next hempty =>
    split at h
    next => cases h
    next => cases h
    next hahead =>
      obtain ⟨payload, hfirst, _⟩ := firstFlowPacket_of_asyncAhead hahead
      split at h
      next => cases h
      next => cases h
      next event e he =>
        obtain ⟨ps, hkept, hidle, _⟩ := nextEvent_kept he (List.isEmpty_iff.1 hempty) hl
        have hnil : e.flow.tnt = [] := hidle (nextEvent_ne_tnt hfirst he)
        split at h
        next => cases h
        next second f hf =>
          cases h
          obtain ⟨qs, hkept', hidle', hsent⟩ := nextEvent_kept hf hnil hkept.settled
          have hboth := hkept.reads.trans_kept hkept'
          have hmove (ip : Option UInt64) : Reads c (ps ++ qs) (f.withIp ip) := by
            have hmove : Reads f [] (f.withIp ip) := .still (.withFlow f rfl rfl)
            exact (ps ++ qs).append_nil ▸ hboth.reads.trans hmove
          unfold asyncTarget
          split
          · rename_i ip
            refine ⟨ps ++ qs, hmove ip, hboth.settled.matches ip fun _ => hidle' nofun, ?_⟩
            rintro a ⟨rfl⟩
            exact .inr (hkept.reads.mem_addresses_append (hsent .tip a rfl))
          · rename_i ip
            refine ⟨ps ++ qs, hmove ip, hboth.settled.matches ip fun _ => hidle' nofun, ?_⟩
            rintro a ⟨rfl⟩
            exact .inr (hkept.reads.mem_addresses_append (hsent .pgd a rfl))
          · exact ⟨ps ++ qs, hmove none, hboth.settled.matches none fun _ => hidle' nofun, nofun⟩
          · -- The second packet gives no address, so the place is still the old one.
            have hframe := (nextEvent_frame he).trans (nextEvent_frame hf)
            have hsame : f.flow.ip = some ip := hframe.ip.trans hip
            refine ⟨ps ++ qs, hboth.reads, hboth.settled.matches f.flow.ip ?_, ?_⟩
            · intro hnone
              rw [hsame] at hnone
              cases hnone
            · intro a ha
              exact .inl (hip.trans (hsame.symm.trans ha))
  next => cases h

/-- The address found is where the path stood, or one that a packet names. -/
theorem locate_told {a : UInt64} (h : locate c = .ok (some a) d) (hl : Matches l c.flow) :
    ∃ ps, Kept l c ps d ∧ (c.flow.ip = some a ∨ a ∈ addresses c.flow.lastIp ps) := by
  fun_induction locate c generalizing l with
  | case1 => cases h
  | case2 => cases h
  | case3 c hip e he ih =>
      obtain ⟨ps, hkept, b, hb, hsent⟩ := acquire_told he (hl.idle hip) hl.calls hl.waiting
      have hmatches : Matches (l.feed ps) e.flow := by
        refine hkept.settled.matches e.flow.ip fun hnone => ?_
        rw [hb] at hnone
        cases hnone
      obtain ⟨qs, hkept', hsource⟩ := ih h hmatches
      refine ⟨ps ++ qs, hkept.reads.trans_kept hkept', .inr ?_⟩
      rcases hsource with hsame | hlater
      · rw [hb] at hsame
        cases hsame
        exact mem_addresses_of_mem hsent
      · exact hkept.reads.mem_addresses_append hlater
  | case4 => cases h
  | case5 c ip hip e he =>
      cases h
      obtain ⟨ps, hkept⟩ := asyncEvent_false he (hl.settled hip)
      exact ⟨ps, hkept, .inl hip⟩
  | case6 c ip hip e he ih =>
      obtain ⟨ps, hreads, hmatches, hfrom⟩ := asyncEvent_true he hip (hl.settled hip)
      obtain ⟨qs, hkept, hsource⟩ := ih h hmatches
      refine ⟨ps ++ qs, hreads.trans_kept hkept, ?_⟩
      rcases hsource with hsame | hlater
      · exact (hfrom a hsame).imp_right mem_addresses_of_mem
      · exact .inr (hreads.mem_addresses_append hlater)

end Cursor

end BranchWatch
