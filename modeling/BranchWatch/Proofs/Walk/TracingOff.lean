import BranchWatch.Proofs.Walk.Edges

/-!
# While tracing is off

A packet that stops tracing takes the place away from the walk, and no instruction is given until
another packet names a place again.  The log tells so (`Traced`): behind each packet that stops
tracing there is one that resumes it.

It holds wherever such a packet may be read, but for one place: behind the packet that reports an
asynchronous event at the address the walk has come to, a packet that stops tracing and names an
address makes the walk go on there (`CompletesEvent`).  So the main result says that an instruction
behind a packet that stops tracing comes behind one that resumes it, or the packet completes an
asynchronous event (`stays_off_or_completes_event`), and the exception is met (`not_stays_off`).
-/

namespace BranchWatch

open Happening

/-- The packet names a place at which tracing goes on. -/
def Packet.resumes : Packet → Bool
  | .ip .pgd _ | .ip _ .suppressed => false
  | .ip .. => true
  | _ => false

theorem Packet.isStop_of_resumes {p : Packet} (h : p.resumes = true) : p.isStop = false := by
  cases p with
  | ip kind payload =>
      cases kind with
      | pgd => cases h
      | _ => rfl
  | traceStop => cases h
  | _ => rfl

theorem Packet.resumes_of_apply {kind : IpKind} {payload : IpPayload} {last ip : UInt64}
    (hkind : kind ≠ .pgd) (h : payload.apply last = some ip) :
    (Packet.ip kind payload).resumes = true := by
  cases kind with
  | pgd => exact absurd rfl hkind
  | _ => cases payload <;> first | rfl | cases h

/-- Where the last thing that happened is taken off. -/
theorem Happening.concat_eq_append_cons {log before rest : List Happening} {x y : Happening}
    (h : log ++ [x] = before ++ y :: rest) :
    (log = before ∧ x = y ∧ rest = []) ∨
      ∃ rest', rest = rest' ++ [x] ∧ log = before ++ y :: rest' := by
  rcases List.eq_nil_or_concat rest with rfl | ⟨rest, z, rfl⟩
  · obtain ⟨hlog, hlast⟩ := List.append_inj' h rfl
    exact .inl ⟨hlog, List.head_eq_of_cons_eq hlast, rfl⟩
  · rw [List.concat_eq_append, ← List.cons_append, ← List.append_assoc] at h
    obtain ⟨hlog, hlast⟩ := List.append_inj' h rfl
    exact .inr ⟨rest, by rw [List.concat_eq_append, List.head_eq_of_cons_eq hlast], hlog⟩

theorem Happening.ofReads_append (ps qs : List (Nat × Packet)) :
    ofReads (ps ++ qs) = ofReads ps ++ ofReads qs :=
  List.map_append

namespace Cursor

variable {root c d : Cursor} {log : List Happening} {ps : List (Nat × Packet)} {k : Nat}

/-! ## What the log tells -/

/-- The states in which the walk comes to an address between two items, or finds that there is
none. -/
inductive Comes (c : Cursor) : Cursor → Prop
  | resolved {d : Cursor} (h : resolve c = .ok true d) : Comes c d
  | acquired {d e : Cursor} (h : Comes c d) (hip : d.flow.ip = none)
      (ha : acquire d = .ok true e) : Comes c e
  | passed {d e : Cursor} {ip : UInt64} (h : Comes c d) (hip : d.flow.ip = some ip)
      (he : asyncEvent d ip = .ok true e) : Comes c e

/-- The walk has come to `ip`, no outcome is open, and the next packet to matter reports an event
there. -/
structure MeetsEvent (c d : Cursor) (ip : UInt64) : Prop where
  comes : Comes c d
  stands : d.flow.ip = some ip
  tnt : d.flow.tnt = []
  ahead : d.asyncAhead ip = .ok true

/-- Behind the log, `p` is the second packet of an asynchronous event and names an address.  The
first packet of the event reports it for the place that the walk has come to, so it is none that
the walk passes over as a status. -/
def CompletesEvent (c : Cursor) (log : List Happening) (p : Packet) : Prop :=
  ∃ k d ip ps timing offset source silent target,
    MeetsEvent (c.after k) d ip ∧ Reads (c.after k) ps d ∧
    log = c.log k ++ ofReads (ps ++ timing ++ (offset, .ip .fup source) :: silent) ∧
    (∀ x ∈ timing, x.2.isSilent = true) ∧ (∀ x ∈ silent, x.2.isSilent = true) ∧
    p = .ip .pgd target ∧ target ≠ .suppressed

/-- Behind each packet that stops tracing there is one that resumes it, or it completes an
asynchronous event. -/
def Traced (c : Cursor) (log : List Happening) : Prop :=
  ∀ before offset p rest, log = before ++ .read offset p :: rest → p.isStop = true →
    (∃ o q, .read o q ∈ rest ∧ q.resumes = true) ∨ c.CompletesEvent before p

namespace Traced

/-- Something more happens; if it stops tracing, it completes an event. -/
theorem concat (h : Traced root log) {x : Happening}
    (hx : ∀ o p, x = .read o p → p.isStop = true → root.CompletesEvent log p) :
    Traced root (log ++ [x]) := by
  intro before offset p rest hlog hp
  rcases concat_eq_append_cons hlog with ⟨rfl, hread, _⟩ | ⟨rest, rfl, rfl⟩
  · exact .inr (hx offset p hread hp)
  · refine (h before offset p rest rfl hp).imp_left fun ⟨o, q, hq, hresumes⟩ => ?_
    exact ⟨o, q, List.mem_append_left _ hq, hresumes⟩

theorem item (h : Traced root log) (i : Item) : Traced root (log ++ [.item i]) :=
  h.concat nofun

theorem reads (h : Traced root log) (hps : ∀ x ∈ ps, x.2.isStop = false) :
    Traced root (log ++ ofReads ps) := by
  induction ps generalizing log with
  | nil => exact (List.append_nil log).symm ▸ h
  | cons x ps ih =>
      have hx : Traced root (log ++ [.read x.1 x.2]) := by
        refine h.concat fun o p hxp hp => ?_
        cases hxp
        rw [hps x List.mem_cons_self] at hp
        cases hp
      rw [ofReads, List.map_cons, List.append_cons]
      exact ih hx fun y hy => hps y (List.mem_cons_of_mem _ hy)

/-- Behind a packet that resumes tracing nothing before it counts. -/
theorem of_resumes (root : Cursor) (log : List Happening) {qs : List (Nat × Packet)}
    {x : Nat × Packet} (hx : x.2.resumes = true) :
    Traced root (log ++ ofReads (qs ++ [x])) := by
  intro before offset p rest hlog hp
  rw [ofReads_append, ← List.append_assoc] at hlog
  rcases concat_eq_append_cons hlog with ⟨_, hread, _⟩ | ⟨rest, rfl, _⟩
  · cases hread
    rw [Packet.isStop_of_resumes hx] at hp
    cases hp
  · exact .inl ⟨x.1, x.2, List.mem_append_right _ (List.mem_singleton_self _), hx⟩

/-- The second packet of an asynchronous event, read behind the first one. -/
theorem completes {ip : UInt64} {source target : IpPayload} {offset : Nat}
    {timing qs : List (Nat × Packet)} (hmeets : MeetsEvent (root.after k) c ip)
    (hreads : Reads (root.after k) ps c) (htiming : ∀ x ∈ timing, x.2.isSilent = true)
    (h : Traced root (root.log k ++ ofReads ps ++
      ofReads (timing ++ [(offset, .ip .fup source)])))
    (hqs : ∀ x ∈ qs, x.2.isSilent = true) (htarget : target ≠ .suppressed) (o : Nat) :
    Traced root (root.log k ++ ofReads ps ++ ofReads (timing ++ [(offset, .ip .fup source)]) ++
      ofReads (qs ++ [(o, .ip .pgd target)])) := by
  rw [ofReads_append qs, ← List.append_assoc]
  refine (h.reads fun x hx => Packet.isStop_of_isSilent (hqs x hx)).concat fun _ _ hread _ => ?_
  cases hread
  refine ⟨k, c, ip, ps, timing, offset, source, qs, target, hmeets, hreads, ?_, htiming, hqs, rfl,
    htarget⟩
  simp only [← ofReads_append, List.append_assoc, List.singleton_append]

end Traced

/-! ## Moving on from an instruction -/

/-- What moving on to `ip` asks for: nothing, a packet of outcomes, or one that names the place. -/
inductive Asks (ip : Option UInt64) (c d : Cursor) : Prop
  | nothing (h : Still c d)
  | outcomes {e : Cursor} (hb : nextBranch c = .ok (some .tnt) e) (h : Still e d)
  | target {e : Cursor} (h : Still c e) (hb : nextBranch e = .ok (some (.target ip)) d)

theorem takeTnt_asks {taken : Bool} {ip : Option UInt64} (h : takeTnt c = .ok (some taken) d) :
    Asks ip c d := by
  cases hc : c.flow.tnt with
  | cons b rest =>
      rw [takeTnt_cons hc] at h
      cases h
      exact .nothing (.withFlow c rfl rfl)
  | nil =>
      rw [takeTnt_nil hc] at h
      rcases hb : nextBranch c with ⟨_ | _ | _, e⟩ | ⟨err, e⟩ <;> rw [hb] at h
      · cases h
      · obtain ⟨rest, _, rfl⟩ := popTnt_told h
        exact .outcomes hb (.withFlow e rfl rfl)
      · cases h
      · cases h

theorem nextBranch_of_takeTarget {ip : Option UInt64} (h : takeTarget c = .ok (some ip) d) :
    nextBranch c = .ok (some (.target ip)) d := by
  cases hc : c.flow.tnt with
  | cons b rest =>
      rw [takeTarget_cons hc] at h
      cases h
  | nil =>
      rw [takeTarget_nil hc] at h
      rcases hb : nextBranch c with ⟨_ | _ | _, e⟩ | ⟨err, e⟩ <;> rw [hb] at h <;> cases h
      rfl

theorem still_of_returned {ip : Option UInt64}
    (h : returned (compressedReturn c) = .ok (some ip) d) : Still c d := by
  rcases hret : compressedReturn c with ⟨a, e⟩ | ⟨err, e⟩ <;> rw [hret] at h <;> cases h
  obtain ⟨rest, returns, _, _, rfl⟩ := compressedReturn_told hret
  exact .withFlow c rfl rfl

theorem takeReturn_asks {ip : Option UInt64} (h : takeReturn c = .ok (some ip) d) :
    Asks ip c d := by
  cases hc : c.flow.tnt with
  | cons b rest =>
      rw [takeReturn_cons hc] at h
      exact .nothing (still_of_returned h)
  | nil =>
      rw [takeReturn_nil hc] at h
      rcases hb : nextBranch c with ⟨_ | _ | _, e⟩ | ⟨err, e⟩ <;> rw [hb] at h
      · cases h
      · exact .outcomes hb (still_of_returned h)
      · cases h
        exact .target (.refl c) hb
      · cases h

theorem successor_asks {p : Pending} {ip : Option UInt64} (h : successor p c = .ok (some ip) d) :
    Asks ip c d := by
  have hpushed : Still c (c.withReturns (c.flow.returns.push p.fallThrough)) :=
    .withFlow c rfl rfl
  rw [successor_eq] at h
  cases hflow : p.flow with
  | next =>
      rw [hflow] at h
      cases h
      exact .nothing (.refl c)
  | jump target =>
      rw [hflow] at h
      cases h
      exact .nothing (.refl c)
  | call target =>
      rw [hflow] at h
      cases h
      exact .nothing hpushed
  | conditional target =>
      rw [hflow] at h
      rcases htnt : takeTnt c with ⟨_ | taken, e⟩ | ⟨err, e⟩ <;> simp only [htnt] at h <;> cases h
      exact takeTnt_asks htnt
  | ret =>
      rw [hflow] at h
      exact takeReturn_asks h
  | indirectCall =>
      rw [hflow] at h
      exact .target hpushed (nextBranch_of_takeTarget h)
  | indirectJump =>
      rw [hflow] at h
      exact .target (.refl c) (nextBranch_of_takeTarget h)
  | far =>
      rw [hflow] at h
      exact .target (.refl c) (nextBranch_of_takeTarget h)

/-- A packet that stops tracing is no answer that leads to an address. -/
theorem nextBranch_traced {branch : Branch} (h : nextBranch c = .ok (some branch) d)
    (hlog : Traced root log) :
    ∃ ps, Reads c ps d ∧ (branch ≠ .target none → Traced root (log ++ ofReads ps)) := by
  obtain ⟨qs, ⟨o, p⟩, hreads, hanswers, hqs, _⟩ := nextBranch_last h
  refine ⟨qs ++ [(o, p)], hreads, fun hbranch => hlog.reads fun x hx => ?_⟩
  rcases List.mem_append.1 hx with hx | hx
  · exact hqs x hx
  · cases List.mem_singleton.1 hx
    cases hanswers with
    | tnt => rfl
    | tip => rfl
    | pgd => exact absurd rfl hbranch
    | stop => exact absurd rfl hbranch

/-- The place that an instruction leads to lies in traced code. -/
theorem resolve_traced (h : resolve c = .ok true d) (hlog : c.flow.ip ≠ none → Traced root log)
    (hpending : c.flow.pending ≠ none → c.flow.ip ≠ none) :
    ∃ ps, Reads c ps d ∧ (d.flow.ip ≠ none → Traced root (log ++ ofReads ps)) := by
  cases hp : c.flow.pending with
  | none =>
      rw [resolve_none hp] at h
      cases h
      exact ⟨[], .still (.refl c), fun hip => (List.append_nil log).symm ▸ hlog hip⟩
  | some p =>
      have hlog : Traced root log := hlog (hpending (hp ▸ Option.some_ne_none p))
      have hclear : Still c (c.withPending none) := .withFlow c rfl rfl
      rw [resolve_some hp] at h
      rcases hs : successor p (c.withPending none) with ⟨_ | ip, e⟩ | ⟨e, f⟩ <;> rw [hs] at h <;>
        cases h
      have hmove : Still e (e.withIp ip) := .withFlow e rfl rfl
      cases successor_asks hs with
      | nothing hstill =>
          refine ⟨[], .still (hclear.trans (hstill.trans hmove)), fun _ => ?_⟩
          exact (List.append_nil log).symm ▸ hlog
      | outcomes hb hstill =>
          obtain ⟨ps, hreads, htraced⟩ := nextBranch_traced hb hlog
          have hreads := (hreads.of_still hclear).trans (.still (hstill.trans hmove))
          refine ⟨ps ++ [], hreads, fun _ => ?_⟩
          rw [List.append_nil]
          exact htraced nofun
      | target hstill hb =>
          obtain ⟨ps, hreads, htraced⟩ := nextBranch_traced hb hlog
          have hreads := (hreads.of_still (hclear.trans hstill)).trans (.still hmove)
          refine ⟨ps ++ [], hreads, fun hip => ?_⟩
          rw [List.append_nil]
          refine htraced ?_
          rintro ⟨rfl⟩
          exact hip rfl

/-! ## Finding the next address -/

/-- Where tracing is off, a packet has to resume it. -/
theorem acquire_resumes (h : acquire c = .ok true d) :
    ∃ qs x, Reads c (qs ++ [x]) d ∧ x.2.resumes = true := by
  fun_induction acquire c with
  | case1 => cases h
  | case2 => cases h
  | case3 c event e he ip hip =>
      cases h
      obtain ⟨qs, ⟨o, p⟩, hreads, hmeans, _⟩ := nextEvent_last he
      have hmove : Reads e [] { e with flow := { e.flow with ip := some ip, tnt := [] } } :=
        .still (.withFlow e rfl rfl)
      refine ⟨qs, (o, p), (qs ++ [(o, p)]).append_nil ▸ hreads.trans hmove, ?_⟩
      cases hmeans with
      | tnt => cases hip
      | ip kind payload =>
          cases kind with
          | pgd => cases hip
          | _ => exact Packet.resumes_of_apply (by decide) hip
      | status payload => exact Packet.resumes_of_apply (by decide) hip
      | stop => cases hip
  | case4 c e _ he _ ih =>
      obtain ⟨ps, hps⟩ := (nextEvent_follows c).reads he
      have hclear : Reads e [] (e.withTnt []) := .still (.withFlow e rfl rfl)
      obtain ⟨qs, x, hreads, hx⟩ := ih h
      have hreads := hps.trans (hclear.trans hreads)
      rw [List.nil_append, ← List.append_assoc] at hreads
      exact ⟨ps ++ qs, x, hreads, hx⟩
  | case5 c event e he _ _ _ ih =>
      obtain ⟨ps, hps⟩ := (nextEvent_follows c).reads he
      obtain ⟨qs, x, hreads, hx⟩ := ih h
      have hreads := hps.trans hreads
      rw [← List.append_assoc] at hreads
      exact ⟨ps ++ qs, x, hreads, hx⟩

/-- Where there is no event, tracing goes on. -/
theorem asyncEvent_false_traced {ip : UInt64} (h : asyncEvent c ip = .ok false d)
    (hlog : Traced root log) : ∃ ps, Reads c ps d ∧ Traced root (log ++ ofReads ps) := by
  have hsame : ∃ ps, Reads c ps c ∧ Traced root (log ++ ofReads ps) :=
    ⟨[], .still (.refl c), (List.append_nil log).symm ▸ hlog⟩
  unfold asyncEvent at h
  split at h
  next =>
    split at h
    next => cases h
    next => cases h; exact hsame
    next hahead =>
      obtain ⟨payload, hfirst, _⟩ := firstFlowPacket_of_asyncAhead hahead
      split at h
      next => cases h
      next he =>
        obtain ⟨_, _, _, hnone, _⟩ := nextEvent_ahead hfirst he
        cases hnone
      next => split at h <;> cases h
  next => cases h; exact hsame

/-- Behind an event tracing goes on, or its second packet has stopped it and names the place. -/
theorem asyncEvent_true_traced {ip : UInt64} (h : asyncEvent c ip = .ok true d)
    (hip : c.flow.ip = some ip) (hcomes : Comes (root.after k) c)
    (hreads : Reads (root.after k) ps c) :
    ∃ qs, Reads c qs d ∧
      (d.flow.ip ≠ none → Traced root (root.log k ++ ofReads ps ++ ofReads qs)) := by
  unfold asyncEvent at h
  split at h
  next hempty =>
    split at h
    next => cases h
    next => cases h
    next hahead =>
      obtain ⟨payload, hfirst, happly⟩ := firstFlowPacket_of_asyncAhead hahead
      have hmeets : MeetsEvent (root.after k) c ip :=
        ⟨hcomes, hip, List.isEmpty_iff.1 hempty, hahead⟩
      split at h
      next => cases h
      next => cases h
      next first e he =>
        obtain ⟨timing, o, _, _, hfup, _, htiming⟩ := nextEvent_ahead hfirst he
        have htraced : Traced root (root.log k ++ ofReads ps ++
            ofReads (timing ++ [(o, .ip .fup payload)])) :=
          .of_resumes root _ (Packet.resumes_of_apply (by decide) happly)
        split at h
        next => cases h
        next second f hf =>
          cases h
          have hmove : Reads f [] (asyncTarget second f) := .still (asyncTarget_still second f)
          cases second with
          | none =>
              obtain ⟨qs, hqs⟩ := (nextEvent_follows e).reads hf
              exact ⟨_, hfup.trans (hqs.trans hmove), fun hip => absurd rfl hip⟩
          | some second =>
              obtain ⟨qs, ⟨o', q⟩, hsecond, hmeans, hqs, _⟩ := nextEvent_last hf
              refine ⟨_, hfup.trans (hsecond.trans hmove), fun hip => ?_⟩
              rw [List.append_nil, ofReads_append, ← List.append_assoc]
              by_cases hstop : q.isStop = true
              · cases hmeans with
                | tnt => cases hstop
                | ip kind target =>
                    cases kind with
                    | pgd =>
                        refine htraced.completes hmeets hreads htiming hqs ?_ o'
                        rintro rfl
                        exact hip rfl
                    | _ => cases hstop
                | status => cases hstop
                | stop => exact absurd rfl hip
              · refine htraced.reads fun x hx => ?_
                rcases List.mem_append.1 hx with hx | hx
                · exact Packet.isStop_of_isSilent (hqs x hx)
                · cases List.mem_singleton.1 hx
                  exact Bool.eq_false_iff.2 hstop
  next => cases h

/-- The address that is found lies in traced code. -/
theorem locate_traced {a : UInt64} (h : locate c = .ok (some a) d)
    (hcomes : Comes (root.after k) c) (hreads : Reads (root.after k) ps c)
    (hlog : c.flow.ip ≠ none → Traced root (root.log k ++ ofReads ps)) :
    ∃ qs, Reads c qs d ∧ Traced root (root.log k ++ ofReads ps ++ ofReads qs) := by
  fun_induction locate c generalizing ps with
  | case1 => cases h
  | case2 => cases h
  | case3 c hip e he ih =>
      obtain ⟨qs, x, hfound, hx⟩ := acquire_resumes he
      have hlog : Traced root (root.log k ++ ofReads (ps ++ (qs ++ [x]))) := by
        rw [ofReads_append, ← List.append_assoc]
        exact .of_resumes root _ hx
      obtain ⟨rs, hrest, htraced⟩ :=
        ih h (.acquired hcomes hip he) (hreads.trans hfound) fun _ => hlog
      refine ⟨_, hfound.trans hrest, ?_⟩
      rw [ofReads_append, ← List.append_assoc, List.append_assoc (root.log k), ← ofReads_append]
      exact htraced
  | case4 => cases h
  | case5 c ip hip e he =>
      cases h
      exact asyncEvent_false_traced he (hlog (hip ▸ Option.some_ne_none _))
  | case6 c ip hip e he ih =>
      obtain ⟨qs, hevent, hlog⟩ := asyncEvent_true_traced he hip hcomes hreads
      rw [List.append_assoc, ← ofReads_append] at hlog
      obtain ⟨rs, hrest, htraced⟩ := ih h (.passed hcomes hip he) (hreads.trans hevent) hlog
      refine ⟨_, hevent.trans hrest, ?_⟩
      rw [ofReads_append, ← List.append_assoc, List.append_assoc (root.log k), ← ofReads_append]
      exact htraced

/-! ## The whole run -/

/-- All that happens before the item number `k` is given. -/
def before (c : Cursor) (k : Nat) : List Happening :=
  c.log k ++ ofReads (c.after k).reads

theorem traced_before {r : InstructionRecord} (h : c.item k = some (.ok r))
    (hlog : (c.after k).flow.ip ≠ none → Traced c (c.log k))
    (hpending : (c.after k).flow.pending ≠ none → (c.after k).flow.ip ≠ none) :
    Traced c (c.before k) := by
  obtain ⟨d, e, f, flow, hres, hloc, hfetch, _, hstep, hnext⟩ := next_emitted h
  obtain ⟨ps, hreads, htraced⟩ := resolve_traced hres hlog hpending
  obtain ⟨qs, hreads', htraced'⟩ := locate_traced hloc (.resolved hres) hreads htraced
  have hplace : (c.after k).next.2.reader = e.reader := by
    rw [hnext]
    exact hfetch.reader_eq
  unfold before
  rw [reads_of_emitted h hstep hplace (hreads.trans hreads'), ofReads_append, ← List.append_assoc]
  exact htraced'

theorem pending_ip {l : Ledger} (h : Accounts l c) (hp : c.flow.pending ≠ none) :
    c.flow.ip ≠ none := by
  cases h with
  | fresh hf => exact absurd hf.pending hp
  | walking _ hw => exact hw.ip ▸ Option.some_ne_none _

theorem traced_log (hf : Fresh c) (k : Nat) :
    (c.after k).done = true ∨ ((c.after k).flow.ip ≠ none → Traced c (c.log k)) := by
  induction k with
  | zero => exact .inr fun hip => absurd hf.ip hip
  | succ k ih =>
      rcases hi : c.item k with _ | e | r
      · exact .inl (done_of_next_eq_none hi)
      · exact .inr fun hip => absurd (fresh_of_error hi).ip hip
      · right
        intro _
        have hc : ¬ (c.after k).done = true := Bool.eq_false_iff.1 (done_of_next_eq_some hi)
        have htraced := traced_before hi (ih.resolve_left hc)
          (pending_ip ((accounts_after hf k).resolve_left hc))
        rw [log_succ, hi]
        exact htraced.item (.ok r)

/-- Whatever the window, the images and their source, behind a packet that stops tracing no
instruction is given until a packet has been read that resumes it, unless the packet completes an
asynchronous event at the place that the walk has come to, and names an address. -/
theorem stays_off_or_completes_event (decoder : Decoder) (window : List UInt8) (rebuilt : Bool) :
    let c := start decoder window rebuilt
    ∀ k r, c.item k = some (.ok r) →
      ∀ log offset p rest, c.before k = log ++ .read offset p :: rest → p.isStop = true →
        (∃ o q, .read o q ∈ rest ∧ q.resumes = true) ∨ c.CompletesEvent log p := by
  intro c k r h
  have hf : Fresh c := fresh_start decoder window rebuilt
  have hc : ¬ (c.after k).done = true := Bool.eq_false_iff.1 (done_of_next_eq_some h)
  exact traced_before h ((traced_log hf k).resolve_left hc)
    (pending_ip ((accounts_after hf k).resolve_left hc))

/-- An event at `0x1001` stops tracing and names `0x1006`.  The trace ends there, and still the
instruction at that address is given. -/
theorem not_stays_off :
    let code : Section :=
      ⟨0x1000, #[0x90, 0xe8, 5, 0, 0, 0, 0x74, 2, 0x0f, 5, 0x90, 0xc3], by decide, by decide⟩
    let image : Image := ⟨[code], List.pairwise_singleton _ _⟩
    let window := Packet.psbPattern ++ [0x02, 0x23] ++ [0xd1, 0x00, 0x10, 0, 0, 0, 0, 0, 0] ++
      [0xdd, 0x01, 0x10, 0, 0, 0, 0, 0, 0] ++ [0xc1, 0x06, 0x10, 0, 0, 0, 0, 0, 0]
    let c := start { source := fun _ => .ok image, image := some image } window true
    ∃ k r log offset p rest, c.item k = some (.ok r) ∧ c.before k = log ++ .read offset p :: rest ∧
      p.isStop = true ∧ ¬ ∃ o q, .read o q ∈ rest ∧ q.resumes = true := by
  intro code image window c
  let branch : InstructionRecord := .ofParts 0x1006 [0x74, 0x02] .bits64 .conditionalJump
  have hitem : c.item 1 = some (.ok branch) := by decide +kernel
  have hreads : (c.after 1).reads =
      [(27, .ip .fup (.full 0x1001))] ++ [(36, .ip .pgd (.full 0x1006))] := by decide +kernel
  refine ⟨1, branch, c.log 1 ++ ofReads [(27, .ip .fup (.full 0x1001))], 36,
    .ip .pgd (.full 0x1006), [], hitem, ?_, rfl,
    fun ⟨_, _, hmem, _⟩ => absurd hmem List.not_mem_nil⟩
  unfold before
  rw [hreads, ofReads_append, ← List.append_assoc]
  rfl

end Cursor

end BranchWatch
