import BranchWatch.Proofs.Walk.Owing

/-!
# The grouping of branch outcomes does not matter

A window in which branch outcomes come in other packets gives the same items (`items_regrouped`).
Only the offsets in errors differ.

* The second walk has more packets, so its count of steps starts again at least as often as that of
  the first one.  It runs away only where the first one does (`Cursor.Owes.step`).
* An error makes both walks forget which outcomes wait, and where they go on nothing is owed
  (`Cursor.Owes.recover`).
-/

namespace BranchWatch

namespace Cursor

variable {c d : Cursor} {owed : List Bool} {known : Prop}

namespace Owes

/-! ## A whole step -/

theorem fetch (ip : UInt64) (h : Owes True owed c d) :
    Concur (fun _ => True) (fetch ip c) (fetch ip d) := by
  have hmode : c.flow.mode = d.flow.mode := congrArg (·.mode) h.flow
  have hrebuilt : Owes True owed c.rebuild d.rebuild :=
    { h with decoder := congrArg (·.rebuild.2) h.decoder, rebuilt := rfl }
  have hagree : Agree (Owes True owed) (fun e e' => e = e' ∧ Unfetched e) (Cursor.fetch ip c)
      (Cursor.fetch ip d) :=
    .fetch ip h.decoder hmode h.rebuilt (fun _ he => ⟨rfl, he⟩) h hrebuilt
  generalize Cursor.fetch ip c = r at hagree ⊢
  generalize Cursor.fetch ip d = s at hagree ⊢
  cases hagree with
  | ok found h => exact .ok found h
  | error he h =>
      obtain ⟨rfl, he⟩ := he
      refine .error (.unfetched he) (.inr fun offset => ?_) (h.mono False.elim)
      rintro rfl
      cases he

/-- Where the first walk has not run away, another step is counted in both. -/
theorem countStep (h : Owes known owed c d) (hmax : c.steps ≠ maxSteps) :
    Owes known owed c.countStep d.countStep :=
  { h with
    steps := Nat.succ_le_succ h.steps
    steps_le := Nat.lt_of_le_of_ne h.steps_le hmax }

/-- A step of the first walk that does not run away has the same outcome in the second one. -/
theorem step (h : Owes True owed c d)
    (hquiet : ∀ ip n f, Cursor.step c ≠ .error (.runaway ip n) f) :
    Concur (· ≠ none) (Cursor.step c) (Cursor.step d) := by
  have hresolve := h.resolve
  rw [step_eq] at hquiet
  rw [step_eq, step_eq]
  generalize Cursor.resolve c = r at hresolve hquiet ⊢
  generalize Cursor.resolve d = s at hresolve ⊢
  cases hresolve with
  | error he howed h => exact .error he howed h
  | @ok going _ c d h =>
      cases going with
      | false => exact .ok none (h.mono fun _ => trivial)
      | true =>
          have hlocate := h.locate
          simp only at hquiet ⊢
          generalize c.locate = r at hlocate hquiet ⊢
          generalize d.locate = s at hlocate ⊢
          cases hlocate with
          | error he howed h => exact .error he howed h
          | @ok ip _ c d h =>
              cases ip with
              | none => exact .ok none (h.mono fun hne => absurd rfl hne)
              | some ip =>
                  have hmax : c.steps ≠ maxSteps := by
                    intro hmax
                    simp only [hmax, if_true] at hquiet
                    exact hquiet _ _ _ rfl
                  have hlt := Nat.lt_of_le_of_lt h.steps (Nat.lt_of_le_of_ne h.steps_le hmax)
                  have hfound : Owes True _ c d := h.mono fun _ => nofun
                  have hfetch := (hfound.countStep hmax).fetch ip
                  simp only
                  rw [if_neg hmax, if_neg (Nat.ne_of_lt hlt)]
                  generalize Cursor.fetch ip c.countStep = r at hfetch ⊢
                  generalize Cursor.fetch ip d.countStep = s at hfetch ⊢
                  cases hfetch with
                  | error he howed h => exact .error he howed h
                  | ok found h => exact .ok _ ((h.withPending _).mono fun _ => trivial)

/-! ## Going on after an error -/

theorem reset {known' : Prop} (h : Owes known owed c d) (howed : known' → owed = []) :
    Owes known' owed { c with flow := c.flow.reset, steps := 0 }
      { d with flow := d.flow.reset, steps := 0 } :=
  { h with
    flow := congrArg FlowState.forgetTnt (FlowState.reset_eq_of_forgetTnt h.flow)
    tnt := fun hknown => (howed hknown).symm
    steps := Nat.le_refl 0
    steps_le := Nat.zero_le _ }

end Owes

/-- The second walk owes some outcomes.  At the end of the window it does not matter which ones
wait. -/
def Abreast (c d : Cursor) : Prop := ∃ owed, Owes (c.done = false) owed c d

namespace Owes

/-- After an error other than an overflow both walks search for a synchronisation packet, and where
they find one nothing is owed any more. -/
theorem recover_of_ne {e e' : DecodeError} (h : Owes False owed c d)
    (he : ∀ offset, e ≠ .overflow offset) (he' : ∀ offset, e' ≠ .overflow offset)
    (hc : c.failing e = c.lastOffset) (hd : d.failing e' = d.lastOffset) :
    Abreast (c.recover e) (d.recover e') := by
  have hlanded := PacketReader.landed_of_regrouped h.rest rfl rfl h.poised.aligned
    h.poised'.aligned
  rw [recover_eq he, recover_eq he', hc, hd, h.poised.findPsb_eq, h.poised'.findPsb_eq]
  generalize hfound : findPsb c.reader.offset c.reader.rest = place at hlanded ⊢
  generalize hfound' : findPsb d.reader.offset d.reader.rest = place' at hlanded ⊢
  cases hlanded with
  | some hplace =>
      exact ⟨[], {
        rest := hplace.regrouped hfound hfound'
        poised := h.poised.seek hfound hplace.aligned
        poised' := h.poised'.seek hfound' hplace.aligned'
        flow := congrArg FlowState.forgetTnt (FlowState.reset_eq_of_forgetTnt h.flow)
        tnt := fun _ => rfl
        steps := Nat.le_refl 0
        steps_le := Nat.zero_le _
        inPsb := rfl
        done := h.done
        decoder := h.decoder
        rebuilt := h.rebuilt }⟩
  | none => exact ⟨owed, { h.reset nofun with inPsb := rfl, done := rfl }⟩

theorem recover {e e' : DecodeError} (h : Owes False owed c d) (he : Elsewhere e e')
    (howed : owed = [] ∨ ∀ offset, e ≠ .overflow offset) :
    Abreast (c.recover e) (d.recover e') := by
  cases he with
  | desync => exact h.recover_of_ne nofun nofun rfl rfl
  | overflow =>
      obtain rfl := howed.resolve_right fun hne => hne _ rfl
      exact ⟨[], h.reset fun _ => rfl⟩
  | runaway => exact h.recover_of_ne nofun nofun rfl rfl
  | unfetched he => cases he <;> exact h.recover_of_ne nofun nofun rfl rfl

end Owes

namespace Abreast

theorem next (h : Abreast c d) (hquiet : ∀ ip n, c.next.1 ≠ some (.error (.runaway ip n))) :
    c.next.1.map Item.forgetOffset = d.next.1.map Item.forgetOffset ∧
      Abreast c.next.2 d.next.2 := by
  obtain ⟨owed, h⟩ := h
  cases hdone : c.done with
  | true =>
      rw [next_of_done hdone, next_of_done (h.done.symm.trans hdone)]
      exact ⟨rfl, owed, h⟩
  | false =>
      have hdone' := h.done.symm.trans hdone
      unfold Cursor.next at hquiet ⊢
      simp only [hdone, hdone', Bool.false_eq_true, if_false] at hquiet ⊢
      have hstep := (h.mono fun _ => hdone).step fun ip n f hrun => by
        rw [hrun] at hquiet
        exact hquiet ip n rfl
      generalize step c = r at hstep ⊢
      generalize step d = s at hstep ⊢
      cases hstep with
      | error he howed h =>
          exact ⟨congrArg (fun e => some (.error e : Item)) he.forgetOffset_eq,
            h.recover he howed⟩
      | ok record h =>
          cases record with
          | none => exact ⟨rfl, _, { h with tnt := nofun, done := rfl }⟩
          | some record => exact ⟨rfl, _, h.mono fun _ => nofun⟩

theorem after (h : Abreast c d) (k : Nat)
    (hquiet : ∀ j < k, ∀ ip n, c.item j ≠ some (.error (.runaway ip n))) :
    Abreast (c.after k) (d.after k) := by
  induction k with
  | zero => exact h
  | succ k ih =>
      have hbefore := ih fun j hj => hquiet j (Nat.lt_succ_of_lt hj)
      exact (hbefore.next (hquiet k (Nat.lt_succ_self k))).2

theorem item_eq (h : Abreast c d) (k : Nat)
    (hquiet : ∀ j ≤ k, ∀ ip n, c.item j ≠ some (.error (.runaway ip n))) :
    (c.item k).map Item.forgetOffset = (d.item k).map Item.forgetOffset :=
  ((h.after k fun j hj => hquiet j (Nat.le_of_lt hj)).next (hquiet k (Nat.le_refl k))).1

end Abreast

/-! ## The whole window -/

section

variable {w w' : List UInt8} (hregrouped : Regrouped [] w w')
  (hw : (PacketReader.mkAt w 0).Aligned) (hw' : (PacketReader.mkAt w' 0).Aligned)
  (decoder : Decoder) (rebuilt : Bool)

include hregrouped hw hw'

/-- Both walks start at their first synchronisation packet, or in front if there is none. -/
theorem exists_abreast : ∃ c d, Abreast c d ∧ ∀ k, (start decoder w rebuilt).item k = c.item k ∧
    (start decoder w' rebuilt).item k = d.item k := by
  have hlanded := PacketReader.landed_of_regrouped (r := .mkAt w 0) (s := .mkAt w' 0) hregrouped
    rfl rfl hw hw'
  generalize hfound : findPsb (PacketReader.mkAt w 0).offset (PacketReader.mkAt w 0).rest = place
    at hlanded
  generalize hfound' : findPsb (PacketReader.mkAt w' 0).offset (PacketReader.mkAt w' 0).rest =
    place' at hlanded
  cases hlanded with
  | @some place place' hplace =>
      have hfound : findPsb 0 w = some place := hfound
      have hfound' : findPsb 0 w' = some place' := hfound'
      have hpeek : (PacketReader.mkAt w place).peek = .ok (some (.psb, 16)) :=
        PacketReader.peek_mkAt_of_isPrefix (psbAt_of_findPsb hfound)
      have hpeek' : (PacketReader.mkAt w' place').peek = .ok (some (.psb, 16)) :=
        PacketReader.peek_mkAt_of_isPrefix (psbAt_of_findPsb hfound')
      have howes : Owes True [] ((atOffset decoder w rebuilt place).consume .psb 16)
          ((atOffset decoder w' rebuilt place').consume .psb 16) :=
        ⟨hplace.rest, hplace.aligned.poised_advance hpeek, hplace.aligned'.poised_advance hpeek',
          rfl, fun _ => rfl, Nat.le_refl 0, Nat.zero_le _, rfl, rfl, rfl, rfl⟩
      exact ⟨_, _, ⟨[], howes.mono fun _ => trivial⟩, fun k =>
        ⟨item_start_of_findPsb hfound decoder rebuilt k,
          item_start_of_findPsb hfound' decoder rebuilt k⟩⟩
  | none =>
      have hnone : findPsb 0 w = none := hfound
      have hnone' : findPsb 0 w' = none := hfound'
      have howes : Owes True [] (atOffset decoder w rebuilt 0) (atOffset decoder w' rebuilt 0) :=
        ⟨hregrouped, hw.poised_of_none hnone, hw'.poised_of_none hnone', rfl, fun _ => rfl,
          Nat.le_refl 0, Nat.zero_le _, rfl, rfl, rfl, rfl⟩
      rw [start_of_findPsb_eq_none hnone, start_of_findPsb_eq_none hnone']
      exact ⟨_, _, ⟨[], howes.mono fun _ => trivial⟩, fun k => ⟨rfl, rfl⟩⟩

/-- Let a window consist of whole packets, and let another one be the same with the outcomes of some
packets in several others, each of which has at least one.  If in both the pattern of a
synchronisation packet stands only where such a packet is, then whatever the images and their source
both give the same items, apart from the offsets in errors, as long as the walk through the first
one does not run away. -/
theorem items_regrouped (k : Nat)
    (hquiet : ∀ j ≤ k, ∀ ip n,
      (start decoder w rebuilt).item j ≠ some (.error (.runaway ip n))) :
    ((start decoder w' rebuilt).item k).map Item.forgetOffset =
      ((start decoder w rebuilt).item k).map Item.forgetOffset := by
  obtain ⟨c, d, habreast, hitems⟩ := exists_abreast hregrouped hw hw' decoder rebuilt
  rw [(hitems k).1, (hitems k).2]
  refine (habreast.item_eq k fun j hj ip n => ?_).symm
  rw [← (hitems j).1]
  exact hquiet j hj ip n

end

/-- A conditional branch uses the first of two outcomes, and an indirect jump finds the second one
where it needs an address, waiting or in a packet of its own. -/
theorem items_regrouped_desync :
    let code : Section := ⟨0x1000, #[0x74, 0x00, 0xff, 0xe0], by decide, by decide⟩
    let image : Image := ⟨[code], List.pairwise_singleton _ _⟩
    let decoder : Decoder := { source := fun _ => .ok image, image := some image }
    let enable : List UInt8 := [0xd1, 0x00, 0x10, 0, 0, 0, 0, 0, 0]
    let w := Packet.psbPattern ++ ([0x02, 0x23] ++ (enable ++ ([0x0c] ++ [])))
    let w' := Packet.psbPattern ++ ([0x02, 0x23] ++ (enable ++ ([0x06, 0x04] ++ [])))
    (start decoder w true).item 2 = some (.error (.desync 27 .tip)) ∧
      ((start decoder w' true).item 2).map Item.forgetOffset =
        ((start decoder w true).item 2).map Item.forgetOffset := by
  intro code image decoder enable w w'
  have hregrouped : Regrouped [] w w' :=
    .packet rfl (.packet rfl (.packet rfl (.cut [([0x06], [true]), ([0x04], [false])] rfl
      (by decide) (by decide) .nil)))
  have hw : (PacketReader.mkAt w 0).Aligned :=
    PacketReader.aligned_of_front (List.prefix_append _ _) (by decide +kernel)
  have hw' : (PacketReader.mkAt w' 0).Aligned :=
    PacketReader.aligned_of_front (List.prefix_append _ _) (by decide +kernel)
  let branch : InstructionRecord := .ofParts 0x1000 [0x74, 0x00] .bits64 .conditionalJump
  let jump : InstructionRecord := .ofParts 0x1002 [0xff, 0xe0] .bits64 .nearJump
  have hbranch : (start decoder w true).item 0 = some (.ok branch) := by decide +kernel
  have hjump : (start decoder w true).item 1 = some (.ok jump) := by decide +kernel
  have hdesync : (start decoder w true).item 2 = some (.error (.desync 27 .tip)) := by
    decide +kernel
  refine ⟨hdesync, items_regrouped hregrouped hw hw' decoder true 2 fun j hj ip n => ?_⟩
  rcases j with _ | _ | _ | j
  · rw [hbranch]
    nofun
  · rw [hjump]
    nofun
  · rw [hdesync]
    nofun
  · omega

end Cursor

end BranchWatch
