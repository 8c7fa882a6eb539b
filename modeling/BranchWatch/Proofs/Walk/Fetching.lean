import BranchWatch.Proofs.Walk.Run

/-!
# Where the code is looked at

Asking for an item comes to the code at most once: when the walk has moved on and found an address,
and has not gone on for too long (`Cursor.fetching?`).  What a step gives is then a matter of the
look-up (`Cursor.step_of_fetching`).  Up to there, and in a step that does not come so far, what is
known about the code stays as it is (`Cursor.sameCode_of_fetching`, `Cursor.step_of_not_fetching`).
-/

namespace BranchWatch

namespace Cursor

variable {c d f : Cursor} {ip : UInt64}

/-- The address at which the next instruction is looked up, and the state in which this is done. -/
def fetching? (c : Cursor) : Option (UInt64 × Cursor) :=
  match resolve c with
  | .ok true d =>
    match locate d with
    | .ok (some ip) f => if f.steps = maxSteps then none else some (ip, f.countStep)
    | _ => none
  | _ => none

/-- What a step makes of a look-up. -/
theorem step_of_fetching (h : c.fetching? = some (ip, f)) :
    step c = match fetch ip f with
      | .error e g => .error e g
      | .ok (record, flow) g => .ok (some record) (g.withPending (some ⟨ip, record.size, flow⟩)) := by
  unfold fetching? at h
  rw [step_eq]
  rcases hr : resolve c with ⟨_ | _, d⟩ | ⟨e, d⟩ <;> simp only [hr] at h ⊢
  · cases h
  · rcases hl : locate d with ⟨_ | ip', f'⟩ | ⟨e, f'⟩ <;> simp only [hl] at h ⊢
    · cases h
    · split at h
      next => cases h
      next hsteps =>
        cases h
        exact if_neg hsteps
    · cases h
  · cases h

/-- Up to the look-up packets are read, and nothing else happens. -/
theorem reads_of_fetching (h : c.fetching? = some (ip, f)) :
    ∃ d ps, Reads c ps d ∧ f = d.countStep ∧ d.flow.ip = some ip ∧ d.steps ≠ maxSteps := by
  unfold fetching? at h
  have hresolve := resolve_follows c
  rcases hr : resolve c with ⟨_ | _, d⟩ | ⟨e, d⟩ <;> simp only [hr] at h
  · cases h
  · have hlocate := locate_follows d
    rcases hl : locate d with ⟨_ | ip', f'⟩ | ⟨e, f'⟩ <;> simp only [hl] at h
    · cases h
    · split at h
      next => cases h
      next hsteps =>
        cases h
        obtain ⟨ps, hps⟩ := hresolve.reads hr
        obtain ⟨qs, hqs⟩ := hlocate.reads hl
        exact ⟨f', ps ++ qs, hps.trans hqs, rfl, ip_of_locate hl, hsteps⟩
    · cases h
  · cases h

/-- What is known about the code is the same in both states. -/
def SameCode (c d : Cursor) : Prop := d.decoder = c.decoder ∧ d.rebuilt = c.rebuilt

theorem Reads.sameCode {ps : List (Nat × Packet)} (h : Reads c ps d) : SameCode c d :=
  ⟨h.decoder_eq, h.rebuilt_eq⟩

theorem sameCode_of_fetching (h : c.fetching? = some (ip, f)) : SameCode c f := by
  obtain ⟨d, ps, hreads, rfl, -⟩ := reads_of_fetching h
  exact hreads.sameCode

/-- The outcome of a step that does not look at the code. -/
def Unlooked {α : Type} (c : Cursor) : Walked α → Prop
  | .ok _ d => SameCode c d
  | .error e d => SameCode c d ∧ ¬Unfetched e

theorem not_unfetched_of_raised {ps : List (Nat × Packet)} {e : DecodeError}
    (h : Raised ps d e) : ¬Unfetched e := by
  intro he
  cases he <;> exact h

theorem step_of_not_fetching (h : c.fetching? = none) : Unlooked c (step c) := by
  unfold fetching? at h
  have hresolve := resolve_follows c
  rw [step_eq]
  rcases hr : resolve c with ⟨_ | _, d⟩ | ⟨e, d⟩ <;> rw [hr] at hresolve <;> simp only [hr] at h
  · obtain ⟨ps, hps⟩ := hresolve
    exact hps.sameCode
  · obtain ⟨ps, hps⟩ := hresolve
    have hlocate := locate_follows d
    rcases hl : locate d with ⟨_ | ip, f⟩ | ⟨e, f⟩ <;> rw [hl] at hlocate <;>
      simp only [hl] at h ⊢
    · obtain ⟨qs, hqs⟩ := hlocate
      exact (hps.trans hqs).sameCode
    · obtain ⟨qs, hqs⟩ := hlocate
      split at h
      next hsteps =>
        rw [if_pos hsteps]
        exact ⟨(hps.trans hqs).sameCode, fun he => nomatch he⟩
      next => cases h
    · obtain ⟨qs, hqs, hraised⟩ := hlocate
      exact ⟨(hps.trans hqs).sameCode, not_unfetched_of_raised hraised⟩
  · obtain ⟨ps, hps, hraised⟩ := hresolve
    exact ⟨hps.sameCode, not_unfetched_of_raised hraised⟩

end Cursor

end BranchWatch
