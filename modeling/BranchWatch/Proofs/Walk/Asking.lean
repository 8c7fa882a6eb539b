import BranchWatch.Proofs.Walk.Fetching
import BranchWatch.Proofs.Walk.Misses
import Mathlib.Data.Nat.Find

/-!
# How often the source of images is asked

Once for each window, at the most.  Decoding a window anew asks before the walk begins, and the walk
does not ask again.  Decoding it with the image at hand asks when the walk meets the first address
without code, and a miss is reported only from there on (`Cursor.AsksAt`); a walk that meets none
never asks (`Cursor.NeverAsks`).  `asked_once` puts the two ways together.

The walk recovers from its errors and meets more of them, but nothing in it clears the mark that the
source has been asked, so the run has one step at which the decoder changes and the rest of it is
told by induction from there.
-/

namespace BranchWatch

namespace Cursor

variable {c d : Cursor} {j : Nat}

/-! ## One step -/

/-- Asking for the next item looks at an address without code, and the source of images has not been
asked for this window. -/
def Misses (c : Cursor) : Prop :=
  c.done = false ∧ c.rebuilt = false ∧ ∃ ip f missing, c.fetching? = some (ip, f) ∧
    f.readInstruction ip = .error (.noMap missing)

theorem not_misses_of_rebuilt (h : c.rebuilt = true) : ¬c.Misses := by
  rintro ⟨-, hfirst, -⟩
  rw [h] at hfirst
  cases hfirst

/-- Looking at an image does not ask for one. -/
theorem readInstruction_ne_image (c : Cursor) (ip : UInt64) (e : ImageError) :
    c.readInstruction ip ≠ .error (.image e) := by
  intro h
  unfold readInstruction at h
  split at h
  next => cases h
  next => rcases Disassembler.decode_eq_error h with ⟨-, he⟩ | ⟨-, he⟩ <;> cases he

/-- The item that comes of asking for one, and what is then known about the code. -/
theorem next_of_step (hc : c.done = false) :
    SameCode (behind (step c)) c.next.2 ∧
      c.next.1 = match step c with
        | .ok record _ => record.map .ok
        | .error e _ => some (.error e) := by
  unfold next
  simp only [hc, Bool.false_eq_true, if_false]
  rcases hs : step c with ⟨_ | record, d⟩ | ⟨e, d⟩
  · exact ⟨⟨rfl, rfl⟩, rfl⟩
  · exact ⟨⟨rfl, rfl⟩, rfl⟩
  · obtain ⟨hdecoder, -, hrebuilt⟩ := recover_kept d e
    exact ⟨⟨hdecoder, hrebuilt⟩, rfl⟩

/-- Where code is missing the source is asked, and its error is the item. -/
theorem next_of_misses (h : c.Misses) :
    c.next.2.decoder = c.decoder.rebuild.2 ∧ c.next.2.rebuilt = true ∧
      ∀ e, c.next.1 = some (.error (.image e)) ↔ c.decoder.source c.decoder.builds = .error e := by
  obtain ⟨hc, hfirst, ip, f, missing, hfetching, hmiss⟩ := h
  obtain ⟨hdecoder, hrebuilt⟩ := sameCode_of_fetching hfetching
  have hstep := step_of_fetching hfetching
  rw [fetch_of_noMap hmiss (hrebuilt.trans hfirst), hdecoder] at hstep
  obtain ⟨⟨hnext, hmark⟩, hitem⟩ := next_of_step hc
  have hasked : f.rebuild.decoder = c.decoder.rebuild.2 := congrArg (·.rebuild.2) hdecoder
  cases hsource : c.decoder.source c.decoder.builds with
  | error e =>
      rw [Decoder.rebuild_of_error hsource] at hstep
      rw [hstep] at hnext hmark hitem
      refine ⟨hnext.trans hasked, hmark, fun e' => ?_⟩
      rw [hitem]
      simp
  | ok image =>
      rw [Decoder.rebuild_of_ok hsource] at hstep
      cases hfound : f.rebuild.readInstruction ip with
      | ok found =>
          simp only [hfound] at hstep
          rw [hstep] at hnext hmark hitem
          refine ⟨hnext.trans hasked, hmark, fun e' => ?_⟩
          rw [hitem]
          simp
      | error e =>
          simp only [hfound] at hstep
          rw [hstep] at hnext hmark hitem
          refine ⟨hnext.trans hasked, hmark, fun e' => ?_⟩
          rw [hitem]
          have hne : e ≠ .image e' := fun he =>
            f.rebuild.readInstruction_ne_image ip e' (he ▸ hfound)
          simpa using hne

/-- Otherwise the source is not asked. -/
theorem next_of_not_misses (h : ¬c.Misses) :
    SameCode c c.next.2 ∧ ∀ e, c.next.1 ≠ some (.error (.image e)) := by
  cases hc : c.done with
  | true =>
      rw [next_of_done hc]
      exact ⟨⟨rfl, rfl⟩, fun _ => nofun⟩
  | false =>
      obtain ⟨⟨hdecoder, hmark⟩, hitem⟩ := next_of_step hc
      -- In each case it is enough that the step leaves the decoder alone and raises no such error.
      suffices hstep : SameCode c (behind (step c)) ∧
          ∀ e d, step c ≠ .error (.image e) d by
        obtain ⟨⟨hd, hr⟩, hne⟩ := hstep
        refine ⟨⟨hdecoder.trans hd, hmark.trans hr⟩, fun e he => ?_⟩
        rw [hitem] at he
        rcases hs : step c with ⟨_ | record, d⟩ | ⟨e', d⟩ <;> rw [hs] at he
        · cases he
        · cases he
        · cases he
          exact hne e d hs
      cases hfetching : c.fetching? with
      | none =>
          have hstep := step_of_not_fetching hfetching
          rcases hs : step c with ⟨record, d⟩ | ⟨e', d⟩ <;> rw [hs] at hstep
          · exact ⟨hstep, fun _ _ he => nomatch he⟩
          · refine ⟨hstep.1, fun e d he => ?_⟩
            cases he
            exact hstep.2 (.image e)
      | some found =>
          obtain ⟨ip, f⟩ := found
          have hsame := sameCode_of_fetching hfetching
          rw [step_of_fetching hfetching]
          cases hread : f.readInstruction ip with
          | ok found =>
              rw [fetch_of_ok hread]
              exact ⟨hsame, fun _ _ he => nomatch he⟩
          | error e =>
              have hkept : f.rebuilt = true ∨ ∀ missing, e ≠ .noMap missing := by
                cases hfirst : f.rebuilt with
                | true => exact .inl rfl
                | false =>
                    right
                    rintro missing rfl
                    exact h ⟨hc, hsame.2.symm.trans hfirst, ip, f, missing, hfetching, hread⟩
              rw [fetch_of_error hread hkept]
              refine ⟨hsame, fun e' d he => ?_⟩
              cases he
              exact f.readInstruction_ne_image ip e' hread

/-! ## The run -/

/-- The source of images is asked for the item number `j`, because code is missing there, and for no
other item.  Misses are reported from there on, and its error, if it fails, only there. -/
structure AsksAt (c : Cursor) (j : Nat) : Prop where
  misses : (c.after j).Misses
  decoder (k : Nat) :
    (c.after k).decoder = if k ≤ j then c.decoder else c.decoder.rebuild.2
  noMap (k : Nat) (missing : UInt64) : c.item k = some (.error (.noMap missing)) → j ≤ k
  image (k : Nat) (e : ImageError) : c.item k = some (.error (.image e)) ↔
    k = j ∧ c.decoder.source c.decoder.builds = .error e

/-- The source of images is not asked. -/
structure NeverAsks (c : Cursor) : Prop where
  decoder (k : Nat) : (c.after k).decoder = c.decoder
  misses (k : Nat) : ¬(c.after k).Misses
  image (k : Nat) (e : ImageError) : c.item k ≠ some (.error (.image e))

/-- A walk that meets no miss up to some place has the same code there. -/
theorem sameCode_after {k : Nat} (h : ∀ i < k, ¬(c.after i).Misses) : SameCode c (c.after k) := by
  induction k with
  | zero => exact ⟨rfl, rfl⟩
  | succ k ih =>
      obtain ⟨hdecoder, hrebuilt⟩ := ih fun i hi => h i (Nat.lt_succ_of_lt hi)
      obtain ⟨⟨hnext, hmark⟩, -⟩ := next_of_not_misses (h k (Nat.lt_succ_self k))
      exact ⟨hnext.trans hdecoder, hmark.trans hrebuilt⟩

theorem neverAsks_of_not_misses (h : ∀ k, ¬(c.after k).Misses) : NeverAsks c where
  decoder _ := (sameCode_after fun i _ => h i).1
  misses := h
  image k e := (next_of_not_misses (h k)).2 e

/-- A walk that has asked once does not ask again. -/
theorem neverAsks_of_rebuilt (h : c.rebuilt = true) : NeverAsks c := by
  refine neverAsks_of_not_misses fun k => ?_
  -- The mark stays up to each place, so there is no miss there either.
  have hmark : (c.after k).rebuilt = true := by
    induction k with
    | zero => exact h
    | succ k ih => exact (next_of_not_misses (not_misses_of_rebuilt ih)).1.2.trans ih
  exact not_misses_of_rebuilt hmark

/-- A walk that has not asked reports no miss before it does. -/
theorem misses_of_noMap {k : Nat} {missing : UInt64} (h : c.rebuilt = false)
    (hitem : c.item k = some (.error (.noMap missing))) : ∃ i ≤ k, (c.after i).Misses := by
  by_contra hnone
  have hbefore : ∀ i < k + 1, ¬(c.after i).Misses := fun i hi hmiss =>
    hnone ⟨i, Nat.le_of_lt_succ hi, hmiss⟩
  have hmark : (c.after (k + 1)).rebuilt = true := (next_noMap hitem).1
  rw [(sameCode_after hbefore).2, h] at hmark
  cases hmark

/-- The first miss is where the source is asked. -/
theorem asksAt_of_misses (hc : c.rebuilt = false) (hmiss : (c.after j).Misses)
    (hfirst : ∀ i < j, ¬(c.after i).Misses) : AsksAt c j := by
  obtain ⟨hsame, -⟩ := sameCode_after hfirst
  obtain ⟨hnext, hmark, hitem⟩ := next_of_misses hmiss
  have hbehind : NeverAsks (c.after (j + 1)) := neverAsks_of_rebuilt hmark
  refine ⟨hmiss, fun k => ?_, fun k missing hnone => ?_, fun k e => ?_⟩
  · by_cases hk : k ≤ j
    · rw [if_pos hk]
      exact (sameCode_after fun i hi => hfirst i (Nat.lt_of_lt_of_le hi hk)).1
    · obtain ⟨m, rfl⟩ := Nat.exists_eq_add_of_lt (Nat.lt_of_not_le hk)
      rw [if_neg hk, Nat.add_right_comm, after_add, hbehind.decoder, ← hsame]
      exact hnext
  · obtain ⟨i, hi, hmiss'⟩ := misses_of_noMap hc hnone
    by_contra hlt
    exact hfirst i (by omega) hmiss'
  · rcases Nat.lt_trichotomy k j with hk | rfl | hk
    · have hne := (next_of_not_misses (hfirst k hk)).2 e
      exact ⟨fun h => absurd h hne, fun h => absurd h.1 (Nat.ne_of_lt hk)⟩
    · have hfail : c.item k = some (.error (.image e)) ↔ _ := hitem e
      rw [hfail, hsame]
      simp
    · obtain ⟨m, rfl⟩ := Nat.exists_eq_add_of_lt hk
      have hne := hbehind.image m e
      rw [← item_add, Nat.add_right_comm] at hne
      exact ⟨fun h => absurd h hne, fun h => absurd h.1 (by omega)⟩

/-- A walk that has not asked asks at one place, or nowhere. -/
theorem neverAsks_or_asksAt (hc : c.rebuilt = false) : NeverAsks c ∨ ∃ j, AsksAt c j := by
  by_cases hmiss : ∃ j, (c.after j).Misses
  · right
    classical
    exact ⟨Nat.find hmiss, asksAt_of_misses hc (Nat.find_spec hmiss) fun i => Nat.find_min hmiss⟩
  · left
    exact neverAsks_of_not_misses fun k hk => hmiss ⟨k, hk⟩

end Cursor

/-! ## A whole window -/

/-- A decoder that whoever takes items from a stream may be left with. -/
inductive ItemStream.Leaves {δ : Type} : ItemStream δ → δ → Prop
  | done (left : δ) : Leaves (.done left) left
  | here (i : Item) (left : δ) (rest : Unit → ItemStream δ) : Leaves (.item i left rest) left
  | there {i : Item} {left left' : δ} {rest : Unit → ItemStream δ} (h : Leaves (rest ()) left') :
      Leaves (.item i left rest) left'

/-- The stream leaves the decoders of the states that the walk goes through. -/
theorem Cursor.exists_of_leaves {n : Nat} {c : Cursor} {left : Decoder}
    (h : (itemsWithin n c).Leaves left) : ∃ k, left = (c.after k).decoder := by
  induction n generalizing c with
  | zero =>
      cases h
      exact ⟨0, rfl⟩
  | succ n ih =>
      unfold itemsWithin at h
      rcases hn : c.next with ⟨_ | i, d⟩ <;> rw [hn] at h
      · cases h
        exact ⟨1, (congrArg (·.2.decoder) hn).symm⟩
      · cases h with
        | here => exact ⟨1, (congrArg (·.2.decoder) hn).symm⟩
        | there h =>
            obtain ⟨k, rfl⟩ := ih h
            refine ⟨k + 1, ?_⟩
            rw [after_succ, hn]

theorem Decoder.openWindow_eq (d : Decoder) (window : List UInt8) (rebuilt : Bool) :
    d.openWindow window rebuilt =
      if window = [] then .refused .endOfStream d
      else .opened (Cursor.start d window rebuilt).items := by
  cases window <;> rfl

/-- **The source of images is asked at most once for a window, and misses are reported only behind
that.**  Whatever the source answers each time, and whatever the window is:

Decoding the window anew asks once.  If the source fails, its error is the answer, and the old image
stays.  Otherwise the decoder has the new image, also if the window has no bytes and is refused, and
the walk does not ask again.

Decoding the window with the image at hand does not ask, and the walk asks at one item at the most.
There an address without code has been looked at.  No miss is reported before, and if the source
fails, then its error is this item, it is reported nowhere else, and the old image stays. -/
theorem asked_once (d : Decoder) (window : List UInt8) :
    let c := Cursor.start d window false
    (match d.source d.builds with
      | .error e =>
        TraceDecoder.restart d window = .refused (.image e) { d with builds := d.builds + 1 }
      | .ok image =>
        let new : Decoder := { d with builds := d.builds + 1, image := some image }
        let anew := Cursor.start new window true
        TraceDecoder.restart d window =
          (if window = [] then .refused .endOfStream new else .opened anew.items) ∧
        anew.NeverAsks ∧ ∀ left, anew.items.Leaves left → left = new) ∧
    TraceDecoder.resync d window =
      (if window = [] then .refused .endOfStream d else .opened c.items) ∧
    ((c.NeverAsks ∧ (∀ k missing, c.item k ≠ some (.error (.noMap missing))) ∧
        ∀ left, c.items.Leaves left → left = d) ∨
      ∃ j, c.AsksAt j ∧ ∀ left, c.items.Leaves left → left = d ∨ left = d.rebuild.2) ∧
    d.rebuild.2 = { d with
      builds := d.builds + 1
      image := match d.source d.builds with
        | .ok image => some image
        | .error _ => d.image } := by
  intro c
  refine ⟨?_, d.openWindow_eq window false, ?_, d.rebuild_snd⟩
  · cases hsource : d.source d.builds with
    | error e => simp only [TraceDecoder.restart, Decoder.rebuild_of_error hsource]
    | ok image =>
        let new : Decoder := { d with builds := d.builds + 1, image := some image }
        have hasks : (Cursor.start new window true).NeverAsks := Cursor.neverAsks_of_rebuilt rfl
        have hopen : TraceDecoder.restart d window = new.openWindow window true := by
          simp only [TraceDecoder.restart, Decoder.rebuild_of_ok hsource, new]
        refine ⟨hopen.trans (new.openWindow_eq window true), hasks, fun left hleft => ?_⟩
        obtain ⟨k, rfl⟩ := Cursor.exists_of_leaves hleft
        exact hasks.decoder k
  · rcases Cursor.neverAsks_or_asksAt (c := c) rfl with hasks | ⟨j, hasks⟩
    · left
      refine ⟨hasks, fun k missing hmiss => ?_, fun left hleft => ?_⟩
      · obtain ⟨i, -, hi⟩ := Cursor.misses_of_noMap rfl hmiss
        exact hasks.misses i hi
      · obtain ⟨k, rfl⟩ := Cursor.exists_of_leaves hleft
        exact hasks.decoder k
    · right
      refine ⟨j, hasks, fun left hleft => ?_⟩
      obtain ⟨k, rfl⟩ := Cursor.exists_of_leaves hleft
      rw [hasks.decoder k]
      split
      · exact .inl rfl
      · exact .inr rfl

end BranchWatch
