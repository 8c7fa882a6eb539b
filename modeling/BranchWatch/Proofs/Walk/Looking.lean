import BranchWatch.Proofs.Walk.Progress
import BranchWatch.Proofs.Walk.Simulation

/-!
# Where the walk looks

Asking for an item looks at packets: at those that it reads, at the one that it cannot read, and at
those ahead that would report an asynchronous event.  Each function of the walk has its list of the
places where it looks, told along the function itself (`Cursor.eventLooks` up to
`Cursor.stepLooks`).  A part of a step looks wherever the parts look that it uses
(`Cursor.Part.looks_of_uses`).

At some places the bytes of the window do not suffice (`PacketReader.isCut`).  A call looks past the
end of the window if it looks at such a place, or if it searches for a synchronisation packet and
finds none (`Cursor.looksPast`).
-/

namespace BranchWatch

namespace PacketReader

/-- The buffer ends here, or inside of the packet in front. -/
def isCut (r : PacketReader) : Bool :=
  match r.peek with
  | .ok none => true
  | .ok (some _) => false
  | .error e => e.fault = .truncated

/-- The places at which `firstFlowPacket` looks. -/
def flowLooks (r : PacketReader) : List PacketReader :=
  r :: match _h : r.peek with
    | .ok (some (p, n)) => if p.isTiming then (r.advance n).flowLooks else []
    | _ => []
termination_by r.rest.length
decreasing_by exact advance_rest_lt ‹_›

theorem flowLooks_of_packet {r : PacketReader} {p : Packet} {n : Nat}
    (h : r.peek = .ok (some (p, n))) :
    r.flowLooks = r :: if p.isTiming then (r.advance n).flowLooks else [] := by
  conv => lhs; unfold flowLooks
  split
  next h' => rw [h] at h'; cases h'; rfl
  next hne => exact absurd h (hne p n)

end PacketReader

namespace Cursor

variable {c : Cursor}

/-- The places at which `nextEvent` looks. -/
def eventLooks (c : Cursor) : List PacketReader :=
  c.reader :: match _h : c.reader.peek with
    | .ok (some (p, n)) =>
      match c.flow.event c.inPsb c.reader.offset p with
      | .ok none => eventLooks (c.consume p n)
      | _ => []
    | _ => []
termination_by c.reader.rest.length
decreasing_by exact PacketReader.advance_rest_lt ‹_›

theorem eventLooks_of_packet {p : Packet} {n : Nat} (h : c.reader.peek = .ok (some (p, n))) :
    c.eventLooks = c.reader :: match c.flow.event c.inPsb c.reader.offset p with
      | .ok none => eventLooks (c.consume p n)
      | _ => [] := by
  conv => lhs; unfold eventLooks
  split
  next h' => rw [h] at h'; cases h'; rfl
  next hne => exact absurd h (hne p n)

/-- The places at which `nextBranch` looks. -/
def branchLooks (c : Cursor) : List PacketReader :=
  c.eventLooks ++ match _h : nextEvent c with
    | .ok (some (.status _)) d => branchLooks d
    | _ => []
termination_by c.reader.rest.length
decreasing_by exact nextEvent_lt ‹_›

theorem branchLooks_eq (c : Cursor) :
    c.branchLooks = c.eventLooks ++ match nextEvent c with
      | .ok (some (.status _)) d => branchLooks d
      | _ => [] := by
  conv => lhs; unfold branchLooks
  split
  next h => rw [h]
  next hne =>
    split
    next ip d h => exact absurd h (hne ip d)
    next => rfl

/-- The places at which `acquire` looks. -/
def acquireLooks (c : Cursor) : List PacketReader :=
  c.eventLooks ++ match _h : nextEvent c with
    | .ok (some event) d =>
      match resumption? event with
      | some _ => []
      | none =>
        match event with
        | .tnt => acquireLooks { d with flow := { d.flow with tnt := [] } }
        | _ => acquireLooks d
    | _ => []
termination_by c.reader.rest.length
decreasing_by all_goals exact nextEvent_lt ‹_›

theorem acquireLooks_eq (c : Cursor) :
    c.acquireLooks = c.eventLooks ++ match nextEvent c with
      | .ok (some event) d =>
        match resumption? event with
        | some _ => []
        | none =>
          match event with
          | .tnt => acquireLooks (d.withTnt [])
          | _ => acquireLooks d
      | _ => [] := by
  conv => lhs; unfold acquireLooks
  split
  next event d h =>
    conv => rhs; rw [h]
    simp only
    cases hres : resumption? event with
    | some ip => rfl
    | none => cases event <;> rfl
  next hne =>
    split
    next event d h => exact absurd h (hne event d)
    next => rfl

/-- The places at which `asyncEvent` looks: ahead, and if there is an event at its two packets. -/
def asyncLooks (c : Cursor) (ip : UInt64) : List PacketReader :=
  if c.flow.tnt.isEmpty then
    c.reader.flowLooks ++ match c.asyncAhead ip with
      | .ok true =>
        c.eventLooks ++ match nextEvent c with
          | .ok (some _) d => d.eventLooks
          | _ => []
      | _ => []
  else []

/-- The places at which `locate` looks. -/
def locateLooks (c : Cursor) : List PacketReader :=
  match c.flow.ip with
  | none =>
    c.acquireLooks ++ match _h : acquire c with
      | .ok true d => locateLooks d
      | _ => []
  | some ip =>
    c.asyncLooks ip ++ match _h : asyncEvent c ip with
      | .ok true d => locateLooks d
      | _ => []
termination_by c.reader.rest.length
decreasing_by
  · exact acquire_lt ‹_›
  · exact asyncEvent_lt ‹_›

theorem locateLooks_none (h : c.flow.ip = none) :
    c.locateLooks = c.acquireLooks ++ match acquire c with
      | .ok true d => locateLooks d
      | _ => [] := by
  conv => lhs; unfold locateLooks
  simp only [h]
  rcases acquire c with ⟨_ | _, d⟩ | ⟨e, d⟩ <;> rfl

theorem locateLooks_some {ip : UInt64} (h : c.flow.ip = some ip) :
    c.locateLooks = c.asyncLooks ip ++ match asyncEvent c ip with
      | .ok true d => locateLooks d
      | _ => [] := by
  conv => lhs; unfold locateLooks
  simp only [h]
  rcases asyncEvent c ip with ⟨_ | _, d⟩ | ⟨e, d⟩ <;> rfl

/-- The places at which a part of a step looks. -/
def Part.looks : Part → Cursor → List PacketReader
  | .event, c => c.eventLooks
  | .branch, c => c.branchLooks
  | .acquire, c => c.acquireLooks
  | .async ip, c => c.asyncLooks ip
  | .locate, c => c.locateLooks

theorem asyncLooks_nil (htnt : c.flow.tnt = []) (ip : UInt64) :
    c.asyncLooks ip = c.reader.flowLooks ++ match c.asyncAhead ip with
      | .ok true =>
        c.eventLooks ++ match nextEvent c with
          | .ok (some _) d => d.eventLooks
          | _ => []
      | _ => [] := by
  unfold asyncLooks
  rw [htnt]
  rfl

/-- A part looks wherever the parts look that it uses. -/
theorem Part.looks_of_uses {a b : Part} {c d : Cursor} (h : Uses a c b d) :
    b.looks d ⊆ a.looks c := by
  cases h with
  | branchEvent =>
      show c.eventLooks ⊆ c.branchLooks
      rw [branchLooks_eq]
      exact List.subset_append_left _ _
  | branchAgain h =>
      show d.branchLooks ⊆ c.branchLooks
      rw [branchLooks_eq c, h]
      exact List.subset_append_right _ _
  | acquireEvent =>
      show c.eventLooks ⊆ c.acquireLooks
      rw [acquireLooks_eq]
      exact List.subset_append_left _ _
  | @acquireTnt _ d h =>
      show (d.withTnt []).acquireLooks ⊆ c.acquireLooks
      rw [acquireLooks_eq c, h]
      exact List.subset_append_right _ _
  | @acquireAgain _ _ event h hres htnt =>
      show d.acquireLooks ⊆ c.acquireLooks
      rw [acquireLooks_eq c, h]
      simp only [hres]
      cases event with
      | tnt => exact absurd rfl htnt
      | ip kind ip => exact List.subset_append_right _ _
      | status ip => exact List.subset_append_right _ _
  | @asyncFirst _ ip htnt hahead =>
      show c.eventLooks ⊆ c.asyncLooks ip
      rw [asyncLooks_nil htnt, hahead]
      exact List.Subset.trans (List.subset_append_left _ _) (List.subset_append_right _ _)
  | @asyncSecond _ _ ip event htnt hahead h =>
      show d.eventLooks ⊆ c.asyncLooks ip
      rw [asyncLooks_nil htnt, hahead, h]
      exact List.Subset.trans (List.subset_append_right _ _) (List.subset_append_right _ _)
  | locateAcquire hip =>
      show c.acquireLooks ⊆ c.locateLooks
      rw [locateLooks_none hip]
      exact List.subset_append_left _ _
  | @locateAsync _ ip hip =>
      show c.asyncLooks ip ⊆ c.locateLooks
      rw [locateLooks_some hip]
      exact List.subset_append_left _ _
  | acquired hip h =>
      show d.locateLooks ⊆ c.locateLooks
      rw [locateLooks_none hip, h]
      exact List.subset_append_right _ _
  | handled hip h =>
      show d.locateLooks ⊆ c.locateLooks
      rw [locateLooks_some hip, h]
      exact List.subset_append_right _ _

/-- The places at which a step looks: for where the last instruction leads, and for the next
address. -/
def stepLooks (c : Cursor) : List PacketReader :=
  (match c.asked? with
    | some d => d.branchLooks
    | none => []) ++
  match resolve c with
    | .ok true d => d.locateLooks
    | _ => []

/-- Going on after an error, the walk searches for a synchronisation packet and finds none. -/
def searchFails (c : Cursor) : DecodeError → Bool
  | .overflow _ => false
  | e => (findPsb (c.failing e + 1) (c.reader.buffer.drop (c.failing e + 1))).isNone

theorem searchFails_of_ne {e : DecodeError} (he : ∀ offset, e ≠ .overflow offset) :
    c.searchFails e =
      (findPsb (c.failing e + 1) (c.reader.buffer.drop (c.failing e + 1))).isNone := by
  cases e with
  | overflow offset => exact absurd rfl (he offset)
  | _ => rfl

/-- Asking for the next item looks past the end of the window. -/
def looksPast (c : Cursor) : Bool :=
  !c.done && (c.stepLooks.any (·.isCut) ||
    match step c with
    | .ok _ _ => false
    | .error e d => d.searchFails e)

end Cursor

end BranchWatch
