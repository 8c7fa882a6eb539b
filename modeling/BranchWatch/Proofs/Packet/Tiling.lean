import BranchWatch.Proofs.Packet.Format

/-!
# A buffer as a row of packets

Asking a reader for one packet after the other cuts its buffer into packets.  `Tiling` says what
such a cut is without the reader: forms of packets that stand in the buffer, each where the one
before it ends.  No byte of the stretch lies in two of them or in none
(`Tiling.existsUnique_covers`), and there are no more of them than bytes (`Tiling.add_length_le`).

A reader in front of a tiling gives its packets (`Tiling.items_eq`) and moves from one to the next
(`Tiling.take`).  From every place on there is a tiling up to the end of the buffer or up to a fault
(`exists_tiling`).  The stream of items is what asking again and again gives (`item_eq`), and behind
it the reader stays where it is (`after_eq_drained`).

A reader that starts beyond the end of its buffer gives nothing either, but it stays beyond the end.
-/

namespace BranchWatch

namespace PacketReader

variable {r : PacketReader}

/-- The place after `k` packets have been asked for. -/
def after (r : PacketReader) : Nat → PacketReader
  | 0 => r
  | k + 1 => r.next.2.after k

/-- The answer number `k`, counted from 0; `none` behind the last one. -/
def item (r : PacketReader) (k : Nat) : Option (Except PacketError (Nat × Packet)) :=
  (r.after k).next.1

theorem items_of_next_eq_none {s : PacketReader} (h : r.next = (none, s)) : r.items = [] := by
  rw [items_eq_next, h]

/-- The answers are the items, and behind these there are none. -/
theorem item_eq (r : PacketReader) (k : Nat) : r.item k = r.items[k]? := by
  induction k generalizing r with
  | zero =>
      rw [items_eq_next]
      show r.next.1 = _
      rcases r.next with ⟨_ | i, s⟩ <;> rfl
  | succ k ih =>
      show r.next.2.item k = _
      rw [ih]
      rcases hnext : r.next with ⟨_ | i, s⟩
      · obtain rfl := eq_of_next_eq_none hnext
        rw [items_of_next_eq_none hnext]
        rfl
      · rw [items_eq_next r, hnext]
        rfl

/-- Behind the items the reader stays where it is. -/
theorem after_eq_drained {k : Nat} (h : r.items.length ≤ k) : r.after k = r.drained := by
  induction k generalizing r with
  | zero =>
      have hnil : r.items = [] := List.eq_nil_of_length_eq_zero (Nat.le_zero.1 h)
      rw [items_eq_next] at hnil
      rw [drained_eq_next]
      rcases hnext : r.next with ⟨_ | i, s⟩
      · exact (eq_of_next_eq_none hnext).symm
      · rw [hnext] at hnil
        cases hnil
  | succ k ih =>
      show r.next.2.after k = _
      rcases hnext : r.next with ⟨_ | i, s⟩
      · obtain rfl := eq_of_next_eq_none hnext
        refine ih ?_
        rw [items_of_next_eq_none hnext]
        exact Nat.zero_le k
      · rw [items_eq_next, hnext] at h
        rw [drained_eq_next, hnext]
        exact ih (Nat.le_of_succ_le_succ h)

end PacketReader

/-! ## Packets in a row -/

/-- A packet in its place in a buffer. -/
structure Tile (buffer : List UInt8) where
  offset : Nat
  form : PacketForm
  /-- The bytes of the packet are in the buffer at this offset. -/
  stands : form.bytes <+: buffer.drop offset

namespace Tile

variable {buffer : List UInt8}

def length (t : Tile buffer) : Nat := t.form.bytes.length

/-- The offset behind the packet. -/
def stop (t : Tile buffer) : Nat := t.offset + t.length

/-- The byte at the offset `i` belongs to the packet. -/
def Covers (t : Tile buffer) (i : Nat) : Prop := t.offset ≤ i ∧ i < t.stop

/-- What a reader says of the packet. -/
def item (t : Tile buffer) : Except PacketError (Nat × Packet) := .ok (t.offset, t.form.packet)

theorem peek_mkAt (t : Tile buffer) :
    (PacketReader.mkAt buffer t.offset).peek = .ok (some (t.form.packet, t.length)) := by
  obtain ⟨more, hmore⟩ := t.stands
  rw [PacketReader.peek_eq, PacketReader.mkAt_rest, ← hmore, t.form.parse_append]
  rfl

/-- A reader gives the packet and then stands behind it. -/
theorem next_mkAt (t : Tile buffer) :
    (PacketReader.mkAt buffer t.offset).next = (some t.item, PacketReader.mkAt buffer t.stop) := by
  rw [PacketReader.next_of_packet t.peek_mkAt, PacketReader.advance_eq_seek]
  rfl

theorem bounds (t : Tile buffer) : t.offset < t.stop ∧ t.stop ≤ buffer.length := by
  obtain ⟨hpos, hle⟩ := PacketReader.offset_add_le_of_peek t.peek_mkAt
  exact ⟨Nat.lt_add_of_pos_right hpos, hle⟩

end Tile

/-- Packets in a row, from the first offset to the second one: each starts where the one before it
ends. -/
inductive Tiling {buffer : List UInt8} : Nat → List (Tile buffer) → Nat → Prop
  | nil (offset : Nat) : Tiling offset [] offset
  | cons {tiles : List (Tile buffer)} {stop : Nat} (t : Tile buffer)
      (rest : Tiling t.stop tiles stop) : Tiling t.offset (t :: tiles) stop

namespace Tiling

variable {buffer : List UInt8} {tiles : List (Tile buffer)} {start stop : Nat}

/-- Each packet takes at least one byte. -/
theorem add_length_le (h : Tiling start tiles stop) : start + tiles.length ≤ stop := by
  induction h with
  | nil offset => exact Nat.le_refl _
  | cons t _ ih =>
      have hlt := t.bounds.1
      rw [List.length_cons]
      omega

theorem stop_le (h : Tiling start tiles stop) (hstart : start ≤ buffer.length) :
    stop ≤ buffer.length := by
  induction h with
  | nil => exact hstart
  | cons t _ ih => exact ih t.bounds.2

theorem offset_le_of_mem (h : Tiling start tiles stop) {t : Tile buffer} (ht : t ∈ tiles) :
    start ≤ t.offset := by
  induction h with
  | nil => cases ht
  | cons u _ ih =>
      rcases List.mem_cons.1 ht with rfl | htail
      · exact Nat.le_refl _
      · exact Nat.le_trans (Nat.le_of_lt u.bounds.1) (ih htail)

/-- **No byte is left out, and none is taken twice.** -/
theorem existsUnique_covers (h : Tiling start tiles stop) {i : Nat} (hstart : start ≤ i)
    (hstop : i < stop) : ∃! t, t ∈ tiles ∧ t.Covers i := by
  induction h with
  | nil => omega
  | @cons tiles stop t rest ih =>
      by_cases hi : i < t.stop
      · refine ⟨t, ⟨List.mem_cons_self, hstart, hi⟩, ?_⟩
        rintro u ⟨hu, hcovers, -⟩
        rcases List.mem_cons.1 hu with rfl | htail
        · rfl
        · -- A packet further on starts behind the byte.
          have hle := rest.offset_le_of_mem htail
          omega
      · obtain ⟨u, ⟨hu, hcovers⟩, hunique⟩ := ih (Nat.le_of_not_lt hi) hstop
        refine ⟨u, ⟨List.mem_cons_of_mem t hu, hcovers⟩, ?_⟩
        rintro v ⟨hv, hcovers'⟩
        rcases List.mem_cons.1 hv with rfl | htail
        · exact absurd hcovers'.2 hi
        · exact hunique v ⟨htail, hcovers'⟩

/-- A reader gives the packets of the row, and then what lies behind it. -/
theorem items_eq (h : Tiling start tiles stop) :
    (PacketReader.mkAt buffer start).items =
      tiles.map Tile.item ++ (PacketReader.mkAt buffer stop).items := by
  induction h with
  | nil => rfl
  | cons t _ ih =>
      rw [PacketReader.items_eq_next, t.next_mkAt]
      exact congrArg (t.item :: ·) ih

/-- As many answers as there are packets lead the reader through the row. -/
theorem take (h : Tiling start tiles stop) {k : Nat} (hk : k ≤ tiles.length) :
    Tiling start (tiles.take k) ((PacketReader.mkAt buffer start).after k).offset := by
  induction h generalizing k with
  | nil offset =>
      obtain rfl := Nat.le_zero.1 hk
      exact .nil offset
  | cons t _ ih =>
      cases k with
      | zero => exact .nil t.offset
      | succ k =>
          have hrest := ih (Nat.le_of_succ_le_succ hk)
          rw [List.take_succ_cons, PacketReader.after, t.next_mkAt]
          exact .cons t hrest

end Tiling

namespace PacketReader

variable {r : PacketReader} {p : Packet} {n : Nat}

/-! ## Where a reader gets to -/

theorem length_le_of_peek_eq_none (h : r.peek = .ok none) : r.buffer.length ≤ r.offset := by
  have hrest := rest_of_peek_eq_none h
  rw [r.rest_eq] at hrest
  exact List.drop_eq_nil_iff.1 hrest

theorem offset_drained (h : r.offset ≤ r.buffer.length) :
    r.drained.offset = r.buffer.length := by
  fun_induction drained r with
  | case1 r hpeek => exact Nat.le_antisymm h (length_le_of_peek_eq_none hpeek)
  | case2 r p n hpeek ih => exact ih (offset_add_le_of_peek hpeek).2
  | case3 r e hpeek => rfl

/-- A packet that is read stands where it is read. -/
theorem exists_tile (h : r.peek = .ok (some (p, n))) :
    ∃ t : Tile r.buffer, t.offset = r.offset ∧ t.stop = r.offset + n := by
  have hparse := parse_of_peek h
  obtain ⟨form, -, hbytes⟩ := Packet.exists_form hparse
  have hlength : form.bytes.length = n := by
    rw [hbytes, List.length_take, Nat.min_eq_left (Packet.parse_length_le hparse)]
  have hstands : form.bytes <+: r.buffer.drop r.offset := by
    rw [hbytes, ← r.rest_eq]
    exact List.take_prefix _ _
  exact ⟨⟨r.offset, form, hstands⟩, rfl, congrArg (r.offset + ·) hlength⟩

/-- From every place on, packets stand in a row up to the end of the buffer or up to a fault. -/
theorem exists_tiling (r : PacketReader) (h : r.offset ≤ r.buffer.length) :
    ∃ (tiles : List (Tile r.buffer)) (stop : Nat) (failure : Option PacketFault),
      Tiling r.offset tiles stop ∧ (failure = none ↔ stop = r.buffer.length) ∧
      (r.seek stop).items = failure.toList.map fun fault => .error ⟨stop, fault⟩ := by
  fun_induction items r with
  | case1 r hpeek =>
      have hend := Nat.le_antisymm h (length_le_of_peek_eq_none hpeek)
      refine ⟨[], r.offset, none, .nil r.offset, iff_of_true rfl hend, ?_⟩
      rw [seek_offset]
      exact items_of_end hpeek
  | case2 r p n hpeek ih =>
      obtain ⟨tiles, stop, failure, htiling, hfailure, hitems⟩ := ih (offset_add_le_of_peek hpeek).2
      obtain ⟨t, hoffset, hstop⟩ := exists_tile hpeek
      have hrest : Tiling t.stop tiles stop := hstop ▸ htiling
      exact ⟨t :: tiles, stop, failure, hoffset ▸ .cons t hrest, hfailure, hitems⟩
  | case3 r e hpeek =>
      have hlt := offset_lt_of_peek_eq_error hpeek
      refine ⟨[], r.offset, some e.fault, .nil r.offset, iff_of_false nofun (Nat.ne_of_lt hlt), ?_⟩
      rw [seek_offset, items_of_error hpeek, ← offset_of_peek_eq_error hpeek]
      rfl

/-- **Asking for packets tiles the buffer.**  The answers are packets in a row from the start on, in
which each byte is taken once, and the reader always stands behind the packets that it has given.
Then one fault may come, with the offset where the row ends; without a fault the row ends with the
buffer.  There are no more answers than bytes.  Behind the last one no more come, and the reader
stands at the end of the buffer. -/
theorem items_tile (buffer : List UInt8) (start : Nat) (hstart : start ≤ buffer.length) :
    let r := mkAt buffer start
    ∃ (tiles : List (Tile buffer)) (stop : Nat) (failure : Option PacketFault),
      r.items = tiles.map Tile.item ++ (failure.toList.map fun fault => .error ⟨stop, fault⟩) ∧
      Tiling start tiles stop ∧ stop ≤ buffer.length ∧
      (∀ k ≤ tiles.length, Tiling start (tiles.take k) (r.after k).offset) ∧
      (∀ t ∈ tiles, (mkAt buffer t.offset).peek = .ok (some (t.form.packet, t.length))) ∧
      (∀ i, start ≤ i → i < stop → ∃! t, t ∈ tiles ∧ t.Covers i) ∧
      (failure = none ↔ stop = buffer.length) ∧
      r.items.length ≤ buffer.length - start ∧
      (∀ k, r.item k = r.items[k]?) ∧
      ∀ k ≥ r.items.length, r.item k = none ∧ (r.after k).offset = buffer.length := by
  intro r
  obtain ⟨tiles, stop, failure, htiling, hfailure, hrest⟩ := r.exists_tiling hstart
  have hitems : r.items = tiles.map Tile.item ++ _ := htiling.items_eq.trans (congrArg _ hrest)
  have hle : start + tiles.length ≤ stop := htiling.add_length_le
  have hstop : stop ≤ buffer.length := htiling.stop_le hstart
  refine ⟨tiles, stop, failure, hitems, htiling, hstop, fun k => htiling.take,
    fun t _ => t.peek_mkAt, fun i => htiling.existsUnique_covers, hfailure, ?_, r.item_eq,
    fun k hk => ⟨?_, ?_⟩⟩
  · rw [hitems, List.length_append, List.length_map, List.length_map]
    cases failure with
    | none =>
        show tiles.length + 0 ≤ _
        omega
    | some fault =>
        -- The row ends in front of the end of the buffer, so there is a byte for the fault.
        have hne : stop ≠ buffer.length := fun heq => Option.some_ne_none fault (hfailure.2 heq)
        show tiles.length + 1 ≤ _
        omega
  · rw [r.item_eq, List.getElem?_eq_none hk]
  · rw [after_eq_drained hk]
    exact offset_drained hstart

/-- Behind the start come a padding byte and a counter of three bytes, then an unknown opcode. -/
theorem items_tile_of_unknown_opcode :
    let buffer : List UInt8 := [0x47, 0x00, 0x07, 0x03, 0x02, 0x02, 0x99]
    1 ≤ buffer.length ∧
      (mkAt buffer 1).items =
        [.ok (1, .pad), .ok (2, .cyc), .error ⟨5, .unknownExtendedOpcode 0x99⟩] ∧
      ∀ k ≥ 3, (mkAt buffer 1).item k = none ∧ ((mkAt buffer 1).after k).offset = 7 := by
  intro buffer
  have hstart : 1 ≤ buffer.length := by decide
  have hitems : (mkAt buffer 1).items =
      [.ok (1, .pad), .ok (2, .cyc), .error ⟨5, .unknownExtendedOpcode 0x99⟩] := by
    rw [items_of_packet (p := .pad) (n := 1) rfl, items_of_packet (p := .cyc) (n := 3) rfl,
      items_of_error rfl]
    rfl
  obtain ⟨tiles, stop, failure, -, -, -, -, -, -, -, -, -, hend⟩ := items_tile buffer 1 hstart
  rw [hitems] at hend
  exact ⟨hstart, hitems, hend⟩

end PacketReader

end BranchWatch
