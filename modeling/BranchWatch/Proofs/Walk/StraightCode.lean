import BranchWatch.Proofs.Image.Lookup
import BranchWatch.Proofs.Walk.Execution

/-!
# Straight code

Instructions that do nothing, as many as one likes, and a conditional jump behind them, read by the
opcode tables.  The way through them is an execution about which nothing is said
(`execution_straightCode`), so the trace of such an execution ends where tracing starts.
-/

namespace BranchWatch

/-- An instruction that does nothing, whatever follows it. -/
theorem Disassembler.classic_nop (ip : UInt64) (more : List UInt8) :
    ∃ i, classic .bits64 ip (0x90 :: more) = .instruction i ∧ i.length = 1 ∧ i.flow = .next := by
  have hopcode : classic .bits64 ip (0x90 :: more) = Instruction.afterOpcode .bits64 {} ip
      ((more.take 14).length + 1) (more.take 14) (.plain {}) := rfl
  have himmediate : ({} : Form).immediate.size .bits64 {} = 0 := rfl
  rw [hopcode]
  unfold Instruction.afterOpcode Instruction.finish
  simp only
  rw [himmediate, if_neg (Nat.not_lt_zero _), Nat.add_sub_cancel_left]
  exact ⟨_, rfl, rfl, rfl⟩

/-- An instruction that does nothing. -/
def nopAt (ip : UInt64) : InstructionRecord := .ofParts ip [0x90] .bits64 .ordinary

/-- A conditional jump to the instruction behind it. -/
def jumpAt (ip : UInt64) : InstructionRecord := .ofParts ip [0x74, 0x00] .bits64 .conditionalJump

/-- The path through `n` instructions that do nothing, up to a conditional jump. -/
def straightPath (ip : UInt64) : Nat → List InstructionRecord
  | 0 => [jumpAt ip]
  | n + 1 => nopAt ip :: straightPath (ip + 1) n

theorem length_straightPath (ip : UInt64) (n : Nat) : (straightPath ip n).length = n + 1 := by
  induction n generalizing ip with
  | zero => rfl
  | succ n ih => exact congrArg (· + 1) (ih (ip + 1))

theorem straightPath_head (ip : UInt64) (n : Nat) :
    ∃ r rest, straightPath ip n = r :: rest ∧ r.ip = ip := by
  cases n with
  | zero => exact ⟨_, _, rfl, rfl⟩
  | succ n => exact ⟨_, _, rfl, rfl⟩

/-- Nothing is said on a straight path. -/
theorem execution_straightPath {disassembler : Disassembler} {image : Image} {ip : UInt64} {n : Nat}
    (hnop : ∀ j < n, image.instruction? disassembler (ip + j.toUInt64) =
      some (nopAt (ip + j.toUInt64), .next))
    (hjump : ∃ dest, image.instruction? disassembler (ip + n.toUInt64) =
      some (jumpAt (ip + n.toUInt64), .conditional dest)) (stack : List UInt64) (i : Nat) :
    Execution disassembler image stack i (straightPath ip n) [] := by
  induction n generalizing ip i with
  | zero =>
      obtain ⟨dest, hjump⟩ := hjump
      rw [show ip + (0 : Nat).toUInt64 = ip from UInt64.add_zero ip] at hjump
      exact .last hjump rfl
  | succ n ih =>
      -- The rest of the path is the path from the next address on.
      have hshift (j : Nat) : ip + (j + 1).toUInt64 = ip + 1 + j.toUInt64 := by
        have hone : (j + 1).toUInt64 = j.toUInt64 + 1 := UInt64.ofNat_add j 1
        rw [hone, UInt64.add_comm j.toUInt64, UInt64.add_assoc]
      have hfirst := hnop 0 (Nat.succ_pos n)
      rw [show ip + (0 : Nat).toUInt64 = ip from UInt64.add_zero ip] at hfirst
      have hrest : Execution disassembler image stack (i + 1) (straightPath (ip + 1) n) [] := by
        refine ih (fun j hj => ?_) (hshift n ▸ hjump) (i + 1)
        rw [← hshift j]
        exact hnop (j + 1) (Nat.succ_lt_succ hj)
      obtain ⟨r, rest, hpath, hr⟩ := straightPath_head (ip + 1) n
      rw [straightPath, hpath]
      rw [hpath] at hrest
      have hleads : Leads stack (nopAt ip) .next r.ip none stack := hr ▸ .next
      exact .step hfirst hleads hrest

/-- The bytes of `n` instructions that do nothing and a conditional jump. -/
def straightBytes (n : Nat) : List UInt8 := List.replicate n 0x90 ++ [0x74, 0x00]

theorem length_straightBytes (n : Nat) : (straightBytes n).length = n + 2 := by
  rw [straightBytes, List.length_append, List.length_replicate]
  rfl

theorem drop_straightBytes {j n : Nat} (hj : j ≤ n) :
    (straightBytes n).drop j = straightBytes (n - j) := by
  rw [straightBytes, List.drop_append_of_le_length (by simpa using hj), List.drop_replicate]
  rfl

/-- A section of nothing but these bytes. -/
def straightSection (n : Nat) (hn : n < Nat.pow 2 62) : Section where
  start := 0x1000
  bytes := (straightBytes n).toArray
  bytes_pos := by simp [length_straightBytes]
  fits := by
    have hlt : n < 2 ^ 62 := hn
    have hbase : (0x1000 : UInt64).toNat = 0x1000 := rfl
    have hsize : UInt64.size = 2 ^ 64 := rfl
    rw [List.size_toArray, length_straightBytes, hbase, hsize]
    omega

def straightCode (n : Nat) (hn : n < Nat.pow 2 62) : Image where
  sections := [straightSection n hn]
  pairwise := List.pairwise_singleton _ _

theorem stop_straightSection (n : Nat) (hn : n < Nat.pow 2 62) :
    (straightSection n hn).stop = 0x1000 + (n + 2) := by
  rw [← length_straightBytes n]
  rfl

variable {j n : Nat}

theorem toNat_straight (hj : j ≤ n) (hn : n < Nat.pow 2 62) :
    (0x1000 + j.toUInt64 : UInt64).toNat = 0x1000 + j := by
  have hlt : j < 2 ^ 62 := Nat.lt_of_le_of_lt hj hn
  have hoffset : j.toUInt64.toNat = j := UInt64.toNat_ofNat_of_lt' (Nat.lt_trans hlt (by decide))
  have hbase : (0x1000 : UInt64).toNat = 0x1000 := rfl
  rw [UInt64.toNat_add, hoffset, hbase]
  omega

theorem start_straightSection (n : Nat) (hn : n < Nat.pow 2 62) :
    (straightSection n hn).start.toNat = 0x1000 :=
  rfl

theorem find?_straightCode (hj : j ≤ n) (hn : n < Nat.pow 2 62) :
    (straightCode n hn).find? (0x1000 + j.toUInt64) = some (straightSection n hn) := by
  have hcovers : (straightSection n hn).covers (0x1000 + j.toUInt64) = true := by
    rw [Section.covers_iff, toNat_straight hj hn, start_straightSection, stop_straightSection]
    omega
  exact Image.find?_eq_some_iff.2 ⟨List.mem_singleton_self _, hcovers⟩

/-- From an address on there is less of the same. -/
theorem read_straightCode (hj : j ≤ n) (hn : n < Nat.pow 2 62) (count : Nat) :
    (straightCode n hn).read (0x1000 + j.toUInt64) count =
      some ((straightBytes (n - j)).take count) := by
  have hoffset : (0x1000 + j.toUInt64 : UInt64).toNat - (straightSection n hn).start.toNat = j := by
    rw [toNat_straight hj hn, start_straightSection]
    omega
  have hbytes : (straightSection n hn).bytes.toList = straightBytes n := rfl
  unfold Image.read
  rw [find?_straightCode hj hn, Option.map_some, Section.read_eq, hoffset, hbytes,
    drop_straightBytes hj]

theorem instruction?_nop (hj : j < n) (hn : n < Nat.pow 2 62) :
    (straightCode n hn).instruction? .classic (0x1000 + j.toUInt64) =
      some (nopAt (0x1000 + j.toUInt64), .next) := by
  have hread := read_straightCode (Nat.le_of_lt hj) hn maxInstructionLength
  obtain ⟨m, hm⟩ : ∃ m, n - j = m + 1 := Nat.exists_eq_add_one.2 (by omega)
  rw [hm, straightBytes, List.replicate_succ, List.cons_append] at hread
  obtain ⟨i, hi, hlength, hflow⟩ := Disassembler.classic_nop (0x1000 + j.toUInt64)
    ((List.replicate m 0x90 ++ [0x74, 0x00] : List UInt8).take 14)
  unfold Image.instruction? Disassembler.decode
  rw [hread, Option.bind_some, maxInstructionLength, List.take_succ_cons, hi]
  simp only [hlength, hflow]
  rfl

theorem instruction?_jump (hn : n < Nat.pow 2 62) :
    ∃ dest, (straightCode n hn).instruction? .classic (0x1000 + n.toUInt64) =
      some (jumpAt (0x1000 + n.toUInt64), .conditional dest) := by
  have hread := read_straightCode (Nat.le_refl n) hn maxInstructionLength
  rw [Nat.sub_self] at hread
  unfold Image.instruction?
  rw [hread]
  exact ⟨_, rfl⟩

/-- The way through straight code is an execution, however long it is. -/
theorem execution_straightCode (hn : n < Nat.pow 2 62) :
    Execution .classic (straightCode n hn) [] 0 (straightPath 0x1000 n) [] :=
  execution_straightPath (fun _ hj => instruction?_nop hj hn) (instruction?_jump hn) [] 0

end BranchWatch
