import BranchWatch.Image.Basic
import BranchWatch.Instruction.Decode
import BranchWatch.Walk.Error

/-!
# Decoders of trace windows

A decoder turns a window of the trace into instructions.  It gives them one by
one (`ItemStream`), and its own state changes as they are taken, because it
may have to look at the code of the process again on the way.  Whoever stops
in the middle leaves the decoder as it is at that place.

`Decoder` is the state of the decoder that follows packets through an image.
The images come from a source that may answer differently each time it is
asked: `source k` is the answer to the request number `k`.  The instructions in
them are read by a disassembler, whatever that says of their bytes.
-/

namespace BranchWatch

/-- An instruction, or an error that the decoder recovers from. -/
abbrev Item := Except DecodeError InstructionRecord

/-- The items of a window, each with the decoder as it is when the item has
been taken. -/
inductive ItemStream (δ : Type) where
  /-- No more items. -/
  | done (left : δ)
  | item (i : Item) (left : δ) (rest : Unit → ItemStream δ)

namespace ItemStream

variable {δ : Type}

/-- All items. -/
def toList : ItemStream δ → List Item
  | done _ => []
  | item i _ rest => i :: (rest ()).toList

/-- The items of a list; the decoder does not change. -/
def ofList (left : δ) : List Item → ItemStream δ
  | [] => done left
  | i :: rest => item i left fun _ => ofList left rest

/-- The first `n` items, and the decoder as it is then. -/
def take (n : Nat) (stream : ItemStream δ) : Array Item × δ :=
  go n #[] stream
where
  go : Nat → Array Item → ItemStream δ → Array Item × δ
    | _, taken, done left => (taken, left)
    | 0, taken, item _ left _ => (taken, left)
    | 1, taken, item i left _ => (taken.push i, left)
    | n + 2, taken, item i _ rest => go (n + 1) (taken.push i) (rest ())

end ItemStream

/-- What a decoder says to a window. -/
inductive Opening (δ : Type) where
  /-- The window cannot be decoded at all. -/
  | refused (e : DecodeError) (left : δ)
  | opened (items : ItemStream δ)

/-- Decoders of trace windows. -/
class TraceDecoder (δ : Type) where
  /-- Looks at the code of the process anew, then decodes the window. -/
  restart : δ → List UInt8 → Opening δ
  /-- Decodes the window with what is known about the code. -/
  resync : δ → List UInt8 → Opening δ

/-- The instruction at the front of the bytes at an address.  An instruction for
which there are too few bytes is missing from behind them on. -/
def Disassembler.decode (disassembler : Disassembler) (mode : ExecMode) (ip : UInt64)
    (bytes : List UInt8) : Except DecodeError (InstructionRecord × Flow) :=
  match disassembler mode ip bytes with
  | .instruction i =>
    .ok (.ofParts ip (bytes.take i.length) mode i.flow.cls, i.flow)
  | .noMoreBytes => .error (.noMap (ip + bytes.length.toUInt64))
  | .invalid => .error (.badInstruction ip)

theorem Disassembler.decode_eq_ok {disassembler : Disassembler} {mode : ExecMode} {ip : UInt64}
    {bytes : List UInt8} {r : InstructionRecord} {flow : Flow}
    (h : disassembler.decode mode ip bytes = .ok (r, flow)) :
    ∃ i, disassembler mode ip bytes = .instruction i ∧ flow = i.flow ∧
      r = .ofParts ip (bytes.take i.length) mode flow.cls := by
  unfold decode at h
  split at h
  next i hi => cases h; exact ⟨i, hi, rfl, rfl⟩
  next => cases h
  next => cases h

theorem Disassembler.decode_eq_error {disassembler : Disassembler} {mode : ExecMode} {ip : UInt64}
    {bytes : List UInt8} {e : DecodeError} (h : disassembler.decode mode ip bytes = .error e) :
    disassembler mode ip bytes = .noMoreBytes ∧ e = .noMap (ip + bytes.length.toUInt64) ∨
      disassembler mode ip bytes = .invalid ∧ e = .badInstruction ip := by
  unfold decode at h
  split at h
  next => cases h
  next hcut => cases h; exact .inl ⟨hcut, rfl⟩
  next hinvalid => cases h; exact .inr ⟨hinvalid, rfl⟩

/-- The decoder that follows packets through an image of the code. -/
structure Decoder where
  /-- The answers of the source of images. -/
  source : Nat → Except ImageError Image
  /-- Reads the instructions. -/
  disassembler : Disassembler := .classic
  /-- How often the source has been asked. -/
  builds : Nat := 0
  image : Option Image := none

/-- Asks for the image again.  After a failure the old image stays. -/
def Decoder.rebuild (d : Decoder) : Except DecodeError Unit × Decoder :=
  match d.source d.builds with
  | .ok image => (.ok (), { d with builds := d.builds + 1, image := some image })
  | .error e => (.error (.image e), { d with builds := d.builds + 1 })

end BranchWatch
