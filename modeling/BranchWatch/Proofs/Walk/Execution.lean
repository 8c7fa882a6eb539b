import BranchWatch.Proofs.Packet.Writing
import BranchWatch.Walk.Decoder
import BranchWatch.Walk.Flow

/-!
# Executions and their trace

What a processor does and what it says about it, told without the walk: `Execution` relates a path
through an image, whose instructions are as a disassembler has them, to the messages about it, one
for each instruction whose successor the code does not tell, and `Written` the messages to the
packets they are sent in.

The processor may group outcomes as it likes, may choose any form of address that fits, and may let
an outcome stand for a return, if the return goes back to the latest call that it remembers.
-/

namespace BranchWatch

/-- The address behind the instruction. -/
def InstructionRecord.fallThrough (r : InstructionRecord) : UInt64 := r.ip + r.size.toUInt64

/-- The code does not say where execution goes on. -/
def Flow.isOpen : Flow → Bool
  | next | jump _ | call _ => false
  | conditional _ | indirectJump | indirectCall | ret | far => true

/-- The instruction of 64-bit code that stands at an address, and where it may lead. -/
def Image.instruction? (image : Image) (disassembler : Disassembler) (ip : UInt64) :
    Option (InstructionRecord × Flow) :=
  (image.read ip maxInstructionLength).bind fun bytes =>
    (disassembler.decode .bits64 ip bytes).toOption

/-- What the processor says about an instruction. -/
inductive Message where
  | outcome (taken : Bool)
  | target (ip : UInt64)

/-- The calls that the processor remembers: not more than the decoder does. -/
def remember (stack : List UInt64) (address : UInt64) : List UInt64 :=
  (address :: stack).take returnDepth

/-- An instruction with a flow leads to an address, and the processor, which remembers the calls
`stack`, says something about it or nothing. -/
inductive Leads (stack : List UInt64) (r : InstructionRecord) :
    Flow → UInt64 → Option Message → List UInt64 → Prop
  | next : Leads stack r .next r.fallThrough none stack
  | jump (target : UInt64) : Leads stack r (.jump target) target none stack
  | call (target : UInt64) :
      Leads stack r (.call target) target none (remember stack r.fallThrough)
  | taken (target : UInt64) :
      Leads stack r (.conditional target) target (some (.outcome true)) stack
  | notTaken (target : UInt64) :
      Leads stack r (.conditional target) r.fallThrough (some (.outcome false)) stack
  /-- Only a return that an outcome stands for uses up a call. -/
  | compressed {address : UInt64} {older : List UInt64} (h : stack = address :: older) :
      Leads stack r .ret address (some (.outcome true)) older
  | ret (address : UInt64) : Leads stack r .ret address (some (.target address)) stack
  | indirectJump (address : UInt64) :
      Leads stack r .indirectJump address (some (.target address)) stack
  | indirectCall (address : UInt64) :
      Leads stack r .indirectCall address (some (.target address))
        (remember stack r.fallThrough)
  | far (address : UInt64) : Leads stack r .far address (some (.target address)) stack

/-- Instructions that are executed one after the other, counted from `i`, with the messages about
them and the number of the instruction that each is about.  The last one leaves open where execution
goes on, and nothing is said about it. -/
inductive Execution (disassembler : Disassembler) (image : Image) :
    List UInt64 → Nat → List InstructionRecord → List (Nat × Message) → Prop
  | last {stack : List UInt64} {i : Nat} {r : InstructionRecord} {flow : Flow}
      (hr : image.instruction? disassembler r.ip = some (r, flow)) (hopen : flow.isOpen = true) :
      Execution disassembler image stack i [r] []
  | step {stack stack' : List UInt64} {i : Nat} {r r' : InstructionRecord} {flow : Flow}
      {message : Option Message} {rest : List InstructionRecord} {ms : List (Nat × Message)}
      (hr : image.instruction? disassembler r.ip = some (r, flow))
      (hleads : Leads stack r flow r'.ip message stack')
      (hrest : Execution disassembler image stack' (i + 1) (r' :: rest) ms) :
      Execution disassembler image stack i (r :: r' :: rest) (message.toList.map (i, ·) ++ ms)

/-- The bytes of a packet with some outcomes. -/
def IsTnt (taken : List Bool) (bytes : List UInt8) : Prop :=
  taken.length ≤ 6 ∧ bytes = Packet.shortTnt taken ∨
    taken.length ≤ 47 ∧ bytes = Packet.longTnt taken

/-- Messages are written, each packet with the number of the instruction that its first message is
about.  `last` is the address sent before. -/
inductive Written : UInt64 → List (Nat × Message) → List (Nat × List UInt8) → Prop
  | nil {last : UInt64} : Written last [] []
  | outcomes {last : UInt64} {i : Nat} {taken : Bool} {more : List (Nat × Bool)}
      {ms : List (Nat × Message)} {bytes : List UInt8} {packets : List (Nat × List UInt8)}
      (hbytes : IsTnt (taken :: more.map (·.2)) bytes) (hrest : Written last ms packets) :
      Written last ((i, .outcome taken) :: (more.map (fun x => (x.1, .outcome x.2)) ++ ms))
        ((i, bytes) :: packets)
  | target {last : UInt64} {i : Nat} {ip : UInt64} {form : IpForm} {ms : List (Nat × Message)}
      {packets : List (Nat × List UInt8)} (hform : form.Fits last ip)
      (hrest : Written ip ms packets) :
      Written last ((i, .target ip) :: ms) ((i, Packet.ipBytes .tip form ip) :: packets)

/-- The trace of an execution that starts at an address: a group of status packets, the notice that
tracing starts there, and the packets with the messages. -/
def traceFrom (form : IpForm) (start : UInt64) (packets : List (Nat × List UInt8)) : List UInt8 :=
  Packet.psbPattern ++ [0x02, 0x23] ++ Packet.ipBytes .pge form start ++ packets.flatMap (·.2)

variable {disassembler : Disassembler} {image : Image} {stack : List UInt64} {i : Nat}
  {r : InstructionRecord}
  {rest records : List InstructionRecord} {ms : List (Nat × Message)}
  {packets : List (Nat × List UInt8)}

theorem Execution.exists_flow (h : Execution disassembler image stack i (r :: rest) ms) :
    ∃ flow, image.instruction? disassembler r.ip = some (r, flow) := by
  cases h with
  | last hr => exact ⟨_, hr⟩
  | step hr => exact ⟨_, hr⟩

/-- Messages are about instructions to come. -/
theorem Execution.le_of_mem (h : Execution disassembler image stack i records ms) :
    ∀ x ∈ ms, i ≤ x.1 := by
  induction h with
  | last => nofun
  | @step _ _ i _ _ _ message _ ms _ _ _ ih =>
      intro x hx
      rcases List.mem_append.1 hx with hx | hx
      · obtain ⟨_, _, rfl⟩ := List.mem_map.1 hx
        exact Nat.le_refl i
      · exact Nat.le_of_succ_le (ih x hx)

/-- Each packet has the number of a message. -/
theorem Written.exists_message {last : UInt64} (h : Written last ms packets) :
    ∀ x ∈ packets, ∃ y ∈ ms, y.1 = x.1 := by
  induction h with
  | nil => nofun
  | outcomes _ _ ih =>
      intro x hx
      rcases List.mem_cons.1 hx with rfl | hx
      · exact ⟨_, List.mem_cons_self, rfl⟩
      · obtain ⟨y, hy, hxy⟩ := ih x hx
        exact ⟨y, List.mem_cons_of_mem _ (List.mem_append_right _ hy), hxy⟩
  | target _ _ ih =>
      intro x hx
      rcases List.mem_cons.1 hx with rfl | hx
      · exact ⟨_, List.mem_cons_self, rfl⟩
      · obtain ⟨y, hy, hxy⟩ := ih x hx
        exact ⟨y, List.mem_cons_of_mem _ hy, hxy⟩

end BranchWatch
