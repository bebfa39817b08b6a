import V3DLib.Target.Instr
import V3DLib.Target.Liveness

/-!
# The target emulator

`Target/Emulator.cpp` is not part of the sources; this module follows the specification
(§4.6): the emulator executes target instructions on a machine with the two register files, the
accumulators, a flag vector, a program counter, the uniform FIFO and the VPM/DMA ring. The
register files are explicit here, keyed by tag and id, since they are what register allocation
rewrites; the values, the flags, and everything else an instruction reads or writes (the
accumulators, the special registers and the devices behind them, the print stream) belong to a
`Datapath`, which this development leaves open.

The emulator of the specification delays a taken branch by three instructions. Here a branch
takes effect at once: this is the semantics `buildCFG` describes, whose successors of a branch
are its label and, when it is conditional, the next instruction.

## Main definitions

* `Datapath`: lane arithmetic, condition codes and devices, with the laws of `ALWAYS`.
* `Machine`: the program counter, the register files, the flags and the devices.
* `Machine.exec`: the effect of an instruction other than a branch or `END`.
* `nextPc`: where control goes after an instruction.
* `step`, `run`: the instruction at the program counter, and `n` instructions.
* `RunsAlike`: two programs pass through the same instructions, flags and devices.

## Main results

* `labelIndex_getElem?`: a taken branch lands on its label.
* `nextPc_succ`, `step_succ`: the emulator moves along the edges `Succ` describes, or past the
  last instruction.
-/

namespace V3DLib

/-- Modelled from the spec: what the emulator does with the values it moves, left open. `V` is
    a 16-lane vector, `F` the flag vector, `D` the state outside the two register files: the
    accumulators, the special registers and the devices behind them, and the output stream. The
    two laws are those of the condition codes: an `ALWAYS` assignment writes every lane, and an
    `ALWAYS` branch is taken. -/
structure Datapath (V F D : Type) where
  /-- An ALU operation, lane by lane. -/
  alu : ALUOp → V → V → V
  /-- The vector of a small-immediate operand. -/
  smallImm : SmallImm → V
  /-- The vector of a load immediate. -/
  imm : Imm → V
  /-- The flags a result sets (`setFlags`). -/
  flagsOf : V → F
  /-- A conditional assignment: the new value on the lanes the condition selects, the old one
      on the others. -/
  assign : AssignCond → F → V → V → V
  /-- Whether a branch condition holds of the flags. -/
  taken : BranchCond → F → Bool
  /-- Reading a register outside the register files. -/
  readOther : Reg → D → V
  /-- What reading the given registers does to the devices (a read of `UNIFORM` pops the FIFO). -/
  afterRead : List Reg → D → D
  /-- A conditional write to a register outside the register files. -/
  writeOther : AssignCond → F → Reg → V → D → D
  /-- `RECV`: the vector the TMU returns. -/
  receive : D → V × D
  /-- `PRI` (`false`) and `PRF` (`true`): a vector printed as integers or as floats. -/
  print : Bool → V → D → D
  /-- The instructions that only act on the devices: `SINC`, `SDEC`, `IRQ`, `PRS`,
      `TMU0_TO_ACC4` and the DMA waits. -/
  device : Instr → D → D
  assign_always : ∀ flag f new old, assign ⟨.always, flag⟩ f new old = new
  taken_always : ∀ flag f, taken ⟨.condAlways, flag⟩ f = true

/-- Modelled from the spec: the emulator's state. The register files map a tag and an id to a
    vector; only `REG_A` and `REG_B` are read from them. -/
structure Machine (V F D : Type) where
  pc : Nat
  rf : RegTag → Int → V
  flags : F
  dev : D

/-- A register of one of the two register files. -/
def Reg.InFile (r : Reg) : Prop := r.tag = .regA ∨ r.tag = .regB

instance (r : Reg) : Decidable r.InFile := inferInstanceAs (Decidable (_ ∨ _))

/-- The registers of `rs` outside the register files, those whose reads reach the devices. -/
def otherRegs (rs : List Reg) : List Reg := rs.filter fun r => !decide r.InFile

/-- The index of the first `LAB l`, the instruction a branch to `l` lands on. -/
def labelIndex : List Instr → Label → Option Nat
  | [], _ => none
  | instr :: code, l => if instr = .lab l then some 0 else (labelIndex code l).map (· + 1)

section Emulator

variable {V F D : Type} (dp : Datapath V F D)

/-- The vector a register holds. -/
def Machine.read (m : Machine V F D) (r : Reg) : V :=
  if r.InFile then m.rf r.tag r.regId else dp.readOther r m.dev

/-- The vector an operand stands for. -/
def Machine.operand (m : Machine V F D) : Operand → V
  | .reg r => m.read dp r
  | .imm i => dp.smallImm i

/-- A write of `v` to `r` under `cond`, merged lane by lane with the value `r` held. -/
def Machine.write (m : Machine V F D) (cond : AssignCond) (r : Reg) (v : V) : Machine V F D :=
  if r.InFile then
    { m with rf := fun t i =>
        if t = r.tag ∧ i = r.regId then dp.assign cond m.flags v (m.rf t i) else m.rf t i }
  else { m with dev := dp.writeOther cond m.flags r v m.dev }

/-- The flags of `v`, when the instruction sets them. -/
def Machine.setFlags (m : Machine V F D) (sf : Bool) (v : V) : Machine V F D :=
  if sf then { m with flags := dp.flagsOf v } else m

/-- Modelled from the spec: the effect of an instruction on the registers, the flags and the
    devices. An ALU instruction reads both operands from the state before it, then writes its
    result under its condition and the flags from before it. -/
def Machine.exec (m : Machine V F D) : Instr → Machine V F D
  | .li sf cond dest imm => (m.write dp cond dest (dp.imm imm)).setFlags dp sf (dp.imm imm)
  | .alu sf cond dest srcA op srcB =>
    let v := dp.alu op (m.operand dp srcA) (m.operand dp srcB)
    ({ m with dev := dp.afterRead (otherRegs (srcA.regs ++ srcB.regs)) m.dev }.write dp cond
      dest v).setFlags dp sf v
  | .recv dest => { m with dev := (dp.receive m.dev).2 }.write dp always dest (dp.receive m.dev).1
  | .pri r => { m with dev := dp.print false (m.read dp r) (dp.afterRead (otherRegs [r]) m.dev) }
  | .prf r => { m with dev := dp.print true (m.read dp r) (dp.afterRead (otherRegs [r]) m.dev) }
  | .br _ _ | .brl _ _ | .lab _ | .halt | .noOp | .initBegin | .initEnd => m
  | instr => { m with dev := dp.device instr m.dev }

/-- Modelled from the spec: where control goes after an instruction, `none` when the kernel
    stops: at `END`, or at a branch to an address, which this stage of the pipeline does not
    hold. A taken `BRL` goes to its label. -/
def nextPc (code : List Instr) (flags : F) (pc : Nat) : Instr → Option Nat
  | .halt | .br _ _ => none
  | .brl c l => if dp.taken c flags then labelIndex code l else some (pc + 1)
  | _ => some (pc + 1)

/-- Modelled from the spec: one instruction of the emulator, `none` past the last instruction
    or when the kernel stops. -/
def step (code : List Instr) (m : Machine V F D) : Option (Machine V F D) :=
  code[m.pc]?.bind fun instr =>
    (nextPc dp code m.flags m.pc instr).map fun pc => { m.exec dp instr with pc }

/-- `n` instructions of the emulator, or fewer if the kernel stops. -/
def run (code : List Instr) : Nat → Machine V F D → Machine V F D
  | 0, m => m
  | n + 1, m =>
    match step dp code m with
    | some m' => run code n m'
    | none => m

end Emulator

/-! ### Labels -/

/-- A branch lands on its label. -/
theorem labelIndex_getElem? : ∀ {code : List Instr} {l : Label} {j : Nat},
    labelIndex code l = some j → code[j]? = some (.lab l)
  | [], _, _, h => by cases h
  | instr :: code, l, j, h => by
    unfold labelIndex at h
    split_ifs at h with hl
    · cases h; simp [hl]
    · obtain ⟨j, hj, rfl⟩ := Option.map_eq_some'.mp h
      rw [List.getElem?_cons_succ]
      exact labelIndex_getElem? hj

/-- A rewrite of the instructions that makes and keeps `LAB l` and no other moves its labels
    nowhere. -/
theorem labelIndex_map {f : Instr → Instr} {l : Label}
    (hf : ∀ instr, f instr = .lab l ↔ instr = .lab l) :
    ∀ code : List Instr, labelIndex (code.map f) l = labelIndex code l
  | [] => rfl
  | instr :: code => by simp only [List.map_cons, labelIndex, hf, labelIndex_map hf code]

/-! ### Steps -/

section Steps

variable {V F D : Type} {dp : Datapath V F D} {code : List Instr} {m m' : Machine V F D}

/-- After an instruction that falls through comes its successor, or the end of the code. -/
theorem succ_of_fallsThrough {i : Nat} {instr : Instr} (hi : code[i]? = some instr)
    (hf : instr.fallsThrough) : Succ code i (i + 1) ∨ i + 1 = code.length := by
  by_cases hn : i + 1 < code.length
  · exact .inl (.inl ⟨rfl, hn, _, hi, (Instr.fallsThrough_iff instr).1 hf⟩)
  · have := (List.getElem?_eq_some.mp hi).1
    exact .inr (by omega)

/-- Control moves along the edges of the control-flow graph: to a successor `Succ` names, or,
    from the last instruction, past the end. -/
theorem nextPc_succ {flags : F} {i j : Nat} {instr : Instr} (hi : code[i]? = some instr)
    (h : nextPc dp code flags i instr = some j) :
    Succ code i j ∨ (j = code.length ∧ i + 1 = code.length) := by
  cases instr
  case brl c l =>
    simp only [nextPc] at h
    split_ifs at h with ht
    · exact .inl (.inr ⟨c, l, hi, labelIndex_getElem? h⟩)
    · cases h
      refine (succ_of_fallsThrough hi ?_).imp_right fun h => ⟨h, h⟩
      obtain ⟨tag, flag⟩ := c
      cases tag <;> simp_all [Instr.fallsThrough, Instr.isUncondJump, Instr.isHalt, dp.taken_always]
  case halt | br => cases h
  all_goals
    cases h
    exact (succ_of_fallsThrough hi rfl).imp_right fun h => ⟨h, h⟩

/-- The emulator moves along the edges of the control-flow graph, or past the end. -/
theorem step_succ (h : step dp code m = some m') :
    Succ code m.pc m'.pc ∨ (m'.pc = code.length ∧ m.pc + 1 = code.length) := by
  obtain ⟨instr, hi, h⟩ := Option.bind_eq_some.mp h
  obtain ⟨j, hj, rfl⟩ := Option.map_eq_some'.mp h
  exact nextPc_succ hi hj

end Steps

/-- Two programs run alike from two machines: after any number of steps they are at the same
    instruction, with the same flags and the same devices. -/
def RunsAlike {V F D : Type} (dp : Datapath V F D) (code code' : List Instr)
    (m m' : Machine V F D) : Prop :=
  ∀ n, (run dp code' n m').pc = (run dp code n m).pc ∧
    (run dp code' n m').flags = (run dp code n m).flags ∧
    (run dp code' n m').dev = (run dp code n m).dev

end V3DLib
