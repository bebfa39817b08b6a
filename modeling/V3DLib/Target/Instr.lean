import V3DLib.Target.Syntax

/-!
# Instruction helpers

The members of `Instr` in `Target/Instr.cpp` that the modelled passes call, and the
instruction builders of `Target/instr` that `add_init` uses. Failures are `Except String`
values carrying the text of the failed `assert`.
-/

namespace V3DLib

/-- `Instr::label_to_target`: turn a `BRL` into a relative `BR` whose immediate offset
    compensates the four-instruction branch delay. `BranchTarget t` is a local whose
    `regOffset` is never set; it is not read when `useRegOffset` is false. -/
def Instr.labelToTarget (instr : Instr) (offset : Int) : Except String Instr :=
  match instr with
  | .brl cond _ => pure (.br cond ⟨true, false, 0, offset - 4⟩)
  | _ => throw "tag == InstrTag::BRL"

/-- `Instr::isUniformLoad`: an ALU instruction reading `UNIFORM` as its first operand, with
    the two assertions of the source. -/
def Instr.isUniformLoad : Instr → Except String Bool
  | .alu _ _ _ (.reg aReg) _ (.reg bReg) =>
    if aReg.IsSpecial .uniform then
      if aReg.Same bReg then pure true else throw "aReg == bReg"
    else if bReg.IsSpecial .uniform then
      throw "!(bReg.tag == SPECIAL && bReg.regId == SPECIAL_UNIFORM)"
    else pure false
  | _ => pure false

/-- `Instr::mnemonic()` without comments or prefix: `pretty_instr` of the instruction, which
    `Target/Pretty.cpp` defines and the sources lack. Modelled from the spec: the name of the
    instruction's tag. -/
def Instr.mnemonic : Instr → String
  | .li .. => "LI" | .alu .. => "ALU" | .br .. => "BR" | .brl .. => "BRL" | .lab _ => "LAB"
  | .halt => "END" | .sinc _ => "SINC" | .sdec _ => "SDEC" | .irq => "IRQ" | .recv _ => "RECV"
  | .prs => "PRS" | .pri _ => "PRI" | .prf _ => "PRF" | .noOp => "NO_OP"
  | .tmu0ToAcc4 => "TMU0_TO_ACC4" | .dmaLoadWait => "DMA_LOAD_WAIT"
  | .dmaStoreWait => "DMA_STORE_WAIT" | .initBegin => "INIT_BEGIN" | .initEnd => "INIT_END"

/-! ### Instruction builders -/

/-- Modelled from the spec: `rf(index)`, register `index` of the (variable) regfile. -/
def rf (index : Nat) : Reg := ⟨.regA, index, false⟩

/-- Modelled from the spec: the accumulators `ACC0`, `ACC1`. -/
def acc0 : Reg := ⟨.acc, 0, false⟩

@[inherit_doc acc0]
def acc1 : Reg := ⟨.acc, 1, false⟩

/-- Modelled from the spec: `QPU_ID` and `ELEM_ID`, the special registers read for the QPU
    number and the lane index. -/
def qpuId : Reg := .ofSpecial .qpuNum

@[inherit_doc qpuId]
def elemId : Reg := .ofSpecial .elemNum

/-- The reserved variables `RSV_QPU_ID` and `RSV_NUM_QPUS`. -/
def rsvQpuId : Nat := 0

@[inherit_doc rsvQpuId]
def rsvNumQpus : Nat := 1

/-- Unconditional assignment. -/
def always : AssignCond := ⟨.always, .zs⟩

/-- Modelled from the spec: `mov(dst, src)`, an `OR` of `src` with itself. -/
def mov (dst src : Reg) : Instr := .alu false always dst (.reg src) .aBor (.reg src)

/-- Modelled from the spec: `mov(dst, n)` for an integer, a load immediate. -/
def movImm (dst : Reg) (n : Int) : Instr := .li false always dst ⟨.immInt32, n⟩

/-- Modelled from the spec: a two-register ALU instruction (`add(dst, a, b)`). -/
def aluRR (op : ALUOp) (dst a b : Reg) : Instr := .alu false always dst (.reg a) op (.reg b)

/-- Modelled from the spec: an ALU instruction with a small integer as second operand
    (`sub`, `shr`, `band`, `shl` with an `int`); the integers used are in `[0, 15]`, which
    encode as themselves. -/
def aluRI (op : ALUOp) (dst a : Reg) (n : Int) : Instr :=
  .alu false always dst (.reg a) op (.imm ⟨.smallImm, n⟩)

/-- `Instr::pushz()`: push the Z flag of the result (`setCond().tag(SetCond::Z)`); the model's
    instructions keep this as the flag bit `setFlags` that the encoders read. -/
def Instr.pushz : Instr → Instr
  | .alu _ cond dest srcA op srcB => .alu true cond dest srcA op srcB
  | .li _ cond dest imm => .li true cond dest imm
  | instr => instr

/-- Modelled from the spec: `branch(label)`, an unconditional `BRL`. -/
def branch (l : Label) : Instr := .brl ⟨.condAlways, .zs⟩ l

/-- Modelled from the spec: `Instr::allzc()`, branch when the Z flag is clear on all lanes. -/
def Instr.allzc : Instr → Instr
  | .brl _ l => .brl ⟨.condAll, .zc⟩ l
  | instr => instr

/-- `label(l)` of `v3d/SourceTranslate.cpp`: the label site. -/
def label (l : Label) : Instr := .lab l

end V3DLib
