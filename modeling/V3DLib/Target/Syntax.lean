import Mathlib.Data.List.Basic
import Mathlib.Algebra.Order.Ring.Nat
import Mathlib.Algebra.Order.Ring.Int

/-!
# Target instructions

The target IR of the compiler: registers, operands, conditions and the tagged instruction
type that lowering emits and that the allocator and the encoders consume.

The declarations of `Target/Syntax.h` are not part of the sources; the types below follow the
specification (§3, *Target instruction*, *Operands*, *Conditionals on Instr*) and the fields the
sources read (`LI.dest`, `ALU.srcA.reg.isUniformPtr`, `BR.target.immOffset`, ...).

## Design notes

* A register is the C record `(tag, regId)` together with the `isUniformPtr` flag that
  `add_uniform_pointer_offset` reads. A `SPECIAL` register stores the number of its
  `Special` in `regId`, as the C enum does.
* An operand is `REG reg` or `IMM smallImm`. The C type is a union, and two places of the
  encoders read its `reg` member without looking at the tag; `Operand.regField` is that read.
* The C `Instr` is a union over the tag; here it is a tagged variant with per-arm fields.
-/

namespace V3DLib

/-- Register tags (`RegTag`). `TMP_A`/`TMP_B` only exist during the rename of `regAlloc`. -/
inductive RegTag where
  | regA | regB | acc | special | none | tmpA | tmpB
  deriving DecidableEq, Repr

/-- Modelled from the spec: the `SPECIAL_*` ids of `Target/Syntax.h`, read-only resources
    first, then the write-only ones. -/
inductive Special where
  | uniform | elemNum | qpuNum | vpmRead | dmaStWait | dmaLdWait
  | rdSetup | wrSetup | dmaStAddr | dmaLdAddr | vpmWrite | hostInt | tmu0S
  | sfuRecip | sfuRecipSqrt | sfuExp | sfuLog
  deriving DecidableEq, Repr

/-- The enum value of a special register, stored in `Reg.regId`. -/
def Special.id (s : Special) : Int := s.toCtorIdx

/-- All special registers, in enum order. -/
def Special.all : List Special :=
  [.uniform, .elemNum, .qpuNum, .vpmRead, .dmaStWait, .dmaLdWait, .rdSetup, .wrSetup,
    .dmaStAddr, .dmaLdAddr, .vpmWrite, .hostInt, .tmu0S, .sfuRecip, .sfuRecipSqrt, .sfuExp,
    .sfuLog]

/-- The special register with enum value `n`, if any: what a `switch (reg.regId)` over the
    `SPECIAL_*` cases dispatches on. -/
def Special.ofId? (n : Int) : Option Special := Special.all.find? (·.id = n)

@[simp] theorem Special.ofId?_id (s : Special) : Special.ofId? s.id = some s := by
  cases s <;> rfl

theorem Special.ofId?_eq_some {n : Int} {s : Special} (h : Special.ofId? n = some s) :
    n = s.id := by
  simpa [eq_comm] using List.find?_some h

/-- A register: tag, id, and whether it holds a uniform pointer. -/
structure Reg where
  tag : RegTag
  regId : Int
  isUniformPtr : Bool := false
  deriving DecidableEq, Repr

/-- The special register `s`. -/
def Reg.ofSpecial (s : Special) : Reg := ⟨.special, s.id, false⟩

/-- `r` is the special register `s`. -/
def Reg.IsSpecial (r : Reg) (s : Special) : Prop := r.tag = .special ∧ r.regId = s.id

instance (r : Reg) (s : Special) : Decidable (r.IsSpecial s) :=
  inferInstanceAs (Decidable (_ ∧ _))

/-- Two registers name the same location: same tag and id (the flag is not part of it). -/
def Reg.Same (r s : Reg) : Prop := r.tag = s.tag ∧ r.regId = s.regId

instance (r s : Reg) : Decidable (r.Same s) := inferInstanceAs (Decidable (_ ∧ _))

/-- Small-immediate kinds: a plain encoded value, or a rotation by `r5` or by a constant. -/
inductive SmallImmTag where
  | smallImm | rotAcc | rotImm
  deriving DecidableEq, Repr

/-- A small immediate: its kind and its `int` value (`SmallImm.val`). -/
structure SmallImm where
  tag : SmallImmTag
  val : Int
  deriving DecidableEq, Repr

/-- An ALU operand: a register or a small immediate. -/
inductive Operand where
  | reg (r : Reg)
  | imm (i : SmallImm)
  deriving DecidableEq, Repr

/-- Modelled from the spec: the `reg` member of the operand union, read without checking the
    tag. For a small immediate the same bytes are read as a register: the tag numbers coincide
    (`SMALL_IMM`, `ROT_ACC`, `ROT_IMM` with `REG_A`, `REG_B`, `ACC`, as in the debugger dump
    at the top of `KernelDrivers.cpp`) and `regId` is `val`. -/
def Operand.regField : Operand → Reg
  | .reg r => r
  | .imm ⟨tag, val⟩ =>
    ⟨match tag with | .smallImm => .regA | .rotAcc => .regB | .rotImm => .acc, val, false⟩

/-- ALU opcodes; `A_*` run on the add pipeline, `M_*` on the mul pipeline. -/
inductive ALUOp where
  | nop
  | aFadd | aFsub | aFmin | aFmax | aFminabs | aFmaxabs | aFtoI | aItoF
  | aAdd | aSub | aShr | aAsr | aRor | aShl | aMin | aMax
  | aBand | aBor | aBxor | aBnot | aClz | aV8adds | aV8subs
  | mFmul | mMul24 | mV8mul | mV8min | mV8max | mV8adds | mV8subs | mRotate
  deriving DecidableEq, Repr

/-- Modelled from the spec: `isMulOp`, the opcodes of the mul pipeline. -/
def ALUOp.isMul : ALUOp → Bool
  | .mFmul | .mMul24 | .mV8mul | .mV8min | .mV8max | .mV8adds | .mV8subs | .mRotate => true
  | _ => false

/-- Condition flags. -/
inductive Flag where
  | zs | zc | ns | nc
  deriving DecidableEq, Repr

/-- Tags of an assignment condition. -/
inductive AssignCondTag where
  | never | always | flag
  deriving DecidableEq, Repr

/-- An assignment condition (`AssignCond`). -/
structure AssignCond where
  tag : AssignCondTag
  flag : Flag := .zs
  deriving DecidableEq, Repr

/-- Tags of a branch condition. -/
inductive BranchCondTag where
  | condNever | condAlways | condAll | condAny
  deriving DecidableEq, Repr

/-- A branch condition (`BranchCond`): on all or any of the lanes' flags. -/
structure BranchCond where
  tag : BranchCondTag
  flag : Flag := .zs
  deriving DecidableEq, Repr

/-- Immediate kinds of `LI`. -/
inductive ImmTag where
  | immInt32 | immFloat32
  deriving DecidableEq, Repr

/-- The immediate of `LI`; a float is held by its bit pattern, as the union does. -/
structure Imm where
  tag : ImmTag
  intVal : Int
  deriving DecidableEq, Repr

/-- The target of a `BR` (`BranchTarget`). -/
structure BranchTarget where
  relative : Bool
  useRegOffset : Bool
  regOffset : Int
  immOffset : Int
  deriving DecidableEq, Repr

/-- Labels are handed out by the fresh-label counter. -/
abbrev Label := Nat

/-- Modelled from the spec: the target instructions (`Instr` of `Target/Syntax.h`), one
    constructor per tag. `halt` is `END`; `PRS` is kept
    without its string, which nothing modelled reads. -/
inductive Instr where
  | li (setFlags : Bool) (cond : AssignCond) (dest : Reg) (imm : Imm)
  | alu (setFlags : Bool) (cond : AssignCond) (dest : Reg) (srcA : Operand) (op : ALUOp)
      (srcB : Operand)
  | br (cond : BranchCond) (target : BranchTarget)
  | brl (cond : BranchCond) (label : Label)
  | lab (label : Label)
  | halt
  | sinc (semaId : Int)
  | sdec (semaId : Int)
  | irq
  | recv (dest : Reg)
  | prs
  | pri (r : Reg)
  | prf (r : Reg)
  | noOp
  | tmu0ToAcc4
  | dmaLoadWait
  | dmaStoreWait
  | initBegin
  | initEnd
  deriving DecidableEq, Repr

/-- Modelled from the spec: `regFileOf`, the regfile a register can only be read from, `NONE`
    when either works or neither applies. -/
def regFileOf (r : Reg) : RegTag :=
  match r.tag with
  | .regA => .regA
  | .regB => .regB
  | .special =>
    match Special.ofId? r.regId with
    | some .elemNum | some .dmaLdWait => .regA
    | some .qpuNum | some .dmaStWait => .regB
    | _ => .none
  | _ => .none

end V3DLib
