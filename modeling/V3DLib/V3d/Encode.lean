import V3DLib.Target.Instr
import V3DLib.Loop

/-!
# The v3d encoder

The `v3d` part of `KernelDrivers.cpp`: `encodeInstr` turns a target ALU instruction into an
instruction of the v3d instruction library, whose `code()` is the 64-bit word. Only the ALU case
is implemented; every other tag, and rotations, end in `assert(false)`.

The library's instruction (`v3d/instr/Instr.h`) and its builders are not part of the sources.
The model keeps, per field, what `encodeInstr` leaves there (`Field`): the value of the nop-nop
instruction it starts from, a value it writes, or an indeterminate value copied from a local
that nothing initialised. A failed `assert` is an `Except.error` carrying its condition, or the
text printed before it.

## Main results

* `encodeInstr_alu_spec`: what the ALU path returns, field by field (`AluEncoding`).
* `encodeInstr_imm_raddrB_overwritten`: a small immediate never reaches `raddr_b`, and the
  condition and the flag push are dropped.
* `encode_eq_ok`, `encode_ok_alu`: `_encode` returns one instruction per target instruction,
  and only for programs made of ALU instructions.
* `encodeSrcReg_agrees_old`: the old and the new source-register encoders agree on the register
  files, and only there.
-/

namespace V3DLib

namespace V3d

/-- The add-pipeline opcodes `encodeAddOp` produces (`V3D_QPU_A_*`). -/
inductive AddOp where
  | nop | fadd | fsub | fmin | fmax | ftoin | itof | add | sub | shr | asr | ror | shl | min
  | max | and | or | xor | not | clz
  deriving DecidableEq, Repr

/-- The mul-pipeline opcodes `encodeMulOp` produces (`V3D_QPU_M_*`). -/
inductive MulOp where
  | nop | fmul
  deriving DecidableEq, Repr

/-- A `Location` of the instruction library: a regfile address (`RFAddress`) or an
    accumulator `r0`–`r5` (`Register`). -/
inductive Location where
  | rf (addr : Nat)
  | acc (n : Nat)
  deriving DecidableEq, Repr

/-- The input muxes of an ALU (`V3D_QPU_MUX_*`): an accumulator, or the value read from
    `raddr_a` or `raddr_b`. -/
inductive Mux where
  | r (n : Nat)
  | a
  | b
  deriving DecidableEq, Repr

/-- What `encodeInstr` leaves in a field: the nop-nop instruction's value, a value it writes,
    or an indeterminate value copied from an uninitialised local. -/
inductive Field (α : Type) where
  | nop
  | set (a : α)
  | uninit
  deriving DecidableEq, Repr

/-- The fields of a v3d instruction that `encodeInstr` and the builders it calls write, and
    the assignment condition and flag push, which nothing on the ALU path writes. -/
structure QpuInstr where
  sigSmallImm : Field Bool := .nop
  ldunifrf : Field Nat := .nop
  raddrA : Field Nat := .nop
  raddrB : Field Int := .nop
  addOp : Field AddOp := .nop
  addA : Field Mux := .nop
  addB : Field Mux := .nop
  addDest : Field Location := .nop
  mulOp : Field MulOp := .nop
  mulDest : Field Location := .nop
  cond : Field AssignCond := .nop
  pushFlags : Field Bool := .nop
  deriving DecidableEq, Repr

/-- `v3d::encodeMulOp`: only `NOP` and `M_FMUL` have a v3d counterpart. -/
def encodeMulOp : ALUOp → Except String MulOp
  | .nop => pure .nop
  | .mFmul => pure .fmul
  | _ => throw "QPULib: unknown mul op"

/-- `v3d::encodeAddOp`; its failure prints the mul-op text too. -/
def encodeAddOp : ALUOp → Except String AddOp
  | .nop => pure .nop | .aFadd => pure .fadd | .aFsub => pure .fsub | .aFmin => pure .fmin
  | .aFmax => pure .fmax | .aFtoI => pure .ftoin | .aItoF => pure .itof | .aAdd => pure .add
  | .aSub => pure .sub | .aShr => pure .shr | .aAsr => pure .asr | .aRor => pure .ror
  | .aShl => pure .shl | .aMin => pure .min | .aMax => pure .max | .aBand => pure .and
  | .aBor => pure .or | .aBxor => pure .xor | .aBnot => pure .not | .aClz => pure .clz
  | _ => throw "QPULib: unknown mul op"

/-- `v3d::to_waddr`: the single regfile's address, `REG_B` registers offset by
    `REGB_OFFSET = 32`, cast to `uint8_t`. -/
def toWaddr (reg : Reg) : Except String Nat :=
  if reg.tag = .regA ∨ reg.tag = .regB then
    pure (((if reg.tag = .regB then 32 else 0) + reg.regId) % 256).toNat
  else throw "reg.tag == REG_A || reg.tag == REG_B"

/-- The ALU destination (`src_instr.ALU.dest`), for the instructions `encodeDestReg` is
    called on. -/
def aluDest : Instr → Reg
  | .alu _ _ dest _ _ _ => dest
  | _ => ⟨.none, 0, false⟩

/-- Modelled from the spec: `Instr::isMul()`, an ALU instruction with a mul-pipeline opcode. -/
def Instr.isMul : Instr → Bool
  | .alu _ _ _ _ op _ => op.isMul
  | _ => false

/-- `v3d::encodeDestReg(src_instr)`: the location of the destination, `none` for `NONE`.
    Regfile ids must be below 32. -/
def encodeDestReg (instr : Instr) : Except String (Option Location) := do
  if ← instr.isUniformLoad then throw "!src_instr.isUniformLoad()"
  let reg := aluDest instr
  match reg.tag with
  | .regA | .regB =>
    if 0 ≤ reg.regId ∧ reg.regId < 32 then pure (some (.rf (← toWaddr reg)))
    else throw "reg.regId >= 0 && reg.regId < 32"
  | .acc =>
    if 0 ≤ reg.regId ∧ reg.regId ≤ 5 then pure (some (.acc reg.regId.toNat))
    else throw "reg.regId >= 0 && reg.regId <= 5"
  | .special => throw "false"
  | .none => pure none
  | _ => throw "QPULib: missing case in encodeDestReg"

/-- `v3d::setDestReg`: the destination goes to the pipeline of the opcode. -/
def setDestReg (instr : Instr) (dst : QpuInstr) : Except String QpuInstr := do
  match ← encodeDestReg instr with
  | none => pure dst
  | some loc =>
    if Instr.isMul instr then pure { dst with mulDest := .set loc }
    else pure { dst with addDest := .set loc }

/-- `v3d::encodeSrcReg(reg)`: the location read, `none` for `NONE`. -/
def encodeSrcReg (reg : Reg) : Except String (Option Location) :=
  match reg.tag with
  | .regA | .regB =>
    if 0 ≤ reg.regId ∧ reg.regId < 32 then (some ∘ Location.rf) <$> toWaddr reg
    else throw "reg.regId >= 0 && reg.regId < 32"
  | .acc =>
    if 0 ≤ reg.regId ∧ reg.regId ≤ 4 then pure (some (.acc reg.regId.toNat))
    else throw "reg.regId >= 0 && reg.regId <= 4"
  | .special =>
    match Special.ofId? reg.regId with
    | some .uniform | some .elemNum => throw "false"
    | _ => throw "QPULib: missing case in encodeSrcReg"
  | .none => pure none
  | _ => throw "QPULib: missing case in encodeSrcReg"

/-- `v3d::encodeSrcReg_old(reg)`: the vc4 read address of a register. -/
def encodeSrcRegOld (reg : Reg) : Except String Nat :=
  match reg.tag with
  | .regA =>
    if 0 ≤ reg.regId ∧ reg.regId < 32 then pure (reg.regId % 256).toNat
    else throw "reg.regId >= 0 && reg.regId < 32"
  | .regB =>
    if 0 ≤ reg.regId ∧ reg.regId < 32 then pure ((32 + reg.regId) % 256).toNat
    else throw "reg.regId >= 0 && reg.regId < 32"
  | .acc =>
    if 0 ≤ reg.regId ∧ reg.regId ≤ 4 then throw "false"
    else throw "reg.regId >= 0 && reg.regId <= 4"
  | .none => pure 39
  | .special =>
    match Special.ofId? reg.regId with
    | some .uniform => pure 32
    | some .elemNum | some .qpuNum => pure 38
    | some .vpmRead => pure 48
    | some .dmaLdWait | some .dmaStWait => pure 50
    | _ => throw "QPULib: missing case in encodeSrcReg_old"
  | _ => throw "QPULib: missing case in encodeSrcReg_old"

/-- The two source-register encoders agree on the register files, failures included, with
    `REG_B` at the `REGB_OFFSET` of `to_waddr`; and only there does `encodeSrcReg` give a regfile
    address. Elsewhere they differ: `encodeSrcReg` reads `r0`–`r4`, on which `encodeSrcReg_old`
    fails, and has no address for `NONE` or a special register, which `encodeSrcReg_old` reads. -/
theorem encodeSrcReg_agrees_old (r : Reg) :
    ((r.tag = .regA ∨ r.tag = .regB) →
      encodeSrcReg r = (some ∘ Location.rf) <$> encodeSrcRegOld r) ∧
    ∀ a, encodeSrcReg r = .ok (some (.rf a)) → r.tag = .regA ∨ r.tag = .regB := by
  obtain ⟨tag, id, u⟩ := r
  constructor
  · rintro (rfl | rfl) <;> by_cases h : 0 ≤ id ∧ id < 32 <;>
      simp [encodeSrcReg, encodeSrcRegOld, toWaddr, h] <;> rfl
  · intro a h
    cases tag <;> simp only [encodeSrcReg, true_or, or_true] at h ⊢
    all_goals (repeat split at h) <;> cases h

/-- The mux that reads a location, and the `raddr_a` it needs. -/
def Location.toMux : Location → Mux × Field Nat
  | .rf addr => (.a, .set addr)
  | .acc n => (.r n, .nop)

/-- Modelled from the spec: the builder `shl(dst, src, imm)`, an add-pipeline `SHL` of `src`
    by the small immediate `imm`, read through `raddr_b` under the `small_imm` signal. -/
def shl (dst src : Location) (imm : Int) : QpuInstr :=
  { addOp := .set .shl, addDest := .set dst, addA := .set src.toMux.1, raddrA := src.toMux.2,
    addB := .set .b, sigSmallImm := .set true, raddrB := .set imm }

/-- Modelled from the spec: the builder `ldunifrf(rf_addr)`, a load of the next uniform into
    regfile address `rf_addr`. -/
def ldunifrf (rfAddr : Nat) : QpuInstr := { ldunifrf := .set rfAddr }

/-- `v3d::translateOpcode`: `A_SHL` with an immediate becomes `shl`; other opcodes are not
    translated here (`none`). -/
def translateOpcode (instr : Instr) : Except String (Option QpuInstr) :=
  match instr with
  | .alu _ _ _ srcA .aShl srcB => do
    let dstReg ← encodeDestReg instr
    let srcReg ← encodeSrcReg srcA.regField
    let some dst := dstReg | throw "dst_reg.get() != nullptr"
    let some src := srcReg | throw "src_reg.get() != nullptr"
    match srcB with
    | .imm imm => pure (some (shl dst src imm.val))
    | .reg _ => throw "src_instr.ALU.srcB.tag == IMM"
  | _ => pure none

/-- The operand fields of the general ALU path: nothing is written for two registers, so
    `raddr_a`, `raddr_b` and both muxes come from uninitialised locals; a small-immediate
    `srcB` sets the signal and `raddr_b`, and `raddr_a` from `srcA`, but the final copy of the
    uninitialised `raddrb` overwrites `raddr_b`. The library's `SmallImm` constructor, which
    the sources lack, is taken to accept the value. -/
def encodeAluOperands (srcA srcB : Operand) (q : QpuInstr) : Except String QpuInstr :=
  match srcA, srcB with
  | .reg _, .reg _ =>
    pure { q with raddrA := .uninit, raddrB := .uninit, addA := .uninit, addB := .uninit }
  | .reg a, .imm _ => do
    let raddra ← encodeSrcRegOld a
    pure { q with
      sigSmallImm := .set true, raddrA := .set raddra, raddrB := .uninit, addA := .uninit,
      addB := .uninit }
  | .imm _, .imm _ => throw "instr.ALU.srcA.tag == REG"
  | .imm _, .reg _ => throw "false"

/-- The opcode of the general ALU path, in the pipeline `isMul` selects. -/
def setAluOp (instr : Instr) (op : ALUOp) (q : QpuInstr) : Except String QpuInstr :=
  if Instr.isMul instr then (fun o => { q with mulOp := .set o }) <$> encodeMulOp op
  else (fun o => { q with addOp := .set o }) <$> encodeAddOp op

/-- `v3d::encodeInstr`: the pseudo tags are refused, and only `ALU` is encoded. The source
    calls `isUniformLoad()` twice on the same instruction; the model binds its result once. -/
def encodeInstr (instr : Instr) : Except String QpuInstr :=
  match instr with
  | .alu _ _ dest srcA op srcB => do
    let uniformLoad ← instr.isUniformLoad
    let q ← if uniformLoad then pure {} else setDestReg instr {}
    match ← translateOpcode instr with
    | some q => pure q
    | none =>
      if op = .mRotate then throw "false"
      else if uniformLoad then ldunifrf <$> toWaddr dest
      else setAluOp instr op q >>= encodeAluOperands srcA srcB
  | .irq | .dmaLoadWait | .dmaStoreWait | .li .. | .br .. | .halt | .tmu0ToAcc4 | .sinc _
  | .sdec _ | .noOp | .pri _ | .prs | .prf _ => throw "false"
  | _ => throw "v3d: missing case in encodeInstr"

/-! ### The ALU path -/

/-- What the general ALU path writes: the opcode and the destination in the pipeline `isMul`
    selects (no destination for `NONE`), `raddr_b` and both add-ALU muxes from uninitialised
    locals, and the operand fields of the two operand forms it accepts. -/
structure GeneralAlu (instr : Instr) (op : ALUOp) (srcA srcB : Operand) (q : QpuInstr) :
    Prop where
  dest : ∃ loc, encodeDestReg instr = .ok loc ∧
    if op.isMul then q.mulDest = loc.elim .nop .set ∧ q.addDest = .nop
    else q.addDest = loc.elim .nop .set ∧ q.mulDest = .nop
  opcode : if op.isMul then (∃ o, encodeMulOp op = .ok o ∧ q.mulOp = .set o) ∧ q.addOp = .nop
    else (∃ o, encodeAddOp op = .ok o ∧ q.addOp = .set o) ∧ q.mulOp = .nop
  raddrB_uninit : q.raddrB = .uninit
  addA_uninit : q.addA = .uninit
  addB_uninit : q.addB = .uninit
  operands :
    (∃ a b, srcA = .reg a ∧ srcB = .reg b ∧ q.raddrA = .uninit ∧ q.sigSmallImm = .nop) ∨
    (∃ a i r, srcA = .reg a ∧ srcB = .imm i ∧ encodeSrcRegOld a = .ok r ∧
      q.raddrA = .set r ∧ q.sigSmallImm = .set true)

/-- What `encodeInstr` returns for an ALU instruction that is not a uniform load: never the
    assignment condition or the flag push; `shl` for `A_SHL`; otherwise `GeneralAlu`. -/
structure AluEncoding (sf : Bool) (cond : AssignCond) (dest : Reg) (srcA : Operand)
    (op : ALUOp) (srcB : Operand) (q : QpuInstr) : Prop where
  cond_nop : q.cond = .nop
  pushFlags_nop : q.pushFlags = .nop
  shl : op = .aShl → ∃ dst src imm,
    encodeDestReg (.alu sf cond dest srcA op srcB) = .ok (some dst) ∧
    encodeSrcReg srcA.regField = .ok (some src) ∧ srcB = .imm imm ∧ q = shl dst src imm.val
  general : op ≠ .aShl → GeneralAlu (.alu sf cond dest srcA op srcB) op srcA srcB q

section AluPath

variable {sf : Bool} {cond : AssignCond} {dest : Reg} {srcA srcB : Operand} {op : ALUOp}
  {instr : Instr} {q q' : QpuInstr}

/-- Only `A_SHL` is translated directly. -/
theorem translateOpcode_of_ne (hop : op ≠ .aShl) :
    translateOpcode (.alu sf cond dest srcA op srcB) = .ok none := by
  unfold translateOpcode
  split
  · rename_i h; cases h; exact absurd rfl hop
  · rfl

/-- `A_SHL` encodes as `shl` of the destination, `srcA` and an immediate `srcB`. -/
theorem translateOpcode_shl {t : Option QpuInstr}
    (h : translateOpcode (.alu sf cond dest srcA .aShl srcB) = .ok t) :
    ∃ dst src imm, encodeDestReg (.alu sf cond dest srcA .aShl srcB) = .ok (some dst) ∧
      encodeSrcReg srcA.regField = .ok (some src) ∧ srcB = .imm imm ∧
      t = some (shl dst src imm.val) := by
  simp only [translateOpcode, except_bind_eq_ok] at h
  obtain ⟨_ | dst, hd, _ | src, hs, h⟩ := h <;> try cases h
  cases srcB with
  | imm imm => exact ⟨dst, src, imm, hd, hs, rfl, (Except.ok.inj h).symm⟩
  | reg _ => cases h

/-- `setDestReg` writes the destination's location, if any, in the pipeline of the opcode. -/
theorem setDestReg_ok (h : setDestReg instr q = .ok q') :
    ∃ loc, encodeDestReg instr = .ok loc ∧ q' = match loc with
      | none => q
      | some l => if Instr.isMul instr then { q with mulDest := .set l }
        else { q with addDest := .set l } := by
  simp only [setDestReg, except_bind_eq_ok] at h
  obtain ⟨loc, hloc, h⟩ := h
  refine ⟨loc, hloc, ?_⟩
  rcases loc with _ | l
  · exact (Except.ok.inj h).symm
  · split_ifs at h ⊢ <;> exact (Except.ok.inj h).symm

/-- `setAluOp` writes the opcode in the pipeline of the instruction. -/
theorem setAluOp_ok (h : setAluOp instr op q = .ok q') :
    (Instr.isMul instr ∧ ∃ o, encodeMulOp op = .ok o ∧ q' = { q with mulOp := .set o }) ∨
    (¬Instr.isMul instr ∧ ∃ o, encodeAddOp op = .ok o ∧ q' = { q with addOp := .set o }) := by
  unfold setAluOp at h
  split_ifs at h with hm
  · obtain ⟨o, ho, rfl⟩ := except_map_eq_ok.mp h
    exact .inl ⟨hm, o, ho, rfl⟩
  · obtain ⟨o, ho, rfl⟩ := except_map_eq_ok.mp h
    exact .inr ⟨hm, o, ho, rfl⟩

/-- The two operand forms the general path accepts, and what it writes for each. -/
theorem encodeAluOperands_ok (h : encodeAluOperands srcA srcB q = .ok q') :
    (∃ a b, srcA = .reg a ∧ srcB = .reg b ∧
      q' = { q with raddrA := .uninit, raddrB := .uninit, addA := .uninit, addB := .uninit }) ∨
    (∃ a i r, srcA = .reg a ∧ srcB = .imm i ∧ encodeSrcRegOld a = .ok r ∧
      q' = { q with
        sigSmallImm := .set true, raddrA := .set r, raddrB := .uninit, addA := .uninit,
        addB := .uninit }) := by
  unfold encodeAluOperands at h
  split at h
  · exact .inl ⟨_, _, rfl, rfl, (Except.ok.inj h).symm⟩
  · obtain ⟨r, hr, h⟩ := except_bind_eq_ok.mp h
    exact .inr ⟨_, _, r, rfl, rfl, hr, (Except.ok.inj h).symm⟩
  all_goals cases h

end AluPath

/-- The ALU path of `encodeInstr`, for every instruction that is not a uniform load: each field
    comes from the helper that writes it, and nothing writes the condition or the flag push. -/
theorem encodeInstr_alu_spec (sf : Bool) (cond : AssignCond) (dest : Reg) (srcA : Operand)
    (op : ALUOp) (srcB : Operand) (q : QpuInstr)
    (hul : (Instr.alu sf cond dest srcA op srcB).isUniformLoad = .ok false)
    (h : encodeInstr (.alu sf cond dest srcA op srcB) = .ok q) :
    AluEncoding sf cond dest srcA op srcB q := by
  simp only [encodeInstr, hul, except_bind_eq_ok, Except.ok.injEq, exists_eq_left',
    Bool.false_eq_true, if_false] at h
  obtain ⟨q₀, hq₀, t, ht, h⟩ := h
  by_cases hop : op = .aShl
  · subst hop
    obtain ⟨dst, src, imm, hd, hs, rfl, rfl⟩ := translateOpcode_shl ht
    obtain rfl := Except.ok.inj h
    exact ⟨rfl, rfl, fun _ => ⟨dst, src, imm, hd, hs, rfl, rfl⟩, fun h => absurd rfl h⟩
  rw [translateOpcode_of_ne hop, Except.ok.injEq] at ht
  subst ht
  dsimp only at h
  rw [if_neg (by rintro rfl; cases h)] at h
  obtain ⟨q₁, hq₁, h⟩ := except_bind_eq_ok.mp h
  obtain ⟨loc, hloc, rfl⟩ := setDestReg_ok hq₀
  have hmul : Instr.isMul (.alu sf cond dest srcA op srcB) = op.isMul := rfl
  -- every field of the result is read off the three updates
  rcases setAluOp_ok hq₁ with ⟨hm, o, ho, rfl⟩ | ⟨hm, o, ho, rfl⟩ <;>
    rcases encodeAluOperands_ok h with ⟨a, b, rfl, rfl, rfl⟩ | ⟨a, i, r, rfl, rfl, hr, rfl⟩ <;>
    rcases loc with _ | l <;>
    simp only [hm, if_true, if_false, Bool.false_eq_true] <;>
    refine ⟨rfl, rfl, (absurd · hop), fun _ => ⟨⟨_, hloc, ?_⟩, ?_, rfl, rfl, rfl, ?_⟩⟩ <;>
    simp_all

/-- `rf(1) := rf(2) + 3` under `ZC` with flags set: the immediate never reaches `raddr_b`.
    The small-immediate branch writes it there (`ret_instr.raddr_b = imm.to_raddr()`), and the
    copy of the local `raddrb`, which no branch assigns, overwrites it after the operand cases;
    both add-ALU muxes come from the unassigned `muxa` and `muxb`, and the condition and the
    flag push are dropped. -/
theorem encodeInstr_imm_raddrB_overwritten :
    ∃ q, encodeInstr (.alu true ⟨.flag, .zc⟩ (rf 1) (.reg (rf 2)) .aAdd
        (.imm ⟨.smallImm, 3⟩)) = .ok q ∧
      q.sigSmallImm = .set true ∧ q.raddrB = .uninit ∧ q.addA = .uninit ∧ q.addB = .uninit ∧
      q.cond = .nop ∧ q.pushFlags = .nop :=
  ⟨_, rfl, rfl, rfl, rfl, rfl, rfl, rfl⟩

/-! ### The top-level encoder -/

/-- `_encode`: the word of each instruction is pushed onto `code`. -/
def encode (instrs : List Instr) (code : List QpuInstr) : Except String (List QpuInstr) :=
  appendEach encodeInstr (fun opcode => [opcode]) instrs code

/-- Only the ALU case of `encodeInstr` returns. -/
theorem encodeInstr_ok_alu {instr : Instr} {q : QpuInstr} (h : encodeInstr instr = .ok q) :
    ∃ sf cond dest srcA op srcB, instr = .alu sf cond dest srcA op srcB := by
  cases instr <;> first | exact ⟨_, _, _, _, _, _, rfl⟩ | cases h

/-- The code is the instructions' encodings, in order. -/
theorem encode_eq_ok {instrs : List Instr} {code : List QpuInstr} :
    encode instrs [] = .ok code ↔
      List.Forall₂ (fun instr q => encodeInstr instr = .ok q) instrs code := by
  simp [encode, appendEach_eq_ok]

/-- `_encode` accepts only programs made of ALU instructions: a kernel with an `END`, a branch,
    a load immediate or a semaphore cannot be encoded. -/
theorem encode_ok_alu {instrs : List Instr} {code : List QpuInstr}
    (h : encode instrs [] = .ok code) :
    ∀ instr ∈ instrs, ∃ sf cond dest srcA op srcB, instr = .alu sf cond dest srcA op srcB :=
  ((List.forall₂_and_left _ _).mp
    ((encode_eq_ok.mp h).imp fun _ _ hq => ⟨encodeInstr_ok_alu hq, hq⟩)).1

end V3d

end V3DLib
