import V3DLib.Target.Instr
import V3DLib.Loop

/-!
# The vc4 encoder

`Target/Encode.cpp`: every target instruction becomes a 64-bit VideoCore IV word, returned
as its two 32-bit halves `(high, low)`. Words are `BitVec 32`, so shifts and casts wrap as on
`uint32_t`. A failed `assert` or a `fprintf(...); exit(...)` is an `Except.error` carrying the
asserted condition or the printed text.

## Main results

* `encode_layout`: the top-level encoder lays the words out one instruction after another, the
  low half first, and succeeds only if every instruction encodes.
-/

namespace V3DLib

/-- `encodeAddOp`: the add-pipeline opcode field. -/
def encodeAddOp : ALUOp → Except String Nat
  | .nop => pure 0 | .aFadd => pure 1 | .aFsub => pure 2 | .aFmin => pure 3
  | .aFmax => pure 4 | .aFminabs => pure 5 | .aFmaxabs => pure 6 | .aFtoI => pure 7
  | .aItoF => pure 8 | .aAdd => pure 12 | .aSub => pure 13 | .aShr => pure 14
  | .aAsr => pure 15 | .aRor => pure 16 | .aShl => pure 17 | .aMin => pure 18
  | .aMax => pure 19 | .aBand => pure 20 | .aBor => pure 21 | .aBxor => pure 22
  | .aBnot => pure 23 | .aClz => pure 24 | .aV8adds => pure 30 | .aV8subs => pure 31
  | _ => throw "QPULib: unknown add op"

/-- `encodeMulOp`: the mul-pipeline opcode field. -/
def encodeMulOp : ALUOp → Except String Nat
  | .nop => pure 0 | .mFmul => pure 1 | .mMul24 => pure 2 | .mV8mul => pure 3
  | .mV8min => pure 4 | .mV8max => pure 5 | .mV8adds => pure 6 | .mV8subs => pure 7
  | _ => throw "QPULib: unknown mul op"

/-- `encodeAssignCond`. Every condition has a case, so the final error is unreachable. -/
def encodeAssignCond (cond : AssignCond) : Nat :=
  match cond.tag, cond.flag with
  | .never, _ => 0
  | .always, _ => 1
  | .flag, .zs => 2
  | .flag, .zc => 3
  | .flag, .ns => 4
  | .flag, .nc => 5

/-- `encodeBranchCond`; `COND_NEVER` is refused. -/
def encodeBranchCond (cond : BranchCond) : Except String Nat :=
  match cond.tag, cond.flag with
  | .condNever, _ => throw "QPULib: \x27never\x27 condition not supported"
  | .condAlways, _ => pure 15
  | .condAll, .zs => pure 0
  | .condAll, .zc => pure 1
  | .condAll, .ns => pure 4
  | .condAll, .nc => pure 5
  | .condAny, .zs => pure 2
  | .condAny, .zc => pure 3
  | .condAny, .ns => pure 6
  | .condAny, .nc => pure 7

/-- `encodeDestReg`: the regfile and write address of a destination. In the `SPECIAL` case
    the inner `default: break;` leaves only the inner `switch`, so a special id missing from
    the table falls through into `case NONE`. -/
def encodeDestReg (reg : Reg) : Except String (RegTag × Nat) :=
  let aOrB : RegTag := if reg.tag = .regA ∨ reg.tag = .regB then reg.tag else .regA
  let nop : Except String (RegTag × Nat) := pure (aOrB, 39)
  match reg.tag with
  | .regA =>
    if 0 ≤ reg.regId ∧ reg.regId < 32 then pure (.regA, reg.regId.toNat)
    else throw "reg.regId >= 0 && reg.regId < 32"
  | .regB =>
    if 0 ≤ reg.regId ∧ reg.regId < 32 then pure (.regB, reg.regId.toNat)
    else throw "reg.regId >= 0 && reg.regId < 32"
  | .acc =>
    if 0 ≤ reg.regId ∧ reg.regId ≤ 5 then
      pure (if reg.regId = 5 then .regB else aOrB, 32 + reg.regId.toNat)
    else throw "reg.regId >= 0 && reg.regId <= 5"
  | .special =>
    match Special.ofId? reg.regId with
    | some .rdSetup => pure (.regA, 49)
    | some .wrSetup => pure (.regB, 49)
    | some .dmaLdAddr => pure (.regA, 50)
    | some .dmaStAddr => pure (.regB, 50)
    | some .vpmWrite => pure (aOrB, 48)
    | some .hostInt => pure (aOrB, 38)
    | some .tmu0S => pure (aOrB, 56)
    | some .sfuRecip => pure (aOrB, 52)
    | some .sfuRecipSqrt => pure (aOrB, 53)
    | some .sfuExp => pure (aOrB, 54)
    | some .sfuLog => pure (aOrB, 55)
    | _ => nop
  | .none => nop
  | _ => throw "QPULib: missing case in encodeDestReg"

/-- `encodeSrcReg reg file`: the regfile index and the input mux of a source read through
    `file`. -/
def encodeSrcReg (reg : Reg) (file : RegTag) : Except String (Nat × Nat) :=
  if ¬(file = .regA ∨ file = .regB) then throw "file == REG_A || file == REG_B" else
  let aOrB := if file = .regA then 6 else 7
  match reg.tag with
  | .regA =>
    if 0 ≤ reg.regId ∧ reg.regId < 32 ∧ file = .regA then pure (reg.regId.toNat, 6)
    else throw "reg.regId >= 0 && reg.regId < 32 && file == REG_A"
  | .regB =>
    if 0 ≤ reg.regId ∧ reg.regId < 32 ∧ file = .regB then pure (reg.regId.toNat, 7)
    else throw "reg.regId >= 0 && reg.regId < 32 && file == REG_B"
  | .acc =>
    if 0 ≤ reg.regId ∧ reg.regId ≤ 4 then pure (0, reg.regId.toNat)
    else throw "reg.regId >= 0 && reg.regId <= 4"
  | .none => pure (39, aOrB)
  | .special =>
    match Special.ofId? reg.regId with
    | some .uniform => pure (32, aOrB)
    | some .elemNum => if file = .regA then pure (38, 6) else throw "file == REG_A"
    | some .qpuNum => if file = .regB then pure (38, 7) else throw "file == REG_B"
    | some .vpmRead => pure (48, aOrB)
    | some .dmaLdWait => if file = .regA then pure (50, 6) else throw "file == REG_A"
    | some .dmaStWait => if file = .regB then pure (50, 7) else throw "file == REG_B"
    | _ => throw "QPULib: missing case in encodeSrcReg"
  | _ => throw "QPULib: missing case in encodeSrcReg"

/-- The `uint32_t` of a small natural number. -/
def u32 (n : Nat) : BitVec 32 := BitVec.ofNat 32 n

/-- The read fields `(raddr_a, raddr_b, mux_a, mux_b)` of an ALU instruction other than a
    rotation. The C chain tests "both registers", then "`srcB` immediate", then "`srcA`
    immediate"; two immediates take the second branch, whose `srcA.reg` is the union read
    `Operand.regField`, so its final `assert(false)` is never reached. -/
def encodeAluSrcs (srcA srcB : Operand) : Except String (Nat × BitVec 32 × Nat × Nat) :=
  match srcA, srcB with
  | .reg a, .reg b =>
    let aFile := regFileOf a
    let bFile := regFileOf b
    if a.tag ≠ .none ∧ a.tag = b.tag ∧ a.regId = b.regId then do
      -- the same register: read it once
      if aFile = .regA then
        let (raddra, muxa) ← encodeSrcReg a .regA
        pure (raddra, u32 39, muxa, muxa)
      else
        let (raddrb, muxa) ← encodeSrcReg a .regB
        pure (39, u32 raddrb, muxa, muxa)
    else if ¬(aFile = .none ∨ bFile = .none ∨ aFile ≠ bFile) then
      throw "aFile == NONE || bFile == NONE || aFile != bFile"
    else if aFile = .regA ∨ bFile = .regB then do
      let (raddra, muxa) ← encodeSrcReg a .regA
      let (raddrb, muxb) ← encodeSrcReg b .regB
      pure (raddra, u32 raddrb, muxa, muxb)
    else do
      let (raddrb, muxa) ← encodeSrcReg a .regB
      let (raddra, muxb) ← encodeSrcReg b .regA
      pure (raddra, u32 raddrb, muxa, muxb)
  | _, .imm b => do
    let (raddra, muxa) ← encodeSrcReg srcA.regField .regA
    pure (raddra, BitVec.ofInt 32 b.val, muxa, 7)
  | .imm a, .reg b => do
    let (raddra, muxb) ← encodeSrcReg b .regA
    pure (raddra, BitVec.ofInt 32 a.val, 7, muxb)

/-- The low word of `M_ROTATE`: a mul-pipeline `V8MIN` of `r0` with `r0` under the small
    immediate signal, the rotation in `raddr_b`. The source asserts `n >= 1 || n <= 15`. -/
def encodeRotate (srcA srcB : Operand) : Except String (BitVec 32) := do
  match srcA with
  | .reg a => if ¬(a.tag = .acc ∧ a.regId = 0) then
      throw "srcA.tag == REG && srcA.reg.tag == ACC && srcA.reg.regId == 0" else pure ()
  | .imm _ => throw "srcA.tag == REG && srcA.reg.tag == ACC && srcA.reg.regId == 0"
  match srcB with
  | .reg b => if ¬(b.tag = .acc ∧ b.regId = 5) then
      throw "srcB.tag == REG ? srcB.reg.tag == ACC && srcB.reg.regId == 5 : true" else pure ()
  | .imm _ => pure ()
  let mulOp := u32 (← encodeMulOp .mV8min) <<< 29
  let raddrb : BitVec 32 ← match srcB with
    | .reg _ => pure (u32 48)
    | .imm i =>
      let n := BitVec.ofInt 32 i.val
      if ¬(1 ≤ n.toNat ∨ n.toNat ≤ 15) then throw "n >= 1 || n <= 15" else pure (u32 48 + n)
  let raddra := u32 39
  pure (mulOp ||| (raddrb <<< 12) ||| (raddra <<< 18))

/-- `encodeInstr`: the pseudo instructions `IRQ`, `DMA_LOAD_WAIT`, `DMA_STORE_WAIT` are first
    rewritten to the `LI`/`ALU` they stand for, then the core instruction is encoded. -/
def encodeInstr (instr : Instr) : Except String (BitVec 32 × BitVec 32) :=
  let instr : Instr := match instr with
    | .irq => .li false always (.ofSpecial .hostInt) ⟨.immInt32, 1⟩
    | .dmaLoadWait =>
      .alu false ⟨.never, .zs⟩ ⟨.none, 0, false⟩ (.reg (.ofSpecial .dmaLdWait)) .aBor
        (.reg (.ofSpecial .dmaLdWait))
    | .dmaStoreWait =>
      .alu false ⟨.never, .zs⟩ ⟨.none, 0, false⟩ (.reg (.ofSpecial .dmaStWait)) .aBor
        (.reg (.ofSpecial .dmaStWait))
    | instr => instr
  match instr with
  | .li setFlags cond dest imm => do
    let cond := u32 (encodeAssignCond cond) <<< 17
    let (file, waddr) ← encodeDestReg dest
    let waddrAdd := u32 waddr <<< 6
    let waddrMul := u32 39
    let ws := u32 (if file = .regA then 0 else 1) <<< 12
    let sf := u32 (if setFlags then 1 else 0) <<< 13
    pure (0xe0000000#32 ||| cond ||| ws ||| sf ||| waddrAdd ||| waddrMul,
      BitVec.ofInt 32 imm.intVal)
  | .br cond target => do
    if target.useRegOffset then throw "! instr.BR.target.useRegOffset"
    let waddrAdd := u32 39 <<< 6
    let waddrMul := u32 39
    let cond := u32 (← encodeBranchCond cond) <<< 20
    let rel := u32 (if target.relative then 1 else 0) <<< 19
    pure (0xf0000000#32 ||| cond ||| rel ||| waddrAdd ||| waddrMul,
      u32 8 * BitVec.ofInt 32 target.immOffset)
  | .alu setFlags cond dest srcA op srcB => do
    let isMul := op.isMul
    let hasImm := (match srcA with | .imm _ => true | _ => false) ||
      (match srcB with | .imm _ => true | _ => false)
    let isRot := op == .mRotate
    let sig := u32 (if hasImm || isRot then 13 else 1) <<< 28
    let cond := u32 (encodeAssignCond cond) <<< (if isMul then 14 else 17)
    let (file, dest) ← encodeDestReg dest
    let (waddrAdd, waddrMul, ws) :=
      if isMul then (u32 39 <<< 6, u32 dest, u32 (if file = .regB then 0 else 1) <<< 12)
      else (u32 dest <<< 6, u32 39, u32 (if file = .regA then 0 else 1) <<< 12)
    let sf := u32 (if setFlags then 1 else 0) <<< 13
    let high := sig ||| cond ||| ws ||| sf ||| waddrAdd ||| waddrMul
    if op = .mRotate then
      pure (high, ← encodeRotate srcA srcB)
    else
      let mulOp := u32 (← if isMul then encodeMulOp op else pure 0) <<< 29
      let addOp := u32 (← if isMul then pure 0 else encodeAddOp op) <<< 24
      let (raddra, raddrb, muxa, muxb) ← encodeAluSrcs srcA srcB
      pure (high, mulOp ||| addOp ||| (u32 raddra <<< 18) ||| (raddrb <<< 12)
        ||| (u32 muxa <<< 9) ||| (u32 muxb <<< 6) ||| (u32 muxa <<< 3) ||| u32 muxb)
  | .halt | .tmu0ToAcc4 =>
    let sig := if instr = .halt then 0x30000000#32 else 0xa0000000#32
    pure (sig ||| (u32 39 <<< 6) ||| u32 39, (u32 39 <<< 18) ||| (u32 39 <<< 12))
  | .sinc semaId | .sdec semaId =>
    let incOrDec := u32 (if instr matches .sinc _ then 0 else 1) <<< 4
    pure (0xe8000000#32 ||| (u32 39 <<< 6) ||| u32 39, incOrDec ||| BitVec.ofInt 32 semaId)
  | .noOp | .pri _ | .prs | .prf _ =>
    pure (0xe0000000#32 ||| (u32 39 <<< 6) ||| u32 39, 0#32)
  | _ => throw "QPULib: missing case in encodeInstr"


theorem encodeAssignCond_lt (cond : AssignCond) : encodeAssignCond cond < 8 := by
  obtain ⟨tag, flag⟩ := cond
  cases tag <;> cases flag <;> decide

theorem encodeAddOp_lt {op : ALUOp} {n : Nat} (h : encodeAddOp op = .ok n) : n < 32 := by
  cases op <;> cases h <;> decide

theorem encodeMulOp_lt {op : ALUOp} {n : Nat} (h : encodeMulOp op = .ok n) : n < 8 := by
  cases op <;> cases h <;> decide

/-- A small non-negative `int` cast to `uint32_t`. -/
theorem ofInt_eq_u32 {v : Int} (h0 : 0 ≤ v) : BitVec.ofInt 32 v = u32 v.toNat := by
  apply BitVec.eq_of_toNat_eq
  simp [u32, BitVec.toNat_ofInt]
  omega

/-- The load-immediate case of `encodeInstr`. -/
theorem encodeInstr_li (sf : Bool) (cond : AssignCond) (dest : Reg) (imm : Imm) :
    encodeInstr (.li sf cond dest imm) = encodeDestReg dest >>= fun (file, waddr) =>
      pure (0xe0000000#32 ||| u32 (encodeAssignCond cond) <<< 17 |||
        u32 (if file = .regA then 0 else 1) <<< 12 ||| u32 (if sf then 1 else 0) <<< 13 |||
        u32 waddr <<< 6 ||| u32 39, BitVec.ofInt 32 imm.intVal) := rfl

/-! ### The top-level encoder -/

/-- `encode`: the two halves of each instruction are appended to `code`, the low half first. -/
def encode (instrs : List Instr) (code : List (BitVec 32)) : Except String (List (BitVec 32)) :=
  appendEach encodeInstr (fun (high, low) => [low, high]) instrs code

theorem getElem?_flatMap_halves {β : Type} : ∀ (ws : List (β × β)) (i : Nat),
    (ws.flatMap fun (high, low) => [low, high])[2 * i]? = ws[i]?.map Prod.snd ∧
      (ws.flatMap fun (high, low) => [low, high])[2 * i + 1]? = ws[i]?.map Prod.fst
  | [], _ => by simp
  | (high, low) :: ws, 0 => by simp
  | (high, low) :: ws, i + 1 => by
    rw [show 2 * (i + 1) = 2 * i + 1 + 1 by omega]
    simpa using getElem?_flatMap_halves ws i

theorem length_flatMap_halves {β : Type} (ws : List (β × β)) :
    (ws.flatMap fun (high, low) => [low, high]).length = 2 * ws.length := by
  induction ws with
  | nil => rfl
  | cons w ws ih => simp [ih]; omega

/-- A program that encodes is two words per instruction, instruction `i` at words `2 i` (low)
    and `2 i + 1` (high): the "low half first" stream of 64-bit words. -/
theorem encode_layout {instrs : List Instr} {code : List (BitVec 32)}
    (h : encode instrs [] = .ok code) :
    code.length = 2 * instrs.length ∧ ∀ i (hi : i < instrs.length), ∃ high low,
      encodeInstr instrs[i] = .ok (high, low) ∧ code[2 * i]? = some low ∧
        code[2 * i + 1]? = some high := by
  obtain ⟨ws, hws, rfl⟩ := appendEach_eq_ok.mp h
  have hlen := hws.length_eq
  refine ⟨by rw [List.nil_append, length_flatMap_halves, hlen], fun i hi => ?_⟩
  obtain ⟨hlo, hhi⟩ := getElem?_flatMap_halves ws i
  refine ⟨_, _, (List.forall₂_iff_get.mp hws).2 i hi (hlen ▸ hi), ?_, ?_⟩ <;>
    simp [hlo, hhi, List.getElem?_eq_getElem (hlen ▸ hi)]

/-- `rf(0) := 5; END` as four words. -/
theorem encode_layout_load_halt : ∃ code, encode [movImm (rf 0) 5, .halt] [] = .ok code ∧
    code.length = 2 * [movImm (rf 0) 5, Instr.halt].length ∧
    ∀ i (hi : i < [movImm (rf 0) 5, Instr.halt].length), ∃ high low,
      encodeInstr [movImm (rf 0) 5, Instr.halt][i] = .ok (high, low) ∧ code[2 * i]? = some low ∧
        code[2 * i + 1]? = some high :=
  ⟨_, rfl, encode_layout rfl⟩

/-- Labels are resolved before encoding: the encoder has no case for `LAB`. -/
example : encode [.noOp, .lab 0] [] = .error "QPULib: missing case in encodeInstr" := rfl

end V3DLib
