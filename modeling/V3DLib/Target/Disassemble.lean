import V3DLib.Target.RoundTrip

/-!
# Disassembling vc4 words

`decodeInstr` reads a whole 64-bit VideoCore IV word back into a target instruction, from the
fields `Target/Decode.lean` reads one by one: the signal chooses between a branch, `END`, a TMU
load, a load immediate or semaphore, and an ALU operation, and an ALU word is read through the
pipeline whose opcode is set. The round trip closes the encoder's side: every instruction
`encodeInstr` accepts, with its fields in the ranges its word holds (`Instr.Fits`), decodes to
what the encoder keeps of it (`Instr.encoded`): the pseudo-instructions as the core instruction
they stand for, the no-op and the prints as the load immediate that writes nothing, registers
without their pointer flag, and conditions without the flag they do not test.

## Main definitions

* `decodeAssignCond`, `decodeBranchCond`, `decodeAddOp`, `decodeMulOp`: the encoder's tables
  read backwards.
* `decodeInstr`: the instruction of a word.
* `Instr.encoded`, `Instr.Fits`: what the encoder keeps of an instruction, and when its fields
  fit the word.

## Main results

* `labelToTarget_encode_lands`: a `BRL` turned into a `BR` by `label_to_target` and encoded
  keeps its condition, which decodes back, and its byte offset lands on the label after the
  delay slots.
* `decodeInstr_encodeInstr`: a word the encoder returns decodes to what it keeps of the
  instruction.
-/

namespace V3DLib

-- ═══════════════════════════════════════════════════════════════════════════
-- The tables read backwards
-- ═══════════════════════════════════════════════════════════════════════════

/-- The condition of a 3-bit condition field. -/
def decodeAssignCond : Nat → Option AssignCond
  | 0 => some ⟨.never, .zs⟩
  | 1 => some ⟨.always, .zs⟩
  | 2 => some ⟨.flag, .zs⟩
  | 3 => some ⟨.flag, .zc⟩
  | 4 => some ⟨.flag, .ns⟩
  | 5 => some ⟨.flag, .nc⟩
  | _ => none

/-- A condition without the flag it does not test: `NEVER` and `ALWAYS` test none. -/
def AssignCond.norm (c : AssignCond) : AssignCond :=
  if c.tag = .flag then c else ⟨c.tag, .zs⟩

theorem decodeAssignCond_encode (c : AssignCond) :
    decodeAssignCond (encodeAssignCond c) = some c.norm := by
  obtain ⟨tag, flag⟩ := c
  cases tag <;> cases flag <;> rfl

/-- The condition of a 4-bit branch condition field. -/
def decodeBranchCond : Nat → Option BranchCond
  | 0 => some ⟨.condAll, .zs⟩
  | 1 => some ⟨.condAll, .zc⟩
  | 2 => some ⟨.condAny, .zs⟩
  | 3 => some ⟨.condAny, .zc⟩
  | 4 => some ⟨.condAll, .ns⟩
  | 5 => some ⟨.condAll, .nc⟩
  | 6 => some ⟨.condAny, .ns⟩
  | 7 => some ⟨.condAny, .nc⟩
  | 15 => some ⟨.condAlways, .zs⟩
  | _ => none

/-- A branch condition without the flag it does not test: `ALWAYS` tests none. -/
def BranchCond.norm (c : BranchCond) : BranchCond :=
  if c.tag = .condAlways then ⟨.condAlways, .zs⟩ else c

theorem decodeBranchCond_encode {c : BranchCond} {n : Nat} (h : encodeBranchCond c = .ok n) :
    decodeBranchCond n = some c.norm := by
  obtain ⟨tag, flag⟩ := c
  cases tag <;> cases flag <;> cases h <;> rfl

/-- The add-pipeline opcode of a 5-bit field. -/
def decodeAddOp : Nat → Option ALUOp
  | 0 => some .nop | 1 => some .aFadd | 2 => some .aFsub | 3 => some .aFmin
  | 4 => some .aFmax | 5 => some .aFminabs | 6 => some .aFmaxabs | 7 => some .aFtoI
  | 8 => some .aItoF | 12 => some .aAdd | 13 => some .aSub | 14 => some .aShr
  | 15 => some .aAsr | 16 => some .aRor | 17 => some .aShl | 18 => some .aMin
  | 19 => some .aMax | 20 => some .aBand | 21 => some .aBor | 22 => some .aBxor
  | 23 => some .aBnot | 24 => some .aClz | 30 => some .aV8adds | 31 => some .aV8subs
  | _ => none

/-- The mul-pipeline opcode of a nonzero 3-bit field; 0 leaves the mul pipeline idle. -/
def decodeMulOp : Nat → Option ALUOp
  | 1 => some .mFmul | 2 => some .mMul24 | 3 => some .mV8mul | 4 => some .mV8min
  | 5 => some .mV8max | 6 => some .mV8adds | 7 => some .mV8subs
  | _ => none

theorem decodeAddOp_encode {op : ALUOp} {n : Nat} (h : encodeAddOp op = .ok n) :
    decodeAddOp n = some op := by
  cases op <;> cases h <;> rfl

/-- A mul-pipeline opcode is nonzero, so the word is read through the mul pipeline. -/
theorem decodeMulOp_encode {op : ALUOp} {n : Nat} (h : encodeMulOp op = .ok n) (hop : op ≠ .nop) :
    n ≠ 0 ∧ decodeMulOp n = some op := by
  cases op <;> cases h <;> first | exact absurd rfl hop | exact ⟨by decide, rfl⟩

-- ═══════════════════════════════════════════════════════════════════════════
-- Whole instructions
-- ═══════════════════════════════════════════════════════════════════════════

/-- The instruction of a word. Signal 15 is a branch, whose low word is eight times its offset;
    3 is `END` and 10 a TMU load; 14 is a load immediate in mode 0 and a semaphore in mode 4;
    1 and 13 are an ALU operation, read through the mul pipeline when its opcode is set (a
    `V8MIN` under signal 13 with a rotation code in `raddr_b` being a rotation) and through the
    add pipeline otherwise. -/
def decodeInstr (high low : BitVec 32) : Option Instr :=
  let sf := decide (field high 13 1 = 1)
  match field high 28 4 with
  | 15 => do
    let cond ← decodeBranchCond (field high 20 4)
    pure (.br cond ⟨decide (field high 19 1 = 1), false, 0, low.toInt / 8⟩)
  | 3 => some .halt
  | 10 => some .tmu0ToAcc4
  | 14 =>
    if field high 25 3 = 4 then
      some (if field low 4 1 = 0 then .sinc (field low 0 4) else .sdec (field low 0 4))
    else if field high 25 3 = 0 then do
      let cond ← decodeAssignCond (field high 17 3)
      let dest ← decodeDest high
      pure (.li sf cond dest ⟨.immInt32, low.toInt⟩)
    else none
  | 1 | 13 => do
    let (addA, addB, mulA, mulB) := decodeInputs high low
    if field low 29 3 = 0 then
      let cond ← decodeAssignCond (field high 17 3)
      let dest ← decodeDest high
      let op ← decodeAddOp (field low 24 5)
      pure (.alu sf cond dest (← addA) op (← addB))
    else
      let cond ← decodeAssignCond (field high 14 3)
      let dest ← decodeDest high
      match decodeRotation high low with
      | some rot => pure (.alu sf cond dest (← mulA) .mRotate rot)
      | none => pure (.alu sf cond dest (← mulA) (← decodeMulOp (field low 29 3)) (← mulB))
  | _ => none

/-- What a rotation amount decodes to: `r5`, or the immediate as a rotation. -/
def Operand.rotBack : Operand → Operand
  | .reg r => .reg r.readBack
  | .imm i => .imm ⟨.rotImm, i.val⟩

/-- What the encoder keeps of an instruction, the instruction its word decodes to: conditions
    and registers as they decode (`AssignCond.norm`, `Reg.readBack`), the immediate of a load
    as its 32 bits, a branch without its register offset, `IRQ` and the DMA waits as the
    instructions `encodeInstr` rewrites them to, and `NO_OP`, `PRI`, `PRS`, `PRF` as the load
    immediate of 0 that writes nothing. -/
def Instr.encoded : Instr → Instr
  | .li sf cond dest imm =>
    .li sf cond.norm dest.readBack ⟨.immInt32, (BitVec.ofInt 32 imm.intVal).toInt⟩
  | .alu sf cond dest srcA op srcB =>
    .alu sf cond.norm dest.readBack srcA.readBack op
      (if op = .mRotate then srcB.rotBack else srcB.readBack)
  | .br cond target => .br cond.norm ⟨target.relative, false, 0, target.immOffset⟩
  | .irq => .li false ⟨.always, .zs⟩ (.ofSpecial .hostInt) ⟨.immInt32, 1⟩
  | .dmaLoadWait =>
    .alu false ⟨.never, .zs⟩ ⟨.none, 0, false⟩ (.reg (.ofSpecial .dmaLdWait)) .aBor
      (.reg (.ofSpecial .dmaLdWait))
  | .dmaStoreWait =>
    .alu false ⟨.never, .zs⟩ ⟨.none, 0, false⟩ (.reg (.ofSpecial .dmaStWait)) .aBor
      (.reg (.ofSpecial .dmaStWait))
  | .noOp | .pri _ | .prs | .prf _ => .li false ⟨.never, .zs⟩ ⟨.none, 0, false⟩ ⟨.immInt32, 0⟩
  | instr => instr

/-- A destination with a write address of its own: not a special register the encoder has no
    address for, which it writes to the no-op address. -/
def Reg.Writable (r : Reg) : Prop := r.tag = .special → ∃ s ∈ writeSpecials, r.regId = s.id

instance (r : Reg) : Decidable r.Writable := inferInstanceAs (Decidable (_ → _))

/-- A small immediate below the rotation codes 48–63 of the mul pipeline. -/
def Operand.BelowRotation : Operand → Prop
  | .reg _ => True
  | .imm i => i.val < 48

/-- A rotation amount the word holds: `r5`, or an immediate from 1 to 15. -/
def Operand.RotationFits : Operand → Prop
  | .reg _ => True
  | .imm i => 1 ≤ i.val ∧ i.val ≤ 15

/-- The fields of an instruction fit its word: a destination with an address, small
    immediates in `raddr_b`, at most one of them, none of them a rotation code for `V8MIN`, a
    rotation amount from 1 to 15, a branch offset of 29 bits, a semaphore id of 4 bits. -/
def Instr.Fits : Instr → Prop
  | .li _ _ dest _ => dest.Writable
  | .alu _ _ dest srcA op srcB => dest.Writable ∧
    if op = .mRotate then srcB.RotationFits
    else srcA.FitsRaddr ∧ srcB.FitsRaddr ∧ ¬(srcA.isImm ∧ srcB.isImm) ∧
      (op = .mV8min → srcA.BelowRotation ∧ srcB.BelowRotation)
  | .br _ target => -2 ^ 28 ≤ target.immOffset ∧ target.immOffset < 2 ^ 28
  | .sinc n | .sdec n => 0 ≤ n ∧ n < 16
  | _ => True

instance (o : Operand) : Decidable o.FitsRaddr := by
  cases o <;> unfold Operand.FitsRaddr <;> infer_instance

instance (o : Operand) : Decidable o.BelowRotation := by
  cases o <;> unfold Operand.BelowRotation <;> infer_instance

instance (o : Operand) : Decidable o.RotationFits := by
  cases o <;> unfold Operand.RotationFits <;> infer_instance

instance (instr : Instr) : Decidable instr.Fits := by
  cases instr <;> unfold Instr.Fits <;> infer_instance

-- ═══════════════════════════════════════════════════════════════════════════
-- Fields read back
-- ═══════════════════════════════════════════════════════════════════════════

/-- The branch condition field holds 4 bits. -/
theorem encodeBranchCond_lt {c : BranchCond} {n : Nat} (h : encodeBranchCond c = .ok n) :
    n < 16 := by
  obtain ⟨tag, flag⟩ := c
  cases tag <;> cases flag <;> cases h <;> decide

/-- Eight times an offset of 29 bits, as a `uint32_t` read back signed, is the byte count. -/
theorem toInt_u32_eight_mul_of_lt {z : Int} (h0 : -2 ^ 28 ≤ z) (h1 : z < 2 ^ 28) :
    (u32 8 * BitVec.ofInt 32 z).toInt = 8 * z := by
  rw [show u32 8 = BitVec.ofInt 32 8 from rfl, ← BitVec.ofInt_mul, BitVec.toInt_ofInt, Int.bmod]
  split <;> omega

/-- A mux reads a small immediate only as the value of `raddr_b`. -/
theorem decodeMux_imm {sig ra rb mux : Nat} {i : SmallImm}
    (h : decodeMux sig ra rb mux = some (.imm i)) : i.val = rb := by
  unfold decodeMux at h
  split_ifs at h
  · cases h
  · obtain ⟨_, -, h⟩ := Option.map_eq_some'.mp h; cases h
  · cases h; rfl
  · obtain ⟨_, -, h⟩ := Option.map_eq_some'.mp h; cases h

/-- The set-flags bit read back. -/
theorem decide_setFlags {high : BitVec 32} {sf : Bool} (h : field high 13 1 = if sf then 1 else 0) :
    decide (field high 13 1 = 1) = sf := by
  rw [h]; cases sf <;> rfl

/-- An immediate below the rotation codes is read from a `raddr_b` below them. -/
theorem decodeMux_imm_lt {o : Operand} {sig ra rb mux : Nat} (hi : o.isImm)
    (hb : o.BelowRotation) (h : decodeMux sig ra rb mux = some o.readBack) : rb < 48 := by
  cases o with
  | reg r => cases hi
  | imm i =>
    have : i.val = rb := @decodeMux_imm _ _ _ _ ⟨.smallImm, i.val⟩ h
    simp only [Operand.BelowRotation] at hb
    omega

/-- Through regfile A or B, only the no-op address writes `NONE`. -/
theorem decodeWriteAddr_tag_none {file : RegTag} {addr : Nat} {r : Reg}
    (hfile : file = .regA ∨ file = .regB) (h : decodeWriteAddr file addr = some r)
    (hr : r.tag = .none) : r = ⟨.none, 0, false⟩ := by
  unfold decodeWriteAddr at h
  rcases hfile with rfl | rfl <;> split_ifs at h <;> try split at h
  all_goals cases h
  all_goals first | rfl | cases hr

/-- Every special register the encoder has a write address for is written back from one. -/
theorem writeSpecials_decode : ∀ s ∈ writeSpecials, ∃ a < 64,
    decodeWriteAddr .regA a = some (.ofSpecial s) ∨
      decodeWriteAddr .regB a = some (.ofSpecial s) := by
  decide

/-- A writable destination decodes back from the address `encodeDestReg` gives it. -/
theorem encodeDestReg_writable {dest : Reg} {file : RegTag} {addr : Nat}
    (h : encodeDestReg dest = .ok (file, addr)) (hw : dest.Writable) :
    decodeWriteAddr file addr = some dest.readBack := by
  obtain ⟨hfile, hdec | ⟨hdec, hnone⟩⟩ := encodeDestReg_decode h
  · rw [hdec, Reg.readBack]
    split_ifs with hn
    · rw [decodeWriteAddr_tag_none hfile hdec hn]
    · rfl
  · rw [hdec]
    rcases hnone with hn | ⟨hs, hne⟩
    · simp [Reg.readBack, hn]
    · obtain ⟨s, hs', hid⟩ := hw hs
      obtain ⟨a, -, ha | ha⟩ := writeSpecials_decode s hs'
      · exact absurd (by rw [hid]; exact ha) (hne .regA a (.inl rfl))
      · exact absurd (by rw [hid]; exact ha) (hne .regB a (.inr rfl))

-- ═══════════════════════════════════════════════════════════════════════════
-- The round trip, word by word
-- ═══════════════════════════════════════════════════════════════════════════

/-- A load immediate decodes back to itself. -/
theorem decodeInstr_li {sf : Bool} {cond : AssignCond} {dest : Reg} {imm : Imm}
    {high low : BitVec 32} (h : encodeInstr (.li sf cond dest imm) = .ok (high, low))
    (hw : dest.Writable) : decodeInstr high low = some (Instr.li sf cond dest imm).encoded := by
  obtain ⟨hsig, hmode, hcond, hsf, ⟨file, addr, hd, hdest⟩, rfl⟩ := encodeInstr_li_decode h
  unfold decodeInstr
  simp only [hsig, hmode, hcond, decide_setFlags hsf, hdest, encodeDestReg_writable hd hw,
    decodeAssignCond_encode]
  rfl

/-- A branch decodes back to itself, its offset read from eight times it. -/
theorem decodeInstr_br {c : BranchCond} {t : BranchTarget} {high low : BitVec 32}
    (h : encodeInstr (.br c t) = .ok (high, low)) (hfit : (Instr.br c t).Fits) :
    decodeInstr high low = some (Instr.br c t).encoded := by
  obtain ⟨rel, useReg, reg, off⟩ := t
  obtain ⟨h0, h1⟩ : -2 ^ 28 ≤ off ∧ off < 2 ^ 28 := hfit
  unfold encodeInstr at h
  dsimp only at h
  cases useReg
  case true => rw [if_pos rfl] at h; cases h
  rw [if_neg Bool.false_ne_true, except_pure, except_ok_bind] at h
  obtain ⟨n, hn, h⟩ := except_bind_eq_ok.mp h
  obtain ⟨hh, hl⟩ := Prod.mk.inj (Except.ok.inj h)
  have hlt := encodeBranchCond_lt hn
  have hsig : (0xf0000000#32 : BitVec 32) = BitVec.ofNat 32 15 <<< 28 := by decide
  have hf : field high 28 4 = 15 ∧ field high 20 4 = n ∧
      field high 19 1 = (if rel then 1 else 0) := by
    subst hh
    refine ⟨?_, ?_, ?_⟩ <;>
    simp (disch := omega) only [hsig, u32, field_or, field_ofNat_ite_shl,
      field_ofNat_shl_self, field_ofNat_shl_above, field_ofNat_shl_below, field_ofNat_self,
      field_ofNat_below, Nat.zero_or, Nat.or_zero, ite_self]
  have hoff : low.toInt / 8 = off := by
    rw [← hl, toInt_u32_eight_mul_of_lt h0 h1]
    omega
  unfold decodeInstr
  simp only [hf.1, hf.2.1, hf.2.2, hoff, decodeBranchCond_encode hn]
  cases rel <;> rfl

/-- A `BRL` at index `i` whose label sits at index `t`, converted by `label_to_target(t - i)`
    and encoded: the word keeps the relative bit and the condition, which the condition field
    reads back (up to the flag `ALWAYS` does not test), and the pc after the branch and its
    three delay slots, `8 * (i + 4)`, plus the offset is the label's address. -/
theorem labelToTarget_encode_lands (c : BranchCond) (l : Label) (i t : Nat)
    (hc : c.tag ≠ .condNever) :
    ∃ instr high low, (Instr.brl c l).labelToTarget ((t : Int) - i) = .ok instr ∧
      encodeInstr instr = .ok (high, low) ∧
      field high 19 1 = 1 ∧ encodeBranchCond c = .ok (field high 20 4) ∧
      decodeBranchCond (field high 20 4) = some c.norm ∧
      (8 * ((i : Int) + 4) + low.toInt) % 2 ^ 32 = 8 * (t : Int) % 2 ^ 32 := by
  obtain ⟨high, henc, -, hrel, hcond⟩ := encodeInstr_br_fields c ((t : Int) - i - 4) hc
  refine ⟨_, high, _, rfl, henc, hrel, hcond, decodeBranchCond_encode hcond, ?_⟩
  have := toInt_u32_eight_mul ((t : Int) - i - 4)
  omega

/-- A conditional backward branch, from index 10 to a label at index 2. -/
theorem labelToTarget_encode_lands_backward :
    (⟨.condAll, .zc⟩ : BranchCond).tag ≠ .condNever ∧
      ∃ instr high low, (Instr.brl ⟨.condAll, .zc⟩ 0).labelToTarget ((2 : Nat) - (10 : Nat) : Int)
          = .ok instr ∧
        encodeInstr instr = .ok (high, low) ∧
        field high 19 1 = 1 ∧ encodeBranchCond ⟨.condAll, .zc⟩ = .ok (field high 20 4) ∧
        decodeBranchCond (field high 20 4) = some (⟨.condAll, .zc⟩ : BranchCond).norm ∧
        (8 * (((10 : Nat) : Int) + 4) + low.toInt) % 2 ^ 32 = 8 * ((2 : Nat) : Int) % 2 ^ 32 :=
  ⟨by decide, labelToTarget_encode_lands ⟨.condAll, .zc⟩ 0 10 2 (by decide)⟩

/-- A semaphore instruction decodes back to itself. -/
theorem decodeInstr_sema {instr : Instr} {n : Int} {high low : BitVec 32}
    (hs : instr = .sinc n ∨ instr = .sdec n) (h : encodeInstr instr = .ok (high, low))
    (hn : 0 ≤ n ∧ n < 16) : decodeInstr high low = some instr.encoded := by
  -- the id is a natural number below 16, which `uint32_t` keeps
  obtain ⟨n, rfl⟩ := Int.eq_ofNat_of_zero_le hn.1
  replace hn : n < 16 := by omega
  have hid : BitVec.ofInt 32 (n : Int) = u32 n := BitVec.ofInt_natCast 32 n
  have hsig :
      (0xe8000000#32 : BitVec 32) = BitVec.ofNat 32 14 <<< 28 ||| BitVec.ofNat 32 4 <<< 25 := by
    decide
  have hf : ∀ k, field (0xe8000000#32 ||| u32 39 <<< 6 ||| u32 39) 28 4 = 14 ∧
      field (0xe8000000#32 ||| u32 39 <<< 6 ||| u32 39) 25 3 = 4 ∧
      field (u32 k <<< 4 ||| u32 n) 0 4 = n ∧ (k < 2 → field (u32 k <<< 4 ||| u32 n) 4 1 = k) := by
    intro k
    refine ⟨?_, ?_, ?_, fun hk => ?_⟩ <;>
    simp (disch := omega) only [hsig, u32, field_or, field_ofNat_shl_self, field_ofNat_shl_above,
      field_ofNat_shl_below, field_ofNat_self, field_ofNat_below, Nat.zero_or, Nat.or_zero]
  rcases hs with rfl | rfl <;> cases h <;> unfold decodeInstr <;> rw [hid]
  · simp only [ite_true, (hf 0).1, (hf 0).2.1, (hf 0).2.2.1, (hf 0).2.2.2 (by decide)]
    rfl
  · simp only [ite_true, Bool.false_eq_true, ite_false, (hf 1).1, (hf 1).2.1, (hf 1).2.2.1,
      (hf 1).2.2.2 (by decide)]
    rfl

/-- An ALU operation other than a rotation decodes back to itself, through the pipeline of its
    opcode: the mul pipeline's opcode is nonzero exactly for a mul operation, and a `V8MIN`
    reads no rotation code. -/
theorem decodeInstr_alu {sf : Bool} {cond : AssignCond} {dest : Reg} {srcA : Operand}
    {op : ALUOp} {srcB : Operand} {high low : BitVec 32}
    (h : encodeInstr (.alu sf cond dest srcA op srcB) = .ok (high, low)) (hrot : op ≠ .mRotate)
    (hfit : (Instr.alu sf cond dest srcA op srcB).Fits) :
    decodeInstr high low = some (Instr.alu sf cond dest srcA op srcB).encoded := by
  obtain ⟨hw, hA, hB, hboth, hv8⟩ : dest.Writable ∧ srcA.FitsRaddr ∧ srcB.FitsRaddr ∧
      ¬(srcA.isImm ∧ srcB.isImm) ∧ (op = .mV8min → srcA.BelowRotation ∧ srcB.BelowRotation) := by
    simpa only [Instr.Fits, if_neg hrot] using hfit
  obtain ⟨hsig, hcond, -, hsf, file, addr, hd, hdest⟩ := encodeInstr_alu_decode h
  simp only [show (op == .mRotate) = false from beq_false_of_ne hrot, Bool.or_false] at hsig
  have hin := encodeInstr_alu_inputs h hrot hA hB hboth
  obtain ⟨mo, ao, ra, rb, ma, mb, hmo, hao, hsrcs, hlow⟩ := encodeInstr_alu_low h hrot
  obtain ⟨hmo8, hao32⟩ := opcodes_lt hmo hao
  obtain ⟨rbn, rfl, hra, hrbn, hma, hmb, hdA, hdB⟩ := encodeAluSrcs_decode hsrcs hA hB hboth
  have hops : field low 29 3 = mo ∧ field low 24 5 = ao ∧ field low 12 6 = rbn := by
    subst hlow
    refine ⟨?_, ?_, ?_⟩ <;>
    simp (disch := omega) only [u32, field_or, field_ofNat_shl_self, field_ofNat_shl_above,
      field_ofNat_shl_below, field_ofNat_self, field_ofNat_below, Nat.zero_or, Nat.or_zero]
  have hsig' : field high 28 4 = 1 ∨ field high 28 4 = 13 := by rw [hsig]; split <;> simp
  rw [encodeDestReg_writable hd hw] at hdest
  unfold decodeInstr
  by_cases hm : op.isMul = true
  · rw [if_pos hm] at hmo hao hcond
    cases hao
    obtain ⟨hne, hdec⟩ := decodeMulOp_encode hmo (by rintro rfl; cases hm)
    -- under signal 13 a `V8MIN` reads an immediate below the rotation codes
    have hnorot : decodeRotation high low = none := by
      refine if_neg fun ⟨h13, h4, h48⟩ => ?_
      rw [hops.1] at h4
      subst h4
      obtain ⟨hbA, hbB⟩ := hv8 (Option.some.inj (hdec.symm.trans rfl))
      rw [hsig] at h13
      rw [hops.2.2] at h48
      split_ifs at h13 hdA hdB with hs
      · rcases Bool.or_eq_true_iff.mp hs with hi | hi
        · have := decodeMux_imm_lt hi hbA hdA; omega
        · have := decodeMux_imm_lt hi hbB hdB; omega
      · cases h13
    rcases hsig' with hs | hs <;>
      simp only [hs, hin, hops.1, hne, if_false, hcond, decodeAssignCond_encode, hdest, hnorot,
        hdec, decide_setFlags hsf, Instr.encoded, if_neg hrot] <;> rfl
  · rw [if_neg hm] at hmo hao hcond
    cases hmo
    rcases hsig' with hs | hs <;>
      simp only [hs, hin, hops.1, hops.2.1, if_true, hcond, decodeAssignCond_encode, hdest,
        decodeAddOp_encode hao, decide_setFlags hsf, Instr.encoded, if_neg hrot] <;> rfl

/-- The low word of a rotation: a `V8MIN` of `r0` with `r0` in the mul pipeline, and the
    rotation code in `raddr_b`, 48 for `r5` and 48 plus the amount for an immediate. -/
theorem encodeRotate_ok {srcA srcB : Operand} {low : BitVec 32}
    (h : encodeRotate srcA srcB = .ok low) (hrf : srcB.RotationFits) :
    srcA.readBack = .reg ⟨.acc, 0, false⟩ ∧ ∃ rb, 48 ≤ rb ∧ rb < 64 ∧
      low = u32 4 <<< 29 ||| u32 rb <<< 12 ||| u32 39 <<< 18 ∧
      (if rb = 48 then Operand.reg ⟨.acc, 5, false⟩ else .imm ⟨.rotImm, (rb : Int) - 48⟩) =
        srcB.rotBack := by
  cases srcA with
  | imm _ => cases h
  | reg a =>
    unfold encodeRotate at h
    dsimp only at h
    by_cases ha : a.tag = .acc ∧ a.regId = 0
    swap
    · rw [if_pos ha] at h; cases h
    rw [if_neg (not_not.mpr ha)] at h
    have hA : (Operand.reg a).readBack = .reg ⟨.acc, 0, false⟩ := by
      simp [Operand.readBack, Reg.readBack, ha.1, ha.2]
    cases srcB with
    | reg b =>
      dsimp only at h
      by_cases hb : b.tag = .acc ∧ b.regId = 5
      swap
      · rw [if_pos hb] at h; cases h
      rw [if_neg (not_not.mpr hb)] at h
      cases h
      exact ⟨hA, 48, le_rfl, by decide, rfl, by simp [Operand.rotBack, Reg.readBack, hb.1, hb.2]⟩
    | imm i =>
      obtain ⟨h1, h15⟩ : 1 ≤ i.val ∧ i.val ≤ 15 := hrf
      dsimp only at h
      have hn : 1 ≤ (BitVec.ofInt 32 i.val).toNat ∨ (BitVec.ofInt 32 i.val).toNat ≤ 15 := by
        rw [ofInt_eq_u32 (by omega)]; simp [u32]; omega
      simp only [hn, not_true_eq_false, ite_false] at h
      cases h
      refine ⟨hA, 48 + i.val.toNat, by omega, by omega, ?_, ?_⟩
      · have hsum : u32 48 + BitVec.ofInt 32 i.val = u32 (48 + i.val.toNat) := by
          rw [ofInt_eq_u32 (by omega)]
          apply BitVec.eq_of_toNat_eq
          simp [u32]
        rw [hsum]
      · rw [if_neg (by omega)]
        simp only [Operand.rotBack]
        congr
        omega

/-- A rotation decodes back to itself: the word is read as a rotation of `r0`, by `r5` or by the
    immediate amount. -/
theorem decodeInstr_rotate {sf : Bool} {cond : AssignCond} {dest : Reg} {srcA srcB : Operand}
    {high low : BitVec 32}
    (h : encodeInstr (.alu sf cond dest srcA .mRotate srcB) = .ok (high, low))
    (hw : dest.Writable) (hrf : srcB.RotationFits) :
    decodeInstr high low = some (Instr.alu sf cond dest srcA .mRotate srcB).encoded := by
  obtain ⟨hsig, hcond, -, hsf, file, addr, hd, hdest⟩ := encodeInstr_alu_decode h
  have hlow : encodeRotate srcA srcB = .ok low := by
    unfold encodeInstr at h
    dsimp only at h
    obtain ⟨_, -, h⟩ := except_bind_eq_ok.mp h
    rw [if_pos rfl] at h
    obtain ⟨w, hrot, h⟩ := except_bind_eq_ok.mp h
    obtain ⟨-, rfl⟩ := Prod.mk.inj (Except.ok.inj h)
    exact hrot
  obtain ⟨hA, rb, h48, h64, rfl, hrb⟩ := encodeRotate_ok hlow hrf
  have hf : field (u32 4 <<< 29 ||| u32 rb <<< 12 ||| u32 39 <<< 18) 29 3 = 4 ∧
      field (u32 4 <<< 29 ||| u32 rb <<< 12 ||| u32 39 <<< 18) 18 6 = 39 ∧
      field (u32 4 <<< 29 ||| u32 rb <<< 12 ||| u32 39 <<< 18) 12 6 = rb ∧
      field (u32 4 <<< 29 ||| u32 rb <<< 12 ||| u32 39 <<< 18) 3 3 = 0 := by
    refine ⟨?_, ?_, ?_, ?_⟩ <;>
    simp (disch := omega) only [u32, field_or, field_ofNat_shl_self, field_ofNat_shl_above,
      field_ofNat_shl_below, Nat.zero_or, Nat.or_zero]
  simp only [beq_self_eq_true, Bool.or_true, if_true] at hsig
  simp only [ALUOp.isMul, if_true] at hcond
  rw [encodeDestReg_writable hd hw] at hdest
  have hrot : decodeRotation high (u32 4 <<< 29 ||| u32 rb <<< 12 ||| u32 39 <<< 18) =
      some srcB.rotBack := by
    rw [← hrb, decodeRotation, if_pos ⟨hsig, hf.1, by rw [hf.2.2.1]; exact h48⟩, hf.2.2.1]
    split_ifs <;> rfl
  unfold decodeInstr
  simp only [hsig, decodeInputs, decodeMux, hrot, hf.1, hf.2.1, hf.2.2.2, hcond,
    decodeAssignCond_encode, hdest, decide_setFlags hsf, hA, Instr.encoded,
    show (4 : Nat) ≠ 0 by decide, show (0 : Nat) < 6 by decide, if_false, if_true]
  rfl

/-- The round trip: a word the encoder returns for an instruction whose fields fit decodes to
    what the encoder keeps of the instruction. -/
theorem decodeInstr_encodeInstr {instr : Instr} {high low : BitVec 32}
    (h : encodeInstr instr = .ok (high, low)) (hfit : instr.Fits) :
    decodeInstr high low = some instr.encoded := by
  cases instr with
  | li => exact decodeInstr_li h hfit
  | alu sf cond dest srcA op srcB =>
    by_cases hrot : op = .mRotate
    · subst hrot
      exact decodeInstr_rotate h hfit.1 (by simpa only [Instr.Fits, if_true] using hfit.2)
    · exact decodeInstr_alu h hrot hfit
  | br => exact decodeInstr_br h hfit
  | sinc n => exact decodeInstr_sema (.inl rfl) h hfit
  | sdec n => exact decodeInstr_sema (.inr rfl) h hfit
  | brl | lab | recv | initBegin | initEnd => cases h
  | halt | tmu0ToAcc4 | irq | noOp | prs | pri | prf | dmaLoadWait | dmaStoreWait =>
    cases h; rfl

/-- `rf(3) := 7` read back from its word. -/
example : (encodeInstr (movImm (rf 3) 7)).toOption.bind (fun w => decodeInstr w.1 w.2) =
    some (movImm (rf 3) 7) := by
  rfl

end V3DLib
