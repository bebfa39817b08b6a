import V3DLib.Target.Encode

/-!
# Decoding vc4 words

An independent reading of a 64-bit VideoCore IV instruction, written from the ALU and branch
instruction layouts and the register address map of the VideoCore IV reference (the tables
`encodeSrcReg` cites), against which the encoder is checked.

## Main results

* `encodeInstr_two_imm_reads_regA`, `encodeDestReg_vpmRead_as_none`,
  `encodeInstr_rotate_zero_by_r5`: three accepted instructions whose words decode to
  something else.

* high word: `sig` (28–31), `cond_add` (17–19), `cond_mul` (14–16), `sf` (13), `ws` (12),
  `waddr_add` (6–11), `waddr_mul` (0–5); for a branch `cond_br` (20–23) and `rel` (19);
* low word of an ALU instruction: `op_mul` (29–31), `op_add` (24–28), `raddr_a` (18–23),
  `raddr_b` (12–17), `add_a`, `add_b`, `mul_a`, `mul_b` (3 bits each from 9 down to 0).
-/

namespace V3DLib

/-- Bits `[lo, lo + len)` of a word. -/
def field (w : BitVec 32) (lo len : Nat) : Nat := (w.toNat >>> lo) % 2 ^ len

/-- What reading regfile address `addr` through `file` delivers. -/
def decodeReadAddr (file : RegTag) (addr : Nat) : Option Reg :=
  if addr < 32 then some ⟨file, addr, false⟩ else
  match addr with
  | 32 => some (.ofSpecial .uniform)
  | 38 => some (.ofSpecial (if file = .regA then .elemNum else .qpuNum))
  | 39 => some ⟨.none, 0, false⟩
  | 48 => some (.ofSpecial .vpmRead)
  | 50 => some (.ofSpecial (if file = .regA then .dmaLdWait else .dmaStWait))
  | _ => none

/-- What writing address `addr` of `file` writes. Address 36 is `TMP_NOSWAP`, which the
    compiler names `ACC4`; 37 is `r5`. -/
def decodeWriteAddr (file : RegTag) (addr : Nat) : Option Reg :=
  if addr < 32 then some ⟨file, addr, false⟩
  else if addr < 38 then some ⟨.acc, addr - 32, false⟩ else
  match addr with
  | 38 => some (.ofSpecial .hostInt)
  | 39 => some ⟨.none, 0, false⟩
  | 48 => some (.ofSpecial .vpmWrite)
  | 49 => some (.ofSpecial (if file = .regA then .rdSetup else .wrSetup))
  | 50 => some (.ofSpecial (if file = .regA then .dmaLdAddr else .dmaStAddr))
  | 52 => some (.ofSpecial .sfuRecip)
  | 53 => some (.ofSpecial .sfuRecipSqrt)
  | 54 => some (.ofSpecial .sfuExp)
  | 55 => some (.ofSpecial .sfuLog)
  | 56 => some (.ofSpecial .tmu0S)
  | _ => none

/-- The operand an ALU input mux selects: `r0`–`r5` for 0–5, regfile A at `raddr_a` for 6,
    and for 7 regfile B at `raddr_b`, or the small immediate `raddr_b` under signal 13. -/
def decodeMux (sig raddrA raddrB mux : Nat) : Option Operand :=
  if mux < 6 then some (.reg ⟨.acc, mux, false⟩)
  else if mux = 6 then .reg <$> decodeReadAddr .regA raddrA
  else if sig = 13 then some (.imm ⟨.smallImm, raddrB⟩)
  else .reg <$> decodeReadAddr .regB raddrB

/-- The four inputs `(add_a, add_b, mul_a, mul_b)` of an ALU word. -/
def decodeInputs (high low : BitVec 32) :
    Option Operand × Option Operand × Option Operand × Option Operand :=
  let dec := decodeMux (field high 28 4) (field low 18 6) (field low 12 6)
  (dec (field low 9 3), dec (field low 6 3), dec (field low 3 3), dec (field low 0 3))

/-- The register an ALU or load-immediate word writes: the add pipeline's address when it is
    not the no-op address (regfile A unless `ws`), else the mul pipeline's (regfile B unless
    `ws`). -/
def decodeDest (high : BitVec 32) : Option Reg :=
  let ws := field high 12 1
  if field high 6 6 ≠ 39 then decodeWriteAddr (if ws = 0 then .regA else .regB) (field high 6 6)
  else decodeWriteAddr (if ws = 0 then .regB else .regA) (field high 0 6)

/-- The rotation of a mul-pipeline `V8MIN` under signal 13 whose `raddr_b` is a rotation
    code: by `r5` for 48, by `raddr_b - 48` for 49–63. -/
def decodeRotation (high low : BitVec 32) : Option Operand :=
  if field high 28 4 = 13 ∧ field low 29 3 = 4 ∧ 48 ≤ field low 12 6 then
    if field low 12 6 = 48 then some (.reg ⟨.acc, 5, false⟩)
    else some (.imm ⟨.rotImm, (field low 12 6 : Int) - 48⟩)
  else none

-- ═══════════════════════════════════════════════════════════════════════════
-- Branches
-- ═══════════════════════════════════════════════════════════════════════════

/-- The `BR` word of a condition other than `NEVER`: branch signal 15, the relative bit, and
    the condition code in `cond_br`; the low word is eight times the offset. -/
theorem encodeInstr_br_fields (c : BranchCond) (off : Int) (hc : c.tag ≠ .condNever) :
    ∃ high, encodeInstr (.br c ⟨true, false, 0, off⟩) = .ok (high, u32 8 * BitVec.ofInt 32 off) ∧
      field high 28 4 = 15 ∧ field high 19 1 = 1 ∧ encodeBranchCond c = .ok (field high 20 4) := by
  obtain ⟨tag, flag⟩ := c
  cases tag
  · exact absurd rfl hc
  all_goals cases flag <;> refine ⟨_, rfl, ?_, ?_, ?_⟩ <;> simp only [↓reduceIte] <;>
    first | decide | rfl

/-- Eight times an offset, as a `uint32_t` read back signed, is the offset's byte count
    modulo `2^32`. -/
theorem toInt_u32_eight_mul (z : Int) :
    (u32 8 * BitVec.ofInt 32 z).toInt % 2 ^ 32 = 8 * z % 2 ^ 32 := by
  have h8 : u32 8 = BitVec.ofInt 32 8 := rfl
  rw [h8, ← BitVec.ofInt_mul, BitVec.toInt_ofInt]
  exact Int.bmod_emod

-- ═══════════════════════════════════════════════════════════════════════════
-- Accepted instructions that decode to something else
-- ═══════════════════════════════════════════════════════════════════════════

/-- Two small immediates: the `srcB`-immediate branch reads `srcA` as the union's register,
    `REG_A 0`, so the word adds regfile A entry 0 to the immediate. -/
theorem encodeInstr_two_imm_reads_regA :
    ∃ high low, encodeInstr (.alu false always (rf 1) (.imm ⟨.smallImm, 0⟩) .aAdd
        (.imm ⟨.smallImm, 1⟩)) = .ok (high, low) ∧
      decodeInputs high low = (some (.reg ⟨.regA, 0, false⟩), some (.imm ⟨.smallImm, 1⟩),
        some (.reg ⟨.regA, 0, false⟩), some (.imm ⟨.smallImm, 1⟩)) :=
  ⟨_, _, rfl, by decide⟩

/-- A read-only special as destination falls through to `case NONE`: it gets the no-op
    address 39, as `NONE` does, and the write is dropped. -/
theorem encodeDestReg_vpmRead_as_none :
    Reg.ofSpecial .vpmRead ≠ ⟨.none, 0, false⟩ ∧
      encodeDestReg (.ofSpecial .vpmRead) = encodeDestReg ⟨.none, 0, false⟩ ∧
      ∃ high low, encodeInstr (.li false always (.ofSpecial .vpmRead) ⟨.immInt32, 7⟩) =
        .ok (high, low) ∧ decodeDest high = some ⟨.none, 0, false⟩ :=
  ⟨by decide, rfl, _, _, rfl, by decide⟩

/-- A rotation by the immediate 0 passes the always-true `n >= 1 || n <= 15`; its `raddr_b`
    is 48, the code of a rotation by `r5`. -/
theorem encodeInstr_rotate_zero_by_r5 :
    ∃ high low, encodeInstr (.alu false always acc0 (.reg acc0) .mRotate
        (.imm ⟨.rotImm, 0⟩)) = .ok (high, low) ∧
      field low 12 6 = 48 ∧ decodeRotation high low = some (.reg ⟨.acc, 5, false⟩) :=
  ⟨_, _, rfl, by decide, by decide⟩

end V3DLib
