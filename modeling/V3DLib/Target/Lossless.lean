import V3DLib.Target.Disassemble

/-!
# Which instructions the vc4 encoder keeps

`Target/Disassemble.lean` shows that a word `encodeInstr` returns for an instruction whose
fields fit decodes back to what the encoder keeps of the instruction. The converse holds as
well, so `Instr.Fits` is exactly the set on which the encoder loses nothing. An accepted
instruction that does not fit is never read back as itself: a destination without a write
address is read as `NONE`, the first of two small immediates is read as a register, an immediate
is read as the 6-bit value of `raddr_b`, a `V8MIN` of an immediate from 48 up as a rotation, a
rotation amount as one from 1 to 15 or `r5`, a branch offset as 29 bits and a semaphore id as 4.

## Main results

* `decodeInstr_cases`: what a word decodes to, constructor by constructor.
* `decodeInstr_fits`: what the disassembler reads fits its word, except an ALU operation whose
  two inputs both select the small immediate.
* `Instr.fits_of_decodeInstr`, `decodeInstr_encodeInstr_iff`: an accepted instruction decodes to
  what the encoder keeps of it exactly when it fits its word.
* `decodeProgram_encode_iff`: the code of a program disassembles to what the encoder keeps of
  each instruction exactly when every instruction fits.
-/

namespace V3DLib

-- ═══════════════════════════════════════════════════════════════════════════
-- What the disassembler reads
-- ═══════════════════════════════════════════════════════════════════════════

/-- What a word decodes to: a branch, `END`, a TMU load, a semaphore, a load immediate, a
    rotation, or an ALU operation through the add pipeline or, when it is no rotation, the mul
    pipeline; with the fields each is read from. -/
theorem decodeInstr_cases {high low : BitVec 32} {instr : Instr}
    (h : decodeInstr high low = some instr) :
    (∃ cond, decodeBranchCond (field high 20 4) = some cond ∧
      instr = .br cond ⟨decide (field high 19 1 = 1), false, 0, low.toInt / 8⟩) ∨
    instr = .halt ∨ instr = .tmu0ToAcc4 ∨
    instr = .sinc (field low 0 4) ∨ instr = .sdec (field low 0 4) ∨
    (∃ cond dest, decodeDest high = some dest ∧
      instr = .li (decide (field high 13 1 = 1)) cond dest ⟨.immInt32, low.toInt⟩) ∨
    (∃ cond dest srcA srcB, decodeDest high = some dest ∧ decodeRotation high low = some srcB ∧
      decodeMux (field high 28 4) (field low 18 6) (field low 12 6) (field low 3 3) = some srcA ∧
      instr = .alu (decide (field high 13 1 = 1)) cond dest srcA .mRotate srcB) ∨
    (∃ cond dest srcA op srcB, decodeDest high = some dest ∧
      (field low 29 3 = 0 ∧ decodeAddOp (field low 24 5) = some op ∧
        decodeMux (field high 28 4) (field low 18 6) (field low 12 6) (field low 9 3) = some srcA ∧
        decodeMux (field high 28 4) (field low 18 6) (field low 12 6) (field low 6 3) = some srcB ∨
       decodeRotation high low = none ∧ decodeMulOp (field low 29 3) = some op ∧
        decodeMux (field high 28 4) (field low 18 6) (field low 12 6) (field low 3 3) = some srcA ∧
        decodeMux (field high 28 4) (field low 18 6) (field low 12 6) (field low 0 3) = some srcB) ∧
      instr = .alu (decide (field high 13 1 = 1)) cond dest srcA op srcB) := by
  unfold decodeInstr at h
  split at h <;> simp only [decodeInputs, Option.bind_eq_bind, Option.bind_eq_some,
    Option.pure_def, Option.some.injEq, reduceCtorEq, exists_false, and_false] at h
  · obtain ⟨c, hc, rfl⟩ := h
    exact .inl ⟨c, hc, rfl⟩
  · exact .inr (.inl h.symm)
  · exact .inr (.inr (.inl h.symm))
  · -- signal 14: a semaphore in mode 4, a load immediate in mode 0
    split_ifs at h <;> simp only [Option.bind_eq_some, Option.some.injEq, reduceCtorEq] at h
    · exact .inr (.inr (.inr (.inl h.symm)))
    · exact .inr (.inr (.inr (.inr (.inl h.symm))))
    · obtain ⟨c, -, d, hd, rfl⟩ := h
      exact .inr (.inr (.inr (.inr (.inr (.inl ⟨c, d, hd, rfl⟩)))))
  all_goals
    refine .inr (.inr (.inr (.inr (.inr (.inr ?_)))))
    split_ifs at h with h29 <;> simp only [Option.bind_eq_some, Option.some.injEq] at h
    · obtain ⟨c, -, d, hd, op, hop, a, ha, b, hb, rfl⟩ := h
      exact .inr ⟨c, d, a, op, b, hd, .inl ⟨h29, hop, ha, hb⟩, rfl⟩
    · obtain ⟨c, -, d, hd, h⟩ := h
      split at h <;> simp only [Option.bind_eq_some, Option.some.injEq] at h
      · obtain ⟨a, ha, rfl⟩ := h
        exact .inl ⟨c, d, a, _, hd, ‹_›, ha, rfl⟩
      · obtain ⟨a, ha, op, hop, b, hb, rfl⟩ := h
        exact .inr ⟨c, d, a, op, b, hd, .inr ⟨‹_›, hop, ha, hb⟩, rfl⟩

/-- A mux reads a small immediate only from its last code, under the small-immediate signal,
    and the immediate is the value of `raddr_b`. -/
theorem decodeMux_eq_imm {sig ra rb mux : Nat} {i : SmallImm}
    (h : decodeMux sig ra rb mux = some (.imm i)) : 7 ≤ mux ∧ sig = 13 ∧ i = ⟨.smallImm, rb⟩ := by
  unfold decodeMux at h
  split_ifs at h with h6 h6' h13
  · cases h
  · obtain ⟨_, -, h⟩ := Option.map_eq_some'.mp h; cases h
  · cases h; exact ⟨by omega, h13, rfl⟩
  · obtain ⟨_, -, h⟩ := Option.map_eq_some'.mp h; cases h

/-- An operand a mux reads fits `raddr_b`, and lies below the rotation codes unless the word
    has the small-immediate signal and a `raddr_b` among them. -/
theorem decodeMux_fits {sig ra rb mux : Nat} {o : Operand} (h : decodeMux sig ra rb mux = some o)
    (hrb : rb < 64) : o.FitsRaddr ∧ (¬(sig = 13 ∧ 48 ≤ rb) → o.BelowRotation) := by
  cases o with
  | reg r => exact ⟨trivial, fun _ => trivial⟩
  | imm i =>
    obtain ⟨-, h13, rfl⟩ := decodeMux_eq_imm h
    simp only [Operand.FitsRaddr, Operand.BelowRotation]
    omega

theorem decodeWriteAddr_writable {file : RegTag} {addr : Nat} {r : Reg}
    (hfile : file = .regA ∨ file = .regB) (h : decodeWriteAddr file addr = some r) :
    r.Writable := by
  unfold decodeWriteAddr at h
  split_ifs at h
  · cases h; rcases hfile with rfl | rfl <;> exact fun h => nomatch h
  · cases h; exact fun h => nomatch h
  all_goals split at h <;> cases h <;> decide

/-- The destination of a word has a write address of its own. -/
theorem decodeDest_writable {high : BitVec 32} {r : Reg} (h : decodeDest high = some r) :
    r.Writable := by
  unfold decodeDest at h
  split_ifs at h <;> exact decodeWriteAddr_writable (by split_ifs <;> simp) h

/-- A rotation is read with an amount from 1 to 15, or by `r5`. -/
theorem decodeRotation_fits {high low : BitVec 32} {o : Operand}
    (h : decodeRotation high low = some o) : o.RotationFits := by
  unfold decodeRotation at h
  have : field low 12 6 < 64 := Nat.mod_lt _ (by decide)
  split_ifs at h with hrot h48 <;> cases h
  · trivial
  · simp only [Operand.RotationFits]
    omega

theorem decodeAddOp_isMul {n : Nat} {op : ALUOp} (h : decodeAddOp n = some op) :
    op.isMul = false := by
  unfold decodeAddOp at h
  split at h <;> cases h <;> rfl

theorem decodeMulOp_spec {n : Nat} {op : ALUOp} (h : decodeMulOp n = some op) :
    op ≠ .mRotate ∧ (op = .mV8min → n = 4) := by
  unfold decodeMulOp at h
  split at h <;> cases h <;> simp

/-- What the disassembler reads fits its word, except an ALU operation whose two inputs both
    select the small immediate: the first input is then read through mux code 7. -/
theorem decodeInstr_fits {high low : BitVec 32} {instr : Instr}
    (h : decodeInstr high low = some instr) :
    instr.Fits ∨ ∃ sf cond dest op v, op ≠ .mRotate ∧ (field low 9 3 = 7 ∨ field low 3 3 = 7) ∧
      instr = .alu sf cond dest (.imm ⟨.smallImm, v⟩) op (.imm ⟨.smallImm, v⟩) := by
  have hrb : field low 12 6 < 64 := Nat.mod_lt _ (by decide)
  have hmux : ∀ k, field low k 3 < 8 := fun k => Nat.mod_lt _ (by decide)
  have hsema : (0 : Int) ≤ field low 0 4 ∧ (field low 0 4 : Int) < 16 := by
    have : field low 0 4 < 16 := Nat.mod_lt _ (by decide)
    omega
  rcases decodeInstr_cases h with ⟨c, -, rfl⟩ | rfl | rfl | rfl | rfl | ⟨c, d, hd, rfl⟩ |
    ⟨c, d, a, b, hd, hrot, -, rfl⟩ | ⟨c, d, a, op, b, hd, hpipe, rfl⟩
  · -- a branch offset is an eighth of a 32-bit word
    left
    show -2 ^ 28 ≤ low.toInt / 8 ∧ low.toInt / 8 < 2 ^ 28
    have hint := BitVec.toInt_eq_toNat_cond low
    have := low.isLt
    split_ifs at hint <;> omega
  · exact .inl trivial
  · exact .inl trivial
  · exact .inl hsema
  · exact .inl hsema
  · exact .inl (decodeDest_writable hd)
  · exact .inl ⟨decodeDest_writable hd,
      by simpa only [Instr.Fits, if_true] using decodeRotation_fits hrot⟩
  · -- the add pipeline, or the mul pipeline when the word is no rotation
    obtain ⟨hop, hv8, ⟨m, hm, ha⟩, ⟨m', hb⟩⟩ : op ≠ .mRotate ∧
        (op = .mV8min → ¬(field high 28 4 = 13 ∧ 48 ≤ field low 12 6)) ∧
        (∃ m, (m = 9 ∨ m = 3) ∧ decodeMux (field high 28 4) (field low 18 6) (field low 12 6)
          (field low m 3) = some a) ∧
        ∃ m', decodeMux (field high 28 4) (field low 18 6) (field low 12 6) (field low m' 3) =
          some b := by
      rcases hpipe with ⟨-, hop, ha, hb⟩ | ⟨hnone, hop, ha, hb⟩
      · have := decodeAddOp_isMul hop
        exact ⟨fun h => absurd (h ▸ this) (by decide), fun h => absurd (h ▸ this) (by decide),
          ⟨9, .inl rfl, ha⟩, ⟨6, hb⟩⟩
      · obtain ⟨hrot, h4⟩ := decodeMulOp_spec hop
        refine ⟨hrot, fun hv ⟨h13, h48⟩ => ?_, ⟨3, .inr rfl, ha⟩, ⟨0, hb⟩⟩
        rw [decodeRotation, if_pos ⟨h13, h4 hv, h48⟩] at hnone
        split_ifs at hnone
    by_cases hboth : a.isImm ∧ b.isImm
    · -- both inputs select the small immediate
      obtain ⟨ha', hb'⟩ := hboth
      cases a with
      | reg => cases ha'
      | imm ia =>
        cases b with
        | reg => cases hb'
        | imm ib =>
          obtain ⟨h7, -, rfl⟩ := decodeMux_eq_imm ha
          obtain ⟨-, -, rfl⟩ := decodeMux_eq_imm hb
          refine .inr ⟨_, c, d, op, _, hop, ?_, rfl⟩
          have := hmux m
          rcases hm with rfl | rfl <;> omega
    · have fa := decodeMux_fits ha hrb
      have fb := decodeMux_fits hb hrb
      refine .inl ⟨decodeDest_writable hd, ?_⟩
      rw [if_neg hop]
      exact ⟨fa.1, fb.1, hboth, fun hv => ⟨fa.2 (hv8 hv), fb.2 (hv8 hv)⟩⟩

-- ═══════════════════════════════════════════════════════════════════════════
-- What the encoder keeps
-- ═══════════════════════════════════════════════════════════════════════════

theorem Reg.writable_readBack (r : Reg) : r.readBack.Writable ↔ r.Writable := by
  unfold Reg.readBack Reg.Writable
  split_ifs with h <;> simp [h]

@[simp] theorem Operand.isImm_readBack (o : Operand) : o.readBack.isImm = o.isImm := by
  cases o <;> rfl

@[simp] theorem Operand.fitsRaddr_readBack (o : Operand) : o.readBack.FitsRaddr ↔ o.FitsRaddr := by
  cases o <;> exact Iff.rfl

@[simp] theorem Operand.belowRotation_readBack (o : Operand) :
    o.readBack.BelowRotation ↔ o.BelowRotation := by
  cases o <;> exact Iff.rfl

@[simp] theorem Operand.rotationFits_rotBack (o : Operand) :
    o.rotBack.RotationFits ↔ o.RotationFits := by
  cases o <;> exact Iff.rfl

/-- What the encoder keeps of an instruction fits its word exactly when the instruction does. -/
theorem Instr.fits_encoded (instr : Instr) : instr.encoded.Fits ↔ instr.Fits := by
  cases instr
  case alu sf cond dest srcA op srcB =>
    by_cases hop : op = .mRotate <;>
      simp [Instr.encoded, Instr.Fits, hop, Reg.writable_readBack]
  case li => exact Reg.writable_readBack _
  case pri | prf => exact iff_of_true (show Reg.Writable ⟨.none, 0, false⟩ by decide) trivial
  all_goals first | decide | exact Iff.rfl

/-- An ALU word of two small immediates reads its first input through a register mux: the
    encoder reads the first immediate as the register of the operand union. -/
theorem encodeInstr_two_imm_muxes {sf : Bool} {cond : AssignCond} {dest : Reg} {a : SmallImm}
    {op : ALUOp} {b : SmallImm} {high low : BitVec 32}
    (h : encodeInstr (.alu sf cond dest (.imm a) op (.imm b)) = .ok (high, low))
    (hrot : op ≠ .mRotate) : field low 9 3 < 7 ∧ field low 3 3 < 7 := by
  obtain ⟨mo, ao, ra, rb, ma, mb, hmo, hao, hsrcs, rfl⟩ := encodeInstr_alu_low h hrot
  obtain ⟨hmo8, hao32⟩ := opcodes_lt hmo hao
  simp only [encodeAluSrcs, except_bind_eq_ok, except_pure, Except.ok.injEq, Prod.mk.injEq,
    Prod.exists] at hsrcs
  obtain ⟨r, m, hs, rfl, rfl, rfl, rfl⟩ := hsrcs
  have hm : m < 7 := by
    rcases encodeSrcReg_spec hs with ⟨-, -, h4, rfl, -⟩ | ⟨⟨-, rfl⟩ | ⟨⟨⟩, -⟩, -⟩ <;> omega
  have hr := (encodeSrcReg_lt hs).1
  rw [← BitVec.setWidth_eq (BitVec.ofInt 32 b.val), ← BitVec.ofNat_toNat]
  simp (disch := omega) only [u32, field_or, field_ofNat_shl_self, field_ofNat_shl_above,
    field_ofNat_shl_below, field_ofNat_below, Nat.zero_or, Nat.or_zero]
  omega

-- ═══════════════════════════════════════════════════════════════════════════
-- The exact round trip
-- ═══════════════════════════════════════════════════════════════════════════

/-- The fitting condition is necessary: an accepted instruction whose word decodes to what the
    encoder keeps of it fits its word. -/
theorem Instr.fits_of_decodeInstr {instr : Instr} {high low : BitVec 32}
    (h : encodeInstr instr = .ok (high, low)) (hd : decodeInstr high low = some instr.encoded) :
    instr.Fits := by
  rcases decodeInstr_fits hd with hfit | ⟨sf, cond, dest, op, v, hrot, hmux, he⟩
  · exact (Instr.fits_encoded instr).mp hfit
  -- two immediates: the first is read through a register mux
  cases instr <;>
    simp only [Instr.encoded, reduceCtorEq, Instr.alu.injEq, and_false, false_and] at he
  case alu srcA op' srcB =>
    obtain ⟨-, -, -, hA, rfl, hB⟩ := he
    rw [if_neg hrot] at hB
    cases srcA <;> cases srcB <;> simp only [Operand.readBack, reduceCtorEq] at hA hB
    have := encodeInstr_two_imm_muxes h hrot
    omega

/-- The round trip is exact: a word the encoder returns decodes to what the encoder keeps of
    the instruction if and only if the instruction fits its word. -/
theorem decodeInstr_encodeInstr_iff {instr : Instr} {high low : BitVec 32}
    (h : encodeInstr instr = .ok (high, low)) :
    decodeInstr high low = some instr.encoded ↔ instr.Fits :=
  ⟨Instr.fits_of_decodeInstr h, decodeInstr_encodeInstr h⟩

/-- A `V8MIN` of the immediate 50 is accepted but does not fit: its word reads as a rotation. -/
theorem decodeInstr_encodeInstr_iff_v8min :
    ∃ high low, encodeInstr (aluRI .mV8min (rf 1) (rf 0) 50) = .ok (high, low) ∧
      (decodeInstr high low = some (aluRI .mV8min (rf 1) (rf 0) 50).encoded ↔
        (aluRI .mV8min (rf 1) (rf 0) 50).Fits) :=
  ⟨_, _, rfl, decodeInstr_encodeInstr_iff rfl⟩

-- ═══════════════════════════════════════════════════════════════════════════
-- Whole programs
-- ═══════════════════════════════════════════════════════════════════════════

/-- The instructions of a stream of words, two words per instruction, the low word first, as
    `encode` writes them; `none` when a word pair does not decode or a word is left over. -/
def decodeProgram : List (BitVec 32) → Option (List Instr)
  | [] => some []
  | [_] => none
  | low :: high :: code => do
    let instr ← decodeInstr high low
    let instrs ← decodeProgram code
    pure (instr :: instrs)

theorem decodeProgram_cons_cons {low high : BitVec 32} {code : List (BitVec 32)} {instr : Instr}
    {instrs : List Instr} :
    decodeProgram (low :: high :: code) = some (instr :: instrs) ↔
      decodeInstr high low = some instr ∧ decodeProgram code = some instrs := by
  simp [decodeProgram, Option.bind_eq_some]

/-- Run lemma: the words of instructions that each encode decode, pair by pair, to what the
    encoder keeps of them exactly when every instruction fits. -/
theorem decodeProgram_flatMap_iff : ∀ {instrs : List Instr} {ws : List (BitVec 32 × BitVec 32)},
    List.Forall₂ (fun instr w => encodeInstr instr = .ok w) instrs ws →
    (decodeProgram (ws.flatMap fun (high, low) => [low, high]) = some (instrs.map Instr.encoded) ↔
      ∀ instr ∈ instrs, instr.Fits)
  | _, _, .nil => by simp [decodeProgram]
  | _ :: _, (_, _) :: ws, .cons h hs => by
    show decodeProgram (_ :: _ :: ws.flatMap _) = _ ↔ _
    rw [List.map_cons, decodeProgram_cons_cons, decodeProgram_flatMap_iff hs,
      List.forall_mem_cons]
    exact and_congr_left' ⟨Instr.fits_of_decodeInstr h, decodeInstr_encodeInstr h⟩

/-- The program round trip is exact: the code `encode` returns disassembles to what the encoder
    keeps of each instruction if and only if every instruction fits its word. -/
theorem decodeProgram_encode_iff {instrs : List Instr} {code : List (BitVec 32)}
    (h : encode instrs [] = .ok code) :
    decodeProgram code = some (instrs.map Instr.encoded) ↔ ∀ instr ∈ instrs, instr.Fits := by
  obtain ⟨ws, hws, rfl⟩ := appendEach_eq_ok.mp h
  exact decodeProgram_flatMap_iff hws

/-- A kernel that loads, copies and stops. -/
theorem decodeProgram_encode_iff_copy :
    ∃ code, encode [movImm (rf 0) 5, mov (rf 1) (rf 0), .halt] [] = .ok code ∧
      (decodeProgram code = some ([movImm (rf 0) 5, mov (rf 1) (rf 0), .halt].map Instr.encoded) ↔
        ∀ instr ∈ [movImm (rf 0) 5, mov (rf 1) (rf 0), .halt], instr.Fits) :=
  ⟨_, rfl, decodeProgram_encode_iff rfl⟩

end V3DLib
