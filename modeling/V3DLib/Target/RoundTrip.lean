import V3DLib.Target.Decode

/-!
# Encoded words decode back

The positive side of the comparison of `Target/Encode.cpp` with the decoder: the fields of the
words `encodeInstr` builds, read back. Each word is an `|||` of values shifted to their
fields, so every field is read off one term (`field_or` and the `field_ofNat_shl_*` lemmas);
what remains is the register address map, table by table.

## Main results

* `encodeDestReg_decode`: a destination's write address decodes back to it, unless it is
  `NONE` or a special register no write address reaches, whose write is dropped.
* `decodeMux_encodeSrcReg`, `encodeAluSrcs_decode`: a source's read address and mux decode back
  to it, and the two operands of an ALU instruction to themselves when at most one is a small
  immediate.
* `encodeInstr_li_decode`, `encodeInstr_alu_decode`: the high word of a load immediate and of
  an ALU instruction carries its signal, conditions, flag bit and destination.
* `encodeInstr_alu_inputs`: both pipelines of an ALU word other than a rotation read the
  instruction's operands.
-/

namespace V3DLib

-- ═══════════════════════════════════════════════════════════════════════════
-- Fields of a word built by `|||` from shifted values
-- ═══════════════════════════════════════════════════════════════════════════

theorem field_or (a b : BitVec 32) (lo len : Nat) :
    field (a ||| b) lo len = field a lo len ||| field b lo len := by
  apply Nat.eq_of_testBit_eq
  intro i
  simp [field, Bool.and_or_distrib_left]

/-- A value shifted to a field's position is read back from it. -/
theorem field_ofNat_shl_self {x k len : Nat} (hx : x < 2 ^ len) (hk : k + len ≤ 32) :
    field (BitVec.ofNat 32 x <<< k) k len = x := by
  apply Nat.eq_of_testBit_eq
  intro i
  simp only [field, BitVec.toNat_shiftLeft, BitVec.toNat_ofNat, Nat.testBit_mod_two_pow,
    Nat.testBit_shiftRight, Nat.testBit_shiftLeft]
  by_cases hi : i < len
  · have : x < 2 ^ 32 := lt_of_lt_of_le hx (Nat.pow_le_pow_right (by omega) (by omega))
    simp [hi, show k + i < 32 by omega, show i < 32 by omega, Nat.mod_eq_of_lt this]
  · have : x < 2 ^ i := lt_of_lt_of_le hx (Nat.pow_le_pow_right (by omega) (by omega))
    simp [hi, Nat.testBit_lt_two_pow this]

/-- A value shifted past a field leaves it clear. -/
theorem field_ofNat_shl_above {x k lo len : Nat} (h : lo + len ≤ k) :
    field (BitVec.ofNat 32 x <<< k) lo len = 0 := by
  apply Nat.eq_of_testBit_eq
  intro i
  simp only [field, BitVec.toNat_shiftLeft, BitVec.toNat_ofNat, Nat.testBit_mod_two_pow,
    Nat.testBit_shiftRight, Nat.testBit_shiftLeft, Nat.zero_testBit]
  by_cases hi : i < len
  · simp [hi, show ¬k ≤ lo + i by omega]
  · simp [hi]

/-- A value that ends below a field leaves it clear. -/
theorem field_ofNat_shl_below {x k lo len : Nat} (hx : x < 2 ^ (lo - k)) (h : k ≤ lo) :
    field (BitVec.ofNat 32 x <<< k) lo len = 0 := by
  apply Nat.eq_of_testBit_eq
  intro i
  simp only [field, BitVec.toNat_shiftLeft, BitVec.toNat_ofNat, Nat.testBit_mod_two_pow,
    Nat.testBit_shiftRight, Nat.testBit_shiftLeft, Nat.zero_testBit]
  have : x < 2 ^ (lo + i - k) := lt_of_lt_of_le hx (Nat.pow_le_pow_right (by omega) (by omega))
  simp [Nat.testBit_lt_two_pow this]

theorem field_ofNat_self {x len : Nat} (hx : x < 2 ^ len) (hlen : len ≤ 32) :
    field (BitVec.ofNat 32 x) 0 len = x := by
  simpa using @field_ofNat_shl_self x 0 len hx (by omega)

theorem field_ofNat_below {x lo len : Nat} (hx : x < 2 ^ lo) :
    field (BitVec.ofNat 32 x) lo len = 0 := by
  simpa using @field_ofNat_shl_below x 0 lo len (by simpa using hx) (Nat.zero_le lo)

theorem field_ofNat_ite_shl {c : Prop} [Decidable c] (a b k lo len : Nat) :
    field (BitVec.ofNat 32 (if c then a else b) <<< k) lo len =
      if c then field (BitVec.ofNat 32 a <<< k) lo len
      else field (BitVec.ofNat 32 b <<< k) lo len := by
  split <;> rfl

-- ═══════════════════════════════════════════════════════════════════════════
-- Destinations
-- ═══════════════════════════════════════════════════════════════════════════

/-- The special registers a write address reaches. -/
def writeSpecials : List Special :=
  [.rdSetup, .wrSetup, .dmaLdAddr, .dmaStAddr, .vpmWrite, .hostInt, .tmu0S, .sfuRecip,
    .sfuRecipSqrt, .sfuExp, .sfuLog]

theorem decodeWriteAddr_special {file : RegTag} {addr : Nat} {n : Int}
    (hfile : file = .regA ∨ file = .regB)
    (h : decodeWriteAddr file addr = some ⟨.special, n, false⟩) :
    ∃ s ∈ writeSpecials, n = s.id := by
  unfold decodeWriteAddr at h
  rcases hfile with rfl | rfl <;> split_ifs at h <;> try split at h
  all_goals cases h
  all_goals exact ⟨_, by decide, rfl⟩

theorem decodeWriteAddr_nop (file : RegTag) :
    decodeWriteAddr file 39 = some ⟨.none, 0, false⟩ := rfl

theorem decodeWriteAddr_lt {file : RegTag} {addr : Nat} {r : Reg}
    (h : decodeWriteAddr file addr = some r) : addr < 64 := by
  unfold decodeWriteAddr at h
  split_ifs at h <;> first | omega | (split at h <;> first | omega | cases h)

/-- Where a write through `encodeDestReg` lands. A regfile entry, an accumulator and a special
    register of the table are written themselves. `NONE`, and a special register that no write
    address reaches, get the no-op address: the write is dropped. -/
theorem encodeDestReg_decode {reg : Reg} {file : RegTag} {addr : Nat}
    (h : encodeDestReg reg = .ok (file, addr)) :
    (file = .regA ∨ file = .regB) ∧
    (decodeWriteAddr file addr = some ⟨reg.tag, reg.regId, false⟩ ∨
      decodeWriteAddr file addr = some ⟨.none, 0, false⟩ ∧
        (reg.tag = .none ∨ reg.tag = .special ∧ ∀ f a, (f = .regA ∨ f = .regB) →
          decodeWriteAddr f a ≠ some ⟨.special, reg.regId, false⟩)) := by
  obtain ⟨tag, id, p⟩ := reg
  cases tag <;> simp only [encodeDestReg, reduceCtorEq, or_self, ite_false, ite_true, true_or,
    or_true] at h
  case regA | regB =>
    split_ifs at h with hid
    obtain ⟨rfl, rfl⟩ := Prod.mk.inj (Except.ok.inj h)
    refine ⟨by simp, .inl ?_⟩
    simp [decodeWriteAddr, show id.toNat < 32 by omega, Int.toNat_of_nonneg hid.1]
  case acc =>
    split_ifs at h with hid <;> obtain ⟨rfl, rfl⟩ := Prod.mk.inj (Except.ok.inj h) <;>
      refine ⟨by simp, .inl ?_⟩ <;>
      simp only [decodeWriteAddr, if_neg (show ¬32 + id.toNat < 32 by omega),
        if_pos (show 32 + id.toNat < 38 by omega)] <;> congr <;> omega
  case none =>
    obtain ⟨rfl, rfl⟩ := Prod.mk.inj (Except.ok.inj h)
    exact ⟨by simp, .inr ⟨rfl, .inl rfl⟩⟩
  case special =>
    -- a special register no write address reaches is not one of the table's
    have unreached : ∀ s, Special.ofId? id = s → (∀ s' ∈ writeSpecials, s ≠ some s') →
        ∀ f a, (f = .regA ∨ f = .regB) → decodeWriteAddr f a ≠ some ⟨.special, id, false⟩ := by
      rintro s rfl hs f a hf hdec
      obtain ⟨s', hs', rfl⟩ := decodeWriteAddr_special hf hdec
      exact hs s' hs' (Special.ofId?_id s')
    cases hs : Special.ofId? id with
    | none =>
      rw [hs] at h
      obtain ⟨rfl, rfl⟩ := Prod.mk.inj (Except.ok.inj h)
      exact ⟨.inl rfl, .inr ⟨rfl, .inr ⟨rfl, unreached _ hs (by simp)⟩⟩⟩
    | some s =>
      rw [hs] at h
      obtain rfl := Special.ofId?_eq_some hs
      cases s
      -- the read-only registers fall through to the no-op address
      case uniform | elemNum | qpuNum | vpmRead | dmaStWait | dmaLdWait =>
        obtain ⟨rfl, rfl⟩ := Prod.mk.inj (Except.ok.inj h)
        exact ⟨.inl rfl, .inr ⟨rfl, .inr ⟨rfl, unreached _ hs (by decide)⟩⟩⟩
      all_goals
        obtain ⟨rfl, rfl⟩ := Prod.mk.inj (Except.ok.inj h)
        exact ⟨by decide, .inl rfl⟩

-- ═══════════════════════════════════════════════════════════════════════════
-- Reads
-- ═══════════════════════════════════════════════════════════════════════════

/-- What a read of `r` decodes to: the register without its pointer flag, and for `NONE` the
    canonical `NONE`. -/
def Reg.readBack (r : Reg) : Reg :=
  if r.tag = .none then ⟨.none, 0, false⟩ else ⟨r.tag, r.regId, false⟩

theorem Reg.readBack_eq_of_same {a b : Reg} (htag : a.tag = b.tag) (hid : a.regId = b.regId) :
    a.readBack = b.readBack := by
  simp [Reg.readBack, htag, hid]

/-- What an operand decodes to: a register without its pointer flag, a small immediate as its
    value. -/
def Operand.readBack : Operand → Operand
  | .reg r => .reg r.readBack
  | .imm i => .imm ⟨.smallImm, i.val⟩

/-- The `tag == IMM` test of an operand. -/
def Operand.isImm : Operand → Bool
  | .imm _ => true
  | .reg _ => false

/-- An operand whose small immediate, if any, fits the 6-bit `raddr_b` field. -/
def Operand.FitsRaddr : Operand → Prop
  | .reg _ => True
  | .imm i => 0 ≤ i.val ∧ i.val < 64

/-- What a read through `encodeSrcReg` is: an accumulator selected by the mux alone, or the
    regfile's mux and an address of that regfile that decodes back to the register. -/
theorem encodeSrcReg_spec {reg : Reg} {file : RegTag} {raddr mux : Nat}
    (h : encodeSrcReg reg file = .ok (raddr, mux)) :
    reg.tag = .acc ∧ 0 ≤ reg.regId ∧ reg.regId ≤ 4 ∧ mux = reg.regId.toNat ∧ raddr = 0 ∨
      (file = .regA ∧ mux = 6 ∨ file = .regB ∧ mux = 7) ∧ raddr < 64 ∧
        decodeReadAddr file raddr = some reg.readBack := by
  obtain ⟨tag, id, p⟩ := reg
  unfold encodeSrcReg at h
  have hf : file = .regA ∨ file = .regB := by
    by_contra hf
    rw [if_pos hf] at h
    cases h
  rw [if_neg (not_not.mpr hf)] at h
  rcases hf with rfl | rfl <;> cases tag <;>
    simp only [reduceCtorEq, if_true, if_false, and_true, and_false] at h
  case inl.regA | inr.regB =>
    split_ifs at h with hc
    obtain ⟨rfl, rfl⟩ := Prod.mk.inj (Except.ok.inj h)
    refine .inr ⟨by decide, by omega, ?_⟩
    simp [decodeReadAddr, Reg.readBack, show id.toNat < 32 by omega, Int.toNat_of_nonneg hc.1]
  case inl.acc | inr.acc =>
    split_ifs at h with hc
    obtain ⟨rfl, rfl⟩ := Prod.mk.inj (Except.ok.inj h)
    exact .inl ⟨rfl, hc.1, hc.2, rfl, rfl⟩
  case inl.none | inr.none =>
    obtain ⟨rfl, rfl⟩ := Prod.mk.inj (Except.ok.inj h)
    exact .inr ⟨by decide, by omega, rfl⟩
  case inl.special | inr.special =>
    cases hs : Special.ofId? id with
    | none => rw [hs] at h; cases h
    | some s =>
      rw [hs] at h
      obtain rfl := Special.ofId?_eq_some hs
      cases s <;> simp only [if_true, if_false] at h <;>
        first
        | obtain ⟨rfl, rfl⟩ := Prod.mk.inj (Except.ok.inj h)
          exact .inr ⟨by decide, by omega, rfl⟩
        | cases h


theorem encodeSrcReg_lt {reg : Reg} {file : RegTag} {raddr mux : Nat}
    (h : encodeSrcReg reg file = .ok (raddr, mux)) : raddr < 64 ∧ mux < 8 := by
  rcases encodeSrcReg_spec h with ⟨-, -, h4, rfl, rfl⟩ | ⟨⟨-, rfl⟩ | ⟨-, rfl⟩, hr, -⟩ <;> omega


/-- A read through `encodeSrcReg`, selected by its mux, decodes to the register: regfile A's
    address is read from `raddr_a`, regfile B's from `raddr_b` when the word has no small
    immediate. -/
theorem decodeMux_encodeSrcReg {reg : Reg} {file : RegTag} {raddr mux : Nat}
    (h : encodeSrcReg reg file = .ok (raddr, mux)) {sig ra rb : Nat}
    (hfile : file = .regA ∧ ra = raddr ∨ file = .regB ∧ rb = raddr ∧ sig ≠ 13) :
    decodeMux sig ra rb mux = some (.reg reg.readBack) := by
  rcases encodeSrcReg_spec h with ⟨htag, h0, h4, rfl, -⟩ | ⟨hmux, -, hdec⟩
  · have : reg.regId.toNat < 6 := by omega
    simp [decodeMux, this, Reg.readBack, htag, Int.toNat_of_nonneg h0]
  · rcases hfile with ⟨rfl, rfl⟩ | ⟨rfl, rfl, hsig⟩
    · obtain ⟨-, rfl⟩ | ⟨⟨⟩, -⟩ := hmux
      simp [decodeMux, hdec]
    · obtain ⟨⟨⟩, -⟩ | ⟨-, rfl⟩ := hmux
      simp [decodeMux, hsig, hdec]

/-- The read fields of two operands decode back to them, when at most one is a small immediate
    and it fits `raddr_b`: `srcA` through `mux_a`, `srcB` through `mux_b`. Two immediates are
    read wrongly (`encodeInstr_two_imm_reads_regA`). -/
theorem encodeAluSrcs_decode {srcA srcB : Operand} {ra : Nat} {rb : BitVec 32} {ma mb : Nat}
    (h : encodeAluSrcs srcA srcB = .ok (ra, rb, ma, mb)) (hA : srcA.FitsRaddr)
    (hB : srcB.FitsRaddr) (hboth : ¬(srcA.isImm ∧ srcB.isImm)) :
    ∃ rbn, rb = u32 rbn ∧ ra < 64 ∧ rbn < 64 ∧ ma < 8 ∧ mb < 8 ∧
      decodeMux (if srcA.isImm || srcB.isImm then 13 else 1) ra rbn ma = some srcA.readBack ∧
      decodeMux (if srcA.isImm || srcB.isImm then 13 else 1) ra rbn mb = some srcB.readBack := by
  cases srcA with
  | reg a =>
    cases srcB with
    | reg b =>
      simp only [encodeAluSrcs] at h
      split_ifs at h with hsame hfa hfab
      all_goals simp only [except_bind_eq_ok, except_pure, Except.ok.injEq, Prod.mk.injEq,
        Prod.exists] at h
      · -- the same register, read once through regfile A
        obtain ⟨r, m, hs, rfl, rfl, rfl, rfl⟩ := h
        obtain ⟨hr, hm⟩ := encodeSrcReg_lt hs
        have hd := @decodeMux_encodeSrcReg a .regA r m hs 1 r 39 (.inl ⟨rfl, rfl⟩)
        refine ⟨39, rfl, hr, by omega, hm, hm, hd, ?_⟩
        simpa [Operand.readBack, Reg.readBack_eq_of_same hsame.2.1 hsame.2.2] using hd
      · -- the same register, read once through regfile B
        obtain ⟨r, m, hs, rfl, rfl, rfl, rfl⟩ := h
        obtain ⟨hr, hm⟩ := encodeSrcReg_lt hs
        have hd := @decodeMux_encodeSrcReg a .regB r m hs 1 39 r (.inr ⟨rfl, rfl, by decide⟩)
        refine ⟨r, rfl, by omega, hr, hm, hm, hd, ?_⟩
        simpa [Operand.readBack, Reg.readBack_eq_of_same hsame.2.1 hsame.2.2] using hd
      · -- `srcA` through regfile A, `srcB` through regfile B
        obtain ⟨r₁, m₁, hs₁, r₂, m₂, hs₂, rfl, rfl, rfl, rfl⟩ := h
        obtain ⟨hr₁, hm₁⟩ := encodeSrcReg_lt hs₁
        obtain ⟨hr₂, hm₂⟩ := encodeSrcReg_lt hs₂
        exact ⟨r₂, rfl, hr₁, hr₂, hm₁, hm₂,
          decodeMux_encodeSrcReg hs₁ (.inl ⟨rfl, rfl⟩),
          decodeMux_encodeSrcReg hs₂ (.inr ⟨rfl, rfl, by simp [Operand.isImm]⟩)⟩
      · -- `srcA` through regfile B, `srcB` through regfile A
        obtain ⟨r₁, m₁, hs₁, r₂, m₂, hs₂, rfl, rfl, rfl, rfl⟩ := h
        obtain ⟨hr₁, hm₁⟩ := encodeSrcReg_lt hs₁
        obtain ⟨hr₂, hm₂⟩ := encodeSrcReg_lt hs₂
        exact ⟨r₁, rfl, hr₂, hr₁, hm₁, hm₂,
          decodeMux_encodeSrcReg hs₁ (.inr ⟨rfl, rfl, by simp [Operand.isImm]⟩),
          decodeMux_encodeSrcReg hs₂ (.inl ⟨rfl, rfl⟩)⟩
    | imm b =>
      simp only [encodeAluSrcs, Operand.regField, except_bind_eq_ok, except_pure,
        Except.ok.injEq, Prod.mk.injEq, Prod.exists] at h
      obtain ⟨r, m, hs, rfl, rfl, rfl, rfl⟩ := h
      obtain ⟨hr, hm⟩ := encodeSrcReg_lt hs
      refine ⟨b.val.toNat, ofInt_eq_u32 hB.1, hr, by have := hB.2; omega, hm, by omega,
        decodeMux_encodeSrcReg hs (.inl ⟨rfl, rfl⟩), ?_⟩
      simp [decodeMux, Operand.readBack, Operand.isImm, Int.toNat_of_nonneg hB.1]
  | imm a =>
    cases srcB with
    | reg b =>
      simp only [encodeAluSrcs, except_bind_eq_ok, except_pure, Except.ok.injEq, Prod.mk.injEq,
        Prod.exists] at h
      obtain ⟨r, m, hs, rfl, rfl, rfl, rfl⟩ := h
      obtain ⟨hr, hm⟩ := encodeSrcReg_lt hs
      refine ⟨a.val.toNat, ofInt_eq_u32 hA.1, hr, by have := hA.2; omega, by omega, hm, ?_,
        decodeMux_encodeSrcReg hs (.inl ⟨rfl, rfl⟩)⟩
      simp [decodeMux, Operand.readBack, Operand.isImm, Int.toNat_of_nonneg hA.1]
    | imm b => exact absurd ⟨rfl, rfl⟩ hboth


-- ═══════════════════════════════════════════════════════════════════════════
-- Load-immediate and ALU words
-- ═══════════════════════════════════════════════════════════════════════════

/-- A load-immediate word decodes back to its instruction: the load-immediate signal and mode,
    the condition in the add pipeline, the flag bit, the destination (`encodeDestReg_decode` says
    where it lands) and the 32-bit immediate. -/
theorem encodeInstr_li_decode {sf : Bool} {cond : AssignCond} {dest : Reg} {imm : Imm}
    {high low : BitVec 32} (h : encodeInstr (.li sf cond dest imm) = .ok (high, low)) :
    field high 28 4 = 14 ∧ field high 25 3 = 0 ∧ field high 17 3 = encodeAssignCond cond ∧
      field high 13 1 = (if sf then 1 else 0) ∧
      (∃ file addr, encodeDestReg dest = .ok (file, addr) ∧
        decodeDest high = decodeWriteAddr file addr) ∧
      low = BitVec.ofInt 32 imm.intVal := by
  obtain ⟨⟨file, addr⟩, hd, h⟩ := except_bind_eq_ok.mp ((encodeInstr_li ..).symm.trans h)
  obtain ⟨rfl, rfl⟩ := Prod.mk.inj (Except.ok.inj h)
  obtain ⟨hfile, hdec⟩ := encodeDestReg_decode hd
  have haddr : addr < 64 := by
    rcases hdec with h | ⟨h, -⟩ <;> exact decodeWriteAddr_lt h
  have hcond := encodeAssignCond_lt cond
  have hsig : (0xe0000000#32 : BitVec 32) = BitVec.ofNat 32 14 <<< 28 := by decide
  refine ⟨?_, ?_, ?_, ?_, ⟨file, addr, hd, ?_⟩, rfl⟩ <;>
    simp (disch := omega) only [hsig, u32, decodeDest, field_or, field_ofNat_ite_shl,
      field_ofNat_shl_self, field_ofNat_shl_above, field_ofNat_shl_below, field_ofNat_self,
      field_ofNat_below, Nat.zero_or, Nat.or_zero, ite_self]
  -- the destination address is read through the regfile that `ws` names
  rcases hfile with rfl | rfl <;> by_cases h39 : addr = 39 <;>
    simp only [h39, decodeWriteAddr_nop, if_true, if_false, ne_eq, not_true_eq_false,
      not_false_eq_true, reduceCtorEq]

/-- The high word of an ALU instruction: signal 13 exactly when an operand is a small immediate
    or the operation a rotation, the condition in the pipeline of the operation and `NEVER` in
    the other one, the flag bit, and the destination, written through the operation's
    pipeline. -/
theorem encodeInstr_alu_decode {sf : Bool} {cond : AssignCond} {dest : Reg} {srcA : Operand}
    {op : ALUOp} {srcB : Operand} {high low : BitVec 32}
    (h : encodeInstr (.alu sf cond dest srcA op srcB) = .ok (high, low)) :
    field high 28 4 = (if srcA.isImm || srcB.isImm || op == .mRotate then 13 else 1) ∧
      field high (if op.isMul then 14 else 17) 3 = encodeAssignCond cond ∧
      field high (if op.isMul then 17 else 14) 3 = 0 ∧
      field high 13 1 = (if sf then 1 else 0) ∧
      ∃ file addr, encodeDestReg dest = .ok (file, addr) ∧
        decodeDest high = decodeWriteAddr file addr := by
  unfold encodeInstr at h
  dsimp only at h
  obtain ⟨⟨file, addr⟩, hd, h⟩ := except_bind_eq_ok.mp h
  obtain ⟨hfile, hdec⟩ := encodeDestReg_decode hd
  have haddr : addr < 64 := by
    rcases hdec with h | ⟨h, -⟩ <;> exact decodeWriteAddr_lt h
  have hcond := encodeAssignCond_lt cond
  -- both branches return the same high word
  obtain rfl := except_ite_fst (fun _ _ hp => by
      obtain ⟨_, -, hp⟩ := except_bind_eq_ok.mp hp
      exact (Prod.mk.inj (Except.ok.inj hp)).1)
    (fun _ _ hp => by
      simp only [except_bind_eq_ok] at hp
      obtain ⟨_, -, _, -, _, -, hp⟩ := hp
      exact (Prod.mk.inj (Except.ok.inj hp)).1) h
  by_cases hm : op.isMul = true <;>
    simp only [hm, if_true, if_false, Bool.false_eq_true, Bool.not_eq_true] <;>
    refine ⟨?_, ?_, ?_, ?_, file, addr, hd, ?_⟩ <;>
    simp (disch := omega) only [u32, decodeDest, field_or, field_ofNat_ite_shl,
      field_ofNat_shl_self, field_ofNat_shl_above, field_ofNat_shl_below, field_ofNat_self,
      field_ofNat_below, Nat.zero_or, Nat.or_zero, ite_self]
  -- left: the signal, and the regfile the destination address is read through
  all_goals first
    | cases srcA <;> cases srcB <;> rfl
    | rcases hfile with rfl | rfl <;> by_cases h39 : addr = 39 <;>
      simp only [h39, decodeWriteAddr_nop, if_true, if_false, ne_eq, not_true_eq_false,
        not_false_eq_true, reduceCtorEq]

/-- The low word of an ALU instruction other than a rotation: the opcode of its pipeline, zero
    in the other one, and the read fields `encodeAluSrcs` gives, both pipelines' muxes alike. -/
theorem encodeInstr_alu_low {sf : Bool} {cond : AssignCond} {dest : Reg} {srcA : Operand}
    {op : ALUOp} {srcB : Operand} {high low : BitVec 32}
    (h : encodeInstr (.alu sf cond dest srcA op srcB) = .ok (high, low)) (hrot : op ≠ .mRotate) :
    ∃ mo ao ra rb ma mb, (if op.isMul then encodeMulOp op else pure 0) = .ok mo ∧
      (if op.isMul then pure 0 else encodeAddOp op) = .ok ao ∧
      encodeAluSrcs srcA srcB = .ok (ra, rb, ma, mb) ∧
      low = u32 mo <<< 29 ||| u32 ao <<< 24 ||| u32 ra <<< 18 ||| rb <<< 12 ||| u32 ma <<< 9 |||
        u32 mb <<< 6 ||| u32 ma <<< 3 ||| u32 mb := by
  unfold encodeInstr at h
  dsimp only at h
  obtain ⟨_, -, h⟩ := except_bind_eq_ok.mp h
  rw [if_neg hrot] at h
  simp only [except_bind_eq_ok, except_pure, Except.ok.injEq, Prod.mk.injEq, Prod.exists] at h
  obtain ⟨mo, hmo, ao, hao, ra, rb, ma, mb, hsrcs, -, rfl⟩ := h
  exact ⟨mo, ao, ra, rb, ma, mb, hmo, hao, hsrcs, rfl⟩

/-- The opcode fields of an ALU instruction other than a rotation are below their widths. -/
theorem opcodes_lt {op : ALUOp} {mo ao : Nat}
    (hmo : (if op.isMul then encodeMulOp op else pure 0) = .ok mo)
    (hao : (if op.isMul then pure 0 else encodeAddOp op) = .ok ao) : mo < 8 ∧ ao < 32 := by
  constructor
  · split at hmo <;> first | exact encodeMulOp_lt hmo | (cases hmo; decide)
  · split at hao <;> first | exact encodeAddOp_lt hao | (cases hao; decide)

/-- The inputs of an ALU word other than a rotation: when at most one operand is a small
    immediate and it fits `raddr_b`, both pipelines read `srcA` and `srcB`. -/
theorem encodeInstr_alu_inputs {sf : Bool} {cond : AssignCond} {dest : Reg} {srcA : Operand}
    {op : ALUOp} {srcB : Operand} {high low : BitVec 32}
    (h : encodeInstr (.alu sf cond dest srcA op srcB) = .ok (high, low)) (hrot : op ≠ .mRotate)
    (hA : srcA.FitsRaddr) (hB : srcB.FitsRaddr) (hboth : ¬(srcA.isImm ∧ srcB.isImm)) :
    decodeInputs high low =
      (some srcA.readBack, some srcB.readBack, some srcA.readBack, some srcB.readBack) := by
  have hsig := (encodeInstr_alu_decode h).1
  simp only [show (op == .mRotate) = false from beq_false_of_ne hrot, Bool.or_false] at hsig
  obtain ⟨mo, ao, ra, rb, ma, mb, hmo, hao, hsrcs, rfl⟩ := encodeInstr_alu_low h hrot
  obtain ⟨hmo, hao⟩ := opcodes_lt hmo hao
  obtain ⟨rbn, rfl, hra, hrbn, hma, hmb, hdA, hdB⟩ := encodeAluSrcs_decode hsrcs hA hB hboth
  simp (disch := omega) only [decodeInputs, hsig, u32, field_or, field_ofNat_shl_self,
    field_ofNat_shl_above, field_ofNat_shl_below, field_ofNat_self, field_ofNat_below,
    Nat.zero_or, Nat.or_zero]
  rw [hdA, hdB]

end V3DLib
