import V3DLib.Target.Liveness

/-!
# Register renaming

`renameDest`, `renameUses` and `substRegTag`, which Step 4 of both allocators applies to every
instruction. `Target/Subst.cpp` is not part of the sources; the three follow the specification
(§4.4, *Rewrite phase*): a rename changes the written register (`renameDest`) or the registers
read (`renameUses`) that are the given one, and `substRegTag` changes a tag everywhere. All
three act slot by slot through `Instr.mapRegs`.

## Main definitions

* `Instr.substVars`: the simultaneous substitution of an allocation map into an instruction.

## Main results

* `Instr.substVars_slots`, `Reg.substVar_of_regA`, `Reg.substVar_of_ne`: the substitution
  replaces exactly the variables (`REG_A`) of every register slot and keeps the rest.
* `foldl_renameDest`, `foldl_renameUses`: a sequence of renames acts register by register.
* `Reg.foldl_rename`: renaming each variable of a list to a temporary tag renames every
  variable of the list exactly once.
-/

namespace V3DLib

/-- `r` renamed to `(wt, w)` if it is `(vt, v)`; the flag `isUniformPtr` is kept. -/
def Reg.rename (vt : RegTag) (v : Int) (wt : RegTag) (w : Int) (r : Reg) : Reg :=
  if r.tag = vt ∧ r.regId = v then { r with tag := wt, regId := w } else r

/-- `r` with tag `wt` in place of `vt`. -/
def Reg.substTag (vt wt : RegTag) (r : Reg) : Reg :=
  if r.tag = vt then { r with tag := wt } else r

/-- An operand with its register, if any, rewritten. -/
def Operand.mapReg (f : Reg → Reg) : Operand → Operand
  | .reg r => .reg (f r)
  | .imm i => .imm i

/-- The registers of an instruction rewritten slot by slot: `dst` on the register written
    (`LI`, `ALU`, `RECV`), `src` on each register read (`ALU` operands, `PRI`, `PRF`). -/
def Instr.mapRegs (dst src : Reg → Reg) : Instr → Instr
  | .li sf cond dest imm => .li sf cond (dst dest) imm
  | .alu sf cond dest srcA op srcB =>
    .alu sf cond (dst dest) (srcA.mapReg src) op (srcB.mapReg src)
  | .recv dest => .recv (dst dest)
  | .pri r => .pri (src r)
  | .prf r => .prf (src r)
  | instr => instr

/-- Modelled from the spec: `renameDest(instr, vt, v, wt, w)`. -/
def renameDest (instr : Instr) (vt : RegTag) (v : Int) (wt : RegTag) (w : Int) : Instr :=
  instr.mapRegs (Reg.rename vt v wt w) id

/-- Modelled from the spec: `renameUses(instr, vt, v, wt, w)`. -/
def renameUses (instr : Instr) (vt : RegTag) (v : Int) (wt : RegTag) (w : Int) : Instr :=
  instr.mapRegs id (Reg.rename vt v wt w)

/-- Modelled from the spec: `substRegTag(instr, vt, wt)`. -/
def substRegTag (instr : Instr) (vt wt : RegTag) : Instr :=
  instr.mapRegs (Reg.substTag vt wt) (Reg.substTag vt wt)

/-- The register an instruction writes, the slot `mapRegs` rewrites with `dst`. -/
def Instr.dstRegs : Instr → List Reg
  | .li _ _ dest _ | .alu _ _ dest _ _ _ | .recv dest => [dest]
  | _ => []

/-- The registers an instruction reads, the slots `mapRegs` rewrites with `src`. -/
def Instr.srcRegs : Instr → List Reg
  | .alu _ _ _ srcA _ srcB => srcA.regs ++ srcB.regs
  | .pri r | .prf r => [r]
  | _ => []

/-- The registers an instruction names. -/
def Instr.regs (instr : Instr) : List Reg := instr.dstRegs ++ instr.srcRegs

/-- No register of the instruction carries a temporary tag. -/
def Instr.NoTmp (instr : Instr) : Prop := ∀ r ∈ instr.regs, r.tag ≠ .tmpA ∧ r.tag ≠ .tmpB

instance (instr : Instr) : Decidable instr.NoTmp :=
  inferInstanceAs (Decidable (∀ r ∈ instr.regs, _))

/-- The variables an instruction names. -/
def Instr.vars (instr : Instr) : List Int := varIds instr.regs

/-- The register a variable stands for under `alloc`: `REG_A r` takes the tag and id of
    `alloc r`, keeping its own `isUniformPtr`; every other register stays. -/
def Reg.substVar (alloc : Int → Reg) (r : Reg) : Reg :=
  if r.tag = .regA then { r with tag := (alloc r.regId).tag, regId := (alloc r.regId).regId }
  else r

/-- The simultaneous substitution of `alloc` into an instruction: every variable, written or
    read, replaced at once, and every other operand and field kept. -/
def Instr.substVars (alloc : Int → Reg) (instr : Instr) : Instr :=
  instr.mapRegs (Reg.substVar alloc) (Reg.substVar alloc)

/-- A variable takes the register of its allocation, keeping its pointer flag. -/
theorem Reg.substVar_of_regA (alloc : Int → Reg) {r : Reg} (h : r.tag = .regA) :
    r.substVar alloc = ⟨(alloc r.regId).tag, (alloc r.regId).regId, r.isUniformPtr⟩ := by
  simp [Reg.substVar, h]

/-- Every other register is kept. -/
theorem Reg.substVar_of_ne (alloc : Int → Reg) {r : Reg} (h : r.tag ≠ .regA) :
    r.substVar alloc = r := by
  simp [Reg.substVar, h]

/-- `substVars` slot by slot, without `mapRegs`: the register written and every register read
    are substituted, and every other field, immediates included, is kept. -/
theorem Instr.substVars_slots (alloc : Int → Reg) (instr : Instr) :
    instr.substVars alloc = match instr with
      | .li sf cond dest imm => .li sf cond (dest.substVar alloc) imm
      | .alu sf cond dest srcA op srcB =>
        .alu sf cond (dest.substVar alloc)
          (match srcA with | .reg r => .reg (r.substVar alloc) | .imm i => .imm i) op
          (match srcB with | .reg r => .reg (r.substVar alloc) | .imm i => .imm i)
      | .recv dest => .recv (dest.substVar alloc)
      | .pri r => .pri (r.substVar alloc)
      | .prf r => .prf (r.substVar alloc)
      | instr => instr := by
  cases instr <;> rfl

/-! ### Composing slot rewrites -/

@[simp] theorem Operand.mapReg_mapReg (f g : Reg → Reg) (o : Operand) :
    (o.mapReg f).mapReg g = o.mapReg (g ∘ f) := by
  cases o <;> rfl

@[simp] theorem Operand.mapReg_id (o : Operand) : o.mapReg id = o := by
  cases o <;> rfl

@[simp] theorem Instr.mapRegs_id (instr : Instr) : instr.mapRegs id id = instr := by
  cases instr <;> simp [Instr.mapRegs]

@[simp] theorem Instr.mapRegs_mapRegs (f g f' g' : Reg → Reg) (instr : Instr) :
    (instr.mapRegs f g).mapRegs f' g' = instr.mapRegs (f' ∘ f) (g' ∘ g) := by
  cases instr <;> simp [Instr.mapRegs]

/-- Two slot rewrites agreeing on the written register and on the registers read rewrite the
    instruction alike. -/
theorem Instr.mapRegs_congr {f g f' g' : Reg → Reg} {instr : Instr}
    (hd : ∀ r ∈ instr.dstRegs, f r = f' r) (hs : ∀ r ∈ instr.srcRegs, g r = g' r) :
    instr.mapRegs f g = instr.mapRegs f' g' := by
  have hop : ∀ o : Operand, (∀ r ∈ o.regs, g r = g' r) → o.mapReg g = o.mapReg g' := by
    rintro (r | i) h <;> simp_all [Operand.mapReg, Operand.regs]
  cases instr
  case alu sf cond dest srcA op srcB =>
    simp only [Instr.srcRegs, List.mem_append] at hs
    simp only [Instr.mapRegs, hd dest (List.mem_singleton_self _),
      hop srcA fun r hr => hs r (.inl hr), hop srcB fun r hr => hs r (.inr hr)]
  all_goals simp_all [Instr.mapRegs, Instr.dstRegs, Instr.srcRegs]

/-- A variable written is in `def`. -/
theorem mem_defs_of_dstRegs {instr : Instr} {r : Reg} (hr : r ∈ instr.dstRegs)
    (hA : r.tag = .regA) : r.regId ∈ (useDef instr).defs := by
  have : (useDefReg instr).2 = instr.dstRegs := by cases instr <;> rfl
  simp only [useDef, mem_varIds, this]
  exact ⟨r, hr, hA, rfl⟩

/-- A variable read is in `use`. -/
theorem mem_use_of_srcRegs {instr : Instr} {r : Reg} (hr : r ∈ instr.srcRegs)
    (hA : r.tag = .regA) : r.regId ∈ (useDef instr).use := by
  simp only [useDef, mem_varIds]
  refine ⟨r, ?_, hA, rfl⟩
  cases instr <;> simp_all [Instr.srcRegs, useDefReg]

/-- A sequence of `renameDest`s is one slot rewrite of the written register. -/
theorem foldl_renameDest {β : Type} (h : β → Reg → Reg) :
    ∀ (rs : List β) (instr : Instr),
      rs.foldl (fun i r => i.mapRegs (h r) id) instr =
        instr.mapRegs (fun d => rs.foldl (fun d r => h r d) d) id
  | [], instr => (Instr.mapRegs_id instr).symm
  | r :: rs, instr => by
    rw [List.foldl_cons, foldl_renameDest h rs, Instr.mapRegs_mapRegs]
    rfl

/-- A sequence of `renameUses` is one slot rewrite of the registers read. -/
theorem foldl_renameUses {β : Type} (h : β → Reg → Reg) :
    ∀ (rs : List β) (instr : Instr),
      rs.foldl (fun i r => i.mapRegs id (h r)) instr =
        instr.mapRegs id (fun s => rs.foldl (fun s r => h r s) s)
  | [], instr => (Instr.mapRegs_id instr).symm
  | r :: rs, instr => by
    rw [List.foldl_cons, foldl_renameUses h rs, Instr.mapRegs_mapRegs]
    rfl

/-- Renaming every variable of `rs` to a temporary tag: a variable of `rs` is renamed once,
    since its new tag is no longer `REG_A`, and any other register is left alone. -/
theorem Reg.foldl_rename (tmp : Int → RegTag) (w : Int → Int) (htmp : ∀ v, tmp v ≠ .regA) :
    ∀ (rs : List Int) (reg : Reg),
      rs.foldl (fun d v => d.rename .regA v (tmp v) (w v)) reg =
        if reg.tag = .regA ∧ reg.regId ∈ rs then
          { reg with tag := tmp reg.regId, regId := w reg.regId }
        else reg
  | [], reg => by simp
  | v :: rs, reg => by
    rw [List.foldl_cons, Reg.foldl_rename tmp w htmp rs]
    by_cases h : reg.tag = .regA ∧ reg.regId = v
    · obtain ⟨ht, rfl⟩ := h
      simp [Reg.rename, ht, htmp]
    · simp only [Reg.rename, if_neg h, List.mem_cons]
      by_cases ht : reg.tag = .regA <;> simp_all

end V3DLib
