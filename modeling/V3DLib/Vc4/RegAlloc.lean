import V3DLib.Target.Subst

/-!
# The vc4 register allocator

`vc4/RegAlloc.cpp`: liveness, file preferences, the live-with sets, then one pass over the
variables in id order that gives each a register of regfile A or B, and last the rewrite of
every instruction through the allocation map. A fatal `error(...)` is an `Except.error`.

## Main results

* `Vc4.allocRegs_ok`: a completed allocation keeps `AllocInv` for all variables.
* `Vc4.allocRegs_error`: allocation fails only at a variable whose neighbours hold every
  register of both files.
* `Vc4.rewrite_eq_substVars`: the Step-4 rewrite is the simultaneous substitution.
-/

namespace V3DLib

namespace Vc4

/-- `f` with the entry of `x` incremented. -/
def bump (f : Int → Int) (x : Int) : Int → Int := Function.update f x (f x + 1)

/-- `regalloc_determine_regfileAB`: the scores `(prefA, prefB)`. A pair of variables read
    together is pushed to opposite files, and a variable read with a small immediate towards A. -/
def regallocDetermineRegfileAB (instrs : List Instr) : (Int → Int) × (Int → Int) :=
  instrs.foldl (fun (prefA, prefB) instr =>
    match getTwoUses instr, instr with
    | some (ra, rb), _ =>
      if ra.tag = .regA ∧ rb.tag = .regA then
        let x := ra.regId
        let y := rb.regId
        if prefA x > prefA y ∨ prefB y > prefB x then (bump prefA x, bump prefB y)
        else (bump prefA y, bump prefB x)
      else (prefA, prefB)
    | none, .alu _ _ _ (.reg ra) _ (.imm _) =>
      if ra.tag = .regA then (bump prefA ra.regId, prefB) else (prefA, prefB)
    | none, .alu _ _ _ (.imm _) _ (.reg rb) =>
      if rb.tag = .regA then (bump prefA rb.regId, prefB) else (prefA, prefB)
    | none, _ => (prefA, prefB))
    (fun _ => 0, fun _ => 0)

/-- The state of the Step-3 loop. -/
structure AllocState where
  alloc : Int → Reg
  prevChosenRegFile : RegTag

/-- The file Step 3 chooses: the only one with a free register, else the preferred one, ties
    broken by alternating from the previous choice. -/
def chooseRegFile (chosenA chosenB prefA prefB : Int) (prevChosenRegFile : RegTag) : RegTag :=
  if chosenA < 0 then .regB
  else if chosenB < 0 then .regA
  else if prefA > prefB then .regA
  else if prefA < prefB then .regB
  else if prevChosenRegFile = .regA then .regB else .regA

/-- One iteration of Step 3 for variable `i`: the lowest free register in each file, then the
    file. -/
def allocStep (liveWith : LiveSets) (prefA prefB : Int → Int) (st : AllocState) (i : Nat) :
    Except String AllocState :=
  let chosenA := chooseRegister (liveWith.possibleRegisters 32 i st.alloc .regA)
  let chosenB := chooseRegister (liveWith.possibleRegisters 32 i st.alloc .regB)
  if chosenA < 0 ∧ chosenB < 0 then
    throw "regAlloc(): register allocation failed, insufficient capacity"
  else
    let chosenRegFile := chooseRegFile chosenA chosenB (prefA i) (prefB i) st.prevChosenRegFile
    pure ⟨Function.update st.alloc i { st.alloc i with
      tag := chosenRegFile, regId := if chosenRegFile = .regA then chosenA else chosenB },
      chosenRegFile⟩

/-- Step 3 of `vc4::regAlloc` over the first `numVars` variables: every entry starts as
    `NONE`, and the first file tried on a tie is A. -/
def allocRegs (liveWith : LiveSets) (prefA prefB : Int → Int) (numVars : Nat) :
    Except String (Int → Reg) :=
  AllocState.alloc <$>
    (List.range numVars).foldlM (allocStep liveWith prefA prefB) ⟨fun _ => ⟨.none, 0, false⟩, .regB⟩

/-- Step 4 for one instruction: each defined variable `r` renamed to `TMP_A`/`TMP_B` and the id
    of `alloc[r]`, then each used one, then the temporary tags turned into `REG_A`/`REG_B`. -/
def rewrite (alloc : Int → Reg) (instr : Instr) : Instr :=
  let useDefSet := useDef instr
  let tmp (r : Int) : RegTag := if (alloc r).tag = .regA then .tmpA else .tmpB
  let instr := useDefSet.defs.foldl (fun instr r =>
    renameDest instr .regA r (tmp r) (alloc r).regId) instr
  let instr := useDefSet.use.foldl (fun instr r =>
    renameUses instr .regA r (tmp r) (alloc r).regId) instr
  substRegTag (substRegTag instr .tmpA .regA) .tmpB .regB

/-- `vc4::regAlloc(cfg, instrs)` with `numVars = getFreshVarCount()`: the rewritten code. -/
def regAlloc (numVars : Nat) (cfg : CFG) (instrs : List Instr) : Except String (List Instr) := do
  let live := Liveness.compute cfg instrs
  let (prefA, prefB) := regallocDetermineRegfileAB instrs
  let liveWith := LiveSets.init instrs live
  let alloc ← allocRegs liveWith prefA prefB numVars
  pure (instrs.map (rewrite alloc))

/-! ### Step 3 -/

section Step3

variable {ls : LiveSets} {prefA prefB : Int → Int}

/-- The chosen file has a free register. -/
theorem chooseRegFile_spec {chosenA chosenB pa pb : Int} {prev : RegTag}
    (h : ¬(chosenA < 0 ∧ chosenB < 0)) :
    (chooseRegFile chosenA chosenB pa pb prev = .regA ∧ 0 ≤ chosenA) ∨
      (chooseRegFile chosenA chosenB pa pb prev = .regB ∧ 0 ≤ chosenB) := by
  unfold chooseRegFile
  split_ifs <;> simp <;> omega

/-- What a successful iteration does: variable `i` gets the register `chooseRegister` found in
    a file where it found one. -/
theorem allocStep_ok {st st' : AllocState} {i : Nat}
    (h : allocStep ls prefA prefB st i = .ok st') :
    ∃ file, (file = .regA ∨ file = .regB) ∧
      0 ≤ chooseRegister (ls.possibleRegisters 32 i st.alloc file) ∧
      st'.alloc = assignChosen ls 32 i st.alloc file := by
  simp only [allocStep] at h
  by_cases hAB : chooseRegister (ls.possibleRegisters 32 i st.alloc .regA) < 0 ∧
      chooseRegister (ls.possibleRegisters 32 i st.alloc .regB) < 0
  · rw [if_pos hAB] at h; cases h
  · rw [if_neg hAB] at h
    obtain rfl := Except.ok.inj h
    rcases @chooseRegFile_spec _ _ (prefA i) (prefB i) st.prevChosenRegFile hAB with
      ⟨hf, hc⟩ | ⟨hf, hc⟩
    · exact ⟨.regA, .inl rfl, hc, by simp [assignChosen, hf]⟩
    · exact ⟨.regB, .inr rfl, hc, by simp [assignChosen, hf]⟩

/-- A failed iteration found no register in either file. -/
theorem allocStep_error {st : AllocState} {i : Nat} {e : String}
    (h : allocStep ls prefA prefB st i = .error e) :
    chooseRegister (ls.possibleRegisters 32 i st.alloc .regA) < 0 ∧
      chooseRegister (ls.possibleRegisters 32 i st.alloc .regB) < 0 := by
  simp only [allocStep] at h
  by_contra hAB
  rw [if_neg hAB] at h
  cases h

theorem allocRegs_eq (numVars : Nat) :
    allocRegs ls prefA prefB numVars = AllocState.alloc <$>
      (List.range numVars).foldlM (allocStep ls prefA prefB)
        ⟨fun _ => ⟨.none, 0, false⟩, .regB⟩ := rfl

/-- Run lemma: every state the loop reaches after `k` successful iterations is a partial
    colouring of the first `k` variables. -/
theorem allocLoop_inv (hsym : ls.Symm) (k : Nat) (st : AllocState)
    (h : (List.range k).foldlM (allocStep ls prefA prefB)
      ⟨fun _ => ⟨.none, 0, false⟩, .regB⟩ = .ok st) :
    AllocInv ls 32 [.regA, .regB] k st.alloc :=
  foldlM_range_ok (P := fun k st => AllocInv ls 32 [.regA, .regB] k st.alloc)
    (AllocInv.empty 0) (fun _ _ _ hinv hstep => by
      obtain ⟨file, hfile, hc, heq⟩ := allocStep_ok hstep
      rw [heq]
      exact hinv.assign hsym (by rcases hfile with rfl | rfl <;> simp) hc) k st h

/-- A completed allocation colours every variable below `numVars`. -/
theorem allocRegs_ok (hsym : ls.Symm) {numVars : Nat} {alloc : Int → Reg}
    (h : allocRegs ls prefA prefB numVars = .ok alloc) :
    AllocInv ls 32 [.regA, .regB] numVars alloc := by
  rw [allocRegs_eq] at h
  cases hrun : (List.range numVars).foldlM (allocStep ls prefA prefB)
      ⟨fun _ => ⟨.none, 0, false⟩, .regB⟩ with
  | error e => rw [hrun] at h; cases h
  | ok st =>
    rw [hrun] at h; cases h
    exact allocLoop_inv hsym numVars st hrun

/-- Allocation fails only at a variable `i` whose earlier neighbours hold all 32 registers of
    both files. -/
theorem allocRegs_error (hsym : ls.Symm) {numVars : Nat} {e : String}
    (h : allocRegs ls prefA prefB numVars = .error e) :
    ∃ i < numVars, ∃ alloc, allocRegs ls prefA prefB i = .ok alloc ∧
      ∀ file ∈ [RegTag.regA, .regB], ∀ j : Nat, j < 32 → ∃ y : Nat, y < i ∧ (y : Int) ∈ ls.sets i ∧
        (alloc y).tag = file ∧ (alloc y).regId = j := by
  rw [allocRegs_eq] at h
  cases hrun : (List.range numVars).foldlM (allocStep ls prefA prefB)
      ⟨fun _ => ⟨.none, 0, false⟩, .regB⟩ with
  | ok st => rw [hrun] at h; cases h
  | error e' =>
    obtain ⟨i, hi, st, hpre, hstep⟩ := foldlM_range_error numVars hrun
    have hinv := allocLoop_inv hsym i st hpre
    obtain ⟨hA, hB⟩ := allocStep_error hstep
    refine ⟨i, hi, st.alloc, by rw [allocRegs_eq, hpre]; rfl, fun file hfile j hj => ?_⟩
    simp only [List.mem_cons, List.mem_singleton, List.not_mem_nil, or_false] at hfile
    rcases hfile with rfl | rfl
    · exact hinv.held (by decide) hA j hj
    · exact hinv.held (by decide) hB j hj

end Step3

/-! ### Step 4 -/

/-- Step 4 on an instruction without temporary tags, under a map that gives its variables
    registers of A or B: exactly the simultaneous substitution. Each variable is renamed once,
    as its temporary tag takes it out of the later renames. -/
theorem rewrite_eq_substVars (alloc : Int → Reg) (instr : Instr) (hnt : instr.NoTmp)
    (hab : ∀ v ∈ instr.vars, (alloc v).tag = .regA ∨ (alloc v).tag = .regB) :
    rewrite alloc instr = instr.substVars alloc := by
  let tmp (r : Int) : RegTag := if (alloc r).tag = .regA then .tmpA else .tmpB
  have hslot : ∀ (rs : List Int) (reg : Reg), reg ∈ instr.regs →
      (reg.tag = .regA → reg.regId ∈ rs) →
      Reg.substTag .tmpB .regB (Reg.substTag .tmpA .regA
        (rs.foldl (fun d v => d.rename .regA v (tmp v) (alloc v).regId) reg)) =
        reg.substVar alloc := by
    intro rs reg hmem hrs
    rw [Reg.foldl_rename tmp _ (fun v => by simp only [tmp]; split_ifs <;> simp)]
    by_cases hA : reg.tag = .regA
    · have hv : reg.regId ∈ instr.vars := mem_varIds.mpr ⟨reg, hmem, hA, rfl⟩
      rcases hab _ hv with h | h <;> simp [Reg.substTag, Reg.substVar, hA, hrs hA, h, tmp]
    · obtain ⟨h1, h2⟩ := hnt reg hmem
      simp [Reg.substTag, Reg.substVar, hA, h1, h2]
  simp only [rewrite, renameDest, renameUses, substRegTag]
  rw [foldl_renameDest (fun r => Reg.rename .regA r (tmp r) (alloc r).regId),
    foldl_renameUses (fun r => Reg.rename .regA r (tmp r) (alloc r).regId)]
  simp only [Instr.mapRegs_mapRegs, Instr.substVars]
  apply Instr.mapRegs_congr
  · exact fun r hr => hslot _ r (List.mem_append_left _ hr) (mem_defs_of_dstRegs hr)
  · exact fun r hr => hslot _ r (List.mem_append_right _ hr) (mem_use_of_srcRegs hr)

theorem regAlloc_eq (numVars : Nat) (cfg : CFG) (instrs : List Instr) :
    regAlloc numVars cfg instrs =
      (fun alloc => instrs.map (rewrite alloc)) <$>
        allocRegs (LiveSets.init instrs (Liveness.compute cfg instrs))
          (regallocDetermineRegfileAB instrs).1 (regallocDetermineRegfileAB instrs).2 numVars := by
  simp only [regAlloc]
  cases allocRegs (LiveSets.init instrs (Liveness.compute cfg instrs))
    (regallocDetermineRegfileAB instrs).1 (regallocDetermineRegfileAB instrs).2 numVars <;> rfl

end Vc4

end V3DLib
