import V3DLib.Allocation
import V3DLib.Target.Emulator

/-!
# Allocation keeps what a kernel does

Both allocators rewrite a kernel through a map that colours the interference graph
(`AllocInv.colouring`), as the simultaneous substitution `Instr.substVars`
(`Vc4.rewrite_eq_substVars`, `V3d.rewrite_eq_substVars`). Such a rewrite does not change what
the kernel does on the emulator: from states that agree on the variables live at the start, the
two runs pass through the same instructions, set the same flags and act alike on the devices,
step for step. The argument is the classical one: a variable is read only where it is live
(`Liveness.Solves.use`), it stays live back along every edge until it is written
(`Liveness.Solves.flow`), and a variable written while another is live interferes with it, so
the two hold different registers.

## Main definitions

* `Agree`: two machines agree on the flags, the devices, and a list of variables through the
  allocation.
* `AllocationValid`: what the simulation needs of a kernel, its liveness and its allocation.
* `Sim`: the invariant of the simulation, agreement on the variables live at the program counter.

## Main results

* `exec_agree`: an instruction and its rewrite keep the agreement, extended by the variable
  written.
* `step_sim`, `run_sim`: the rewritten kernel simulates the original, step for step.
* `runsAlike_substVars`: so the two run alike from machines agreeing at entry.
* `Colouring.allocationValid`: a colouring with the register files is valid for the analysis
  `buildCFG` and `Liveness.compute` make.
* `regAlloc_preserves_runs`: the code either allocator returns runs like its input.
-/

namespace V3DLib

-- ════════════════════════════════════════════════════════════════════════
-- Agreement through an allocation
-- ════════════════════════════════════════════════════════════════════════

section Agree

variable {V F D : Type} {dp : Datapath V F D} {alloc : Int → Reg}

/-- `m'` holds, in the register `alloc` gives each variable of `vs`, what `m` holds in the
    variable, and agrees with `m` on the flags and the devices. -/
structure Agree (alloc : Int → Reg) (vs : List Int) (m m' : Machine V F D) : Prop where
  flags : m'.flags = m.flags
  dev : m'.dev = m.dev
  vars : ∀ v ∈ vs, m'.rf (alloc v).tag (alloc v).regId = m.rf .regA v

variable {vs : List Int} {m m' : Machine V F D}

theorem Agree.mono {ws : List Int} (h : Agree alloc vs m m') (hws : ∀ w ∈ ws, w ∈ vs) :
    Agree alloc ws m m' :=
  ⟨h.flags, h.dev, fun w hw => h.vars w (hws w hw)⟩

theorem Agree.withDev (h : Agree alloc vs m m') (d : D) :
    Agree alloc vs { m with dev := d } { m' with dev := d } :=
  ⟨h.flags, rfl, h.vars⟩

theorem Agree.nil (hflags : m'.flags = m.flags) (hdev : m'.dev = m.dev) : Agree alloc [] m m' :=
  ⟨hflags, hdev, fun _ hv => (List.not_mem_nil _ hv).elim⟩

theorem Agree.withPc (h : Agree alloc vs m m') (pc : Nat) :
    Agree alloc vs { m with pc } { m' with pc } :=
  ⟨h.flags, h.dev, h.vars⟩

theorem Agree.setFlags (h : Agree alloc vs m m') (sf : Bool) (v : V) :
    Agree alloc vs (m.setFlags dp sf v) (m'.setFlags dp sf v) := by
  cases sf
  · exact h
  · exact ⟨rfl, h.dev, h.vars⟩

/-- A register other than a variable is not in the register files. -/
theorem not_inFile {r : Reg} (hA : r.tag ≠ .regA) (hB : r.tag ≠ .regB) : ¬r.InFile := by
  rintro (h | h) <;> contradiction

/-- A variable renamed to a register of the files. -/
theorem Reg.substVar_inFile {r : Reg} (hA : r.tag = .regA) (hf : (alloc r.regId).InFile) :
    r.substVar alloc = { r with tag := (alloc r.regId).tag, regId := (alloc r.regId).regId } ∧
      Reg.InFile { r with tag := (alloc r.regId).tag, regId := (alloc r.regId).regId } :=
  ⟨if_pos hA, hf⟩

/-- A read through the rewrite sees what the original read sees. -/
theorem Agree.read (h : Agree alloc vs m m') {r : Reg} (hB : r.tag ≠ .regB)
    (hA : r.tag = .regA → r.regId ∈ vs ∧ (alloc r.regId).InFile) :
    m'.read dp (r.substVar alloc) = m.read dp r := by
  by_cases hr : r.tag = .regA
  · obtain ⟨hv, hf⟩ := hA hr
    obtain ⟨hsub, hsf⟩ := Reg.substVar_inFile hr hf
    simp only [hsub, Machine.read, if_pos hsf, if_pos (show r.InFile from .inl hr), hr]
    exact h.vars _ hv
  · simp only [Reg.substVar, if_neg hr, Machine.read, if_neg (not_inFile hr hB), h.dev]

theorem Agree.operand (h : Agree alloc vs m m') {o : Operand}
    (hB : ∀ r ∈ o.regs, r.tag ≠ .regB)
    (hA : ∀ r ∈ o.regs, r.tag = .regA → r.regId ∈ vs ∧ (alloc r.regId).InFile) :
    m'.operand dp (o.mapReg (Reg.substVar alloc)) = m.operand dp o := by
  cases o with
  | reg r => exact h.read (hB r (List.mem_singleton_self r)) (hA r (List.mem_singleton_self r))
  | imm i => rfl

theorem Operand.regs_mapReg (f : Reg → Reg) (o : Operand) : (o.mapReg f).regs = o.regs.map f := by
  cases o <;> rfl

/-- The rewrite leaves the registers outside the files alone, and renames variables to
    registers of the files, so it reads the same registers outside them. -/
theorem otherRegs_map_substVar :
    ∀ {rs : List Reg}, (∀ r ∈ rs, r.tag = .regA → (alloc r.regId).InFile) →
      otherRegs (rs.map (Reg.substVar alloc)) = otherRegs rs
  | [], _ => rfl
  | r :: rs, hA => by
    have ih := otherRegs_map_substVar fun r' hr' => hA r' (List.mem_cons_of_mem r hr')
    simp only [otherRegs, List.map_cons, List.filter_cons] at ih ⊢
    by_cases hr : r.tag = .regA
    · obtain ⟨hsub, hsf⟩ := Reg.substVar_inFile hr (hA r (List.mem_cons_self r rs) hr)
      simp [hsub, hsf, show r.InFile from .inl hr, ih]
    · rw [Reg.substVar, if_neg hr, ih]

/-- A write through the rewrite keeps the agreement and extends it to the variable written:
    it writes the same value, merged under the same flags with the same old value where the
    condition needs it, and to a register no variable of `vs` holds. -/
theorem Agree.write (h : Agree alloc vs m m') {cond : AssignCond} {r : Reg} {v : V}
    (hB : r.tag ≠ .regB)
    (hA : r.tag = .regA → (alloc r.regId).InFile ∧ (cond.tag ≠ .always → r.regId ∈ vs) ∧
      ∀ w ∈ vs, w ≠ r.regId → ¬(alloc w).Same (alloc r.regId)) :
    Agree alloc (varIds [r] ++ vs) (m.write dp cond r v)
      (m'.write dp cond (r.substVar alloc) v) := by
  by_cases hr : r.tag = .regA
  · obtain ⟨hf, hold, hdist⟩ := hA hr
    obtain ⟨hsub, hsf⟩ := Reg.substVar_inFile hr hf
    simp only [hsub, Machine.write, if_pos hsf, if_pos (show r.InFile from .inl hr)]
    refine ⟨h.flags, h.dev, fun w hw => ?_⟩
    by_cases hwr : w = r.regId
    · subst hwr
      simp only [hr, and_self, if_true, h.flags]
      by_cases hc : cond.tag = .always
      · obtain ⟨tag, flag⟩ := cond
        obtain rfl : tag = .always := hc
        rw [dp.assign_always, dp.assign_always]
      · rw [h.vars _ (hold hc)]
    · have hw : w ∈ vs := by simpa [varIds, hr, hwr] using hw
      dsimp only
      rw [if_neg (show ¬((alloc w).tag = (alloc r.regId).tag ∧ _) from hdist w hw hwr),
        if_neg fun h => hwr h.2]
      exact h.vars w hw
  · simp only [Reg.substVar, if_neg hr, Machine.write, if_neg (not_inFile hr hB)]
    exact ⟨h.flags, by simp only [h.flags, h.dev], fun w hw => h.vars w (by simpa [varIds, hr]
      using hw)⟩

end Agree

-- ════════════════════════════════════════════════════════════════════════
-- One instruction
-- ════════════════════════════════════════════════════════════════════════

/-- The registers `useDef` counts are registers of the instruction. -/
theorem useDefReg_subset_regs (instr : Instr) :
    (∀ r ∈ (useDefReg instr).1, r ∈ instr.regs) ∧ ∀ r ∈ (useDefReg instr).2, r ∈ instr.regs := by
  cases instr <;> simp +contextual [useDefReg, Instr.regs, Instr.dstRegs, Instr.srcRegs]
  tauto

/-- The variables an instruction reads or writes are among its variables. -/
theorem mem_vars_of_useDef {instr : Instr} {v : Int}
    (hv : v ∈ (useDef instr).use ∨ v ∈ (useDef instr).defs) : v ∈ instr.vars := by
  simp only [useDef, mem_varIds, Instr.vars] at hv ⊢
  rcases hv with ⟨r, hr, hA, rfl⟩ | ⟨r, hr, hA, rfl⟩
  exacts [⟨r, (useDefReg_subset_regs instr).1 r hr, hA, rfl⟩,
    ⟨r, (useDefReg_subset_regs instr).2 r hr, hA, rfl⟩]

section Exec

variable {V F D : Type} {dp : Datapath V F D} {alloc : Int → Reg} {vs : List Int}
  {m m' : Machine V F D}

/-- An instruction and its rewrite, from machines that agree on `vs`, which holds every variable
    the instruction reads, agree on `vs` and on the variable it writes, when the allocation puts
    its variables in the register files and the variable written apart from those of `vs`. -/
theorem exec_agree {instr : Instr} (h : Agree alloc vs m m')
    (hB : ∀ r ∈ instr.regs, r.tag ≠ .regB) (hfile : ∀ v ∈ instr.vars, (alloc v).InFile)
    (huse : ∀ v ∈ (useDef instr).use, v ∈ vs)
    (hdist : ∀ d ∈ (useDef instr).defs, ∀ w ∈ vs, w ≠ d → ¬(alloc w).Same (alloc d)) :
    Agree alloc ((useDef instr).defs ++ vs) (m.exec dp instr)
      (m'.exec dp (instr.substVars alloc)) := by
  have hvar : ∀ r ∈ instr.regs, r.tag = .regA → (alloc r.regId).InFile :=
    fun r hr hA => hfile _ (mem_varIds.mpr ⟨r, hr, hA, rfl⟩)
  have hsrc : ∀ r ∈ instr.srcRegs, r.tag = .regA → r.regId ∈ vs ∧ (alloc r.regId).InFile :=
    fun r hr hA => ⟨huse _ (mem_use_of_srcRegs hr hA), hvar r (List.mem_append_right _ hr) hA⟩
  have hdst : ∀ r ∈ instr.dstRegs, r.tag = .regA →
      (alloc r.regId).InFile ∧ ∀ w ∈ vs, w ≠ r.regId → ¬(alloc w).Same (alloc r.regId) :=
    fun r hr hA => ⟨hvar r (List.mem_append_left _ hr) hA, hdist _ (mem_defs_of_dstRegs hr hA)⟩
  cases instr
  case li sf cond dest imm =>
    have hd := hdst dest (List.mem_singleton_self _)
    exact (h.write (hB dest (List.mem_singleton_self _)) fun hA =>
      ⟨(hd hA).1, fun hc => huse _ (mem_varIds.mpr ⟨dest, by simp [useDefReg, hc], hA, rfl⟩),
        (hd hA).2⟩).setFlags sf _
  case alu sf cond dest srcA op srcB =>
    have hd := hdst dest (List.mem_singleton_self _)
    have hs : ∀ r ∈ srcA.regs ++ srcB.regs, r.tag ≠ .regB := fun r hr => hB r (.tail _ hr)
    simp only [Machine.exec, Instr.substVars, Instr.mapRegs, Operand.regs_mapReg,
      ← List.map_append, h.dev,
      @otherRegs_map_substVar alloc (srcA.regs ++ srcB.regs) fun r hr hA => (hsrc r hr hA).2,
      h.operand (fun r hr => hs r (List.mem_append_left _ hr))
        (fun r hr => hsrc r (List.mem_append_left _ hr)),
      h.operand (fun r hr => hs r (List.mem_append_right _ hr))
        (fun r hr => hsrc r (List.mem_append_right _ hr))]
    exact ((h.withDev _).write (hB dest (List.mem_cons_self _ _)) fun hA =>
      ⟨(hd hA).1, fun (hc : cond.tag ≠ .always) =>
        huse _ (mem_varIds.mpr ⟨dest, by simp [useDefReg, hc], hA, rfl⟩), (hd hA).2⟩).setFlags sf _
  case recv dest =>
    have hd := hdst dest (List.mem_singleton_self _)
    simp only [Machine.exec, Instr.substVars, Instr.mapRegs, h.dev]
    exact (h.withDev _).write (hB dest (List.mem_singleton_self _))
      fun hA => ⟨(hd hA).1, fun hc => (hc (rfl : always.tag = .always)).elim, (hd hA).2⟩
  case pri r | prf r =>
    have hr := List.mem_singleton_self r
    simp only [Machine.exec, Instr.substVars, Instr.mapRegs, h.read (hB r hr) (hsrc r hr), h.dev,
      show [r.substVar alloc] = [r].map (Reg.substVar alloc) from rfl,
      @otherRegs_map_substVar alloc [r] fun r' hr' hA => (hsrc r' hr' hA).2]
    exact h.withDev _
  all_goals first
    | exact h
    | simp only [Machine.exec, Instr.substVars, Instr.mapRegs, h.dev]; exact h.withDev _

end Exec

-- ════════════════════════════════════════════════════════════════════════
-- Whole runs
-- ════════════════════════════════════════════════════════════════════════

/-- The rewrite makes no label and keeps every one. -/
theorem Instr.substVars_eq_lab (alloc : Int → Reg) (l : Label) (instr : Instr) :
    instr.substVars alloc = .lab l ↔ instr = .lab l := by
  cases instr <;> simp [Instr.substVars, Instr.mapRegs]

/-- The rewrite keeps every branch and label, so control goes where it went. -/
theorem nextPc_substVars {V F D : Type} (dp : Datapath V F D) (alloc : Int → Reg)
    (code : List Instr) (flags : F) (pc : Nat) (instr : Instr) :
    nextPc dp (code.map (Instr.substVars alloc)) flags pc (instr.substVars alloc) =
      nextPc dp code flags pc instr := by
  cases instr
  case brl c l =>
    simp only [Instr.substVars, Instr.mapRegs, nextPc,
      labelIndex_map (Instr.substVars_eq_lab alloc l)]
  all_goals rfl

section Runs

variable {V F D : Type} {dp : Datapath V F D} {cfg : CFG} {instrs : List Instr}
  {live : List (List Int)} {alloc : Int → Reg}

/-- What the simulation needs of a kernel, its liveness sets and its allocation: sets that solve
    the dataflow inequations over a CFG with at least the edges of the code, and none past its
    end; no `REG_B` register in the kernel; every variable given a register of the files; and
    interfering variables given different registers. -/
structure AllocationValid (cfg : CFG) (instrs : List Instr) (live : List (List Int))
    (alloc : Int → Reg) : Prop where
  solves : Liveness.Solves cfg instrs live
  edges : ∀ i x, Succ instrs i x → x ∈ cfg i
  length_le : live.length ≤ instrs.length
  noRegB : ∀ instr ∈ instrs, ∀ r ∈ instr.regs, r.tag ≠ .regB
  inFile : ∀ instr ∈ instrs, ∀ v ∈ instr.vars, (alloc v).InFile
  distinct : ∀ x y, Interferes instrs live x y → ¬(alloc x).Same (alloc y)

/-- The invariant of the simulation: both machines at the same instruction, agreeing on the
    variables live into it. -/
structure Sim (live : List (List Int)) (alloc : Int → Reg) (m m' : Machine V F D) : Prop where
  pc : m'.pc = m.pc
  agree : Agree alloc (live.getD m.pc []) m m'

/-- What a run shows: the instruction, the flags and the devices. -/
theorem Sim.observe {m m' : Machine V F D} (h : Sim live alloc m m') :
    m'.pc = m.pc ∧ m'.flags = m.flags ∧ m'.dev = m.dev :=
  ⟨h.pc, h.agree.flags, h.agree.dev⟩

/-- The variables live into a successor are written by the instruction or live into it; past
    the end of the code none is live. -/
theorem AllocationValid.live_succ (hv : AllocationValid cfg instrs live alloc) {i j : Nat}
    {instr : Instr} (hi : instrs[i]? = some instr)
    (hj : Succ instrs i j ∨ (j = instrs.length ∧ i + 1 = instrs.length)) :
    ∀ w ∈ live.getD j [], w ∈ (useDef instr).defs ++ live.getD i [] := by
  have hget : instrs.getD i .noOp = instr := by rw [List.getD_eq_getElem?_getD, hi]; rfl
  intro w hw
  rcases hj with hs | ⟨rfl, -⟩
  · by_cases hd : w ∈ (useDef instr).defs
    · exact List.mem_append_left _ hd
    · exact List.mem_append_right _ (hv.solves.flow i (List.getElem?_eq_some.mp hi).1 j
        (hv.edges i j hs) w hw (by rwa [hget]))
  · rw [List.getD_eq_getElem?_getD, List.getElem?_eq_none (by have := hv.length_le; omega)] at hw
    cases hw

/-- The step lemma: from machines in the invariant, the kernel and its rewrite both stop, or
    both step to machines in the invariant. -/
theorem step_sim (hv : AllocationValid cfg instrs live alloc) {m m' : Machine V F D}
    (h : Sim live alloc m m') :
    Option.Rel (Sim live alloc) (step dp instrs m)
      (step dp (instrs.map (Instr.substVars alloc)) m') := by
  obtain ⟨hpc, hag⟩ := h
  unfold step
  rw [hpc, List.getElem?_map]
  cases hi : instrs[m.pc]? with
  | none => exact .none
  | some instr =>
    have hmem := List.getElem?_mem hi
    have hget : instrs.getD m.pc .noOp = instr := by rw [List.getD_eq_getElem?_getD, hi]; rfl
    have hexec : Agree alloc _ (m.exec dp instr) (m'.exec dp (instr.substVars alloc)) :=
      exec_agree hag (hv.noRegB instr hmem) (hv.inFile instr hmem)
      (fun v hu => hv.solves.use _ (List.getElem?_eq_some.mp hi).1 _ (by rwa [hget]))
      (fun d hd w hw hne => hv.distinct w d ⟨hne, m.pc, instr, hi, .inr ⟨hd, hw⟩⟩)
    simp only [Option.map_some', Option.some_bind, nextPc_substVars, hag.flags]
    cases hn : nextPc dp instrs m.flags m.pc instr with
    | none => exact .none
    | some j => exact .some ⟨rfl, (hexec.mono (hv.live_succ hi (nextPc_succ hi hn))).withPc j⟩

/-- The run lemma: from machines in the invariant, any number of steps of the kernel and of its
    rewrite end in machines in the invariant. -/
theorem run_sim (hv : AllocationValid cfg instrs live alloc) :
    ∀ (n : Nat) {m m' : Machine V F D}, Sim live alloc m m' →
      Sim live alloc (run dp instrs n m) (run dp (instrs.map (Instr.substVars alloc)) n m')
  | 0, _, _, h => h
  | n + 1, m, m', h => by
    have hs : Option.Rel (Sim live alloc) (step dp instrs m) _ := step_sim hv h
    rw [run, run]
    revert hs
    generalize step dp instrs m = a
    generalize step dp (instrs.map (Instr.substVars alloc)) m' = b
    intro hs
    cases hs with
    | none => exact h
    | some hs => exact run_sim hv n hs

/-- From machines at the first instruction that agree on the flags, the devices and the
    variables live at entry, the kernel and its rewrite run alike. -/
theorem runsAlike_substVars (hv : AllocationValid cfg instrs live alloc) {m m' : Machine V F D}
    (hpc : m.pc = 0) (hpc' : m'.pc = 0) (h : Agree alloc (live.getD 0 []) m m') :
    RunsAlike dp instrs (instrs.map (Instr.substVars alloc)) m m' :=
  fun n => (run_sim hv n ⟨hpc'.trans hpc.symm, hpc ▸ h⟩).observe

end Runs

-- ════════════════════════════════════════════════════════════════════════
-- Both allocators
-- ════════════════════════════════════════════════════════════════════════

section Allocators

variable {V F D : Type} {cfg : CFG} {instrs : List Instr} {alloc : Int → Reg}
  {numLabels numRegs numVars : Nat} {files : List RegTag}

/-- A variable of the kernel, one of the first `numVars`, gets a register of `files`. -/
theorem Colouring.tag_mem {live : List (List Int)}
    (hcol : Colouring instrs live numRegs files numVars alloc)
    (hvars : ∀ instr ∈ instrs, ∀ v ∈ instr.vars, 0 ≤ v ∧ v < numVars) :
    ∀ instr ∈ instrs, ∀ v ∈ instr.vars, (alloc v).tag ∈ files := fun instr hi v hv => by
  obtain ⟨h0, hlt⟩ := hvars instr hi v hv
  simpa [Int.toNat_of_nonneg h0] using (hcol.inFile v.toNat (by omega)).1

/-- A variable live somewhere is read by some instruction. -/
theorem mem_vars_of_live {live : List (List Int)} (hused : Liveness.OnlyUsed instrs live)
    {k : Nat} {z : Int} (hz : z ∈ live.getD k []) : ∃ instr ∈ instrs, z ∈ instr.vars := by
  obtain ⟨_, ⟨instr, hi, rfl⟩, hu⟩ := by
    simpa only [Liveness.usedVars, List.mem_flatten, List.mem_map] using hused k z hz
  exact ⟨instr, hi, mem_vars_of_useDef (.inl hu)⟩

/-- A colouring of the liveness `Liveness.compute` finds over the successors `buildCFG` gives,
    with registers of the two files, is valid for the simulation, on a kernel whose variables
    are the first `numVars` and which names no `REG_B` register. -/
theorem Colouring.allocationValid
    (hcol : Colouring instrs (Liveness.compute cfg instrs) numRegs files numVars alloc)
    (hfiles : ∀ t ∈ files, t = .regA ∨ t = .regB) (hwf : LabelsWellFormed numLabels instrs)
    (hcfg : buildCFG numLabels instrs CFG.empty = some cfg)
    (hvars : ∀ instr ∈ instrs, ∀ v ∈ instr.vars, 0 ≤ v ∧ v < numVars)
    (hB : ∀ instr ∈ instrs, ∀ r ∈ instr.regs, r.tag ≠ .regB) :
    AllocationValid cfg instrs (Liveness.compute cfg instrs) alloc := by
  obtain ⟨cfg₀, hcfg₀, hsucc⟩ := buildCFG_succ hwf
  obtain rfl : cfg₀ = cfg := Option.some.inj (hcfg₀.symm.trans hcfg)
  have hbound : ∀ z, (∃ instr ∈ instrs, z ∈ instr.vars) → 0 ≤ z ∧ z < numVars :=
    fun z ⟨instr, hi, hz⟩ => hvars instr hi z hz
  refine ⟨Liveness.compute_solves cfg₀ instrs, fun i x => (hsucc i x).2,
    (Liveness.length_compute cfg₀ instrs).le, hB,
    fun instr hi v hv => hfiles _ (hcol.tag_mem hvars instr hi v hv), fun x y hxy => ?_⟩
  obtain ⟨hne, i, instr, hi, hdef⟩ := hxy
  have hdefs : ∀ z ∈ (useDef instr).defs, 0 ≤ z ∧ z < numVars :=
    fun z hz => hbound z ⟨instr, List.getElem?_mem hi, mem_vars_of_useDef (.inr hz)⟩
  have hlive : ∀ z ∈ (Liveness.compute cfg₀ instrs).getD i [], 0 ≤ z ∧ z < numVars :=
    fun z hz => hbound z (mem_vars_of_live (Liveness.compute_used cfg₀ instrs) hz)
  obtain ⟨⟨hx0, hx⟩, ⟨hy0, hy⟩⟩ : (0 ≤ x ∧ x < numVars) ∧ (0 ≤ y ∧ y < numVars) := by
    rcases hdef with ⟨hx, hy⟩ | ⟨hy, hx⟩
    exacts [⟨hdefs x hx, hlive y hy⟩, ⟨hlive x hx, hdefs y hy⟩]
  have := hcol.distinct x.toNat y.toNat (by omega) (by omega)
  rw [Int.toNat_of_nonneg hx0, Int.toNat_of_nonneg hy0] at this
  exact this ⟨hne, i, instr, hi, hdef⟩

/-- The common end of both allocators: a rewrite that substitutes a colouring with registers of
    the two files, of a kernel with no variable live at entry, runs like the kernel from any two
    machines at the first instruction with the same flags and devices. -/
theorem runsAlike_of_colouring
    (hcol : Colouring instrs (Liveness.compute cfg instrs) numRegs files numVars alloc)
    (hfiles : ∀ t ∈ files, t = .regA ∨ t = .regB) (hwf : LabelsWellFormed numLabels instrs)
    (hcfg : buildCFG numLabels instrs CFG.empty = some cfg)
    (hvars : ∀ instr ∈ instrs, ∀ v ∈ instr.vars, 0 ≤ v ∧ v < numVars)
    (hB : ∀ instr ∈ instrs, ∀ r ∈ instr.regs, r.tag ≠ .regB)
    (hentry : (Liveness.compute cfg instrs).getD 0 [] = []) {rewrite : Instr → Instr}
    (hrw : ∀ instr ∈ instrs, rewrite instr = instr.substVars alloc) (dp : Datapath V F D)
    {m m' : Machine V F D} (hpc : m.pc = 0) (hpc' : m'.pc = 0) (hflags : m'.flags = m.flags)
    (hdev : m'.dev = m.dev) : RunsAlike dp instrs (instrs.map rewrite) m m' := by
  rw [List.map_congr_left hrw]
  exact runsAlike_substVars (hcol.allocationValid hfiles hwf hcfg hvars hB) hpc hpc'
    (by rw [hentry]; exact Agree.nil hflags hdev)

/-- Both allocators keep what a kernel does. On a kernel with well-formed labels whose variables
    are the first `numVars`, which names no `REG_B` or temporary register, and in which no
    variable is live at entry (none is read before it is written), the code `vc4::regAlloc` or
    `v3d::SourceTranslate::regAlloc` returns runs on the emulator like the kernel, for every
    datapath and from any two machines at the first instruction with the same flags and
    devices, whatever their register files hold. -/
theorem regAlloc_preserves_runs (hwf : LabelsWellFormed numLabels instrs)
    (hcfg : buildCFG numLabels instrs CFG.empty = some cfg)
    (hvars : ∀ instr ∈ instrs, ∀ v ∈ instr.vars, 0 ≤ v ∧ v < numVars)
    (hregs : ∀ instr ∈ instrs, ∀ r ∈ instr.regs, r.tag ≠ .regB ∧ r.tag ≠ .tmpA ∧ r.tag ≠ .tmpB)
    (hentry : (Liveness.compute cfg instrs).getD 0 [] = []) (dp : Datapath V F D)
    (m m' : Machine V F D) (hpc : m.pc = 0) (hpc' : m'.pc = 0) (hflags : m'.flags = m.flags)
    (hdev : m'.dev = m.dev) :
    (∀ code, Vc4.regAlloc numVars cfg instrs = .ok code → RunsAlike dp instrs code m m') ∧
      ∀ code, V3d.regAlloc numVars cfg instrs = .ok code → RunsAlike dp instrs code m m' := by
  have hB : ∀ instr ∈ instrs, ∀ r ∈ instr.regs, r.tag ≠ .regB :=
    fun instr hi r hr => (hregs instr hi r hr).1
  have hnt : ∀ instr ∈ instrs, instr.NoTmp := fun instr hi r hr => (hregs instr hi r hr).2
  refine ⟨fun code h => ?_, fun code h => ?_⟩
  · obtain ⟨alloc, halloc, rfl⟩ := except_map_eq_ok.mp (Vc4.regAlloc_eq numVars cfg instrs ▸ h)
    have hcol := (Vc4.allocRegs_ok (symm_init instrs _) halloc).colouring
    exact runsAlike_of_colouring hcol (by simp) hwf hcfg hvars hB hentry (fun instr hi =>
      Vc4.rewrite_eq_substVars alloc instr (hnt instr hi) fun v hv => by
        simpa using hcol.tag_mem hvars instr hi v hv) dp hpc hpc' hflags hdev
  · obtain ⟨alloc, halloc, rfl⟩ := except_map_eq_ok.mp (V3d.regAlloc_eq numVars cfg instrs ▸ h)
    have hcol := (V3d.allocRegs_inv (symm_init instrs _) numVars alloc halloc).colouring
    exact runsAlike_of_colouring hcol (by simp) hwf hcfg hvars hB hentry (fun instr hi =>
      V3d.rewrite_eq_substVars alloc instr (hnt instr hi) fun v hv =>
        List.mem_singleton.mp (hcol.tag_mem hvars instr hi v hv)) dp hpc hpc' hflags hdev

/-- A kernel that loads 5 into a variable, copies it to a second and prints the copy. -/
def printCopy : List Instr := [movImm (rf 0) 5, mov (rf 1) (rf 0), .pri (rf 1), .halt]

/-- A datapath that adds, and prints to a list. -/
def printDatapath : Datapath Int Bool (List Int) where
  alu _ a b := a + b
  smallImm i := i.val
  imm i := i.intVal
  flagsOf v := v == 0
  assign c _ new old := if c.tag = .never then old else new
  taken c _ := c.tag = .condAlways
  readOther _ _ := 0
  afterRead _ d := d
  writeOther _ _ _ _ d := d
  receive d := (0, d)
  print _ v d := d ++ [v]
  device _ d := d
  assign_always _ _ _ _ := rfl
  taken_always _ _ := rfl

/-- `printCopy` meets the hypotheses of both simulation theorems, and both allocators complete
    on it. -/
theorem printCopy_allocates : LabelsWellFormed 0 printCopy ∧ ∃ cfg,
    buildCFG 0 printCopy CFG.empty = some cfg ∧ (Liveness.compute cfg printCopy).getD 0 [] = [] ∧
      (∃ code, Vc4.regAlloc 2 cfg printCopy = .ok code) ∧
      ∃ code, V3d.regAlloc 2 cfg printCopy = .ok code := by
  have hwf : LabelsWellFormed 0 printCopy :=
    ⟨fun i l h => by rcases i with _ | _ | _ | _ | i <;> simp_all [printCopy, movImm, mov],
     fun i c l h => by rcases i with _ | _ | _ | _ | i <;> simp_all [printCopy, movImm, mov],
     fun i j l h => by rcases i with _ | _ | _ | _ | i <;> simp_all [printCopy, movImm, mov],
     fun i c l h => by rcases i with _ | _ | _ | _ | i <;> simp_all [printCopy, movImm, mov]⟩
  obtain ⟨cfg, hcfg⟩ : ∃ cfg, buildCFG 0 printCopy CFG.empty = some cfg :=
    Option.isSome_iff_exists.mp (by decide)
  have hrun : (Liveness.compute cfg printCopy).getD 0 [] = [] ∧
      (Vc4.regAlloc 2 cfg printCopy).toBool ∧ (V3d.regAlloc 2 cfg printCopy).toBool := by
    have : let cfg := (buildCFG 0 printCopy CFG.empty).getD CFG.empty
        (Liveness.compute cfg printCopy).getD 0 [] = [] ∧
          (Vc4.regAlloc 2 cfg printCopy).toBool ∧ (V3d.regAlloc 2 cfg printCopy).toBool := by
      decide
    rwa [hcfg, Option.getD_some] at this
  have hok : ∀ {x : Except String (List Instr)}, x.toBool → ∃ code, x = .ok code := by
    intro x; cases x <;> simp [Except.toBool]
  exact ⟨hwf, cfg, hcfg, hrun.1, hok hrun.2.1, hok hrun.2.2⟩

/-- Both allocators on `printCopy`: the allocated code runs like the kernel on the printing
    datapath, from a machine whose register files hold garbage. -/
theorem regAlloc_preserves_runs_printCopy : ∃ cfg, buildCFG 0 printCopy CFG.empty = some cfg ∧
    (∃ code, Vc4.regAlloc 2 cfg printCopy = .ok code ∧
      RunsAlike printDatapath printCopy code ⟨0, fun _ _ => 0, false, []⟩
        ⟨0, fun _ i => i, false, []⟩) ∧
    ∃ code, V3d.regAlloc 2 cfg printCopy = .ok code ∧
      RunsAlike printDatapath printCopy code ⟨0, fun _ _ => 0, false, []⟩
        ⟨0, fun _ i => i, false, []⟩ := by
  obtain ⟨hwf, cfg, hcfg, hentry, ⟨c₁, h₁⟩, c₂, h₂⟩ := printCopy_allocates
  have hvars : ∀ instr ∈ printCopy, ∀ v ∈ instr.vars, 0 ≤ v ∧ v < ((2 : Nat) : Int) := by decide
  have hruns := regAlloc_preserves_runs hwf hcfg hvars (by decide) hentry printDatapath
    ⟨0, fun _ _ => 0, false, []⟩ ⟨0, fun _ i => i, false, []⟩ rfl rfl rfl rfl
  exact ⟨cfg, hcfg, ⟨c₁, h₁, hruns.1 c₁ h₁⟩, c₂, h₂, hruns.2 c₂ h₂⟩

end Allocators

end V3DLib
