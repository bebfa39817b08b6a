import Mathlib.Data.List.GetD
import V3DLib.Vc4.RegAlloc
import V3DLib.V3d.SourceTranslate
import V3DLib.V3d.Encode

/-!
# The allocation law of both allocators

What `vc4::regAlloc` and `v3d::SourceTranslate::regAlloc` guarantee, stated over the
interference relation of the specification rather than over the live-with sets the code builds:
a completed allocation colours the interference graph with the registers of the target's files,
a failure happens only when every register is taken by an interfering, already allocated
variable, and the rewrite applies the allocation as one simultaneous substitution. The v3d
allocator offers 64 registers where the v3d encoder accepts 32: with 33 variables live at once
it completes with an id that `encodeInstr` refuses. When it fails, its diagnostic prints the
instruction whose index is the failing variable's id, which may lie past the end of the sequence
or be an instruction that does not touch the variable.

## Main definitions

* `Colouring`: the allocation law for the first `numVars` variables.
* `AllHeld`: the failure condition at a variable.
* `cliqueOf`, `cliqueWith`: programs whose variables are all live at once.

## Main results

* `cliqueOf_interferes`, `cliqueOf_vars`: in `cliqueOf vs` exactly the variables of `vs`
  interfere, pairwise.
* `cliqueOf_cfg`, `cliqueOf_entry`: `buildCFG` gives `cliqueOf vs` exactly its fall-through
  edges, and nothing is live into its first instruction.
* `regAlloc_cliqueWith`: on `cliqueWith v` the v3d allocator fails at variable `v`.
-/

namespace V3DLib

/-- The allocation law: each of the first `numVars` variables holds a register of one of
    `files` with id below `numRegs`, and two interfering variables hold different registers. -/
structure Colouring (instrs : List Instr) (live : List (List Int)) (numRegs : Nat)
    (files : List RegTag) (numVars : Nat) (alloc : Int → Reg) : Prop where
  inFile : ∀ x : Nat, x < numVars →
    (alloc x).tag ∈ files ∧ 0 ≤ (alloc x).regId ∧ (alloc x).regId < numRegs
  distinct : ∀ x y : Nat, x < numVars → y < numVars → Interferes instrs live x y →
    ¬(alloc x).Same (alloc y)

/-- Every register of every file in `files` is held by a variable allocated before `i` that
    interferes with `i`. -/
def AllHeld (instrs : List Instr) (live : List (List Int)) (numRegs : Nat) (files : List RegTag)
    (i : Nat) (alloc : Int → Reg) : Prop :=
  ∀ file ∈ files, ∀ j : Nat, j < numRegs → ∃ y : Nat, y < i ∧ Interferes instrs live i y ∧
    (alloc y).tag = file ∧ (alloc y).regId = j

section Law

variable {instrs : List Instr} {live : List (List Int)} {numRegs numVars : Nat}
  {files : List RegTag} {alloc : Int → Reg}

/-- The invariant of the loops over the live-with sets is the allocation law over
    interference. -/
theorem AllocInv.colouring (h : AllocInv (LiveSets.init instrs live) numRegs files numVars alloc) :
    Colouring instrs live numRegs files numVars alloc :=
  ⟨h.allocated, fun x y hx hy hxy => h.distinct x y hx hy (fun e => hxy.1 (by rw [e]))
    (LiveSets.mem_init_iff.mpr hxy)⟩

end Law

theorem symm_init (instrs : List Instr) (live : List (List Int)) :
    (LiveSets.init instrs live).Symm :=
  fun _ _ => LiveSets.init_symm

/-- The allocation law of both allocators on any sequence and CFG. If `vc4::regAlloc`
    completes, its code is the rewrite through a map that colours the interference graph with
    the 32 registers of each of A and B; if it fails, it failed at a variable whose interfering
    predecessors hold all 64 of them. The same holds for v3d with the one 64-entry regfile. -/
theorem regAlloc_allocation_law (numVars : Nat) (cfg : CFG) (instrs : List Instr) :
    let live := Liveness.compute cfg instrs
    let liveWith := LiveSets.init instrs live
    let prefs := Vc4.regallocDetermineRegfileAB instrs
    (∀ code, Vc4.regAlloc numVars cfg instrs = .ok code → ∃ alloc,
      Vc4.allocRegs liveWith prefs.1 prefs.2 numVars = .ok alloc ∧
        code = instrs.map (Vc4.rewrite alloc) ∧
        Colouring instrs live 32 [.regA, .regB] numVars alloc) ∧
    (∀ e, Vc4.regAlloc numVars cfg instrs = .error e → ∃ i < numVars, ∃ alloc,
      Vc4.allocRegs liveWith prefs.1 prefs.2 i = .ok alloc ∧
        AllHeld instrs live 32 [.regA, .regB] i alloc) ∧
    (∀ code, V3d.regAlloc numVars cfg instrs = .ok code → ∃ alloc,
      V3d.allocRegs liveWith instrs numVars = .ok alloc ∧
        code = instrs.map (V3d.rewrite alloc) ∧ Colouring instrs live 64 [.regA] numVars alloc) ∧
    (∀ e, V3d.regAlloc numVars cfg instrs = .error e → ∃ i < numVars, ∃ alloc,
      V3d.allocRegs liveWith instrs i = .ok alloc ∧ AllHeld instrs live 64 [.regA] i alloc) := by
  intro live liveWith prefs
  have hsym := symm_init instrs live
  have held : ∀ {numRegs : Nat} {files : List RegTag} {i : Nat} {alloc : Int → Reg},
      (∀ file ∈ files, ∀ j : Nat, j < numRegs → ∃ y : Nat, y < i ∧ (y : Int) ∈ liveWith.sets i ∧
        (alloc y).tag = file ∧ (alloc y).regId = j) → AllHeld instrs live numRegs files i alloc :=
    fun h file hfile j hj =>
      let ⟨y, hy, hmem, ht, hid⟩ := h file hfile j hj
      ⟨y, hy, LiveSets.mem_init_iff.mp hmem, ht, hid⟩
  refine ⟨fun code h => ?_, fun e h => ?_, fun code h => ?_, fun e h => ?_⟩
  · obtain ⟨alloc, halloc, rfl⟩ := except_map_eq_ok.mp (Vc4.regAlloc_eq numVars cfg instrs ▸ h)
    exact ⟨alloc, halloc, rfl, (Vc4.allocRegs_ok hsym halloc).colouring⟩
  · obtain ⟨i, hi, alloc, hrun, hheld⟩ :=
      Vc4.allocRegs_error hsym (except_map_eq_error.mp (Vc4.regAlloc_eq numVars cfg instrs ▸ h))
    exact ⟨i, hi, alloc, hrun, held hheld⟩
  · obtain ⟨alloc, halloc, rfl⟩ := except_map_eq_ok.mp (V3d.regAlloc_eq numVars cfg instrs ▸ h)
    exact ⟨alloc, halloc, rfl, (V3d.allocRegs_inv hsym numVars alloc halloc).colouring⟩
  · obtain ⟨i, hi, -, alloc, hrun, hheld⟩ :=
      V3d.allocRegs_error hsym (except_map_eq_error.mp (V3d.regAlloc_eq numVars cfg instrs ▸ h))
    refine ⟨i, hi, alloc, hrun, held fun file hfile => ?_⟩
    obtain rfl := List.mem_singleton.mp hfile
    exact hheld

/-- The Step-4 rewrite of both allocators, on an instruction without temporary tags: the
    simultaneous substitution of the map, whenever the map sends the instruction's variables
    to registers of the allocator's files (A or B for vc4, A for v3d). -/
theorem regAlloc_rewrite_substitutes (alloc : Int → Reg) (instr : Instr) (hnt : instr.NoTmp) :
    ((∀ v ∈ instr.vars, (alloc v).tag = .regA ∨ (alloc v).tag = .regB) →
      Vc4.rewrite alloc instr = instr.substVars alloc) ∧
    ((∀ v ∈ instr.vars, (alloc v).tag = .regA) →
      V3d.rewrite alloc instr = instr.substVars alloc) :=
  ⟨Vc4.rewrite_eq_substVars alloc instr hnt, V3d.rewrite_eq_substVars alloc instr hnt⟩

/-- An allocation map giving variable 2 the id of variable 1. -/
def collidingAlloc (v : Int) : Reg := if v = 2 then ⟨.regA, 1, false⟩ else ⟨.regA, 7, false⟩

/-- `v1 := v2 + v1` under `collidingAlloc`, which sends every variable to `REG_A`: both rewrites
    give `REG_A 7 := REG_A 1 + REG_A 7`, renaming `v1` once although `v2` takes its id. -/
theorem regAlloc_rewrite_substitutes_collision :
    (aluRR .aAdd (rf 1) (rf 2) (rf 1)).NoTmp ∧
    (∀ v ∈ (aluRR .aAdd (rf 1) (rf 2) (rf 1)).vars, (collidingAlloc v).tag = .regA) ∧
    Vc4.rewrite collidingAlloc (aluRR .aAdd (rf 1) (rf 2) (rf 1)) =
      aluRR .aAdd (rf 7) (rf 1) (rf 7) ∧
    V3d.rewrite collidingAlloc (aluRR .aAdd (rf 1) (rf 2) (rf 1)) =
      aluRR .aAdd (rf 7) (rf 1) (rf 7) := by
  have hnt : (aluRR .aAdd (rf 1) (rf 2) (rf 1)).NoTmp := by decide
  have hA : ∀ v ∈ (aluRR .aAdd (rf 1) (rf 2) (rf 1)).vars, (collidingAlloc v).tag = .regA := by
    decide
  have hsub : (aluRR .aAdd (rf 1) (rf 2) (rf 1)).substVars collidingAlloc =
      aluRR .aAdd (rf 7) (rf 1) (rf 7) := rfl
  obtain ⟨hvc4, hv3d⟩ := regAlloc_rewrite_substitutes collidingAlloc _ hnt
  exact ⟨hnt, hA, (hvc4 fun v hv => .inl (hA v hv)).trans hsub, (hv3d hA).trans hsub⟩

/-! ### Programs that make a clique -/

/-- The variables of `vs` written one after the other, then read one after the other: after the
    last write, all of them are live. -/
def cliqueOf (vs : List Nat) : List Instr :=
  vs.map (fun v => mov (rf v) elemId) ++ vs.map (fun v => mov ⟨.none, 0, false⟩ (rf v))

theorem length_cliqueOf (vs : List Nat) : (cliqueOf vs).length = 2 * vs.length := by
  simp [cliqueOf]; omega

theorem cliqueOf_getElem? {vs : List Nat} {i : Nat} (hi : i < vs.length) :
    (cliqueOf vs)[i]? = some (mov (rf (vs.getD i 0)) elemId) := by
  rw [cliqueOf, List.getElem?_append_left (by simpa using hi)]
  simp [hi]

theorem cliqueOf_getD {vs : List Nat} {k : Nat} (hk : k < 2 * vs.length) :
    (cliqueOf vs).getD k .noOp =
      if k < vs.length then mov (rf (vs.getD k 0)) elemId
      else mov ⟨.none, 0, false⟩ (rf (vs.getD (k - vs.length) 0)) := by
  rw [List.getD_eq_getElem?_getD]
  split_ifs with h
  · rw [cliqueOf_getElem? h]; rfl
  · rw [cliqueOf, List.getElem?_append_right (by simp; omega)]
    simp [List.getElem?_eq_getElem (show k - vs.length < vs.length by omega)]

/-- A write of `ELEM_NUM` to `rf(k)` defines `k` and reads no variable. -/
theorem useDef_mov_write (k : Nat) : useDef (mov (rf k) elemId) = ⟨[], [(k : Int)]⟩ := by
  simp [useDef, useDefReg, mov, rf, elemId, always, varIds, Operand.regs, Reg.ofSpecial]

/-- A read of `rf(j)` into `NONE` reads `j`, through both operands, and defines nothing. -/
theorem useDef_mov_read (j : Nat) :
    useDef (mov ⟨.none, 0, false⟩ (rf j)) = ⟨[(j : Int), j], []⟩ := by
  simp [useDef, useDefReg, mov, rf, always, varIds, Operand.regs]

/-- On any CFG with the fall-through edges, the `j`-th variable of `vs` is live from the write
    after its own to its read: after the last write, all of them are live. -/
theorem cliqueOf_live {vs : List Nat} (hnd : vs.Nodup) {cfg : CFG}
    (hsucc : ∀ k : Nat, k + 1 < 2 * vs.length → k + 1 ∈ cfg k) {i j : Nat} (hi : i ≤ vs.length)
    (hj : j < i) : (vs.getD j 0 : Int) ∈ (Liveness.compute cfg (cliqueOf vs)).getD i [] := by
  have hsol := Liveness.compute_solves cfg (cliqueOf vs)
  have hrun : ∀ k, i ≤ k → k < vs.length + j → k + 1 ∈ cfg k ∧
      (vs.getD j 0 : Int) ∉ (useDef ((cliqueOf vs).getD k .noOp)).defs := by
    intro k hik hkb
    refine ⟨hsucc k (by omega), ?_⟩
    rw [cliqueOf_getD (by omega)]
    split_ifs with hk
    · rw [useDef_mov_write, List.mem_singleton, Int.ofNat_inj, List.getD_eq_getElem _ _ hk,
        List.getD_eq_getElem _ _ (by omega), hnd.getElem_inj_iff]
      omega
    · simp [useDef_mov_read]
  have hread :
      (vs.getD j 0 : Int) ∈ (Liveness.compute cfg (cliqueOf vs)).getD (vs.length + j) [] := by
    refine hsol.use _ (by rw [length_cliqueOf]; omega) _ ?_
    rw [cliqueOf_getD (by omega), if_neg (by omega), Nat.add_sub_cancel_left, useDef_mov_read]
    simp
  exact @Liveness.Solves.mem_of_run cfg (cliqueOf vs) _ hsol _ i (vs.length + j)
    (by rw [length_cliqueOf]; omega) hrun hread i le_rfl (by omega)


/-- The variables of `vs` pairwise interfere: each is live into the writes after its own. -/
theorem cliqueOf_interferes {vs : List Nat} (hnd : vs.Nodup) {cfg : CFG}
    (hsucc : ∀ k : Nat, k + 1 < 2 * vs.length → k + 1 ∈ cfg k) {a b : Nat} (ha : a ∈ vs)
    (hb : b ∈ vs) (hab : a ≠ b) :
    Interferes (cliqueOf vs) (Liveness.compute cfg (cliqueOf vs)) a b := by
  have later : ∀ i j, i < vs.length → j < i →
      Interferes (cliqueOf vs) (Liveness.compute cfg (cliqueOf vs)) (vs.getD i 0) (vs.getD j 0) :=
    fun i j hi hj => ⟨by
      rw [Ne, Int.ofNat_inj, List.getD_eq_getElem _ _ hi, List.getD_eq_getElem _ _ (by omega),
        hnd.getElem_inj_iff]
      omega, i, _, cliqueOf_getElem? hi,
      .inl ⟨by simp [useDef_mov_write], cliqueOf_live hnd hsucc hi.le hj⟩⟩
  obtain ⟨i, hi, rfl⟩ := List.getElem_of_mem ha
  obtain ⟨j, hj, rfl⟩ := List.getElem_of_mem hb
  rw [← List.getD_eq_getElem _ 0 hi, ← List.getD_eq_getElem _ 0 hj]
  rcases Nat.lt_or_gt_of_ne (show i ≠ j by rintro rfl; exact hab rfl) with h | h
  · exact (later j i hj h).symm
  · exact later i j hi h

/-- Only variables of `vs` interfere in `cliqueOf vs`: its instructions name no other. -/
theorem cliqueOf_vars {vs : List Nat} {cfg : CFG} {x y : Int}
    (h : Interferes (cliqueOf vs) (Liveness.compute cfg (cliqueOf vs)) x y) : ∃ a ∈ vs, x = a := by
  have hinstr : ∀ instr ∈ cliqueOf vs, ∀ z,
      z ∈ (useDef instr).use ∨ z ∈ (useDef instr).defs → ∃ a ∈ vs, z = a := by
    intro instr hmem z hz
    simp only [cliqueOf, List.mem_append, List.mem_map] at hmem
    rcases hmem with ⟨a, ha, rfl⟩ | ⟨a, ha, rfl⟩ <;>
      simp only [useDef_mov_write, useDef_mov_read, List.mem_cons, List.not_mem_nil,
        or_false, false_or, or_self] at hz <;> exact ⟨a, ha, hz⟩
  obtain ⟨-, i, instr, hi, ⟨hd, -⟩ | ⟨-, hl⟩⟩ := h
  · exact hinstr instr (List.getElem?_mem hi) x (.inr hd)
  · have := Liveness.compute_used cfg (cliqueOf vs) i x hl
    simp only [Liveness.usedVars, List.mem_flatten, List.mem_map] at this
    obtain ⟨_, ⟨instr', hmem, rfl⟩, hx⟩ := this
    exact hinstr instr' hmem x (.inl hx)

/-- Every instruction of `cliqueOf vs` is a move. -/
theorem cliqueOf_mov {vs : List Nat} {instr : Instr} (h : instr ∈ cliqueOf vs) :
    ∃ d s, instr = mov d s := by
  simp only [cliqueOf, List.mem_append, List.mem_map] at h
  rcases h with ⟨a, -, rfl⟩ | ⟨a, -, rfl⟩ <;> exact ⟨_, _, rfl⟩

/-- `cliqueOf vs` has no label and no branch. -/
theorem cliqueOf_labelsWellFormed (vs : List Nat) : LabelsWellFormed 0 (cliqueOf vs) := by
  refine ⟨fun i l h => ?_, fun i c l h => ?_, fun i j l h _ => ?_, fun i c l h => ?_⟩ <;>
    obtain ⟨d, s, h⟩ := cliqueOf_mov (List.getElem?_mem h) <;> cases h

/-- `buildCFG` succeeds on `cliqueOf vs`, with exactly the fall-through edges. -/
theorem cliqueOf_cfg (vs : List Nat) : ∃ cfg, buildCFG 0 (cliqueOf vs) CFG.empty = some cfg ∧
    ∀ k s : Nat, s ∈ cfg k ↔ s = k + 1 ∧ k + 1 < 2 * vs.length := by
  obtain ⟨cfg, hcfg, hsucc⟩ := buildCFG_succ (cliqueOf_labelsWellFormed vs)
  refine ⟨cfg, hcfg, fun k s => (hsucc k s).trans ⟨?_, fun ⟨hs, hk⟩ => .inl ?_⟩⟩
  · rintro (⟨hs, hk, -⟩ | ⟨c, l, h, -⟩)
    · exact ⟨hs, by rwa [length_cliqueOf] at hk⟩
    · obtain ⟨d, s, h⟩ := cliqueOf_mov (List.getElem?_mem h)
      cases h
  have hk' : k + 1 < (cliqueOf vs).length := by rw [length_cliqueOf]; omega
  have hi := List.getElem?_eq_getElem (show k < (cliqueOf vs).length by omega)
  obtain ⟨d, s, hds⟩ := cliqueOf_mov (List.getElem?_mem hi)
  exact ⟨hs, hk', _, hi, (Instr.fallsThrough_iff _).1 (by rw [hds]; rfl)⟩

theorem cliqueOf_buildCFG (vs : List Nat) :
    ∃ cfg, buildCFG 0 (cliqueOf vs) CFG.empty = some cfg ∧
      ∀ k : Nat, k + 1 < 2 * vs.length → k + 1 ∈ cfg k := by
  obtain ⟨cfg, hcfg, hedge⟩ := cliqueOf_cfg vs
  exact ⟨cfg, hcfg, fun k hk => (hedge k (k + 1)).2 ⟨rfl, hk⟩⟩

/-- `n` variables written one after the other, then read one after the other: after the last
    write, all `n` are live. -/
def cliqueProgram (n : Nat) : List Instr :=
  (List.range n).map (fun v => mov (rf v) elemId) ++
    (List.range n).map (fun v => mov ⟨.none, 0, false⟩ (rf v))

/-- The first `n` instructions write the variables in order. -/
theorem cliqueProgram_getElem? {n i : Nat} (hi : i < n) :
    (cliqueProgram n)[i]? = some (mov (rf i) elemId) := by
  rw [cliqueProgram, List.getElem?_append_left (by simpa using hi)]
  simp [hi]

/-- The first `n` variables of `cliqueProgram n` live with each other. -/
theorem cliqueProgram_liveWith {n : Nat} {cfg : CFG}
    (hsucc : ∀ k : Nat, k + 1 < 2 * n → k + 1 ∈ cfg k) :
    ∀ i < n, ∀ j < i, (j : Int) ∈
      (LiveSets.init (cliqueProgram n) (Liveness.compute cfg (cliqueProgram n))).sets i :=
  fun i hi j hj => LiveSets.mem_init_iff.mpr (cliqueOf_interferes (List.nodup_range n)
    (by simpa using hsucc) (List.mem_range.mpr hi) (List.mem_range.mpr (by omega)) (by omega))

/-! ### The v3d allocator against the v3d encoder -/

/-- Thirty-three variables live at once: the v3d allocator completes, and gives the last one
    `REG_A 32`, which the v3d encoder refuses. -/
theorem regAlloc_v3d_id_beyond_encoder :
    ∃ cfg code, buildCFG 0 (cliqueProgram 33) CFG.empty = some cfg ∧
      V3d.regAlloc 33 cfg (cliqueProgram 33) = .ok code ∧
      code[32]? = some (mov ⟨.regA, 32, false⟩ elemId) ∧
      V3d.encodeInstr (mov ⟨.regA, 32, false⟩ elemId) =
        .error "reg.regId >= 0 && reg.regId < 32" := by
  obtain ⟨cfg, hcfg, hsucc⟩ := cliqueOf_buildCFG (List.range 33)
  refine ⟨cfg, (cliqueProgram 33).map (V3d.rewrite (V3d.cliqueAlloc 33)), hcfg, ?_, ?_, rfl⟩
  · rw [V3d.regAlloc_eq, @V3d.allocRegs_clique _ _ 33 (by decide)
      (cliqueProgram_liveWith (by simpa using hsucc))]
    rfl
  · rw [List.getElem?_map, cliqueProgram_getElem? (by decide)]
    rfl

/-! ### The v3d failure diagnostic -/

/-- The variables `0, …, 63` and `v` written, then read: 65 variables live at once. -/
def cliqueWith (v : Nat) : List Instr := cliqueOf (List.range 64 ++ [v])

/-- On `cliqueWith v`, with `v` past the first 64 variables and the variables between unused,
    the v3d allocator fails at `v`, and its diagnostic reads instruction `v` of the sequence:
    the variable's id, read as an instruction index. -/
theorem regAlloc_cliqueWith {v : Nat} (hv : 64 ≤ v) {cfg : CFG}
    (hsucc : ∀ k : Nat, k + 1 < 130 → k + 1 ∈ cfg k) :
    V3d.regAlloc (v + 1) cfg (cliqueWith v) = .error (V3d.allocFailure (cliqueWith v) v) := by
  have hnd : (List.range 64 ++ [v]).Nodup :=
    List.nodup_append.mpr ⟨List.nodup_range 64, List.nodup_singleton v, by simp; omega⟩
  have hmem : ∀ x : Nat, x ∈ List.range 64 ++ [v] ↔ x ∈ insert v (Finset.range 64) := by
    simp; omega
  have hsucc' : ∀ k : Nat, k + 1 < 2 * (List.range 64 ++ [v]).length → k + 1 ∈ cfg k :=
    fun k hk => hsucc k (by simpa using hk)
  rw [V3d.regAlloc_eq, cliqueWith, V3d.allocRegs_error_clique (symm_init _ _)
    (Finset.card_range 64) (fun y hy => by simp at hy; omega)
    (fun x hx y hy hxy => LiveSets.mem_init_iff.mpr
      (cliqueOf_interferes hnd hsucc' ((hmem x).mpr hx) ((hmem y).mpr hy) hxy))
    fun x y h => by
      obtain ⟨a, ha, hx⟩ := cliqueOf_vars (LiveSets.mem_init_iff.mp h)
      exact (hmem x).mp (Int.ofNat_inj.mp hx ▸ ha)]
  rfl

/-- The failure diagnostic of the v3d allocator prints `(*instrs)[i]` for the variable `i` it
    could not allocate, reading the variable's id as an instruction index. On `cliqueWith 200`,
    130 instructions long, allocation fails at variable 200 and the diagnostic indexes past the
    end; on `cliqueWith 100` it fails at variable 100 and names instruction 100, a read of
    `rf(35)` that neither reads nor writes variable 100. -/
theorem regAlloc_v3d_failure_reads_var_id :
    (∃ cfg, buildCFG 0 (cliqueWith 200) CFG.empty = some cfg ∧
      V3d.regAlloc 201 cfg (cliqueWith 200) = .error (V3d.allocFailure (cliqueWith 200) 200) ∧
      (cliqueWith 200).length ≤ 200) ∧
    (∃ cfg, buildCFG 0 (cliqueWith 100) CFG.empty = some cfg ∧
      V3d.regAlloc 101 cfg (cliqueWith 100) = .error (V3d.allocFailure (cliqueWith 100) 100) ∧
      ∃ instr, (cliqueWith 100)[100]? = some instr ∧
        (100 : Int) ∉ (useDef instr).use ∧ (100 : Int) ∉ (useDef instr).defs) := by
  have fails : ∀ v, 64 ≤ v → ∃ cfg, buildCFG 0 (cliqueWith v) CFG.empty = some cfg ∧
      V3d.regAlloc (v + 1) cfg (cliqueWith v) = .error (V3d.allocFailure (cliqueWith v) v) :=
    fun v hv =>
      let ⟨cfg, hcfg, hsucc⟩ := cliqueOf_buildCFG (List.range 64 ++ [v])
      ⟨cfg, hcfg, regAlloc_cliqueWith hv fun k hk => hsucc k (by simpa using hk)⟩
  obtain ⟨cfg, hcfg, h⟩ := fails 200 (by decide)
  obtain ⟨cfg', hcfg', h'⟩ := fails 100 (by decide)
  refine ⟨⟨cfg, hcfg, h, by simp [cliqueWith, length_cliqueOf]⟩,
    ⟨cfg', hcfg', h', mov ⟨.none, 0, false⟩ (rf 35), ?_, by simp [useDef_mov_read]⟩⟩
  rw [cliqueWith, cliqueOf, List.getElem?_append_right (by simp)]
  simp [List.getElem_append_left]

end V3DLib
