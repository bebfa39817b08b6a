import V3DLib.Target.Instr
import V3DLib.Target.Subst
import V3DLib.Target.LivenessFixpoint

/-!
# v3d: register allocation and the per-QPU initialisation

The two passes of `v3d/SourceTranslate.cpp` that run on target code. `regAlloc` is the
single-file version of the vc4 allocator: one regfile, modelled as regfile A, of 64 entries
(the specification, §4.4). `add_init` inserts, right after the `INIT_BEGIN` marker, the code
that computes the QPU number and offsets every uniform pointer by the QPU's slice.

## Main results

* `V3d.allocRegs_inv`, `V3d.allocRegs_error`: the allocation law, as for vc4.
* `V3d.allocRegs_error_clique`: on a clique of 65 variables the allocator fails at the last.
* `V3d.rewrite_eq_substVars`: the Step-4 rewrite is the simultaneous substitution.
* `V3d.addInit_spec`: what `add_init` returns, for every sequence with its marker at index 2 or
  later (`InitBlock`).
-/

namespace V3DLib

namespace V3d

/-! ### Register allocation -/

/-- The diagnostic of a failed allocation for variable `i`. It prints `(*instrs)[i]`, the
    instruction whose index is the variable's id; reading past the end of the sequence has no
    defined result in the source, and the model stops there. -/
def allocFailure (instrs : List Instr) (i : Nat) : String :=
  match instrs[i]? with
  | some instr =>
    "v3d regAlloc(): register allocation failed for target instruction " ++ toString i ++ ": " ++
      instr.mnemonic
  | none => "v3d regAlloc(): instruction index out of range"

/-- One iteration of Step 3 for variable `i`: the lowest free register of the single file. -/
def allocStep (liveWith : LiveSets) (instrs : List Instr) (alloc : Int → Reg) (i : Nat) :
    Except String (Int → Reg) :=
  let possible := liveWith.possibleRegisters 64 i alloc .regA
  let alloc := Function.update alloc i { alloc i with tag := .regA }
  let regId := chooseRegister possible
  if regId < 0 then throw (allocFailure instrs i)
  else pure (Function.update alloc i { alloc i with regId := regId })

/-- Step 3 of `v3d::SourceTranslate::regAlloc` over the first `numVars` variables. -/
def allocRegs (liveWith : LiveSets) (instrs : List Instr) (numVars : Nat) :
    Except String (Int → Reg) :=
  (List.range numVars).foldlM (allocStep liveWith instrs) fun _ => ⟨.none, 0, false⟩

/-- Step 4 for one instruction: every variable renamed to `TMP_A` and its allocated id, then
    `TMP_A` turned into `REG_A`. -/
def rewrite (alloc : Int → Reg) (instr : Instr) : Instr :=
  let useDefSet := useDef instr
  let instr := useDefSet.defs.foldl (fun instr r =>
    renameDest instr .regA r .tmpA (alloc r).regId) instr
  let instr := useDefSet.use.foldl (fun instr r =>
    renameUses instr .regA r .tmpA (alloc r).regId) instr
  substRegTag instr .tmpA .regA

/-- `v3d::SourceTranslate::regAlloc(cfg, instrs)` with `numVars = getFreshVarCount()`. -/
def regAlloc (numVars : Nat) (cfg : CFG) (instrs : List Instr) : Except String (List Instr) := do
  let live := Liveness.compute cfg instrs
  if instrs.length ≠ live.length then throw "instrs->size() == live.size()"
  let liveWith := LiveSets.init instrs live
  let alloc ← allocRegs liveWith instrs numVars
  pure (instrs.map (rewrite alloc))

/-- The map that gives each variable `x < k` the register `REG_A x`, and every other one
    `NONE`. -/
def cliqueAlloc (k : Nat) (x : Int) : Reg :=
  if 0 ≤ x ∧ x < k then ⟨.regA, x, false⟩ else ⟨.none, 0, false⟩

section Step3

variable {ls : LiveSets} {instrs : List Instr}

/-- A successful iteration gives variable `i` the register `chooseRegister` found. -/
theorem allocStep_ok {alloc alloc' : Int → Reg} {i : Nat}
    (h : allocStep ls instrs alloc i = .ok alloc') :
    0 ≤ chooseRegister (ls.possibleRegisters 64 i alloc .regA) ∧
      alloc' = assignChosen ls 64 i alloc .regA := by
  simp only [allocStep] at h
  split_ifs at h with hc
  obtain rfl := Except.ok.inj h
  exact ⟨by omega, by simp [assignChosen]⟩

/-- A failed iteration found no register, and reports `allocFailure`. -/
theorem allocStep_error {alloc : Int → Reg} {i : Nat} {e : String}
    (h : allocStep ls instrs alloc i = .error e) :
    chooseRegister (ls.possibleRegisters 64 i alloc .regA) < 0 ∧ e = allocFailure instrs i := by
  simp only [allocStep] at h
  split_ifs at h with hc
  · exact ⟨hc, (Except.error.inj h).symm⟩
  · cases h

/-- Run lemma: after `k` successful iterations the map is a partial colouring of the first `k`
    variables with registers of regfile A below 64. -/
theorem allocRegs_inv (hsym : ls.Symm) (k : Nat) (alloc : Int → Reg)
    (h : allocRegs ls instrs k = .ok alloc) : AllocInv ls 64 [.regA] k alloc :=
  foldlM_range_ok (P := fun k alloc => AllocInv ls 64 [.regA] k alloc) (AllocInv.empty 0)
    (fun _ _ _ hinv hstep => by
      obtain ⟨hc, rfl⟩ := allocStep_ok hstep
      exact hinv.assign hsym (List.mem_singleton_self _) hc) k alloc h

/-- Allocation fails only at a variable `i` whose earlier neighbours hold all 64 registers, and
    then reports `allocFailure instrs i`. -/
theorem allocRegs_error (hsym : ls.Symm) {numVars : Nat} {e : String}
    (h : allocRegs ls instrs numVars = .error e) :
    ∃ i < numVars, e = allocFailure instrs i ∧ ∃ alloc, allocRegs ls instrs i = .ok alloc ∧
      ∀ j : Nat, j < 64 → ∃ y : Nat, y < i ∧ (y : Int) ∈ ls.sets i ∧
        (alloc y).tag = .regA ∧ (alloc y).regId = j := by
  obtain ⟨i, hi, alloc, hpre, hstep⟩ := foldlM_range_error numVars h
  obtain ⟨hc, rfl⟩ := allocStep_error hstep
  exact ⟨i, hi, rfl, alloc, hpre, (allocRegs_inv hsym i alloc hpre).held (by decide) hc⟩

/-- On a clique of 65 variables, `v` the last of them, where no other variable has a
    neighbour, the allocator fails, and at `v`: 64 registers cannot colour the clique, and
    before `v` no variable has 64 earlier neighbours to hold them all. -/
theorem allocRegs_error_clique (hsym : ls.Symm) {v : Nat} {S : Finset Nat} (hS : S.card = 64)
    (hlt : ∀ y ∈ S, y < v)
    (hclique : ∀ x ∈ insert v S, ∀ y ∈ insert v S, x ≠ y → (y : Int) ∈ ls.sets x)
    (hnb : ∀ x y : Nat, (y : Int) ∈ ls.sets x → x ∈ insert v S) :
    allocRegs ls instrs (v + 1) = .error (allocFailure instrs v) := by
  have hvS : v ∉ S := fun h => Nat.lt_irrefl v (hlt v h)
  have hle : ∀ x ∈ insert v S, x < v + 1 := fun x hx => by
    rcases Finset.mem_insert.mp hx with rfl | hx
    · omega
    · exact Nat.lt_succ_of_lt (hlt x hx)
  cases h : allocRegs ls instrs (v + 1) with
  | ok alloc =>
    -- a colouring would put the 65 variables of the clique in 64 registers
    have hinv := allocRegs_inv hsym (v + 1) alloc h
    have hreg : ∀ x ∈ insert v S, (alloc x).tag = .regA ∧ 0 ≤ (alloc x).regId ∧
        (alloc x).regId < 64 := fun x hx => by
      simpa using hinv.allocated x (hle x hx)
    have hcard : (insert v S).card ≤ (Finset.range 64).card := by
      refine Finset.card_le_card_of_injOn (fun x => (alloc x).regId.toNat)
        (fun x hx => Finset.mem_range.mpr (by have := hreg x hx; dsimp only; omega))
        fun x hx y hy hxy => ?_
      by_contra hne
      refine hinv.distinct x y (hle x hx) (hle y hy) hne (hclique x hx y hy hne) ⟨?_, ?_⟩
      · rw [(hreg x hx).1, (hreg y hy).1]
      · have := hreg x hx; have := hreg y hy; simp only at hxy; omega
    rw [Finset.card_insert_of_not_mem hvS, hS, Finset.card_range] at hcard
    omega
  | error e =>
    obtain ⟨i, hi, rfl, alloc, -, hheld⟩ := allocRegs_error hsym h
    obtain rfl | hiv : i = v ∨ i < v := by omega
    · rfl
    -- before `v`, a variable has at most 63 earlier neighbours
    obtain ⟨y₀, -, hy₀, -⟩ := hheld 0 (by decide)
    have hiS : i ∈ S := (Finset.mem_insert.mp (hnb i y₀ hy₀)).resolve_left (by omega)
    have hsub : Finset.range 64 ⊆ (S.erase i).image fun y : Nat => (alloc y).regId.toNat := by
      intro j hj
      obtain ⟨y, hyi, hy, -, hid⟩ := hheld j (Finset.mem_range.mp hj)
      have hyS : y ∈ S := (Finset.mem_insert.mp (hnb y i (hsym _ _ hy))).resolve_left (by omega)
      exact Finset.mem_image.mpr ⟨y, Finset.mem_erase.mpr ⟨by omega, hyS⟩, by omega⟩
    have := (Finset.card_le_card hsub).trans Finset.card_image_le
    rw [Finset.card_range, Finset.card_erase_of_mem hiS, hS] at this
    omega

/-- On a variable that lives with every earlier one, a step gives it the next id. -/
theorem allocStep_clique {n : Nat} (hn : n < 64) (hclique : ∀ j < n, (j : Int) ∈ ls.sets n) :
    allocStep ls instrs (cliqueAlloc n) n = .ok (cliqueAlloc (n + 1)) := by
  have hheld : ∀ m : Int, ∀ j : Nat, ((cliqueAlloc n m).tag = .regA ∧
      (cliqueAlloc n m).regId.toNat = j) ↔ (0 ≤ m ∧ m < n ∧ m = j) := by
    intro m j
    unfold cliqueAlloc
    split_ifs with h <;> simp only [reduceCtorEq, false_and, true_and, false_iff] <;> omega
  have hc : chooseRegister (ls.possibleRegisters 64 n (cliqueAlloc n) .regA) = n := by
    refine chooseRegister_eq ?_ fun i hi => ?_ <;>
      rw [LiveSets.possibleRegisters_getElem?, if_pos (by omega)] <;>
      simp only [hheld, ne_eq, Option.some.injEq, Bool.not_eq_true', decide_eq_false_iff_not]
    · omega
    · exact fun h => h ⟨i, hclique i hi, by omega⟩
  simp only [allocStep, hc]
  rw [if_neg (by omega), except_pure]
  congr 1
  funext x
  by_cases hx : x = n
  · subst hx
    simp only [Function.update_same, cliqueAlloc]
    rw [if_neg (by omega), if_pos (by omega)]
  · simp only [Function.update_noteq hx, cliqueAlloc]
    split_ifs <;> first | rfl | omega

/-- Run lemma: on live-with sets in which each of the first `n ≤ 64` variables lives with every
    earlier one, the v3d allocator hands out the ids in order. -/
theorem allocRegs_clique {n : Nat} (hn : n ≤ 64)
    (hclique : ∀ i < n, ∀ j < i, (j : Int) ∈ ls.sets i) :
    allocRegs ls instrs n = .ok (cliqueAlloc n) := by
  induction n with
  | zero => exact congrArg Except.ok (funext fun x => (if_neg (by omega)).symm)
  | succ n ih =>
    change (List.range (n + 1)).foldlM _ _ = _
    rw [foldlM_range_succ]
    change allocRegs ls instrs n >>= _ = _
    rw [ih (by omega) fun i hi => hclique i (by omega), except_ok_bind]
    exact allocStep_clique (by omega) (hclique n (by omega))

end Step3

/-- Step 4 on an instruction without temporary tags, under a map that gives its variables
    registers of the single file: exactly the simultaneous substitution. -/
theorem rewrite_eq_substVars (alloc : Int → Reg) (instr : Instr) (hnt : instr.NoTmp)
    (hab : ∀ v ∈ instr.vars, (alloc v).tag = .regA) :
    rewrite alloc instr = instr.substVars alloc := by
  have hslot : ∀ (rs : List Int) (reg : Reg), reg ∈ instr.regs →
      (reg.tag = .regA → reg.regId ∈ rs) →
      Reg.substTag .tmpA .regA
        (rs.foldl (fun d v => d.rename .regA v .tmpA (alloc v).regId) reg) =
        reg.substVar alloc := by
    intro rs reg hmem hrs
    rw [Reg.foldl_rename (fun _ => .tmpA) _ (fun _ => by simp)]
    by_cases hA : reg.tag = .regA
    · have hv := hab _ (mem_varIds.mpr ⟨reg, hmem, hA, rfl⟩)
      simp [Reg.substTag, Reg.substVar, hA, hrs hA, hv]
    · simp [Reg.substTag, Reg.substVar, hA, (hnt reg hmem).1]
  simp only [rewrite, renameDest, renameUses, substRegTag]
  rw [foldl_renameDest (fun r => Reg.rename .regA r .tmpA (alloc r).regId),
    foldl_renameUses (fun r => Reg.rename .regA r .tmpA (alloc r).regId)]
  simp only [Instr.mapRegs_mapRegs, Instr.substVars]
  apply Instr.mapRegs_congr
  · exact fun r hr => hslot _ r (List.mem_append_left _ hr) (mem_defs_of_dstRegs hr)
  · exact fun r hr => hslot _ r (List.mem_append_right _ hr) (mem_use_of_srcRegs hr)

theorem regAlloc_eq (numVars : Nat) (cfg : CFG) (instrs : List Instr) :
    regAlloc numVars cfg instrs =
      (fun alloc => instrs.map (rewrite alloc)) <$>
        allocRegs (LiveSets.init instrs (Liveness.compute cfg instrs)) instrs numVars := by
  simp only [regAlloc, Liveness.length_compute, ne_eq, not_true_eq_false, ↓reduceIte]
  cases allocRegs (LiveSets.init instrs (Liveness.compute cfg instrs)) instrs numVars <;> rfl

/-! ### The per-QPU initialisation -/

/-- `get_init_begin_marker(code)`: the index of the first `INIT_BEGIN`. The second `assertq`
    takes a third argument; `assertq` is not part of the sources, and the model stops there
    as for the first. -/
def getInitBeginMarker (code : List Instr) : Except String Nat := do
  let index := code.findIdx (· == .initBegin)
  if ¬index < code.length then throw "Expecting INIT_BEGIN marker."
  if ¬index ≥ 2 then throw "Expecting at least two uniform loads."
  pure index

/-- The test of `add_uniform_pointer_offset`: `srcA` is a register flagged as a uniform
    pointer. -/
def readsUniformPtr : Instr → Bool
  | .alu _ _ _ (.reg a) _ _ => a.isUniformPtr
  | _ => false

/-- `add(rf(index), rf(index), ACC0)`, with the index cast to `uint8_t`. -/
def pointerOffset (index : Nat) : Instr :=
  aluRR .aAdd (rf (index % 256)) (rf (index % 256)) acc0

/-- `add_uniform_pointer_offset(code)` from position `index` on: over the leading uniform loads,
    one `pointerOffset` per load of a uniform pointer. -/
def addUniformPointerOffset (index : Nat) : List Instr → Except String (List Instr)
  | [] => pure []
  | instr :: code => do
    if !(← instr.isUniformLoad) then return []
    let ret := if readsUniformPtr instr then [pointerOffset index] else []
    return ret ++ (← addUniformPointerOffset (index + 1) code)

/-- The fixed part of the block `add_init` inserts: `RSV_QPU_ID` from `QPU_ID` when 8 QPUs
    run, then the offset `4 * (ELEM_ID + 16 * RSV_QPU_ID)` in `ACC0`. -/
def initCode (endifLabel : Label) : List Instr :=
  [movImm (rf rsvQpuId) 0, (aluRI .aSub acc0 (rf rsvNumQpus) 8).pushz,
    (branch endifLabel).allzc, mov acc0 qpuId, aluRI .aShr acc0 acc0 2,
    aluRI .aBand (rf rsvQpuId) acc0 15, label endifLabel, aluRI .aShl acc1 (rf rsvQpuId) 4,
    mov acc0 elemId, aluRR .aAdd acc1 acc1 acc0, aluRI .aShl acc0 acc1 2]

/-- `add_init(code)`, with `endifLabel` the label `freshLabel()` returns: the block goes in
    right after the marker. -/
def addInit (endifLabel : Label) (code : List Instr) : Except String (List Instr) := do
  let insertIndex ← getInitBeginMarker code
  let ret := initCode endifLabel ++ (← addUniformPointerOffset 0 code)
  pure (code.take (insertIndex + 1) ++ ret ++ code.drop (insertIndex + 1))

/-- The leading run of uniform loads has length `n`: the first `n` instructions are uniform
    loads and the next one, if any, is not. -/
structure LeadingLoads (code : List Instr) (n : Nat) : Prop where
  le_length : n ≤ code.length
  loads : ∀ instr ∈ code.take n, instr.isUniformLoad = .ok true
  stop : ∀ instr ∈ code[n]?, instr.isUniformLoad = .ok false

/-- One `add(rf(k), rf(k), ACC0)` per pointer load `k` among the first `n` instructions, in
    order. -/
def pointerAdds (code : List Instr) (n : Nat) : List Instr :=
  (((code.take n).enum).filter (readsUniformPtr ·.2)).map (pointerOffset ·.1)

/-- The loop of `add_uniform_pointer_offset` either fails in the test of an instruction of the
    leading run of uniform loads, or walks that run and returns one add per pointer load of it,
    numbered from `index`. -/
theorem addUniformPointerOffset_spec (code : List Instr) (index : Nat) :
    (∃ k e, (∀ instr ∈ code.take k, instr.isUniformLoad = .ok true) ∧
      code[k]?.map Instr.isUniformLoad = some (.error e) ∧
      addUniformPointerOffset index code = .error e) ∨
    ∃ n, LeadingLoads code n ∧ addUniformPointerOffset index code =
      .ok ((((code.take n).enumFrom index).filter (readsUniformPtr ·.2)).map
        (pointerOffset ·.1)) := by
  induction code generalizing index with
  | nil => exact .inr ⟨0, ⟨le_rfl, by simp, by simp⟩, rfl⟩
  | cons instr code ih =>
    rcases hul : instr.isUniformLoad with e | _ | _
    · exact .inl ⟨0, e, by simp, by simp [hul], by simp [addUniformPointerOffset, hul]⟩
    · exact .inr ⟨0, ⟨by simp, by simp, by simp [hul]⟩, by rw [addUniformPointerOffset, hul]; rfl⟩
    · rcases ih (index + 1) with ⟨k, e, hpre, hk, herr⟩ | ⟨n, hn, hok⟩
      · refine .inl ⟨k + 1, e, by simpa [hul] using hpre, by simpa using hk, ?_⟩
        simp [addUniformPointerOffset, hul, herr]
      · refine .inr ⟨n + 1, ⟨by simpa using hn.le_length, by simpa [hul] using hn.loads,
          by simpa using hn.stop⟩, ?_⟩
        simp only [addUniformPointerOffset, hul, hok, except_ok_bind, List.take_succ_cons,
          List.enumFrom_cons, List.filter_cons]
        cases readsUniformPtr instr <;> rfl

/-- The marker is the first `INIT_BEGIN`, when that is at index 2 or later. -/
theorem getInitBeginMarker_eq {code : List Instr} {m : Nat} (hm : code[m]? = some .initBegin)
    (hfirst : ∀ k < m, code[k]? ≠ some .initBegin) (h2 : 2 ≤ m) :
    getInitBeginMarker code = .ok m := by
  obtain ⟨hlt, hget⟩ := List.getElem?_eq_some_iff.mp hm
  have hidx : code.findIdx (· == .initBegin) = m := by
    refine (List.findIdx_eq hlt).mpr ⟨by simp [hget], fun j hj => ?_⟩
    have := hfirst j hj
    rw [List.getElem?_eq_getElem (by omega)] at this
    simpa using this
  simp [getInitBeginMarker, hidx, hlt, h2, except_pure]

/-- The label a `BRL` branches to. -/
def branchLabel? : Instr → Option Label
  | .brl _ l => some l
  | _ => none

/-- The block `add_init` inserts, for a leading run of `n` uniform loads: the fixed code, then
    one add of `ACC0` to `rf(k)` per pointer load `k`, in order. It writes only
    `rf(RSV_QPU_ID)`, the two accumulators and those `rf(k)`, and its label is branched to and
    defined once. -/
structure InitBlock (endifLabel : Label) (code : List Instr) (n : Nat) (B : List Instr) :
    Prop where
  eq : B = initCode endifLabel ++ pointerAdds code n
  writes : ∀ instr ∈ B, ∀ r ∈ instr.dstRegs, r = rf rsvQpuId ∨ r = acc0 ∨ r = acc1 ∨
    ∃ k < n, code[k]?.any readsUniformPtr ∧ r = rf (k % 256)
  label_once : B.count (label endifLabel) = 1
  branch_once : B.countP (branchLabel? · == some endifLabel) = 1

/-- The fixed code writes only `rf(RSV_QPU_ID)` and the two accumulators, and holds its label
    once and one branch to it. -/
theorem initCode_spec (endifLabel : Label) :
    (∀ instr ∈ initCode endifLabel, ∀ r ∈ instr.dstRegs,
      r = rf rsvQpuId ∨ r = acc0 ∨ r = acc1) ∧
    (initCode endifLabel).count (label endifLabel) = 1 ∧
    (initCode endifLabel).countP (branchLabel? · == some endifLabel) = 1 := by
  -- the registers written do not depend on the label: decide them for label 0
  have hwrites : ∀ rs ∈ (initCode 0).map Instr.dstRegs, ∀ r ∈ rs,
      r = rf rsvQpuId ∨ r = acc0 ∨ r = acc1 := by
    decide
  rw [show (initCode 0).map Instr.dstRegs = (initCode endifLabel).map Instr.dstRegs from rfl,
    List.forall_mem_map] at hwrites
  refine ⟨hwrites, ?_, ?_⟩ <;>
    simp only [initCode, List.count_cons, List.count_nil, List.countP_cons, List.countP_nil,
      label, movImm, aluRI, aluRR, mov, Instr.pushz, branch, Instr.allzc, branchLabel?,
      beq_iff_eq, reduceCtorEq, if_false, if_true]

/-- The block that `add_init` builds has the shape `InitBlock` describes. -/
theorem initBlock (endifLabel : Label) (code : List Instr) (n : Nat) :
    InitBlock endifLabel code n (initCode endifLabel ++ pointerAdds code n) := by
  obtain ⟨hwrites, hlabel, hbranch⟩ := initCode_spec endifLabel
  have hadds : ∀ instr ∈ pointerAdds code n, ∃ k < n, code[k]?.any readsUniformPtr ∧
      instr = pointerOffset k := by
    simp only [pointerAdds, List.mem_map, List.mem_filter]
    rintro _ ⟨⟨k, instr⟩, ⟨hmem, hptr⟩, rfl⟩
    obtain ⟨hk, hinstr⟩ := List.mem_enum hmem
    have hkn : k < n := by simp only [List.length_take] at hk; omega
    refine ⟨k, hkn, ?_, rfl⟩
    rwa [← List.getElem?_take_of_lt hkn, List.getElem?_eq_getElem hk, ← hinstr]
  -- the adds are ALU instructions: no label, no branch
  have hlab : ∀ instr ∈ pointerAdds code n,
      branchLabel? instr = none ∧ instr ≠ label endifLabel := by
    intro instr h
    obtain ⟨k, -, -, rfl⟩ := hadds instr h
    exact ⟨rfl, nofun⟩
  refine ⟨rfl, fun instr h r hr => ?_, ?_, ?_⟩
  · rcases List.mem_append.mp h with h | h
    · exact (hwrites instr h r hr).imp_right (.imp_right .inl)
    · obtain ⟨k, hk, hptr, rfl⟩ := hadds instr h
      obtain rfl : r = rf (k % 256) := by simpa [pointerOffset, aluRR, Instr.dstRegs] using hr
      exact .inr (.inr (.inr ⟨k, hk, hptr, rfl⟩))
  · rw [List.count_append, hlabel, List.count_eq_zero.mpr fun h => (hlab _ h).2 rfl]
  · rw [List.countP_append, hbranch,
      List.countP_eq_zero.mpr fun i h => by simp [(hlab i h).1]]

/-- An instruction at an index below `k` is in the first `k`. -/
theorem mem_take_of_getElem? {code : List Instr} {k m : Nat} {x : Instr}
    (hm : code[m]? = some x) (hmk : m < k) : x ∈ code.take k :=
  List.getElem?_mem ((List.getElem?_take_of_lt hmk).trans hm)

/-- `add_init` on any sequence whose first `INIT_BEGIN` is at index `m ≥ 2`: it fails in the
    uniform-load test of an instruction before the marker, or it keeps the sequence and inserts,
    right after the marker, the block of `InitBlock` for the leading run of uniform loads. -/
theorem addInit_spec (endifLabel : Label) (code : List Instr) (m : Nat)
    (hm : code[m]? = some .initBegin) (hfirst : ∀ k < m, code[k]? ≠ some .initBegin)
    (h2 : 2 ≤ m) :
    (∃ k e, k < m ∧ (∀ instr ∈ code.take k, instr.isUniformLoad = .ok true) ∧
      code[k]?.map Instr.isUniformLoad = some (.error e) ∧ addInit endifLabel code = .error e) ∨
    ∃ n B, n ≤ m ∧ LeadingLoads code n ∧
      addInit endifLabel code = .ok (code.take (m + 1) ++ B ++ code.drop (m + 1)) ∧
      InitBlock endifLabel code n B := by
  have hmark := getInitBeginMarker_eq hm hfirst h2
  -- the marker is not a uniform load, so the leading run stops at it
  have hnot : ∀ k, (∀ instr ∈ code.take k, instr.isUniformLoad = .ok true) → k ≤ m :=
    fun k hk => Nat.le_of_not_lt fun hmk => by cases hk _ (mem_take_of_getElem? hm hmk)
  rcases addUniformPointerOffset_spec code 0 with ⟨k, e, hpre, hk, herr⟩ | ⟨n, hn, hok⟩
  · refine .inl ⟨k, e, Nat.lt_of_le_of_ne (hnot k hpre) ?_, hpre, hk, ?_⟩
    · rintro rfl
      simp only [hm, Option.map_some', Option.some.injEq] at hk
      cases hk
    · simp [addInit, hmark, herr]
  · exact .inr ⟨n, _, hnot n hn.loads, hn, by simp [addInit, hmark, hok]; rfl,
      initBlock endifLabel code n⟩

/-- Two reserved loads, a pointer parameter loaded into `rf(5)`, and the marker. -/
def pointerLoadToRf5 : List Instr :=
  [mov (rf 0) (.ofSpecial .uniform), mov (rf 1) (.ofSpecial .uniform),
    mov (rf 5) { Reg.ofSpecial .uniform with isUniformPtr := true }, .initBegin]

/-- Two reserved loads and one pointer load before the marker. -/
theorem addInit_spec_pointer_load :
    pointerLoadToRf5[3]? = some .initBegin ∧ (∀ k < 3, pointerLoadToRf5[k]? ≠ some .initBegin) ∧
      2 ≤ 3 ∧
    ((∃ k e, k < 3 ∧ (∀ instr ∈ pointerLoadToRf5.take k, instr.isUniformLoad = .ok true) ∧
      pointerLoadToRf5[k]?.map Instr.isUniformLoad = some (.error e) ∧
      addInit 9 pointerLoadToRf5 = .error e) ∨
    ∃ n B, n ≤ 3 ∧ LeadingLoads pointerLoadToRf5 n ∧
      addInit 9 pointerLoadToRf5 =
        .ok (pointerLoadToRf5.take (3 + 1) ++ B ++ pointerLoadToRf5.drop (3 + 1)) ∧
      InitBlock 9 pointerLoadToRf5 n B) :=
  ⟨rfl, by decide, by decide, addInit_spec 9 pointerLoadToRf5 3 rfl (by decide) (by decide)⟩

/-- The block offsets `rf(2)` for the pointer that load 2 puts in `rf(5)`, and writes no
    `rf(5)`. -/
theorem addInit_offsets_load_index :
    ∃ out, addInit 9 pointerLoadToRf5 = .ok out ∧
      pointerLoadToRf5[2]?.map Instr.dstRegs = some [rf 5] ∧
      aluRR .aAdd (rf 2) (rf 2) acc0 ∈ out.drop 4 ∧
      ∀ instr ∈ out.drop 4, ∀ r ∈ instr.dstRegs, r ≠ rf 5 :=
  ⟨_, rfl, rfl, by decide, by decide⟩

end V3d

end V3DLib
