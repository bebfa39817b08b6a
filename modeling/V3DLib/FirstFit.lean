import V3DLib.Allocation

/-!
# How many registers the allocators use

Both allocators give the variables their registers in id order, each the lowest register of the
chosen file that no earlier neighbour holds (`chooseRegister`: first fit). A variable with `d`
earlier neighbours therefore gets an id of at most `d`, and an allocation completes as soon as
no variable has 64 earlier neighbours: the 64 registers of the v3d regfile, or 32 of each of
regfile A and B for vc4. Below 32 earlier neighbours each, every register the v3d allocator
hands out is one the v3d encoder accepts; `regAlloc_v3d_id_beyond_encoder` crosses that bound
with 33 variables live at once.

## Main definitions

* `LiveSets.earlierDegree`: the number of earlier variables that live with a variable.

## Main results

* `AllocInv.chooseRegister_le`: the register chosen for a variable is at most its earlier
  degree, and one is found when that degree is below the size of the file.
* `earlierDegree_ge_of_held`: when every register is held by an earlier neighbour, there are as
  many earlier neighbours as registers.
* `regAlloc_id_le_degree`: in a completed allocation each variable's id is at most its earlier
  degree.
* `regAlloc_completes_of_degree`: both allocators complete when no variable has 64 earlier
  neighbours.
* `V3d.regAlloc_within_encoder`: below 32 earlier neighbours each, the v3d encoder reads every
  register the v3d allocator gives.
-/

namespace V3DLib

/-- The number of variables before `i` that live with `i`: the most registers the allocation
    loop can find taken when it reaches `i`. -/
def LiveSets.earlierDegree (ls : LiveSets) (i : Nat) : Nat :=
  ((Finset.range i).filter fun y : Nat => (y : Int) ∈ ls.sets i).card

theorem LiveSets.earlierDegree_le (ls : LiveSets) (i : Nat) : ls.earlierDegree i ≤ i :=
  (Finset.card_filter_le _ _).trans (Finset.card_range i).le

/-- `chooseRegister` picks a register no higher than any possible one. -/
theorem chooseRegister_le_of_getElem? {p : List Bool} {j : Nat} (hj : p[j]? = some true) :
    ∃ k : Nat, chooseRegister p = k ∧ k ≤ j := by
  obtain ⟨hlt, hget⟩ := List.getElem?_eq_some_iff.mp hj
  have hidx : p.indexOf true ≤ j := by
    by_contra hle
    have := List.not_of_lt_findIdx (Nat.lt_of_not_le hle)
    simp [hget] at this
  exact ⟨p.indexOf true, by simp [chooseRegister, show p.indexOf true < p.length by omega], hidx⟩

section Bound

variable {ls : LiveSets} {numRegs : Nat} {files : List RegTag} {i : Nat} {alloc : Int → Reg}
  {file : RegTag}

/-- Step lemma of both loops: the earlier neighbours of `i` hold at most as many ids as there
    are of them, so a register no higher than that number is free, and `chooseRegister` takes
    it or a lower one. -/
theorem AllocInv.chooseRegister_le (hinv : AllocInv ls numRegs files i alloc)
    (hnone : file ≠ .none) (hdeg : ls.earlierDegree i < numRegs) :
    ∃ j : Nat, chooseRegister (ls.possibleRegisters numRegs i alloc file) = j ∧
      j ≤ ls.earlierDegree i := by
  obtain ⟨j, hj, hfree⟩ : ∃ j ∈ Finset.range (ls.earlierDegree i + 1), j ∉
      ((Finset.range i).filter fun y : Nat => (y : Int) ∈ ls.sets i).image
        fun y : Nat => (alloc y).regId.toNat := by
    by_contra hall
    push_neg at hall
    have := (Finset.card_le_card fun j hj => hall j hj).trans Finset.card_image_le
    rw [Finset.card_range] at this
    exact absurd this (by unfold LiveSets.earlierDegree; omega)
  have hj := Finset.mem_range.mp hj
  -- no neighbour holds `j`, so `j` is possible
  have hpos : (ls.possibleRegisters numRegs i alloc file)[j]? = some true := by
    rw [LiveSets.possibleRegisters_getElem?, if_pos (by omega)]
    simp only [Option.some.injEq, Bool.not_eq_true', decide_eq_false_iff_not]
    rintro ⟨n, hn, ht, hid⟩
    obtain ⟨h0, hlt⟩ : 0 ≤ n ∧ n < i := by
      by_contra h
      exact hnone (ht ▸ hinv.unallocated n h)
    obtain ⟨y, rfl⟩ := Int.eq_ofNat_of_zero_le h0
    exact hfree (Finset.mem_image.mpr
      ⟨y, Finset.mem_filter.mpr ⟨Finset.mem_range.mpr (by omega), hn⟩, hid⟩)
  obtain ⟨k, hk, hkj⟩ := chooseRegister_le_of_getElem? hpos
  exact ⟨k, hk, by omega⟩

/-- Variable `i` given a register `chooseRegister` found: its id is at most its earlier
    degree, and the earlier variables keep theirs. -/
theorem AllocInv.assign_id_le (hinv : AllocInv ls numRegs files i alloc) (hnone : file ≠ .none)
    (hle : ∀ x : Nat, x < i → (alloc x).regId ≤ ls.earlierDegree x)
    (hc : 0 ≤ chooseRegister (ls.possibleRegisters numRegs i alloc file)) :
    ∀ x : Nat, x < i + 1 → (assignChosen ls numRegs i alloc file x).regId ≤ ls.earlierDegree x := by
  intro x hx
  rcases Nat.lt_succ_iff_lt_or_eq.mp hx with hx | rfl
  · rw [assignChosen, Function.update_noteq (by omega)]
    exact hle x hx
  · simp only [assignChosen, Function.update_same]
    by_cases hdeg : ls.earlierDegree x < numRegs
    · obtain ⟨j, hj, hle⟩ := hinv.chooseRegister_le hnone hdeg
      omega
    · obtain ⟨j, hj, hlt, -⟩ := LiveSets.choose_possible_nonneg hc
      omega

/-- If every register of `files` is held by an earlier neighbour of `i`, then `i` has at least
    as many earlier neighbours as there are registers. -/
theorem earlierDegree_ge_of_held (hfiles : files.Nodup)
    (hheld : ∀ file ∈ files, ∀ j : Nat, j < numRegs → ∃ y : Nat, y < i ∧
      (y : Int) ∈ ls.sets i ∧ (alloc y).tag = file ∧ (alloc y).regId = j) :
    files.length * numRegs ≤ ls.earlierDegree i := by
  have hsub : files.toFinset ×ˢ Finset.range numRegs ⊆
      ((Finset.range i).filter fun y : Nat => (y : Int) ∈ ls.sets i).image
        fun y : Nat => ((alloc y).tag, (alloc y).regId.toNat) := by
    rintro ⟨file, j⟩ hfj
    obtain ⟨hf, hj⟩ := Finset.mem_product.mp hfj
    obtain ⟨y, hy, hmem, ht, hid⟩ :=
      hheld file (List.mem_toFinset.mp hf) j (Finset.mem_range.mp hj)
    exact Finset.mem_image.mpr
      ⟨y, Finset.mem_filter.mpr ⟨Finset.mem_range.mpr hy, hmem⟩, by simp [ht, hid]⟩
  have := (Finset.card_le_card hsub).trans Finset.card_image_le
  rwa [Finset.card_product, List.toFinset_card_of_nodup hfiles, Finset.card_range] at this

end Bound

/-! ### Both allocators -/

namespace V3d

variable {ls : LiveSets} {instrs : List Instr}

/-- Run lemma of the v3d loop: a completed allocation of the first `k` variables gives each an
    id at most its earlier degree. -/
theorem allocRegs_id_le (hsym : ls.Symm) (k : Nat) (alloc : Int → Reg)
    (h : allocRegs ls instrs k = .ok alloc) :
    ∀ x : Nat, x < k → (alloc x).regId ≤ ls.earlierDegree x :=
  (foldlM_range_ok (P := fun k alloc => AllocInv ls 64 [.regA] k alloc ∧
      ∀ x : Nat, x < k → (alloc x).regId ≤ ls.earlierDegree x)
    ⟨AllocInv.empty 0, fun _ h => absurd h (Nat.not_lt_zero _)⟩
    (fun _ _ _ ⟨hinv, hle⟩ hstep => by
      obtain ⟨hc, rfl⟩ := allocStep_ok hstep
      exact ⟨hinv.assign hsym (List.mem_singleton_self _) hc,
        hinv.assign_id_le (by decide) hle hc⟩) k alloc h).2

/-- The v3d loop completes when no variable has 64 earlier neighbours. -/
theorem allocRegs_ok_of_degree (hsym : ls.Symm) {numVars : Nat}
    (hdeg : ∀ i < numVars, ls.earlierDegree i < 64) :
    ∃ alloc, allocRegs ls instrs numVars = .ok alloc := by
  cases h : allocRegs ls instrs numVars with
  | ok alloc => exact ⟨alloc, rfl⟩
  | error e =>
    obtain ⟨i, hi, -, alloc, -, hheld⟩ := allocRegs_error hsym h
    have := @earlierDegree_ge_of_held ls 64 [.regA] i alloc (List.nodup_singleton _)
      fun file hf => (List.mem_singleton.mp hf) ▸ hheld
    have := hdeg i hi
    simp only [List.length_singleton, Nat.one_mul] at *
    omega

end V3d

namespace Vc4

variable {ls : LiveSets} {prefA prefB : Int → Int}

/-- Run lemma of the vc4 loop: a completed allocation of the first `k` variables gives each an
    id, in the file it chose, at most its earlier degree. -/
theorem allocRegs_id_le (hsym : ls.Symm) (k : Nat) (alloc : Int → Reg)
    (h : allocRegs ls prefA prefB k = .ok alloc) :
    ∀ x : Nat, x < k → (alloc x).regId ≤ ls.earlierDegree x := by
  rw [allocRegs_eq] at h
  obtain ⟨st, hrun, rfl⟩ := except_map_eq_ok.mp h
  exact (foldlM_range_ok (P := fun k (st : AllocState) => AllocInv ls 32 [.regA, .regB] k st.alloc ∧
      ∀ x : Nat, x < k → (st.alloc x).regId ≤ ls.earlierDegree x)
    ⟨AllocInv.empty 0, fun _ h => absurd h (Nat.not_lt_zero _)⟩
    (fun _ _ _ ⟨hinv, hle⟩ hstep => by
      obtain ⟨file, hfile, hc, heq⟩ := allocStep_ok hstep
      have hnone : file ≠ .none := by rcases hfile with rfl | rfl <;> decide
      rw [heq]
      exact ⟨hinv.assign hsym (by rcases hfile with rfl | rfl <;> simp) hc,
        hinv.assign_id_le hnone hle hc⟩) k st hrun).2

/-- The vc4 loop completes when no variable has 64 earlier neighbours: it fails only when
    they hold the 32 registers of both files. -/
theorem allocRegs_ok_of_degree (hsym : ls.Symm) {numVars : Nat}
    (hdeg : ∀ i < numVars, ls.earlierDegree i < 64) :
    ∃ alloc, allocRegs ls prefA prefB numVars = .ok alloc := by
  cases h : allocRegs ls prefA prefB numVars with
  | ok alloc => exact ⟨alloc, rfl⟩
  | error e =>
    obtain ⟨i, hi, alloc, -, hheld⟩ := allocRegs_error hsym h
    have := @earlierDegree_ge_of_held ls 32 [.regA, .regB] i alloc (by decide) hheld
    have := hdeg i hi
    simp only [List.length_cons, List.length_nil] at *
    omega

end Vc4

/-! ### The allocators on a kernel -/

/-- First fit, for both allocators: in the code `vc4::regAlloc` or
    `v3d::SourceTranslate::regAlloc` returns, each of the first `numVars` variables holds an
    id no larger than the number of earlier variables that live with it. -/
theorem regAlloc_id_le_degree (numVars : Nat) (cfg : CFG) (instrs : List Instr) :
    let liveWith := LiveSets.init instrs (Liveness.compute cfg instrs)
    (∀ code, Vc4.regAlloc numVars cfg instrs = .ok code → ∃ alloc,
      code = instrs.map (Vc4.rewrite alloc) ∧
        ∀ x : Nat, x < numVars → (alloc x).regId ≤ liveWith.earlierDegree x) ∧
    (∀ code, V3d.regAlloc numVars cfg instrs = .ok code → ∃ alloc,
      code = instrs.map (V3d.rewrite alloc) ∧
        ∀ x : Nat, x < numVars → (alloc x).regId ≤ liveWith.earlierDegree x) := by
  intro liveWith
  refine ⟨fun code h => ?_, fun code h => ?_⟩
  · obtain ⟨alloc, halloc, rfl⟩ := except_map_eq_ok.mp (Vc4.regAlloc_eq numVars cfg instrs ▸ h)
    exact ⟨alloc, rfl, Vc4.allocRegs_id_le (symm_init instrs _) numVars alloc halloc⟩
  · obtain ⟨alloc, halloc, rfl⟩ := except_map_eq_ok.mp (V3d.regAlloc_eq numVars cfg instrs ▸ h)
    exact ⟨alloc, rfl, V3d.allocRegs_id_le (symm_init instrs _) numVars alloc halloc⟩

/-- Both allocators complete on a kernel in which no variable has 64 earlier variables living
    with it. -/
theorem regAlloc_completes_of_degree {numVars : Nat} {cfg : CFG} {instrs : List Instr}
    (hdeg : ∀ i < numVars,
      (LiveSets.init instrs (Liveness.compute cfg instrs)).earlierDegree i < 64) :
    (∃ code, Vc4.regAlloc numVars cfg instrs = .ok code) ∧
      ∃ code, V3d.regAlloc numVars cfg instrs = .ok code := by
  obtain ⟨a, ha⟩ := @Vc4.allocRegs_ok_of_degree _ (Vc4.regallocDetermineRegfileAB instrs).1
    (Vc4.regallocDetermineRegfileAB instrs).2 (symm_init instrs _) numVars hdeg
  obtain ⟨b, hb⟩ := @V3d.allocRegs_ok_of_degree _ instrs (symm_init instrs _) numVars hdeg
  exact ⟨⟨_, by rw [Vc4.regAlloc_eq, ha]; rfl⟩, ⟨_, by rw [V3d.regAlloc_eq, hb]; rfl⟩⟩

/-- Sixty-four variables live at once: both allocators complete. -/
theorem regAlloc_completes_of_degree_clique : ∃ cfg,
    buildCFG 0 (cliqueProgram 64) CFG.empty = some cfg ∧
      (∃ code, Vc4.regAlloc 64 cfg (cliqueProgram 64) = .ok code) ∧
      ∃ code, V3d.regAlloc 64 cfg (cliqueProgram 64) = .ok code := by
  obtain ⟨cfg, hcfg, -⟩ := cliqueOf_buildCFG (List.range 64)
  exact ⟨cfg, hcfg, regAlloc_completes_of_degree fun i hi =>
    lt_of_le_of_lt (LiveSets.earlierDegree_le _ i) hi⟩

/-- With fewer than 32 earlier neighbours for each variable, at most 32 variables in
    particular, `v3d::SourceTranslate::regAlloc` completes and `v3d::encodeSrcReg` reads every
    variable's register from its regfile address: no id reaches the 32 the encoder refuses. -/
theorem V3d.regAlloc_within_encoder {numVars : Nat} {cfg : CFG} {instrs : List Instr}
    (hdeg : ∀ i < numVars,
      (LiveSets.init instrs (Liveness.compute cfg instrs)).earlierDegree i < 32) :
    ∃ alloc, V3d.regAlloc numVars cfg instrs = .ok (instrs.map (V3d.rewrite alloc)) ∧
      ∀ x : Nat, x < numVars → (alloc x).tag = .regA ∧
        V3d.encodeSrcReg (alloc x) = .ok (some (.rf (alloc x).regId.toNat)) := by
  have hsym := symm_init instrs (Liveness.compute cfg instrs)
  obtain ⟨alloc, halloc⟩ := @V3d.allocRegs_ok_of_degree _ instrs hsym numVars
    fun i hi => (hdeg i hi).trans (by decide)
  refine ⟨alloc, by rw [V3d.regAlloc_eq, halloc]; rfl, fun x hx => ?_⟩
  obtain ⟨htag, h0, -⟩ := (V3d.allocRegs_inv hsym numVars alloc halloc).allocated x hx
  have hle := V3d.allocRegs_id_le hsym numVars alloc halloc x hx
  have hlt := hdeg x hx
  rw [List.mem_singleton] at htag
  have hid : 0 ≤ (alloc x).regId ∧ (alloc x).regId < 32 := ⟨h0, by omega⟩
  refine ⟨htag, ?_⟩
  have h256 : (alloc x).regId % 256 = (alloc x).regId := Int.emod_eq_of_lt hid.1 (by omega)
  simp [V3d.encodeSrcReg, V3d.toWaddr, htag, hid, h256, except_pure]

/-- Thirty-two variables live at once, one fewer than `regAlloc_v3d_id_beyond_encoder`: the
    v3d encoder reads every register the v3d allocator gives. -/
theorem V3d.regAlloc_within_encoder_clique : ∃ cfg,
    buildCFG 0 (cliqueProgram 32) CFG.empty = some cfg ∧ ∃ alloc,
      V3d.regAlloc 32 cfg (cliqueProgram 32) = .ok ((cliqueProgram 32).map (V3d.rewrite alloc)) ∧
      ∀ x : Nat, x < 32 → (alloc x).tag = .regA ∧
        V3d.encodeSrcReg (alloc x) = .ok (some (.rf (alloc x).regId.toNat)) := by
  obtain ⟨cfg, hcfg, -⟩ := cliqueOf_buildCFG (List.range 32)
  exact ⟨cfg, hcfg, V3d.regAlloc_within_encoder fun i hi =>
    lt_of_le_of_lt (LiveSets.earlierDegree_le _ i) hi⟩

end V3DLib
