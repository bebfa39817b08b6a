import V3DLib.Target.CFG

/-!
# Liveness and the live-with sets

What both allocators compute before colouring. `Target/Liveness.cpp` is not part of the
sources; the definitions follow the specification (§4.3, §4.4): per-instruction `use` and `def`
sets over variables (`REG_A` registers before allocation), live-in sets by backward sweeps to a
fixpoint, and the live-with sets of `LiveSets`, in which two variables are neighbours when one
is live into an instruction that defines the other.

## Main definitions

* `useDef`, `Liveness.compute`, `LiveSets.init`: the analysis.
* `Interferes`: the interference relation, in the words of the specification.
* `LiveSets.possibleRegisters`, `chooseRegister`: the two queries of the allocation loops.
* `AllocInv`: what an allocation map guarantees after its first `k` variables.

## Main results

* `LiveSets.mem_init_iff`: the live-with sets are exactly the interference relation.
* `LiveSets.choose_possible_nonneg`, `LiveSets.choose_possible_neg`: choosing in one file
  yields a register no allocated neighbour holds, or every register of the file is held by an
  allocated neighbour.
-/

namespace V3DLib

/-! ### `use` and `def` -/

/-- The register an operand reads, if any. -/
def Operand.regs : Operand → List Reg
  | .reg r => [r]
  | .imm _ => []

/-- Modelled from the spec: `useDefReg`, the registers an instruction reads and those it
    writes. A conditional assignment also reads its destination: on the lanes whose condition
    fails the old value survives. -/
def useDefReg : Instr → List Reg × List Reg
  | .li _ cond dest _ => (if cond.tag = .always then [] else [dest], [dest])
  | .alu _ cond dest srcA _ srcB =>
    ((if cond.tag = .always then [] else [dest]) ++ srcA.regs ++ srcB.regs, [dest])
  | .recv dest => ([], [dest])
  | .pri r | .prf r => ([r], [])
  | _ => ([], [])

/-- The `use` and `def` sets of an instruction, over variable ids. The source's field `def` is
    `defs` here, `def` being a keyword. -/
structure UseDef where
  use : List Int
  defs : List Int
  deriving DecidableEq, Repr

/-- The ids of the variables, the `REG_A` registers, among `regs`. -/
def varIds (regs : List Reg) : List Int :=
  regs.filterMap fun r => if r.tag = .regA then some r.regId else none

@[simp] theorem mem_varIds {regs : List Reg} {v : Int} :
    v ∈ varIds regs ↔ ∃ r ∈ regs, r.tag = .regA ∧ r.regId = v := by
  simp [varIds]

/-- Modelled from the spec: `useDef`, the variables an instruction reads and writes. -/
def useDef (instr : Instr) : UseDef :=
  ⟨varIds (useDefReg instr).1, varIds (useDefReg instr).2⟩

/-- Modelled from the spec: `getTwoUses`, the two registers of an ALU instruction whose
    operands are both registers. -/
def getTwoUses : Instr → Option (Reg × Reg)
  | .alu _ _ _ (.reg ra) _ (.reg rb) => some (ra, rb)
  | _ => none

/-! ### Live-in sets -/

/-- `live_out(i)`: the union of the live-in sets of the successors of `i`. -/
def liveOut (cfg : CFG) (live : List (List Int)) (i : InstrId) : List Int :=
  (cfg i).foldl (fun out s => out ∪ live.getD s []) []

/-- `live_in(i) = use(i) ∪ (live_out(i) \ def(i))`. -/
def liveIn (ud : UseDef) (out : List Int) : List Int :=
  out.filter (· ∉ ud.defs) ∪ ud.use

/-- One instruction of a sweep: insert the live-in variables of `i` that its set lacks; the
    flag records whether the set grew. -/
def Liveness.update (cfg : CFG) (instrs : List Instr) (st : List (List Int) × Bool)
    (i : InstrId) : List (List Int) × Bool :=
  let new := (liveIn (useDef (instrs.getD i .noOp)) (liveOut cfg st.1 i)).filter
    (· ∉ st.1.getD i [])
  (st.1.set i (st.1.getD i [] ++ new), st.2 || !new.isEmpty)

/-- One backward sweep of `Liveness::compute`: `update` from the last instruction to the
    first. -/
def Liveness.sweep (cfg : CFG) (instrs : List Instr) (st : List (List Int) × Bool) :
    List (List Int) × Bool :=
  (List.range instrs.length).reverse.foldl (Liveness.update cfg instrs) st

/-- Sweeps until one changes nothing, at most `fuel` of them. -/
def Liveness.iterate (cfg : CFG) (instrs : List Instr) : Nat → List (List Int) → List (List Int)
  | 0, live => live
  | fuel + 1, live =>
    let (live', changed) := Liveness.sweep cfg instrs (live, false)
    if changed then Liveness.iterate cfg instrs fuel live' else live'

/-- Modelled from the spec: `Liveness::compute`, the live-in set of every instruction. Each
    sweep but the last grows a set, and a set only ever holds variables that some instruction
    reads, so `n * (r + 1) + 1` sweeps reach the fixpoint, `r` the number of reads. -/
def Liveness.compute (cfg : CFG) (instrs : List Instr) : List (List Int) :=
  let reads := (instrs.map fun instr => (useDef instr).use.length).sum
  Liveness.iterate cfg instrs (instrs.length * (reads + 1) + 1)
    (List.replicate instrs.length [])

/-! ### Live-with sets -/

/-- Modelled from the spec: `LiveSets`, for each variable the variables live with it. -/
structure LiveSets where
  sets : Int → List Int

/-- Add `y` to the set of `x`, unless present. -/
def LiveSets.insert (ls : LiveSets) (x y : Int) : LiveSets :=
  ⟨fun k => if k = x ∧ y ∉ ls.sets x then ls.sets x ++ [y] else ls.sets k⟩

@[simp] theorem LiveSets.mem_insert {ls : LiveSets} {x y k z : Int} :
    z ∈ (ls.insert x y).sets k ↔ z ∈ ls.sets k ∨ (k = x ∧ z = y) := by
  unfold LiveSets.insert
  by_cases hk : k = x
  · subst hk
    by_cases hy : y ∈ ls.sets k <;> simp [hy]
    rintro rfl; exact hy
  · simp [hk]

/-- Modelled from the spec: `LiveSets::init`. For each instruction `i`, each variable `x` it
    defines and each other variable `y` live into `i`, `x` and `y` become neighbours. -/
def LiveSets.init (instrs : List Instr) (live : List (List Int)) : LiveSets :=
  (List.range instrs.length).foldl (fun ls i =>
    (useDef (instrs.getD i .noOp)).defs.foldl (fun ls x =>
      (live.getD i []).foldl (fun ls y => if x ≠ y then (ls.insert x y).insert y x else ls) ls)
      ls)
    ⟨fun _ => []⟩

/-- Interference, as the specification defines it: `x` and `y` differ, and one of them is live
    into an instruction that defines the other. -/
def Interferes (instrs : List Instr) (live : List (List Int)) (x y : Int) : Prop :=
  x ≠ y ∧ ∃ i instr, instrs[i]? = some instr ∧
    ((x ∈ (useDef instr).defs ∧ y ∈ live.getD i []) ∨
      (y ∈ (useDef instr).defs ∧ x ∈ live.getD i []))

theorem Interferes.symm {instrs : List Instr} {live : List (List Int)} {x y : Int}
    (h : Interferes instrs live x y) : Interferes instrs live y x := by
  obtain ⟨hxy, i, instr, hi, hdef⟩ := h
  exact ⟨Ne.symm hxy, i, instr, hi, hdef.symm⟩

/-- A fold of set updates adds exactly what its steps add. -/
theorem LiveSets.mem_foldl {β : Type} (g : LiveSets → β → LiveSets) (R : β → Int → Int → Prop)
    (hg : ∀ ls b k z, z ∈ (g ls b).sets k ↔ z ∈ ls.sets k ∨ R b k z) (k z : Int) :
    ∀ (bs : List β) (ls : LiveSets),
      z ∈ (bs.foldl g ls).sets k ↔ z ∈ ls.sets k ∨ ∃ b ∈ bs, R b k z
  | [], ls => by simp
  | b :: bs, ls => by
    rw [List.foldl_cons, LiveSets.mem_foldl g R hg k z bs, hg]
    simp only [List.mem_cons, exists_eq_or_imp]
    tauto

/-- The live-with sets hold exactly the interfering pairs. -/
theorem LiveSets.mem_init_iff {instrs : List Instr} {live : List (List Int)} {x y : Int} :
    y ∈ (LiveSets.init instrs live).sets x ↔ Interferes instrs live x y := by
  have hy : ∀ (d : Int) (ls : LiveSets) (y' : Int) k z,
      z ∈ (if d ≠ y' then (ls.insert d y').insert y' d else ls).sets k ↔
        z ∈ ls.sets k ∨ (d ≠ y' ∧ ((k = d ∧ z = y') ∨ (k = y' ∧ z = d))) := by
    intro d ls y' k z
    split_ifs with h <;> simp [h]; tauto
  have hd := fun (i : Nat) (ls : LiveSets) (d : Int) k z =>
    LiveSets.mem_foldl _ _ (hy d) k z (live.getD i []) ls
  have hi := fun (ls : LiveSets) (i : Nat) k z =>
    LiveSets.mem_foldl _ _ (hd i) k z (useDef (instrs.getD i .noOp)).defs ls
  unfold LiveSets.init
  rw [LiveSets.mem_foldl _ _ hi]
  simp only [List.not_mem_nil, false_or, List.mem_range, Interferes]
  constructor
  · rintro ⟨i, hi, d, hd, y', hy', hne, (⟨rfl, rfl⟩ | ⟨rfl, rfl⟩)⟩
    · exact ⟨hne, i, _, List.getElem?_eq_getElem hi, .inl ⟨by simpa [hi] using hd, hy'⟩⟩
    · exact ⟨Ne.symm hne, i, _, List.getElem?_eq_getElem hi, .inr ⟨by simpa [hi] using hd, hy'⟩⟩
  · rintro ⟨hne, i, instr, hinstr, (⟨hd, hy'⟩ | ⟨hd, hy'⟩)⟩ <;>
      obtain ⟨hi, rfl⟩ := List.getElem?_eq_some_iff.mp hinstr
    · exact ⟨i, hi, x, by simpa [hi] using hd, y, hy', hne, .inl ⟨rfl, rfl⟩⟩
    · exact ⟨i, hi, y, by simpa [hi] using hd, x, hy', Ne.symm hne, .inr ⟨rfl, rfl⟩⟩

/-- The live-with sets are symmetric. -/
theorem LiveSets.init_symm {instrs : List Instr} {live : List (List Int)} {x y : Int}
    (h : y ∈ (LiveSets.init instrs live).sets x) : x ∈ (LiveSets.init instrs live).sets y :=
  LiveSets.mem_init_iff.mpr (LiveSets.mem_init_iff.mp h).symm

/-! ### Choosing a register -/

/-- Modelled from the spec: `LiveSets::possible_registers(index, alloc, reg_tag)` over a
    regfile of `numRegs` entries: register `j` is possible unless a neighbour of `index` holds
    register `j` of file `regTag`. -/
def LiveSets.possibleRegisters (ls : LiveSets) (numRegs : Nat) (index : Int)
    (alloc : Int → Reg) (regTag : RegTag) : List Bool :=
  (ls.sets index).foldl (fun possible n =>
    if (alloc n).tag = regTag then possible.set (alloc n).regId.toNat false else possible)
    (List.replicate numRegs true)

/-- Modelled from the spec: `LiveSets::choose_register(possible, false)`, the lowest possible
    register, or `-1` when there is none. -/
def chooseRegister (possible : List Bool) : Int :=
  if possible.indexOf true < possible.length then possible.indexOf true else -1

theorem possibleRegisters_foldl_getElem? (alloc : Int → Reg) (regTag : RegTag) (j : Nat) :
    ∀ (ns : List Int) (p : List Bool),
      (ns.foldl (fun possible n => if (alloc n).tag = regTag then
          possible.set (alloc n).regId.toNat false else possible) p)[j]? =
        p[j]?.map fun b => b && !decide (∃ n ∈ ns, (alloc n).tag = regTag ∧
          (alloc n).regId.toNat = j)
  | [], p => by simp
  | n :: ns, p => by
    rw [List.foldl_cons, possibleRegisters_foldl_getElem? alloc regTag j ns]
    by_cases hn : (alloc n).tag = regTag ∧ (alloc n).regId.toNat = j
    · rw [if_pos hn.1, List.getElem?_set, if_pos hn.2, hn.2]
      by_cases hj : j < p.length
      · rw [if_pos hj, List.getElem?_eq_getElem hj]; simp [hn]
      · rw [if_neg hj, List.getElem?_eq_none (by omega)]; rfl
    · have : (if (alloc n).tag = regTag then p.set (alloc n).regId.toNat false else p)[j]? =
          p[j]? := by
        split_ifs with ht
        · exact List.getElem?_set_ne fun h => hn ⟨ht, h⟩
        · rfl
      rw [this]
      cases p[j]? <;> simp [hn]

theorem LiveSets.possibleRegisters_getElem? {ls : LiveSets} {numRegs : Nat} {index : Int}
    {alloc : Int → Reg} {regTag : RegTag} (j : Nat) :
    (ls.possibleRegisters numRegs index alloc regTag)[j]? =
      if j < numRegs then
        some !decide (∃ n ∈ ls.sets index, (alloc n).tag = regTag ∧ (alloc n).regId.toNat = j)
      else none := by
  rw [LiveSets.possibleRegisters, possibleRegisters_foldl_getElem?, List.getElem?_replicate]
  split_ifs <;> simp

theorem chooseRegister_nonneg {p : List Bool} (h : 0 ≤ chooseRegister p) :
    ∃ j : Nat, chooseRegister p = j ∧ p[j]? = some true := by
  unfold chooseRegister at h ⊢
  split_ifs at h ⊢ with hlt
  · exact ⟨_, rfl, by rw [List.getElem?_eq_getElem hlt, List.getElem_indexOf hlt]⟩
  · omega

theorem chooseRegister_neg {p : List Bool} (h : chooseRegister p < 0) (j : Nat) :
    p[j]? ≠ some true := by
  unfold chooseRegister at h
  split_ifs at h with hlt
  · omega
  · exact fun hj => hlt (List.indexOf_lt_length.mpr (List.getElem?_mem hj))

/-- `chooseRegister` picks the lowest possible register. -/
theorem chooseRegister_eq {p : List Bool} {k : Nat} (hk : p[k]? = some true)
    (hlow : ∀ i < k, p[i]? ≠ some true) : chooseRegister p = k := by
  obtain ⟨hlt, hget⟩ := List.getElem?_eq_some_iff.mp hk
  have hidx : p.indexOf true = k := by
    refine (List.findIdx_eq hlt).mpr ⟨by simp [hget], fun j hj => ?_⟩
    have := hlow j hj
    rw [List.getElem?_eq_getElem (by omega)] at this
    simpa using this
  simp [chooseRegister, hidx, hlt]

section Choose

variable {ls : LiveSets} {numRegs : Nat} {index : Int} {alloc : Int → Reg} {regTag : RegTag}

/-- A register chosen in file `regTag` is inside the file and held by no neighbour. -/
theorem LiveSets.choose_possible_nonneg
    (h : 0 ≤ chooseRegister (ls.possibleRegisters numRegs index alloc regTag)) :
    ∃ j : Nat, chooseRegister (ls.possibleRegisters numRegs index alloc regTag) = j ∧
      j < numRegs ∧ ∀ n ∈ ls.sets index, (alloc n).tag = regTag → (alloc n).regId.toNat ≠ j := by
  obtain ⟨j, hc, hj⟩ := chooseRegister_nonneg h
  rw [LiveSets.possibleRegisters_getElem?] at hj
  split_ifs at hj with hlt
  · simp only [Option.some.injEq, Bool.not_eq_true', decide_eq_false_iff_not, not_exists,
      not_and] at hj
    exact ⟨j, hc, hlt, fun n hn ht => hj n hn ht⟩

/-- When no register of file `regTag` can be chosen, a neighbour holds each of them. -/
theorem LiveSets.choose_possible_neg
    (h : chooseRegister (ls.possibleRegisters numRegs index alloc regTag) < 0) (j : Nat)
    (hj : j < numRegs) :
    ∃ n ∈ ls.sets index, (alloc n).tag = regTag ∧ (alloc n).regId.toNat = j := by
  have := chooseRegister_neg h j
  rw [LiveSets.possibleRegisters_getElem?, if_pos hj] at this
  simpa using this

end Choose

/-! ### Allocation maps -/

/-- The live-with relation is symmetric. -/
def LiveSets.Symm (ls : LiveSets) : Prop := ∀ x y, y ∈ ls.sets x → x ∈ ls.sets y

/-- An allocation map after its first `k` variables: each of them holds a register of one of
    `files` with id below `numRegs`, every other id is still `NONE`, and no two distinct
    neighbours among the first `k` hold the same register. -/
structure AllocInv (ls : LiveSets) (numRegs : Nat) (files : List RegTag) (k : Nat)
    (alloc : Int → Reg) : Prop where
  allocated : ∀ x : Nat, x < k →
    (alloc x).tag ∈ files ∧ 0 ≤ (alloc x).regId ∧ (alloc x).regId < numRegs
  unallocated : ∀ x : Int, ¬(0 ≤ x ∧ x < k) → (alloc x).tag = .none
  distinct : ∀ x y : Nat, x < k → y < k → x ≠ y → (y : Int) ∈ ls.sets x →
    ¬(alloc x).Same (alloc y)

section Assign

variable {ls : LiveSets} {numRegs : Nat} {files : List RegTag} {k : Nat} {alloc : Int → Reg}
  {file : RegTag}

/-- The empty map, every variable `NONE`. -/
theorem AllocInv.empty (regId : Int) :
    AllocInv ls numRegs files 0 fun _ => ⟨.none, regId, false⟩ :=
  ⟨fun _ h => absurd h (Nat.not_lt_zero _), fun _ _ => rfl,
    fun _ _ h => absurd h (Nat.not_lt_zero _)⟩

/-- Variable `k` given the register of `file` that `chooseRegister` found. -/
def assignChosen (ls : LiveSets) (numRegs : Nat) (k : Nat) (alloc : Int → Reg) (file : RegTag) :
    Int → Reg :=
  Function.update alloc k
    { alloc k with
      tag := file, regId := chooseRegister (ls.possibleRegisters numRegs k alloc file) }

/-- Step lemma of both allocation loops: variable `k` takes a register that `chooseRegister`
    found in one of `files`, and the invariant extends to `k + 1`. -/
theorem AllocInv.assign (hinv : AllocInv ls numRegs files k alloc) (hsym : ls.Symm)
    (hfile : file ∈ files) (hc : 0 ≤ chooseRegister (ls.possibleRegisters numRegs k alloc file)) :
    AllocInv ls numRegs files (k + 1) (assignChosen ls numRegs k alloc file) := by
  obtain ⟨j, hj, hlt, hfree⟩ := LiveSets.choose_possible_nonneg hc
  have hk : ∀ x : Int, x ≠ k → assignChosen ls numRegs k alloc file x = alloc x :=
    fun x hx => Function.update_noteq hx _ _
  have hkk : assignChosen ls numRegs k alloc file k = { alloc k with tag := file, regId := j } := by
    simp [assignChosen, hj]
  -- a neighbour of `k` among the first `k` does not hold `(file, j)`
  have hnb : ∀ y : Nat, y < k → (y : Int) ∈ ls.sets k → ¬(alloc y).Same ⟨file, j, false⟩ := by
    rintro y - hy ⟨ht, hid⟩
    exact hfree y hy ht (by simp [hid])
  refine ⟨fun x hx => ?_, fun x hx => ?_, fun x y hx hy hxy hmem => ?_⟩
  · rcases Nat.lt_succ_iff_lt_or_eq.mp hx with hx | rfl
    · rw [hk x (by omega)]; exact hinv.allocated x hx
    · simp only [hkk]; exact ⟨hfile, by omega, by omega⟩
  · rw [hk x (by omega)]; exact hinv.unallocated x (by omega)
  · rcases Nat.lt_succ_iff_lt_or_eq.mp hx with hx | rfl <;>
      rcases Nat.lt_succ_iff_lt_or_eq.mp hy with hy | rfl
    · rw [hk x (by omega), hk y (by omega)]; exact hinv.distinct x y hx hy hxy hmem
    · rw [hk x (by omega), hkk]
      exact fun h => hnb x hx (hsym _ _ hmem) ⟨h.1, h.2⟩
    · rw [hk y (by omega), hkk]
      exact fun h => hnb y hy hmem ⟨h.1.symm, h.2.symm⟩
    · exact absurd rfl hxy

/-- When no register of `file` can be chosen for `k`, each of them is held by an earlier
    neighbour of `k`. -/
theorem AllocInv.held (hinv : AllocInv ls numRegs files k alloc) (hnone : file ≠ .none)
    (hc : chooseRegister (ls.possibleRegisters numRegs k alloc file) < 0) (j : Nat)
    (hj : j < numRegs) :
    ∃ y : Nat, y < k ∧ (y : Int) ∈ ls.sets k ∧ (alloc y).tag = file ∧ (alloc y).regId = j := by
  obtain ⟨n, hn, ht, hid⟩ := LiveSets.choose_possible_neg hc j hj
  have hrange : 0 ≤ n ∧ n < k := by
    by_contra h
    exact hnone (ht ▸ hinv.unallocated n h)
  obtain ⟨y, rfl⟩ := Int.eq_ofNat_of_zero_le hrange.1
  have := (hinv.allocated y (by omega)).2.1
  exact ⟨y, by omega, hn, ht, by omega⟩

end Assign

end V3DLib
