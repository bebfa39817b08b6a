import V3DLib.Target.Syntax
import V3DLib.Loop

/-!
# Control-flow graphs

`buildCFG` of `Target/CFG.cpp`: a first pass gives every instruction its fall-through
successor and records where each label sits, a second pass adds the label of every branch.

## Main results

- `buildCFG_spec`: on a sequence whose labels are in range, each defined once, and whose
  branches all have their label, `buildCFG` succeeds and gives every instruction exactly the
  successors `Succ` describes.
- `buildCFG_isSome_iff`: `buildCFG` succeeds exactly when every label is in range and every
  branch has its label; that a label is defined once is never checked.
- `buildCFG_branch_to_last_lab`: a branch to a label defined more than once goes to its last
  `LAB`.
-/

namespace V3DLib

/-- Instruction ids. -/
abbrev InstrId := Nat

/-- A control-flow graph (`CFG`): the successor set of every instruction. -/
def CFG := InstrId → List InstrId

/-- The graph with no edges. -/
def CFG.empty : CFG := fun _ => []

/-- `cfg[i].insert(j)`: add `j` to the successors of `i`, unless it is there already. -/
def CFG.insert (cfg : CFG) (i j : InstrId) : CFG :=
  fun k => if k = i then (if j ∈ cfg k then cfg k else cfg k ++ [j]) else cfg k

@[simp] theorem CFG.mem_insert {cfg : CFG} {i j k x : InstrId} :
    x ∈ cfg.insert i j k ↔ x ∈ cfg k ∨ (k = i ∧ x = j) := by
  unfold CFG.insert
  by_cases hk : k = i
  · subst hk
    by_cases hj : j ∈ cfg k
    · simp only [if_true, hj, true_and]
      exact ⟨Or.inl, fun h => h.elim id (· ▸ hj)⟩
    · simp [hj, or_comm]
  · simp [hk]

@[simp] theorem CFG.not_mem_empty {k x : InstrId} : x ∉ CFG.empty k := List.not_mem_nil x

/-- A `BRL` whose condition is `COND_ALWAYS`. -/
def Instr.isUncondJump : Instr → Bool
  | .brl c _ => c.tag == .condAlways
  | _ => false

/-- `instr.tag == END`. -/
def Instr.isHalt : Instr → Bool
  | .halt => true
  | _ => false

/-- Control can pass to the next instruction: neither `END` nor an unconditional jump. -/
def Instr.fallsThrough (instr : Instr) : Bool := !(instr.isUncondJump || instr.isHalt)

/-- The test on the tags: an instruction falls through unless it is `END` or a `BRL` whose
    condition is `COND_ALWAYS`. -/
theorem Instr.fallsThrough_iff (instr : Instr) : instr.fallsThrough = true ↔
    instr ≠ .halt ∧ ∀ c l, instr = .brl c l → c.tag ≠ .condAlways := by
  cases instr <;> simp [Instr.fallsThrough, Instr.isUncondJump, Instr.isHalt]

/-- One iteration of the first loop of `buildCFG`. `none` is a failed assertion. -/
def buildCFGFirst (numLabels : Nat) (instrs : List Instr) (st : CFG × (Label → Int))
    (i : InstrId) : Option (CFG × (Label → Int)) :=
  match instrs[i]? with
  | none => none
  | some instr =>
    let uncond := instr.isUncondJump
    let last := instr.isHalt || i + 1 == instrs.length
    let cfg := if !(uncond || last) then st.1.insert i (i + 1) else st.1
    match instr with
    | .lab l =>
      if l < numLabels then some (cfg, fun k => if k = l then i else st.2 k) else none
    | _ => some (cfg, st.2)

/-- One iteration of the second loop of `buildCFG`. Reading `labelMap` at a label outside
    `[0, numLabels)` is out of bounds, and a negative entry fails the assertion. -/
def buildCFGSecond (numLabels : Nat) (instrs : List Instr) (labelMap : Label → Int)
    (cfg : CFG) (i : InstrId) : Option CFG :=
  match instrs[i]? with
  | some (.brl _ l) =>
    if l < numLabels then
      if 0 ≤ labelMap l then some (cfg.insert i (labelMap l).toNat) else none
    else none
  | some _ => some cfg
  | none => none

/-- `buildCFG`: both passes, from the graph `cfg` and `numLabels = getFreshLabelCount()`. -/
def buildCFG (numLabels : Nat) (instrs : List Instr) (cfg : CFG) : Option CFG := do
  let (cfg, labelMap) ← (List.range instrs.length).foldlM (buildCFGFirst numLabels instrs)
    (cfg, fun _ => -1)
  (List.range instrs.length).foldlM (buildCFGSecond numLabels instrs labelMap) cfg

/-- The successors the specification gives instruction `i`: the next instruction, unless `i` is
    the last one, `END`, or a `BRL` whose condition is `COND_ALWAYS`; and the label of a
    branch. -/
def Succ (instrs : List Instr) (i x : InstrId) : Prop :=
  (x = i + 1 ∧ i + 1 < instrs.length ∧ ∃ instr, instrs[i]? = some instr ∧
    instr ≠ .halt ∧ ∀ c l, instr = .brl c l → c.tag ≠ .condAlways)
  ∨ ∃ c l, instrs[i]? = some (Instr.brl c l) ∧ instrs[x]? = some (Instr.lab l)

/-- The well-formedness `buildCFG` expects of its input: labels below the label count,
    each defined at most once, and every branch to a defined label. -/
structure LabelsWellFormed (numLabels : Nat) (instrs : List Instr) : Prop where
  lab_lt : ∀ (i : InstrId) (l : Label), instrs[i]? = some (.lab l) → l < numLabels
  brl_lt : ∀ (i : InstrId) c (l : Label), instrs[i]? = some (.brl c l) → l < numLabels
  lab_unique : ∀ (i j : InstrId) (l : Label),
    instrs[i]? = some (.lab l) → instrs[j]? = some (.lab l) → i = j
  brl_defined : ∀ (i : InstrId) c (l : Label),
    instrs[i]? = some (.brl c l) → ∃ j : InstrId, instrs[j]? = some (.lab l)

/-- `x` holds the last `LAB l` of the sequence. `buildCFG` never checks that a label is defined
    once: each `LAB l` overwrites `labelMap[l]`, so a branch to `l` goes here. -/
def LastLab (instrs : List Instr) (l : Label) (x : InstrId) : Prop :=
  instrs[x]? = some (.lab l) ∧ ∀ y, x < y → instrs[y]? ≠ some (.lab l)

theorem LastLab.unique {instrs : List Instr} {l : Label} {x y : InstrId}
    (hx : LastLab instrs l x) (hy : LastLab instrs l y) : x = y := by
  rcases Nat.lt_trichotomy x y with h | h | h
  exacts [absurd hy.1 (hx.2 y h), h, absurd hx.1 (hy.2 x h)]

-- ════════════════════════════════════════════════════════════════════════
-- The two passes
-- ════════════════════════════════════════════════════════════════════════

/-- The fall-through edge of instruction `i`: to the next one, unless `i` is the last one,
    `END`, or a `BRL` whose condition is `COND_ALWAYS`. -/
def FallSucc (instrs : List Instr) (i x : InstrId) : Prop :=
  x = i + 1 ∧ i + 1 < instrs.length ∧ ∃ instr, instrs[i]? = some instr ∧
    instr ≠ .halt ∧ ∀ c l, instr = .brl c l → c.tag ≠ .condAlways

/-- The first loop's test `!(uncond || end)`. -/
theorem firstPass_cond (instr : Instr) {i n : Nat} (hn : i < n) :
    (!(instr.isUncondJump || (instr.isHalt || i + 1 == n))) =
      (instr.fallsThrough && decide (i + 1 < n)) := by
  have h : (!(i + 1 == n)) = decide (i + 1 < n) := by
    rw [Bool.eq_iff_iff]; simp; omega
  simp only [Instr.fallsThrough, Bool.or_assoc, Bool.not_or, Bool.and_assoc, h]

/-- One step of the first pass adds the fall-through edge of `i` and records its label. -/
theorem buildCFGFirst_spec {numLabels : Nat} {instrs : List Instr} {cfg : CFG}
    {labelMap : Label → Int} {i : InstrId} {instr : Instr} (hi : instrs[i]? = some instr)
    (hlab : ∀ l, instr = .lab l → l < numLabels) :
    ∃ cfg' labelMap', buildCFGFirst numLabels instrs (cfg, labelMap) i = some (cfg', labelMap') ∧
      (∀ j x, x ∈ cfg' j ↔ x ∈ cfg j ∨ (j = i ∧ FallSucc instrs i x)) ∧
      ∀ l, labelMap' l = if instr = .lab l then (i : Int) else labelMap l := by
  have hcfg : ∀ j x, x ∈ (if (instr.fallsThrough && decide (i + 1 < instrs.length))
      then cfg.insert i (i + 1) else cfg) j ↔ x ∈ cfg j ∨ (j = i ∧ FallSucc instrs i x) := by
    intro j x
    simp only [FallSucc, hi, Option.some.injEq, exists_eq_left', ← Instr.fallsThrough_iff]
    cases instr.fallsThrough <;> by_cases h : i + 1 < instrs.length <;> simp [h]
  simp only [buildCFGFirst, hi, firstPass_cond _ (List.getElem?_eq_some.1 hi).1]
  cases instr with
  | lab l =>
    refine ⟨_, _, by dsimp only; rw [if_pos (hlab l rfl)], hcfg, fun k => ?_⟩
    by_cases hk : k = l
    · simp [hk]
    · simp [hk, Ne.symm hk]
  | _ => exact ⟨_, _, rfl, hcfg, fun k => by simp⟩

/-- One step of the second pass adds the label of a branch at `i`. -/
theorem buildCFGSecond_spec {numLabels : Nat} {instrs : List Instr} {labelMap : Label → Int}
    {cfg : CFG} {i : InstrId} {instr : Instr} (hi : instrs[i]? = some instr)
    (hbr : ∀ c l, instr = .brl c l → l < numLabels ∧ 0 ≤ labelMap l) :
    ∃ cfg', buildCFGSecond numLabels instrs labelMap cfg i = some cfg' ∧
      ∀ j x, x ∈ cfg' j ↔ x ∈ cfg j ∨
        (j = i ∧ ∃ c l, instr = .brl c l ∧ x = (labelMap l).toNat) := by
  cases instr with
  | brl c l =>
    obtain ⟨hl, hm⟩ := hbr c l rfl
    exact ⟨cfg.insert i (labelMap l).toNat, by simp [buildCFGSecond, hi, hl, hm],
      fun j x => by simp [and_assoc]⟩
  | _ => exact ⟨cfg, by simp [buildCFGSecond, hi], fun j x => by simp⟩

section
variable {numLabels : Nat} {instrs : List Instr}

theorem getElem?_some_of_lt {k : Nat} (hk : k < instrs.length) :
    ∃ instr, instrs[k]? = some instr := ⟨_, List.getElem?_eq_getElem hk⟩

/-- A loop step that adds the edges `E` of instruction `k` to a graph holding those of the
    instructions below `k` gives a graph holding those of the instructions below `k + 1`. -/
theorem mem_edges_succ {E : InstrId → InstrId → Prop} {cfg₀ cfg cfg' : CFG} {k : Nat}
    (hcfg : ∀ j x, x ∈ cfg j ↔ x ∈ cfg₀ j ∨ (j < k ∧ E j x))
    (hcfg' : ∀ j x, x ∈ cfg' j ↔ x ∈ cfg j ∨ (j = k ∧ E k x)) (j x : InstrId) :
    x ∈ cfg' j ↔ x ∈ cfg₀ j ∨ (j < k + 1 ∧ E j x) := by
  rw [hcfg', hcfg]
  constructor
  · rintro ((h | ⟨hj, h⟩) | ⟨rfl, h⟩)
    exacts [.inl h, .inr ⟨Nat.lt_succ_of_lt hj, h⟩, .inr ⟨Nat.lt_succ_self j, h⟩]
  · rintro (h | ⟨hj, h⟩)
    · exact .inl (.inl h)
    · rcases Nat.lt_succ_iff_lt_or_eq.1 hj with hj | rfl
      exacts [.inl (.inr ⟨hj, h⟩), .inr ⟨rfl, h⟩]

/-- The first pass gives every instruction its fall-through edge, and leaves for each label the
    index of its last `LAB`, or `-1` when there is none: a later `LAB` of a label overwrites
    `labelMap` at it. -/
theorem buildCFGFirst_run_last
    (hlab : ∀ (i : InstrId) (l : Label), instrs[i]? = some (.lab l) → l < numLabels) (cfg₀ : CFG) :
    ∃ cfg labelMap, (List.range instrs.length).foldlM (buildCFGFirst numLabels instrs)
        (cfg₀, fun _ => -1) = some (cfg, labelMap) ∧
      (∀ j x, x ∈ cfg j ↔ x ∈ cfg₀ j ∨ FallSucc instrs j x) ∧
      ∀ l, (labelMap l = -1 ∧ ∀ j : InstrId, instrs[j]? ≠ some (.lab l)) ∨
        ∃ j : InstrId, labelMap l = j ∧ LastLab instrs l j := by
  let P : Nat → CFG × (Label → Int) → Prop := fun k st =>
    (∀ j x, x ∈ st.1 j ↔ x ∈ cfg₀ j ∨ (j < k ∧ FallSucc instrs j x)) ∧
    ∀ l, (st.2 l = -1 ∧ ∀ j < k, instrs[j]? ≠ some (.lab l)) ∨
      ∃ j < k, st.2 l = j ∧ instrs[j]? = some (.lab l) ∧
        ∀ y, j < y → y < k → instrs[y]? ≠ some (.lab l)
  have hstep : ∀ k st, k < instrs.length → P k st →
      ∃ st', buildCFGFirst numLabels instrs st k = some st' ∧ P (k + 1) st' := by
    rintro k ⟨cfg, lm⟩ hk ⟨hcfg, hlm⟩
    obtain ⟨instr, hi⟩ := getElem?_some_of_lt hk
    obtain ⟨cfg', lm', hf, hcfg', hlm'⟩ := @buildCFGFirst_spec numLabels instrs cfg lm k instr hi
      (fun l h => hlab k l (h ▸ hi))
    refine ⟨(cfg', lm'), hf, mem_edges_succ hcfg hcfg', fun l => ?_⟩
    dsimp only
    rw [hlm']
    by_cases hl : instr = .lab l
    · -- the `LAB l` at `k` is the last one so far
      exact .inr ⟨k, Nat.lt_succ_self k, if_pos hl, hl ▸ hi, fun y hy hy' => by omega⟩
    · have hk : instrs[k]? ≠ some (.lab l) := by rw [hi]; exact fun h => hl (Option.some.inj h)
      rw [if_neg hl]
      rcases hlm l with ⟨h, hnone⟩ | ⟨j, hj, h, hjl, hlast⟩
      · exact .inl ⟨h, Nat.forall_lt_succ.2 ⟨hnone, hk⟩⟩
      · refine .inr ⟨j, Nat.lt_succ_of_lt hj, h, hjl, fun y hy hy' => ?_⟩
        rcases Nat.lt_succ_iff_lt_or_eq.1 hy' with hy' | rfl
        exacts [hlast y hy hy', hk]
  obtain ⟨⟨cfg, lm⟩, hrun, hcfg, hlm⟩ := @foldlM_range_of_step _ instrs.length
    (buildCFGFirst numLabels instrs) P (cfg₀, fun _ => -1)
    ⟨fun j x => by simp, fun l => .inl ⟨rfl, fun j hj => absurd hj (Nat.not_lt_zero j)⟩⟩
    hstep _ le_rfl
  -- past the last instruction there is no `LAB`
  have hout : ∀ (y : InstrId) (l : Label), instrs.length ≤ y → instrs[y]? ≠ some (.lab l) :=
    fun y l hy h => absurd (List.getElem?_eq_some.1 h).1 (Nat.not_lt.2 hy)
  refine ⟨cfg, lm, hrun, fun j x => ?_, fun l => ?_⟩
  · rw [hcfg]
    exact or_congr_right ⟨fun h => h.2, fun h => ⟨Nat.lt_of_succ_lt h.2.1, h⟩⟩
  · rcases hlm l with ⟨h, hnone⟩ | ⟨j, -, h, hjl, hlast⟩
    · exact .inl ⟨h, fun y =>
        if hy : y < instrs.length then hnone y hy else hout y l (Nat.le_of_not_lt hy)⟩
    · exact .inr ⟨j, h, hjl, fun y hy =>
        if hy' : y < instrs.length then hlast y hy hy' else hout y l (Nat.le_of_not_lt hy')⟩

/-- The second pass, from a label map with an entry for the label of every branch, adds the edge
    from each branch to the entry of its label. -/
theorem buildCFGSecond_run_of {labelMap : Label → Int}
    (hbrl : ∀ (i : InstrId) c (l : Label), instrs[i]? = some (.brl c l) →
      l < numLabels ∧ 0 ≤ labelMap l) (cfg₀ : CFG) :
    ∃ cfg, (List.range instrs.length).foldlM (buildCFGSecond numLabels instrs labelMap) cfg₀
        = some cfg ∧ ∀ j x, x ∈ cfg j ↔
          x ∈ cfg₀ j ∨ ∃ c l, instrs[j]? = some (.brl c l) ∧ x = (labelMap l).toNat := by
  let P : Nat → CFG → Prop := fun k cfg => ∀ j x, x ∈ cfg j ↔
    x ∈ cfg₀ j ∨ (j < k ∧ ∃ c l, instrs[j]? = some (.brl c l) ∧ x = (labelMap l).toNat)
  have hstep : ∀ k cfg, k < instrs.length → P k cfg →
      ∃ cfg', buildCFGSecond numLabels instrs labelMap cfg k = some cfg' ∧ P (k + 1) cfg' := by
    intro k cfg hk hcfg
    obtain ⟨instr, hi⟩ := getElem?_some_of_lt hk
    obtain ⟨cfg', hf, hcfg'⟩ := @buildCFGSecond_spec numLabels instrs labelMap cfg k instr hi
      fun c l h => hbrl k c l (h ▸ hi)
    refine ⟨cfg', hf, mem_edges_succ hcfg fun j x => ?_⟩
    simp only [hcfg', hi, Option.some.injEq]
  obtain ⟨cfg, hrun, hcfg⟩ := @foldlM_range_of_step _ instrs.length
    (buildCFGSecond numLabels instrs labelMap) P cfg₀ (fun j x => by simp) hstep _ le_rfl
  refine ⟨cfg, hrun, fun j x => (hcfg j x).trans (or_congr_right ?_)⟩
  exact ⟨fun h => h.2, fun h => ⟨let ⟨_, _, hj, _⟩ := h; (List.getElem?_eq_some.1 hj).1, h⟩⟩

/-- `buildCFG` on labels in range and branches to defined labels succeeds, and adds to `cfg₀`
    the fall-through edges and the edge from each branch to the last `LAB` of its label. -/
theorem buildCFG_run
    (hlab : ∀ (i : InstrId) (l : Label), instrs[i]? = some (.lab l) → l < numLabels)
    (hbrl : ∀ (i : InstrId) c (l : Label), instrs[i]? = some (.brl c l) →
      l < numLabels ∧ ∃ j : InstrId, instrs[j]? = some (.lab l)) (cfg₀ : CFG) :
    ∃ cfg, buildCFG numLabels instrs cfg₀ = some cfg ∧ ∀ i x, x ∈ cfg i ↔ x ∈ cfg₀ i ∨
      FallSucc instrs i x ∨ ∃ c l, instrs[i]? = some (.brl c l) ∧ LastLab instrs l x := by
  obtain ⟨cfg₁, lm, hrun₁, hcfg₁, hlm⟩ := buildCFGFirst_run_last hlab cfg₀
  -- the label of a branch is recorded at its last `LAB`
  have hlast : ∀ (i : InstrId) c (l : Label), instrs[i]? = some (.brl c l) →
      ∃ j : InstrId, lm l = j ∧ LastLab instrs l j := fun i c l hi =>
    let ⟨t, ht⟩ := (hbrl i c l hi).2
    (hlm l).resolve_left fun h => h.2 t ht
  obtain ⟨cfg, hrun, hcfg⟩ := @buildCFGSecond_run_of numLabels instrs lm
    (fun i c l hi => ⟨(hbrl i c l hi).1, let ⟨j, hj, _⟩ := hlast i c l hi; hj ▸ Int.ofNat_nonneg j⟩)
    cfg₁
  refine ⟨cfg, by simp [buildCFG, hrun₁, hrun], fun i x => ?_⟩
  rw [hcfg, hcfg₁, or_assoc]
  refine or_congr_right (or_congr_right (exists_congr fun c => exists_congr fun l =>
    and_congr_right fun hi => ?_))
  obtain ⟨j, hj, hjl⟩ := hlast i c l hi
  rw [hj, Int.toNat_ofNat]
  exact ⟨fun h => h ▸ hjl, fun h => h.unique hjl⟩

/-- `buildCFG` from empty successor sets, on well-formed labels, succeeds with the successors
    `Succ` gives. -/
theorem buildCFG_succ (hwf : LabelsWellFormed numLabels instrs) :
    ∃ cfg, buildCFG numLabels instrs CFG.empty = some cfg ∧ ∀ i x, x ∈ cfg i ↔ Succ instrs i x := by
  obtain ⟨cfg, hrun, hcfg⟩ := buildCFG_run hwf.lab_lt
    (fun i c l hi => ⟨hwf.brl_lt i c l hi, hwf.brl_defined i c l hi⟩) CFG.empty
  -- a label defined once has its only `LAB` as its last
  have honly : ∀ l x, LastLab instrs l x ↔ instrs[x]? = some (.lab l) := fun l x =>
    ⟨And.left, fun h => ⟨h, fun y hxy hy => absurd (hwf.lab_unique x y l h hy) (Nat.ne_of_lt hxy)⟩⟩
  refine ⟨cfg, hrun, fun i x => ?_⟩
  simp only [hcfg, honly, CFG.not_mem_empty, false_or, Succ, FallSucc]

/-- `buildCFG` from empty successor sets, on a sequence whose labels are in range, defined at
    most once, and defined for every branch: it succeeds (no assertion fails and no label-map
    access is out of bounds), every instruction gets exactly the successors `Succ` gives it, and
    all of them are instruction indices, so the last instruction has no fall-through edge. -/
theorem buildCFG_spec (hwf : LabelsWellFormed numLabels instrs) :
    ∃ cfg, buildCFG numLabels instrs CFG.empty = some cfg ∧
      (∀ i x, x ∈ cfg i ↔ Succ instrs i x) ∧ ∀ i x, x ∈ cfg i → x < instrs.length := by
  obtain ⟨cfg, hrun, hsucc⟩ := buildCFG_succ hwf
  refine ⟨cfg, hrun, hsucc, fun i x hx => ?_⟩
  rcases (hsucc i x).1 hx with ⟨rfl, h, -⟩ | ⟨c, l, -, hx⟩
  exacts [h, (List.getElem?_eq_some.1 hx).1]

/-- A conditional branch over one instruction to a label, then `END`. -/
theorem buildCFG_spec_forward_branch :
    LabelsWellFormed 1 [.brl ⟨.condAny, .zs⟩ 0, .noOp, .lab 0, .halt] ∧
    ∃ cfg, buildCFG 1 [.brl ⟨.condAny, .zs⟩ 0, .noOp, .lab 0, .halt] CFG.empty = some cfg ∧
      (∀ i x, x ∈ cfg i ↔ Succ [.brl ⟨.condAny, .zs⟩ 0, .noOp, .lab 0, .halt] i x) ∧
      ∀ i x, x ∈ cfg i → x < 4 :=
  have hwf : LabelsWellFormed 1 [.brl ⟨.condAny, .zs⟩ 0, .noOp, .lab 0, .halt] :=
    ⟨fun i l h => by rcases i with _ | _ | _ | _ | i <;> simp_all,
     fun i c l h => by rcases i with _ | _ | _ | _ | i <;> simp_all,
     fun i j l hi hj => by
       rcases i with _ | _ | _ | _ | i <;> rcases j with _ | _ | _ | _ | j <;> simp at hi hj ⊢,
     fun i c l h => ⟨2, by rcases i with _ | _ | _ | _ | i <;> simp at h ⊢; exact h.2⟩⟩
  ⟨hwf, buildCFG_spec hwf⟩

-- ════════════════════════════════════════════════════════════════════════
-- Which sequences `buildCFG` accepts
-- ════════════════════════════════════════════════════════════════════════

/-- A `LAB` beyond the label count fails the first pass's assertion. -/
theorem buildCFG_eq_none_of_lab {i : InstrId} {l : Label} (hi : instrs[i]? = some (.lab l))
    (hl : numLabels ≤ l) (cfg₀ : CFG) : buildCFG numLabels instrs cfg₀ = none := by
  have hfail : ∀ st, buildCFGFirst numLabels instrs st i = none := fun st => by
    simp [buildCFGFirst, hi, Nat.not_lt.2 hl]
  simp [buildCFG, foldlM_range_eq_none hfail _ (List.getElem?_eq_some.1 hi).1]

/-- A branch to a label beyond the label count, or to one with no `LAB`, fails the second pass:
    the read of `labelMap` is out of bounds, or finds the `-1` it was initialised with. -/
theorem buildCFG_eq_none_of_brl
    (hlab : ∀ (i : InstrId) (l : Label), instrs[i]? = some (.lab l) → l < numLabels)
    {i : InstrId} {c : BranchCond} {l : Label} (hi : instrs[i]? = some (.brl c l))
    (hl : ¬(l < numLabels ∧ ∃ j : InstrId, instrs[j]? = some (.lab l))) (cfg₀ : CFG) :
    buildCFG numLabels instrs cfg₀ = none := by
  obtain ⟨cfg₁, lm, hrun₁, -, hlm⟩ := buildCFGFirst_run_last hlab cfg₀
  have hfail : ∀ cfg, buildCFGSecond numLabels instrs lm cfg i = none := fun cfg => by
    by_cases hln : l < numLabels
    · have hnone : lm l = -1 :=
        ((hlm l).resolve_right fun ⟨j, _, hj⟩ => hl ⟨hln, j, hj.1⟩).1
      simp [buildCFGSecond, hi, hln, hnone]
    · simp [buildCFGSecond, hi, hln]
  simp [buildCFG, hrun₁, foldlM_range_eq_none hfail _ (List.getElem?_eq_some.1 hi).1]

/-- `buildCFG` succeeds exactly on the sequences whose labels are all below the label count and
    whose branches all go to a label below it with a `LAB`, whatever graph it starts from. That a
    label is defined once is never checked. -/
theorem buildCFG_isSome_iff (cfg₀ : CFG) :
    (buildCFG numLabels instrs cfg₀).isSome ↔
      (∀ (i : InstrId) (l : Label), instrs[i]? = some (.lab l) → l < numLabels) ∧
      ∀ (i : InstrId) c (l : Label), instrs[i]? = some (.brl c l) →
        l < numLabels ∧ ∃ j : InstrId, instrs[j]? = some (.lab l) := by
  constructor
  · intro h
    have hlab : ∀ (i : InstrId) (l : Label), instrs[i]? = some (.lab l) → l < numLabels :=
      fun i l hi => Nat.lt_of_not_le fun hl => by simp [buildCFG_eq_none_of_lab hi hl] at h
    refine ⟨hlab, fun i c l hi => ?_⟩
    by_contra hl
    simp [buildCFG_eq_none_of_brl hlab hi hl] at h
  · rintro ⟨hlab, hbrl⟩
    obtain ⟨cfg, hcfg, -⟩ := buildCFG_run hlab hbrl cfg₀
    simp [hcfg]

/-- On a sequence `buildCFG` accepts, with labels possibly defined more than once, every
    instruction gets its fall-through edge and each branch an edge to the last `LAB` of its
    label. -/
theorem buildCFG_branch_to_last_lab
    (hlab : ∀ (i : InstrId) (l : Label), instrs[i]? = some (.lab l) → l < numLabels)
    (hbrl : ∀ (i : InstrId) c (l : Label), instrs[i]? = some (.brl c l) →
      l < numLabels ∧ ∃ j : InstrId, instrs[j]? = some (.lab l)) :
    ∃ cfg, buildCFG numLabels instrs CFG.empty = some cfg ∧ ∀ i x, x ∈ cfg i ↔
      FallSucc instrs i x ∨ ∃ c l, instrs[i]? = some (.brl c l) ∧ LastLab instrs l x := by
  obtain ⟨cfg, hrun, hcfg⟩ := buildCFG_run hlab hbrl CFG.empty
  exact ⟨cfg, hrun, fun i x => by simp only [hcfg, CFG.not_mem_empty, false_or]⟩

/-- A conditional branch to label 0, which is defined twice. -/
def branchToTwiceDefined : List Instr := [.brl ⟨.condAny, .zs⟩ 0, .lab 0, .noOp, .lab 0, .halt]

/-- The branch of `branchToTwiceDefined` goes to the second `LAB 0`. -/
theorem buildCFG_branch_to_last_lab_twice :
    ∃ cfg, buildCFG 1 branchToTwiceDefined CFG.empty = some cfg ∧ ∀ i x, x ∈ cfg i ↔
      FallSucc branchToTwiceDefined i x ∨
        ∃ c l, branchToTwiceDefined[i]? = some (.brl c l) ∧ LastLab branchToTwiceDefined l x :=
  buildCFG_branch_to_last_lab
    (fun i l h => by rcases i with _ | _ | _ | _ | _ | i <;> simp_all [branchToTwiceDefined])
    (fun i c l h => by
      rcases i with _ | _ | _ | _ | _ | i <;> simp [branchToTwiceDefined] at h
      obtain ⟨-, rfl⟩ := h
      exact ⟨by decide, 1, rfl⟩)

example : (buildCFG 1 branchToTwiceDefined CFG.empty).map (· 0) = some [1, 3] := by decide

end

end V3DLib
