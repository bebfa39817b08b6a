import Mathlib.Data.List.Forall2
import Mathlib.Algebra.Order.Ring.Nat
import Mathlib.Algebra.Order.Ring.Int

/-!
# Loops that may fail

The C `for (i = 0; i < n; i++)` loops of the passes are folds of their body over `[0, n)`;
a body that may stop the program (an `assert`, a fatal `error`) runs in `Option` or
`Except String`. These are the facts about such loops the passes share, and the inversion of
`Except`'s `bind` and `map`.

## Main results

* `foldlM_range_of_step`: a body that keeps an invariant and never fails runs to the end.
* `foldlM_range_eq_none`: a body that fails at one step from every state fails the loop.
* `foldlM_range_ok`, `foldlM_range_error`: the two ways an `Except` loop ends.
* `appendEach_eq_ok`, `appendEach_eq_error`: the same for a loop that appends each element's
  output to an accumulator, as the top-level encoders do.
-/

namespace V3DLib

/-! ### `Except` -/

theorem except_pure {ε α : Type} (a : α) : (pure a : Except ε α) = .ok a := rfl

@[simp] theorem except_ok_bind {ε α β : Type} (a : α) (f : α → Except ε β) :
    (Except.ok a : Except ε α) >>= f = f a := rfl

@[simp] theorem except_error_bind {ε α β : Type} (e : ε) (f : α → Except ε β) :
    (Except.error e : Except ε α) >>= f = .error e := rfl

theorem except_bind_eq_ok {ε α β : Type} {x : Except ε α} {f : α → Except ε β} {b : β} :
    x >>= f = .ok b ↔ ∃ a, x = .ok a ∧ f a = .ok b := by
  cases x <;> simp [bind, Except.bind]

theorem except_bind_eq_error {ε α β : Type} {x : Except ε α} {f : α → Except ε β} {e : ε} :
    x >>= f = .error e ↔ x = .error e ∨ ∃ a, x = .ok a ∧ f a = .error e := by
  cases x <;> simp [bind, Except.bind]

theorem except_map_eq_ok {ε α β : Type} {f : α → β} {x : Except ε α} {b : β} :
    f <$> x = .ok b ↔ ∃ a, x = .ok a ∧ f a = b := by
  cases x <;> simp [Functor.map, Except.map]

theorem except_map_eq_error {ε α β : Type} {f : α → β} {x : Except ε α} {e : ε} :
    f <$> x = .error e ↔ x = .error e := by
  cases x <;> simp [Functor.map, Except.map]

/-- The first component of what either branch of an `if` returns, when both agree on it. -/
theorem except_ite_fst {ε α β : Type} {c : Prop} [Decidable c] {x y : Except ε (α × β)}
    {a a' : α} {b' : β} (hx : ∀ a₁ b₁, x = .ok (a₁, b₁) → a = a₁)
    (hy : ∀ a₁ b₁, y = .ok (a₁, b₁) → a = a₁) (h : (if c then x else y) = .ok (a', b')) :
    a' = a := by
  split at h
  · exact (hx _ _ h).symm
  · exact (hy _ _ h).symm

theorem foldlM_range_succ {ε α : Type} (f : α → Nat → Except ε α) (a₀ : α) (k : Nat) :
    (List.range (k + 1)).foldlM f a₀ = (List.range k).foldlM f a₀ >>= fun a => f a k := by
  simp [List.range_succ, List.foldlM_append]

/-- An invariant that every successful step keeps holds after a successful loop. -/
theorem foldlM_range_ok {ε α : Type} {f : α → Nat → Except ε α} {P : Nat → α → Prop} {a₀ : α}
    (h₀ : P 0 a₀) (hstep : ∀ k a a', P k a → f a k = .ok a' → P (k + 1) a') :
    ∀ n a, (List.range n).foldlM f a₀ = .ok a → P n a
  | 0, a, h => by cases h; exact h₀
  | k + 1, a, h => by
    rw [foldlM_range_succ] at h
    cases hk : (List.range k).foldlM f a₀ with
    | error e => rw [hk] at h; cases h
    | ok b => rw [hk] at h; exact hstep k b a (foldlM_range_ok h₀ hstep k b hk) h

/-- A failed loop failed at some step, after a successful prefix. -/
theorem foldlM_range_error {ε α : Type} {f : α → Nat → Except ε α} {a₀ : α} {e : ε} :
    ∀ n, (List.range n).foldlM f a₀ = .error e →
      ∃ k < n, ∃ a, (List.range k).foldlM f a₀ = .ok a ∧ f a k = .error e
  | 0, h => by cases h
  | k + 1, h => by
    rw [foldlM_range_succ] at h
    cases hk : (List.range k).foldlM f a₀ with
    | error e' =>
      rw [hk] at h; cases h
      obtain ⟨j, hj, a, ha, hf⟩ := foldlM_range_error k hk
      exact ⟨j, by omega, a, ha, hf⟩
    | ok b => rw [hk] at h; exact ⟨k, by omega, b, hk, h⟩

/-! ### `Option` -/

/-- A `for (i = 0; i < n; i++)` loop whose body may fail: if the body keeps `P` going from
    `i` to `i + 1`, the first `k` iterations succeed and end in a state satisfying `P k`. -/
theorem foldlM_range_of_step {α : Type} {n : Nat} {f : α → Nat → Option α} {P : Nat → α → Prop}
    {a₀ : α} (h₀ : P 0 a₀) (hstep : ∀ k a, k < n → P k a → ∃ a', f a k = some a' ∧ P (k + 1) a') :
    ∀ k ≤ n, ∃ a, (List.range k).foldlM f a₀ = some a ∧ P k a
  | 0, _ => ⟨a₀, rfl, h₀⟩
  | k + 1, hk => by
    obtain ⟨a, hrun, ha⟩ := foldlM_range_of_step h₀ hstep k (by omega)
    obtain ⟨a', hf, ha'⟩ := hstep k a (by omega) ha
    exact ⟨a', by simp [List.range_succ, hrun, hf], ha'⟩

/-- A loop whose body fails at step `i` from every state fails, whether it gets that far or not. -/
theorem foldlM_range_eq_none {α : Type} {f : α → Nat → Option α} {i : Nat}
    (hf : ∀ a, f a i = none) : ∀ n, i < n → ∀ a₀, (List.range n).foldlM f a₀ = none
  | 0, h, _ => absurd h (Nat.not_lt_zero i)
  | n + 1, h, a₀ => by
    rw [List.range_succ, List.foldlM_append]
    rcases Nat.lt_succ_iff_lt_or_eq.1 h with h | rfl
    · rw [foldlM_range_eq_none hf n h a₀]; rfl
    · cases (List.range i).foldlM f a₀ with
      | none => rfl
      | some a => simp [hf a]

/-! ### Appending loops

The top-level encoders run `for (i = 0; i < n; i++) { w = encodeInstr(instrs[i]); append(w) }`:
each element's output is appended to the accumulator in order, and the first failure stops
the loop. -/

section AppendEach

variable {ε α β γ : Type} (f : α → Except ε γ) (g : γ → List β)

/-- Appends `g w` to `acc` for the output `w` of `f` at each element of `xs` in turn. -/
def appendEach (xs : List α) (acc : List β) : Except ε (List β) :=
  xs.foldlM (fun acc x => do let w ← f x; pure (acc ++ g w)) acc

variable {f g}

theorem appendEach_cons (x : α) (xs : List α) (acc : List β) :
    appendEach f g (x :: xs) acc = f x >>= fun w => appendEach f g xs (acc ++ g w) := by
  simp only [appendEach, List.foldlM_cons, bind_assoc, except_pure, except_ok_bind]

/-- The loop succeeds exactly when every element's output does, and returns them appended. -/
theorem appendEach_eq_ok : ∀ {xs : List α} {acc out : List β},
    appendEach f g xs acc = .ok out ↔
      ∃ ws, List.Forall₂ (fun x w => f x = .ok w) xs ws ∧ out = acc ++ ws.flatMap g
  | [], acc, out => by simp [appendEach, except_pure, eq_comm]
  | x :: xs, acc, out => by
    simp only [appendEach_cons, except_bind_eq_ok, appendEach_eq_ok, List.forall₂_cons_left_iff]
    constructor
    · rintro ⟨w, hw, ws, hws, rfl⟩
      exact ⟨w :: ws, ⟨w, ws, hw, hws, rfl⟩, by simp⟩
    · rintro ⟨_, ⟨w, ws, hw, hws, rfl⟩, rfl⟩
      exact ⟨w, hw, ws, hws, by simp⟩

/-- The loop fails exactly with the error of the first element whose output fails. -/
theorem appendEach_eq_error : ∀ {xs : List α} {acc : List β} {e : ε},
    appendEach f g xs acc = .error e ↔
      ∃ pre x post, xs = pre ++ x :: post ∧ (∀ y ∈ pre, ∃ w, f y = .ok w) ∧ f x = .error e
  | [], acc, e => by simp [appendEach, except_pure]
  | x :: xs, acc, e => by
    rw [appendEach_cons, except_bind_eq_error]
    constructor
    · rintro (hx | ⟨w, hw, h⟩)
      · exact ⟨[], x, xs, rfl, by simp, hx⟩
      · obtain ⟨pre, y, post, rfl, hpre, hy⟩ := appendEach_eq_error.mp h
        exact ⟨x :: pre, y, post, rfl, by simpa [hw] using hpre, hy⟩
    · rintro ⟨_ | ⟨z, pre⟩, y, post, h, hpre, hy⟩
      · obtain ⟨rfl, rfl⟩ := List.cons_eq_cons.mp h
        exact .inl hy
      · obtain ⟨rfl, rfl⟩ := List.cons_eq_cons.mp h
        obtain ⟨w, hw⟩ := hpre x (by simp)
        refine .inr ⟨w, hw, appendEach_eq_error.mpr ⟨pre, y, post, rfl, fun z hz => ?_, hy⟩⟩
        exact hpre z (by simp [hz])

end AppendEach

end V3DLib
