import Mathlib.Data.List.Basic
import Mathlib.Tactic.Common

/-!
# Positions as names

A table that hands out the positions of its entries as their names: entries are appended at the
end and erased anywhere. An entry moves when one before it is erased, and its old position then
names another entry, or none. `Edit.getElem?_run_iff` says exactly when a position still names the
entry it was handed out for.
-/

namespace Dispatch

variable {α : Type}

/-- What happens to the table. -/
inductive Edit (α : Type) where
  | push (a : α)
  | erase (i : ℕ)

namespace Edit

def apply (T : List α) : Edit α → List α
  | .push a => T ++ [a]
  | .erase i => T.eraseIdx i

/-- The table after a sequence of edits. -/
def run (T : List α) (es : List (Edit α)) : List α := es.foldl apply T

@[simp] lemma run_nil (T : List α) : run T [] = T := rfl

@[simp] lemma run_cons (T : List α) (e : Edit α) (es : List (Edit α)) :
    run T (e :: es) = run (apply T e) es := rfl

lemma run_append (T : List α) (es es' : List (Edit α)) :
    run T (es ++ es') = run (run T es) es' := List.foldl_append

/-- Appending another entry adds no position of `a`. -/
lemma getElem?_push_iff {T : List α} {a b : α} (hb : a ≠ b) (j : ℕ) :
    (apply T (.push b))[j]? = some a ↔ T[j]? = some a := by
  rw [apply, List.getElem?_append]
  split_ifs with hj
  · rfl
  · rw [List.getElem?_eq_none (by omega : T.length ≤ j), List.getElem?_singleton]
    split_ifs <;> simp [hb.symm]

lemma getElem?_erase (T : List α) (m j : ℕ) :
    (apply T (.erase m))[j]? = if j < m then T[j]? else T[j + 1]? := List.getElem?_eraseIdx

/-- Positions of an entry never grow. -/
lemma lt_of_getElem?_run {T : List α} {a : α} {i j : ℕ} {es : List (Edit α)}
    (hpush : Edit.push a ∉ es) (hT : ∀ k, T[k]? = some a → k < i) (hj : (run T es)[j]? = some a) :
    j < i := by
  induction es generalizing T with
  | nil => exact hT j hj
  | cons e es ih =>
    refine ih (fun h => hpush (List.mem_cons_of_mem e h)) (fun k hk => ?_) hj
    cases e with
    | push b =>
      have hb : a ≠ b := fun h => hpush (by simp [h])
      exact hT k ((getElem?_push_iff hb k).mp hk)
    | erase m =>
      rw [getElem?_erase] at hk
      split_ifs at hk with hkm
      · exact hT k hk
      · have := hT (k + 1) hk
        omega

/-- The position `i` still names `a` if and only if no entry at or before it was erased. -/
theorem getElem?_run_iff {T : List α} {a : α} {i : ℕ} {es : List (Edit α)}
    (hpush : Edit.push a ∉ es) (hi : T[i]? = some a) (honly : ∀ j, T[j]? = some a → j = i) :
    (run T es)[i]? = some a ↔ ∀ j, Edit.erase j ∈ es → i < j := by
  induction es generalizing T with
  | nil => simpa using hi
  | cons e es ih =>
    have hpush' : Edit.push a ∉ es := fun h => hpush (List.mem_cons_of_mem e h)
    rw [run_cons]
    cases e with
    | push b =>
      have hb : a ≠ b := fun h => hpush (by simp [h])
      rw [ih hpush' ((getElem?_push_iff hb i).mpr hi) fun j hj =>
        honly j ((getElem?_push_iff hb j).mp hj)]
      simp
    | erase m =>
      by_cases him : i < m
      · -- the entry stays where it is
        rw [ih hpush' (by rw [getElem?_erase, if_pos him, hi]) fun j hj => ?_]
        · simp [him]
        · rw [getElem?_erase] at hj
          split_ifs at hj with hjm
          · exact honly j hj
          · have := honly (j + 1) hj
            omega
      · -- the entry moves down or is gone, for good
        have hlt : ∀ k, (apply T (.erase m))[k]? = some a → k < i := by
          intro k hk
          rw [getElem?_erase] at hk
          split_ifs at hk with hkm
          · have := honly k hk
            omega
          · have := honly (k + 1) hk
            omega
        constructor
        · intro h
          exact absurd (lt_of_getElem?_run hpush' hlt h) (Nat.lt_irrefl i)
        · intro h
          exact absurd (h m (by simp)) him

end Edit

end Dispatch
