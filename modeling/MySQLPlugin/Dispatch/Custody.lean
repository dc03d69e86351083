import Mathlib.Data.Set.Insert
import Mathlib.Data.List.Count
import Mathlib.Logic.Function.Basic

/-!
# Custody of resources

Owners `ι` hold resources `ρ`. The resources in use are exactly those held, each by one owner, and
none is released twice.
-/

namespace Dispatch

variable {ι ρ : Type*} {held : ι → Option ρ} {live : Set ρ} {i : ι} {r : ρ}

/-- The resources in use are the ones held, each by one owner. -/
structure Custody (held : ι → Option ρ) (live : Set ρ) : Prop where
  live_iff : ∀ r, r ∈ live ↔ ∃ i, held i = some r
  unique : ∀ i j r, held i = some r → held j = some r → i = j

namespace Custody

lemma nobody : Custody (fun _ : ι => none) (∅ : Set ρ) where
  live_iff := by simp
  unique := by simp

section

variable [DecidableEq ι]

/-- A resource that was not in use is given to an owner that holds none. -/
lemma take (hc : Custody held live) (hi : held i = none) (hr : r ∉ live) :
    Custody (Function.update held i (some r)) (insert r live) where
  live_iff q := by
    rw [Set.mem_insert_iff, hc.live_iff]
    constructor
    · rintro (rfl | ⟨j, hj⟩)
      · exact ⟨i, by simp⟩
      · refine ⟨j, ?_⟩
        rw [Function.update_of_ne, hj]
        rintro rfl
        rw [hi] at hj
        cases hj
    · rintro ⟨j, hj⟩
      by_cases hji : j = i
      · subst hji
        simp only [Function.update_self, Option.some.injEq] at hj
        exact .inl hj.symm
      · rw [Function.update_of_ne hji] at hj
        exact .inr ⟨j, hj⟩
  unique j k q hj hk := by
    have hother {j : ι} (hji : j ≠ i) (hj : Function.update held i (some r) j = some q) : q ≠ r := by
      rw [Function.update_of_ne hji] at hj
      exact fun heq => hr (heq ▸ (hc.live_iff q).mpr ⟨j, hj⟩)
    by_cases hji : j = i <;> by_cases hki : k = i
    · rw [hji, hki]
    · subst hji
      simp only [Function.update_self, Option.some.injEq] at hj
      exact absurd hj.symm (hother hki hk)
    · subst hki
      simp only [Function.update_self, Option.some.injEq] at hk
      exact absurd hk.symm (hother hji hj)
    · rw [Function.update_of_ne hji] at hj
      rw [Function.update_of_ne hki] at hk
      exact hc.unique j k q hj hk

/-- An owner gives its resource back. -/
lemma drop (hc : Custody held live) (hi : held i = some r) :
    Custody (Function.update held i none) (live \ {r}) where
  live_iff q := by
    rw [Set.mem_sdiff, Set.mem_singleton_iff, hc.live_iff]
    constructor
    · rintro ⟨⟨j, hj⟩, hq⟩
      refine ⟨j, ?_⟩
      rw [Function.update_of_ne, hj]
      rintro rfl
      exact hq (Option.some.inj (hj.symm.trans hi))
    · rintro ⟨j, hj⟩
      by_cases hji : j = i
      · subst hji
        simp at hj
      · rw [Function.update_of_ne hji] at hj
        refine ⟨⟨j, hj⟩, ?_⟩
        rintro rfl
        exact hji (hc.unique j i q hj hi)
  unique j k q hj hk := by
    have hback {j : ι} (hj : Function.update held i none j = some q) : held j = some q := by
      by_cases hji : j = i
      · subst hji
        simp at hj
      · rwa [Function.update_of_ne hji] at hj
    exact hc.unique j k q (hback hj) (hback hk)

end

end Custody

/-! ### Releases -/

variable {used : Set ρ} [DecidableEq ρ] {rs : List ρ}

/-- The resources `rs` have been released, each once, and are no longer in use. -/
structure Released (rs : List ρ) (live used : Set ρ) : Prop where
  once : ∀ r, rs.count r ≤ 1
  gone : ∀ r ∈ rs, r ∈ used ∧ r ∉ live

namespace Released

lemma nil (live used : Set ρ) : Released [] live used where
  once := by simp
  gone := by simp

/-- A new resource comes into use. -/
lemma take (hs : Released rs live used) (hr : r ∉ used) :
    Released rs (insert r live) (insert r used) where
  once := hs.once
  gone q hq := by
    obtain ⟨hused, hlive⟩ := hs.gone q hq
    refine ⟨Set.mem_insert_of_mem r hused, ?_⟩
    rintro (rfl | hmem)
    · exact hr hused
    · exact hlive hmem

/-- A resource in use is released. -/
lemma release (hs : Released rs live used) (hr : r ∈ live) (hused : r ∈ used) :
    Released (rs ++ [r]) (live \ {r}) used where
  once q := by
    rw [List.count_append, List.count_singleton]
    by_cases hq : r = q
    · subst hq
      have hcount : rs.count r = 0 := List.count_eq_zero.mpr fun hmem => (hs.gone r hmem).2 hr
      simp [hcount]
    · simpa [hq] using hs.once q
  gone q hq := by
    rcases List.mem_append.mp hq with hq | hq
    · exact ⟨(hs.gone q hq).1, fun hmem => (hs.gone q hq).2 hmem.1⟩
    · obtain rfl := List.mem_singleton.mp hq
      exact ⟨hused, fun hmem => hmem.2 rfl⟩

end Released

end Dispatch
