import MySQLPlugin.Threads.Sequential

/-!
# Loops

A loop runs its body again and again, each time from the value that the last run has returned, until
the body returns a result.
-/

namespace Threads

open Prog

variable {A : Type → Type} {ε σ θ ρ γ α : Type} {M : Machine A ε σ θ ρ} {t : θ}
  {body : γ → Prog A ε (γ ⊕ α)} {x : γ} {s s' : σ} {o : Except ε α}

/-- The body is repeated from `x` on until it returns a result or faults. -/
inductive Loop (M : Machine A ε σ θ ρ) (t : θ) (body : γ → Prog A ε (γ ⊕ α)) :
    γ → σ → Except ε α → σ → Prop
  | done {x : γ} {y : α} {s s' : σ} :
      Run M t (body x) s (.ok (.inr y)) s' → Loop M t body x s (.ok y) s'
  | fault {x : γ} {e : ε} {s s' : σ} :
      Run M t (body x) s (.error e) s' → Loop M t body x s (.error e) s'
  | again {x x' : γ} {s s₁ s' : σ} {o : Except ε α} :
      Run M t (body x) s (.ok (.inl x')) s₁ → Loop M t body x' s₁ o s' → Loop M t body x s o s'

section

variable {J : γ → σ → Prop} {E : ε → σ → Prop} {Q : α → σ → Prop}

/-- What holds before every run of the body leads to what holds at the end of the loop. -/
lemma Loop.ends (hJ : ∀ x s, J x s → (body x).wp M t E (Sum.elim J Q) s)
    (h : Loop M t body x s o s') (hs : J x s) :
    (∀ y, o = .ok y → Q y s') ∧ ∀ e, o = .error e → E e s' := by
  induction h with
  | done hrun =>
    refine ⟨fun y hy => ?_, fun e he => by cases he⟩
    obtain rfl := Except.ok.inj hy
    exact ((wp_iff _ _ _).mp (hJ _ _ hs)).1 _ _ hrun
  | fault hrun =>
    refine ⟨fun y hy => (by cases hy), fun e he => ?_⟩
    obtain rfl := Except.error.inj he
    exact ((wp_iff _ _ _).mp (hJ _ _ hs)).2 _ _ hrun
  | again hrun _ ih => exact ih (((wp_iff _ _ _).mp (hJ _ _ hs)).1 _ _ hrun)

end

end Threads
