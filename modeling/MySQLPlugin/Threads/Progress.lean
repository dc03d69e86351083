import MySQLPlugin.Threads.Secured
import MySQLPlugin.Threads.Turns

/-!
# Progress

What a thread passes on its way home. If the machine could not do certain steps, and an outline says
that the thread would then never come home, an execution in which the thread comes home does one of
these steps.
-/

namespace Threads

variable {A : Type → Type} {ε σ θ ρ C α β : Type}

namespace Prog

variable {M M' : Machine A ε σ θ ρ} {rely : θ → Set (σ → Prop)} {π : Policy A ε σ θ} {t : θ}

/-- A machine that does less keeps to the policy as well. -/
lemma Secures.narrow
    (hM : ∀ {β : Type} {a : A β} {s o s'}, M'.Step t a s o s' → M.Step t a s o s')
    {p : Prog A ε α} {Q : α → σ → Prop} {s : σ} (h : p.Secures M rely π t Q s) :
    p.Secures M' rely π t Q s := by
  induction p generalizing s with
  | ret x => exact h
  | fail e => exact h
  | act a k ih =>
    intro s₁ hk
    obtain ⟨hmay, hok, herr⟩ := h s₁ hk
    refine ⟨hmay, fun b s₂ hst => ⟨(hok b s₂ (hM hst)).1, ih b (hok b s₂ (hM hst)).2⟩, ?_⟩
    intro e s₂ hst
    exact herr e s₂ (hM hst)

/-- After a statement that the machine never executes, anything holds. -/
lemma Secures.blocked {a : A β} {k : β → Prog A ε α} {Q Q' : α → σ → Prop} {s : σ}
    (h : (Prog.act a k).Secures M rely π t Q s) (ha : ∀ s o s', ¬ M.Step t a s o s') :
    (Prog.act a k).Secures M rely π t Q' s := by
  intro s₁ hk
  obtain ⟨hmay, -, -⟩ := h s₁ hk
  exact ⟨hmay, fun b s₂ hst => absurd hst (ha _ _ _), fun e s₂ hst => absurd hst (ha _ _ _)⟩

end Prog

lemma SecureOutline.HoldsOf.narrow {M M' : Machine A ε σ θ ρ} {code : Code A ε θ C}
    {π : Policy A ε σ θ} {O : SecureOutline M code π} {O' : SecureOutline M' code π} {u : θ}
    (hM : ∀ {β : Type} {a : A β} {s o s'}, M'.Step u a s o s' → M.Step u a s o s')
    (hrely : O'.rely = O.rely) (hat : O'.holdsAt u = O.holdsAt u) {l : Local A ε C} {s : σ}
    (h : O.HoldsOf u l s) : O'.HoldsOf u l s := by
  cases l with
  | «at» x =>
    show O'.holdsAt u x s
    rw [hat]
    exact h
  | inside x p =>
    show p.Secures M' O'.rely π u (fun y s' => O'.holdsAt u y s') s
    rw [hrely, hat]
    exact Prog.Secures.narrow hM h

namespace InfiniteRun

variable [DecidableEq θ] {M : Machine A ε σ θ ρ} {code : Code A ε θ C} {c₀ : Config A ε σ θ C}
  {r : InfiniteRun M code c₀} {t : θ} {m n : ℕ}

/-- At moment `n` the thread whose turn it is executes the statement `a`. -/
def Executes (r : InfiniteRun M code c₀) (n : ℕ) {β : Type} (a : A β) : Prop :=
  (∃ x k, (r.config n).place (r.turn n) = .inside x (.act a k)) ∧
    ∃ o, M.Step (r.turn n) a (r.config n).shared o (r.config (n + 1)).shared

/-- A step whose statement is in `I` is a step of the machine restricted to `I`. -/
lemma step_restrict {I : ∀ {β : Type}, θ → A β → σ → Prop}
    (hI : ∀ {β : Type} (a : A β), r.Executes n a → I (r.turn n) a (r.config n).shared) :
    Config.StepOf (M.restrict fun t a _ s => I t a s) code (r.turn n) (r.config n)
      (r.config (n + 1)) := by
  have hrestrict {x : C} {β : Type} {a : A β} {k : β → Prog A ε C} {o : Except ε β} {s : σ}
      (hat : (r.config n).place (r.turn n) = .inside x (.act a k))
      (hst : M.Step (r.turn n) a (r.config n).shared o s)
      (hs : s = (r.config (n + 1)).shared) :
      (M.restrict fun t a _ s => I t a s).Step (r.turn n) a (r.config n).shared o s := by
    obtain ⟨reply, hreply, hexec⟩ := hst
    subst hs
    exact ⟨reply, ⟨hreply, hI a ⟨⟨x, k, hat⟩, o, reply, hreply, hexec⟩⟩, hexec⟩
  have hstep := r.step n
  generalize hc : r.config (n + 1) = c' at hstep hrestrict
  cases hstep with
  | start hat hcode => exact .start hat hcode
  | act hat hst => exact .act hat (hrestrict hat hst rfl)
  | fault hat hst => exact .fault hat (hrestrict hat hst rfl)
  | finish hat => exact .finish hat

/-- Rule of progress. From moment `n` on thread `t` runs the program `p` and then goes from point to
point. If with the statements of `I` alone the points that it reaches satisfy `J`, and no point of its
home does, it comes home only after a statement outside `I`. -/
theorem passes (O : SecureOutline M code π) (h₀ : ∀ u, O.HoldsOf u (c₀.place u) c₀.shared)
    {I : ∀ {β : Type}, θ → A β → σ → Prop} {J : C → σ → Prop} {home : C → Prop}
    (hJ : ∀ x, Stable (O.rely t) (J x)) (hhome : ∀ x s, home x → ¬ J x s)
    (hcode : ∀ x p s, code t x p → J x s →
      p.Secures (M.restrict fun t a _ s => I t a s) O.rely π t (fun y s' => J y s') s)
    (hcomes : ∀ n, ∃ m x, n ≤ m ∧ home x ∧ (r.config m).place t = .at x)
    {x : C} {p : Prog A ε C} (hat : (r.config n).place t = .inside x p)
    (hp : p.Secures (M.restrict fun t a _ s => I t a s) O.rely π t (fun y s' => J y s')
      (r.config n).shared) :
    ∃ m, n ≤ m ∧ ∃ β, ∃ a : A β, r.Executes m a ∧ ¬ I (r.turn m) a (r.config m).shared := by
  by_contra hnever
  have hI : ∀ m, n ≤ m → ∀ {β : Type} (a : A β), r.Executes m a →
      I (r.turn m) a (r.config m).shared := by
    intro m hm β a ha
    by_contra hno
    exact hnever ⟨m, hm, β, a, ha, hno⟩
  let O' : SecureOutline (M.restrict fun t a _ s => I t a s) code π :=
    { rely := O.rely
      holdsAt := Function.update O.holdsAt t J
      stable := fun u y => by
        by_cases hu : u = t
        · subst hu
          simpa using hJ y
        · simpa [Function.update_of_ne hu] using O.stable u y
      secures := fun u y q s hq hs => by
        by_cases hu : u = t
        · subst hu
          simp only [Function.update_self] at hs ⊢
          exact hcode y q s hq hs
        · simp only [Function.update_of_ne hu] at hs ⊢
          exact (O.secures u y q s hq hs).narrow fun hst => hst.of_restrict }
  have hholds : ∀ m, n ≤ m → ∀ u, O'.HoldsOf u ((r.config m).place u) (r.config m).shared := by
    intro m hm
    induction m, hm using Nat.le_induction with
    | base =>
      intro u
      by_cases hu : u = t
      · subst hu
        rw [hat]
        show p.Secures _ O.rely π u (fun y s' => Function.update O.holdsAt u J u y s') _
        simpa using hp
      · exact (SecureOutline.sound h₀ (r.reachable n) u).narrow (fun hst => hst.of_restrict) rfl
          (Function.update_of_ne hu _ _)
    | succ m hm ih => exact (SecureOutline.step ih (step_restrict (hI m hm)).step).1
  obtain ⟨m, y, hm, hy, hplace⟩ := hcomes n
  have hpoint := hholds m hm t
  rw [hplace] at hpoint
  have hJy : J y (r.config m).shared := by simpa [O', SecureOutline.HoldsOf] using hpoint
  exact hhome y _ hy hJy

end InfiniteRun

end Threads
