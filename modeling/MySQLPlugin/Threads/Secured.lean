import MySQLPlugin.Threads.Interleaving

/-!
# Threads that keep to a policy

A policy says in which states a thread may execute a statement, and in which faults it may end.
`Prog.Secures` is the rely-guarantee judgement of a program that keeps to a policy among other
threads. `SecureOutline` collects the judgements of all threads: in every reachable configuration
the next statement of every thread is permitted, and a thread that has failed was allowed to.
-/

namespace Threads

variable {A : Type → Type} {ε σ θ ρ C α β : Type}

/-! ### Relying on relations -/

/-- The predicates that every step in `R` keeps. -/
def closedUnder (R : σ → σ → Prop) : Set (σ → Prop) := {P | ∀ s s', R s s' → P s → P s'}

lemma keeps_closedUnder {R : σ → σ → Prop} {s s' : σ} (h : R s s') : Keeps (closedUnder R) s s' :=
  fun _ hP => hP s s' h

lemma stable_closedUnder {R : σ → σ → Prop} {P : σ → Prop} (h : ∀ s s', R s s' → P s → P s') :
    Stable (closedUnder R) P := .of_mem h

/-! ### Programs that keep to a policy -/

/-- When a thread may execute a statement, and how it may fail. -/
structure Policy (A : Type → Type) (ε σ θ : Type) : Type 1 where
  may : ∀ {β : Type}, θ → A β → σ → Prop
  fails : θ → ε → Prop

namespace Prog

variable {M : Machine A ε σ θ ρ} {rely : θ → Set (σ → Prop)} {π : Policy A ε σ θ} {t : θ}

/-- Run by thread `t` among threads that keep what `t` relies on, the program executes permitted
statements only, keeps what the others rely on, fails only as it may, and `Q` holds of its result. -/
def Secures (M : Machine A ε σ θ ρ) (rely : θ → Set (σ → Prop)) (π : Policy A ε σ θ) (t : θ) :
    Prog A ε α → (α → σ → Prop) → σ → Prop
  | .ret x, Q, s => ∀ s', Keeps (rely t) s s' → Q x s'
  | .fail e, _, _ => π.fails t e
  | .act a k, Q, s => ∀ s₁, Keeps (rely t) s s₁ → π.may t a s₁ ∧
      (∀ b s₂, M.Step t a s₁ (.ok b) s₂ → Guarantees rely t s₁ s₂ ∧ (k b).Secures M rely π t Q s₂) ∧
      ∀ e s₂, M.Step t a s₁ (.error e) s₂ → Guarantees rely t s₁ s₂ ∧ π.fails t e

/-- The judgement survives what the other threads do. -/
lemma Secures.stable {p : Prog A ε α} {Q : α → σ → Prop} {s s' : σ}
    (h : p.Secures M rely π t Q s) (hk : Keeps (rely t) s s') : p.Secures M rely π t Q s' := by
  cases p with
  | ret x => exact fun s'' hk' => h s'' (hk.trans hk')
  | fail e => exact h
  | act a k => exact fun s'' hk' => h s'' (hk.trans hk')

lemma secures_ret {x : α} {Q : α → σ → Prop} {s : σ} (hQ : Stable (rely t) (Q x)) (h : Q x s) :
    (Prog.ret x : Prog A ε α).Secures M rely π t Q s := fun s' hk => hQ s s' hk h

/-- Rule of a statement: a stable assertion permits it; executed, it keeps what the others rely on
and leaves the rest of the program in order. -/
lemma secures_act {P : σ → Prop} {a : A β} {k : β → Prog A ε α} {Q : α → σ → Prop} {s : σ}
    (hP : Stable (rely t) P) (hs : P s) (hmay : ∀ s₁, P s₁ → π.may t a s₁)
    (hok : ∀ s₁ b s₂, P s₁ → M.Step t a s₁ (.ok b) s₂ →
      Guarantees rely t s₁ s₂ ∧ (k b).Secures M rely π t Q s₂)
    (herr : ∀ s₁ e s₂, P s₁ → M.Step t a s₁ (.error e) s₂ →
      Guarantees rely t s₁ s₂ ∧ π.fails t e) :
    (Prog.act a k).Secures M rely π t Q s := by
  intro s₁ hk
  have hs₁ := hP s s₁ hk hs
  exact ⟨hmay s₁ hs₁, fun b s₂ => hok s₁ b s₂ hs₁, fun e s₂ => herr s₁ e s₂ hs₁⟩

lemma Secures.bind {p : Prog A ε α} {f : α → Prog A ε β} {Q : β → σ → Prop} {s : σ}
    (h : p.Secures M rely π t (fun x s' => (f x).Secures M rely π t Q s') s) :
    (p >>= f).Secures M rely π t Q s := by
  induction p generalizing s with
  | ret x => exact h s (.refl _ s)
  | fail e => exact h
  | act a k ih =>
    intro s₁ hk
    obtain ⟨hmay, hok, herr⟩ := h s₁ hk
    exact ⟨hmay, fun b s₂ hst => ⟨(hok b s₂ hst).1, ih b (hok b s₂ hst).2⟩, herr⟩

lemma Secures.mono {p : Prog A ε α} {Q Q' : α → σ → Prop} {s : σ}
    (h : p.Secures M rely π t Q s) (hQ : ∀ x s', Q x s' → Q' x s') :
    p.Secures M rely π t Q' s := by
  induction p generalizing s with
  | ret x => exact fun s' hk => hQ x s' (h s' hk)
  | fail e => exact h
  | act a k ih =>
    intro s₁ hk
    obtain ⟨hmay, hok, herr⟩ := h s₁ hk
    exact ⟨hmay, fun b s₂ hst => ⟨(hok b s₂ hst).1, ih b (hok b s₂ hst).2⟩, herr⟩

/-- Frame rule: what the permitted statements of the program keep holds beside its result. -/
lemma Secures.frame {P : ∀ {β : Type}, A β → Prop} {K : σ → Prop} {p : Prog A ε α}
    {Q : α → σ → Prop} {s : σ} (h : p.Secures M rely π t Q s) (hp : p.All P)
    (hK : Stable (rely t) K)
    (hstep : ∀ {β : Type} (a : A β) s o s', P a → π.may t a s → K s → M.Step t a s o s' → K s')
    (hs : K s) : p.Secures M rely π t (fun x s' => Q x s' ∧ K s') s := by
  induction p generalizing s with
  | ret x => exact fun s' hk => ⟨h s' hk, hK s s' hk hs⟩
  | fail e => exact h
  | act a k ih =>
    intro s₁ hk
    obtain ⟨hmay, hok, herr⟩ := h s₁ hk
    have hs₁ := hK s s₁ hk hs
    refine ⟨hmay, fun b s₂ hst => ⟨(hok b s₂ hst).1, ?_⟩, herr⟩
    exact ih b (hok b s₂ hst).2 (hp.2 b) (hstep a s₁ _ s₂ hp.1 hmay hs₁ hst)

/-- Rule of a loop: `J l` holds when the elements `l` have been visited. -/
lemma secures_forEach {J : List β → σ → Prop} {f : β → Prog A ε Unit} {xs : List β}
    (hJ : ∀ l, Stable (rely t) (J l))
    (hf : ∀ l x l' s, xs = l ++ x :: l' → J l s →
      (f x).Secures M rely π t (fun _ => J (l ++ [x])) s) {s : σ} (hs : J [] s) :
    (forEach xs f).Secures M rely π t (fun _ => J xs) s := by
  have hrest (l l' : List β) {s : σ} (hxs : xs = l ++ l') (hs : J l s) :
      (forEach l' f).Secures M rely π t (fun _ => J xs) s := by
    induction l' generalizing l s with
    | nil =>
      rw [List.append_nil] at hxs
      subst hxs
      exact fun s' hk => hJ xs s s' hk hs
    | cons x l' ih =>
      rw [forEach_cons]
      refine .bind ((hf l x l' s hxs hs).mono fun _ s' hs' => ih (l ++ [x]) ?_ hs')
      rw [hxs, List.append_assoc, List.singleton_append]
  exact hrest [] xs rfl hs

end Prog

/-! ### Proof outlines -/

/-- A proof outline of threads that keep to the policy `π`. -/
structure SecureOutline (M : Machine A ε σ θ ρ) (code : Code A ε θ C) (π : Policy A ε σ θ) where
  rely : θ → Set (σ → Prop)
  holdsAt : θ → C → σ → Prop
  stable : ∀ t x, Stable (rely t) (holdsAt t x)
  secures : ∀ t x p s, code t x p → holdsAt t x s →
    p.Secures M rely π t (fun y s' => holdsAt t y s') s

namespace SecureOutline

variable {M : Machine A ε σ θ ρ} {code : Code A ε θ C} {π : Policy A ε σ θ}

/-- The outline holds of the thread's place. -/
def HoldsOf (O : SecureOutline M code π) (t : θ) : Local A ε C → σ → Prop
  | .at x, s => O.holdsAt t x s
  | .inside _ p, s => p.Secures M O.rely π t (fun y s' => O.holdsAt t y s') s

lemma HoldsOf.stable {O : SecureOutline M code π} {t : θ} {l : Local A ε C} {s s' : σ}
    (h : O.HoldsOf t l s) (hk : Keeps (O.rely t) s s') : O.HoldsOf t l s' := by
  cases l with
  | «at» x => exact O.stable t x s s' hk h
  | inside x p => exact Prog.Secures.stable h hk

variable [DecidableEq θ]

/-- The thread that moves reaches a place where its outline holds; the others stay in order. -/
lemma HoldsOf.move {O : SecureOutline M code π} {c : Config A ε σ θ C} {t : θ} {l : Local A ε C}
    {s : σ} (hl : O.HoldsOf t l s) (hc : ∀ u, O.HoldsOf u (c.place u) c.shared)
    (hg : Guarantees O.rely t c.shared s) (u : θ) :
    O.HoldsOf u ((c.move t l s).place u) (c.move t l s).shared := by
  by_cases hu : u = t
  · subst hu
    simpa [Config.move] using hl
  · simpa [Config.move, Function.update_of_ne hu] using (hc u).stable (hg u hu)

/-- One step keeps the outlines of all threads, and is a guarantee of the thread that moved. -/
lemma step {O : SecureOutline M code π} {c c' : Config A ε σ θ C}
    (hc : ∀ u, O.HoldsOf u (c.place u) c.shared) (h : c.Step M code c') :
    (∀ u, O.HoldsOf u (c'.place u) c'.shared) ∧ ∃ t, Guarantees O.rely t c.shared c'.shared := by
  have hrests (t : θ) : Guarantees O.rely t c.shared c.shared := fun _ _ => .refl _ _
  cases h with
  | @start t x p hat hcode =>
    have ht : O.HoldsOf t (.at x) c.shared := hat ▸ hc t
    have hinside : O.HoldsOf t (.inside x p) c.shared := O.secures t x p c.shared hcode ht
    exact ⟨hinside.move hc (hrests t), t, hrests t⟩
  | @act t x β a k b s hat hst =>
    have ht : O.HoldsOf t (.inside x (.act a k)) c.shared := hat ▸ hc t
    obtain ⟨-, hok, -⟩ := ht c.shared (.refl _ _)
    have hinside : O.HoldsOf t (.inside x (k b)) s := (hok b s hst).2
    exact ⟨hinside.move hc (hok b s hst).1, t, (hok b s hst).1⟩
  | @fault t x β a k e s hat hst =>
    have ht : O.HoldsOf t (.inside x (.act a k)) c.shared := hat ▸ hc t
    obtain ⟨-, -, herr⟩ := ht c.shared (.refl _ _)
    have hinside : O.HoldsOf t (.inside x (.fail e)) s := (herr e s hst).2
    exact ⟨hinside.move hc (herr e s hst).1, t, (herr e s hst).1⟩
  | @finish t x y hat =>
    have ht : O.HoldsOf t (.inside x (.ret y)) c.shared := hat ▸ hc t
    have hpoint : O.HoldsOf t (.at y) c.shared := ht c.shared (.refl _ _)
    exact ⟨hpoint.move hc (hrests t), t, hrests t⟩

/-- In every reachable configuration the outline of every thread holds of its place. -/
theorem sound {O : SecureOutline M code π} {c₀ c : Config A ε σ θ C}
    (h₀ : ∀ u, O.HoldsOf u (c₀.place u) c₀.shared) (h : Config.Reachable M code c₀ c) :
    ∀ u, O.HoldsOf u (c.place u) c.shared := by
  induction h with
  | start => exact h₀
  | next _ hst ih => exact (step ih hst).1

section

variable {O : SecureOutline M code π} {c₀ c : Config A ε σ θ C}
  (h₀ : ∀ u, O.HoldsOf u (c₀.place u) c₀.shared) (h : Config.Reachable M code c₀ c) {t : θ} {x : C}

include h₀ h

/-- The statement that a thread is about to execute is permitted. -/
lemma permitted {a : A β} {k : β → Prog A ε C} (hat : c.place t = .inside x (.act a k)) :
    π.may t a c.shared := by
  have ht := sound h₀ h t
  rw [hat] at ht
  exact (ht c.shared (.refl _ _)).1

/-- A thread that has failed was allowed to. -/
lemma failed {e : ε} (hat : c.place t = .inside x (.fail e)) : π.fails t e := by
  have ht := sound h₀ h t
  rw [hat] at ht
  exact ht

/-- A thread at a control point has what its outline says of it. -/
lemma arrived (hat : c.place t = .at x) : O.holdsAt t x c.shared := by
  have ht := sound h₀ h t
  rw [hat] at ht
  exact ht

/-- A predicate that some other thread relies on, whichever thread moves, holds in every reachable
configuration. -/
theorem invariant {I : σ → Prop} (hI : ∀ t, ∃ u, u ≠ t ∧ I ∈ O.rely u) (hI₀ : I c₀.shared) :
    I c.shared := by
  induction h with
  | start => exact hI₀
  | next hr hst ih =>
    obtain ⟨t, hg⟩ := (step (sound h₀ hr) hst).2
    obtain ⟨u, hu, hmem⟩ := hI t
    exact hg u hu I hmem ih

/-- Every statement of the run has been permitted. -/
lemma restricted :
    Config.Reachable (M.restrict fun t a _ s => π.may t a s) code c₀ c := by
  have hstep {c : Config A ε σ θ C} {t : θ} {x : C} {β : Type} {a : A β} {k : β → Prog A ε C}
      {o : Except ε β} {s : σ} (hc : Config.Reachable M code c₀ c)
      (hat : c.place t = .inside x (.act a k)) (hst : M.Step t a c.shared o s) :
      (M.restrict fun t a _ s => π.may t a s).Step t a c.shared o s := by
    obtain ⟨r, hr, he⟩ := hst
    exact ⟨r, ⟨hr, permitted h₀ hc hat⟩, he⟩
  induction h with
  | start => exact .start
  | next hc hst ih =>
    refine .next ih ?_
    cases hst with
    | start hat hcode => exact .start hat hcode
    | act hat hst => exact .act hat (hstep hc hat hst)
    | fault hat hst => exact .fault hat (hstep hc hat hst)
    | finish hat => exact .finish hat

end

end SecureOutline

end Threads
