import MySQLPlugin.Threads.Interleaving

/-!
# Statements in their order

A protocol says which statement a program may execute after which: it has stages, a stage allows
statements, and a statement leads to the next stage. What every allowed statement keeps, stage by
stage, is kept by every program that follows the protocol, in both readings of programs.
-/

namespace Threads

/-- The stages `G`, the statements that a stage allows, and the stage after a statement has returned
a value. -/
structure Protocol (A : Type → Type) (G : Type) where
  allows : ∀ {β : Type}, G → A β → Prop
  after : ∀ {β : Type}, G → A β → β → G

namespace Prog

variable {A : Type → Type} {ε σ θ ρ α β G : Type} {π : Protocol A G}

/-- From stage `g` on the program executes only statements that are allowed. -/
def Follows (π : Protocol A G) : Prog A ε α → G → Prop
  | .ret _, _ => True
  | .fail _, _ => True
  | .act a k, g => π.allows g a ∧ ∀ b, (k b).Follows π (π.after g a b)

variable {g : G}

@[simp] lemma follows_ret (x : α) : (Prog.ret x : Prog A ε α).Follows π g := trivial

@[simp] lemma follows_fail (e : ε) : (Prog.fail e : Prog A ε α).Follows π g := trivial

@[simp] lemma follows_lift (a : A α) : (lift a : Prog A ε α).Follows π g ↔ π.allows g a := by
  simp [lift, Follows]

lemma follows_lift_bind (a : A β) (f : β → Prog A ε α) :
    (lift a >>= f).Follows π g ↔ π.allows g a ∧ ∀ b, (f b).Follows π (π.after g a b) := Iff.rfl

lemma follows_ite {c : Prop} [Decidable c] (p q : Prog A ε α) :
    (if c then p else q).Follows π g ↔ (c → p.Follows π g) ∧ (¬c → q.Follows π g) := by
  split_ifs with h <;> simp [h]

/-- The second program is allowed at every stage. -/
lemma Follows.bind {p : Prog A ε α} {f : α → Prog A ε β} (hp : p.Follows π g)
    (hf : ∀ x g, (f x).Follows π g) : (p >>= f).Follows π g := by
  induction p generalizing g with
  | ret x => exact hf x g
  | fail e => trivial
  | act a k ih => exact ⟨hp.1, fun b => ih b (hp.2 b)⟩

lemma Follows.forEach {f : α → Prog A ε Unit} (l : List α) (hf : ∀ x g, (f x).Follows π g) :
    (forEach l f).Follows π g := by
  induction l generalizing g with
  | nil => trivial
  | cons x l ih => exact (hf x g).bind fun _ _ => ih

/-! ### What a protocol keeps -/

variable {M : Machine A ε σ θ ρ} {t : θ} {P : ∀ {β : Type}, A β → Prop} {J : G → σ → Prop}
  {E : ε → σ → Prop} {p : Prog A ε α} {s : σ}

/-- A program that follows the protocol keeps what its statements keep. -/
lemma wp_of_follows (hp : p.All P) (hπ : p.Follows π g)
    (hok : ∀ {β : Type} g (a : A β) s b s', P a → π.allows g a → J g s → M.Step t a s (.ok b) s' →
      J (π.after g a b) s')
    (herr : ∀ {β : Type} g (a : A β) s e s', P a → π.allows g a → J g s →
      M.Step t a s (.error e) s' → E e s')
    (hE : ∀ g e s, J g s → E e s) (hs : J g s) : p.wp M t E (fun _ s' => ∃ g, J g s') s := by
  induction p generalizing g s with
  | ret x => exact ⟨g, hs⟩
  | fail e => exact hE g e s hs
  | act a k ih =>
    exact ⟨fun b s' hst => ih b (hp.2 b) (hπ.2 b) (hok g a s b s' hp.1 hπ.1 hs hst),
      fun e s' hst => herr g a s e s' hp.1 hπ.1 hs hst⟩

/-- The same among other threads. -/
lemma relies_of_follows {rely : θ → Set (σ → Prop)} (hp : p.All P) (hπ : p.Follows π g)
    (hJ : ∀ g, Stable (rely t) (J g))
    (hok : ∀ {β : Type} g (a : A β) s b s', P a → π.allows g a → J g s → M.Step t a s (.ok b) s' →
      Guarantees rely t s s' ∧ J (π.after g a b) s')
    (herr : ∀ {β : Type} g (a : A β) s e s', P a → π.allows g a → J g s →
      M.Step t a s (.error e) s' → Guarantees rely t s s')
    (hs : J g s) : p.Relies M rely t (fun _ s' => ∃ g, J g s') s := by
  induction p generalizing g s with
  | ret x => exact fun s' hk => ⟨g, hJ g s s' hk hs⟩
  | fail e => trivial
  | act a k ih =>
    intro s₁ hk
    have hs₁ := hJ g s s₁ hk hs
    refine ⟨fun b s₂ hst => ?_, fun e s₂ hst => herr g a s₁ e s₂ hp.1 hπ.1 hs₁ hst⟩
    obtain ⟨hg, hs₂⟩ := hok g a s₁ b s₂ hp.1 hπ.1 hs₁ hst
    exact ⟨hg, ih b (hp.2 b) (hπ.2 b) hs₂⟩

end Prog

end Threads
