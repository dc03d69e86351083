import MySQLPlugin.Threads.Program

/-!
# One thread running alone

A machine says what a statement does to the shared state. It is executable: the environment
answers each statement with a reply `ρ`, and the statement is blocked, raises a fault, or returns
a value. `Machine.admits` says which replies the environment may give.

`Prog.Run` is the resulting big-step relation and `Prog.wp` the weakest precondition over all its
runs; `Prog.runWith` computes the run against a given environment.
-/

namespace Threads

/-- What the statements `A` do to a shared state `σ` when a thread `θ` executes them and the
environment replies with a `ρ`. -/
structure Machine (A : Type → Type) (ε σ θ ρ : Type) where
  /-- The effect of a statement; `none` when it is blocked in this state. -/
  exec : ∀ {β : Type}, θ → A β → ρ → σ → Option (Except ε β × σ)
  /-- The environment may give this reply to the statement in this state. -/
  admits : ∀ {β : Type}, θ → A β → ρ → σ → Prop

namespace Machine

variable {A : Type → Type} {ε σ θ ρ β : Type}

/-- Thread `t` can execute `a` in `s`, with outcome `o` and next state `s'`. -/
def Step (M : Machine A ε σ θ ρ) (t : θ) (a : A β) (s : σ) (o : Except ε β) (s' : σ) : Prop :=
  ∃ r, M.admits t a r s ∧ M.exec t a r s = some (o, s')

/-- The same machine in an environment that also respects `P`. -/
def restrict (M : Machine A ε σ θ ρ) (P : ∀ {β : Type}, θ → A β → ρ → σ → Prop) :
    Machine A ε σ θ ρ where
  exec := M.exec
  admits t a r s := M.admits t a r s ∧ P t a r s

lemma Step.of_restrict {M : Machine A ε σ θ ρ} {P : ∀ {β : Type}, θ → A β → ρ → σ → Prop}
    {t : θ} {a : A β} {s s' : σ} {o : Except ε β} (h : (M.restrict P).Step t a s o s') :
    M.Step t a s o s' := by
  obtain ⟨r, hr, he⟩ := h
  exact ⟨r, hr.1, he⟩

/-- The same machine, blocked where the check `ok` fails. -/
def checked (M : Machine A ε σ θ ρ) (ok : ∀ {β : Type}, θ → A β → ρ → σ → Bool) :
    Machine A ε σ θ ρ where
  exec t a r s := if ok t a r s then M.exec t a r s else none
  admits _ _ _ _ := True

lemma Step.of_checked {M : Machine A ε σ θ ρ} {ok : ∀ {β : Type}, θ → A β → ρ → σ → Bool}
    {P : ∀ {β : Type}, θ → A β → ρ → σ → Prop}
    (hM : ∀ {β : Type} (t : θ) (a : A β) r s, M.admits t a r s)
    (hP : ∀ {β : Type} (t : θ) (a : A β) r s, ok t a r s = true → P t a r s) {t : θ} {a : A β}
    {s s' : σ} {o : Except ε β} (h : (M.checked ok).Step t a s o s') :
    (M.restrict P).Step t a s o s' := by
  obtain ⟨r, -, he⟩ := h
  simp only [checked] at he
  split_ifs at he with hok
  exact ⟨r, ⟨hM t a r s, hP t a r s hok⟩, he⟩

end Machine

namespace Prog

variable {A : Type → Type} {ε σ θ ρ α β : Type} {M : Machine A ε σ θ ρ} {t : θ}

/-- The complete runs of a program: from a state to its outcome and the state it leaves. -/
inductive Run {A : Type → Type} {ε σ θ ρ α : Type} (M : Machine A ε σ θ ρ) (t : θ) :
    Prog A ε α → σ → Except ε α → σ → Prop
  | ret (x : α) (s : σ) : Run M t (.ret x) s (.ok x) s
  | fail (e : ε) (s : σ) : Run M t (.fail e) s (.error e) s
  | act {β : Type} {a : A β} {k : β → Prog A ε α} {s s' s'' : σ} {b : β} {o : Except ε α} :
      M.Step t a s (.ok b) s' → Run M t (k b) s' o s'' → Run M t (.act a k) s o s''
  | fault {β : Type} {a : A β} {k : β → Prog A ε α} {s s' : σ} {e : ε} :
      M.Step t a s (.error e) s' → Run M t (.act a k) s (.error e) s'

/-- A run of two programs in sequence is a run of the first, and of the second if the first
returns. -/
lemma run_bind_iff {p : Prog A ε α} {f : α → Prog A ε β} {s s' : σ} {o : Except ε β} :
    Run M t (p >>= f) s o s' ↔ (∃ x s₁, Run M t p s (.ok x) s₁ ∧ Run M t (f x) s₁ o s') ∨
      ∃ e, o = .error e ∧ Run M t p s (.error e) s' := by
  constructor
  · intro h
    induction p generalizing s with
    | ret x => exact .inl ⟨x, s, .ret x s, h⟩
    | fail e =>
      cases h
      exact .inr ⟨e, rfl, .fail e _⟩
    | act a k ih =>
      cases h with
      | act hst hrest =>
        obtain ⟨x, s₁, h₁, h₂⟩ | ⟨e, ho, h₁⟩ := ih _ hrest
        · exact .inl ⟨x, s₁, .act hst h₁, h₂⟩
        · exact .inr ⟨e, ho, .act hst h₁⟩
      | fault hst => exact .inr ⟨_, rfl, .fault hst⟩
  · rintro (⟨x, s₁, h₁, h₂⟩ | ⟨e, rfl, h₁⟩)
    · induction p generalizing s with
      | ret y =>
        cases h₁
        exact h₂
      | fail e => cases h₁
      | act a k ih =>
        cases h₁ with
        | act hst hrest => exact .act hst (ih _ hrest)
    · induction p generalizing s with
      | ret y => cases h₁
      | fail e =>
        cases h₁
        exact .fail e _
      | act a k ih =>
        cases h₁ with
        | act hst hrest => exact .act hst (ih _ hrest)
        | fault hst => exact .fault hst

lemma run_lift_bind_iff {a : A α} {f : α → Prog A ε β} {s s' : σ} {o : Except ε β} :
    Run M t (lift a >>= f) s o s' ↔
      (∃ x s₁, M.Step t a s (.ok x) s₁ ∧ Run M t (f x) s₁ o s') ∨
        ∃ e, o = .error e ∧ M.Step t a s (.error e) s' := by
  constructor
  · intro h
    cases h with
    | act hst hrest => exact .inl ⟨_, _, hst, hrest⟩
    | fault hst => exact .inr ⟨_, rfl, hst⟩
  · rintro (⟨x, s₁, hst, hrest⟩ | ⟨e, rfl, hst⟩)
    · exact .act hst hrest
    · exact .fault hst

/-- A machine that can do more has more runs. -/
lemma Run.mono {M' : Machine A ε σ θ ρ}
    (hM : ∀ {β : Type} {a : A β} {s s' : σ} {o : Except ε β}, M.Step t a s o s' → M'.Step t a s o s')
    {p : Prog A ε α} {s s' : σ} {o : Except ε α} (h : Run M t p s o s') : Run M' t p s o s' := by
  induction h with
  | ret x s => exact .ret x s
  | fail e s => exact .fail e s
  | act hst _ ih => exact .act (hM hst) ih
  | fault hst => exact .fault (hM hst)

/-- The same where the second machine can do more of the statements of the program. -/
lemma Run.mono_all {M' : Machine A ε σ θ ρ} {P : ∀ {β : Type}, A β → Prop}
    (hM : ∀ {β : Type} (a : A β) s o s', P a → M.Step t a s o s' → M'.Step t a s o s')
    {p : Prog A ε α} (hp : p.All P) {s s' : σ} {o : Except ε α} (h : Run M t p s o s') :
    Run M' t p s o s' := by
  induction h with
  | ret x s => exact .ret x s
  | fail e s => exact .fail e s
  | act hst _ ih => exact .act (hM _ _ _ _ hp.1 hst) (ih (hp.2 _))
  | fault hst => exact .fault (hM _ _ _ _ hp.1 hst)

/-- Two continuations that agree on what a program can return make the same runs. -/
lemma run_bind_congr {p : Prog A ε α} {f g : α → Prog A ε β} {s s' : σ} {o : Except ε β}
    (hfg : ∀ x s₁, Run M t p s (.ok x) s₁ → (Run M t (f x) s₁ o s' ↔ Run M t (g x) s₁ o s')) :
    Run M t (p >>= f) s o s' ↔ Run M t (p >>= g) s o s' := by
  rw [run_bind_iff, run_bind_iff]
  refine or_congr_left ?_
  constructor
  · rintro ⟨x, s₁, h₁, h₂⟩
    exact ⟨x, s₁, h₁, (hfg x s₁ h₁).mp h₂⟩
  · rintro ⟨x, s₁, h₁, h₂⟩
    exact ⟨x, s₁, h₁, (hfg x s₁ h₁).mpr h₂⟩

/-- A change of the state that commutes with every statement of a program commutes with its runs. -/
lemma Run.map {P : ∀ {β : Type}, A β → Prop} {φ : σ → σ}
    (hφ : ∀ {β : Type} (a : A β) s o s', P a → M.Step t a s o s' → M.Step t a (φ s) o (φ s'))
    {p : Prog A ε α} (hp : p.All P) {s s' : σ} {o : Except ε α} (h : Run M t p s o s') :
    Run M t p (φ s) o (φ s') := by
  induction h with
  | ret x s => exact .ret x _
  | fail e s => exact .fail e _
  | act hst _ ih => exact .act (hφ _ _ _ _ hp.1 hst) (ih (hp.2 _))
  | fault hst => exact .fault (hφ _ _ _ _ hp.1 hst)

/-- What every statement of a program preserves holds wherever a run of it ends. -/
lemma Run.invariant {P : ∀ {β : Type}, A β → Prop} {I : σ → Prop}
    (hI : ∀ {β : Type} (a : A β) s o s', P a → I s → M.Step t a s o s' → I s') {p : Prog A ε α}
    (hp : p.All P) {s s' : σ} {o : Except ε α} (h : Run M t p s o s') (hs : I s) : I s' := by
  induction h with
  | ret x s => exact hs
  | fail e s => exact hs
  | act hst _ ih => exact ih (hp.2 _) (hI _ _ _ _ hp.1 hs hst)
  | fault hst => exact hI _ _ _ _ hp.1 hs hst

/-- A run of `p` from `s` comes to a point where `q` is left to be run, in the state `s'`. -/
inductive Gets {A : Type → Type} {ε σ θ ρ α : Type} (M : Machine A ε σ θ ρ) (t : θ) :
    Prog A ε α → σ → Prog A ε α → σ → Prop
  | refl (p : Prog A ε α) (s : σ) : Gets M t p s p s
  | act {β : Type} {a : A β} {k : β → Prog A ε α} {q : Prog A ε α} {s s' s'' : σ} {b : β} :
      M.Step t a s (.ok b) s' → Gets M t (k b) s' q s'' → Gets M t (.act a k) s q s''

lemma Gets.lift {a : A β} {k : β → Prog A ε α} {q : Prog A ε α} {s s' s'' : σ} {b : β}
    (hst : M.Step t a s (.ok b) s') (h : Gets M t (k b) s' q s'') :
    Gets M t (lift a >>= k) s q s'' := .act hst h

lemma Gets.invariant {I : σ → Prop}
    (hI : ∀ {β : Type} {a : A β} {s s' : σ} {o : Except ε β}, M.Step t a s o s' → I s → I s')
    {p q : Prog A ε α} {s s' : σ} (h : Gets M t p s q s') (hs : I s) : I s' := by
  induction h with
  | refl p s => exact hs
  | act hst _ ih => exact ih (hI hst hs)

/-- The weakest precondition of a program over all its runs: a run that returns ends in `Q`, a run
that faults in `E`. -/
def wp (M : Machine A ε σ θ ρ) (t : θ) (E : ε → σ → Prop) :
    Prog A ε α → (α → σ → Prop) → σ → Prop
  | .ret x, Q, s => Q x s
  | .fail e, _, s => E e s
  | .act a k, Q, s => (∀ b s', M.Step t a s (.ok b) s' → (k b).wp M t E Q s') ∧
      ∀ e s', M.Step t a s (.error e) s' → E e s'

variable {E : ε → σ → Prop}

@[simp] lemma wp_ret (x : α) (Q : α → σ → Prop) (s : σ) :
    (Prog.ret x : Prog A ε α).wp M t E Q s ↔ Q x s := Iff.rfl

@[simp] lemma wp_fail (e : ε) (Q : α → σ → Prop) (s : σ) :
    (Prog.fail e : Prog A ε α).wp M t E Q s ↔ E e s := Iff.rfl

lemma wp_act (a : A β) (k : β → Prog A ε α) (Q : α → σ → Prop) (s : σ) :
    (Prog.act a k).wp M t E Q s ↔ (∀ b s', M.Step t a s (.ok b) s' → (k b).wp M t E Q s') ∧
      ∀ e s', M.Step t a s (.error e) s' → E e s' := Iff.rfl

lemma wp_lift (a : A α) (Q : α → σ → Prop) (s : σ) :
    (lift a : Prog A ε α).wp M t E Q s ↔ (∀ b s', M.Step t a s (.ok b) s' → Q b s') ∧
      ∀ e s', M.Step t a s (.error e) s' → E e s' := Iff.rfl

lemma wp_bind (p : Prog A ε α) (f : α → Prog A ε β) (Q : β → σ → Prop) (s : σ) :
    (p >>= f).wp M t E Q s ↔ p.wp M t E (fun x s' => (f x).wp M t E Q s') s := by
  induction p generalizing s with
  | ret x => simp
  | fail e => simp
  | act a k ih => simp only [bind_act, wp_act, ih]

/-- What holds before a statement says what holds after each of its steps. -/
lemma wp_step_ok {a : A β} {k : β → Prog A ε α} {Q : α → σ → Prop} {s s' : σ} {x : β}
    (h : (Prog.lift a >>= k).wp M t E Q s) (hst : M.Step t a s (.ok x) s') : (k x).wp M t E Q s' :=
  h.1 x s' hst

lemma wp_step_error {a : A β} {k : β → Prog A ε α} {Q : α → σ → Prop} {s s' : σ} {e : ε}
    (h : (Prog.lift a >>= k).wp M t E Q s) (hst : M.Step t a s (.error e) s') : E e s' :=
  h.2 e s' hst

lemma wp_mono {p : Prog A ε α} {Q Q' : α → σ → Prop} {s : σ}
    (h : p.wp M t E Q s) (hQ : ∀ x s', Q x s' → Q' x s') : p.wp M t E Q' s := by
  induction p generalizing s with
  | ret x => exact hQ _ _ h
  | fail e => exact h
  | act a k ih => exact ⟨fun b s' hb => ih b (h.1 b s' hb), h.2⟩

/-- The runs that return do not depend on what is asked of the others. -/
lemma wp_returns {p : Prog A ε α} {Q : α → σ → Prop} {s : σ} (h : p.wp M t E Q s) :
    p.wp M t (fun _ _ => True) Q s := by
  induction p generalizing s with
  | ret x => exact h
  | fail e => trivial
  | act a k ih => exact ⟨fun b s' hb => ih b (h.1 b s' hb), fun _ _ _ => trivial⟩

/-- What holds at the end of every run holds next to what else does. -/
lemma wp_and {E' : ε → σ → Prop} {p : Prog A ε α} {Q Q' : α → σ → Prop} {s : σ}
    (h : p.wp M t E Q s) (h' : p.wp M t E' Q' s) : p.wp M t E (fun x s => Q x s ∧ Q' x s) s := by
  induction p generalizing s with
  | ret x => exact ⟨h, h'⟩
  | fail e => exact h
  | act a k ih => exact ⟨fun b s' hb => ih b (h.1 b s' hb) (h'.1 b s' hb), h.2⟩

lemma wp_ite {c : Prop} [Decidable c] (p q : Prog A ε α) (Q : α → σ → Prop) (s : σ) :
    (if c then p else q).wp M t E Q s ↔ if c then p.wp M t E Q s else q.wp M t E Q s := by
  split_ifs <;> rfl

/-- The weakest precondition speaks about exactly the runs. -/
lemma wp_iff (p : Prog A ε α) (Q : α → σ → Prop) (s : σ) :
    p.wp M t E Q s ↔ (∀ x s', Run M t p s (.ok x) s' → Q x s') ∧
      ∀ e s', Run M t p s (.error e) s' → E e s' := by
  constructor
  · intro h
    induction p generalizing s with
    | ret x =>
      constructor
      · rintro y s' ⟨⟩
        exact h
      · rintro e s' ⟨⟩
    | fail e =>
      constructor
      · rintro y s' ⟨⟩
      · rintro e s' ⟨⟩
        exact h
    | act a k ih =>
      constructor
      · intro x s' hrun
        cases hrun with
        | act hst hrest => exact (ih _ _ (h.1 _ _ hst)).1 x s' hrest
      · intro e s' hrun
        cases hrun with
        | act hst hrest => exact (ih _ _ (h.1 _ _ hst)).2 e s' hrest
        | fault hst => exact h.2 e s' hst
  · rintro ⟨hok, herr⟩
    induction p generalizing s with
    | ret x => exact hok _ _ (.ret x s)
    | fail e => exact herr _ _ (.fail e s)
    | act a k ih =>
      exact ⟨fun b s' hb => ih b s' (fun x s'' hrun => hok x s'' (.act hb hrun))
          fun e s'' hrun => herr e s'' (.act hb hrun),
        fun e s' he => herr e s' (.fault he)⟩

/-- A program whose statements are never blocked has a run. -/
lemma exists_run {P : ∀ {β : Type}, A β → Prop}
    (hP : ∀ {β : Type} (a : A β) s, P a → ∃ o s', M.Step t a s o s') {p : Prog A ε α}
    (hp : p.All P) (s : σ) : ∃ o s', Run M t p s o s' := by
  induction p generalizing s with
  | ret x => exact ⟨_, s, .ret x s⟩
  | fail e => exact ⟨_, s, .fail e s⟩
  | act a k ih =>
    obtain ⟨o, s₁, hst⟩ := hP a s hp.1
    cases o with
    | error e => exact ⟨_, s₁, .fault hst⟩
    | ok b =>
      obtain ⟨o, s₂, hrun⟩ := ih b (hp.2 b) s₁
      exact ⟨o, s₂, .act hst hrun⟩

/-- A program has a run if no statement is blocked where the invariant `I` holds. -/
lemma exists_run_of {I : σ → Prop}
    (hI : ∀ {β : Type} (a : A β) s, I s → ∃ o s', M.Step t a s o s' ∧ I s') (p : Prog A ε α) {s : σ}
    (hs : I s) : ∃ o s', Run M t p s o s' := by
  induction p generalizing s with
  | ret x => exact ⟨_, s, .ret x s⟩
  | fail e => exact ⟨_, s, .fail e s⟩
  | act a k ih =>
    obtain ⟨o, s₁, hst, hs₁⟩ := hI a s hs
    cases o with
    | error e => exact ⟨_, s₁, .fault hst⟩
    | ok b =>
      obtain ⟨o, s₂, hrun⟩ := ih b hs₁
      exact ⟨o, s₂, .act hst hrun⟩

/-! ### Invariants of a program -/

/-- What every statement of a program preserves holds when the program ends. -/
lemma wp_of_all {P : ∀ {β : Type}, A β → Prop} {I : σ → Prop} {p : Prog A ε α} (hp : p.All P)
    (hI : ∀ {β : Type} (a : A β) s o s', P a → I s → M.Step t a s o s' → I s')
    (hE : ∀ e s, I s → E e s) {s : σ} (hs : I s) : p.wp M t E (fun _ => I) s := by
  induction p generalizing s with
  | ret x => exact hs
  | fail e => exact hE e s hs
  | act a k ih =>
    exact ⟨fun b s' hb => ih b (hp.2 b) (hI a s _ s' hp.1 hs hb),
      fun e s' he => hE e s' (hI a s _ s' hp.1 hs he)⟩

/-- A loop over a list keeps what each pass of its body keeps. -/
lemma wp_forEach {f : β → Prog A ε Unit} {I : σ → Prop} (xs : List β)
    (hf : ∀ x s, x ∈ xs → I s → (f x).wp M t E (fun _ => I) s) {s : σ} (hs : I s) :
    (forEach xs f).wp M t E (fun _ => I) s := by
  induction xs generalizing s with
  | nil => exact hs
  | cons x xs ih =>
    rw [forEach_cons, wp_bind]
    refine wp_mono (hf x s (by simp) hs) ?_
    intro _ s' hs'
    exact ih (fun y s hy => hf y s (List.mem_cons_of_mem x hy)) hs'

/-- A loop over a list whose invariant says which elements have been passed. -/
lemma wp_forEach_prefix {f : β → Prog A ε Unit} {I : List β → σ → Prop} {l : List β}
    (hf : ∀ ys x s, ys ++ [x] <+: l → I ys s → (f x).wp M t E (fun _ => I (ys ++ [x])) s) {s : σ}
    (hs : I [] s) : (forEach l f).wp M t E (fun _ => I l) s := by
  suffices h : ∀ zs ys s, ys ++ zs = l → I ys s → (forEach zs f).wp M t E (fun _ => I l) s from
    h l [] s rfl hs
  intro zs
  induction zs with
  | nil =>
    intro ys s hl hs
    simpa [← hl] using hs
  | cons z zs ih =>
    intro ys s hl hs
    rw [forEach_cons, wp_bind]
    refine wp_mono (hf ys z s ⟨zs, by simpa using hl⟩ hs) ?_
    intro _ s' hs'
    exact ih (ys ++ [z]) s' (by simpa using hl) hs'

/-! ### Running a program -/

/-- Run a program against an environment that replies as `env` says; `none` when a statement
blocks. -/
def runWith (M : Machine A ε σ θ ρ) (t : θ) (env : ∀ {β : Type}, A β → σ → ρ) :
    Prog A ε α → σ → Option (Except ε α × σ)
  | .ret x, s => some (.ok x, s)
  | .fail e, s => some (.error e, s)
  | .act a k, s =>
    match M.exec t a (env a s) s with
    | none => none
    | some (.error e, s') => some (.error e, s')
    | some (.ok b, s') => (k b).runWith M t env s'

/-- The result of a program that returns, and the state it leaves. -/
def eval (M : Machine A ε σ θ ρ) (t : θ) (env : ∀ {β : Type}, A β → σ → ρ) (p : Prog A ε α)
    (s : σ) : Option (α × σ) :=
  match p.runWith M t env s with
  | some (.ok x, s') => some (x, s')
  | _ => none

/-- What `runWith` computes is a run, when the environment's replies are admitted. -/
lemma run_of_runWith {env : ∀ {β : Type}, A β → σ → ρ}
    (henv : ∀ {β : Type} (a : A β) s, M.admits t a (env a s) s) (p : Prog A ε α) {s s' : σ}
    {o : Except ε α} (h : p.runWith M t env s = some (o, s')) : Run M t p s o s' := by
  induction p generalizing s with
  | ret x =>
    simp only [runWith, Option.some.injEq, Prod.mk.injEq] at h
    obtain ⟨rfl, rfl⟩ := h
    exact .ret x s
  | fail e =>
    simp only [runWith, Option.some.injEq, Prod.mk.injEq] at h
    obtain ⟨rfl, rfl⟩ := h
    exact .fail e s
  | act a k ih =>
    rw [runWith] at h
    split at h
    · cases h
    · rename_i e s₁ he
      cases h
      exact .fault ⟨_, henv a s, he⟩
    · rename_i b s₁ he
      exact .act ⟨_, henv a s, he⟩ (ih b h)

lemma run_of_eval {env : ∀ {β : Type}, A β → σ → ρ}
    (henv : ∀ {β : Type} (a : A β) s, M.admits t a (env a s) s) (p : Prog A ε α) {s : σ}
    {r : α × σ} (h : p.eval M t env s = some r) : Run M t p s (.ok r.1) r.2 := by
  rw [eval] at h
  split at h
  · rename_i x s' hrun
    cases h
    exact run_of_runWith henv p hrun
  · cases h

end Prog

/-! ### Programs one after the other -/

/-- The states reached by running programs of a family, one after the other and each to its end. -/
inductive Serial {A : Type → Type} {ε σ θ ρ α : Type} (M : Machine A ε σ θ ρ)
    (code : θ → Prog A ε α → Prop) : σ → σ → Prop
  | refl (s : σ) : Serial M code s s
  | tail {s s' s'' : σ} {t : θ} {p : Prog A ε α} {x : α} :
      Serial M code s s' → code t p → Prog.Run M t p s' (.ok x) s'' → Serial M code s s''

/-- What every program of the family preserves holds in every state reached. -/
theorem Serial.invariant {A : Type → Type} {ε σ θ ρ α : Type} {M : Machine A ε σ θ ρ}
    {code : θ → Prog A ε α → Prop} {I : σ → Prop}
    (hI : ∀ t p s, code t p → I s → p.wp M t (fun _ _ => True) (fun _ => I) s) {s s' : σ}
    (h : Serial M code s s') (hs : I s) : I s' := by
  induction h with
  | refl => exact hs
  | tail _ hcode hrun ih => exact ((Prog.wp_iff _ _ _).mp (hI _ _ _ hcode ih)).1 _ _ hrun

lemma Serial.mono {A : Type → Type} {ε σ θ ρ α : Type} {M M' : Machine A ε σ θ ρ}
    {code code' : θ → Prog A ε α → Prop}
    (hM : ∀ {t : θ} {β : Type} {a : A β} {s s' : σ} {o : Except ε β},
      M.Step t a s o s' → M'.Step t a s o s')
    (hcode : ∀ t p, code t p → code' t p) {s s' : σ} (h : Serial M code s s') :
    Serial M' code' s s' := by
  induction h with
  | refl => exact .refl _
  | tail _ hp hrun ih => exact ih.tail (hcode _ _ hp) (hrun.mono hM)

lemma Serial.trans {A : Type → Type} {ε σ θ ρ α : Type} {M : Machine A ε σ θ ρ}
    {code : θ → Prog A ε α → Prop} {s s' s'' : σ} (h : Serial M code s s')
    (h' : Serial M code s' s'') : Serial M code s s'' := by
  induction h' with
  | refl => exact h
  | tail _ hcode hrun ih => exact ih.tail hcode hrun

end Threads
