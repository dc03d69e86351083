import Mathlib.Data.Set.Basic
import MySQLPlugin.Threads.Sequential

/-!
# Threads whose statements interleave

A thread is always at a control point, or inside the program it started there; the program
returns the control point at which the thread goes on. Loops of a thread are cycles through its
control points. One step of a configuration is one step of one thread: it starts a program,
executes one statement on the shared state, or returns to a control point.

`Prog.Relies` is the rely-guarantee judgement of one program. Each thread names the predicates it
relies on, and each statement of a thread keeps every predicate that another thread relies on.
`Outline.sound` combines the judgements of all threads into an invariant of every reachable
configuration.
-/

namespace Threads

variable {A : Type → Type} {ε σ θ ρ C α β : Type}

/-! ### Configurations -/

/-- Where a thread is: at a control point, or inside the program it started at one. -/
inductive Local (A : Type → Type) (ε C : Type) : Type 1 where
  | at (c : C)
  | inside (c : C) (p : Prog A ε C)

/-- The programs a thread may start at a control point. -/
abbrev Code (A : Type → Type) (ε θ C : Type) : Type 1 := θ → C → Prog A ε C → Prop

/-- The shared state and the place of every thread. -/
structure Config (A : Type → Type) (ε σ θ C : Type) : Type 1 where
  shared : σ
  place : θ → Local A ε C

namespace Config

variable [DecidableEq θ]

/-- Thread `t` moves to `l`, leaving `s` behind. -/
def move (c : Config A ε σ θ C) (t : θ) (l : Local A ε C) (s : σ) : Config A ε σ θ C where
  shared := s
  place := Function.update c.place t l

/-- One step of one thread. -/
inductive Step (M : Machine A ε σ θ ρ) (code : Code A ε θ C) :
    Config A ε σ θ C → Config A ε σ θ C → Prop
  | start {c : Config A ε σ θ C} {t : θ} {x : C} {p : Prog A ε C} :
      c.place t = .at x → code t x p → Step M code c (c.move t (.inside x p) c.shared)
  | act {c : Config A ε σ θ C} {t : θ} {x : C} {β : Type} {a : A β} {k : β → Prog A ε C} {b : β}
      {s : σ} : c.place t = .inside x (.act a k) → M.Step t a c.shared (.ok b) s →
      Step M code c (c.move t (.inside x (k b)) s)
  | fault {c : Config A ε σ θ C} {t : θ} {x : C} {β : Type} {a : A β} {k : β → Prog A ε C} {e : ε}
      {s : σ} : c.place t = .inside x (.act a k) → M.Step t a c.shared (.error e) s →
      Step M code c (c.move t (.inside x (.fail e)) s)
  | finish {c : Config A ε σ θ C} {t : θ} {x y : C} :
      c.place t = .inside x (.ret y) → Step M code c (c.move t (.at y) c.shared)

/-- The configurations reached from `c₀`. -/
inductive Reachable (M : Machine A ε σ θ ρ) (code : Code A ε θ C) (c₀ : Config A ε σ θ C) :
    Config A ε σ θ C → Prop
  | start : Reachable M code c₀ c₀
  | next {c c' : Config A ε σ θ C} :
      Reachable M code c₀ c → Step M code c c' → Reachable M code c₀ c'

/-- An invariant of the reachable configurations may be assumed of every state in which a
statement is executed. -/
lemma Reachable.restrict {M : Machine A ε σ θ ρ} {code : Code A ε θ C} {c₀ c : Config A ε σ θ C}
    {I : σ → Prop} (hI : ∀ c, Reachable M code c₀ c → I c.shared) (h : Reachable M code c₀ c) :
    Reachable (M.restrict fun _ _ _ s => I s) code c₀ c := by
  have hstep {c : Config A ε σ θ C} {t : θ} {β : Type} {a : A β} {o : Except ε β} {s : σ}
      (hc : Reachable M code c₀ c) (hst : M.Step t a c.shared o s) :
      (M.restrict fun _ _ _ s => I s).Step t a c.shared o s := by
    obtain ⟨r, hr, he⟩ := hst
    exact ⟨r, ⟨hr, hI c hc⟩, he⟩
  induction h with
  | start => exact .start
  | next hc hst ih =>
    refine .next ih ?_
    cases hst with
    | start hat hcode => exact .start hat hcode
    | act hat hst => exact .act hat (hstep hc hst)
    | fault hat hst => exact .fault hat (hstep hc hst)
    | finish hat => exact .finish hat

/-- A machine that does more, with more programs to start, reaches more. -/
lemma Reachable.mono {M M' : Machine A ε σ θ ρ} {code code' : Code A ε θ C}
    (hM : ∀ {t : θ} {β : Type} {a : A β} {s o s'}, M.Step t a s o s' → M'.Step t a s o s')
    (hcode : ∀ {t x p}, code t x p → code' t x p) {c₀ c : Config A ε σ θ C}
    (h : Reachable M code c₀ c) : Reachable M' code' c₀ c := by
  induction h with
  | start => exact .start
  | next _ hst ih =>
    refine .next ih ?_
    cases hst with
    | start hat hp => exact .start hat (hcode hp)
    | act hat hst => exact .act hat (hM hst)
    | fault hat hst => exact .fault hat (hM hst)
    | finish hat => exact .finish hat

/-- One step of thread `t` inside a program; the environment replies `r` to a statement. -/
def advance (M : Machine A ε σ θ ρ) (t : θ) (r : ρ) (c : Config A ε σ θ C) :
    Option (Config A ε σ θ C) :=
  match c.place t with
  | .inside _ (.ret y) => some (c.move t (.at y) c.shared)
  | .inside x (.act a k) =>
    match M.exec t a r c.shared with
    | some (.ok b, s) => some (c.move t (.inside x (k b)) s)
    | some (.error e, s) => some (c.move t (.inside x (.fail e)) s)
    | none => none
  | _ => none

lemma step_of_advance {M : Machine A ε σ θ ρ} {code : Code A ε θ C} {t : θ} {r : ρ}
    (hr : ∀ {β : Type} (a : A β) s, M.admits t a r s) {c c' : Config A ε σ θ C}
    (h : c.advance M t r = some c') : Step M code c c' := by
  rw [advance] at h
  split at h
  · rename_i hat
    cases h
    exact .finish hat
  · rename_i hat
    split at h
    · rename_i hrun
      cases h
      exact .act hat ⟨r, hr _ _, hrun⟩
    · rename_i hrun
      cases h
      exact .fault hat ⟨r, hr _ _, hrun⟩
    · cases h
  · cases h

end Config

/-! ### Rely and guarantee -/

/-- Going from `s` to `s'` keeps every predicate of `F`. -/
def Keeps (F : Set (σ → Prop)) (s s' : σ) : Prop := ∀ P ∈ F, P s → P s'

lemma Keeps.refl (F : Set (σ → Prop)) (s : σ) : Keeps F s s := fun _ _ h => h

lemma Keeps.trans {F : Set (σ → Prop)} {s s' s'' : σ} (h : Keeps F s s') (h' : Keeps F s' s'') :
    Keeps F s s'' := fun P hP hs => h' P hP (h P hP hs)

/-- `P` survives every step that keeps the predicates of `F`. -/
def Stable (F : Set (σ → Prop)) (P : σ → Prop) : Prop := ∀ s s', Keeps F s s' → P s → P s'

lemma Stable.of_mem {F : Set (σ → Prop)} {P : σ → Prop} (h : P ∈ F) : Stable F P :=
  fun _ _ hk hs => hk P h hs

lemma Stable.and {F : Set (σ → Prop)} {P Q : σ → Prop} (hP : Stable F P) (hQ : Stable F Q) :
    Stable F fun s => P s ∧ Q s := fun s s' hk h => ⟨hP s s' hk h.1, hQ s s' hk h.2⟩

lemma Stable.or {F : Set (σ → Prop)} {P Q : σ → Prop} (hP : Stable F P) (hQ : Stable F Q) :
    Stable F fun s => P s ∨ Q s := fun s s' hk h => h.imp (hP s s' hk) (hQ s s' hk)

lemma Stable.const {F : Set (σ → Prop)} (p : Prop) : Stable F fun _ => p := fun _ _ _ h => h

lemma Stable.forall {ι : Sort*} {F : Set (σ → Prop)} {P : ι → σ → Prop} (h : ∀ b, Stable F (P b)) :
    Stable F fun s => ∀ b, P b s := fun s s' hk hs b => h b s s' hk (hs b)

/-- What thread `t` guarantees to the others when it goes from `s` to `s'`. -/
def Guarantees (rely : θ → Set (σ → Prop)) (t : θ) (s s' : σ) : Prop :=
  ∀ u, u ≠ t → Keeps (rely u) s s'

namespace Prog

variable {M : Machine A ε σ θ ρ} {rely : θ → Set (σ → Prop)} {t : θ}

/-- Run by thread `t` among threads that keep what `t` relies on, the program keeps what the
others rely on, and `Q` holds of its result for as long as they do. -/
def Relies (M : Machine A ε σ θ ρ) (rely : θ → Set (σ → Prop)) (t : θ) :
    Prog A ε α → (α → σ → Prop) → σ → Prop
  | .ret x, Q, s => ∀ s', Keeps (rely t) s s' → Q x s'
  | .fail _, _, _ => True
  | .act a k, Q, s => ∀ s₁, Keeps (rely t) s s₁ →
      (∀ b s₂, M.Step t a s₁ (.ok b) s₂ → Guarantees rely t s₁ s₂ ∧ (k b).Relies M rely t Q s₂) ∧
      ∀ e s₂, M.Step t a s₁ (.error e) s₂ → Guarantees rely t s₁ s₂

/-- The judgement survives what the other threads do. -/
lemma Relies.stable {p : Prog A ε α} {Q : α → σ → Prop} {s s' : σ}
    (h : p.Relies M rely t Q s) (hk : Keeps (rely t) s s') : p.Relies M rely t Q s' := by
  cases p with
  | ret x => exact fun s'' hk' => h s'' (hk.trans hk')
  | fail e => trivial
  | act a k => exact fun s'' hk' => h s'' (hk.trans hk')

lemma relies_ret {x : α} {Q : α → σ → Prop} {s : σ} (hQ : Stable (rely t) (Q x)) (h : Q x s) :
    (Prog.ret x : Prog A ε α).Relies M rely t Q s := fun s' hk => hQ s s' hk h

/-- Rule of a statement: from a stable assertion, it keeps what the others rely on and leaves the
rest of the program in order. -/
lemma relies_act {P : σ → Prop} {a : A β} {k : β → Prog A ε α} {Q : α → σ → Prop} {s : σ}
    (hP : Stable (rely t) P) (hs : P s)
    (hok : ∀ s₁ b s₂, P s₁ → M.Step t a s₁ (.ok b) s₂ →
      Guarantees rely t s₁ s₂ ∧ (k b).Relies M rely t Q s₂)
    (herr : ∀ s₁ e s₂, P s₁ → M.Step t a s₁ (.error e) s₂ → Guarantees rely t s₁ s₂) :
    (Prog.act a k).Relies M rely t Q s :=
  fun s₁ hk => ⟨fun b s₂ hst => hok s₁ b s₂ (hP s s₁ hk hs) hst,
    fun e s₂ hst => herr s₁ e s₂ (hP s s₁ hk hs) hst⟩

lemma Relies.bind {p : Prog A ε α} {f : α → Prog A ε β} {Q : β → σ → Prop} {s : σ}
    (h : p.Relies M rely t (fun x s' => (f x).Relies M rely t Q s') s) :
    (p >>= f).Relies M rely t Q s := by
  induction p generalizing s with
  | ret x => exact h s (.refl _ s)
  | fail e => trivial
  | act a k ih =>
    intro s₁ hk
    obtain ⟨hok, herr⟩ := h s₁ hk
    exact ⟨fun b s₂ hst => ⟨(hok b s₂ hst).1, ih b (hok b s₂ hst).2⟩, herr⟩

lemma Relies.mono {p : Prog A ε α} {Q Q' : α → σ → Prop} {s : σ}
    (h : p.Relies M rely t Q s) (hQ : ∀ x s', Q x s' → Q' x s') : p.Relies M rely t Q' s := by
  induction p generalizing s with
  | ret x => exact fun s' hk => hQ x s' (h s' hk)
  | fail e => trivial
  | act a k ih =>
    intro s₁ hk
    obtain ⟨hok, herr⟩ := h s₁ hk
    exact ⟨fun b s₂ hst => ⟨(hok b s₂ hst).1, ih b (hok b s₂ hst).2⟩, herr⟩

/-- The judgement holds in particular when no other thread moves. -/
lemma Relies.wp {p : Prog A ε α} {Q : α → σ → Prop} {s : σ} (h : p.Relies M rely t Q s) :
    p.wp M t (fun _ _ => True) Q s := by
  induction p generalizing s with
  | ret x => exact h s (.refl _ s)
  | fail e => trivial
  | act a k ih => exact ⟨fun b s' hst => ih b ((h s (.refl _ s)).1 b s' hst).2, fun _ _ _ => trivial⟩

/-- A program whose statements all keep a stable assertion, and all keep what the others rely
on. -/
lemma relies_of_all {P : ∀ {β : Type}, A β → Prop} {J : σ → Prop} {p : Prog A ε α} (hp : p.All P)
    (hJ : Stable (rely t) J)
    (hstep : ∀ {β : Type} (a : A β) s o s', P a → J s → M.Step t a s o s' →
      Guarantees rely t s s' ∧ J s') {s : σ} (hs : J s) :
    p.Relies M rely t (fun _ s' => J s') s := by
  induction p generalizing s with
  | ret x => exact fun s' hk => hJ s s' hk hs
  | fail e => trivial
  | act a k ih =>
    intro s₁ hk
    have hs₁ := hJ s s₁ hk hs
    exact ⟨fun b s₂ hst => ⟨(hstep a s₁ _ s₂ hp.1 hs₁ hst).1,
        ih b (hp.2 b) (hstep a s₁ _ s₂ hp.1 hs₁ hst).2⟩,
      fun e s₂ hst => (hstep a s₁ _ s₂ hp.1 hs₁ hst).1⟩

lemma relies_forEach {J : σ → Prop} {f : β → Prog A ε Unit} (xs : List β)
    (hJ : Stable (rely t) J) (hf : ∀ x s, x ∈ xs → J s → (f x).Relies M rely t (fun _ => J) s)
    {s : σ} (hs : J s) : (forEach xs f).Relies M rely t (fun _ => J) s := by
  induction xs generalizing s with
  | nil => exact fun s' hk => hJ s s' hk hs
  | cons x xs ih =>
    rw [forEach_cons]
    refine Relies.bind ((hf x s (by simp) hs).mono ?_)
    intro _ s' hs'
    exact ih (fun y s hy => hf y s (List.mem_cons_of_mem x hy)) hs'

end Prog

/-! ### Proof outlines -/

/-- A proof outline: what each thread relies on, and what holds when it is at a control point. -/
structure Outline (M : Machine A ε σ θ ρ) (code : Code A ε θ C) where
  rely : θ → Set (σ → Prop)
  holdsAt : θ → C → σ → Prop
  stable : ∀ t x, Stable (rely t) (holdsAt t x)
  relies : ∀ t x p s, code t x p → holdsAt t x s →
    p.Relies M rely t (fun y s' => holdsAt t y s') s

namespace Outline

variable {M : Machine A ε σ θ ρ} {code : Code A ε θ C}

/-- The outline holds of the thread's place. -/
def HoldsOf (O : Outline M code) (t : θ) : Local A ε C → σ → Prop
  | .at x, s => O.holdsAt t x s
  | .inside _ p, s => p.Relies M O.rely t (fun y s' => O.holdsAt t y s') s

lemma HoldsOf.stable {O : Outline M code} {t : θ} {l : Local A ε C} {s s' : σ}
    (h : O.HoldsOf t l s) (hk : Keeps (O.rely t) s s') : O.HoldsOf t l s' := by
  cases l with
  | «at» x => exact O.stable t x s s' hk h
  | inside x p => exact Prog.Relies.stable h hk

variable [DecidableEq θ]

/-- The moving thread reaches a place where its outline holds; the places of the others still
satisfy theirs. -/
lemma holdsOf_move {O : Outline M code} {c : Config A ε σ θ C} {t : θ} {l : Local A ε C} {s : σ}
    (hc : ∀ u, O.HoldsOf u (c.place u) c.shared) (hl : O.HoldsOf t l s)
    (hg : Guarantees O.rely t c.shared s) (u : θ) :
    O.HoldsOf u ((c.move t l s).place u) (c.move t l s).shared := by
  by_cases hu : u = t
  · subst hu
    simpa [Config.move] using hl
  · simpa [Config.move, Function.update_of_ne hu] using (hc u).stable (hg u hu)

/-- One step keeps the outlines of all threads, and is a guarantee of the thread that moved. -/
lemma step {O : Outline M code} {c c' : Config A ε σ θ C}
    (hc : ∀ u, O.HoldsOf u (c.place u) c.shared) (h : c.Step M code c') :
    (∀ u, O.HoldsOf u (c'.place u) c'.shared) ∧
      ∃ t, Guarantees O.rely t c.shared c'.shared := by
  cases h with
  | @start t x p hat hcode =>
    have ht : O.HoldsOf t (.at x) c.shared := hat ▸ hc t
    have hg : Guarantees O.rely t c.shared c.shared := fun _ _ => .refl _ _
    exact ⟨holdsOf_move hc (O.relies t x p c.shared hcode ht) hg, t, hg⟩
  | @act t x β a k b s hat hst =>
    have ht : O.HoldsOf t (.inside x (.act a k)) c.shared := hat ▸ hc t
    obtain ⟨hg, hk⟩ := (ht c.shared (.refl _ _)).1 b s hst
    exact ⟨holdsOf_move hc hk hg, t, hg⟩
  | @fault t x β a k e s hat hst =>
    have ht : O.HoldsOf t (.inside x (.act a k)) c.shared := hat ▸ hc t
    have hg := (ht c.shared (.refl _ _)).2 e s hst
    exact ⟨holdsOf_move hc trivial hg, t, hg⟩
  | @finish t x y hat =>
    have ht : O.HoldsOf t (.inside x (.ret y)) c.shared := hat ▸ hc t
    have hg : Guarantees O.rely t c.shared c.shared := fun _ _ => .refl _ _
    exact ⟨holdsOf_move hc (ht c.shared (.refl _ _)) hg, t, hg⟩

/-- In every reachable configuration the outline of every thread holds of its place. -/
theorem sound {O : Outline M code} {c₀ c : Config A ε σ θ C}
    (h₀ : ∀ u, O.HoldsOf u (c₀.place u) c₀.shared) (h : Config.Reachable M code c₀ c) :
    ∀ u, O.HoldsOf u (c.place u) c.shared := by
  induction h with
  | start => exact h₀
  | next _ hst ih => exact (step ih hst).1

/-- A predicate that some other thread relies on, whichever thread moves, holds in every
reachable configuration. -/
theorem invariant {O : Outline M code} {c₀ c : Config A ε σ θ C} {I : σ → Prop}
    (hI : ∀ t, ∃ u, u ≠ t ∧ I ∈ O.rely u) (h₀ : ∀ u, O.HoldsOf u (c₀.place u) c₀.shared)
    (hI₀ : I c₀.shared) (h : Config.Reachable M code c₀ c) : I c.shared := by
  induction h with
  | start => exact hI₀
  | next hr hst ih =>
    obtain ⟨t, hg⟩ := (step (sound h₀ hr) hst).2
    obtain ⟨u, hu, hmem⟩ := hI t
    exact hg u hu I hmem ih

end Outline

end Threads
