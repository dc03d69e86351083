import MySQLPlugin.Threads.Interleaving

/-!
# Cycles of one thread

A loop of a thread leads from its control point at home through other points and back. A cycle is
such a loop while the other threads rest.
-/

namespace Threads

open Prog

variable {A : Type → Type} {ε σ θ ρ C : Type} {M : Machine A ε σ θ ρ} {code : Code A ε θ C} {t : θ}
  {home x y : C} {s s' : σ}

/-- Thread `t` goes from the point `x` through other points until it is at `home`. -/
inductive Cycle (M : Machine A ε σ θ ρ) (code : Code A ε θ C) (t : θ) (home : C) : C → σ → σ → Prop
  | last {x : C} {p : Prog A ε C} {s s' : σ} :
      code t x p → Run M t p s (.ok home) s' → Cycle M code t home x s s'
  | pass {x y : C} {p : Prog A ε C} {s s' s'' : σ} :
      code t x p → Run M t p s (.ok y) s' → y ≠ home → Cycle M code t home y s' s'' →
      Cycle M code t home x s s''

/-! ### A rule for cycles -/

section

variable {J : C → σ → Prop} {Q : σ → Prop} {rank : C → ℕ}

/-- What holds at the points of a cycle leads to what holds at its end. -/
lemma Cycle.ends
    (hJ : ∀ x p s, code t x p → J x s → p.wp M t (fun _ _ => False)
      (fun y s' => (y = home → Q s') ∧ (y ≠ home → J y s' ∧ rank y < rank x)) s)
    (h : Cycle M code t home x s s') (hs : J x s) : Q s' := by
  induction h with
  | last hcode hrun => exact (((wp_iff _ _ _).mp (hJ _ _ _ hcode hs)).1 _ _ hrun).1 rfl
  | pass hcode hrun hy _ ih =>
    exact ih ((((wp_iff _ _ _).mp (hJ _ _ _ hcode hs)).1 _ _ hrun).2 hy).1

/-- What every program of the thread keeps when it returns holds at the end of a cycle. -/
lemma Cycle.invariant {I : σ → Prop}
    (hI : ∀ x p s, code t x p → I s → p.wp M t (fun _ _ => True) (fun _ => I) s)
    (h : Cycle M code t home x s s') (hs : I s) : I s' := by
  induction h with
  | last hcode hrun => exact ((wp_iff _ _ _).mp (hI _ _ _ hcode hs)).1 _ _ hrun
  | pass hcode hrun _ _ ih => exact ih (((wp_iff _ _ _).mp (hI _ _ _ hcode hs)).1 _ _ hrun)

/-- A cycle whose programs do not fault and whose rank decreases comes to its end. -/
lemma exists_cycle
    (hcode : ∀ x s, J x s → ∃ p, code t x p ∧ ∃ o s', Run M t p s o s')
    (hJ : ∀ x p s, code t x p → J x s → p.wp M t (fun _ _ => False)
      (fun y s' => (y = home → Q s') ∧ (y ≠ home → J y s' ∧ rank y < rank x)) s)
    (hs : J x s) : ∃ s', Cycle M code t home x s s' := by
  induction hn : rank x using Nat.strong_induction_on generalizing x s with
  | _ n ih =>
    obtain ⟨p, hp, o, s', hrun⟩ := hcode x s hs
    obtain ⟨hok, herr⟩ := (wp_iff _ _ _).mp (hJ x p s hp hs)
    cases o with
    | error e => exact (herr e s' hrun).elim
    | ok y =>
      by_cases hy : y = home
      · subst hy
        exact ⟨s', .last hp hrun⟩
      · obtain ⟨hs', hlt⟩ := (hok y s' hrun).2 hy
        obtain ⟨s'', h⟩ := ih (rank y) (hn ▸ hlt) hs' rfl
        exact ⟨s'', .pass hp hrun hy h⟩

end

/-! ### Trips -/

/-- Thread `t` starts at the point `x` and goes through other points until it is at `home`, or until one
of its programs ends in a fault. -/
inductive Trip (M : Machine A ε σ θ ρ) (code : Code A ε θ C) (t : θ) (home : C) :
    C → σ → Except ε Unit → σ → Prop
  | last {x : C} {p : Prog A ε C} {s s' : σ} :
      code t x p → Run M t p s (.ok home) s' → Trip M code t home x s (.ok ()) s'
  | fault {x : C} {p : Prog A ε C} {s s' : σ} {e : ε} :
      code t x p → Run M t p s (.error e) s' → Trip M code t home x s (.error e) s'
  | pass {x y : C} {p : Prog A ε C} {s s' s'' : σ} {o : Except ε Unit} :
      code t x p → Run M t p s (.ok y) s' → y ≠ home → Trip M code t home y s' o s'' →
      Trip M code t home x s o s''

/-- What holds at the points of a trip says how it can end. -/
lemma Trip.ends {J : C → σ → Prop} {Q : σ → Prop} {E : ε → σ → Prop} {o : Except ε Unit}
    (hJ : ∀ x p s, code t x p → J x s → p.wp M t E
      (fun y s' => (y = home → Q s') ∧ (y ≠ home → J y s')) s)
    (h : Trip M code t home x s o s') (hs : J x s) :
    (o = .ok () → Q s') ∧ ∀ e, o = .error e → E e s' := by
  induction h with
  | last hcode hrun =>
    refine ⟨fun _ => (((wp_iff _ _ _).mp (hJ _ _ _ hcode hs)).1 _ _ hrun).1 rfl, ?_⟩
    rintro e ⟨⟩
  | fault hcode hrun =>
    constructor
    · rintro ⟨⟩
    · rintro e ⟨⟩
      exact ((wp_iff _ _ _).mp (hJ _ _ _ hcode hs)).2 _ _ hrun
  | pass hcode hrun hy _ ih =>
    exact ih ((((wp_iff _ _ _).mp (hJ _ _ _ hcode hs)).1 _ _ hrun).2 hy)

/-! ### Evaluation -/

/-- Go from `x` to `home` within `n` programs, where `prog` has a program for every point. -/
def evalCycle [DecidableEq C] (M : Machine A ε σ θ ρ) (t : θ) (env : ∀ {β : Type}, A β → σ → ρ)
    (prog : C → Option (Prog A ε C)) (home : C) : ℕ → C → σ → Option σ
  | 0, _, _ => none
  | n + 1, x, s => (prog x).bind fun p => (p.eval M t env s).bind fun r =>
    if r.1 = home then some r.2 else evalCycle M t env prog home n r.1 r.2

lemma cycle_of_eval [DecidableEq C] {env : ∀ {β : Type}, A β → σ → ρ}
    (henv : ∀ {β : Type} (a : A β) s, M.admits t a (env a s) s) {prog : C → Option (Prog A ε C)}
    (hprog : ∀ x p, prog x = some p → code t x p) {n : ℕ}
    (h : evalCycle M t env prog home n x s = some s') : Cycle M code t home x s s' := by
  induction n generalizing x s with
  | zero => cases h
  | succ n ih =>
    obtain ⟨p, hp, h⟩ := Option.bind_eq_some_iff.mp h
    obtain ⟨⟨y, s₁⟩, heval, h⟩ := Option.bind_eq_some_iff.mp h
    have hrun := run_of_eval henv p heval
    by_cases hy : y = home
    · subst hy
      rw [if_pos rfl] at h
      cases h
      exact .last (hprog x p hp) hrun
    · rw [if_neg hy] at h
      exact .pass (hprog x p hp) hrun hy (ih h)

/-! ### Cycles and configurations -/

section

variable [DecidableEq θ] {c₀ c : Config A ε σ θ C}

lemma Config.move_move (c : Config A ε σ θ C) (t : θ) (l l' : Local A ε C) (s s' : σ) :
    (c.move t l s).move t l' s' = c.move t l' s' := by
  simp [Config.move]

lemma Config.move_place (c : Config A ε σ θ C) (t : θ) (l : Local A ε C) (s : σ) :
    (c.move t l s).place t = l := by
  simp [Config.move]

/-- A run of the program of a thread is a way of the configuration. -/
lemma reachable_of_run {p : Prog A ε C} {o : Except ε C} (h : Run M t p s o s')
    (hc : Config.Reachable M code c₀ (c.move t (.inside x p) s)) (ho : o = .ok y) :
    Config.Reachable M code c₀ (c.move t (.at y) s') := by
  induction h with
  | ret z s =>
    cases ho
    rw [← c.move_move t (.inside x (.ret y)) (.at y) s]
    exact hc.next (.finish (c.move_place t _ s))
  | fail e s => cases ho
  | act hst _ ih =>
    refine ih ?_ ho
    rw [← c.move_move t _ _ _ _]
    exact hc.next (.act (c.move_place t _ _) hst)
  | fault hst => cases ho

/-- A cycle of a thread is a way of the configuration while the other threads rest. -/
lemma Cycle.reachable (h : Cycle M code t home x s s')
    (hc : Config.Reachable M code c₀ (c.move t (.at x) s)) :
    Config.Reachable M code c₀ (c.move t (.at home) s') := by
  have hstart {x : C} {p : Prog A ε C} {s : σ} (hp : code t x p)
      (hc : Config.Reachable M code c₀ (c.move t (.at x) s)) :
      Config.Reachable M code c₀ (c.move t (.inside x p) s) := by
    rw [← c.move_move t (.at x) (.inside x p) s]
    exact hc.next (.start (c.move_place t _ s) hp)
  induction h with
  | last hp hrun => exact reachable_of_run hrun (hstart hp hc) rfl
  | pass hp hrun _ _ ih => exact ih (reachable_of_run hrun (hstart hp hc) rfl)

end

end Threads
