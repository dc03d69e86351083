import Mathlib.Order.Nat
import Mathlib.Data.Nat.Find
import MySQLPlugin.Threads.Interleaving

/-!
# Infinite executions

An execution is an infinite sequence of configurations in which at every moment one thread takes a
step. A thread that goes on moving, and whose points lead home by a rank, comes home again and again:
between two points it runs through one program, which is a well-founded tree.
-/

namespace Threads

variable {A : Type → Type} {ε σ θ ρ C α β : Type}

/-! ### The thread that moves -/

section

variable [DecidableEq θ] {M : Machine A ε σ θ ρ} {code : Code A ε θ C} {c c' : Config A ε σ θ C}
  {t u : θ}

/-- One step of thread `t`. -/
inductive Config.StepOf (M : Machine A ε σ θ ρ) (code : Code A ε θ C) (t : θ)
    (c : Config A ε σ θ C) : Config A ε σ θ C → Prop
  | start {x : C} {p : Prog A ε C} :
      c.place t = .at x → code t x p → StepOf M code t c (c.move t (.inside x p) c.shared)
  | act {x : C} {β : Type} {a : A β} {k : β → Prog A ε C} {b : β} {s : σ} :
      c.place t = .inside x (.act a k) → M.Step t a c.shared (.ok b) s →
      StepOf M code t c (c.move t (.inside x (k b)) s)
  | fault {x : C} {β : Type} {a : A β} {k : β → Prog A ε C} {e : ε} {s : σ} :
      c.place t = .inside x (.act a k) → M.Step t a c.shared (.error e) s →
      StepOf M code t c (c.move t (.inside x (.fail e)) s)
  | finish {x y : C} :
      c.place t = .inside x (.ret y) → StepOf M code t c (c.move t (.at y) c.shared)

lemma Config.StepOf.step (h : Config.StepOf M code t c c') : c.Step M code c' := by
  cases h with
  | start hat hcode => exact .start hat hcode
  | act hat hst => exact .act hat hst
  | fault hat hst => exact .fault hat hst
  | finish hat => exact .finish hat

lemma Config.step_iff : c.Step M code c' ↔ ∃ t, Config.StepOf M code t c c' := by
  constructor
  · intro h
    cases h with
    | start hat hcode => exact ⟨_, .start hat hcode⟩
    | act hat hst => exact ⟨_, .act hat hst⟩
    | fault hat hst => exact ⟨_, .fault hat hst⟩
    | finish hat => exact ⟨_, .finish hat⟩
  · rintro ⟨t, h⟩
    exact h.step

/-- A step of one thread leaves the others where they are. -/
lemma Config.StepOf.place_of_ne (h : Config.StepOf M code t c c') (hu : u ≠ t) :
    c'.place u = c.place u := by
  cases h <;> simp [Config.move, Function.update_of_ne hu]

lemma Config.StepOf.of_at (h : Config.StepOf M code t c c') {x : C} (hat : c.place t = .at x) :
    ∃ p, code t x p ∧ c'.place t = .inside x p ∧ c'.shared = c.shared := by
  cases h with
  | start hplace hcode =>
    cases hat.symm.trans hplace
    exact ⟨_, hcode, by simp [Config.move], rfl⟩
  | act hplace => cases hat.symm.trans hplace
  | fault hplace => cases hat.symm.trans hplace
  | finish hplace => cases hat.symm.trans hplace

lemma Config.StepOf.of_act (h : Config.StepOf M code t c c') {x : C} {β : Type} {a : A β}
    {k : β → Prog A ε C} (hat : c.place t = .inside x (.act a k)) :
    (∃ b s, M.Step t a c.shared (.ok b) s ∧ c'.place t = .inside x (k b)) ∨
      ∃ e, c'.place t = .inside x (.fail e) := by
  cases h with
  | start hplace => cases hat.symm.trans hplace
  | act hplace hst =>
    cases hat.symm.trans hplace
    exact .inl ⟨_, _, hst, by simp [Config.move]⟩
  | @fault _ _ _ _ e _ hplace hst =>
    cases hat.symm.trans hplace
    exact .inr ⟨e, by simp [Config.move]⟩
  | finish hplace => cases hat.symm.trans hplace

lemma Config.StepOf.of_ret (h : Config.StepOf M code t c c') {x y : C}
    (hat : c.place t = .inside x (.ret y)) : c'.place t = .at y := by
  cases h with
  | finish hplace =>
    cases hat.symm.trans hplace
    simp [Config.move]
  | start hplace => cases hat.symm.trans hplace
  | act hplace => cases hat.symm.trans hplace
  | fault hplace => cases hat.symm.trans hplace

/-- A thread that has failed takes no step. -/
lemma Config.StepOf.not_failed (h : Config.StepOf M code t c c') (x : C) (e : ε) :
    c.place t ≠ .inside x (.fail e) := by
  intro hat
  cases h with
  | start hplace => cases hat.symm.trans hplace
  | act hplace => cases hat.symm.trans hplace
  | fault hplace => cases hat.symm.trans hplace
  | finish hplace => cases hat.symm.trans hplace

lemma Config.Reachable.trans {c₀ : Config A ε σ θ C} (h : Config.Reachable M code c₀ c)
    (h' : Config.Reachable M code c c') : Config.Reachable M code c₀ c' := by
  induction h' with
  | start => exact h
  | next _ hst ih => exact ih.next hst

/-- Thread `t` can take a step. -/
def Config.CanMove (M : Machine A ε σ θ ρ) (code : Code A ε θ C) (t : θ) (c : Config A ε σ θ C) :
    Prop := ∃ c', Config.StepOf M code t c c'

end

/-! ### Executions -/

/-- An infinite execution from `c₀`, with the thread that moves at each moment. -/
structure InfiniteRun [DecidableEq θ] (M : Machine A ε σ θ ρ) (code : Code A ε θ C)
    (c₀ : Config A ε σ θ C) where
  config : ℕ → Config A ε σ θ C
  turn : ℕ → θ
  start : config 0 = c₀
  step : ∀ n, Config.StepOf M code (turn n) (config n) (config (n + 1))

namespace InfiniteRun

variable [DecidableEq θ] {M : Machine A ε σ θ ρ} {code : Code A ε θ C} {c₀ : Config A ε σ θ C}
  {r : InfiniteRun M code c₀} {t : θ} {m n : ℕ}

/-- Thread `t` moves again and again. -/
def Recurs (r : InfiniteRun M code c₀) (t : θ) : Prop := ∀ n, ∃ m, n ≤ m ∧ r.turn m = t

lemma reachable (r : InfiniteRun M code c₀) (n : ℕ) : Config.Reachable M code c₀ (r.config n) := by
  induction n with
  | zero =>
    rw [r.start]
    exact .start
  | succ n ih => exact ih.next (r.step n).step

/-- A thread stays where it is until its next turn. -/
lemma place_stays (hmn : n ≤ m) (hturn : ∀ k, n ≤ k → k < m → r.turn k ≠ t) :
    (r.config m).place t = (r.config n).place t := by
  induction m, hmn using Nat.le_induction with
  | base => rfl
  | succ m hnm ih =>
    have hother : r.turn m ≠ t := hturn m hnm (Nat.lt_succ_self m)
    rw [(r.step m).place_of_ne hother.symm]
    exact ih fun k hk hkm => hturn k hk (Nat.lt_succ_of_lt hkm)

/-- The next turn of a thread finds it where it is now. -/
lemma next_turn (hr : ∃ m, n ≤ m ∧ r.turn m = t) :
    ∃ m, n ≤ m ∧ r.turn m = t ∧ (r.config m).place t = (r.config n).place t := by
  classical
  refine ⟨Nat.find hr, (Nat.find_spec hr).1, (Nat.find_spec hr).2, ?_⟩
  refine place_stays (Nat.find_spec hr).1 fun k hk hlt hturn => ?_
  exact Nat.find_min hr hlt ⟨hk, hturn⟩

end InfiniteRun

/-! ### Coming home -/

/-- Every run of the program returns a value that satisfies `Q`, when the values of its statements
satisfy `R`. -/
def Prog.Returns (R : ∀ {β : Type}, A β → β → Prop) : Prog A ε α → (α → Prop) → Prop
  | .ret x, Q => Q x
  | .fail _, _ => True
  | .act a k, Q => ∀ b, R a b → (k b).Returns R Q

namespace Prog

variable {R : ∀ {β : Type}, A β → β → Prop} {Q : α → Prop}

lemma Returns.bind {p : Prog A ε β} {f : β → Prog A ε α} (h : p.Returns R fun x => (f x).Returns R Q) :
    (p >>= f).Returns R Q := by
  induction p with
  | ret x => exact h
  | fail e => trivial
  | act a k ih => exact fun b hb => ih b (h b hb)

lemma returns_of_forall {p : Prog A ε α} (h : ∀ x, Q x) : p.Returns R Q := by
  induction p with
  | ret x => exact h x
  | fail e => trivial
  | act a k ih => exact fun b _ => ih b

lemma Returns.then {p : Prog A ε β} {x : α} (h : Q x) :
    (p >>= fun _ => Prog.ret x).Returns R Q :=
  .bind (returns_of_forall fun _ => h)

end Prog

/-- From its place the thread comes home, or fails, whatever values its statements return. -/
inductive Settles (R : ∀ {β : Type}, A β → β → Prop) (code : C → Prog A ε C → Prop)
    (home : C → Prop) : Local A ε C → Prop
  | home {x : C} : home x → Settles R code home (.at x)
  | at {x : C} : (∀ p, code x p → Settles R code home (.inside x p)) → Settles R code home (.at x)
  | ret {x y : C} : Settles R code home (.at y) → Settles R code home (.inside x (.ret y))
  | fail {x : C} {e : ε} : Settles R code home (.inside x (.fail e))
  | act {x : C} {β : Type} {a : A β} {k : β → Prog A ε C} :
      (∀ b, R a b → Settles R code home (.inside x (k b))) →
      Settles R code home (.inside x (.act a k))

section

variable {R : ∀ {β : Type}, A β → β → Prop} {code : C → Prog A ε C → Prop} {home : C → Prop}
  {rank : C → ℕ} {x : C}

lemma settles_inside {Q : C → Prop} {p : Prog A ε C} (hp : p.Returns R Q)
    (hQ : ∀ y, Q y → Settles R code home (.at y)) : Settles R code home (.inside x p) := by
  induction p with
  | ret y => exact .ret (hQ y hp)
  | fail e => exact .fail
  | act a k ih => exact .act fun b hb => ih b (hp b hb)

/-- A rank that decreases from point to point leads home. -/
lemma settles_of_rank
    (hrank : ∀ x p, code x p → ¬ home x → p.Returns R fun y => home y ∨ rank y < rank x) (x : C) :
    Settles R code home (.at x) := by
  induction hn : rank x using Nat.strong_induction_on generalizing x with
  | _ n ih =>
    by_cases hx : home x
    · exact .home hx
    · refine .at fun p hp => settles_inside (hrank x p hp hx) fun y hy => ?_
      rcases hy with hy | hy
      · exact .home hy
      · exact ih (rank y) (hn ▸ hy) y rfl

end

namespace InfiniteRun

variable [DecidableEq θ] {M : Machine A ε σ θ ρ} {code : Code A ε θ C} {c₀ : Config A ε σ θ C}
  {r : InfiniteRun M code c₀} {t : θ} {R : ∀ {β : Type}, A β → β → Prop} {home : C → Prop}
  {rank : C → ℕ} {l : Local A ε C}

/-- At its next turn the thread goes on from its place. -/
lemma turn_from (hrecurs : r.Recurs t) {n : ℕ} (hl : (r.config n).place t = l) :
    ∃ m, n ≤ m ∧ (r.config m).place t = l ∧
      Config.StepOf M code t (r.config m) (r.config (m + 1)) := by
  obtain ⟨m, hnm, hturn, hplace⟩ := next_turn (hrecurs n)
  have hstep := r.step m
  rw [hturn] at hstep
  exact ⟨m, hnm, hplace.trans hl, hstep⟩

/-- A thread that settles and moves again and again comes home. -/
lemma home_of_settles (hrecurs : r.Recurs t)
    (hR : ∀ n {β : Type} {a : A β} {b s}, M.Step t a (r.config n).shared (.ok b) s → R a b)
    (h : Settles R (code t) home l) {n : ℕ} (hl : (r.config n).place t = l) :
    ∃ m x, n ≤ m ∧ home x ∧ (r.config m).place t = .at x := by
  induction h generalizing n with
  | home hx => exact ⟨n, _, Nat.le_refl n, hx, hl⟩
  | «at» _ ih =>
    obtain ⟨m, hnm, hat, hstep⟩ := turn_from hrecurs hl
    obtain ⟨p, hcode, hplace, -⟩ := hstep.of_at hat
    obtain ⟨k, y, hmk, hy⟩ := ih p hcode hplace
    exact ⟨k, y, by omega, hy⟩
  | ret _ ih =>
    obtain ⟨m, hnm, hat, hstep⟩ := turn_from hrecurs hl
    obtain ⟨k, y, hmk, hy⟩ := ih (hstep.of_ret hat)
    exact ⟨k, y, by omega, hy⟩
  | fail =>
    obtain ⟨m, hnm, hat, hstep⟩ := turn_from hrecurs hl
    exact absurd hat (hstep.not_failed _ _)
  | act _ ih =>
    obtain ⟨m, hnm, hat, hstep⟩ := turn_from hrecurs hl
    rcases hstep.of_act hat with ⟨b, s, hst, hplace⟩ | ⟨e, hplace⟩
    · obtain ⟨k, y, hmk, hy⟩ := ih b (hR m hst) hplace
      exact ⟨k, y, by omega, hy⟩
    · -- the statement has failed: the thread has no further turn
      obtain ⟨k, hmk, hat', hstep'⟩ := turn_from hrecurs hplace
      exact absurd hat' (hstep'.not_failed _ _)

/-- A thread that moves again and again comes home again and again. -/
theorem comes_home (hrecurs : r.Recurs t)
    (hR : ∀ n {β : Type} {a : A β} {b s}, M.Step t a (r.config n).shared (.ok b) s → R a b)
    (hrank : ∀ x p, code t x p → ¬ home x → p.Returns R fun y => home y ∨ rank y < rank x) (n : ℕ) :
    ∃ m x, n ≤ m ∧ home x ∧ (r.config m).place t = .at x := by
  have hpoints : ∀ x, Settles R (code t) home (.at x) := settles_of_rank hrank
  have hplace : Settles R (code t) home ((r.config n).place t) := by
    cases (r.config n).place t with
    | «at» x => exact hpoints x
    | inside x p =>
      exact settles_inside (Prog.returns_of_forall (Q := fun _ => True) fun _ => trivial)
        fun y _ => hpoints y
  exact home_of_settles hrecurs hR hplace rfl

end InfiniteRun

/-! ### Going on for ever -/

namespace InfiniteRun

variable [DecidableEq θ] {M : Machine A ε σ θ ρ} {code : Code A ε θ C} {c₀ : Config A ε σ θ C}

/-- Where a step that keeps `L` is always possible, an execution goes on for ever; `S` says how each
step follows the one before. -/
theorem exists_of_next {L : θ → Config A ε σ θ C → Prop}
    {S : θ → Config A ε σ θ C → θ → Config A ε σ θ C → Prop}
    (hnext : ∀ t c, L t c → ∃ u c', Config.StepOf M code u c c' ∧ S t c u c' ∧ L u c') {t : θ}
    (h₀ : L t c₀) :
    ∃ r : InfiniteRun M code c₀, (∀ n, L (r.turn n) (r.config (n + 1))) ∧
      ∀ n, S (r.turn n) (r.config (n + 1)) (r.turn (n + 1)) (r.config (n + 2)) := by
  choose turn config hstep hS hL using hnext
  let next (x : {x : θ × Config A ε σ θ C // L x.1 x.2}) : {x : θ × Config A ε σ θ C // L x.1 x.2} :=
    ⟨(turn x.1.1 x.1.2 x.2, config x.1.1 x.1.2 x.2), hL x.1.1 x.1.2 x.2⟩
  let at_ (n : ℕ) : {x : θ × Config A ε σ θ C // L x.1 x.2} := next^[n] ⟨(t, c₀), h₀⟩
  have hat (n : ℕ) : at_ (n + 1) = next (at_ n) := Function.iterate_succ_apply' next n _
  refine ⟨⟨fun n => (at_ n).1.2, fun n => (at_ (n + 1)).1.1, rfl, fun n => ?_⟩, fun n => ?_, fun n => ?_⟩
  · rw [hat]
    exact hstep _ _ (at_ n).2
  · exact (at_ (n + 1)).2
  · show S (at_ (n + 1)).1.1 (at_ (n + 1)).1.2 (at_ (n + 2)).1.1 (at_ (n + 2)).1.2
    rw [hat (n + 1)]
    exact hS _ _ (at_ (n + 1)).2

/-- What is done from a reachable configuration on is the end of an execution. -/
theorem exists_through {c : Config A ε σ θ C} (hc : Config.Reachable M code c₀ c)
    (r : InfiniteRun M code c) : ∃ (r' : InfiniteRun M code c₀) (k : ℕ),
      ∀ n, r'.config (k + n) = r.config n ∧ r'.turn (k + n) = r.turn n := by
  induction hc with
  | start => exact ⟨r, 0, fun n => by simp⟩
  | @next c c' hc hst ih =>
    obtain ⟨t, hstep⟩ := Config.step_iff.mp hst
    let longer : InfiniteRun M code c :=
      { config := fun n => n.casesOn c r.config
        turn := fun n => n.casesOn t r.turn
        start := rfl
        step := fun n => by
          cases n with
          | zero => simpa [r.start] using hstep
          | succ n => exact r.step n }
    obtain ⟨r', k, hr'⟩ := ih longer
    refine ⟨r', k + 1, fun n => ?_⟩
    have hlater := hr' (n + 1)
    rw [Nat.add_assoc, Nat.add_comm 1 n]
    exact hlater

end InfiniteRun

end Threads
