import MySQLPlugin.Safety.Release

/-!
# The plugin goes on

While nothing is to be done for any connection, the server can go on calling `ProcessTick` and the
worker can go on sweeping the table for ever, one after the other. However the threads go on, they
come home again and again, and give the mutex back.
-/

namespace MySQLPlugin

open Threads Prog CMySQLHandler

/-- An infinite execution of the plugin whose scripts call natives within the scope. -/
abbrev Endless (b : Build) (D : Scope) (p_Amx : List Amx) :=
  InfiniteRun (allowing b D.callbacks) (Starts (MainCall.Only D.direct)) (loaded p_Amx)

/-- The server calls `ProcessTick` again and again. -/
def Ticks {b : Build} {D : Scope} {p_Amx : List Amx} (r : Endless b D p_Amx) : Prop :=
  ∀ n, ∃ m, n ≤ m ∧ r.turn m = .main ∧ (r.config m).place .main = .at .idle ∧
    (r.config (m + 1)).place .main = .inside .idle processTick

/-! ### Rounds in which nothing is to be done -/

/-- Nothing is to be done for the handlers of the table. -/
def AtRest (s : State) : Prop := ∀ (i : ℕ) h, s.SQLHandle[i]? = some h →
  ∃ x, s.heap h = some x ∧ x.errorCallback = [] ∧ x.callbackData = [] ∧ x.ready = false

lemma AtRest.plain {s s' : State} {t : ThreadId} {e : Event} (hs : AtRest s) (heff : Effect t e s s')
    (htable : e.onTable s.SQLHandle = s.SQLHandle) (hheap : ∀ h, e.onObject h (s.heap h) = s.heap h) :
    AtRest s' := by
  intro i h hi
  rw [heff.table, htable] at hi
  rw [heff.heap h, hheap h]
  exact hs i h hi

section

variable {b : Build} {N : Set NativeCall} {s : State} {i : ℕ}

/-- Without a fault. -/
abbrev Never : Fault → State → Prop := fun _ _ => False

lemma tickEnd_rests (hs : AtRest s) :
    (Prog.lift (.mark .tickEnd) >>= fun _ => pure Point.idle : Code Point).wp (allowing b N) .main Never
      (fun _ => AtRest) s :=
  wp_mark fun _ heff => hs.plain heff rfl fun _ => rfl

lemma processTick_rests (hs : AtRest s) :
    processTick.wp (allowing b N) .main Never (fun _ => AtRest) s := by
  refine wp_mark fun s' heff => ?_
  have hs' : AtRest s' := hs.plain heff rfl fun _ => rfl
  refine wp_size ?_
  split_ifs
  · exact hs'
  · exact tickEnd_rests hs'

/-- A visit of `ProcessTick` finds no outcome. -/
lemma tickVisit_rests (hs : AtRest s) (hi : i < s.SQLHandle.length) :
    (tickVisit i).wp (allowing b N) .main Never (fun _ => AtRest) s := by
  obtain ⟨x, hx, herror, hcallback, -⟩ := hs i _ (List.getElem?_eq_getElem hi)
  have hentry := List.getElem?_eq_getElem hi
  rw [tickVisit, wp_bind]
  refine wp_entry hentry (wp_object hx ?_)
  simp only [herror, List.isEmpty_nil, Bool.not_true, Bool.false_eq_true, if_false]
  refine wp_entry hentry (wp_object hx ?_)
  simp only [hcallback, List.isEmpty_nil, Bool.not_true, Bool.false_eq_true, if_false]
  exact hs

lemma tickLoop_rests (i : ℕ) (hs : AtRest s) :
    (tickLoop i).wp (allowing b N) .main Never (fun _ => AtRest) s := by
  refine wp_size ?_
  split_ifs with hi
  · rw [wp_bind]
    exact wp_mono (tickVisit_rests hs hi) fun _ _ hs => hs
  · exact tickEnd_rests hs

lemma sleep_rests (hs : AtRest s) :
    (unlockMutex >>= fun _ => pure Point.asleep : Code Point).wp (allowing b N) .worker Never
      (fun _ => AtRest) s :=
  wp_unlockMutex fun _ heff => hs.plain heff rfl fun _ => rfl

lemma processQueryThread_rests (hs : AtRest s) (hfree : s.mutex = none) :
    processQueryThread.wp (allowing b N) .worker Never (fun _ => AtRest) s := by
  refine wp_lockMutex hfree fun s' heff => ?_
  have hs' : AtRest s' := hs.plain heff rfl fun _ => rfl
  refine wp_size ?_
  split_ifs
  · exact hs'
  · exact sleep_rests hs'

/-- The guard of the worker is closed. -/
lemma workerVisit_rests (hs : AtRest s) (hi : i < s.SQLHandle.length) :
    (workerVisit i).wp (allowing b N) .worker Never (fun _ => AtRest) s := by
  obtain ⟨x, hx, -, -, hready⟩ := hs i _ (List.getElem?_eq_getElem hi)
  refine wp_entry (List.getElem?_eq_getElem hi) (wp_step (fun v s' hst => ?_) fun e s' hst => ?_)
  · obtain ⟨y, hy, rfl, hsame⟩ := step_guard (IsPlugin.step hst)
    obtain rfl : x = y := Option.some.inj (hx.symm.trans hy)
    rw [hready] at hsame ⊢
    obtain rfl : s' = s := by simpa using hsame
    exact hs
  · obtain ⟨r, -, hrun⟩ := IsPlugin.step hst
    simp [plugin, Stmt.run, hx, hready] at hrun

lemma sweepLoop_rests (i : ℕ) (hs : AtRest s) :
    (sweepLoop i).wp (allowing b N) .worker Never (fun _ => AtRest) s := by
  refine wp_size ?_
  split_ifs with hi
  · rw [wp_bind]
    exact wp_mono (workerVisit_rests hs hi) fun _ _ hs => hs
  · exact sleep_rests hs

end

/-! ### For ever -/

section

variable {b : Build} {D : Scope} {p_Amx : List Amx} {c c' : Config Stmt Fault State ThreadId Point}
  {t : ThreadId}

/-- The thread that takes its turn after `t`. -/
def ThreadId.other : ThreadId → ThreadId
  | .main => .worker
  | .worker => .main

/-- What the thread starts when its turn comes. -/
def roundOf : ThreadId → Code Point
  | .main => processTick
  | .worker => processQueryThread

/-- It is the turn of `t` in a round: the other thread is at home, and nothing is to be done. -/
structure Turning (b : Build) (D : Scope) (p_Amx : List Amx) (t : ThreadId)
    (c : Config Stmt Fault State ThreadId Point) : Prop where
  reaches : Reaches b D p_Amx c
  other : c.place t.other = .at (homeOf t.other)
  at_ : ∀ x, c.place t = .at x → AtRest c.shared
  inside : ∀ x p, c.place t = .inside x p →
    p.wp (allowing b D.callbacks) t Never (fun _ => AtRest) c.shared

lemma ThreadId.eq_other {u : ThreadId} (hu : u ≠ t) : u = t.other := by
  cases t <;> cases u <;> first | exact absurd rfl hu | rfl

lemma ThreadId.other_ne (t : ThreadId) : t.other ≠ t := by
  cases t <;> simp [ThreadId.other]

/-- The other thread does not hold the mutex. -/
lemma Turning.mutex_ne (h : Turning b D p_Amx t c) {u : ThreadId} (hu : u ≠ t) (n : ℕ) :
    c.shared.mutex ≠ some (u, n) := by
  obtain rfl := ThreadId.eq_other hu
  exact not_held_of_locked (h.reaches.home_unlocked h.other) n

lemma Turning.step (hreach : Reaches b D p_Amx c) (hother : c.place t.other = .at (homeOf t.other))
    {l : Local Stmt Fault Point} {s : State}
    (hst : Config.StepOf (allowing b D.callbacks) (Starts (MainCall.Only D.direct)) t c (c.move t l s))
    (hat : ∀ x, l = .at x → AtRest s)
    (hinside : ∀ x p, l = .inside x p →
      p.wp (allowing b D.callbacks) t Never (fun _ => AtRest) s) :
    Turning b D p_Amx t (c.move t l s) where
  reaches := hreach.next hst.step
  other := (hst.place_of_ne t.other_ne).trans hother
  at_ x hx := hat x (by simpa [Config.move] using hx)
  inside x p hp := hinside x p (by simpa [Config.move] using hp)

/-- The thread goes on with its round. -/
lemma Turning.move (h : Turning b D p_Amx t c) (hhome : c.place t ≠ .at (homeOf t)) :
    ∃ c', Config.StepOf (allowing b D.callbacks) (Starts (MainCall.Only D.direct)) t c c' ∧
      Turning b D p_Amx t c' := by
  cases hplace : c.place t with
  | «at» x =>
    have hrest := h.at_ x hplace
    obtain ⟨p, hcode, hp⟩ : ∃ p, Starts (MainCall.Only D.direct) t x p ∧
        p.wp (allowing b D.callbacks) t Never (fun _ => AtRest) c.shared := by
      have harrived := h.reaches.arrived hplace
      cases t <;> cases x <;> first | exact harrived.elim | exact absurd hplace hhome | skip
      · exact ⟨_, .tick _, tickLoop_rests _ hrest⟩
      · exact ⟨_, .sweep _, sweepLoop_rests _ hrest⟩
    have hst : Config.StepOf (allowing b D.callbacks) (Starts (MainCall.Only D.direct)) t c
        (c.move t (.inside x p) c.shared) := .start hplace hcode
    refine ⟨_, hst, .step h.reaches h.other hst (fun y hy => by cases hy) fun y q hq => ?_⟩
    cases hq
    exact hp
  | inside x p =>
    have hp := h.inside x p hplace
    cases p with
    | ret y =>
      have hst : Config.StepOf (allowing b D.callbacks) (Starts (MainCall.Only D.direct)) t c
          (c.move t (.at y) c.shared) := .finish hplace
      exact ⟨_, hst, .step h.reaches h.other hst (fun _ _ => hp) fun y q hq => by cases hq⟩
    | fail e => exact hp.elim
    | act a k =>
      rcases h.reaches.moves t with ⟨c', hst⟩ | ⟨y, e, hfail⟩ | ⟨u, hu, -, n, hmutex⟩
      · refine ⟨c', hst, ?_⟩
        have hstep := hst
        cases hst with
        | start hat => cases hplace.symm.trans hat
        | act hat hok =>
          cases hplace.symm.trans hat
          refine .step h.reaches h.other hstep (fun y hy => by cases hy) fun y q hq => ?_
          cases hq
          exact hp.1 _ _ hok
        | fault hat herr =>
          cases hplace.symm.trans hat
          exact (hp.2 _ _ herr).elim
        | finish hat => cases hplace.symm.trans hat
      · cases hplace.symm.trans hfail
      · exact absurd hmutex (h.mutex_ne hu n)

/-- At the end of its round the other thread starts one. -/
lemma Turning.turn (h : Turning b D p_Amx t c) (hhome : c.place t = .at (homeOf t)) :
    ∃ c', Config.StepOf (allowing b D.callbacks) (Starts (MainCall.Only D.direct)) t.other c c' ∧
      c'.place t.other = .inside (homeOf t.other) (roundOf t.other) ∧
      Turning b D p_Amx t.other c' := by
  have hrest := h.at_ _ hhome
  have hfree : c.shared.mutex = none := by
    cases hmutex : c.shared.mutex with
    | none => rfl
    | some m =>
      obtain ⟨u, n⟩ := m
      by_cases hu : u = t
      · subst hu
        exact absurd hmutex (not_held_of_locked (h.reaches.home_unlocked hhome) n)
      · exact absurd hmutex (h.mutex_ne hu n)
  have hround : Starts (MainCall.Only D.direct) t.other (homeOf t.other) (roundOf t.other) ∧
      (roundOf t.other).wp (allowing b D.callbacks) t.other Never (fun _ => AtRest) c.shared := by
    cases t with
    | main => exact ⟨.wake, processQueryThread_rests hrest hfree⟩
    | worker =>
      exact ⟨.call (m := .processTick) (fun n hn => by cases hn), processTick_rests hrest⟩
  have hst : Config.StepOf (allowing b D.callbacks) (Starts (MainCall.Only D.direct)) t.other c
      (c.move t.other (.inside (homeOf t.other) (roundOf t.other)) c.shared) := .start h.other hround.1
  have hback : c.place t.other.other = .at (homeOf t.other.other) := by
    cases t <;> exact hhome
  refine ⟨_, hst, by simp [Config.move], .step h.reaches hback hst (fun y hy => by cases hy) ?_⟩
  intro y q hq
  cases hq
  exact hround.2

/-- The thread `u` moves after `t`: a thread keeps its turn until it is at home. -/
structure TakesTurn (t : ThreadId) (c : Config Stmt Fault State ThreadId Point) (u : ThreadId)
    (c' : Config Stmt Fault State ThreadId Point) : Prop where
  away : c.place t ≠ .at (homeOf t) → u = t
  home : c.place t = .at (homeOf t) →
    u = t.other ∧ c'.place u = .inside (homeOf u) (roundOf u)

lemma Turning.next (h : Turning b D p_Amx t c) :
    ∃ u c', Config.StepOf (allowing b D.callbacks) (Starts (MainCall.Only D.direct)) u c c' ∧
      TakesTurn t c u c' ∧ Turning b D p_Amx u c' := by
  by_cases hhome : c.place t = .at (homeOf t)
  · obtain ⟨c', hst, hround, hc'⟩ := h.turn hhome
    exact ⟨t.other, c', hst, ⟨fun hno => absurd hhome hno, fun _ => ⟨rfl, hround⟩⟩, hc'⟩
  · obtain ⟨c', hst, hc'⟩ := h.move hhome
    exact ⟨t, c', hst, ⟨fun _ => rfl, fun hat => absurd hat hhome⟩, hc'⟩

/-- The turn passes to the other thread, which starts a round. -/
lemma turn_passes {r : Endless b D p_Amx} {j n : ℕ} (hjn : j ≤ n)
    (hturns : ∀ m, j ≤ m →
      TakesTurn (r.turn m) (r.config (m + 1)) (r.turn (m + 1)) (r.config (m + 2))) :
    ∃ m, n ≤ m ∧ r.turn m = r.turn n ∧ r.turn (m + 1) = (r.turn n).other ∧
      (r.config (m + 2)).place (r.turn (m + 1)) =
        .inside (homeOf (r.turn (m + 1))) (roundOf (r.turn (m + 1))) := by
  by_contra hnever
  have haway : ∀ m, n ≤ m → r.turn m = r.turn n →
      (r.config (m + 1)).place (r.turn m) ≠ .at (homeOf (r.turn m)) := by
    intro m hm hsame hhome
    obtain ⟨hturn, hround⟩ := (hturns m (hjn.trans hm)).home hhome
    exact hnever ⟨m, hm, hsame, hsame ▸ hturn, hround⟩
  have hsame : ∀ m, n ≤ m → r.turn m = r.turn n := by
    intro m hm
    induction m, hm using Nat.le_induction with
    | base => rfl
    | succ m hm ih => exact ((hturns m (hjn.trans hm)).away (haway m hm ih)).trans ih
  have hrecurs : r.Recurs (r.turn n) := fun k => ⟨max k n, le_max_left k n, hsame _ (le_max_right k n)⟩
  obtain ⟨m, hm, hhome⟩ := home_again hrecurs (n + 1)
  obtain ⟨k, rfl⟩ := Nat.exists_eq_add_of_le hm
  have hk : r.turn (n + k) = r.turn n := hsame (n + k) (Nat.le_add_right n k)
  refine haway (n + k) (Nat.le_add_right n k) hk ?_
  rw [hk, show n + k + 1 = n + 1 + k by omega]
  exact hhome

/-- Where the turns pass to and fro, both threads take theirs again and again. -/
lemma recurs_of_turns {r : Endless b D p_Amx} {j : ℕ}
    (hturns : ∀ m, j ≤ m →
      TakesTurn (r.turn m) (r.config (m + 1)) (r.turn (m + 1)) (r.config (m + 2))) (t : ThreadId) :
    r.Recurs t := by
  intro n
  by_cases ht : r.turn (max n j) = t
  · exact ⟨_, le_max_left _ _, ht⟩
  · obtain ⟨m, hm, -, hturn, -⟩ := turn_passes (le_max_right n j) hturns
    refine ⟨m + 1, by omega, hturn.trans ?_⟩
    exact (ThreadId.eq_other (Ne.symm ht)).symm

/-- From a configuration at rest on, with both threads at home, the server can call `ProcessTick` and
the worker sweep the table for ever; so they can from every configuration that leads to one. -/
theorem goes_on {c₁ : Config Stmt Fault State ThreadId Point} (hc₁ : Reaches b D p_Amx c₁)
    (hc : Config.Reachable (allowing b D.callbacks) (Starts (MainCall.Only D.direct)) c₁ c)
    (hmain : c.place .main = .at .idle) (hworker : c.place .worker = .at .asleep)
    (hrest : AtRest c.shared) :
    ∃ (r : Endless b D p_Amx) (n : ℕ), r.config n = c₁ ∧ Ticks r ∧ r.Recurs .worker := by
  have hstart : Turning b D p_Amx .main c :=
    { reaches := hc₁.trans hc
      other := hworker
      at_ := fun _ _ => hrest
      inside := fun x p hp => by cases hmain.symm.trans hp }
  obtain ⟨r₀, hL, hS⟩ := InfiniteRun.exists_of_next (fun t c h => Turning.next h) hstart
  obtain ⟨r₁, k₁, hr₁⟩ := InfiniteRun.exists_through hc r₀
  obtain ⟨r, k, hr⟩ := InfiniteRun.exists_through hc₁ r₁
  have hlater (n : ℕ) : r.config (k + k₁ + n) = r₀.config n ∧ r.turn (k + k₁ + n) = r₀.turn n := by
    rw [Nat.add_assoc, (hr (k₁ + n)).1, (hr (k₁ + n)).2]
    exact hr₁ n
  have hturns : ∀ m, k + k₁ ≤ m →
      TakesTurn (r.turn m) (r.config (m + 1)) (r.turn (m + 1)) (r.config (m + 2)) := by
    intro m hm
    obtain ⟨n, rfl⟩ := Nat.exists_eq_add_of_le hm
    rw [(hlater n).2, Nat.add_assoc _ n 1, Nat.add_assoc _ n 2, (hlater (n + 1)).1, (hlater (n + 1)).2,
      (hlater (n + 2)).1]
    exact hS n
  refine ⟨r, k, ?_, fun n => ?_, recurs_of_turns hturns .worker⟩
  · have hzero := (hr 0).1
    rw [Nat.add_zero] at hzero
    exact hzero.trans r₁.start
  · obtain ⟨j, hj, hworker⟩ := recurs_of_turns hturns .worker (max n (k + k₁))
    obtain ⟨m, hm, hsame, hturn, hround⟩ := turn_passes (r := r) (le_trans (le_max_right _ _) hj) hturns
    rw [hworker] at hsame hturn
    rw [hturn] at hround
    refine ⟨m + 1, by omega, hturn, ?_, hround⟩
    obtain ⟨i, hi⟩ := Nat.exists_eq_add_of_le (show k + k₁ ≤ m by omega)
    have hother := (hL i).other
    rw [← (hlater i).2, ← (hlater (i + 1)).1, ← hi, hsame, ← Nat.add_assoc, ← hi] at hother
    exact hother

end

/-! ### A run with one connection -/

/-- The worker sweeps the table. -/
def swept : List Turn := [.go .worker 23 {}]

/-- `ProcessTick` hands the outcome out. -/
def ticked : List Turn := [.call .processTick, .go .main 21 {}]

/-- Where the threads are, and what is to be done for the only handler. -/
def restOf (c : Config Stmt Fault State ThreadId Point) :
    (Option Point × Option Point) × List HandlerPtr × Option (ℕ × ℕ × Bool) :=
  ((pointOf (c.place .main), pointOf (c.place .worker)), c.shared.SQLHandle,
    (c.shared.heap 0).map fun x => (x.errorCallback.length, x.callbackData.length, x.ready))

/-- A schedule that another one brings to rest is the beginning of a run that goes on for ever. -/
lemma goes_on_after (turns turns' : List Turn) (hturns : ∀ turn ∈ turns, turn.Within openScope)
    (hturns' : ∀ turn ∈ turns', turn.Within openScope)
    (hrest : ((schedule (allowing .pthread openScope.callbacks) turns (loaded [])).bind fun c =>
      (schedule (allowing .pthread openScope.callbacks) turns' c).map restOf) =
        some ((some .idle, some .asleep), [0], some (0, 0, false))) :
    ∃ c, schedule (allowing .pthread openScope.callbacks) turns (loaded []) = some c ∧
      ∃ (r : Endless .pthread openScope []) (n : ℕ), r.config n = c ∧ Ticks r ∧ r.Recurs .worker := by
  obtain ⟨c₁, hc₁, hrun⟩ := Option.bind_eq_some_iff.mp hrest
  obtain ⟨c, hc, hrest⟩ := Option.map_eq_some_iff.mp hrun
  simp only [restOf, Prod.mk.injEq] at hrest
  obtain ⟨⟨hmain, hworker⟩, htable, hheap⟩ := hrest
  obtain ⟨x, hx, hempty⟩ := Option.map_eq_some_iff.mp hheap
  simp only [Prod.mk.injEq, List.length_eq_zero_iff] at hempty
  refine ⟨c₁, hc₁, goes_on (reaches_of_within hturns hc₁) (reaches_of_within hturns' hc)
    (pointOf_eq_some.mp hmain) (pointOf_eq_some.mp hworker) fun i h hi => ?_⟩
  obtain rfl : h = 0 := by simpa [htable] using List.mem_of_getElem? hi
  exact ⟨x, hx, hempty⟩

/-! ### The mutex is given back -/

section

variable {b : Build} {D : Scope} {p_Amx : List Amx} {r : Endless b D p_Amx} {t : ThreadId}

/-- A thread that moves again and again comes home again and again, and does not hold the mutex there. -/
theorem comes_home_unlocked (hr : r.Recurs t) (n : ℕ) :
    ∃ m, n ≤ m ∧ (r.config m).place t = .at (homeOf t) ∧
      ∀ k, (r.config m).shared.mutex ≠ some (t, k) := by
  obtain ⟨m, hnm, hat⟩ := home_again hr n
  have hreach : Reaches b D p_Amx (r.config m) := r.reachable m
  exact ⟨m, hnm, hat, not_held_of_locked (hreach.home_unlocked hat)⟩

/-- Where both threads move again and again, the mutex is free again and again. -/
theorem mutex_free_again (hr : ∀ t, r.Recurs t) (n : ℕ) :
    ∃ m, n ≤ m ∧ (r.config m).shared.mutex = none := by
  by_contra hnever
  have hheld : ∀ m, n ≤ m → (r.config m).shared.mutex ≠ none := fun m hm hnone =>
    hnever ⟨m, hm, hnone⟩
  obtain ⟨⟨t, k⟩, hstart⟩ := Option.ne_none_iff_exists'.mp (hheld n (Nat.le_refl n))
  have hsame : ∀ m, n ≤ m → ∃ k, (r.config m).shared.mutex = some (t, k) := by
    intro m hm
    induction m, hm using Nat.le_induction with
    | base => exact ⟨k, hstart⟩
    | succ m hm ih =>
      obtain ⟨k, hk⟩ := ih
      exact stays_held (r.step m) hk (hheld (m + 1) (Nat.le_succ_of_le hm))
  -- the thread that holds the mutex comes home, and holds it no longer
  obtain ⟨m, hnm, hat⟩ := home_again (hr t) n
  have hreach : Reaches b D p_Amx (r.config m) := r.reachable m
  obtain ⟨k, hk⟩ := hsame m hnm
  exact not_held_of_locked (hreach.home_unlocked hat) k hk

lemma Ticks.recurs (hr : Ticks r) : r.Recurs .main := by
  intro n
  obtain ⟨m, hm, hturn, -⟩ := hr n
  exact ⟨m, hm, hturn⟩

end

/-- The worker is in the middle of a visit. -/
def visitingWorker : List Turn := queued ++ [.go .worker 9 {}]

/-- A run in which the worker holds the mutex at some moment, while a query waits. -/
lemma exists_visiting : ∃ (r : Endless .pthread openScope []) (n : ℕ),
    (r.config n).shared.mutex = some (.worker, 1) ∧ (r.config n).shared.SQLHandle = [0] ∧
      ∀ t, r.Recurs t := by
  obtain ⟨c, hc, r, n, hn, hticks, hworker⟩ := goes_on_after visitingWorker ([.go .worker 14 {}] ++ ticked)
    (by simp [visitingWorker, queued, Turn.Within, MainCall.Only, openScope, NativeCall.Open])
    (by simp [ticked, Turn.Within, MainCall.Only]) (by decide +kernel)
  have hrun : (schedule (allowing .pthread openScope.callbacks) visitingWorker (loaded [])).map
      (fun c => (c.shared.mutex, c.shared.SQLHandle)) = some (some (.worker, 1), [0]) := by decide
  rw [hc, Option.map_some] at hrun
  obtain ⟨hmutex, htable⟩ := Prod.mk.inj (Option.some.inj hrun)
  refine ⟨r, n, hn ▸ hmutex, hn ▸ htable, fun t => ?_⟩
  cases t with
  | main => exact hticks.recurs
  | worker => exact hworker

theorem comes_home_unlocked_visiting : ∃ (r : Endless .pthread openScope []) (n : ℕ),
    (r.config n).shared.mutex = some (.worker, 1) ∧ (r.config n).shared.SQLHandle = [0] ∧
      ∀ t, ∃ m, n ≤ m ∧ (r.config m).place t = .at (homeOf t) ∧
        ∀ k, (r.config m).shared.mutex ≠ some (t, k) := by
  obtain ⟨r, n, hmutex, htable, hrecurs⟩ := exists_visiting
  exact ⟨r, n, hmutex, htable, fun t => comes_home_unlocked (hrecurs t) n⟩

theorem mutex_free_again_visiting : ∃ (r : Endless .pthread openScope []) (n : ℕ),
    (r.config n).shared.mutex = some (.worker, 1) ∧ (r.config n).shared.SQLHandle = [0] ∧
      ∃ m, n ≤ m ∧ (r.config m).shared.mutex = none := by
  obtain ⟨r, n, hmutex, htable, hrecurs⟩ := exists_visiting
  exact ⟨r, n, hmutex, htable, mutex_free_again hrecurs n⟩

end MySQLPlugin
