import MySQLPlugin.Queues.Serving
import MySQLPlugin.Threads.Cycles

/-!
# Rounds of the two threads

A sweep of the worker executes the query at the front of every queue, and the next `ProcessTick`
hands the results out. The flag `m_bQueryProcessing` of a handler passes from the sweep to the tick
and back, so that every round serves every handler.
-/

namespace MySQLPlugin

open Threads Prog

/-- One sweep of the worker, from its sleep to its sleep. -/
def Sweep (M : Machine Stmt Fault State ThreadId Reply) (s s' : State) : Prop :=
  Cycle M (Starts {.processTick}) .worker .asleep .asleep s s'

/-- One call of `ProcessTick`. -/
def Tick (M : Machine Stmt Fault State ThreadId Reply) (s s' : State) : Prop :=
  Cycle M (Starts {.processTick}) .main .idle .idle s s'

/-- `k` times a sweep and a tick. -/
inductive Turns (M : Machine Stmt Fault State ThreadId Reply) : Nat → State → State → Prop
  | zero (s : State) : Turns M 0 s s
  | succ {k : Nat} {s s₁ s₂ s₃ : State} :
      Turns M k s s₁ → Sweep M s₁ s₂ → Tick M s₂ s₃ → Turns M (k + 1) s s₃

/-- Rounds are ways of a configuration in which both threads rest. -/
lemma Turns.reachable {M : Machine Stmt Fault State ThreadId Reply} {k : Nat} {s s' : State}
    {c₀ c : Config Stmt Fault State ThreadId Point} (h : Turns M k s s')
    (hmain : c.place .main = .at .idle) (hworker : c.place .worker = .at .asleep)
    (hc : Config.Reachable M (Starts {.processTick}) c₀ { c with shared := s }) :
    Config.Reachable M (Starts {.processTick}) c₀ { c with shared := s' } := by
  have hplace {t : ThreadId} {x : Point} (hx : c.place t = .at x) (s : State) :
      c.move t (.at x) s = { c with shared := s } := by
    rw [Config.move, ← hx, Function.update_eq_self]
  induction h with
  | zero s => exact hc
  | succ _ hsweep htick ih =>
    have hc₁ := ih hc
    rw [← hplace hworker] at hc₁
    have hc₂ := hsweep.reachable hc₁
    rw [hplace hworker, ← hplace hmain] at hc₂
    have hc₃ := htick.reachable hc₂
    rw [hplace hmain] at hc₃
    exact hc₃

/-! ### Loops over the table -/

/-- At the handler `h` wait the queries `waiting`, the outcome `out` is still to be handed out, and
the queries `done` have been executed. -/
def State.At (s : State) (h : HandlerPtr) (waiting : List MainInfo) (out : Option Outcome)
    (done : List (CString × Bool)) : Prop :=
  (∃ x, s.heap h = some x ∧ x.Holds waiting out) ∧ executed h s.trace = done

/-- A loop over the table `T` has passed the first `i` positions. Of the handlers behind it `after`
holds, of those ahead `before`; `calls i` are the publics that have been called. -/
structure Midway (T : List HandlerPtr) (p_Amx : List Amx) (mutex : Option (ThreadId × Nat))
    (before after : Nat → HandlerPtr → State → Prop) (calls : Nat → List (Amx × Public)) (i : Nat)
    (s : State) : Prop where
  table : s.SQLHandle = T
  p_Amx : s.p_Amx = p_Amx
  mutex : s.mutex = mutex
  calls : publicCalls s.trace = calls i
  le : i ≤ T.length
  passed : ∀ j < i, ∀ h, T[j]? = some h → after j h s
  ahead : ∀ j ≥ i, ∀ h, T[j]? = some h → before j h s

/-- What is known of one handler does not change while another one is served. -/
def Unmoved (P : Nat → HandlerPtr → State → Prop) : Prop :=
  ∀ j h s s', s'.heap h = s.heap h → executed h s'.trace = executed h s.trace → P j h s → P j h s'

section

variable {T : List HandlerPtr} {p_Amx : List Amx} {mutex : Option (ThreadId × Nat)}
  {before after : Nat → HandlerPtr → State → Prop} {calls : Nat → List (Amx × Public)} {i : Nat}
  {s s' : State} {h : HandlerPtr}

lemma unmoved_at (waiting : Nat → HandlerPtr → List MainInfo) (out : Nat → Option Outcome)
    (done : HandlerPtr → List (CString × Bool)) :
    Unmoved fun j h s => s.At h (waiting j h) (out j) (done h) := by
  rintro j h s s' hheap hexec ⟨hx, hdone⟩
  exact ⟨hheap ▸ hx, hexec.trans hdone⟩

/-- The loop passes the handler at position `i`. -/
lemma Midway.next (hm : Midway T p_Amx mutex before after calls i s) (hT : T.Nodup)
    (hbefore : Unmoved before) (hafter : Unmoved after) (hi : T[i]? = some h) {x : CMySQLHandler}
    {done : List (CString × Bool)} (hs : Serving h s x done (calls (i + 1)) s')
    (hself : after i h s') : Midway T p_Amx mutex before after calls (i + 1) s' := by
  have hother {j : Nat} {p : HandlerPtr} (hj : T[j]? = some p) (hne : j ≠ i) : p ≠ h := by
    rintro rfl
    exact hne ((List.getElem?_inj (List.getElem?_eq_some_iff.mp hj).1 hT).mp (hj.trans hi.symm))
  refine ⟨hs.table.trans hm.table, hs.p_Amx.trans hm.p_Amx, hs.mutex.trans hm.mutex, hs.calls,
    (List.getElem?_eq_some_iff.mp hi).1, fun j hj p hp => ?_, fun j hj p hp => ?_⟩
  · obtain rfl | hlt := Nat.eq_or_lt_of_le (Nat.lt_succ_iff.mp hj)
    · obtain rfl : h = p := Option.some.inj (hi.symm.trans hp)
      exact hself
    · obtain ⟨hheap, hexec⟩ := hs.others p (hother hp (Nat.ne_of_lt hlt))
      exact hafter j p s s' hheap hexec (hm.passed j hlt p hp)
  · obtain ⟨hheap, hexec⟩ := hs.others p (hother hp (Nat.ne_of_gt hj))
    exact hbefore j p s s' hheap hexec (hm.ahead j (Nat.le_of_succ_le hj) p hp)

end

/-! ### The state after some rounds -/

/-- The queries that wait at `h`. -/
def State.queue (s : State) (h : HandlerPtr) : List MainInfo := (s.heap h).elim [] (·.queueData)

/-- The queries executed for `h` after `k` rounds from `s₀` on, with their answers. -/
def answered (ok : HandlerPtr → Nat → Bool) (s₀ : State) (h : HandlerPtr) (k : Nat) :
    List (CString × Bool) :=
  executed h s₀.trace ++ ((s₀.queue h).take k).mapIdx fun j q =>
    (q.m_szQuery, ok h ((executed h s₀.trace).length + j))

/-- `out` is the outcome of the query that `h` has at position `k`, if it has one. -/
def Fits (ok : HandlerPtr → Nat → Bool) (s₀ : State) (k : Nat) (h : HandlerPtr)
    (out : Option Outcome) : Prop :=
  out.map Outcome.query = (s₀.queue h)[k]? ∧
    ∀ o ∈ out, o.succeeded = ok h ((executed h s₀.trace).length + k)

/-- Between two rounds, `k` of which have been made since `s₀`. -/
structure Rested (ok : HandlerPtr → Nat → Bool) (s₀ : State) (k : Nat)
    (calls : List (Amx × Public)) (s : State) : Prop where
  table : s.SQLHandle = s₀.SQLHandle
  p_Amx : s.p_Amx = s₀.p_Amx
  mutex : s.mutex = none
  calls : publicCalls s.trace = calls
  handlers : ∀ h ∈ s₀.SQLHandle, s.At h ((s₀.queue h).drop k) none (answered ok s₀ h k)

/-- Between the sweep and the tick of a round; `out i` is to be handed out at position `i`. -/
structure Swept (ok : HandlerPtr → Nat → Bool) (s₀ : State) (k : Nat)
    (calls : List (Amx × Public)) (out : Nat → Option Outcome) (s : State) : Prop where
  table : s.SQLHandle = s₀.SQLHandle
  p_Amx : s.p_Amx = s₀.p_Amx
  mutex : s.mutex = none
  calls : publicCalls s.trace = calls
  handlers : ∀ i h, s₀.SQLHandle[i]? = some h → Fits ok s₀ k h (out i) ∧
    s.At h ((s₀.queue h).drop (k + 1)) (out i) (answered ok s₀ h (k + 1))

section

variable {ok : HandlerPtr → Nat → Bool} {s₀ : State} {h : HandlerPtr} {k : Nat}

lemma answered_length (hk : k ≤ (s₀.queue h).length) :
    (answered ok s₀ h k).length = (executed h s₀.trace).length + k := by
  simp [answered, Nat.min_eq_left hk]

/-- One more query is executed, if one is left. -/
lemma answered_succ : answered ok s₀ h k ++ (((s₀.queue h).drop k).head?.map fun q =>
    (q.m_szQuery, ok h (answered ok s₀ h k).length)).toList = answered ok s₀ h (k + 1) := by
  rw [List.head?_drop]
  cases hq : (s₀.queue h)[k]? with
  | none =>
    have hle : (s₀.queue h).length ≤ k := List.getElem?_eq_none_iff.mp hq
    simp [answered, List.take_of_length_le hle, List.take_of_length_le (Nat.le_succ_of_le hle)]
  | some q =>
    have hlt : k < (s₀.queue h).length := (List.getElem?_eq_some_iff.mp hq).1
    rw [answered_length hlt.le, answered, answered, List.take_add_one, hq, Option.toList_some,
      List.mapIdx_concat, List.length_take, Nat.min_eq_left hlt.le]
    simp

end

/-! ### One round -/

/-- How far a loop still has to go. -/
def Point.rank (n : Nat) : Point → Nat
  | .sweep i | .tick i => n - i
  | .asleep | .idle => n + 1

section

variable {b : Build} {ok : HandlerPtr → Nat → Bool} {s₀ s s' : State} {k : Nat}
  {calls : List (Amx × Public)}

/-- An event that serves no handler. -/
lemma State.At.record {h : HandlerPtr} {waiting : List MainInfo} {out : Option Outcome}
    {done : List (CString × Bool)} {t : ThreadId} {e : Event} (ha : s.At h waiting out done)
    (heff : Effect t e s s') (hobj : ∀ p x, e.onObject p x = x) (hans : ∀ p, e.answer p = none) :
    s'.At h waiting out done := by
  obtain ⟨hx, hdone⟩ := ha
  refine ⟨?_, ?_⟩
  · rw [heff.heap h, hobj]
    exact hx
  · rw [heff.trace, executed_concat, hans, Option.toList_none, List.append_nil]
    exact hdone

/-- What the sweep has done to a handler behind it. -/
def Executed (ok : HandlerPtr → Nat → Bool) (s₀ : State) (k : Nat) (_ : Nat) (h : HandlerPtr)
    (s : State) : Prop :=
  ∃ out, Fits ok s₀ k h out ∧ s.At h ((s₀.queue h).drop (k + 1)) out (answered ok s₀ h (k + 1))

lemma unmoved_executed : Unmoved (Executed ok s₀ k) := by
  rintro j h s s' hheap hexec ⟨out, hfits, hat⟩
  exact ⟨out, hfits, unmoved_at (fun _ _ => _) (fun _ => out) (fun _ => _) j h s s' hheap hexec hat⟩

lemma unmoved_before {waiting : HandlerPtr → List MainInfo} {done : HandlerPtr → List (CString × Bool)} :
    Unmoved fun _ h s => s.At h (waiting h) none (done h) :=
  unmoved_at (fun _ => waiting) (fun _ => none) done

/-- A visit of the worker in its sweep. -/
lemma workerVisit_executes {i : Nat} {h : HandlerPtr} (hi : s.SQLHandle[i]? = some h)
    (hat : s.At h ((s₀.queue h).drop k) none (answered ok s₀ h k)) :
    (workerVisit i).wp (serving b ok) .worker (fun _ _ => False) (fun _ s' =>
      Executed ok s₀ k i h s' ∧ ∃ x done, Serving h s x done (publicCalls s.trace) s') s := by
  obtain ⟨⟨x, hx, hholds⟩, hdone⟩ := hat
  refine wp_mono (workerVisit_serves hi (Serving.refl hx) hholds) fun _ s' ⟨out, y, hq, hok, hy, hs'⟩ => ?_
  rw [hdone] at hok hs'
  rw [List.head?_drop] at hq
  refine ⟨⟨out, ⟨hq, fun o ho => ?_⟩, ⟨y, hs'.object, List.tail_drop ▸ hy⟩, ?_⟩, y, _, hs'⟩
  · obtain rfl := Option.mem_def.mp ho
    have hlt : k < (s₀.queue h).length := (List.getElem?_eq_some_iff.mp hq.symm).1
    rw [hok o ho, answered_length hlt.le]
  · rw [hs'.executed, answered_succ]

/-- What holds at the control points of a sweep. -/
def Sweeping (ok : HandlerPtr → Nat → Bool) (s₀ : State) (k : Nat) (calls : List (Amx × Public)) :
    Point → State → Prop
  | .asleep, s => Rested ok s₀ k calls s
  | .sweep i, s => Midway s₀.SQLHandle s₀.p_Amx (some (.worker, 1))
      (fun _ h s => s.At h ((s₀.queue h).drop k) none (answered ok s₀ h k)) (Executed ok s₀ k)
      (fun _ => calls) i s
  | _, _ => False

/-- The worker takes the mutex and begins its sweep. -/
lemma processQueryThread_sweeps (hs : Rested ok s₀ k calls s) :
    processQueryThread.wp (serving b ok) .worker (fun _ _ => False) (fun y s' =>
      (y = .asleep → ∃ out, Swept ok s₀ k calls out s') ∧ (y ≠ .asleep →
        Sweeping ok s₀ k calls y s' ∧ y.rank s₀.SQLHandle.length < s₀.SQLHandle.length + 1)) s := by
  refine wp_lockMutex hs.mutex fun s₁ heff => wp_size ?_
  have htable : s₁.SQLHandle = s₀.SQLHandle := heff.table.trans hs.table
  rw [htable, wp_ite]
  split_ifs with hpos
  · refine ⟨fun h => (by cases h), fun _ => ⟨⟨htable, heff.p_Amx.trans hs.p_Amx, ?_, ?_, Nat.zero_le _,
      fun j hj => absurd hj (Nat.not_lt_zero j), fun j _ h hh => ?_⟩, Nat.lt_succ_self _⟩⟩
    · exact heff.mutex (by simp)
    · rw [heff.trace, publicCalls_concat, hs.calls]
      exact List.append_nil _
    · exact (hs.handlers h (List.mem_of_getElem? hh)).record heff (fun _ _ => rfl) fun _ => rfl
  · refine wp_unlockMutex fun s₂ heff₂ => ⟨fun _ => ⟨fun _ => none, ?_⟩, fun h => absurd rfl h⟩
    have hnil : s₀.SQLHandle = [] := List.length_eq_zero_iff.mp (Nat.eq_zero_of_not_pos hpos)
    refine ⟨heff₂.table.trans htable, heff₂.p_Amx.trans (heff.p_Amx.trans hs.p_Amx), ?_, ?_,
      fun i h hh => ?_⟩
    · rw [heff₂.mutex (by simp), heff.mutex (by simp)]
      rfl
    · rw [heff₂.trace, publicCalls_concat, heff.trace, publicCalls_concat, hs.calls]
      simp [Event.publicCall]
    · rw [hnil] at hh
      cases hh

/-- The worker visits one handler, or ends its sweep. -/
lemma sweepLoop_sweeps {i : Nat} (hT : s₀.SQLHandle.Nodup)
    (hm : Sweeping ok s₀ k calls (.sweep i) s) :
    (sweepLoop i).wp (serving b ok) .worker (fun _ _ => False) (fun y s' =>
      (y = .asleep → ∃ out, Swept ok s₀ k calls out s') ∧ (y ≠ .asleep →
        Sweeping ok s₀ k calls y s' ∧ y.rank s₀.SQLHandle.length < s₀.SQLHandle.length - i)) s := by
  refine wp_size ?_
  rw [hm.table, wp_ite]
  split_ifs with hi
  · have hh : s₀.SQLHandle[i]? = some s₀.SQLHandle[i] := List.getElem?_eq_getElem hi
    rw [wp_bind]
    refine wp_mono (workerVisit_executes (by rw [hm.table]; exact hh) (hm.ahead i le_rfl _ hh))
      fun _ s' ⟨hexec, x, done, hs'⟩ => ?_
    rw [hm.calls] at hs'
    exact ⟨fun h => (by cases h), fun _ => ⟨hm.next hT unmoved_before unmoved_executed hh hs' hexec,
      Nat.sub_lt_sub_left hi (Nat.lt_succ_self i)⟩⟩
  · obtain rfl : i = s₀.SQLHandle.length := Nat.le_antisymm hm.le (Nat.le_of_not_lt hi)
    refine wp_unlockMutex fun s' heff => ⟨fun _ => ?_, fun h => absurd rfl h⟩
    have hall (j : Nat) : ∃ out, ∀ h, s₀.SQLHandle[j]? = some h → Fits ok s₀ k h out ∧
        s.At h ((s₀.queue h).drop (k + 1)) out (answered ok s₀ h (k + 1)) := by
      cases hj : s₀.SQLHandle[j]? with
      | none => exact ⟨none, fun h hh => by cases hh⟩
      | some h =>
        obtain ⟨out, hout⟩ := hm.passed j (List.getElem?_eq_some_iff.mp hj).1 h hj
        refine ⟨out, fun h' hh' => ?_⟩
        obtain rfl := Option.some.inj hh'
        exact hout
    choose out hout using hall
    refine ⟨out, heff.table.trans hm.table, heff.p_Amx.trans hm.p_Amx, ?_, ?_, fun j h hj => ?_⟩
    · rw [heff.mutex (by simp), hm.mutex]
      rfl
    · rw [heff.trace, publicCalls_concat, hm.calls]
      exact List.append_nil _
    · obtain ⟨hfits, hat⟩ := hout j h hj
      exact ⟨hfits, hat.record heff (fun _ _ => rfl) fun _ => rfl⟩

/-- A sweep executes one query of every queue. -/
lemma sweep_executes (hT : s₀.SQLHandle.Nodup) (hs : Rested ok s₀ k calls s) :
    (∃ s', Sweep (serving b ok) s s') ∧
      ∀ s', Sweep (serving b ok) s s' → ∃ out, Swept ok s₀ k calls out s' := by
  have hJ : ∀ x p s, Starts {.processTick} .worker x p → Sweeping ok s₀ k calls x s →
      p.wp (serving b ok) .worker (fun _ _ => False) (fun y s' =>
        (y = .asleep → ∃ out, Swept ok s₀ k calls out s') ∧ (y ≠ .asleep → Sweeping ok s₀ k calls y s' ∧
          y.rank s₀.SQLHandle.length < x.rank s₀.SQLHandle.length)) s := by
    intro x p s hp hs
    cases hp with
    | wake => exact processQueryThread_sweeps hs
    | sweep i => exact sweepLoop_sweeps hT hs
  refine ⟨exists_cycle (Q := fun s' => ∃ out, Swept ok s₀ k calls out s') (fun x s hx => ?_) hJ hs,
    fun s' h => Cycle.ends (Q := fun s' => ∃ out, Swept ok s₀ k calls out s') hJ h hs⟩
  have hfree : s.FreeFor .worker := by
    intro u n hu
    cases x with
    | asleep => cases hx.mutex.symm.trans hu
    | sweep i =>
      cases hx.mutex.symm.trans hu
      rfl
    | _ => exact hx.elim
  cases x with
  | asleep => exact ⟨_, .wake, IsPlugin.exists_run_alone (exists_served b ok) _ hfree⟩
  | sweep i => exact ⟨_, .sweep i, IsPlugin.exists_run_alone (exists_served b ok) _ hfree⟩
  | _ => exact hx.elim

/-- The calls with which a tick hands out the outcomes `out` of the first `n` positions. -/
def tickCalls (p_Amx : List Amx) (out : Nat → Option Outcome) (n : Nat) : List (Amx × Public) :=
  (List.range n).flatMap fun i => (out i).elim [] (Outcome.calls p_Amx i)

lemma tickCalls_succ (p_Amx : List Amx) (out : Nat → Option Outcome) (n : Nat) :
    tickCalls p_Amx out (n + 1) =
      tickCalls p_Amx out n ++ (out n).elim [] (Outcome.calls p_Amx n) := by
  simp [tickCalls, List.range_succ]

/-- What holds at the control points of a tick. -/
def Ticking (ok : HandlerPtr → Nat → Bool) (s₀ : State) (k : Nat) (calls : List (Amx × Public))
    (out : Nat → Option Outcome) : Point → State → Prop
  | .idle, s => Swept ok s₀ k calls out s
  | .tick i, s => Midway s₀.SQLHandle s₀.p_Amx none
      (fun i h s => s.At h ((s₀.queue h).drop (k + 1)) (out i) (answered ok s₀ h (k + 1)))
      (fun _ h s => s.At h ((s₀.queue h).drop (k + 1)) none (answered ok s₀ h (k + 1)))
      (fun i => calls ++ tickCalls s₀.p_Amx out i) i s
  | _, _ => False

variable {out : Nat → Option Outcome}

/-- `ProcessTick` begins. -/
lemma processTick_ticks (hs : Swept ok s₀ k calls out s) :
    processTick.wp (serving b ok) .main (fun _ _ => False) (fun y s' =>
      (y = .idle → Rested ok s₀ (k + 1) (calls ++ tickCalls s₀.p_Amx out s₀.SQLHandle.length) s') ∧
      (y ≠ .idle → Ticking ok s₀ k calls out y s' ∧
        y.rank s₀.SQLHandle.length < s₀.SQLHandle.length + 1)) s := by
  refine wp_mark fun s₁ heff => wp_size ?_
  have htable : s₁.SQLHandle = s₀.SQLHandle := heff.table.trans hs.table
  have hmutex : s₁.mutex = none := (heff.mutex (by simp)).trans hs.mutex
  have hcalls : publicCalls s₁.trace = calls := by
    rw [heff.trace, publicCalls_concat, hs.calls]
    exact List.append_nil _
  rw [htable, wp_ite]
  split_ifs with hpos
  · refine ⟨fun h => (by cases h), fun _ => ⟨⟨htable, heff.p_Amx.trans hs.p_Amx, hmutex,
      hcalls.trans (List.append_nil _).symm, Nat.zero_le _, fun j hj => absurd hj (Nat.not_lt_zero j),
      fun j _ h hh => ?_⟩, Nat.lt_succ_self _⟩⟩
    exact (hs.handlers j h hh).2.record heff (fun _ _ => rfl) fun _ => rfl
  · refine wp_mark fun s₂ heff₂ => ⟨fun _ => ?_, fun h => absurd rfl h⟩
    have hnil : s₀.SQLHandle = [] := List.length_eq_zero_iff.mp (Nat.eq_zero_of_not_pos hpos)
    refine ⟨heff₂.table.trans htable, heff₂.p_Amx.trans (heff.p_Amx.trans hs.p_Amx),
      (heff₂.mutex (by simp)).trans hmutex, ?_, fun h hh => ?_⟩
    · rw [heff₂.trace, publicCalls_concat, hcalls, hnil]
      rfl
    · rw [hnil] at hh
      cases hh

/-- `ProcessTick` visits one handler, or ends. -/
lemma tickLoop_ticks {i : Nat} (hT : s₀.SQLHandle.Nodup)
    (hm : Ticking ok s₀ k calls out (.tick i) s) :
    (tickLoop i).wp (serving b ok) .main (fun _ _ => False) (fun y s' =>
      (y = .idle → Rested ok s₀ (k + 1) (calls ++ tickCalls s₀.p_Amx out s₀.SQLHandle.length) s') ∧
      (y ≠ .idle → Ticking ok s₀ k calls out y s' ∧
        y.rank s₀.SQLHandle.length < s₀.SQLHandle.length - i)) s := by
  refine wp_size ?_
  rw [hm.table, wp_ite]
  split_ifs with hi
  · have hh : s₀.SQLHandle[i]? = some s₀.SQLHandle[i] := List.getElem?_eq_getElem hi
    obtain ⟨⟨x, hx, hholds⟩, hdone⟩ := hm.ahead i le_rfl _ hh
    rw [wp_bind]
    refine wp_mono (tickVisit_serves (by rw [hm.table]; exact hh) (Serving.refl hx) hholds)
      fun _ s' ⟨y, hy, hs'⟩ => ?_
    rw [hm.calls, hm.p_Amx, List.append_assoc, ← tickCalls_succ] at hs'
    exact ⟨fun h => (by cases h), fun _ => ⟨hm.next hT (unmoved_at _ _ _) unmoved_before hh hs'
      ⟨⟨y, hs'.object, hy⟩, hs'.executed.trans hdone⟩, Nat.sub_lt_sub_left hi (Nat.lt_succ_self i)⟩⟩
  · obtain rfl : i = s₀.SQLHandle.length := Nat.le_antisymm hm.le (Nat.le_of_not_lt hi)
    refine wp_mark fun s' heff => ⟨fun _ => ?_, fun h => absurd rfl h⟩
    refine ⟨heff.table.trans hm.table, heff.p_Amx.trans hm.p_Amx,
      (heff.mutex (by simp)).trans hm.mutex, ?_, fun h hh => ?_⟩
    · rw [heff.trace, publicCalls_concat, hm.calls]
      exact List.append_nil _
    · obtain ⟨j, hj, rfl⟩ := List.mem_iff_getElem.mp hh
      exact (hm.passed j hj _ (List.getElem?_eq_getElem hj)).record heff (fun _ _ => rfl) fun _ => rfl

/-- A tick hands out the outcomes of the sweep before it. -/
lemma tick_delivers (hT : s₀.SQLHandle.Nodup) (hs : Swept ok s₀ k calls out s) :
    (∃ s', Tick (serving b ok) s s') ∧ ∀ s', Tick (serving b ok) s s' →
      Rested ok s₀ (k + 1) (calls ++ tickCalls s₀.p_Amx out s₀.SQLHandle.length) s' := by
  have hJ : ∀ x p s, Starts {.processTick} .main x p → Ticking ok s₀ k calls out x s →
      p.wp (serving b ok) .main (fun _ _ => False) (fun y s' =>
        (y = .idle → Rested ok s₀ (k + 1) (calls ++ tickCalls s₀.p_Amx out s₀.SQLHandle.length) s') ∧
        (y ≠ .idle → Ticking ok s₀ k calls out y s' ∧
          y.rank s₀.SQLHandle.length < x.rank s₀.SQLHandle.length)) s := by
    intro x p s hp hs
    cases hp with
    | call hcall =>
      obtain rfl := Set.mem_singleton_iff.mp hcall
      exact processTick_ticks hs
    | tick i => exact tickLoop_ticks hT hs
  refine ⟨exists_cycle (fun x s hx => ?_) hJ hs, fun s' h => Cycle.ends hJ h hs⟩
  have hfree : s.FreeFor .main := by
    intro u n hu
    cases x with
    | idle => cases hx.mutex.symm.trans hu
    | tick i => cases hx.mutex.symm.trans hu
    | _ => exact hx.elim
  cases x with
  | idle => exact ⟨_, .call rfl, IsPlugin.exists_run_alone (exists_served b ok) _ hfree⟩
  | tick i => exact ⟨_, .tick i, IsPlugin.exists_run_alone (exists_served b ok) _ hfree⟩
  | _ => exact hx.elim

end

/-! ### Many rounds -/

/-- Before the first round: every handler of the table is connected and has nothing on its way but the
queries in its queue. -/
structure Waiting (s : State) : Prop where
  nodup : s.SQLHandle.Nodup
  mutex : s.mutex = none
  handlers : ∀ h ∈ s.SQLHandle, ∃ x, s.heap h = some x ∧ x.Holds x.queueData none

/-- After `k` rounds from `s₀` on every handler has handed out the outcomes of its first `k` queries,
or of all of them: the `j`-th round calls the publics for the query at position `j` of each queue. -/
structure Delivered (ok : HandlerPtr → Nat → Bool) (s₀ : State) (k : Nat) (s : State) : Prop where
  table : s.SQLHandle = s₀.SQLHandle
  handlers : ∀ h ∈ s₀.SQLHandle, ∃ x, s.heap h = some x ∧ x.Holds ((s₀.queue h).drop k) none
  executed : ∀ h ∈ s₀.SQLHandle, executed h s.trace = answered ok s₀ h k
  finished : ∀ h ∈ s₀.SQLHandle, (s₀.queue h).length ≤ k → ∃ x, s.heap h = some x ∧
    x.queueData = [] ∧ x.callbackData = [] ∧ x.errorCallback = [] ∧ x.m_bQueryProcessing = false
  calls : ∃ out : Nat → Nat → Option Outcome,
    (∀ j < k, ∀ i h, s₀.SQLHandle[i]? = some h → Fits ok s₀ j h (out j i)) ∧
    publicCalls s.trace = publicCalls s₀.trace ++
      (List.range k).flatMap fun j => tickCalls s₀.p_Amx (out j) s₀.SQLHandle.length

section

variable {b : Build} {ok : HandlerPtr → Nat → Bool} {s₀ s s' : State} {k : Nat}
  {calls : List (Amx × Public)}

lemma Waiting.rested (hs : Waiting s) : Rested ok s 0 (publicCalls s.trace) s where
  table := rfl
  p_Amx := rfl
  mutex := hs.mutex
  calls := rfl
  handlers h hh := by
    obtain ⟨x, hx, hholds⟩ := hs.handlers h hh
    refine ⟨⟨x, hx, ?_⟩, by simp [answered]⟩
    rw [List.drop_zero, State.queue, hx, Option.elim_some]
    exact hholds

/-- What is known after `k` rounds. -/
lemma Turns.rested (hT : s₀.SQLHandle.Nodup) (hs₀ : Rested ok s₀ 0 (publicCalls s₀.trace) s₀)
    (h : Turns (serving b ok) k s₀ s) : ∃ out : Nat → Nat → Option Outcome,
      (∀ j < k, ∀ i h, s₀.SQLHandle[i]? = some h → Fits ok s₀ j h (out j i)) ∧
      Rested ok s₀ k (publicCalls s₀.trace ++
        (List.range k).flatMap fun j => tickCalls s₀.p_Amx (out j) s₀.SQLHandle.length) s := by
  induction k generalizing s with
  | zero =>
    cases h
    exact ⟨fun _ _ => none, fun j hj => absurd hj (Nat.not_lt_zero j), by simpa using hs₀⟩
  | succ k ih =>
    obtain _ | ⟨hrounds, hsweep, htick⟩ := h
    obtain ⟨out, hfits, hrest⟩ := ih hrounds
    obtain ⟨outₖ, hswept⟩ := (sweep_executes hT hrest).2 _ hsweep
    have hticked := (tick_delivers hT hswept).2 _ htick
    have hne {j : Nat} (hj : j < k) : Function.update out k outₖ j = out j :=
      Function.update_of_ne (Nat.ne_of_lt hj) _ _
    refine ⟨Function.update out k outₖ, fun j hj i h hh => ?_, ?_⟩
    · obtain rfl | hlt := Nat.eq_or_lt_of_le (Nat.lt_succ_iff.mp hj)
      · rw [Function.update_self]
        exact (hswept.handlers i h hh).1
      · rw [hne hlt]
        exact hfits j hlt i h hh
    · have hcalls : ((List.range k).flatMap fun j =>
          tickCalls s₀.p_Amx (Function.update out k outₖ j) s₀.SQLHandle.length) =
          (List.range k).flatMap fun j => tickCalls s₀.p_Amx (out j) s₀.SQLHandle.length :=
        List.flatMap_congr fun j hj => by rw [hne (List.mem_range.mp hj)]
      rw [List.range_succ, List.flatMap_append, hcalls, ← List.append_assoc]
      simpa using hticked

lemma exists_rounds (hT : s₀.SQLHandle.Nodup)
    (hs₀ : Rested ok s₀ 0 (publicCalls s₀.trace) s₀) (k : Nat) :
    ∃ s, Turns (serving b ok) k s₀ s := by
  induction k with
  | zero => exact ⟨s₀, .zero s₀⟩
  | succ k ih =>
    obtain ⟨s₁, hrounds⟩ := ih
    obtain ⟨out, -, hrest⟩ := hrounds.rested hT hs₀
    obtain ⟨⟨s₂, hsweep⟩, hswept⟩ := sweep_executes (b := b) hT hrest
    obtain ⟨outₖ, hs₂⟩ := hswept s₂ hsweep
    obtain ⟨⟨s₃, htick⟩, -⟩ := tick_delivers (b := b) hT hs₂
    exact ⟨s₃, hrounds.succ hsweep htick⟩

/-- Every number of rounds comes to its end, and every handler is served in each of them. -/
theorem rounds_deliver (b : Build) (ok : HandlerPtr → Nat → Bool) (hs : Waiting s) (k : Nat) :
    (∃ s', Turns (serving b ok) k s s') ∧
      ∀ s', Turns (serving b ok) k s s' → Delivered ok s k s' := by
  refine ⟨exists_rounds hs.nodup hs.rested k, fun s' hrounds => ?_⟩
  obtain ⟨out, hfits, hrest⟩ := hrounds.rested hs.nodup hs.rested
  refine ⟨hrest.table, fun h hh => (hrest.handlers h hh).1, fun h hh => (hrest.handlers h hh).2,
    fun h hh hle => ?_, out, hfits, hrest.calls⟩
  obtain ⟨x, hx, hholds⟩ := (hrest.handlers h hh).1
  rw [List.drop_of_length_le hle] at hholds
  exact ⟨x, hx, hholds.queueData, hholds.callbackData, hholds.errorCallback, hholds.processing⟩

end

/-- A connected handler with the queries `qs`. -/
def waitingHandler (c : ConnPtr) (qs : List MainInfo) : CMySQLHandler :=
  { m_Hostname := [], m_Username := [], m_Password := [], m_Database := [], m_Port := 0
    m_bIsConnected := true, m_stConnectionPtr := some c, queueData := qs }

/-- Two handlers, one with two queries and one with one. -/
def threeQueries : State where
  SQLHandle := [0, 1]
  heap h := if h = 0 then some (waitingHandler 0 [⟨['p'], 1, 0, ['f']⟩, ⟨['q'], 2, 0, ['f']⟩])
    else if h = 1 then some (waitingHandler 1 [⟨['r'], 3, 0, ['g']⟩]) else none
  p_Amx := [⟨0, [['f'], OnQueryError]⟩]

/-- The second query of each handler fails. -/
theorem rounds_deliver_threeQueries :
    ∃ s, Turns (serving .pthread fun _ n => n == 0) 2 threeQueries s ∧
      Delivered (fun _ n => n == 0) threeQueries 2 s := by
  have hwaiting : Waiting threeQueries := by
    refine ⟨by decide, rfl, fun h hh => ?_⟩
    obtain rfl | rfl : h = 0 ∨ h = 1 := by simpa [threeQueries] using hh
    · exact ⟨_, rfl, rfl, by simp [waitingHandler], rfl, rfl, rfl, rfl, rfl⟩
    · exact ⟨_, rfl, rfl, by simp [waitingHandler], rfl, rfl, rfl, rfl, rfl⟩
  obtain ⟨⟨s, hs⟩, hall⟩ := rounds_deliver .pthread (fun _ n => n == 0) hwaiting 2
  exact ⟨s, hs, hall s hs⟩

end MySQLPlugin
