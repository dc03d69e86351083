import MySQLPlugin.Interplay.Rules

/-!
# Schedules

A schedule says which thread takes the next steps, and what the environment replies; carrying it
out computes a reachable configuration.
-/

namespace MySQLPlugin

open Threads

/-- The program that a thread starts by itself at a control point. -/
def Point.program : ThreadId → Point → Option (Code Point)
  | .main, .tick i => some (tickLoop i)
  | .worker, .asleep => some processQueryThread
  | .worker, .sweep i => some (sweepLoop i)
  | _, _ => none

/-- A turn of a schedule: the server or a script calls the plugin, or thread `t` takes `n` steps, to
which the environment replies `r`. -/
inductive Turn where
  | call (m : MainCall)
  | go (t : ThreadId) (n : Nat) (r : Reply)

section

variable (M : Machine Stmt Fault State ThreadId Reply)

/-- One step of thread `t`. -/
def goOn (t : ThreadId) (r : Reply) (c : Config Stmt Fault State ThreadId Point) :
    Option (Config Stmt Fault State ThreadId Point) :=
  match c.place t with
  | .at x => (x.program t).map fun p => c.move t (.inside x p) c.shared
  | .inside _ _ => c.advance M t r

/-- The next `n` steps of thread `t`. -/
def goOnFor (t : ThreadId) (r : Reply) : Nat → Config Stmt Fault State ThreadId Point →
    Option (Config Stmt Fault State ThreadId Point)
  | 0, c => some c
  | n + 1, c => (goOn M t r c).bind (goOnFor t r n)

def Turn.take : Turn → Config Stmt Fault State ThreadId Point →
    Option (Config Stmt Fault State ThreadId Point)
  | .call m, c =>
    match c.place .main with
    | .at .idle => some (c.move .main (.inside .idle m.code) c.shared)
    | _ => none
  | .go t n r, c => goOnFor M t r n c

/-- Carry out a schedule. -/
def schedule : List Turn → Config Stmt Fault State ThreadId Point →
    Option (Config Stmt Fault State ThreadId Point)
  | [], c => some c
  | turn :: turns, c => (turn.take M c).bind (schedule turns)

end

section

variable {M : Machine Stmt Fault State ThreadId Reply} {N : Set NativeCall}
  {c₀ c c' : Config Stmt Fault State ThreadId Point}

/-- The turn calls no native outside `N`, and its reply is admitted. -/
def Turn.Admitted (M : Machine Stmt Fault State ThreadId Reply) (N : Set NativeCall) : Turn → Prop
  | .call m => m ∈ MainCall.Only N
  | .go t _ r => ∀ {β : Type} (a : Stmt β) s, M.admits t a r s

lemma goOn_step {t : ThreadId} {r : Reply} (hr : ∀ {β : Type} (a : Stmt β) s, M.admits t a r s)
    (h : goOn M t r c = some c') : Config.Step M (Starts (MainCall.Only N)) c c' := by
  rw [goOn] at h
  split at h
  · rename_i x hat
    obtain ⟨p, hp, rfl⟩ := Option.map_eq_some_iff.mp h
    refine .start hat ?_
    cases t <;> cases x <;> simp only [Point.program, Option.some.injEq, reduceCtorEq] at hp <;>
      subst hp
    · exact .tick _
    · exact .wake
    · exact .sweep _
  · exact Config.step_of_advance hr h

lemma goOnFor_reachable {t : ThreadId} {r : Reply} {n : Nat}
    (hr : ∀ {β : Type} (a : Stmt β) s, M.admits t a r s)
    (hc : Config.Reachable M (Starts (MainCall.Only N)) c₀ c) (h : goOnFor M t r n c = some c') :
    Config.Reachable M (Starts (MainCall.Only N)) c₀ c' := by
  induction n generalizing c with
  | zero =>
    cases h
    exact hc
  | succ n ih =>
    obtain ⟨d, hd, hrest⟩ := Option.bind_eq_some_iff.mp h
    exact ih (hc.next (goOn_step hr hd)) hrest

lemma Turn.reachable {turn : Turn} (hturn : turn.Admitted M N)
    (hc : Config.Reachable M (Starts (MainCall.Only N)) c₀ c) (h : turn.take M c = some c') :
    Config.Reachable M (Starts (MainCall.Only N)) c₀ c' := by
  cases turn with
  | call m =>
    simp only [Turn.take] at h
    split at h
    · rename_i hat
      cases h
      exact hc.next (.start hat (.call hturn))
    · cases h
  | go t n r => exact goOnFor_reachable hturn hc h

/-- A schedule leads to a reachable configuration. -/
lemma reachable_of_schedule {turns : List Turn} (hturns : ∀ turn ∈ turns, turn.Admitted M N)
    (hc : Config.Reachable M (Starts (MainCall.Only N)) c₀ c)
    (h : schedule M turns c = some c') : Config.Reachable M (Starts (MainCall.Only N)) c₀ c' := by
  induction turns generalizing c with
  | nil =>
    cases h
    exact hc
  | cons turn turns ih =>
    obtain ⟨d, hd, hrest⟩ := Option.bind_eq_some_iff.mp h
    exact ih (fun turn' h' => hturns turn' (List.mem_cons_of_mem turn h'))
      (Turn.reachable (hturns turn List.mem_cons_self) hc hd) hrest

/-- A schedule in which every reply has been found to be admitted. -/
lemma reachable_of_checked {b : Build} {R : ∀ {β : Type}, ThreadId → Stmt β → Reply → State → Prop}
    {ok : ∀ {β : Type}, ThreadId → Stmt β → Reply → State → Bool}
    (hok : ∀ {β : Type} t (a : Stmt β) r s, ok t a r s = true → R t a r s) {turns : List Turn}
    (hturns : ∀ turn ∈ turns, turn.Admitted (plugin b) N)
    (h : schedule ((plugin b).checked ok) turns c = some c') :
    Config.Reachable ((plugin b).restrict R) (Starts (MainCall.Only N)) c c' := by
  have hadmitted : ∀ turn ∈ turns, turn.Admitted ((plugin b).checked ok) N := by
    intro turn hturn
    have hadm := hturns turn hturn
    cases turn with
    | call m => exact hadm
    | go t n r => exact fun _ _ _ => trivial
  exact (reachable_of_schedule hadmitted .start h).mono
    (Machine.Step.of_checked (fun _ _ _ _ => trivial) hok) id

end

/-- The point that a thread is at. -/
def pointOf : Local Stmt Fault Point → Option Point
  | .at x => some x
  | _ => none

lemma pointOf_eq_some {l : Local Stmt Fault Point} {x : Point} :
    pointOf l = some x ↔ l = .at x := by
  cases l <;> simp [pointOf]

end MySQLPlugin
