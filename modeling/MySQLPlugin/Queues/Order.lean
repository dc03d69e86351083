import MySQLPlugin.Queues.Delivery

/-!
# The order of the outcomes

Successes and errors travel through separate queues, and `ProcessTick` hands out at most one entry
of each in a visit. The worker does not wait for the errors to be handed out, so errors pile up
while a later success is handed out.
-/

namespace MySQLPlugin

open Threads Dispatch

lemma bookOp_eq_handOk {h : HandlerPtr} {e : Event} (he : e.bookOp h = some .handOk) :
    e = .handOut h := by
  cases e with
  | assign t p a =>
    cases t <;> cases a <;> simp [Event.bookOp] at he
    rw [he]
  | _ => simp [Event.bookOp] at he

/-- The successes that the ledger hands out are those that `ProcessTick` hands out. -/
lemma handOk_prefix_iff {h : HandlerPtr} {es : List Event} (l : List (Op MainInfo ErrorInfo)) :
    l ++ [.handOk] <+: ops h es ↔ ∃ es', es' ++ [.handOut h] <+: es ∧ ops h es' = l := by
  constructor
  · intro hl
    obtain ⟨es₁, hpre, hes₁⟩ := List.prefix_filterMap_iff.mp hl
    obtain ⟨es₂, es₃, rfl, hl₂, hl₃⟩ := List.filterMap_eq_append_iff.mp hes₁.symm
    obtain ⟨es₄, e, es₅, rfl, hnone, he, -⟩ := List.filterMap_eq_cons_iff.mp hl₃
    refine ⟨es₂ ++ es₄, ?_, ?_⟩
    · rw [← bookOp_eq_handOk he]
      refine .trans ⟨es₅, by simp⟩ hpre
    · rw [ops_append, ← hl₂]
      have : ops h es₄ = [] := List.filterMap_eq_nil_iff.mpr hnone
      rw [this, List.append_nil]
      rfl
  · rintro ⟨es', hpre, rfl⟩
    have hop : (Event.handOut h).bookOp h = some .handOk := by simp [Event.bookOp]
    rw [← ops_concat_some hop]
    exact hpre.filterMap _

/-- In each channel the outcomes are handed out in order of acceptance. Across the two channels
they are if and only if no success is handed out while the error of a threaded query is still in
`errorCallback`. -/
theorem outcomes_in_turn (b : Build) (p_Amx : List Amx) {s : State}
    (hs : Runs b {n | n.Open} (State.init p_Amx) s) (h : HandlerPtr) :
    Ledger.InOrder (books h s.trace).handedOk ∧ Ledger.InOrder (owners (books h s.trace).handedErr) ∧
    ((∀ es, es <+: s.trace → (books h es).InTurn) ↔
      ∀ es, es ++ [.handOut h] <+: s.trace → owners (books h es).failed = []) := by
  have hk := runs_kept (h := h) (fun n hn => hn) hs
  have sound := Ledger.sound_run (ops h s.trace)
  refine ⟨sound.ok.sublist (List.sublist_append_left _ _), ?_, ?_⟩
  · have herr := sound.err
    rw [owners_append] at herr
    exact herr.sublist (List.sublist_append_left _ _)
  have hiff := Ledger.inTurn_iff (hk.failsAlone h)
  constructor
  · intro hturn es hes
    refine hiff.mp (fun l hl => ?_) (ops h es) ((handOk_prefix_iff _).mpr ⟨es, hes, rfl⟩) ?_
    · obtain ⟨es', hpre, rfl⟩ := List.prefix_filterMap_iff.mp hl
      exact hturn es' hpre
    · obtain ⟨d, ds, -, -, hdone, -⟩ := hk.announced h es hes
      have hdone : (Ledger.run (ops h es)).done = d :: ds := hdone
      simp [hdone]
  · intro hnone es hes
    refine hiff.mpr (fun l hl _ => ?_) (ops h es) (hes.filterMap _)
    obtain ⟨es', hpre, rfl⟩ := (handOk_prefix_iff l).mp hl
    exact hnone es' hpre

/-- The run of `fiveQueries` hands out two successes and an error, in turn. -/
theorem outcomes_in_turn_fiveQueries :
    ∃ s, play (allowing .pthread {n | n.Open}) failsB fiveQueries (State.init [subscriber]) = some s ∧
      (books 0 s.trace).InTurn ∧ (books 0 s.trace).handedOk.length = 2 ∧
      (owners (books 0 s.trace).handedErr).length = 1 ∧
      Ledger.InOrder (books 0 s.trace).handedOk ∧
      Ledger.InOrder (owners (books 0 s.trace).handedErr) ∧
      ((∀ es, es <+: s.trace → (books 0 es).InTurn) ↔
        ∀ es, es ++ [.handOut 0] <+: s.trace → owners (books 0 es).failed = []) := by
  have hplay : (play (allowing .pthread {n | n.Open}) failsB fiveQueries (State.init [subscriber])).map
      (fun s => (decide (books 0 s.trace).InTurn, (books 0 s.trace).handedOk.length,
        (owners (books 0 s.trace).handedErr).length)) = some (true, 2, 1) := by decide +kernel
  obtain ⟨s, hs, hbooks⟩ := Option.map_eq_some_iff.mp hplay
  simp only [Prod.mk.injEq, decide_eq_true_eq] at hbooks
  obtain ⟨hturn, hok, herr⟩ := hbooks
  exact ⟨s, hs, hturn, hok, herr, outcomes_in_turn .pthread [subscriber] (fiveQueries_runs hs) 0⟩

/-- Threaded queries, and the connection they are for. -/
def enqueues : Set NativeCall :=
  {n | (∃ host user db pass port, n = .mysql_connect host user db pass port) ∨
    ∃ query resultid extraid c, n = .mysql_query query resultid extraid c ∧ resultid ≠ -1}

/-- The first two of three queries fail before the next tick, the third one succeeds. -/
def twoErrors : List Action :=
  [.native (.mysql_connect [] [] [] [] 0), .native (.mysql_query ['a'] 1 0 1),
    .native (.mysql_query ['b'] 2 0 1), .native (.mysql_query ['c'] 3 0 1), .visit 0, .visit 0,
    .visit 0, .tick 0]

/-- Only the query `c` succeeds. -/
def onlyC : ∀ {β : Type}, Stmt β → State → Reply
  | _, .leave _ _ (.mysql_real_query query), _ => { ok := query == ['c'] }
  | _, _, _ => {}

/-- The success of the third query is handed out before the error of the second one. -/
theorem outcomes_not_in_turn :
    ¬ ∀ (b : Build) (p_Amx : List Amx) (s : State) (h : HandlerPtr),
      Runs b enqueues (State.init p_Amx) s → (books h s.trace).InTurn := by
  intro hall
  have hplay : (play (allowing .pthread enqueues) onlyC twoErrors (State.init [])).map
      (fun s => decide (books 0 s.trace).InTurn) = some false := by decide
  obtain ⟨s, hs, hturn⟩ := Option.map_eq_some_iff.mp hplay
  refine of_decide_eq_false hturn (hall .pthread [] s 0 (runs_of_play ?_ ?_ hs))
  · intro β a s
    cases a <;> simp [Stmt.Calls, onlyC]
  · simp [twoErrors, Action.CallsOnly, enqueues]

end MySQLPlugin
