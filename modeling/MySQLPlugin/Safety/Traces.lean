import MySQLPlugin.Safety.Faults
import MySQLPlugin.Threads.Turns

/-!
# Permitted events

The policy of the statements is a policy of the events that they leave. What every permitted event
keeps holds in every interleaving, and so does what is true of every permitted event of the trace.
-/

namespace MySQLPlugin

open Threads Prog

/-- In the state `s` thread `t` may leave the event. -/
def Event.Permitted (D : Scope) (t : ThreadId) (s : State) : Event → Prop
  | .lock _ | .relock _ => t = .worker → s.locked t = none
  | .unlock _ => t = .worker → visiting s.trace = none
  | .erase i h => s.SQLHandle[i]? = some h → s.heap h = none
  | .delete _ => ¬ D.AllOpen
  | .visit _ => t = .worker ∧ s.locked t ≠ none ∧ visiting s.trace = none ∧ inHand s.trace = none
  | .mark (.visitEnd h) => t = .worker ∧ visiting s.trace = some h ∧ inHand s.trace = none
  | .enter _ h f _ => t = .worker → ∀ q, f = .mysql_real_query q →
      inHand s.trace = none ∧ ∃ d, Serves h d s ∧ d.m_szQuery = q
  | .assign _ h a => (a.OnQueue → s.locked t ≠ none) ∧ a.Allowed t h s ∧ a.Follows D h s
  | .exec a p => told s.trace ++ [(a, p)] <+: p.calls s.p_Amx ∧
      (D.CallbacksOpen → ∃ h, p.TellsSuccess h s ∨ p.TellsError h s)
  | _ => True

/-- A step of thread `t` that leaves the permitted event `e`. -/
structure Permits (D : Scope) (t : ThreadId) (e : Event) (s s' : State) : Prop
    extends Effect t e s s' where
  permitted : e.Permitted D t s
  others : ∀ u, u ≠ t → s'.locked u = s.locked u

section

variable {b : Build} {D : Scope} {p_Amx : List Amx} {c : Config Stmt Fault State ThreadId Point}
  {t : ThreadId} {s s' : State}

lemma Stmt.May.only {β : Type} {a : Stmt β} (ha : a.May D t s) :
    a.Only t (Event.Permitted D t s) := by
  cases a with
  | lockMutex => exact ⟨fun ht => ha (.inl ht), fun ht => ha (.inl ht)⟩
  | unlockMutex => exact ha.2
  | guard h => exact ⟨ha.1, ha.2.1, ha.2.2.2⟩
  | enter h f => exact fun _ => ha.2
  | assign h a => exact ⟨ha.2.1, ha.2.2.2⟩
  | exec a p => exact ha.2
  | mark m => cases m <;> exact ha
  | erase i => exact ha.2.2
  | delete h => exact ha.1
  | new => exact fun _ => trivial
  | mysql_init h => exact fun _ => trivial
  | leave h c f => exact fun _ => trivial
  | access h f => exact fun _ => trivial
  | _ => trivial

/-- A step changes nothing that the threads share, or leaves a permitted event. -/
lemma Reaches.permits (hc : Reaches b D p_Amx c) {c' : Config Stmt Fault State ThreadId Point}
    (hst : Config.StepOf (allowing b D.callbacks) (Starts (MainCall.Only D.direct)) t c c') :
    c'.shared = c.shared ∨ ∃ e, Permits D t e c.shared c'.shared := by
  have hexec {x : Point} {β : Type} {a : Stmt β} {k : β → Code Point} {o : Except Fault β}
      {s' : State} (hat : c.place t = .inside x (.act a k))
      (hst : (allowing b D.callbacks).Step t a c.shared o s') :
      s' = c.shared ∨ ∃ e, Permits D t e c.shared s' := by
    have honly : a.Only t (Event.Permitted D t c.shared) := (hc.permitted hat).only
    obtain ⟨r, -, hrun⟩ := step_of_allowing hst
    have hothers : ∀ u, u ≠ t → s'.locked u = c.shared.locked u := fun u hu => Stmt.run_locked hu hrun
    rcases Stmt.run_effect honly hrun with hsame | ⟨e, he, heff⟩
    · exact .inl hsame
    · exact .inr ⟨e, heff, he, hothers⟩
  cases hst with
  | start => exact .inl rfl
  | act hat hst => exact hexec hat hst
  | fault hat hst => exact hexec hat hst
  | finish => exact .inl rfl

/-- Rule of invariants: what every permitted event keeps holds in every reachable configuration. -/
lemma Reaches.keeps {I : State → Prop} (hI : ∀ t e s s', I s → Permits D t e s s' → I s')
    (h₀ : I (State.init p_Amx)) (hc : Reaches b D p_Amx c) : I c.shared := by
  induction hc with
  | start => exact h₀
  | next hc hst ih =>
    obtain ⟨t, hst⟩ := Config.step_iff.mp hst
    rcases Reaches.permits hc hst with hsame | ⟨e, he⟩
    · rw [hsame]
      exact ih
    · exact hI t e _ _ ih he

/-- Rule of traces: what an invariant says of a permitted event holds of every event of the trace. -/
lemma Reaches.always {I : State → Prop} {P : List Event → Event → Prop}
    (hI : ∀ t e s s', I s → Permits D t e s s' → I s')
    (hP : ∀ t e s s', I s → Permits D t e s s' → P s.trace e) (h₀ : I (State.init p_Amx))
    (hc : Reaches b D p_Amx c) {es : List Event} {e : Event} (he : es ++ [e] <+: c.shared.trace) :
    P es e := by
  have hkeeps : I c.shared ∧ ∀ es e, es ++ [e] <+: c.shared.trace → P es e := by
    refine Reaches.keeps (I := fun s => I s ∧ ∀ es e, es ++ [e] <+: s.trace → P es e)
      (fun t e s s' hs hp => ⟨hI t e s s' hs.1 hp, fun es e' he => ?_⟩) ⟨h₀, fun es e he => ?_⟩ hc
    · rcases hp.toEffect.occurrence he with he | ⟨rfl, rfl⟩
      · exact hs.2 es e' he
      · exact hP t e' s s' hs.1 hp
    · simp [State.init] at he
  exact hkeeps.2 es e he

end

end MySQLPlugin
