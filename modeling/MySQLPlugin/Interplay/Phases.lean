import MySQLPlugin.Dispatch.Handoff
import MySQLPlugin.Logic.Footprint

/-!
# The phases of a handler

The worker hands the threaded queries that it has executed over to `ProcessTick`: `callbackData` is
the place and `m_bQueryProcessing` the flag of a one-place handoff. The trace determines the phase
of every handler, and `Handed` couples the phase with the members of the object.
-/

namespace MySQLPlugin

open Threads Dispatch Dispatch.Handoff

/-! ### Events as operations of the handoff -/

def Assign.handoff : ThreadId → Assign → Option Op
  | .worker, .m_bQueryProcessing true => some .take
  | .worker, .m_bQueryProcessing false => some .lose
  | .main, .m_bQueryProcessing false => some .release
  | .main, .m_bQueryProcessing true => some .misuse
  | .worker, .callbackData_push _ => some .put
  | .main, .callbackData_push _ => some .misuse
  | .main, .callbackData_pop => some .get
  | .worker, .callbackData_pop => some .misuse
  | _, _ => none

/-- What an event means for the handoff of the handler `h`. -/
def Event.handoff (h : HandlerPtr) : Event → Option Op
  | .visit p => if p = h then some .visit else none
  | .mark (.visitEnd p) => if p = h then some .visitEnd else none
  | .mark .tick => some .round
  | .mark .tickEnd => some .roundEnd
  | .enter .worker p _ _ => if p = h then some .touch else none
  | .init .worker p _ => if p = h then some .touch else none
  | .leave .worker p (.mysql_real_query _) _ true => if p = h then some .win else none
  | .assign t p a => if p = h then a.handoff t else none
  | _ => none

/-- The phase of the handler `h` after the events `es`. -/
def phase (h : HandlerPtr) (es : List Event) : Option Phase :=
  Phase.run (es.filterMap (Event.handoff h))

lemma phase_concat_none {h : HandlerPtr} {es : List Event} {e : Event} (he : e.handoff h = none) :
    phase h (es ++ [e]) = phase h es := by
  simp [phase, he]

lemma phase_concat_some {h : HandlerPtr} {es : List Event} {e : Event} {o : Op}
    (he : e.handoff h = some o) : phase h (es ++ [e]) = (phase h es).bind (·.step o) := by
  have hop : [e].filterMap (Event.handoff h) = [o] := by simp [he]
  rw [phase, List.filterMap_append, hop]
  exact Phase.run_concat _ o

/-! ### The phase and the object -/

/-- The flag is set unless the handoff is idle, and `callbackData` holds an entry when an outcome
is in the place. -/
structure Coupled (p : Phase) (x : CMySQLHandler) : Prop where
  processing : x.m_bQueryProcessing = true ↔ p.stage ≠ .idle
  callbackData : x.callbackData.length = if p.stage = .ready then 1 else 0

/-- The assignment changes neither the flag nor the place. -/
def Assign.Unflagged : Assign → Prop
  | .m_bQueryProcessing _ | .callbackData_push _ | .callbackData_pop => False
  | _ => True

lemma Assign.handoff_of_unflagged {a : Assign} (ha : a.Unflagged) (t : ThreadId) :
    a.handoff t = none := by
  cases t <;> cases a <;> first | rfl | exact ha.elim

lemma Coupled.unflagged {p : Phase} {x : CMySQLHandler} (hc : Coupled p x) {a : Assign}
    (ha : a.Unflagged) : Coupled p (a.apply x) := by
  cases a <;> first | exact ha.elim | exact ⟨hc.processing, hc.callbackData⟩

/-- Only the stage matters for the object. -/
lemma fits_of_stage {p q : Phase} {x : Option CMySQLHandler} (h : q.stage = p.stage)
    (hx : x.elim (p.stage = .idle) (Coupled p)) : x.elim (q.stage = .idle) (Coupled q) := by
  cases x with
  | none => exact h.trans hx
  | some x => exact ⟨by rw [h]; exact Coupled.processing hx, by rw [h]; exact Coupled.callbackData hx⟩

/-- The handoff of every handler follows the protocol, and its object is in the phase. -/
structure Handed (s : State) : Prop where
  fresh : ∀ h, s.nextHandler ≤ h → s.heap h = none
  phases : ∀ h, ∃ p, phase h s.trace = some p ∧ (s.heap h).elim (p.stage = .idle) (Coupled p)

lemma handed_init (p_Amx : List Amx) : Handed (State.init p_Amx) where
  fresh _ _ := rfl
  phases _ := ⟨{}, rfl, rfl⟩

section

variable {s s' : State} {t : ThreadId} {e : Event} {h : HandlerPtr}

/-- The moves of the handoff of `h`, event by event. -/
inductive Move (h : HandlerPtr) : Event → Op → Prop
  | visit : Move h (.visit h) .visit
  | visitEnd : Move h (.mark (.visitEnd h)) .visitEnd
  | round : Move h (.mark .tick) .round
  | roundEnd : Move h (.mark .tickEnd) .roundEnd
  | enter (f : LibCall) (c : Option ConnPtr) : Move h (.enter .worker h f c) .touch
  | init (c : Option ConnPtr) : Move h (.init .worker h c) .touch
  | win (query : CString) (c : ConnPtr) :
      Move h (.leave .worker h (.mysql_real_query query) c true) .win
  | assign {u : ThreadId} {a : Assign} {o : Op} (ha : a.handoff u = some o) :
      Move h (.assign u h a) o

lemma Event.move {o : Op} (he : e.handoff h = some o) : Move h e o := by
  cases e with
  | assign u p a =>
    simp only [Event.handoff] at he
    split_ifs at he with hp
    exact hp ▸ .assign he
  | visit p =>
    simp only [Event.handoff] at he
    split_ifs at he with hp
    cases he
    exact hp ▸ .visit
  | enter u p f c =>
    cases u <;> simp only [Event.handoff, reduceCtorEq] at he
    split_ifs at he with hp
    cases he
    exact hp ▸ .enter f c
  | init u p c =>
    cases u <;> simp only [Event.handoff, reduceCtorEq] at he
    split_ifs at he with hp
    cases he
    exact hp ▸ .init c
  | leave u p f c ok =>
    cases u <;> cases f <;> cases ok <;> simp only [Event.handoff, reduceCtorEq] at he
    split_ifs at he with hp
    cases he
    exact hp ▸ .win _ c
  | mark m =>
    cases m <;> simp only [Event.handoff, reduceCtorEq] at he
    · split_ifs at he with hp
      cases he
      exact hp ▸ .visitEnd
    · cases he
      exact .round
    · cases he
      exact .roundEnd
  | _ => cases he

/-- The moves that are assignments. -/
inductive AssignMove : ThreadId → Assign → Op → Prop
  | take : AssignMove .worker (.m_bQueryProcessing true) .take
  | lose : AssignMove .worker (.m_bQueryProcessing false) .lose
  | release : AssignMove .main (.m_bQueryProcessing false) .release
  | put (q : MainInfo) : AssignMove .worker (.callbackData_push q) .put
  | get : AssignMove .main .callbackData_pop .get
  | misuse (t : ThreadId) (a : Assign) : AssignMove t a .misuse

lemma Assign.move {a : Assign} {o : Op} (ha : a.handoff t = some o) : AssignMove t a o := by
  cases t <;> cases a <;> simp only [Assign.handoff, reduceCtorEq] at ha
  case main.m_bQueryProcessing v => cases v <;> cases ha <;> constructor
  case worker.m_bQueryProcessing v => cases v <;> cases ha <;> constructor
  all_goals cases ha; constructor

lemma Assign.unflagged_of_handoff {a : Assign} (ha : a.handoff t = none) : a.Unflagged := by
  cases t <;> cases a <;> simp only [Assign.handoff, reduceCtorEq] at ha <;> try trivial
  all_goals rename_i v; cases v <;> cases ha

lemma Coupled.assign {p : Phase} {x : CMySQLHandler} (hc : Coupled p x) {a : Assign} {o : Op}
    (ha : a.handoff t = some o) (ho : p.allows o = true) : Coupled (p.after o) (a.apply x) := by
  obtain ⟨hp, hd⟩ := hc
  cases Assign.move ha with
  | take =>
    simp only [Phase.allows, Bool.and_eq_true, beq_iff_eq] at ho
    exact ⟨by simp [Assign.apply, Phase.after], by simpa [Assign.apply, Phase.after, ho.2] using hd⟩
  | lose =>
    simp only [Phase.allows, beq_iff_eq] at ho
    exact ⟨by simp [Assign.apply, Phase.after], by simpa [Assign.apply, Phase.after, ho] using hd⟩
  | release =>
    simp only [Phase.allows, beq_iff_eq] at ho
    exact ⟨by simp [Assign.apply, Phase.after], by simpa [Assign.apply, Phase.after, ho] using hd⟩
  | put q =>
    simp only [Phase.allows, beq_iff_eq] at ho
    exact ⟨by simpa [Assign.apply, Phase.after, ho] using hp,
      by simp [Assign.apply, Phase.after, hd, ho]⟩
  | get =>
    simp only [Phase.allows, Bool.and_eq_true, beq_iff_eq] at ho
    exact ⟨by simpa [Assign.apply, Phase.after, ho.2] using hp,
      by simp [Assign.apply, Phase.after, hd, ho.2]⟩
  | misuse => cases ho

/-- An event whose operations are allowed keeps the handoff of every handler. -/
lemma Handed.step (hs : Handed s) (heff : Effect t e s s') (hdel : ∀ p, e ≠ .delete p)
    (hallowed : ∀ h o p, e.handoff h = some o → phase h s.trace = some p → p.allows o = true) :
    Handed s' := by
  have hnext : s.nextHandler ≤ s'.nextHandler := by
    rw [heff.nextHandler]
    cases e <;> first | exact le_refl _ | exact Nat.le_succ _
  refine ⟨fun h hle => ?_, fun h => ?_⟩
  · have hnone := hs.fresh h (hnext.trans hle)
    rw [heff.heap h, hnone]
    cases e with
    | new p =>
      have hp : p = s.nextHandler := heff.occurs.1
      have hle' : s.nextHandler + 1 ≤ h := by
        rw [heff.nextHandler] at hle
        exact hle
      rw [Event.onObject, if_neg (Nat.ne_of_gt (hp ▸ hle'))]
    | assign u p a => simp [Event.onObject]
    | delete p => simp [Event.onObject]
    | _ => rfl
  · obtain ⟨p, hp, hcoupled⟩ := hs.phases h
    rw [heff.trace, heff.heap h]
    cases ho : e.handoff h with
    | none =>
      refine ⟨p, by rw [phase_concat_none ho, hp], ?_⟩
      cases e with
      | new q =>
        simp only [Event.onObject]
        split_ifs with hq
        · have hnone : s.heap h = none := hs.fresh h (hq ▸ (heff.occurs.1).ge)
          rw [hnone] at hcoupled
          have hidle : p.stage = .idle := hcoupled
          exact ⟨by simp [hidle], by simp [hidle]⟩
        · exact hcoupled
      | delete q => exact absurd rfl (hdel q)
      | assign u q a =>
        simp only [Event.onObject]
        split_ifs with hq
        · subst hq
          cases hx : s.heap h with
          | none => rwa [hx] at hcoupled
          | some x =>
            rw [hx] at hcoupled
            simp only [Event.handoff, if_true] at ho
            exact Coupled.unflagged hcoupled (Assign.unflagged_of_handoff ho)
        · exact hcoupled
      | _ => exact hcoupled
    | some o =>
      have hallow := hallowed h o p ho hp
      refine ⟨p.after o, ?_, ?_⟩
      · rw [phase_concat_some ho, hp, Option.bind_some, Phase.step, if_pos hallow]
      · cases Event.move ho with
        | assign ha =>
          obtain ⟨x, hx, -⟩ := heff.occurs
          rw [hx] at hcoupled ⊢
          simpa [Event.onObject] using Coupled.assign hcoupled ha hallow
        | win =>
          simp only [Phase.allows, beq_iff_eq] at hallow
          cases hx : s.heap h with
          | none =>
            rw [hx] at hcoupled
            cases hallow.symm.trans hcoupled
          | some x =>
            rw [hx] at hcoupled
            obtain ⟨hp, hd⟩ := hcoupled
            exact ⟨by simpa [Phase.after, hallow] using hp, by simpa [Phase.after, hallow] using hd⟩
        | visit => exact fits_of_stage (p := p) rfl hcoupled
        | visitEnd => exact fits_of_stage (p := p) rfl hcoupled
        | round => exact fits_of_stage (p := p) rfl hcoupled
        | roundEnd => exact fits_of_stage (p := p) rfl hcoupled
        | enter f c => exact fits_of_stage (p := p) rfl hcoupled
        | init c => exact fits_of_stage (p := p) rfl hcoupled

/-- The handoff of `h` is in a phase that satisfies `P`. -/
def At (h : HandlerPtr) (P : Phase → Prop) (s : State) : Prop :=
  ∃ p, phase h s.trace = some p ∧ P p

/-- A phase survives the operations that keep it. -/
lemma At.kept {ops : Op → Prop} {P : Phase → Prop} (hP : KeptBy ops P) (ha : At h P s)
    (heff : Effect t e s s') (hs' : Handed s') (hops : ∀ o, e.handoff h = some o → ops o) :
    At h P s' := by
  obtain ⟨p, hp, hPp⟩ := ha
  obtain ⟨p', hp', -⟩ := hs'.phases h
  rw [At, hp']
  rw [heff.trace] at hp'
  cases ho : e.handoff h with
  | none =>
    rw [phase_concat_none ho, hp] at hp'
    exact ⟨p', rfl, Option.some.inj hp' ▸ hPp⟩
  | some o =>
    rw [phase_concat_some ho, hp] at hp'
    exact ⟨p', rfl, hP o p p' (hops o ho) hPp hp'⟩

/-- An operation of the handoff that is carried out. -/
lemma At.after {P : Phase → Prop} {o : Op} (ha : At h P s) (heff : Effect t e s s')
    (he : e.handoff h = some o) (hallow : ∀ p, P p → p.allows o = true) :
    At h (fun q => ∃ p, P p ∧ q = p.after o) s' := by
  obtain ⟨p, hp, hPp⟩ := ha
  refine ⟨p.after o, ?_, p, hPp, rfl⟩
  rw [heff.trace, phase_concat_some he, hp, Option.bind_some, Phase.step, if_pos (hallow p hPp)]

lemma At.unmoved {P : Phase → Prop} (ha : At h P s) (heff : Effect t e s s')
    (he : e.handoff h = none) : At h P s' := by
  rw [At, heff.trace, phase_concat_none he]
  exact ha

lemma At.mono {P Q : Phase → Prop} (ha : At h P s) (hPQ : ∀ p, P p → Q p) : At h Q s := by
  obtain ⟨p, hp, hPp⟩ := ha
  exact ⟨p, hp, hPQ p hPp⟩

end

end MySQLPlugin
