import MySQLPlugin.Interplay.Direct
import MySQLPlugin.Interplay.Handoff
import MySQLPlugin.Interplay.Schedule

/-!
# The connection between an execution and its delivery

From the execution of a threaded query until `ProcessTick` has handed it out, the worker leaves the
connection of the handler alone. When neither thread works on a handler, its flags say whether an
outcome waits.
-/

namespace MySQLPlugin

open Threads Dispatch Dispatch.Handoff

/-- The worker talks to the server over the connection of `h`. -/
def Event.UsesConnection (h : HandlerPtr) : Event → Prop
  | .enter .worker p _ _ | .init .worker p _ => p = h
  | _ => False

/-- A threaded query of `h` has been executed, and its entry is not yet popped with the flag reset. -/
def InFlight (h : HandlerPtr) (es : List Event) : Prop :=
  ∃ es₁ query c es₂, es = es₁ ++ .leave .worker h (.mysql_real_query query) c true :: es₂ ∧
    ¬[Event.assign .main h .callbackData_pop,
      .assign .main h (.m_bQueryProcessing false)].Sublist es₂

section

variable {h : HandlerPtr} {es : List Event} {p : Phase}

lemma Move.eq_get {e : Event} (he : Move h e .get) : e = .assign .main h .callbackData_pop := by
  cases he with
  | assign ha =>
    cases Assign.move ha
    rfl

lemma Move.eq_release {e : Event} (he : Move h e .release) :
    e = .assign .main h (.m_bQueryProcessing false) := by
  cases he with
  | assign ha =>
    cases Assign.move ha
    rfl

lemma Move.eq_visit {e : Event} (he : Move h e .visit) : e = .visit h := by
  cases he with
  | visit => rfl
  | assign ha => cases Assign.move ha

lemma Move.eq_round {e : Event} (he : Move h e .round) : e = .mark .tick := by
  cases he with
  | round => rfl
  | assign ha => cases Assign.move ha

/-- While a query is in flight its outcome is held. -/
lemma InFlight.held (hes : InFlight h es) (hp : phase h es = some p) : p.Held := by
  obtain ⟨es₁, query, c, es₂, rfl, hsub⟩ := hes
  rw [phase, List.filterMap_append, List.filterMap_cons_some (b := Op.win) (by simp [Event.handoff])]
    at hp
  refine Phase.held_since_win hp fun hops => hsub ?_
  -- the two operations come from the two assignments
  obtain ⟨es₃, hes₃, hmap⟩ := List.sublist_filterMap_iff.mp hops
  obtain ⟨l₁, e₁, l₂, rfl, -, he₁, hl₂⟩ := List.filterMap_eq_cons_iff.mp hmap.symm
  obtain ⟨l₃, e₂, l₄, rfl, -, he₂, -⟩ := List.filterMap_eq_cons_iff.mp hl₂
  obtain rfl := (Event.move he₁).eq_get
  obtain rfl := (Event.move he₂).eq_release
  refine .trans ?_ hes₃
  refine .trans (.cons_cons _ (List.singleton_sublist.mpr ?_)) (List.sublist_append_right _ _)
  simp

/-- The phase says whether the threads are inside a visit, or inside `ProcessTick`. -/
lemma inside_of_phase (hp : phase h es = some p) :
    (p.visiting = true → InVisit h es) ∧ (p.consuming = true → InTick es) := by
  induction es using List.reverseRecOn generalizing p with
  | nil =>
    cases hp
    simp
  | append_singleton es e ih =>
    cases ho : e.handoff h with
    | none =>
      rw [phase_concat_none ho] at hp
      refine ⟨fun hv => ((ih hp).1 hv).concat ?_, fun hc => ((ih hp).2 hc).concat ?_⟩ <;>
        (rintro rfl; simp [Event.handoff] at ho)
    | some o =>
      rw [phase_concat_some ho] at hp
      obtain ⟨q, hq, hstep⟩ := Option.bind_eq_some_iff.mp hp
      obtain ⟨-, rfl⟩ := Phase.step_eq_some.mp hstep
      constructor
      · intro hv
        rcases Phase.visiting_after hv with rfl | ⟨hv, ho'⟩
        · exact (Event.move ho).eq_visit ▸ .start _ _ _
        · refine ((ih hq).1 hv).concat ?_
          rintro rfl
          exact ho' (by simpa [Event.handoff, eq_comm] using ho)
      · intro hc
        rcases Phase.consuming_after hc with rfl | ⟨hc, ho'⟩
        · exact (Event.move ho).eq_round ▸ .start _ _ _
        · refine ((ih hq).2 hc).concat ?_
          rintro rfl
          exact ho' (by simpa [Event.handoff, eq_comm] using ho)

/-- The worker uses the connection only when the handoff allows it. -/
lemma touch_of_usesConnection {e : Event} (he : e.UsesConnection h) : e.handoff h = some .touch := by
  cases e with
  | enter u q f c =>
    cases u with
    | main => exact he.elim
    | worker => simp [Event.handoff, show q = h from he]
  | init u q c =>
    cases u with
    | main => exact he.elim
    | worker => simp [Event.handoff, show q = h from he]
  | _ => exact he.elim

/-- The phase of a trace comes with the phases of its prefixes. -/
lemma phase_of_prefix {es' : List Event} (hp : phase h es = some p) (hes : es' <+: es) :
    ∃ q, phase h es' = some q := by
  obtain ⟨es₂, rfl⟩ := hes
  rw [phase, List.filterMap_append, Phase.run_append] at hp
  obtain ⟨q, hq, -⟩ := Option.bind_eq_some_iff.mp hp
  exact ⟨q, hq⟩

lemma not_inFlight_of_uses {es' : List Event} {e : Event} (hp : phase h es = some p)
    (hes : es' ++ [e] <+: es) (he : e.UsesConnection h) : ¬InFlight h es' := by
  intro hflight
  obtain ⟨q', hq'⟩ := phase_of_prefix hp hes
  rw [phase_concat_some (touch_of_usesConnection he)] at hq'
  obtain ⟨q, hq, hstep⟩ := Option.bind_eq_some_iff.mp hq'
  exact Phase.not_held_of_touch hstep (hflight.held hq)

end

/-- The threads are outside every part of the code that sets and resets the flags of `h`. -/
def Quiescent (h : HandlerPtr) (es : List Event) : Prop :=
  ¬InVisit h es ∧ ¬InTick es ∧ ¬InOldQuery h es

/-- Between visits and rounds, an outcome is in the place or the handoff is idle. -/
lemma stage_of_quiescent {h : HandlerPtr} {es : List Event} {p : Phase} (hp : phase h es = some p)
    (hes : Quiescent h es) : p.stage = .idle ∨ p.stage = .ready := by
  obtain ⟨hattempt, htaken⟩ := Phase.sound_run hp
  obtain ⟨hvisit, htick⟩ := inside_of_phase hp
  cases hstage : p.stage with
  | idle => exact .inl rfl
  | busy => exact absurd (hvisit (hattempt (.inl hstage))) hes.1
  | won => exact absurd (hvisit (hattempt (.inr hstage))) hes.1
  | ready => exact .inr rfl
  | popped => exact absurd (htick (htaken hstage)) hes.2.1

/-- The calls of the server and the scripts other than `mysql_close`. -/
abbrev Opens : Set NativeCall := {n | n.Open}

/-- In every interleaving of the worker with `ProcessTick` and the natives other than `mysql_close`:
at most one outcome of a handler waits, the worker leaves the connection alone until it is handed
out, and when neither thread works on the handler the flags say whether an outcome waits. -/
theorem handoff_exclusive (b : Build) (p_Amx : List Amx) {c : Config Stmt Fault State ThreadId Point}
    (hc : Config.Reachable (allowing b Opens) (Starts (MainCall.Only Opens)) (loaded p_Amx) c)
    (h : HandlerPtr) :
    (∀ x, c.shared.heap h = some x → x.callbackData.length ≤ 1) ∧
    (∀ es e, es ++ [e] <+: c.shared.trace → e.UsesConnection h → ¬InFlight h es) ∧
    (Quiescent h c.shared.trace → ∀ x, c.shared.heap h = some x → x.m_bNonThreadedQuery = false ∧
      (x.m_bQueryProcessing = true ↔ x.callbackData ≠ [])) := by
  have hopen : ∀ n ∈ Opens, n.Open := fun _ hn => hn
  have hinit := handed_init p_Amx
  have hrounds : Rounds false (State.init p_Amx) := ⟨hinit, fun h => ⟨{}, rfl, rfl, by simp⟩⟩
  have hhanded : Handed c.shared := (handoff_duties b hopen).invariant step_of_allowing hrounds hinit
    (fun t => by cases t <;> exact .inl rfl) hinit hc
  have hnone : NoneDirect (State.init p_Amx) := fun h x hx _ => by cases hx
  have hdirect : DirectInside c.shared := (direct_duties b hopen).invariant step_of_allowing hnone
    hnone.inside (fun t => by cases t; exacts [.inl rfl, rfl]) hnone.inside hc
  obtain ⟨p, hp, hfits⟩ := hhanded.phases h
  refine ⟨fun x hx => ?_, fun es e hes he => not_inFlight_of_uses hp hes he, fun hquiet x hx => ?_⟩
  · rw [hx] at hfits
    have hlen := Coupled.callbackData hfits
    split_ifs at hlen <;> omega
  · rw [hx] at hfits
    have hprocessing := Coupled.processing hfits
    have hlen := Coupled.callbackData hfits
    constructor
    · by_contra hflag
      exact hquiet.2.2 (hdirect h x hx (by simpa using hflag))
    · rw [hprocessing, ← List.length_pos_iff, hlen]
      rcases stage_of_quiescent hp hquiet with hs | hs <;> simp [hs]

/-- A connection is opened, a threaded query accepted, and the worker executes it. -/
def oneExecution : List Turn :=
  [.call (.native (.mysql_connect ['h'] ['u'] ['d'] ['p'] 3306)), .go .main 15 {},
    .call (.native (.mysql_query ['q'] 1 0 1)), .go .main 11 {}, .go .worker 19 {}]

lemma oneExecution_admitted (b : Build) :
    ∀ turn ∈ oneExecution, turn.Admitted (allowing b Opens) Opens := by
  simp only [oneExecution, List.forall_mem_cons, Turn.Admitted]
  refine ⟨by simp [MainCall.Only, NativeCall.Open], fun a s => admits_of_silent rfl,
    by simp [MainCall.Only, NativeCall.Open], fun a s => admits_of_silent rfl,
    fun a s => admits_of_silent rfl, by simp⟩

/-- After `oneExecution` the outcome waits and the flag says so. -/
theorem handoff_exclusive_oneExecution :
    ∃ c, schedule (allowing .pthread Opens) oneExecution (loaded []) = some c ∧
      (c.shared.heap 0).map (fun x => (x.callbackData.length, x.m_bQueryProcessing)) = some (1, true) ∧
      (∀ x, c.shared.heap 0 = some x → x.callbackData.length ≤ 1) ∧
      (∀ es e, es ++ [e] <+: c.shared.trace → e.UsesConnection 0 → ¬InFlight 0 es) ∧
      (Quiescent 0 c.shared.trace → ∀ x, c.shared.heap 0 = some x → x.m_bNonThreadedQuery = false ∧
        (x.m_bQueryProcessing = true ↔ x.callbackData ≠ [])) := by
  have hrun : (schedule (allowing .pthread Opens) oneExecution (loaded [])).map (fun c =>
      (c.shared.heap 0).map fun x => (x.callbackData.length, x.m_bQueryProcessing))
      = some (some (1, true)) := by decide
  obtain ⟨c, hc, hx⟩ := Option.map_eq_some_iff.mp hrun
  exact ⟨c, hc, hx, handoff_exclusive .pthread []
    (reachable_of_schedule (oneExecution_admitted .pthread) .start hc) 0⟩

end MySQLPlugin
