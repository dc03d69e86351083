import MySQLPlugin.Interplay.Exclusive
import MySQLPlugin.Progress.Ticks

/-!
# Every accepted query is answered

While the scripts close no connection, the worker goes on moving and the server goes on calling
`ProcessTick`, the two threads hand the queries of a connection to each other for as long as the
connection is open: each query that has been accepted is executed, and its outcome is told.
-/

namespace MySQLPlugin

open Threads Prog CMySQLHandler Dispatch Dispatch.Handoff

/-! ### The handoff of a run -/

section

variable {b : Build} {D : Scope} {p_Amx : List Amx} {c : Config Stmt Fault State ThreadId Point}
  {h : HandlerPtr} {p : Phase}

lemma Reaches.opens (hD : D.AllOpen) (hc : Reaches b D p_Amx c) :
    Config.Reachable (allowing b Opens) (Starts (MainCall.Only Opens)) (loaded p_Amx) c := by
  refine hc.mono (fun {t β a s o s'} hst => ?_) fun hp => ?_
  · obtain ⟨reply, ⟨hreply, hcalls⟩, hrun⟩ := hst
    refine ⟨reply, ⟨hreply, ?_⟩, hrun⟩
    cases a with
    | exec a p => exact fun n hn => hD.1 n (hcalls n hn)
    | _ => trivial
  · cases hp with
    | call hm => exact .call fun n hn => hD.2 n (hm n hn)
    | tick i => exact .tick i
    | wake => exact .wake
    | sweep i => exact .sweep i

lemma rounds_init (p_Amx : List Amx) : Rounds false (State.init p_Amx) :=
  ⟨handed_init p_Amx, fun _ => ⟨{}, rfl, rfl, by simp⟩⟩

lemma Reaches.handed (hD : D.AllOpen) (hc : Reaches b D p_Amx c) : Handed c.shared :=
  (handoff_duties b fun _ hn => hn).invariant step_of_allowing (rounds_init p_Amx)
    (handed_init p_Amx) (fun t => by cases t <;> exact .inl rfl) (handed_init p_Amx) (hc.opens hD)

/-- Between two calls of the server no outcome has been taken whose flag is still set. -/
lemma Reaches.rounds (hD : D.AllOpen) (hc : Reaches b D p_Amx c) (hat : c.place .main = .at .idle) :
    Rounds false c.shared := by
  have hholds := Outline.sound (O := (handoff_duties b fun _ hn => hn).outline step_of_allowing)
    (fun u => ?_) (hc.opens hD) .main
  · rw [hat] at hholds
    exact hholds
  · cases u with
    | main => exact rounds_init p_Amx
    | worker => exact handed_init p_Amx

/-- A visit of the handoff is a visit of the worker. -/
def Visited (h : HandlerPtr) (s : State) : Prop :=
  ∀ p : Phase, phase h s.trace = some p → p.visiting = true → visiting s.trace = some h

lemma Permits.visited {t : ThreadId} {e : Event} {s s' : State} (hp : Permits D t e s s')
    (hs : Visited h s) : Visited h s' := by
  intro q hq hv
  rw [hp.trace] at hq
  have hrest {p : Phase} (hphase : phase h s.trace = some p) (hvisiting : p.visiting = true)
      (hend : e ≠ .mark (.visitEnd h)) : visiting s'.trace = some h := by
    have hbefore := hs p hphase hvisiting
    rw [hp.trace, visiting_concat, hbefore]
    cases e with
    | visit p =>
      have hnone := hp.permitted.2.2.1
      simp [hbefore] at hnone
    | mark m =>
      cases m with
      | visitEnd p =>
        have hsome := hp.permitted.2.1
        obtain rfl : h = p := Option.some.inj (hbefore.symm.trans hsome)
        exact absurd rfl hend
      | _ => rfl
    | _ => rfl
  cases ho : e.handoff h with
  | none =>
    rw [phase_concat_none ho] at hq
    exact hrest hq hv (by rintro rfl; simp [Event.handoff] at ho)
  | some o =>
    rw [phase_concat_some ho] at hq
    obtain ⟨p, hphase, hstep⟩ := Option.bind_eq_some_iff.mp hq
    obtain ⟨-, rfl⟩ := Phase.step_eq_some.mp hstep
    rcases Phase.visiting_after hv with rfl | ⟨hvisiting, hne⟩
    · obtain rfl := (Event.move ho).eq_visit
      rw [hp.trace, visiting_concat]
      rfl
    · refine hrest hphase hvisiting ?_
      rintro rfl
      exact hne (by simpa [Event.handoff, eq_comm] using ho)

lemma Reaches.visited (hc : Reaches b D p_Amx c) (h : HandlerPtr) : Visited h c.shared := by
  refine hc.keeps (fun _ _ _ _ hs hp => hp.visited hs) fun p hp hv => ?_
  cases hp
  cases hv

end

/-! ### A connection that nothing disturbs -/

/-- The connection of `h` is lost, its queue is cleared, or a query of it is executed at once. -/
inductive Disturbs (h : HandlerPtr) : Event → Prop
  | lost (t : ThreadId) : Disturbs h (.assign t h (.m_bIsConnected false))
  | cleared (t : ThreadId) : Disturbs h (.assign t h .queueData_popAll)
  | direct (t : ThreadId) : Disturbs h (.assign t h (.m_bNonThreadedQuery true))

/-- The handler stands in the table, its connection is open, and no query of it is executed at once. -/
structure Serviceable (h : HandlerPtr) (s : State) : Prop where
  entry : h ∈ s.SQLHandle
  object : ∃ x, s.heap h = some x ∧ x.m_bIsConnected = true ∧ x.m_bNonThreadedQuery = false

section

variable {D : Scope} {p_Amx : List Amx} {t : ThreadId} {e : Event} {s s' : State} {h : HandlerPtr}

lemma Serviceable.live (hs : Serviceable h s) : h ∈ s.live := by
  obtain ⟨x, hx, -⟩ := hs.object
  simp [State.live, hx]

lemma Serviceable.step (hD : D.AllOpen) (hs : Serviceable h s) (hbooked : Booked p_Amx s)
    (hp : Permits D t e s s') (he : ¬ Disturbs h e) : Serviceable h s' := by
  obtain ⟨x, hx, hconnected, hdirect⟩ := hs.object
  refine ⟨hp.entry hs.live hs.entry, ?_⟩
  have hdelete : e ≠ .delete h := by
    rintro rfl
    exact hp.permitted hD
  rcases hp.object hx (hbooked.lt_nextHandler hx) hdelete with ⟨a, rfl, hx'⟩ | hx'
  · refine ⟨a.apply x, hx', ?_⟩
    cases a with
    | m_bIsConnected v =>
      cases v with
      | false => exact absurd (.lost t) he
      | true => exact ⟨rfl, hdirect⟩
    | m_bNonThreadedQuery v =>
      cases v with
      | false => exact ⟨hconnected, rfl⟩
      | true => exact absurd (.direct t) he
    | _ => exact ⟨hconnected, hdirect⟩
  · exact ⟨x, hx', hconnected, hdirect⟩

/-- The object of a handler is in its phase. -/
lemma Handed.coupled (hs : Handed s) {p : Phase} {x : CMySQLHandler} (hp : phase h s.trace = some p)
    (hx : s.heap h = some x) : Coupled p x := by
  obtain ⟨q, hq, hcoupled⟩ := hs.phases h
  obtain rfl : p = q := Option.some.inj (hp.symm.trans hq)
  rw [hx] at hcoupled
  exact hcoupled

lemma disturbs_of_discard (he : e.bookOp h = some .discard) : Disturbs h e := by
  cases e with
  | assign u p a =>
    obtain rfl : p = h := by
      by_contra hph
      rw [bookOp_of_ne u a hph] at he
      cases he
    cases u <;> cases a <;> simp [Event.bookOp] at he
    exact .cleared .main
  | _ => cases he

/-- The worker has the query in hand until the next outcome is filed. -/
lemma inHand_concat_ne {es : List Event} (he : ∀ o, e.bookOp h = some o → ¬ Ledger.Executes o)
    (hes : inHand es ≠ some (h, true)) : inHand (es ++ [e]) ≠ some (h, true) := by
  rw [inHand_concat]
  cases e with
  | enter u p f c =>
    cases u <;> cases f <;> first | exact hes | simp [Event.onInHand]
  | assign u p a =>
    cases u with
    | main => exact hes
    | worker =>
      have hexecutes {o : Dispatch.Op MainInfo ErrorInfo} (ho : Ledger.Executes o)
          (hbook : (Event.assign .worker p a).bookOp h = if p = h then some o else none) : p ≠ h := by
        rintro rfl
        exact he o (by rw [hbook, if_pos rfl]) ho
      cases a with
      | callbackData_push d =>
        simpa [Event.onInHand] using hexecutes (o := .succeed) trivial rfl
      | errorCallback_push err =>
        simpa [Event.onInHand] using hexecutes (o := .fail err) trivial rfl
      | queueData_pop => simp [Event.onInHand]
      | _ => exact hes
  | _ => exact hes

end

/-! ### The outcome of a query is taken -/

/-- No outcome waits for `ProcessTick` or is being delivered. -/
def Free (p : Phase) : Prop := p.stage ≠ .ready ∧ p.stage ≠ .popped

lemma keptBy_free : KeptBy (· ≠ .put) Free := by
  intro o p p' ho hp hstep
  obtain ⟨hallows, rfl⟩ := Phase.step_eq_some.mp hstep
  cases o <;> simp_all [Free, Phase.allows, Phase.after]

lemma keptBy_popped : KeptBy (· ≠ .release) fun p => p.stage = .popped := by
  intro o p p' ho hp hstep
  obtain ⟨hallows, rfl⟩ := Phase.step_eq_some.mp hstep
  cases o <;> simp_all [Phase.allows, Phase.after]

section

variable {b : Build} {D : Scope} {p_Amx : List Amx} {r : Endless b D p_Amx} {h : HandlerPtr} {n : ℕ}

/-- From moment `n` on nothing disturbs the connection of `h`. -/
def NeverDisturbed (r : Endless b D p_Amx) (n : ℕ) (h : HandlerPtr) : Prop :=
  ∀ m, n ≤ m → ∀ e, Happens r m e → ¬ Disturbs h e

lemma NeverDisturbed.later {m : ℕ} (hu : NeverDisturbed r n h) (hm : n ≤ m) : NeverDisturbed r m h :=
  fun k hk => hu k (hm.trans hk)

/-- What is recorded is permitted. -/
lemma Endless.permits_of_happens {m : ℕ} {e : Event} (he : Happens r m e) :
    Permits D (r.turn m) e (r.config m).shared (r.config (m + 1)).shared := by
  rcases r.permits m with hsame | ⟨e', he', hp⟩
  · have hlen := congrArg List.length (he.symm.trans (by rw [hsame]))
    simp at hlen
  · obtain rfl : e' = e := by simpa using he'.symm.trans he
    exact hp

lemma serviceable_of_neverDisturbed (hD : D.AllOpen) (hs : Serviceable h (r.config n).shared)
    (hu : NeverDisturbed r n h) {m : ℕ} (hm : n ≤ m) : Serviceable h (r.config m).shared :=
  r.lasts hs (fun m hm e he hp hs => hs.step hD (r.reaches m).booked hp (hu m hm e he)) hm

/-- The handoff makes the move that is recorded. -/
lemma at_of_happens (hD : D.AllOpen) {m : ℕ} {e : Event} {o : Op} (he : Happens r m e)
    (ho : e.handoff h = some o) :
    At h (fun q => ∃ p : Phase, q = p.after o) (r.config (m + 1)).shared := by
  obtain ⟨q, hq, -⟩ := ((r.reaches (m + 1)).handed hD).phases h
  refine ⟨q, hq, ?_⟩
  rw [he, phase_concat_some ho] at hq
  obtain ⟨p, -, hstep⟩ := Option.bind_eq_some_iff.mp hq
  obtain ⟨-, rfl⟩ := Phase.step_eq_some.mp hstep
  exact ⟨p, rfl⟩

/-- A phase lasts until a move that ends it. -/
lemma at_lasts (hD : D.AllOpen) {ops : Op → Prop} {P : Phase → Prop} (hP : KeptBy ops P)
    (hops : ∀ m, n ≤ m → ∀ e o, Happens r m e → e.handoff h = some o → ops o)
    (ha : At h P (r.config n).shared) {m : ℕ} (hm : n ≤ m) : At h P (r.config m).shared := by
  refine r.lasts ha (fun m hm e he hp ha => ?_) hm
  exact ha.kept hP hp.toEffect ((r.reaches (m + 1)).handed hD) fun o ho => hops m hm e o he ho

/-- `ProcessTick` takes a result that waits. -/
lemma popped_of_ready (hD : D.AllOpen) (hr : Ticks r) (hs : Serviceable h (r.config n).shared)
    (hu : NeverDisturbed r n h) (hready : At h (fun p => p.stage = .ready) (r.config n).shared) :
    ∃ m, n ≤ m ∧ At h (fun p => p.stage = .popped) (r.config m).shared := by
  obtain ⟨x, hx, -⟩ := hs.object
  obtain ⟨p, hp, hready⟩ := hready
  have hlength := (((r.reaches n).handed hD).coupled hp hx).callbackData
  have hoffered : Offered .callbackData_pop h (r.config n).shared := by
    refine ⟨hs.entry, x, hx, ?_⟩
    cases hdata : x.callbackData with
    | nil => simp [hdata, hready] at hlength
    | cons d ds => simp [Assign.defined, hdata]
  obtain ⟨m, hm, hgone | htaken⟩ := outcome_taken hr (a := .callbackData_pop) trivial hoffered
  · exact absurd hgone (serviceable_of_neverDisturbed hD hs hu hm).live
  · have hget : (Event.assign .main h .callbackData_pop).handoff h = some .get := by
      simp [Event.handoff, Assign.handoff]
    refine ⟨m + 1, by omega, (at_of_happens hD htaken hget).mono ?_⟩
    rintro q ⟨p, rfl⟩
    rfl

/-- Whatever waits for `ProcessTick` is delivered. -/
lemma free_again (hD : D.AllOpen) (hr : Ticks r) (hs : Serviceable h (r.config n).shared)
    (hu : NeverDisturbed r n h) : ∃ m, n ≤ m ∧ At h Free (r.config m).shared := by
  by_contra hnever
  have hheld : ∀ m, n ≤ m → ¬ At h Free (r.config m).shared := fun m hm ha => hnever ⟨m, hm, ha⟩
  have hpaused (n : ℕ) : ∃ m, n ≤ m ∧ At h (fun p => p.stage ≠ .popped) (r.config m).shared := by
    obtain ⟨m, hm, -, hat, -⟩ := hr n
    exact ⟨m, hm, (((r.reaches m).rounds hD hat).2 h).mono fun p hp => hp.2⟩
  -- an outcome is taken
  obtain ⟨m, hm, hpopped⟩ : ∃ m, n ≤ m ∧ At h (fun p => p.stage = .popped) (r.config m).shared := by
    obtain ⟨k, hk, p, hp, hne⟩ := hpaused n
    have hready : p.stage = .ready := by
      by_contra hno
      exact hheld k hk ⟨p, hp, hno, hne⟩
    obtain ⟨m, hm, hpopped⟩ := popped_of_ready hD hr (serviceable_of_neverDisturbed hD hs hu hk)
      (hu.later hk) ⟨p, hp, hready⟩
    exact ⟨m, hk.trans hm, hpopped⟩
  -- its flag is reset before the main thread comes home
  have hstays : ∀ k, m ≤ k → At h (fun p => p.stage = .popped) (r.config k).shared := by
    refine fun k hk => at_lasts hD keptBy_popped (fun k hk e o he ho => ?_) hpopped hk
    rintro rfl
    refine hheld (k + 1) (by omega) ((at_of_happens hD he ho).mono ?_)
    rintro q ⟨p, rfl⟩
    simp [Free, Phase.after]
  obtain ⟨k, hk, p, hp, hne⟩ := hpaused m
  obtain ⟨p', hp', hstage⟩ := hstays k hk
  obtain rfl : p = p' := Option.some.inj (hp.symm.trans hp')
  exact hne hstage

/-! ### The queries that wait are executed -/

/-- A query is due while the handoff is free. -/
lemma due_of_free (hD : D.AllOpen) (hs : Serviceable h (r.config n).shared)
    (hfree : At h Free (r.config n).shared)
    (hwaiting : (books h (r.config n).shared.trace).waiting ≠ []) : Due h (r.config n).shared := by
  obtain ⟨x, hx, hconnected, hdirect⟩ := hs.object
  obtain ⟨p, hp, hready, hpopped⟩ := hfree
  refine ⟨hs.entry, x, hx, ?_, hconnected, hdirect, fun hprocessing => ?_⟩
  · obtain ⟨pre, -, hmirrors⟩ := (r.reaches n).booked.mirrors h x hx
    simp [hmirrors.queueData, hwaiting]
  · have hbusy := (((r.reaches n).handed hD).coupled hp hx).processing.mp hprocessing
    have hattempt : p.stage = .busy ∨ p.stage = .won := by
      cases hstage : p.stage <;> simp_all
    exact (r.reaches n).visited h p hp ((Phase.sound_run hp).attempt hattempt)

/-- While none of its queries is executed, the handler has queries that wait. -/
lemma waiting_lasts (hu : NeverDisturbed r n h)
    (hidle : ∀ m, n ≤ m → ∀ e, Happens r m e → ∀ o, e.bookOp h = some o → ¬ Ledger.Executes o)
    (hwaiting : (books h (r.config n).shared.trace).waiting ≠ []) {m : ℕ} (hm : n ≤ m) :
    (books h (r.config m).shared.trace).waiting ≠ [] := by
  refine r.lasts (P := fun s => (books h s.trace).waiting ≠ []) hwaiting
    (fun m hm e he _ hwaiting => ?_) hm
  cases ho : e.bookOp h with
  | none =>
    rw [he, books_concat_none ho]
    exact hwaiting
  | some o =>
    rw [he, books_concat_some ho]
    have hdiscard : o ≠ .discard := by
      rintro rfl
      exact hu m hm e he (disturbs_of_discard ho)
    have hgrows := Ledger.served_waiting.back (books h (r.config m).shared.trace) o
      (hidle m hm e he o ho) hdiscard
    intro hnil
    rw [hnil] at hgrows
    exact hwaiting (List.prefix_nil.mp hgrows)

/-- While a query waits, the worker executes one. -/
lemma executed_again (hD : D.AllOpen) (hr : Ticks r) (hw : r.Recurs .worker)
    (hs : Serviceable h (r.config n).shared) (hu : NeverDisturbed r n h)
    (hwaiting : (books h (r.config n).shared.trace).waiting ≠ []) :
    ∃ m, n ≤ m ∧ ∃ e o, Happens r m e ∧ e.bookOp h = some o ∧ Ledger.Executes o := by
  by_contra hnever
  have hidle : ∀ m, n ≤ m → ∀ e, Happens r m e → ∀ o, e.bookOp h = some o → ¬ Ledger.Executes o :=
    fun m hm e he o ho hexecutes => hnever ⟨m, hm, e, o, he, ho, hexecutes⟩
  obtain ⟨m, hm, hfree⟩ := free_again hD hr hs hu
  have hfrees : ∀ k, m ≤ k → At h Free (r.config k).shared := by
    refine fun k hk => at_lasts hD keptBy_free (fun k hk e o he ho => ?_) hfree hk
    rintro rfl
    obtain ⟨d, rfl⟩ : ∃ d, e = .assign .worker h (.callbackData_push d) := by
      cases Event.move ho with
      | assign ha =>
        cases Assign.move ha with
        | put d => exact ⟨d, rfl⟩
    exact hidle k (by omega) _ he .succeed (by simp [Event.bookOp]) trivial
  have hdue : ∀ k, m ≤ k → Due h (r.config k).shared := fun k hk =>
    due_of_free hD (serviceable_of_neverDisturbed hD hs hu (hm.trans hk)) (hfrees k hk)
      (waiting_lasts hu hidle hwaiting (hm.trans hk))
  -- between two queries that are removed one is executed
  obtain ⟨k, hk, hpop⟩ := front_taken hw hdue
  have hempty : ∀ j, k + 1 ≤ j → inHand (r.config j).shared.trace ≠ some (h, true) := by
    intro j hj
    have hafter : inHand (r.config (k + 1)).shared.trace ≠ some (h, true) := by
      rw [hpop, inHand_concat]
      simp [Event.onInHand]
    refine r.lasts (P := fun s => inHand s.trace ≠ some (h, true)) hafter (fun j hj e he _ ih => ?_) hj
    rw [he]
    exact inHand_concat_ne (hidle j (by omega) e he) ih
  obtain ⟨j, hj, hpop'⟩ := front_taken hw fun j (hj : k + 1 ≤ j) => hdue j (by omega)
  exact hempty j hj (r.permits_of_happens hpop').permitted.2.1.2

/-! ### Every query is answered -/

/-- While the scripts close no connection, the worker goes on moving and the server goes on calling
`ProcessTick`, the outcome of every accepted query of an open connection is handed out, unless the
query has been discarded, the connection is lost, the queue is cleared by `mysql_reconnect` or a query
is executed at once. -/
theorem accepted_answered (hD : D.AllOpen) (hr : Ticks r) (hw : r.Recurs .worker)
    (hs : Serviceable h (r.config n).shared) {q : MainInfo × ℕ}
    (hq : q ∈ (books h (r.config n).shared.trace).accepted.zipIdx) :
    ∃ m, n ≤ m ∧ (q ∈ (books h (r.config m).shared.trace).handed ∨
      q ∈ (books h (r.config m).shared.trace).discarded ∨ ∃ e, Happens r m e ∧ Disturbs h e) := by
  by_contra hnever
  have hu : NeverDisturbed r n h := fun m hm e he hd => hnever ⟨m, hm, .inr (.inr ⟨e, he, hd⟩)⟩
  have hplaces : q ∈ (books h (r.config n).shared.trace).places :=
    (Ledger.sound_run _).once.mem_iff.mpr hq
  have hlater (k : ℕ) : Serviceable h (r.config (n + k)).shared :=
    serviceable_of_neverDisturbed hD hs hu (Nat.le_add_right n k)
  have hcourse : Ledger.Course fun k => books h (r.config (n + k)).shared.trace := by
    refine course_of_live hr (fun m hm => ?_) hs.entry
    exact (serviceable_of_neverDisturbed hD hs hu hm).live
  have hanswered : ∃ k, 0 ≤ k ∧ (q ∈ (books h (r.config (n + k)).shared.trace).handed ∨
      q ∈ (books h (r.config (n + k)).shared.trace).discarded) := by
    refine hcourse.answered (fun k => ?_) (fun k hwaiting => ?_) hplaces
    · rcases books_next r h (n + k) with hsame | ⟨e, o, he, ho, hstep⟩
      · exact .inl hsame
      · refine .inr ⟨o, ?_, hstep⟩
        rintro rfl
        exact hu (n + k) (Nat.le_add_right n k) e he (disturbs_of_discard ho)
    · obtain ⟨m, hm, e, o, he, ho, hexecutes⟩ := executed_again hD hr hw (hlater k)
        (hu.later (Nat.le_add_right n k)) hwaiting
      obtain ⟨j, rfl⟩ := Nat.exists_eq_add_of_le ((Nat.le_add_right n k).trans hm)
      refine ⟨j, by omega, o, hexecutes, ?_⟩
      rw [← Nat.add_assoc, he, books_concat_some ho]
  obtain ⟨k, -, hanswer⟩ := hanswered
  exact hnever ⟨n + k, Nat.le_add_right n k, hanswer.imp_right .inl⟩

theorem accepted_answered_queued :
    ∃ (r : Endless .pthread openScope []) (n : ℕ),
      (books 0 (r.config n).shared.trace).waiting = [(⟨['q'], 1, 0, OnQueryFinish⟩, 0)] ∧
      ∃ m, n ≤ m ∧
        ((⟨['q'], 1, 0, OnQueryFinish⟩, 0) ∈ (books 0 (r.config m).shared.trace).handed ∨
          (⟨['q'], 1, 0, OnQueryFinish⟩, 0) ∈ (books 0 (r.config m).shared.trace).discarded ∨
          ∃ e, Happens r m e ∧ Disturbs 0 e) := by
  obtain ⟨c, hc, r, n, hn, hticks, hworker⟩ := goes_on_after queued (swept ++ ticked)
    (by simp [queued, Turn.Within, MainCall.Only, openScope, NativeCall.Open])
    (by simp [swept, ticked, Turn.Within, MainCall.Only]) (by decide)
  have hrun : (schedule (allowing .pthread openScope.callbacks) queued (loaded [])).map (fun c =>
      ((c.shared.SQLHandle, (c.shared.heap 0).map fun x => (x.m_bIsConnected, x.m_bNonThreadedQuery)),
        (books 0 c.shared.trace).waiting, (books 0 c.shared.trace).accepted)) =
      some (([0], some (true, false)), [(⟨['q'], 1, 0, OnQueryFinish⟩, 0)],
        [⟨['q'], 1, 0, OnQueryFinish⟩]) := by
    decide
  rw [hc, Option.map_some, Option.some.injEq, Prod.mk.injEq, Prod.mk.injEq, Prod.mk.injEq, ← hn] at hrun
  obtain ⟨⟨htable, hheap⟩, hwaiting, haccepted⟩ := hrun
  obtain ⟨x, hx, hflags⟩ := Option.map_eq_some_iff.mp hheap
  have hserviceable : Serviceable 0 (r.config n).shared :=
    ⟨by simp [htable], x, hx, (Prod.mk.inj hflags).1, (Prod.mk.inj hflags).2⟩
  have hopen : openScope.AllOpen := openScope_allOpen
  exact ⟨r, n, hwaiting, accepted_answered hopen hticks hworker hserviceable (by simp [haccepted])⟩

end

end MySQLPlugin
