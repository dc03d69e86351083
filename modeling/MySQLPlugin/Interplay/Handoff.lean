import MySQLPlugin.Interplay.Phases
import MySQLPlugin.Interplay.Rules

/-!
# One executed query at a time

The worker and `ProcessTick` keep the handoff of every handler, whatever natives other than
`mysql_close` the scripts call meanwhile: `ProcessTick` takes no lock, and needs none.
-/

namespace MySQLPlugin

open Threads Prog CMySQLHandler Dispatch Dispatch.Handoff

/-! ### What the threads rely on -/

/-- Each thread relies on the phases that only its own operations leave, the main thread also on the
table. -/
def handoffRely : ThreadId → Set (State → Prop)
  | .main => {f | f = Handed ∨ (∃ h P, KeptBy Op.OfProducer P ∧ f = At h P) ∨
      ∃ T : List HandlerPtr → Prop, f = fun s => T s.SQLHandle}
  | .worker => {f | f = Handed ∨ ∃ h P, KeptBy Op.OfConsumer P ∧ f = At h P}

lemma stable_handed (t : ThreadId) : Stable (handoffRely t) Handed := by
  cases t <;> exact .of_mem (.inl rfl)

lemma stable_atMain {P : Phase → Prop} (hP : KeptBy Op.OfProducer P) (h : HandlerPtr) :
    Stable (handoffRely .main) (At h P) := .of_mem (.inr (.inl ⟨h, P, hP, rfl⟩))

lemma stable_atWorker {P : Phase → Prop} (hP : KeptBy Op.OfConsumer P) (h : HandlerPtr) :
    Stable (handoffRely .worker) (At h P) := .of_mem (.inr ⟨h, P, hP, rfl⟩)

lemma stable_table (T : List HandlerPtr → Prop) :
    Stable (handoffRely .main) fun s => T s.SQLHandle := .of_mem (.inr (.inr ⟨T, rfl⟩))

/-- The events of the worker. -/
def Event.OfWorker : Event → Prop
  | .pushBack _ | .erase _ _ | .new _ _ _ _ _ _ | .delete _ | .mark .tick | .mark .tickEnd => False
  | .assign _ _ .callbackData_pop => False
  | _ => True

/-- The events of the main thread. -/
def Event.OfMain : Event → Prop
  | .delete _ | .visit _ | .mark (.visitEnd _) => False
  | .assign _ _ (.m_bQueryProcessing true) | .assign _ _ (.callbackData_push _) => False
  | _ => True

section

variable {s s' : State} {e : Event} {h : HandlerPtr} {o : Op}

lemma Event.OfWorker.ops (he : e.OfWorker) (hby : e.By .worker) (ho : e.handoff h = some o) :
    o.OfProducer := by
  cases Event.move ho with
  | assign ha =>
    obtain rfl := hby
    cases Assign.move ha <;> trivial
  | round => exact he.elim
  | roundEnd => exact he.elim
  | _ => trivial

lemma Event.OfMain.ops (he : e.OfMain) (hby : e.By .main) (ho : e.handoff h = some o) :
    o.OfConsumer := by
  cases Event.move ho with
  | assign ha =>
    obtain rfl := hby
    cases Assign.move ha <;> trivial
  | round => trivial
  | roundEnd => trivial
  | visit => exact he.elim
  | visitEnd => exact he.elim
  | _ => cases hby

/-- What the worker guarantees when its operations are allowed. -/
lemma worker_guarantees (hs : Handed s) (heff : Effect .worker e s s') (he : e.OfWorker)
    (hallowed : ∀ h o p, e.handoff h = some o → phase h s.trace = some p → p.allows o = true) :
    Guarantees handoffRely .worker s s' ∧ Handed s' := by
  have hs' : Handed s' := hs.step heff (by rintro p rfl; exact he) hallowed
  refine ⟨fun u hu f hf hfs => ?_, hs'⟩
  cases u with
  | worker => exact absurd rfl hu
  | main =>
    rcases hf with rfl | ⟨h, P, hP, rfl⟩ | ⟨T, rfl⟩
    · exact hs'
    · exact At.kept hP hfs heff hs' fun o ho => he.ops heff.by_ ho
    · have htable : s'.SQLHandle = s.SQLHandle := by
        rw [heff.table]
        cases e <;> first | rfl | exact he.elim
      simpa [htable] using hfs

/-- What the main thread guarantees when its operations are allowed. -/
lemma main_guarantees (hs : Handed s) (heff : Effect .main e s s') (he : e.OfMain)
    (hallowed : ∀ h o p, e.handoff h = some o → phase h s.trace = some p → p.allows o = true) :
    Guarantees handoffRely .main s s' ∧ Handed s' := by
  have hs' : Handed s' := hs.step heff (by rintro p rfl; exact he) hallowed
  refine ⟨fun u hu f hf hfs => ?_, hs'⟩
  cases u with
  | main => exact absurd rfl hu
  | worker =>
    rcases hf with rfl | ⟨h, P, hP, rfl⟩
    · exact hs'
    · exact At.kept hP hfs heff hs' fun o ho => he.ops heff.by_ ho

/-! ### A visit of the worker -/

/-- An event of the worker on the handler `h` that is no move of the handoff, or only a touch. -/
def Event.Attempting (h : HandlerPtr) : Event → Prop
  | .enter _ p _ _ | .init _ p _ => p = h
  | .assign _ _ a => a.Unflagged
  | .leave _ _ (.mysql_real_query _) _ _ | .pushBack _ | .erase _ _ | .new _ _ _ _ _ _ | .delete _
  | .visit _ | .mark _ => False
  | _ => True

lemma Event.Attempting.ofWorker (he : e.Attempting h) : e.OfWorker := by
  cases e with
  | assign u p a => cases a <;> trivial
  | _ => trivial

lemma Event.Attempting.handoff (he : e.Attempting h) {p : HandlerPtr} (ho : e.handoff p = some o) :
    p = h ∧ o = .touch := by
  cases Event.move ho with
  | assign ha =>
    rw [Assign.handoff_of_unflagged he] at ha
    cases ha
  | enter => exact ⟨he, rfl⟩
  | init => exact ⟨he, rfl⟩
  | _ => exact he.elim

/-- The worker is inside a visit of `h`, at this stage of the handoff. -/
def Attempt (h : HandlerPtr) (st : Stage) (s : State) : Prop :=
  Handed s ∧ At h (fun p => p.visiting = true ∧ p.stage = st) s

/-- The worker has no attempt at `h`. -/
def Settled (h : HandlerPtr) (s : State) : Prop :=
  Handed s ∧ At h (fun p => p.stage ≠ .busy ∧ p.stage ≠ .won) s

lemma stable_attempt {st : Stage} (hst : st = .idle ∨ st = .busy ∨ st = .won) (h : HandlerPtr) :
    Stable (handoffRely .worker) (Attempt h st) :=
  (stable_handed .worker).and (stable_atWorker (keptBy_consumer hst) h)

lemma stable_settled (h : HandlerPtr) : Stable (handoffRely .worker) (Settled h) :=
  (stable_handed .worker).and (stable_atWorker keptBy_consumer_ne h)

/-- In the stages before a win the worker may use the connection. -/
lemma Attempt.attempting {st : Stage} (hst : st = .idle ∨ st = .busy) (hs : Attempt h st s)
    (heff : Effect .worker e s s') (he : e.Attempting h) :
    Guarantees handoffRely .worker s s' ∧ Attempt h st s' := by
  obtain ⟨hs, ha⟩ := hs
  obtain ⟨p, hp, hvisiting, hstage⟩ := ha
  have hallow : p.allows .touch = true := by
    rcases hst with rfl | rfl <;> simp [Phase.allows, hvisiting, hstage]
  obtain ⟨hg, hs'⟩ := worker_guarantees hs heff he.ofWorker fun q o p' ho hp' => by
    obtain ⟨rfl, rfl⟩ := he.handoff ho
    obtain rfl : p = p' := Option.some.inj (hp.symm.trans hp')
    exact hallow
  refine ⟨hg, hs', ?_⟩
  cases ho : e.handoff h with
  | none => exact At.unmoved ⟨p, hp, hvisiting, hstage⟩ heff ho
  | some o =>
    obtain rfl := (he.handoff ho).2
    refine (At.after (P := (· = p)) ⟨p, hp, rfl⟩ heff ho fun q hq => hq ▸ hallow).mono ?_
    rintro q ⟨p', rfl, rfl⟩
    exact ⟨hvisiting, hstage⟩

/-- An assignment that is no move of the handoff. -/
lemma Settled.unflagged (hs : Settled h s) {q : HandlerPtr} {a : Assign} (ha : a.Unflagged)
    (heff : Effect .worker (.assign .worker q a) s s') :
    Guarantees handoffRely .worker s s' ∧ Settled h s' := by
  have hnone : ∀ p, (Event.assign .worker q a).handoff p = none := fun p => by
    simp only [Event.handoff, Assign.handoff_of_unflagged ha, ite_self]
  have hof : (Event.assign .worker q a).OfWorker := by
    cases a <;> trivial
  obtain ⟨hg, hs'⟩ := worker_guarantees hs.1 heff hof fun p o _ ho => by
    rw [hnone p] at ho
    cases ho
  exact ⟨hg, hs', hs.2.unmoved heff (hnone h)⟩

/-- A move of the worker. -/
lemma Attempt.move {st : Stage} (hs : Attempt h st s) (heff : Effect .worker e s s')
    (he : e.OfWorker) (ho : ∀ p, e.handoff p = if p = h then some o else none)
    (hallow : ∀ p : Phase, p.visiting = true → p.stage = st → p.allows o = true) :
    Guarantees handoffRely .worker s s' ∧ Handed s' ∧
      At h (fun q => ∃ p : Phase, p.visiting = true ∧ p.stage = st ∧ q = p.after o) s' := by
  obtain ⟨hs, ha⟩ := hs
  obtain ⟨hg, hs'⟩ := worker_guarantees hs heff he fun p o' p' hp hp' => by
    rw [ho p] at hp
    split_ifs at hp with hph
    cases hp
    subst hph
    obtain ⟨p, hp, hvisiting, hstage⟩ := ha
    obtain rfl : p = p' := Option.some.inj (hp.symm.trans hp')
    exact hallow p hvisiting hstage
  refine ⟨hg, hs', (ha.after heff (by rw [ho h, if_pos rfl]) fun p hp => hallow p hp.1 hp.2).mono ?_⟩
  rintro q ⟨p, ⟨hvisiting, hstage⟩, rfl⟩
  exact ⟨p, hvisiting, hstage, rfl⟩

/-- The server has executed a query of the worker. -/
lemma Attempt.executed {query : CString} {c : ConnPtr} {ok : Bool} (hs : Attempt h .busy s)
    (heff : Effect .worker (.leave .worker h (.mysql_real_query query) c ok) s s') :
    Guarantees handoffRely .worker s s' ∧ Attempt h (if ok then .won else .busy) s' := by
  cases ok with
  | true =>
    obtain ⟨hg, hs', ha⟩ := hs.move (o := .win) heff trivial
      (fun p => by simp [Event.handoff, eq_comm]) fun p _ hp => by simp [Phase.allows, hp]
    refine ⟨hg, hs', ha.mono ?_⟩
    rintro q ⟨p, hv, -, rfl⟩
    exact ⟨hv, rfl⟩
  | false =>
    obtain ⟨hg, hs'⟩ := worker_guarantees hs.1 heff trivial fun p o p' ho => by cases ho
    exact ⟨hg, hs', hs.2.unmoved heff rfl⟩

end

section

variable {b : Build} {N : Set NativeCall} {h : HandlerPtr} {s : State}

attribute [local simp] Stmt.Only Event.Attempting Assign.Unflagged this call access assign onResult
  bind_bind ite_bind all_lift_bind all_ite

lemma ping_attempting : (call h .mysql_ping).All (Stmt.Only .worker (Event.Attempting h)) := by
  simp

lemma reconnectInBackground_attempting :
    (reconnectInBackground h).All (Stmt.Only .worker (Event.Attempting h)) := by
  simp [reconnectInBackground, connect]

lemma relies_attempting {st : Stage} (hst : st = .idle ∨ st = .busy) {α : Type} {p : Code α}
    (hp : p.All (Stmt.Only .worker (Event.Attempting h))) (hs : Attempt h st s) :
    p.Relies (allowing b N) handoffRely .worker (fun _ => Attempt h st) s :=
  relies_of_only step_of_allowing hp (stable_attempt (hst.imp_right .inl) h)
    (fun _ _ _ he hI heff => hI.attempting hst heff he) hs

lemma queryFailed_relies {q : MainInfo} (hs : Attempt h .busy s) :
    (queryFailed h q).Relies (allowing b N) handoffRely .worker (fun _ => Settled h) s := by
  have hstable : Stable (handoffRely .worker) (Attempt h .busy) := stable_attempt (.inr (.inl rfl)) h
  refine .bind ((relies_attempting (.inr rfl) (p := access h .mysql_errno) (by simp) hs).mono
    fun id s hs => ?_)
  refine .bind ((relies_attempting (.inr rfl) (by simp) hs).mono fun _ s hs => ?_)
  refine .bind ((relies_attempting (.inr rfl) (p := access h .mysql_error) (by simp) hs).mono
    fun error s hs => ?_)
  refine .bind ((relies_attempting (.inr rfl) (by simp) hs).mono fun _ s hs => ?_)
  rw [← bind_ret_right (assign h _)]
  refine relies_assign step_of_allowing hstable hs fun s₁ s₂ hs₁ heff => ?_
  obtain ⟨hg, hs₂, ha⟩ := hs₁.move (o := .lose) heff trivial
    (fun p => by simp [Event.handoff, Assign.handoff, eq_comm]) fun p _ hp => by simp [Phase.allows, hp]
  refine ⟨hg, relies_ret (stable_settled h) ⟨hs₂, ha.mono ?_⟩⟩
  rintro q ⟨p, -, -, rfl⟩
  simp [Phase.after]

/-- The server executes a query: the attempt is won if it succeeds. -/
lemma query_relies (query : CString) (hs : Attempt h .busy s) :
    (call h (.mysql_real_query query)).Relies (allowing b N) handoffRely .worker
      (fun ok => Attempt h (if ok then .won else .busy)) s := by
  have hbusy : Stable (handoffRely .worker) (Attempt h .busy) := stable_attempt (.inr (.inl rfl)) h
  refine .bind ((relies_attempting (.inr rfl) (p := .lift (.enter h _)) (by simp) hs).mono
    fun c s hs => ?_)
  rw [← bind_ret_right (Prog.lift _)]
  refine relies_stmt (P := fun e => ∃ ok, e = .leave .worker h (.mysql_real_query query) c ok)
    step_of_allowing (fun ok => ⟨ok, rfl⟩) hbusy hs (fun e s₁ s₂ he hs₁ heff => ?_)
    fun ok s₁ s₂ hs₁ hst => ?_
  · obtain ⟨ok, rfl⟩ := he
    exact (hs₁.executed heff).1
  · have hs₂ := (hs₁.executed (step_leave_query (step_of_allowing hst))).2
    cases ok with
    | true => exact relies_ret (stable_attempt (.inr (.inr rfl)) h) hs₂
    | false => exact relies_ret hbusy hs₂

/-- The result is handed over. -/
lemma won_relies {q : MainInfo} (hs : Attempt h .won s) :
    (do assign h (.callbackData_push q); assign h (.m_dwError 0) : Code Unit).Relies (allowing b N)
      handoffRely .worker (fun _ => Settled h) s := by
  refine relies_assign step_of_allowing (stable_attempt (.inr (.inr rfl)) h) hs
    fun s₁ s₂ hs₁ heff => ?_
  obtain ⟨hg, hs₂, ha⟩ := hs₁.move (o := .put) heff trivial
    (fun p => by simp [Event.handoff, Assign.handoff, eq_comm]) fun p _ hp => by simp [Phase.allows, hp]
  have hsettled : Settled h s₂ := by
    refine ⟨hs₂, ha.mono ?_⟩
    rintro r ⟨p, -, -, rfl⟩
    simp [Phase.after]
  refine ⟨hg, ?_⟩
  rw [← bind_ret_right (assign h _)]
  refine relies_assign step_of_allowing (stable_settled h) hsettled fun s₁ s₂ hs₁ heff => ?_
  obtain ⟨hg, hs₂⟩ := hs₁.unflagged (a := .m_dwError 0) trivial heff
  exact ⟨hg, relies_ret (stable_settled h) hs₂⟩

/-- The query at the front is executed: it is handed over, or it is reported. -/
lemma executeFront_relies (hs : Attempt h .idle s) :
    (executeFront h).Relies (allowing b N) handoffRely .worker (fun _ => Settled h) s := by
  have hidle : Stable (handoffRely .worker) (Attempt h .idle) := stable_attempt (.inl rfl) h
  refine relies_this step_of_allowing hidle hs fun x s hs hx => ?_
  cases x.queueData with
  | nil => trivial
  | cons q qs =>
    simp only [front, pure_eq, bind_ret]
    refine relies_assign step_of_allowing hidle hs fun s₁ s₂ hs₁ heff => ?_
    obtain ⟨hg, hs₂, ha⟩ := hs₁.move (o := .take) heff trivial
      (fun p => by simp [Event.handoff, Assign.handoff, eq_comm])
      fun p hv hp => by simp [Phase.allows, hv, hp]
    have hbusy : Attempt h .busy s₂ := by
      refine ⟨hs₂, ha.mono ?_⟩
      rintro r ⟨p, hv, -, rfl⟩
      exact ⟨hv, rfl⟩
    refine ⟨hg, .bind ((query_relies q.m_szQuery hbusy).mono fun ok s hs => .bind ?_)⟩
    refine Relies.mono (Q := fun _ => Settled h) ?_ fun _ s hs => ?_
    · cases ok with
      | true => exact won_relies hs
      | false => exact queryFailed_relies hs
    · rw [← bind_ret_right (assign h _)]
      refine relies_assign step_of_allowing (stable_settled h) hs fun s₁ s₂ hs₁ heff => ?_
      obtain ⟨hg, hs₂⟩ := hs₁.unflagged (a := .queueData_pop) trivial heff
      exact ⟨hg, relies_ret (stable_settled h) hs₂⟩

/-- One visit of the worker keeps the handoff of every handler. -/
lemma workerVisit_relies (i : Nat) (hs : Handed s) :
    (workerVisit i).Relies (allowing b N) handoffRely .worker (fun _ => Handed) s := by
  have hstable := stable_handed .worker
  refine relies_at step_of_allowing hstable hs fun h s hs _ => ?_
  refine relies_guard step_of_allowing hstable hs (fun x s₁ s₂ hs₁ hx hready heff => ?_)
    fun s hs => relies_ret hstable hs
  obtain ⟨p, hp, hcoupled⟩ := hs₁.phases h
  rw [hx] at hcoupled
  have hidle : p.stage = .idle := by
    by_contra hne
    have hprocessing := (Coupled.processing hcoupled).mpr hne
    simp [CMySQLHandler.ready, hprocessing] at hready
  have hvisit : ∀ q, (Event.visit h).handoff q = if q = h then some .visit else none := fun q => by
    simp [Event.handoff, eq_comm]
  have hallow : p.allows .visit = true := by simp [Phase.allows, hidle]
  obtain ⟨hg, hs₂⟩ := worker_guarantees hs₁ heff trivial fun q o p' ho hp' => by
    rw [hvisit q] at ho
    split_ifs at ho with hq
    cases ho
    subst hq
    obtain rfl : p = p' := Option.some.inj (hp.symm.trans hp')
    exact hallow
  have hattempt : Attempt h .idle s₂ := by
    refine ⟨hs₂, (At.after (P := (· = p)) ⟨p, hp, rfl⟩ heff (by rw [hvisit h, if_pos rfl])
      fun q hq => hq ▸ hallow).mono ?_⟩
    rintro q ⟨p', rfl, rfl⟩
    exact ⟨rfl, hidle⟩
  refine ⟨hg, ?_⟩
  rw [if_pos rfl]
  refine .bind ((relies_attempting (.inl rfl) ping_attempting hattempt).mono fun ok s hs => .bind ?_)
  refine Relies.mono (Q := fun _ => Settled h) ?_ fun _ s hs => ?_
  · cases ok with
    | true => exact executeFront_relies hs
    | false =>
      refine (relies_attempting (.inl rfl) reconnectInBackground_attempting hs).mono fun _ s hs => ?_
      refine ⟨hs.1, hs.2.mono ?_⟩
      rintro p ⟨-, hp⟩
      simp [hp]
  · rw [← bind_ret_right (Prog.lift _)]
    refine relies_mark step_of_allowing (stable_settled h) hs fun s₁ s₂ hs₁ heff => ?_
    obtain ⟨hg, hs₂⟩ := worker_guarantees hs₁.1 heff trivial fun q o p ho hp => by
      simp only [Event.handoff] at ho
      split_ifs at ho with hq
      cases ho
      subst hq
      obtain ⟨p', hp', hbusy, hwon⟩ := hs₁.2
      obtain rfl : p' = p := Option.some.inj (hp'.symm.trans hp)
      simp [Phase.allows, hbusy, hwon]
    exact ⟨hg, relies_ret hstable hs₂⟩

end

/-! ### The main thread -/

/-- The main thread is inside a round of `ProcessTick`, or outside, and has taken no outcome. -/
def Rounds (inside : Bool) (s : State) : Prop :=
  Handed s ∧ ∀ h, At h (fun p => p.consuming = inside ∧ p.stage ≠ .popped) s

/-- The callbacks of the outcome of `h` run, the handler at position `i`. -/
def Delivers (i : Nat) (h : HandlerPtr) (s : State) : Prop :=
  Rounds true s ∧ At h (fun p => p.consuming = true ∧ p.stage = .ready) s ∧
    s.SQLHandle[i]? = some h

/-- The outcome of `h` has been taken and the flag is still to be reset. -/
def Takes (h : HandlerPtr) (s : State) : Prop :=
  Handed s ∧ (∀ q, q ≠ h → At q (fun p => p.consuming = true ∧ p.stage ≠ .popped) s) ∧
    At h (fun p => p.consuming = true ∧ p.stage = .popped) s

lemma stable_rounds (inside : Bool) : Stable (handoffRely .main) (Rounds inside) :=
  (stable_handed .main).and (.forall fun h => stable_atMain keptBy_producer_ne h)

lemma stable_delivers (i : Nat) (h : HandlerPtr) : Stable (handoffRely .main) (Delivers i h) :=
  (stable_rounds true).and ((stable_atMain (keptBy_producer (.inl rfl)) h).and
    (stable_table fun T => T[i]? = some h))

lemma stable_takes (h : HandlerPtr) : Stable (handoffRely .main) (Takes h) :=
  (stable_handed .main).and ((Stable.forall fun q => Stable.forall fun (_ : q ≠ h) =>
    stable_atMain (keptBy_producer_ne (b := true)) q).and
      (stable_atMain (keptBy_producer (.inr rfl)) h))

section

variable {s s' : State} {e : Event} {h : HandlerPtr} {i : Nat}

/-- Natives make no move of the handoff. -/
lemma Event.OfNative.unmoving (he : e.OfNative) (hby : e.By .main) (p : HandlerPtr) :
    e.handoff p = none := by
  cases ho : e.handoff p with
  | none => rfl
  | some o =>
    cases Event.move ho with
    | @assign u a o ha =>
      obtain rfl : u = .main := hby
      have hun : a.Unflagged := by
        cases a <;> trivial
      rw [Assign.handoff_of_unflagged hun] at ha
      cases ha
    | visit => exact he.elim
    | visitEnd => exact he.elim
    | round => exact he.elim
    | roundEnd => exact he.elim
    | _ => cases hby

lemma Event.OfNative.ofMain (he : e.OfNative) : e.OfMain := by
  cases e with
  | assign u q a => cases a <;> trivial
  | mark m => cases m <;> trivial
  | _ => trivial

lemma main_keeps (hs : Handed s) (heff : Effect .main e s s') (he : e.OfMain)
    (hnone : ∀ p, e.handoff p = none) :
    (Guarantees handoffRely .main s s' ∧ Handed s') ∧ ∀ p P, At p P s → At p P s' :=
  ⟨main_guarantees hs heff he fun p o _ ho => absurd (ho.symm.trans (hnone p)) (by simp),
    fun p _ ha => ha.unmoved heff (hnone p)⟩

lemma Rounds.keeps {inside : Bool} (hs : Rounds inside s) (heff : Effect .main e s s')
    (he : e.OfMain) (hnone : ∀ p, e.handoff p = none) :
    Guarantees handoffRely .main s s' ∧ Rounds inside s' := by
  obtain ⟨⟨hg, hs'⟩, hat⟩ := main_keeps hs.1 heff he hnone
  exact ⟨hg, hs', fun p => hat p _ (hs.2 p)⟩

lemma Delivers.keeps (hs : Delivers i h s) (heff : Effect .main e s s') (he : e.OfMain)
    (hnone : ∀ p, e.handoff p = none) (herase : ∀ j q, e ≠ .erase j q) :
    Guarantees handoffRely .main s s' ∧ Delivers i h s' := by
  obtain ⟨hg, hs'⟩ := hs.1.keeps heff he hnone
  exact ⟨hg, hs', hs.2.1.unmoved heff (hnone h), heff.position herase hs.2.2⟩

/-- The main thread enters or leaves `ProcessTick`. -/
lemma Rounds.turn {inside : Bool} {m : Mark} (hs : Rounds inside s)
    (heff : Effect .main (.mark m) s s')
    (hm : m = .tick ∧ inside = false ∨ m = .tickEnd ∧ inside = true) :
    Guarantees handoffRely .main s s' ∧ Rounds (!inside) s' := by
  obtain ⟨o, ho, hstep⟩ : ∃ o, (∀ p, (Event.mark m).handoff p = some o) ∧
      ∀ p : Phase, p.stage ≠ .popped →
        p.allows o = true ∧ p.after o = { p with consuming := !inside } := by
    rcases hm with ⟨rfl, rfl⟩ | ⟨rfl, rfl⟩
    · exact ⟨.round, fun _ => rfl, fun p _ => ⟨rfl, rfl⟩⟩
    · exact ⟨.roundEnd, fun _ => rfl, fun p hp => ⟨by simp [Phase.allows, hp], rfl⟩⟩
  have hof : (Event.mark m).OfMain := by
    rcases hm with ⟨rfl, -⟩ | ⟨rfl, -⟩ <;> trivial
  obtain ⟨hg, hs'⟩ := main_guarantees hs.1 heff hof fun p o' q ho' hq => by
    obtain rfl : o = o' := Option.some.inj ((ho p).symm.trans ho')
    obtain ⟨q', hq', -, hne⟩ := hs.2 p
    obtain rfl : q' = q := Option.some.inj (hq'.symm.trans hq)
    exact (hstep q' hne).1
  refine ⟨hg, hs', fun p => ((hs.2 p).after heff (ho p) fun q hq => (hstep q hq.2).1).mono ?_⟩
  rintro q ⟨q', ⟨-, hne⟩, rfl⟩
  rw [(hstep q' hne).2]
  exact ⟨rfl, hne⟩

/-- An outcome is taken. -/
lemma Delivers.pop (hs : Delivers i h s)
    (heff : Effect .main (.assign .main h .callbackData_pop) s s') :
    Guarantees handoffRely .main s s' ∧ Takes h s' := by
  have ho : ∀ p, (Event.assign .main h .callbackData_pop).handoff p
      = if p = h then some .get else none := fun p => by simp [Event.handoff, Assign.handoff, eq_comm]
  obtain ⟨hg, hs'⟩ := main_guarantees hs.1.1 heff trivial fun p o q hp hq => by
    rw [ho p] at hp
    split_ifs at hp with hph
    cases hp
    subst hph
    obtain ⟨q', hq', hc, hready⟩ := hs.2.1
    obtain rfl : q' = q := Option.some.inj (hq'.symm.trans hq)
    simp [Phase.allows, hc, hready]
  refine ⟨hg, hs', fun q hq => (hs.1.2 q).unmoved heff (by rw [ho q, if_neg hq]), ?_⟩
  refine (hs.2.1.after heff (by rw [ho h, if_pos rfl]) fun p hp => ?_).mono ?_
  · simp [Phase.allows, hp.1, hp.2]
  · rintro q ⟨p, ⟨hc, -⟩, rfl⟩
    exact ⟨hc, rfl⟩

/-- The flag is reset. -/
lemma Takes.reset (hs : Takes h s)
    (heff : Effect .main (.assign .main h (.m_bQueryProcessing false)) s s') :
    Guarantees handoffRely .main s s' ∧ Rounds true s' := by
  have ho : ∀ p, (Event.assign .main h (.m_bQueryProcessing false)).handoff p
      = if p = h then some .release else none := fun p => by
    simp [Event.handoff, Assign.handoff, eq_comm]
  obtain ⟨hg, hs'⟩ := main_guarantees hs.1 heff trivial fun p o q hp hq => by
    rw [ho p] at hp
    split_ifs at hp with hph
    cases hp
    subst hph
    obtain ⟨q', hq', -, hpopped⟩ := hs.2.2
    obtain rfl : q' = q := Option.some.inj (hq'.symm.trans hq)
    simp [Phase.allows, hpopped]
  refine ⟨hg, hs', fun q => ?_⟩
  by_cases hq : q = h
  · subst hq
    refine (hs.2.2.after heff (by rw [ho q, if_pos rfl]) fun p hp => ?_).mono ?_
    · simp [Phase.allows, hp.2]
    · rintro r ⟨p, ⟨hc, -⟩, rfl⟩
      exact ⟨hc, by simp [Phase.after]⟩
  · exact (hs.2.1 q hq).unmoved heff (by rw [ho q, if_neg hq])

end

section

variable {b : Build} {N : Set NativeCall} {s : State}

lemma native_rounds {inside : Bool} {n : NativeCall} (hn : n.Open) (hs : Rounds inside s) :
    (native n).Relies (allowing b N) handoffRely .main (fun _ => Rounds inside) s :=
  relies_of_only step_of_allowing (native_ofNative .main hn) (stable_rounds inside)
    (fun _ _ _ he hI heff => hI.keeps heff he.ofMain (he.unmoving heff.by_)) hs

lemma native_delivers {i : Nat} {h : HandlerPtr} {n : NativeCall} (hn : n.Open)
    (hs : Delivers i h s) :
    (native n).Relies (allowing b N) handoffRely .main (fun _ => Delivers i h) s :=
  relies_of_only step_of_allowing (native_ofNative .main hn) (stable_delivers i h)
    (fun _ _ _ he hI heff => hI.keeps heff he.ofMain (he.unmoving heff.by_) fun _ _ h => by
      subst h
      exact he) hs

/-- A visit of `ProcessTick` keeps the handoff of every handler. -/
lemma tickVisit_rounds (hN : ∀ n ∈ N, n.Open) (i : Nat) (hs : Rounds true s) :
    (tickVisit i).Relies (allowing b N) handoffRely .main (fun _ => Rounds true) s := by
  have hstable := stable_rounds true
  have htable : ∀ h, Stable (handoffRely .main) fun s => s.SQLHandle[i]? = some h :=
    fun h => stable_table fun T => T[i]? = some h
  refine .bind ((relies_tickError step_of_allowing (confined_allowing b N) hstable
    (fun a p s s' hs heff => hs.keeps heff trivial fun _ => rfl)
    (fun n s hn hs => native_rounds (hN n hn) hs)
    (fun h s s' hs heff => hs.keeps heff trivial fun p => by simp [Event.handoff, Assign.handoff])
    hs).mono fun _ s hs => ?_)
  refine relies_tickCallback (K := fun h _ => Delivers i h) (L := Takes) step_of_allowing
    (confined_allowing b N) hstable htable (fun h _ => stable_delivers i h) stable_takes
    (fun h x d ds s hs hi hx hd => ?_) (fun h d s hs => hs.2.2)
    (fun h d a s s' hs heff => hs.keeps heff trivial (fun _ => rfl) (by simp))
    (fun h d n s hn hs => native_delivers (hN n hn) hs) (fun h d s s' hs heff => hs.pop heff)
    (fun h s s' hs heff => hs.reset heff) hs
  -- an entry in `callbackData` is an outcome in the place
  obtain ⟨p, hp, hcoupled⟩ := hs.1.phases h
  rw [hx] at hcoupled
  refine ⟨hs, ⟨p, hp, ?_, ?_⟩, hi⟩
  · obtain ⟨p', hp', hc, -⟩ := hs.2 h
    obtain rfl : p = p' := Option.some.inj (hp.symm.trans hp')
    exact hc
  · by_contra hne
    have hlen := Coupled.callbackData hcoupled
    simp [hd, hne] at hlen

/-- The duties of the two threads in the handoff. -/
theorem handoff_duties (b : Build) {N : Set NativeCall} (hN : ∀ n ∈ N, n.Open) :
    Duties (allowing b N) N handoffRely (Rounds false) (Rounds true) Handed Handed where
  stable_idle := stable_rounds false
  stable_ticking := stable_rounds true
  stable_asleep := stable_handed .worker
  stable_sweeping := stable_handed .worker
  native n s hn hs := native_rounds (hN n hn) hs
  amx e s s' he hs heff := by
    obtain ⟨a, rfl | rfl⟩ := he <;> exact hs.keeps heff trivial fun _ => rfl
  tick s s' hs heff := hs.turn heff (.inl ⟨rfl, rfl⟩)
  visit i s hs := tickVisit_rounds hN i hs
  tickEnd s s' hs heff := hs.turn heff (.inr ⟨rfl, rfl⟩)
  wake e s s' he hs heff := by
    rcases he with rfl | rfl <;>
      exact worker_guarantees hs heff trivial fun p o q ho => by cases ho
  sweep i s hs := workerVisit_relies i hs
  sleep s s' hs heff := worker_guarantees hs heff trivial fun p o q ho => by cases ho

end

end MySQLPlugin
