import MySQLPlugin.Handles.Tick
import MySQLPlugin.Queues.Rounds

/-!
# What a sweep leaves of a stored result

The natives that read a stored result keep it, the current row and the texts of the row in the
handler. The worker works on the same handler; of these members it writes `m_stResult`, when a ping
has failed.
-/

namespace MySQLPlugin

open Threads Prog CMySQLHandler

/-- The members with which a script reads a stored result. -/
structure Reading where
  m_stResult : Slot (Option ResPtr)
  m_stRow : Slot (Option RowPtr)
  m_stField : Slot (Option FieldPtr)
  m_dwFields : Slot (BitVec 32)
  m_szResult : CString
  Delimiter : CString
  m_cSStream : StringStream
  deriving DecidableEq

def CMySQLHandler.reading (x : CMySQLHandler) : Reading where
  m_stResult := x.m_stResult
  m_stRow := x.m_stRow
  m_stField := x.m_stField
  m_dwFields := x.m_dwFields
  m_szResult := x.m_szResult
  Delimiter := x.Delimiter
  m_cSStream := x.m_cSStream

/-- The same without the result. -/
def Reading.dropped (r : Reading) : Reading := { r with m_stResult := .set none }

/-- A ping of the worker for `h` that fails. -/
def Event.isPingFails (h : HandlerPtr) : Event → Bool
  | .leave .worker p .mysql_ping _ ok => p == h && !ok
  | _ => false

/-- A ping of the worker for `h` has failed since `s₀`. -/
def State.pingFailed (s₀ s : State) (h : HandlerPtr) : Bool := (s₀.since s).any (·.isPingFails h)

lemma Reading.dropped_eq_self_iff {r : Reading} : r.dropped = r ↔ r.m_stResult = .set none := by
  constructor
  · intro h
    rw [← h]
    rfl
  · intro h
    simp [Reading.dropped, ← h]

/-! ### Single events -/

/-- The assignment changes nothing but the result. -/
def Assign.KeepsRows (a : Assign) : Prop := ∀ x, (a.apply x).reading.dropped = x.reading.dropped

/-- The event keeps what `h` has for the reading scripts. -/
def Event.KeepsReading (h : HandlerPtr) : Event → Prop
  | .assign _ p a => p = h → ∀ x, (a.apply x).reading = x.reading
  | .leave .worker p .mysql_ping _ ok => p = h → ok = true
  | .new .. | .delete .. => False
  | _ => True

/-- The event keeps the rows that `h` has for the reading scripts. -/
def Event.KeepsRows (h : HandlerPtr) : Event → Prop
  | .assign _ p a => p = h → a.KeepsRows
  | .new .. | .delete .. => False
  | _ => True

lemma Event.KeepsReading.noPingFails {h : HandlerPtr} {e : Event} (he : e.KeepsReading h) :
    e.isPingFails h = false := by
  rw [Bool.eq_false_iff]
  intro hping
  unfold Event.isPingFails at hping
  split at hping
  · obtain ⟨hp, hok⟩ := Bool.and_eq_true_iff.mp hping
    rw [he (beq_iff_eq.mp hp)] at hok
    cases hok
  · cases hping

/-- The result, the row and the texts that `h` had in `s₀` are there, up to the result if a ping has
failed since. -/
structure KeepsReading (s₀ : State) (h : HandlerPtr) (r : Reading) (s : State) : Prop where
  trace : s₀.trace <+: s.trace
  object : ∃ x, s.heap h = some x ∧ x.reading = if s₀.pingFailed s h then r.dropped else r

/-- The same after a ping has failed, whatever the result is. -/
structure KeepsRows (s₀ : State) (h : HandlerPtr) (r : Reading) (s : State) : Prop where
  trace : s₀.trace <+: s.trace
  failed : s₀.pingFailed s h = true
  object : ∃ x, s.heap h = some x ∧ x.reading.dropped = r.dropped

section

variable {s₀ s s' : State} {h : HandlerPtr} {r : Reading} {t : ThreadId} {e : Event}

lemma Effect.pingFailed (heff : Effect t e s s') (hpre : s₀.trace <+: s.trace) (h : HandlerPtr) :
    s₀.pingFailed s' h = (s₀.pingFailed s h || e.isPingFails h) := by
  rw [State.pingFailed, State.since, heff.trace, List.drop_append_of_le_length hpre.length_le,
    List.any_append]
  simp [State.pingFailed, State.since]

lemma KeepsReading.refl {x : CMySQLHandler} (hx : s.heap h = some x) :
    KeepsReading s h x.reading s where
  trace := List.prefix_refl _
  object := ⟨x, hx, by simp [State.pingFailed, State.since]⟩

lemma KeepsReading.step (hs : KeepsReading s₀ h r s) (heff : Effect t e s s')
    (he : e.KeepsReading h) : KeepsReading s₀ h r s' where
  trace := hs.trace.trans heff.prefix
  object := by
    obtain ⟨x, hx, hread⟩ := hs.object
    rw [heff.pingFailed hs.trace, he.noPingFails, Bool.or_false, heff.heap h, hx]
    cases e with
    | assign u p a =>
      by_cases hp : p = h
      · exact ⟨a.apply x, by simp [Event.onObject, hp], (he hp x).trans hread⟩
      · exact ⟨x, by simp [Event.onObject, Ne.symm hp], hread⟩
    | new => exact he.elim
    | delete => exact he.elim
    | _ => exact ⟨x, rfl, hread⟩

/-- A ping for `h` fails. -/
lemma KeepsReading.ping (hs : KeepsReading s₀ h r s) {c : ConnPtr}
    (heff : Effect .worker (.leave .worker h .mysql_ping c false) s s') : KeepsRows s₀ h r s' where
  trace := hs.trace.trans heff.prefix
  failed := by simp [heff.pingFailed hs.trace, Event.isPingFails]
  object := by
    obtain ⟨x, hx, hread⟩ := hs.object
    refine ⟨x, (heff.heap h).trans hx, ?_⟩
    rw [hread]
    split_ifs <;> rfl

lemma KeepsRows.step (hs : KeepsRows s₀ h r s) (heff : Effect t e s s') (he : e.KeepsRows h) :
    KeepsRows s₀ h r s' where
  trace := hs.trace.trans heff.prefix
  failed := by rw [heff.pingFailed hs.trace, hs.failed, Bool.true_or]
  object := by
    obtain ⟨x, hx, hread⟩ := hs.object
    rw [heff.heap h, hx]
    cases e with
    | assign u p a =>
      by_cases hp : p = h
      · exact ⟨a.apply x, by simp [Event.onObject, hp], (he hp x).trans hread⟩
      · exact ⟨x, by simp [Event.onObject, Ne.symm hp], hread⟩
    | new => exact he.elim
    | delete => exact he.elim
    | _ => exact ⟨x, rfl, hread⟩

/-- `m_stResult` is set to `NULL`. -/
lemma KeepsRows.drop (hs : KeepsRows s₀ h r s)
    (heff : Effect t (.assign t h (.m_stResult none)) s s') : KeepsReading s₀ h r s' where
  trace := hs.trace.trans heff.prefix
  object := by
    obtain ⟨x, hx, hread⟩ := hs.object
    obtain ⟨y, hy, hx'⟩ := heff.assigned
    obtain rfl : x = y := Option.some.inj (hx.symm.trans hy)
    refine ⟨_, hx', ?_⟩
    rw [heff.pingFailed hs.trace, hs.failed, Bool.true_or, if_pos rfl, ← hread]
    rfl

end

/-! ### A sweep -/

section

variable {M : Machine Stmt Fault State ThreadId Reply} {b : Build} [IsPlugin M b] {s₀ s s' : State}
  {h : HandlerPtr} {r : Reading} {t : ThreadId} {α : Type}

include b

lemma wp_keepsReading {p : Code α} (hp : p.All (Stmt.Only t (Event.KeepsReading h)))
    (hs : KeepsReading s₀ h r s) :
    p.wp M t (fun _ _ => True) (fun _ => KeepsReading s₀ h r) s :=
  wp_of_only IsPlugin.step hp (fun _ _ _ he hs heff => hs.step heff he) (fun _ _ _ => trivial) hs

lemma wp_keepsRows {p : Code α} (hp : p.All (Stmt.Only t (Event.KeepsRows h)))
    (hs : KeepsRows s₀ h r s) : p.wp M t (fun _ _ => True) (fun _ => KeepsRows s₀ h r) s :=
  wp_of_only IsPlugin.step hp (fun _ _ _ he hs heff => hs.step heff he) (fun _ _ _ => trivial) hs

attribute [local simp] Stmt.Only Event.KeepsReading Event.KeepsRows Assign.KeepsRows Assign.apply
  CMySQLHandler.reading Reading.dropped this call access assign onResult bind_bind ite_bind
  all_lift_bind all_ite

omit b [IsPlugin M b] in
lemma executeFront_keepsReading (p : HandlerPtr) :
    (executeFront p).All (Stmt.Only .worker (Event.KeepsReading h)) := by
  simp only [executeFront, this, all_lift_bind]
  refine ⟨trivial, fun x => ?_⟩
  cases x.queueData with
  | nil => trivial
  | cons q qs => simp [front, queryFailed]

/-- After a ping for the handler has failed the result is gone. -/
lemma dropPending_drops (hs : KeepsRows s₀ h r s) :
    (dropPending h).wp M .worker (fun _ _ => True) (fun _ => KeepsReading s₀ h r) s := by
  have hcall : (assign h (.m_bIsConnected false) >>= fun _ => call h .mysql_store_result).All
      (Stmt.Only .worker (Event.KeepsRows h)) := by simp
  rw [dropPending, ← bind_bind, wp_bind]
  refine wp_mono (wp_keepsRows hcall hs) fun o s₁ hs₁ => wp_assign (fun _ => trivial) fun s₂ heff => ?_
  cases o with
  | none => exact hs₁.drop heff
  | some p =>
    have hs₂ := hs₁.step heff fun _ _ => rfl
    have hfree : (onResult (some p) .mysql_free_result).All (Stmt.Only .worker (Event.KeepsRows h)) := by
      simp
    rw [if_pos (by simp), wp_bind]
    refine wp_mono (wp_keepsRows hfree hs₂) fun _ s₃ hs₃ => ?_
    rw [← bind_ret_right (assign h _)]
    exact wp_assign (fun _ => trivial) fun s₄ heff₄ => hs₃.drop heff₄

lemma workerVisit_keepsReading {i : Nat} (hs : KeepsReading s₀ h r s) :
    (workerVisit i).wp M .worker (fun _ _ => True) (fun _ => KeepsReading s₀ h r) s := by
  refine wp_at (fun _ => trivial) fun p hp => wp_guard (fun _ => trivial) (fun _ _ _ => hs)
    fun x s₁ hx hready heff₁ => ?_
  have hs₁ := hs.step heff₁ trivial
  rw [if_pos rfl, call, bind_bind]
  refine wp_enter (fun _ => trivial) (fun _ _ _ => trivial) fun c s₂ heff₂ => ?_
  have hs₂ := hs₁.step heff₂ trivial
  refine wp_leave_reply fun r s₃ hr heff₃ => ?_
  cases hok : r.ok with
  | true =>
    have hs₃ := hs₂.step heff₃ fun _ => hok
    simp only [Libmysql.answer, hok, if_true]
    exact wp_keepsReading ((executeFront_keepsReading p).bind fun _ => by simp) hs₃
  | false =>
    rw [hok] at heff₃
    simp only [Libmysql.answer, hok, Bool.false_eq_true, if_false]
    have hconnect : ((connect p >>= fun _ => pure ()) >>= fun _ => Prog.lift (.mark (.visitEnd p))).All
        (Stmt.Only .worker (Event.KeepsReading h)) := by simp [connect]
    rw [reconnectInBackground_eq, bind_bind, wp_bind]
    by_cases hh : p = h
    · subst hh
      exact wp_mono (dropPending_drops (hs₂.ping heff₃)) fun _ s₄ hs₄ => wp_keepsReading hconnect hs₄
    · have hs₃ := hs₂.step heff₃ fun heq => absurd heq hh
      have hdrop : (dropPending p).All (Stmt.Only .worker (Event.KeepsReading h)) := by
        simp [dropPending, hh]
      exact wp_mono (wp_keepsReading hdrop hs₃) fun _ s₄ hs₄ => wp_keepsReading hconnect hs₄

lemma sweep_keepsReading {calls : Set MainCall} (hsweep : Cycle M (Starts calls) .worker .asleep .asleep s s')
    (hs : KeepsReading s₀ h r s) : KeepsReading s₀ h r s' := by
  refine hsweep.invariant (I := KeepsReading s₀ h r) (fun x p s hp hs => ?_) hs
  cases hp with
  | wake => exact wp_keepsReading (by simp [processQueryThread, lockMutex, unlockMutex]) hs
  | sweep i =>
    refine wp_size ?_
    rw [wp_ite]
    split_ifs
    · rw [wp_bind]
      exact wp_mono (workerVisit_keepsReading hs) fun _ _ hs => hs
    · exact wp_keepsReading (by simp [unlockMutex]) hs

end

/-- Of what a script reads of a stored result a sweep changes at most the result, and it changes
nothing, exactly if no ping for the handler fails or there is no result. -/
theorem sweep_keeps_reading_iff (b : Build) {s s' : State} {h : HandlerPtr} {x : CMySQLHandler}
    (hsweep : Sweep (plugin b) s s') (hx : s.heap h = some x) :
    ∃ x', s'.heap h = some x' ∧ x'.reading.dropped = x.reading.dropped ∧
      (x'.reading = x.reading ↔ s.pingFailed s' h = false ∨ x.m_stResult = .set none) := by
  obtain ⟨x', hx', hread⟩ := (sweep_keepsReading hsweep (.refl hx)).object
  refine ⟨x', hx', ?_, ?_⟩
  · rw [hread]
    split_ifs <;> rfl
  · cases hfailed : s.pingFailed s' h with
    | false =>
      rw [hfailed, if_neg Bool.false_ne_true] at hread
      exact ⟨fun _ => .inl rfl, fun _ => hread⟩
    | true =>
      rw [hfailed, if_pos rfl] at hread
      rw [hread, Reading.dropped_eq_self_iff]
      exact ⟨.inr, fun hor => hor.resolve_left Bool.false_ne_true.symm⟩

/-- The programs of the worker. -/
def workerProgram : Point → Option (Code Point)
  | .asleep => some processQueryThread
  | .sweep i => some (sweepLoop i)
  | _ => none

lemma sweep_of_eval {b : Build} (env : ∀ {β : Type}, Stmt β → State → Reply) {n : Nat} {s s' : State}
    (h : evalCycle (plugin b) .worker env workerProgram .asleep n .asleep s = some s') :
    Sweep (plugin b) s s' := by
  refine cycle_of_eval (M := plugin b) (fun _ _ => trivial) (fun x p hp => ?_) h
  cases x <;> cases hp
  · exact .wake
  · exact .sweep _

/-- A result is stored, and a query waits. -/
def storedResult : List Action :=
  [.native (.mysql_connect [] [] [] [] 0), .native (.mysql_query ['p'] (-1) 0 1),
    .native (.mysql_store_result 1), .native (.mysql_query ['q'] 7 3 1)]

/-- Every statement has a result; pings fail or succeed. -/
def storing (ping : Bool) : ∀ {β : Type}, Stmt β → State → Reply
  | _, .leave _ _ .mysql_ping, _ => { ok := ping }
  | _, .leave _ _ .mysql_store_result, _ => { rows := some ⟨[], []⟩ }
  | _, _, _ => {}

/-- The worker connects again, and the stored result is gone. -/
theorem sweep_drops_result :
    ¬ ∀ (b : Build) (s s' : State) (h : HandlerPtr) (x : CMySQLHandler), Sweep (plugin b) s s' →
      s.heap h = some x → ∃ x', s'.heap h = some x' ∧ x'.reading = x.reading := by
  intro hall
  have hrun : ((play (plugin .win32) (storing false) storedResult (State.init [])).bind fun s =>
      (evalCycle (plugin .win32) .worker (storing false) workerProgram .asleep 3 .asleep s).map fun s' =>
        ((s.heap 0).map (·.m_stResult), (s'.heap 0).map (·.m_stResult)))
      = some (some (.set (some 0)), some (.set none)) := by decide +kernel
  obtain ⟨s, -, hrun⟩ := Option.bind_eq_some_iff.mp hrun
  obtain ⟨s', hs', heval⟩ := Option.map_eq_some_iff.mp hrun
  simp only [Prod.mk.injEq, Option.map_eq_some_iff] at heval
  obtain ⟨⟨x, hx, hresult⟩, y, hy, hdropped⟩ := heval
  obtain ⟨x', hx', hread⟩ := hall .win32 s s' 0 x (sweep_of_eval (storing false) hs') hx
  obtain rfl : y = x' := Option.some.inj (hy.symm.trans hx')
  have hsame : y.m_stResult = x.m_stResult := congrArg Reading.m_stResult hread
  rw [hresult, hdropped] at hsame
  cases hsame

/-- The query is executed, and the stored result stays. -/
theorem sweep_keeps_result :
    ∃ s s' x x', Sweep (plugin .win32) s s' ∧ s.heap 0 = some x ∧ x.m_stResult = .set (some 0) ∧
      s'.heap 0 = some x' ∧ x'.reading = x.reading := by
  have hrun : ((play (plugin .win32) (storing true) storedResult (State.init [])).bind fun s =>
      (evalCycle (plugin .win32) .worker (storing true) workerProgram .asleep 3 .asleep s).map fun s' =>
        ((s.heap 0).map (·.m_stResult), s.pingFailed s' 0)) = some (some (.set (some 0)), false) := by
    decide +kernel
  obtain ⟨s, -, hrun⟩ := Option.bind_eq_some_iff.mp hrun
  obtain ⟨s', hs', heval⟩ := Option.map_eq_some_iff.mp hrun
  simp only [Prod.mk.injEq, Option.map_eq_some_iff] at heval
  obtain ⟨⟨x, hx, hresult⟩, hpings⟩ := heval
  have hsweep : Sweep (plugin .win32) s s' := sweep_of_eval (storing true) hs'
  obtain ⟨x', hx', -, hiff⟩ := sweep_keeps_reading_iff .win32 hsweep hx
  exact ⟨s, s', x, x', hsweep, hx, hresult, hx', hiff.mpr (.inl hpings)⟩

end MySQLPlugin
