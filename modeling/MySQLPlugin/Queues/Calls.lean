import MySQLPlugin.Handles.Frame
import MySQLPlugin.Interplay.Rules
import MySQLPlugin.Queues.Books

/-!
# The calls of the scripts

The trace of a run tells which natives the scripts have called, with which handler, what each call
has put into a queue or executed, and what it has returned. A call of a query puts its own query into
the queue of its own handler, once, and returns the id of the query; or it executes it; or it does
neither and returns `0`. A queue is emptied only by a call that closes the connection.
-/

namespace MySQLPlugin

open Threads Dispatch Prog CMySQLHandler Natives

/-! ### The calls of a trace -/

/-- The id that the script gives to the query. -/
def NativeCall.id : NativeCall → Option Cell
  | .mysql_query _ resultid _ _ => some resultid
  | .mysql_query_callback index _ _ _ _ => some index
  | _ => none

/-- The threaded query of the call; a `mysql_query` with the id `-1` is executed at once. -/
def NativeCall.job : NativeCall → Option MainInfo
  | .mysql_query query resultid extraid _ =>
    if resultid = -1 then none else some ⟨query, resultid, extraid, OnQueryFinish⟩
  | .mysql_query_callback index query callback extraid _ => some ⟨query, index, extraid, callback⟩
  | _ => none

/-- The call closes the connection of its handler. -/
def NativeCall.Closes : NativeCall → Prop
  | .mysql_reconnect _ | .mysql_close _ => True
  | _ => False

/-- The handler that the connection handle of the call denotes after the events `es`. -/
def NativeCall.denoted (n : NativeCall) (es : List Event) : Option HandlerPtr :=
  n.connectionHandle.bind fun c => (tableAt es)[(c - 1).toNat]?

/-- After the events `es` the connection handle of the call denotes a handler that is connected. -/
def NativeCall.meets (n : NativeCall) (es : List Event) : Bool :=
  (n.denoted es).any fun h => (objectAt h es).any (·.m_bIsConnected)

/-- The query that the main thread puts into a queue with the event. -/
def Event.queues : Event → Option (HandlerPtr × MainInfo)
  | .assign .main h (.queueData_push d) => some (h, d)
  | _ => none

/-- The query that the main thread executes with the event. -/
def Event.executes : Event → Option (HandlerPtr × CString)
  | .leave .main h (.mysql_real_query q) _ true => some (h, q)
  | _ => none

/-- A call of a native that has returned. -/
structure CallRecord where
  call : NativeCall
  /-- What the connection handle denoted when the call was made. -/
  handler : Option HandlerPtr
  connected : Bool
  queued : List (HandlerPtr × MainInfo)
  executed : List (HandlerPtr × CString)
  result : Cell
  deriving DecidableEq

/-- The calls that have returned, and the one that has not. -/
structure CallLog where
  asked : Option NativeCall := none
  handler : Option HandlerPtr := none
  connected : Bool := false
  queued : List (HandlerPtr × MainInfo) := []
  executed : List (HandlerPtr × CString) := []
  done : List CallRecord := []

/-- The call that has not returned, as it will be recorded. -/
def CallLog.record (l : CallLog) (n : NativeCall) (r : Cell) : CallRecord :=
  ⟨n, l.handler, l.connected, l.queued, l.executed, r⟩

/-- The log after the event, which comes after the events `es`. -/
def CallLog.add (es : List Event) (l : CallLog) : Event → CallLog
  | .mark (.call n) =>
    { l with asked := some n, handler := n.denoted es, connected := n.meets es }
  | .mark (.return n r) => { done := l.done ++ [l.record n r] }
  | e =>
    { l with queued := l.queued ++ e.queues.toList, executed := l.executed ++ e.executes.toList }

/-- The calls of a trace. -/
def callLog (es : List Event) : CallLog :=
  (es.foldl (fun p e => (p.1 ++ [e], p.2.add p.1 e)) (([], {}) : List Event × CallLog)).2

@[simp] lemma callLog_nil : callLog [] = {} := rfl

@[simp] lemma callLog_concat (es : List Event) (e : Event) :
    callLog (es ++ [e]) = (callLog es).add es e := by
  have hfst : ∀ es : List Event,
      (es.foldl (fun p e => (p.1 ++ [e], p.2.add p.1 e)) (([], {}) : List Event × CallLog)).1 = es := by
    intro es
    induction es using List.reverseRecOn with
    | nil => rfl
    | append_singleton es e ih => rw [List.foldl_concat, ih]
  rw [callLog, List.foldl_concat, hfst, ← callLog]

/-- The event is no call or return of a native, puts nothing into a queue, executes nothing for a
script and empties no queue. -/
def Event.Unasked : Event → Prop
  | .mark (.call _) | .mark (.return _ _) | .assign .main _ .queueData_popAll => False
  | e => e.queues = none ∧ e.executes = none

lemma Event.Unasked.add {e : Event} (he : e.Unasked) (es : List Event) (l : CallLog) :
    l.add es e = l := by
  have hnone (h : e.queues = none ∧ e.executes = none) :
      { l with queued := l.queued ++ e.queues.toList, executed := l.executed ++ e.executes.toList } = l := by
    simp [h.1, h.2]
  cases e with
  | mark m => cases m <;> first | exact he.elim | exact hnone he
  | assign u h a => cases u <;> cases a <;> first | exact he.elim | exact hnone he
  | _ => exact hnone he

/-! ### The calls and the books -/

/-- The queries among `qs` that are for `h`. -/
def queriesFor (h : HandlerPtr) (qs : List (HandlerPtr × MainInfo)) : List MainInfo :=
  qs.filterMap fun p => if p.1 = h then some p.2 else none

/-- What the calls that have returned have put into the queue of `h`, in order. -/
def entries (h : HandlerPtr) (as : List CallRecord) : List MainInfo :=
  queriesFor h (as.flatMap CallRecord.queued)

/-- The accepted queries of a handler are those that the calls have put into its queue. -/
lemma books_accepted (h : HandlerPtr) (es : List Event) :
    (books h es).accepted = entries h (callLog es).done ++ queriesFor h (callLog es).queued := by
  have hother (L : Ledger MainInfo ErrorInfo) (o : Op MainInfo ErrorInfo) (ho : ∀ j, o ≠ .accept j) :
      (L.step o).accepted = L.accepted := by
    cases o with
    | accept j => exact absurd rfl (ho j)
    | discard => rfl
    | foreign e => rfl
    | succeed => rw [Ledger.step]; split <;> rfl
    | fail e => rw [Ledger.step]; split <;> rfl
    | handOk => rw [Ledger.step]; split <;> rfl
    | handErr => rw [Ledger.step]; split <;> rfl
  induction es using List.reverseRecOn with
  | nil => rfl
  | append_singleton es e ih =>
    have hbooks : (books h (es ++ [e])).accepted = (books h es).accepted ++
        queriesFor h e.queues.toList := by
      cases hop : e.bookOp h with
      | none =>
        rw [books_concat_none hop]
        cases e with
        | assign u p a =>
          cases u <;> cases a <;> simp_all [Event.bookOp, Event.queues, queriesFor]
        | _ => simp [Event.queues, queriesFor]
      | some o =>
        rw [books_concat_some hop]
        cases e with
        | assign u p a =>
          cases u <;> cases a <;> simp only [Event.bookOp, Option.ite_none_right_eq_some,
            Option.some.injEq, reduceCtorEq] at hop
          case main.queueData_push q =>
            obtain ⟨rfl, rfl⟩ := hop
            simp [Event.queues, queriesFor, Ledger.step]
          all_goals
            obtain ⟨-, rfl⟩ := hop
            simp [Event.queues, queriesFor, hother]
        | _ => cases hop
    rw [hbooks, ih, callLog_concat]
    cases e with
    | mark m =>
      cases m <;> simp [CallLog.add, Event.queues, entries, queriesFor, CallLog.record]
    | _ => simp [CallLog.add, queriesFor]

/-- What has been put into a queue belongs to a call that has returned, or to the one that has not. -/
lemma mem_queued {h : HandlerPtr} {d : MainInfo} {es : List Event}
    (hpush : .assign .main h (.queueData_push d) ∈ es) :
    (h, d) ∈ (callLog es).done.flatMap CallRecord.queued ++ (callLog es).queued := by
  induction es using List.reverseRecOn with
  | nil => cases hpush
  | append_singleton es e ih =>
    rw [callLog_concat]
    rcases List.mem_append.mp hpush with hpush | hpush
    · have hold := List.mem_append.mp (ih hpush)
      cases e with
      | mark m => cases m <;> simpa [CallLog.add, CallLog.record, Event.queues] using hold
      | _ => simpa [CallLog.add, or_assoc] using hold.imp id Or.inl
    · obtain rfl := List.mem_singleton.mp hpush
      simp [CallLog.add, Event.queues]

/-! ### What a call returns -/

/-- What a call of a native has done and returned: it has neither queued nor executed anything, and a
call of a query returns `0` then; or it has put its own query into the queue of its own handler and
returned the id of the query; or it has executed its query on its own handler and returned `1`. -/
inductive CallRecord.Receipted (a : CallRecord) : Prop
  | refused : a.queued = [] → a.executed = [] → (a.call.query ≠ none → a.result = 0) → a.Receipted
  | queued {h : HandlerPtr} {d : MainInfo} : a.handler = some h → a.call.job = some d →
      a.queued = [(h, d)] → a.executed = [] → a.result = d.m_uiResult → a.Receipted
  | executed {h : HandlerPtr} {q : CString} : a.handler = some h → a.call.query = some q →
      a.call.job = none → a.queued = [] → a.executed = [(h, q)] → a.result = 1 → a.Receipted

/-- A queue is emptied only while a call that closes the connection of its handler is running. -/
def Discards (es : List Event) : Prop :=
  ∀ es' h, es' ++ [.assign .main h .queueData_popAll] <+: es →
    ∃ n ∈ (callLog es').asked, n.Closes ∧ (callLog es').handler = some h

/-- All calls that have returned have returned what they should, and those of `D` have queued
nothing. -/
structure Answers (D : Set NativeCall) (s : State) : Prop where
  replayed : Replayed s
  receipted : ∀ a ∈ (callLog s.trace).done, a.Receipted ∧ (a.call ∈ D → a.queued = [])
  discards : Discards s.trace

lemma answers_init (D : Set NativeCall) (p_Amx : List Amx) : Answers D (State.init p_Amx) where
  replayed := replayed_init p_Amx
  receipted a ha := by cases ha
  discards es' h hp := absurd (List.prefix_nil.mp hp) (by simp)

/-- The calls are answered, and `R` holds of the log and the table. -/
def Logged (D : Set NativeCall) (R : CallLog → List HandlerPtr → Prop) (s : State) : Prop :=
  Answers D s ∧ R (callLog s.trace) s.SQLHandle

/-- No call is running. -/
def CallLog.Idle (l : CallLog) (_ : List HandlerPtr) : Prop := l.queued = [] ∧ l.executed = []

/-- The native `n` is running, and its connection handle denotes what it did when the call was made. -/
structure CallLog.Runs (n : NativeCall) (qs : List (HandlerPtr × MainInfo))
    (xs : List (HandlerPtr × CString)) (l : CallLog) (T : List HandlerPtr) : Prop where
  asked : l.asked = some n
  denotes : l.handler = n.connectionHandle.bind fun c => T[(c - 1).toNat]?
  queued : l.queued = qs
  executed : l.executed = xs

/-- It works on the handler `h`. -/
structure CallLog.Works (n : NativeCall) (h : HandlerPtr) (qs : List (HandlerPtr × MainInfo))
    (xs : List (HandlerPtr × CString)) (l : CallLog) (T : List HandlerPtr) : Prop extends
    CallLog.Runs n qs xs l T where
  handler : l.handler = some h

/-- It is about to return `r`. -/
def CallLog.Returns (D : Set NativeCall) (n : NativeCall) (r : Cell) (l : CallLog)
    (_ : List HandlerPtr) : Prop :=
  (l.record n r).Receipted ∧ (n ∈ D → l.queued = [])

section

variable {D : Set NativeCall} {R : CallLog → List HandlerPtr → Prop} {s s' : State} {e : Event}
  {t : ThreadId}

lemma Discards.concat {es : List Event} (hes : Discards es)
    (he : ∀ h, e = .assign .main h .queueData_popAll →
      ∃ n ∈ (callLog es).asked, n.Closes ∧ (callLog es).handler = some h) : Discards (es ++ [e]) := by
  intro es' h hp
  rcases List.prefix_concat_iff.mp hp with heq | hp
  · obtain ⟨rfl, hlast⟩ := List.append_inj' heq rfl
    exact he h (List.singleton_inj.mp hlast).symm
  · exact hes es' h hp

lemma Event.Unasked.popAll (he : e.Unasked) (h : HandlerPtr) :
    e ≠ .assign .main h .queueData_popAll := by
  rintro rfl
  exact he

lemma Logged.unasked (hs : Logged D R s) (heff : Effect t e s s') (he : e.Unasked)
    (hR : R (callLog s.trace) s.SQLHandle → R (callLog s.trace) s'.SQLHandle) : Logged D R s' := by
  have hlog : callLog s'.trace = callLog s.trace := by rw [heff.trace, callLog_concat, he.add]
  refine ⟨⟨hs.1.replayed.step heff, ?_, ?_⟩, ?_⟩
  · rw [hlog]
    exact hs.1.receipted
  · rw [heff.trace]
    exact hs.1.discards.concat fun h heq => absurd heq (he.popAll h)
  · rw [hlog]
    exact hR hs.2

/-- An event that leaves the table as it is. -/
lemma Logged.stays (hs : Logged D R s) (heff : Effect t e s s') (he : e.Unasked)
    (hedit : e.edit = none) : Logged D R s' := by
  refine hs.unasked heff he fun hR => ?_
  rw [heff.table, Event.onTable, hedit]
  exact hR

/-- A call begins. -/
lemma Logged.call {n : NativeCall} (hs : Logged D CallLog.Idle s)
    (heff : Effect t (.mark (.call n)) s s') :
    Logged D (CallLog.Runs n [] []) s' := by
  refine ⟨⟨hs.1.replayed.step heff, ?_, ?_⟩, ?_⟩
  · rw [heff.trace, callLog_concat]
    exact hs.1.receipted
  · rw [heff.trace]
    exact hs.1.discards.concat fun h heq => by cases heq
  · rw [heff.trace, callLog_concat, heff.table]
    exact ⟨rfl, by rw [hs.1.replayed.table]; rfl, hs.2.1, hs.2.2⟩

/-- A call ends. -/
lemma Logged.return {n : NativeCall} {r : Cell} (hs : Logged D (CallLog.Returns D n r) s)
    (heff : Effect t (.mark (.return n r)) s s') : Logged D CallLog.Idle s' := by
  refine ⟨⟨hs.1.replayed.step heff, fun a ha => ?_, ?_⟩, ?_⟩
  · rw [heff.trace, callLog_concat] at ha
    rcases List.mem_append.mp ha with ha | ha
    · exact hs.1.receipted a ha
    · obtain rfl := List.mem_singleton.mp ha
      exact hs.2
  · rw [heff.trace]
    exact hs.1.discards.concat fun h heq => by cases heq
  · rw [heff.trace, callLog_concat]
    exact ⟨rfl, rfl⟩

/-- A query is put into a queue. -/
lemma Logged.push {n : NativeCall} {h : HandlerPtr} {d : MainInfo}
    (hs : Logged D (CallLog.Works n h [] []) s)
    (heff : Effect t (.assign .main h (.queueData_push d)) s s') :
    Logged D (CallLog.Works n h [(h, d)] []) s' := by
  refine ⟨⟨hs.1.replayed.step heff, ?_, ?_⟩, ?_⟩
  · rw [heff.trace, callLog_concat]
    exact hs.1.receipted
  · rw [heff.trace]
    exact hs.1.discards.concat fun h heq => by cases heq
  · rw [heff.trace, callLog_concat, heff.table]
    obtain ⟨⟨hasked, hden, hq, hx⟩, hhandler⟩ := hs.2
    exact ⟨⟨hasked, hden, by simp [CallLog.add, Event.queues, hq],
      by simp [CallLog.add, Event.executes, hx]⟩, hhandler⟩

/-- A query is executed. -/
lemma Logged.execute {n : NativeCall} {h : HandlerPtr} {q : CString} {c : ConnPtr}
    (hs : Logged D (CallLog.Works n h [] []) s)
    (heff : Effect t (.leave .main h (.mysql_real_query q) c true) s s') :
    Logged D (CallLog.Works n h [] [(h, q)]) s' := by
  refine ⟨⟨hs.1.replayed.step heff, ?_, ?_⟩, ?_⟩
  · rw [heff.trace, callLog_concat]
    exact hs.1.receipted
  · rw [heff.trace]
    exact hs.1.discards.concat fun h heq => by cases heq
  · rw [heff.trace, callLog_concat, heff.table]
    obtain ⟨⟨hasked, hden, hq, hx⟩, hhandler⟩ := hs.2
    exact ⟨⟨hasked, hden, by simp [CallLog.add, Event.queues, hq],
      by simp [CallLog.add, Event.executes, hx]⟩, hhandler⟩

/-- The queue of the handler is emptied. -/
lemma Logged.discard {n : NativeCall} {h : HandlerPtr} (hn : n.Closes)
    (hs : Logged D (CallLog.Works n h [] []) s)
    (heff : Effect t (.assign .main h .queueData_popAll) s s') : Logged D (CallLog.Works n h [] []) s' := by
  have hlog : callLog s'.trace = callLog s.trace := by
    rw [heff.trace, callLog_concat]
    simp [CallLog.add, Event.queues, Event.executes]
  refine ⟨⟨hs.1.replayed.step heff, ?_, ?_⟩, ?_⟩
  · rw [hlog]
    exact hs.1.receipted
  · rw [heff.trace]
    refine hs.1.discards.concat fun h' heq => ⟨n, hs.2.asked, hn, ?_⟩
    obtain rfl : h = h' := by simpa using heq
    exact hs.2.handler
  · rw [hlog, heff.table]
    exact hs.2

end

/-! ### The threads -/

/-- The log and the table are the main thread's own. -/
def logRely (D : Set NativeCall) : ThreadId → Set (State → Prop)
  | .main => {f | ∃ R, f = Logged D R}
  | .worker => {Logged D fun _ _ => True}

section

variable {D : Set NativeCall} {R : CallLog → List HandlerPtr → Prop} {s s' : State} {e : Event}

lemma stable_logged (R : CallLog → List HandlerPtr → Prop) :
    Stable (logRely D .main) (Logged D R) := .of_mem ⟨R, rfl⟩

lemma main_log (hs' : Logged D R s') : Guarantees (logRely D) .main s s' := by
  intro u hu f hf _
  cases u with
  | main => exact absurd rfl hu
  | worker =>
    obtain rfl : f = Logged D fun _ _ => True := hf
    exact ⟨hs'.1, trivial⟩

lemma worker_log (heff : Effect .worker e s s') (he : e.Unasked) (hedit : e.edit = none) :
    Guarantees (logRely D) .worker s s' := by
  intro u hu f hf hs
  cases u with
  | worker => exact absurd rfl hu
  | main =>
    obtain ⟨R, rfl⟩ := hf
    exact Logged.stays hs heff he hedit

end

/-! ### Natives -/

/-- The event belongs to no call of a query, and leaves the table as it is. -/
def Event.Silent (e : Event) : Prop := e.Unasked ∧ e.edit = none

/-- Nothing that the worker does is done for a call of a script. -/
lemma Event.OfVisit.silent {e : Event} (he : e.OfVisit) (hby : e.By .worker) : e.Silent := by
  cases e with
  | assign u h a =>
    obtain rfl : u = .worker := hby
    exact ⟨⟨rfl, rfl⟩, rfl⟩
  | leave u h f c ok =>
    obtain rfl : u = .worker := hby
    exact ⟨⟨rfl, rfl⟩, rfl⟩
  | mark m => cases m <;> first | exact he.elim | exact ⟨⟨rfl, rfl⟩, rfl⟩
  | _ => first | exact he.elim | exact ⟨⟨rfl, rfl⟩, rfl⟩

lemma Event.OfServer.silent {e : Event} (he : e.OfServer) : e.Silent := by
  cases e with
  | assign u h a => cases u <;> cases a <;> first | exact he.elim | exact ⟨⟨rfl, rfl⟩, rfl⟩
  | exec => exact ⟨⟨rfl, rfl⟩, rfl⟩
  | amxLoad => exact ⟨⟨rfl, rfl⟩, rfl⟩
  | amxUnload => exact ⟨⟨rfl, rfl⟩, rfl⟩
  | _ => exact he.elim

lemma Event.NoQuery.unasked {e : Event} (he : e.NoQuery)
    (hpop : ∀ h, e ≠ .assign .main h .queueData_popAll) : e.Unasked := by
  cases e with
  | assign u h a =>
    cases u <;> cases a <;> first | exact ⟨rfl, rfl⟩ | exact he.elim | exact absurd rfl (hpop h)
  | leave u h f c ok =>
    cases u <;> cases f <;> cases ok <;> first | exact ⟨rfl, rfl⟩ | exact he.elim
  | mark m => exact he.elim
  | _ => exact ⟨rfl, rfl⟩

lemma Event.Quiet.unasked {e : Event} (he : e.Quiet) : e.Unasked :=
  he.noQuery.unasked fun h heq => by
    subst heq
    exact he

section

attribute [local simp] Stmt.Only Event.Silent Event.Unasked Event.queues Event.executes Event.edit this
  load call access assign onResult Debug lockMutex unlockMutex bind_bind ite_bind all_lift_bind all_ite
  withHandle

lemma connect_silent (h : HandlerPtr) : (connect h).All (Stmt.Only .main Event.Silent) := by
  simp [connect]

/-- A native that takes no query and closes no connection. -/
lemma body_unasked {n : NativeCall} (hn : n.query = none) (hclose : ¬n.Closes) :
    (Natives.body n).All (Stmt.Only .main Event.Unasked) := by
  cases n with
  | mysql_query => cases hn
  | mysql_query_callback => cases hn
  | mysql_reconnect => exact absurd trivial hclose
  | mysql_close => exact absurd trivial hclose
  | mysql_connect =>
    exact nMysqlConnect_only .main (fun _ => ⟨rfl, rfl⟩)
      (fun h => all_only_mono (connect_silent h) fun _ he => he.1) (fun _ => ⟨rfl, rfl⟩)
      fun _ => ⟨rfl, rfl⟩
  | mysql_ping c => simp [Natives.body, Natives.nMysqlPing, ping]
  | _ => exact all_only_mono (body_quiet .main (by trivial)) fun _ => Event.Quiet.unasked

end

section

variable {M : Machine Stmt Fault State ThreadId Reply} {b : Build} {D : Set NativeCall}
  {s s' : State} {h : HandlerPtr} {n : NativeCall} {α : Type}
  (hM : ∀ {t : ThreadId} {β : Type} {a : Stmt β} {s o s'}, M.Step t a s o s' →
    (plugin b).Step t a s o s')

include hM

lemma relies_silent {R : CallLog → List HandlerPtr → Prop} {p : Code α}
    (hp : p.All (Stmt.Only .main Event.Silent)) (hs : Logged D R s) :
    p.Relies M (logRely D) .main (fun _ => Logged D R) s :=
  relies_of_only hM hp (stable_logged R) (fun _ _ _ he hs heff =>
    ⟨main_log (hs.stays heff he.1 he.2), hs.stays heff he.1 he.2⟩) hs

lemma relies_lift_silent {β : Type} {R : CallLog → List HandlerPtr → Prop} {a : Stmt β}
    {f : β → Code α} {Q : α → State → Prop} (ha : a.Only .main Event.Silent) (hs : Logged D R s)
    (hok : ∀ x s, Logged D R s → (f x).Relies M (logRely D) .main Q s) :
    (Prog.lift a >>= f).Relies M (logRely D) .main Q s :=
  .bind ((relies_silent hM (p := .lift a) ⟨ha, fun _ => trivial⟩ hs).mono hok)

/-- The handler of the running call. -/
lemma relies_works {c : Cell} (hc : n.connectionHandle = some c) {f : HandlerPtr → Code α}
    {Q : α → State → Prop} (hs : Logged D (CallLog.Runs n [] []) s)
    (hok : ∀ h s, Logged D (CallLog.Works n h [] []) s → (f h).Relies M (logRely D) .main Q s) :
    (Prog.lift (.at (c - 1).toNat) >>= f).Relies M (logRely D) .main Q s := by
  refine relies_at hM (stable_logged _) hs fun h s hs hh => hok h s ⟨hs.1, hs.2, ?_⟩
  rw [hs.2.denotes, hc, Option.bind_some]
  exact hh

attribute [local simp] Stmt.Only Event.Silent Event.Unasked Event.queues Event.executes Event.edit

lemma clearQueue_works (hn : n.Closes) (hs : Logged D (CallLog.Works n h [] []) s) :
    (clearQueue h).Relies M (logRely D) .main (fun _ => Logged D (CallLog.Works n h [] [])) s := by
  refine relies_lift_silent hM (by simp) hs fun x s hs => ?_
  split_ifs
  · rw [← bind_ret_right (assign h _)]
    refine relies_assign hM (stable_logged _) hs fun s₁ s₂ hs₁ heff => ?_
    have hs₂ := hs₁.discard hn heff
    exact ⟨main_log hs₂, relies_ret (stable_logged _) hs₂⟩
  · exact relies_ret (stable_logged _) hs

lemma disconnect_works (hn : n.Closes) (hs : Logged D (CallLog.Works n h [] []) s) :
    (disconnect h).Relies M (logRely D) .main (fun _ => Logged D (CallLog.Works n h [] [])) s := by
  refine relies_lift_silent hM (by simp) hs fun x s hs => ?_
  split_ifs
  · exact relies_ret (stable_logged _) hs
  · refine .bind (Relies.mono (Q := fun _ => Logged D (CallLog.Works n h [] [])) ?_ fun _ s hs =>
      relies_silent hM (by simp [assign]) hs)
    refine relies_lift_silent hM (by simp) hs fun x s hs => ?_
    split_ifs
    · exact relies_ret (stable_logged _) hs
    · refine relies_lift_silent hM (by simp) hs fun _ s hs => ?_
      refine .bind ((clearQueue_works hM hn hs).mono fun _ s hs => ?_)
      refine relies_silent hM ?_ hs
      simp [unlockMutex, call, assign, bind_bind, all_lift_bind]

/-- A query is put into the queue. -/
lemma enqueue_works {d : MainInfo} (hs : Logged D (CallLog.Works n h [] []) s) :
    (enqueue h d).Relies M (logRely D) .main
      (fun _ => Logged D (CallLog.Works n h [(h, d)] [])) s := by
  refine relies_lift_silent hM (by simp) hs fun _ s hs => ?_
  refine relies_assign hM (stable_logged _) hs fun s₁ s₂ hs₁ heff => ?_
  have hs₂ := hs₁.push heff
  exact ⟨main_log hs₂, relies_silent hM (p := unlockMutex) ⟨by simp, fun _ => trivial⟩ hs₂⟩

omit hM

/-- Nothing has been accepted. -/
lemma relies_refuse (hs : Logged D (CallLog.Runs n [] []) s) :
    (pure 0 : Code Cell).Relies M (logRely D) .main (fun r => Logged D (CallLog.Returns D n r)) s :=
  relies_ret (stable_logged _)
    ⟨hs.1, .refused hs.2.queued hs.2.executed fun _ => rfl, fun _ => hs.2.queued⟩

include hM

/-- A query is executed at once. -/
lemma nonThreadedQuery_works {q : CString} (hq : n.query = some q) (hjob : n.job = none)
    (hs : Logged D (CallLog.Works n h [] []) s) :
    (nonThreadedQuery h q).Relies M (logRely D) .main
      (fun r => Logged D (CallLog.Returns D n r)) s := by
  refine relies_lift_silent hM (by simp) hs fun _ s hs => ?_
  rw [call, bind_bind]
  refine relies_lift_silent hM (by simp) hs fun c s hs => ?_
  refine relies_stmt (P := fun e => ∃ ok, e = .leave .main h (.mysql_real_query q) c ok) hM
    (fun ok => ⟨ok, rfl⟩) (stable_logged _) hs (fun e s₁ s₂ he hs₁ heff => ?_)
    fun ok s₁ s₂ hs₁ hst => ?_
  · obtain ⟨ok, rfl⟩ := he
    cases ok with
    | true => exact main_log (hs₁.execute heff)
    | false => exact main_log (hs₁.stays heff ⟨rfl, rfl⟩ rfl)
  have heff := step_leave_query (hM hst)
  cases ok with
  | true =>
    refine relies_lift_silent hM (by simp) (hs₁.execute heff) fun _ s hs => ?_
    refine relies_lift_silent hM (by simp) hs fun _ s hs => ?_
    exact relies_ret (stable_logged _) ⟨hs.1,
      .executed hs.2.handler hq hjob hs.2.queued hs.2.executed rfl, fun _ => hs.2.queued⟩
  | false =>
    refine relies_lift_silent hM (by simp) (hs₁.stays heff ⟨rfl, rfl⟩ rfl) fun e s hs => ?_
    refine relies_lift_silent hM (by simp) hs fun _ s hs => ?_
    refine relies_lift_silent hM (by simp) hs fun _ s hs => ?_
    refine relies_lift_silent hM (by simp) hs fun _ s hs => ?_
    refine relies_lift_silent hM (by simp) hs fun id s hs => ?_
    refine relies_lift_silent hM (by simp) hs fun error s hs => ?_
    exact relies_lift_silent hM (by simp) hs fun _ s hs => relies_refuse ⟨hs.1, hs.2.toRuns⟩

lemma relies_enqueue_returns {d : MainInfo} (hjob : n.job = some d) (hn : n ∉ D)
    (hs : Logged D (CallLog.Works n h [] []) s) :
    (do enqueue h d; pure d.m_uiResult : Code Cell).Relies M (logRely D) .main
      (fun r => Logged D (CallLog.Returns D n r)) s := by
  refine .bind ((enqueue_works hM hs).mono fun _ s hs => relies_ret (stable_logged _) ?_)
  exact ⟨hs.1, .queued hs.2.handler hjob hs.2.queued hs.2.executed rfl, fun h => absurd h hn⟩

lemma withHandle_returns {c : Cell} (hc : n.connectionHandle = some c) {f : HandlerPtr → Code Cell}
    (hf : ∀ h s, Logged D (CallLog.Works n h [] []) s →
      (f h).Relies M (logRely D) .main (fun r => Logged D (CallLog.Returns D n r)) s)
    (hs : Logged D (CallLog.Runs n [] []) s) :
    (withHandle c f).Relies M (logRely D) .main (fun r => Logged D (CallLog.Returns D n r)) s := by
  refine relies_lift_silent hM (by simp) hs fun k s hs => ?_
  split_ifs
  · exact relies_refuse hs
  · exact relies_works hM hc hs hf

omit hM

/-- A call that takes no query has accepted none. -/
lemma Logged.returns (hq : n.query = none) (hs : Logged D CallLog.Idle s) (r : Cell) :
    Logged D (CallLog.Returns D n r) s :=
  ⟨hs.1, .refused hs.2.1 hs.2.2 fun h => absurd hq h, fun _ => hs.2.1⟩

include hM

lemma relies_unasked {p : Code α} (hp : p.All (Stmt.Only .main Event.Unasked))
    (hs : Logged D CallLog.Idle s) :
    p.Relies M (logRely D) .main (fun _ => Logged D CallLog.Idle) s :=
  relies_of_only hM hp (stable_logged _) (fun _ _ _ he hs heff =>
    ⟨main_log (hs.unasked heff he id), hs.unasked heff he id⟩) hs

lemma nMysqlReconnect_returns {c : Cell}
    (hs : Logged D (CallLog.Runs (.mysql_reconnect c) [] []) s) :
    (nMysqlReconnect c).Relies M (logRely D) .main
      (fun r => Logged D (CallLog.Returns D (.mysql_reconnect c) r)) s := by
  refine withHandle_returns hM rfl (fun h s hs => ?_) hs
  refine .bind ((disconnect_works hM (n := .mysql_reconnect c) trivial hs).mono fun _ s hs => ?_)
  refine relies_lift_silent hM (by simp) hs fun _ s hs => ?_
  refine .bind ((relies_silent hM (connect_silent h) hs).mono fun _ s hs => ?_)
  exact relies_ret (stable_logged _) (Logged.returns rfl ⟨hs.1, hs.2.queued, hs.2.executed⟩ 1)

lemma nMysqlClose_returns {c : Cell} (hs : Logged D (CallLog.Runs (.mysql_close c) [] []) s) :
    (nMysqlClose c).Relies M (logRely D) .main
      (fun r => Logged D (CallLog.Returns D (.mysql_close c) r)) s := by
  refine relies_lift_silent hM (by simp) hs fun k s hs => ?_
  split_ifs
  · exact relies_refuse hs
  refine relies_lift_silent hM (by simp) hs fun _ s hs => ?_
  refine relies_works hM rfl hs fun h s hs => ?_
  refine .bind ((clearQueue_works hM (n := .mysql_close c) trivial hs).mono fun _ s hs => ?_)
  refine relies_works hM rfl ⟨hs.1, hs.2.toRuns⟩ fun h s hs => ?_
  refine .bind (.bind ((relies_silent hM ?_ hs).mono fun _ s hs => ?_))
  · simp [freeResult, this, load, assign, onResult, all_lift_bind, all_ite]
  refine .bind ((disconnect_works hM (n := .mysql_close c) trivial hs).mono fun _ s hs => ?_)
  refine (relies_silent hM (by simp) hs).mono fun _ s hs => ?_
  refine (relies_unasked hM ?_ ⟨hs.1, hs.2.queued, hs.2.executed⟩).mono fun r s hs => hs.returns rfl r
  simp [unlockMutex, all_lift_bind]

variable (hD : ∀ {h s x s'}, M.Step .main (.this h) s (.ok x) s' →
  ∀ n ∈ (callLog s.trace).asked, n ∈ D → x.m_bIsConnected = false)

include hD

/-- A query is queued if its handler is connected. -/
lemma relies_connected {Q : Cell → State → Prop} {f : Code Cell}
    (hs : Logged D (CallLog.Works n h [] []) s)
    (hrefuse : ∀ s, Logged D (CallLog.Runs n [] []) s → (pure 0 : Code Cell).Relies M (logRely D) .main Q s)
    (hok : ∀ s, Logged D (CallLog.Works n h [] []) s → n ∉ D → f.Relies M (logRely D) .main Q s) :
    (do if !(← this h).m_bIsConnected then pure 0 else f : Code Cell).Relies M (logRely D) .main Q s := by
  refine relies_stmt (P := fun _ => False) hM trivial (stable_logged _) hs
    (fun _ _ _ he => he.elim) fun x s₁ s₂ hs₁ hst => ?_
  have hdead : n ∈ D → x.m_bIsConnected = false := hD hst n hs₁.2.asked
  obtain ⟨rfl, -⟩ := step_this (hM hst)
  cases hx : x.m_bIsConnected with
  | false => exact hrefuse s₂ ⟨hs₁.1, hs₁.2.toRuns⟩
  | true => exact hok s₂ hs₁ fun hn => by simp [hdead hn] at hx

/-- A native returns what it should for what it has accepted. -/
lemma body_returns (n : NativeCall) (hs : Logged D (CallLog.Runs n [] []) s) :
    (Natives.body n).Relies M (logRely D) .main (fun r => Logged D (CallLog.Returns D n r)) s := by
  cases n with
  | mysql_query q resultid extraid c =>
    refine withHandle_returns hM rfl (fun h s hs => ?_) hs
    refine relies_lift_silent hM (by simp) hs fun _ s hs => ?_
    refine .bind (Relies.mono (Q := fun r => Logged D (CallLog.Returns D _ r)) ?_ fun r s hs =>
      relies_lift_silent hM (by simp) hs fun _ s hs => relies_ret (stable_logged _) hs)
    refine relies_connected hM hD hs (fun s hs => relies_refuse hs) fun s hs hn => ?_
    split_ifs with hid
    · exact relies_enqueue_returns hM (d := ⟨q, resultid, extraid, OnQueryFinish⟩) (if_neg hid) hn hs
    · exact nonThreadedQuery_works hM rfl (if_pos (not_not.mp hid)) hs
  | mysql_query_callback index q callback extraid c =>
    refine withHandle_returns hM rfl (fun h s hs => ?_) hs
    refine relies_connected hM hD hs (fun s hs => relies_refuse hs) fun s hs hn => ?_
    exact relies_enqueue_returns hM (d := ⟨q, index, extraid, callback⟩) rfl hn hs
  | mysql_reconnect c => exact nMysqlReconnect_returns hM hs
  | mysql_close c => exact nMysqlClose_returns hM hs
  | _ =>
    exact (relies_unasked hM (body_unasked rfl id) ⟨hs.1, hs.2.queued, hs.2.executed⟩).mono
      fun r s hs => hs.returns rfl r

/-- A call of a native is answered. -/
lemma native_answers (n : NativeCall) (hs : Logged D CallLog.Idle s) :
    (native n).Relies M (logRely D) .main (fun _ => Logged D CallLog.Idle) s := by
  refine relies_mark hM (stable_logged _) hs fun s₁ s₂ hs₁ heff => ?_
  have hs₂ := hs₁.call heff
  refine ⟨main_log hs₂, .bind ((body_returns hM hD n hs₂).mono fun r s hs => ?_)⟩
  refine relies_mark hM (stable_logged _) hs fun s₁ s₂ hs₁ heff => ?_
  have hs₂ := hs₁.return heff
  exact ⟨main_log hs₂, relies_ret (stable_logged _) hs₂⟩

end

/-! ### Runs -/

section

variable {M : Machine Stmt Fault State ThreadId Reply} {b : Build} {D N N' : Set NativeCall}
  {s s' : State}
  (hM : ∀ {t : ThreadId} {β : Type} {a : Stmt β} {s o s'}, M.Step t a s o s' →
    (plugin b).Step t a s o s')
  (hN : Confined M N')
  (hD : ∀ {h s x s'}, M.Step .main (.this h) s (.ok x) s' →
    ∀ n ∈ (callLog s.trace).asked, n ∈ D → x.m_bIsConnected = false)

lemma Logged.kept {R : CallLog → List HandlerPtr → Prop} {e : Event} (hs : Logged D R s)
    (heff : Effect .main e s s') (he : e.Silent) :
    Guarantees (logRely D) .main s s' ∧ Logged D R s' :=
  ⟨main_log (hs.stays heff he.1 he.2), hs.stays heff he.1 he.2⟩

include hM hN hD

/-- The duties of the two threads: only the main thread takes part in the calls. -/
lemma answer_duties :
    Duties M N (logRely D) (Logged D CallLog.Idle) (Logged D CallLog.Idle) (fun _ => True)
      (fun _ => True) where
  stable_idle := stable_logged _
  stable_ticking := stable_logged _
  stable_asleep := .const True
  stable_sweeping := .const True
  native n s _ hs := native_answers hM hD n hs
  amx e s s' he hs heff := by
    obtain ⟨a, rfl | rfl⟩ := he <;> exact hs.kept heff ⟨⟨rfl, rfl⟩, rfl⟩
  tick s s' hs heff := hs.kept heff ⟨⟨rfl, rfl⟩, rfl⟩
  visit i s hs := relies_tickVisit hM hN (stable_logged _)
    (fun _ _ _ _ hs heff => hs.kept heff ⟨⟨rfl, rfl⟩, rfl⟩)
    (fun n s _ hs => native_answers hM hD n hs)
    (fun h a s s' ha hs heff => hs.kept heff (by
      rcases ha with rfl | rfl | rfl <;> exact ⟨⟨rfl, rfl⟩, rfl⟩)) hs
  tickEnd s s' hs heff := hs.kept heff ⟨⟨rfl, rfl⟩, rfl⟩
  wake e s s' he _ heff :=
    ⟨by rcases he with rfl | rfl <;> exact worker_log heff ⟨rfl, rfl⟩ rfl, trivial⟩
  sweep i s hs := relies_of_only hM (workerVisit_ofVisit .worker i) (.const True)
    (fun e s s' he _ heff =>
      ⟨worker_log heff (he.silent heff.by_).1 (he.silent heff.by_).2, trivial⟩) hs
  sleep s s' _ heff := ⟨worker_log heff ⟨rfl, rfl⟩ rfl, trivial⟩

/-- However the two threads interleave, all calls are answered. -/
theorem reachable_answers {p_Amx : List Amx} {c : Config Stmt Fault State ThreadId Point}
    (hc : Config.Reachable M (Starts (MainCall.Only N)) (loaded p_Amx) c) : Answers D c.shared := by
  refine ((answer_duties hM hN hD).invariant hM (J := Logged D fun _ _ => True) ?_ trivial (fun t => ?_)
    ⟨answers_init D p_Amx, trivial⟩ hc).1
  · exact ⟨answers_init D p_Amx, rfl, rfl⟩
  · cases t with
    | main => exact ⟨_, rfl⟩
    | worker => rfl

/-- Between its calls the main thread has nothing to answer. -/
lemma reachable_idle {p_Amx : List Amx} {c : Config Stmt Fault State ThreadId Point}
    (hc : Config.Reachable M (Starts (MainCall.Only N)) (loaded p_Amx) c)
    (hat : c.place .main = .at .idle) : Logged D CallLog.Idle c.shared := by
  have hinit : Logged D CallLog.Idle (State.init p_Amx) := ⟨answers_init D p_Amx, rfl, rfl⟩
  have hholds := Outline.sound (O := (answer_duties hM hN hD).outline hM) (fun u => by
    cases u with
    | main => exact hinit
    | worker => exact trivial) hc .main
  rw [hat] at hholds
  exact hholds

/-- In a run of whole actions all calls are answered. -/
theorem serial_answers [IsPlugin M b] {p_Amx : List Amx}
    (hs : Serial M (Acts (Action.CallsOnly N')) (State.init p_Amx) s) :
    Logged D CallLog.Idle s := by
  refine serial_invariant (A := Action.CallsOnly N') hN (fun n hn => hn n rfl)
    (fun e s s' he hs heff => ?_) (fun n s _ hs => (native_answers hM hD n hs).wp) (fun i s hs => ?_) hs
    ⟨answers_init D p_Amx, rfl, rfl⟩
  · exact hs.stays heff he.silent.1 he.silent.2
  · refine wp_of_only hM (workerVisit_ofVisit .worker i) (fun e s s' he hs heff => ?_)
      (fun _ _ _ => trivial) hs
    have hsilent := he.silent heff.by_
    exact hs.stays heff hsilent.1 hsilent.2

end

/-- Between the calls, a query that has been put into the queue of `h` is the one of a call on `h` that
has returned its id. -/
lemma Logged.call_of_push {D : Set NativeCall} {s : State} {h : HandlerPtr} {d : MainInfo}
    (hs : Logged D CallLog.Idle s) (hpush : .assign .main h (.queueData_push d) ∈ s.trace) :
    ∃ a ∈ (callLog s.trace).done, a.handler = some h ∧ a.call.job = some d ∧ a.queued = [(h, d)] ∧
      a.result = d.m_uiResult := by
  have hmem := mem_queued hpush
  rw [hs.2.1, List.append_nil] at hmem
  obtain ⟨a, ha, hq⟩ := List.mem_flatMap.mp hmem
  refine ⟨a, ha, ?_⟩
  rcases (hs.1.receipted a ha).1 with ⟨hnone, -, -⟩ | ⟨hhandler, hjob, hqueued, -, hr⟩ |
    ⟨-, -, -, hnone, -, -⟩
  · simp [hnone] at hq
  · rw [hqueued] at hq
    cases List.mem_singleton.mp hq
    exact ⟨hhandler, hjob, hqueued, hr⟩
  · simp [hnone] at hq

/-! ### Calls that nothing interrupts -/

/-- The connection handle of the call denotes a handler that is connected. -/
def NativeCall.Live (n : NativeCall) (s : State) : Prop :=
  ∃ c ∈ n.connectionHandle, ∃ h x, handlerAt s c = some h ∧ s.heap h = some x ∧ x.m_bIsConnected = true

/-- The trace tells whether the call meets a handler that is connected. -/
lemma Replayed.meets_iff {s : State} (hs : Replayed s) (n : NativeCall) :
    n.meets s.trace = true ↔ n.Live s := by
  simp only [NativeCall.meets, NativeCall.denoted, NativeCall.Live, handlerAt, Option.any_eq_true,
    Option.bind_eq_some_iff, ← hs.table, ← hs.heap]
  constructor
  · rintro ⟨h, ⟨c, hc, hh⟩, x, hx, hlive⟩
    exact ⟨c, hc, h, x, hh, hx, hlive⟩
  · rintro ⟨c, hc, h, x, hh, hx, hlive⟩
    exact ⟨h, ⟨c, hc, hh⟩, x, hx, hlive⟩

section

variable {M : Machine Stmt Fault State ThreadId Reply} {b : Build} [IsPlugin M b] {s : State}
  {n : NativeCall} {d : MainInfo} {α : Type}

/-- The log is `l`, but for the queries `qs` that have been queued since. -/
def State.Queues (l : CallLog) (qs : List (HandlerPtr × MainInfo)) (s : State) : Prop :=
  callLog s.trace = { l with queued := l.queued ++ qs }

include b

/-- A call of a native leaves its record in the log. -/
lemma native_recorded (n : NativeCall) (s : State) :
    (native n).wp M .main (fun _ _ => True) (fun r s' => ∃ a : CallRecord,
      (callLog s'.trace).done = (callLog s.trace).done ++ [a] ∧ a.call = n ∧ a.result = r) s := by
  have hbody : (Natives.body n).All (Stmt.Only .main fun e => e.OfBody ∨ e.NoQuery) := by
    by_cases hn : n.Open
    · exact all_only_mono (body_ofBody .main hn) fun _ => .inl
    · cases n with
      | mysql_close => exact all_only_mono (body_noQuery .main rfl) fun _ => .inr
      | _ => exact absurd trivial hn
  refine wp_native fun _ s₁ _ heff => ?_
  have hs₁ : (callLog s₁.trace).done = (callLog s.trace).done := by
    rw [heff.trace, callLog_concat]
    rfl
  refine wp_mono (wp_of_only (I := fun s₁ => (callLog s₁.trace).done = (callLog s.trace).done)
    IsPlugin.step hbody (fun e s₁ s₂ he hs₁ heff => ?_) (fun _ _ _ => trivial) hs₁)
    fun r s₂ hs₂ s₃ heff₃ => ⟨(callLog s₂.trace).record n r, ?_, rfl, rfl⟩
  · rw [heff.trace, callLog_concat, ← hs₁]
    cases e with
    | mark m => cases m <;> first | exact (he.elim id id).elim | rfl
    | _ => rfl
  · rw [heff₃.trace, callLog_concat, ← hs₂]
    rfl

/-- Statements that belong to no query. -/
lemma wp_queues {l : CallLog} {qs : List (HandlerPtr × MainInfo)} {p : Code α}
    (hp : p.All (Stmt.Only .main Event.Unasked)) (hs : s.Queues l qs) :
    p.wp M .main (fun _ _ => True) (fun _ => State.Queues l qs) s :=
  wp_of_only IsPlugin.step hp (fun e s s' he hs heff => by
    rw [State.Queues, heff.trace, callLog_concat, he.add]
    exact hs) (fun _ _ _ => trivial) hs

lemma wp_lift_queues {β : Type} {l : CallLog} {qs : List (HandlerPtr × MainInfo)} {a : Stmt β}
    {f : β → Code α} {Q : α → State → Prop} (ha : a.Only .main Event.Unasked) (hs : s.Queues l qs)
    (hok : ∀ x s, s.Queues l qs → (f x).wp M .main (fun _ _ => True) Q s) :
    (Prog.lift a >>= f).wp M .main (fun _ _ => True) Q s := by
  rw [wp_bind]
  exact wp_mono (wp_queues (p := .lift a) ⟨ha, fun _ => trivial⟩ hs) hok

attribute [local simp] Stmt.Only Event.Unasked Event.queues Event.executes

lemma enqueue_queues {l : CallLog} {h : HandlerPtr} (hs : s.Queues l []) :
    (enqueue h d).wp M .main (fun _ _ => True) (fun _ => State.Queues l [(h, d)]) s := by
  refine wp_lift_queues (by simp) hs fun _ s hs => ?_
  refine wp_assign (fun _ => trivial) fun s' heff => ?_
  refine wp_queues (p := unlockMutex) ⟨by simp, fun _ => trivial⟩ ?_
  rw [State.Queues] at hs ⊢
  rw [heff.trace, callLog_concat, hs]
  simp [CallLog.add]

/-- A threaded query is queued when its handler is connected, and only then. -/
lemma queues_if_connected {l : CallLog} {h : HandlerPtr} (hs : s.Queues l []) (r : Cell) :
    (do if !(← this h).m_bIsConnected then pure 0 else do enqueue h d; pure r : Code Cell).wp M .main
      (fun _ _ => True) (fun _ s' => ∃ qs, s'.Queues l qs ∧
        (qs = [] ↔ ∀ x, s.heap h = some x → x.m_bIsConnected = false)) s := by
  refine wp_this (fun _ => trivial) fun x hx => ?_
  cases hlive : x.m_bIsConnected with
  | false => exact ⟨[], hs, by simpa [hx] using hlive⟩
  | true =>
    simp only [Bool.not_true, Bool.false_eq_true, if_false]
    rw [wp_bind]
    exact wp_mono (enqueue_queues hs) fun _ s hs => ⟨_, hs, by simp [hx, hlive]⟩

lemma withHandle_queues {l : CallLog} {c : Cell} (hc : n.connectionHandle = some c)
    {f : HandlerPtr → Code Cell} (hs : s.Queues l [])
    (hf : ∀ h, (f h).wp M .main (fun _ _ => True) (fun _ s' => ∃ qs, s'.Queues l qs ∧
      (qs = [] ↔ ∀ x, s.heap h = some x → x.m_bIsConnected = false)) s) :
    (withHandle c f).wp M .main (fun _ _ => True)
      (fun _ s' => ∃ qs, s'.Queues l qs ∧ (qs = [] ↔ ¬n.Live s)) s := by
  have hlive : n.Live s ↔
      ∃ h x, s.SQLHandle[(c - 1).toNat]? = some h ∧ s.heap h = some x ∧ x.m_bIsConnected = true := by
    simp [NativeCall.Live, hc, handlerAt]
  rw [hlive]
  refine wp_size ?_
  rw [wp_ite]
  split_ifs with hlen
  · refine ⟨[], hs, iff_of_true rfl ?_⟩
    rintro ⟨h, x, hh, -⟩
    rw [List.getElem?_eq_none hlen] at hh
    cases hh
  · refine wp_at (fun _ => trivial) fun h hh => wp_mono (hf h) ?_
    rintro _ s' ⟨qs, hqs, hiff⟩
    refine ⟨qs, hqs, hiff.trans ⟨fun hdead => ?_, fun hno x hx => ?_⟩⟩
    · rintro ⟨h', x, hh', hx, hup⟩
      obtain rfl : h = h' := Option.some.inj (hh.symm.trans hh')
      simp [hdead x hx] at hup
    · by_contra hup
      exact hno ⟨h, x, hh, hx, by simpa using hup⟩

/-- What a call of a threaded query that nothing interrupts leaves in the log. -/
lemma native_queues (hn : n.job = some d) (s : State) :
    (native n).wp M .main (fun _ _ => True) (fun r s' => ∃ qs,
      (callLog s'.trace).done = (callLog s.trace).done ++
        [⟨n, n.denoted s.trace, n.meets s.trace, (callLog s.trace).queued ++ qs,
          (callLog s.trace).executed, r⟩] ∧ (qs = [] ↔ ¬n.Live s)) s := by
  refine wp_native fun _ s₁ _ heff => ?_
  let l := (callLog s.trace).add s.trace (.mark (.call n))
  have hs₁ : s₁.Queues l [] := by
    rw [State.Queues, heff.trace, callLog_concat, List.append_nil]
  have hheap (h : HandlerPtr) : s₁.heap h = s.heap h := heff.heap h
  have hlive : n.Live s₁ ↔ n.Live s := by
    have htable : s₁.SQLHandle = s.SQLHandle := heff.table
    simp [NativeCall.Live, handlerAt, htable, hheap]
  refine wp_mono (Q := fun _ s' => ∃ qs, s'.Queues l qs ∧ (qs = [] ↔ ¬n.Live s₁)) ?_ ?_
  · cases n with
    | mysql_query q resultid extraid c =>
      have hid : resultid ≠ -1 := fun heq => by simp [NativeCall.job, heq] at hn
      refine withHandle_queues rfl hs₁ fun h => ?_
      refine wp_mark fun s₂ heff₂ => ?_
      have hs₂ : s₂.Queues l [] := by
        rw [State.Queues, heff₂.trace, callLog_concat,
          Event.Unasked.add (e := .mark (.oldQuery h)) ⟨rfl, rfl⟩]
        exact hs₁
      have hheap₂ : s₂.heap h = s₁.heap h := heff₂.heap h
      rw [wp_bind]
      refine wp_mono (Q := fun _ s' => ∃ qs, s'.Queues l qs ∧
        (qs = [] ↔ ∀ x, s₁.heap h = some x → x.m_bIsConnected = false)) ?_ ?_
      · have hold : oldQuery h q resultid extraid =
            (do if !(← this h).m_bIsConnected then pure 0 else do
                  enqueue h ⟨q, resultid, extraid, OnQueryFinish⟩
                  pure resultid : Code Cell) := by simp only [oldQuery, if_pos hid]
        rw [hold, ← hheap₂]
        exact queues_if_connected hs₂ resultid
      · rintro r s₃ ⟨qs, hs₃, hqs⟩
        exact wp_lift_queues (by simp) hs₃ fun _ s₄ hs₄ => ⟨qs, hs₄, hqs⟩
    | mysql_query_callback index q callback extraid c =>
      exact withHandle_queues rfl hs₁ fun h => queues_if_connected hs₁ index
    | _ => cases hn
  · rintro r s₂ ⟨qs, hs₂, hqs⟩ s₃ heff₃
    refine ⟨qs, ?_, hqs.trans (not_congr hlive)⟩
    rw [heff₃.trace, callLog_concat, hs₂]
    rfl

end

end MySQLPlugin
