import MySQLPlugin.Interplay.Sweeping
import MySQLPlugin.Threads.Discipline

/-!
# What each thread may do

The policy of the two threads: a statement works on a live handler and inside the table, the queue
`queueData` and the entries of the table change under the mutex, and a thread does not lock the mutex
that it holds. What of this the main thread can keep to depends on where the scripts call
`mysql_close`.
-/

namespace MySQLPlugin

open Threads Prog CMySQLHandler

/-! ### The query at the front -/

def Event.onInHand : Event → Option (HandlerPtr × Bool) → Option (HandlerPtr × Bool)
  | .enter .worker h (.mysql_real_query _) _, _ => some (h, false)
  | .assign .worker h (.callbackData_push _), _ | .assign .worker h (.errorCallback_push _), _ =>
    some (h, true)
  | .assign .worker _ .queueData_pop, _ => none
  | _, x => x

/-- The handler whose query at the front the worker executes, and whether the outcome is filed. -/
def inHand (es : List Event) : Option (HandlerPtr × Bool) :=
  es.foldl (fun x e => e.onInHand x) none

lemma inHand_concat {es : List Event} {e : Event} :
    inHand (es ++ [e]) = e.onInHand (inHand es) := by
  simp [inHand]

/-- The worker visits the handler `h`, with the query `d` at the front. -/
structure Serves (h : HandlerPtr) (d : MainInfo) (s : State) : Prop where
  visiting : visiting s.trace = some h
  front : ∃ x, s.heap h = some x ∧ x.queueData.head? = some d

/-- The error report belongs to the query. -/
def ErrorInfo.Reports (e : ErrorInfo) (d : MainInfo) : Prop :=
  e.m_szQuery = d.m_szQuery ∧ e.m_uiResult = d.m_uiResult ∧ e.m_szCallback = d.m_szCallback

/-! ### The publics that have been called -/

/-- The name under which a script has the public. -/
def Public.name : Public → CString
  | .OnQueryError .. => MySQLPlugin.OnQueryError
  | .callback name .. => name

/-- One call of the public in every script that has it. -/
def Public.calls (p : Public) (scripts : List Amx) : List (Amx × Public) :=
  (scripts.filter fun a => a.publics.contains p.name).map fun a => (a, p)

lemma Public.calls_append (p : Public) (l l' : List Amx) :
    p.calls (l ++ l') = p.calls l ++ p.calls l' := by
  simp [Public.calls]

def Event.onTold : Event → List (Amx × Public) → List (Amx × Public)
  | .exec a p, l => l ++ [(a, p)]
  | .assign .main _ .callbackData_pop, _ | .assign .main _ .errorCallback_pop, _ => []
  | _, l => l

/-- The calls of publics since `ProcessTick` has taken an outcome from its channel. -/
def told (es : List Event) : List (Amx × Public) := es.foldl (fun l e => e.onTold l) []

lemma told_concat {es : List Event} {e : Event} : told (es ++ [e]) = e.onTold (told es) := by
  simp [told]

/-- The public tells of the success at the front of the channel of `h`. -/
def Public.TellsSuccess (p : Public) (h : HandlerPtr) (s : State) : Prop :=
  ∃ i x d, s.SQLHandle[i]? = some h ∧ s.heap h = some x ∧ x.callbackData.head? = some d ∧
    p = onQueryFinish i d

/-- The public tells of the error at the front of the channel of `h`. -/
def Public.TellsError (p : Public) (h : HandlerPtr) (s : State) : Prop :=
  ∃ i x e, s.SQLHandle[i]? = some h ∧ s.heap h = some x ∧ x.errorCallback.head? = some e ∧
    p = onQueryError i e

/-! ### The mutex -/

lemma Build.lock_error {b : Build} {t : ThreadId} {s s' : State} {e : Fault}
    (h : b.lock t s = some (.error e, s')) : e = .deadlock ∧ s.locked t ≠ none := by
  simp only [Build.lock] at h
  cases hm : s.mutex with
  | none =>
    rw [hm] at h
    cases h
  | some m =>
    obtain ⟨u, n⟩ := m
    rw [hm] at h
    dsimp only at h
    split_ifs at h with hu
    cases b with
    | win32 => cases h
    | pthread =>
      cases h
      simp [State.locked, hm, hu]

/-- What `State.locked` is for a thread that has locked the mutex `n` times. -/
def times : ℕ → Option ℕ
  | 0 => none
  | n + 1 => some (n + 1)

lemma times_ne_none {n : ℕ} : times n ≠ none ↔ 0 < n := by
  cases n <;> simp [times]

/-- Locking the mutex changes nothing else. -/
lemma Build.lock_frame {b : Build} {t : ThreadId} {s s' : State} {o : Except Fault Unit}
    (h : b.lock t s = some (o, s')) : s'.SQLHandle = s.SQLHandle ∧ s'.heap = s.heap ∧
      s'.nextHandler = s.nextHandler ∧ s'.p_Amx = s.p_Amx ∧ visiting s'.trace = visiting s.trace ∧
      inHand s'.trace = inHand s.trace ∧ s'.locked t ≠ none := by
  simp only [Build.lock] at h
  cases hm : s.mutex with
  | none =>
    rw [hm] at h
    cases h
    simp [State.locked, visiting_concat, inHand_concat, Event.onVisiting, Event.onInHand]
  | some m =>
    obtain ⟨u, n⟩ := m
    rw [hm] at h
    dsimp only at h
    split_ifs at h with hu
    cases b <;> cases h <;>
      simp [State.locked, visiting_concat, inHand_concat, Event.onVisiting, Event.onInHand, hm, hu]

/-- Unlocking the mutex changes nothing else. -/
lemma unlock_frame (t : ThreadId) (s : State) : (unlock t s).SQLHandle = s.SQLHandle ∧
    (unlock t s).heap = s.heap ∧ (unlock t s).nextHandler = s.nextHandler ∧
    (unlock t s).p_Amx = s.p_Amx ∧ visiting (unlock t s).trace = visiting s.trace ∧
    inHand (unlock t s).trace = inHand s.trace := by
  rw [unlock_trace, visiting_concat, inHand_concat]
  unfold unlock
  split
  · split_ifs <;> exact ⟨rfl, rfl, rfl, rfl, rfl, rfl⟩
  · exact ⟨rfl, rfl, rfl, rfl, rfl, rfl⟩

lemma Build.lock_ok {b : Build} {t : ThreadId} {s s' : State} {n : ℕ} {u : Unit}
    (hs : s.locked t = times n) (h : b.lock t s = some (.ok u, s')) :
    s'.locked t = times (n + 1) := by
  simp only [Build.lock] at h
  cases hm : s.mutex with
  | none =>
    rw [hm] at h
    cases h
    cases n with
    | zero => simp [State.locked, times]
    | succ n => simp [State.locked, hm, times] at hs
  | some m =>
    obtain ⟨v, k⟩ := m
    rw [hm] at h
    dsimp only at h
    split_ifs at h with hv
    cases b with
    | pthread => cases h
    | win32 =>
      cases h
      cases n with
      | zero => simp [State.locked, hm, hv, times] at hs
      | succ n =>
        have hk : k = n + 1 := by simpa [State.locked, hm, hv, times] using hs
        simp [State.locked, times, hk]

lemma locked_unlock {t : ThreadId} {s : State} {n : ℕ} (hs : s.locked t = times (n + 1)) :
    (unlock t s).locked t = times n := by
  cases hm : s.mutex with
  | none => simp [State.locked, hm, times] at hs
  | some m =>
    obtain ⟨v, k⟩ := m
    by_cases hv : v = t
    · have hk : k = n + 1 := by simpa [State.locked, hm, hv, times] using hs
      cases n with
      | zero => simp [unlock, State.locked, hm, hv, hk, times]
      | succ n => simp [unlock, State.locked, hm, hv, hk, times]
    · simp [State.locked, hm, hv, times] at hs

/-! ### The policy -/

/-- The natives that the scripts call outside `ProcessTick`, and in the publics that it calls. -/
structure Scope where
  direct : Set NativeCall
  callbacks : Set NativeCall

/-- No public that `ProcessTick` calls closes a connection. -/
def Scope.CallbacksOpen (D : Scope) : Prop := ∀ n ∈ D.callbacks, n.Open

/-- No script closes a connection. -/
def Scope.AllOpen (D : Scope) : Prop := D.CallbacksOpen ∧ ∀ n ∈ D.direct, n.Open

/-- The assignment changes `queueData`. -/
def Assign.OnQueue : Assign → Prop
  | .queueData_push _ | .queueData_pop | .queueData_popAll => True
  | _ => False

/-- In the state `s` thread `t` may make the assignment to `h`: the main thread accepts and discards
queries and hands outcomes out, the worker executes the query at the front. -/
def Assign.Allowed (t : ThreadId) (h : HandlerPtr) (s : State) : Assign → Prop
  | .queueData_push _ | .queueData_popAll | .callbackData_pop | .errorCallback_pop => t = .main
  | .queueData_pop => t = .worker ∧ inHand s.trace = some (h, true)
  | .callbackData_push d => t = .worker ∧ inHand s.trace = some (h, false) ∧ Serves h d s
  | .errorCallback_push e =>
    match t with
    | .main => e.Synchronous
    | .worker => inHand s.trace = some (h, false) ∧ ∃ d, Serves h d s ∧ e.Reports d
  | _ => True

/-- Before an outcome leaves its channel, every script that has the public has been called once; and
it is the outcome at the front, while no public closes a connection. -/
def Assign.Follows (D : Scope) (h : HandlerPtr) (s : State) : Assign → Prop
  | .callbackData_pop =>
    ∃ p : Public, told s.trace = p.calls s.p_Amx ∧ (D.CallbacksOpen → p.TellsSuccess h s)
  | .errorCallback_pop =>
    ∃ p : Public, told s.trace = p.calls s.p_Amx ∧ (D.CallbacksOpen → p.TellsError h s)
  | _ => True

/-- In the state `s` thread `t` may execute the statement. -/
def Stmt.May (D : Scope) (t : ThreadId) (s : State) {β : Type} : Stmt β → Prop
  | .lockMutex => t = .worker ∨ D.AllOpen → s.locked t = none
  | .unlockMutex => s.locked t ≠ none ∧ (t = .worker → visiting s.trace = none)
  | .at i => t = .worker ∨ D.CallbacksOpen → i < s.SQLHandle.length
  | .erase i => s.locked t ≠ none ∧ i < s.SQLHandle.length ∧
      ∀ h, s.SQLHandle[i]? = some h → s.heap h = none
  | .delete h => ¬ D.AllOpen ∧ s.locked t ≠ none ∧ s.heap h ≠ none
  | .this h | .load h _ | .access h _ => s.heap h ≠ none
  | .enter h f => s.heap h ≠ none ∧
      (t = .worker → ∀ q, f = .mysql_real_query q →
        inHand s.trace = none ∧ ∃ d, Serves h d s ∧ d.m_szQuery = q)
  | .guard h => t = .worker ∧ s.locked t ≠ none ∧ s.heap h ≠ none ∧ visiting s.trace = none ∧
      inHand s.trace = none
  | .assign h a => s.heap h ≠ none ∧ (a.OnQueue → s.locked t ≠ none) ∧
      (t = .worker ∨ D.CallbacksOpen → ∀ x, s.heap h = some x → a.defined x = true) ∧
      a.Allowed t h s ∧ a.Follows D h s
  | .exec a p => t = .main ∧ told s.trace ++ [(a, p)] <+: p.calls s.p_Amx ∧
      (D.CallbacksOpen → ∃ h, p.TellsSuccess h s ∨ p.TellsError h s)
  | .mark (.visitEnd h) => t = .worker ∧ visiting s.trace = some h ∧ inHand s.trace = none
  | .new .. | .pushBack _ | .free _ | .Debug _ _ => t = .main
  | _ => True

/-- The faults in which thread `t` may end. -/
def Fault.Of (D : Scope) (e : Fault) : ThreadId → Prop
  | .worker => e = .nullPointer ∨ e = .badResult
  | .main => e ≠ .dangling ∧ (D.CallbacksOpen → e ≠ .outOfRange ∧ e ≠ .emptyQueue) ∧
      (D.AllOpen → e ≠ .deadlock)

def policy (D : Scope) : Policy Stmt Fault State ThreadId where
  may t a s := a.May D t s
  fails t e := e.Of D t

/-- A null pointer or a freed result set is no fault of the policy. -/
lemma Fault.of_either {D : Scope} {e : Fault} (he : e = .nullPointer ∨ e = .badResult)
    (t : ThreadId) : e.Of D t := by
  cases t with
  | worker => exact he
  | main => rcases he with rfl | rfl <;> simp [Fault.Of]

/-- A permitted statement fails only as its thread may. -/
lemma Stmt.May.fails {D : Scope} {t : ThreadId} {s s' : State} {β : Type} {a : Stmt β}
    (ha : a.May D t s) {b : Build} {r : Reply} {e : Fault}
    (h : a.run b t r s = some (.error e, s')) : e.Of D t := by
  cases a with
  | lockMutex =>
    obtain ⟨rfl, hlocked⟩ := Build.lock_error h
    cases t with
    | worker => exact absurd (ha (.inl rfl)) hlocked
    | main =>
      have hopen : D.AllOpen → False := fun hopen => hlocked (ha (.inr hopen))
      simpa [Fault.Of] using hopen
  | «at» i =>
    simp only [Stmt.run] at h
    split at h <;> cases h
    rename_i hi
    have hout : ¬ i < s.SQLHandle.length := by simpa using hi
    cases t with
    | worker => exact absurd (ha (.inl rfl)) hout
    | main =>
      have hopen : D.CallbacksOpen → False := fun hopen => hout (ha (.inr hopen))
      simpa [Fault.Of] using hopen
  | erase i =>
    simp only [Stmt.run, List.getElem?_eq_getElem ha.2.1] at h
    cases h
  | new | Debug =>
    obtain rfl : t = .main := ha
    simp only [Stmt.run] at h
    split_ifs at h <;> cases h
    simp [Fault.Of]
  | free =>
    obtain rfl : t = .main := ha
    simp only [Stmt.run] at h
    split at h <;> cases h
    simp [Fault.Of]
  | assign p a =>
    obtain ⟨hlive, -, hdefined, -, -⟩ := ha
    obtain ⟨x, hx⟩ := Option.ne_none_iff_exists'.mp hlive
    simp only [Stmt.run, hx] at h
    split_ifs at h with hdef <;> cases h
    cases t with
    | worker => exact absurd (hdefined (.inl rfl) x hx) hdef
    | main =>
      have hopen : D.CallbacksOpen → False := fun hopen => hdef (hdefined (.inr hopen) x hx)
      simpa [Fault.Of] using hopen
  | this p =>
    obtain ⟨x, hx⟩ := Option.ne_none_iff_exists'.mp ha
    simp only [Stmt.run, hx] at h
    cases h
  | load p m =>
    obtain ⟨x, hx⟩ := Option.ne_none_iff_exists'.mp ha
    simp only [Stmt.run, hx] at h
    split at h <;> cases h
  | guard p =>
    obtain ⟨x, hx⟩ := Option.ne_none_iff_exists'.mp ha.2.2.1
    simp only [Stmt.run, hx] at h
    split_ifs at h <;> cases h
  | enter p f =>
    obtain ⟨x, hx⟩ := Option.ne_none_iff_exists'.mp ha.1
    simp only [Stmt.run, hx] at h
    split at h <;> cases h
    exact Fault.of_either (.inl rfl) t
  | access p f =>
    obtain ⟨x, hx⟩ := Option.ne_none_iff_exists'.mp ha
    simp only [Stmt.run, hx] at h
    split at h <;> cases h
    exact Fault.of_either (.inl rfl) t
  | mysql_init p =>
    simp only [Stmt.run] at h
    split_ifs at h <;> cases h
  | onResult p f =>
    simp only [Stmt.run] at h
    split at h
    · cases h
      exact Fault.of_either (.inl rfl) t
    · split at h <;> cases h
      exact Fault.of_either (.inr rfl) t
  | fieldName p i =>
    simp only [Stmt.run] at h
    split at h
    · cases h
      exact Fault.of_either (.inl rfl) t
    · split at h <;> cases h
      exact Fault.of_either (.inr rfl) t
  | rowValue p i =>
    simp only [Stmt.run] at h
    split at h
    · cases h
      exact Fault.of_either (.inl rfl) t
    · split at h <;> cases h
      exact Fault.of_either (.inr rfl) t
  | _ => cases h

/-! ### What the threads rely on -/

/-- The handlers that live. -/
def State.live (s : State) : Set HandlerPtr := {h | s.heap h ≠ none}

/-- Every entry of the table is a live handler, unless the main thread is closing a connection. -/
def Stocked (s : State) : Prop :=
  s.SQLHandle.length ≤ maxHandlers ∧ (s.locked .main = none → ∀ h ∈ s.SQLHandle, h ∈ s.live)

/-- The worker sees a step of the main thread: while the worker holds the mutex, no entry leaves the
table, no handler is deleted and no `queueData` changes. -/
structure MainMoves (s s' : State) : Prop where
  locked : s'.locked .worker = s.locked .worker
  visiting : visiting s'.trace = visiting s.trace
  inHand : inHand s'.trace = inHand s.trace
  stocked : Stocked s → Stocked s'
  table : s.locked .worker ≠ none → s.SQLHandle <+: s'.SQLHandle
  queue : s.locked .worker ≠ none → ∀ h x, s.heap h = some x →
    ∃ x', s'.heap h = some x' ∧ x'.queueData = x.queueData

/-- The outcomes that wait for `ProcessTick` may only become more. -/
def Grown : Option CMySQLHandler → Option CMySQLHandler → Prop
  | none, none => True
  | some x, some x' => x.errorCallback <+: x'.errorCallback ∧ x.callbackData <+: x'.callbackData
  | _, _ => False

/-- The main thread sees a step of the worker: the table stays, handlers live on, no outcome is taken
away and no public called. -/
structure WorkerMoves (s s' : State) : Prop where
  locked : s'.locked .main = s.locked .main
  table : s'.SQLHandle = s.SQLHandle
  nextHandler : s'.nextHandler = s.nextHandler
  p_Amx : s'.p_Amx = s.p_Amx
  told : told s'.trace = told s.trace
  heap : ∀ h, Grown (s.heap h) (s'.heap h)

def movesRely : ThreadId → Set (State → Prop)
  | .main => closedUnder WorkerMoves
  | .worker => closedUnder MainMoves

section

variable {s s' : State} {e : Event} {t : ThreadId}

lemma Grown.refl (o : Option CMySQLHandler) : Grown o o := by
  cases o with
  | none => trivial
  | some x => exact ⟨List.prefix_rfl, List.prefix_rfl⟩

lemma MainMoves.guarantees (h : MainMoves s s') : Guarantees movesRely .main s s' := by
  intro u hu
  cases u with
  | main => exact absurd rfl hu
  | worker => exact keeps_closedUnder h

lemma WorkerMoves.guarantees (h : WorkerMoves s s') : Guarantees movesRely .worker s s' := by
  intro u hu
  cases u with
  | main => exact keeps_closedUnder h
  | worker => exact absurd rfl hu

lemma WorkerMoves.live (h : WorkerMoves s s') : s'.live = s.live := by
  ext p
  have hgrown := h.heap p
  cases hs : s.heap p with
  | none =>
    rw [hs] at hgrown
    cases hs' : s'.heap p with
    | none => simp [State.live, hs, hs']
    | some x =>
      rw [hs'] at hgrown
      exact hgrown.elim
  | some x =>
    rw [hs] at hgrown
    cases hs' : s'.heap p with
    | none =>
      rw [hs'] at hgrown
      exact hgrown.elim
    | some x' => simp [State.live, hs, hs']

/-! ### Plain events -/

/-- The event leaves the mutex, the table, the handlers that live and every `queueData` alone. -/
def Event.Plain : Event → Prop
  | .lock _ | .relock _ | .unlock _ | .pushBack _ | .erase _ _ | .new _ _ _ _ _ _ | .delete _ => False
  | .assign _ _ a => ¬ a.OnQueue
  | _ => True

lemma Event.Plain.keepsMutex (he : e.Plain) : e.KeepsMutex := by
  cases e <;> first | exact he.elim | trivial

lemma Effect.plain_table (heff : Effect t e s s') (he : e.Plain) : s'.SQLHandle = s.SQLHandle := by
  rw [heff.table]
  cases e <;> first | exact he.elim | rfl

lemma Effect.plain_nextHandler (heff : Effect t e s s') (he : e.Plain) :
    s'.nextHandler = s.nextHandler := by
  rw [heff.nextHandler]
  cases e <;> first | exact he.elim | rfl

/-- A handler lives on through an event that deletes none. -/
lemma Effect.isSome (heff : Effect t e s s') (he : e.Plain) (h : HandlerPtr) :
    (s'.heap h).isSome = (s.heap h).isSome := by
  rw [heff.heap h]
  cases e with
  | assign u p a =>
    rw [Event.onObject]
    split_ifs
    · rw [Option.isSome_map]
    · rfl
  | new => exact he.elim
  | delete => exact he.elim
  | _ => rfl

lemma Effect.plain_live (heff : Effect t e s s') (he : e.Plain) : s'.live = s.live := by
  ext h
  simp only [State.live, Set.mem_ofPred_eq, Option.ne_none_iff_isSome, heff.isSome he h]

lemma Effect.plain_queue (heff : Effect t e s s') (he : e.Plain) {h : HandlerPtr}
    {x : CMySQLHandler} (hx : s.heap h = some x) :
    ∃ x', s'.heap h = some x' ∧ x'.queueData = x.queueData := by
  have hheap := heff.heap h
  rw [hx] at hheap
  cases e with
  | assign u p a =>
    rw [Event.onObject] at hheap
    split_ifs at hheap with hp
    · refine ⟨a.apply x, hheap, ?_⟩
      cases a <;> first | rfl | exact absurd trivial he
    · exact ⟨x, hheap, rfl⟩
  | new => exact he.elim
  | delete => exact he.elim
  | _ => exact ⟨x, hheap, rfl⟩

/-- Only the worker executes the queries at the front. -/
lemma Effect.inHand_main (heff : Effect .main e s s') : inHand s'.trace = inHand s.trace := by
  rw [heff.trace, inHand_concat]
  have hby := heff.by_
  cases e with
  | assign u p a =>
    obtain rfl : u = .main := hby
    rfl
  | enter u p f c =>
    obtain rfl : u = .main := hby
    rfl
  | _ => rfl

lemma MainMoves.refl (s : State) : MainMoves s s where
  locked := rfl
  visiting := rfl
  inHand := rfl
  stocked := id
  table _ := List.prefix_rfl
  queue _ _ x hx := ⟨x, hx, rfl⟩

/-- A plain event of the main thread. -/
lemma Effect.mainMoves (heff : Effect .main e s s') (he : e.Plain) (hv : e.NoVisit) :
    MainMoves s s' where
  locked := heff.locked he.keepsMutex
  visiting := heff.visiting hv
  inHand := heff.inHand_main
  stocked hs := by
    rw [Stocked, heff.plain_table he, heff.plain_live he, heff.locked he.keepsMutex]
    exact hs
  table _ := by rw [heff.plain_table he]
  queue _ _ _ hx := heff.plain_queue he hx

/-- An event of the main thread while it holds the mutex, and afterwards. -/
lemma Effect.mainMoves_locked (heff : Effect .main e s s') (he : e.KeepsMutex) (hv : e.NoVisit)
    (hlocked : s.locked .main ≠ none) (htable : s'.SQLHandle.length ≤ s.SQLHandle.length) :
    MainMoves s s' := by
  have hworker : s.locked .worker = none := by
    cases hm : s.mutex with
    | none => simp [State.locked, hm]
    | some m =>
      obtain ⟨u, n⟩ := m
      cases u with
      | main => simp [State.locked, hm]
      | worker => simp [State.locked, hm] at hlocked
  exact
    { locked := heff.locked he
      visiting := heff.visiting hv
      inHand := heff.inHand_main
      stocked := fun hs => ⟨htable.trans hs.1, fun hnone => absurd (heff.locked he ▸ hnone) hlocked⟩
      table := fun h => absurd hworker h
      queue := fun h => absurd hworker h }

end

/-! ### Single statements -/

/-- A statement leaves one of its events, or changes nothing. -/
lemma step_effect {b : Build} {t : ThreadId} {β : Type} {a : Stmt β} {s s' : State}
    {o : Except Fault β} {P : Event → Prop} (hst : (plugin b).Step t a s o s') (ha : a.Only t P) :
    s' = s ∨ ∃ e, P e ∧ Effect t e s s' := by
  obtain ⟨r, -, hrun⟩ := hst
  exact Stmt.run_effect ha hrun

section

variable {M : Machine Stmt Fault State ThreadId Reply} {b : Build} {D : Scope} {t : ThreadId}
  {α β : Type} {A : State → Prop} {Q : α → State → Prop} {s : State}
  (hM : ∀ {t : ThreadId} {β : Type} {a : Stmt β} {s o s'}, M.Step t a s o s' →
    (plugin b).Step t a s o s')

include hM

/-- A permitted statement fails only as its thread may. -/
lemma secures_stmt {a : Stmt β} {f : β → Code α} (hA : Stable (movesRely t) A) (hs : A s)
    (hmay : ∀ s, A s → a.May D t s)
    (hg : ∀ o s₁ s₂, A s₁ → M.Step t a s₁ o s₂ → Guarantees movesRely t s₁ s₂)
    (hok : ∀ x s₁ s₂, A s₁ → M.Step t a s₁ (.ok x) s₂ →
      (f x).Secures M movesRely (policy D) t Q s₂) :
    (Prog.lift a >>= f).Secures M movesRely (policy D) t Q s := by
  refine secures_act hA hs hmay (fun s₁ x s₂ hs₁ hst => ?_) fun s₁ e s₂ hs₁ hst => ?_
  · exact ⟨hg _ s₁ s₂ hs₁ hst, hok x s₁ s₂ hs₁ hst⟩
  · obtain ⟨r, -, hrun⟩ := hM hst
    exact ⟨hg _ s₁ s₂ hs₁ hst, (hmay s₁ hs₁).fails hrun⟩

/-- A statement that leaves no event changes nothing. -/
lemma secures_read {a : Stmt β} {f : β → Code α} (ha : a.Only t fun _ => False)
    (hA : Stable (movesRely t) A) (hs : A s) (hmay : ∀ s, A s → a.May D t s)
    (hok : ∀ x s s', A s → M.Step t a s (.ok x) s' → s' = s →
      (f x).Secures M movesRely (policy D) t Q s) :
    (Prog.lift a >>= f).Secures M movesRely (policy D) t Q s := by
  have hsame {o s₁ s₂} (hst : M.Step t a s₁ o s₂) : s₂ = s₁ := by
    rcases step_effect (hM hst) ha with rfl | ⟨e, he, -⟩
    · rfl
    · exact he.elim
  refine secures_stmt hM hA hs hmay (fun o s₁ s₂ _ hst => ?_) fun x s₁ s₂ hs₁ hst => ?_
  · rw [hsame hst]
    exact fun _ _ => .refl _ _
  · rw [hsame hst]
    exact hok x s₁ s₂ hs₁ hst (hsame hst)

lemma secures_size {f : ℕ → Code α} (hA : Stable (movesRely t) A) (hs : A s)
    (hok : ∀ s, A s → (f s.SQLHandle.length).Secures M movesRely (policy D) t Q s) :
    (Prog.lift .size >>= f).Secures M movesRely (policy D) t Q s := by
  refine secures_read hM trivial hA hs (fun _ _ => trivial) fun n s s' hs hst _ => ?_
  obtain ⟨-, rfl⟩ := step_size (hM hst)
  exact hok s hs

lemma secures_at {i : ℕ} {f : HandlerPtr → Code α} (hA : Stable (movesRely t) A) (hs : A s)
    (hmay : ∀ s, A s → t = .worker ∨ D.CallbacksOpen → i < s.SQLHandle.length)
    (hok : ∀ h s, A s → s.SQLHandle[i]? = some h →
      (f h).Secures M movesRely (policy D) t Q s) :
    (Prog.lift (.at i) >>= f).Secures M movesRely (policy D) t Q s := by
  refine secures_read hM trivial hA hs hmay fun h s s' hs hst _ => ?_
  exact hok h s hs (step_at (hM hst)).2

lemma secures_this {h : HandlerPtr} {f : CMySQLHandler → Code α} (hA : Stable (movesRely t) A)
    (hs : A s) (hlive : ∀ s, A s → h ∈ s.live)
    (hok : ∀ x s, A s → s.heap h = some x → (f x).Secures M movesRely (policy D) t Q s) :
    (this h >>= f).Secures M movesRely (policy D) t Q s := by
  refine secures_read hM trivial hA hs hlive fun x s s' hs hst _ => ?_
  exact hok x s hs (step_this (hM hst)).2

/-- A statement that leaves one of its events whenever it returns. -/
lemma secures_records {P : Event → Prop} {a : Stmt β} {f : β → Code α} (hrec : a.Records)
    (ha : a.Only t P) (hA : Stable (movesRely t) A) (hs : A s) (hmay : ∀ s, A s → a.May D t s)
    (hok : ∀ e s₁ s₂, P e → A s₁ → Effect t e s₁ s₂ → Guarantees movesRely t s₁ s₂ ∧
      ∀ x, (f x).Secures M movesRely (policy D) t Q s₂) :
    (Prog.lift a >>= f).Secures M movesRely (policy D) t Q s := by
  refine secures_stmt hM hA hs hmay (fun o s₁ s₂ hs₁ hst => ?_) fun x s₁ s₂ hs₁ hst => ?_
  · rcases step_effect (hM hst) ha with rfl | ⟨e, he, heff⟩
    · exact fun _ _ => .refl _ _
    · exact (hok e s₁ s₂ he hs₁ heff).1
  · obtain ⟨e, he, heff⟩ := hrec.effect ha (hM hst)
    exact (hok e s₁ s₂ he hs₁ heff).2 x

end

end MySQLPlugin
