import MySQLPlugin.Safety.Natives

/-!
# The worker keeps to the policy

The worker sweeps over the table under the mutex: entries do not leave it, their handlers live, and
the queue of the handler that it visits changes by its own hand only. All this is before `Unload`,
which deletes the handlers without the mutex.
-/

namespace MySQLPlugin

open Threads Prog CMySQLHandler

/-! ### Moves of the worker -/

/-- The events of the worker. -/
def Event.InSweep : Event → Prop
  | .pushBack _ | .erase _ _ | .new _ _ _ _ _ _ | .delete _ | .amxLoad _ | .amxUnload _
  | .exec _ _ => False
  | .assign _ _ a => a ≠ .callbackData_pop ∧ a ≠ .errorCallback_pop
  | _ => True

section

variable {b : Build} {s s' : State} {e : Event} {β : Type}

lemma Assign.grown {a : Assign} (ha : a ≠ .callbackData_pop ∧ a ≠ .errorCallback_pop)
    (x : CMySQLHandler) : Grown (some x) (some (a.apply x)) := by
  cases a with
  | callbackData_pop => exact absurd rfl ha.1
  | errorCallback_pop => exact absurd rfl ha.2
  | callbackData_push q => exact ⟨List.prefix_rfl, List.prefix_append _ _⟩
  | errorCallback_push q => exact ⟨List.prefix_append _ _, List.prefix_rfl⟩
  | _ => exact ⟨List.prefix_rfl, List.prefix_rfl⟩

lemma Effect.grown {t : ThreadId} (heff : Effect t e s s') (he : e.InSweep) (h : HandlerPtr) :
    Grown (s.heap h) (s'.heap h) := by
  rw [heff.heap h]
  cases e with
  | assign u p a =>
    rw [Event.onObject]
    split_ifs
    · cases s.heap h with
      | none => trivial
      | some x => exact Assign.grown he x
    · exact .refl _
  | new => exact he.elim
  | delete => exact he.elim
  | _ => exact .refl _

lemma Effect.workerMoves {t : ThreadId} (heff : Effect t e s s') (he : e.InSweep)
    (hlocked : s'.locked .main = s.locked .main) : WorkerMoves s s' := by
  refine ⟨hlocked, ?_, ?_, ?_, ?_, heff.grown he⟩
  · rw [heff.table]
    cases e <;> first | rfl | exact he.elim
  · rw [heff.nextHandler]
    cases e <;> first | rfl | exact he.elim
  · rw [heff.p_Amx]
    cases e <;> first | rfl | exact he.elim
  · rw [heff.trace, told_concat]
    cases e with
    | exec a p => exact he.elim
    | assign u p a =>
      cases a with
      | callbackData_pop => exact absurd rfl he.1
      | errorCallback_pop => exact absurd rfl he.2
      | _ => cases u <;> rfl
    | _ => rfl

lemma worker_moves {a : Stmt β} {o : Except Fault β} (ha : a.Only .worker Event.InSweep)
    (hst : (plugin b).Step .worker a s o s') : WorkerMoves s s' := by
  have hlocked : s'.locked .main = s.locked .main := by
    obtain ⟨r, -, hrun⟩ := hst
    exact Stmt.run_locked (by simp) hrun
  rcases step_effect hst ha with rfl | ⟨e, he, heff⟩
  · exact ⟨rfl, rfl, rfl, rfl, rfl, fun h => .refl _⟩
  · exact heff.workerMoves he hlocked

lemma WorkerMoves.stocked (h : WorkerMoves s s') (hs : Stocked s) : Stocked s' := by
  rw [Stocked, h.table, h.live, h.locked]
  exact hs

end

/-! ### What the worker holds -/

/-- The worker has locked the mutex `n` times, visits `v` and serves `w`. -/
structure Locking (n : ℕ) (v : Option HandlerPtr) (w : Option (HandlerPtr × Bool)) (s : State) :
    Prop where
  locked : s.locked .worker = times n
  stocked : Stocked s
  visiting : visiting s.trace = v
  inHand : inHand s.trace = w

/-- The worker is at position `i` of its sweep. -/
def SweepsAt (i : ℕ) (s : State) : Prop := Locking 1 none none s ∧ i ≤ s.SQLHandle.length

/-- The worker visits the handler `h` at position `i`, whose queue is `q`, and serves `w`. -/
structure Attends (i : ℕ) (h : HandlerPtr) (q : List MainInfo) (w : Option (HandlerPtr × Bool))
    (s : State) : Prop where
  holds : Locking 1 (some h) w s
  within : i < s.SQLHandle.length
  queue : ∃ x, s.heap h = some x ∧ x.queueData = q

section

variable {s s' : State} {i n : ℕ} {h : HandlerPtr} {q : List MainInfo}
  {v : Option HandlerPtr} {w : Option (HandlerPtr × Bool)}

lemma Locking.main_unlocked (hs : Locking (n + 1) v w s) : s.locked .main = none := by
  have hlocked := hs.locked
  cases hm : s.mutex with
  | none => simp [State.locked, hm]
  | some m =>
    obtain ⟨u, k⟩ := m
    cases u with
    | main => simp [State.locked, hm, times] at hlocked
    | worker => simp [State.locked, hm]

/-- The entries of the table live while the worker holds the mutex. -/
lemma Locking.entry_live (hs : Locking (n + 1) v w s) (hh : s.SQLHandle[i]? = some h) : h ∈ s.live :=
  hs.stocked.2 hs.main_unlocked h (List.mem_of_getElem? hh)

lemma stable_locking (n : ℕ) (v : Option HandlerPtr) (w : Option (HandlerPtr × Bool)) :
    Stable (movesRely .worker) (Locking n v w) :=
  stable_closedUnder fun _ _ hmoves hs =>
    ⟨hmoves.locked.trans hs.locked, hmoves.stocked hs.stocked, hmoves.visiting.trans hs.visiting,
      hmoves.inHand.trans hs.inHand⟩

lemma Locking.length_le (hs : Locking (n + 1) v w s) (hmoves : MainMoves s s') :
    s.SQLHandle.length ≤ s'.SQLHandle.length :=
  (hmoves.table (by simp [hs.locked, times])).length_le

lemma stable_sweepsAt (i : ℕ) : Stable (movesRely .worker) (SweepsAt i) := by
  refine stable_closedUnder fun s s' hmoves hs => ⟨?_, hs.2.trans (hs.1.length_le hmoves)⟩
  exact stable_locking 1 none none s s' (keeps_closedUnder hmoves) hs.1

lemma stable_attends (i : ℕ) (h : HandlerPtr) (q : List MainInfo) (w : Option (HandlerPtr × Bool)) :
    Stable (movesRely .worker) (Attends i h q w) := by
  refine stable_closedUnder fun s s' hmoves hs => ?_
  refine ⟨stable_locking 1 (some h) w s s' (keeps_closedUnder hmoves) hs.holds,
    Nat.lt_of_lt_of_le hs.within (hs.holds.length_le hmoves), ?_⟩
  obtain ⟨x, hx, hq⟩ := hs.queue
  obtain ⟨x', hx', hq'⟩ := hmoves.queue (by simp [hs.holds.locked, times]) h x hx
  exact ⟨x', hx', hq'.trans hq⟩

lemma Attends.live (hs : Attends i h q w s) : h ∈ s.live := by
  obtain ⟨x, hx, -⟩ := hs.queue
  simp [State.live, hx]

end

/-! ### Parts of a visit -/

/-- While the query `d` at the front is `running` its outcome is filed once; the queue changes at the end
of the visit only. -/
def Assign.useVisit (d : MainInfo) (running : Bool) : Assign → LockUse
  | .queueData_push _ | .queueData_pop | .queueData_popAll | .callbackData_pop
  | .errorCallback_pop => .never
  | .callbackData_push q => if running ∧ q = d then .acquire else .never
  | .errorCallback_push e =>
    if running ∧ e.m_szQuery = d.m_szQuery ∧ e.m_uiResult = d.m_uiResult ∧
      e.m_szCallback = d.m_szCallback then .acquire else .never
  | _ => .free

def LibCall.useVisit : LibCall → LockUse
  | .mysql_real_query _ => .never
  | _ => .free

/-- The statements of a visit of `h`, whose query at the front is `d`, before and after the beginning of
its execution. -/
def Stmt.useVisit (h : HandlerPtr) (d : MainInfo) (running : Bool) {β : Type} : Stmt β → LockUse
  | .this p | .access p _ => if p = h then .free else .never
  | .enter p f => if p = h then f.useVisit else .never
  | .assign p a => if p = h then a.useVisit d running else .never
  | .mysql_init _ | .leave _ _ _ | .onResult _ _ => .free
  | _ => .never

/-- A visit raises no fault itself. What is acquired in it is the outcome of the query. -/
def onVisit (h : HandlerPtr) (d : MainInfo) (running : Bool) : Discipline Stmt Fault where
  use := Stmt.useVisit h d running
  nests := False
  raises _ := False

/-- What the worker serves when `n` outcomes have been filed. -/
def served (h : HandlerPtr) (running : Bool) : ℕ → Option (HandlerPtr × Bool)
  | 0 => if running then some (h, false) else none
  | _ + 1 => some (h, true)

section

variable {b : Build} {s s' : State} {i n : ℕ} {h : HandlerPtr} {d : MainInfo} {q : List MainInfo}
  {running : Bool} {w : Option (HandlerPtr × Bool)} {e : Event} {β : Type}

/-- What an assignment of the visit does to the books of the worker. -/
lemma Assign.useVisit_ready {a : Assign} (ha : (a.useVisit d running).Ready False n) :
    (a ≠ .callbackData_pop ∧ a ≠ .errorCallback_pop) ∧ ¬ a.OnQueue ∧
      (Event.assign .worker h a).onInHand (served h running n)
        = served h running ((a.useVisit d running).after n) := by
  cases a with
  | callbackData_push p =>
    rw [Assign.useVisit] at ha ⊢
    split_ifs at ha ⊢
    · exact ⟨by simp, id, rfl⟩
    · exact ha.elim
  | errorCallback_push p =>
    rw [Assign.useVisit] at ha ⊢
    split_ifs at ha ⊢
    · exact ⟨by simp, id, rfl⟩
    · exact ha.elim
  | _ => first | exact ha.elim | exact ⟨by simp, id, rfl⟩

lemma Stmt.useVisit_enter {p : HandlerPtr} {f : LibCall}
    (ha : ((Stmt.enter p f).useVisit h d running).Ready False n) :
    p = h ∧ (∀ text, f ≠ .mysql_real_query text) ∧ (Stmt.enter p f).useVisit h d running = .free := by
  by_cases hp : p = h
  · rw [Stmt.useVisit, if_pos hp] at ha ⊢
    cases f <;> first | exact ha.elim | exact ⟨hp, by simp, rfl⟩
  · rw [Stmt.useVisit, if_neg hp] at ha
    exact ha.elim

/-- What the statements of the visit do to the books of the worker. -/
lemma Stmt.useVisit_only {a : Stmt β} (ha : (a.useVisit h d running).Ready False n) :
    a.Only .worker fun e => e.InSweep ∧ e.Plain ∧ e.NoVisit ∧
      e.onInHand (served h running n) = served h running ((a.useVisit h d running).after n) := by
  cases a with
  | assign p a =>
    by_cases hp : p = h
    · subst hp
      rw [Stmt.useVisit, if_pos rfl] at ha ⊢
      obtain ⟨hpops, hqueue, hserved⟩ := Assign.useVisit_ready (h := p) ha
      exact ⟨hpops, hqueue, trivial, hserved⟩
    · rw [Stmt.useVisit, if_neg hp] at ha
      exact ha.elim
  | enter p f =>
    obtain ⟨-, hf, hfree⟩ := Stmt.useVisit_enter ha
    rw [hfree]
    refine fun c => ⟨trivial, trivial, trivial, ?_⟩
    cases f <;> first | rfl | exact absurd rfl (hf _)
  | access p f =>
    have hafter : ((Stmt.access p f).useVisit h d running).after n = n := by
      rw [Stmt.useVisit]
      split_ifs <;> rfl
    exact fun c => ⟨trivial, trivial, trivial, hafter.symm ▸ rfl⟩
  | mysql_init p => exact fun _ => ⟨trivial, trivial, trivial, rfl⟩
  | leave p c f => exact fun _ => ⟨trivial, trivial, trivial, rfl⟩
  | onResult p f => exact ⟨trivial, trivial, trivial, rfl⟩
  | this p => trivial
  | _ => exact ha.elim

/-- A statement of the visit that leaves no event files nothing. -/
lemma Stmt.useVisit_silent {a : Stmt β} (ha : (a.useVisit h d running).Ready False n) {r : Reply}
    {x : β} (hrun : a.run b .worker r s = some (.ok x, s)) :
    (a.useVisit h d running).after n = n := by
  cases a with
  | assign p a =>
    have hlength := Stmt.Records.length (a := .assign p a) trivial hrun
    omega
  | this p =>
    rw [Stmt.useVisit]
    split_ifs <;> rfl
  | access p f =>
    rw [Stmt.useVisit]
    split_ifs <;> rfl
  | enter p f =>
    rw [(Stmt.useVisit_enter ha).2.2]
    rfl
  | _ => rfl

lemma Attends.serves (hs : Attends i h (d :: q) w s) : Serves h d s where
  visiting := hs.holds.visiting
  front := by
    obtain ⟨x, hx, hq⟩ := hs.queue
    exact ⟨x, hx, by rw [hq, List.head?_cons]⟩

lemma Attends.may {D : Scope} (hs : Attends i h (d :: q) (served h running n) s) {a : Stmt β}
    (ha : (a.useVisit h d running).Ready False n) : a.May D .worker s := by
  have hrunning (hr : running = true) (hn : n = 0) : inHand s.trace = some (h, false) := by
    rw [hs.holds.inHand, hn, served, if_pos hr]
  cases a with
  | assign p a =>
    by_cases hp : p = h
    · subst hp
      rw [Stmt.useVisit, if_pos rfl] at ha
      obtain ⟨-, hqueue, -⟩ := Assign.useVisit_ready (h := p) ha
      refine ⟨hs.live, fun hno => absurd hno hqueue, fun _ x _ => ?_, ?_, ?_⟩
      · cases a <;> first | rfl | exact ha.elim
      · cases a with
        | callbackData_push c =>
          rw [Assign.useVisit] at ha
          split_ifs at ha with hc
          · exact ⟨rfl, hrunning hc.1 (ha.resolve_right id), hc.2 ▸ hs.serves⟩
          · exact ha.elim
        | errorCallback_push c =>
          rw [Assign.useVisit] at ha
          split_ifs at ha with hc
          · exact ⟨hrunning hc.1 (ha.resolve_right id), d, hs.serves, hc.2⟩
          · exact ha.elim
        | _ => trivial
      · cases a <;> trivial
    · rw [Stmt.useVisit, if_neg hp] at ha
      exact ha.elim
  | this p =>
    rw [Stmt.useVisit] at ha
    split_ifs at ha with hp
    · exact hp ▸ hs.live
    · exact ha.elim
  | enter p f =>
    obtain ⟨hp, hf, -⟩ := Stmt.useVisit_enter ha
    exact ⟨hp ▸ hs.live, fun _ text htext => absurd htext (hf text)⟩
  | access p f =>
    rw [Stmt.useVisit] at ha
    split_ifs at ha with hp
    · exact hp ▸ hs.live
    · exact ha.elim
  | _ => trivial

/-- The executed query leaves the queue. -/
lemma Attends.pop (hs : Attends i h (d :: q) w s)
    (heff : Effect .worker (.assign .worker h .queueData_pop) s s') :
    WorkerMoves s s' ∧ Attends i h q none s' := by
  have hlocked : ∀ u, s'.locked u = s.locked u := fun u => heff.locked trivial
  have hmoves : WorkerMoves s s' := heff.workerMoves ⟨by simp, by simp⟩ (hlocked .main)
  have hvisiting : visiting s'.trace = some h := (heff.visiting trivial).trans hs.holds.visiting
  have hserving : inHand s'.trace = none := by
    rw [heff.trace, inHand_concat]
    rfl
  obtain ⟨x, hx, hq⟩ := hs.queue
  obtain ⟨x', hx', hpop⟩ := heff.assigned
  obtain rfl : x' = x := Option.some.inj (hx'.symm.trans hx)
  refine ⟨hmoves, ⟨(hlocked .worker).trans hs.holds.locked, hmoves.stocked hs.holds.stocked,
    hvisiting, hserving⟩, ?_, _, hpop, ?_⟩
  · rw [hmoves.table]
    exact hs.within
  · simp [Assign.apply, hq]

/-- A plain event of the visit leaves the queue as it is. -/
lemma Attends.plain (hs : Attends i h q w s) (heff : Effect .worker e s s') (hmoves : WorkerMoves s s')
    (he : e.Plain) (hv : e.NoVisit) : Attends i h q (e.onInHand w) s' where
  holds :=
    { locked := (heff.locked he.keepsMutex).trans hs.holds.locked
      stocked := hmoves.stocked hs.holds.stocked
      visiting := (heff.visiting hv).trans hs.holds.visiting
      inHand := by rw [heff.trace, inHand_concat, hs.holds.inHand] }
  within := by
    rw [hmoves.table]
    exact hs.within
  queue := by
    obtain ⟨x, hx, hq⟩ := hs.queue
    obtain ⟨x', hx', hq'⟩ := heff.plain_queue he hx
    exact ⟨x', hx', hq'.trans hq⟩

attribute [local simp] onVisit Stmt.useVisit Assign.useVisit LibCall.useVisit LockUse.Ready LockUse.after
  this call access assign onResult bind_bind ite_bind obeys_lift_bind obeys_ite

lemma ping_onVisit : (call h .mysql_ping).Obeys (onVisit h d false) 0 0 := by
  simp

lemma reconnectInBackground_onVisit :
    (reconnectInBackground h).Obeys (onVisit h d false) 0 0 := by
  simp [reconnectInBackground, connect]

/-- The end of the execution of the query `d` on the connection `c`: its outcome is filed. -/
def fileOutcome (h : HandlerPtr) (d : MainInfo) (c : ConnPtr) : Code Unit := do
  let ok ← .lift (.leave h c (.mysql_real_query d.m_szQuery))
  if ok then do
    assign h (.callbackData_push d)
    assign h (.m_dwError 0)
  else
    queryFailed h d

lemma fileOutcome_onVisit (c : ConnPtr) : (fileOutcome h d c).Obeys (onVisit h d true) 0 1 := by
  simp [fileOutcome, queryFailed]

variable {M : Machine Stmt Fault State ThreadId Reply} {D : Scope}
  (hM : ∀ {t : ThreadId} {β : Type} {a : Stmt β} {s o s'}, M.Step t a s o s' →
    (plugin b).Step t a s o s')

include hM

lemma secures_onVisit {α : Type} {m : ℕ} {p : Code α} (hp : p.Obeys (onVisit h d running) n m)
    (hs : Attends i h (d :: q) (served h running n) s) :
    p.Secures M movesRely (policy D) .worker (fun _ => Attends i h (d :: q) (served h running m)) s := by
  refine hp.secures (J := fun n => Attends i h (d :: q) (served h running n))
    (fun n => stable_attends i h _ _) (fun a n s ha hs => hs.may ha) (fun a n s o s' ha hs hst => ?_)
    (fun _ he => False.elim he) hs
  have honly := Stmt.useVisit_only ha
  have hsweep : a.Only .worker Event.InSweep := honly.mono fun _ he => he.1
  have hmoves : WorkerMoves s s' := worker_moves hsweep (hM hst)
  refine ⟨hmoves.guarantees, fun x hx => ?_, ?_⟩
  · rcases step_effect (hM hst) honly with rfl | ⟨e, ⟨-, he, hv, hserved⟩, heff⟩
    · obtain ⟨r, -, hrun⟩ := hM hst
      subst hx
      have hsame : (a.useVisit h d running).after n = n := Stmt.useVisit_silent ha hrun
      show Attends i h (d :: q) (served h running ((a.useVisit h d running).after n)) s'
      rw [hsame]
      exact hs
    · exact hserved ▸ hs.plain heff hmoves he hv
  · rintro e rfl
    have hmay : a.May D .worker s := hs.may ha
    obtain ⟨r, -, hrun⟩ := hM hst
    exact hmay.fails hrun

/-- The flag is set, the query at the front is executed and its outcome filed. -/
lemma execute_secures {f : Unit → Code Unit} {Q : Unit → State → Prop}
    (hf : ∀ s, Attends i h (d :: q) (some (h, true)) s →
      (f ()).Secures M movesRely (policy D) .worker Q s) (hs : Attends i h (d :: q) none s) :
    (do
      assign h (.m_bQueryProcessing true)
      let c ← .lift (.enter h (.mysql_real_query d.m_szQuery))
      fileOutcome h d c
      f () : Code Unit).Secures M movesRely (policy D) .worker Q s := by
  have hflag : (assign h (.m_bQueryProcessing true)).Obeys (onVisit h d false) 0 0 := by
    simp
  refine .bind ((secures_onVisit hM hflag hs).mono fun _ s hs => ?_)
  have honly : (Stmt.enter h (.mysql_real_query d.m_szQuery)).Only .worker
      fun e => e.InSweep ∧ ∃ c, e = .enter .worker h (.mysql_real_query d.m_szQuery) c :=
    fun c => ⟨trivial, c, rfl⟩
  have hsweep : (Stmt.enter h (.mysql_real_query d.m_szQuery)).Only .worker Event.InSweep :=
    fun _ => trivial
  refine secures_stmt hM (stable_attends i h (d :: q) none) hs (fun s hs => ⟨hs.live, ?_⟩)
    (fun o s₁ s₂ _ hst => (worker_moves hsweep (hM hst)).guarantees) fun c s₁ s₂ hs₁ hst => ?_
  · rintro - text htext
    cases htext
    exact ⟨hs.holds.inHand, d, hs.serves, rfl⟩
  · have hmoves := worker_moves hsweep (hM hst)
    have hrecords : (Stmt.enter h (.mysql_real_query d.m_szQuery)).Records := trivial
    obtain ⟨e, ⟨-, o, rfl⟩, heff⟩ := hrecords.effect honly (hM hst)
    have hrunning : Attends i h (d :: q) (served h true 0) s₂ :=
      hs₁.plain heff hmoves trivial trivial
    exact .bind ((secures_onVisit hM (fileOutcome_onVisit c) hrunning).mono fun _ s hs => hf s hs)

/-- The executed query is removed. -/
lemma dequeue_secures (hs : Attends i h (d :: q) (some (h, true)) s) :
    (assign h .queueData_pop).Secures M movesRely (policy D) .worker (fun _ => Attends i h q none) s := by
  rw [← bind_ret_right (assign h _)]
  refine secures_records (P := (· = .assign .worker h .queueData_pop)) hM trivial rfl
    (stable_attends i h (d :: q) (some (h, true))) hs
    (fun s hs => ⟨hs.live, fun _ => ?_, fun _ x hx => ?_, ⟨rfl, hs.holds.inHand⟩, trivial⟩)
    fun e s₁ s₂ he hs₁ heff => ?_
  · simp [hs.holds.locked, times]
  · obtain ⟨x', hx', hq⟩ := hs.queue
    obtain rfl : x' = x := Option.some.inj (hx'.symm.trans hx)
    simp [Assign.defined, hq]
  · subst he
    have hafter := (hs₁.pop heff).2
    exact ⟨(hs₁.pop heff).1.guarantees, fun _ => secures_ret (stable_attends i h q none) hafter⟩

/-- The query at the front is executed and removed: the queue is not empty. -/
lemma executeFront_secures {Q : Unit → State → Prop}
    (hpop : ∀ s, Attends i h (d :: q) (some (h, true)) s →
      (assign h .queueData_pop).Secures M movesRely (policy D) .worker Q s)
    (hs : Attends i h (d :: q) none s) :
    (executeFront h).Secures M movesRely (policy D) .worker Q s := by
  refine secures_this hM (stable_attends i h (d :: q) none) hs (fun s hs => hs.live)
    fun x s hs hx => ?_
  obtain ⟨x', hx', hq⟩ := hs.queue
  obtain rfl : x' = x := Option.some.inj (hx'.symm.trans hx)
  rw [hq]
  have hparts : (do
      let cQueue ← front (d :: q)
      assign h (.m_bQueryProcessing true)
      let ok ← call h (.mysql_real_query cQueue.m_szQuery)
      (if ok then do
        assign h (.callbackData_push cQueue)
        assign h (.m_dwError 0)
      else
        queryFailed h cQueue)
      assign h .queueData_pop : Code Unit) = (do
      assign h (.m_bQueryProcessing true)
      let c ← .lift (.enter h (.mysql_real_query d.m_szQuery))
      fileOutcome h d c
      assign h .queueData_pop) := by
    simp only [front, pure_eq, bind_ret, fileOutcome, call, bind_bind]
  rw [hparts]
  exact execute_secures hM (f := fun _ => assign h .queueData_pop) hpop hs

/-- The guard of the worker: a visit of the handler begins. -/
lemma guard_secures {α : Type} {f : Bool → Code α} {Q : α → State → Prop}
    (htrue : ∀ d q s, Attends i h (d :: q) none s →
      (f true).Secures M movesRely (policy D) .worker Q s)
    (hfalse : ∀ s s', M.Step .worker (.guard h) s (.ok false) s' → SweepsAt (i + 1) s' →
      visiting s.trace = none → (f false).Secures M movesRely (policy D) .worker Q s')
    (hs : Locking 1 none none s ∧ s.SQLHandle[i]? = some h) :
    (Prog.lift (.guard h) >>= f).Secures M movesRely (policy D) .worker Q s := by
  have hlive : Stable (movesRely .worker) fun s =>
      Locking 1 none none s ∧ s.SQLHandle[i]? = some h := by
    refine stable_closedUnder fun s s' hmoves hs => ?_
    refine ⟨stable_locking 1 none none s s' (keeps_closedUnder hmoves) hs.1, ?_⟩
    obtain ⟨l, hl⟩ := hmoves.table (by simp [hs.1.locked, times])
    obtain ⟨hlt, -⟩ := List.getElem?_eq_some_iff.mp hs.2
    rw [← hl, List.getElem?_append_left hlt]
    exact hs.2
  have hvisit : (Stmt.guard h).Only .worker fun e => e = .visit h := rfl
  have hsweep : (Stmt.guard h).Only .worker Event.InSweep := trivial
  refine secures_stmt hM hlive hs (fun s hs => ?_)
    (fun o s₁ s₂ hs₁ hst => (worker_moves hsweep (hM hst)).guarantees) fun v s₁ s₂ hs₁ hst => ?_
  · exact ⟨rfl, by simp [hs.1.locked, times], hs.1.entry_live hs.2, hs.1.visiting, hs.1.inHand⟩
  obtain ⟨hlt, -⟩ := List.getElem?_eq_some_iff.mp hs₁.2
  have hmoves : WorkerMoves s₁ s₂ := worker_moves hsweep (hM hst)
  obtain ⟨x, hx, rfl, hs₂⟩ := step_guard (hM hst)
  cases hready : x.ready with
  | false =>
    rw [hready] at hst hs₂
    obtain rfl : s₂ = s₁ := by simpa using hs₂
    exact hfalse s₂ s₂ hst ⟨hs₁.1, hlt⟩ hs₁.1.visiting
  | true =>
    rw [hready, if_pos rfl] at hs₂
    have heff : Effect .worker (.visit h) s₁ s₂ := hs₂
    have hvisits : Attends i h x.queueData none s₂ :=
      { holds :=
          { locked := (heff.locked trivial).trans hs₁.1.locked
            stocked := hmoves.stocked hs₁.1.stocked
            visiting := by
              rw [heff.trace, visiting_concat]
              rfl
            inHand := by
              rw [heff.trace, inHand_concat]
              exact hs₁.1.inHand }
        within := hmoves.table ▸ hlt
        queue := ⟨x, (heff.heap h).trans hx, rfl⟩ }
    obtain ⟨d, q, hq⟩ : ∃ d q, x.queueData = d :: q := by
      cases hq : x.queueData with
      | nil => simp [CMySQLHandler.ready, hq] at hready
      | cons d q => exact ⟨d, q, rfl⟩
    rw [hq] at hvisits
    exact htrue d q s₂ hvisits

/-- One visit of the worker. -/
lemma workerVisit_secures (hs : Locking 1 none none s ∧ i < s.SQLHandle.length) :
    (workerVisit i).Secures M movesRely (policy D) .worker (fun _ => SweepsAt (i + 1)) s := by
  have hstable : Stable (movesRely .worker) fun s =>
      Locking 1 none none s ∧ i < s.SQLHandle.length := stable_sweepsAt (i + 1)
  refine secures_at hM hstable hs (fun s hs _ => hs.2) fun h s hs hh => ?_
  refine guard_secures hM (fun d q s hs => ?_)
    (fun s s' _ hs' _ => secures_ret (stable_sweepsAt (i + 1)) hs') ⟨hs.1, hh⟩
  rw [if_pos rfl]
  refine .bind ((secures_onVisit hM ping_onVisit hs).mono fun ok s hs => .bind ?_)
  refine Secures.mono (Q := fun _ s => ∃ q, Attends i h q none s) ?_ fun _ s hs => ?_
  · cases ok with
    | true =>
      exact executeFront_secures hM (fun s hs => (dequeue_secures hM hs).mono fun _ s hs => ⟨q, hs⟩) hs
    | false =>
      exact (secures_onVisit hM reconnectInBackground_onVisit hs).mono fun _ s hs => ⟨_, hs⟩
  · obtain ⟨q, hs⟩ := hs
    rw [← bind_ret_right (Prog.lift _)]
    refine secures_records (P := (· = .mark (.visitEnd h))) hM trivial rfl
      (stable_attends i h q none) hs (fun s hs => ⟨rfl, hs.holds.visiting, hs.holds.inHand⟩)
      fun e s₁ s₂ he hs₁ heff => ?_
    subst he
    have hmoves : WorkerMoves s₁ s₂ := heff.workerMoves trivial (heff.locked trivial)
    have hlocking : Locking 1 none none s₂ :=
      { locked := (heff.locked trivial).trans hs₁.holds.locked
        stocked := hmoves.stocked hs₁.holds.stocked
        visiting := by
          rw [heff.trace, visiting_concat]
          rfl
        inHand := by
          rw [heff.trace, inHand_concat]
          exact hs₁.holds.inHand }
    exact ⟨hmoves.guarantees,
      fun _ => secures_ret (stable_sweepsAt (i + 1)) ⟨hlocking, hmoves.table ▸ hs₁.within⟩⟩

/-- Between two visits of `ProcessTick` every outcome that has been told has been taken away. -/
def Paused (s : State) : Prop := Consistent s ∧ told s.trace = []

/-- What each thread has at its control points. -/
def safeAt : ThreadId → Point → State → Prop
  | .main, .idle | .main, .tick _ => Paused
  | .worker, .asleep => Locking 0 none none
  | .worker, .sweep i => SweepsAt i
  | _, _ => fun _ => False

omit hM in
lemma Locking.lock (hs : Locking 0 none none s) {u : Unit}
    (hst : (plugin b).Step .worker .lockMutex s (.ok u) s') : Locking 1 none none s' := by
  have hsweep : (Stmt.lockMutex).Only .worker Event.InSweep := ⟨trivial, trivial⟩
  have hmoves : WorkerMoves s s' := worker_moves hsweep hst
  obtain ⟨r, -, hrun⟩ := hst
  have hlock : b.lock .worker s = some (.ok u, s') := hrun
  obtain ⟨-, -, -, -, hvisiting, hserving, -⟩ := Build.lock_frame hlock
  exact ⟨Build.lock_ok hs.locked hlock, hmoves.stocked hs.stocked, hvisiting.trans hs.visiting,
    hserving.trans hs.inHand⟩

omit hM in
lemma Locking.unlock (hs : Locking 1 none none s) {u : Unit}
    (hst : (plugin b).Step .worker .unlockMutex s (.ok u) s') : Locking 0 none none s' := by
  have hmoves : WorkerMoves s s' := worker_moves (a := .unlockMutex) trivial hst
  obtain ⟨r, -, hrun⟩ := hst
  cases hrun
  obtain ⟨-, -, -, -, hvisiting, hserving⟩ := unlock_frame .worker s
  exact ⟨locked_unlock hs.locked, hmoves.stocked hs.stocked, hvisiting.trans hs.visiting,
    hserving.trans hs.inHand⟩

/-- The end of a sweep. -/
lemma sleep_secures (hs : Locking 1 none none s) :
    (unlockMutex >>= fun _ => pure Point.asleep).Secures M movesRely (policy D) .worker
      (fun y => safeAt .worker y) s := by
  refine secures_stmt hM (stable_locking 1 none none) hs (fun s hs => ?_) (fun o s₁ s₂ _ hst => ?_)
    fun u s₁ s₂ hs₁ hst => ?_
  · exact ⟨by simp [hs.locked, times], fun _ => hs.visiting⟩
  · exact (worker_moves (a := .unlockMutex) trivial (hM hst)).guarantees
  · exact secures_ret (stable_locking 0 none none) (hs₁.unlock (hM hst))

/-- The worker wakes up and locks the mutex. -/
lemma processQueryThread_secures (hs : Locking 0 none none s) :
    processQueryThread.Secures M movesRely (policy D) .worker (fun y => safeAt .worker y) s := by
  have hsweep : (Stmt.lockMutex).Only .worker Event.InSweep := ⟨trivial, trivial⟩
  refine secures_stmt hM (stable_locking 0 none none) hs (fun s hs _ => hs.locked)
    (fun o s₁ s₂ _ hst => (worker_moves hsweep (hM hst)).guarantees) fun u s₁ s₂ hs₁ hst => ?_
  refine secures_size hM (stable_locking 1 none none) (hs₁.lock (hM hst)) fun s hs => ?_
  split_ifs
  · exact secures_ret (stable_sweepsAt 0) ⟨hs, Nat.zero_le _⟩
  · exact sleep_secures hM hs

lemma sweepLoop_secures (hs : SweepsAt i s) :
    (sweepLoop i).Secures M movesRely (policy D) .worker (fun y => safeAt .worker y) s := by
  have hstable : Stable (movesRely .worker) fun s => Locking 1 none none s ∧ i ≤ s.SQLHandle.length :=
    stable_sweepsAt i
  refine secures_size hM hstable hs fun s hs => ?_
  split_ifs with hlt
  · refine .bind ((workerVisit_secures hM ⟨hs.1, hlt⟩).mono fun _ s hs => ?_)
    exact secures_ret (stable_sweepsAt (i + 1)) hs
  · exact sleep_secures hM hs.1

end

end MySQLPlugin
