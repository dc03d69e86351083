import MySQLPlugin.Handles.Frame
import MySQLPlugin.Safety.Policy

/-!
# The natives keep to the policy

A native works on the handler at the position of its handle, and locks and unlocks the mutex in
pairs; `mysql_connect` and `mysql_close` also change the table. Between two natives the live handlers
are the entries of the table.
-/

namespace MySQLPlugin

open Threads Prog CMySQLHandler Natives

/-! ### The discipline of a handler -/

def Assign.use : Assign → LockUse
  | .queueData_push _ | .queueData_popAll => .guarded
  | .queueData_pop | .callbackData_push _ | .callbackData_pop | .errorCallback_pop => .never
  | .errorCallback_push e => if e.m_uiResult = -1 ∧ e.m_szCallback = NULL then .free else .never
  | _ => .free

def Mark.use : Mark → LockUse
  | .visitEnd _ => .never
  | _ => .free

/-- What a statement is to the mutex, in a part of a native that works on the handler `h`. -/
def Stmt.use (h : HandlerPtr) {β : Type} : Stmt β → LockUse
  | .lockMutex => .acquire
  | .unlockMutex => .release
  | .this p | .load p _ | .enter p _ | .access p _ => if p = h then .free else .never
  | .assign p a => if p = h then a.use else .never
  | .mysql_init _ | .leave _ _ _ | .onResult _ _ | .fieldName _ _ | .rowValue _ _ | .free _ | .Debug _ _
  | .setString _ _ | .setFloat _ _ => .free
  | .mark m => m.use
  | _ => .never

/-- A native works on one handler; it raises a fault itself when it has no text, or no room for it. -/
def onHandler (h : HandlerPtr) (nests : Prop) : Discipline Stmt Fault where
  use := Stmt.use h
  nests := nests
  raises e := e = .nullString ∨ e = .bufferOverflow

section

variable {h : HandlerPtr} {nests : Prop}

attribute [local simp] onHandler Stmt.use Assign.use Mark.use LockUse.Ready LockUse.after this load call access
  onResult assign lockMutex unlockMutex setString bind_bind ite_bind obeys_lift_bind obeys_ite

lemma connect_obeys (n : ℕ) : (connect h).Obeys (onHandler h nests) n n := by
  simp [connect]

lemma clearQueue_obeys {n : ℕ} (hn : 0 < n) : (clearQueue h).Obeys (onHandler h nests) n n := by
  simp [clearQueue, hn]

lemma freeResult_obeys (n : ℕ) : (freeResult h).Obeys (onHandler h nests) n n := by
  simp [freeResult]

lemma disconnect_obeys {n : ℕ} (hn : n = 0 ∨ nests) :
    (disconnect h).Obeys (onHandler h nests) n n := by
  simp [disconnect, closeConnection, clearQueue, hn]

lemma nextRow_obeys (n : ℕ) : (nextRow h).Obeys (onHandler h nests) n n := by
  simp [nextRow]

lemma insertValue_obeys (i n : ℕ) : (insertValue h i).Obeys (onHandler h nests) n n := by
  simp [insertValue]

lemma obeys_this_bind {n m : ℕ} {α : Type} {f : CMySQLHandler → Code α} :
    (this h >>= f).Obeys (onHandler h nests) n m ↔ ∀ x, (f x).Obeys (onHandler h nests) n m :=
  obeys_free_bind (by simp) f

lemma obeys_load_bind {n m : ℕ} {α : Type} {v : Member} {f : v.Val → Code α} :
    (load h v >>= f).Obeys (onHandler h nests) n m ↔ ∀ x, (f x).Obeys (onHandler h nests) n m :=
  obeys_free_bind (by simp) f

lemma obeys_assign_bind {n m : ℕ} {α : Type} {a : Assign} (ha : a.use = .free)
    {f : Unit → Code α} :
    (assign h a >>= f).Obeys (onHandler h nests) n m ↔ (f ()).Obeys (onHandler h nests) n m :=
  (obeys_free_bind ((if_pos rfl).trans ha) f).trans ⟨fun hf => hf (), fun hf _ => hf⟩

lemma rowText_obeys (n : ℕ) : (CMySQLHandler.rowText h).Obeys (onHandler h nests) n n := by
  rw [CMySQLHandler.rowText, obeys_load_bind]
  refine fun k => .bind (.forEach _ fun i => ?_) fun _ => by simp
  exact (insertValue_obeys i n).bind fun _ => by simp

lemma fetchRow_obeys (n : ℕ) : (fetchRow h).Obeys (onHandler h nests) n n := by
  rw [fetchRow, obeys_this_bind]
  intro x
  rw [obeys_ite, obeys_load_bind]
  refine ⟨fun _ => rfl, fun _ r => ?_⟩
  rw [obeys_ite]
  refine ⟨fun _ => rfl, fun _ => (nextRow_obeys n).bind fun row => ?_⟩
  rw [obeys_ite]
  exact ⟨fun _ => rowText_obeys n, fun _ => by simp⟩

lemma insertField_obeys (column : CString) (is : List ℕ) (n : ℕ) :
    (insertField h column is).Obeys (onHandler h nests) n n := by
  induction is with
  | nil => exact rfl
  | cons i is ih =>
    rw [insertField, obeys_load_bind]
    intro f
    rw [obeys_free_bind rfl]
    intro name
    rw [obeys_ite]
    exact ⟨fun _ => insertValue_obeys i n, fun _ => ih⟩

lemma fetchField_obeys (column : CString) (n : ℕ) :
    (fetchField h column).Obeys (onHandler h nests) n n := by
  rw [fetchField, obeys_this_bind]
  intro x
  rw [obeys_ite, obeys_load_bind]
  refine ⟨fun _ => rfl, fun _ f => ?_⟩
  rw [obeys_ite, obeys_load_bind]
  refine ⟨fun _ => rfl, fun _ r => ?_⟩
  rw [obeys_ite, obeys_load_bind]
  refine ⟨fun _ => rfl, fun _ k => ?_⟩
  exact (insertField_obeys column _ n).bind fun _ => by simp

lemma statistics_obeys (n : ℕ) : (statistics h).Obeys (onHandler h nests) n n := by
  rw [statistics, obeys_this_bind]
  intro x
  rw [obeys_ite]
  refine ⟨fun _ => .inl rfl, fun _ => .bind (l := n) (by simp) fun text => ?_⟩
  cases text with
  | none => exact .inl rfl
  | some text => exact rfl

/-- A native with a connection handle, other than `mysql_close`, obeys the discipline of its
handler. -/
lemma body_obeys {n : NativeCall} {c : Cell} (hc : n.connectionHandle = some c) (hn : n.Open) :
    ∃ f, body n = withHandle c f ∧ ∀ h, (f h).Obeys (onHandler h False) 0 0 := by
  cases n with
  | mysql_connect => cases hc
  | mysql_debug => cases hc
  | mysql_close => exact hn.elim
  | mysql_reconnect c' =>
    cases hc
    refine ⟨_, rfl, fun h => (disconnect_obeys (.inl rfl)).bind fun _ => ?_⟩
    rw [obeys_assign_bind rfl]
    exact (connect_obeys 0).bind fun _ => rfl
  | mysql_fetch_row_format _ _ c' =>
    cases hc
    refine ⟨_, rfl, fun h => (obeys_assign_bind rfl).mpr ?_⟩
    exact (fetchRow_obeys 0).bind fun r => by simp
  | mysql_fetch_field_row _ _ c' =>
    cases hc
    exact ⟨_, rfl, fun h => (fetchField_obeys _ 0).bind fun _ => by simp⟩
  | mysql_retrieve_row c' =>
    cases hc
    refine ⟨_, rfl, fun h => ?_⟩
    rw [retrieveRow, obeys_this_bind]
    intro x
    rw [obeys_ite, obeys_load_bind]
    refine ⟨fun _ => rfl, fun _ r => ?_⟩
    rw [obeys_ite]
    exact ⟨fun _ => rfl, fun _ => (nextRow_obeys 0).bind fun row => by simp⟩
  | mysql_stat _ c' =>
    cases hc
    exact ⟨_, rfl, fun h => (statistics_obeys 0).bind fun _ => by simp⟩
  | mysql_fetch_int c' =>
    cases hc
    refine ⟨_, rfl, fun h => (obeys_assign_bind rfl).mpr ?_⟩
    exact (fetchRow_obeys 0).bind fun r => by simp
  | mysql_fetch_float _ c' =>
    cases hc
    refine ⟨_, rfl, fun h => (obeys_assign_bind rfl).mpr ?_⟩
    exact (fetchRow_obeys 0).bind fun r => by simp
  | _ =>
    cases hc
    refine ⟨_, rfl, fun h => ?_⟩
    simp [oldQuery, enqueue, nonThreadedQuery, CMySQLHandler.query, setCharset, getCharset, insertId,
      freeResult, storeResult, escapeStr, Debug, fieldCount, reload, ping, numRows, numFields, affectedRows,
      warningCount, fetchFieldName]

end

/-! ### What the main thread owns -/

/-- The main thread has locked the mutex `n` times, and `R` holds of the table, of the handlers that
live and of the next one. -/
structure Owns (n : ℕ) (R : List HandlerPtr → Set HandlerPtr → HandlerPtr → Prop) (s : State) :
    Prop where
  locked : s.locked .main = times n
  registry : R s.SQLHandle s.live s.nextHandler
  stocked : Stocked s

section

variable {b : Build} {n m : ℕ} {R : List HandlerPtr → Set HandlerPtr → HandlerPtr → Prop}
  {s s' : State} {e : Event}

lemma stable_owns (n : ℕ) (R : List HandlerPtr → Set HandlerPtr → HandlerPtr → Prop) :
    Stable (movesRely .main) (Owns n R) := by
  refine stable_closedUnder fun s s' hmoves hs => ⟨hmoves.locked.trans hs.locked, ?_, ?_⟩
  · rw [hmoves.table, hmoves.live, hmoves.nextHandler]
    exact hs.registry
  · rw [Stocked, hmoves.table, hmoves.live, hmoves.locked]
    exact hs.stocked

lemma Owns.plain (hs : Owns n R s) {t : ThreadId} (heff : Effect t e s s') (he : e.Plain) :
    Owns n R s' where
  locked := (heff.locked he.keepsMutex).trans hs.locked
  registry := by
    rw [heff.plain_table he, heff.plain_live he, heff.plain_nextHandler he]
    exact hs.registry
  stocked := by
    rw [Stocked, heff.plain_table he, heff.plain_live he, heff.locked he.keepsMutex]
    exact hs.stocked

/-- An assignment to `queueData` leaves every handler alive. -/
lemma Owns.assign (hs : Owns n R s) {t : ThreadId} {h : HandlerPtr} {a : Assign}
    (heff : Effect t (.assign t h a) s s') : Owns n R s' := by
  have htable : s'.SQLHandle = s.SQLHandle := heff.table
  have hlocked : s'.locked .main = s.locked .main := heff.locked trivial
  have hlive : s'.live = s.live := by
    ext p
    have hheap : s'.heap p = if p = h then (s.heap p).map a.apply else s.heap p := heff.heap p
    simp only [State.live, Set.mem_ofPred_eq, hheap]
    split_ifs <;> simp
  refine ⟨hlocked.trans hs.locked, ?_, ?_⟩
  · rw [htable, hlive, heff.nextHandler]
    exact hs.registry
  · rw [Stocked, htable, hlive, hlocked]
    exact hs.stocked

lemma Owns.lock (hs : Owns n R s) {o : Except Fault Unit}
    (hst : (plugin b).Step .main .lockMutex s o s') :
    MainMoves s s' ∧ (o = .ok () → Owns (n + 1) R s') := by
  obtain ⟨r, -, hrun⟩ := hst
  have h : (Stmt.lockMutex).run b .main r s = some (o, s') := hrun
  obtain ⟨htable, hheap, hnext, -, hvisiting, hserving, hlocked⟩ := Build.lock_frame h
  have hlive : s'.live = s.live := by rw [State.live, hheap, State.live]
  have hstocked : Stocked s' := ⟨htable ▸ hs.stocked.1, fun hnone => absurd hnone hlocked⟩
  have hmoves : MainMoves s s' :=
    { locked := Stmt.run_locked (by simp) h
      visiting := hvisiting
      inHand := hserving
      stocked := fun _ => hstocked
      table := fun _ => by rw [htable]
      queue := fun _ p x hx => ⟨x, by rw [hheap, hx], rfl⟩ }
  refine ⟨hmoves, ?_⟩
  rintro rfl
  refine ⟨Build.lock_ok hs.locked h, ?_, hstocked⟩
  rw [htable, hlive, hnext]
  exact hs.registry

/-- The main thread unlocks the mutex for the last time only when every entry lives. -/
lemma Owns.unlock (hs : Owns (n + 1) R s)
    (hR : ∀ T L k, R T L k → T.length ≤ maxHandlers ∧ ∀ h ∈ T, h ∈ L) :
    MainMoves s (unlock .main s) ∧ Owns n R (unlock .main s) := by
  obtain ⟨htable, hheap, hnext, -, hvisiting, hserving⟩ := unlock_frame .main s
  have hlive : (MySQLPlugin.unlock .main s).live = s.live := by rw [State.live, hheap, State.live]
  have hregistry : R (MySQLPlugin.unlock .main s).SQLHandle (MySQLPlugin.unlock .main s).live
      (MySQLPlugin.unlock .main s).nextHandler := by
    rw [htable, hlive, hnext]
    exact hs.registry
  have hstocked : Stocked (MySQLPlugin.unlock .main s) :=
    ⟨(hR _ _ _ hregistry).1, fun _ => (hR _ _ _ hregistry).2⟩
  have hrun : (Stmt.unlockMutex).run .win32 .main {} s
      = some (.ok (), MySQLPlugin.unlock .main s) := rfl
  refine ⟨?_, locked_unlock hs.locked, hregistry, hstocked⟩
  exact
    { locked := Stmt.run_locked (by simp) hrun
      visiting := hvisiting
      inHand := hserving
      stocked := fun _ => hstocked
      table := fun _ => by rw [htable]
      queue := fun _ p x hx => ⟨x, by rw [hheap, hx], rfl⟩ }

/-- The registry lets the main thread unlock the mutex. -/
def Whole (R : List HandlerPtr → Set HandlerPtr → HandlerPtr → Prop) : Prop :=
  ∀ T L k, R T L k → T.length ≤ maxHandlers ∧ ∀ h ∈ T, h ∈ L

/-! ### Parts of natives that work on one handler -/

variable {D : Scope} {h : HandlerPtr} {nests : Prop}

/-- A native reports errors of statements that it executes itself. -/
lemma Assign.use_error {e : ErrorInfo} (ha : (Assign.errorCallback_push e).use.Ready nests n) :
    (Assign.errorCallback_push e).use = .free ∧ e.Synchronous := by
  rw [Assign.use] at ha ⊢
  split_ifs at ha ⊢ with he
  · exact ⟨rfl, he⟩
  · exact ha.elim

/-- What the discipline of a live handler allows is permitted. -/
lemma Owns.may (hs : Owns n R s) (hlive : h ∈ s.live) (hnests : nests → ¬ D.AllOpen) {β : Type}
    {a : Stmt β} (ha : (a.use h).Ready nests n) : a.May D .main s := by
  cases a with
  | lockMutex =>
    rintro (hmain | hopen)
    · cases hmain
    · obtain rfl : n = 0 := ha.resolve_right fun hn => hnests hn hopen
      exact hs.locked
  | unlockMutex =>
    refine ⟨?_, by simp⟩
    rw [hs.locked, times_ne_none]
    exact ha
  | this p =>
    by_cases hp : p = h
    · exact hp ▸ hlive
    · rw [Stmt.use, if_neg hp] at ha
      exact ha.elim
  | load p v =>
    by_cases hp : p = h
    · exact hp ▸ hlive
    · rw [Stmt.use, if_neg hp] at ha
      exact ha.elim
  | enter p f =>
    by_cases hp : p = h
    · exact ⟨hp ▸ hlive, by simp⟩
    · rw [Stmt.use, if_neg hp] at ha
      exact ha.elim
  | access p f =>
    by_cases hp : p = h
    · exact hp ▸ hlive
    · rw [Stmt.use, if_neg hp] at ha
      exact ha.elim
  | assign p a =>
    by_cases hp : p = h
    · rw [Stmt.use, if_pos hp] at ha
      refine ⟨hp ▸ hlive, fun hqueue => ?_, fun _ x _ => ?_, ?_, ?_⟩
      · rw [hs.locked, times_ne_none]
        cases a <;> first | exact hqueue.elim | exact ha | exact ha.elim
      · cases a <;> first | rfl | exact ha.elim
      · cases a with
        | errorCallback_push e => exact (Assign.use_error ha).2
        | _ => trivial
      · cases a <;> trivial
    · rw [Stmt.use, if_neg hp] at ha
      exact ha.elim
  | mark m => cases m <;> trivial
  | _ => trivial

/-- A statement that neither locks the mutex nor works on `queueData` leaves plain events. -/
lemma Stmt.use_plain {β : Type} {a : Stmt β} (ha : a.use h = .free) :
    a.Only .main fun e => e.Plain ∧ e.NoVisit := by
  cases a with
  | assign p a =>
    by_cases hp : p = h
    · rw [Stmt.use, if_pos hp] at ha
      cases a <;> first | exact ⟨id, trivial⟩ | cases ha
    · rw [Stmt.use, if_neg hp] at ha
      cases ha
  | mark m => cases m <;> first | exact ⟨trivial, trivial⟩ | cases ha
  | mysql_init p => exact fun _ => ⟨trivial, trivial⟩
  | enter p f => exact fun _ => ⟨trivial, trivial⟩
  | leave p c f => exact fun _ => ⟨trivial, trivial⟩
  | access p f => exact fun _ => ⟨trivial, trivial⟩
  | _ => trivial

/-- What such a statement does. -/
lemma Owns.step (hs : Owns n R s) (hR : Whole R) {β : Type} {a : Stmt β}
    (ha : (a.use h).Ready nests n) {o : Except Fault β} (hst : (plugin b).Step .main a s o s') :
    MainMoves s s' ∧ ∀ x, o = .ok x → Owns ((a.use h).after n) R s' := by
  have hfree (hfree : a.use h = .free) :
      MainMoves s s' ∧ ∀ x, o = .ok x → Owns ((a.use h).after n) R s' := by
    rw [hfree]
    rcases step_effect hst (Stmt.use_plain hfree) with rfl | ⟨e, ⟨he, hv⟩, heff⟩
    · exact ⟨.refl _, fun _ _ => hs⟩
    · exact ⟨heff.mainMoves he hv, fun _ _ => hs.plain heff he⟩
  cases a with
  | lockMutex => exact ⟨(hs.lock hst).1, fun x hx => (hs.lock hst).2 hx⟩
  | unlockMutex =>
    obtain ⟨r, -, hrun⟩ := hst
    cases hrun
    obtain ⟨k, rfl⟩ := Nat.exists_eq_add_one_of_ne_zero (Nat.ne_of_gt ha)
    exact ⟨(hs.unlock hR).1, fun x _ => (hs.unlock hR).2⟩
  | assign p a =>
    by_cases hp : p = h
    · by_cases hqueue : a.OnQueue
      · have hguarded : a.use = .guarded := by
          rw [Stmt.use, if_pos hp] at ha
          cases a <;> first | rfl | exact hqueue.elim | exact ha.elim
        rw [Stmt.use, if_pos hp, hguarded] at ha ⊢
        have honly : (Stmt.assign p a).Only .main (· = .assign .main p a) := rfl
        have hlocked : s.locked .main ≠ none := by
          rw [hs.locked, times_ne_none]
          exact ha
        rcases step_effect hst honly with rfl | ⟨e, rfl, heff⟩
        · exact ⟨.refl _, fun _ _ => hs⟩
        · refine ⟨heff.mainMoves_locked trivial trivial hlocked ?_, fun _ _ => hs.assign heff⟩
          rw [heff.table]
          exact Nat.le_refl _
      · refine hfree ?_
        rw [Stmt.use, if_pos hp] at ha ⊢
        cases a with
        | errorCallback_push e => exact (Assign.use_error ha).1
        | _ => first | rfl | exact absurd trivial hqueue | exact ha.elim
    · rw [Stmt.use, if_neg hp] at ha
      exact ha.elim
  | mark m => cases m <;> first | exact hfree rfl | exact ha.elim
  | _ =>
    first
    | exact hfree rfl
    | exact ha.elim
    | refine hfree ?_
      rw [Stmt.use] at ha ⊢
      split_ifs at ha ⊢ <;> first | rfl | exact ha.elim

variable {M : Machine Stmt Fault State ThreadId Reply}
  (hM : ∀ {t : ThreadId} {β : Type} {a : Stmt β} {s o s'}, M.Step t a s o s' →
    (plugin b).Step t a s o s')

include hM

/-- A part of a native that obeys the discipline of its handler. -/
lemma secures_onHandler (hR : Whole R) (hlive : ∀ T L k, R T L k → h ∈ L)
    (hnests : nests → ¬ D.AllOpen) {α : Type} {p : Code α}
    (hp : p.Obeys (onHandler h nests) n m) (hs : Owns n R s) :
    p.Secures M movesRely (policy D) .main (fun _ => Owns m R) s := by
  refine hp.secures (J := fun n => Owns n R) (fun n => stable_owns n R) (fun a n s ha hs => ?_)
    (fun a n s o s' ha hs hst => ?_) (fun e he => ?_) hs
  · exact hs.may (hlive _ _ _ hs.registry) hnests ha
  · obtain ⟨r, -, hrun⟩ := hM hst
    obtain ⟨hmoves, hnext⟩ := hs.step hR ha (hM hst)
    refine ⟨hmoves.guarantees, hnext, ?_⟩
    rintro e rfl
    exact (hs.may (hlive _ _ _ hs.registry) hnests ha).fails hrun
  · rcases he with rfl | rfl <;> simp [policy, Fault.Of]

end

/-! ### The registry of handlers -/

/-- The handlers that live are the entries of the table. -/
structure Listed (T : List HandlerPtr) (L : Set HandlerPtr) (k : HandlerPtr) : Prop where
  nodup : T.Nodup
  bounded : T.length ≤ maxHandlers
  live : ∀ p, p ∈ L ↔ p ∈ T
  issued : ∀ p ∈ T, p < k

/-- `mysql_connect` has made the handler `h`, which has no entry yet. -/
structure Building (h : HandlerPtr) (T : List HandlerPtr) (L : Set HandlerPtr) (k : HandlerPtr) :
    Prop where
  nodup : T.Nodup
  bounded : T.length < maxHandlers
  live : ∀ p, p ∈ L ↔ p = h ∨ p ∈ T
  issued : ∀ p ∈ T, p < h
  next : h < k

/-- `mysql_close` has deleted the handler `h`, whose entry at `i` is still there. -/
structure HalfClosed (i : ℕ) (h : HandlerPtr) (T : List HandlerPtr) (L : Set HandlerPtr)
    (k : HandlerPtr) : Prop where
  nodup : T.Nodup
  bounded : T.length ≤ maxHandlers
  entry : T[i]? = some h
  live : ∀ p, p ∈ L ↔ p ∈ T ∧ p ≠ h
  issued : ∀ p ∈ T, p < k

section

variable {T : List HandlerPtr} {L : Set HandlerPtr} {k h : HandlerPtr} {i : ℕ}

lemma Listed.new (hT : Listed T L k) (hlen : T.length < maxHandlers) :
    Building k T (insert k L) (k + 1) where
  nodup := hT.nodup
  bounded := hlen
  live p := by rw [Set.mem_insert_iff, hT.live]
  issued := hT.issued
  next := Nat.lt_succ_self k

lemma Building.push (hT : Building h T L k) : Listed (T ++ [h]) L k where
  nodup := by
    rw [List.nodup_append]
    refine ⟨hT.nodup, List.nodup_singleton h, fun p hp q hq => ?_⟩
    rw [List.mem_singleton.mp hq]
    exact Nat.ne_of_lt (hT.issued p hp)
  bounded := by
    rw [List.length_append, List.length_singleton]
    exact hT.bounded
  live p := by rw [hT.live, List.mem_append, List.mem_singleton, or_comm]
  issued p hp := by
    rcases List.mem_append.mp hp with hp | hp
    · exact Nat.lt_trans (hT.issued p hp) hT.next
    · rw [List.mem_singleton.mp hp]
      exact hT.next

lemma Listed.delete (hT : Listed T L k) (hi : T[i]? = some h) : HalfClosed i h T (L \ {h}) k where
  nodup := hT.nodup
  bounded := hT.bounded
  entry := hi
  live p := by rw [Set.mem_sdiff, Set.mem_singleton_iff, hT.live]
  issued := hT.issued

lemma HalfClosed.erase (hT : HalfClosed i h T L k) : Listed (T.eraseIdx i) L k where
  nodup := hT.nodup.eraseIdx i
  bounded := (List.eraseIdx_sublist T i).length_le.trans hT.bounded
  live p := by
    obtain ⟨hlt, hh⟩ := List.getElem?_eq_some_iff.mp hT.entry
    rw [hT.live, List.mem_eraseIdx_iff_getElem?]
    constructor
    · rintro ⟨hp, hne⟩
      obtain ⟨j, hj⟩ := List.mem_iff_getElem?.mp hp
      refine ⟨j, ?_, hj⟩
      rintro rfl
      exact hne (Option.some.inj (hj.symm.trans hT.entry))
    · rintro ⟨j, hj, hp⟩
      refine ⟨List.mem_of_getElem? hp, ?_⟩
      rintro rfl
      exact hj ((List.getElem?_inj hlt hT.nodup).mp (hT.entry.trans hp.symm)).symm
  issued p hp := hT.issued p (List.mem_of_mem_eraseIdx hp)

end

/-! ### What the natives leave alone -/

/-- The event calls no public, takes no outcome away and loads or unloads no script. -/
def Event.Mute : Event → Prop
  | .exec _ _ | .amxLoad _ | .amxUnload _ => False
  | .assign _ _ a => a ≠ .callbackData_pop ∧ a ≠ .errorCallback_pop
  | _ => True

lemma Event.OfNative.mute {e : Event} (he : e.OfNative) : e.Mute := by
  cases e with
  | assign t h a => constructor <;> (rintro rfl; exact he)
  | _ => trivial

lemma Effect.told_mute {t : ThreadId} {e : Event} {s s' : State} (heff : Effect t e s s')
    (he : e.Mute) : told s'.trace = told s.trace ∧ s'.p_Amx = s.p_Amx := by
  constructor
  · rw [heff.trace, told_concat]
    cases e with
    | assign u h a =>
      cases a with
      | callbackData_pop => exact absurd rfl he.1
      | errorCallback_pop => exact absurd rfl he.2
      | _ => cases u <;> rfl
    | exec a p => exact he.elim
    | _ => rfl
  · rw [heff.p_Amx]
    cases e <;> first | rfl | exact he.elim

section

attribute [local simp] Stmt.Only Event.Mute this load call access assign onResult lockMutex unlockMutex
  bind_bind ite_bind all_lift_bind all_ite

/-- No native calls a public; the scripts call the natives. -/
lemma native_mute (n : NativeCall) : (native n).All (Stmt.Only .main Event.Mute) := by
  by_cases hn : n.Open
  · exact all_only_mono (native_ofNative .main hn) fun _ => Event.OfNative.mute
  · cases n with
    | mysql_close c =>
      simp [native, body, nMysqlClose, clearQueue, destruct, freeResult, disconnect, closeConnection]
    | _ => exact absurd trivial hn

end

/-! ### The natives -/

/-- Between two natives the main thread does not hold the mutex. -/
def Consistent : State → Prop := Owns 0 Listed

section

variable {M : Machine Stmt Fault State ThreadId Reply} {b : Build} {D : Scope} {s : State}
  {h : HandlerPtr} {n : ℕ}
  {R R' : List HandlerPtr → Set HandlerPtr → HandlerPtr → Prop}

/-- An event of the main thread under the mutex. -/
lemma Owns.event (hs : Owns (n + 1) R s) {s' : State} {e : Event} (heff : Effect .main e s s')
    (he : e.KeepsMutex) (hv : e.NoVisit) (htable : s'.SQLHandle.length ≤ s.SQLHandle.length)
    (hR : R' s'.SQLHandle s'.live s'.nextHandler) : MainMoves s s' ∧ Owns (n + 1) R' s' := by
  have hlocked : s.locked .main ≠ none := by simp [hs.locked, times]
  have hmoves : MainMoves s s' := heff.mainMoves_locked he hv hlocked htable
  exact ⟨hmoves, (heff.locked he).trans hs.locked, hR, hmoves.stocked hs.stocked⟩

/-- A new handler lives, and has no entry. -/
lemma Consistent.new (hs : Consistent s) {s' : State} {host user db pass : CString} {port : Cell}
    (heff : Effect .main (.new h host user pass db port) s s') :
    MainMoves s s' ∧ Owns 0 (Building h) s' := by
  obtain ⟨rfl, hlen⟩ := heff.occurs
  have htable : s'.SQLHandle = s.SQLHandle := heff.table
  have hlocked : ∀ u, s'.locked u = s.locked u := fun u => heff.locked trivial
  have hlive : s'.live = insert s.nextHandler s.live := by
    ext p
    have hheap := heff.heap p
    rw [Event.onObject] at hheap
    show s'.heap p ≠ none ↔ p ∈ insert s.nextHandler s.live
    rw [hheap, Set.mem_insert_iff]
    split_ifs with hp <;> simp [State.live, hp]
  have hbuilding : Building s.nextHandler s'.SQLHandle s'.live s'.nextHandler := by
    rw [htable, hlive, show s'.nextHandler = s.nextHandler + 1 from heff.nextHandler]
    exact hs.registry.new hlen
  have hstocked : Stocked s' :=
    ⟨hbuilding.bounded.le, fun _ p hp => (hbuilding.live p).mpr (.inr hp)⟩
  refine ⟨?_, (hlocked .main).trans hs.locked, hbuilding, hstocked⟩
  exact
    { locked := hlocked .worker
      visiting := heff.visiting trivial
      inHand := heff.inHand_main
      stocked := fun _ => hstocked
      table := fun _ => by rw [htable]
      queue := fun _ p x hx => by
        have hp : p ∈ s.SQLHandle := (hs.registry.live p).mp (by simp [State.live, hx])
        have hne : p ≠ s.nextHandler := Nat.ne_of_lt (hs.registry.issued p hp)
        refine ⟨x, ?_, rfl⟩
        rw [heff.heap p, Event.onObject, if_neg hne, hx] }

/-- The new handler gets its entry. -/
lemma Owns.push (hs : Owns 0 (Building h) s) {s' : State}
    (heff : Effect .main (.pushBack h) s s') : MainMoves s s' ∧ Consistent s' := by
  have htable : s'.SQLHandle = s.SQLHandle ++ [h] := heff.table
  have hlocked : ∀ u, s'.locked u = s.locked u := fun u => heff.locked trivial
  have hheap : ∀ p, s'.heap p = s.heap p := heff.heap
  have hlive : s'.live = s.live := by
    ext p
    simp [State.live, hheap]
  have hregistered : Listed s'.SQLHandle s'.live s'.nextHandler := by
    rw [htable, hlive, show s'.nextHandler = s.nextHandler from heff.nextHandler]
    exact hs.registry.push
  have hstocked : Stocked s' :=
    ⟨hregistered.bounded, fun _ p hp => (hregistered.live p).mpr hp⟩
  refine ⟨?_, (hlocked .main).trans hs.locked, hregistered, hstocked⟩
  exact
    { locked := hlocked .worker
      visiting := heff.visiting trivial
      inHand := heff.inHand_main
      stocked := fun _ => hstocked
      table := fun _ => htable ▸ List.prefix_append _ _
      queue := fun _ p x hx => ⟨x, (hheap p).trans hx, rfl⟩ }

/-- The handler whose connection is closed. -/
lemma Owns.delete {i : ℕ} (hs : Owns (n + 1) (fun T L k => Listed T L k ∧ T[i]? = some h) s)
    {s' : State} (heff : Effect .main (.delete h) s s') :
    MainMoves s s' ∧ Owns (n + 1) (HalfClosed i h) s' := by
  have htable : s'.SQLHandle = s.SQLHandle := heff.table
  have hlive : s'.live = s.live \ {h} := by
    ext p
    have hheap : s'.heap p = if p = h then none else s.heap p := heff.heap p
    show s'.heap p ≠ none ↔ p ∈ s.live \ {h}
    rw [hheap, Set.mem_sdiff, Set.mem_singleton_iff]
    split_ifs with hp <;> simp [State.live, hp]
  refine hs.event heff trivial trivial (by rw [htable]) ?_
  rw [htable, hlive, show s'.nextHandler = s.nextHandler from heff.nextHandler]
  exact hs.registry.1.delete hs.registry.2

/-- The entry of the deleted handler. -/
lemma Owns.erase {i : ℕ} (hs : Owns (n + 1) (HalfClosed i h) s) {s' : State} {p : HandlerPtr}
    (heff : Effect .main (.erase i p) s s') : MainMoves s s' ∧ Owns (n + 1) Listed s' := by
  have htable : s'.SQLHandle = s.SQLHandle.eraseIdx i := heff.table
  have hheap : ∀ p, s'.heap p = s.heap p := heff.heap
  have hlive : s'.live = s.live := by
    ext p
    simp [State.live, hheap]
  refine hs.event heff trivial trivial (htable ▸ (List.eraseIdx_sublist _ i).length_le) ?_
  rw [htable, hlive, show s'.nextHandler = s.nextHandler from heff.nextHandler]
  exact hs.registry.erase

lemma whole_listed {P : List HandlerPtr → Set HandlerPtr → HandlerPtr → Prop} :
    Whole fun T L k => Listed T L k ∧ P T L k :=
  fun _ _ _ hR => ⟨hR.1.bounded, fun p hp => (hR.1.live p).mpr hp⟩

variable (hM : ∀ {t : ThreadId} {β : Type} {a : Stmt β} {s o s'}, M.Step t a s o s' →
  (plugin b).Step t a s o s')

include hM

lemma secures_withHandle {c : Cell} {f : HandlerPtr → Code Cell}
    (hf : ∀ h s, Owns 0 (fun T L k => Listed T L k ∧ T[(c - 1).toNat]? = some h) s →
      (f h).Secures M movesRely (policy D) .main (fun _ => Consistent) s) (hs : Consistent s) :
    (withHandle c f).Secures M movesRely (policy D) .main (fun _ => Consistent) s := by
  refine secures_size hM (stable_owns 0 Listed) hs fun s hs => ?_
  split_ifs with hlen
  · exact secures_ret (stable_owns 0 Listed) hs
  · have hs' : Owns 0 (fun T L k => Listed T L k ∧ (c - 1).toNat < T.length) s :=
      { hs with registry := ⟨hs.registry, Nat.lt_of_not_le hlen⟩ }
    refine secures_at hM (stable_owns _ _) hs' (fun s hs _ => hs.registry.2) fun h s hs hh => ?_
    exact hf h s { hs with registry := ⟨hs.registry.1, hh⟩ }

/-- A native with a connection handle, other than `mysql_close`. -/
lemma body_secures {n : NativeCall} {c : Cell} (hc : n.connectionHandle = some c) (hn : n.Open)
    (hs : Consistent s) :
    (body n).Secures M movesRely (policy D) .main (fun _ => Consistent) s := by
  obtain ⟨f, hbody, hf⟩ := body_obeys hc hn
  rw [hbody]
  refine secures_withHandle hM (fun h s hs => ?_) hs
  have hobeys : (f h).Obeys (onHandler h False) 0 0 := hf h
  have hsecures := secures_onHandler (D := D) hM (R := fun T L k => Listed T L k ∧
      T[(c - 1).toNat]? = some h) whole_listed
    (fun T L k hR => (hR.1.live h).mpr (List.mem_of_getElem? hR.2)) (fun hno => hno.elim) hobeys hs
  exact hsecures.mono fun _ s hs => { hs with registry := hs.registry.1 }

lemma append_secures (host user db pass : CString) (port : Cell) (hs : Consistent s) :
    (append host user db pass port).Secures M movesRely (policy D) .main (fun _ => Consistent) s := by
  rw [append, construct, bind_bind]
  have hobeys (h : HandlerPtr) : (connect h).Obeys (onHandler h False) 0 0 := connect_obeys 0
  have hconnect (h : HandlerPtr) {s : State} (hs : Owns 0 (Building h) s) :
      (connect h).Secures M movesRely (policy D) .main (fun _ => Owns 0 (Building h)) s :=
    secures_onHandler hM (fun T L k hT => ⟨hT.bounded.le, fun p hp => (hT.live p).mpr (.inr hp)⟩)
      (fun T L k hT => (hT.live h).mpr (.inl rfl)) (fun hno => hno.elim) (hobeys h) hs
  refine secures_stmt hM (stable_owns 0 Listed) hs (fun _ _ => rfl)
    (fun o s₁ s₂ hs₁ hst => ?_) fun h s₁ s₂ hs₁ hst => ?_
  · have honly : (Stmt.new host user pass db port).Only .main
        fun e => ∃ h, e = .new h host user pass db port := fun h => ⟨h, rfl⟩
    rcases step_effect (hM hst) honly with rfl | ⟨e, ⟨h, rfl⟩, heff⟩
    · exact (MainMoves.refl _).guarantees
    · exact (Consistent.new hs₁ heff).1.guarantees
  · rw [bind_bind]
    refine .bind ((hconnect h (Consistent.new hs₁ (step_new (hM hst))).2).mono fun _ s hs => ?_)
    refine secures_records (P := (· = .pushBack h)) hM trivial rfl (stable_owns 0 (Building h)) hs
      (fun _ _ => rfl) fun e s₁ s₂ he hs₁ heff => ?_
    subst he
    refine ⟨(hs₁.push heff).1.guarantees, fun _ => ?_⟩
    exact secures_size hM (stable_owns 0 Listed) (hs₁.push heff).2 fun s hs =>
      secures_ret (stable_owns 0 Listed) hs

/-- The search of `mysql_connect` for a handler with the same parameters. -/
lemma reuse_secures (host user db pass : CString) (port : Cell) (hs : List HandlerPtr) (i : ℕ)
    (hcalm : Owns 0 (fun T L k => Listed T L k ∧ ∀ p ∈ hs, p ∈ L) s) :
    (reuse host user db pass port hs i).Secures M movesRely (policy D) .main (fun _ => Consistent) s := by
  induction hs generalizing i s with
  | nil => exact secures_ret (stable_owns 0 Listed) { hcalm with registry := hcalm.registry.1 }
  | cons h hs ih =>
    refine secures_this hM (stable_owns _ _) hcalm
      (fun s hs => hs.registry.2 h (List.mem_cons_self ..)) fun x s hcalm _ => ?_
    split_ifs
    · have hobeys : (do
          assign h (.m_bIsConnected false)
          let _ ← connect h
          pure (some i) : Code (Option ℕ)).Obeys (onHandler h False) 0 0 :=
        (obeys_assign_bind rfl).mpr ((connect_obeys 0).bind fun _ => rfl)
      refine (secures_onHandler hM (R := fun T L k => Listed T L k ∧ ∀ p ∈ h :: hs, p ∈ L)
        whole_listed
        (fun T L k hR => hR.2 h (List.mem_cons_self ..)) (fun hno => hno.elim) hobeys hcalm).mono ?_
      exact fun _ s hs => { hs with registry := hs.registry.1 }
    · refine ih (i + 1) { hcalm with registry := ⟨hcalm.registry.1, fun p hp => ?_⟩ }
      exact hcalm.registry.2 p (List.mem_cons_of_mem h hp)

lemma nMysqlConnect_secures (host user db pass : CString) (port : Cell) (hs : Consistent s) :
    (nMysqlConnect host user db pass port).Secures M movesRely (policy D) .main (fun _ => Consistent) s := by
  have hstable := stable_owns 0 Listed
  refine secures_size hM hstable hs fun s hs => ?_
  split_ifs
  · refine secures_read hM trivial hstable hs (fun _ _ => trivial) fun T s s' hs hst _ => ?_
    obtain ⟨-, rfl⟩ := step_table (hM hst)
    have hlive : Owns 0 (fun T L k => Listed T L k ∧ ∀ p ∈ s.SQLHandle, p ∈ L) s :=
      { hs with registry := ⟨hs.registry, fun p hp => (hs.registry.live p).mpr hp⟩ }
    refine .bind ((reuse_secures hM host user db pass port s.SQLHandle 0 hlive).mono
      fun o s hs => ?_)
    cases o with
    | none => exact append_secures hM host user db pass port hs
    | some i => exact secures_ret hstable hs
  · exact append_secures hM host user db pass port hs

/-- The destructor frees the result, closes the connection and deletes the handler. -/
lemma destruct_secures {i : ℕ} (hD : ¬ D.AllOpen) {α : Type} {f : Unit → Code α}
    {Q : α → State → Prop}
    (hf : ∀ s, Owns 1 (HalfClosed i h) s → (f ()).Secures M movesRely (policy D) .main Q s)
    (hs : Owns 1 (fun T L k => Listed T L k ∧ T[i]? = some h) s) :
    (destruct h >>= f).Secures M movesRely (policy D) .main Q s := by
  have hobeys : (do
      let _ ← freeResult h
      disconnect h : Code Unit).Obeys (onHandler h True) 1 1 :=
    (freeResult_obeys 1).bind fun _ => disconnect_obeys (.inr trivial)
  have hparts : (destruct h >>= f) = (do
      let _ ← freeResult h
      disconnect h) >>= fun _ => Prog.lift (.delete h) >>= f := by
    simp only [destruct, bind_bind]
  rw [hparts]
  refine .bind ((secures_onHandler hM whole_listed
    (fun T L k hR => (hR.1.live h).mpr (List.mem_of_getElem? hR.2)) (fun _ => hD) hobeys hs).mono
    fun _ s hs => ?_)
  refine secures_records (P := (· = .delete h)) hM trivial rfl (stable_owns _ _) hs
    (fun s hs => ⟨hD, ?_, (hs.registry.1.live h).mpr (List.mem_of_getElem? hs.registry.2)⟩)
    fun e s₁ s₂ he hs₁ heff => ?_
  · simp [hs.locked, times]
  · subst he
    exact ⟨(hs₁.delete heff).1.guarantees, fun _ => hf _ (hs₁.delete heff).2⟩

lemma nMysqlClose_secures (c : Cell) (hD : ¬ D.AllOpen) (hs : Consistent s) :
    (nMysqlClose c).Secures M movesRely (policy D) .main (fun _ => Consistent) s := by
  refine secures_size hM (stable_owns 0 Listed) hs fun s hs => ?_
  split_ifs with hlen
  · exact secures_ret (stable_owns 0 Listed) hs
  have hwithin : Owns 0 (fun T L k => Listed T L k ∧ (c - 1).toNat < T.length) s :=
    { hs with registry := ⟨hs.registry, Nat.lt_of_not_le hlen⟩ }
  refine secures_stmt hM (stable_owns _ _) hwithin (fun s hs => ?_) (fun o s₁ s₂ hs₁ hst => ?_)
    fun _ s₁ s₂ hs₁ hst => ?_
  · rintro (hmain | hopen)
    · cases hmain
    · exact absurd hopen hD
  · exact (hs₁.lock (hM hst)).1.guarantees
  have hlocked : Owns 1 (fun T L k => Listed T L k ∧ (c - 1).toNat < T.length) s₂ :=
    (hs₁.lock (hM hst)).2 rfl
  refine secures_at hM (stable_owns _ _) hlocked (fun s hs _ => hs.registry.2) fun h s hs hh => ?_
  have hentry : Owns 1 (fun T L k => Listed T L k ∧ T[(c - 1).toNat]? = some h) s :=
    { hs with registry := ⟨hs.registry.1, hh⟩ }
  have hobeys : (clearQueue h).Obeys (onHandler h False) 1 1 := clearQueue_obeys Nat.one_pos
  refine .bind ((secures_onHandler hM whole_listed
    (fun T L k hR => (hR.1.live h).mpr (List.mem_of_getElem? hR.2)) (fun hno => hno.elim) hobeys
    hentry).mono fun _ s hs => ?_)
  refine secures_at hM (stable_owns _ _) hs
    (fun s hs _ => (List.getElem?_eq_some_iff.mp hs.registry.2).1) fun h' s hs hh' => ?_
  obtain rfl : h = h' := Option.some.inj (hs.registry.2.symm.trans hh')
  refine destruct_secures hM hD (fun s hs => ?_) hs
  refine secures_records (P := fun e => ∃ p, e = .erase (c - 1).toNat p) hM trivial
    (fun p => ⟨p, rfl⟩) (stable_owns _ _) hs (fun s hs => ⟨?_, ?_, fun p hp => ?_⟩)
    fun e s₁ s₂ he hs₁ heff => ?_
  · simp [hs.locked, times]
  · exact (List.getElem?_eq_some_iff.mp hs.registry.entry).1
  · obtain rfl : h = p := Option.some.inj (hs.registry.entry.symm.trans hp)
    by_contra hlive
    exact ((hs.registry.live h).mp hlive).2 rfl
  obtain ⟨p, rfl⟩ := he
  refine ⟨(hs₁.erase heff).1.guarantees, fun _ => ?_⟩
  have hunlock {s s' : State} {o : Except Fault Unit} (hs : Owns 1 Listed s)
      (hst : M.Step .main .unlockMutex s o s') : MainMoves s s' ∧ Consistent s' := by
    obtain ⟨r, -, hrun⟩ := hM hst
    cases hrun
    exact hs.unlock fun T L k hT => ⟨hT.bounded, fun p hp => (hT.live p).mpr hp⟩
  refine secures_stmt hM (stable_owns 1 Listed) (hs₁.erase heff).2 (fun s hs => ?_)
    (fun o s₁ s₂ hs₁ hst => (hunlock hs₁ hst).1.guarantees) fun _ s₁ s₂ hs₁ hst => ?_
  · exact ⟨by simp [hs.locked, times], by simp⟩
  · exact secures_ret (stable_owns 0 Listed) (hunlock hs₁ hst).2

/-- A native, recorded in the trace. -/
lemma native_secures {n : NativeCall} (hn : D.AllOpen → n.Open) (hs : Consistent s) :
    (native n).Secures M movesRely (policy D) .main (fun _ => Consistent) s := by
  have hstable := stable_owns 0 Listed
  have hmark {m : Mark} (hm : (Event.mark m).NoVisit) {α : Type} {f : Unit → Code α}
      {Q : α → State → Prop} {s : State} (hs : Consistent s)
      (hf : ∀ s, Consistent s → (f ()).Secures M movesRely (policy D) .main Q s) :
      (Prog.lift (.mark m) >>= f).Secures M movesRely (policy D) .main Q s := by
    have hmay (s : State) : (Stmt.mark m).May D .main s := by
      cases m <;> trivial
    refine secures_records (P := (· = .mark m)) hM trivial rfl hstable hs (fun s _ => hmay s)
      fun e s₁ s₂ he hs₁ heff => ?_
    subst he
    exact ⟨(heff.mainMoves trivial hm).guarantees, fun _ => hf s₂ (hs₁.plain heff trivial)⟩
  have hbody {s : State} (hs : Consistent s) :
      (body n).Secures M movesRely (policy D) .main (fun _ => Consistent) s := by
    cases n with
    | mysql_connect host user db pass port => exact nMysqlConnect_secures hM host user db pass port hs
    | mysql_close c => exact nMysqlClose_secures hM c (fun hopen => hn hopen) hs
    | mysql_debug enable =>
      refine secures_records (P := (· = .setDebugging (enable ≠ 0))) hM trivial rfl hstable hs
        (fun _ _ => trivial) fun e s₁ s₂ he hs₁ heff => ?_
      subst he
      exact ⟨(heff.mainMoves trivial trivial).guarantees, fun _ => secures_ret hstable (hs₁.plain heff trivial)⟩
    | _ => exact body_secures hM rfl trivial hs
  have hcall : (Event.mark (.call n)).NoVisit := trivial
  refine hmark hcall hs fun s hs => .bind ((hbody hs).mono fun r s hs => ?_)
  have hreturn : (Event.mark (.return n r)).NoVisit := trivial
  exact hmark hreturn hs fun s hs => secures_ret hstable hs

/-- What the publics have been called for does not change during a native. -/
lemma native_told {n : NativeCall} (hn : D.AllOpen → n.Open) {l : List Amx} {c : List (Amx × Public)}
    (hs : Consistent s ∧ s.p_Amx = l ∧ told s.trace = c) :
    (native n).Secures M movesRely (policy D) .main
      (fun _ s => Consistent s ∧ s.p_Amx = l ∧ told s.trace = c) s := by
  refine (native_secures hM hn hs.1).frame (native_mute n) (stable_closedUnder fun s s' hmoves hs => ?_)
    (fun a s o s' ha _ hs hst => ?_) hs.2
  · exact ⟨hmoves.p_Amx.trans hs.1, hmoves.told.trans hs.2⟩
  · rcases step_effect (hM hst) ha with rfl | ⟨e, he, heff⟩
    · exact hs
    · obtain ⟨htold, hscripts⟩ := heff.told_mute he
      exact ⟨hscripts.trans hs.1, htold.trans hs.2⟩

end

end MySQLPlugin
