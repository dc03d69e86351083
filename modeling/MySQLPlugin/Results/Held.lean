import MySQLPlugin.Connections.Owned
import MySQLPlugin.Logic.Views

/-!
# Stored results and their handlers

`mysql_store_result` hands out a result set and `mysql_free_result` ends its life. The handlers hold
the sets that are alive in `m_stResult`, as long as no path overwrites or drops the pointer to one.
-/

namespace MySQLPlugin

open Threads Dispatch Prog CMySQLHandler Natives

/-! ### Result sets -/

/-- The result set that the handler holds. -/
def State.result (s : State) (h : HandlerPtr) : Option ResPtr :=
  (s.heap h).bind (·.result)

/-- The result sets that have been stored and not freed. -/
def State.stored (s : State) : Set ResPtr := {p | (s.lib.live p).isSome}

lemma State.mem_stored {s : State} {p : ResPtr} : p ∈ s.stored ↔ (s.lib.live p).isSome := Iff.rfl

/-- The result set that the event frees. -/
def Event.frees : Event → Option ResPtr
  | .onResult _ r .mysql_free_result => r
  | _ => none

/-- The result sets that have been passed to `mysql_free_result`, in this order. -/
def freeings (es : List Event) : List ResPtr := es.filterMap Event.frees

/-- The handlers that exist hold exactly the result sets alive, each of them one, and no result set
has been freed twice. -/
structure Retained (s : State) : Prop where
  custody : Custody s.result s.stored
  released : Released (freeings s.trace) s.stored (Set.Iio s.lib.nextRes)
  used : ∀ p ∈ s.stored, p < s.lib.nextRes
  fresh : ∀ h, s.nextHandler ≤ h → s.heap h = none

/-- No result set has been freed twice. -/
def FreedOnce (s : State) : Prop := ∀ p, (freeings s.trace).count p ≤ 1

lemma Retained.once {s : State} (hs : Retained s) : FreedOnce s := hs.released.once

/-- The event neither stores nor frees a result set and changes no pointer to one. -/
def Event.SparesResults : Event → Prop
  | .new _ _ _ _ _ _ | .delete _ | .leave _ _ .mysql_store_result _ _
  | .onResult _ _ .mysql_free_result | .assign _ _ (.m_stResult _) => False
  | _ => True

lemma Event.SparesResults.keeps {e : Event} (he : e.SparesResults) : e.KeepsResults := by
  cases e with
  | onResult u r f => cases f <;> first | exact he.elim | trivial
  | leave u h f c ok => cases f <;> first | exact he.elim | trivial
  | _ => trivial

lemma Event.SparesResults.frees {e : Event} (he : e.SparesResults) : e.frees = none := by
  cases e with
  | onResult u r f => cases f <;> first | exact he.elim | rfl
  | _ => rfl

lemma Event.Looks.sparesResults {e : Event} (he : e.Looks) : e.SparesResults := by
  cases e with
  | assign u h a => cases a <;> first | exact he.elim | trivial
  | leave u h f c ok => cases f <;> first | exact he.elim | trivial
  | onResult u r f => cases f <;> first | exact he.elim | trivial
  | _ => first | exact he.elim | trivial

lemma Event.OfServer.sparesResults {e : Event} (he : e.OfServer) : e.SparesResults := by
  cases e with
  | assign u h a => cases u <;> cases a <;> first | exact he.elim | trivial
  | _ => first | exact he.elim | trivial

lemma Event.Clears.sparesResults {e : Event} (he : e.Clears) : e.SparesResults := by
  cases e with
  | assign u h a => cases a <;> first | exact he.elim | trivial
  | _ => first | exact he.elim | trivial

section

variable {t : ThreadId} {e : Event} {s s' : State} {h : HandlerPtr}

lemma Effect.stored (heff : Effect t e s s') (he : e.KeepsResults) : s'.stored = s.stored :=
  Set.ext fun p => by rw [State.mem_stored, State.mem_stored, (heff.results he).2 p]

lemma Effect.result (heff : Effect t e s s') (he : e.SparesResults) : s'.result = s.result := by
  funext p
  rw [State.result, State.result, heff.heap p]
  cases e with
  | new => exact he.elim
  | delete => exact he.elim
  | assign u q a =>
    simp only [Event.onObject]
    split_ifs with hp
    · cases a <;> first | exact he.elim | (cases s.heap p <;> rfl)
    · rfl
  | _ => rfl

lemma Effect.result_assign {o : Option ResPtr} (heff : Effect t (.assign t h (.m_stResult o)) s s') :
    s'.result = Function.update s.result h o := by
  obtain ⟨x, hx, hx'⟩ := heff.assigned
  funext p
  by_cases hp : p = h
  · subst hp
    simp [State.result, hx', Assign.apply, CMySQLHandler.result]
  · rw [Function.update_of_ne hp, State.result, State.result, heff.heap p, Event.onObject, if_neg hp]

lemma Effect.freeings (heff : Effect t e s s') :
    freeings s'.trace = freeings s.trace ++ e.frees.toList := by
  rw [MySQLPlugin.freeings, heff.trace, List.filterMap_append]
  cases hf : e.frees <;> simp [hf, MySQLPlugin.freeings]

lemma FreedOnce.spares (hs : FreedOnce s) (heff : Effect t e s s') (he : e.frees = none) :
    FreedOnce s' := by
  intro p
  rw [heff.freeings, he, Option.toList_none, List.append_nil]
  exact hs p

/-- An event that frees nothing and keeps who holds what. -/
lemma Retained.same (hs : Retained s) (heff : Effect t e s s') (hresult : s'.result = s.result)
    (he : e.KeepsResults) (hfrees : e.frees = none) : Retained s' := by
  have hstored := heff.stored he
  have hnext := (heff.results he).1
  refine ⟨?_, ?_, ?_, heff.fresh hs.fresh⟩
  · rw [hresult, hstored]
    exact hs.custody
  · rw [heff.freeings, hfrees, hstored, hnext, Option.toList_none, List.append_nil]
    exact hs.released
  · rw [hstored, hnext]
    exact hs.used

lemma Retained.spares (hs : Retained s) (heff : Effect t e s s') (he : e.SparesResults) : Retained s' :=
  hs.same heff (heff.result he) he.keeps he.frees

/-- A new object holds no result set. -/
lemma Retained.new {host user passw db : CString} {port : BitVec 32} (hs : Retained s)
    (heff : Effect t (.new h host user passw db port) s s') : Retained s' := by
  have hh : h = s.nextHandler := heff.occurs.1
  refine hs.same heff (funext fun p => ?_) trivial rfl
  rw [State.result, State.result, heff.heap p, Event.onObject]
  split_ifs with hp
  · rw [hs.fresh p (hp ▸ hh ▸ le_refl _)]
    rfl
  · rfl

/-- An object that holds no result set is ended. -/
lemma Retained.delete (hs : Retained s) (heff : Effect t (.delete h) s s') (hnone : s.result h = none) :
    Retained s' := by
  refine hs.same heff (funext fun p => ?_) trivial rfl
  rw [State.result, heff.heap p, Event.onObject]
  split_ifs with hp
  · rw [hp, hnone]
    rfl
  · rfl

/-- The pointer of a handler is set, while the other objects of libmysql stay. -/
lemma Retained.assigned {s₁ : State} {o : Option ResPtr}
    (hassign : Effect t (.assign t h (.m_stResult o)) s₁ s') (hresult : s₁.result = s.result) :
    s'.result = Function.update s.result h o ∧ s'.stored = s₁.stored ∧
      s'.lib.nextRes = s₁.lib.nextRes ∧ MySQLPlugin.freeings s'.trace = MySQLPlugin.freeings s₁.trace := by
  refine ⟨by rw [hassign.result_assign, hresult], hassign.stored trivial,
    (hassign.results trivial).1, ?_⟩
  rw [hassign.freeings]
  exact List.append_nil _

end

section

variable {b : Build} {t : ThreadId} {s s₁ s₂ : State} {h : HandlerPtr}

/-- A handler without a result set stores one, or none. -/
lemma Retained.store {c : ConnPtr} {o : Option ResPtr} (hs : Retained s)
    (hst : (plugin b).Step t (.leave h c .mysql_store_result) s (.ok o) s₁)
    (hassign : Effect t (.assign t h (.m_stResult o)) s₁ s₂) (hnone : s.result h = none) :
    Retained s₂ ∧ s₂.result = Function.update s.result h o := by
  obtain ⟨ok, hleave⟩ := step_leave hst
  have hresult₁ : s₁.result = s.result := by
    funext p
    rw [State.result, State.result, hleave.heap p]
    rfl
  obtain ⟨hresult, hstored, hnext, hfrees⟩ := Retained.assigned hassign hresult₁
  replace hfrees : freeings s₂.trace = freeings s.trace := by
    rw [hfrees, hleave.freeings]
    exact List.append_nil _
  have hfresh := hassign.fresh (hleave.fresh hs.fresh)
  refine ⟨?_, hresult⟩
  obtain ⟨r, -, hrun⟩ := hst
  cases hrows : r.rows with
  | none =>
    simp only [plugin, Stmt.run, Libmysql.answer, hrows] at hrun
    cases hrun
    rw [← hnone, Function.update_eq_self] at hresult
    replace hstored : s₂.stored = s.stored := hstored
    replace hnext : s₂.lib.nextRes = s.lib.nextRes := hnext
    refine ⟨?_, ?_, ?_, hfresh⟩
    · rw [hresult, hstored]
      exact hs.custody
    · rw [hfrees, hstored, hnext]
      exact hs.released
    · rw [hstored, hnext]
      exact hs.used
  | some set =>
    simp only [plugin, Stmt.run, Libmysql.answer, hrows] at hrun
    cases hrun
    replace hnext : s₂.lib.nextRes = s.lib.nextRes + 1 := hnext
    replace hstored : s₂.stored = insert s.lib.nextRes s.stored := by
      ext q
      rw [hstored, State.mem_stored, Set.mem_insert_iff, State.mem_stored]
      simp only [State.record_lib, State.setInCall_lib, Libmysql.live_newResult,
        Libmysql.live_modifyConn, Libmysql.modifyConn_nextRes]
      by_cases hq : q = s.lib.nextRes <;> simp [hq]
    have hnew : s.lib.nextRes ∉ s.stored := fun hmem => Nat.lt_irrefl _ (hs.used _ hmem)
    have hused : Set.Iio (s.lib.nextRes + 1) = insert s.lib.nextRes (Set.Iio s.lib.nextRes) := by
      ext q
      rw [Set.mem_Iio, Set.mem_insert_iff, Set.mem_Iio, Nat.lt_succ_iff_lt_or_eq, or_comm]
    refine ⟨?_, ?_, fun q hq => ?_, hfresh⟩
    · rw [hresult, hstored]
      exact hs.custody.take hnone hnew
    · rw [hfrees, hstored, hnext, hused]
      exact hs.released.take fun hmem => Nat.lt_irrefl _ hmem
    · rw [hstored] at hq
      rw [hnext]
      rcases hq with rfl | hq
      · exact Nat.lt_succ_self _
      · exact Nat.lt_succ_of_lt (hs.used q hq)

/-- The handler frees the result set that it holds. -/
lemma Retained.free {p : ResPtr} {u : Unit} (hs : Retained s) (hp : s.result h = some p)
    (hst : (plugin b).Step t (.onResult (some p) .mysql_free_result) s (.ok u) s₁)
    (hassign : Effect t (.assign t h (.m_stResult none)) s₁ s₂) :
    Retained s₂ ∧ s₂.result = Function.update s.result h none := by
  have hmem : p ∈ s.stored := (hs.custody.live_iff p).mpr ⟨h, hp⟩
  obtain ⟨x, hx⟩ := Option.isSome_iff_exists.mp hmem
  obtain ⟨e, rfl, hfree⟩ := Stmt.Records.effect (a := .onResult (some p) .mysql_free_result)
    (P := (· = .onResult t (some p) .mysql_free_result)) trivial rfl hst
  have hresult₁ : s₁.result = s.result := by
    funext q
    rw [State.result, State.result, hfree.heap q]
    rfl
  obtain ⟨hresult, hstored, hnext, hfreeings⟩ := Retained.assigned hassign hresult₁
  replace hfreeings : freeings s₂.trace = freeings s.trace ++ [p] := by
    rw [hfreeings, hfree.freeings]
    simp [Event.frees]
  have hfresh := hassign.fresh (hfree.fresh hs.fresh)
  refine ⟨?_, hresult⟩
  obtain ⟨r, -, hrun⟩ := hst
  simp only [plugin, Stmt.run, hx] at hrun
  cases hrun
  replace hnext : s₂.lib.nextRes = s.lib.nextRes := hnext
  replace hstored : s₂.stored = s.stored \ {p} := by
    ext q
    rw [hstored, State.mem_stored, Set.mem_sdiff, State.mem_stored, Set.mem_singleton_iff]
    simp only [State.record_lib, Libmysql.onResult, Libmysql.live_setResult]
    by_cases hq : q = p <;> simp [hq]
  refine ⟨?_, ?_, fun q hq => ?_, hfresh⟩
  · rw [hresult, hstored]
    exact hs.custody.drop hp
  · rw [hfreeings, hstored, hnext]
    exact hs.released.release hmem (hs.used p hmem)
  · rw [hstored] at hq
    rw [hnext]
    exact hs.used q hq.1

end

/-! ### The environment -/

/-- The statement reads `m_stResult`. -/
def Stmt.loadsResult {β : Type} : Stmt β → Bool
  | .load _ .m_stResult => true
  | _ => false

/-- `m_stResult` starts as `NULL`. -/
def Stmt.StartsNull {β : Type} (a : Stmt β) (r : Reply) : Prop :=
  a.loadsResult = true → r.pointer = none

instance {β : Type} (a : Stmt β) (r : Reply) : Decidable (a.StartsNull r) :=
  inferInstanceAs (Decidable (a.loadsResult = true → r.pointer = none))

/-- The handler whose result the native stores. -/
def NativeCall.stores (n : NativeCall) (s : State) : Option HandlerPtr :=
  match n with
  | .mysql_store_result c => handlerAt s c
  | _ => none

/-- The handler that the native ends. -/
def NativeCall.ends (n : NativeCall) (s : State) : Option HandlerPtr :=
  match n with
  | .mysql_close c => handlerAt s c
  | _ => none

/-- The handler is connected if it holds a result set. -/
def ConnectedIfHeld (h : HandlerPtr) (s : State) : Prop :=
  ∀ x ∈ s.heap h, x.result ≠ none → x.m_bIsConnected = true

/-- A connected handler stores a result only where it holds none, and a handler that is ended is
connected if it holds one. -/
def NoneLost (n : NativeCall) (s : State) : Prop :=
  (∀ h ∈ n.stores s, ∀ x ∈ s.heap h, x.m_bIsConnected = true → x.result = none) ∧
    ∀ h ∈ n.ends s, ConnectedIfHeld h s

/-- The handler holds no result set. -/
def HoldsNone (h : HandlerPtr) (s : State) : Prop := s.result h = none

/-- The plugin in such an environment: the pings of the worker fail only for handlers that hold no
result set. -/
def holding (b : Build) : Machine Stmt Fault State ThreadId Reply :=
  (plugin b).restrict fun t a r s =>
    a.Meets NoneLost s ∧ a.Pings HoldsNone t r s ∧ a.StartsNull r

instance (b : Build) : IsPlugin (holding b) b := ⟨fun _ _ _ => rfl⟩

instance (h : HandlerPtr) (s : State) : Decidable (ConnectedIfHeld h s) :=
  inferInstanceAs (Decidable (∀ x ∈ s.heap h, x.result ≠ none → x.m_bIsConnected = true))

instance (n : NativeCall) (s : State) : Decidable (NoneLost n s) :=
  inferInstanceAs (Decidable ((∀ h ∈ n.stores s, ∀ x ∈ s.heap h, x.m_bIsConnected = true →
    x.result = none) ∧ ∀ h ∈ n.ends s, ConnectedIfHeld h s))

instance (h : HandlerPtr) (s : State) : Decidable (HoldsNone h s) :=
  inferInstanceAs (Decidable (s.result h = none))

section

variable {b : Build} {t : ThreadId} {s : State} {h : HandlerPtr} {α : Type} {Q : α → State → Prop}

/-- A program of such events. -/
lemma wp_sparesResults {p : Code α} (hp : p.All (Stmt.Only t Event.SparesResults)) (hs : Retained s) :
    p.wp (holding b) t (fun _ => FreedOnce) (fun _ s' => Retained s' ∧ s'.result = s.result) s :=
  wp_of_only (I := fun s' => Retained s' ∧ s'.result = s.result) IsPlugin.step hp
    (fun _ _ _ he hI heff => ⟨hI.1.spares heff he, (heff.result he).trans hI.2⟩)
    (fun _ _ hI => hI.1.once) ⟨hs, rfl⟩

/-- The pointer that a handler reads is the one it holds. -/
lemma wp_loadResult {k : Option ResPtr → Code α} (hs : Retained s)
    (hk : ∀ s', Retained s' → s'.result = s.result →
      (k (s.result h)).wp (holding b) t (fun _ => FreedOnce) Q s') :
    (load h .m_stResult >>= k).wp (holding b) t (fun _ => FreedOnce) Q s := by
  have hunset {s' : State} (heff : Effect t (.unset t h .m_stResult) s s') : Retained s' :=
    hs.spares heff trivial
  refine wp_step (fun r s' hst => ?_) fun e s' hst => ?_
  · obtain ⟨reply, ⟨-, -, -, hnull⟩, hrun⟩ := hst
    change (Stmt.load h .m_stResult).run b t reply s = _ at hrun
    simp only [Stmt.run] at hrun
    split at hrun
    · rename_i x hx
      split at hrun
      · rename_i v hv
        cases hrun
        have hr : s.result h = r := by
          have hv : x.m_stResult = .set r := hv
          rw [State.result, hx, Option.bind_some, CMySQLHandler.result, hv]
        exact hr ▸ hk s hs rfl
      · rename_i hv
        cases hrun
        have hr : s.result h = none := by
          have hv : x.m_stResult = .unset := hv
          rw [State.result, hx, Option.bind_some, CMySQLHandler.result, hv]
        have hgarbage : Member.m_stResult.garbage reply = none := by
          have hnull : reply.pointer = none := hnull rfl
          simp [Member.garbage, hnull]
        rw [hgarbage]
        exact hr ▸ hk _ (hunset (.record trivial rfl trivial)) rfl
    · cases hrun
  · obtain ⟨reply, -, hrun⟩ := IsPlugin.step hst
    simp only [plugin, Stmt.run] at hrun
    split at hrun
    · split at hrun <;> cases hrun
    · cases hrun
      exact hs.once

/-- `mysql_store_result` for a handler that holds no result set. -/
lemma wp_storeAssign {k : Option ResPtr → Code α} (hs : Retained s) (hnone : s.result h = none)
    (hk : ∀ o s', Retained s' → s'.result = Function.update s.result h o →
      (k o).wp (holding b) t (fun _ => FreedOnce) Q s') :
    (do
      let r ← call h .mysql_store_result
      assign h (.m_stResult r)
      k r).wp (holding b) t (fun _ => FreedOnce) Q s := by
  rw [call, bind_bind]
  refine wp_enter (fun _ => hs.once) (fun _ _ heff => hs.once.spares heff rfl) fun c s₁ henter => ?_
  have hs₁ := hs.spares henter trivial
  have hresult₁ : s₁.result = s.result := henter.result trivial
  refine wp_step (fun o s₂ hst => ?_) fun e s₂ hst => ?_
  · obtain ⟨ok, hleave⟩ := step_leave (IsPlugin.step hst)
    refine wp_assign (fun _ => hs₁.once.spares hleave rfl) fun s₃ hassign => ?_
    obtain ⟨hs₃, hresult⟩ := hs₁.store (IsPlugin.step hst) hassign (by rw [hresult₁, hnone])
    exact hk o s₃ hs₃ (by rw [hresult, hresult₁])
  · obtain ⟨r, -, hrun⟩ := hst
    cases hrun

/-- `mysql_free_result` for the result set that the handler holds. -/
lemma wp_freeAssign {p : ResPtr} {k : Code α} (hs : Retained s) (hp : s.result h = some p)
    (hk : ∀ s', Retained s' → s'.result = Function.update s.result h none →
      k.wp (holding b) t (fun _ => FreedOnce) Q s') :
    (do
      onResult (some p) .mysql_free_result
      assign h (.m_stResult none)
      k).wp (holding b) t (fun _ => FreedOnce) Q s := by
  have honce {s₁ : State} (heff : Effect t (.onResult t (some p) .mysql_free_result) s s₁) :
      FreedOnce s₁ := by
    rw [FreedOnce, heff.freeings]
    have hmem : p ∈ s.stored := (hs.custody.live_iff p).mpr ⟨h, hp⟩
    exact (hs.released.release hmem (hs.used p hmem)).once
  refine wp_step (fun u s₁ hfree => ?_) fun e s₁ hst => ?_
  · obtain ⟨e, rfl, heff⟩ := Stmt.Records.effect (a := .onResult (some p) .mysql_free_result)
      (P := (· = .onResult t (some p) .mysql_free_result)) trivial rfl (IsPlugin.step hfree)
    refine wp_assign (fun _ => honce heff) fun s₂ hassign => ?_
    obtain ⟨hs₂, hresult⟩ := hs.free hp (IsPlugin.step hfree) hassign
    exact hk s₂ hs₂ hresult
  · obtain ⟨r, -, hrun⟩ := IsPlugin.step hst
    rcases Stmt.run_effect (b := b) (r := r) (a := .onResult (some p) .mysql_free_result)
      (P := (· = .onResult t (some p) .mysql_free_result)) rfl hrun with rfl | ⟨e, rfl, heff⟩
    · exact hs.once
    · exact honce heff

end

/-! ### The functions of a handler -/

section

variable {b : Build} {t : ThreadId} {s : State} {h : HandlerPtr}

attribute [local simp] Stmt.Only Event.SparesResults this load call access assign onResult lockMutex
  unlockMutex setString bind_bind ite_bind all_lift_bind all_ite

/-- `FreeResult` leaves a connected handler without a result set. -/
lemma freeResult_retained (hs : Retained s) :
    (freeResult h).wp (holding b) t (fun _ => FreedOnce)
      (fun _ s' => Retained s' ∧ (ConnectedIfHeld h s → s'.result h = none)) s := by
  refine wp_this (fun _ => hs.once) fun x hx => ?_
  rw [wp_ite]
  split_ifs with hconn
  · refine ⟨hs, fun hheld => ?_⟩
    rw [State.result, hx, Option.bind_some]
    by_contra hres
    simp [hheld x hx hres] at hconn
  refine wp_loadResult hs fun s₁ hs₁ hresult => ?_
  cases hr : s.result h with
  | none => exact ⟨hs₁, fun _ => by rw [hresult, hr]⟩
  | some p =>
    rw [wp_ite, if_neg (by simp)]
    refine wp_freeAssign hs₁ (by rw [hresult, hr]) fun s₂ hs₂ hresult₂ => ?_
    refine wp_mono (wp_sparesResults (by simp) hs₂) fun _ s₃ hs₃ => ⟨hs₃.1, fun _ => ?_⟩
    rw [hs₃.2, hresult₂, Function.update_self]

lemma storeResult_retained (hs : Retained s)
    (hnone : ∀ x ∈ s.heap h, x.m_bIsConnected = true → x.result = none) :
    (storeResult h).wp (holding b) t (fun _ => FreedOnce) (fun _ => Retained) s := by
  refine wp_this (fun _ => hs.once) fun x hx => ?_
  rw [wp_ite]
  split_ifs with hconn
  · exact hs
  refine wp_storeAssign hs ?_ fun o s₁ hs₁ _ => hs₁
  rw [State.result, hx, Option.bind_some]
  exact hnone x hx (by simpa using hconn)

lemma connect_sparesResults : (connect h).All (Stmt.Only t Event.SparesResults) := by
  simp [connect]

lemma disconnect_sparesResults : (disconnect h).All (Stmt.Only t Event.SparesResults) := by
  simp [disconnect, closeConnection, clearQueue]

/-- The background reconnection stores a pending result and frees it again. -/
lemma reconnectInBackground_retained (hs : Retained s) (hnone : s.result h = none) :
    (reconnectInBackground h).wp (holding b) t (fun _ => FreedOnce) (fun _ => Retained) s := by
  rw [reconnectInBackground, wp_bind]
  refine wp_mono (wp_sparesResults (by simp) hs) fun _ s₁ hs₁ => ?_
  refine wp_storeAssign hs₁.1 (by rw [hs₁.2, hnone]) fun o s₂ hs₂ hresult => ?_
  cases o with
  | none =>
    rw [if_neg (by simp)]
    exact wp_mono (wp_sparesResults (connect_sparesResults.bind fun _ => trivial) hs₂) fun _ _ h => h.1
  | some p =>
    rw [if_pos (by simp), bind_bind]
    refine wp_freeAssign hs₂ (by rw [hresult, Function.update_self]) fun s₃ hs₃ _ => ?_
    exact wp_mono (wp_sparesResults (connect_sparesResults.bind fun _ => trivial) hs₃) fun _ _ h => h.1

lemma executeFront_sparesResults : (executeFront h).All (Stmt.Only t Event.SparesResults) := by
  simp only [executeFront, this, all_lift_bind]
  refine ⟨trivial, fun x => ?_⟩
  cases x.queueData with
  | nil => trivial
  | cons q qs => simp [front, queryFailed]

end

/-! ### The natives -/

section

variable {b : Build} {s : State}

attribute [local simp] Stmt.Only Event.SparesResults this load call access assign onResult lockMutex
  unlockMutex setString bind_bind ite_bind all_lift_bind all_ite withHandle

lemma nMysqlConnect_retained {host user db pass : CString} {port : Cell} (hs : Retained s) :
    (nMysqlConnect host user db pass port).wp (holding b) .main (fun _ => FreedOnce)
      (fun _ => Retained) s := by
  refine wp_nMysqlConnect (fun _ => hs.once) (fun i h x _ _ _ => ?_)
    (wp_append (fun _ => hs.once) fun s₁ hnew => ?_)
  · refine wp_assign (fun _ => hs.once) fun s₁ heff => ?_
    exact wp_mono (wp_sparesResults connect_sparesResults (hs.spares heff trivial)) fun _ _ h => h.1
  · exact wp_mono (wp_sparesResults connect_sparesResults (hs.new hnew)) fun _ s₂ hs₂ s₃ hpush =>
      hs₂.1.spares hpush trivial

lemma nMysqlClose_retained {c : Cell} (hs : Retained s)
    (hheld : ∀ h, handlerAt s c = some h → ConnectedIfHeld h s) :
    (nMysqlClose c).wp (holding b) .main (fun _ => FreedOnce) (fun _ => Retained) s := by
  refine wp_nMysqlClose (fun _ => hs) fun h hh => ?_
  refine wp_closing (I := Retained) (R := fun x => x.result ≠ none → x.m_bIsConnected = true)
    (fun _ _ hs => hs.once) (fun e s s' he hs heff => hs.spares heff he.sparesResults) (fun _ hx => hx)
    hs (hheld h hh) fun s₁ hs₁ hheld₁ => ?_
  rw [wp_bind]
  refine wp_mono (freeResult_retained hs₁) fun _ s₂ hs₂ => ?_
  refine wp_mono (wp_sparesResults disconnect_sparesResults hs₂.1) ?_
  intro _ s₃ hs₃ s₄ s₅ s₆ _ hdelete herase hunlock
  have hnone : s₃.result h = none := by
    rw [hs₃.2]
    exact hs₂.2 hheld₁
  exact ((hs₃.1.delete hdelete hnone).spares herase trivial).spares hunlock trivial

lemma body_retained {n : NativeCall} (hs : Retained s) (hn : NoneLost n s) :
    (body n).wp (holding b) .main (fun _ => FreedOnce) (fun _ => Retained) s := by
  have hspares (hp : (body n).All (Stmt.Only .main Event.SparesResults)) :
      (body n).wp (holding b) .main (fun _ => FreedOnce) (fun _ => Retained) s :=
    wp_mono (wp_sparesResults hp hs) fun _ _ h => h.1
  by_cases hlooks : n.Looks
  · exact hspares (all_only_mono (body_looks .main hlooks) fun _ => Event.Looks.sparesResults)
  cases n with
  | mysql_connect => exact nMysqlConnect_retained hs
  | mysql_reconnect =>
    exact hspares (by simp [body, nMysqlReconnect, disconnect, closeConnection, clearQueue, connect])
  | mysql_query => exact hspares (by simp [body, nMysqlQuery, oldQuery, enqueue, nonThreadedQuery])
  | mysql_query_callback => exact hspares (by simp [body, nMysqlQueryCallback, query, enqueue])
  | mysql_ping => exact hspares (by simp [body, nMysqlPing, ping, Debug])
  | mysql_store_result c =>
    refine wp_withHandle (fun _ => hs) fun h hh => ?_
    rw [wp_bind]
    exact wp_mono (storeResult_retained hs (hn.1 h hh)) fun _ _ h => h
  | mysql_free_result c =>
    refine wp_withHandle (fun _ => hs) fun h hh => ?_
    rw [wp_bind]
    exact wp_mono (freeResult_retained hs) fun _ _ h => h.1
  | mysql_close c => exact nMysqlClose_retained hs hn.2
  | _ => exact absurd trivial hlooks

end

/-! ### Runs -/

section

variable {b : Build} {s : State}

attribute [local simp] Stmt.Only Event.SparesResults this call access assign bind_bind ite_bind
  all_lift_bind all_ite

lemma workerVisit_retained (i : Nat) (hs : Retained s) :
    (workerVisit i).wp (holding b) .worker (fun _ => FreedOnce) (fun _ => Retained) s := by
  refine wp_at (fun _ => hs.once) fun h _ => ?_
  refine wp_guard (fun _ => hs.once) (fun _ _ _ => hs) fun x s₁ _ _ hvisit => ?_
  have hs₁ := hs.spares hvisit trivial
  rw [if_pos rfl, call, bind_bind]
  refine wp_enter (fun _ => hs₁.once) (fun _ _ heff => hs₁.once.spares heff rfl)
    fun c s₂ henter => ?_
  have hs₂ := hs₁.spares henter trivial
  refine wp_pinged (fun r hr hok => hr.2.2.1 h rfl rfl hok) fun v s₃ hv hleave => ?_
  have hs₃ := hs₂.spares hleave trivial
  have hend {s : State} (hs : Retained s) :
      (Prog.lift (.mark (.visitEnd h)) : Code Unit).wp (holding b) .worker (fun _ => FreedOnce)
        (fun _ => Retained) s :=
    wp_mono (wp_sparesResults (by simp) hs) fun _ _ h => h.1
  cases v with
  | false =>
    have hnone : s₃.result h = none := by
      rw [hleave.result trivial]
      exact hv rfl
    rw [if_neg Bool.false_ne_true, wp_bind]
    exact wp_mono (reconnectInBackground_retained hs₃ hnone) fun _ s₄ hs₄ => hend hs₄
  | true =>
    rw [if_pos rfl, wp_bind]
    exact wp_mono (wp_sparesResults executeFront_sparesResults hs₃) fun _ s₄ hs₄ => hend hs₄.1

lemma native_retained (n : NativeCall) (hs : Retained s) :
    (native n).wp (holding b) .main (fun _ => FreedOnce) (fun _ => Retained) s := by
  refine wp_native fun r s₁ hr heff => ?_
  have hn : NoneLost n s₁ := by
    have hheap : s₁.heap = s.heap := funext heff.heap
    have htable : s₁.SQLHandle = s.SQLHandle := heff.table
    have hn := hr.2.1 n rfl
    have hat : handlerAt s₁ = handlerAt s := by
      funext c
      rw [handlerAt, handlerAt, htable]
    have hstores : n.stores s₁ = n.stores s := by cases n <;> first | rfl | exact congrFun hat _
    have hends : n.ends s₁ = n.ends s := by cases n <;> first | rfl | exact congrFun hat _
    simpa only [NoneLost, ConnectedIfHeld, hstores, hends, hheap] using hn
  exact wp_mono (body_retained (hs.spares heff trivial) hn) fun v s₂ hs₂ s₃ heff₃ =>
    hs₂.spares heff₃ trivial

end

lemma Retained.init_state (p_Amx : List Amx) : Retained (State.init p_Amx) where
  custody := by
    have hres : (State.init p_Amx).result = fun _ => none := rfl
    have hstored : (State.init p_Amx).stored = ∅ :=
      Set.eq_empty_of_forall_notMem fun p hp => Bool.false_ne_true hp
    rw [hres, hstored]
    exact .nobody
  released := .nil _ _
  used := fun p hp => (Bool.false_ne_true hp).elim
  fresh _ _ := rfl

/-- The result sets alive are the ones that the handlers in the table hold, each of them one. -/
structure Held (s : State) : Prop where
  alive : ∀ p, (s.lib.live p).isSome ↔
    ∃ h ∈ s.SQLHandle, ∃ x, s.heap h = some x ∧ x.m_stResult = .set (some p)
  unique : ∀ (i j : Nat) h h' x y p, s.SQLHandle[i]? = some h → s.SQLHandle[j]? = some h' →
    s.heap h = some x → s.heap h' = some y → x.m_stResult = .set (some p) →
    y.m_stResult = .set (some p) → i = j

lemma Retained.held {s : State} (hs : Retained s) (hh : Housed s) : Held s where
  alive p := by
    rw [← State.mem_stored, hs.custody.live_iff]
    constructor
    · rintro ⟨h, hp⟩
      obtain ⟨x, hx, hptr⟩ := Option.bind_eq_some_iff.mp hp
      exact ⟨h, hh.entry h x hx, x, hx, result_eq_some.mp hptr⟩
    · rintro ⟨h, -, x, hx, hptr⟩
      exact ⟨h, Option.bind_eq_some_iff.mpr ⟨x, hx, result_eq_some.mpr hptr⟩⟩
  unique i j h h' x y p hi hj hx hy hxp hyp := by
    obtain rfl : h = h' := hs.custody.unique h h' p
      (Option.bind_eq_some_iff.mpr ⟨x, hx, result_eq_some.mpr hxp⟩)
      (Option.bind_eq_some_iff.mpr ⟨y, hy, result_eq_some.mpr hyp⟩)
    exact (List.getElem?_inj (List.getElem?_eq_some_iff.mp hi).1 hh.placed.nodup).mp
      (hi.trans hj.symm)

/-- In every run in which connected handlers store a result only where they hold none, no handler
that holds a result is ended without a connection, and the pings of the worker fail only for handlers
that hold none. No result set is freed twice, wherever the last action ends. -/
theorem results_held (b : Build) (p_Amx : List Amx) {s : State}
    (h : Serial (holding b) (Acts Set.univ) (State.init p_Amx) s) :
    Held s ∧ FreedOnce s ∧ ∀ (a : Action) o s',
      Run (holding b) a.thread a.code s o s' → FreedOnce s' := by
  have hserver (e : Event) (s s' : State) (he : e.OfServer) (hs : Retained s)
      (heff : Effect .main e s s') : Retained s' := hs.spares heff he.sparesResults
  have hret : Retained s :=
    serial_invariant (confined_univ _) (fun n _ => Set.mem_univ n) hserver
      (fun n s _ hs => wp_returns (native_retained n hs))
      (fun i s hs => wp_returns (workerVisit_retained i hs)) h (.init_state p_Amx)
  refine ⟨hret.held (serial_housed p_Amx h), hret.once, fun a o s' hrun => ?_⟩
  have hwp : a.code.wp (holding b) a.thread (fun _ => FreedOnce) (fun _ => Retained) s :=
    action_wp (confined_univ _) (fun n _ => Set.mem_univ n) (fun _ _ hs => hs.once) hserver
      (fun n s _ hs => native_retained n hs) (fun i s hs => workerVisit_retained i hs)
      (Set.mem_univ a) hret
  cases o with
  | ok v => exact (((wp_iff _ _ _).mp hwp).1 v s' hrun).once
  | error e => exact ((wp_iff _ _ _).mp hwp).2 e s' hrun

/-- A result is stored and freed, the one of another query is stored, and another connection is closed. -/
theorem results_held_stored :
    ∃ s, play ((plugin .win32).checked fun t a r s =>
        decide (a.Meets NoneLost s ∧ a.Pings HoldsNone t r s ∧ a.StartsNull r))
        (fun _ _ => { rows := some ⟨[], []⟩ })
        [.native (.mysql_connect ['a'] [] [] [] 0), .native (.mysql_connect ['b'] [] [] [] 0),
          .native (.mysql_query ['q'] (-1) 0 1), .native (.mysql_store_result 1),
          .native (.mysql_free_result 1), .native (.mysql_query ['p'] (-1) 0 1),
          .native (.mysql_store_result 1), .native (.mysql_close 2)] (State.init []) = some s ∧
      s.lib.nextRes = 2 ∧ Held s := by
  have hrun : (play ((plugin .win32).checked fun t a r s =>
      decide (a.Meets NoneLost s ∧ a.Pings HoldsNone t r s ∧ a.StartsNull r))
      (fun _ _ => { rows := some ⟨[], []⟩ })
      [.native (.mysql_connect ['a'] [] [] [] 0), .native (.mysql_connect ['b'] [] [] [] 0),
        .native (.mysql_query ['q'] (-1) 0 1), .native (.mysql_store_result 1),
        .native (.mysql_free_result 1), .native (.mysql_query ['p'] (-1) 0 1),
        .native (.mysql_store_result 1), .native (.mysql_close 2)]
      (State.init [])).map (·.lib.nextRes) = some 2 := by decide
  obtain ⟨s, hs, hn⟩ := Option.map_eq_some_iff.mp hrun
  exact ⟨s, hs, hn, (results_held .win32 []
    (serial_of_checked (fun _ _ _ _ => of_decide_eq_true) (by simp) hs)).1⟩

/-- Two queries are executed and their results stored one after the other: the first result stays alive,
and no handler holds it. -/
theorem result_lost :
    ¬ ∀ (b : Build) (p_Amx : List Amx) (s : State),
      Serial ((plugin b).restrict fun _ a r _ => a.StartsNull r) (Acts Set.univ)
        (State.init p_Amx) s → Held s := by
  intro hall
  have hrun : (play ((plugin .win32).checked fun _ a r _ => decide (a.StartsNull r))
      (fun _ _ => { rows := some ⟨[], []⟩ })
      [.native (.mysql_connect ['a'] [] [] [] 0), .native (.mysql_query ['q'] (-1) 0 1),
        .native (.mysql_store_result 1), .native (.mysql_query ['p'] (-1) 0 1),
        .native (.mysql_store_result 1)] (State.init [])).map (fun s =>
          (s.SQLHandle, s.result 0, (s.lib.live 0).isSome)) = some ([0], some 1, true) := by
    decide +kernel
  obtain ⟨s, hs, hvalues⟩ := Option.map_eq_some_iff.mp hrun
  simp only [Prod.mk.injEq] at hvalues
  obtain ⟨htable, hres, hlive⟩ := hvalues
  have hheld := hall .win32 [] s (serial_of_checked (fun _ _ _ _ => of_decide_eq_true) (by simp) hs)
  obtain ⟨h, hh, x, hx, hptr⟩ := (hheld.alive 0).mp hlive
  rw [htable, List.mem_singleton] at hh
  rw [State.result, ← hh, hx, Option.bind_some, result_eq_some.mpr hptr] at hres
  cases hres

end MySQLPlugin
