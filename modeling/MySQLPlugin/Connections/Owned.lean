import MySQLPlugin.Dispatch.Custody
import MySQLPlugin.Handles.Parameters

/-!
# Open connections and their handlers

`mysql_init` hands out a connection object and `mysql_close` releases it. The handlers hold the open
ones in `m_stConnectionPtr`, as long as no path overwrites or drops a pointer whose object is open.
-/

namespace MySQLPlugin

open Threads Dispatch Prog CMySQLHandler Natives

/-! ### Connection objects -/

/-- The connection object that the handler holds. -/
def State.connection (s : State) (h : HandlerPtr) : Option ConnPtr :=
  (s.heap h).bind (·.m_stConnectionPtr)

/-- The connection objects that have been initialised and not closed. -/
def State.opened (s : State) : Set ConnPtr :=
  {c | c < s.lib.nextConn ∧ (s.lib.conn c).closed = false}

lemma State.mem_opened {s : State} {c : ConnPtr} :
    c ∈ s.opened ↔ c < s.lib.nextConn ∧ (s.lib.conn c).closed = false := Iff.rfl

/-- The connection object that the event closes. -/
def Event.closes : Event → Option ConnPtr
  | .enter _ _ .mysql_close c => c
  | _ => none

/-- The connection objects that have been closed, in this order. -/
def closings (es : List Event) : List ConnPtr := es.filterMap Event.closes

/-- The handlers that exist hold exactly the open connections, each of them one, and no connection
has been closed twice. -/
structure Secured (s : State) : Prop where
  custody : Custody s.connection s.opened
  released : Released (closings s.trace) s.opened (Set.Iio s.lib.nextConn)
  fresh : ∀ h, s.nextHandler ≤ h → s.heap h = none

/-- No connection has been closed twice. -/
def ClosedOnce (s : State) : Prop := ∀ c, (closings s.trace).count c ≤ 1

lemma Secured.once {s : State} (hs : Secured s) : ClosedOnce s := hs.released.once

/-- The event neither opens nor closes a connection and changes no pointer to one. -/
def Event.Spares : Event → Prop
  | .new _ _ _ _ _ _ | .delete _ | .init _ _ (some _) | .enter _ _ .mysql_close _
  | .assign _ _ (.m_stConnectionPtr _) => False
  | _ => True

section

variable {t : ThreadId} {e : Event} {s s' : State} {h : HandlerPtr} {c : ConnPtr}

lemma Effect.mem_opened (heff : Effect t e s s') : c ∈ s'.opened ↔
    c < e.onNextConn s.lib.nextConn ∧ e.onClosed c (s.lib.conn c).closed = false := by
  rw [State.mem_opened, heff.nextConn, heff.closed c]

lemma Effect.connection (heff : Effect t e s s') (he : e.Spares) : s'.connection = s.connection := by
  funext p
  rw [State.connection, State.connection, heff.heap p]
  cases e with
  | new => exact he.elim
  | delete => exact he.elim
  | assign u q a =>
    simp only [Event.onObject]
    split_ifs with hp
    · cases a <;> first | exact he.elim | (cases s.heap p <;> rfl)
    · rfl
  | _ => rfl

lemma Effect.connection_assign {o : Option ConnPtr}
    (heff : Effect t (.assign t h (.m_stConnectionPtr o)) s s') :
    s'.connection = Function.update s.connection h o := by
  obtain ⟨x, hx, hx'⟩ := heff.assigned
  funext p
  by_cases hp : p = h
  · subst hp
    simp [State.connection, hx', Assign.apply]
  · rw [Function.update_of_ne hp, State.connection, State.connection, heff.heap p, Event.onObject,
      if_neg hp]

lemma Effect.opened (heff : Effect t e s s') (he : e.Spares) : s'.opened = s.opened := by
  ext c
  rw [heff.mem_opened, State.mem_opened]
  cases e with
  | init u p o => cases o <;> first | exact he.elim | rfl
  | enter u p f o => cases f <;> first | exact he.elim | rfl
  | _ => rfl

lemma Effect.closings (heff : Effect t e s s') :
    closings s'.trace = closings s.trace ++ e.closes.toList := by
  rw [MySQLPlugin.closings, heff.trace, List.filterMap_append]
  cases hc : e.closes <;> simp [hc, MySQLPlugin.closings]

lemma Effect.fresh (heff : Effect t e s s') (hs : ∀ h, s.nextHandler ≤ h → s.heap h = none) :
    ∀ h, s'.nextHandler ≤ h → s'.heap h = none := by
  intro p hp
  rw [heff.nextHandler] at hp
  rw [heff.heap p]
  cases e with
  | new q =>
    have hq : q = s.nextHandler := heff.occurs.1
    simp only [Event.onNextHandler] at hp
    rw [Event.onObject, if_neg (by rintro rfl; exact Nat.lt_irrefl _ (hq ▸ hp))]
    exact hs p (Nat.le_of_succ_le hp)
  | delete q =>
    simp only [Event.onObject]
    split_ifs
    · rfl
    · exact hs p hp
  | assign u q a =>
    simp only [Event.onObject]
    split_ifs
    · rw [hs p hp]
      rfl
    · exact hs p hp
  | _ => exact hs p hp

lemma Secured.spares (hs : Secured s) (heff : Effect t e s s') (he : e.Spares) : Secured s' where
  custody := by
    rw [heff.connection he, heff.opened he]
    exact hs.custody
  released := by
    have hcl : e.closes = none := by
      cases e with
      | enter u p f o => cases f <;> first | exact he.elim | rfl
      | _ => rfl
    have hn : s'.lib.nextConn = s.lib.nextConn := by
      rw [heff.nextConn]
      cases e with
      | init u p o => cases o <;> first | exact he.elim | rfl
      | _ => rfl
    rw [heff.closings, hcl, heff.opened he, hn, Option.toList_none, List.append_nil]
    exact hs.released
  fresh := heff.fresh hs.fresh

/-- A new object holds no connection. -/
lemma Secured.new {host user passw db : CString} {port : BitVec 32} (hs : Secured s)
    (heff : Effect t (.new h host user passw db port) s s') : Secured s' := by
  have hh : h = s.nextHandler := heff.occurs.1
  have hconn : s'.connection = s.connection := by
    funext p
    rw [State.connection, State.connection, heff.heap p, Event.onObject]
    split_ifs with hp
    · rw [hs.fresh p (hp ▸ hh ▸ le_refl _)]
      rfl
    · rfl
  have hopen : s'.opened = s.opened := Set.ext fun c => heff.mem_opened
  have hn : s'.lib.nextConn = s.lib.nextConn := heff.nextConn
  refine ⟨?_, ?_, heff.fresh hs.fresh⟩
  · rw [hconn, hopen]
    exact hs.custody
  · rw [heff.closings, hopen, hn]
    simpa [Event.closes] using hs.released

/-- An object that holds no connection is ended. -/
lemma Secured.delete (hs : Secured s) (heff : Effect t (.delete h) s s')
    (hnone : s.connection h = none) : Secured s' := by
  have hconn : s'.connection = s.connection := by
    funext p
    rw [State.connection, heff.heap p, Event.onObject]
    split_ifs with hp
    · rw [hp, hnone]
      rfl
    · rfl
  have hopen : s'.opened = s.opened := Set.ext fun c => heff.mem_opened
  have hn : s'.lib.nextConn = s.lib.nextConn := heff.nextConn
  refine ⟨?_, ?_, heff.fresh hs.fresh⟩
  · rw [hconn, hopen]
    exact hs.custody
  · rw [heff.closings, hopen, hn]
    simpa [Event.closes] using hs.released

/-- A fresh connection is given to a handler that holds none. -/
lemma Secured.init {s₁ s₂ : State} (hs : Secured s) (hinit : Effect t (.init t h (some c)) s s₁)
    (hassign : Effect t (.assign t h (.m_stConnectionPtr (some c))) s₁ s₂)
    (hnone : s.connection h = none) : Secured s₂ := by
  obtain rfl : c = s.lib.nextConn := hinit.occurs
  have hconn₁ : s₁.connection = s.connection := by
    funext p
    rw [State.connection, State.connection, hinit.heap p]
    rfl
  have hconn : s₂.connection = Function.update s.connection h (some s.lib.nextConn) := by
    rw [hassign.connection_assign, hconn₁]
  have hopen : s₂.opened = insert s.lib.nextConn s.opened := by
    ext d
    rw [hassign.mem_opened, hinit.nextConn, hinit.closed d, Set.mem_insert_iff, State.mem_opened]
    simp only [Event.onNextConn, Event.onClosed]
    by_cases hd : d = s.lib.nextConn
    · simp [hd]
    · rw [if_neg hd]
      have hlt : d < s.lib.nextConn + 1 ↔ d < s.lib.nextConn :=
        Nat.lt_succ_iff.trans (Nat.le_iff_lt_or_eq.trans (or_iff_left hd))
      simp [hd, hlt]
  have hn : s₂.lib.nextConn = s.lib.nextConn + 1 := hassign.nextConn.trans hinit.nextConn
  have hused : Set.Iio (s.lib.nextConn + 1) = insert s.lib.nextConn (Set.Iio s.lib.nextConn) := by
    ext d
    rw [Set.mem_Iio, Set.mem_insert_iff, Set.mem_Iio, Nat.lt_succ_iff_lt_or_eq, or_comm]
  refine ⟨?_, ?_, hassign.fresh (hinit.fresh hs.fresh)⟩
  · rw [hconn, hopen]
    exact hs.custody.take hnone fun hmem => Nat.lt_irrefl _ hmem.1
  · rw [hassign.closings, hinit.closings, hopen, hn, hused]
    simpa [Event.closes] using hs.released.take fun hmem => Nat.lt_irrefl _ hmem

lemma ClosedOnce.spares (hs : ClosedOnce s) (heff : Effect t e s s') (he : e.closes = none) :
    ClosedOnce s' := by
  intro c
  rw [heff.closings, he, Option.toList_none, List.append_nil]
  exact hs c

/-- A handler closes its connection. -/
lemma Secured.close_once (hs : Secured s) (heff : Effect t (.enter t h .mysql_close (some c)) s s') :
    c ∈ s.opened ∧ s.connection h = some c ∧ Released (closings s'.trace) (s.opened \ {c})
      (Set.Iio s.lib.nextConn) := by
  obtain ⟨x, hx, hc⟩ := heff.occurs
  have hheld : s.connection h = some c := by
    rw [State.connection, hx]
    exact hc
  have hmem : c ∈ s.opened := (hs.custody.live_iff c).mpr ⟨h, hheld⟩
  refine ⟨hmem, hheld, ?_⟩
  rw [heff.closings]
  exact hs.released.release hmem hmem.1

/-- The handler that has closed its connection drops it. -/
lemma Secured.close (hs : Secured s) (heff : Effect t (.enter t h .mysql_close (some c)) s s')
    {s₁ s₂ : State} {ok : Bool} (hleave : Effect t (.leave t h .mysql_close c ok) s' s₁)
    (hassign : Effect t (.assign t h (.m_stConnectionPtr none)) s₁ s₂) : Secured s₂ := by
  obtain ⟨hmem, hheld, hreleased⟩ := hs.close_once heff
  have hconn : s₂.connection = Function.update s.connection h none := by
    rw [hassign.connection_assign, hleave.connection trivial]
    congr 1
    funext p
    rw [State.connection, State.connection, heff.heap p]
    rfl
  have hopen : s'.opened = s.opened \ {c} := by
    ext d
    rw [heff.mem_opened, Set.mem_sdiff, Set.mem_singleton_iff, State.mem_opened]
    simp only [Event.onNextConn, Event.onClosed]
    by_cases hd : d = c <;> simp [hd]
  have hopen₂ : s₂.opened = s.opened \ {c} := by
    rw [← hopen, ← hleave.opened trivial]
    exact Set.ext fun d => hassign.mem_opened
  have hn : s₂.lib.nextConn = s.lib.nextConn :=
    hassign.nextConn.trans (hleave.nextConn.trans heff.nextConn)
  have hclosings : closings s₂.trace = closings s'.trace := by
    rw [hassign.closings, hleave.closings]
    simp [Event.closes]
  refine ⟨?_, ?_, hassign.fresh (hleave.fresh (heff.fresh hs.fresh))⟩
  · rw [hconn, hopen₂]
    exact hs.custody.drop hheld
  · rw [hclosings, hopen₂, hn]
    exact hreleased

/-- The pointer of a handler without a connection is cleared. -/
lemma Secured.reset (hs : Secured s) (heff : Effect t (.assign t h (.m_stConnectionPtr none)) s s')
    (hnone : s.connection h = none) : Secured s' := by
  have hconn : s'.connection = s.connection := by
    rw [heff.connection_assign, ← hnone, Function.update_eq_self]
  have hopen : s'.opened = s.opened := Set.ext fun c => heff.mem_opened
  have hn : s'.lib.nextConn = s.lib.nextConn := heff.nextConn
  refine ⟨?_, ?_, heff.fresh hs.fresh⟩
  · rw [hconn, hopen]
    exact hs.custody
  · rw [heff.closings, hopen, hn]
    simpa [Event.closes] using hs.released

end

/-! ### Connecting and disconnecting -/

/-- The handler is connected if it holds a connection. -/
def ConnectedIfOpen (h : HandlerPtr) (s : State) : Prop :=
  ∀ x ∈ s.heap h, x.m_stConnectionPtr ≠ none → x.m_bIsConnected = true

/-- The event changes neither the connection of a handler nor its flag. -/
def Event.KeepsLink (e : Event) : Prop :=
  e.Spares ∧ ∀ u p v, e ≠ .assign u p (.m_bIsConnected v)

section

variable {M : Machine Stmt Fault State ThreadId Reply} {b : Build} [IsPlugin M b] {t : ThreadId}
  {s : State} {h : HandlerPtr}

attribute [local simp] Stmt.Only Event.Spares this load call access assign onResult lockMutex
  unlockMutex bind_bind ite_bind all_lift_bind all_ite

include b

lemma wp_spares {α : Type} {p : Code α} (hp : p.All (Stmt.Only t Event.Spares)) (hs : Secured s) :
    p.wp M t (fun _ => ClosedOnce) (fun _ s' => Secured s' ∧ s'.connection = s.connection) s :=
  wp_of_only (I := fun s' => Secured s' ∧ s'.connection = s.connection) IsPlugin.step hp
    (fun _ _ _ he hI heff => ⟨hI.1.spares heff he, (heff.connection he).trans hI.2⟩)
    (fun _ _ hI => hI.1.once) ⟨hs, rfl⟩

/-- `Connect` gives a handler without a connection a new one. -/
lemma connect_secured (hs : Secured s) (hnone : s.connection h = none) :
    (connect h).wp M t (fun _ => ClosedOnce) (fun _ => Secured) s := by
  refine wp_this (fun _ => hs.once) fun x hx => ?_
  rw [wp_ite]
  split_ifs
  · exact hs
  refine wp_init fun o s₁ hinit => ?_
  have honce : ClosedOnce s₁ := hs.once.spares hinit rfl
  refine wp_assign (fun _ => honce) fun s₂ hassign => ?_
  have hs₂ : Secured s₂ := by
    cases o with
    | some c => exact hs.init hinit hassign hnone
    | none =>
      refine (hs.spares hinit trivial).reset hassign ?_
      rw [hinit.connection trivial, hnone]
  exact wp_mono (wp_spares (by simp) hs₂) fun _ _ h => h.1

/-- `Disconnect` leaves a connected handler without a connection. -/
lemma disconnect_secured (hs : Secured s) :
    (disconnect h).wp M t (fun _ => ClosedOnce)
      (fun _ s' => Secured s' ∧ (ConnectedIfOpen h s → s'.connection h = none)) s := by
  refine wp_this (fun _ => hs.once) fun x hx => ?_
  rw [wp_ite]
  split_ifs with hconn
  · refine ⟨hs, fun hlive => ?_⟩
    rw [State.connection, hx, Option.bind_some]
    by_contra hptr
    simp [hlive x hx hptr] at hconn
  rw [wp_bind]
  suffices hclose : (closeConnection h).wp M t (fun _ => ClosedOnce)
      (fun _ s' => Secured s' ∧ s'.connection h = none) s by
    refine wp_mono hclose fun _ s₁ hs₁ => ?_
    refine wp_mono (wp_spares (by simp) hs₁.1) fun _ s₂ hs₂ => ⟨hs₂.1, fun _ => ?_⟩
    rw [hs₂.2, hs₁.2]
  refine wp_this (fun _ => hs.once) fun y hy => ?_
  rw [wp_ite]
  split_ifs with hptr
  · refine ⟨hs, ?_⟩
    rw [State.connection, hy]
    exact hptr
  rw [wp_bind]
  refine wp_mono (wp_spares (by simp) hs) fun _ s₁ hs₁ => ?_
  rw [wp_bind]
  refine wp_mono (wp_spares (by simp [clearQueue]) hs₁.1) fun _ s₂ hs₂ => ?_
  rw [wp_bind]
  refine wp_mono (wp_spares (by simp) hs₂.1) fun _ s₃ hs₃ => ?_
  rw [call, bind_bind]
  refine wp_enter (fun _ => hs₃.1.once) (fun _ s' heff => hs₃.1.once.spares heff rfl)
    fun c s₄ henter => ?_
  have honce : ClosedOnce s₄ := (hs₃.1.close_once henter).2.2.once
  refine wp_leave fun _ ok s₅ hleave => ?_
  rw [← bind_ret_right (assign h _)]
  refine wp_assign (fun _ => honce.spares hleave rfl) fun s₆ hassign => ?_
  refine ⟨hs₃.1.close henter hleave hassign, ?_⟩
  rw [hassign.connection_assign, Function.update_self]

end

/-! ### Objects and entries -/

/-- The objects that exist are entries of the table. -/
structure Housed (s : State) : Prop where
  placed : Placed s
  entry : ∀ p x, s.heap p = some x → p ∈ s.SQLHandle

lemma Housed.init (p_Amx : List Amx) : Housed (State.init p_Amx) where
  placed := placed_init p_Amx
  entry := fun p x hx => by cases hx

/-- Where an object comes from. -/
lemma Effect.origin {t : ThreadId} {e : Event} {s s' : State} (heff : Effect t e s s')
    (he : e.Stays) {p : HandlerPtr} {x' : CMySQLHandler} (hx' : s'.heap p = some x') :
    ∃ x, s.heap p = some x := by
  rcases heff.params hx' with ⟨x, hx, -⟩ | rfl
  · exact ⟨x, hx⟩
  · exact he.elim

lemma Effect.sameTable {t : ThreadId} {e : Event} {s s' : State} (heff : Effect t e s s')
    (he : e.Stays) : s'.SQLHandle = s.SQLHandle := by
  rw [heff.table]
  cases e <;> first | rfl | exact he.elim

lemma Housed.stays {t : ThreadId} {e : Event} {s s' : State} (hs : Housed s)
    (heff : Effect t e s s') (he : e.Stays) : Housed s' where
  placed := ((Names.refl hs.placed).stays heff he).placed
  entry p x' hx' := by
    obtain ⟨x, hx⟩ := heff.origin he hx'
    rw [heff.sameTable he]
    exact hs.entry p x hx

section

variable {M : Machine Stmt Fault State ThreadId Reply} {b : Build} [IsPlugin M b] {s : State}

include b

lemma body_housed (hs : Housed s) (n : NativeCall) :
    (body n).wp M .main (fun _ _ => True) (fun _ => Housed) s := by
  have hplaced := body_names (M := M) (.refl hs.placed) n
  suffices hentry : (body n).wp M .main (fun _ _ => True)
      (fun _ s' => ∀ p x, s'.heap p = some x → p ∈ s'.SQLHandle) s from
    wp_mono (wp_and hplaced hentry) fun _ _ h => ⟨h.1.placed, h.2⟩
  by_cases hconn : ∃ host user db pass port, n = .mysql_connect host user db pass port
  · obtain ⟨host, user, db, pass, port, rfl⟩ := hconn
    refine wp_nMysqlConnect (fun _ => trivial) (fun i h x hi hx hsame => ?_)
      (wp_append (fun _ => trivial) fun s₁ hnew => ?_)
    · have hstays : (assign h (.m_bIsConnected false) >>= fun _ => connect h).All
          (Stmt.Only .main Event.Stays) := ⟨trivial, fun _ => connect_stays .main h⟩
      exact wp_mono (wp_of_only (I := Housed) IsPlugin.step hstays
        (fun e s s' he hI heff => hI.stays heff he) (fun _ _ _ => trivial) hs) fun _ _ h => h.entry
    · -- the new object is outside the table while it connects
      let I : State → Prop := fun s' => ∀ p x, s'.heap p = some x →
        p ∈ s'.SQLHandle ∨ p = s.nextHandler
      have hI₁ : I s₁ := by
        intro p x hx
        rw [hnew.heap p, Event.onObject] at hx
        split_ifs at hx with hp
        · exact .inr hp
        · have htable : s₁.SQLHandle = s.SQLHandle := hnew.table
          exact .inl (htable ▸ hs.entry p x hx)
      refine wp_mono (wp_of_only (I := I) IsPlugin.step (connect_stays .main _)
        (fun e s s' he hI heff p x' hx' => ?_) (fun _ _ _ => trivial) hI₁) fun _ s₂ hI₂ s₃ hpush => ?_
      · obtain ⟨x, hx⟩ := heff.origin he hx'
        rw [heff.sameTable he]
        exact hI p x hx
      · intro p x hx
        have hx₂ : s₂.heap p = some x := (hpush.heap p).symm.trans hx
        have htable : s₃.SQLHandle = s₂.SQLHandle ++ [s.nextHandler] := hpush.table
        rw [htable, List.mem_append, List.mem_singleton]
        exact hI₂ p x hx₂
  by_cases hopen : n.Open
  · refine wp_mono (wp_of_only (I := Housed) IsPlugin.step (body_stays .main hopen
      fun host user db pass port h => hconn ⟨host, user, db, pass, port, h⟩)
      (fun e s s' he hI heff => hI.stays heff he) (fun _ _ _ => trivial) hs) fun _ _ h => h.entry
  cases n with
  | mysql_close c =>
    refine wp_nMysqlClose (fun _ => hs.entry) fun h hh => ?_
    refine wp_mono (wp_of_only (I := Housed) IsPlugin.step (closing_stays .main h)
      (fun e s s' he hI heff => hI.stays heff he) (fun _ _ _ => trivial) hs) ?_
    intro _ s₁ hs₁ s₂ s₃ s₄ _ hdelete herase hunlock p x hx
    have hx₃ : s₃.heap p = some x := (hunlock.heap p).symm.trans hx
    have hx₂ : s₂.heap p = some x := (herase.heap p).symm.trans hx₃
    rw [hdelete.heap p, Event.onObject] at hx₂
    split_ifs at hx₂ with hp
    have htable₂ : s₂.SQLHandle = s₁.SQLHandle := hdelete.table
    have htable : s₄.SQLHandle = s₁.SQLHandle.eraseIdx (c - 1).toNat := by
      rw [show s₄.SQLHandle = s₃.SQLHandle from hunlock.table, ← htable₂]
      exact herase.table
    have hi : s₁.SQLHandle[(c - 1).toNat]? = some h := htable₂ ▸ herase.occurs
    obtain ⟨j, hj⟩ := List.mem_iff_getElem?.mp (hs₁.entry p x hx₂)
    rw [htable, List.mem_eraseIdx_iff_getElem?]
    refine ⟨j, ?_, hj⟩
    rintro rfl
    exact hp (Option.some.inj (hj.symm.trans hi))
  | _ => exact absurd trivial hopen

lemma native_housed (n : NativeCall) (hs : Housed s) :
    (native n).wp M .main (fun _ _ => True) (fun _ => Housed) s := by
  refine wp_native fun r s₁ _ heff => ?_
  refine wp_mono (body_housed (hs.stays heff trivial) n) fun v s₂ hs₂ s₃ heff₃ => ?_
  exact hs₂.stays heff₃ trivial

end

/-- In every run the objects that exist are entries of the table. -/
lemma serial_housed {M : Machine Stmt Fault State ThreadId Reply} {b : Build} [IsPlugin M b]
    (p_Amx : List Amx) {s : State} (h : Serial M (Acts Set.univ) (State.init p_Amx) s) :
    Housed s := by
  refine serial_invariant (I := Housed) (confined_univ _) (fun n _ => Set.mem_univ n)
    (fun e s s' he hs heff => hs.stays heff he.stays) (fun n s _ hs => native_housed n hs)
    (fun i s hs => ?_) h (.init p_Amx)
  exact wp_of_only IsPlugin.step (workerVisit_ofVisit .worker i)
    (fun e s s' he hI heff => hI.stays heff he.stays) (fun _ _ _ => trivial) hs

/-! ### The natives -/

/-- The parameters of a connection that the native opens. -/
def NativeCall.opens : NativeCall → Option Params
  | .mysql_connect host user database password port => some ⟨host, user, database, password, port⟩
  | _ => none

/-- The connection handle that the native gives another connection, or none. -/
def NativeCall.replaces : NativeCall → Option Cell
  | .mysql_reconnect c | .mysql_close c => some c
  | _ => none

/-- The handler that the native gives another connection, or none. -/
def NativeCall.replaced (n : NativeCall) (s : State) : Option HandlerPtr :=
  n.replaces.bind (handlerAt s)

/-- `mysql_connect` finds no handler that holds a connection, and `mysql_reconnect` and `mysql_close`
are called for handlers that are connected or hold none. -/
def NoneAbandoned (n : NativeCall) (s : State) : Prop :=
  (∀ P ∈ n.opens, ∀ h ∈ s.SQLHandle, ∀ x ∈ s.heap h, x.params = P → x.m_stConnectionPtr = none) ∧
    ∀ h ∈ n.replaced s, ConnectedIfOpen h s

lemma Event.Quiet.spares {e : Event} (he : e.Quiet) : e.Spares := by
  cases e with
  | assign u h a => cases a <;> first | exact he.elim | trivial
  | enter u h f c => cases f <;> first | exact he.elim | trivial
  | _ => first | exact he.elim | trivial

lemma Event.Clears.spares {e : Event} (he : e.Clears) : e.Spares := by
  cases e with
  | assign u h a => cases a <;> first | exact he.elim | trivial
  | _ => first | exact he.elim | trivial

section

variable {M : Machine Stmt Fault State ThreadId Reply} {b : Build} [IsPlugin M b] {s : State}

attribute [local simp] Stmt.Only Event.Spares Event.KeepsLink this load call access assign onResult
  lockMutex unlockMutex bind_bind ite_bind all_lift_bind all_ite withHandle

lemma body_spares {n : NativeCall} (ho : n.opens = none) (hr : n.replaces = none) :
    (body n).All (Stmt.Only .main Event.Spares) := by
  cases n with
  | mysql_connect => cases ho
  | mysql_reconnect => cases hr
  | mysql_close => cases hr
  | mysql_query => simp [body, nMysqlQuery, oldQuery, enqueue, nonThreadedQuery]
  | mysql_query_callback => simp [body, nMysqlQueryCallback, query, enqueue]
  | mysql_ping => simp [body, nMysqlPing, ping, Debug]
  | _ => exact all_only_mono (body_quiet .main (by trivial)) fun _ => Event.Quiet.spares

include b

lemma nMysqlConnect_secured {P : Params} (hs : Secured s)
    (hfree : ∀ h ∈ s.SQLHandle, ∀ x ∈ s.heap h, x.params = P → x.m_stConnectionPtr = none) :
    (nMysqlConnect P.host P.user P.db P.pass P.port).wp M .main (fun _ => ClosedOnce)
      (fun _ => Secured) s := by
  refine wp_nMysqlConnect (fun _ => hs.once) (fun i h x hi hx hsame => ?_)
    (wp_append (fun _ => hs.once) fun s₁ hnew => ?_)
  · refine wp_assign (fun _ => hs.once) fun s₁ heff => ?_
    refine connect_secured (hs.spares heff trivial) ?_
    rw [heff.connection trivial, State.connection, hx]
    exact hfree h (List.mem_of_getElem? hi) x hx (sameConnection_iff.mp hsame)
  · refine wp_mono (connect_secured (hs.new hnew) ?_) fun _ s₂ hs₂ s₃ hpush =>
      hs₂.spares hpush trivial
    rw [State.connection, hnew.heap, Event.onObject, if_pos rfl]
    rfl

lemma nMysqlReconnect_secured {c : Cell} (hs : Secured s)
    (hlive : ∀ h ∈ handlerAt s c, ConnectedIfOpen h s) :
    (nMysqlReconnect c).wp M .main (fun _ => ClosedOnce) (fun _ => Secured) s := by
  refine wp_withHandle (fun _ => hs) fun h hh => ?_
  rw [wp_bind]
  refine wp_mono (disconnect_secured hs) fun _ s₁ hs₁ => ?_
  refine wp_assign (fun _ => hs₁.1.once) fun s₂ heff => ?_
  rw [wp_bind]
  refine wp_mono (connect_secured (hs₁.1.spares heff trivial) ?_) fun _ _ h => h
  rw [heff.connection trivial]
  exact hs₁.2 (hlive h hh)

/-- What `FreeResult` does changes no connection and no flag. -/
lemma freeResult_secured {h : HandlerPtr} (hs : Secured s ∧ ConnectedIfOpen h s) :
    (freeResult h).wp M .main (fun _ => ClosedOnce) (fun _ s' => Secured s' ∧ ConnectedIfOpen h s')
      s := by
  have hp : (freeResult h).All (Stmt.Only .main Event.KeepsLink) := by
    simp [freeResult]
  refine wp_of_only (I := fun s' => Secured s' ∧ ConnectedIfOpen h s') IsPlugin.step hp
    (fun e s s' he hI heff => ⟨hI.1.spares heff he.1, fun x' hx' hptr => ?_⟩)
    (fun _ _ hI => hI.1.once) hs
  rw [Option.mem_def, heff.heap h] at hx'
  cases e with
  | assign u q a =>
    simp only [Event.onObject] at hx'
    split_ifs at hx' with hq
    · obtain ⟨x, hx, rfl⟩ := Option.map_eq_some_iff.mp hx'
      cases a with
      | m_bIsConnected v => exact absurd rfl (he.2 u q v)
      | m_stConnectionPtr c => exact he.1.elim
      | _ => exact hI.2 x hx hptr
    · exact hI.2 x' hx' hptr
  | new => exact he.1.elim
  | delete => exact he.1.elim
  | _ => exact hI.2 x' hx' hptr

lemma nMysqlClose_secured {c : Cell} (hs : Secured s)
    (hlive : ∀ h ∈ handlerAt s c, ConnectedIfOpen h s) :
    (nMysqlClose c).wp M .main (fun _ => ClosedOnce) (fun _ => Secured) s := by
  refine wp_nMysqlClose (fun _ => hs) fun h hh => ?_
  refine wp_closing (I := Secured) (R := fun x => x.m_stConnectionPtr ≠ none → x.m_bIsConnected = true)
    (fun _ _ hs => hs.once) (fun e s s' he hs heff => hs.spares heff he.spares) (fun _ hx => hx) hs
    (hlive h hh) fun s₂ hs₂ hlive₂ => ?_
  rw [wp_bind]
  refine wp_mono (freeResult_secured ⟨hs₂, hlive₂⟩) fun _ s₃ hs₃ => ?_
  refine wp_mono (disconnect_secured hs₃.1) ?_
  intro _ s₄ hs₄ s₅ s₆ s₇ _ hdelete herase hunlock
  exact ((hs₄.1.delete hdelete (hs₄.2 hs₃.2)).spares herase trivial).spares hunlock trivial

lemma body_secured {n : NativeCall} (hs : Secured s) (hn : NoneAbandoned n s) :
    (body n).wp M .main (fun _ => ClosedOnce) (fun _ => Secured) s := by
  cases ho : n.opens with
  | some P =>
    cases n <;> cases ho
    exact nMysqlConnect_secured hs (hn.1 _ rfl)
  | none =>
    cases hr : n.replaces with
    | some c =>
      cases n <;> cases hr
      · exact nMysqlReconnect_secured hs hn.2
      · exact nMysqlClose_secured hs hn.2
    | none => exact wp_mono (wp_spares (body_spares ho hr) hs) fun _ _ h => h.1

end

/-! ### Runs -/

/-- No ping of the worker may fail. -/
def NeverFails (_ : HandlerPtr) (_ : State) : Prop := False

section

variable {b : Build} {s : State}

attribute [local simp] Stmt.Only Event.Spares this call access assign bind_bind ite_bind all_lift_bind
  all_ite

lemma executeFront_spares (h : HandlerPtr) :
    (executeFront h).All (Stmt.Only .worker Event.Spares) := by
  simp only [executeFront, this, all_lift_bind]
  refine ⟨trivial, fun x => ?_⟩
  cases x.queueData with
  | nil => trivial
  | cons q qs => simp [front, queryFailed]

lemma workerVisit_secured (i : Nat) (hs : Secured s) :
    (workerVisit i).wp (answering b NoneAbandoned NeverFails) .worker (fun _ => ClosedOnce)
      (fun _ => Secured) s := by
  refine wp_at (fun _ => hs.once) fun h _ => ?_
  refine wp_guard (fun _ => hs.once) (fun _ _ _ => hs) fun x s₁ _ _ hvisit => ?_
  have hs₁ := hs.spares hvisit trivial
  rw [if_pos rfl, call, bind_bind]
  refine wp_enter (fun _ => hs₁.once) (fun _ _ heff => hs₁.once.spares heff rfl)
    fun c s₂ henter => ?_
  refine wp_pinged pings_of_answering fun v s₃ hv hleave => ?_
  cases v with
  | false => exact (hv rfl).elim
  | true =>
    have hs₃ := (hs₁.spares henter trivial).spares hleave trivial
    rw [if_pos rfl, wp_bind]
    exact wp_mono (wp_spares (executeFront_spares h) hs₃) fun _ s₄ hs₄ =>
      wp_mono (wp_spares (by simp) hs₄.1) fun _ _ h => h.1

lemma native_secured (n : NativeCall) (hs : Secured s) :
    (native n).wp (answering b NoneAbandoned NeverFails) .main (fun _ => ClosedOnce)
      (fun _ => Secured) s := by
  refine wp_native fun r s₁ hr heff => ?_
  have hn : NoneAbandoned n s₁ := by
    have hheap : s₁.heap = s.heap := funext heff.heap
    have htable : s₁.SQLHandle = s.SQLHandle := heff.table
    have hn := hr.2.1 n rfl
    have hat : handlerAt s₁ = handlerAt s := by
      funext c
      rw [handlerAt, handlerAt, htable]
    simpa only [NoneAbandoned, NativeCall.replaced, ConnectedIfOpen, hat, hheap, htable] using hn
  exact wp_mono (body_secured (hs.spares heff trivial) hn) fun v s₂ hs₂ s₃ heff₃ =>
    hs₂.spares heff₃ trivial

end

lemma Event.OfServer.spares {e : Event} (he : e.OfServer) : e.Spares := by
  cases e with
  | assign u h a => cases u <;> cases a <;> first | exact he.elim | trivial
  | _ => first | exact he.elim | trivial

lemma Secured.init_state (p_Amx : List Amx) : Secured (State.init p_Amx) where
  custody := by
    have hconn : (State.init p_Amx).connection = fun _ => none := rfl
    have hopen : (State.init p_Amx).opened = ∅ :=
      Set.eq_empty_of_forall_notMem fun c hc => Nat.not_lt_zero c hc.1
    rw [hconn, hopen]
    exact .nobody
  released := .nil _ _
  fresh _ _ := rfl

/-- The open connections are the ones that the handlers in the table hold, each of them one. -/
structure Owned (s : State) : Prop where
  opened : ∀ c, (c < s.lib.nextConn ∧ (s.lib.conn c).closed = false) ↔
    ∃ h ∈ s.SQLHandle, ∃ x, s.heap h = some x ∧ x.m_stConnectionPtr = some c
  unique : ∀ (i j : Nat) h h' x y c, s.SQLHandle[i]? = some h → s.SQLHandle[j]? = some h' →
    s.heap h = some x → s.heap h' = some y → x.m_stConnectionPtr = some c →
    y.m_stConnectionPtr = some c → i = j

lemma Secured.owned {s : State} (hs : Secured s) (hh : Housed s) : Owned s where
  opened c := by
    rw [← State.mem_opened, hs.custody.live_iff]
    constructor
    · rintro ⟨h, hc⟩
      obtain ⟨x, hx, hptr⟩ := Option.bind_eq_some_iff.mp hc
      exact ⟨h, hh.entry h x hx, x, hx, hptr⟩
    · rintro ⟨h, -, x, hx, hptr⟩
      exact ⟨h, Option.bind_eq_some_iff.mpr ⟨x, hx, hptr⟩⟩
  unique i j h h' x y c hi hj hx hy hxc hyc := by
    obtain rfl : h = h' := hs.custody.unique h h' c (Option.bind_eq_some_iff.mpr ⟨x, hx, hxc⟩)
      (Option.bind_eq_some_iff.mpr ⟨y, hy, hyc⟩)
    exact (List.getElem?_inj (List.getElem?_eq_some_iff.mp hi).1 hh.placed.nodup).mp
      (hi.trans hj.symm)

/-- In every run in which no handler is connected again while it holds a connection, none that holds
a connection it is not connected with is reconnected or closed, and no ping of the worker fails. No
connection is closed twice, wherever the last action ends. -/
theorem connections_owned (b : Build) (p_Amx : List Amx) {s : State}
    (h : Serial (answering b NoneAbandoned NeverFails) (Acts Set.univ) (State.init p_Amx) s) :
    Owned s ∧ ClosedOnce s ∧ ∀ (a : Action) o s',
      Run (answering b NoneAbandoned NeverFails) a.thread a.code s o s' → ClosedOnce s' := by
  have hserver (e : Event) (s s' : State) (he : e.OfServer) (hs : Secured s)
      (heff : Effect .main e s s') : Secured s' := hs.spares heff he.spares
  have hsec : Secured s :=
    serial_invariant (confined_univ _) (fun n _ => Set.mem_univ n) hserver
      (fun n s _ hs => wp_returns (native_secured n hs))
      (fun i s hs => wp_returns (workerVisit_secured i hs)) h (.init_state p_Amx)
  refine ⟨hsec.owned (serial_housed p_Amx h), hsec.once, fun a o s' hrun => ?_⟩
  have hwp : a.code.wp (answering b NoneAbandoned NeverFails) a.thread (fun _ => ClosedOnce)
      (fun _ => Secured) s :=
    action_wp (confined_univ _) (fun n _ => Set.mem_univ n) (fun _ _ hs => hs.once) hserver
      (fun n s _ hs => native_secured n hs) (fun i s hs => workerVisit_secured i hs) (Set.mem_univ a) hsec
  cases o with
  | ok v => exact (((wp_iff _ _ _).mp hwp).1 v s' hrun).once
  | error e => exact ((wp_iff _ _ _).mp hwp).2 e s' hrun

instance (h : HandlerPtr) (s : State) : Decidable (ConnectedIfOpen h s) :=
  inferInstanceAs (Decidable (∀ x ∈ s.heap h, x.m_stConnectionPtr ≠ none → x.m_bIsConnected = true))

instance (n : NativeCall) (s : State) : Decidable (NoneAbandoned n s) :=
  inferInstanceAs (Decidable ((∀ P ∈ n.opens, ∀ h ∈ s.SQLHandle, ∀ x ∈ s.heap h, x.params = P →
    x.m_stConnectionPtr = none) ∧ ∀ h ∈ n.replaced s, ConnectedIfOpen h s))

instance (h : HandlerPtr) (s : State) : Decidable (NeverFails h s) :=
  inferInstanceAs (Decidable False)

/-- Two connections, of which one is replaced and the other one closed. -/
theorem connections_owned_replaced :
    ∃ s, play ((plugin .win32).checked fun t a r s =>
        decide (a.Meets NoneAbandoned s ∧ a.Pings NeverFails t r s)) (fun _ _ => {})
        [.native (.mysql_connect ['a'] [] [] [] 0), .native (.mysql_connect ['b'] [] [] [] 0),
          .native (.mysql_query_callback 0 ['q'] [] 0 1), .visit 0, .native (.mysql_reconnect 1),
          .native (.mysql_close 2)] (State.init []) = some s ∧ s.lib.nextConn = 3 ∧ Owned s := by
  have hrun : (play ((plugin .win32).checked fun t a r s =>
      decide (a.Meets NoneAbandoned s ∧ a.Pings NeverFails t r s)) (fun _ _ => {})
      [.native (.mysql_connect ['a'] [] [] [] 0), .native (.mysql_connect ['b'] [] [] [] 0),
        .native (.mysql_query_callback 0 ['q'] [] 0 1), .visit 0, .native (.mysql_reconnect 1),
        .native (.mysql_close 2)] (State.init [])).map (·.lib.nextConn) = some 3 := by decide
  obtain ⟨s, hs, hn⟩ := Option.map_eq_some_iff.mp hrun
  exact ⟨s, hs, hn, (connections_owned .win32 []
    (serial_of_checked (fun _ _ _ _ => of_decide_eq_true) (by simp) hs)).1⟩

/-- The same connection is asked for twice: the first connection object stays open, and no handler
holds it. -/
theorem connection_lost :
    ¬ ∀ (b : Build) (p_Amx : List Amx) (s : State), Runs b Set.univ (State.init p_Amx) s →
      Owned s := by
  intro hall
  have hrun : (play (allowing .win32 Set.univ) (fun _ _ => {})
      [.native (.mysql_connect ['a'] [] [] [] 0), .native (.mysql_connect ['a'] [] [] [] 0)]
        (State.init [])).map (fun s => (s.SQLHandle, s.connection 0, s.lib.nextConn,
          (s.lib.conn 0).closed)) = some ([0], some 1, 2, false) := by decide
  obtain ⟨s, hs, hvalues⟩ := Option.map_eq_some_iff.mp hrun
  simp only [Prod.mk.injEq] at hvalues
  obtain ⟨htable, hconn, hn, hopen⟩ := hvalues
  obtain ⟨h, hh, x, hx, hptr⟩ :=
    ((hall .win32 [] s (runs_of_play_univ hs)).opened 0).mp ⟨hn ▸ Nat.zero_lt_two, hopen⟩
  rw [htable, List.mem_singleton] at hh
  rw [State.connection, ← hh, hx, Option.bind_some, hptr] at hconn
  cases hconn

end MySQLPlugin
