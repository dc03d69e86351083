import MySQLPlugin.Logic.Runs

/-!
# Connection handles as names

A connection handle of a script is the position of a handler in `SQLHandle`. `mysql_connect` hands
out the position of a new entry, or of an old one with the same parameters; `mysql_close` erases
an entry and moves those behind it. `Names` relates the table to the table of an earlier state.
-/

namespace MySQLPlugin

open Threads Dispatch Prog CMySQLHandler Natives

/-- The handler that a native works on when it is called with the connection handle `c`. -/
def handlerAt (s : State) (c : Cell) : Option HandlerPtr := s.SQLHandle[(c - 1).toNat]?

/-- The table holds no handler twice, and only handlers that have been constructed. -/
structure Placed (s : State) : Prop where
  nodup : s.SQLHandle.Nodup
  lt : ∀ h ∈ s.SQLHandle, h < s.nextHandler
  length : s.SQLHandle.length ≤ maxHandlers

lemma placed_init (p_Amx : List Amx) : Placed (State.init p_Amx) :=
  ⟨List.nodup_nil, by simp [State.init], Nat.zero_le _⟩

/-- The table is what the events since `s₀` have made of the table of `s₀`. -/
structure Names (s₀ s : State) : Prop where
  placed : Placed s
  since : ∃ es, s.trace = s₀.trace ++ es ∧
    s.SQLHandle = Edit.run s₀.SQLHandle (es.filterMap Event.edit) ∧
    ∀ h, .pushBack h ∈ es → s₀.nextHandler ≤ h
  next : s₀.nextHandler ≤ s.nextHandler

lemma Names.refl {s : State} (hs : Placed s) : Names s s where
  placed := hs
  since := ⟨[], by simp⟩
  next := le_refl _

/-- The event keeps every handler and its place. -/
def Event.Stays : Event → Prop
  | .pushBack _ | .erase _ _ | .new _ _ _ _ _ _ | .delete _ => False
  | _ => True

lemma Event.Quiet.stays {e : Event} (he : e.Quiet) : e.Stays := by
  cases e <;> trivial

lemma Event.OfVisit.stays {e : Event} (he : e.OfVisit) : e.Stays := by
  cases e <;> trivial

lemma Event.OfServer.stays {e : Event} (he : e.OfServer) : e.Stays := by
  cases e <;> trivial

section

variable {s₀ s s' : State} {t : ThreadId} {e : Event}

lemma Effect.edits (heff : Effect t e s s') {T : List HandlerPtr} {es : List Event}
    (hT : s.SQLHandle = Edit.run T (es.filterMap Event.edit)) :
    s'.SQLHandle = Edit.run T ((es ++ [e]).filterMap Event.edit) := by
  rw [heff.table, hT, List.filterMap_append, Edit.run_append]
  cases he : e.edit <;> simp [Event.onTable, he]

/-- An event other than `push_back` moves or removes entries only. -/
lemma Placed.step (hs : Placed s) (heff : Effect t e s s') (he : ∀ h, e ≠ .pushBack h) :
    Placed s' := by
  have hnext : s.nextHandler ≤ s'.nextHandler := by
    rw [heff.nextHandler]
    cases e <;> first | exact le_refl _ | exact Nat.le_succ _
  have hsub : s'.SQLHandle.Sublist s.SQLHandle := by
    rw [heff.table]
    cases e with
    | pushBack h => exact absurd rfl (he h)
    | erase i h => exact List.eraseIdx_sublist _ _
    | _ => exact List.Sublist.refl _
  refine ⟨hs.nodup.sublist hsub, fun h hh => ?_, hsub.length_le.trans hs.length⟩
  exact Nat.lt_of_lt_of_le (hs.lt h (hsub.mem hh)) hnext

/-- A new handler is appended. -/
lemma Placed.push {h : HandlerPtr} (hs : Placed s) (heff : Effect t (.pushBack h) s s')
    (hfresh : h ∉ s.SQLHandle) (hlt : h < s.nextHandler) (hlen : s.SQLHandle.length < maxHandlers) :
    Placed s' := by
  have htable : s'.SQLHandle = s.SQLHandle ++ [h] := heff.table
  have hnext : s'.nextHandler = s.nextHandler := heff.nextHandler
  refine ⟨?_, fun p hp => ?_, ?_⟩
  · rw [htable]
    exact List.nodup_append.mpr ⟨hs.nodup, List.nodup_singleton h, fun p hp q hq heq =>
      hfresh (List.mem_singleton.mp hq ▸ heq ▸ hp)⟩
  · rw [hnext]
    rw [htable] at hp
    rcases List.mem_append.mp hp with hp | hp
    · exact hs.lt p hp
    · exact List.mem_singleton.mp hp ▸ hlt
  · rw [htable, List.length_append, List.length_singleton]
    exact hlen

lemma Names.step (hn : Names s₀ s) (heff : Effect t e s s') (he : ∀ h, e ≠ .pushBack h) :
    Names s₀ s' := by
  have hnext : s.nextHandler ≤ s'.nextHandler := by
    rw [heff.nextHandler]
    cases e <;> first | exact le_refl _ | exact Nat.le_succ _
  obtain ⟨es, htrace, htable, hpush⟩ := hn.since
  refine ⟨hn.placed.step heff he, ⟨es ++ [e], ?_, heff.edits htable, ?_⟩, hn.next.trans hnext⟩
  · rw [heff.trace, htrace, List.append_assoc]
  · intro h hh
    rcases List.mem_append.mp hh with hh | hh
    · exact hpush h hh
    · exact absurd (List.mem_singleton.mp hh).symm (he h)

lemma Names.stays (hn : Names s₀ s) (heff : Effect t e s s') (he : e.Stays) : Names s₀ s' := by
  refine hn.step heff fun h heq => ?_
  subst heq
  exact he

lemma Names.push {h : HandlerPtr} (hn : Names s₀ s) (heff : Effect t (.pushBack h) s s')
    (hfresh : h ∉ s.SQLHandle) (hlt : h < s.nextHandler) (hge : s₀.nextHandler ≤ h)
    (hlen : s.SQLHandle.length < maxHandlers) : Names s₀ s' := by
  have hnext : s'.nextHandler = s.nextHandler := heff.nextHandler
  obtain ⟨es, htrace, hedits, hpush⟩ := hn.since
  refine ⟨hn.placed.push heff hfresh hlt hlen, ⟨es ++ [.pushBack h], ?_, heff.edits hedits, ?_⟩, ?_⟩
  · rw [heff.trace, htrace, List.append_assoc]
  · intro p hp
    rcases List.mem_append.mp hp with hp | hp
    · exact hpush p hp
    · simpa using (Event.pushBack.inj (List.mem_singleton.mp hp)) ▸ hge
  · rw [hnext]
    exact hn.next

end

/-! ### Entries that keep their position -/

lemma push_mem_edits {es : List Event} {h : HandlerPtr} :
    Edit.push h ∈ es.filterMap Event.edit ↔ .pushBack h ∈ es := by
  rw [List.mem_filterMap]
  constructor
  · rintro ⟨e, he, hedit⟩
    cases e <;> simp [Event.edit] at hedit
    exact hedit ▸ he
  · exact fun he => ⟨_, he, rfl⟩

lemma erase_mem_edits {es : List Event} {j : Nat} :
    Edit.erase j ∈ es.filterMap Event.edit ↔ ∃ q, .erase j q ∈ es := by
  rw [List.mem_filterMap]
  constructor
  · rintro ⟨e, he, hedit⟩
    cases e <;> simp [Event.edit] at hedit
    exact ⟨_, hedit ▸ he⟩
  · rintro ⟨q, he⟩
    exact ⟨_, he, rfl⟩

/-- An entry has kept its position if and only if all entries erased since were behind it. -/
lemma Names.position_iff {s₀ s : State} {es : List Event} {i : Nat} {h : HandlerPtr}
    (hn : Names s₀ s) (hs₀ : Placed s₀) (hi : s₀.SQLHandle[i]? = some h)
    (hes : s.trace = s₀.trace ++ es) :
    s.SQLHandle[i]? = some h ↔ ∀ j q, .erase j q ∈ es → i < j := by
  obtain ⟨es', htrace, hedits, hpush⟩ := hn.since
  obtain rfl : es = es' := List.append_cancel_left (hes.symm.trans htrace)
  have hfresh : Edit.push h ∉ es.filterMap Event.edit := fun hmem =>
    Nat.not_lt_of_le (hpush h (push_mem_edits.mp hmem)) (hs₀.lt h (List.mem_of_getElem? hi))
  have honly : ∀ j, s₀.SQLHandle[j]? = some h → j = i := fun j hj =>
    (List.getElem?_inj (List.getElem?_eq_some_iff.mp hj).1 hs₀.nodup).mp (hj.trans hi.symm)
  rw [hedits, Edit.getElem?_run_iff hfresh hi honly]
  simp only [erase_mem_edits, forall_exists_index]

/-! ### The parameters of a handler -/

/-- The handler at `p` has been constructed with these parameters. -/
def HasParams (host user db pass : CString) (port : Cell) (p : HandlerPtr) (s : State) : Prop :=
  ∃ x, s.heap p = some x ∧ sameConnection host user db pass port x

lemma HasParams.step {host user db pass : CString} {port : Cell} {p : HandlerPtr} {s s' : State}
    {t : ThreadId} {e : Event} (h : HasParams host user db pass port p s) (heff : Effect t e s s')
    (hlt : p < s.nextHandler) (he : e ≠ .delete p) : HasParams host user db pass port p s' := by
  obtain ⟨x, hx, hsame⟩ := h
  rcases heff.object hx hlt he with ⟨a, rfl, hx'⟩ | hx'
  · refine ⟨_, hx', ?_⟩
    cases a <;> exact hsame
  · exact ⟨x, hx', hsame⟩

/-! ### The natives and the table -/

section

attribute [local simp] Stmt.Only Event.Stays this call access assign lockMutex unlockMutex bind_bind
  ite_bind all_lift_bind all_ite withHandle

lemma connect_stays (t : ThreadId) (h : HandlerPtr) :
    (connect h).All (Stmt.Only t Event.Stays) := by
  simp [connect]

lemma body_stays {n : NativeCall} (t : ThreadId) (hn : n.Open)
    (hconn : ∀ host user db pass port, n ≠ .mysql_connect host user db pass port) :
    (body n).All (Stmt.Only t Event.Stays) := by
  cases n with
  | mysql_close => exact hn.elim
  | mysql_connect => exact absurd rfl (hconn _ _ _ _ _)
  | mysql_reconnect => simp [body, nMysqlReconnect, disconnect, closeConnection, clearQueue, connect]
  | mysql_query => simp [body, nMysqlQuery, oldQuery, enqueue, nonThreadedQuery]
  | mysql_query_callback => simp [body, nMysqlQueryCallback, query, enqueue]
  | mysql_ping => simp [body, nMysqlPing, ping, Debug]
  | _ => exact all_only_mono (body_quiet t (by trivial)) fun _ => Event.Quiet.stays

lemma nMysqlClose_noPush (t : ThreadId) (c : Cell) :
    (nMysqlClose c).All (Stmt.Only t fun e => ∀ h, e ≠ .pushBack h) := by
  simp [nMysqlClose, clearQueue, destruct, freeResult, load, onResult, disconnect, closeConnection]

/-- `mysql_close` for the handler `h`, up to the end of the object. -/
def closing (h : HandlerPtr) : Code Unit := do
  lockMutex
  clearQueue h
  let _ ← freeResult h
  disconnect h

lemma clearQueue_stays (t : ThreadId) (h : HandlerPtr) :
    (clearQueue h).All (Stmt.Only t Event.Stays) := by
  simp [clearQueue]

lemma freeResult_stays (t : ThreadId) (h : HandlerPtr) :
    (freeResult h).All (Stmt.Only t Event.Stays) := by
  simp [freeResult, load, onResult]

lemma disconnect_stays (t : ThreadId) (h : HandlerPtr) :
    (disconnect h).All (Stmt.Only t Event.Stays) := by
  simp [disconnect, closeConnection, clearQueue]

lemma closing_stays (t : ThreadId) (h : HandlerPtr) :
    (closing h).All (Stmt.Only t Event.Stays) := by
  refine ⟨⟨trivial, trivial⟩, fun _ => (clearQueue_stays t h).bind fun _ => ?_⟩
  exact (freeResult_stays t h).bind fun _ => disconnect_stays t h

/-- The event locks the mutex or empties a queue. -/
def Event.Clears : Event → Prop
  | .lock _ | .relock _ | .unlock _ | .assign _ _ .queueData_popAll => True
  | _ => False

lemma clearQueue_clears (t : ThreadId) (h : HandlerPtr) :
    (clearQueue h).All (Stmt.Only t Event.Clears) := by
  simp [clearQueue, Event.Clears]

end

lemma Effect.clears {t : ThreadId} {e : Event} {s s' : State} (heff : Effect t e s s')
    (he : e.Clears) {h : HandlerPtr} {R : CMySQLHandler → Prop}
    (hR : ∀ x, R x → R (Assign.queueData_popAll.apply x)) (hx : ∀ x ∈ s.heap h, R x) :
    ∀ x ∈ s'.heap h, R x := by
  intro x' hx'
  rw [Option.mem_def, heff.heap h] at hx'
  cases e with
  | assign u p a =>
    cases a with
    | queueData_popAll =>
      simp only [Event.onObject] at hx'
      split_ifs at hx' with hp
      · obtain ⟨x, hx₀, rfl⟩ := Option.map_eq_some_iff.mp hx'
        exact hR x (hx x hx₀)
      · exact hx x' hx'
    | _ => exact he.elim
  | lock => exact hx x' hx'
  | relock => exact hx x' hx'
  | unlock => exact hx x' hx'
  | _ => exact he.elim

section

variable {M : Machine Stmt Fault State ThreadId Reply} {b : Build} [IsPlugin M b] {t : ThreadId}
  {α : Type} {s : State}

include b

/-- Events other than `push_back` and `erase` leave the table alone. -/
lemma wp_table {p : Code α} (hp : p.All (Stmt.Only t Event.Stays)) :
    p.wp M t (fun _ _ => True) (fun _ s' => s'.SQLHandle = s.SQLHandle) s := by
  refine wp_of_only (I := fun s' => s'.SQLHandle = s.SQLHandle) IsPlugin.step hp
    (fun e s₁ s₂ he hI heff => ?_) (fun _ _ _ => trivial) rfl
  rw [heff.table, ← hI]
  cases e <;> first | rfl | exact he.elim

/-- The beginning of `mysql_close`: the lock and the emptied queue keep the other members of the
handler. -/
lemma wp_closing {E : Fault → State → Prop} {Q : Unit → State → Prop} {h : HandlerPtr}
    {I : State → Prop} {R : CMySQLHandler → Prop} (hE : ∀ e s, I s → E e s)
    (hI : ∀ e s s', e.Clears → I s → Effect .main e s s' → I s')
    (hR : ∀ x, R x → R (Assign.queueData_popAll.apply x)) (hs : I s) (hx : ∀ x ∈ s.heap h, R x)
    (hrest : ∀ s', I s' → (∀ x ∈ s'.heap h, R x) → (do
      let _ ← freeResult h
      disconnect h).wp M .main E Q s') : (closing h).wp M .main E Q s := by
  have keep {α : Type} {p : Code α} (hp : p.All (Stmt.Only .main Event.Clears)) {s : State}
      (hs : I s ∧ ∀ x ∈ s.heap h, R x) :
      p.wp M .main E (fun _ s' => I s' ∧ ∀ x ∈ s'.heap h, R x) s :=
    wp_of_only (I := fun s' => I s' ∧ ∀ x ∈ s'.heap h, R x) IsPlugin.step hp
      (fun e s s' he hI' heff => ⟨hI e s s' he hI'.1 heff, heff.clears he hR hI'.2⟩)
      (fun e s hI' => hE e s hI'.1) hs
  rw [closing, wp_bind]
  refine wp_mono (keep (by simp [lockMutex, Stmt.Only, Event.Clears]) ⟨hs, hx⟩) fun _ s₁ hs₁ => ?_
  rw [wp_bind]
  exact wp_mono (keep (clearQueue_clears .main h) hs₁) fun _ s₂ hs₂ => hrest s₂ hs₂.1 hs₂.2

/-- A native goes on with the handler at the position of its handle, if there is one. -/
lemma wp_withHandle {E : Fault → State → Prop} {c : Cell} {f : HandlerPtr → Code Cell}
    {Q : Cell → State → Prop} (hnone : handlerAt s c = none → Q 0 s)
    (hf : ∀ h, handlerAt s c = some h → (f h).wp M t E Q s) :
    (withHandle c f).wp M t E Q s := by
  refine wp_step (fun n s₁ hst => ?_) fun e s₁ hst => ?_
  · obtain ⟨rfl, rfl⟩ := step_size (IsPlugin.step hst)
    rw [wp_ite]
    split_ifs with hlen
    · exact hnone (List.getElem?_eq_none hlen)
    refine wp_step (fun h s₂ hst => ?_) fun e s₂ hst => ?_
    · obtain ⟨rfl, hh⟩ := step_at (IsPlugin.step hst)
      exact hf h hh
    · obtain ⟨he, rfl⟩ := step_at_iff.mp (IsPlugin.step hst)
      rw [List.getElem?_eq_getElem (Nat.lt_of_not_le hlen)] at he
      cases he
  · exact absurd (step_size_iff.mp (IsPlugin.step hst)).1 (by simp)

/-- The handle is the name of `h`. -/
lemma wp_handled {E : Fault → State → Prop} {c : Cell} {f : HandlerPtr → Code Cell}
    {Q : Cell → State → Prop} {h : HandlerPtr} (hh : handlerAt s c = some h)
    (hf : (f h).wp M t E Q s) : (withHandle c f).wp M t E Q s := by
  refine wp_withHandle (fun hnone => ?_) fun p hp => ?_
  · cases hnone.symm.trans hh
  · obtain rfl : h = p := Option.some.inj (hh.symm.trans hp)
    exact hf

/-- `mysql_close` ends the handler at the position of its handle, and then erases the entry. -/
lemma wp_nMysqlClose {E : Fault → State → Prop} {c : Cell} {Q : Cell → State → Prop}
    (hnone : handlerAt s c = none → Q 0 s)
    (hclosing : ∀ h, handlerAt s c = some h → (closing h).wp M .main E
      (fun _ s₁ => ∀ s₂ s₃ s₄, s₁.SQLHandle = s.SQLHandle → Effect .main (.delete h) s₁ s₂ →
        Effect .main (.erase (c - 1).toNat h) s₂ s₃ → Effect .main (.unlock .main) s₃ s₄ →
        Q 1 s₄) s) :
    (nMysqlClose c).wp M .main E Q s := by
  refine wp_step (fun n s₀ hst => ?_) fun _ _ hst => ?_
  swap
  · exact absurd (step_size_iff.mp (IsPlugin.step hst)).1 (by simp)
  obtain ⟨hs₀, rfl⟩ := step_size (IsPlugin.step hst)
  obtain rfl : s = s₀ := hs₀.symm
  rw [wp_ite]
  split_ifs with hlen
  · exact hnone (List.getElem?_eq_none hlen)
  obtain ⟨h, hh⟩ : ∃ h, handlerAt s c = some h :=
    ⟨_, List.getElem?_eq_getElem (Nat.lt_of_not_le hlen)⟩
  -- as long as the table stays, the entry is the handler
  have hat {α : Type} {R : α → State → Prop} {s' : State} {f : HandlerPtr → Code α}
      (htable : s'.SQLHandle = s.SQLHandle) (hf : (f h).wp M .main E R s') :
      (Prog.lift (.at (c - 1).toNat) >>= f).wp M .main E R s' := by
    have hi : s'.SQLHandle[(c - 1).toNat]? = some h := by
      rw [htable]
      exact hh
    exact wp_entry hi hf
  have hwp := hclosing h hh
  rw [closing, wp_bind] at hwp
  rw [wp_bind]
  refine wp_mono (wp_and hwp (wp_table (by simp [lockMutex, Stmt.Only, Event.Stays])))
    fun _ s₁ hs₁ => hat hs₁.2 ?_
  obtain ⟨hwp, ht₁⟩ := hs₁
  rw [wp_bind] at hwp
  rw [wp_bind]
  refine wp_mono (wp_and hwp (wp_table (clearQueue_stays .main h)))
    fun _ s₂ hs₂ => hat (hs₂.2.trans ht₁) ?_
  obtain ⟨hwp, ht₂⟩ := hs₂
  rw [wp_bind] at hwp
  rw [destruct, bind_bind, wp_bind]
  refine wp_mono (wp_and hwp (wp_table (freeResult_stays .main h))) fun _ s₃ hs₃ => ?_
  obtain ⟨hwp, ht₃⟩ := hs₃
  rw [bind_bind, wp_bind]
  refine wp_mono (wp_and hwp (wp_table (disconnect_stays .main h))) fun _ s₄ hs₄ => ?_
  obtain ⟨hQ, ht₄⟩ := hs₄
  have ht : s₄.SQLHandle = s.SQLHandle := ht₄.trans (ht₃.trans (ht₂.trans ht₁))
  have hi : s₄.SQLHandle[(c - 1).toNat]? = some h := by
    rw [ht]
    exact hh
  refine wp_step (fun _ s₅ hst => ?_) fun _ _ hst => ?_
  swap
  · obtain ⟨r, _, hrun⟩ := IsPlugin.step hst
    cases hrun
  have hdelete := step_delete (IsPlugin.step hst)
  have ht₅ : s₅.SQLHandle = s₄.SQLHandle := hdelete.table
  refine wp_step (fun _ s₆ hst => ?_) fun _ _ hst => ?_
  · obtain ⟨q, herase⟩ := step_erase (IsPlugin.step hst)
    have hq : s₅.SQLHandle[(c - 1).toNat]? = some q := herase.occurs
    rw [ht₅, hi] at hq
    cases hq
    refine wp_step (fun _ s₇ hst => ?_) fun _ _ hst => ?_
    · exact hQ s₅ s₆ s₇ ht hdelete herase (step_unlock (IsPlugin.step hst))
    · obtain ⟨r, _, hrun⟩ := IsPlugin.step hst
      cases hrun
  · obtain ⟨r, _, hrun⟩ := IsPlugin.step hst
    simp only [plugin, Stmt.run, ht₅, hi] at hrun
    cases hrun

/-- `mysql_connect` connects the first handler with these parameters again, or appends a new one. -/
lemma wp_nMysqlConnect {E : Fault → State → Prop} {host user db pass : CString} {port : Cell}
    {Q : Cell → State → Prop} (hE : ∀ e, E e s)
    (hfound : ∀ i h x, s.SQLHandle[i]? = some h → s.heap h = some x →
      sameConnection host user db pass port x → (do
        assign h (.m_bIsConnected false)
        connect h).wp M t E (fun _ => Q (BitVec.ofNat 32 (i + 1))) s)
    (happend : (append host user db pass port).wp M t E Q s) :
    (nMysqlConnect host user db pass port).wp M t E Q s := by
  refine wp_size ?_
  rw [wp_ite]
  split_ifs
  · refine wp_entries ?_
    suffices hreuse : ∀ l i, (∀ k, l[k]? = s.SQLHandle[i + k]?) →
        (reuse host user db pass port l i).wp M t E (fun o s' => match o with
          | none => s' = s
          | some k => Q (BitVec.ofNat 32 (k + 1)) s') s by
      rw [wp_bind]
      refine wp_mono (hreuse s.SQLHandle 0 fun k => by rw [Nat.zero_add]) fun o s' ho => ?_
      cases o with
      | none =>
        subst ho
        exact happend
      | some k => exact ho
    intro l
    induction l with
    | nil => exact fun i _ => rfl
    | cons h l ih =>
      intro i hl
      refine wp_this hE fun x hx => ?_
      rw [wp_ite]
      split_ifs with hsame
      · have hi : s.SQLHandle[i]? = some h := by simpa using (hl 0).symm
        rw [← bind_bind, wp_bind]
        exact wp_mono (hfound i h x hi hx hsame) fun _ _ hQ => hQ
      · refine ih (i + 1) fun k => ?_
        have hk := hl (k + 1)
        rw [List.getElem?_cons_succ] at hk
        rw [hk, Nat.add_right_comm, Nat.add_assoc]
  · exact happend

/-- A new handler connects before it is appended. -/
lemma wp_append {E : Fault → State → Prop} {host user db pass : CString} {port : Cell}
    {Q : Cell → State → Prop} (hE : ∀ e, E e s)
    (hnew : ∀ s₁, Effect t (.new s.nextHandler host user pass db port) s s₁ →
      (connect s.nextHandler).wp M t E (fun _ s₂ => ∀ s₃, Effect t (.pushBack s.nextHandler) s₂ s₃ →
        Q (BitVec.ofNat 32 s₃.SQLHandle.length) s₃) s₁) :
    (append host user db pass port).wp M t E Q s := by
  rw [append, construct, bind_bind]
  refine wp_new hE fun h s₁ heff => ?_
  obtain rfl : h = s.nextHandler := heff.occurs.1
  rw [bind_bind, wp_bind]
  exact wp_mono (hnew s₁ heff) fun _ s₂ hs₂ => wp_pushBack fun s₃ heff₃ => wp_size (hs₂ s₃ heff₃)

end

section

variable {s₀ s : State} {M : Machine Stmt Fault State ThreadId Reply} {b : Build}
  [IsPlugin M b] {host user db pass : CString} {port : Cell}

/-- The entry at position `i` is a handler with these parameters. -/
def Holds (host user db pass : CString) (port : Cell) (s : State) (i : Nat) : Prop :=
  ∃ p, s.SQLHandle[i]? = some p ∧ HasParams host user db pass port p s

include b

/-- What `Connect` keeps of the handler at position `i`. -/
lemma connect_holds {p : HandlerPtr} (hn : Names s₀ s) {i : Nat} (hi : s.SQLHandle[i]? = some p)
    (hp : HasParams host user db pass port p s) :
    (connect p).wp M .main (fun _ _ => True)
      (fun _ s' => Names s₀ s' ∧ Holds host user db pass port s' i) s := by
  refine wp_of_only (I := fun s => Names s₀ s ∧ Holds host user db pass port s i) IsPlugin.step
    (connect_stays .main p) (fun e s s' he hI heff => ?_) (fun _ _ _ => trivial) ⟨hn, p, hi, hp⟩
  obtain ⟨hn, q, hq, hparams⟩ := hI
  have hlt : q < s.nextHandler := hn.placed.lt q (List.mem_of_getElem? hq)
  refine ⟨hn.stays heff he, q, heff.position (fun j r hj => ?_) hq, hparams.step heff hlt ?_⟩
  · subst hj
    exact he
  · rintro rfl
    exact he

/-- The search of `mysql_connect` ends at a handler with these parameters. -/
lemma reuse_names (hn : Names s₀ s) (hs : List HandlerPtr) (i : Nat)
    (hdrop : ∀ k, hs[k]? = s.SQLHandle[i + k]?) :
    (reuse host user db pass port hs i).wp M .main (fun _ _ => True)
      (fun o s' => Names s₀ s' ∧ ∀ k, o = some k → Holds host user db pass port s' k) s := by
  induction hs generalizing i with
  | nil => exact ⟨hn, fun k hk => by cases hk⟩
  | cons h hs ih =>
    refine wp_this (fun _ => trivial) fun x hx => ?_
    rw [wp_ite]
    split_ifs with hsame
    · have hi : s.SQLHandle[i]? = some h := by simpa using (hdrop 0).symm
      refine wp_assign (fun _ => trivial) fun s₁ heff => ?_
      have hlt : h < s.nextHandler := hn.placed.lt h (List.mem_of_getElem? hi)
      have hi₁ := heff.position (by simp) hi
      have hp₁ : HasParams host user db pass port h s₁ :=
        HasParams.step ⟨x, hx, hsame⟩ heff hlt (by simp)
      rw [wp_bind]
      refine wp_mono (connect_holds (hn.stays heff trivial) hi₁ hp₁) fun _ s₂ hs₂ => ?_
      refine ⟨hs₂.1, fun k hk => ?_⟩
      obtain rfl : i = k := by simpa using hk
      exact hs₂.2
    · refine ih (i + 1) fun k => ?_
      have := hdrop (k + 1)
      rw [List.getElem?_cons_succ] at this
      rw [this, Nat.add_right_comm, Nat.add_assoc]

omit b [IsPlugin M b] in
/-- A handle that stands for the position of a handler with these parameters. -/
def Opened (host user db pass : CString) (port : Cell) (r : Cell) (s : State) : Prop :=
  ∃ i, r = BitVec.ofNat 32 (i + 1) ∧ i < maxHandlers ∧ Holds host user db pass port s i

lemma append_names (hn : Names s₀ s) :
    (append host user db pass port).wp M .main (fun _ _ => True)
      (fun r s' => Names s₀ s' ∧ Opened host user db pass port r s') s := by
  rw [append, construct, bind_bind]
  refine wp_step (fun h s₁ hst => ?_) fun _ _ _ => trivial
  have heff := step_new (IsPlugin.step hst)
  obtain ⟨rfl, hlen⟩ := heff.occurs
  have hn₁ : Names s₀ s₁ := hn.step heff (by simp)
  have hobj := heff.heap s.nextHandler
  rw [Event.onObject, if_pos rfl] at hobj
  -- the new handler stays outside the table while it connects
  let I : State → Prop := fun s' => Names s₀ s' ∧ s'.SQLHandle = s.SQLHandle ∧
    s.nextHandler < s'.nextHandler ∧ HasParams host user db pass port s.nextHandler s'
  have hI₁ : I s₁ := by
    refine ⟨hn₁, heff.table, ?_, _, hobj, by simp [sameConnection]⟩
    rw [heff.nextHandler]
    exact Nat.lt_succ_self _
  rw [bind_bind, wp_bind]
  refine wp_mono (wp_of_only (I := I) IsPlugin.step (connect_stays .main _)
    (fun e s' s'' he hI heff => ?_) (fun _ _ _ => trivial) hI₁) fun _ s₂ hI₂ => ?_
  · obtain ⟨hn', htable, hlt, hparams⟩ := hI
    refine ⟨hn'.stays heff he, ?_, ?_, hparams.step heff hlt ?_⟩
    · rw [heff.table, ← htable]
      cases e <;> first | rfl | exact he.elim
    · rw [heff.nextHandler]
      cases e <;> first | exact hlt | exact he.elim
    · rintro rfl
      exact he
  · obtain ⟨hn₂, htable, hlt, hparams⟩ := hI₂
    have hfresh : s.nextHandler ∉ s₂.SQLHandle := fun hmem =>
      Nat.lt_irrefl _ (hn.placed.lt _ (htable ▸ hmem))
    simp only [pure_eq, bind_ret]
    refine wp_step (fun u s₃ hst => ?_) fun _ _ _ => trivial
    have heff₃ := step_pushBack (IsPlugin.step hst)
    have hn₃ : Names s₀ s₃ := hn₂.push heff₃ hfresh hlt hn.next (htable ▸ hlen)
    have htable₃ : s₃.SQLHandle = s₂.SQLHandle ++ [s.nextHandler] := heff₃.table
    refine wp_step (fun n s₄ hst => ?_) fun _ _ _ => trivial
    obtain ⟨rfl, rfl⟩ := step_size (IsPlugin.step hst)
    refine ⟨hn₃, s₂.SQLHandle.length, ?_, htable ▸ hlen, s.nextHandler, ?_, ?_⟩
    · rw [htable₃, List.length_append, List.length_singleton]
    · rw [htable₃]
      exact List.getElem?_concat_length
    · exact hparams.step heff₃ hlt (by simp)

/-- `mysql_connect` returns a handle of a handler with the given parameters. -/
lemma nMysqlConnect_names (hn : Names s₀ s) :
    (nMysqlConnect host user db pass port).wp M .main (fun _ _ => True)
      (fun r s' => Names s₀ s' ∧ Opened host user db pass port r s') s := by
  refine wp_step (fun n s₁ hst => ?_) fun _ _ _ => trivial
  obtain ⟨rfl, rfl⟩ := step_size (IsPlugin.step hst)
  rw [wp_ite]
  split_ifs
  · refine wp_step (fun T s₂ hst => ?_) fun _ _ _ => trivial
    obtain ⟨rfl, rfl⟩ := step_table (IsPlugin.step hst)
    rw [wp_bind]
    refine wp_mono (reuse_names hn _ 0 fun k => by rw [Nat.zero_add]) fun o s₃ hs₃ => ?_
    cases o with
    | none => exact append_names hs₃.1
    | some i =>
      obtain ⟨p, hi, hp⟩ := hs₃.2 i rfl
      refine ⟨hs₃.1, i, rfl, ?_, p, hi, hp⟩
      exact Nat.lt_of_lt_of_le (List.getElem?_eq_some_iff.mp hi).1 hs₃.1.placed.length
  · exact append_names hn

lemma body_names (hn : Names s₀ s) (n : NativeCall) :
    (body n).wp M .main (fun _ _ => True) (fun _ => Names s₀) s := by
  by_cases hconn : ∃ host user db pass port, n = .mysql_connect host user db pass port
  · obtain ⟨host, user, db, pass, port, rfl⟩ := hconn
    exact wp_mono (nMysqlConnect_names hn) fun _ _ h => h.1
  by_cases hclose : n.Open
  · exact wp_of_only IsPlugin.step (body_stays .main hclose fun host user db pass port h =>
      hconn ⟨host, user, db, pass, port, h⟩) (fun e s s' he hI heff => hI.stays heff he)
      (fun _ _ _ => trivial) hn
  · cases n with
    | mysql_close c =>
      exact wp_of_only IsPlugin.step (nMysqlClose_noPush .main c)
        (fun e s s' he hI heff => hI.step heff he) (fun _ _ _ => trivial) hn
    | _ => exact absurd trivial hclose

/-- A native, with what is known of its result. -/
lemma native_wp {n : NativeCall} {Q : Cell → State → Prop} (hn : Names s₀ s)
    (hbody : ∀ s, Names s₀ s → (body n).wp M .main (fun _ _ => True)
      (fun r s' => Names s₀ s' ∧ Q r s') s)
    (hQ : ∀ r s s', Q r s → Names s₀ s → Effect .main (.mark (.return n r)) s s' → Q r s') :
    (native n).wp M .main (fun _ _ => True) (fun r s' => Names s₀ s' ∧ Q r s') s := by
  refine wp_mark fun s₁ heff => ?_
  rw [wp_bind]
  refine wp_mono (hbody s₁ (hn.stays heff trivial)) fun r s₂ h₂ => ?_
  exact wp_mark fun s₃ heff => ⟨h₂.1.stays heff trivial, hQ r s₂ s₃ h₂.2 h₂.1 heff⟩

lemma native_names (hn : Names s₀ s) (n : NativeCall) :
    (native n).wp M .main (fun _ _ => True) (fun _ => Names s₀) s :=
  wp_mono (native_wp (Q := fun _ _ => True) hn
    (fun _ hs => wp_mono (body_names hs n) fun _ _ h => ⟨h, trivial⟩) fun _ _ _ _ _ _ => trivial)
    fun _ _ h => h.1

/-- The opening native returns a handle of a handler with the given parameters. -/
lemma native_opened (hn : Names s₀ s) :
    (native (.mysql_connect host user db pass port)).wp M .main (fun _ _ => True)
      (fun r s' => Names s₀ s' ∧ Opened host user db pass port r s') s := by
  refine native_wp hn (fun _ hs => nMysqlConnect_names hs) fun r s s' hr hn' heff => ?_
  obtain ⟨i, hri, hlt, p, hp, hparams⟩ := hr
  exact ⟨i, hri, hlt, p, heff.position (by simp) hp, hparams.step heff
    (hn'.placed.lt p (List.mem_of_getElem? hp)) (by simp)⟩

/-- In every run the table is what its events have made of it. -/
theorem runs_names {N : Set NativeCall} (hs : Placed s₀) (h : Runs b N s₀ s) : Names s₀ s := by
  refine serial_invariant (A := Action.CallsOnly N) (confined_allowing b N) (fun n hn => hn n rfl)
    (fun e s s' he hn heff => ?_) (fun n s _ hn => native_names hn n) (fun i s hn => ?_) h (.refl hs)
  · exact hn.stays heff he.stays
  · exact wp_of_only step_of_allowing (workerVisit_ofVisit .worker i)
      (fun e s s' he hI heff => hI.stays heff he.stays) (fun _ _ _ => trivial) hn

end

end MySQLPlugin
