import MySQLPlugin.Handles.Identity

/-!
# A native works on one handler

A native with a connection handle reads and changes the handler at the position of the handle and no
other: its runs commute with every change of another object.
-/

namespace MySQLPlugin

open Threads Dispatch Prog CMySQLHandler Natives

/-! ### Statements that leave an object alone -/

/-- The state with another object, or none, at `q`. -/
def State.withObject (s : State) (q : HandlerPtr) (y : Option CMySQLHandler) : State :=
  { s with heap := Function.update s.heap q y }

section

variable {s : State} {p q : HandlerPtr} {y : Option CMySQLHandler}

@[simp] lemma withObject_self : (s.withObject q y).heap q = y := by simp [State.withObject]

lemma withObject_of_ne (hp : p ≠ q) : (s.withObject q y).heap p = s.heap p := by
  simp [State.withObject, hp]

lemma withObject_heap : s.withObject q (s.heap q) = s := by simp [State.withObject]

lemma setHandler_withObject {x : CMySQLHandler} (hp : p ≠ q) :
    (s.withObject q y).setHandler p x = (s.setHandler p x).withObject q y := by
  simp [State.withObject, State.setHandler, Function.update_comm hp]

end

/-- The statement neither reads nor changes the object at `q`. -/
def Stmt.Spares (q : HandlerPtr) {β : Type} : Stmt β → Prop
  | .new .. => False
  | .delete p | .this p | .load p _ | .assign p _ | .guard p | .enter p _ | .access p _ => p ≠ q
  | _ => True

lemma unlock_withObject (t : ThreadId) (s : State) (q : HandlerPtr) (y : Option CMySQLHandler) :
    unlock t (s.withObject q y) = (unlock t s).withObject q y := by
  obtain ⟨T, heap, next, scripts, debugging, mutex, inCall, lib, trace⟩ := s
  cases mutex with
  | none => rfl
  | some m =>
    simp only [unlock, State.withObject]
    split_ifs <;> rfl

/-- A statement that spares an object takes no notice of it. -/
lemma Stmt.run_withObject {b : Build} {t : ThreadId} {β : Type} {a : Stmt β} {r : Reply}
    {q : HandlerPtr} (ha : a.Spares q) (s : State) (y : Option CMySQLHandler) :
    a.run b t r (s.withObject q y)
      = (a.run b t r s).map fun o => (o.1, o.2.withObject q y) := by
  cases a with
  | new => exact ha.elim
  | lockMutex =>
    obtain ⟨T, heap, next, scripts, debugging, mutex, inCall, lib, trace⟩ := s
    cases mutex with
    | none => rfl
    | some m =>
      simp only [Stmt.run, Build.lock, State.withObject]
      split_ifs
      · cases b <;> rfl
      · rfl
  | unlockMutex => simp [Stmt.run, unlock_withObject]
  | «at» i =>
    have htable : (s.withObject q y).SQLHandle = s.SQLHandle := rfl
    simp only [Stmt.run, htable]
    cases s.SQLHandle[i]? <;> rfl
  | erase i =>
    have htable : (s.withObject q y).SQLHandle = s.SQLHandle := rfl
    simp only [Stmt.run, htable]
    cases s.SQLHandle[i]? <;> rfl
  | delete p =>
    have hne : p ≠ q := ha
    simp [Stmt.run, State.withObject, State.record, Function.update_comm hne]
  | this p =>
    simp only [Stmt.run, withObject_of_ne ha]
    cases s.heap p <;> rfl
  | load p m =>
    simp only [Stmt.run, withObject_of_ne ha]
    cases s.heap p with
    | none => rfl
    | some x =>
      simp only
      cases m.get x <;> rfl
  | assign p a =>
    simp only [Stmt.run, withObject_of_ne ha]
    cases s.heap p with
    | none => rfl
    | some x =>
      simp only [setHandler_withObject ha]
      split_ifs <;> rfl
  | guard p =>
    simp only [Stmt.run, withObject_of_ne ha]
    cases s.heap p with
    | none => rfl
    | some x =>
      simp only
      split_ifs <;> rfl
  | mysql_init p =>
    simp only [Stmt.run]
    split_ifs <;> rfl
  | enter p f =>
    simp only [Stmt.run, withObject_of_ne ha]
    cases s.heap p with
    | none => rfl
    | some x =>
      simp only
      cases x.m_stConnectionPtr <;> rfl
  | access p f =>
    simp only [Stmt.run, withObject_of_ne ha]
    cases s.heap p with
    | none => rfl
    | some x =>
      simp only
      cases x.m_stConnectionPtr <;> rfl
  | onResult p f =>
    cases p with
    | none => rfl
    | some p =>
      have hlib : (s.withObject q y).lib = s.lib := rfl
      simp only [Stmt.run, hlib]
      cases s.lib.live p <;> rfl
  | fieldName p i =>
    cases p with
    | none => rfl
    | some p =>
      have hlib : (s.withObject q y).lib = s.lib := rfl
      simp only [Stmt.run, hlib]
      cases (s.lib.live p.result).bind fun x => x.set.fields[p.index + i]? <;> rfl
  | rowValue p i =>
    cases p with
    | none => rfl
    | some p =>
      have hlib : (s.withObject q y).lib = s.lib := rfl
      simp only [Stmt.run, hlib]
      cases (s.lib.live p.result).bind fun x => x.set.rows[p.row]?.bind (·[i]?) <;> rfl
  | free p => cases p <;> rfl
  | Debug format args =>
    have hflag : (s.withObject q y).Debugging = s.Debugging := rfl
    simp only [Stmt.run, hflag]
    split_ifs <;> rfl
  | _ => rfl

section

variable {b : Build} {t : ThreadId} {q : HandlerPtr} {α : Type} {p : Code α} {s s' : State}
  {o : Except Fault α}

/-- A program that spares an object runs the same whatever the object is. -/
lemma run_withObject (hp : p.All (Stmt.Spares q)) (h : Run (plugin b) t p s o s')
    (y : Option CMySQLHandler) : Run (plugin b) t p (s.withObject q y) o (s'.withObject q y) := by
  refine h.map (φ := (·.withObject q y)) (fun a s o s' ha hst => ?_) hp
  obtain ⟨r, hr, hrun⟩ := hst
  refine ⟨r, hr, (Stmt.run_withObject ha s y).trans ?_⟩
  rw [show a.run b t r s = some (o, s') from hrun]
  rfl

lemma run_spares (hp : p.All (Stmt.Spares q)) (h : Run (plugin b) t p s o s') :
    s'.heap q = s.heap q := by
  refine h.invariant (I := fun s' => s'.heap q = s.heap q) (fun a s₁ o s₂ ha hs₁ hst => ?_) hp rfl
  obtain ⟨r, hr, hrun⟩ := hst
  have hsame := Stmt.run_withObject (b := b) (t := t) (r := r) ha s₁ (s₁.heap q)
  rw [withObject_heap, show a.run b t r s₁ = some (o, s₂) from hrun] at hsame
  have hs₂ : s₂ = s₂.withObject q (s₁.heap q) := by simpa using hsame
  rw [hs₂, withObject_self, hs₁]

end

/-! ### The natives -/

/-- The connection handle among the arguments of a native. -/
def NativeCall.connectionHandle : NativeCall → Option Cell
  | .mysql_connect .. | .mysql_debug _ => none
  | .mysql_reconnect c | .mysql_query _ _ _ c | .mysql_query_callback _ _ _ _ c
  | .mysql_set_charset _ c | .mysql_get_charset _ c | .mysql_insert_id c | .mysql_free_result c
  | .mysql_store_result c | .mysql_real_escape_string _ _ c | .mysql_field_count c
  | .mysql_reload c | .mysql_close c | .mysql_fetch_row_format _ _ c
  | .mysql_fetch_field_row _ _ c | .mysql_retrieve_row c | .mysql_ping c | .mysql_num_rows c
  | .mysql_num_fields c | .mysql_affected_rows c | .mysql_stat _ c | .mysql_warning_count c
  | .mysql_errno c | .mysql_fetch_int c | .mysql_fetch_float _ c | .mysql_fetch_field _ _ c => some c

section

variable {h q : HandlerPtr} (hq : h ≠ q)

include hq

attribute [local simp] Stmt.Spares this load call access onResult assign lockMutex unlockMutex
  bind_bind ite_bind all_lift_bind all_ite setString

lemma connect_spares : (connect h).All (Stmt.Spares q) := by
  simp [connect, hq]

lemma clearQueue_spares : (clearQueue h).All (Stmt.Spares q) := by
  simp [clearQueue, hq]

lemma destruct_spares : (destruct h).All (Stmt.Spares q) := by
  simp [destruct, freeResult, disconnect, closeConnection, clearQueue, hq]

lemma insertValue_spares (i : Nat) : (insertValue h i).All (Stmt.Spares q) := by
  simp [insertValue, hq]

lemma nextRow_spares : (nextRow h).All (Stmt.Spares q) := by
  simp [nextRow, hq]

lemma rowText_spares : (rowText h).All (Stmt.Spares q) := by
  simp only [rowText, load, all_lift_bind]
  refine ⟨hq, fun n => .bind (.forEach _ fun i => ?_) fun _ => by simp [hq]⟩
  exact (insertValue_spares hq i).bind fun _ => by simp [hq]

lemma fetchRow_spares : (fetchRow h).All (Stmt.Spares q) := by
  simp only [fetchRow, this, load, all_lift_bind, all_ite]
  refine ⟨hq, fun x => ⟨fun _ => trivial, fun _ => ⟨hq, fun r => ⟨fun _ => trivial,
    fun _ => (nextRow_spares hq).bind fun row => ?_⟩⟩⟩⟩
  simp only [all_ite]
  exact ⟨fun _ => rowText_spares hq, fun _ => by simp [hq]⟩

lemma insertField_spares (column : CString) (is : List Nat) :
    (insertField h column is).All (Stmt.Spares q) := by
  induction is with
  | nil => trivial
  | cons i is ih =>
    simp only [insertField, load, all_lift_bind, all_ite]
    exact ⟨hq, fun f => ⟨trivial, fun name => ⟨fun _ => insertValue_spares hq i, fun _ => ih⟩⟩⟩

lemma fetchField_spares (column : CString) : (fetchField h column).All (Stmt.Spares q) := by
  simp only [fetchField, this, load, all_lift_bind, all_ite]
  refine ⟨hq, fun x => ⟨fun _ => trivial, fun _ => ⟨hq, fun f => ⟨fun _ => trivial,
    fun _ => ⟨hq, fun r => ⟨fun _ => trivial, fun _ => ⟨hq, fun n => ?_⟩⟩⟩⟩⟩⟩⟩
  exact (insertField_spares hq column _).bind fun _ => by simp [hq]

lemma statistics_spares : (statistics h).All (Stmt.Spares q) := by
  simp only [statistics, this, call, all_lift_bind, all_ite, bind_bind]
  refine ⟨hq, fun x => ⟨fun _ => trivial, fun _ => ⟨hq, fun c => ⟨trivial, fun text => ?_⟩⟩⟩⟩
  cases text <;> trivial

end

section

attribute [local simp] Stmt.Spares this load call access onResult assign lockMutex unlockMutex
  bind_bind ite_bind all_lift_bind all_ite setString

/-- A native with a connection handle, other than `mysql_close`, goes on with the handler at its
position, and leaves all others alone. -/
lemma body_eq_withHandle {n : NativeCall} {c : Cell} (hc : n.connectionHandle = some c)
    (hn : n.Open) : ∃ f, body n = withHandle c f ∧ ∀ h q, h ≠ q → (f h).All (Stmt.Spares q) := by
  cases n with
  | mysql_connect => cases hc
  | mysql_debug => cases hc
  | mysql_close => exact hn.elim
  | mysql_fetch_row_format _ _ c' =>
    cases hc
    refine ⟨_, rfl, fun h q hq => ⟨hq, fun _ => ?_⟩⟩
    exact (fetchRow_spares hq).bind fun r => by simp [hq]
  | mysql_fetch_field_row _ _ c' =>
    cases hc
    exact ⟨_, rfl, fun h q hq => (fetchField_spares hq _).bind fun _ => by simp [hq]⟩
  | mysql_retrieve_row c' =>
    cases hc
    refine ⟨_, rfl, fun h q hq => ?_⟩
    simp only [retrieveRow, this, load, all_lift_bind, all_ite]
    exact ⟨hq, fun x => ⟨fun _ => trivial, fun _ => ⟨hq, fun r => ⟨fun _ => trivial,
      fun _ => (nextRow_spares hq).bind fun row => by simp⟩⟩⟩⟩
  | mysql_stat _ c' =>
    cases hc
    exact ⟨_, rfl, fun h q hq => (statistics_spares hq).bind fun _ => by simp⟩
  | mysql_fetch_int c' =>
    cases hc
    refine ⟨_, rfl, fun h q hq => ⟨hq, fun _ => ?_⟩⟩
    exact (fetchRow_spares hq).bind fun r => by simp [hq]
  | mysql_fetch_float _ c' =>
    cases hc
    refine ⟨_, rfl, fun h q hq => ⟨hq, fun _ => ?_⟩⟩
    exact (fetchRow_spares hq).bind fun r => by simp [hq]
  | _ =>
    cases hc
    refine ⟨_, rfl, fun h q hq => ?_⟩
    simp [hq, disconnect, closeConnection, clearQueue, connect, oldQuery, enqueue, nonThreadedQuery,
      CMySQLHandler.query, setCharset, getCharset, insertId, freeResult, storeResult, escapeStr, Debug,
      fieldCount, reload, ping, numRows, numFields, affectedRows, warningCount, fetchFieldName]

end

section

variable {b : Build} {s s' : State} {c : Cell} {h : HandlerPtr}

/-- `mysql_close` with the handler at the position of its handle. -/
def closeAt (c : Cell) (h : HandlerPtr) : Code Cell := do
  lockMutex
  clearQueue h
  destruct h
  .lift (.erase (c - 1).toNat)
  unlockMutex
  pure 1

lemma closeAt_spares {q : HandlerPtr} (hq : h ≠ q) : (closeAt c h).All (Stmt.Spares q) := by
  refine ⟨trivial, fun _ => (clearQueue_spares hq).bind fun _ => (destruct_spares hq).bind fun _ => ?_⟩
  simp [all_lift_bind, Stmt.Spares, unlockMutex]

lemma run_at_bind_iff {α : Type} {i : Nat} {f : HandlerPtr → Code α} {o : Except Fault α}
    (hi : s.SQLHandle[i]? = some h) :
    Run (plugin b) .main (Prog.lift (.at i) >>= f) s o s' ↔ Run (plugin b) .main (f h) s o s' := by
  rw [run_lift_bind_iff]
  simp only [step_at_iff, hi, Option.elim_some, reduceCtorEq, false_and, and_false, exists_false,
    or_false]
  constructor
  · rintro ⟨q, s₁, ⟨hq, rfl⟩, hrun⟩
    cases hq
    exact hrun
  · exact fun hrun => ⟨h, s, ⟨rfl, rfl⟩, hrun⟩

lemma run_table {α : Type} {p : Code α} {x : α} (hp : p.All (Stmt.Only .main Event.Stays))
    (hrun : Run (plugin b) .main p s (.ok x) s') : s'.SQLHandle = s.SQLHandle :=
  ((wp_iff _ _ _).mp (wp_table hp)).1 x s' hrun

/-- The table does not change between the evaluations of `SQLHandle[cID]`. -/
lemma run_nMysqlClose_iff {o : Except Fault Cell} (hh : handlerAt s c = some h) :
    Run (plugin b) .main (nMysqlClose c) s o s' ↔ Run (plugin b) .main (closeAt c h) s o s' := by
  have hlen : ¬s.SQLHandle.length ≤ (c - 1).toNat :=
    Nat.not_le_of_lt (List.getElem?_eq_some_iff.mp hh).1
  have hsize : Run (plugin b) .main (nMysqlClose c) s o s' ↔ Run (plugin b) .main (do
      lockMutex
      clearQueue (← .lift (.at (c - 1).toNat))
      destruct (← .lift (.at (c - 1).toNat))
      .lift (.erase (c - 1).toNat)
      unlockMutex
      pure 1) s o s' := by
    rw [nMysqlClose, run_lift_bind_iff]
    simp only [step_size_iff, Except.ok.injEq, reduceCtorEq, false_and, and_false, exists_false,
      or_false]
    constructor
    · rintro ⟨n, s₁, ⟨rfl, rfl⟩, hrun⟩
      rwa [if_neg hlen] at hrun
    · intro hrun
      refine ⟨_, s, ⟨rfl, rfl⟩, ?_⟩
      rwa [if_neg hlen]
  rw [hsize, closeAt]
  refine run_bind_congr fun _ s₁ hlock => ?_
  have ht₁ := run_table (by simp [lockMutex, Stmt.Only, Event.Stays]) hlock
  rw [run_at_bind_iff (by rw [ht₁]; exact hh)]
  refine run_bind_congr fun _ s₂ hclear => ?_
  have ht₂ := run_table (clearQueue_stays .main h) hclear
  rw [run_at_bind_iff (by rw [ht₂, ht₁]; exact hh)]

/-- A native is a program of the handler at the position of its handle. -/
lemma run_body_iff (b : Build) {n : NativeCall} (hc : n.connectionHandle = some c) :
    ∃ f : HandlerPtr → Code Cell, (∀ h q, h ≠ q → (f h).All (Stmt.Spares q)) ∧ ∀ s o s',
      Run (plugin b) .main (body n) s o s' ↔
        (∃ h, handlerAt s c = some h ∧ Run (plugin b) .main (f h) s o s') ∨
          handlerAt s c = none ∧ o = .ok 0 ∧ s' = s := by
  by_cases hopen : n.Open
  · obtain ⟨f, hf, hspares⟩ := body_eq_withHandle hc hopen
    exact ⟨f, hspares, fun s o s' => by rw [hf, run_withHandle_iff]⟩
  cases n with
  | mysql_close c' =>
    cases hc
    refine ⟨closeAt c, fun h q hq => closeAt_spares hq, fun s o s' => ?_⟩
    cases hh : handlerAt s c with
    | some h => simpa [body] using run_nMysqlClose_iff hh
    | none =>
      have hlen : s.SQLHandle.length ≤ (c - 1).toNat := List.getElem?_eq_none_iff.mp hh
      simp only [reduceCtorEq, false_and, exists_false, true_and, false_or, body]
      rw [nMysqlClose, run_lift_bind_iff]
      simp only [step_size_iff, Except.ok.injEq, reduceCtorEq, false_and, and_false, exists_false,
        or_false]
      constructor
      · rintro ⟨n, s₁, ⟨rfl, rfl⟩, hrun⟩
        rw [if_pos hlen] at hrun
        cases hrun
        exact ⟨rfl, rfl⟩
      · rintro ⟨rfl, rfl⟩
        refine ⟨_, _, ⟨rfl, rfl⟩, ?_⟩
        rw [if_pos hlen]
        exact .ret 0 _
  | _ => exact absurd trivial hopen

/-- The table after a native with a valid connection handle. -/
lemma body_table {n : NativeCall} {r : Cell} (hc : n.connectionHandle = some c)
    (hh : handlerAt s c = some h) (hrun : Run (plugin b) .main (body n) s (.ok r) s') :
    s'.SQLHandle = if n = .mysql_close c then s.SQLHandle.eraseIdx (c - 1).toNat
      else s.SQLHandle := by
  by_cases hopen : n.Open
  · have hne : n ≠ .mysql_close c := by
      rintro rfl
      exact hopen
    rw [if_neg hne]
    exact run_table (body_stays .main hopen fun _ _ _ _ _ hn => by subst hn; cases hc) hrun
  cases n with
  | mysql_close c' =>
    cases hc
    have hwp : (nMysqlClose c).wp (plugin b) .main (fun _ _ => True) (fun _ s' =>
        s'.SQLHandle = s.SQLHandle.eraseIdx (c - 1).toNat) s := by
      refine wp_nMysqlClose (fun hnone => by rw [hh] at hnone; cases hnone) fun q _ => ?_
      refine wp_mono (wp_table (closing_stays .main q)) ?_
      intro _ s₁ _ s₂ s₃ s₄ ht₁ hdelete herase hunlock
      have ht₂ : s₂.SQLHandle = s₁.SQLHandle := hdelete.table
      have ht₃ : s₃.SQLHandle = s₂.SQLHandle.eraseIdx (c - 1).toNat := herase.table
      have ht₄ : s₄.SQLHandle = s₃.SQLHandle := hunlock.table
      rw [ht₄, ht₃, ht₂, ht₁]
    rw [if_pos rfl]
    exact ((wp_iff _ _ _).mp hwp).1 r s' hrun
  | _ => exact absurd trivial hopen

end

lemma handlerAt_eq {s : State} {c : Cell} (hc : 1 ≤ c.toNat) :
    handlerAt s c = s.SQLHandle[c.toNat - 1]? := by
  have hsub : (c - 1).toNat = c.toNat - 1 := by bv_omega
  rw [handlerAt, hsub]

/-- The subtraction wraps around for the handle `0`. -/
lemma handlerAt_none {s : State} {c : Cell} (hsize : s.SQLHandle.length < 2 ^ 31)
    (hc : ¬(1 ≤ c.toNat ∧ c.toNat ≤ s.SQLHandle.length)) : handlerAt s c = none := by
  refine List.getElem?_eq_none ?_
  bv_omega

/-- What the native `n`, called with the connection handle `c`, may read and change. -/
structure Framed (b : Build) (n : NativeCall) (c : Cell) (s : State) : Prop where
  /-- With a handle that is not valid it returns `0` and does nothing. -/
  refused : ¬(1 ≤ c.toNat ∧ c.toNat ≤ s.SQLHandle.length) →
    ∀ o s', Run (plugin b) .main (body n) s o s' ↔ o = .ok 0 ∧ s' = s
  /-- It leaves every other handler as it is, whatever that handler holds. -/
  others : ∀ h o s', 1 ≤ c.toNat → s.SQLHandle[c.toNat - 1]? = some h →
    Run (plugin b) .main (body n) s o s' → ∀ q, q ≠ h → s'.heap q = s.heap q ∧
      ∀ y, Run (plugin b) .main (body n) (s.withObject q y) o (s'.withObject q y)
  /-- Only `mysql_close` changes the table. -/
  table : ∀ r s', 1 ≤ c.toNat → c.toNat ≤ s.SQLHandle.length →
    Run (plugin b) .main (body n) s (.ok r) s' → s'.SQLHandle =
      if n = .mysql_close c then s.SQLHandle.eraseIdx (c.toNat - 1) else s.SQLHandle

/-- Every native that takes a connection handle works on the handler at its position only. -/
theorem native_frame (b : Build) {n : NativeCall} {c : Cell} (hc : n.connectionHandle = some c)
    {s : State} (hsize : s.SQLHandle.length < 2 ^ 31) : Framed b n c s := by
  obtain ⟨f, hspares, hbody⟩ := run_body_iff b hc
  refine ⟨fun hinvalid o s' => ?_, fun h o s' hpos hh hrun q hq => ?_, fun r s' hpos hle hrun => ?_⟩
  · simp [hbody, handlerAt_none hsize hinvalid]
  · have hat : handlerAt s c = some h := (handlerAt_eq hpos).trans hh
    have hrun' : Run (plugin b) .main (f h) s o s' := by simpa [hat] using (hbody s o s').mp hrun
    refine ⟨run_spares (hspares h q hq.symm) hrun', fun y => ?_⟩
    exact (hbody _ _ _).mpr (.inl ⟨h, hat, run_withObject (hspares h q hq.symm) hrun' y⟩)
  · obtain ⟨h, hh⟩ : ∃ h, s.SQLHandle[c.toNat - 1]? = some h :=
      ⟨_, List.getElem?_eq_getElem (Nat.sub_one_lt_of_le hpos hle)⟩
    have hsub : (c - 1).toNat = c.toNat - 1 := by bv_omega
    rw [← hsub]
    exact body_table hc ((handlerAt_eq hpos).trans hh) hrun

/-- Closing the first of two connections. -/
theorem native_frame_close :
    ∃ s, play (allowing .win32 Set.univ) (fun _ _ => {}) [.native (.mysql_connect ['a'] [] [] [] 0),
        .native (.mysql_connect ['b'] [] [] [] 0)] (State.init []) = some s ∧
      s.SQLHandle = [0, 1] ∧ Framed .win32 (.mysql_close 1) 1 s := by
  have hrun : (play (allowing .win32 Set.univ) (fun _ _ => {})
      [.native (.mysql_connect ['a'] [] [] [] 0), .native (.mysql_connect ['b'] [] [] [] 0)]
        (State.init [])).map (·.SQLHandle) = some [0, 1] := by decide
  obtain ⟨s, hs, htable⟩ := Option.map_eq_some_iff.mp hrun
  exact ⟨s, hs, htable, native_frame .win32 rfl (by rw [htable]; decide)⟩

end MySQLPlugin
