import MySQLPlugin.Logic.Runs

/-!
# What a handler's functions see

The functions of one handler depend on its object and on the objects of libmysql, and apart from
these they leave what they write to the scripts. As long as nothing else runs, these three determine
what each statement returns and what the next one finds.
-/

namespace MySQLPlugin

open Threads Prog

/-- The event writes to a cell of a script. -/
def Event.isWrite : Event → Bool
  | .setString _ _ | .setFloat _ _ => true
  | _ => false

/-- What has been written to the scripts. -/
def State.writes (s : State) : List Event := s.trace.filter Event.isWrite

/-- The object at `h`, the objects of libmysql and what has been written to the scripts. -/
structure Sees (h : HandlerPtr) (x : CMySQLHandler) (l : Libmysql) (w : List Event) (s : State) :
    Prop where
  heap : s.heap h = some x
  lib : s.lib = l
  writes : s.writes = w

lemma Sees.refl {h : HandlerPtr} {x : CMySQLHandler} {s : State} (hx : s.heap h = some x) :
    Sees h x s.lib s.writes s := ⟨hx, rfl, rfl⟩

namespace CMySQLHandler

/-- The pointer in `m_stResult`, which starts as `NULL`. -/
def result (x : CMySQLHandler) : Option ResPtr :=
  match x.m_stResult with
  | .set r => r
  | .unset => none

/-- The pointer in `m_stRow`, which starts as `NULL`. -/
def row (x : CMySQLHandler) : Option RowPtr :=
  match x.m_stRow with
  | .set r => r
  | .unset => none

/-- The pointer in `m_stField`, which starts as `NULL`. -/
def field (x : CMySQLHandler) : Option FieldPtr :=
  match x.m_stField with
  | .set f => f
  | .unset => none

end CMySQLHandler

lemma result_eq_some {x : CMySQLHandler} {p : ResPtr} :
    x.result = some p ↔ x.m_stResult = .set (some p) := by
  rw [CMySQLHandler.result]
  cases x.m_stResult <;> simp

lemma row_eq_some {x : CMySQLHandler} {r : RowPtr} : x.row = some r ↔ x.m_stRow = .set (some r) := by
  rw [CMySQLHandler.row]
  cases x.m_stRow <;> simp

lemma field_eq_some {x : CMySQLHandler} {f : FieldPtr} :
    x.field = some f ↔ x.m_stField = .set (some f) := by
  rw [CMySQLHandler.field]
  cases x.m_stField <;> simp

namespace Libmysql

/-- What the pointer `r` reads at the column `i`. -/
def valueAt (l : Libmysql) (r : Option RowPtr) (i : Nat) : Option (Option CString) :=
  r.bind fun r => (l.live r.result).bind fun x => x.set.rows[r.row]?.bind (·[i]?)

/-- The name that the pointer `f` reads `i` positions further. -/
def nameAt (l : Libmysql) (f : Option FieldPtr) (i : Nat) : Option CString :=
  f.bind fun f => (l.live f.result).bind fun x => x.set.fields[f.index + i]?

end Libmysql

section

variable {h : HandlerPtr} {x : CMySQLHandler} {l : Libmysql} {w : List Event} {s : State}

/-- An event that writes nothing to the scripts is only recorded. -/
lemma Sees.record (hs : Sees h x l w s) {e : Event} (he : e.isWrite = false) :
    Sees h x l w (s.record e) where
  heap := hs.heap
  lib := hs.lib
  writes := by
    rw [State.writes, State.record_trace, List.filter_append, List.filter_singleton, he]
    simpa [State.writes] using hs.writes

lemma Sees.write (hs : Sees h x l w s) {e : Event} (he : e.isWrite = true) :
    Sees h x l (w ++ [e]) (s.record e) where
  heap := hs.heap
  lib := hs.lib
  writes := by
    rw [State.writes, State.record_trace, List.filter_append, List.filter_singleton, he]
    simpa [State.writes] using hs.writes

lemma Sees.setHandler (hs : Sees h x l w s) (x' : CMySQLHandler) :
    Sees h x' l w (s.setHandler h x') :=
  ⟨s.setHandler_heap_self h x', hs.lib, hs.writes⟩

lemma Sees.setLib (hs : Sees h x l w s) (l' : Libmysql) : Sees h x l' w { s with lib := l' } :=
  ⟨hs.heap, rfl, hs.writes⟩

lemma Sees.setInCall (hs : Sees h x l w s) (t : ThreadId) (c : Option ConnPtr) :
    Sees h x l w (s.setInCall t c) := ⟨hs.heap, hs.lib, hs.writes⟩

end

/-! ### Statements -/

section

variable {M : Machine Stmt Fault State ThreadId Reply} {b : Build} [IsPlugin M b] {t : ThreadId}
  {E : Fault → State → Prop} {α : Type} {Q : α → State → Prop} {h : HandlerPtr} {x : CMySQLHandler}
  {l : Libmysql} {w : List Event} {s : State}

include b

lemma Sees.wp_this {k : CMySQLHandler → Code α} (hs : Sees h x l w s)
    (hk : (k x).wp M t E Q s) : (this h >>= k).wp M t E Q s :=
  wp_object hs.heap hk

lemma Sees.wp_assign {a : Assign} {k : Unit → Code α} (hs : Sees h x l w s)
    (hdef : a.defined x = true)
    (hk : ∀ s', Sees h (a.apply x) l w s' → (k ()).wp M t E Q s') :
    (assign h a >>= k).wp M t E Q s := by
  refine wp_step (fun _ s' hst => ?_) fun e s' hst => ?_
  all_goals
    obtain ⟨r, _, hrun⟩ := IsPlugin.step hst
    simp only [plugin, Stmt.run, hs.heap, hdef, if_true] at hrun
    cases hrun
  exact hk _ ((hs.setHandler _).record rfl)

/-- A member with a value is read; an unassigned one has any value that the environment admits. -/
lemma Sees.wp_load {m : Member} {k : m.Val → Code α} (hs : Sees h x l w s)
    (hset : ∀ v, m.get x = .set v → (k v).wp M t E Q s)
    (hunset : m.get x = .unset → ∀ r s', M.admits t (.load h m) r s → Sees h x l w s' →
      (k (m.garbage r)).wp M t E Q s') :
    (load h m >>= k).wp M t E Q s := by
  refine wp_step (fun v s' hst => ?_) fun e s' hst => ?_
  · obtain ⟨r, hr, hrun⟩ := hst
    rw [IsPlugin.exec_eq] at hrun
    cases hv : m.get x with
    | set v' =>
      simp only [Stmt.run, hs.heap, hv] at hrun
      cases hrun
      exact hset _ hv
    | unset =>
      simp only [Stmt.run, hs.heap, hv] at hrun
      cases hrun
      exact hunset hv r _ hr (hs.record rfl)
  · obtain ⟨r, _, hrun⟩ := IsPlugin.step hst
    cases hv : m.get x <;> simp only [plugin, Stmt.run, hs.heap, hv] at hrun <;> cases hrun

/-- A member with a value is read. -/
lemma Sees.wp_loadSet {m : Member} {v : m.Val} {k : m.Val → Code α} (hs : Sees h x l w s)
    (hv : m.get x = .set v) (hk : (k v).wp M t E Q s) : (load h m >>= k).wp M t E Q s := by
  refine hs.wp_load (fun v' hv' => ?_) fun hunset => ?_
  · cases hv.symm.trans hv'
    exact hk
  · cases hv.symm.trans hunset

/-- A member is read, whether it holds a value or not. -/
lemma Sees.wp_loadAny {m : Member} {k : m.Val → Code α} (hs : Sees h x l w s)
    (hk : ∀ v s', m.get x = .unset ∨ m.get x = .set v → Sees h x l w s' → (k v).wp M t E Q s') :
    (load h m >>= k).wp M t E Q s :=
  hs.wp_load (fun v hv => hk v s (.inr hv) hs) fun hunset _ s' _ hs' => hk _ s' (.inl hunset) hs'

/-- A function of libmysql on a result set that is alive. -/
lemma Sees.wp_onResult {p : Option ResPtr} {f : ResCall} {k : f.Ret → Code α}
    (hs : Sees h x l w s) (hE : p.bind l.live = none → ∀ e s', E e s')
    (hk : ∀ q y s', p = some q → l.live q = some y → Sees h x (l.onResult q y f).2 w s' →
      (k (l.onResult q y f).1).wp M t E Q s') :
    (onResult p f >>= k).wp M t E Q s := by
  obtain ⟨hheap, rfl, hw⟩ := hs
  refine wp_step (fun v s' hst => ?_) fun e s' hst => ?_
  · obtain ⟨r, _, hrun⟩ := IsPlugin.step hst
    cases p with
    | none => cases hrun
    | some q =>
      cases hy : s.lib.live q with
      | none =>
        simp only [plugin, Stmt.run, hy] at hrun
        cases hrun
      | some y =>
        simp only [plugin, Stmt.run, hy] at hrun
        cases hrun
        exact hk q y _ rfl hy (((Sees.mk hheap rfl hw).setLib _).record rfl)
  · obtain ⟨r, _, hrun⟩ := IsPlugin.step hst
    cases p with
    | none => exact hE rfl e s'
    | some q =>
      cases hy : s.lib.live q with
      | none => exact hE hy e s'
      | some y =>
        simp only [plugin, Stmt.run, hy] at hrun
        cases hrun

lemma Sees.wp_fieldName {f : Option FieldPtr} {i : Nat} {k : CString → Code α}
    (hs : Sees h x l w s) (hE : l.nameAt f i = none → ∀ e s', E e s')
    (hk : ∀ v, l.nameAt f i = some v → (k v).wp M t E Q s) :
    (Prog.lift (.fieldName f i) >>= k).wp M t E Q s := by
  obtain ⟨-, rfl, -⟩ := hs
  refine wp_step (fun v s' hst => ?_) fun e s' hst => ?_
  · obtain ⟨r, _, hrun⟩ := IsPlugin.step hst
    cases f with
    | none => cases hrun
    | some f =>
      simp only [plugin, Stmt.run] at hrun
      split at hrun
      · rename_i name hname
        cases hrun
        exact hk _ hname
      · cases hrun
  · obtain ⟨r, _, hrun⟩ := IsPlugin.step hst
    cases f with
    | none => exact hE rfl e s'
    | some f =>
      simp only [plugin, Stmt.run] at hrun
      split at hrun
      · cases hrun
      · rename_i hname
        exact hE hname e s'

lemma Sees.wp_rowValue {p : Option RowPtr} {i : Nat} {k : Option CString → Code α}
    (hs : Sees h x l w s) (hE : l.valueAt p i = none → ∀ e s', E e s')
    (hk : ∀ v, l.valueAt p i = some v → (k v).wp M t E Q s) :
    (Prog.lift (.rowValue p i) >>= k).wp M t E Q s := by
  obtain ⟨-, rfl, -⟩ := hs
  refine wp_step (fun v s' hst => ?_) fun e s' hst => ?_
  · obtain ⟨r, _, hrun⟩ := IsPlugin.step hst
    cases p with
    | none => cases hrun
    | some p =>
      simp only [plugin, Stmt.run] at hrun
      split at hrun
      · rename_i v hv
        cases hrun
        exact hk _ hv
      · cases hrun
  · obtain ⟨r, _, hrun⟩ := IsPlugin.step hst
    cases p with
    | none => exact hE rfl e s'
    | some p =>
      simp only [plugin, Stmt.run] at hrun
      split at hrun
      · cases hrun
      · rename_i hv
        exact hE hv e s'

/-- An accessor of libmysql needs a connection object; the environment admits its answer. -/
lemma Sees.wp_admitted {f : LibAccess} {k : f.Ret → Code α} (hs : Sees h x l w s)
    (hE : x.m_stConnectionPtr = none → ∀ e s', E e s')
    (hk : ∀ c r s', M.admits t (.access h f) r s → x.m_stConnectionPtr = some c → Sees h x l w s' →
      (k (l.access c r f)).wp M t E Q s') :
    (access h f >>= k).wp M t E Q s := by
  obtain ⟨hheap, rfl, hw⟩ := hs
  have hs : Sees h x s.lib w s := ⟨hheap, rfl, hw⟩
  refine wp_step (fun v s' hst => ?_) fun e s' hst => ?_
  · obtain ⟨r, hr, hrun⟩ := hst
    rw [IsPlugin.exec_eq] at hrun
    cases hc : x.m_stConnectionPtr with
    | none =>
      simp only [Stmt.run, hheap, hc] at hrun
      cases hrun
    | some c =>
      simp only [Stmt.run, hheap, hc] at hrun
      cases hrun
      exact hk c r _ hr hc (hs.record rfl)
  · obtain ⟨r, _, hrun⟩ := IsPlugin.step hst
    cases hc : x.m_stConnectionPtr with
    | none => exact hE hc e s'
    | some c =>
      simp only [plugin, Stmt.run, hheap, hc] at hrun
      cases hrun

lemma Sees.wp_access {f : LibAccess} {k : f.Ret → Code α} (hs : Sees h x l w s)
    (hE : x.m_stConnectionPtr = none → ∀ e s', E e s')
    (hk : ∀ c r s', x.m_stConnectionPtr = some c → Sees h x l w s' →
      (k (l.access c r f)).wp M t E Q s') :
    (access h f >>= k).wp M t E Q s :=
  hs.wp_admitted hE fun c r s' _ => hk c r s'

lemma Sees.wp_setString {dest : Cell} {text : CString} {k : Unit → Code α} (hs : Sees h x l w s)
    (hk : ∀ s', Sees h x l (w ++ [.setString dest text]) s' → (k ()).wp M t E Q s') :
    (setString dest text >>= k).wp M t E Q s := by
  refine wp_step (fun _ s' hst => ?_) fun e s' hst => ?_
  all_goals
    obtain ⟨r, _, hrun⟩ := IsPlugin.step hst
    cases hrun
  exact hk _ (hs.write rfl)

lemma Sees.wp_setFloat {dest : Cell} {text : Option CString} {k : Unit → Code α}
    (hs : Sees h x l w s)
    (hk : ∀ s', Sees h x l (w ++ [.setFloat dest text]) s' → (k ()).wp M t E Q s') :
    (Prog.lift (.setFloat dest text) >>= k).wp M t E Q s := by
  refine wp_step (fun _ s' hst => ?_) fun e s' hst => ?_
  all_goals
    obtain ⟨r, _, hrun⟩ := IsPlugin.step hst
    cases hrun
  exact hk _ (hs.write rfl)

/-- What libmysql has handed out cannot be freed. -/
lemma wp_free {f : FieldPtr} {k : Unit → Code α} (hE : ∀ s', E .badFree s') :
    (Prog.lift (.free (some f)) >>= k).wp M t E Q s := by
  refine wp_step (fun _ s' hst => ?_) fun e s' hst => ?_
  all_goals
    obtain ⟨r, _, hrun⟩ := IsPlugin.step hst
    cases hrun
  exact hE _

/-- A call of libmysql begins, on a connection object. -/
lemma Sees.wp_enter {f : LibCall} {k : ConnPtr → Code α} (hs : Sees h x l w s)
    (hE : x.m_stConnectionPtr = none → ∀ e s', E e s')
    (hk : ∀ c s', x.m_stConnectionPtr = some c → Sees h x (l.begin c f) w s' →
      (k c).wp M t E Q s') :
    (Prog.lift (.enter h f) >>= k).wp M t E Q s := by
  obtain ⟨hheap, rfl, hw⟩ := hs
  have hs : Sees h x s.lib w s := ⟨hheap, rfl, hw⟩
  refine wp_step (fun v s' hst => ?_) fun e s' hst => ?_
  · obtain ⟨r, _, hrun⟩ := IsPlugin.step hst
    cases hc : x.m_stConnectionPtr with
    | none =>
      simp only [plugin, Stmt.run, hheap, hc] at hrun
      cases hrun
    | some c =>
      simp only [plugin, Stmt.run, hheap, hc] at hrun
      cases hrun
      exact hk _ _ hc (((hs.setLib _).setInCall t _).record rfl)
  · obtain ⟨r, _, hrun⟩ := IsPlugin.step hst
    cases hc : x.m_stConnectionPtr with
    | none => exact hE hc e s'
    | some c =>
      simp only [plugin, Stmt.run, hheap, hc] at hrun
      cases hrun

/-- A call of libmysql ends. -/
lemma Sees.wp_leave {f : LibCall} {c : ConnPtr} {k : f.Ret → Code α} (hs : Sees h x l w s)
    (hk : ∀ now r s', M.admits t (.leave h c f) r s → Sees h x (l.answer c now r f).2 w s' →
      (k (l.answer c now r f).1).wp M t E Q s') :
    (Prog.lift (.leave h c f) >>= k).wp M t E Q s := by
  obtain ⟨hheap, rfl, hw⟩ := hs
  have hs : Sees h x s.lib w s := ⟨hheap, rfl, hw⟩
  refine wp_step (fun v s' hst => ?_) fun e s' hst => ?_
  all_goals
    obtain ⟨r, hr, hrun⟩ := hst
    rw [IsPlugin.exec_eq] at hrun
    cases hrun
  exact hk _ r _ hr (((hs.setLib _).setInCall t none).record rfl)

lemma Sees.wp_init {k : Option ConnPtr → Code α} (hs : Sees h x l w s)
    (hnull : ∀ r s', M.admits t (.mysql_init h) r s → r.ok = false → Sees h x l w s' →
      (k none).wp M t E Q s')
    (hk : ∀ s', Sees h x l.newConn w s' → (k (some l.nextConn)).wp M t E Q s') :
    (Prog.lift (.mysql_init h) >>= k).wp M t E Q s := by
  obtain ⟨hheap, rfl, hw⟩ := hs
  have hs : Sees h x s.lib w s := ⟨hheap, rfl, hw⟩
  refine wp_step (fun v s' hst => ?_) fun e s' hst => ?_
  all_goals
    obtain ⟨r, hr, hrun⟩ := hst
    simp only [IsPlugin.exec_eq, Stmt.run] at hrun
    split_ifs at hrun with hok
  all_goals cases hrun
  · exact hk _ ((hs.setLib _).record rfl)
  · exact hnull r _ hr (by simpa using hok) (hs.record rfl)

end

end MySQLPlugin
