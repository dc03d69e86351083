import MySQLPlugin.Handles.Frame
import MySQLPlugin.Handles.Tick
import MySQLPlugin.Results.Escaping

/-!
# Handlers without a connection or a result

Every function of a handler has an exit for a connection that is dead, and those that read a result
have one for a handler without a result. Most natives return through these exits and leave the
handler as it is.
-/

namespace MySQLPlugin

open Threads Prog CMySQLHandler Natives

/-- What libmysql writes for a character that it escapes, what it answers to `mysql_stat`, where `none`
stands for `NULL`, and whether it answers to `mysql_ping`. -/
structure LibAnswers where
  esc : Char → CString
  stat : Option CString
  alive : Bool

/-- `mysql_stat` and `mysql_ping` answer so. -/
def Stmt.Told (ans : LibAnswers) {β : Type} : Stmt β → Reply → Prop
  | .leave _ _ .mysql_stat, r => r.text = ans.stat
  | .leave _ _ .mysql_ping, r => r.ok = ans.alive
  | _, _ => True

/-- The plugin with a libmysql that answers so. -/
def replying (b : Build) (ans : LibAnswers) :
    Machine Stmt Fault State ThreadId Reply :=
  (plugin b).restrict fun _ a r _ => a.Escaped ans.esc r ∧ a.Told ans r

instance (b : Build) (ans : LibAnswers) :
    IsPlugin (replying b ans) b := ⟨fun _ _ _ => rfl⟩

lemma replying_admits {b : Build} {ans : LibAnswers} {t : ThreadId}
    {β : Type} (a : Stmt β) (s : State) : ∃ r, (replying b ans).admits t a r s := by
  cases a with
  | access h f =>
    cases f with
    | mysql_real_escape_string source =>
      exact ⟨{ text := some (source.flatMap ans.esc) }, trivial, rfl, trivial⟩
    | _ => exact ⟨{}, trivial, trivial, trivial⟩
  | leave h c f =>
    cases f with
    | mysql_stat => exact ⟨{ text := ans.stat }, trivial, trivial, rfl⟩
    | mysql_ping => exact ⟨{ ok := ans.alive }, trivial, trivial, rfl⟩
    | _ => exact ⟨{}, trivial, trivial, trivial⟩
  | _ => exact ⟨{}, trivial, trivial, trivial⟩

/-- A function of libmysql is called for the handler `h`. -/
def Event.CallsFor (h : HandlerPtr) : Event → Prop
  | .init _ p _ | .enter _ p _ _ | .leave _ p _ _ _ | .access _ p _ _ => p = h
  | .onResult _ _ _ | .free _ => True
  | _ => False

/-- Since `s₀` no function of libmysql has been called for `h`, and the object `x` has kept its queues,
its flags and its pointers. -/
structure Untouched (h : HandlerPtr) (x : CMySQLHandler) (s₀ s : State) : Prop where
  trace : s₀.trace <+: s.trace
  calls : ∀ e ∈ s₀.since s, ¬ e.CallsFor h
  object : ∃ x', s.heap h = some x' ∧
    (x'.queueData, x'.callbackData, x'.errorCallback) = (x.queueData, x.callbackData, x.errorCallback) ∧
    (x'.m_bIsConnected, x'.m_bNonThreadedQuery, x'.m_bQueryProcessing)
      = (x.m_bIsConnected, x.m_bNonThreadedQuery, x.m_bQueryProcessing) ∧
    (x'.m_stConnectionPtr, x'.m_stResult) = (x.m_stConnectionPtr, x.m_stResult)

/-- The native comes back to the script, without a fault, and leaves a handler that is not connected
alone. -/
def NativeCall.Unharmed (M : Machine Stmt Fault State ThreadId Reply) (h : HandlerPtr)
    (x : CMySQLHandler) (s : State) (n : NativeCall) : Prop :=
  (∃ o s', Run M .main (native n) s o s') ∧ ∀ o s', Run M .main (native n) s o s' →
    (∃ v, o = .ok v) ∧ (x.m_bIsConnected = false → Untouched h x s s')

/-! ### The exits for dead connections -/

/-- The assignment changes a text that is handed to the scripts. -/
def Assign.OfText : Assign → Prop
  | .Delimiter _ | .m_szResult _ => True
  | _ => False

/-- The event switches the log neither on nor off. -/
def Event.KeepsLog (e : Event) : Prop := ∀ debugging, e.onDebugging debugging = debugging

/-- The event does not concern the connection of a handler. -/
def Event.OfExit : Event → Prop
  | .mark _ | .lock _ | .unlock _ | .setString _ _ | .setFloat _ _ | .unset _ _ _ => True
  | .assign _ _ a => a.OfText
  | _ => False

section

variable {t : ThreadId} {e : Event} {s₀ s s' : State} {h : HandlerPtr} {x : CMySQLHandler}

lemma Untouched.refl (hx : s.heap h = some x) : Untouched h x s s where
  trace := List.prefix_refl _
  calls e he := by simp [State.since] at he
  object := ⟨x, hx, rfl, rfl, rfl⟩

lemma Untouched.step (hs : Untouched h x s₀ s) (heff : Effect t e s s') (he : e.OfExit) :
    Untouched h x s₀ s' where
  trace := hs.trace.trans heff.prefix
  calls e' he' := by
    rw [State.since, heff.trace, List.drop_append_of_le_length hs.trace.length_le] at he'
    rcases List.mem_append.mp he' with he' | he'
    · exact hs.calls e' he'
    · obtain rfl := List.mem_singleton.mp he'
      cases e' <;> first | exact he.elim | exact id
  object := by
    obtain ⟨y, hy, hqueues, hflags, hpointers⟩ := hs.object
    rw [heff.heap h, hy]
    cases e with
    | assign u p a =>
      by_cases hp : h = p
      · refine ⟨a.apply y, by simp [Event.onObject, hp], ?_⟩
        cases a <;> first | exact he.elim | exact ⟨hqueues, hflags, hpointers⟩
      · exact ⟨y, by simp [Event.onObject, hp], hqueues, hflags, hpointers⟩
    | _ => first | exact he.elim | exact ⟨y, rfl, hqueues, hflags, hpointers⟩

lemma Untouched.dead (hs : Untouched h x s₀ s) (hdead : x.m_bIsConnected = false) :
    ∃ y, s.heap h = some y ∧ y.m_bIsConnected = false ∧ y.queueData = x.queueData := by
  obtain ⟨y, hy, hqueues, hflags, -⟩ := hs.object
  simp only [Prod.mk.injEq] at hqueues hflags
  exact ⟨y, hy, hflags.1.trans hdead, hqueues.1⟩

end

section

variable {M : Machine Stmt Fault State ThreadId Reply} {b : Build} [IsPlugin M b] {t : ThreadId}
  {E : Fault → State → Prop} {α β : Type} {Q : α → State → Prop} {s₀ s : State} {h : HandlerPtr}
  {x : CMySQLHandler}

include b

/-- After a statement that does not touch it, the log is on or off as before. -/
lemma wp_keepsLog {a : Stmt β} {k : β → Code α} (ha : a.Only t Event.KeepsLog)
    (hk : (Prog.lift a >>= Prog.ret).wp M t E
      (fun v s' => s'.Debugging = s.Debugging → (k v).wp M t E Q s') s) :
    (Prog.lift a >>= k).wp M t E Q s := by
  have hall : (Prog.lift a : Code β).All (Stmt.Only t Event.KeepsLog) := ⟨ha, fun _ => trivial⟩
  have hlog : (Prog.lift a : Code β).wp M t (fun _ _ => True)
      (fun _ s' => s'.Debugging = s.Debugging) s :=
    wp_of_only (I := fun s' => s'.Debugging = s.Debugging) IsPlugin.step hall
      (fun e s₁ s₂ he hs₁ heff => by rw [heff.Debugging, he, hs₁]) (fun _ _ _ => trivial) rfl
  rw [bind_ret_right] at hk
  rw [wp_bind]
  exact wp_mono (wp_and hk hlog) fun v s' hv => hv.1 hv.2

/-- The log is off, or the format has the arguments that it asks for. -/
lemma wp_Debug {format args : List Conversion} {k : Unit → Code α}
    (hlog : s.Debugging = false ∨ format.isPrefixOf args = true) (hk : (k ()).wp M t E Q s) :
    (Debug format args >>= k).wp M t E Q s := by
  have hcond : (s.Debugging && !format.isPrefixOf args) = false := by
    rcases hlog with hlog | hlog <;> simp [hlog]
  refine wp_step (fun _ s' hst => ?_) fun e s' hst => ?_
  all_goals
    obtain ⟨r, _, hrun⟩ := IsPlugin.step hst
    simp only [plugin, Stmt.run, hcond, Bool.false_eq_true, if_false] at hrun
    cases hrun
  exact hk

/-- The log is on, and the format asks for more than there is. -/
lemma wp_Debug_fails {format args : List Conversion} {k : Unit → Code α} (hon : s.Debugging = true)
    (hformat : format.isPrefixOf args = false) (hE : E .badFormat s) :
    (Debug format args >>= k).wp M t E Q s := by
  refine wp_step (fun _ s' hst => ?_) fun e s' hst => ?_
  all_goals
    obtain ⟨r, _, hrun⟩ := IsPlugin.step hst
    simp only [plugin, Stmt.run, hon, hformat, Bool.not_false, Bool.and_self, if_true] at hrun
    cases hrun
  exact hE

/-- The exit is taken. -/
lemma Untouched.wp_exit {A B : Code β} {k : β → Code α} (hs : Untouched h x s₀ s)
    (hdead : x.m_bIsConnected = false) (hk : (A >>= k).wp M t E Q s) :
    ((this h >>= fun y => if !y.m_bIsConnected then A else B) >>= k).wp M t E Q s := by
  obtain ⟨y, hy, hconn, -⟩ := hs.dead hdead
  rw [bind_bind]
  refine wp_object hy ?_
  rw [hconn, Bool.not_false, if_pos rfl]
  exact hk

lemma Untouched.wp_return {v : α} {B : Code α} (hs : Untouched h x s₀ s)
    (hdead : x.m_bIsConnected = false) (hQ : Q v s) :
    (this h >>= fun y => if !y.m_bIsConnected then pure v else B).wp M t E Q s := by
  rw [← bind_ret_right (this h >>= _)]
  exact hs.wp_exit hdead hQ

/-- An assignment that is always defined. -/
lemma Untouched.wp_text {a : Assign} {k : Unit → Code α} (hs : Untouched h x s₀ s)
    (ha : a.OfText) (hk : ∀ s', Untouched h x s₀ s' → (k ()).wp M t E Q s') :
    (assign h a >>= k).wp M t E Q s := by
  obtain ⟨y, hy, -⟩ := hs.object
  have hdef : a.defined y = true := by cases a <;> first | exact ha.elim | rfl
  refine wp_step (fun _ s' hst => hk s' (hs.step (step_assign (IsPlugin.step hst)) ha)) fun e s' hst => ?_
  obtain ⟨r, _, hrun⟩ := IsPlugin.step hst
  simp only [plugin, Stmt.run, hy, hdef, if_true] at hrun
  cases hrun

lemma Untouched.wp_setString {dest : Cell} {text : CString} {k : Unit → Code α}
    (hs : Untouched h x s₀ s) (hk : ∀ s', Untouched h x s₀ s' → (k ()).wp M t E Q s') :
    (setString dest text >>= k).wp M t E Q s := by
  refine wp_step (fun _ s' hst => ?_) fun e s' hst => ?_
  all_goals
    obtain ⟨r, _, hrun⟩ := IsPlugin.step hst
    cases hrun
  exact hk _ (hs.step (t := t) (.record trivial trivial trivial) trivial)

lemma Untouched.wp_setFloat {dest : Cell} {text : Option CString} {k : Unit → Code α}
    (hs : Untouched h x s₀ s) (hk : ∀ s', Untouched h x s₀ s' → (k ()).wp M t E Q s') :
    (Prog.lift (.setFloat dest text) >>= k).wp M t E Q s := by
  refine wp_step (fun _ s' hst => ?_) fun e s' hst => ?_
  all_goals
    obtain ⟨r, _, hrun⟩ := IsPlugin.step hst
    cases hrun
  exact hk _ (hs.step (t := t) (.record trivial trivial trivial) trivial)

lemma Untouched.wp_load {m : Member} {Q : m.Val → State → Prop} (hs : Untouched h x s₀ s)
    (hQ : ∀ v s', Untouched h x s₀ s' → Q v s') : (load h m).wp M t E Q s := by
  obtain ⟨y, hy, -⟩ := hs.object
  rw [load, wp_lift]
  refine ⟨fun v s' hst => hQ v s' ?_, fun e s' hst => ?_⟩
  all_goals
    obtain ⟨r, _, hrun⟩ := IsPlugin.step hst
    simp only [plugin, Stmt.run, hy] at hrun
    split at hrun
  all_goals cases hrun
  · exact hs
  · exact hs.step (t := t) (.record trivial rfl trivial) trivial

omit b [IsPlugin M b] in
/-- The natives of the handlers, other than `mysql_close` and `mysql_reconnect`. -/
def NativeCall.Plain : NativeCall → Prop
  | .mysql_connect .. | .mysql_debug _ | .mysql_reconnect _ | .mysql_close _ => False
  | _ => True

/-- On a handler that is not connected every native but two returns through the exits. -/
lemma dead_untouched {n : NativeCall} {c : Cell} (hn : n.Plain) (hc : n.connectionHandle = some c)
    (hstat : ∀ dest, n ≠ .mysql_stat dest c) (hfield : ∀ number dest, n ≠ .mysql_fetch_field number dest c)
    (hescape : ∀ source dest, n = .mysql_real_escape_string source dest c → s.Debugging = false)
    (hh : handlerAt s c = some h) (hm : s.mutex = none) (hdead : x.m_bIsConnected = false)
    (hs : Untouched h x s₀ s) :
    (Natives.body n).wp M .main E (fun _ => Untouched h x s₀) s := by
  cases n with
  | mysql_connect => exact hn.elim
  | mysql_debug => exact hn.elim
  | mysql_reconnect => exact hn.elim
  | mysql_close => exact hn.elim
  | mysql_stat dest => exact absurd rfl (Option.some.inj hc ▸ hstat dest)
  | mysql_fetch_field number dest => exact absurd rfl (Option.some.inj hc ▸ hfield number dest)
  | mysql_query query resultid extraid =>
    cases hc
    refine wp_handled hh (wp_mark fun s₁ heff₁ => ?_)
    have hs₁ := hs.step heff₁ trivial
    exact hs₁.wp_exit hdead (wp_mark fun s₂ heff₂ => hs₁.step heff₂ trivial)
  | mysql_get_charset =>
    cases hc
    exact wp_handled hh (hs.wp_exit hdead (hs.wp_setString fun s₁ hs₁ => hs₁))
  | mysql_real_escape_string =>
    cases hc
    refine wp_handled hh (hs.wp_exit hdead ?_)
    exact wp_Debug (.inl (hescape _ _ rfl)) (hs.wp_setString fun s₁ hs₁ => hs₁)
  | mysql_fetch_row_format =>
    cases hc
    refine wp_handled hh (hs.wp_text trivial fun s₁ hs₁ => hs₁.wp_exit hdead ?_)
    exact hs₁
  | mysql_fetch_field_row =>
    cases hc
    refine wp_handled hh (hs.wp_exit hdead ?_)
    obtain ⟨y, hy, -⟩ := hs.object
    exact wp_object hy (hs.wp_setString fun s₁ hs₁ => hs₁.wp_text trivial fun s₂ hs₂ => hs₂)
  | mysql_ping =>
    cases hc
    refine wp_handled hh (wp_lockMutex hm fun s₁ heff₁ => ?_)
    have hs₁ := hs.step heff₁ trivial
    obtain ⟨y, hy, -⟩ := hs₁.object
    refine wp_object hy ?_
    rw [wp_ite]
    split_ifs
    · exact wp_unlockMutex fun s₂ heff₂ => hs₁.step heff₂ trivial
    · exact wp_unlockMutex fun s₂ heff₂ => (hs₁.step heff₂ trivial).wp_exit hdead (hs₁.step heff₂ trivial)
  | mysql_errno =>
    cases hc
    exact wp_handled hh (hs.wp_load fun v s₁ hs₁ => hs₁)
  | mysql_fetch_int =>
    cases hc
    refine wp_handled hh (hs.wp_text trivial fun s₁ hs₁ => hs₁.wp_exit hdead ?_)
    obtain ⟨y, hy, -⟩ := hs₁.object
    refine wp_object hy ?_
    rw [wp_ite]
    split_ifs
    · exact hs₁.wp_text trivial fun s₂ hs₂ => hs₂
    · exact hs₁
  | mysql_fetch_float =>
    cases hc
    refine wp_handled hh (hs.wp_text trivial fun s₁ hs₁ => hs₁.wp_exit hdead ?_)
    obtain ⟨y, hy, -⟩ := hs₁.object
    refine wp_object hy ?_
    rw [wp_ite]
    split_ifs
    · exact hs₁.wp_text trivial fun s₂ hs₂ => hs₂.wp_setFloat fun s₃ hs₃ => hs₃
    · exact hs₁.wp_setFloat fun s₂ hs₂ => hs₂
  | mysql_query_callback | mysql_field_count | mysql_reload | mysql_warning_count | mysql_retrieve_row
    | mysql_num_fields =>
    cases hc
    exact wp_handled hh (hs.wp_return hdead hs)
  | mysql_set_charset | mysql_insert_id | mysql_free_result | mysql_store_result | mysql_affected_rows
    | mysql_num_rows =>
    cases hc
    exact wp_handled hh (hs.wp_exit hdead hs)

end

/-! ### Connected handlers without a result -/

/-- A member that reads as `v`: it holds `v`, or nothing has been assigned to it. -/
def Slot.MayBe {α : Type} (m : Slot α) (v : α) : Prop := m = .unset ∨ m = .set v

/-- The search of `FetchField` over the columns `is` can read every name until the first that fits, and
the value there. -/
def SearchReads (l : Libmysql) (x : CMySQLHandler) (column : CString) : List Nat → Prop
  | [] => True
  | i :: is => ∀ f, x.m_stField.MayBe f → ∃ name, l.nameAt f i = some name ∧
    if column = name then ∀ r, x.m_stRow.MayBe r → (l.valueAt r i).isSome else SearchReads l x column is

/-- If `m_stField` and `m_stRow` lead anywhere, then to what `FetchField` reads. -/
def FieldReads (l : Libmysql) (x : CMySQLHandler) (column : CString) : Prop :=
  ∀ f r n, x.m_stField.MayBe (some f) → x.m_stRow.MayBe (some r) → x.m_dwFields.MayBe n →
    SearchReads l x column (List.range n.toNat)

/-- A connected handler has a connection object. -/
def CMySQLHandler.Talks (x : CMySQLHandler) : Prop :=
  x.m_bIsConnected = true → x.m_stConnectionPtr ≠ none

/-- What a native needs in order to come back: a connection object if it uses one, an answer to
`mysql_stat`, a text that fits, pointers that can be read, and no log of a failed `mysql_ping` or of
`mysql_real_escape_string` without a connection. `mysql_fetch_field` needs a result. -/
def NativeCall.Harmless (ans : LibAnswers) (debugging : Bool) (l : Libmysql) (x : CMySQLHandler) :
    NativeCall → Prop
  | .mysql_query _ resultid _ _ => resultid = -1 → x.Talks
  | .mysql_set_charset .. | .mysql_get_charset .. | .mysql_insert_id _ | .mysql_store_result _
  | .mysql_field_count _ | .mysql_reload _ | .mysql_affected_rows _ | .mysql_warning_count _ => x.Talks
  | .mysql_ping _ => x.queueData = [] → x.m_bIsConnected = true →
    x.m_stConnectionPtr ≠ none ∧ (ans.alive = true ∨ debugging = false)
  | .mysql_real_escape_string source _ _ =>
    if x.m_bIsConnected then x.m_stConnectionPtr ≠ none ∧ (source.flatMap ans.esc).length ≤ 8192
    else debugging = false
  | .mysql_stat _ _ => x.m_bIsConnected = true ∧ x.m_stConnectionPtr ≠ none ∧ ans.stat ≠ none
  | .mysql_fetch_field_row _ fieldname _ => x.m_bIsConnected = true → FieldReads l x fieldname
  | .mysql_fetch_field _ _ _ => False
  | _ => True

section

variable {M : Machine Stmt Fault State ThreadId Reply} {b : Build} [IsPlugin M b] {t : ThreadId}
  {E : Fault → State → Prop} {α β : Type} {Q : α → State → Prop} {s : State} {h : HandlerPtr}
  {x : CMySQLHandler} {l : Libmysql} {w : List Event}

include b

/-- The exit is passed. -/
lemma Sees.wp_live {A B : Code β} {k : β → Code α} (hs : Sees h x l w s)
    (hlive : x.m_bIsConnected = true) (hk : (B >>= k).wp M t E Q s) :
    ((this h >>= fun y => if !y.m_bIsConnected then A else B) >>= k).wp M t E Q s := by
  rw [bind_bind]
  refine hs.wp_this ?_
  rw [hlive, Bool.not_true, if_neg Bool.false_ne_true]
  exact hk

lemma Sees.wp_liveReturn {A B : Code α} (hs : Sees h x l w s) (hlive : x.m_bIsConnected = true)
    (hB : B.wp M t E Q s) :
    (this h >>= fun y => if !y.m_bIsConnected then A else B).wp M t E Q s := by
  rw [← bind_ret_right (this h >>= _)]
  refine hs.wp_live hlive ?_
  rw [bind_ret_right]
  exact hB

/-- A call with a connection object. -/
lemma Sees.wp_call {f : LibCall} {k : f.Ret → Code α} (hs : Sees h x l w s)
    (hptr : x.m_stConnectionPtr ≠ none)
    (hk : ∀ v l' s', Sees h x l' w s' → (k v).wp M t E Q s') : (call h f >>= k).wp M t E Q s := by
  rw [call, bind_bind]
  refine hs.wp_enter (fun hnone => absurd hnone hptr) fun c s₁ _ hs₁ => ?_
  exact hs₁.wp_leave fun now r s₂ _ hs₂ => hk _ _ s₂ hs₂

lemma Sees.wp_accessed {f : LibAccess} {k : f.Ret → Code α} (hs : Sees h x l w s)
    (hptr : x.m_stConnectionPtr ≠ none)
    (hk : ∀ v s', Sees h x l w s' → (k v).wp M t E Q s') : (access h f >>= k).wp M t E Q s :=
  hs.wp_access (fun hnone => absurd hnone hptr) fun _ _ s' _ hs' => hk _ s' hs'

/-- There is no result. -/
lemma Sees.wp_noResult [∀ r : Option ResPtr, Decidable (r = none)] {A : Code β}
    {B : Option ResPtr → Code β} {k : β → Code α} (hs : Sees h x l w s)
    (hres : x.m_stResult = .set none) (hk : (A >>= k).wp M t E Q s) :
    ((load h .m_stResult >>= fun r => if r = none then A else B r) >>= k).wp M t E Q s := by
  rw [bind_bind]
  refine hs.wp_loadSet hres ?_
  rw [if_pos rfl]
  exact hk

lemma Sees.fetchRow_noResult {k : CString → Code α} (hs : Sees h x l w s)
    (hlive : x.m_bIsConnected = true) (hres : x.m_stResult = .set none)
    (hk : (k NULL).wp M t E Q s) : (fetchRow h >>= k).wp M t E Q s :=
  hs.wp_live hlive (hs.wp_noResult hres hk)

lemma enqueue_returns {d : MainInfo} {k : Unit → Code α} (hs : Sees h x l w s) (hm : s.mutex = none)
    (hk : ∀ s', (k ()).wp M t E Q s') : (enqueue h d >>= k).wp M t E Q s := by
  simp only [enqueue, bind_bind]
  refine wp_lockMutex hm fun s₁ heff => ?_
  have hs₁ : Sees h x s₁.lib s₁.writes s₁ := Sees.refl ((heff.heap h).trans hs.heap)
  exact hs₁.wp_assign rfl fun s₂ _ => wp_unlockMutex fun s₃ _ => hk s₃

lemma nonThreadedQuery_returns {query : CString} {k : Cell → Code α} (hs : Sees h x l w s)
    (hptr : x.m_stConnectionPtr ≠ none) (hk : ∀ v s', (k v).wp M t E Q s') :
    (nonThreadedQuery h query >>= k).wp M t E Q s := by
  simp only [nonThreadedQuery, bind_bind, ite_bind]
  refine hs.wp_assign rfl fun s₁ hs₁ => hs₁.wp_call hptr fun ok l₁ s₂ hs₂ => ?_
  rw [wp_ite]
  split_ifs
  · refine hs₂.wp_accessed hptr fun id s₃ hs₃ => hs₃.wp_assign rfl fun s₄ hs₄ => ?_
    refine hs₄.wp_accessed hptr fun _ s₅ hs₅ => hs₅.wp_assign rfl fun s₆ hs₆ => ?_
    refine hs₆.wp_accessed hptr fun _ s₇ hs₇ => hs₇.wp_accessed hptr fun _ s₈ hs₈ => ?_
    exact hs₈.wp_assign rfl fun s₉ _ => hk 0 s₉
  · exact hs₂.wp_assign rfl fun s₃ hs₃ => hs₃.wp_assign rfl fun s₄ _ => hk 1 s₄

/-- `Ping` of a connected handler ends as its call of libmysql does, up to the log of its failure. -/
lemma ping_ends {k : Cell → Code α} (hs : Sees h x l w s) (hlive : x.m_bIsConnected = true)
    (hnull : x.m_stConnectionPtr = none → ∀ e s', E e s')
    (hok : ∀ c r s₁ s', M.admits t (.leave h c .mysql_ping) r s₁ → r.ok = true → (k 0).wp M t E Q s')
    (hfail : ∀ c r s₁ s', M.admits t (.leave h c .mysql_ping) r s₁ → r.ok = false →
      s'.Debugging = s.Debugging → (Debug [.d, .s, .d] [.s, .d] >>= fun _ => k 1).wp M t E Q s') :
    (ping h >>= k).wp M t E Q s := by
  refine hs.wp_live hlive ?_
  simp only [call, bind_bind]
  refine wp_keepsLog (fun _ _ => rfl) (hs.wp_enter hnull fun c s₁ hc hs₁ hlog₁ => ?_)
  have hptr : x.m_stConnectionPtr ≠ none := by simp [hc]
  refine wp_keepsLog (fun _ _ => rfl) (hs₁.wp_leave fun now r s₂ hr hs₂ hlog₂ => ?_)
  rw [ite_bind, wp_ite]
  split_ifs with hreply
  · simp only [bind_bind]
    have hreply : r.ok = false := by simpa [Libmysql.answer] using hreply
    refine wp_keepsLog (fun _ _ => rfl) (hs₂.wp_accessed hptr fun id s₃ hs₃ hlog₃ => ?_)
    refine wp_keepsLog (fun _ => rfl) (hs₃.wp_assign rfl fun s₄ hs₄ hlog₄ => ?_)
    refine wp_keepsLog (fun _ _ => rfl) (hs₄.wp_accessed hptr fun _ s₅ _ hlog₅ => ?_)
    refine hfail c r s₁ s₅ hr hreply ?_
    rw [hlog₅, hlog₄, hlog₃, hlog₂, hlog₁]
  · exact hok c r s₁ s₂ hr (by simpa [Libmysql.answer] using hreply)

lemma insertField_returns {column : CString} (is : List Nat) (hs : Sees h x l w s)
    (hreads : SearchReads l x column is) :
    (insertField h column is).wp M t E (fun _ s' => ∃ x', Sees h x' l w s') s := by
  induction is generalizing s with
  | nil => exact ⟨x, hs⟩
  | cons i is ih =>
    refine hs.wp_loadAny fun f s₁ hf hs₁ => ?_
    obtain ⟨name, hname, hrest⟩ := hreads f hf
    refine hs₁.wp_fieldName (fun hnone => ?_) fun v hv => ?_
    · cases hnone.symm.trans hname
    obtain rfl : name = v := Option.some.inj (hname.symm.trans hv)
    rw [wp_ite]
    split_ifs with hcolumn
    · rw [if_pos hcolumn] at hrest
      refine hs₁.wp_loadAny fun r s₂ hr hs₂ => hs₂.wp_rowValue (fun hnone => ?_) fun value _ => ?_
      · exact absurd hnone (Option.isSome_iff_ne_none.mp (hrest r hr))
      rw [← bind_ret_right (assign h _)]
      exact hs₂.wp_assign rfl fun s₃ hs₃ => ⟨_, hs₃⟩
    · rw [if_neg hcolumn] at hrest
      exact ih hs₁ hrest

/-- `FetchField` returns when its pointers can be read, and so does what follows it. -/
lemma fetchField_returns {column : CString} {k : Bool → Code α} (hs : Sees h x l w s)
    (hlive : x.m_bIsConnected = true) (hreads : FieldReads l x column)
    (hk : ∀ v x' s', Sees h x' l w s' → (k v).wp M t E Q s') :
    (fetchField h column >>= k).wp M t E Q s := by
  refine hs.wp_live hlive ?_
  rw [bind_bind]
  refine hs.wp_loadAny fun f s₁ hf hs₁ => ?_
  rw [ite_bind, wp_ite]
  split_ifs with hfield
  · exact hk false x s₁ hs₁
  rw [bind_bind]
  refine hs₁.wp_loadAny fun r s₂ hr hs₂ => ?_
  rw [ite_bind, wp_ite]
  split_ifs with hrow
  · exact hk false x s₂ hs₂
  obtain ⟨f, rfl⟩ := Option.ne_none_iff_exists'.mp hfield
  obtain ⟨r, rfl⟩ := Option.ne_none_iff_exists'.mp hrow
  simp only [bind_bind]
  refine hs₂.wp_loadAny fun n s₃ hn hs₃ => ?_
  rw [wp_bind]
  refine wp_mono (insertField_returns _ hs₃ (hreads f r n hf hr hn)) fun _ s₄ ⟨x₄, hs₄⟩ => ?_
  exact hs₄.wp_assign rfl fun s₅ hs₅ => hs₅.wp_assign rfl fun s₆ hs₆ =>
    hs₆.wp_assign rfl fun s₇ hs₇ => hk true _ s₇ hs₇

end

/-- On a connected handler without a result a harmless native returns. -/
lemma live_returns {b : Build} {ans : LibAnswers} {E : Fault → State → Prop}
    {s : State} {n : NativeCall} {c : Cell} {h : HandlerPtr} {x : CMySQLHandler} {l : Libmysql}
    {w : List Event} (hn : n.Plain) (hc : n.connectionHandle = some c)
    (hh : handlerAt s c = some h) (hm : s.mutex = none) (hlive : x.m_bIsConnected = true)
    (hres : x.m_stResult = .set none) (hok : n.Harmless ans s.Debugging l x) (hs : Sees h x l w s) :
    (Natives.body n).wp (replying b ans) .main E (fun _ _ => True) s := by
  cases n with
  | mysql_connect => exact hn.elim
  | mysql_debug => exact hn.elim
  | mysql_reconnect => exact hn.elim
  | mysql_close => exact hn.elim
  | mysql_query query resultid extraid =>
    cases hc
    refine wp_handled hh (wp_mark_record ?_)
    have hs₁ := hs.record (e := .mark (.oldQuery h)) rfl
    refine hs₁.wp_live hlive ?_
    rw [ite_bind, wp_ite]
    split_ifs with hid
    · rw [bind_bind]
      exact enqueue_returns hs₁ hm fun s₂ => wp_mark_record trivial
    · exact nonThreadedQuery_returns hs₁ (hok (not_not.mp hid) hlive) fun v s₂ => wp_mark_record trivial
  | mysql_query_callback =>
    cases hc
    exact wp_handled hh (hs.wp_liveReturn hlive (enqueue_returns hs hm fun s₁ => trivial))
  | mysql_get_charset =>
    cases hc
    refine wp_handled hh (hs.wp_live hlive (hs.wp_accessed (hok hlive) fun v s₁ hs₁ => ?_))
    exact hs₁.wp_setString fun _ _ => trivial
  | mysql_real_escape_string source =>
    cases hc
    obtain ⟨hptr, hfits⟩ := (if_pos hlive).mp hok
    refine wp_handled hh (hs.wp_live hlive ?_)
    rw [bind_bind]
    refine hs.wp_admitted (fun hnone => absurd hnone hptr) fun q r s₁ hr _ hs₁ => ?_
    have htext : l.access q r (.mysql_real_escape_string source) = source.flatMap ans.esc := by
      have htext : r.text = some (source.flatMap ans.esc) := hr.2.1
      rw [Libmysql.access, htext, Option.getD_some]
    rw [htext, if_pos (Nat.succ_le_succ hfits)]
    exact hs₁.wp_setString fun _ _ => trivial
  | mysql_ping =>
    cases hc
    refine wp_handled hh (wp_lockMutex hm fun s₁ heff₁ => ?_)
    have hx₁ : s₁.heap h = some x := (heff₁.heap h).trans hs.heap
    refine wp_object hx₁ ?_
    rw [wp_ite]
    split_ifs with hq
    · exact wp_unlockMutex fun _ _ => trivial
    · refine wp_unlockMutex fun s₂ heff₂ => ?_
      have hs₂ : Sees h x s₂.lib s₂.writes s₂ := Sees.refl ((heff₂.heap h).trans hx₁)
      obtain ⟨hptr, hlog⟩ := hok (by simpa using hq) hlive
      refine ping_ends hs₂ hlive (fun hnull => absurd hnull hptr) (fun _ _ _ _ _ _ => trivial) ?_
      intro q r s₃ s₄ hr hreply hlog₄
      have hdown : ans.alive = false := hr.2.2.symm.trans hreply
      refine wp_Debug (.inl ?_) trivial
      rw [hlog₄, heff₂.Debugging, heff₁.Debugging]
      exact hlog.resolve_left (by simp [hdown])
  | mysql_stat =>
    cases hc
    obtain ⟨-, hptr, hstat⟩ := hok
    refine wp_handled hh (hs.wp_live hlive ?_)
    simp only [call, bind_bind]
    refine hs.wp_enter (fun hnone => absurd hnone hptr) fun q s₁ _ hs₁ => ?_
    refine hs₁.wp_leave fun now r s₂ hr hs₂ => ?_
    have htext : r.text = ans.stat := hr.2.2
    obtain ⟨text, hanswer⟩ := Option.ne_none_iff_exists'.mp hstat
    simp only [Libmysql.answer, htext, hanswer]
    exact hs₂.wp_setString fun _ _ => trivial
  | mysql_errno =>
    cases hc
    refine wp_handled hh ?_
    rw [← bind_ret_right (load h _)]
    exact hs.wp_loadAny fun _ _ _ _ => trivial
  | mysql_fetch_row_format =>
    cases hc
    refine wp_handled hh (hs.wp_assign rfl fun s₁ hs₁ => hs₁.fetchRow_noResult hlive hres ?_)
    exact trivial
  | mysql_fetch_field_row =>
    cases hc
    refine wp_handled hh (fetchField_returns hs hlive (hok hlive) fun _ x₁ s₁ hs₁ => hs₁.wp_this ?_)
    exact hs₁.wp_setString fun s₂ hs₂ => hs₂.wp_assign rfl fun _ _ => trivial
  | mysql_fetch_int =>
    cases hc
    refine wp_handled hh (hs.wp_assign rfl fun s₁ hs₁ => hs₁.fetchRow_noResult hlive hres ?_)
    refine hs₁.wp_this ?_
    rw [wp_ite]
    split_ifs
    · exact hs₁.wp_assign rfl fun _ _ => trivial
    · exact trivial
  | mysql_fetch_float =>
    cases hc
    refine wp_handled hh (hs.wp_assign rfl fun s₁ hs₁ => hs₁.fetchRow_noResult hlive hres ?_)
    refine hs₁.wp_this ?_
    rw [wp_ite]
    split_ifs
    · exact hs₁.wp_assign rfl fun s₂ hs₂ => hs₂.wp_setFloat fun _ _ => trivial
    · exact hs₁.wp_setFloat fun _ _ => trivial
  | mysql_fetch_field => exact hok.elim
  | mysql_free_result | mysql_num_rows =>
    cases hc
    exact wp_handled hh (hs.wp_live hlive (hs.wp_noResult hres trivial))
  | mysql_retrieve_row | mysql_num_fields =>
    cases hc
    refine wp_handled hh (hs.wp_liveReturn hlive ?_)
    rw [← bind_ret_right (load h _ >>= _)]
    exact hs.wp_noResult hres trivial
  | mysql_field_count | mysql_warning_count =>
    cases hc
    refine wp_handled hh (hs.wp_liveReturn hlive ?_)
    rw [← bind_ret_right (access h _)]
    exact hs.wp_accessed (hok hlive) fun _ _ _ => trivial
  | mysql_insert_id | mysql_affected_rows =>
    cases hc
    exact wp_handled hh (hs.wp_live hlive (hs.wp_accessed (hok hlive) fun _ _ _ => trivial))
  | mysql_reload =>
    cases hc
    refine wp_handled hh (hs.wp_liveReturn hlive ?_)
    rw [← bind_ret_right (call h _)]
    exact hs.wp_call (hok hlive) fun _ _ _ _ => trivial
  | mysql_set_charset =>
    cases hc
    exact wp_handled hh (hs.wp_live hlive (hs.wp_call (hok hlive) fun _ _ _ _ => trivial))
  | mysql_store_result =>
    cases hc
    refine wp_handled hh (hs.wp_live hlive ?_)
    rw [bind_bind]
    exact hs.wp_call (hok hlive) fun _ _ s₁ hs₁ => hs₁.wp_assign rfl fun _ _ => trivial

/-! ### Natives that do not return -/

section

variable {M : Machine Stmt Fault State ThreadId Reply} {b : Build} [IsPlugin M b] {t : ThreadId}
  {E : Fault → State → Prop} {α : Type} {Q : α → State → Prop} {s : State} {h : HandlerPtr}
  {x : CMySQLHandler} {l : Libmysql} {w : List Event}

include b

lemma Sees.wp_nullCall {f : LibCall} {k : f.Ret → Code α} (hs : Sees h x l w s)
    (hnull : x.m_stConnectionPtr = none) (hE : ∀ e s', E e s') : (call h f >>= k).wp M t E Q s := by
  rw [call, bind_bind]
  refine hs.wp_enter (fun _ => hE) fun c _ hc _ => ?_
  cases hnull.symm.trans hc

lemma Sees.wp_nullAccess {f : LibAccess} {k : f.Ret → Code α} (hs : Sees h x l w s)
    (hnull : x.m_stConnectionPtr = none) (hE : ∀ e s', E e s') :
    (access h f >>= k).wp M t E Q s := by
  refine hs.wp_access (fun _ => hE) fun c _ _ hc _ => ?_
  cases hnull.symm.trans hc

omit b [IsPlugin M b] in
lemma not_talks {x : CMySQLHandler} (h : ¬ x.Talks) : x.m_stConnectionPtr = none := by
  by_contra hptr
  exact h fun _ => hptr

end

section

variable {b : Build} {ans : LibAnswers} {s : State} {n : NativeCall}
  {c : Cell} {h : HandlerPtr} {x : CMySQLHandler} {l : Libmysql} {w : List Event}

/-- A native that is not harmless faults, whatever libmysql replies; `FetchField` may also find its
column before it comes to a pointer that it cannot read. -/
lemma live_faults (hc : n.connectionHandle = some c) (hh : handlerAt s c = some h)
    (hm : s.mutex = none) (hlive : x.m_bIsConnected = true) (hres : x.m_stResult = .set none)
    (hno : ¬ n.Harmless ans s.Debugging l x) (hrow : ∀ dest name, n ≠ .mysql_fetch_field_row dest name c)
    (hs : Sees h x l w s) :
    (Natives.body n).wp (replying b ans) .main (fun _ _ => True) (fun _ _ => False) s := by
  cases n with
  | mysql_query query resultid extraid =>
    cases hc
    obtain ⟨hid, htalks⟩ := Classical.not_imp.mp hno
    refine wp_handled hh (wp_mark_record ?_)
    have hs₁ := hs.record (e := .mark (.oldQuery h)) rfl
    refine hs₁.wp_live hlive ?_
    rw [if_neg (not_not.mpr hid)]
    simp only [nonThreadedQuery, bind_bind]
    exact hs₁.wp_assign rfl fun s₂ hs₂ => hs₂.wp_nullCall (not_talks htalks) fun _ _ => trivial
  | mysql_ping =>
    cases hc
    obtain ⟨hq, hcalls⟩ := Classical.not_imp.mp hno
    have hcalls := fun hends => hcalls fun _ => hends
    refine wp_handled hh (wp_lockMutex hm fun s₁ heff₁ => ?_)
    have hx₁ : s₁.heap h = some x := (heff₁.heap h).trans hs.heap
    refine wp_object hx₁ ?_
    rw [hq, if_neg (by simp)]
    refine wp_unlockMutex fun s₂ heff₂ => ?_
    have hs₂ : Sees h x s₂.lib s₂.writes s₂ := Sees.refl ((heff₂.heap h).trans hx₁)
    have hlog₂ : s₂.Debugging = s.Debugging := heff₂.Debugging.trans heff₁.Debugging
    by_cases hptr : x.m_stConnectionPtr = none
    · exact hs₂.wp_live hlive (by rw [bind_bind]; exact hs₂.wp_nullCall hptr fun _ _ => trivial)
    obtain ⟨hdown, hon⟩ : ans.alive = false ∧ s.Debugging = true := by
      simpa [hptr] using hcalls
    refine ping_ends hs₂ hlive (fun hnull => absurd hnull hptr) ?_ ?_
    · intro q r s₃ s₄ hr hreply
      cases hreply.symm.trans (hr.2.2.trans hdown)
    · intro q r s₃ s₄ hr hreply hlog₄
      exact wp_Debug_fails (hlog₄.trans (hlog₂.trans hon)) rfl trivial
  | mysql_real_escape_string source =>
    cases hc
    refine wp_handled hh (hs.wp_live hlive ?_)
    rw [bind_bind]
    refine hs.wp_admitted (fun _ _ _ => trivial) fun q r s₁ hr hptr hs₁ => ?_
    have htext : l.access q r (.mysql_real_escape_string source) = source.flatMap ans.esc := by
      have htext : r.text = some (source.flatMap ans.esc) := hr.2.1
      rw [Libmysql.access, htext, Option.getD_some]
    have hlong : ¬ (source.flatMap ans.esc).length ≤ 8192 := by
      intro hfits
      exact hno ((if_pos hlive).mpr ⟨by simp [hptr], hfits⟩)
    rw [htext, if_neg fun hfits => hlong (Nat.le_of_succ_le_succ hfits)]
    trivial
  | mysql_stat =>
    cases hc
    refine wp_handled hh (hs.wp_live hlive ?_)
    simp only [call, bind_bind]
    refine hs.wp_enter (fun _ _ _ => trivial) fun q s₁ hptr hs₁ => ?_
    refine hs₁.wp_leave fun now r s₂ hr hs₂ => ?_
    have htext : r.text = ans.stat := hr.2.2
    cases hstat : ans.stat with
    | none =>
      simp only [Libmysql.answer, htext, hstat]
      trivial
    | some text => exact absurd ⟨hlive, by simp [hptr], by simp [hstat]⟩ hno
  | mysql_fetch_field =>
    cases hc
    refine wp_handled hh (hs.wp_live hlive (hs.wp_noResult hres ?_))
    trivial
  | mysql_fetch_field_row dest name => exact absurd rfl (Option.some.inj hc ▸ hrow dest name)
  | mysql_get_charset | mysql_insert_id | mysql_affected_rows =>
    cases hc
    exact wp_handled hh (hs.wp_live hlive (hs.wp_nullAccess (not_talks hno) fun _ _ => trivial))
  | mysql_field_count | mysql_warning_count =>
    cases hc
    refine wp_handled hh (hs.wp_liveReturn hlive ?_)
    rw [← bind_ret_right (access h _)]
    exact hs.wp_nullAccess (not_talks hno) fun _ _ => trivial
  | mysql_reload =>
    cases hc
    refine wp_handled hh (hs.wp_liveReturn hlive ?_)
    rw [← bind_ret_right (call h _)]
    exact hs.wp_nullCall (not_talks hno) fun _ _ => trivial
  | mysql_set_charset =>
    cases hc
    exact wp_handled hh (hs.wp_live hlive (hs.wp_nullCall (not_talks hno) fun _ _ => trivial))
  | mysql_store_result =>
    cases hc
    refine wp_handled hh (hs.wp_live hlive ?_)
    rw [bind_bind]
    exact hs.wp_nullCall (not_talks hno) fun _ _ => trivial
  | _ => exact absurd trivial hno

/-- Without a connection `mysql_stat` and `mysql_fetch_field` build a string from `NULL`, and
`mysql_real_escape_string` logs a text that it does not pass. -/
lemma dead_faults (hc : n.connectionHandle = some c) (hn : n.Plain) (hh : handlerAt s c = some h)
    (hdead : x.m_bIsConnected = false) (hno : ¬ n.Harmless ans s.Debugging l x)
    (hs : Untouched h x s s) :
    (Natives.body n).wp (replying b ans) .main (fun _ _ => True) (fun _ _ => False) s := by
  have htalks : x.Talks := fun hlive => by simp [hdead] at hlive
  cases n with
  | mysql_connect => exact hn.elim
  | mysql_debug => exact hn.elim
  | mysql_reconnect => exact hn.elim
  | mysql_close => exact hn.elim
  | mysql_stat =>
    cases hc
    refine wp_handled hh (hs.wp_exit hdead ?_)
    trivial
  | mysql_fetch_field =>
    cases hc
    refine wp_handled hh (hs.wp_exit hdead ?_)
    trivial
  | mysql_real_escape_string =>
    cases hc
    have hon : s.Debugging = true := by simpa [NativeCall.Harmless, hdead] using hno
    exact wp_handled hh (hs.wp_exit hdead (wp_Debug_fails hon rfl trivial))
  | mysql_fetch_field_row => exact absurd (fun hlive => by simp [hdead] at hlive) hno
  | mysql_query => exact absurd (fun _ => htalks) hno
  | mysql_ping => exact absurd (fun _ hlive => by simp [hdead] at hlive) hno
  | mysql_set_charset | mysql_get_charset | mysql_insert_id | mysql_store_result | mysql_field_count
    | mysql_reload | mysql_affected_rows | mysql_warning_count => exact absurd htalks hno
  | _ => exact absurd trivial hno

/-- Every value may be left in an unassigned member. -/
lemma exists_garbage (m : Member) (v : m.Val) : ∃ r : Reply, m.garbage r = v := by
  cases m with
  | m_stResult => exact ⟨{ pointer := Option.map (fun p => (p, 0)) v }, by cases v <;> rfl⟩
  | m_stRow => exact ⟨{ pointer := Option.map (fun p => (p.result, p.row)) v }, by cases v <;> rfl⟩
  | m_stField => exact ⟨{ pointer := Option.map (fun p => (p.result, p.index)) v }, by cases v <;> rfl⟩
  | m_dwFields => exact ⟨{ code := v }, rfl⟩
  | m_dwError => exact ⟨{ code := v }, rfl⟩

lemma Sees.exists_load (b : Build) (ans : LibAnswers) {m : Member}
    {v : m.Val} (hs : Sees h x l w s) (hv : (m.get x).MayBe v) :
    ∃ s', (replying b ans).Step .main (.load h m) s (.ok v) s' ∧ Sees h x l w s' := by
  rcases hv with hunset | hset
  · obtain ⟨r, hr⟩ := exists_garbage m v
    refine ⟨s.record (.unset .main h m), ⟨r, ⟨trivial, trivial, trivial⟩, ?_⟩, hs.record rfl⟩
    rw [IsPlugin.exec_eq]
    simp [Stmt.run, hs.heap, hunset, hr]
  · refine ⟨s, ⟨{}, ⟨trivial, trivial, trivial⟩, ?_⟩, hs⟩
    rw [IsPlugin.exec_eq]
    simp [Stmt.run, hs.heap, hset]

lemma step_fieldName {f : Option FieldPtr} {i : Nat} {v : CString} (hs : Sees h x l w s)
    (hv : l.nameAt f i = some v) :
    (replying b ans).Step .main (.fieldName f i) s (.ok v) s := by
  obtain ⟨f, rfl, hname⟩ := Option.bind_eq_some_iff.mp hv
  refine ⟨{}, ⟨trivial, trivial, trivial⟩, ?_⟩
  rw [IsPlugin.exec_eq]
  simp [Stmt.run, hs.lib, hname]

lemma step_fieldName_error {f : Option FieldPtr} {i : Nat} (hs : Sees h x l w s)
    (hnone : l.nameAt f i = none) :
    ∃ e, (replying b ans).Step .main (.fieldName f i) s (.error e) s := by
  cases f with
  | none => exact ⟨.nullPointer, {}, ⟨trivial, trivial, trivial⟩, rfl⟩
  | some f =>
    have hnone : ((l.live f.result).bind fun x => x.set.fields[f.index + i]?) = none := hnone
    refine ⟨.badResult, {}, ⟨trivial, trivial, trivial⟩, ?_⟩
    rw [IsPlugin.exec_eq]
    simp [Stmt.run, hs.lib, hnone]

lemma step_rowValue_error {r : Option RowPtr} {i : Nat} (hs : Sees h x l w s)
    (hnone : l.valueAt r i = none) :
    ∃ e, (replying b ans).Step .main (.rowValue r i) s (.error e) s := by
  cases r with
  | none => exact ⟨.nullPointer, {}, ⟨trivial, trivial, trivial⟩, rfl⟩
  | some r =>
    have hnone : ((l.live r.result).bind fun x => x.set.rows[r.row]?.bind (·[i]?)) = none := hnone
    refine ⟨.badResult, {}, ⟨trivial, trivial, trivial⟩, ?_⟩
    rw [IsPlugin.exec_eq]
    simp [Stmt.run, hs.lib, hnone]

/-- The search returns only if it can read what it comes to. -/
lemma searchReads_of_returns {column : CString} {Q : Unit → State → Prop} (is : List Nat)
    (hs : Sees h x l w s)
    (hwp : (insertField h column is).wp (replying b ans) .main (fun _ _ => False) Q s) :
    SearchReads l x column is := by
  induction is generalizing s with
  | nil => trivial
  | cons i is ih =>
    intro f hf
    obtain ⟨s₁, hload, hs₁⟩ := hs.exists_load b ans (m := .m_stField) hf
    have hname := wp_step_ok hwp hload
    cases hread : l.nameAt f i with
    | none =>
      obtain ⟨e, herror⟩ := step_fieldName_error hs₁ hread
      exact (wp_step_error hname herror).elim
    | some name =>
      refine ⟨name, rfl, ?_⟩
      have hrest := wp_step_ok hname (step_fieldName hs₁ hread)
      rw [wp_ite] at hrest
      split_ifs at hrest ⊢ with hcolumn
      · intro r hr
        obtain ⟨s₂, hload, hs₂⟩ := hs₁.exists_load b ans (m := .m_stRow) hr
        have hvalue := wp_step_ok hrest hload
        rw [Option.isSome_iff_ne_none]
        intro hnone
        obtain ⟨e, herror⟩ := step_rowValue_error hs₂ hnone
        exact wp_step_error hvalue herror
      · exact ih hs₁ hrest

/-- `FetchField` of a connected handler returns only if its pointers can be read. -/
lemma fieldReads_of_returns {column : CString} {Q : Bool → State → Prop} (hs : Sees h x l w s)
    (hlive : x.m_bIsConnected = true)
    (hwp : (fetchField h column).wp (replying b ans) .main (fun _ _ => False) Q s) :
    FieldReads l x column := by
  intro f r n hf hr hn
  have hthis : (replying b ans).Step .main (.this h) s (.ok x) s := by
    refine ⟨{}, ⟨trivial, trivial, trivial⟩, ?_⟩
    rw [IsPlugin.exec_eq]
    simp [Stmt.run, hs.heap]
  have hbody := wp_step_ok hwp hthis
  rw [hlive, Bool.not_true, if_neg Bool.false_ne_true] at hbody
  obtain ⟨s₁, hload, hs₁⟩ := hs.exists_load b ans (m := .m_stField) hf
  have hrow := wp_step_ok hbody hload
  rw [if_neg (by simp)] at hrow
  obtain ⟨s₂, hload, hs₂⟩ := hs₁.exists_load b ans (m := .m_stRow) hr
  have hcount := wp_step_ok hrow hload
  rw [if_neg (by simp)] at hcount
  obtain ⟨s₃, hload, hs₃⟩ := hs₂.exists_load b ans (m := .m_dwFields) hn
  have hsearch := wp_step_ok hcount hload
  rw [wp_bind] at hsearch
  exact searchReads_of_returns _ hs₃ hsearch

lemma handled_of_wp {f : HandlerPtr → Code Cell} {E : Fault → State → Prop} {Q : Cell → State → Prop}
    (hh : handlerAt s c = some h) (hwp : (withHandle c f).wp (replying b ans) .main E Q s) :
    (f h).wp (replying b ans) .main E Q s := by
  have hsize : (replying b ans).Step .main .size s (.ok s.SQLHandle.length) s :=
    ⟨{}, ⟨trivial, trivial, trivial⟩, rfl⟩
  have hat : (replying b ans).Step .main (.at (c - 1).toNat) s (.ok h) s := by
    refine ⟨{}, ⟨trivial, trivial, trivial⟩, ?_⟩
    have hh : s.SQLHandle[(c - 1).toNat]? = some h := hh
    rw [IsPlugin.exec_eq]
    simp only [Stmt.run, hh]
  have hbody := wp_step_ok hwp hsize
  rw [if_neg (Nat.not_le_of_lt (List.getElem?_eq_some_iff.mp hh).1)] at hbody
  exact wp_step_ok hbody hat

/-- A native comes back in every run, or it faults in one. -/
lemma returns_iff_wp (b : Build) (ans : LibAnswers) (hm : s.mutex = none) :
    ((∃ o s', Run (replying b ans) .main (native n) s o s') ∧
      ∀ o s', Run (replying b ans) .main (native n) s o s' → ∃ v, o = .ok v) ↔
      (native n).wp (replying b ans) .main (fun _ _ => False) (fun _ _ => True) s := by
  rw [wp_iff]
  constructor
  · rintro ⟨-, hall⟩
    refine ⟨fun _ _ _ => trivial, fun e s' hrun => ?_⟩
    obtain ⟨v, hv⟩ := hall _ s' hrun
    cases hv
  · rintro ⟨-, herr⟩
    refine ⟨IsPlugin.exists_run_alone replying_admits _ fun u n hu => ?_, fun o s' hrun => ?_⟩
    · rw [hm] at hu
      cases hu
    · cases o with
      | ok v => exact ⟨v, rfl⟩
      | error e => exact (herr e s' hrun).elim

lemma not_unharmed_of_faults
    (hfaults : (Natives.body n).wp (replying b ans) .main (fun _ _ => True) (fun _ _ => False)
      (s.record (.mark (.call n)))) : ¬ n.Unharmed (replying b ans) h x s := by
  rintro ⟨⟨o, s', hrun⟩, hall⟩
  have hnative : (native n).wp (replying b ans) .main (fun _ _ => True) (fun _ _ => False) s := by
    refine wp_mark_record ?_
    rw [wp_bind]
    exact wp_mono hfaults fun _ _ hfalse => hfalse.elim
  obtain ⟨v, rfl⟩ := (hall o s' hrun).1
  exact ((wp_iff _ _ _).mp hnative).1 v s' hrun

/-- A native that comes back in every run is harmless. -/
lemma harmless_of_unharmed (hn : n.Plain) (hc : n.connectionHandle = some c)
    (hh : handlerAt s c = some h) (hx : s.heap h = some x) (hm : s.mutex = none)
    (hidle : x.m_bIsConnected = false ∨ x.m_stResult = .set none)
    (hun : n.Unharmed (replying b ans) h x s) : n.Harmless ans s.Debugging s.lib x := by
  by_contra hno
  have hs₁ : Sees h x s.lib s.writes (s.record (.mark (.call n))) := (Sees.refl hx).record rfl
  cases hconn : x.m_bIsConnected with
  | false =>
    have hs₁ : Untouched h x (s.record (.mark (.call n))) (s.record (.mark (.call n))) := .refl hx
    exact not_unharmed_of_faults (dead_faults hc hn hh hconn hno hs₁) hun
  | true =>
    have hres := hidle.resolve_left (by simp [hconn])
    by_cases hrow : ∃ dest name, n = .mysql_fetch_field_row dest name c
    · obtain ⟨dest, name, rfl⟩ := hrow
      have hwp := (returns_iff_wp b ans hm).mp ⟨hun.1, fun o s' hrun => (hun.2 o s' hrun).1⟩
      have hmark : (replying b ans).Step .main
          (.mark (.call (.mysql_fetch_field_row dest name c))) s (.ok ()) _ :=
        ⟨{}, ⟨trivial, trivial, trivial⟩, rfl⟩
      have hbody := wp_step_ok hwp hmark
      rw [wp_bind] at hbody
      have hh₁ : handlerAt (s.record (.mark (.call (.mysql_fetch_field_row dest name c)))) c = some h := hh
      have hfetch := handled_of_wp hh₁ hbody
      rw [wp_bind] at hfetch
      exact hno fun _ => fieldReads_of_returns hs₁ hconn hfetch
    · have hrow : ∀ dest name, n ≠ .mysql_fetch_field_row dest name c :=
        fun dest name heq => hrow ⟨dest, name, heq⟩
      exact not_unharmed_of_faults (live_faults hc hh hm hconn hres hno hrow hs₁) hun

/-- A harmless native comes back, and leaves a handler that is not connected alone. -/
lemma unharmed_of_harmless (hn : n.Plain) (hc : n.connectionHandle = some c)
    (hh : handlerAt s c = some h) (hx : s.heap h = some x) (hm : s.mutex = none)
    (hidle : x.m_bIsConnected = false ∨ x.m_stResult = .set none)
    (hok : n.Harmless ans s.Debugging s.lib x) : n.Unharmed (replying b ans) h x s := by
  have hnative : (native n).wp (replying b ans) .main (fun _ _ => False)
      (fun _ s' => x.m_bIsConnected = false → Untouched h x s s') s := by
    cases hconn : x.m_bIsConnected with
    | false =>
      refine wp_native fun r s₁ _ heff => ?_
      have hs₁ : Untouched h x s s₁ := (Untouched.refl hx).step heff trivial
      have hh₁ : handlerAt s₁ c = some h := by
        rw [handlerAt, show s₁.SQLHandle = s.SQLHandle from heff.table]
        exact hh
      have hm₁ : s₁.mutex = none := (heff.mutex (by simp)).trans hm
      have hlog₁ : s₁.Debugging = s.Debugging := heff.Debugging
      refine wp_mono (dead_untouched hn hc (fun dest heq => ?_) (fun number dest heq => ?_)
        (fun source dest heq => ?_) hh₁ hm₁ hconn hs₁) fun v s₂ hs₂ s₃ heff₃ _ => hs₂.step heff₃ trivial
      · subst heq
        simpa [hconn] using hok.1
      · subst heq
        exact hok
      · subst heq
        rw [hlog₁]
        simpa [NativeCall.Harmless, hconn] using hok
    | true =>
      have hres := hidle.resolve_left (by simp [hconn])
      refine wp_mark_record ?_
      rw [wp_bind]
      refine wp_mono (live_returns hn hc hh hm hconn hres hok ((Sees.refl hx).record rfl)) ?_
      exact fun _ _ _ => wp_mark_record fun hdead => by cases hdead
  obtain ⟨hreturns, herr⟩ := (wp_iff _ _ _).mp hnative
  obtain ⟨hexists, hall⟩ := (returns_iff_wp b ans hm).mpr
    (wp_mono hnative fun _ _ _ => trivial)
  refine ⟨hexists, fun o s' hrun => ?_⟩
  obtain ⟨v, rfl⟩ := hall o s' hrun
  exact ⟨⟨v, rfl⟩, hreturns v s' hrun⟩

end

/-- On a handler that is not connected, or has no result, a native returns and leaves a handler that is
not connected alone, exactly if it is harmless. -/
theorem unharmed_iff (b : Build) (ans : LibAnswers) {s : State}
    {n : NativeCall} {c : Cell} {h : HandlerPtr} {x : CMySQLHandler} (hn : n.Plain)
    (hc : n.connectionHandle = some c) (hh : handlerAt s c = some h) (hx : s.heap h = some x)
    (hm : s.mutex = none) (hidle : x.m_bIsConnected = false ∨ x.m_stResult = .set none) :
    n.Unharmed (replying b ans) h x s ↔ n.Harmless ans s.Debugging s.lib x :=
  ⟨harmless_of_unharmed hn hc hh hx hm hidle, unharmed_of_harmless hn hc hh hx hm hidle⟩

/-- A server that refuses the connection. -/
def refuses : ∀ {β : Type}, Stmt β → State → Reply
  | _, .leave _ _ (.mysql_real_connect _ _ _ _ _), _ => { ok := false }
  | _, _, _ => {}

lemma exists_refused : ∃ s x, Runs .win32 Set.univ (State.init []) s ∧ handlerAt s 1 = some 0 ∧
    s.heap 0 = some x ∧ x.m_bIsConnected = false ∧ s.mutex = none := by
  have hrun : (play (allowing .win32 Set.univ) refuses [.native (.mysql_connect [] [] [] [] 0)]
      (State.init [])).map (fun s => (handlerAt s 1, (s.heap 0).map (·.m_bIsConnected), s.mutex))
      = some (some 0, some false, none) := by decide
  obtain ⟨s, hs, heval⟩ := Option.map_eq_some_iff.mp hrun
  simp only [Prod.mk.injEq, Option.map_eq_some_iff] at heval
  obtain ⟨hh, ⟨x, hx, hdead⟩, hm⟩ := heval
  exact ⟨s, x, runs_of_play_univ hs, hh, hx, hdead, hm⟩

/-- The native `mysql_query` returns on a handler whose connection was refused. -/
theorem unharmed_query : ∃ s x, Runs .win32 Set.univ (State.init []) s ∧ s.heap 0 = some x ∧
    x.m_bIsConnected = false ∧
    (NativeCall.mysql_query ['q'] 7 3 1).Unharmed (replying .win32 ⟨backslashed, none, false⟩) 0 x s := by
  obtain ⟨s, x, hruns, hh, hx, hdead, hm⟩ := exists_refused
  refine ⟨s, x, hruns, hx, hdead, (unharmed_iff .win32 ⟨backslashed, none, false⟩
    (n := .mysql_query ['q'] 7 3 1) trivial rfl hh hx hm (.inl hdead)).mpr ?_⟩
  intro hid
  exact absurd hid (by decide)

/-- `mysql_stat` faults on a handler whose connection was refused. -/
theorem stat_harmed :
    ¬ ∀ (b : Build) (ans : LibAnswers) (s : State) (n : NativeCall) (c : Cell)
      (h : HandlerPtr) (x : CMySQLHandler), n.Plain → n.connectionHandle = some c →
      handlerAt s c = some h → s.heap h = some x → s.mutex = none →
      x.m_bIsConnected = false ∨ x.m_stResult = .set none → n.Unharmed (replying b ans) h x s := by
  intro hall
  obtain ⟨s, x, hruns, hh, hx, hdead, hm⟩ := exists_refused
  have hun := hall .win32 ⟨backslashed, none, false⟩ s (.mysql_stat 5 1) 1 0 x trivial rfl hh hx hm (.inl hdead)
  have hharmless := harmless_of_unharmed (n := .mysql_stat 5 1) trivial rfl hh hx hm (.inl hdead) hun
  simpa [hdead] using hharmless.1

end MySQLPlugin
