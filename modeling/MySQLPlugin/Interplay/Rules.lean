import MySQLPlugin.Logic.Runs
import MySQLPlugin.Model.Main

/-!
# The two threads side by side

Rules for programs of the plugin whose statements interleave with those of the other thread.
-/

namespace MySQLPlugin

open Threads Prog CMySQLHandler

/-! ### Single statements -/

section

variable {M : Machine Stmt Fault State ThreadId Reply} {b : Build}
  {rely : ThreadId → Set (State → Prop)} {t : ThreadId} {α β : Type} {P : Event → Prop}
  {A : State → Prop} {Q : α → State → Prop} {s : State}

/-- A statement that leaves one of its events, or none; the machine executes it only in states that
satisfy `C`. -/
lemma relies_stmt_within {C : State → Prop} (hM : ∀ {β : Type} {a : Stmt β} {s o s'},
      M.Step t a s o s' → (plugin b).Step t a s o s') {a : Stmt β} {f : β → Code α}
    (hC : ∀ {s o s'}, M.Step t a s o s' → C s) (ha : a.Only t P)
    (hA : Stable (rely t) A) (hs : A s)
    (hg : ∀ e s₁ s₂, P e → A s₁ → C s₁ → Effect t e s₁ s₂ → Guarantees rely t s₁ s₂)
    (hok : ∀ x s₁ s₂, A s₁ → C s₁ → M.Step t a s₁ (.ok x) s₂ → (f x).Relies M rely t Q s₂) :
    (Prog.lift a >>= f).Relies M rely t Q s := by
  have hgt : ∀ s₁ o s₂, A s₁ → M.Step t a s₁ o s₂ → Guarantees rely t s₁ s₂ := by
    intro s₁ o s₂ hs₁ hst
    obtain ⟨r, _, hrun⟩ := hM hst
    rcases Stmt.run_effect ha hrun with rfl | ⟨e, he, heff⟩
    · exact fun _ _ => .refl _ _
    · exact hg e s₁ s₂ he hs₁ (hC hst) heff
  exact relies_act hA hs
    (fun s₁ x s₂ hs₁ hst => ⟨hgt s₁ _ s₂ hs₁ hst, hok x s₁ s₂ hs₁ (hC hst) hst⟩)
    fun s₁ e s₂ hs₁ hst => hgt s₁ _ s₂ hs₁ hst

/-- A statement that leaves one of its events, or none. -/
lemma relies_stmt (hM : ∀ {β : Type} {a : Stmt β} {s o s'}, M.Step t a s o s' →
      (plugin b).Step t a s o s') {a : Stmt β} {f : β → Code α} (ha : a.Only t P)
    (hA : Stable (rely t) A) (hs : A s)
    (hg : ∀ e s₁ s₂, P e → A s₁ → Effect t e s₁ s₂ → Guarantees rely t s₁ s₂)
    (hok : ∀ x s₁ s₂, A s₁ → M.Step t a s₁ (.ok x) s₂ → (f x).Relies M rely t Q s₂) :
    (Prog.lift a >>= f).Relies M rely t Q s :=
  relies_stmt_within (C := fun _ => True) hM (fun _ => trivial) ha hA hs
    (fun e s₁ s₂ he hs₁ _ => hg e s₁ s₂ he hs₁) fun x s₁ s₂ hs₁ _ => hok x s₁ s₂ hs₁

variable (hM : ∀ {t : ThreadId} {β : Type} {a : Stmt β} {s o s'}, M.Step t a s o s' →
  (plugin b).Step t a s o s')

include hM

lemma relies_at {i : Nat} {f : HandlerPtr → Code α} (hA : Stable (rely t) A) (hs : A s)
    (hok : ∀ h s, A s → s.SQLHandle[i]? = some h → (f h).Relies M rely t Q s) :
    (Prog.lift (.at i) >>= f).Relies M rely t Q s := by
  refine relies_stmt (P := fun _ => False) hM trivial hA hs (fun _ _ _ h => h.elim)
    fun h s₁ s₂ hs₁ hst => ?_
  obtain ⟨rfl, hi⟩ := step_at (hM hst)
  exact hok h _ hs₁ hi

lemma relies_size {f : Nat → Code α} (hA : Stable (rely t) A) (hs : A s)
    (hok : ∀ s, A s → (f s.SQLHandle.length).Relies M rely t Q s) :
    (Prog.lift .size >>= f).Relies M rely t Q s := by
  refine relies_stmt (P := fun _ => False) hM trivial hA hs (fun _ _ _ h => h.elim)
    fun n s₁ s₂ hs₁ hst => ?_
  obtain ⟨rfl, rfl⟩ := step_size (hM hst)
  exact hok _ hs₁

lemma relies_this {h : HandlerPtr} {f : CMySQLHandler → Code α} (hA : Stable (rely t) A) (hs : A s)
    (hok : ∀ x s, A s → s.heap h = some x → (f x).Relies M rely t Q s) :
    (this h >>= f).Relies M rely t Q s := by
  refine relies_stmt (P := fun _ => False) hM trivial hA hs (fun _ _ _ h => h.elim)
    fun x s₁ s₂ hs₁ hst => ?_
  obtain ⟨rfl, hx⟩ := step_this (hM hst)
  exact hok x _ hs₁ hx

/-- A statement that leaves an event whenever it returns. -/
lemma relies_records {a : Stmt β} {f : β → Code α} (hrec : a.Records) (ha : a.Only t P)
    (hA : Stable (rely t) A) (hs : A s)
    (hok : ∀ e s₁ s₂, P e → A s₁ → Effect t e s₁ s₂ →
      Guarantees rely t s₁ s₂ ∧ ∀ x, (f x).Relies M rely t Q s₂) :
    (Prog.lift a >>= f).Relies M rely t Q s := by
  refine relies_stmt hM ha hA hs (fun e s₁ s₂ he hs₁ heff => (hok e s₁ s₂ he hs₁ heff).1)
    fun x s₁ s₂ hs₁ hst => ?_
  obtain ⟨e, he, heff⟩ := hrec.effect ha (hM hst)
  exact (hok e s₁ s₂ he hs₁ heff).2 x

lemma relies_assign {h : HandlerPtr} {a : Assign} {f : Unit → Code α} (hA : Stable (rely t) A)
    (hs : A s)
    (hok : ∀ s₁ s₂, A s₁ → Effect t (.assign t h a) s₁ s₂ →
      Guarantees rely t s₁ s₂ ∧ (f ()).Relies M rely t Q s₂) :
    (assign h a >>= f).Relies M rely t Q s :=
  relies_records (P := (· = .assign t h a)) hM trivial rfl hA hs fun _ s₁ s₂ he hs₁ heff =>
    ⟨(hok s₁ s₂ hs₁ (he ▸ heff)).1, fun _ => (hok s₁ s₂ hs₁ (he ▸ heff)).2⟩

lemma relies_mark {m : Mark} {f : Unit → Code α} (hA : Stable (rely t) A) (hs : A s)
    (hok : ∀ s₁ s₂, A s₁ → Effect t (.mark m) s₁ s₂ →
      Guarantees rely t s₁ s₂ ∧ (f ()).Relies M rely t Q s₂) :
    (Prog.lift (.mark m) >>= f).Relies M rely t Q s :=
  relies_records (P := (· = .mark m)) hM trivial rfl hA hs fun _ s₁ s₂ he hs₁ heff =>
    ⟨(hok s₁ s₂ hs₁ (he ▸ heff)).1, fun _ => (hok s₁ s₂ hs₁ (he ▸ heff)).2⟩

/-- The guard of the worker. -/
lemma relies_guard {h : HandlerPtr} {f : Bool → Code α} (hA : Stable (rely t) A) (hs : A s)
    (hvisit : ∀ x s₁ s₂, A s₁ → s₁.heap h = some x → x.ready = true →
      Effect t (.visit h) s₁ s₂ → Guarantees rely t s₁ s₂ ∧ (f true).Relies M rely t Q s₂)
    (hpass : ∀ s, A s → (f false).Relies M rely t Q s) :
    (Prog.lift (.guard h) >>= f).Relies M rely t Q s := by
  refine relies_stmt (P := (· = .visit h)) hM rfl hA hs (fun e s₁ s₂ he hs₁ heff => ?_)
    fun v s₁ s₂ hs₁ hst => ?_
  · subst he
    obtain ⟨x, hx, hready⟩ := heff.occurs
    exact (hvisit x s₁ s₂ hs₁ hx hready heff).1
  · obtain ⟨x, hx, rfl, hs₂⟩ := step_guard (hM hst)
    cases hready : x.ready with
    | true =>
      rw [hready, if_pos rfl] at hs₂
      exact (hvisit x s₁ s₂ hs₁ hx hready hs₂).2
    | false =>
      rw [hready] at hs₂
      obtain rfl : s₂ = s₁ := by simpa using hs₂
      exact hpass s₂ hs₁

end

/-! ### Natives -/

/-- The events of the natives outside `Connect`, `Disconnect`, `Query` and `OldQuery`. -/
def Event.OfRest : Event → Prop
  | .lock _ | .relock _ | .unlock _ | .new _ _ _ _ _ _ | .pushBack _
  | .assign _ _ (.m_bIsConnected false) | .mark (.call _) | .mark (.return _ _) => True
  | e => e.Quiet

lemma Event.Quiet.ofRest {e : Event} (he : e.Quiet) : e.OfRest := by
  cases e with
  | assign u h a => cases a <;> first | exact he | exact he.elim
  | _ => first | exact he | exact he.elim

section

variable {M : Machine Stmt Fault State ThreadId Reply} {b : Build}
  {rely : ThreadId → Set (State → Prop)} {I : State → Prop} {s : State}
  (hM : ∀ {t : ThreadId} {β : Type} {a : Stmt β} {s o s'}, M.Step t a s o s' →
    (plugin b).Step t a s o s')

include hM

/-- A native other than `mysql_close` keeps what `Connect`, `Disconnect`, `Query`, `OldQuery` and
the rest of its statements keep. -/
lemma native_relies (hI : Stable (rely .main) I)
    (hrest : ∀ e s s', e.OfRest → I s → Effect .main e s s' → Guarantees rely .main s s' ∧ I s')
    (hconnect : ∀ h s, I s → (connect h).Relies M rely .main (fun _ => I) s)
    (hdisconnect : ∀ h s, I s → (disconnect h).Relies M rely .main (fun _ => I) s)
    (hquery : ∀ h q callback indexID extraID s, I s →
      (query h q callback indexID extraID).Relies M rely .main (fun _ => I) s)
    (holdQuery : ∀ h q resultID extraID s, I s → (do
      .lift (.mark (.oldQuery h))
      let r ← oldQuery h q resultID extraID
      .lift (.mark (.oldQueryEnd h))
      pure r : Code Cell).Relies M rely .main (fun _ => I) s)
    {n : NativeCall} (hn : n.Open) (hs : I s) :
    (native n).Relies M rely .main (fun _ => I) s := by
  have honly {α : Type} {p : Code α} (hp : p.All (Stmt.Only .main Event.OfRest)) {s : State}
      (hs : I s) : p.Relies M rely .main (fun _ => I) s := relies_of_only hM hp hI hrest hs
  have hhandle (c : Cell) {f : HandlerPtr → Code Cell}
      (hf : ∀ h s, I s → (f h).Relies M rely .main (fun _ => I) s) {s : State} (hs : I s) :
      (withHandle c f).Relies M rely .main (fun _ => I) s := by
    refine relies_size hM hI hs fun s hs => ?_
    split_ifs
    · exact relies_ret hI hs
    · exact relies_at hM hI hs fun h s hs _ => hf h s hs
  have happend (host user db pass : CString) (port : Cell) {s : State} (hs : I s) :
      (Natives.append host user db pass port).Relies M rely .main (fun _ => I) s := by
    rw [Natives.append, construct, bind_bind]
    refine .bind ((honly (p := .lift (.new host user pass db port)) ?_ hs).mono fun h s hs => ?_)
    · simp [Stmt.Only, Event.OfRest]
    · rw [bind_bind]
      refine .bind ((hconnect h s hs).mono fun _ s hs => honly ?_ hs)
      simp [Stmt.Only, Event.OfRest, all_lift_bind]
  have hreuse (host user db pass : CString) (port : Cell) (hs : List HandlerPtr) :
      ∀ i s, I s → (Natives.reuse host user db pass port hs i).Relies M rely .main (fun _ => I) s := by
    induction hs with
    | nil => exact fun i s hs => relies_ret hI hs
    | cons h hs ih =>
      refine fun i s hs => relies_this hM hI hs fun x s hs _ => ?_
      split_ifs
      · refine relies_assign hM hI hs fun s₁ s₂ hs₁ heff => ?_
        obtain ⟨hg, hs₂⟩ := hrest (.assign .main h (.m_bIsConnected false)) s₁ s₂ trivial hs₁ heff
        exact ⟨hg, .bind ((hconnect h s₂ hs₂).mono fun _ s hs => relies_ret hI hs)⟩
      · exact ih (i + 1) s hs
  refine relies_mark hM hI hs fun s₁ s₂ hs₁ heff => ?_
  obtain ⟨hg, hs₂⟩ := hrest (.mark (.call n)) s₁ s₂ trivial hs₁ heff
  refine ⟨hg, .bind (Relies.mono (Q := fun _ => I) ?_ fun r s hs => ?_)⟩
  · cases n with
    | mysql_close => exact hn.elim
    | mysql_connect host user db pass port =>
      refine relies_size hM hI hs₂ fun s hs => ?_
      split_ifs
      · refine relies_stmt (P := fun _ => False) hM trivial hI hs (fun _ _ _ h => h.elim)
          fun T s₁ s₂ hs₁ hst => ?_
        obtain ⟨rfl, -⟩ := step_table (hM hst)
        refine .bind ((hreuse host user db pass port T 0 _ hs₁).mono fun i s hs => ?_)
        cases i with
        | none => exact happend host user db pass port hs
        | some i => exact relies_ret hI hs
      · exact happend host user db pass port hs
    | mysql_reconnect c =>
      refine hhandle c (fun h s hs => .bind ((hdisconnect h s hs).mono fun _ s hs => ?_)) hs₂
      refine relies_assign hM hI hs fun s₁ s₂ hs₁ heff => ?_
      obtain ⟨hg, hs₂⟩ := hrest (.assign .main h (.m_bIsConnected false)) s₁ s₂ trivial hs₁ heff
      exact ⟨hg, .bind ((hconnect h s₂ hs₂).mono fun _ s hs => relies_ret hI hs)⟩
    | mysql_query q resultid extraid c =>
      exact hhandle c (fun h s hs => holdQuery h q resultid extraid s hs) hs₂
    | mysql_query_callback index q callback extraid c =>
      exact hhandle c (fun h s hs => hquery h q callback index extraid s hs) hs₂
    | mysql_ping c =>
      refine honly ?_ hs₂
      simp [Natives.body, Natives.nMysqlPing, ping, Debug, withHandle, this, call, access, assign, lockMutex,
        unlockMutex, bind_bind, ite_bind, all_lift_bind, all_ite, Stmt.Only, Event.OfRest, Event.Quiet,
        LibCall.Quiet, Assign.Quiet]
    | _ =>
      exact honly (all_only_mono (body_quiet .main (by trivial)) fun _ => Event.Quiet.ofRest) hs₂
  · refine relies_mark hM hI hs fun s₁ s₂ hs₁ heff => ?_
    obtain ⟨hg, hs₂⟩ := hrest (.mark (.return n r)) s₁ s₂ trivial hs₁ heff
    exact ⟨hg, relies_ret hI hs₂⟩

end

/-! ### `ProcessTick` -/

section

variable {M : Machine Stmt Fault State ThreadId Reply} {b : Build}
  {rely : ThreadId → Set (State → Prop)} {N : Set NativeCall} {I : State → Prop} {s : State}

variable (hM : ∀ {t : ThreadId} {β : Type} {a : Stmt β} {s o s'}, M.Step t a s o s' →
  (plugin b).Step t a s o s') (hN : Confined M N)

include hM hN

/-- The calls of a public keep what the calls themselves and the natives keep. -/
lemma relies_execAll {name : CString} {p : Public} (hI : Stable (rely .main) I)
    (hexec : ∀ a s s', I s → Effect .main (.exec a p) s s' → Guarantees rely .main s s' ∧ I s')
    (hnative : ∀ n s, n ∈ N → I s → (native n).Relies M rely .main (fun _ => I) s) (hs : I s) :
    (execAll name p).Relies M rely .main (fun _ => I) s := by
  refine relies_stmt (P := fun _ => False) hM trivial hI hs (fun _ _ _ h => h.elim)
    fun l s₁ s₂ hs₁ hst => ?_
  obtain ⟨rfl, rfl⟩ := step_scripts (hM hst)
  refine relies_forEach _ hI (fun a s _ hs => ?_) hs₁
  split_ifs with hname
  · refine relies_stmt (P := (· = .exec a p)) hM rfl hI hs (fun e s₁ s₂ he hs₁ heff => ?_)
      fun natives s₁ s₂ hs₁ hst => ?_
    · subst he
      exact (hexec a s₁ s₂ hs₁ heff).1
    · refine relies_forEach natives hI (fun n s hn hs => .bind ?_)
        (hexec a s₁ s₂ hs₁ (step_exec (hM hst))).2
      exact (hnative n s (hN a p s₁ natives s₂ hst n hn) hs).mono fun _ _ h => relies_ret hI h
  · exact relies_ret hI hs

/-- The half of a visit that reports an error. -/
lemma relies_tickError {i : Nat} (hI : Stable (rely .main) I)
    (hexec : ∀ a e s s', I s → Effect .main (.exec a (onQueryError i e)) s s' →
      Guarantees rely .main s s' ∧ I s')
    (hnative : ∀ n s, n ∈ N → I s → (native n).Relies M rely .main (fun _ => I) s)
    (hpop : ∀ h s s', I s → Effect .main (.assign .main h .errorCallback_pop) s s' →
      Guarantees rely .main s s' ∧ I s') (hs : I s) :
    (tickError i).Relies M rely .main (fun _ => I) s := by
  refine relies_at hM hI hs fun h s hs _ => relies_this hM hI hs fun x s hs _ => ?_
  split_ifs
  · refine relies_at hM hI hs fun h s hs _ => relies_this hM hI hs fun x s hs _ => ?_
    cases x.errorCallback with
    | nil => trivial
    | cons e es =>
      simp only [front, pure_eq, bind_ret]
      refine .bind ((relies_execAll hM hN hI (hexec · e) hnative hs).mono
        fun _ s hs => ?_)
      refine relies_at hM hI hs fun h s hs _ => ?_
      rw [← bind_ret_right (assign h _)]
      refine relies_assign hM hI hs fun s₁ s₂ hs₁ heff => ?_
      obtain ⟨hg, hs₂⟩ := hpop h s₁ s₂ hs₁ heff
      exact ⟨hg, relies_ret hI hs₂⟩
  · exact relies_ret hI hs

/-- A visit of `ProcessTick` keeps what its own assignments and the natives keep. -/
lemma relies_tickVisit {i : Nat} (hI : Stable (rely .main) I)
    (hexec : ∀ a p s s', I s → Effect .main (.exec a p) s s' → Guarantees rely .main s s' ∧ I s')
    (hnative : ∀ n s, n ∈ N → I s → (native n).Relies M rely .main (fun _ => I) s)
    (hassign : ∀ h a s s', a = .errorCallback_pop ∨ a = .callbackData_pop ∨
      a = .m_bQueryProcessing false → I s → Effect .main (.assign .main h a) s s' →
      Guarantees rely .main s s' ∧ I s') (hs : I s) :
    (tickVisit i).Relies M rely .main (fun _ => I) s := by
  refine .bind ((relies_tickError hM hN hI (fun a e => hexec a _) hnative
    (fun h s s' => hassign h _ s s' (.inl rfl)) hs).mono fun _ s hs => ?_)
  refine relies_at hM hI hs fun h s hs _ => relies_this hM hI hs fun x s hs _ => ?_
  split_ifs
  · refine relies_at hM hI hs fun h s hs _ => relies_this hM hI hs fun x s hs _ => ?_
    cases x.callbackData with
    | nil => trivial
    | cons d ds =>
      simp only [front, pure_eq, bind_ret]
      refine .bind ((relies_execAll hM hN hI (hexec · (onQueryFinish i d)) hnative hs).mono
        fun _ s hs => ?_)
      refine relies_at hM hI hs fun h s hs _ => relies_assign hM hI hs fun s₁ s₂ hs₁ heff => ?_
      obtain ⟨hg, hs₂⟩ := hassign h _ s₁ s₂ (.inr (.inl rfl)) hs₁ heff
      refine ⟨hg, relies_at hM hI hs₂ fun h s hs _ => ?_⟩
      rw [← bind_ret_right (assign h _)]
      refine relies_assign hM hI hs fun s₁ s₂ hs₁ heff => ?_
      obtain ⟨hg, hs₂⟩ := hassign h _ s₁ s₂ (.inr (.inr rfl)) hs₁ heff
      exact ⟨hg, relies_ret hI hs₂⟩
  · exact relies_ret hI hs

/-- The half of a visit that delivers a result: `K h d` holds while the callbacks of the entry `d`
of the handler `h` run, `L h` when the entry has been popped. -/
lemma relies_tickCallback {i : Nat} {K : HandlerPtr → MainInfo → State → Prop}
    {L : HandlerPtr → State → Prop} (hI : Stable (rely .main) I)
    (htable : ∀ h, Stable (rely .main) fun s => s.SQLHandle[i]? = some h)
    (hK : ∀ h d, Stable (rely .main) (K h d)) (hL : ∀ h, Stable (rely .main) (L h))
    (hfront : ∀ h x d ds s, I s → s.SQLHandle[i]? = some h → s.heap h = some x →
      x.callbackData = d :: ds → K h d s)
    (hat : ∀ h d s, K h d s → s.SQLHandle[i]? = some h)
    (hexec : ∀ h d a s s', K h d s → Effect .main (.exec a (onQueryFinish i d)) s s' →
      Guarantees rely .main s s' ∧ K h d s')
    (hnative : ∀ h d n s, n ∈ N → K h d s → (native n).Relies M rely .main (fun _ => K h d) s)
    (hpop : ∀ h d s s', K h d s → Effect .main (.assign .main h .callbackData_pop) s s' →
      Guarantees rely .main s s' ∧ L h s')
    (hreset : ∀ h s s', L h s → Effect .main (.assign .main h (.m_bQueryProcessing false)) s s' →
      Guarantees rely .main s s' ∧ I s') (hs : I s) :
    (tickCallback i).Relies M rely .main (fun _ => I) s := by
  have hIt : ∀ h, Stable (rely .main) fun s => I s ∧ s.SQLHandle[i]? = some h :=
    fun h => hI.and (htable h)
  refine relies_at hM hI hs fun h s hs hh => relies_this hM (hIt h) ⟨hs, hh⟩ fun x s hs hx => ?_
  split_ifs
  · refine relies_at hM hI hs.1 fun h s hs hh => relies_this hM (hIt h) ⟨hs, hh⟩ fun x s hs hx => ?_
    cases hd : x.callbackData with
    | nil => trivial
    | cons d ds =>
      have hKs : K h d s := hfront h x d ds s hs.1 hs.2 hx hd
      simp only [front, pure_eq, bind_ret]
      refine .bind ((relies_execAll hM hN (hK h d) (hexec h d) (hnative h d) hKs).mono
        fun _ s hs => ?_)
      refine relies_at hM (hK h d) hs fun h' s hs hh' => ?_
      obtain rfl : h = h' := Option.some.inj ((hat h d s hs).symm.trans hh')
      refine relies_assign hM (hK h d) hs fun s₁ s₂ hs₁ heff => ?_
      obtain ⟨hg, hs₂⟩ := hpop h d s₁ s₂ hs₁ heff
      have hat₂ : s₂.SQLHandle[i]? = some h := by
        rw [heff.table]
        exact hat h d s₁ hs₁
      have hLt : Stable (rely .main) fun s => L h s ∧ s.SQLHandle[i]? = some h :=
        (hL h).and (htable h)
      refine ⟨hg, relies_at hM hLt ⟨hs₂, hat₂⟩ fun h' s hs hh' => ?_⟩
      obtain rfl : h = h' := Option.some.inj (hs.2.symm.trans hh')
      rw [← bind_ret_right (assign h _)]
      refine relies_assign hM hLt hs fun s₁ s₂ hs₁ heff => ?_
      obtain ⟨hg, hs₂⟩ := hreset h s₁ s₂ hs₁.1 heff
      exact ⟨hg, relies_ret hI hs₂⟩
  · exact relies_ret hI hs.1

end

/-! ### The loops of the threads -/

/-- The calls of the server and the scripts other than a call of a native outside `N`. -/
def MainCall.Only (N : Set NativeCall) : Set MainCall := {m | ∀ n, m = .native n → n ∈ N}

/-- The duties of the two threads: what each of them holds between its programs, and that its
programs keep that and what the other thread relies on. -/
structure Duties (M : Machine Stmt Fault State ThreadId Reply) (N : Set NativeCall)
    (rely : ThreadId → Set (State → Prop)) (idle ticking asleep sweeping : State → Prop) :
    Prop where
  stable_idle : Stable (rely .main) idle
  stable_ticking : Stable (rely .main) ticking
  stable_asleep : Stable (rely .worker) asleep
  stable_sweeping : Stable (rely .worker) sweeping
  native : ∀ n s, n ∈ N → idle s → (native n).Relies M rely .main (fun _ => idle) s
  amx : ∀ e s s', (∃ a, e = .amxLoad a ∨ e = .amxUnload a) → idle s → Effect .main e s s' →
    Guarantees rely .main s s' ∧ idle s'
  tick : ∀ s s', idle s → Effect .main (.mark .tick) s s' → Guarantees rely .main s s' ∧ ticking s'
  visit : ∀ i s, ticking s → (tickVisit i).Relies M rely .main (fun _ => ticking) s
  tickEnd : ∀ s s', ticking s → Effect .main (.mark .tickEnd) s s' →
    Guarantees rely .main s s' ∧ idle s'
  wake : ∀ e s s', e = .lock .worker ∨ e = .relock .worker → asleep s → Effect .worker e s s' →
    Guarantees rely .worker s s' ∧ sweeping s'
  sweep : ∀ i s, sweeping s → (workerVisit i).Relies M rely .worker (fun _ => sweeping) s
  sleep : ∀ s s', sweeping s → Effect .worker (.unlock .worker) s s' →
    Guarantees rely .worker s s' ∧ asleep s'

section

variable {M : Machine Stmt Fault State ThreadId Reply} {b : Build} {N : Set NativeCall}
  {rely : ThreadId → Set (State → Prop)} {idle ticking asleep sweeping : State → Prop}

/-- What a thread holds at its control points. -/
def holdsAt (idle ticking asleep sweeping : State → Prop) : ThreadId → Point → State → Prop
  | .main, .idle => idle
  | .main, .tick _ => ticking
  | .worker, .asleep => asleep
  | .worker, .sweep _ => sweeping
  | _, _ => fun _ => False

variable (hM : ∀ {t : ThreadId} {β : Type} {a : Stmt β} {s o s'}, M.Step t a s o s' →
  (plugin b).Step t a s o s') (D : Duties M N rely idle ticking asleep sweeping)

include hM D

lemma Duties.relies_main {x : Point} {p : Code Point} {s : State} (hp : Starts (MainCall.Only N) .main x p)
    (hs : holdsAt idle ticking asleep sweeping .main x s) :
    p.Relies M rely .main (fun y => holdsAt idle ticking asleep sweeping .main y) s := by
  have htickEnd : ∀ s, ticking s → (Prog.lift (.mark .tickEnd) >>= fun _ => pure Point.idle).Relies M
      rely .main (fun y => holdsAt idle ticking asleep sweeping .main y) s := fun s hs =>
    relies_mark hM D.stable_ticking hs fun s₁ s₂ hs₁ heff =>
      ⟨(D.tickEnd s₁ s₂ hs₁ heff).1, relies_ret D.stable_idle (D.tickEnd s₁ s₂ hs₁ heff).2⟩
  cases hp with
  | @call m hm =>
    cases m with
    | native n => exact .bind ((D.native n s (hm n rfl) hs).mono fun _ _ h => relies_ret D.stable_idle h)
    | amxLoad a =>
      refine relies_records (P := (· = .amxLoad a)) hM trivial rfl D.stable_idle hs
        fun e s₁ s₂ he hs₁ heff => ?_
      obtain ⟨hg, hs₂⟩ := D.amx e s₁ s₂ ⟨a, .inl he⟩ hs₁ heff
      exact ⟨hg, fun _ => relies_ret D.stable_idle hs₂⟩
    | amxUnload a =>
      refine relies_records (P := (· = .amxUnload a)) hM trivial rfl D.stable_idle hs
        fun e s₁ s₂ he hs₁ heff => ?_
      obtain ⟨hg, hs₂⟩ := D.amx e s₁ s₂ ⟨a, .inr he⟩ hs₁ heff
      exact ⟨hg, fun _ => relies_ret D.stable_idle hs₂⟩
    | processTick =>
      refine relies_mark hM D.stable_idle hs fun s₁ s₂ hs₁ heff => ?_
      obtain ⟨hg, hs₂⟩ := D.tick s₁ s₂ hs₁ heff
      refine ⟨hg, relies_size hM D.stable_ticking hs₂ fun s hs => ?_⟩
      split_ifs
      · exact relies_ret D.stable_ticking hs
      · exact htickEnd s hs
  | tick i =>
    refine relies_size hM D.stable_ticking hs fun s hs => ?_
    split_ifs
    · exact .bind ((D.visit i s hs).mono fun _ _ h => relies_ret D.stable_ticking h)
    · exact htickEnd s hs

lemma Duties.relies_worker {x : Point} {p : Code Point} {s : State} (hp : Starts (MainCall.Only N) .worker x p)
    (hs : holdsAt idle ticking asleep sweeping .worker x s) :
    p.Relies M rely .worker (fun y => holdsAt idle ticking asleep sweeping .worker y) s := by
  have hsleep : ∀ s, sweeping s → (unlockMutex >>= fun _ => pure Point.asleep).Relies M rely .worker
      (fun y => holdsAt idle ticking asleep sweeping .worker y) s := fun s hs =>
    relies_records (P := (· = .unlock .worker)) hM trivial rfl D.stable_sweeping hs
      fun e s₁ s₂ he hs₁ heff => ⟨(D.sleep s₁ s₂ hs₁ (he ▸ heff)).1,
        fun _ => relies_ret D.stable_asleep (D.sleep s₁ s₂ hs₁ (he ▸ heff)).2⟩
  cases hp with
  | wake =>
    refine relies_records (P := fun e => e = .lock .worker ∨ e = .relock .worker) hM trivial
      ⟨.inl rfl, .inr rfl⟩ D.stable_asleep hs fun e s₁ s₂ he hs₁ heff => ?_
    obtain ⟨hg, hs₂⟩ := D.wake e s₁ s₂ he hs₁ heff
    refine ⟨hg, fun _ => relies_size hM D.stable_sweeping hs₂ fun s hs => ?_⟩
    split_ifs
    · exact relies_ret D.stable_sweeping hs
    · exact hsleep s hs
  | sweep i =>
    refine relies_size hM D.stable_sweeping hs fun s hs => ?_
    split_ifs
    · exact .bind ((D.sweep i s hs).mono fun _ _ h => relies_ret D.stable_sweeping h)
    · exact hsleep s hs

/-- The duties of the threads as a proof outline. -/
def Duties.outline : Outline M (Starts (MainCall.Only N)) where
  rely := rely
  holdsAt := holdsAt idle ticking asleep sweeping
  stable t x := by
    cases t <;> cases x <;>
      first
      | exact D.stable_idle
      | exact D.stable_ticking
      | exact D.stable_asleep
      | exact D.stable_sweeping
      | exact Stable.const False
  relies t x p s hp hs := by
    cases t with
    | main => exact D.relies_main hM hp hs
    | worker => exact D.relies_worker hM hp hs

/-- What some other thread relies on, whichever thread moves, holds in every state reached. -/
theorem Duties.invariant {p_Amx : List Amx} {c : Config Stmt Fault State ThreadId Point}
    (hmain : idle (State.init p_Amx)) (hworker : asleep (State.init p_Amx)) {J : State → Prop}
    (hJ : ∀ t, J ∈ rely t) (hinit : J (State.init p_Amx))
    (hc : Config.Reachable M (Starts (MainCall.Only N)) (loaded p_Amx) c) : J c.shared := by
  refine (D.outline hM).invariant (fun t => ?_) (fun u => ?_) hinit hc
  · cases t with
    | main => exact ⟨.worker, by simp, hJ .worker⟩
    | worker => exact ⟨.main, by simp, hJ .main⟩
  · cases u with
    | main => exact hmain
    | worker => exact hworker

end

/-- What every event keeps, in any order of the threads. -/
lemma reachable_keeps {M : Machine Stmt Fault State ThreadId Reply} {b : Build}
    {code : Threads.Code Stmt Fault ThreadId Point} {c₀ c : Config Stmt Fault State ThreadId Point}
    (hM : ∀ {t : ThreadId} {β : Type} {a : Stmt β} {s o s'}, M.Step t a s o s' →
      (plugin b).Step t a s o s') {I : State → Prop}
    (hI : ∀ t e s s', I s → Effect t e s s' → I s') (h₀ : I c₀.shared)
    (hc : Config.Reachable M code c₀ c) : I c.shared := by
  have hstep {t : ThreadId} {β : Type} {a : Stmt β} {s : State} {o : Except Fault β} {s' : State}
      (hst : M.Step t a s o s') (hs : I s) : I s' := by
    obtain ⟨r, -, hrun⟩ := hM hst
    rcases Stmt.run_effect (all_only_true (t := t) (Prog.lift a)).1 hrun with rfl | ⟨e, -, heff⟩
    · exact hs
    · exact hI t e s s' hs heff
  induction hc with
  | start => exact h₀
  | next _ hst ih =>
    cases hst with
    | start => exact ih
    | act _ hst => exact hstep hst ih
    | fault _ hst => exact hstep hst ih
    | finish => exact ih

end MySQLPlugin
