import MySQLPlugin.Handles.Names

/-!
# One handler for each set of parameters

Nothing but the search of `mysql_connect` keeps two entries of `SQLHandle` from having the same
parameters. `Catalogue` is the invariant: it survives closed handles at any position and connection
attempts that fail.
-/

namespace MySQLPlugin

open Threads Dispatch Prog CMySQLHandler Natives

/-! ### Parameters -/

/-- The parameters of a connection, as `mysql_connect` receives them. -/
structure Params where
  host : CString
  user : CString
  db : CString
  pass : CString
  port : Cell
  deriving DecidableEq

def CMySQLHandler.params (x : CMySQLHandler) : Params :=
  ⟨x.m_Hostname, x.m_Username, x.m_Database, x.m_Password, x.m_Port⟩

/-- The call of `mysql_connect` with these parameters. -/
def Params.connect (P : Params) : NativeCall := .mysql_connect P.host P.user P.db P.pass P.port

lemma sameConnection_iff {P : Params} {x : CMySQLHandler} :
    sameConnection P.host P.user P.db P.pass P.port x = true ↔ x.params = P := by
  obtain ⟨host, user, db, pass, port⟩ := P
  simp [sameConnection, CMySQLHandler.params, and_assoc]

lemma Assign.apply_params (a : Assign) (x : CMySQLHandler) : (a.apply x).params = x.params := by
  cases a <;> rfl

/-- The handler `p` has been constructed with these parameters. -/
def Constructed (P : Params) (p : HandlerPtr) (es : List Event) : Prop :=
  .new p P.host P.user P.pass P.db P.port ∈ es

lemma Constructed.append {P : Params} {p : HandlerPtr} {es es' : List Event}
    (h : Constructed P p es) : Constructed P p (es ++ es') := List.mem_append_left _ h

/-! ### The catalogue -/

/-- The entries of the table are objects, and have different parameters. -/
structure Catalogue (s : State) : Prop where
  placed : Placed s
  alive : ∀ p ∈ s.SQLHandle, ∃ x, s.heap p = some x
  distinct : ∀ p ∈ s.SQLHandle, ∀ q ∈ s.SQLHandle, ∀ x y, s.heap p = some x → s.heap q = some y →
    x.params = y.params → p = q

/-- An entry of the table has these parameters. -/
def Finds (P : Params) (s : State) : Prop :=
  ∃ p ∈ s.SQLHandle, ∃ x, s.heap p = some x ∧ x.params = P

/-- The trace tells the parameters of every object. -/
structure Recorded (s : State) : Prop where
  new : ∀ p x, s.heap p = some x → Constructed x.params p s.trace
  params : ∀ p P x, Constructed P p s.trace → s.heap p = some x → x.params = P
  lt : ∀ p P, Constructed P p s.trace → p < s.nextHandler

section

variable {s s' : State} {t : ThreadId} {e : Event} {P : Params}

/-- An object keeps its parameters. -/
lemma Effect.params (heff : Effect t e s s') {p : HandlerPtr} {x' : CMySQLHandler}
    (hx' : s'.heap p = some x') : (∃ x, s.heap p = some x ∧ x'.params = x.params) ∨
      e = .new p x'.m_Hostname x'.m_Username x'.m_Password x'.m_Database x'.m_Port := by
  rw [heff.heap p] at hx'
  cases e with
  | new q host user passw db port =>
    simp only [Event.onObject] at hx'
    split_ifs at hx' with hp
    · cases hx'
      exact .inr (by rw [hp])
    · exact .inl ⟨x', hx', rfl⟩
  | delete q =>
    simp only [Event.onObject] at hx'
    split_ifs at hx'
    exact .inl ⟨x', hx', rfl⟩
  | assign u q a =>
    simp only [Event.onObject] at hx'
    split_ifs at hx' with hp
    · obtain ⟨x, hx, rfl⟩ := Option.map_eq_some_iff.mp hx'
      exact .inl ⟨x, hx, a.apply_params x⟩
    · exact .inl ⟨x', hx', rfl⟩
  | _ => exact .inl ⟨x', hx', rfl⟩

lemma Recorded.step (hs : Recorded s) (heff : Effect t e s s') : Recorded s' := by
  have hlt : ∀ p P, Constructed P p s'.trace → p < s'.nextHandler := by
    intro p P hp
    rw [Constructed, heff.trace, List.mem_append, List.mem_singleton] at hp
    rcases hp with hp | rfl
    · refine Nat.lt_of_lt_of_le (hs.lt p P hp) ?_
      rw [heff.nextHandler]
      cases e <;> first | exact le_refl _ | exact Nat.le_succ _
    · have hp : p = s.nextHandler := heff.occurs.1
      rw [heff.nextHandler, hp]
      exact Nat.lt_succ_self _
  refine ⟨fun p x' hx' => ?_, fun p P x' hp hx' => ?_, hlt⟩
  · rw [heff.trace]
    rcases heff.params hx' with ⟨x, hx, hparams⟩ | rfl
    · rw [hparams]
      exact (hs.new p x hx).append
    · simp [Constructed, CMySQLHandler.params]
  · rw [Constructed, heff.trace, List.mem_append, List.mem_singleton] at hp
    rcases heff.params hx' with ⟨x, hx, hparams⟩ | rfl
    · rw [hparams]
      rcases hp with hp | rfl
      · exact hs.params p P x hp hx
      · have hnew := hs.lt p _ (hs.new p x hx)
        exact absurd (heff.occurs.1 : p = s.nextHandler) (Nat.ne_of_lt hnew)
    · rcases hp with hp | heq
      · exact absurd (heff.occurs.1 : p = s.nextHandler) (Nat.ne_of_lt (hs.lt p P hp))
      · obtain ⟨host, user, db, pass, port⟩ := P
        cases heq
        rfl

lemma Recorded.constructed_iff (hs : Recorded s) {p : HandlerPtr} {x : CMySQLHandler}
    (hx : s.heap p = some x) : Constructed P p s.trace ↔ x.params = P :=
  ⟨fun hp => hs.params p P x hp hx, fun hP => hP ▸ hs.new p x hx⟩

/-- Every event but those that change the table or end an object. -/
lemma Catalogue.stays (hs : Catalogue s) (heff : Effect t e s s') (he : e.Stays) :
    Catalogue s' := by
  have htable : s'.SQLHandle = s.SQLHandle := by
    rw [heff.table]
    cases e <;> first | rfl | exact he.elim
  have hback {p : HandlerPtr} {x' : CMySQLHandler} (hx' : s'.heap p = some x') :
      ∃ x, s.heap p = some x ∧ x'.params = x.params := by
    rcases heff.params hx' with hx | rfl
    · exact hx
    · exact he.elim
  refine ⟨((Names.refl hs.placed).stays heff he).placed, fun p hp => ?_,
    fun p hp q hq x y hx hy hxy => ?_⟩
  · rw [htable] at hp
    obtain ⟨x, hx⟩ := hs.alive p hp
    have hdel : e ≠ .delete p := by
      rintro rfl
      exact he
    rcases heff.object hx (hs.placed.lt p hp) hdel with ⟨a, -, hx'⟩ | hx'
    · exact ⟨_, hx'⟩
    · exact ⟨x, hx'⟩
  · rw [htable] at hp hq
    obtain ⟨x₀, hx₀, hpx⟩ := hback hx
    obtain ⟨y₀, hy₀, hqy⟩ := hback hy
    exact hs.distinct p hp q hq x₀ y₀ hx₀ hy₀ (by rw [← hpx, ← hqy, hxy])

/-- A new object stays outside the table at first. -/
lemma Catalogue.new {h : HandlerPtr} {host user passw db : CString} {port : BitVec 32}
    (hs : Catalogue s) (heff : Effect t (.new h host user passw db port) s s') : Catalogue s' := by
  have hh : h = s.nextHandler := heff.occurs.1
  have htable : s'.SQLHandle = s.SQLHandle := heff.table
  have hheap : ∀ p ∈ s.SQLHandle, s'.heap p = s.heap p := fun p hp =>
    (heff.heap p).trans (if_neg (Nat.ne_of_lt (hh ▸ hs.placed.lt p hp)))
  refine ⟨((Names.refl hs.placed).step heff (by simp)).placed, fun p hp => ?_,
    fun p hp q hq x y hx hy hxy => ?_⟩
  · rw [htable] at hp
    rw [hheap p hp]
    exact hs.alive p hp
  · rw [htable] at hp hq
    rw [hheap p hp] at hx
    rw [hheap q hq] at hy
    exact hs.distinct p hp q hq x y hx hy hxy

/-- A new object with other parameters than those in the table is appended. -/
lemma Catalogue.push {h : HandlerPtr} {x : CMySQLHandler} (hs : Catalogue s)
    (heff : Effect t (.pushBack h) s s') (hplaced : Placed s') (hx : s.heap h = some x)
    (hnew : ¬Finds x.params s) : Catalogue s' := by
  have htable : s'.SQLHandle = s.SQLHandle ++ [h] := heff.table
  have hheap : ∀ p, s'.heap p = s.heap p := heff.heap
  have hother {p : HandlerPtr} {y : CMySQLHandler} (hp : p ∈ s.SQLHandle) (hy : s.heap p = some y) :
      y.params ≠ x.params := fun hparams => hnew ⟨p, hp, y, hy, hparams⟩
  refine ⟨hplaced, fun p hp => ?_, fun p hp q hq y z hy hz hyz => ?_⟩
  · rw [hheap]
    rw [htable, List.mem_append, List.mem_singleton] at hp
    rcases hp with hp | rfl
    · exact hs.alive p hp
    · exact ⟨x, hx⟩
  · rw [hheap] at hy hz
    rw [htable, List.mem_append, List.mem_singleton] at hp hq
    rcases hp with hp | rfl <;> rcases hq with hq | rfl
    · exact hs.distinct p hp q hq y z hy hz hyz
    · obtain rfl : x = z := Option.some.inj (hx.symm.trans hz)
      exact absurd hyz (hother hp hy)
    · obtain rfl : x = y := Option.some.inj (hx.symm.trans hy)
      exact absurd hyz.symm (hother hq hz)
    · rfl

/-- An object is ended and its entry erased. -/
lemma Catalogue.close {i : Nat} {h : HandlerPtr} {s₁ s₂ : State} (hs : Catalogue s)
    (hdelete : Effect t (.delete h) s s₁) (herase : Effect t (.erase i h) s₁ s₂) :
    Catalogue s₂ := by
  have htable₁ : s₁.SQLHandle = s.SQLHandle := hdelete.table
  have htable : s₂.SQLHandle = s.SQLHandle.eraseIdx i := by
    rw [← htable₁]
    exact herase.table
  have hi : s.SQLHandle[i]? = some h := by
    rw [← htable₁]
    exact herase.occurs
  have hheap : ∀ p, p ≠ h → s₂.heap p = s.heap p := fun p hp =>
    (herase.heap p).trans ((hdelete.heap p).trans (if_neg hp))
  have hmem {p : HandlerPtr} (hp : p ∈ s₂.SQLHandle) : p ∈ s.SQLHandle ∧ p ≠ h := by
    rw [htable, List.mem_eraseIdx_iff_getElem?] at hp
    obtain ⟨j, hj, hp⟩ := hp
    refine ⟨List.mem_of_getElem? hp, ?_⟩
    rintro rfl
    exact hj ((List.getElem?_inj (List.getElem?_eq_some_iff.mp hp).1 hs.placed.nodup).mp
      (hp.trans hi.symm))
  have hplaced : Placed s₂ :=
    (((Names.refl hs.placed).step hdelete (by simp)).step herase (by simp)).placed
  refine ⟨hplaced, fun p hp => ?_, fun p hp q hq x y hx hy hxy => ?_⟩
  · rw [hheap p (hmem hp).2]
    exact hs.alive p (hmem hp).1
  · rw [hheap p (hmem hp).2] at hx
    rw [hheap q (hmem hq).2] at hy
    exact hs.distinct p (hmem hp).1 q (hmem hq).1 x y hx hy hxy

end

/-! ### The natives -/

section

variable {s : State} {b : Build} {N : Set NativeCall} {P : Params} {l : List HandlerPtr}

/-- The search of `mysql_connect` ends at the first handler with these parameters. -/
lemma reuse_search (hs : Catalogue s) (hsub : ∀ p ∈ l, p ∈ s.SQLHandle) (i : Nat) :
    (reuse P.host P.user P.db P.pass P.port l i).wp (allowing b N) .main (fun _ _ => True)
      (fun o s' => match o with
        | none => s' = s ∧ ∀ p ∈ l, ∀ x, s.heap p = some x → x.params ≠ P
        | some _ => Finds P s ∧ Catalogue s' ∧ s'.SQLHandle = s.SQLHandle) s := by
  induction l generalizing i with
  | nil => exact ⟨rfl, by simp⟩
  | cons h l ih =>
    refine wp_this (fun _ => trivial) fun x hx => ?_
    rw [wp_ite]
    split_ifs with hsame
    · have hfinds : Finds P s := ⟨h, hsub h List.mem_cons_self, x, hx, sameConnection_iff.mp hsame⟩
      refine wp_assign (fun _ => trivial) fun s₁ heff => ?_
      have htable : s₁.SQLHandle = s.SQLHandle := heff.table
      rw [wp_bind]
      refine wp_mono (wp_and (wp_table (connect_stays .main h)) (wp_of_only (I := Catalogue)
        step_of_allowing (connect_stays .main h) (fun e s s' he hI heff => hI.stays heff he)
        (fun _ _ _ => trivial) (hs.stays heff trivial))) fun _ s₂ hs₂ => ?_
      exact ⟨hfinds, hs₂.2, hs₂.1.trans htable⟩
    · refine wp_mono (ih (fun p hp => hsub p (List.mem_cons_of_mem h hp)) (i + 1)) fun o s' ho => ?_
      cases o with
      | none =>
        refine ⟨ho.1, fun p hp y hy => ?_⟩
        rcases List.mem_cons.mp hp with rfl | hp
        · obtain rfl : x = y := Option.some.inj (hx.symm.trans hy)
          exact fun hP => hsame (sameConnection_iff.mpr hP)
        · exact ho.2 p hp y hy
      | some k => exact ho

/-- A handler with new parameters is appended, also when it cannot connect. -/
lemma append_catalogue (hs : Catalogue s) (hnew : ¬Finds P s) :
    (append P.host P.user P.db P.pass P.port).wp (allowing b N) .main (fun _ _ => True)
      (fun _ s' => Catalogue s' ∧ ∃ p, s'.SQLHandle = s.SQLHandle ++ [p]) s := by
  rw [append, construct, bind_bind]
  refine wp_step (fun h s₁ hst => ?_) fun _ _ _ => trivial
  have heff := step_new (step_of_allowing hst)
  obtain ⟨rfl, hlen⟩ := heff.occurs
  have htable₁ : s₁.SQLHandle = s.SQLHandle := heff.table
  have hobj := (heff.heap s.nextHandler).trans (if_pos rfl)
  -- while it connects the new object is outside the table and keeps its parameters
  let I : State → Prop := fun s' => Names s s' ∧ Catalogue s' ∧ s'.SQLHandle = s.SQLHandle ∧
    s.nextHandler < s'.nextHandler ∧ (∃ x, s'.heap s.nextHandler = some x ∧ x.params = P) ∧
    ¬Finds P s'
  have hI₁ : I s₁ := by
    refine ⟨(Names.refl hs.placed).step heff (by simp), hs.new heff, htable₁, ?_, ⟨_, hobj, rfl⟩, ?_⟩
    · rw [heff.nextHandler]
      exact Nat.lt_succ_self _
    · rintro ⟨p, hp, x, hx, hP⟩
      rw [htable₁] at hp
      refine hnew ⟨p, hp, x, ?_, hP⟩
      rw [← hx, heff.heap p, Event.onObject, if_neg (Nat.ne_of_lt (hs.placed.lt p hp))]
  rw [bind_bind, wp_bind]
  refine wp_mono (wp_of_only (I := I) step_of_allowing (connect_stays .main _)
    (fun e s' s'' he hI heff => ?_) (fun _ _ _ => trivial) hI₁) fun _ s₂ hI₂ => ?_
  · obtain ⟨hn, hcat, htable, hlt, ⟨x, hx, hP⟩, hno⟩ := hI
    have htable' : s''.SQLHandle = s'.SQLHandle := by
      rw [heff.table]
      cases e <;> first | rfl | exact he.elim
    refine ⟨hn.stays heff he, hcat.stays heff he, htable'.trans htable, ?_, ?_, ?_⟩
    · rw [heff.nextHandler]
      cases e <;> first | exact hlt | exact he.elim
    · have hdel : e ≠ .delete s.nextHandler := by
        rintro rfl
        exact he
      rcases heff.object hx hlt hdel with ⟨a, -, hx'⟩ | hx'
      · exact ⟨_, hx', (a.apply_params x).trans hP⟩
      · exact ⟨x, hx', hP⟩
    · rintro ⟨p, hp, y, hy, hyP⟩
      rw [htable'] at hp
      rcases heff.params hy with ⟨y₀, hy₀, hyparams⟩ | rfl
      · exact hno ⟨p, hp, y₀, hy₀, hyparams ▸ hyP⟩
      · exact he
  · obtain ⟨hn, hcat, htable, hlt, ⟨x, hx, rfl⟩, hno⟩ := hI₂
    have hfresh : s.nextHandler ∉ s₂.SQLHandle := fun hmem =>
      Nat.lt_irrefl _ (hs.placed.lt _ (htable ▸ hmem))
    simp only [pure_eq, bind_ret]
    refine wp_step (fun u s₃ hst => ?_) fun _ _ _ => trivial
    have heff₃ := step_pushBack (step_of_allowing hst)
    have htable₃ : s₃.SQLHandle = s₂.SQLHandle ++ [s.nextHandler] := heff₃.table
    have hplaced := (hn.push heff₃ hfresh hlt (le_refl _) (htable ▸ hlen)).placed
    refine wp_step (fun n s₄ hst => ?_) fun _ _ _ => trivial
    obtain ⟨rfl, -⟩ := step_size (step_of_allowing hst)
    exact ⟨hcat.push heff₃ hplaced hx hno, s.nextHandler, by rw [htable₃, htable]⟩

/-- What `mysql_connect` does to the table. -/
lemma nMysqlConnect_catalogue (hs : Catalogue s) :
    (nMysqlConnect P.host P.user P.db P.pass P.port).wp (allowing b N) .main (fun _ _ => True)
      (fun _ s' => Catalogue s' ∧ (Finds P s → s'.SQLHandle = s.SQLHandle) ∧
        (¬Finds P s → ∃ p, s'.SQLHandle = s.SQLHandle ++ [p])) s := by
  have happend (hnew : ¬Finds P s) :
      (append P.host P.user P.db P.pass P.port).wp (allowing b N) .main (fun _ _ => True)
        (fun _ s' => Catalogue s' ∧ (Finds P s → s'.SQLHandle = s.SQLHandle) ∧
          (¬Finds P s → ∃ p, s'.SQLHandle = s.SQLHandle ++ [p])) s :=
    wp_mono (append_catalogue hs hnew) fun _ _ h => ⟨h.1, fun hf => absurd hf hnew, fun _ => h.2⟩
  refine wp_step (fun n s₁ hst => ?_) fun _ _ _ => trivial
  obtain ⟨hs₁, rfl⟩ := step_size (step_of_allowing hst)
  obtain rfl : s = s₁ := hs₁.symm
  rw [wp_ite]
  split_ifs with hlen
  · refine wp_step (fun T s₂ hst => ?_) fun _ _ _ => trivial
    obtain ⟨hs₂, rfl⟩ := step_table (step_of_allowing hst)
    obtain rfl : s = s₂ := hs₂.symm
    rw [wp_bind]
    refine wp_mono (reuse_search (l := s.SQLHandle) hs (fun _ hp => hp) 0) fun o s₃ ho => ?_
    cases o with
    | none =>
      obtain ⟨rfl, hnone⟩ := ho
      exact happend fun ⟨p, hp, x, hx, hP⟩ => hnone p hp x hx hP
    | some i => exact ⟨ho.2.1, fun _ => ho.2.2, fun hnew => absurd ho.1 hnew⟩
  · refine happend fun ⟨p, hp, _⟩ => hlen (List.length_pos_of_mem hp)

/-- The other natives append nothing; `mysql_close` ends an object together with its entry. -/
lemma body_catalogue (hs : Catalogue s) {n : NativeCall} (hn : ∀ P : Params, n ≠ P.connect) :
    (body n).wp (allowing b N) .main (fun _ _ => True) (fun _ => Catalogue) s := by
  by_cases hopen : n.Open
  · exact wp_of_only step_of_allowing (body_stays .main hopen fun host user db pass port h =>
      hn ⟨host, user, db, pass, port⟩ h) (fun e s s' he hI heff => hI.stays heff he)
      (fun _ _ _ => trivial) hs
  cases n with
  | mysql_close c =>
    refine wp_nMysqlClose (fun _ => hs) fun h hh => ?_
    refine wp_mono (wp_of_only (I := Catalogue) step_of_allowing (closing_stays .main h)
      (fun e s s' he hI heff => hI.stays heff he) (fun _ _ _ => trivial) hs) ?_
    intro _ s₁ hs₁ s₂ s₃ s₄ _ hdelete herase hunlock
    exact (hs₁.close hdelete herase).stays hunlock trivial
  | _ => exact absurd trivial hopen

end

/-! ### Answers of `mysql_connect` -/

/-- The table after the events `es`. -/
def tableOf (es : List Event) : List HandlerPtr := Edit.run [] (es.filterMap Event.edit)

/-- `mysql_connect` with the parameters `P`, called after the events `es`, has answered `r` after the
events `es'`. -/
structure Answer (P : Params) (r : Cell) (es es' : List Event) : Prop where
  pos : 1 ≤ r.toNat
  le : r.toNat ≤ (tableOf es').length
  entry : ∃ p, (tableOf es')[r.toNat - 1]? = some p ∧ Constructed P p es'
  found : (∃ p ∈ tableOf es, Constructed P p es) → tableOf es' = tableOf es
  appended : (¬∃ p ∈ tableOf es, Constructed P p es) → ∃ p, tableOf es' = tableOf es ++ [p]

/-- The call of a native and its return with the events in between, among which no other native is
called. -/
def Complete (n : NativeCall) (r : Cell) (es₂ es : List Event) : Prop :=
  es = .mark (.call n) :: es₂ ++ [.mark (.return n r)] ∧ ∀ m, .mark (.call m) ∉ es₂

/-- Every call of `mysql_connect` among the events `es` has its answer. -/
def Answered (es : List Event) : Prop :=
  ∀ es₁ es₂ es₃ P r, Complete P.connect r es₂ es₃ → es₁ ++ es₃ <+: es → Answer P r es₁ (es₁ ++ es₃)

/-- The event is not the call or the return of a native. -/
def Event.Inner : Event → Prop
  | .mark (.call _) | .mark (.return _ _) => False
  | _ => True

/-- Two ways to split a list at the last element that satisfies `p`. -/
lemma split_last_unique {α : Type} {p : α → Prop} {a a' : α} (ha : p a) (ha' : p a')
    {l₁ l₂ l₁' l₂' : List α} (hl₂ : ∀ x ∈ l₂, ¬p x) (hl₂' : ∀ x ∈ l₂', ¬p x)
    (h : l₁ ++ a :: l₂ = l₁' ++ a' :: l₂') : l₁ = l₁' ∧ a = a' ∧ l₂ = l₂' := by
  rcases List.append_eq_append_iff.mp h with ⟨m, rfl, hm⟩ | ⟨m, rfl, hm⟩
  · cases m with
    | nil => simpa using hm
    | cons x m =>
      obtain ⟨-, rfl⟩ := List.cons.inj hm
      exact absurd ha' (hl₂ a' (by simp))
  · cases m with
    | nil => simpa [eq_comm] using hm
    | cons x m =>
      obtain ⟨-, rfl⟩ := List.cons.inj hm
      exact absurd ha (hl₂' a (by simp))

lemma Answered.concat {es : List Event} {e : Event} (hes : Answered es)
    (he : ∀ (P : Params) r, e ≠ .mark (.return P.connect r)) : Answered (es ++ [e]) := by
  intro es₁ es₂ es₃ P r hcomplete hp
  rcases List.prefix_concat_iff.mp hp with heq | hp
  · rw [hcomplete.1, ← List.append_assoc] at heq
    exact absurd (List.singleton_inj.mp (List.append_inj' heq rfl).2).symm (he P r)
  · exact hes es₁ es₂ es₃ P r hcomplete hp

lemma Answered.append {es es' : List Event} (hes : Answered es)
    (hes' : ∀ e ∈ es', ∀ (P : Params) r, e ≠ .mark (.return P.connect r)) : Answered (es ++ es') := by
  induction es' using List.reverseRecOn with
  | nil => simpa using hes
  | append_singleton l e ih =>
    rw [← List.append_assoc]
    exact (ih fun e' he' => hes' e' (by simp [he'])).concat (hes' e (by simp))

/-- A call of `mysql_connect` that has its answer. -/
lemma Answered.complete {es es₂ es₃ : List Event} {n : NativeCall} {r : Cell} (hes : Answered es)
    (hcomplete : Complete n r es₂ es₃) (hinner : ∀ e ∈ es₂, e.Inner)
    (hanswer : ∀ P : Params, n = P.connect → Answer P r es (es ++ es₃)) : Answered (es ++ es₃) := by
  obtain ⟨rfl, hcalls⟩ := hcomplete
  have hbefore : Answered (es ++ .mark (.call n) :: es₂) := by
    refine hes.append fun e he P r => ?_
    rintro rfl
    rcases List.mem_cons.mp he with heq | he
    · cases heq
    · exact hinner _ he
  rw [← List.append_assoc]
  intro es₁ es₂' es₃ P r' hcomplete hp
  rcases List.prefix_concat_iff.mp hp with heq | hp
  · obtain ⟨rfl, hcalls'⟩ := hcomplete
    rw [← List.append_assoc] at heq
    obtain ⟨heq, hret⟩ := List.append_inj' heq rfl
    obtain ⟨rfl, hcall, rfl⟩ := split_last_unique (p := fun e => ∃ m, e = Event.mark (.call m))
      ⟨_, rfl⟩ ⟨_, rfl⟩ (by rintro x hx ⟨m, rfl⟩; exact hcalls' m hx)
      (by rintro x hx ⟨m, rfl⟩; exact hcalls m hx) heq
    cases hcall
    cases hret
    exact hanswer P rfl
  · exact hbefore es₁ es₂' es₃ P r' hcomplete hp

/-! ### Runs -/

/-- The invariant of the runs from the empty table. -/
structure Registered (p_Amx : List Amx) (s : State) : Prop where
  names : Names (State.init p_Amx) s
  catalogue : Catalogue s
  recorded : Recorded s
  answered : Answered s.trace

section

variable {p_Amx : List Amx} {s s' : State} {t : ThreadId} {e : Event} {b : Build}
  {N : Set NativeCall}

lemma Names.tableOf (hn : Names (State.init p_Amx) s) : s.SQLHandle = tableOf s.trace := by
  obtain ⟨es, htrace, htable, -⟩ := hn.since
  have hes : s.trace = es := htrace.trans (List.nil_append es)
  rw [MySQLPlugin.tableOf, hes]
  exact htable

lemma Registered.init : Registered p_Amx (State.init p_Amx) where
  names := .refl (placed_init p_Amx)
  catalogue := ⟨placed_init p_Amx, fun p hp => absurd hp List.not_mem_nil,
    fun p hp => absurd hp List.not_mem_nil⟩
  recorded := ⟨fun p x hx => (by cases hx), fun p P x hp => absurd hp List.not_mem_nil,
    fun p P hp => absurd hp List.not_mem_nil⟩
  answered := fun es₁ es₂ es₃ P r hcomplete hp => by
    have hnil : es₁ ++ es₃ = [] := List.prefix_nil.mp hp
    rw [hcomplete.1] at hnil
    simp at hnil

lemma Registered.finds_iff (hs : Registered p_Amx s) {P : Params} :
    Finds P s ↔ ∃ p ∈ tableOf s.trace, Constructed P p s.trace := by
  rw [← hs.names.tableOf]
  constructor
  · rintro ⟨p, hp, x, hx, hP⟩
    exact ⟨p, hp, (hs.recorded.constructed_iff hx).mpr hP⟩
  · rintro ⟨p, hp, hP⟩
    obtain ⟨x, hx⟩ := hs.catalogue.alive p hp
    exact ⟨p, hp, x, hx, (hs.recorded.constructed_iff hx).mp hP⟩

lemma Registered.stays (hs : Registered p_Amx s) (heff : Effect t e s s') (he : e.Stays)
    (hret : ∀ (P : Params) r, e ≠ .mark (.return P.connect r)) : Registered p_Amx s' where
  names := hs.names.stays heff he
  catalogue := hs.catalogue.stays heff he
  recorded := hs.recorded.step heff
  answered := by
    rw [heff.trace]
    exact hs.answered.concat hret

lemma body_inner (n : NativeCall) : (body n).All (Stmt.Only .main Event.Inner) := by
  by_cases hopen : n.Open
  · refine all_only_mono (body_ofBody .main hopen) fun e he => ?_
    cases e with
    | mark m => cases m <;> trivial
    | _ => trivial
  cases n with
  | mysql_close c =>
    simp [body, nMysqlClose, clearQueue, destruct, freeResult, load, onResult, disconnect,
      closeConnection, this, assign, call, lockMutex, unlockMutex, bind_bind, ite_bind,
      all_lift_bind, all_ite, Stmt.Only, Event.Inner]
  | _ => exact absurd trivial hopen

/-- The body of a native, with its result when it opens a connection. -/
lemma body_registered (hs : Registered p_Amx s) (n : NativeCall) :
    (body n).wp (allowing b N) .main (fun _ _ => True) (fun r s' =>
      Names (State.init p_Amx) s' ∧ Catalogue s' ∧ Recorded s' ∧ ∀ P : Params, n = P.connect →
        Opened P.host P.user P.db P.pass P.port r s' ∧ (Finds P s → s'.SQLHandle = s.SQLHandle) ∧
          (¬Finds P s → ∃ p, s'.SQLHandle = s.SQLHandle ++ [p])) s := by
  have hrecorded := wp_of_only (t := .main) (M := allowing b N) (E := fun _ _ => True) (I := Recorded)
    step_of_allowing (all_only_true (body n)) (fun e s s' _ hI heff => hI.step heff)
    (fun _ _ _ => trivial) hs.recorded
  by_cases hn : ∃ P : Params, n = P.connect
  · obtain ⟨P, rfl⟩ := hn
    refine wp_mono (wp_and hrecorded (wp_and (nMysqlConnect_names hs.names)
      (nMysqlConnect_catalogue hs.catalogue))) fun r s' h => ?_
    obtain ⟨hrec, ⟨hnames, hopened⟩, hcat, hfound, hnew⟩ := h
    refine ⟨hnames, hcat, hrec, fun P' hP' => ?_⟩
    obtain rfl : P = P' := by
      obtain ⟨host, user, db, pass, port⟩ := P
      obtain ⟨host', user', db', pass', port'⟩ := P'
      cases hP'
      rfl
    exact ⟨hopened, hfound, hnew⟩
  · refine wp_mono (wp_and hrecorded (wp_and (body_names hs.names n)
      (body_catalogue hs.catalogue fun P hP => hn ⟨P, hP⟩))) fun r s' h => ?_
    exact ⟨h.2.1, h.2.2, h.1, fun P hP => absurd ⟨P, hP⟩ hn⟩

/-- Every native keeps the invariant, and `mysql_connect` answers as it should. -/
lemma native_registered (hs : Registered p_Amx s) (n : NativeCall) :
    (native n).wp (allowing b N) .main (fun _ _ => True) (fun _ => Registered p_Amx) s := by
  refine wp_native fun _ s₁ _ hcall => ?_
  have hs₁ : Registered p_Amx s₁ := hs.stays hcall trivial (by simp)
  refine wp_mono (wp_and (body_registered hs₁ n) (wp_events step_of_allowing (body_inner n) s₁))
    fun r s₂ hs₂ s₃ hreturn => ?_
  obtain ⟨⟨hnames, hcat, hrec, hopens⟩, es, htrace, hes⟩ := hs₂
  have htrace₃ : s₃.trace = s.trace ++ (.mark (.call n) :: es ++ [.mark (.return n r)]) := by
    rw [hreturn.trace, htrace, hcall.trace]
    simp
  have hnames₃ : Names (State.init p_Amx) s₃ := hnames.stays hreturn trivial
  have hrec₃ : Recorded s₃ := hrec.step hreturn
  have htable : s₁.SQLHandle = s.SQLHandle := hcall.table
  have htable₃ : s₃.SQLHandle = s₂.SQLHandle := hreturn.table
  refine ⟨hnames₃, hcat.stays hreturn trivial, hrec₃, ?_⟩
  rw [htrace₃]
  refine hs.answered.complete ⟨rfl, fun m hm => hes _ hm⟩ hes fun P hP => ?_
  obtain ⟨⟨i, rfl, hlt, p, hp, x, hx, hsame⟩, hfound, hnew⟩ := hopens P hP
  have hfinds : Finds P s₁ ↔ ∃ p ∈ tableOf s.trace, Constructed P p s.trace := by
    rw [hs₁.finds_iff, ← hs₁.names.tableOf, htable, hs.names.tableOf, hcall.trace]
    simp [Constructed]
  have hr : (BitVec.ofNat 32 (i + 1)).toNat = i + 1 := by
    simp only [maxHandlers] at hlt
    rw [BitVec.toNat_ofNat]
    omega
  rw [← htrace₃]
  refine ⟨by omega, ?_, ⟨p, ?_, ?_⟩, fun hf => ?_, fun hf => ?_⟩
  · rw [hr, ← hnames₃.tableOf, htable₃]
    exact (List.getElem?_eq_some_iff.mp hp).1
  · rw [hr, ← hnames₃.tableOf, htable₃]
    exact hp
  · have hx₃ : s₃.heap p = some x := (hreturn.heap p).trans hx
    exact (hrec₃.constructed_iff hx₃).mpr (sameConnection_iff.mp hsame)
  · rw [← hnames₃.tableOf, ← hs.names.tableOf, htable₃, hfound (hfinds.mpr hf), htable]
  · rw [← hnames₃.tableOf, ← hs.names.tableOf, htable₃, ← htable]
    exact hnew fun h => hf (hfinds.mp h)

theorem runs_registered (h : Runs b N (State.init p_Amx) s) : Registered p_Amx s := by
  refine serial_invariant (A := Action.CallsOnly N) (confined_allowing b N) (fun n hn => hn n rfl)
    (fun e s s' he hs heff => hs.stays heff he.stays (by rintro P r rfl; exact he))
    (fun n s _ hs => native_registered hs n) (fun i s hs => ?_) h .init
  exact wp_of_only step_of_allowing (workerVisit_ofVisit .worker i)
    (fun e s s' he hI heff => hI.stays heff he.stays (by rintro P r rfl; exact he))
    (fun _ _ _ => trivial) hs

end

/-- The entries of the table are objects with different parameters, and every `mysql_connect` has been
answered with the position of the entry that has its parameters: an old one, the table unchanged, or
a single new one at the end. -/
structure Unique (s : State) : Prop where
  alive : ∀ p ∈ s.SQLHandle, ∃ x, s.heap p = some x
  distinct : ∀ (i j : Nat) p q x y, s.SQLHandle[i]? = some p → s.SQLHandle[j]? = some q →
    s.heap p = some x → s.heap q = some y → x.params = y.params → i = j
  table : s.SQLHandle = tableOf s.trace
  params : ∀ p x P, s.heap p = some x → (Constructed P p s.trace ↔ x.params = P)
  answers : Answered s.trace

/-- In every run from the empty table, whatever the connection attempts return and in whatever order
natives, visits and closed handles follow one another. -/
theorem parameters_unique (b : Build) (p_Amx : List Amx) {s : State}
    (h : Runs b Set.univ (State.init p_Amx) s) : Unique s := by
  have hs := runs_registered h
  refine ⟨hs.catalogue.alive, fun i j p q x y hi hj hx hy hxy => ?_, hs.names.tableOf,
    fun p x P hx => hs.recorded.constructed_iff hx, hs.answered⟩
  obtain rfl := hs.catalogue.distinct p (List.mem_of_getElem? hi) q (List.mem_of_getElem? hj) x y hx hy
    hxy
  exact (List.getElem?_inj (List.getElem?_eq_some_iff.mp hi).1 hs.catalogue.placed.nodup).mp
    (hi.trans hj.symm)

/-- Two connections are opened, the first one is closed, and the second one is asked for again. -/
theorem parameters_unique_reused :
    ∃ s, play (allowing .win32 Set.univ) (fun _ _ => {}) [.native (.mysql_connect ['a'] [] [] [] 0),
        .native (.mysql_connect ['b'] [] [] [] 0), .native (.mysql_close 1),
        .native (.mysql_connect ['b'] [] [] [] 0)] (State.init []) = some s ∧
      s.SQLHandle = [1] ∧ Unique s := by
  have hrun : (play (allowing .win32 Set.univ) (fun _ _ => {})
      [.native (.mysql_connect ['a'] [] [] [] 0), .native (.mysql_connect ['b'] [] [] [] 0),
        .native (.mysql_close 1), .native (.mysql_connect ['b'] [] [] [] 0)] (State.init [])).map
          (·.SQLHandle) = some [1] := by decide
  obtain ⟨s, hs, htable⟩ := Option.map_eq_some_iff.mp hrun
  exact ⟨s, hs, htable, parameters_unique .win32 [] (runs_of_play_univ hs)⟩

end MySQLPlugin
