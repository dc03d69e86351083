import MySQLPlugin.Handles.Frame

/-!
# Members before their first assignment

The constructor leaves `m_stResult`, `m_stRow`, `m_stField`, `m_dwFields` and `m_dwError` unassigned.
Which of them a native reads depends on the handler it is called for; the natives that fetch a row
assign the members that they read afterwards.
-/

namespace MySQLPlugin

open Threads Prog CMySQLHandler Natives

/-- No statement has read a member before its first assignment. -/
def Clean (s : State) : Prop := ∀ t h m, .unset t h m ∉ s.trace

/-- The member of the handler holds a value. -/
def IsSet (h : HandlerPtr) (m : Member) (s : State) : Prop :=
  ∀ x, s.heap h = some x → m.get x ≠ .unset

/-- The member holds a value if the handler is connected. -/
def SetIfConnected (h : HandlerPtr) (m : Member) (s : State) : Prop :=
  ∀ x, s.heap h = some x → x.m_bIsConnected → m.get x ≠ .unset

/-- The members of `S` of the handler `h` hold values, and nothing else has been read. -/
structure Filled (h : HandlerPtr) (S : List Member) (s : State) : Prop where
  clean : Clean s
  set : ∀ m ∈ S, IsSet h m s

lemma SetIfConnected.isSet {h : HandlerPtr} {m : Member} {s : State} {x : CMySQLHandler}
    (hs : SetIfConnected h m s) (hx : s.heap h = some x) (hconn : x.m_bIsConnected) :
    IsSet h m s := by
  intro y hy
  obtain rfl : x = y := Option.some.inj (hx.symm.trans hy)
  exact hs x hx hconn

/-! ### Events -/

/-- The event reads no unassigned member. -/
def Event.Defined : Event → Prop
  | .unset _ _ _ => False
  | _ => True

/-- The event neither reads an unassigned member nor begins or ends an object. -/
def Event.Tame (e : Event) : Prop := e.Defined ∧ e.Stays

lemma Event.OfVisit.defined {e : Event} (he : e.OfVisit) : e.Defined := by
  cases e <;> trivial

lemma Event.OfServer.defined {e : Event} (he : e.OfServer) : e.Defined := by
  cases e <;> trivial

/-- The member that an assignment sets. -/
def Assign.member : Assign → List Member
  | .m_stResult _ => [.m_stResult]
  | .m_stRow _ => [.m_stRow]
  | .m_stField _ => [.m_stField]
  | .m_dwFields _ => [.m_dwFields]
  | .m_dwError _ => [.m_dwError]
  | _ => []

lemma Assign.apply_set {a : Assign} {x : CMySQLHandler} {m : Member}
    (hm : m ∈ a.member ∨ m.get x ≠ .unset) : m.get (a.apply x) ≠ .unset := by
  cases a <;> cases m <;> simp_all [Assign.member, Assign.apply, Member.get]

lemma Event.Clears.defined {e : Event} (he : e.Clears) : e.Defined := by
  cases e <;> trivial

section

variable {t : ThreadId} {e : Event} {s s' : State} {h : HandlerPtr} {S : List Member}

lemma Clean.step (hs : Clean s) (heff : Effect t e s s') (he : e.Defined) : Clean s' := by
  intro u p m hmem
  rw [heff.trace, List.mem_append, List.mem_singleton] at hmem
  rcases hmem with hmem | rfl
  · exact hs u p m hmem
  · exact he

lemma IsSet.step {m : Member} (hs : IsSet h m s) (heff : Effect t e s s') (he : e.Stays) :
    IsSet h m s' := by
  intro x' hx'
  rw [heff.heap h] at hx'
  cases e with
  | assign u p a =>
    simp only [Event.onObject] at hx'
    split_ifs at hx' with hp
    · obtain ⟨x, hx, rfl⟩ := Option.map_eq_some_iff.mp hx'
      exact Assign.apply_set (.inr (hs x hx))
    · exact hs x' hx'
  | new => exact he.elim
  | delete => exact he.elim
  | _ => exact hs x' hx'

lemma Filled.step (hs : Filled h S s) (heff : Effect t e s s') (he : e.Tame) : Filled h S s' where
  clean := hs.clean.step heff he.1
  set m hm := (hs.set m hm).step heff he.2

lemma Filled.assign {a : Assign} (hs : Filled h S s) (heff : Effect t (.assign t h a) s s') :
    Filled h (a.member ++ S) s' where
  clean := hs.clean.step heff trivial
  set m hm := by
    rcases List.mem_append.mp hm with hm | hm
    · intro x' hx'
      obtain ⟨x, -, hx⟩ := heff.assigned
      obtain rfl : a.apply x = x' := Option.some.inj (hx.symm.trans hx')
      exact Assign.apply_set (.inl hm)
    · exact (hs.set m hm).step heff trivial

end

/-! ### Statements -/

section

variable {M : Machine Stmt Fault State ThreadId Reply} {b : Build} [IsPlugin M b] {t : ThreadId}
  {α β : Type} {Q : α → State → Prop} {s : State} {h : HandlerPtr} {S : List Member}

include b

/-- A program without reads of such members. -/
lemma wp_tame {p : Code α} (hp : p.All (Stmt.Only t Event.Tame)) (hs : Filled h S s) :
    p.wp M t (fun _ => Clean) (fun _ => Filled h S) s :=
  wp_of_only IsPlugin.step hp (fun _ _ _ he hI heff => hI.step heff he) (fun _ _ hI => hI.clean) hs

lemma wp_defined {p : Code α} (hp : p.All (Stmt.Only t Event.Defined)) (hs : Clean s) :
    p.wp M t (fun _ => Clean) (fun _ => Clean) s :=
  wp_of_only IsPlugin.step hp (fun _ _ _ he hI heff => hI.step heff he) (fun _ _ hI => hI) hs

/-- A statement that reads no such member. -/
lemma wp_other {a : Stmt β} {f : β → Code α} (ha : a.Only t Event.Tame) (hs : Filled h S s)
    (hf : ∀ v s', Filled h S s' → (f v).wp M t (fun _ => Clean) Q s') :
    (Prog.lift a >>= f).wp M t (fun _ => Clean) Q s := by
  rw [wp_bind]
  exact wp_mono (wp_tame (p := .lift a) (by simpa using ha) hs) hf

/-- A read of a member that holds a value. -/
lemma wp_loadSet {m : Member} {f : m.Val → Code α} (hs : Clean s) (hset : IsSet h m s)
    (hf : ∀ x v, s.heap h = some x → m.get x = .set v → (f v).wp M t (fun _ => Clean) Q s) :
    (load h m >>= f).wp M t (fun _ => Clean) Q s := by
  refine wp_step (fun w s' hst => ?_) fun e s' hst => ?_
  · obtain ⟨r, _, hrun⟩ := IsPlugin.step hst
    simp only [plugin, Stmt.run] at hrun
    split at hrun
    · rename_i x hx
      split at hrun <;> cases hrun
      · exact hf x w hx ‹_›
      · exact absurd ‹_› (hset x hx)
    · cases hrun
  · obtain ⟨r, _, hrun⟩ := IsPlugin.step hst
    simp only [plugin, Stmt.run] at hrun
    split at hrun
    · split at hrun <;> cases hrun
    · cases hrun
      exact hs

lemma wp_filled {m : Member} {f : m.Val → Code α} (hm : m ∈ S) (hs : Filled h S s)
    (hf : ∀ v, (f v).wp M t (fun _ => Clean) Q s) :
    (load h m >>= f).wp M t (fun _ => Clean) Q s :=
  wp_loadSet hs.clean (hs.set m hm) fun _ v _ _ => hf v

lemma wp_set {a : Assign} {f : Unit → Code α} (hs : Filled h S s)
    (hf : ∀ s', Filled h (a.member ++ S) s' → (f ()).wp M t (fun _ => Clean) Q s') :
    (assign h a >>= f).wp M t (fun _ => Clean) Q s :=
  wp_assign (fun _ => hs.clean) fun s' heff => hf s' (hs.assign heff)

end

/-! ### The functions of a handler -/

section

variable {M : Machine Stmt Fault State ThreadId Reply} {b : Build} [IsPlugin M b] {t : ThreadId}
  {s : State} {h : HandlerPtr} {S : List Member}

attribute [local simp] Stmt.Only Event.Tame Event.Defined Event.Stays this call access assign onResult
  bind_bind ite_bind all_lift_bind all_ite

include b

lemma freeResult_clean (hs : Clean s)
    (hset : SetIfConnected h .m_stResult s) :
    (freeResult h).wp M t (fun _ => Clean) (fun _ => Clean) s := by
  refine wp_this (fun _ => hs) fun x hx => ?_
  rw [wp_ite]
  split_ifs with hconn
  · exact hs
  refine wp_loadSet hs (hset.isSet hx (by simpa using hconn)) fun _ r _ _ => ?_
  exact wp_defined (by simp) hs

lemma nextRow_filled (hs : Filled h S s) (hm : .m_stResult ∈ S) :
    (nextRow h).wp M t (fun _ => Clean)
      (fun _ => Filled h (.m_stRow :: .m_stField :: .m_dwFields :: S)) s := by
  refine wp_filled hm hs fun r => wp_other (by simp) hs fun n s₁ hs₁ => ?_
  refine wp_set hs₁ fun s₂ hs₂ => ?_
  refine wp_filled (by simp [hm]) hs₂ fun r => wp_other (by simp) hs₂ fun f s₃ hs₃ => ?_
  refine wp_set hs₃ fun s₄ hs₄ => ?_
  refine wp_filled (by simp [hm]) hs₄ fun r => wp_other (by simp) hs₄ fun row s₅ hs₅ => ?_
  exact wp_set hs₅ fun s₆ hs₆ => hs₆

lemma insertValue_filled (i : Nat) (hs : Filled h S s) (hm : .m_stRow ∈ S) :
    (insertValue h i).wp M t (fun _ => Clean) (fun _ => Filled h S) s :=
  wp_filled hm hs fun r => wp_other (by simp) hs fun v _ hs₁ => wp_tame (by simp) hs₁

lemma rowText_clean (hs : Filled h S s) (hrow : .m_stRow ∈ S) (hfields : .m_dwFields ∈ S) :
    (rowText h).wp M t (fun _ => Clean) (fun _ => Clean) s := by
  refine wp_filled hfields hs fun n => ?_
  rw [wp_bind]
  refine wp_mono (wp_forEach (I := Filled h S) _ (fun i s _ hI => ?_) hs) fun _ s₁ hs₁ =>
    wp_defined (by simp) hs₁.clean
  rw [wp_bind]
  exact wp_mono (insertValue_filled i hI hrow) fun _ s₁ hs₁ => wp_tame (by simp) hs₁

lemma fetchRow_clean (hs : Clean s)
    (hset : SetIfConnected h .m_stResult s) :
    (fetchRow h).wp M t (fun _ => Clean) (fun _ => Clean) s := by
  refine wp_this (fun _ => hs) fun x hx => ?_
  rw [wp_ite]
  split_ifs with hconn
  · exact hs
  have hres : IsSet h .m_stResult s := hset.isSet hx (by simpa using hconn)
  refine wp_loadSet hs hres fun _ r _ _ => ?_
  rw [wp_ite]
  split_ifs
  · exact hs
  rw [wp_bind]
  refine wp_mono (nextRow_filled (S := [.m_stResult]) ⟨hs, by simpa using hres⟩ (by simp))
    fun row s₁ hs₁ => ?_
  rw [wp_ite]
  split_ifs
  · exact rowText_clean hs₁ (by simp) (by simp)
  · exact wp_defined (by simp) hs₁.clean

lemma retrieveRow_clean (hs : Clean s)
    (hset : SetIfConnected h .m_stResult s) :
    (retrieveRow h).wp M t (fun _ => Clean) (fun _ => Clean) s := by
  refine wp_this (fun _ => hs) fun x hx => ?_
  rw [wp_ite]
  split_ifs with hconn
  · exact hs
  have hres : IsSet h .m_stResult s := hset.isSet hx (by simpa using hconn)
  refine wp_loadSet hs hres fun _ r _ _ => ?_
  rw [wp_ite]
  split_ifs
  · exact hs
  rw [wp_bind]
  refine wp_mono (nextRow_filled (S := [.m_stResult]) ⟨hs, by simpa using hres⟩ (by simp))
    fun row s₁ hs₁ => ?_
  exact wp_defined (by simp) hs₁.clean

/-- A function that reads `m_stResult` twice and no other such member. -/
lemma ofResult_clean {α : Type} {p q : Code α} {f : Option ResPtr → Code α} (hs : Clean s)
    (hset : SetIfConnected h .m_stResult s)
    (hp : p.All (Stmt.Only t Event.Defined)) (hq : q.All (Stmt.Only t Event.Defined))
    (hf : ∀ r, (f r).All (Stmt.Only t Event.Defined)) :
    (do
      if !(← this h).m_bIsConnected then
        p
      else if (← load h .m_stResult) = none then
        q
      else
        f (← load h .m_stResult)).wp M t (fun _ => Clean) (fun _ => Clean) s := by
  refine wp_this (fun _ => hs) fun x hx => ?_
  rw [wp_ite]
  split_ifs with hconn
  · exact wp_defined hp hs
  have hres : IsSet h .m_stResult s := hset.isSet hx (by simpa using hconn)
  refine wp_loadSet hs hres fun _ r _ _ => ?_
  rw [wp_ite]
  split_ifs
  · exact wp_defined hq hs
  · exact wp_loadSet hs hres fun _ r _ _ => wp_defined (hf r) hs

lemma insertField_filled (column : CString) (is : List Nat) (hs : Filled h S s)
    (hfield : .m_stField ∈ S) (hrow : .m_stRow ∈ S) :
    (insertField h column is).wp M t (fun _ => Clean) (fun _ => Filled h S) s := by
  induction is generalizing s with
  | nil => exact hs
  | cons i is ih =>
    refine wp_filled hfield hs fun f => wp_other (by simp) hs fun name s₁ hs₁ => ?_
    rw [wp_ite]
    split_ifs
    · exact insertValue_filled i hs₁ hrow
    · exact ih hs₁

/-- The members that `FetchField` reads: `m_stRow` only where there is a field, and `m_dwFields` only
where there is a row as well. -/
def CMySQLHandler.fieldReads (x : CMySQLHandler) : List Member :=
  .m_stField :: if x.m_stField = .set none then [] else
    .m_stRow :: if x.m_stRow = .set none then [] else [.m_dwFields]

lemma fetchField_clean (column : CString) (hs : Clean s)
    (hread : ∀ x, s.heap h = some x → x.m_bIsConnected → ∀ m ∈ x.fieldReads, m.get x ≠ .unset) :
    (fetchField h column).wp M t (fun _ => Clean) (fun _ => Clean) s := by
  refine wp_this (fun _ => hs) fun x hx => ?_
  rw [wp_ite]
  split_ifs with hconn
  · exact hs
  have isSet {m : Member} (hm : m ∈ x.fieldReads) : IsSet h m s := fun y hy =>
    Option.some.inj (hx.symm.trans hy) ▸ hread x hx (by simpa using hconn) m hm
  have hf : IsSet h .m_stField s := isSet (by simp [fieldReads])
  refine wp_loadSet hs hf fun y f hy hfy => ?_
  obtain rfl : x = y := Option.some.inj (hx.symm.trans hy)
  rw [wp_ite]
  split_ifs with hnone
  · exact hs
  have hf' : x.m_stField ≠ .set none := fun heq => hnone (Slot.set.inj (hfy.symm.trans heq))
  have hr : IsSet h .m_stRow s := isSet (by simp [fieldReads, hf'])
  refine wp_loadSet hs hr fun y r hy hry => ?_
  obtain rfl : x = y := Option.some.inj (hx.symm.trans hy)
  rw [wp_ite]
  split_ifs with hnone'
  · exact hs
  have hr' : x.m_stRow ≠ .set none := fun heq => hnone' (Slot.set.inj (hry.symm.trans heq))
  refine wp_loadSet hs (isSet (m := .m_dwFields) (by simp [fieldReads, hf', hr'])) fun _ n _ _ => ?_
  rw [wp_bind]
  refine wp_mono (insertField_filled (S := [.m_stField, .m_stRow]) column _
    ⟨hs, by simpa using ⟨hf, hr⟩⟩ (by simp) (by simp)) fun _ s₁ hs₁ => wp_defined (by simp) hs₁.clean

/-- A row is fetched with a delimiter. -/
lemma fetchWith_clean {α : Type} {d : CString} {f : CString → Code α} (hs : Clean s)
    (hset : SetIfConnected h .m_stResult s) (hf : ∀ r, (f r).All (Stmt.Only t Event.Defined)) :
    (do
      assign h (.Delimiter d)
      f (← fetchRow h)).wp M t (fun _ => Clean) (fun _ => Clean) s := by
  refine wp_assign (fun _ => hs) fun s₁ heff => ?_
  rw [wp_bind]
  refine wp_mono (fetchRow_clean (hs.step heff trivial) ?_) fun r _ hs₂ => wp_defined (hf r) hs₂
  intro y hy hconn
  obtain ⟨x, hx, hx₁⟩ := heff.assigned
  obtain rfl := Option.some.inj (hx₁.symm.trans hy)
  exact hset x hx hconn

end

/-! ### The natives -/

/-- The handler that the native is called for. -/
def NativeCall.handler (n : NativeCall) (s : State) : Option HandlerPtr :=
  n.connectionHandle.bind (handlerAt s)

/-- The members of a handler that the native reads before it assigns them. -/
def NativeCall.reads (n : NativeCall) (x : CMySQLHandler) : List Member :=
  match n with
  | .mysql_errno _ => [.m_dwError]
  | .mysql_fetch_field_row _ _ _ => if x.m_bIsConnected then x.fieldReads else []
  | .mysql_free_result _ | .mysql_close _ | .mysql_fetch_row_format _ _ _ | .mysql_retrieve_row _
  | .mysql_num_rows _ | .mysql_num_fields _ | .mysql_fetch_int _ | .mysql_fetch_float _ _
  | .mysql_fetch_field _ _ _ => if x.m_bIsConnected then [.m_stResult] else []
  | _ => []

/-- The members that the native reads of the handler it is called for hold values. -/
def Prepared (n : NativeCall) (s : State) : Prop :=
  ∀ h ∈ n.handler s, ∀ x ∈ s.heap h, ∀ m ∈ n.reads x, m.get x ≠ .unset

def Slot.isUnset {α : Type} : Slot α → Bool
  | .unset => true
  | .set _ => false

lemma Slot.isUnset_iff {α : Type} (a : Slot α) : a.isUnset = true ↔ a = .unset := by
  cases a <;> simp [Slot.isUnset]

instance {α : Type} (a : Slot α) : Decidable (a = .unset) := decidable_of_iff _ a.isUnset_iff

instance (n : NativeCall) (s : State) : Decidable (Prepared n s) :=
  inferInstanceAs (Decidable (∀ h ∈ n.handler s, ∀ x ∈ s.heap h, ∀ m ∈ n.reads x, m.get x ≠ .unset))

section

variable {M : Machine Stmt Fault State ThreadId Reply} {b : Build} [IsPlugin M b] {s : State}

attribute [local simp] Stmt.Only Event.Defined this call access assign onResult lockMutex unlockMutex
  setString bind_bind ite_bind all_lift_bind all_ite

include b

lemma closing_clean {h : HandlerPtr} (hs : Clean s) (hset : SetIfConnected h .m_stResult s) :
    (closing h).wp M .main (fun _ => Clean) (fun _ => Clean) s := by
  refine wp_closing (I := Clean) (R := fun x => x.m_bIsConnected → x.m_stResult ≠ .unset)
    (fun _ _ hs => hs) (fun e s s' he hs heff => hs.step heff he.defined) (fun _ hx => hx) hs
    hset fun s₁ hs₁ hset₁ => ?_
  rw [wp_bind]
  refine wp_mono (freeResult_clean hs₁ hset₁) fun _ s₂ hs₂ => ?_
  exact wp_defined (by simp [disconnect, closeConnection, clearQueue]) hs₂

/-- A native whose function reads none of the members. -/
lemma withHandle_clean {c : Cell} {f : HandlerPtr → Code Cell} (hs : Clean s)
    (hf : ∀ h, (f h).All (Stmt.Only .main Event.Defined)) :
    (withHandle c f).wp M .main (fun _ => Clean) (fun _ => Clean) s :=
  wp_withHandle (fun _ => hs) fun h _ => wp_defined (hf h) hs

lemma body_clean {n : NativeCall} (hs : Clean s) (hn : Prepared n s) :
    (body n).wp M .main (fun _ => Clean) (fun _ => Clean) s := by
  have hset {h : HandlerPtr} (hh : n.handler s = some h)
      (hreads : ∀ x : CMySQLHandler, x.m_bIsConnected → n.reads x = [.m_stResult]) :
      SetIfConnected h .m_stResult s := fun x hx hconn =>
    hn h hh x hx .m_stResult (by simp [hreads x hconn])
  cases n with
  | mysql_connect host user db pass port =>
    exact wp_defined (nMysqlConnect_only .main (fun _ => trivial) (fun h => by simp [connect])
      (fun _ => trivial) fun _ => trivial) hs
  | mysql_reconnect =>
    exact withHandle_clean hs fun h => by simp [disconnect, closeConnection, clearQueue, connect]
  | mysql_query => exact withHandle_clean hs fun h => by simp [oldQuery, enqueue, nonThreadedQuery]
  | mysql_query_callback => exact withHandle_clean hs fun h => by simp [query, enqueue]
  | mysql_set_charset => exact withHandle_clean hs fun h => by simp [setCharset]
  | mysql_get_charset => exact withHandle_clean hs fun h => by simp [getCharset]
  | mysql_insert_id => exact withHandle_clean hs fun h => by simp [insertId]
  | mysql_store_result => exact withHandle_clean hs fun h => by simp [storeResult]
  | mysql_real_escape_string => exact withHandle_clean hs fun h => by simp [escapeStr, Debug]
  | mysql_field_count => exact withHandle_clean hs fun h => by simp [fieldCount]
  | mysql_reload => exact withHandle_clean hs fun h => by simp [reload]
  | mysql_ping => exact withHandle_clean hs fun h => by simp [ping, Debug]
  | mysql_affected_rows => exact withHandle_clean hs fun h => by simp [affectedRows]
  | mysql_stat =>
    refine withHandle_clean hs fun h => ?_
    simp only [statistics, this, call, all_lift_bind, all_ite, bind_bind, ite_bind]
    refine ⟨trivial, fun x => ⟨fun _ => trivial, fun _ => ⟨by simp, fun c => ⟨by simp, fun text => ?_⟩⟩⟩⟩
    cases text <;> simp
  | mysql_warning_count => exact withHandle_clean hs fun h => by simp [warningCount]
  | mysql_debug => exact wp_defined (by simp [body, nMysqlDebug]) hs
  | mysql_errno c =>
    refine wp_withHandle (fun _ => hs) fun h hh => ?_
    rw [← bind_ret_right (load h _)]
    exact wp_loadSet hs (fun x hx => hn h hh x hx .m_dwError (by simp [NativeCall.reads]))
      fun _ _ _ _ => hs
  | mysql_free_result c =>
    refine wp_withHandle (fun _ => hs) fun h hh => ?_
    rw [wp_bind]
    exact wp_mono (freeResult_clean hs (hset hh fun x hx => if_pos hx)) fun _ _ hs₁ => hs₁
  | mysql_fetch_row_format string delimiter c =>
    exact wp_withHandle (fun _ => hs) fun h hh =>
      fetchWith_clean hs (hset hh fun x hx => if_pos hx) (by simp)
  | mysql_fetch_field_row string fieldname c =>
    refine wp_withHandle (fun _ => hs) fun h hh => ?_
    rw [wp_bind]
    refine wp_mono (fetchField_clean fieldname hs fun x hx hconn m hm => ?_) fun _ s₁ hs₁ =>
      wp_defined (by simp) hs₁
    exact hn h hh x hx m (by simpa [NativeCall.reads, hconn] using hm)
  | mysql_retrieve_row c =>
    exact wp_withHandle (fun _ => hs) fun h hh =>
      retrieveRow_clean hs (hset hh fun x hx => if_pos hx)
  | mysql_num_rows c =>
    refine wp_withHandle (fun _ => hs) fun h hh => ?_
    rw [wp_bind]
    exact wp_mono (ofResult_clean hs (hset hh fun x hx => if_pos hx) (by simp) (by simp) (by simp))
      fun _ _ hs₁ => hs₁
  | mysql_num_fields c =>
    exact wp_withHandle (fun _ => hs) fun h hh =>
      ofResult_clean hs (hset hh fun x hx => if_pos hx) (by simp) (by simp) (by simp)
  | mysql_fetch_int c =>
    exact wp_withHandle (fun _ => hs) fun h hh =>
      fetchWith_clean hs (hset hh fun x hx => if_pos hx) (by simp)
  | mysql_fetch_float result c =>
    exact wp_withHandle (fun _ => hs) fun h hh =>
      fetchWith_clean hs (hset hh fun x hx => if_pos hx) (by simp)
  | mysql_fetch_field number dest c =>
    refine wp_withHandle (fun _ => hs) fun h hh => ?_
    rw [wp_bind]
    exact wp_mono (ofResult_clean hs (hset hh fun x hx => if_pos hx) (by simp) (by simp) (by simp))
      fun _ _ hs₁ => wp_defined (by simp) hs₁
  | mysql_close c =>
    refine wp_nMysqlClose (fun _ => hs) fun h hh => ?_
    refine wp_mono (closing_clean hs (hset hh fun x hx => if_pos hx)) ?_
    intro _ s₁ hs₁ s₂ s₃ s₄ _ hdelete herase hunlock
    exact ((hs₁.step hdelete trivial).step herase trivial).step hunlock trivial

/-- The native reads no unassigned member of a handler that is prepared for it. -/
lemma native_clean (n : NativeCall) (hs : Clean s) :
    (native n).wp (calling b Prepared) .main (fun _ => Clean) (fun _ => Clean) s := by
  refine wp_native fun r s₁ hr heff => ?_
  have hheap : ∀ h, s₁.heap h = s.heap h := heff.heap
  have htable : s₁.SQLHandle = s.SQLHandle := heff.table
  have hn : Prepared n s₁ := by
    intro h hh x hx
    rw [hheap] at hx
    have hat : handlerAt s₁ = handlerAt s := by
      funext c
      rw [handlerAt, handlerAt, htable]
    exact hr.2 n rfl h (by simpa only [NativeCall.handler, hat] using hh) x hx
  exact wp_mono (body_clean (hs.step heff trivial) hn) fun v s₂ hs₂ s₃ heff => hs₂.step heff trivial

end

/-- In every run whose calls find their handlers prepared no member is read before its first
assignment, wherever the run ends. -/
theorem members_assigned (b : Build) (p_Amx : List Amx) {s : State}
    (h : Ends (calling b Prepared) Set.univ (State.init p_Amx) s) : Clean s := by
  refine ends_invariant (I := Clean) (confined_univ _) (fun n _ => Set.mem_univ n) (fun _ hs => hs)
    (fun e s s' he hs heff => hs.step heff he.defined) (fun n s _ hs => native_clean n hs)
    (fun i s hs => ?_) h (fun _ _ _ => List.not_mem_nil)
  exact wp_defined (all_only_mono (workerVisit_ofVisit .worker i) fun _ he => he.defined) hs

/-- A result is stored before the connection is closed again. -/
theorem members_assigned_stored :
    ∃ s, play ((plugin .win32).checked fun _ a _ s => decide (a.Meets Prepared s)) (fun _ _ => {})
        [.native (.mysql_connect ['a'] [] [] [] 0), .native (.mysql_store_result 1),
          .native (.mysql_num_rows 1), .visit 0, .tick 0, .native (.mysql_close 1)] (State.init [])
        = some s ∧ Clean s := by
  have hrun : (play ((plugin .win32).checked fun _ a _ s => decide (a.Meets Prepared s))
      (fun _ _ => {}) [.native (.mysql_connect ['a'] [] [] [] 0), .native (.mysql_store_result 1),
        .native (.mysql_num_rows 1), .visit 0, .tick 0, .native (.mysql_close 1)]
        (State.init [])).isSome = true := by decide
  obtain ⟨s, hs⟩ := Option.isSome_iff_exists.mp hrun
  exact ⟨s, hs, members_assigned .win32 []
    (.returns (serial_of_checked (fun _ _ _ _ => of_decide_eq_true) (by simp) hs))⟩

/-- A connection is opened and closed again: the destructor reads `m_stResult`. -/
theorem members_unassigned :
    ¬ ∀ (b : Build) (p_Amx : List Amx) (s : State), Runs b Set.univ (State.init p_Amx) s → Clean s := by
  intro hall
  have hrun : (play (allowing .win32 Set.univ) (fun _ _ => {})
      [.native (.mysql_connect ['a'] [] [] [] 0), .native (.mysql_close 1)] (State.init [])).map
        (fun s => decide (.unset .main 0 .m_stResult ∈ s.trace)) = some true := by decide
  obtain ⟨s, hs, hmem⟩ := Option.map_eq_some_iff.mp hrun
  exact hall .win32 [] s (runs_of_play_univ hs) .main 0 .m_stResult (of_decide_eq_true hmem)

end MySQLPlugin
