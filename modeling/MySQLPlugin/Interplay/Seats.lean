import MySQLPlugin.Handles.Names
import MySQLPlugin.Interplay.Rules

/-!
# The entry that `ProcessTick` has reached

While the callbacks of an outcome run they may close connections. The entry of the handler stays where
it is for as long as they close only connections behind it.
-/

namespace MySQLPlugin

open Threads Prog CMySQLHandler

/-! ### What only the main thread changes -/

def Event.onEmptied : Event → Option HandlerPtr → Option HandlerPtr
  | .assign .main h .callbackData_pop, _ => some h
  | .assign .main _ (.m_bQueryProcessing false), _ => none
  | _, x => x

/-- The handler whose outcome `ProcessTick` has popped, before it resets the flag. -/
def emptied (es : List Event) : Option HandlerPtr := es.foldl (fun x e => e.onEmptied x) none

def Event.onCloseCalls : Event → List Cell → List Cell
  | .mark (.call (.mysql_close c)), l => l ++ [c]
  | .assign .main _ .callbackData_pop, _ | .assign .main _ .errorCallback_pop, _ | .mark .tick, _ => []
  | _, l => l

/-- The handles with which `mysql_close` has been called since `ProcessTick` last popped an outcome,
or began. -/
def closeCalls (es : List Event) : List Cell := es.foldl (fun l e => e.onCloseCalls l) []

/-- The part of the state that only the main thread changes. -/
structure MainPart where
  SQLHandle : List HandlerPtr
  nextHandler : HandlerPtr
  alive : Set HandlerPtr
  emptied : Option HandlerPtr
  closeCalls : List Cell

def State.mainPart (s : State) : MainPart where
  SQLHandle := s.SQLHandle
  nextHandler := s.nextHandler
  alive := {h | s.heap h ≠ none}
  emptied := MySQLPlugin.emptied s.trace
  closeCalls := MySQLPlugin.closeCalls s.trace

/-- The predicate speaks of that part only. -/
def OfMainPart (P : State → Prop) : Prop := ∀ s s', s'.mainPart = s.mainPart → P s → P s'

/-- The event changes neither the table nor the handlers that live, is no call of `mysql_close`, and
belongs to no delivery of `ProcessTick`. -/
def Event.KeepsMainPart : Event → Prop
  | .mark (.call (.mysql_close _)) | .mark .tick | .assign .main _ .callbackData_pop
  | .assign .main _ .errorCallback_pop | .assign .main _ (.m_bQueryProcessing false) => False
  | e => e.Stays

section

variable {t : ThreadId} {e : Event} {s s' : State} {es : List Event}

lemma emptied_concat : emptied (es ++ [e]) = e.onEmptied (emptied es) := by
  simp [emptied]

lemma closeCalls_concat : closeCalls (es ++ [e]) = e.onCloseCalls (closeCalls es) := by
  simp [closeCalls]

/-- A handler lives for as long as it is not deleted. -/
lemma Effect.alive_iff (heff : Effect t e s s') (he : e.Stays) (h : HandlerPtr) :
    s'.heap h ≠ none ↔ s.heap h ≠ none := by
  rw [heff.heap h]
  cases e with
  | assign u p a =>
    simp only [Event.onObject]
    split_ifs <;> simp
  | _ => first | exact Iff.rfl | exact he.elim

lemma Event.KeepsMainPart.stays (he : e.KeepsMainPart) : e.Stays := by
  cases e <;> first | exact he | trivial

lemma Event.KeepsMainPart.emptied (he : e.KeepsMainPart) (x : Option HandlerPtr) : e.onEmptied x = x := by
  cases e with
  | assign u p a =>
    cases u with
    | worker => rfl
    | main =>
      cases a with
      | callbackData_pop => exact he.elim
      | m_bQueryProcessing v => cases v <;> first | rfl | exact he.elim
      | _ => rfl
  | _ => rfl

lemma Event.KeepsMainPart.closeCalls (he : e.KeepsMainPart) (l : List Cell) : e.onCloseCalls l = l := by
  cases e with
  | assign u p a =>
    cases u with
    | worker => rfl
    | main => cases a <;> first | rfl | exact he.elim
  | mark m =>
    cases m with
    | call n => cases n <;> first | rfl | exact he.elim
    | tick => exact he.elim
    | _ => rfl
  | _ => rfl

lemma Effect.mainPart (heff : Effect t e s s') (he : e.KeepsMainPart) : s'.mainPart = s.mainPart := by
  have htable : s'.SQLHandle = s.SQLHandle := by
    rw [heff.table]
    cases e <;> first | rfl | exact he.elim
  have hnext : s'.nextHandler = s.nextHandler := by
    rw [heff.nextHandler]
    cases e <;> first | rfl | exact he.elim
  have halive : {h | s'.heap h ≠ none} = {h | s.heap h ≠ none} :=
    Set.ext fun h => heff.alive_iff he.stays h
  have hemptied : emptied s'.trace = emptied s.trace := by
    rw [heff.trace, emptied_concat, he.emptied]
  have hcalls : closeCalls s'.trace = closeCalls s.trace := by
    rw [heff.trace, closeCalls_concat, he.closeCalls]
  simp only [State.mainPart, htable, hnext, halive, hemptied, hcalls]

end

/-! ### Seats -/

/-- The entry `i` is still that of the handler `h`, which lives, if only connections behind it have
been closed. -/
def Seated (i : Nat) (h : HandlerPtr) (s : State) : Prop :=
  (∀ c ∈ closeCalls s.trace, i < (c - 1).toNat) → s.SQLHandle[i]? = some h ∧ s.heap h ≠ none

/-- The table is as the natives leave it, and the handlers of `T` have kept their seats. -/
structure Seats (T : Set (Nat × HandlerPtr)) (s : State) : Prop where
  placed : Placed s
  seated : ∀ i h, (i, h) ∈ T → Seated i h s

section

variable {T : Set (Nat × HandlerPtr)} {t : ThreadId} {e : Event} {s s' : State} {h : HandlerPtr}
  {i : Nat}

lemma ofMainPart_placed : OfMainPart Placed := by
  intro s s' heq hs
  have htable : s'.SQLHandle = s.SQLHandle := congrArg MainPart.SQLHandle heq
  have hnext : s'.nextHandler = s.nextHandler := congrArg MainPart.nextHandler heq
  constructor
  · rw [htable]
    exact hs.nodup
  · rw [htable, hnext]
    exact hs.lt
  · rw [htable]
    exact hs.length

lemma ofMainPart_seated (i : Nat) (h : HandlerPtr) : OfMainPart (Seated i h) := by
  intro s s' heq hs hbehind
  have htable : s'.SQLHandle = s.SQLHandle := congrArg MainPart.SQLHandle heq
  have halive : {h | s'.heap h ≠ none} = {h | s.heap h ≠ none} := congrArg MainPart.alive heq
  have hcalls : closeCalls s'.trace = closeCalls s.trace := congrArg MainPart.closeCalls heq
  rw [hcalls] at hbehind
  obtain ⟨hat, hlive⟩ := hs hbehind
  exact ⟨htable ▸ hat, halive.ge hlive⟩

lemma ofMainPart_seats (T : Set (Nat × HandlerPtr)) : OfMainPart (Seats T) := fun s s' heq hs =>
  ⟨ofMainPart_placed s s' heq hs.placed, fun i h hih => ofMainPart_seated i h s s' heq (hs.seated i h hih)⟩

lemma OfMainPart.entry (j : Nat) (q : HandlerPtr) : OfMainPart fun s => s.SQLHandle[j]? = some q := by
  intro s s' heq hs
  rwa [show s'.SQLHandle = s.SQLHandle from congrArg MainPart.SQLHandle heq]

lemma OfMainPart.emptied (v : Option HandlerPtr) : OfMainPart fun s => emptied s.trace = v := by
  intro s s' heq hs
  rwa [show MySQLPlugin.emptied s'.trace = MySQLPlugin.emptied s.trace from
    congrArg MainPart.emptied heq]

lemma OfMainPart.called (c : Cell) : OfMainPart fun s => c ∈ closeCalls s.trace := by
  intro s s' heq hs
  rwa [show closeCalls s'.trace = closeCalls s.trace from congrArg MainPart.closeCalls heq]

lemma OfMainPart.and {P Q : State → Prop} (hP : OfMainPart P) (hQ : OfMainPart Q) :
    OfMainPart fun s => P s ∧ Q s := fun s s' heq h => ⟨hP s s' heq h.1, hQ s s' heq h.2⟩

/-- A native is called: the table is as it was, and there may be one more call of `mysql_close`. -/
lemma Seats.call {n : NativeCall} (hs : Seats T s) (heff : Effect t (.mark (.call n)) s s') :
    Seats T s' := by
  refine ⟨hs.placed.step heff (by simp), fun i h hih hbehind => ?_⟩
  rw [show s'.SQLHandle = s.SQLHandle from heff.table, show s'.heap h = s.heap h from heff.heap h]
  refine hs.seated i h hih fun c hc => hbehind c ?_
  rw [heff.trace, closeCalls_concat]
  cases n <;> first | exact hc | exact List.mem_append_left _ hc

/-- Handlers that live go on living. -/
lemma Seats.keep (hs : Seats T s) (hplaced : Placed s')
    (hat : ∀ i h, (i, h) ∈ T → (∀ c ∈ closeCalls s.trace, i < (c - 1).toNat) →
      s.SQLHandle[i]? = some h → s.heap h ≠ none → s'.SQLHandle[i]? = some h ∧ s'.heap h ≠ none)
    (hcalls : closeCalls s'.trace = closeCalls s.trace) : Seats T s' where
  placed := hplaced
  seated i h hih hbehind := by
    rw [hcalls] at hbehind
    obtain ⟨hi, hlive⟩ := hs.seated i h hih hbehind
    exact hat i h hih hbehind hi hlive

lemma Seats.new {host user db pass : CString} {port : Cell} (hs : Seats T s)
    (heff : Effect t (.new h host user pass db port) s s') :
    Seats T s' ∧ h ∉ s'.SQLHandle ∧ h < s'.nextHandler ∧ s'.SQLHandle.length < maxHandlers := by
  obtain ⟨rfl, hlen⟩ := heff.occurs
  have htable : s'.SQLHandle = s.SQLHandle := heff.table
  have hnext : s'.nextHandler = s.nextHandler + 1 := heff.nextHandler
  have hplaced : Placed s' := hs.placed.step heff (by simp)
  refine ⟨hs.keep hplaced (fun i p _ _ hi hlive => ⟨htable ▸ hi, ?_⟩) ?_, ?_, ?_, ?_⟩
  · rw [heff.heap p, Event.onObject]
    split_ifs
    · simp
    · exact hlive
  · rw [heff.trace, closeCalls_concat]
    rfl
  · rw [htable]
    exact fun hmem => Nat.lt_irrefl _ (hs.placed.lt _ hmem)
  · rw [hnext]
    exact Nat.lt_succ_self _
  · rw [htable]
    exact hlen

lemma Seats.push (hs : Seats T s) (hfresh : h ∉ s.SQLHandle) (hlt : h < s.nextHandler)
    (hlen : s.SQLHandle.length < maxHandlers) (heff : Effect t (.pushBack h) s s') : Seats T s' := by
  have htable : s'.SQLHandle = s.SQLHandle ++ [h] := heff.table
  refine hs.keep (hs.placed.push heff hfresh hlt hlen) (fun i p _ _ hi hlive => ⟨?_, ?_⟩) ?_
  · rw [htable, List.getElem?_append_left (List.getElem?_eq_some_iff.mp hi).1]
    exact hi
  · rwa [show s'.heap p = s.heap p from heff.heap p]
  · rw [heff.trace, closeCalls_concat]
    rfl

/-- `mysql_close` deletes the handler of the entry that its handle denotes. -/
lemma Seats.delete {c : Cell} (hs : Seats T s) (hc : c ∈ closeCalls s.trace)
    (hat : s.SQLHandle[(c - 1).toNat]? = some h) (heff : Effect t (.delete h) s s') : Seats T s' := by
  have htable : s'.SQLHandle = s.SQLHandle := heff.table
  have hplaced : Placed s' := hs.placed.step heff (by simp)
  refine hs.keep hplaced (fun i p _ hbehind hi hlive => ⟨htable ▸ hi, ?_⟩) ?_
  · have hne : p ≠ h := by
      rintro rfl
      exact Nat.ne_of_lt (hbehind c hc)
        ((List.getElem?_inj (List.getElem?_eq_some_iff.mp hi).1 hs.placed.nodup).mp (hi.trans hat.symm))
    rw [heff.heap p, Event.onObject, if_neg hne]
    exact hlive
  · rw [heff.trace, closeCalls_concat]
    rfl

/-- Entries before the one that is erased stay where they are. -/
lemma Seats.erase {c : Cell} (hs : Seats T s) (hc : c ∈ closeCalls s.trace)
    (heff : Effect t (.erase (c - 1).toNat h) s s') : Seats T s' := by
  have htable : s'.SQLHandle = s.SQLHandle.eraseIdx (c - 1).toNat := heff.table
  have hplaced : Placed s' := hs.placed.step heff (by simp)
  refine hs.keep hplaced (fun i p _ hbehind hi hlive => ⟨?_, ?_⟩) ?_
  · rw [htable, List.getElem?_eraseIdx_of_lt (hbehind c hc)]
    exact hi
  · rwa [show s'.heap p = s.heap p from heff.heap p]
  · rw [heff.trace, closeCalls_concat]
    rfl

end

/-! ### The natives -/

/-- The assignment neither begins nor ends an attempt, nor touches the outcomes. -/
def Assign.Neutral : Assign → Prop
  | .m_bQueryProcessing _ | .callbackData_push _ | .callbackData_pop | .errorCallback_pop => False
  | _ => True

/-- The events of the natives: they hand nothing over and nothing out. -/
def Event.Scripted : Event → Prop
  | .assign _ _ a => a.Neutral
  | .visit _ | .exec _ _ | .mark (.visitEnd _) | .mark .tick => False
  | _ => True

lemma Event.OfNative.scripted {e : Event} (he : e.OfNative) : e.Scripted := by
  cases e with
  | assign u h a => cases a <;> first | exact he.elim | trivial
  | mark m => cases m <;> first | exact he.elim | trivial
  | _ => first | exact he.elim | trivial

/-- The event of a native that leaves every handler in its place. -/
def Event.InPlace (e : Event) : Prop := e.OfBody ∧ e.Stays

lemma Event.InPlace.scripted {e : Event} (he : e.InPlace) : e.Scripted := he.1.ofNative.scripted

lemma Event.InPlace.keepsMainPart {e : Event} (he : e.InPlace) : e.KeepsMainPart := by
  obtain ⟨hbody, hstays⟩ := he
  cases e with
  | assign u h a =>
    cases u with
    | worker => trivial
    | main => cases a <;> first | exact hbody.elim | trivial
  | mark m => cases m <;> first | exact hbody.elim | trivial
  | _ => first | exact hstays.elim | trivial

lemma connect_inPlace (h : HandlerPtr) : (connect h).All (Stmt.Only .main Event.InPlace) :=
  all_only_and (connect_ofBody .main h) (connect_stays .main h)

/-- `mysql_close` up to the end of the object. -/
lemma closing_inPlace (h : HandlerPtr) :
    (clearQueue h).All (Stmt.Only .main Event.InPlace) ∧ (do
      let _ ← freeResult h
      disconnect h : Code Unit).All (Stmt.Only .main Event.InPlace) := by
  constructor <;>
    simp [clearQueue, freeResult, disconnect, closeConnection, this, load, call, assign, onResult,
      lockMutex, unlockMutex, bind_bind, ite_bind, all_lift_bind, all_ite, Stmt.Only, Event.InPlace,
      Event.OfBody, Event.OfNative, Assign.OfNative, Event.Stays]

section

variable {M : Machine Stmt Fault State ThreadId Reply} {b : Build}
  {rely : ThreadId → Set (State → Prop)} {J P : State → Prop} {T : Set (Nat × HandlerPtr)} {s : State}
  (hM : ∀ {t : ThreadId} {β : Type} {a : Stmt β} {s o s'}, M.Step t a s o s' →
    (plugin b).Step t a s o s')
  (hJ : Stable (rely .main) J) (hpart : ∀ P, OfMainPart P → Stable (rely .main) P)
  (hkeep : ∀ e s s', e.Scripted → J s → Effect .main e s s' → Guarantees rely .main s s' ∧ J s')

include hM hJ hpart hkeep

lemma relies_inPlace {α : Type} {p : Code α} (hp : p.All (Stmt.Only .main Event.InPlace))
    (hP : OfMainPart P) (hs : J s ∧ P s) : p.Relies M rely .main (fun _ s => J s ∧ P s) s := by
  refine relies_of_only hM hp (hJ.and (hpart P hP)) (fun e s s' he hs heff => ?_) hs
  obtain ⟨hg, hJ'⟩ := hkeep e s s' he.scripted hs.1 heff
  exact ⟨hg, hJ', hP s s' (heff.mainPart he.keepsMainPart) hs.2⟩

lemma append_seats (host user db pass : CString) (port : Cell) (hs : J s ∧ Seats T s) :
    (Natives.append host user db pass port).Relies M rely .main (fun _ s => J s ∧ Seats T s) s := by
  have hseats : Stable (rely .main) fun s => J s ∧ Seats T s := hJ.and (hpart _ (ofMainPart_seats T))
  rw [Natives.append, construct, bind_bind]
  refine relies_stmt (P := fun e => ∃ h, e = .new h host user pass db port) hM (fun h => ⟨h, rfl⟩)
    hseats hs ?_ fun h s₁ s₂ hs₁ hst => ?_
  · rintro e s₁ s₂ ⟨h, rfl⟩ hs₁ heff
    exact (hkeep (.new h host user pass db port) s₁ s₂ trivial hs₁.1 heff).1
  have heff := step_new (hM hst)
  have hfresh : OfMainPart fun s => Seats T s ∧ h ∉ s.SQLHandle ∧ h < s.nextHandler ∧
      s.SQLHandle.length < maxHandlers := by
    intro s s' heq hs
    rw [show s'.SQLHandle = s.SQLHandle from congrArg MainPart.SQLHandle heq,
      show s'.nextHandler = s.nextHandler from congrArg MainPart.nextHandler heq]
    exact ⟨ofMainPart_seats T s s' heq hs.1, hs.2⟩
  have hs₂ := And.intro (hkeep (.new h host user pass db port) s₁ s₂ trivial hs₁.1 heff).2
    (hs₁.2.new heff)
  rw [bind_bind]
  refine .bind ((relies_inPlace hM hJ hpart hkeep (connect_inPlace h) hfresh hs₂).mono fun _ s hs => ?_)
  refine relies_records (P := (· = .pushBack h)) hM trivial rfl (hJ.and (hpart _ hfresh)) hs
    fun e s₁ s₂ he hs₁ heff => ?_
  subst he
  obtain ⟨hg, hJ₂⟩ := hkeep (.pushBack h) s₁ s₂ trivial hs₁.1 heff
  obtain ⟨hseats₁, hnew, hlt, hlen⟩ := hs₁.2
  exact ⟨hg, fun _ => relies_size hM hseats ⟨hJ₂, hseats₁.push hnew hlt hlen heff⟩ fun s hs =>
    relies_ret hseats hs⟩

lemma nMysqlConnect_seats (host user db pass : CString) (port : Cell) (hs : J s ∧ Seats T s) :
    (Natives.nMysqlConnect host user db pass port).Relies M rely .main (fun _ s => J s ∧ Seats T s) s := by
  have hseats : Stable (rely .main) fun s => J s ∧ Seats T s := hJ.and (hpart _ (ofMainPart_seats T))
  refine relies_size hM hseats hs fun s hs => ?_
  split_ifs
  · refine relies_stmt (P := fun _ => False) hM trivial hseats hs (fun _ _ _ h => h.elim)
      fun l s₁ s₂ hs₁ hst => ?_
    obtain ⟨rfl, -⟩ := step_table (hM hst)
    have hreuse : (Natives.reuse host user db pass port l 0).All (Stmt.Only .main Event.InPlace) :=
      reuse_only .main (fun _ => ⟨trivial, trivial⟩) connect_inPlace l 0
    refine .bind ((relies_inPlace hM hJ hpart hkeep hreuse (ofMainPart_seats T) hs₁).mono fun i s hs => ?_)
    cases i with
    | none => exact append_seats hM hJ hpart hkeep host user db pass port hs
    | some i => exact relies_ret hseats hs
  · exact append_seats hM hJ hpart hkeep host user db pass port hs

lemma nMysqlClose_seats (c : Cell) (hs : J s ∧ Seats T s ∧ c ∈ closeCalls s.trace) :
    (Natives.nMysqlClose c).Relies M rely .main (fun _ s => J s ∧ Seats T s) s := by
  have hseats : Stable (rely .main) fun s => J s ∧ Seats T s := hJ.and (hpart _ (ofMainPart_seats T))
  have hcalled := (ofMainPart_seats T).and (OfMainPart.called c)
  have hentry (h : HandlerPtr) := hcalled.and (OfMainPart.entry (c - 1).toNat h)
  have hmove {P : State → Prop} (hP : OfMainPart P) {α : Type} {p : Code α} {s : State} (hs : J s ∧ P s)
      (hp : p.All (Stmt.Only .main Event.InPlace)) :
      p.Relies M rely .main (fun _ s => J s ∧ P s) s := relies_inPlace hM hJ hpart hkeep hp hP hs
  refine relies_size hM (hJ.and (hpart _ hcalled)) hs fun s hs => ?_
  split_ifs
  · exact relies_ret hseats ⟨hs.1, hs.2.1⟩
  refine .bind ((hmove hcalled hs (p := lockMutex) ?_).mono fun _ s hs => ?_)
  · simp [lockMutex, Stmt.Only, Event.InPlace, Event.OfBody, Event.OfNative, Event.Stays]
  refine relies_at hM (hJ.and (hpart _ hcalled)) hs fun h s hs hat => ?_
  refine .bind ((hmove (hentry h) ⟨hs.1, hs.2, hat⟩ (closing_inPlace h).1).mono fun _ s hs => ?_)
  refine relies_at hM (hJ.and (hpart _ (hentry h))) hs fun h' s hs hat' => ?_
  obtain rfl : h = h' := Option.some.inj (hs.2.2.symm.trans hat')
  have hparts : destruct h = (do
      let _ ← freeResult h
      disconnect h) >>= fun _ => Prog.lift (.delete h) := by
    simp only [destruct, bind_bind]
  rw [hparts, bind_bind]
  refine .bind ((hmove (hentry h) hs (closing_inPlace h).2).mono fun _ s hs => ?_)
  refine relies_records (P := (· = .delete h)) hM trivial rfl (hJ.and (hpart _ (hentry h))) hs
    fun e s₁ s₂ he hs₁ heff => ?_
  subst he
  obtain ⟨hg, hJ₂⟩ := hkeep (.delete h) s₁ s₂ trivial hs₁.1 heff
  obtain ⟨⟨hseats₁, hcalled₁⟩, hat₁⟩ := hs₁.2
  have hcalled₂ : c ∈ closeCalls s₂.trace := by
    rwa [heff.trace, closeCalls_concat]
  refine ⟨hg, fun _ => ?_⟩
  refine relies_records (P := fun e => ∃ q, e = .erase (c - 1).toNat q) hM trivial (fun q => ⟨q, rfl⟩)
    (hJ.and (hpart _ hcalled)) ⟨hJ₂, hseats₁.delete hcalled₁ hat₁ heff, hcalled₂⟩
    fun e s₃ s₄ he hs₃ heff => ?_
  obtain ⟨q, rfl⟩ := he
  obtain ⟨hg, hJ₄⟩ := hkeep (.erase (c - 1).toNat q) s₃ s₄ trivial hs₃.1 heff
  refine ⟨hg, fun _ => .bind ((hmove (ofMainPart_seats T) ⟨hJ₄, hs₃.2.1.erase hs₃.2.2 heff⟩
    (p := unlockMutex) ?_).mono fun _ s hs => relies_ret hseats hs)⟩
  simp [unlockMutex, Stmt.Only, Event.InPlace, Event.OfBody, Event.OfNative, Event.Stays]

/-- A native called by a script: the handlers of `T` keep their seats, unless it closes one of them or
one before them. -/
lemma native_seats (n : NativeCall) (hs : J s ∧ Seats T s) :
    (native n).Relies M rely .main (fun _ s => J s ∧ Seats T s) s := by
  have hseats : Stable (rely .main) fun s => J s ∧ Seats T s := hJ.and (hpart _ (ofMainPart_seats T))
  refine relies_mark hM hseats hs fun s₁ s₂ hs₁ heff => ?_
  obtain ⟨hg, hJ₂⟩ := hkeep (.mark (.call n)) s₁ s₂ trivial hs₁.1 heff
  have hs₂ : J s₂ ∧ Seats T s₂ := ⟨hJ₂, hs₁.2.call heff⟩
  have hbody : (Natives.body n).Relies M rely .main (fun _ s => J s ∧ Seats T s) s₂ := by
    cases n with
    | mysql_connect host user db pass port =>
      exact nMysqlConnect_seats hM hJ hpart hkeep host user db pass port hs₂
    | mysql_close c =>
      refine nMysqlClose_seats hM hJ hpart hkeep c ⟨hs₂.1, hs₂.2, ?_⟩
      rw [heff.trace, closeCalls_concat]
      exact List.mem_append_right _ (List.mem_singleton_self c)
    | _ =>
      exact relies_inPlace hM hJ hpart hkeep (all_only_and (body_ofBody .main (by trivial))
        (body_stays .main (by trivial) (by simp))) (ofMainPart_seats T) hs₂
  refine ⟨hg, .bind (hbody.mono fun r s hs => ?_)⟩
  refine relies_mark hM hseats hs fun s₃ s₄ hs₃ heff => ?_
  obtain ⟨hg, hJ₄⟩ := hkeep (.mark (.return n r)) s₃ s₄ trivial hs₃.1 heff
  exact ⟨hg, relies_ret hseats ⟨hJ₄, ofMainPart_seats T s₃ s₄ (heff.mainPart trivial) hs₃.2⟩⟩

end

end MySQLPlugin
