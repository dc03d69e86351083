import MySQLPlugin.Results.Rows

/-!
# The three pointers of a result

`m_stResult`, `m_stField` and `m_stRow` are set by different functions. `FetchField` reads a row and a
field array without checking that they belong to the result set that the handler holds.
-/

namespace MySQLPlugin

open Threads Prog CMySQLHandler

/-! ### The environment -/

/-- The statement reads a pointer that the constructor leaves unassigned. -/
def Stmt.loadsPointer {β : Type} : Stmt β → Bool
  | .load _ .m_stResult | .load _ .m_stRow | .load _ .m_stField => true
  | _ => false

/-- The statement stores a result set. -/
def Stmt.storesResult {β : Type} : Stmt β → Bool
  | .leave _ _ .mysql_store_result => true
  | _ => false

/-- The plugin where unassigned pointers are `NULL` and the result sets satisfy `P`. -/
def reading (b : Build) (P : ResultSet → Prop) : Machine Stmt Fault State ThreadId Reply :=
  (plugin b).restrict fun _ a r _ => (a.loadsPointer = true → r.pointer = none) ∧
    (a.storesResult = true → ∀ set ∈ r.rows, P set)

instance (b : Build) (P : ResultSet → Prop) : IsPlugin (reading b P) b := ⟨fun _ _ _ => rfl⟩

section

variable {b : Build} {P : ResultSet → Prop} {t : ThreadId} {E : Fault → State → Prop} {α : Type}
  {Q : α → State → Prop} {h : HandlerPtr} {x : CMySQLHandler} {l : Libmysql} {w : List Event}
  {s : State}

/-- A pointer is read: its value, or `NULL`. -/
lemma Sees.wp_pointer {m : Member} {v : m.Val} {k : m.Val → Code α} (hs : Sees h x l w s)
    (hm : (Stmt.load h m).loadsPointer = true) (hset : ∀ v', m.get x = .set v' → v' = v)
    (hunset : m.get x = .unset → ∀ r : Reply, r.pointer = none → m.garbage r = v)
    (hk : ∀ s', Sees h x l w s' → (k v).wp (reading b P) t E Q s') :
    (load h m >>= k).wp (reading b P) t E Q s := by
  refine hs.wp_load (fun v' hv => ?_) fun hv r s₁ hr hs₁ => ?_
  · exact hset v' hv ▸ hk s hs
  · exact hunset hv r (hr.2.1 hm) ▸ hk s₁ hs₁

lemma Sees.wp_result {k : Option ResPtr → Code α} (hs : Sees h x l w s)
    (hk : ∀ s', Sees h x l w s' → (k x.result).wp (reading b P) t E Q s') :
    (load h .m_stResult >>= k).wp (reading b P) t E Q s := by
  refine hs.wp_pointer rfl (fun v hv => ?_) (fun hv r hr => ?_) hk
  · have hv : x.m_stResult = .set v := hv
    rw [CMySQLHandler.result, hv]
  · have hv : x.m_stResult = .unset := hv
    simp [CMySQLHandler.result, hv, Member.garbage, hr]

lemma Sees.wp_row {k : Option RowPtr → Code α} (hs : Sees h x l w s)
    (hk : ∀ s', Sees h x l w s' → (k x.row).wp (reading b P) t E Q s') :
    (load h .m_stRow >>= k).wp (reading b P) t E Q s := by
  refine hs.wp_pointer rfl (fun v hv => ?_) (fun hv r hr => ?_) hk
  · have hv : x.m_stRow = .set v := hv
    rw [CMySQLHandler.row, hv]
  · have hv : x.m_stRow = .unset := hv
    simp [CMySQLHandler.row, hv, Member.garbage, hr]

lemma Sees.wp_field {k : Option FieldPtr → Code α} (hs : Sees h x l w s)
    (hk : ∀ s', Sees h x l w s' → (k x.field).wp (reading b P) t E Q s') :
    (load h .m_stField >>= k).wp (reading b P) t E Q s := by
  refine hs.wp_pointer rfl (fun v hv => ?_) (fun hv r hr => ?_) hk
  · have hv : x.m_stField = .set v := hv
    rw [CMySQLHandler.field, hv]
  · have hv : x.m_stField = .unset := hv
    simp [CMySQLHandler.field, hv, Member.garbage, hr]

end

/-! ### The calls -/

/-- A call of `StoreResult`, `FreeResult`, `RetrieveRow`, `FetchRow` after the delimiter has been set,
`FetchFieldName` or `FetchField`. -/
inductive Access where
  | store
  | free
  | retrieve
  | row (delimiter : CString)
  | name (number : Cell)
  | field (column : CString)

def Access.code (h : HandlerPtr) : Access → Code Unit
  | .store => do
    let _ ← storeResult h
    pure ()
  | .free => do
    let _ ← freeResult h
    pure ()
  | .retrieve => do
    let _ ← retrieveRow h
    pure ()
  | .row delimiter => do
    assign h (.Delimiter delimiter)
    let _ ← fetchRow h
    pure ()
  | .name number => do
    let _ ← fetchFieldName h number
    pure ()
  | .field column => do
    let _ ← fetchField h column
    pure ()

/-- The position of the row that has been fetched last from the current result, when the call finds
the object `x` and `last` has been fetched before. -/
def Access.after (x : CMySQLHandler) (l : Libmysql) (last : Option Nat) : Access → Option Nat
  | .store | .free => none
  | .retrieve | .row _ =>
    (x.result.bind l.live).bind fun y => if y.next < y.set.rows.length then some y.next else none
  | .name _ | .field _ => last

/-- The result sets are plain, the row `last` has been fetched from the current one exactly if
`m_stRow` points to it, and `m_stField` is the field array that belongs to `m_stRow`. -/
structure Linked (last : Option Nat) (x : CMySQLHandler) (l : Libmysql) : Prop where
  connected : x.m_bIsConnected = true
  plain : ∀ p y, l.live p = some y → y.set.Plain
  used : ∀ p y, l.live p = some y → p < l.nextRes
  alive : ∀ p, x.result = some p → ∃ y, l.live p = some y
  older : ∀ r, x.row = some r → r.result < l.nextRes
  array : ∀ r, x.row = some r → x.field = some ⟨r.result, 0⟩
  last : ∀ i, last = some i ↔ ∃ p, x.result = some p ∧ x.row = some ⟨p, i⟩
  fetched : ∀ p i y, x.result = some p → x.row = some ⟨p, i⟩ → l.live p = some y →
    i < y.set.rows.length ∧ x.m_dwFields = .set (BitVec.ofNat 32 y.set.fields.length)

section

variable {last : Option Nat} {x x' : CMySQLHandler} {l l' : Libmysql}

/-- The other members do not matter. -/
lemma Linked.congr (hl : Linked last x l) (hconn : x'.m_bIsConnected = x.m_bIsConnected)
    (hres : x'.m_stResult = x.m_stResult) (hrow : x'.m_stRow = x.m_stRow)
    (hfield : x'.m_stField = x.m_stField) (hfields : x'.m_dwFields = x.m_dwFields) :
    Linked last x' l := by
  have hres : x'.result = x.result := by rw [CMySQLHandler.result, hres, CMySQLHandler.result]
  have hrow : x'.row = x.row := by rw [CMySQLHandler.row, hrow, CMySQLHandler.row]
  have hfield : x'.field = x.field := by
    rw [CMySQLHandler.field, hfield, CMySQLHandler.field]
  refine ⟨hconn.trans hl.connected, hl.plain, hl.used, ?_, ?_, ?_, ?_, ?_⟩
  · rw [hres]
    exact hl.alive
  · rw [hrow]
    exact hl.older
  · rw [hrow, hfield]
    exact hl.array
  · rw [hres, hrow]
    exact hl.last
  · rw [hres, hrow, hfields]
    exact hl.fetched

/-- Nothing has been fetched from a result that is not there. -/
lemma Linked.last_eq_none (hl : Linked last x l) (hres : x.result = none) : last = none := by
  refine Option.eq_none_iff_forall_ne_some.mpr fun i hi => ?_
  obtain ⟨p, hp, -⟩ := (hl.last i).mp hi
  cases hres.symm.trans hp

/-- A new result set has been stored. -/
lemma Linked.store (hl : Linked last x l) {set : ResultSet} (hset : set.Plain) :
    Linked none { x with m_stResult := .set (some l.nextRes) } (l.newResult set) where
  connected := hl.connected
  plain p y hy := by
    rw [Libmysql.live_newResult] at hy
    split_ifs at hy
    · obtain rfl := Option.some.inj hy
      exact hset
    · exact hl.plain p y hy
  used p y hy := by
    rw [Libmysql.live_newResult] at hy
    split_ifs at hy with hp
    · exact hp ▸ Nat.lt_succ_self _
    · exact Nat.lt_succ_of_lt (hl.used p y hy)
  alive p hp := by
    obtain rfl : l.nextRes = p := Option.some.inj hp
    exact ⟨_, by rw [Libmysql.live_newResult, if_pos rfl]⟩
  older r hr := Nat.lt_succ_of_lt (hl.older r hr)
  array := hl.array
  last i := by
    refine iff_of_false (by simp) ?_
    rintro ⟨p, hp, hr⟩
    obtain rfl : l.nextRes = p := Option.some.inj hp
    exact Nat.lt_irrefl _ (hl.older _ hr)
  fetched p i y hp hr _ := by
    obtain rfl : l.nextRes = p := Option.some.inj hp
    exact absurd (hl.older _ hr) (Nat.lt_irrefl _)

/-- No result set is held any more. -/
lemma Linked.unheld (hl : Linked last x l) {r : Slot (Option RowPtr)}
    (hr : ∀ q, r = .set (some q) → x.row = some q) {l' : Libmysql} (hnext : l'.nextRes = l.nextRes)
    (hlive : ∀ p y, l'.live p = some y → l.live p = some y) :
    Linked none { x with m_stResult := .set none, m_stRow := r } l' where
  connected := hl.connected
  plain p y hy := hl.plain p y (hlive p y hy)
  used p y hy := hnext ▸ hl.used p y (hlive p y hy)
  alive p hp := by cases hp
  older q hq := hnext ▸ hl.older q (hr q (row_eq_some.mp hq))
  array q hq := hl.array q (hr q (row_eq_some.mp hq))
  last i := iff_of_false (by simp) (by rintro ⟨p, hp, -⟩; cases hp)
  fetched p i y hp := by cases hp

/-- The next row of the current result has been fetched, or there was none. -/
lemma Linked.next (hl : Linked last x l) {p : ResPtr} {y : StoredResult}
    (hres : x.m_stResult = .set (some p)) (hlive : l.live p = some y) :
    Linked (if y.next < y.set.rows.length then some y.next else none) (x.atRow p y (y.rowPtr p))
      (l.onResult p y .mysql_fetch_row).2 := by
  have hset : y.fetched.set = y.set := by
    rw [StoredResult.fetched]
    split_ifs <;> rfl
  have hnext : (l.onResult p y .mysql_fetch_row).2.nextRes = l.nextRes := by
    rw [Libmysql.onResult]
    split_ifs <;> rfl
  have hfrom {q : ResPtr} {z : StoredResult}
      (hz : (l.onResult p y .mysql_fetch_row).2.live q = some z) :
      ∃ z', l.live q = some z' ∧ z.set = z'.set := by
    rw [Libmysql.live_fetch_row hlive] at hz
    split_ifs at hz with hq
    · obtain rfl := Option.some.inj hz
      exact ⟨y, hq ▸ hlive, hset⟩
    · exact ⟨z, hz, rfl⟩
  have hresult : (x.atRow p y (y.rowPtr p)).result = some p := result_eq_some.mpr hres
  have hrow (r : RowPtr) : (x.atRow p y (y.rowPtr p)).row = some r ↔
      y.next < y.set.rows.length ∧ r = ⟨p, y.next⟩ := by
    change y.rowPtr p = some r ↔ _
    rw [StoredResult.rowPtr]
    split_ifs with hlt
    · simp [hlt, eq_comm]
    · simp [hlt]
  refine ⟨hl.connected, fun q z hz => ?_, fun q z hz => ?_, fun q hq => ?_, fun r hr => ?_,
    fun r hr => ?_, fun i => ?_, fun q i z hq hr hz => ?_⟩
  · obtain ⟨z', hz', hset'⟩ := hfrom hz
    exact hset' ▸ hl.plain q z' hz'
  · obtain ⟨z', hz', -⟩ := hfrom hz
    exact hnext ▸ hl.used q z' hz'
  · obtain rfl := Option.some.inj (hresult.symm.trans hq)
    exact ⟨_, by rw [Libmysql.live_fetch_row hlive, if_pos rfl]⟩
  · obtain ⟨-, rfl⟩ := (hrow r).mp hr
    exact hnext ▸ hl.used p y hlive
  · obtain ⟨-, rfl⟩ := (hrow r).mp hr
    rfl
  · simp only [hresult, Option.some.injEq, exists_eq_left', hrow, RowPtr.mk.injEq, true_and]
    split_ifs with hlt <;> simp [hlt, eq_comm]
  · obtain rfl := Option.some.inj (hresult.symm.trans hq)
    obtain ⟨hlt, hri⟩ := (hrow _).mp hr
    obtain rfl : i = y.next := congrArg RowPtr.row hri
    rw [Libmysql.live_fetch_row hlive, if_pos rfl] at hz
    obtain rfl := Option.some.inj hz
    rw [hset]
    exact ⟨hlt, rfl⟩

end

/-- The handler is linked in the state `s`. -/
def LinkedAt (h : HandlerPtr) (last : Option Nat) (s : State) : Prop :=
  ∃ x, s.heap h = some x ∧ Linked last x s.lib

section

variable {b : Build} {t : ThreadId} {h : HandlerPtr} {x : CMySQLHandler} {l : Libmysql}
  {w : List Event} {s : State} {last : Option Nat}

lemma Sees.linked (hs : Sees h x l w s) (hl : Linked last x l) : LinkedAt h last s :=
  ⟨x, hs.heap, hs.lib ▸ hl⟩

lemma store_linked (hs : Sees h x l w s) (hl : Linked last x l) :
    (Access.store.code h).wp (reading b ResultSet.Plain) t (fun _ _ => True)
      (fun _ s' => LinkedAt h (Access.store.after x l last) s') s := by
  change (storeResult h >>= _).wp _ t _ _ s
  rw [wp_bind]
  refine hs.wp_this ?_
  rw [hl.connected, Bool.not_true, if_neg Bool.false_ne_true, call, bind_bind]
  refine hs.wp_enter (fun _ _ _ => trivial) fun c s₁ _ hs₁ => ?_
  refine hs₁.wp_leave fun now r s₂ hr hs₂ => ?_
  cases hrows : r.rows with
  | none =>
    simp only [Libmysql.answer, hrows] at hs₂ ⊢
    refine hs₂.wp_assign rfl fun s₃ hs₃ => hs₃.linked ?_
    exact hl.unheld (r := x.m_stRow) (fun q hq => row_eq_some.mpr hq) rfl fun p y hy => hy
  | some set =>
    have hset : set.Plain := hr.2.2 rfl set hrows
    simp only [Libmysql.answer, hrows] at hs₂ ⊢
    refine hs₂.wp_assign rfl fun s₃ hs₃ => hs₃.linked ?_
    exact Linked.store (l := l.modifyConn c _) ⟨hl.connected, hl.plain, hl.used, hl.alive, hl.older,
      hl.array, hl.last, hl.fetched⟩ hset

lemma free_linked (hs : Sees h x l w s) (hl : Linked last x l) :
    (Access.free.code h).wp (reading b ResultSet.Plain) t (fun _ _ => True)
      (fun _ s' => LinkedAt h (Access.free.after x l last) s') s := by
  change (freeResult h >>= _).wp _ t _ _ s
  rw [wp_bind]
  refine hs.wp_this ?_
  rw [hl.connected, Bool.not_true, if_neg Bool.false_ne_true]
  refine hs.wp_result fun s₁ hs₁ => ?_
  cases hres : x.result with
  | none =>
    rw [if_pos rfl]
    exact hs₁.linked (hl.last_eq_none hres ▸ hl)
  | some p =>
    rw [if_neg (by simp)]
    refine hs₁.wp_onResult (fun _ _ _ => trivial) fun q y s₂ _ hy hs₂ => ?_
    refine hs₂.wp_assign rfl fun s₃ hs₃ => hs₃.wp_assign rfl fun s₄ hs₄ => hs₄.linked ?_
    refine hl.unheld (r := .set none) (fun q hq => by cases hq) rfl fun p' y' hy' => ?_
    change (l.setResult q { y with freed := true }).live p' = some y' at hy'
    rw [Libmysql.live_setResult] at hy'
    split_ifs at hy' with _ hfreed
    · exact absurd rfl hfreed
    · exact hy'

/-- What the fetches have in common. -/
lemma Sees.wp_next {α : Type} {Q : α → State → Prop} {k : Option RowPtr → Code α}
    {E : Fault → State → Prop} (hs : Sees h x l w s) (hl : Linked last x l) {p : ResPtr}
    (hres : x.result = some p)
    (hk : ∀ r x' l' s', Sees h x' l' w s' → Linked (Access.retrieve.after x l last) x' l' →
      (k r).wp (reading b ResultSet.Plain) t E Q s') :
    (CMySQLHandler.nextRow h >>= k).wp (reading b ResultSet.Plain) t E Q s := by
  obtain ⟨y, hy⟩ := hl.alive p hres
  refine hs.nextRow (result_eq_some.mp hres) hy fun s' hs' => hk _ _ _ s' hs' ?_
  rw [Access.after, hres, Option.bind_some, hy, Option.bind_some]
  exact hl.next (result_eq_some.mp hres) hy

lemma retrieve_linked (hs : Sees h x l w s) (hl : Linked last x l) :
    (Access.retrieve.code h).wp (reading b ResultSet.Plain) t (fun _ _ => True)
      (fun _ s' => LinkedAt h (Access.retrieve.after x l last) s') s := by
  change (retrieveRow h >>= _).wp _ t _ _ s
  rw [wp_bind]
  refine hs.wp_this ?_
  rw [hl.connected, Bool.not_true, if_neg Bool.false_ne_true]
  refine hs.wp_result fun s₁ hs₁ => ?_
  rw [wp_ite]
  split_ifs with hres
  · refine hs₁.linked ?_
    rw [Access.after, hres, Option.bind_none, Option.bind_none, ← hl.last_eq_none hres]
    exact hl
  · obtain ⟨p, hp⟩ := Option.ne_none_iff_exists'.mp hres
    refine hs₁.wp_next hl hp fun r x' l' s₂ hs₂ hl₂ => ?_
    rw [wp_ite]
    split_ifs <;> exact hs₂.linked hl₂

/-- `FetchRow` of a handler that holds no result. -/
lemma Sees.fetchRow_null {P : ResultSet → Prop} {E : Fault → State → Prop}
    {Q : CString → State → Prop} (hs : Sees h x l w s) (hres : x.result = none)
    (hQ : ∀ s', Sees h x l w s' → Q NULL s') : (fetchRow h).wp (reading b P) t E Q s := by
  refine hs.wp_this ?_
  rw [wp_ite]
  split_ifs
  · exact hQ s hs
  · refine hs.wp_result fun s₁ hs₁ => ?_
    rw [if_pos hres]
    exact hQ s₁ hs₁

lemma row_linked (hs : Sees h x l w s) (hl : Linked last x l) (delimiter : CString) :
    ((Access.row delimiter).code h).wp (reading b ResultSet.Plain) t (fun _ _ => True)
      (fun _ s' => LinkedAt h ((Access.row delimiter).after x l last) s') s := by
  refine hs.wp_assign rfl fun s₁ hs₁ => ?_
  have hl₁ : Linked last (Assign.apply (.Delimiter delimiter) x) l := hl.congr rfl rfl rfl rfl rfl
  rw [wp_bind]
  cases hres : x.result with
  | none =>
    refine hs₁.fetchRow_null hres fun s₂ hs₂ => hs₂.linked ?_
    rw [Access.after, hres, Option.bind_none, Option.bind_none, ← hl.last_eq_none hres]
    exact hl₁
  | some p =>
    obtain ⟨y, hy⟩ := hl.alive p hres
    have hnext := hl₁.next (result_eq_some.mp hres) hy
    rw [Access.after, hres, Option.bind_some, hy, Option.bind_some]
    cases hrow : y.nextRow with
    | some row =>
      have hlt : y.next < y.set.rows.length := (List.getElem?_eq_some_iff.mp hrow).1
      have hset := hl.plain p y hy
      refine hs₁.fetchRow_row hl.connected (result_eq_some.mp hres) hy
        (by rw [hset.toNat_count, hset.width row (List.mem_of_getElem? hrow)]) hrow
        fun s₂ hs₂ => ?_
      have hptr : y.rowPtr p = some ⟨p, y.next⟩ := if_pos hlt
      rw [hptr] at hnext
      obtain ⟨st, a, htake⟩ := CMySQLHandler.takeText_snd
        ((Assign.apply (.Delimiter delimiter) x).atRow p y (some ⟨p, y.next⟩)) row
      rw [htake] at hs₂
      exact hs₂.linked (hnext.congr rfl rfl rfl rfl rfl)
    | none =>
      have hge : ¬ y.next < y.set.rows.length :=
        Nat.not_lt.mpr (List.getElem?_eq_none_iff.mp hrow)
      refine hs₁.fetchRow_end hl.connected (result_eq_some.mp hres) hy hrow (fun _ _ _ => trivial)
        fun e s₂ hs₂ => hs₂.linked ?_
      have hptr : y.rowPtr p = none := if_neg hge
      have hlib : (l.onResult p y .mysql_fetch_row).2 = l := by rw [Libmysql.onResult, if_neg hge]
      rw [hptr, hlib] at hnext
      exact hnext.congr rfl rfl rfl rfl rfl

/-- `FetchFieldName` never returns: it frees an element of the field array. -/
lemma name_never (hs : Sees h x l w s) (hconn : x.m_bIsConnected = true) (number : Cell) :
    ((Access.name number).code h).wp (reading b ResultSet.Plain) t (fun _ _ => True)
      (fun _ _ => False) s := by
  change (fetchFieldName h number >>= _).wp _ t _ _ s
  rw [wp_bind]
  refine hs.wp_this ?_
  rw [hconn, Bool.not_true, if_neg Bool.false_ne_true]
  refine hs.wp_result fun s₁ hs₁ => ?_
  rw [wp_ite]
  split_ifs
  · trivial
  refine hs₁.wp_result fun s₂ hs₂ => hs₂.wp_onResult (fun _ _ _ => trivial) fun q y s₃ _ _ hs₃ => ?_
  refine hs₃.wp_assign rfl fun s₄ hs₄ => hs₄.wp_fieldName (fun _ _ _ => trivial) fun name _ => ?_
  exact wp_free fun _ => trivial

lemma field_linked (hs : Sees h x l w s) (hl : Linked last x l) (column : CString) :
    ((Access.field column).code h).wp (reading b ResultSet.Plain) t (fun _ _ => True)
      (fun _ s' => LinkedAt h last s') s := by
  change (fetchField h column >>= _).wp _ t _ _ s
  rw [wp_bind]
  refine wp_mono (hs.fetchField_texts (R := fun _ => True) fun _ _ _ _ _ => trivial) fun _ s₁ hs₁ => ?_
  rcases hs₁ with hs₁ | ⟨text, -, hs₁⟩
  · exact hs₁.linked hl
  · exact hs₁.linked (hl.congr rfl rfl rfl rfl rfl)

/-- Every call keeps the pointers linked. -/
lemma access_linked (hs : Sees h x l w s) (hl : Linked last x l) (c : Access) :
    (c.code h).wp (reading b ResultSet.Plain) t (fun _ _ => True)
      (fun _ s' => LinkedAt h (c.after x l last) s') s := by
  cases c with
  | store => exact store_linked hs hl
  | free => exact free_linked hs hl
  | retrieve => exact retrieve_linked hs hl
  | row delimiter => exact row_linked hs hl delimiter
  | name number => exact wp_mono (name_never hs hl.connected number) fun _ _ hno => hno.elim
  | field column => exact field_linked hs hl column

end

/-! ### Sequences of calls -/

/-- Calls one after the other, beside the position of the row that has been fetched last from the
current result. -/
inductive Accesses (b : Build) (h : HandlerPtr) (s₀ : State) : Option Nat → State → Prop
  | refl : Accesses b h s₀ none s₀
  | tail {last : Option Nat} {s s' : State} {x : CMySQLHandler} (c : Access) :
      Accesses b h s₀ last s → s.heap h = some x →
      Run (reading b ResultSet.Plain) .main (c.code h) s (.ok ()) s' →
      Accesses b h s₀ (c.after x s.lib last) s'

lemma Accesses.linked {b : Build} {h : HandlerPtr} {s₀ s : State} {last : Option Nat}
    (hl : LinkedAt h none s₀) (hs : Accesses b h s₀ last s) : LinkedAt h last s := by
  induction hs with
  | refl => exact hl
  | tail c _ hx hrun ih =>
    obtain ⟨x', hx', hl'⟩ := ih
    obtain rfl := Option.some.inj (hx.symm.trans hx')
    exact ((wp_iff _ _ _).mp (access_linked (Sees.refl hx) hl' c)).1 _ _ hrun

/-- `m_stRow` is `NULL` or a row of the current result. -/
def CMySQLHandler.Paired (x : CMySQLHandler) : Prop :=
  ∀ r, x.row = some r → x.result = some r.result

/-- What `FetchField` shall do for a handler `x` that has fetched the row `last` from its current
result: read the value of the column from the field array of that result, or nothing. -/
def Yields (column : CString) (last : Option Nat) (x : CMySQLHandler) (s : State)
    (o : Except Fault Bool) (a : CString) : Prop :=
  match last with
  | none => o = .ok false ∧ a = x.m_szResult
  | some i => o = .ok true ∧ ∃ p y row, x.result = some p ∧ s.lib.live p = some y ∧
      y.set.rows[i]? = some row ∧ a = (columnValue y.set.fields row column).getD [] ∧
      x.field = some ⟨p, 0⟩

/-- What `FetchField` does with paired pointers. -/
lemma fetchField_yields {b : Build} {h : HandlerPtr} {s : State} {last : Option Nat}
    {x : CMySQLHandler} (hx : s.heap h = some x) (hl : Linked last x s.lib)
    (hstream : x.m_cSStream = {}) (hpaired : x.Paired) (column : CString) :
    (fetchField h column).wp (reading b ResultSet.Plain) .main (fun _ _ => False)
      (fun v s' => ∃ x', s'.heap h = some x' ∧ Yields column last x s (.ok v) x'.m_szResult) s := by
  have hs := Sees.refl hx
  cases hrow : x.row with
  | none =>
    have hlast : last = none := by
      refine Option.eq_none_iff_forall_ne_some.mpr fun i hi => ?_
      obtain ⟨p, -, hr⟩ := (hl.last i).mp hi
      cases hrow.symm.trans hr
    subst hlast
    refine hs.wp_this ?_
    rw [hl.connected, Bool.not_true, if_neg Bool.false_ne_true]
    refine hs.wp_field fun s₁ hs₁ => ?_
    rw [wp_ite]
    split_ifs
    · exact ⟨x, hs₁.heap, rfl, rfl⟩
    refine hs₁.wp_row fun s₂ hs₂ => ?_
    rw [if_pos hrow]
    exact ⟨x, hs₂.heap, rfl, rfl⟩
  | some r =>
    obtain ⟨p, i⟩ := r
    have hres : x.result = some p := hpaired _ hrow
    have hfield : x.field = some ⟨p, 0⟩ := hl.array _ hrow
    have hlast : last = some i := (hl.last i).mpr ⟨p, hres, hrow⟩
    subst hlast
    obtain ⟨y, hy⟩ := hl.alive p hres
    obtain ⟨hlt, hfields⟩ := hl.fetched p i y hres hrow hy
    have hat := List.getElem?_eq_getElem hlt
    refine hs.fetchField_plain hl.connected hstream hy (hl.plain p y hy) hat
      (row_eq_some.mp hrow) (field_eq_some.mp hfield) hfields fun s₁ hs₁ => ?_
    exact ⟨_, hs₁.heap, rfl, p, y, _, hres, hy, hat, rfl, hfield⟩

/-- With a row of another result `FetchField` does not stop before it reads. -/
lemma fetchField_stale {b : Build} {h : HandlerPtr} {s : State} {x : CMySQLHandler} {r : RowPtr}
    {f : FieldPtr} (hx : s.heap h = some x) (hconn : x.m_bIsConnected = true)
    (hrow : x.row = some r) (hfield : x.field = some f) (column : CString) :
    (fetchField h column).wp (reading b ResultSet.Plain) .main (fun _ _ => True)
      (fun v _ => v = true) s := by
  have hs := Sees.refl hx
  refine hs.wp_this ?_
  rw [hconn, Bool.not_true, if_neg Bool.false_ne_true]
  refine hs.wp_field fun s₁ hs₁ => ?_
  rw [if_neg (by simp [hfield])]
  refine hs₁.wp_row fun s₂ hs₂ => ?_
  rw [if_neg (by simp [hrow])]
  refine hs₂.wp_loadAny fun n s₃ _ hs₃ => ?_
  rw [wp_bind]
  refine wp_mono (hs₃.insertField_texts (R := fun _ => True) _ fun _ _ _ _ _ => trivial) ?_
  rintro _ s₄ ⟨text, -, hs₄⟩
  exact hs₄.readField fun _ _ => rfl

/-- In every sequence of calls on a connected handler, a `FetchField` that finds an empty stream reads
the row that has been fetched last from the current result, or nothing if none has been, exactly if
`m_stRow` is `NULL` or a row of the current result. -/
theorem field_read (b : Build) {h : HandlerPtr} {s₀ s : State} {x₀ x : CMySQLHandler}
    {last : Option Nat} (hx₀ : s₀.heap h = some x₀) (hconn : x₀.m_bIsConnected = true)
    (hnull : x₀.row = none) (hheld : ∀ p, x₀.result = some p → ∃ y, s₀.lib.live p = some y)
    (hused : ∀ p y, s₀.lib.live p = some y → p < s₀.lib.nextRes)
    (hplain : ∀ p y, s₀.lib.live p = some y → y.set.Plain) (hs : Accesses b h s₀ last s)
    (hx : s.heap h = some x) (column : CString) :
    (∃ o s', Run (reading b ResultSet.Plain) .main (fetchField h column) s o s') ∧
      (x.m_cSStream = {} →
        ((∀ o s', Run (reading b ResultSet.Plain) .main (fetchField h column) s o s' →
          ∃ x', s'.heap h = some x' ∧ Yields column last x s o x'.m_szResult) ↔ x.Paired)) := by
  have hl₀ : Linked none x₀ s₀.lib := by
    refine ⟨hconn, hplain, hused, hheld, fun r hr => ?_, fun r hr => ?_,
      fun i => iff_of_false (by simp) ?_, fun p i y _ hr => ?_⟩
    · cases hnull.symm.trans hr
    · cases hnull.symm.trans hr
    · rintro ⟨p, -, hr⟩
      cases hnull.symm.trans hr
    · cases hnull.symm.trans hr
  obtain ⟨x', hx', hl⟩ := hs.linked ⟨x₀, hx₀, hl₀⟩
  obtain rfl := Option.some.inj (hx.symm.trans hx')
  have hsome : ∃ o s', Run (reading b ResultSet.Plain) .main (fetchField h column) s o s' :=
    IsPlugin.exists_run (M := reading b ResultSet.Plain)
      (fun a s => ⟨trivial, fun _ => rfl, fun _ set hset => by cases hset⟩)
      (fun h => h) (fetchField_looks .main h column) s
  refine ⟨hsome, fun hstream => ⟨fun hall r hrow => ?_, fun hpaired o s' hrun => ?_⟩⟩
  · by_contra hother
    have hlast : last = none := by
      refine Option.eq_none_iff_forall_ne_some.mpr fun i hi => ?_
      obtain ⟨p, hp, hr⟩ := (hl.last i).mp hi
      obtain rfl : r = ⟨p, i⟩ := Option.some.inj (hrow.symm.trans hr)
      exact hother hp
    subst hlast
    obtain ⟨o, s', hrun⟩ := hsome
    obtain ⟨x', -, rfl, -⟩ := hall o s' hrun
    have hstale := (wp_iff _ _ _).mp
      (fetchField_stale (b := b) hx hl.connected hrow (hl.array r hrow) column)
    exact Bool.false_ne_true (hstale.1 _ _ hrun)
  · have hwp := (wp_iff _ _ _).mp (fetchField_yields (b := b) hx hl hstream hpaired column)
    cases o with
    | ok v => exact hwp.1 v s' hrun
    | error e => exact (hwp.2 e s' hrun).elim

/-- Carry out calls one after the other; `mysql_store_result` reads the result set that is given beside
the call. -/
def accessAll (b : Build) (h : HandlerPtr) :
    List (Access × Option ResultSet) → Option Nat → State → Option (Option Nat × State)
  | [], last, s => some (last, s)
  | (c, rows) :: cs, last, s =>
    (s.heap h).bind fun x =>
      ((c.code h).eval (reading b ResultSet.Plain) .main (fun _ _ => { rows }) s).bind fun r =>
        accessAll b h cs (c.after x s.lib last) r.2

lemma reading_admits {b : Build} {P : ResultSet → Prop} {rows : Option ResultSet}
    (hrows : ∀ set ∈ rows, P set) {t : ThreadId} {β : Type} (a : Stmt β) (s : State) :
    (reading b P).admits t a { rows } s :=
  ⟨trivial, fun _ => rfl, fun _ => hrows⟩

lemma accesses_of_accessAll {b : Build} {h : HandlerPtr} {s₀ : State}
    {cs : List (Access × Option ResultSet)} {last last' : Option Nat} {s s' : State}
    (hplain : ∀ c ∈ cs, ∀ set ∈ c.2, set.Plain) (hs : Accesses b h s₀ last s)
    (hcs : accessAll b h cs last s = some (last', s')) : Accesses b h s₀ last' s' := by
  induction cs generalizing last s with
  | nil =>
    cases hcs
    exact hs
  | cons c cs ih =>
    obtain ⟨x, hx, hcs⟩ := Option.bind_eq_some_iff.mp hcs
    obtain ⟨r, hr, hcs⟩ := Option.bind_eq_some_iff.mp hcs
    have hrun := run_of_eval (fun a s => reading_admits (hplain c (by simp)) a s) _ hr
    exact ih (fun c hc => hplain c (List.mem_cons_of_mem _ hc)) (.tail c.1 hs hx hrun) hcs

/-- The handler of `oneRowStored` with its pointers at the row of the result set `0`, and with the last
text. -/
def oneRowHandler (held : ResPtr) (text : CString) : CMySQLHandler :=
  { m_Hostname := [], m_Username := [], m_Password := [], m_Database := [], m_Port := 0
    m_bIsConnected := true, m_dwFields := .set 2, m_szResult := text, m_stConnectionPtr := some 0
    m_stResult := .set (some held), m_stRow := .set (some ⟨0, 0⟩), m_stField := .set (some ⟨0, 0⟩) }

lemma oneRowStored_live {p : ResPtr} {y : StoredResult} (hy : oneRowStored.lib.live p = some y) :
    p = 0 ∧ y = { set := oneRow } := by
  change (Libmysql.newResult {} oneRow).live p = some y at hy
  rw [Libmysql.live_newResult] at hy
  split_ifs at hy with hp
  · exact ⟨hp, (Option.some.inj hy).symm⟩
  · cases hy

/-- The row is fetched, one field of it is read, and then the field that is SQL NULL. -/
theorem field_read_oneRow :
    ∃ s s' x', accessAll .win32 0 [(.retrieve, none), (.field ['i', 'd'], none)] none oneRowStored =
        some (some 0, s) ∧
      Run (reading .win32 ResultSet.Plain) .main (fetchField 0 ['n']) s (.ok true) s' ∧
      s'.heap 0 = some x' ∧ x'.m_szResult = NULL := by
  have hrun : (accessAll .win32 0 [(.retrieve, none), (.field ['i', 'd'], none)] none
      oneRowStored).map (fun r => (r.1, r.2.heap 0, r.2.lib.live 0)) =
    some (some 0, some (oneRowHandler 0 ['1']), some { set := oneRow, next := 1 }) := by rfl
  obtain ⟨⟨last, s⟩, hs, hvalues⟩ := Option.map_eq_some_iff.mp hrun
  simp only [Prod.mk.injEq] at hvalues
  obtain ⟨rfl, hx, hlive⟩ := hvalues
  have hpaired : (oneRowHandler 0 ['1']).Paired := by
    rintro r hr
    cases hr
    rfl
  have hx₀ : oneRowStored.heap 0 = some _ := rfl
  have hread := field_read .win32 hx₀ rfl rfl
    (fun p hp => by cases hp; exact ⟨_, rfl⟩)
    (fun p y hy => by obtain ⟨rfl, -⟩ := oneRowStored_live hy; exact Nat.zero_lt_one)
    (fun p y hy => by obtain ⟨-, rfl⟩ := oneRowStored_live hy; exact oneRow_regular.toPlain)
    (accesses_of_accessAll (by simp) .refl hs) hx ['n']
  obtain ⟨⟨o, s', hrun'⟩, hall⟩ := hread
  obtain ⟨x', hx', rfl, p, y, row, hp, hy, hrow, htext, -⟩ := (hall rfl).mpr hpaired o s' hrun'
  obtain rfl : 0 = p := Option.some.inj hp
  obtain rfl := Option.some.inj (hlive.symm.trans hy)
  obtain rfl : [some ['1'], none] = row := Option.some.inj hrow
  exact ⟨s, s', x', hs, hrun', hx', htext⟩

/-- A row is fetched and a new result set is stored, from which no row has been fetched yet:
`FetchField` reads the row of the old one. -/
theorem field_stale :
    ¬ ∀ (b : Build) (h : HandlerPtr) (s₀ s : State) (x₀ x : CMySQLHandler) (last : Option Nat),
      s₀.heap h = some x₀ → x₀.m_bIsConnected = true → x₀.row = none →
      (∀ p, x₀.result = some p → ∃ y, s₀.lib.live p = some y) →
      (∀ p y, s₀.lib.live p = some y → p < s₀.lib.nextRes) →
      (∀ p y, s₀.lib.live p = some y → y.set.Plain) → Accesses b h s₀ last s →
      s.heap h = some x → ∀ column o s',
        Run (reading b ResultSet.Plain) .main (fetchField h column) s o s' →
        ∃ x', s'.heap h = some x' ∧ Yields column last x s o x'.m_szResult := by
  intro hall
  have hrun : (accessAll .win32 0 [(.retrieve, none), (.store, some oneRow)] none oneRowStored).bind
      (fun r => ((fetchField 0 ['i', 'd']).eval (reading .win32 ResultSet.Plain) .main (fun _ _ => {})
        r.2).map fun r' => (r.1, r.2.heap 0, r'.1, (r'.2.heap 0).map CMySQLHandler.m_szResult)) =
    some (none, some (oneRowHandler 1 []), true, some ['1']) := by rfl
  obtain ⟨⟨last, s⟩, hs, hrun⟩ := Option.bind_eq_some_iff.mp hrun
  obtain ⟨⟨v, s'⟩, hfield, hvalues⟩ := Option.map_eq_some_iff.mp hrun
  simp only [Prod.mk.injEq] at hvalues
  obtain ⟨rfl, hx, rfl, -⟩ := hvalues
  obtain ⟨x', -, hfalse, -⟩ :=
    hall .win32 0 oneRowStored s _ _ _ rfl rfl rfl
      (fun p hp => by cases hp; exact ⟨_, rfl⟩)
      (fun p y hy => by obtain ⟨rfl, -⟩ := oneRowStored_live hy; exact Nat.zero_lt_one)
      (fun p y hy => by obtain ⟨-, rfl⟩ := oneRowStored_live hy; exact oneRow_regular.toPlain)
      (accesses_of_accessAll (by simpa using oneRow_regular.toPlain) .refl hs) hx ['i', 'd'] _ s'
      (run_of_eval (fun a s => reading_admits (by simp) a s) _ hfield)
  cases hfalse

end MySQLPlugin
