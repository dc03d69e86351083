import MySQLPlugin.Logic.Views
import MySQLPlugin.Results.Stream

/-!
# Rows and fields of a stored result

What `FetchRow`, `RetrieveRow` and `FetchField` return and leave behind, as functions of the object,
of the result set that its pointers lead to, and of the text that the stream holds.
-/

namespace MySQLPlugin

open Threads Prog CMySQLHandler

/-! ### The object after a fetch -/

/-- The object that has gone to the row `r` of the result `y` at `p`, or past the last one. -/
def CMySQLHandler.atRow (x : CMySQLHandler) (p : ResPtr) (y : StoredResult) (r : Option RowPtr) :
    CMySQLHandler :=
  { x with m_dwFields := .set (BitVec.ofNat 32 y.set.fields.length)
           m_stField := .set (some ⟨p, 0⟩)
           m_stRow := .set r }

/-- What `FetchRow` returns for the values of a row, and the object afterwards. -/
def CMySQLHandler.takeText (x : CMySQLHandler) (row : List (Option CString)) :
    CString × CMySQLHandler :=
  let r := (rowStream x.Delimiter row x.m_cSStream).read x.m_szResult
  if r.1.isEmpty then (NULL, { x with m_cSStream := r.2, m_szResult := r.1 })
  else (r.1.dropLast, { x with m_cSStream := r.2.clear, m_szResult := r.1.dropLast })

/-- Only the stream and the text change. -/
lemma CMySQLHandler.takeText_snd (x : CMySQLHandler) (row : List (Option CString)) :
    ∃ st a, (x.takeText row).2 = { x with m_cSStream := st, m_szResult := a } := by
  rw [takeText]
  split_ifs
  · exact ⟨_, _, rfl⟩
  · exact ⟨_, _, rfl⟩

/-- The object after the text of a field has been found, or none. -/
def CMySQLHandler.insertText (x : CMySQLHandler) (text : Option CString) : CMySQLHandler :=
  { x with m_cSStream := text.elim x.m_cSStream x.m_cSStream.insert }

/-- The object after `FetchField` has read back the text that it has found. -/
def CMySQLHandler.takeField (x : CMySQLHandler) (text : Option CString) : CMySQLHandler :=
  let r := (x.insertText text).m_cSStream.read x.m_szResult
  { x with m_cSStream := r.2.clear, m_szResult := r.1 }

/-- The row that the next `mysql_fetch_row` finds. -/
def StoredResult.nextRow (y : StoredResult) : Option (List (Option CString)) := y.set.rows[y.next]?

/-- The result after `mysql_fetch_row`. -/
def StoredResult.fetched (y : StoredResult) : StoredResult :=
  if y.next < y.set.rows.length then { y with next := y.next + 1 } else y

/-- The pointer that `mysql_fetch_row` returns. -/
def StoredResult.rowPtr (y : StoredResult) (p : ResPtr) : Option RowPtr :=
  if y.next < y.set.rows.length then some ⟨p, y.next⟩ else none

/-- The text that the pointers find for the column among the positions of the list. -/
def Libmysql.fieldText (l : Libmysql) (f : Option FieldPtr) (r : Option RowPtr) (column : CString) :
    List Nat → Option CString
  | [] => none
  | i :: is =>
    if l.nameAt f i = some column then (l.valueAt r i).map valueText else l.fieldText f r column is

namespace Libmysql

variable {l : Libmysql} {p q : ResPtr} {y : StoredResult}

lemma freed_of_live (hy : l.live p = some y) : y.freed = false := by
  obtain ⟨-, hfreed⟩ := Option.filter_eq_some_iff.mp hy
  simpa using hfreed

/-- After a fetch the result is one row further, and the others are as they were. -/
lemma live_fetch_row (hy : l.live p = some y) (q : ResPtr) :
    (l.onResult p y .mysql_fetch_row).2.live q = if q = p then some y.fetched else l.live q := by
  rw [onResult, StoredResult.fetched]
  split_ifs with hlt hq hq
  · rw [live_setResult, if_pos hq, freed_of_live hy]
    rfl
  · rw [live_setResult, if_neg hq]
  · rw [hq]
    exact hy
  · rfl

lemma onResult_fetch_row : (l.onResult p y .mysql_fetch_row).1 = y.rowPtr p := by
  rw [onResult, StoredResult.rowPtr]
  split_ifs <;> rfl

@[simp] lemma onResult_fetch_row_conn : (l.onResult p y .mysql_fetch_row).2.conn = l.conn := by
  rw [onResult]
  split_ifs <;> rfl

end Libmysql

/-! ### Programs -/

section

variable {M : Machine Stmt Fault State ThreadId Reply} {b : Build} [IsPlugin M b] {t : ThreadId}
  {E : Fault → State → Prop} {h : HandlerPtr} {x : CMySQLHandler} {l : Libmysql} {w : List Event}
  {s : State} {p : ResPtr} {y : StoredResult}

include b

lemma Sees.nextRow {α : Type} {Q : α → State → Prop} {k : Option RowPtr → Code α}
    (hs : Sees h x l w s) (hres : x.m_stResult = .set (some p)) (hlive : l.live p = some y)
    (hk : ∀ s', Sees h (x.atRow p y (y.rowPtr p)) (l.onResult p y .mysql_fetch_row).2 w s' →
      (k (y.rowPtr p)).wp M t E Q s') :
    (CMySQLHandler.nextRow h >>= k).wp M t E Q s := by
  have hdead {e : Fault} {s' : State} (hnone : (some p).bind l.live = none) : E e s' := by
    rw [Option.bind_some, hlive] at hnone
    cases hnone
  simp only [CMySQLHandler.nextRow, bind_bind]
  refine hs.wp_loadSet hres (hs.wp_onResult (fun hn _ _ => hdead hn) fun q y' s₁ hq hy' hs₁ => ?_)
  obtain rfl := Option.some.inj hq
  obtain rfl : y = y' := Option.some.inj (hlive.symm.trans hy')
  refine hs₁.wp_assign rfl fun s₂ hs₂ => ?_
  refine hs₂.wp_loadSet hres (hs₂.wp_onResult (fun hn _ _ => hdead hn) fun q y' s₃ hq hy' hs₃ => ?_)
  obtain rfl := Option.some.inj hq
  refine hs₃.wp_assign rfl fun s₄ hs₄ => ?_
  refine hs₄.wp_loadSet hres (hs₄.wp_onResult (fun hn _ _ => hdead hn) fun q y' s₅ hq hy' hs₅ => ?_)
  obtain rfl := Option.some.inj hq
  obtain rfl : y = y' := Option.some.inj (hlive.symm.trans hy')
  refine hs₅.wp_assign rfl fun s₆ hs₆ => ?_
  rw [Libmysql.onResult_fetch_row] at hs₆ ⊢
  exact hk s₆ hs₆

lemma Sees.insertValue {r : Option RowPtr} {i : Nat} {v : Option CString} {Q : Unit → State → Prop}
    (hs : Sees h x l w s) (hr : x.m_stRow = .set r) (hv : l.valueAt r i = some v)
    (hQ : ∀ s', Sees h { x with m_cSStream := x.m_cSStream.insert (valueText v) } l w s' → Q () s') :
    (CMySQLHandler.insertValue h i).wp M t E Q s := by
  refine hs.wp_loadSet hr (hs.wp_rowValue (fun hn => ?_) fun v' hv' => ?_)
  · cases hv.symm.trans hn
  · obtain rfl : v = v' := Option.some.inj (hv.symm.trans hv')
    rw [← bind_ret_right (assign h _)]
    exact hs.wp_assign rfl hQ

/-- The loop over the columns writes the values of the row, each with the delimiter behind it. -/
lemma Sees.insertRow {r : Option RowPtr} {row : List (Option CString)} {Q : Unit → State → Prop}
    (hs : Sees h x l w s) (hr : x.m_stRow = .set r)
    (hrow : ∀ i v, row[i]? = some v → l.valueAt r i = some v)
    (hQ : ∀ s', Sees h { x with m_cSStream := rowStream x.Delimiter row x.m_cSStream } l w s' →
      Q () s') :
    (Prog.forEach (List.range row.length) fun i => do
      CMySQLHandler.insertValue h i
      assign h (.m_cSStream_insert (← this h).Delimiter)).wp M t E Q s := by
  have hloop := wp_forEach_prefix (M := M) (t := t) (E := E) (l := List.range row.length)
    (f := fun i => do
      CMySQLHandler.insertValue h i
      assign h (.m_cSStream_insert (← this h).Delimiter))
    (I := fun ys s' => Sees h
      { x with m_cSStream := rowStream x.Delimiter (row.take ys.length) x.m_cSStream } l w s')
    (fun ys i s₁ hys hs₁ => ?_) (s := s) ?_
  · refine wp_mono hloop fun _ s' hs' => hQ s' ?_
    simpa using hs'
  · obtain ⟨zs, hzs⟩ := hys
    have hi : (List.range row.length)[ys.length]? = some i := by
      rw [← hzs, List.append_assoc, List.getElem?_append_right (le_refl _)]
      simp
    obtain ⟨hlt, hi⟩ := List.getElem?_eq_some_iff.mp hi
    rw [List.length_range] at hlt
    obtain rfl : ys.length = i := by simpa using hi
    have hv := List.getElem?_eq_getElem hlt
    rw [wp_bind]
    refine hs₁.insertValue hr (hrow _ _ hv) fun s₂ hs₂ => hs₂.wp_this ?_
    rw [← bind_ret_right (assign h _)]
    refine hs₂.wp_assign rfl fun s₃ hs₃ => ?_
    rw [List.length_append, List.length_singleton, List.take_add_one, hv, Option.toList_some,
      rowStream_append]
    exact hs₃
  · simpa [rowStream] using hs

/-- The text of the fetched row. -/
lemma Sees.rowText {n : BitVec 32} {r : Option RowPtr} {row : List (Option CString)}
    {Q : CString → State → Prop} (hs : Sees h x l w s) (hn : x.m_dwFields = .set n)
    (hr : x.m_stRow = .set r) (hlen : n.toNat = row.length)
    (hrow : ∀ i v, row[i]? = some v → l.valueAt r i = some v)
    (hQ : ∀ s', Sees h (x.takeText row).2 l w s' → Q (x.takeText row).1 s') :
    (CMySQLHandler.rowText h).wp M t E Q s := by
  refine hs.wp_loadSet hn ?_
  rw [hlen, wp_bind]
  refine hs.insertRow hr hrow fun s₁ hs₁ => ?_
  refine hs₁.wp_assign rfl fun s₂ hs₂ => hs₂.wp_assign rfl fun s₃ hs₃ => hs₃.wp_this ?_
  rw [wp_ite]
  split_ifs with hempty
  · have htext : x.takeText row = (NULL, _) := if_pos hempty
    rw [htext] at hQ
    exact hQ s₃ hs₃
  · have htext : x.takeText row = (_, _) := if_neg hempty
    rw [htext] at hQ
    refine hs₃.wp_assign rfl fun s₄ hs₄ => hs₄.wp_this ?_
    refine hs₄.wp_assign rfl fun s₅ hs₅ => hs₅.wp_this ?_
    exact hQ s₅ hs₅

/-- `FetchRow` for a result that has another row. -/
lemma Sees.fetchRow_row {row : List (Option CString)} {Q : CString → State → Prop}
    (hs : Sees h x l w s) (hconn : x.m_bIsConnected = true) (hres : x.m_stResult = .set (some p))
    (hlive : l.live p = some y) (hlen : (BitVec.ofNat 32 y.set.fields.length).toNat = row.length)
    (hrow : y.nextRow = some row)
    (hQ : ∀ s', Sees h ((x.atRow p y (some ⟨p, y.next⟩)).takeText row).2
      (l.onResult p y .mysql_fetch_row).2 w s' →
      Q ((x.atRow p y (some ⟨p, y.next⟩)).takeText row).1 s') :
    (fetchRow h).wp M t E Q s := by
  have hlt : y.next < y.set.rows.length := (List.getElem?_eq_some_iff.mp hrow).1
  have hptr : y.rowPtr p = some ⟨p, y.next⟩ := if_pos hlt
  refine hs.wp_this ?_
  rw [hconn, Bool.not_true, if_neg Bool.false_ne_true]
  refine hs.wp_loadSet hres ?_
  rw [if_neg (by simp)]
  refine hs.nextRow hres hlive fun s₁ hs₁ => ?_
  rw [hptr] at hs₁ ⊢
  rw [Option.isSome_some, if_pos rfl]
  refine hs₁.rowText rfl rfl hlen (fun i v hv => ?_) hQ
  have hy := Libmysql.live_fetch_row hlive p
  rw [if_pos rfl, StoredResult.fetched, if_pos hlt] at hy
  have hat : y.set.rows[y.next]? = some row := hrow
  simp [Libmysql.valueAt, hy, hat, hv]

/-- `FetchRow` for a result without another row. -/
lemma Sees.fetchRow_end {Q : CString → State → Prop} (hs : Sees h x l w s)
    (hconn : x.m_bIsConnected = true) (hres : x.m_stResult = .set (some p))
    (hlive : l.live p = some y) (hrow : y.nextRow = none)
    (hE : x.m_stConnectionPtr = none → ∀ e s', E e s')
    (hQ : ∀ e s', Sees h { x.atRow p y none with m_dwError := .set e } l w s' → Q NULL s') :
    (fetchRow h).wp M t E Q s := by
  have hge : ¬ y.next < y.set.rows.length := Nat.not_lt.mpr (List.getElem?_eq_none_iff.mp hrow)
  have hptr : y.rowPtr p = none := if_neg hge
  have hlib : (l.onResult p y .mysql_fetch_row).2 = l := by rw [Libmysql.onResult, if_neg hge]
  refine hs.wp_this ?_
  rw [hconn, Bool.not_true, if_neg Bool.false_ne_true]
  refine hs.wp_loadSet hres ?_
  rw [if_neg (by simp)]
  refine hs.nextRow hres hlive fun s₁ hs₁ => ?_
  rw [hptr, hlib] at hs₁
  rw [hptr, Option.isSome_none, if_neg Bool.false_ne_true]
  refine hs₁.wp_access hE fun c _ s₂ _ hs₂ => hs₂.wp_assign rfl fun s₃ hs₃ => ?_
  rw [wp_ite]
  split_ifs
  · exact hs₃.wp_access hE fun _ _ s₄ _ hs₄ => hQ _ s₄ hs₄
  · exact hQ _ s₃ hs₃

/-- `FetchRow` of a handler that is not connected. -/
lemma Sees.fetchRow_dead {Q : CString → State → Prop} (hs : Sees h x l w s)
    (hconn : x.m_bIsConnected = false) (hQ : Q NULL s) : (fetchRow h).wp M t E Q s := by
  refine hs.wp_this ?_
  rw [hconn, Bool.not_false, if_pos rfl]
  exact hQ

/-- The search for a field. -/
lemma Sees.insertField {f : Option FieldPtr} {r : Option RowPtr} {column : CString}
    {Q : Unit → State → Prop} (is : List Nat) (hs : Sees h x l w s) (hf : x.m_stField = .set f)
    (hr : x.m_stRow = .set r)
    (hE : ∀ i ∈ is, l.nameAt f i = none ∨ l.valueAt r i = none → ∀ e s', E e s')
    (hQ : ∀ s', Sees h (x.insertText (l.fieldText f r column is)) l w s' → Q () s') :
    (CMySQLHandler.insertField h column is).wp M t E Q s := by
  induction is with
  | nil => exact hQ s hs
  | cons i is ih =>
    rw [CMySQLHandler.insertField]
    refine hs.wp_loadSet hf (hs.wp_fieldName (fun hn => hE i (by simp) (.inl hn)) fun v hv => ?_)
    rw [wp_ite]
    split_ifs with hcol
    · refine hs.wp_loadSet hr (hs.wp_rowValue (fun hn => hE i (by simp) (.inr hn)) fun v' hv' => ?_)
      rw [← bind_ret_right (assign h _)]
      refine hs.wp_assign rfl fun s₁ hs₁ => hQ s₁ ?_
      rw [Libmysql.fieldText, if_pos (hcol ▸ hv), hv']
      exact hs₁
    · refine ih (fun j hj => hE j (List.mem_cons_of_mem i hj)) fun s₁ hs₁ => hQ s₁ ?_
      rw [Libmysql.fieldText, if_neg fun hn => hcol (Option.some.inj (hn.symm.trans hv))]
      exact hs₁

/-- What follows the search. -/
lemma Sees.readField {Q : Bool → State → Prop} {text : Option CString}
    (hs : Sees h (x.insertText text) l w s)
    (hQ : ∀ s', Sees h (x.takeField text) l w s' → Q true s') :
    (do
      assign h .m_cSStream_getline
      assign h .m_cSStream_extract
      assign h .m_cSStream_clear
      pure true).wp M t E Q s :=
  hs.wp_assign rfl fun _ hs₁ => hs₁.wp_assign rfl fun _ hs₂ => hs₂.wp_assign rfl fun s₃ hs₃ =>
    hQ s₃ hs₃

/-- `FetchField` of a connected handler with a field array and a row. -/
lemma Sees.fetchField_row {f : FieldPtr} {r : RowPtr} {column : CString} {Q : Bool → State → Prop}
    (hs : Sees h x l w s) (hconn : x.m_bIsConnected = true) (hf : x.m_stField = .set (some f))
    (hr : x.m_stRow = .set (some r))
    (hE : ∀ n, x.m_dwFields = .unset ∨ x.m_dwFields = .set n → ∀ i < n.toNat,
      l.nameAt f i = none ∨ l.valueAt r i = none → ∀ e s', E e s')
    (hQ : ∀ n s', x.m_dwFields = .unset ∨ x.m_dwFields = .set n →
      Sees h (x.takeField (l.fieldText f r column (List.range n.toNat))) l w s' → Q true s') :
    (fetchField h column).wp M t E Q s := by
  refine hs.wp_this ?_
  rw [hconn, Bool.not_true, if_neg Bool.false_ne_true]
  refine hs.wp_loadSet hf ?_
  rw [if_neg (by simp)]
  refine hs.wp_loadSet hr ?_
  rw [if_neg (by simp)]
  refine hs.wp_loadAny fun n s₁ hn hs₁ => ?_
  rw [wp_bind]
  exact hs₁.insertField _ hf hr (fun i hi => hE n hn i (List.mem_range.mp hi)) fun s₂ hs₂ =>
    hs₂.readField fun s₃ => hQ n s₃ hn

/-- Wherever the pointers of the handler lead, the search inserts a value that `m_stRow` leads to, or
nothing. -/
lemma Sees.insertField_texts {R : CString → Prop} {column : CString} (is : List Nat)
    (hs : Sees h x l w s) (hR : ∀ r i v, x.m_stRow = .unset ∨ x.m_stRow = .set r →
      l.valueAt r i = some v → R (valueText v)) :
    (CMySQLHandler.insertField h column is).wp M t (fun _ _ => True)
      (fun _ s' => ∃ text, (∀ a ∈ text, R a) ∧ Sees h (x.insertText text) l w s') s := by
  induction is generalizing s with
  | nil => exact ⟨none, by simp, hs⟩
  | cons i is ih =>
    refine hs.wp_loadAny fun f s₁ _ hs₁ => hs₁.wp_fieldName (fun _ _ _ => trivial) fun name _ => ?_
    rw [wp_ite]
    split_ifs
    · refine hs₁.wp_loadAny fun r s₂ hr hs₂ => hs₂.wp_rowValue (fun _ _ _ => trivial) fun v hv => ?_
      rw [← bind_ret_right (assign h _)]
      refine hs₂.wp_assign rfl fun s₃ hs₃ => ⟨some (valueText v), fun a ha => ?_, hs₃⟩
      obtain rfl := Option.some.inj ha
      exact hR r i v hr hv
    · exact ih hs₁

/-- `FetchField` leaves the handler alone, or reads back what it has inserted. -/
lemma Sees.fetchField_texts {R : CString → Prop} {column : CString} (hs : Sees h x l w s)
    (hR : ∀ r i v, x.m_stRow = .unset ∨ x.m_stRow = .set r → l.valueAt r i = some v →
      R (valueText v)) :
    (fetchField h column).wp M t (fun _ _ => True) (fun _ s' => Sees h x l w s' ∨
      ∃ text, (∀ a ∈ text, R a) ∧ Sees h (x.takeField text) l w s') s := by
  refine hs.wp_this ?_
  rw [wp_ite]
  split_ifs
  · exact .inl hs
  refine hs.wp_loadAny fun f s₁ _ hs₁ => ?_
  rw [wp_ite]
  split_ifs
  · exact .inl hs₁
  refine hs₁.wp_loadAny fun r s₂ _ hs₂ => ?_
  rw [wp_ite]
  split_ifs
  · exact .inl hs₂
  refine hs₂.wp_loadAny fun n s₃ _ hs₃ => ?_
  rw [wp_bind]
  refine wp_mono (hs₃.insertField_texts _ hR) fun _ s₄ ⟨text, htext, hs₄⟩ => ?_
  exact hs₄.readField fun s₅ hs₅ => .inr ⟨text, htext, hs₅⟩

end

end MySQLPlugin
