import MySQLPlugin.Results.Fetch

/-!
# Reading rows and fields

`FetchRow` and `FetchField` share the stream of the handler. As long as no value has a newline, every
call finds it empty and leaves it empty, so that a result set is read as by a cursor that only keeps
its position.
-/

namespace MySQLPlugin

open Threads Prog CMySQLHandler

/-! ### The cursor -/

/-- The value of the first column with that name. -/
def columnValue (fields : List CString) (row : List (Option CString)) (column : CString) :
    Option CString :=
  ((fields.zip row).find? (·.1 = column)).map fun c => valueText c.2

/-- A result set that is read row by row: the position of the next row, and the row that the last
`FetchRow` got. -/
structure Reader where
  set : ResultSet
  next : Nat := 0
  current : Option (List (Option CString)) := none

/-- A delimiter: a single character other than newline. -/
abbrev Delimiter := {d : Char // d ≠ '\n'}

/-- A call of `FetchRow` after the delimiter has been set, or of `FetchField`. -/
inductive Fetch where
  | row (delimiter : Delimiter)
  | field (column : CString)

/-- The call, with the text that it returns or leaves in `m_szResult`. -/
def Fetch.code (h : HandlerPtr) : Fetch → Code CString
  | .row d => do
    assign h (.Delimiter [d.1])
    fetchRow h
  | .field column => do
    let _ ← fetchField h column
    pure (← this h).m_szResult

namespace Reader

/-- The row that the next `FetchRow` gets. -/
def nextRow (rd : Reader) : Option (List (Option CString)) := rd.set.rows[rd.next]?

def after (rd : Reader) : Fetch → Reader
  | .row _ =>
    { rd with next := if rd.next < rd.set.rows.length then rd.next + 1 else rd.next
              current := rd.nextRow }
  | .field _ => rd

/-- The text of the call, if it fetches a row or reads a field of one. -/
def answer (rd : Reader) : Fetch → Option CString
  | .row d => rd.nextRow.map (joined [d.1])
  | .field column => rd.current.map fun row => (columnValue rd.set.fields row column).getD []

end Reader

/-- A result set as libmysql stores it, without newlines. -/
structure ResultSet.Plain (set : ResultSet) : Prop where
  count : set.fields.length < 2 ^ 32
  width : ∀ row ∈ set.rows, row.length = set.fields.length
  lines : ∀ row ∈ set.rows, Lines row

/-- It has at least one column. -/
structure ResultSet.Regular (set : ResultSet) : Prop extends ResultSet.Plain set where
  columns : 0 < set.fields.length

lemma ResultSet.Plain.toNat_count {set : ResultSet} (hset : set.Plain) :
    (BitVec.ofNat 32 set.fields.length).toNat = set.fields.length := by
  rw [BitVec.toNat_ofNat, Nat.mod_eq_of_lt hset.count]

/-- The handler is at the position of the cursor `rd` in the result set at `p`, and its stream is
empty and good. -/
structure Follows (p : ResPtr) (rd : Reader) (x : CMySQLHandler) (l : Libmysql) : Prop where
  connected : x.m_bIsConnected = true
  stream : x.m_cSStream = {}
  result : x.m_stResult = .set (some p)
  live : ∃ y, l.live p = some y ∧ y.set = rd.set ∧ y.next = rd.next
  /-- What `m_stRow` leads to has no newline. -/
  lines : ∀ r i v, x.m_stRow = .unset ∨ x.m_stRow = .set r → l.valueAt r i = some v →
    Line (valueText v)
  current : ∀ row ∈ rd.current, ∃ i, rd.set.rows[i]? = some row ∧ x.m_stRow = .set (some ⟨p, i⟩) ∧
    x.m_stField = .set (some ⟨p, 0⟩) ∧ x.m_dwFields = .set (BitVec.ofNat 32 rd.set.fields.length)

/-! ### Texts -/

section

variable {x : CMySQLHandler}

/-- A row without newlines goes through the empty stream as it is. -/
lemma takeText_line {d : Char} {row : List (Option CString)} (hstream : x.m_cSStream = {})
    (hdelim : x.Delimiter = [d]) (hd : d ≠ '\n') (hlines : Lines row) (hrow : row ≠ []) :
    x.takeText row =
      (joined [d] row, { x with m_cSStream := {}, m_szResult := joined [d] row }) := by
  have hline : Line (rowLine [d] row) := hlines.rowLine (by simpa [Line] using hd.symm)
  have hread : (rowStream x.Delimiter row x.m_cSStream).read x.m_szResult =
      (rowLine [d] row, { unread := [], eof := true, failed := true }) := by
    rw [hstream, hdelim, rowStream_of_good rfl]
    exact StringStream.read_line rfl hline _
  have hne : rowLine [d] row ≠ [] := by
    cases row with
    | nil => exact absurd rfl hrow
    | cons v row => simp [rowLine]
  rw [CMySQLHandler.takeText, hread]
  simp only [List.isEmpty_eq_false_iff.mpr hne, Bool.false_eq_true, if_false, dropLast_rowLine d hrow]
  rfl

/-- The text of a field without newlines goes through the empty stream as it is. -/
lemma takeField_line {text : Option CString} (hstream : x.m_cSStream = {})
    (hline : ∀ a ∈ text, Line a) :
    x.takeField text = { x with m_cSStream := {}, m_szResult := text.getD [] } := by
  have hinsert : (x.insertText text).m_cSStream = { unread := text.getD [] } := by
    rw [CMySQLHandler.insertText, hstream]
    cases text <;> rfl
  have hread : (x.insertText text).m_cSStream.read x.m_szResult =
      (text.getD [], { unread := [], eof := true, failed := true }) := by
    rw [hinsert]
    refine StringStream.read_line rfl ?_ _
    cases text with
    | none => exact Line.nil
    | some a => exact hline a rfl
  rw [CMySQLHandler.takeField, hread]
  rfl

end

section

variable {l : Libmysql} {f : Option FieldPtr} {r : Option RowPtr} {column : CString}

/-- The search over the columns finds the first one with that name. -/
lemma fieldText_range' (column : CString) {fields : List CString} {row : List (Option CString)} {k : Nat}
    (hname : ∀ i, l.nameAt f (k + i) = fields[i]?) (hvalue : ∀ i, l.valueAt r (k + i) = row[i]?)
    (hlen : row.length = fields.length) :
    l.fieldText f r column (List.range' k fields.length) = columnValue fields row column := by
  induction fields generalizing row k with
  | nil => rfl
  | cons name fields ih =>
    cases row with
    | nil => cases hlen
    | cons v row =>
      have hname₀ : l.nameAt f k = some name := hname 0
      have hvalue₀ : l.valueAt r k = some v := hvalue 0
      rw [List.length_cons, List.range'_succ, Libmysql.fieldText, hname₀, hvalue₀, columnValue,
        List.zip_cons_cons, List.find?_cons]
      by_cases hcol : name = column
      · simp [hcol]
      · have hcol' : some name ≠ some column := fun h => hcol (Option.some.inj h)
        rw [if_neg hcol', ih (fun i => ?_) (fun i => ?_) (Nat.succ.inj hlen)]
        · simp [hcol, columnValue]
        · rw [Nat.add_assoc, Nat.add_comm 1, hname, List.getElem?_cons_succ]
        · rw [Nat.add_assoc, Nat.add_comm 1, hvalue, List.getElem?_cons_succ]

lemma fieldText_line (hline : ∀ i v, l.valueAt r i = some v → Line (valueText v)) (is : List Nat) :
    ∀ a ∈ l.fieldText f r column is, Line a := by
  induction is with
  | nil => simp [Libmysql.fieldText]
  | cons i is ih =>
    rw [Libmysql.fieldText]
    split_ifs
    · intro a ha
      obtain ⟨v, hv, rfl⟩ := Option.map_eq_some_iff.mp ha
      exact hline i v hv
    · exact ih

end

/-- A value that a pointer reads is one of a row of a result set that is alive. -/
lemma mem_of_valueAt {l : Libmysql} {r : RowPtr} {i : Nat} {v : Option CString}
    (hv : l.valueAt (some r) i = some v) :
    ∃ y row, l.live r.result = some y ∧ row ∈ y.set.rows ∧ v ∈ row := by
  rw [Libmysql.valueAt, Option.bind_some] at hv
  obtain ⟨y, hy, hv⟩ := Option.bind_eq_some_iff.mp hv
  obtain ⟨row, hrow, hv⟩ := Option.bind_eq_some_iff.mp hv
  exact ⟨y, row, hy, List.mem_of_getElem? hrow, List.mem_of_getElem? hv⟩

/-! ### Calls -/

section

variable {M : Machine Stmt Fault State ThreadId Reply} {b : Build} [IsPlugin M b] {t : ThreadId}
  {h : HandlerPtr} {x : CMySQLHandler} {l : Libmysql} {w : List Event} {s : State} {p : ResPtr}
  {rd : Reader}

/-- The handler follows the cursor in the state `s`. -/
def FollowsAt (h : HandlerPtr) (p : ResPtr) (rd : Reader) (s : State) : Prop :=
  ∃ x, s.heap h = some x ∧ Follows p rd x s.lib

lemma Sees.follows (hs : Sees h x l w s) (hf : Follows p rd x l) : FollowsAt h p rd s :=
  ⟨x, hs.heap, hs.lib ▸ hf⟩

include b

/-- A row that `FetchRow` gets. -/
lemma fetchRow_follows {E : Fault → State → Prop} (hreg : rd.set.Regular) (hs : Sees h x l w s)
    (hf : Follows p rd x l) (d : Delimiter) {row : List (Option CString)}
    (hrow : rd.nextRow = some row) :
    ((Fetch.row d).code h).wp M t E
      (fun text s' => text = joined [d.1] row ∧ FollowsAt h p (rd.after (.row d)) s') s := by
  obtain ⟨y, hlive, hset, hnext⟩ := hf.live
  have hmem : row ∈ rd.set.rows := List.mem_of_getElem? hrow
  have hlt : rd.next < rd.set.rows.length := (List.getElem?_eq_some_iff.mp hrow).1
  have hwidth : (BitVec.ofNat 32 y.set.fields.length).toNat = row.length := by
    rw [hset, hreg.width row hmem, hreg.toNat_count]
  have hne : row ≠ [] := by
    rintro rfl
    have hwidth : 0 = rd.set.fields.length := hreg.width [] hmem
    exact Nat.lt_irrefl 0 (hwidth ▸ hreg.columns)
  refine hs.wp_assign rfl fun s₁ hs₁ => ?_
  refine hs₁.fetchRow_row hf.connected hf.result hlive hwidth
    (by rw [StoredResult.nextRow, hset, hnext]; exact hrow) fun s₂ hs₂ => ?_
  have htake := takeText_line (x := (Assign.apply (.Delimiter [d.1]) x).atRow p y (some ⟨p, y.next⟩))
    (d := d.1) hf.stream rfl d.2 (hreg.lines row hmem) hne
  rw [htake] at hs₂ ⊢
  refine ⟨rfl, hs₂.follows ?_⟩
  have hat := Libmysql.live_fetch_row hlive p
  rw [if_pos rfl, StoredResult.fetched, hset, hnext, if_pos hlt] at hat
  refine ⟨hf.connected, rfl, hf.result, ⟨_, hat, rfl, ?_⟩, fun r i v hr hv => ?_, fun row' hrow' => ?_⟩
  · exact (if_pos hlt).symm
  · obtain rfl : some ⟨p, y.next⟩ = r := by simpa [CMySQLHandler.atRow] using hr
    obtain ⟨y', row', hy', hrow', hv⟩ := mem_of_valueAt hv
    obtain rfl := Option.some.inj (hat.symm.trans hy')
    exact hreg.lines row' hrow' v hv
  · obtain rfl : row = row' := Option.some.inj (hrow.symm.trans hrow')
    refine ⟨y.next, hnext ▸ hrow, rfl, rfl, ?_⟩
    change Slot.set (BitVec.ofNat 32 y.set.fields.length) = _
    rw [hset]
    rfl

/-- `FetchRow` after the last row. -/
lemma fetchRow_end_follows (hs : Sees h x l w s) (hf : Follows p rd x l) (d : Delimiter)
    (hrow : rd.nextRow = none) :
    ((Fetch.row d).code h).wp M t (fun _ _ => True)
      (fun _ s' => FollowsAt h p (rd.after (.row d)) s') s := by
  obtain ⟨y, hlive, hset, hnext⟩ := hf.live
  have hge : ¬ rd.next < rd.set.rows.length := Nat.not_lt.mpr (List.getElem?_eq_none_iff.mp hrow)
  refine hs.wp_assign rfl fun s₁ hs₁ => ?_
  refine hs₁.fetchRow_end hf.connected hf.result hlive
    (by rw [StoredResult.nextRow, hset, hnext]; exact hrow) (fun _ _ _ => trivial) fun e s₂ hs₂ => ?_
  refine hs₂.follows ⟨hf.connected, hf.stream, hf.result, ⟨y, hlive, hset, ?_⟩, fun r i v hr hv => ?_,
    fun row' hrow' => ?_⟩
  · rw [hnext]
    exact (if_neg hge).symm
  · obtain rfl : none = r := by simpa [CMySQLHandler.atRow] using hr
    cases hv
  · cases hrow.symm.trans hrow'

/-- `FetchField` with the pointers to a row and to the field array of one result set. -/
lemma Sees.fetchField_plain {E : Fault → State → Prop} {Q : Bool → State → Prop} {y : StoredResult}
    {row : List (Option CString)} {i : Nat} {column : CString} (hs : Sees h x l w s)
    (hconn : x.m_bIsConnected = true) (hstream : x.m_cSStream = {}) (hlive : l.live p = some y)
    (hset : y.set.Plain) (hrow : y.set.rows[i]? = some row) (hptr : x.m_stRow = .set (some ⟨p, i⟩))
    (hfield : x.m_stField = .set (some ⟨p, 0⟩))
    (hfields : x.m_dwFields = .set (BitVec.ofNat 32 y.set.fields.length))
    (hQ : ∀ s', Sees h { x with
        m_cSStream := {}
        m_szResult := (columnValue y.set.fields row column).getD [] } l w s' → Q true s') :
    (fetchField h column).wp M t E Q s := by
  have hmem : row ∈ y.set.rows := List.mem_of_getElem? hrow
  have hname (j : Nat) : l.nameAt (some ⟨p, 0⟩) (0 + j) = y.set.fields[j]? := by
    simp [Libmysql.nameAt, hlive]
  have hvalue (j : Nat) : l.valueAt (some ⟨p, i⟩) (0 + j) = row[j]? := by
    simp [Libmysql.valueAt, hlive, hrow]
  have htext := fieldText_range' column hname hvalue (hset.width row hmem)
  rw [← List.range_eq_range'] at htext
  have hcount {n : BitVec 32} (hn : x.m_dwFields = .unset ∨ x.m_dwFields = .set n) :
      n.toNat = y.set.fields.length := by
    obtain rfl : BitVec.ofNat 32 y.set.fields.length = n := by simpa [hfields] using hn
    exact hset.toNat_count
  refine hs.fetchField_row hconn hfield hptr (fun n hn j hj hnone => ?_) fun n s₁ hn hs₁ => hQ s₁ ?_
  · rw [hcount hn] at hj
    rw [← Nat.zero_add j, hname, hvalue, List.getElem?_eq_none_iff, List.getElem?_eq_none_iff,
      hset.width row hmem, or_self, ← not_lt] at hnone
    exact absurd hj hnone
  · rw [hcount hn, htext, takeField_line hstream] at hs₁
    · exact hs₁
    · rw [← htext]
      refine fieldText_line (fun j v hv => ?_) _
      rw [← Nat.zero_add j, hvalue] at hv
      exact hset.lines row hmem v (List.mem_of_getElem? hv)

/-- `FetchField` for the row that the last `FetchRow` got. -/
lemma fetchField_follows {E : Fault → State → Prop} (hreg : rd.set.Regular) (hs : Sees h x l w s)
    (hf : Follows p rd x l) (column : CString) {row : List (Option CString)}
    (hrow : rd.current = some row) :
    ((Fetch.field column).code h).wp M t E
      (fun text s' => text = (columnValue rd.set.fields row column).getD [] ∧ FollowsAt h p rd s')
      s := by
  obtain ⟨y, hlive, hset, hnext⟩ := hf.live
  obtain ⟨i, hi, hptr, hfield, hfields⟩ := hf.current row hrow
  rw [← hset] at hreg hi hfields
  change (fetchField h column >>= _).wp M t E _ s
  rw [wp_bind]
  refine hs.fetchField_plain hf.connected hf.stream hlive hreg.toPlain hi hptr hfield hfields
    fun s₁ hs₁ => hs₁.wp_this ⟨by rw [hset], hs₁.follows ?_⟩
  exact ⟨hf.connected, rfl, hf.result, hf.live, hf.lines, hf.current⟩

/-- `FetchField` before the first row: whatever it reads, the stream is empty and good again. -/
lemma fetchField_lines (hs : Sees h x l w s) (hf : Follows p rd x l) (column : CString)
    (hrow : rd.current = none) :
    ((Fetch.field column).code h).wp M t (fun _ _ => True) (fun _ s' => FollowsAt h p rd s') s := by
  have hkeep (y : CMySQLHandler) {s' : State} (hs' : Sees h y l w s')
      (hy : ∃ a, y = { x with m_cSStream := {}, m_szResult := a }) :
      (this h >>= fun y => pure y.m_szResult).wp M t (fun _ _ => True)
        (fun _ s' => FollowsAt h p rd s') s' := by
    obtain ⟨a, rfl⟩ := hy
    refine hs'.wp_this (hs'.follows ⟨hf.connected, rfl, hf.result, hf.live, hf.lines, fun row hr => ?_⟩)
    cases hrow.symm.trans hr
  change (fetchField h column >>= _).wp M t _ _ s
  rw [wp_bind]
  refine wp_mono (hs.fetchField_texts (R := Line) hf.lines) fun _ s₁ hs₁ => ?_
  rcases hs₁ with hs₁ | ⟨text, hline, hs₁⟩
  · exact hkeep _ hs₁ ⟨x.m_szResult, by rw [← hf.stream]⟩
  · exact hkeep _ hs₁ ⟨_, takeField_line hf.stream hline⟩

end

/-! ### Sequences of calls -/

/-- Calls one after the other, beside the cursor that they move. -/
inductive Session (b : Build) (h : HandlerPtr) (rd₀ : Reader) (s₀ : State) : Reader → State → Prop
  | refl : Session b h rd₀ s₀ rd₀ s₀
  | tail {rd : Reader} {s s' : State} {f : Fetch} {text : CString} : Session b h rd₀ s₀ rd s →
      Run (plugin b) .main (f.code h) s (.ok text) s' → Session b h rd₀ s₀ (rd.after f) s'

section

variable {b : Build} {h : HandlerPtr} {p : ResPtr} {rd : Reader} {s : State}

/-- A call gives the answer of the cursor, if it has one, and follows it. -/
lemma FollowsAt.call (hreg : rd.set.Regular) (hf : FollowsAt h p rd s) (f : Fetch) :
    (f.code h).wp (plugin b) .main (fun _ _ => rd.answer f = none)
      (fun text s' => (∀ a ∈ rd.answer f, text = a) ∧ FollowsAt h p (rd.after f) s') s := by
  obtain ⟨x, hx, hf⟩ := hf
  have hs := Sees.refl hx
  cases f with
  | row d =>
    cases hrow : rd.nextRow with
    | some row =>
      refine wp_mono (fetchRow_follows hreg hs hf d hrow) fun text s' hs' => ⟨fun a ha => ?_, hs'.2⟩
      rw [Reader.answer, hrow] at ha
      exact hs'.1.trans (Option.some.inj ha)
    | none =>
      have hnone : rd.answer (.row d) = none := by rw [Reader.answer, hrow, Option.map_none]
      simp only [hnone, Option.mem_def, reduceCtorEq, false_implies, implies_true, true_and]
      exact fetchRow_end_follows hs hf d hrow
  | field column =>
    cases hrow : rd.current with
    | some row =>
      refine wp_mono (fetchField_follows hreg hs hf column hrow) fun text s' hs' =>
        ⟨fun a ha => ?_, hs'.2⟩
      rw [Reader.answer, hrow] at ha
      exact hs'.1.trans (Option.some.inj ha)
    | none =>
      have hnone : rd.answer (.field column) = none := by rw [Reader.answer, hrow, Option.map_none]
      simp only [hnone, Option.mem_def, reduceCtorEq, false_implies, implies_true, true_and]
      exact fetchField_lines hs hf column hrow

lemma Fetch.code_looks (f : Fetch) : (f.code h).All (Stmt.Only .main Event.Looks) := by
  cases f with
  | row d =>
    rw [Fetch.code, assign, all_lift_bind]
    exact ⟨trivial, fun _ => fetchRow_looks .main h⟩
  | field column =>
    exact (fetchField_looks .main h column).bind fun _ => ⟨trivial, fun _ => trivial⟩

lemma Session.follows {rd₀ : Reader} {s₀ : State} (hreg : rd₀.set.Regular)
    (hf : FollowsAt h p rd₀ s₀) (hsession : Session b h rd₀ s₀ rd s) :
    rd.set.Regular ∧ FollowsAt h p rd s := by
  induction hsession with
  | refl => exact ⟨hreg, hf⟩
  | tail _ hrun ih =>
    rename_i rd s s' f text _
    obtain ⟨hreg, hf⟩ := ih
    refine ⟨?_, (((wp_iff _ _ _).mp (hf.call hreg f)).1 _ _ hrun).2⟩
    cases f <;> exact hreg

end

/-- In every sequence of calls of `FetchRow` and `FetchField` over a result set without newlines the
stream is empty and good after each call. A `FetchRow` that gets a row returns the values of this row
joined by the delimiter, and a `FetchField` after it finds the value of the first column with its
name. -/
theorem rows_read (b : Build) {h : HandlerPtr} {s₀ s : State} {x : CMySQLHandler} {p : ResPtr}
    {y : StoredResult} {rd : Reader} (hx : s₀.heap h = some x) (hconn : x.m_bIsConnected = true)
    (hstream : x.m_cSStream = {}) (hres : x.m_stResult = .set (some p))
    (hlive : s₀.lib.live p = some y) (hreg : y.set.Regular)
    (hlines : ∀ r i v, x.m_stRow = .unset ∨ x.m_stRow = .set r → s₀.lib.valueAt r i = some v →
      Line (valueText v))
    (hsession : Session b h { set := y.set, next := y.next } s₀ rd s) :
    (∃ x', s.heap h = some x' ∧ x'.m_cSStream = {}) ∧ ∀ f a, rd.answer f = some a →
      (∃ s', Run (plugin b) .main (f.code h) s (.ok a) s') ∧
        ∀ o s', Run (plugin b) .main (f.code h) s o s' → o = .ok a := by
  have hfollows : FollowsAt h p { set := y.set, next := y.next } s₀ :=
    ⟨x, hx, hconn, hstream, hres, ⟨y, hlive, rfl, rfl⟩, hlines, fun row hrow => by cases hrow⟩
  obtain ⟨hreg, hf⟩ := hsession.follows hreg hfollows
  refine ⟨?_, fun f a ha => ?_⟩
  · obtain ⟨x', hx', hf'⟩ := hf
    exact ⟨x', hx', hf'.stream⟩
  have hwp := (wp_iff _ _ _).mp (hf.call (b := b) hreg f)
  have hall (o : Except Fault CString) (s' : State)
      (hrun : Run (plugin b) .main (f.code h) s o s') : o = .ok a := by
    cases o with
    | ok text => rw [(hwp.1 text s' hrun).1 a ha]
    | error e => cases ha.symm.trans (hwp.2 e s' hrun)
  obtain ⟨o, s', hrun⟩ :=
    IsPlugin.exists_run (M := plugin b) (fun _ _ => trivial) (fun h => h) (f.code_looks (h := h)) s
  exact ⟨⟨s', hall o s' hrun ▸ hrun⟩, hall⟩

/-- A result set with two columns and one row. -/
def oneRow : ResultSet := { fields := [['i', 'd'], ['n']], rows := [[some ['1'], none]] }

lemma oneRow_regular : oneRow.Regular where
  columns := by decide
  count := by decide
  width := by decide
  lines := by simp [oneRow, Lines, Line, valueText, NULL]

/-- A connected handler that has stored it. -/
def oneRowStored : State where
  heap := Function.update (fun _ => none) 0 (some
    { m_Hostname := [], m_Username := [], m_Password := [], m_Database := [], m_Port := 0
      m_bIsConnected := true, m_stConnectionPtr := some 0, m_stResult := .set (some 0)
      m_stRow := .set none })
  lib := ({} : Libmysql).newResult oneRow

/-- The row is fetched, and then the field that is SQL NULL. -/
theorem rows_read_oneRow :
    ∃ s₁ s₂, Run (plugin .win32) .main ((Fetch.row ⟨';', by decide⟩).code 0) oneRowStored
        (.ok (['1', ';'] ++ NULL)) s₁ ∧
      Run (plugin .win32) .main ((Fetch.field ['n']).code 0) s₁ (.ok NULL) s₂ := by
  have hx : oneRowStored.heap 0 = some _ := rfl
  have hread {s : State} {rd : Reader} (hsession : Session .win32 0 { set := oneRow } oneRowStored rd s)
      (f : Fetch) (a : CString) (ha : rd.answer f = some a) :=
    ((rows_read .win32 (p := 0) (y := { set := oneRow }) hx rfl rfl rfl rfl
      oneRow_regular (fun r i v hr hv => by
        obtain rfl : none = r := by simpa using hr
        cases hv) hsession).2 f a ha).1
  obtain ⟨s₁, hrun₁⟩ := hread .refl (.row ⟨';', by decide⟩) (['1', ';'] ++ NULL) (by decide)
  obtain ⟨s₂, hrun₂⟩ := hread (.tail .refl hrun₁) (.field ['n']) NULL (by decide)
  exact ⟨s₁, s₂, hrun₁, hrun₂⟩

end MySQLPlugin
