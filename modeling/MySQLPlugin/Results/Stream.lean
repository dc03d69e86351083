import Mathlib.Data.List.TakeDrop
import Mathlib.Data.List.TakeWhile
import MySQLPlugin.Model.CMySQLHandler

/-!
# Text through the string stream

`FetchRow` and `FetchField` push text into the stream of the handler and read it back with a
`getline` that is followed by `>>`. A line comes back whole, and `clear` leaves the stream as it was
before.
-/

namespace MySQLPlugin

/-- The text has no newline. -/
def Line (text : CString) : Prop := '\n' ∉ text

lemma Line.nil : Line [] := List.not_mem_nil

lemma Line.append {a b : CString} (ha : Line a) (hb : Line b) : Line (a ++ b) := by
  rw [Line, List.mem_append, not_or]
  exact ⟨ha, hb⟩

namespace StringStream

/-- `getline(st, str)` followed by `st >> str`. -/
def read (st : StringStream) (str : CString) : CString × StringStream :=
  (st.getline str).2.extract (st.getline str).1

lemma insert_of_good {st : StringStream} (hst : st.good = true) (text : CString) :
    st.insert text = { st with unread := st.unread ++ text } := by
  rw [insert, if_pos hst]

lemma good_insert {st : StringStream} (hst : st.good = true) (text : CString) :
    (st.insert text).good = true := by
  rw [insert_of_good hst]
  exact hst

/-- A line is read up to the end of the stream. -/
lemma getline_line {st : StringStream} (hst : st.good = true) (hline : Line st.unread)
    (str : CString) :
    st.getline str =
      (st.unread, { unread := [], eof := true, failed := st.unread.isEmpty }) := by
  have hall : ∀ c ∈ st.unread, (c != '\n') = true := by
    intro c hc
    simp only [bne_iff_ne, ne_eq]
    rintro rfl
    exact hline hc
  rw [getline, if_pos hst, List.span_eq_takeWhile_dropWhile, List.takeWhile_eq_self_iff.mpr hall,
    List.dropWhile_eq_nil_iff.mpr hall]

/-- Nothing is extracted at the end of the stream. -/
lemma extract_of_eof {st : StringStream} (hst : st.eof = true) (str : CString) :
    st.extract str = (str, { st with failed := true }) := by
  simp [extract, good, hst]

/-- What is read back is the line that has been inserted. -/
lemma read_line {st : StringStream} (hst : st.good = true) (hline : Line st.unread)
    (str : CString) :
    st.read str = (st.unread, { unread := [], eof := true, failed := true }) := by
  rw [read, getline_line hst hline, extract_of_eof rfl]

/-- What a good stream reads back does not depend on the text of the variable before. -/
lemma read_of_good {st : StringStream} (hst : st.good = true) (str str' : CString) :
    st.read str = st.read str' := by
  have hget : st.getline str = st.getline str' := by
    rw [getline, getline, if_pos hst, if_pos hst]
  rw [read, read, hget]

end StringStream

/-! ### The text of a row -/

/-- A value as `FetchRow` and `FetchField` write it. -/
def valueText (v : Option CString) : CString := v.getD NULL

/-- The stream after the values of a row, each with the delimiter behind it. -/
def rowStream (delimiter : CString) (row : List (Option CString)) (st : StringStream) :
    StringStream :=
  row.foldl (fun st v => (st.insert (valueText v)).insert delimiter) st

/-- The values of a row, each with the delimiter behind it. -/
def rowLine (delimiter : CString) (row : List (Option CString)) : CString :=
  row.flatMap fun v => valueText v ++ delimiter

lemma rowStream_of_good {delimiter : CString} {row : List (Option CString)} {st : StringStream}
    (hst : st.good = true) :
    rowStream delimiter row st = { st with unread := st.unread ++ rowLine delimiter row } := by
  induction row generalizing st with
  | nil => simp [rowStream, rowLine]
  | cons v row ih =>
    have hv := StringStream.good_insert (StringStream.good_insert hst (valueText v)) delimiter
    rw [rowStream, List.foldl_cons, ← rowStream, ih hv,
      StringStream.insert_of_good (StringStream.good_insert hst _), StringStream.insert_of_good hst]
    simp [rowLine, List.append_assoc]

lemma rowStream_append (delimiter : CString) (row : List (Option CString)) (v : Option CString)
    (st : StringStream) :
    rowStream delimiter (row ++ [v]) st =
      ((rowStream delimiter row st).insert (valueText v)).insert delimiter := by
  rw [rowStream, List.foldl_append]
  rfl

/-- No value of the row has a newline. -/
def Lines (row : List (Option CString)) : Prop := ∀ v ∈ row, Line (valueText v)

lemma Lines.rowLine {delimiter : CString} {row : List (Option CString)} (hrow : Lines row)
    (hdelim : Line delimiter) : Line (rowLine delimiter row) := by
  intro hmem
  obtain ⟨v, hv, hmem⟩ := List.mem_flatMap.mp hmem
  exact (hrow v hv).append hdelim hmem

/-- The values of a row joined by the delimiter. -/
def joined (delimiter : CString) (row : List (Option CString)) : CString :=
  delimiter.intercalate (row.map valueText)

/-- Without its last character the line of a row is its values joined by the delimiter. -/
lemma dropLast_rowLine (d : Char) {row : List (Option CString)} (hrow : row ≠ []) :
    (rowLine [d] row).dropLast = joined [d] row := by
  induction row with
  | nil => exact absurd rfl hrow
  | cons v row ih =>
    cases row with
    | nil => simp [rowLine, joined]
    | cons v' row =>
      have hne : rowLine [d] (v' :: row) ≠ [] := by simp [rowLine]
      have hcons : rowLine [d] (v :: v' :: row) = valueText v ++ [d] ++ rowLine [d] (v' :: row) := rfl
      rw [hcons, List.dropLast_append_of_ne_nil hne, ih (List.cons_ne_nil _ _)]
      simp [joined, List.intercalate]

end MySQLPlugin
