import MySQLPlugin.Results.Buffer

/-!
# Delimiters and line breaks

`FetchRow` takes one character off the end of the line that it reads back, and `getline` stops at
the first newline. So the text of a row comes back whole for a delimiter of one character and values
of one line, and for no others.
-/

namespace MySQLPlugin

open Threads Prog CMySQLHandler

/-! ### What a stream reads back -/

lemma Line.takeWhile {text : CString} : Line (text.takeWhile (· != '\n')) := by
  intro hmem
  have hne := List.mem_takeWhile_imp hmem
  simp at hne

lemma not_isSpace_newline {c : Char} (hc : (!StringStream.isSpace c) = true) : c ≠ '\n' := by
  rintro rfl
  cases hc

/-- A good stream reads back a line, whatever it holds. -/
lemma StringStream.read_isLine {st : StringStream} (hst : st.good = true) (str : CString) :
    Line (st.read str).1 := by
  have hget : Line (st.getline str).1 := by
    rw [getline, if_pos hst, List.span_eq_takeWhile_dropWhile]
    split
    · rename_i heq
      rw [← (Prod.mk.inj heq).1]
      exact .takeWhile
    · rename_i heq
      rw [← (Prod.mk.inj heq).1]
      exact .takeWhile
  rw [read, extract]
  split_ifs
  · rw [List.span_eq_takeWhile_dropWhile]
    split
    · exact hget
    · rename_i heq
      rw [← (Prod.mk.inj heq).1]
      intro (hmem : '\n' ∈ List.takeWhile (fun c => !isSpace c) _)
      exact not_isSpace_newline (List.mem_takeWhile_imp (p := fun c => !isSpace c) hmem) rfl
  · exact hget

/-! ### The text of a row -/

/-- The line of a row is its values joined by the delimiter, and the delimiter once more. -/
lemma rowLine_eq (delimiter : CString) {row : List (Option CString)} (hrow : row ≠ []) :
    rowLine delimiter row = joined delimiter row ++ delimiter := by
  induction row with
  | nil => exact absurd rfl hrow
  | cons v row ih =>
    cases row with
    | nil => simp [rowLine, joined]
    | cons v' row =>
      have hcons : rowLine delimiter (v :: v' :: row) =
          valueText v ++ delimiter ++ rowLine delimiter (v' :: row) := rfl
      rw [hcons, ih (List.cons_ne_nil _ _)]
      simp [joined, List.intercalate]

lemma line_joined_iff {d : Char} (hd : d ≠ '\n') {row : List (Option CString)} (hrow : row ≠ []) :
    Line (joined [d] row) ↔ Lines row := by
  constructor
  · intro hline v hv hmem
    have hrowLine : Line (rowLine [d] row) := by
      rw [rowLine_eq [d] hrow]
      exact hline.append (by simpa [Line] using hd.symm)
    exact hrowLine (List.mem_flatMap.mpr ⟨v, hv, List.mem_append_left _ hmem⟩)
  · intro hlines
    have hline : Line (rowLine [d] row) := hlines.rowLine (by simpa [Line] using hd.symm)
    intro hmem
    rw [← dropLast_rowLine d hrow] at hmem
    exact hline (List.dropLast_subset _ hmem)

section

variable {x : CMySQLHandler} {row : List (Option CString)}

/-- From an empty stream, a row of lines comes back as its values joined by the delimiter if and only
if the delimiter is one character; the stream is empty then. -/
lemma takeText_joined_iff (hstream : x.m_cSStream = {}) (hdelim : Line x.Delimiter)
    (hlines : Lines row) (hrow : row ≠ []) :
    (x.takeText row).1 = joined x.Delimiter row ∧ (x.takeText row).2.m_cSStream = {} ↔
      x.Delimiter.length = 1 := by
  have hread : (rowStream x.Delimiter row x.m_cSStream).read x.m_szResult =
      (joined x.Delimiter row ++ x.Delimiter, { unread := [], eof := true, failed := true }) := by
    rw [hstream, rowStream_of_good rfl, ← rowLine_eq x.Delimiter hrow]
    exact StringStream.read_line rfl (hlines.rowLine hdelim) _
  rw [CMySQLHandler.takeText, hread]
  dsimp only
  split_ifs with hempty
  · have hnil := List.append_eq_nil_iff.mp (List.isEmpty_iff.mp hempty)
    simp [hnil.2, NULL]
  · have hne : joined x.Delimiter row ++ x.Delimiter ≠ [] := by simpa using hempty
    constructor
    · rintro ⟨htext, -⟩
      have hlen := congrArg List.length htext
      rw [List.length_dropLast, List.length_append] at hlen
      have hpos : 0 < (joined x.Delimiter row ++ x.Delimiter).length := List.length_pos_iff.mpr hne
      rw [List.length_append] at hpos
      omega
    · intro hone
      obtain ⟨d, hd⟩ := List.length_eq_one_iff.mp hone
      rw [hd, List.dropLast_concat]
      exact ⟨rfl, rfl⟩

/-- From an empty stream, the values of a row come back joined by a character if and only if they are
lines; the stream is empty then. -/
lemma takeText_lines_iff {d : Char} (hstream : x.m_cSStream = {}) (hdelim : x.Delimiter = [d])
    (hd : d ≠ '\n') (hrow : row ≠ []) :
    (x.takeText row).1 = joined [d] row ∧ (x.takeText row).2.m_cSStream = {} ↔ Lines row := by
  constructor
  · rintro ⟨htext, -⟩
    rw [← line_joined_iff hd hrow, ← htext]
    have hgood : (rowStream x.Delimiter row x.m_cSStream).good = true := by
      rw [hstream, rowStream_of_good rfl]
      rfl
    have hline := StringStream.read_isLine hgood x.m_szResult
    rw [CMySQLHandler.takeText]
    split_ifs
    · simp [Line, NULL]
    · exact fun hmem => hline (List.dropLast_subset _ hmem)
  · intro hlines
    rw [takeText_line hstream hdelim hd hlines hrow]
    exact ⟨rfl, rfl⟩

/-- From an empty stream, the text of a field comes back if and only if it is a line; the stream is
empty then. -/
lemma takeField_line_iff {text : CString} (hstream : x.m_cSStream = {}) :
    (x.takeField (some text)).m_szResult = text ∧ (x.takeField (some text)).m_cSStream = {} ↔
      Line text := by
  constructor
  · rintro ⟨htext, -⟩
    rw [← htext]
    refine StringStream.read_isLine ?_ x.m_szResult
    rw [CMySQLHandler.insertText, hstream]
    have hgood : ({} : StringStream).good = true := rfl
    exact StringStream.good_insert hgood text
  · intro hline
    rw [takeField_line hstream fun a ha => Option.some.inj ha ▸ hline]
    exact ⟨rfl, rfl⟩

end

/-! ### Calls -/

/-- However the calls of the code are answered, it returns, and `P` holds of what it returns and of
the object of the handler then. -/
def Leaves (b : Build) (h : HandlerPtr) {α : Type} (P : α → CMySQLHandler → Prop) (code : Code α)
    (s : State) : Prop :=
  (∃ o s', Run (plugin b) .main code s o s') ∧
    ∀ o s', Run (plugin b) .main code s o s' → ∃ v x, o = .ok v ∧ s'.heap h = some x ∧ P v x

section

variable {b : Build} {h : HandlerPtr} {s : State} {x : CMySQLHandler} {p : ResPtr} {y : StoredResult}
  {row : List (Option CString)}

/-- What code leaves that always ends in the same way. -/
lemma leaves_iff {α : Type} {P : α → CMySQLHandler → Prop} {code : Code α} {v : α}
    {x' : CMySQLHandler} (hruns : ∃ o s', Run (plugin b) .main code s o s')
    (hwp : code.wp (plugin b) .main (fun _ _ => False) (fun v' s' => v' = v ∧ s'.heap h = some x') s) :
    Leaves b h P code s ↔ P v x' := by
  have hend := (wp_iff _ _ _).mp hwp
  obtain ⟨o, s', hrun⟩ := hruns
  constructor
  · rintro ⟨-, hall⟩
    obtain ⟨v', x'', rfl, hx'', hP⟩ := hall o s' hrun
    obtain ⟨rfl, hx'⟩ := hend.1 v' s' hrun
    obtain rfl := Option.some.inj (hx'.symm.trans hx'')
    exact hP
  · refine fun hP => ⟨⟨o, s', hrun⟩, fun o s' hrun => ?_⟩
    cases o with
    | ok v' =>
      obtain ⟨rfl, hx'⟩ := hend.1 v' s' hrun
      exact ⟨v', x', rfl, hx', hP⟩
    | error e => exact (hend.2 e s' hrun).elim

lemma exists_run_looks {α : Type} {code : Code α} (hlooks : code.All (Stmt.Only .main Event.Looks)) :
    ∃ o s', Run (plugin b) .main code s o s' :=
  IsPlugin.exists_run (M := plugin b) (fun _ _ => trivial) (fun h => h) hlooks s

lemma ResultSet.Shaped.toNat_count {set : ResultSet} (hset : set.Shaped) :
    (BitVec.ofNat 32 set.fields.length).toNat = set.fields.length := by
  rw [BitVec.toNat_ofNat, Nat.mod_eq_of_lt hset.count]

/-- `FetchRow` leaves what the stream makes of the next row. -/
lemma fetchRow_leaves_iff {P : CString → CMySQLHandler → Prop} (hx : s.heap h = some x)
    (hconn : x.m_bIsConnected = true) (hres : x.m_stResult = .set (some p))
    (hlive : s.lib.live p = some y) (hset : y.set.Shaped) (hrow : y.nextRow = some row) :
    Leaves b h P (fetchRow h) s ↔
      P ((x.atRow p y (some ⟨p, y.next⟩)).takeText row).1
        ((x.atRow p y (some ⟨p, y.next⟩)).takeText row).2 := by
  have hwidth : (BitVec.ofNat 32 y.set.fields.length).toNat = row.length :=
    hset.toNat_count.trans (hset.width row (List.mem_of_getElem? hrow)).symm
  exact leaves_iff (exists_run_looks (fetchRow_looks .main h))
    ((Sees.refl hx).fetchRow_row hconn hres hlive hwidth hrow fun s' hs' => ⟨rfl, hs'.heap⟩)

/-- `FetchField` leaves what the stream makes of the value of the column in the current row. -/
lemma fetchField_leaves_iff {P : Bool → CMySQLHandler → Prop} {i : Nat} {column text : CString}
    (hx : s.heap h = some x) (hconn : x.m_bIsConnected = true) (hlive : s.lib.live p = some y)
    (hset : y.set.Shaped) (hrow : y.set.rows[i]? = some row) (hptr : x.m_stRow = .set (some ⟨p, i⟩))
    (hfield : x.m_stField = .set (some ⟨p, 0⟩))
    (hfields : x.m_dwFields = .set (BitVec.ofNat 32 y.set.fields.length))
    (htext : columnValue y.set.fields row column = some text) :
    Leaves b h P (fetchField h column) s ↔ P true (x.takeField (some text)) := by
  have hwidth := hset.width row (List.mem_of_getElem? hrow)
  have hname (j : Nat) : s.lib.nameAt (some ⟨p, 0⟩) (0 + j) = y.set.fields[j]? := by
    simp [Libmysql.nameAt, hlive]
  have hvalue (j : Nat) : s.lib.valueAt (some ⟨p, i⟩) (0 + j) = row[j]? := by
    simp [Libmysql.valueAt, hlive, hrow]
  have hfound := fieldText_range' column hname hvalue hwidth
  rw [← List.range_eq_range', htext] at hfound
  have hcount {n : BitVec 32} (hn : x.m_dwFields = .unset ∨ x.m_dwFields = .set n) :
      n.toNat = y.set.fields.length := by
    obtain rfl : BitVec.ofNat 32 y.set.fields.length = n := by simpa [hfields] using hn
    exact hset.toNat_count
  refine leaves_iff (exists_run_looks (fetchField_looks .main h column))
    ((Sees.refl hx).fetchField_row hconn hfield hptr (fun n hn j hj hnone => ?_) fun n s' hn hs' => ?_)
  · rw [hcount hn] at hj
    rw [← Nat.zero_add j, hname, hvalue, List.getElem?_eq_none_iff, List.getElem?_eq_none_iff,
      hwidth, or_self, ← not_lt] at hnone
    exact absurd hj hnone
  · rw [hcount hn, hfound] at hs'
    exact ⟨rfl, hs'.heap⟩

/-- From an empty stream `FetchRow` returns the values of a row of lines joined by the delimiter, and
leaves the stream empty, if and only if the delimiter is one character. -/
theorem fetchRow_joined_iff (b : Build) (hx : s.heap h = some x) (hconn : x.m_bIsConnected = true)
    (hstream : x.m_cSStream = {}) (hdelim : Line x.Delimiter) (hres : x.m_stResult = .set (some p))
    (hlive : s.lib.live p = some y) (hset : y.set.Shaped) (hrow : y.nextRow = some row)
    (hcolumns : row ≠ []) (hlines : Lines row) :
    Leaves b h (fun text x' => text = joined x.Delimiter row ∧ x'.m_cSStream = {}) (fetchRow h) s ↔
      x.Delimiter.length = 1 := by
  rw [fetchRow_leaves_iff hx hconn hres hlive hset hrow]
  exact takeText_joined_iff (x := x.atRow p y (some ⟨p, y.next⟩)) hstream hdelim hlines hcolumns

/-- The texts of rows and fields come back from an empty stream, and leave it empty, if and only if
they have no line break: `FetchRow` with a delimiter of one character for all values of the row,
`FetchField` for the value of the column. -/
theorem fetch_lines_iff (b : Build) (hx : s.heap h = some x) (hconn : x.m_bIsConnected = true)
    (hstream : x.m_cSStream = {}) (hlive : s.lib.live p = some y) (hset : y.set.Shaped) :
    (∀ (d : Char), d ≠ '\n' → x.Delimiter = [d] → x.m_stResult = .set (some p) →
      y.nextRow = some row → row ≠ [] →
      (Leaves b h (fun text x' => text = joined [d] row ∧ x'.m_cSStream = {}) (fetchRow h) s ↔
        Lines row)) ∧
    ∀ (i : Nat) (column text : CString), y.set.rows[i]? = some row →
      x.m_stRow = .set (some ⟨p, i⟩) → x.m_stField = .set (some ⟨p, 0⟩) →
      x.m_dwFields = .set (BitVec.ofNat 32 y.set.fields.length) →
      columnValue y.set.fields row column = some text →
      (Leaves b h (fun ok x' => ok = true ∧ x'.m_szResult = text ∧ x'.m_cSStream = {})
        (fetchField h column) s ↔ Line text) := by
  constructor
  · intro d hd hdelim hres hrow hcolumns
    rw [fetchRow_leaves_iff hx hconn hres hlive hset hrow]
    exact takeText_lines_iff (x := x.atRow p y (some ⟨p, y.next⟩)) hstream hdelim hd hcolumns
  · intro i column text hrow hptr hfield hfields htext
    rw [fetchField_leaves_iff hx hconn hlive hset hrow hptr hfield hfields htext]
    exact (and_iff_right rfl).trans (takeField_line_iff hstream)

end

/-! ### Delimiters and values at work -/

/-- A connected handler that has stored the result set. -/
def storedWith (delimiter : CString) (set : ResultSet) : State where
  heap := Function.update (fun _ => none) 0 (some
    { m_Hostname := [], m_Username := [], m_Password := [], m_Database := [], m_Port := 0
      m_bIsConnected := true, m_stResult := .set (some 0), m_stRow := .set none
      Delimiter := delimiter })
  lib := ({} : Libmysql).newResult set

lemma oneRow_nextRow : ({ set := oneRow } : StoredResult).nextRow = some [some ['1'], none] := rfl

/-- With the delimiter `,` the row comes back. -/
theorem fetchRow_joined_comma :
    Leaves .win32 0 (fun text x' => text = ['1', ','] ++ NULL ∧ x'.m_cSStream = {}) (fetchRow 0)
      (storedWith [','] oneRow) :=
  (fetchRow_joined_iff .win32 (h := 0) (s := storedWith [','] oneRow) (p := 0) (y := { set := oneRow })
    rfl rfl rfl (by simp [Line]) rfl rfl ⟨by decide, by decide⟩ oneRow_nextRow (by simp)
    (by simp [Lines, Line, valueText, NULL])).mpr rfl

/-- With the delimiter `::` the row keeps one colon at its end. -/
theorem fetchRow_colons :
    ¬ ∀ (b : Build) (h : HandlerPtr) (s : State) (x : CMySQLHandler) (p : ResPtr) (y : StoredResult)
      (row : List (Option CString)), s.heap h = some x → x.m_bIsConnected = true →
      x.m_cSStream = {} → Line x.Delimiter → x.m_stResult = .set (some p) →
      s.lib.live p = some y → y.set.Shaped → y.nextRow = some row → row ≠ [] → Lines row →
      Leaves b h (fun text x' => text = joined x.Delimiter row ∧ x'.m_cSStream = {}) (fetchRow h)
        s := by
  intro hall
  have hrun : ((fetchRow 0).eval (plugin .win32) .main (fun _ _ => {})
      (storedWith [':', ':'] oneRow)).map (·.1) = some (['1', ':', ':'] ++ NULL ++ [':']) := by rfl
  obtain ⟨⟨text, s'⟩, hrun, htext⟩ := Option.map_eq_some_iff.mp hrun
  obtain ⟨-, hleaves⟩ := hall .win32 0 (storedWith [':', ':'] oneRow) _ 0 { set := oneRow }
    [some ['1'], none] rfl rfl rfl (by simp [Line]) rfl rfl ⟨by decide, by decide⟩ rfl (by simp)
    (by simp [Lines, Line, valueText, NULL])
  obtain ⟨v, x, hv, -, hjoined, -⟩ := hleaves _ s' (run_of_eval (fun _ _ => trivial) _ hrun)
  obtain rfl : text = v := Except.ok.inj hv
  exact absurd (htext.symm.trans hjoined) (by decide)

/-- A result set with one column and one row, whose value has two lines. -/
def twoLines : ResultSet := { fields := [['t']], rows := [[some ['a', '\n', 'b']]] }

/-- A handler whose pointers are at the first row of the result set. -/
def fetchedFrom (set : ResultSet) : State where
  heap := Function.update (fun _ => none) 0 (some
    { oneRowHandler 0 [] with m_dwFields := .set (BitVec.ofNat 32 set.fields.length) })
  lib := ({} : Libmysql).newResult set

/-- Values without line breaks come back. -/
theorem fetch_lines_oneRow :
    Leaves .win32 0 (fun text x' => text = ['1', ','] ++ NULL ∧ x'.m_cSStream = {}) (fetchRow 0)
        (storedWith [','] oneRow) ∧
      Leaves .win32 0 (fun ok x' => ok = true ∧ x'.m_szResult = ['1'] ∧ x'.m_cSStream = {})
        (fetchField 0 ['i', 'd']) (fetchedFrom oneRow) :=
  ⟨((fetch_lines_iff .win32 (h := 0) (s := storedWith [','] oneRow) (p := 0) (y := { set := oneRow })
      rfl rfl rfl rfl ⟨by decide, by decide⟩).1 ',' (by decide) rfl rfl oneRow_nextRow
      (by simp)).mpr (by simp [Lines, Line, valueText, NULL]),
    ((fetch_lines_iff .win32 (h := 0) (s := fetchedFrom oneRow) (p := 0) (y := { set := oneRow })
      rfl rfl rfl rfl ⟨by decide, by decide⟩).2 0 ['i', 'd'] ['1'] oneRow_nextRow rfl
      rfl rfl rfl).mpr (by simp [Line])⟩

/-- Only the second line of the value comes back, from `FetchRow` and from `FetchField`. -/
theorem fetch_twoLines :
    ¬ (∀ (b : Build) (h : HandlerPtr) (s : State) (x : CMySQLHandler) (p : ResPtr) (y : StoredResult)
      (row : List (Option CString)) (d : Char), s.heap h = some x → x.m_bIsConnected = true →
      x.m_cSStream = {} → s.lib.live p = some y → y.set.Shaped → d ≠ '\n' → x.Delimiter = [d] →
      x.m_stResult = .set (some p) → y.nextRow = some row → row ≠ [] →
      Leaves b h (fun text x' => text = joined [d] row ∧ x'.m_cSStream = {}) (fetchRow h) s) ∧
    ¬ ∀ (b : Build) (h : HandlerPtr) (s : State) (x : CMySQLHandler) (p : ResPtr) (y : StoredResult)
      (row : List (Option CString)) (i : Nat) (column text : CString), s.heap h = some x →
      x.m_bIsConnected = true → x.m_cSStream = {} → s.lib.live p = some y → y.set.Shaped →
      y.set.rows[i]? = some row → x.m_stRow = .set (some ⟨p, i⟩) → x.m_stField = .set (some ⟨p, 0⟩) →
      x.m_dwFields = .set (BitVec.ofNat 32 y.set.fields.length) →
      columnValue y.set.fields row column = some text →
      Leaves b h (fun ok x' => ok = true ∧ x'.m_szResult = text ∧ x'.m_cSStream = {})
        (fetchField h column) s := by
  constructor
  · intro hall
    have hrun : ((fetchRow 0).eval (plugin .win32) .main (fun _ _ => {})
        (storedWith [','] twoLines)).map (·.1) = some ['b'] := by rfl
    obtain ⟨⟨text, s'⟩, hrun, htext⟩ := Option.map_eq_some_iff.mp hrun
    obtain ⟨-, hleaves⟩ := hall .win32 0 (storedWith [','] twoLines) _ 0 { set := twoLines }
      [some ['a', '\n', 'b']] ',' rfl rfl rfl rfl ⟨by decide, by decide⟩ (by decide) rfl rfl rfl
      (by simp)
    obtain ⟨v, x, hv, -, hjoined, -⟩ := hleaves _ s' (run_of_eval (fun _ _ => trivial) _ hrun)
    obtain rfl : text = v := Except.ok.inj hv
    exact absurd (htext.symm.trans hjoined) (by decide)
  · intro hall
    have hrun : ((fetchField 0 ['t']).eval (plugin .win32) .main (fun _ _ => {})
        (fetchedFrom twoLines)).map (fun r => (r.2.heap 0).map (·.m_szResult)) =
      some (some ['b']) := by rfl
    obtain ⟨⟨ok, s'⟩, hrun, htext⟩ := Option.map_eq_some_iff.mp hrun
    obtain ⟨-, hleaves⟩ := hall .win32 0 (fetchedFrom twoLines) _ 0 { set := twoLines }
      [some ['a', '\n', 'b']] 0 ['t'] ['a', '\n', 'b'] rfl rfl rfl rfl ⟨by decide, by decide⟩ rfl rfl
      rfl rfl rfl
    obtain ⟨v, x, -, hx, -, hread, -⟩ := hleaves _ s' (run_of_eval (fun _ _ => trivial) _ hrun)
    rw [show s'.heap 0 = some x from hx, Option.map_some, Option.some.injEq, hread] at htext
    exact absurd htext (by decide)

end MySQLPlugin
