import MySQLPlugin.Handles.Names
import MySQLPlugin.Results.Fields

/-!
# The shared text buffer

Four natives hand over text through `m_szResult` and `m_cSStream`. What they hand over depends on the
row that they fetch and, when the buffers are not empty, on what an earlier call has left there.
-/

namespace MySQLPlugin

open Threads Prog CMySQLHandler Natives

/-! ### Result sets in a run -/

/-- A result set as libmysql stores it. -/
structure ResultSet.Shaped (set : ResultSet) : Prop where
  count : set.fields.length < 2 ^ 32
  width : ∀ row ∈ set.rows, row.length = set.fields.length

/-- The result sets that are alive satisfy `P`. -/
def Libmysql.Sets (P : ResultSet → Prop) (l : Libmysql) : Prop := ∀ p y, l.live p = some y → P y.set

lemma Libmysql.Sets.setResult {P : ResultSet → Prop} {l : Libmysql} (hl : l.Sets P) {p : ResPtr}
    {y : StoredResult} (hy : P y.set) : (l.setResult p y).Sets P := by
  intro q z hz
  rw [live_setResult] at hz
  split_ifs at hz
  · obtain rfl := Option.some.inj hz
    exact hy
  · exact hl q z hz

/-- Only `mysql_store_result` brings new result sets. -/
lemma step_sets {b : Build} {P : ResultSet → Prop} {t : ThreadId} {β : Type} {a : Stmt β}
    {s s' : State} {o : Except Fault β} (hst : (reading b P).Step t a s o s')
    (hs : s.lib.Sets P) : s'.lib.Sets P := by
  obtain ⟨r, ⟨-, -, hr⟩, hrun⟩ := hst
  change a.run b t r s = some (o, s') at hrun
  cases a with
  | leave h c f =>
    cases f with
    | mysql_store_result =>
      simp only [Stmt.run, Libmysql.answer] at hrun
      cases hrows : r.rows with
      | none =>
        simp only [hrows] at hrun
        cases hrun
        exact hs
      | some set =>
        simp only [hrows] at hrun
        cases hrun
        intro p y hy
        change (Libmysql.newResult _ set).live p = some y at hy
        rw [Libmysql.live_newResult] at hy
        split_ifs at hy
        · obtain rfl := Option.some.inj hy
          exact hr rfl set hrows
        · exact hs p y hy
    | mysql_real_query q =>
      simp only [Stmt.run, Libmysql.answer] at hrun
      split_ifs at hrun <;> cases hrun <;> exact hs
    | _ =>
      cases hrun
      exact hs
  | onResult p f =>
    cases p with
    | none =>
      cases hrun
      exact hs
    | some p =>
      simp only [Stmt.run] at hrun
      split at hrun
      · rename_i y hy
        cases hrun
        cases f with
        | mysql_free_result => exact hs.setResult (hs p y hy)
        | mysql_fetch_row =>
          change (Libmysql.onResult _ p y .mysql_fetch_row).2.Sets P
          rw [Libmysql.onResult]
          split_ifs
          · exact hs.setResult (hs p y hy)
          · exact hs
        | _ => exact hs
      · cases hrun
        exact hs
  | enter h f =>
    simp only [Stmt.run] at hrun
    split at hrun
    · split at hrun
      · cases hrun
        cases f <;> exact hs
      · cases hrun
        exact hs
    · cases hrun
      exact hs
  | lockMutex =>
    simp only [Stmt.run, Build.lock] at hrun
    repeat' split at hrun
    all_goals cases hrun
    all_goals exact hs
  | unlockMutex =>
    cases hrun
    simp only [unlock]
    repeat' split
    all_goals exact hs
  | _ =>
    simp only [Stmt.run] at hrun
    repeat' split at hrun
    all_goals cases hrun
    all_goals exact hs

/-! ### What the natives shall hand over -/

/-- The line that a row makes in an empty stream. -/
def rawText (delimiter : CString) (row : List (Option CString)) : CString :=
  ((rowStream delimiter row {}).read []).1

/-- The text of the fetched row without its last delimiter, or `old` if no row has been fetched. -/
def textOfRow (delimiter : CString) (row : Option (List (Option CString))) (old : CString) : CString :=
  row.elim old fun row => (rawText delimiter row).dropLast

/-- What `FetchRow` returns for the row. -/
def rowReturned (delimiter : CString) (row : Option (List (Option CString))) : CString :=
  row.elim NULL fun row =>
    if (rawText delimiter row).isEmpty then NULL else (rawText delimiter row).dropLast

/-- The text of a field, or of none, that has gone through an empty stream. -/
def fieldValue (text : Option CString) : CString :=
  ((text.elim {} ({} : StringStream).insert).read []).1

/-- The row that a call of `FetchRow` fetches. -/
def CMySQLHandler.fetchedRow (x : CMySQLHandler) (l : Libmysql) : Option (List (Option CString)) :=
  if x.m_bIsConnected then (x.result.bind l.live).bind (·.nextRow) else none

/-- The text of the column in the current row, if the search goes over `n` fields. -/
def CMySQLHandler.currentField (x : CMySQLHandler) (l : Libmysql) (column : CString)
    (n : BitVec 32) : Option CString :=
  l.fieldText x.field x.row column (List.range n.toNat)

/-- The handler is connected and has a field array and a row. -/
def CMySQLHandler.hasRow (x : CMySQLHandler) : Bool :=
  x.m_bIsConnected && x.field.isSome && x.row.isSome

/-- The connection handle of the natives that hand over a text. -/
def NativeCall.fetches : NativeCall → Option Cell
  | .mysql_fetch_int c | .mysql_fetch_float _ c | .mysql_fetch_row_format _ _ c
  | .mysql_fetch_field_row _ _ c => some c
  | _ => none

/-- The native returns `v` and writes `w` for the row that it fetches, or for the current row. -/
def NativeCall.HandsOver (n : NativeCall) (x : CMySQLHandler) (l : Libmysql) (v : Cell)
    (w : List Event) : Prop :=
  match n with
  | .mysql_fetch_int _ =>
    let a := textOfRow [' '] (x.fetchedRow l) []
    v = (if isNumeric a && !a.isEmpty then ctot a else -1) ∧ w = []
  | .mysql_fetch_float result _ =>
    let a := textOfRow [' '] (x.fetchedRow l) []
    if !a.isEmpty then v = 1 ∧ w = [.setFloat result (some a)]
    else v = 0 ∧ w = [.setFloat result none]
  | .mysql_fetch_row_format string delimiter _ =>
    let a := rowReturned delimiter (x.fetchedRow l)
    if a ≠ NULL then v = 1 ∧ w = [.setString string a] else v = 0 ∧ w = []
  | .mysql_fetch_field_row string fieldname _ =>
    v = 1 ∧ if x.hasRow then
      ∃ n, (x.m_dwFields = .unset ∨ x.m_dwFields = .set n) ∧
        w = [.setString string (fieldValue (x.currentField l fieldname n))]
    else w = [.setString string []]
  | _ => True

/-- The buffers are empty where the native would read them: the stream if it fetches a row or reads
one, the text if it does not. -/
def NativeCall.FindsEmpty (n : NativeCall) (x : CMySQLHandler) (l : Libmysql) : Prop :=
  match n with
  | .mysql_fetch_int _ =>
    if (x.fetchedRow l).isSome then x.m_cSStream = {}
    else (isNumeric x.m_szResult && !x.m_szResult.isEmpty) = false
  | .mysql_fetch_float _ _ =>
    if (x.fetchedRow l).isSome then x.m_cSStream = {} else x.m_szResult = []
  | .mysql_fetch_row_format _ _ _ => (x.fetchedRow l).isSome → x.m_cSStream = {}
  | .mysql_fetch_field_row _ _ _ => if x.hasRow then x.m_cSStream = {} else x.m_szResult = []
  | _ => True

/-! ### The functions -/

section

variable {b : Build} {t : ThreadId} {h : HandlerPtr} {x : CMySQLHandler} {l : Libmysql}
  {w : List Event} {s : State}

/-- What an empty stream gives for a row does not depend on the text before. -/
lemma takeText_fresh (hstream : x.m_cSStream = {}) (row : List (Option CString)) :
    (x.takeText row).1 = rowReturned x.Delimiter (some row) ∧
      (x.takeText row).2.m_szResult = textOfRow x.Delimiter (some row) x.m_szResult := by
  have hgood : (rowStream x.Delimiter row {}).good = true := by
    rw [rowStream_of_good rfl]
    rfl
  have hread : ((rowStream x.Delimiter row x.m_cSStream).read x.m_szResult).1 =
      rawText x.Delimiter row := by
    rw [hstream, StringStream.read_of_good hgood x.m_szResult []]
    rfl
  rw [CMySQLHandler.takeText, rowReturned, textOfRow, Option.elim_some, Option.elim_some]
  simp only [hread]
  split_ifs with hempty
  · exact ⟨rfl, by rw [List.isEmpty_iff.mp hempty]; rfl⟩
  · exact ⟨rfl, rfl⟩

/-- `FetchRow` returns the text of the row that it fetches and leaves it in `m_szResult`; without a
row it returns `"NULL"` and leaves the text of an earlier call there. -/
lemma fetchRow_text (hs : Sees h x l w s) (hl : l.Sets ResultSet.Shaped)
    (hstream : (x.fetchedRow l).isSome → x.m_cSStream = {}) :
    (fetchRow h).wp (reading b ResultSet.Shaped) t (fun _ _ => True) (fun a s' => ∃ x' l',
      Sees h x' l' w s' ∧ a = rowReturned x.Delimiter (x.fetchedRow l) ∧
        x'.m_szResult = textOfRow x.Delimiter (x.fetchedRow l) x.m_szResult) s := by
  cases hconn : x.m_bIsConnected with
  | false =>
    have hnone : x.fetchedRow l = none := by simp [CMySQLHandler.fetchedRow, hconn]
    rw [hnone]
    exact hs.fetchRow_dead hconn ⟨x, l, hs, rfl, rfl⟩
  | true =>
    cases hres : x.result with
    | none =>
      have hnone : x.fetchedRow l = none := by simp [CMySQLHandler.fetchedRow, hres]
      rw [hnone]
      exact hs.fetchRow_null hres fun s' hs' => ⟨x, l, hs', rfl, rfl⟩
    | some p =>
      have hres' := result_eq_some.mp hres
      have hrow : x.fetchedRow l = (l.live p).bind (·.nextRow) := by
        simp [CMySQLHandler.fetchedRow, hconn, hres]
      cases hlive : l.live p with
      | none =>
        refine hs.wp_this ?_
        rw [hconn, Bool.not_true, if_neg Bool.false_ne_true]
        refine hs.wp_loadSet hres' ?_
        rw [if_neg (by simp), nextRow]
        simp only [bind_bind]
        refine hs.wp_loadSet hres' (hs.wp_onResult (fun _ _ _ => trivial) fun q y s' hq hy _ => ?_)
        obtain rfl := Option.some.inj hq
        cases hlive.symm.trans hy
      | some y =>
        rw [hlive, Option.bind_some] at hrow
        rw [hrow]
        rw [hrow] at hstream
        cases hnext : y.nextRow with
        | some row =>
          have hset := hl p y hlive
          have hwidth : (BitVec.ofNat 32 y.set.fields.length).toNat = row.length := by
            rw [BitVec.toNat_ofNat, Nat.mod_eq_of_lt hset.count,
              hset.width row (List.mem_of_getElem? hnext)]
          rw [hnext] at hstream
          refine hs.fetchRow_row hconn hres' hlive hwidth hnext fun s' hs' => ⟨_, _, hs', ?_⟩
          exact takeText_fresh (x := x.atRow p y (some ⟨p, y.next⟩)) (hstream rfl) row
        | none =>
          exact hs.fetchRow_end hconn hres' hlive hnext (fun _ _ _ => trivial) fun e s' hs' =>
            ⟨_, _, hs', rfl, rfl⟩

/-- What an empty stream gives for a field does not depend on the text before. -/
lemma takeField_fresh (hstream : x.m_cSStream = {}) (text : Option CString) :
    (x.takeField text).m_szResult = fieldValue text := by
  have hgood : (text.elim {} ({} : StringStream).insert).good = true := by
    cases text with
    | none => rfl
    | some a => exact StringStream.good_insert rfl a
  rw [CMySQLHandler.takeField, CMySQLHandler.insertText, hstream,
    StringStream.read_of_good hgood x.m_szResult []]
  rfl

/-- `FetchField` leaves in `m_szResult` the text of the field that it finds; without a row it leaves
the text of an earlier call there. -/
lemma fetchField_text (hs : Sees h x l w s) (hstream : x.hasRow → x.m_cSStream = {})
    (column : CString) :
    (fetchField h column).wp (reading b ResultSet.Shaped) t (fun _ _ => True) (fun _ s' => ∃ x',
      Sees h x' l w s' ∧
        if x.hasRow then ∃ n, (x.m_dwFields = .unset ∨ x.m_dwFields = .set n) ∧
          x'.m_szResult = fieldValue (x.currentField l column n)
        else x'.m_szResult = x.m_szResult) s := by
  cases hrow : x.hasRow with
  | true =>
    replace hstream := hstream hrow
    simp only [CMySQLHandler.hasRow, Bool.and_eq_true, Option.isSome_iff_exists] at hrow
    obtain ⟨⟨hconn, f, hf⟩, r, hr⟩ := hrow
    refine hs.fetchField_row hconn (field_eq_some.mp hf) (row_eq_some.mp hr)
      (fun _ _ _ _ _ _ _ => trivial) fun n s' hn hs' => ⟨_, hs', ?_⟩
    rw [if_pos rfl]
    exact ⟨n, hn, by rw [takeField_fresh hstream, CMySQLHandler.currentField, hf, hr]⟩
  | false =>
    simp only [Bool.false_eq_true, if_false]
    refine hs.wp_this ?_
    rw [wp_ite]
    split_ifs with hconn
    · exact ⟨x, hs, rfl⟩
    refine hs.wp_field fun s₁ hs₁ => ?_
    rw [wp_ite]
    split_ifs with hf
    · exact ⟨x, hs₁, rfl⟩
    refine hs₁.wp_row fun s₂ hs₂ => ?_
    have hr : x.row = none := by
      rw [← Option.not_isSome_iff_eq_none]
      intro hr
      have hf : x.field.isSome := Option.isSome_iff_ne_none.mpr hf
      simp_all [CMySQLHandler.hasRow]
    rw [if_pos hr]
    exact ⟨x, hs₂, rfl⟩

end

/-! ### Runs -/

section

variable {b : Build} {h : HandlerPtr} {x : CMySQLHandler} {c : Cell} {s : State}

/-- A native that finds the buffers empty hands over what it fetches. -/
lemma body_handsOver {n : NativeCall} (hn : n.fetches = some c) (hh : handlerAt s c = some h)
    (hx : s.heap h = some x) (hl : s.lib.Sets ResultSet.Shaped) (hempty : n.FindsEmpty x s.lib) :
    (body n).wp (reading b ResultSet.Shaped) .main (fun _ _ => True) (fun v s' =>
      ∃ w, s'.writes = s.writes ++ w ∧ n.HandsOver x s.lib v w) s := by
  have hs := Sees.refl hx
  cases n <;> cases hn
  case mysql_fetch_row_format string delimiter =>
    refine wp_handled hh (hs.wp_assign rfl fun s₁ hs₁ => ?_)
    rw [wp_bind]
    refine wp_mono (fetchRow_text hs₁ hl hempty) fun a s₂ ⟨x', l', hs₂, ha, _⟩ => ?_
    replace ha : a = rowReturned delimiter (x.fetchedRow s.lib) := ha
    rw [wp_ite]
    split_ifs with hne
    · refine hs₂.wp_setString fun s₃ hs₃ => hs₃.wp_assign rfl fun s₄ hs₄ => ⟨_, hs₄.writes, ?_⟩
      rw [NativeCall.HandsOver, ← ha, if_pos hne]
      exact ⟨rfl, rfl⟩
    · refine ⟨[], hs₂.writes.trans (List.append_nil _).symm, ?_⟩
      rw [NativeCall.HandsOver, ← ha, if_neg hne]
      exact ⟨rfl, rfl⟩
  case mysql_fetch_field_row string fieldname =>
    refine wp_handled hh ?_
    rw [wp_bind]
    refine wp_mono (fetchField_text hs (fun hrow => ?_) fieldname) fun _ s₁ ⟨x', hs₁, ha⟩ => ?_
    · rw [NativeCall.FindsEmpty, if_pos hrow] at hempty
      exact hempty
    refine hs₁.wp_this (hs₁.wp_setString fun s₂ hs₂ => hs₂.wp_assign rfl fun s₃ hs₃ => ?_)
    refine ⟨_, hs₃.writes, rfl, ?_⟩
    split_ifs at ha ⊢ with hrow
    · obtain ⟨count, hcount, ha⟩ := ha
      exact ⟨count, hcount, by rw [ha]⟩
    · have hnone : x.m_szResult = [] := by simpa [NativeCall.FindsEmpty, hrow] using hempty
      rw [ha, hnone]
  case mysql_fetch_int =>
    refine wp_handled hh (hs.wp_assign rfl fun s₁ hs₁ => ?_)
    rw [wp_bind]
    refine wp_mono (fetchRow_text hs₁ hl fun hrow => ?_) fun _ s₂ ⟨x', l', hs₂, _, ha⟩ => ?_
    · replace hrow : (x.fetchedRow s.lib).isSome := hrow
      rw [NativeCall.FindsEmpty, if_pos hrow] at hempty
      exact hempty
    replace ha : x'.m_szResult = textOfRow [' '] (x.fetchedRow s.lib) x.m_szResult := ha
    have hnumeric : (isNumeric x'.m_szResult && !x'.m_szResult.isEmpty) =
        (isNumeric (textOfRow [' '] (x.fetchedRow s.lib) []) &&
          !(textOfRow [' '] (x.fetchedRow s.lib) []).isEmpty) := by
      cases hrow : x.fetchedRow s.lib with
      | some row =>
        rw [ha, hrow]
        rfl
      | none =>
        have hold : (isNumeric x.m_szResult && !x.m_szResult.isEmpty) = false := by
          simpa [NativeCall.FindsEmpty, hrow] using hempty
        rw [ha, hrow]
        exact hold
    refine hs₂.wp_this ?_
    rw [wp_ite]
    split_ifs with hcond
    · refine hs₂.wp_assign rfl fun s₃ hs₃ => ⟨[], hs₃.writes.trans (List.append_nil _).symm, ?_⟩
      rw [NativeCall.HandsOver, ← hnumeric, if_pos hcond]
      refine ⟨?_, rfl⟩
      cases hrow : x.fetchedRow s.lib with
      | some row =>
        rw [ha, hrow]
        rfl
      | none =>
        have hold : (isNumeric x.m_szResult && !x.m_szResult.isEmpty) = false := by
          simpa [NativeCall.FindsEmpty, hrow] using hempty
        rw [ha, hrow] at hcond
        exact absurd hcond (by rw [textOfRow, Option.elim_none, hold]; exact Bool.false_ne_true)
    · refine ⟨[], hs₂.writes.trans (List.append_nil _).symm, ?_⟩
      rw [NativeCall.HandsOver, ← hnumeric, if_neg hcond]
      exact ⟨rfl, rfl⟩
  case mysql_fetch_float result =>
    refine wp_handled hh (hs.wp_assign rfl fun s₁ hs₁ => ?_)
    rw [wp_bind]
    refine wp_mono (fetchRow_text hs₁ hl fun hrow => ?_) fun _ s₂ ⟨x', l', hs₂, _, ha⟩ => ?_
    · replace hrow : (x.fetchedRow s.lib).isSome := hrow
      rw [NativeCall.FindsEmpty, if_pos hrow] at hempty
      exact hempty
    replace ha : x'.m_szResult = textOfRow [' '] (x.fetchedRow s.lib) [] := by
      cases hrow : x.fetchedRow s.lib with
      | some row =>
        have ha : x'.m_szResult = textOfRow [' '] (x.fetchedRow s.lib) x.m_szResult := ha
        rw [ha, hrow]
        rfl
      | none =>
        have ha : x'.m_szResult = textOfRow [' '] (x.fetchedRow s.lib) x.m_szResult := ha
        have hnone : x.m_szResult = [] := by simpa [NativeCall.FindsEmpty, hrow] using hempty
        rw [ha, hnone, hrow]
    refine hs₂.wp_this ?_
    rw [wp_ite]
    split_ifs with hne
    · refine hs₂.wp_assign rfl fun s₃ hs₃ => hs₃.wp_setFloat fun s₄ hs₄ => ⟨_, hs₄.writes, ?_⟩
      rw [NativeCall.HandsOver, ← ha, if_pos hne]
      exact ⟨rfl, rfl⟩
    · refine hs₂.wp_setFloat fun s₃ hs₃ => ⟨_, hs₃.writes, ?_⟩
      rw [NativeCall.HandsOver, ← ha, if_neg hne]
      exact ⟨rfl, rfl⟩

/-- At every point of a run, a native that finds the buffers empty returns and writes what belongs to
the row that it fetches, or to the current row. -/
theorem text_fresh (b : Build) (p_Amx : List Amx) {n : NativeCall}
    (hcomes : Comes (reading b ResultSet.Shaped) p_Amx .main (body n) s) (hn : n.fetches = some c)
    (hh : handlerAt s c = some h) (hx : s.heap h = some x) (hempty : n.FindsEmpty x s.lib) (v : Cell)
    (s' : State) (hrun : Run (reading b ResultSet.Shaped) .main (body n) s (.ok v) s') :
    ∃ w, s'.writes = s.writes ++ w ∧ n.HandsOver x s.lib v w := by
  have hsets : s.lib.Sets ResultSet.Shaped :=
    hcomes.invariant (I := fun s => s.lib.Sets ResultSet.Shaped)
      (fun _ _ _ _ _ hst hs => step_sets hst hs) fun _ _ hy => by cases hy
  exact ((wp_iff _ _ _).mp (body_handsOver hn hh hx hsets hempty)).1 v s' hrun

end

/-- A result set with one column and one row. -/
def oneWord : ResultSet := { fields := [['w']], rows := [[some ['a', 'b', 'c']]] }

/-- The environment in which every query has this result. -/
def wordReply : Reply := { rows := some oneWord }

lemma reading_wordReply {b : Build} {t : ThreadId} {β : Type} (a : Stmt β) (s : State) :
    (reading b ResultSet.Shaped).admits t a wordReply s := by
  refine ⟨trivial, fun _ => rfl, fun _ set hset => ?_⟩
  obtain rfl := Option.some.inj hset
  exact ⟨by decide, by decide⟩

/-- A run comes to the body of each native after whole actions. -/
lemma comes_body {as : List Action} {s : State}
    (hs : play (reading .win32 ResultSet.Shaped) (fun _ _ => wordReply) as (State.init []) = some s)
    (n : NativeCall) :
    Comes (reading .win32 ResultSet.Shaped) [] .main (body n) (s.record (.mark (.call n))) := by
  refine ⟨s, .native n, fun r => ?k, ?_, rfl, ?_⟩
  case k => exact .lift (.mark (.return n r)) >>= fun _ => pure ()
  · exact serial_of_play (fun _ a s => reading_wordReply a s) (fun a _ => Set.mem_univ a) hs
  · simp only [Action.code, native, bind_bind]
    exact .lift ⟨wordReply, reading_wordReply _ _, rfl⟩ (.refl _ _)

/-- A result with one row has been stored. -/
def stored : List Action :=
  [.native (.mysql_connect ['a'] [] [] [] 0), .native (.mysql_query ['q'] (-1) 0 1),
    .native (.mysql_store_result 1)]

/-- The row is fetched and written to the script. -/
theorem text_fresh_oneWord :
    ∃ s s', play (reading .win32 ResultSet.Shaped) (fun _ _ => wordReply) stored (State.init []) =
        some s ∧
      Run (reading .win32 ResultSet.Shaped) .main (body (.mysql_fetch_row_format 5 [','] 1))
        (s.record (.mark (.call (.mysql_fetch_row_format 5 [','] 1)))) (.ok 1) s' ∧
      s'.writes = [.setString 5 ['a', 'b', 'c']] := by
  have hrun : (play (reading .win32 ResultSet.Shaped) (fun _ _ => wordReply) stored
      (State.init [])).bind (fun s =>
        ((body (.mysql_fetch_row_format 5 [','] 1)).eval (reading .win32 ResultSet.Shaped) .main
          (fun _ _ => wordReply) (s.record (.mark (.call (.mysql_fetch_row_format 5 [','] 1))))).map
            fun r => (s.SQLHandle, (s.record (.mark (.call
              (.mysql_fetch_row_format 5 [','] 1)))).writes, r.1,
              (s.heap 0).map fun x => (x.fetchedRow s.lib, x.m_cSStream))) =
    some ([0], [], 1, some (some [some ['a', 'b', 'c']], {})) := by rfl
  obtain ⟨s, hs, hrun⟩ := Option.bind_eq_some_iff.mp hrun
  obtain ⟨⟨v, s'⟩, hrun, hvalues⟩ := Option.map_eq_some_iff.mp hrun
  simp only [Prod.mk.injEq] at hvalues
  obtain ⟨htable, hwrites, rfl, hx⟩ := hvalues
  obtain ⟨x, hx, hvalues⟩ := Option.map_eq_some_iff.mp hx
  obtain ⟨hrow, hstream⟩ := Prod.mk.injEq .. ▸ hvalues
  have hrun := run_of_eval (fun a s => reading_wordReply a s) _ hrun
  have hempty : NativeCall.FindsEmpty (.mysql_fetch_row_format 5 [','] 1) x s.lib := fun _ => hstream
  obtain ⟨w, hw, ha⟩ := text_fresh .win32 [] (comes_body hs (.mysql_fetch_row_format 5 [','] 1)) rfl
    (show handlerAt s 1 = some 0 by rw [handlerAt, htable]; rfl) hx hempty 1 s' hrun
  have ha : if rowReturned [','] (x.fetchedRow s.lib) ≠ NULL then
      (1 : Cell) = 1 ∧ w = [.setString 5 (rowReturned [','] (x.fetchedRow s.lib))]
    else (1 : Cell) = 0 ∧ w = [] := ha
  rw [hrow, if_pos (by decide)] at ha
  exact ⟨s, s', hs, hrun, by rw [hw, hwrites, ha.2]; rfl⟩

/-- `mysql_fetch_int` leaves a text that is not a number, and the next `mysql_fetch_float` converts
it without having fetched a row. -/
theorem text_stale :
    ¬ ∀ (b : Build) (p_Amx : List Amx) (n : NativeCall) (h : HandlerPtr) (x : CMySQLHandler)
      (c : Cell) (s : State), Comes (reading b ResultSet.Shaped) p_Amx .main (body n) s →
      n.fetches = some c → handlerAt s c = some h → s.heap h = some x → ∀ (v : Cell) (s' : State),
      Run (reading b ResultSet.Shaped) .main (body n) s (.ok v) s' →
      ∃ w, s'.writes = s.writes ++ w ∧ n.HandsOver x s.lib v w := by
  intro hall
  have hrun : (play (reading .win32 ResultSet.Shaped) (fun _ _ => wordReply)
      (stored ++ [.native (.mysql_fetch_int 1)]) (State.init [])).bind (fun s =>
        ((body (.mysql_fetch_float 5 1)).eval (reading .win32 ResultSet.Shaped) .main
          (fun _ _ => wordReply) (s.record (.mark (.call (.mysql_fetch_float 5 1))))).map
            fun r => (s.SQLHandle, r.1, (s.heap 0).map fun x => x.fetchedRow s.lib)) =
    some ([0], 1, some none) := by rfl
  obtain ⟨s, hs, hrun⟩ := Option.bind_eq_some_iff.mp hrun
  obtain ⟨⟨v, s'⟩, hrun, hvalues⟩ := Option.map_eq_some_iff.mp hrun
  simp only [Prod.mk.injEq] at hvalues
  obtain ⟨htable, rfl, hx⟩ := hvalues
  obtain ⟨x, hx, hrow⟩ := Option.map_eq_some_iff.mp hx
  obtain ⟨w, -, ha⟩ := hall .win32 [] _ _ x 1 _ (comes_body hs _) rfl
    (show handlerAt s 1 = some 0 by rw [handlerAt, htable]; rfl) hx 1 s'
    (run_of_eval (fun a s => reading_wordReply a s) _ hrun)
  have ha : if !(textOfRow [' '] (x.fetchedRow s.lib) []).isEmpty then
      (1 : Cell) = 1 ∧ w = [.setFloat 5 (some (textOfRow [' '] (x.fetchedRow s.lib) []))]
    else (1 : Cell) = 0 ∧ w = [.setFloat 5 none] := ha
  rw [hrow, if_neg (by decide)] at ha
  exact absurd ha.1 (by decide)

end MySQLPlugin
