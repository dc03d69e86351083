import MySQLPlugin.Results.Texts
import MySQLPlugin.Threads.Loops

/-!
# Loops over a stored result

A script calls `mysql_fetch_row_format` until it returns `0`. The end of the rows is signalled by the
text `NULL`, so that a row whose own text is `NULL` ends the loop as well.
-/

namespace MySQLPlugin

open Threads Prog CMySQLHandler Natives

/-! ### The loop of a script -/

/-- A script calls the native until it returns `0`; `k` counts the calls before. -/
def untilZero (n : NativeCall) (k : Nat) : Code (Nat ⊕ Nat) := do
  if (← native n) = 0 then pure (.inr k) else pure (.inl (k + 1))

/-- From its `k`-th call on, the loop ends after `count` calls that do not return `0`. -/
def LoopsFrom (b : Build) (n : NativeCall) (k count : Nat) (s : State) : Prop :=
  (∃ o s', Loop (plugin b) .main (untilZero n) k s o s') ∧
    ∀ o s', Loop (plugin b) .main (untilZero n) k s o s' → o = .ok count

section

variable {b : Build} {n : NativeCall} {s : State} {k count : Nat}

/-- The first call ends the loop. -/
lemma loopsFrom_stop (hrun : ∃ o s', Run (plugin b) .main (untilZero n k) s o s')
    (hwp : (native n).wp (plugin b) .main (fun _ _ => False) (fun v _ => v = 0) s) :
    LoopsFrom b n k count s ↔ count = k := by
  have hbody : (untilZero n k).wp (plugin b) .main (fun _ _ => False) (fun r _ => r = .inr k) s := by
    rw [untilZero, wp_bind]
    refine wp_mono hwp fun v s' hv => ?_
    rw [if_pos hv]
    rfl
  obtain ⟨hok, herr⟩ := (wp_iff _ _ _).mp hbody
  have hall {o : Except Fault Nat} {s' : State}
      (hloop : Loop (plugin b) .main (untilZero n) k s o s') : o = .ok k := by
    cases hloop with
    | done hrun => exact congrArg Except.ok (Sum.inr.inj (hok _ _ hrun))
    | fault hrun => exact (herr _ _ hrun).elim
    | again hrun => cases hok _ _ hrun
  have hloop : ∃ s', Loop (plugin b) .main (untilZero n) k s (.ok k) s' := by
    obtain ⟨o, s', hrun⟩ := hrun
    cases o with
    | error e => exact (herr e s' hrun).elim
    | ok r =>
      obtain rfl := hok r s' hrun
      exact ⟨s', .done hrun⟩
  obtain ⟨s', hloop⟩ := hloop
  constructor
  · rintro ⟨-, hcount⟩
    exact (Except.ok.inj (hcount _ _ hloop)).symm
  · rintro rfl
    exact ⟨⟨_, s', hloop⟩, fun o s' h => hall h⟩

/-- The first call does not end the loop. -/
lemma loopsFrom_again {P : Prop} (hrun : ∃ o s', Run (plugin b) .main (untilZero n k) s o s')
    (hwp : (native n).wp (plugin b) .main (fun _ _ => False)
      (fun v s' => v ≠ 0 ∧ (LoopsFrom b n (k + 1) count s' ↔ P)) s) :
    LoopsFrom b n k count s ↔ P := by
  have hbody : (untilZero n k).wp (plugin b) .main (fun _ _ => False)
      (fun r s' => r = .inl (k + 1) ∧ (LoopsFrom b n (k + 1) count s' ↔ P)) s := by
    rw [untilZero, wp_bind]
    refine wp_mono hwp fun v s' hv => ?_
    rw [if_neg hv.1]
    exact ⟨rfl, hv.2⟩
  obtain ⟨hok, herr⟩ := (wp_iff _ _ _).mp hbody
  constructor
  · rintro ⟨⟨o, s', hloop⟩, hcount⟩
    cases hloop with
    | done hrun => cases (hok _ _ hrun).1
    | fault hrun => exact (herr _ _ hrun).elim
    | again hrun hloop =>
      obtain ⟨hx, hiff⟩ := hok _ _ hrun
      obtain rfl := Sum.inl.inj hx
      exact hiff.mp ⟨⟨_, _, hloop⟩, fun o s' hloop => hcount _ _ (.again hrun hloop)⟩
  · intro hP
    obtain ⟨o, s₁, hrun⟩ := hrun
    constructor
    · cases o with
      | error e => exact (herr e s₁ hrun).elim
      | ok r =>
        obtain ⟨rfl, hiff⟩ := hok r s₁ hrun
        obtain ⟨⟨o, s', hloop⟩, -⟩ := hiff.mpr hP
        exact ⟨o, s', .again hrun hloop⟩
    · intro o s' hloop
      cases hloop with
      | done hrun => cases (hok _ _ hrun).1
      | fault hrun => exact (herr _ _ hrun).elim
      | again hrun hloop =>
        obtain ⟨hx, hiff⟩ := hok _ _ hrun
        obtain rfl := Sum.inl.inj hx
        exact (hiff.mpr hP).2 _ _ hloop

end

/-! ### Reading through the stream -/

/-- No row that is read after `text` through the stream `st` gives a text that means the end. -/
def Visible (d : Char) : StringStream → CString → List (List (Option CString)) → Prop
  | _, _, [] => True
  | st, text, row :: rows =>
    let r := (rowStream [d] row st).read text
    r.1 ≠ [] ∧ r.1.dropLast ≠ NULL ∧ Visible d r.2.clear [] rows

/-- In an empty stream these are the rows whose values joined by the delimiter are the text
`NULL`. -/
lemma visible_iff {d : Char} (hd : d ≠ '\n') {rows : List (List (Option CString))}
    (hcolumns : ∀ row ∈ rows, row ≠ []) (hlines : ∀ row ∈ rows, Lines row) (text : CString) :
    Visible d {} text rows ↔ ∀ row ∈ rows, joined [d] row ≠ NULL := by
  induction rows generalizing text with
  | nil => simp [Visible]
  | cons row rows ih =>
    have hcolumn := hcolumns row List.mem_cons_self
    have hread : (rowStream [d] row {}).read text =
        (joined [d] row ++ [d], { unread := [], eof := true, failed := true }) := by
      rw [rowStream_of_good rfl, ← rowLine_eq [d] hcolumn]
      exact StringStream.read_line rfl
        ((hlines row List.mem_cons_self).rowLine (by simpa [Line] using hd.symm)) _
    have hrest := ih (fun row' hrow' => hcolumns row' (List.mem_cons_of_mem row hrow'))
      (fun row' hrow' => hlines row' (List.mem_cons_of_mem row hrow')) []
    rw [Visible, hread, List.forall_mem_cons]
    dsimp only
    rw [List.dropLast_concat, ← hrest]
    exact and_iff_right (by simp)

section

variable {b : Build} {c dest : Cell} {h : HandlerPtr} {p : ResPtr} {y : StoredResult} {d : Char}
  {st : StringStream} {text : CString} {s : State}

/-- The connected handler that `c` names reads the result `y` at `p`, with these texts in its
buffers. -/
structure ReadsAt (c : Cell) (h : HandlerPtr) (p : ResPtr) (y : StoredResult) (st : StringStream)
    (text : CString) (s : State) : Prop where
  handler : handlerAt s c = some h
  object : ∃ x, s.heap h = some x ∧ x.m_bIsConnected = true ∧ x.m_stConnectionPtr.isSome ∧
    x.m_stResult = .set (some p) ∧ x.m_cSStream = st ∧ x.m_szResult = text
  live : s.lib.live p = some y

/-- Without another row the native returns `0`. -/
lemma fetch_end (hs : ReadsAt c h p y st text s) (hrow : y.nextRow = none) :
    (native (.mysql_fetch_row_format dest [d] c)).wp (plugin b) .main (fun _ _ => False)
      (fun v _ => v = 0) s := by
  obtain ⟨hh, ⟨x, hx, hconn, hptr, hres, -, -⟩, hlive⟩ := hs
  rw [native]
  refine wp_mark_record ?_
  rw [wp_bind]
  refine wp_handled (show handlerAt s c = some h from hh) ?_
  have hs : Sees h x s.lib s.writes (s.record (.mark (.call (.mysql_fetch_row_format dest [d] c)))) :=
    (Sees.refl hx).record rfl
  refine hs.wp_assign rfl fun s₁ hs₁ => ?_
  rw [wp_bind]
  refine hs₁.fetchRow_end hconn hres hlive hrow (fun hnone => ?_) fun e s₂ hs₂ => ?_
  · rw [show x.m_stConnectionPtr = none from hnone] at hptr
    cases hptr
  · rw [if_neg (not_not.mpr rfl)]
    exact wp_mark_record rfl

/-- For the next row the native returns `1` and leaves the rest of the stream, unless the text means the
end. -/
lemma fetch_row (b : Build) (dest : Cell) (d : Char) {x : CMySQLHandler} {row : List (Option CString)}
    (hh : handlerAt s c = some h) (hx : s.heap h = some x) (hconn : x.m_bIsConnected = true)
    (hres : x.m_stResult = .set (some p)) (hlive : s.lib.live p = some y) (hset : y.set.Shaped) (hrow : y.nextRow = some row) :
    (native (.mysql_fetch_row_format dest [d] c)).wp (plugin b) .main (fun _ _ => False)
      (fun v s' =>
        if ((rowStream [d] row x.m_cSStream).read x.m_szResult).1 ≠ [] ∧
            ((rowStream [d] row x.m_cSStream).read x.m_szResult).1.dropLast ≠ NULL then
          v = 1 ∧ s'.lib = (s.lib.onResult p y .mysql_fetch_row).2 ∧
            s'.heap h = some { x.atRow p y (some ⟨p, y.next⟩) with
              Delimiter := [d], m_szResult := []
              m_cSStream := ((rowStream [d] row x.m_cSStream).read x.m_szResult).2.clear }
        else v = 0) s := by
  have hwidth : (BitVec.ofNat 32 y.set.fields.length).toNat = row.length :=
    hset.toNat_count.trans (hset.width row (List.mem_of_getElem? hrow)).symm
  rw [native]
  refine wp_mark_record ?_
  rw [wp_bind]
  refine wp_handled (show handlerAt s c = some h from hh) ?_
  have hs : Sees h x s.lib s.writes (s.record (.mark (.call (.mysql_fetch_row_format dest [d] c)))) :=
    (Sees.refl hx).record rfl
  refine hs.wp_assign rfl fun s₁ hs₁ => ?_
  rw [wp_bind]
  refine hs₁.fetchRow_row hconn hres hlive hwidth hrow fun s₂ hs₂ => ?_
  by_cases hempty : ((rowStream [d] row x.m_cSStream).read x.m_szResult).1 = []
  · have htext : (((Assign.Delimiter [d]).apply x).atRow p y (some ⟨p, y.next⟩)).takeText row =
        (NULL, _) := if_pos (List.isEmpty_iff.mpr hempty)
    rw [htext, if_neg (not_not.mpr rfl)]
    exact wp_mark_record (cast (if_neg fun h => h.1 hempty).symm rfl)
  have htext : (((Assign.Delimiter [d]).apply x).atRow p y (some ⟨p, y.next⟩)).takeText row =
      (((rowStream [d] row x.m_cSStream).read x.m_szResult).1.dropLast, _) :=
    if_neg fun hnil => hempty (List.isEmpty_iff.mp hnil)
  rw [htext] at hs₂ ⊢
  by_cases hnull : ((rowStream [d] row x.m_cSStream).read x.m_szResult).1.dropLast = NULL
  · rw [if_neg (not_not.mpr hnull)]
    exact wp_mark_record (cast (if_neg fun h => h.2 hnull).symm rfl)
  · rw [if_pos hnull]
    refine hs₂.wp_setString fun s₃ hs₃ => hs₃.wp_assign rfl fun s₄ hs₄ => wp_mark_record ?_
    exact cast (if_pos ⟨hempty, hnull⟩).symm ⟨rfl, hs₄.lib, hs₄.heap⟩

/-- The handler reads on after that row. -/
lemma fetch_next (b : Build) (dest : Cell) (d : Char) {row : List (Option CString)}
    (hs : ReadsAt c h p y st text s) (hset : y.set.Shaped) (hrow : y.nextRow = some row) :
    (native (.mysql_fetch_row_format dest [d] c)).wp (plugin b) .main (fun _ _ => False)
      (fun v s' =>
        if ((rowStream [d] row st).read text).1 ≠ [] ∧
            ((rowStream [d] row st).read text).1.dropLast ≠ NULL then
          v = 1 ∧ ReadsAt c h p y.fetched ((rowStream [d] row st).read text).2.clear [] s'
        else v = 0) s := by
  obtain ⟨hh, ⟨x, hx, hconn, hptr, hres, rfl, rfl⟩, hlive⟩ := hs
  have hstays : (native (.mysql_fetch_row_format dest [d] c)).All (Stmt.Only .main Event.Stays) :=
    all_only_mono (native_looks .main trivial) fun e he => by
      rcases he with he | ⟨m, rfl⟩
      · exact he.quiet.stays
      · trivial
  have htable := wp_table (M := plugin b) (s := s) hstays
  have hfetched := fetch_row b dest d hh hx hconn hres hlive hset hrow
  refine wp_mono (wp_and hfetched htable) fun v s' hs' => ?_
  obtain ⟨hs', ht⟩ := hs'
  split_ifs at hs' ⊢
  · obtain ⟨rfl, hlib, hx'⟩ := hs'
    have hy := Libmysql.live_fetch_row hlive p
    rw [if_pos rfl] at hy
    refine ⟨rfl, ?_, ⟨_, hx', hconn, hptr, hres, rfl, rfl⟩, ?_⟩
    · rw [handlerAt, ht]
      exact hh
    · rw [hlib]
      exact hy
  · exact hs'

/-- A call that only looks, in the loop of a script, has a run. -/
lemma untilZero_runs {n : NativeCall} (hn : n.Looks) (k : Nat) (s : State) :
    ∃ o s', Run (plugin b) .main (untilZero n k) s o s' := by
  refine IsPlugin.exists_run (M := plugin b) (fun _ _ => trivial) (fun hlock => ?_)
    ((native_looks .main hn).bind fun v => ?_) s
  · rcases hlock with h | ⟨m, h⟩
    · exact h
    · cases h
  · rw [all_ite]
    exact ⟨fun _ => trivial, fun _ => trivial⟩

/-- The loop goes on to the end of the rows if and only if no row gives a text that means the end. -/
lemma ReadsAt.loops (b : Build) (dest : Cell) (d : Char) (hs : ReadsAt c h p y st text s)
    (hset : y.set.Shaped) (k : Nat) :
    LoopsFrom b (.mysql_fetch_row_format dest [d] c) k (k + (y.set.rows.drop y.next).length) s ↔
      Visible d st text (y.set.rows.drop y.next) := by
  have hrun := untilZero_runs (b := b) (n := .mysql_fetch_row_format dest [d] c) trivial
  generalize hrows : y.set.rows.drop y.next = rows
  induction rows generalizing y st text s k with
  | nil =>
    have hrow : y.nextRow = none :=
      List.getElem?_eq_none (List.drop_eq_nil_iff.mp hrows)
    rw [loopsFrom_stop (hrun k s) (fetch_end hs hrow)]
    simp [Visible]
  | cons row rows ih =>
    have hrow : y.nextRow = some row := by
      rw [StoredResult.nextRow, ← List.head?_drop, hrows, List.head?_cons]
    have hlt : y.next < y.set.rows.length := (List.getElem?_eq_some_iff.mp hrow).1
    have hfetched : y.fetched = { y with next := y.next + 1 } := if_pos hlt
    have hrest : y.fetched.set.rows.drop y.fetched.next = rows := by
      rw [hfetched, ← List.drop_drop, hrows]
      rfl
    have hset' : y.fetched.set.Shaped := by rwa [hfetched]
    have hnext := fetch_next b dest d hs hset hrow
    rw [Visible, List.length_cons]
    by_cases hshown : ((rowStream [d] row st).read text).1 ≠ [] ∧
        ((rowStream [d] row st).read text).1.dropLast ≠ NULL
    · simp only [if_pos hshown] at hnext
      rw [← and_assoc, and_iff_right hshown]
      refine loopsFrom_again (hrun k s) (wp_mono hnext fun v s' hs' => ?_)
      obtain ⟨rfl, hs'⟩ := hs'
      rw [Nat.add_comm rows.length 1, ← Nat.add_assoc]
      exact ⟨by decide, ih hs' hset' (k + 1) hrest⟩
    · simp only [if_neg hshown] at hnext
      rw [loopsFrom_stop (hrun k s) hnext, ← and_assoc]
      simp [hshown]

end

/-- The loop of a script ends after `count` successful calls. -/
abbrev LoopsFor (b : Build) (n : NativeCall) (count : Nat) (s : State) : Prop :=
  LoopsFrom b n 0 count s

/-- For a result that has just been stored, the loop makes one successful call for each row if and
only if no row gives a text that means the end. From an empty stream these are the rows whose values,
joined by the delimiter, are the text `NULL`. -/
theorem fetch_loop_iff (b : Build) {c dest : Cell} {h : HandlerPtr} {s : State} {x : CMySQLHandler}
    {p : ResPtr} {y : StoredResult} {d : Char} (hh : handlerAt s c = some h)
    (hx : s.heap h = some x) (hconn : x.m_bIsConnected = true)
    (hptr : x.m_stConnectionPtr.isSome) (hres : x.m_stResult = .set (some p))
    (hlive : s.lib.live p = some y) (hfresh : y.next = 0) (hset : y.set.Regular) (hd : d ≠ '\n') :
    (LoopsFor b (.mysql_fetch_row_format dest [d] c) y.set.rows.length s ↔
        Visible d x.m_cSStream x.m_szResult y.set.rows) ∧
      (x.m_cSStream = {} → (LoopsFor b (.mysql_fetch_row_format dest [d] c) y.set.rows.length s ↔
        ∀ row ∈ y.set.rows, joined [d] row ≠ NULL)) := by
  have hs : ReadsAt c h p y x.m_cSStream x.m_szResult s :=
    ⟨hh, ⟨x, hx, hconn, hptr, hres, rfl, rfl⟩, hlive⟩
  have hloops := hs.loops b dest d ⟨hset.count, hset.width⟩ 0
  rw [hfresh, List.drop_zero, Nat.zero_add] at hloops
  refine ⟨hloops, fun hstream => ?_⟩
  rw [LoopsFor, hloops, hstream]
  refine visible_iff hd (fun row hrow => ?_) hset.lines _
  have hwidth := hset.width row hrow
  rw [← List.length_pos_iff, hwidth]
  exact hset.columns

/-- A connected handler, named `1`, that has stored the result set. -/
def openStored (set : ResultSet) : State where
  SQLHandle := [0]
  heap := Function.update (fun _ => none) 0 (some
    { m_Hostname := [], m_Username := [], m_Password := [], m_Database := [], m_Port := 0
      m_bIsConnected := true, m_stConnectionPtr := some 0, m_stResult := .set (some 0)
      m_stRow := .set none })
  lib := ({} : Libmysql).newResult set

/-- A result set with two columns and three rows. -/
def threeRows : ResultSet where
  fields := [['i', 'd'], ['n']]
  rows := [[some ['1'], none], [some ['2'], some ['a', ' ', 'b']], [none, some ['c']]]

lemma threeRows_regular : threeRows.Regular where
  columns := by decide
  count := by decide
  width := by decide
  lines := by simp [threeRows, Lines, Line, valueText, NULL]

/-- The loop over three rows makes three successful calls. -/
theorem fetch_loop_threeRows :
    LoopsFor .win32 (.mysql_fetch_row_format 5 [','] 1) 3 (openStored threeRows) :=
  ((fetch_loop_iff .win32 (h := 0) (s := openStored threeRows) (p := 0) (y := { set := threeRows })
    rfl rfl rfl rfl rfl rfl rfl threeRows_regular (by decide)).2 rfl).mpr (by decide)

/-- A result set with one column and three rows, the second of which is SQL NULL. -/
def middleNull : ResultSet := { fields := [['n']], rows := [[some ['a']], [none], [some ['b']]] }

lemma middleNull_regular : middleNull.Regular where
  columns := by decide
  count := by decide
  width := by decide
  lines := by simp [middleNull, Lines, Line, valueText, NULL]

/-- The loop ends at the second row. -/
theorem fetch_loop_middleNull :
    ¬ ∀ (b : Build) (c dest : Cell) (h : HandlerPtr) (s : State) (x : CMySQLHandler) (p : ResPtr)
      (y : StoredResult) (d : Char), handlerAt s c = some h → s.heap h = some x →
      x.m_bIsConnected = true → x.m_stConnectionPtr.isSome → x.m_stResult = .set (some p) →
      s.lib.live p = some y → y.next = 0 → y.set.Regular → d ≠ '\n' →
      LoopsFor b (.mysql_fetch_row_format dest [d] c) y.set.rows.length s := by
  intro hall
  have hrun : ((untilZero (.mysql_fetch_row_format 5 [','] 1) 0).eval (plugin .win32) .main
      (fun _ _ => {}) (openStored middleNull)).bind (fun r =>
        ((untilZero (.mysql_fetch_row_format 5 [','] 1) 1).eval (plugin .win32) .main (fun _ _ => {})
          r.2).map fun r' => (r.1, r'.1)) = some (.inl 1, .inr 1) := by rfl
  obtain ⟨⟨r, s₁⟩, hfirst, hrun⟩ := Option.bind_eq_some_iff.mp hrun
  obtain ⟨⟨r', s₂⟩, hsecond, hvalues⟩ := Option.map_eq_some_iff.mp hrun
  simp only [Prod.mk.injEq] at hvalues
  obtain ⟨rfl, rfl⟩ := hvalues
  have hloop : Loop (plugin .win32) .main (untilZero (.mysql_fetch_row_format 5 [','] 1)) 0
      (openStored middleNull) (.ok 1) s₂ :=
    .again (run_of_eval (fun _ _ => trivial) _ hfirst)
      (.done (run_of_eval (fun _ _ => trivial) _ hsecond))
  have hloops := hall .win32 1 5 0 (openStored middleNull) _ 0 { set := middleNull } ',' rfl rfl rfl
    rfl rfl rfl rfl middleNull_regular (by decide)
  exact absurd (Except.ok.inj (hloops.2 _ _ hloop)) (by decide)

end MySQLPlugin
