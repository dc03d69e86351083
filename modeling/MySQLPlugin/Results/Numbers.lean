import MySQLPlugin.Results.Texts

/-!
# Numbers

`mysql_fetch_int` fetches a row as a text, checks that the text consists of digits and converts it.
The check knows no sign, so a negative number is taken for no number at all.
-/

namespace MySQLPlugin

open Threads Prog CMySQLHandler Natives

/-! ### The text of a number -/

/-- The text is the number in decimal digits, after a minus sign or none. -/
inductive Decimal : CString → Int → Prop
  | digits {ds : CString} : ds ≠ [] → (∀ c ∈ ds, c.isDigit) → Decimal ds (Nat.ofDigitChars 10 ds 0)
  | minus {ds : CString} : ds ≠ [] → (∀ c ∈ ds, c.isDigit) →
      Decimal ('-' :: ds) (-(Nat.ofDigitChars 10 ds 0 : Int))

/-- Every number has such a text. -/
lemma decimal_repr (v : Int) : Decimal v.repr.toList v := by
  have hdigits (n : Nat) : n.repr.toList ≠ [] ∧ ∀ c ∈ n.repr.toList, c.isDigit := by
    rw [Nat.toList_repr]
    exact ⟨Nat.toDigits_ne_nil, fun c hc => Nat.isDigit_of_mem_toDigits (by decide) (by decide) hc⟩
  have hvalue (n : Nat) : Nat.ofDigitChars 10 n.repr.toList 0 = n := by
    rw [Nat.toList_repr, Nat.ofDigitChars_ten_toDigits]
  cases v with
  | ofNat n =>
    have h := Decimal.digits (hdigits n).1 (hdigits n).2
    rwa [hvalue] at h
  | negSucc n =>
    have h := Decimal.minus (hdigits (n + 1)).1 (hdigits (n + 1)).2
    rw [hvalue] at h
    simpa [Int.repr, String.toList_append, Int.negSucc_eq, Int.neg_add, Int.add_comm] using h

lemma isNumeric_iff {text : CString} : isNumeric text = true ↔ ∀ c ∈ text, c.isDigit := by
  simp only [isNumeric, List.all_eq_true]
  refine forall₂_congr fun c _ => ?_
  simp [Char.isDigit, Char.le_def]

/-- The digits are converted to the number, if it fits. -/
lemma ctot_digits {ds : CString} (hfit : Nat.ofDigitChars 10 ds 0 < 2 ^ 31) :
    ctot ds = BitVec.ofInt 32 (Nat.ofDigitChars 10 ds 0) := by
  rw [ctot, ← Nat.ofDigitChars_eq_foldl, Nat.min_eq_left (by omega), BitVec.ofInt_natCast]

lemma Decimal.line {text : CString} {v : Int} (h : Decimal text v) : Line text := by
  have hline {ds : CString} (hds : ∀ c ∈ ds, c.isDigit) : '\n' ∉ ds := fun hmem => by
    have hdigit := hds _ hmem
    revert hdigit
    decide
  cases h with
  | digits _ hds => exact hline hds
  | minus _ hds =>
    intro hmem
    rcases List.mem_cons.mp hmem with heq | hmem
    · exact absurd heq (by decide)
    · exact hline hds hmem

/-! ### `mysql_fetch_int` -/

section

variable {b : Build} {h : HandlerPtr} {s : State} {x : CMySQLHandler} {p : ResPtr} {y : StoredResult}
  {c : Cell} {text : CString}

/-- What `mysql_fetch_int` returns for a text, and the text that it leaves. -/
def convert (text : CString) : Cell × CString :=
  if isNumeric text && !text.isEmpty then (ctot text, []) else (-1, text)

/-- What `mysql_fetch_int` does with the only value of the next row. -/
lemma fetchInt_wp (hh : handlerAt s c = some h) (hx : s.heap h = some x)
    (hconn : x.m_bIsConnected = true) (hstream : x.m_cSStream = {})
    (hres : x.m_stResult = .set (some p)) (hlive : s.lib.live p = some y) (hset : y.set.Shaped)
    (hrow : y.nextRow = some [some text]) (hline : Line text) :
    (native (.mysql_fetch_int c)).wp (plugin b) .main (fun _ _ => False) (fun v s' =>
      v = (convert text).1 ∧ s'.heap h = some { x.atRow p y (some ⟨p, y.next⟩) with
        Delimiter := [' '], m_cSStream := {}, m_szResult := (convert text).2 }) s := by
  have hwidth : (BitVec.ofNat 32 y.set.fields.length).toNat = [some text].length :=
    hset.toNat_count.trans (hset.width _ (List.mem_of_getElem? hrow)).symm
  -- the object when `FetchRow` is called, and what it makes of the row
  let x₁ := (Assign.Delimiter [' ']).apply x
  have htake : (x₁.atRow p y (some ⟨p, y.next⟩)).takeText [some text] = (text,
      { x.atRow p y (some ⟨p, y.next⟩) with
        Delimiter := [' '], m_cSStream := {}, m_szResult := text }) := by
    have hlines : Lines [some text] := by simpa [Lines, valueText] using hline
    have h := takeText_line (x := x₁.atRow p y (some ⟨p, y.next⟩)) (d := ' ') hstream rfl (by decide)
      hlines (by simp)
    simpa [joined, valueText, x₁, CMySQLHandler.atRow, Assign.apply] using h
  have hs := (Sees.refl hx).record (e := .mark (.call (.mysql_fetch_int c))) rfl
  refine wp_mark_record ?_
  rw [wp_bind]
  refine wp_handled hh (hs.wp_assign rfl fun s₁ hs₁ => ?_)
  rw [wp_bind]
  refine hs₁.fetchRow_row hconn hres hlive hwidth hrow fun s₂ hs₂ => hs₂.wp_this ?_
  rw [htake] at hs₂ ⊢
  rw [wp_ite, convert]
  split_ifs with hnum
  · exact hs₂.wp_assign rfl fun s₃ hs₃ => wp_mark_record ⟨rfl, hs₃.heap⟩
  · exact wp_mark_record ⟨rfl, hs₂.heap⟩

/-- For a row with one value, the text of a 32-bit number, `mysql_fetch_int` returns the number and
leaves both buffers empty if and only if the text has no minus sign. -/
theorem fetchInt_iff (b : Build) {v : Int} (hh : handlerAt s c = some h) (hx : s.heap h = some x)
    (hconn : x.m_bIsConnected = true) (hstream : x.m_cSStream = {})
    (hres : x.m_stResult = .set (some p)) (hlive : s.lib.live p = some y) (hset : y.set.Shaped)
    (hrow : y.nextRow = some [some text]) (htext : Decimal text v)
    (hv : -2 ^ 31 ≤ v ∧ v < 2 ^ 31) :
    Leaves b h (fun r x' => r = BitVec.ofInt 32 v ∧ x'.m_szResult = [] ∧ x'.m_cSStream = {})
      (native (.mysql_fetch_int c)) s ↔ '-' ∉ text := by
  have hlooks : (NativeCall.mysql_fetch_int c).Looks := trivial
  have hruns := hlooks.exists_run (M := plugin b) (t := .main) (fun _ _ => ⟨{}, trivial⟩) s
  rw [leaves_iff hruns (fetchInt_wp hh hx hconn hstream hres hlive hset hrow htext.line)]
  cases htext with
  | digits hne hds =>
    have hsign : '-' ∉ text := fun hmem => absurd (hds _ hmem) (by decide)
    have hconvert : convert text = (ctot text, []) := by
      simp [convert, isNumeric_iff.mpr hds, hne]
    have hfit : Nat.ofDigitChars 10 text 0 < 2 ^ 31 := by omega
    simp [hconvert, hsign, ctot_digits hfit]
  | minus hne hds => simp [convert, isNumeric]

end

/-- One handler, connected, that has stored a result set with one number. -/
def numberStored (v : Int) : State :=
  { storedWith [] { fields := [['n']], rows := [[some v.repr.toList]] } with SQLHandle := [0] }

/-- The largest number is returned. -/
theorem fetchInt_largest :
    Leaves .win32 0 (fun r x' => r = BitVec.ofInt 32 2147483647 ∧ x'.m_szResult = [] ∧
      x'.m_cSStream = {}) (native (.mysql_fetch_int 1)) (numberStored 2147483647) :=
  (fetchInt_iff .win32 (h := 0) (s := numberStored 2147483647) (c := 1) (p := 0)
    (y := { set := { fields := [['n']], rows := [[some (2147483647 : Int).repr.toList]] } })
    rfl rfl rfl rfl rfl rfl ⟨by decide, by simp⟩ rfl (decimal_repr 2147483647) (by decide)).mpr
    (by decide)

/-- For `-5` the native returns `-1`, and its text stays behind. -/
theorem fetchInt_negative :
    ¬ ∀ (b : Build) (h : HandlerPtr) (s : State) (x : CMySQLHandler) (p : ResPtr) (y : StoredResult)
      (c : Cell) (text : CString) (v : Int), handlerAt s c = some h → s.heap h = some x →
      x.m_bIsConnected = true → x.m_cSStream = {} → x.m_stResult = .set (some p) →
      s.lib.live p = some y → y.set.Shaped → y.nextRow = some [some text] → Decimal text v →
      -2 ^ 31 ≤ v ∧ v < 2 ^ 31 →
      Leaves b h (fun r x' => r = BitVec.ofInt 32 v ∧ x'.m_szResult = [] ∧ x'.m_cSStream = {})
        (native (.mysql_fetch_int c)) s := by
  intro hall
  have hrun : ((native (.mysql_fetch_int 1)).eval (plugin .win32) .main (fun _ _ => {})
      (numberStored (-5))).map (fun r => (r.1, (r.2.heap 0).map (·.m_szResult)))
      = some (-1, some ['-', '5']) := by decide +kernel
  obtain ⟨⟨v, s'⟩, hrun, hvalue⟩ := Option.map_eq_some_iff.mp hrun
  obtain ⟨hv, -⟩ := Prod.mk.inj hvalue
  obtain ⟨-, hleaves⟩ := hall .win32 0 (numberStored (-5)) _ 0
    { set := { fields := [['n']], rows := [[some (-5 : Int).repr.toList]] } } 1 _ (-5)
    rfl rfl rfl rfl rfl rfl ⟨by decide, by simp⟩ rfl (decimal_repr (-5)) (by decide)
  obtain ⟨r, x, hr, -, hreturned, -⟩ := hleaves _ s' (run_of_eval (fun _ _ => trivial) _ hrun)
  obtain rfl : v = r := Except.ok.inj hr
  exact absurd (hv.symm.trans hreturned) (by decide)

end MySQLPlugin
