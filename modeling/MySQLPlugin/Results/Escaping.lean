import MySQLPlugin.Handles.Names
import MySQLPlugin.Logic.Views

/-!
# Escaped strings

`mysql_real_escape_string` writes the escaped text into a local array of `8192 + 1` bytes, whatever
the length of the text. The whole text reaches the script if and only if it fits.
-/

namespace MySQLPlugin

open Threads Prog CMySQLHandler Natives

/-- The characters that are always escaped. -/
def isQuoted (c : Char) : Bool := c == '\'' || c == '"' || c == '\\'

/-- What libmysql writes for each character: one or two bytes, and two for quotes and backslashes. -/
structure Escapes (esc : Char → CString) : Prop where
  length : ∀ c, (esc c).length = 1 ∨ (esc c).length = 2
  quoted : ∀ c, isQuoted c = true → (esc c).length = 2

/-- The answer of libmysql is the text escaped by `esc`. -/
def Stmt.Escaped (esc : Char → CString) {β : Type} : Stmt β → Reply → Prop
  | .access _ (.mysql_real_escape_string source), r => r.text = some (source.flatMap esc)
  | _, _ => True

/-- The plugin with a libmysql that escapes by `esc`. -/
def escaping (b : Build) (esc : Char → CString) : Machine Stmt Fault State ThreadId Reply :=
  (plugin b).restrict fun _ a r _ => a.Escaped esc r

instance (b : Build) (esc : Char → CString) : IsPlugin (escaping b esc) b := ⟨fun _ _ _ => rfl⟩

lemma escaping_admits {b : Build} {esc : Char → CString} {t : ThreadId} {β : Type} (a : Stmt β)
    (s : State) : ∃ r, (escaping b esc).admits t a r s := by
  cases a with
  | access h f =>
    cases f with
    | mysql_real_escape_string source => exact ⟨{ text := some (source.flatMap esc) }, trivial, rfl⟩
    | _ => exact ⟨{}, trivial, trivial⟩
  | _ => exact ⟨{}, trivial, trivial⟩

section

variable {esc : Char → CString}

/-- The escaped text is at most twice as long, and longer by one for each quote. -/
lemma Escapes.bounds (hesc : Escapes esc) (source : CString) :
    (source.flatMap esc).length ≤ 2 * source.length ∧
      source.length + source.countP isQuoted ≤ (source.flatMap esc).length := by
  induction source with
  | nil => simp
  | cons c source ih =>
    obtain ⟨hle, hge⟩ := ih
    have hlength := hesc.length c
    rw [List.flatMap_cons, List.length_append, List.length_cons, List.countP_cons]
    constructor
    · omega
    · split_ifs with hc
      · have hquoted := hesc.quoted c hc
        omega
      · omega

variable {b : Build} {c dest : Cell} {h : HandlerPtr} {s : State} {x : CMySQLHandler}

/-- However libmysql answers, the script receives the whole escaped text, or nothing is written and
the native returns `0`. -/
def WholeEscaped (b : Build) (esc : Char → CString) (source : CString) (dest c : Cell) (s : State) :
    Prop :=
  ∀ o s', Run (escaping b esc) .main (native (.mysql_real_escape_string source dest c)) s o s' →
    ∃ v, o = .ok v ∧ (s'.writes = s.writes ++ [.setString dest (source.flatMap esc)] ∨
      v = 0 ∧ s'.writes = s.writes)

/-- The native on a connected handler: the text fits, or it overflows the buffer. -/
lemma native_mysql_real_escape_string_ends (b : Build) (esc : Char → CString) (dest : Cell)
    (hh : handlerAt s c = some h) (hx : s.heap h = some x)
    (hconn : x.m_bIsConnected = true) (hptr : x.m_stConnectionPtr.isSome) (source : CString) :
    (native (.mysql_real_escape_string source dest c)).wp (escaping b esc) .main
      (fun _ _ => 8192 < (source.flatMap esc).length)
      (fun _ s' => (source.flatMap esc).length ≤ 8192 ∧
        s'.writes = s.writes ++ [.setString dest (source.flatMap esc)]) s := by
  rw [native]
  refine wp_mark_record ?_
  rw [wp_bind]
  refine wp_handled (show handlerAt s c = some h from hh) ?_
  have hs := (Sees.refl hx).record (e := .mark (.call (.mysql_real_escape_string source dest c))) rfl
  rw [escapeStr, bind_bind]
  refine hs.wp_this ?_
  rw [hconn, Bool.not_true, if_neg Bool.false_ne_true, bind_bind]
  refine hs.wp_admitted (fun hnone => ?_) fun q r s₁ hr _ hs₁ => ?_
  · rw [hnone] at hptr
    cases hptr
  have htext : s.lib.access q r (.mysql_real_escape_string source) = source.flatMap esc := by
    have htext : r.text = some (source.flatMap esc) := hr.2
    rw [Libmysql.access, htext, Option.getD_some]
  rw [htext, ite_bind, wp_ite]
  split_ifs with hfits
  · refine hs₁.wp_setString fun s₂ hs₂ => wp_mark_record ?_
    exact ⟨Nat.le_of_succ_le_succ hfits, (hs₂.record rfl).writes⟩
  · exact Nat.lt_of_not_le fun hle => hfits (Nat.succ_le_succ hle)

/-- The whole text reaches the script if and only if it fits. -/
lemma wholeEscaped_iff (b : Build) (esc : Char → CString) (dest : Cell) (hh : handlerAt s c = some h)
    (hx : s.heap h = some x)
    (hconn : x.m_bIsConnected = true) (hptr : x.m_stConnectionPtr.isSome) (source : CString) :
    WholeEscaped b esc source dest c s ↔ (source.flatMap esc).length ≤ 8192 := by
  have hends := (wp_iff _ _ _).mp
    (native_mysql_real_escape_string_ends b esc dest hh hx hconn hptr source)
  constructor
  · intro hwhole
    obtain ⟨o, s', hrun⟩ := NativeCall.Looks.exists_run (M := escaping b esc) (t := .main)
      (n := .mysql_real_escape_string source dest c) trivial escaping_admits s
    obtain ⟨v, rfl, -⟩ := hwhole o s' hrun
    exact (hends.1 v s' hrun).1
  · intro hfits o s' hrun
    cases o with
    | ok v => exact ⟨v, rfl, .inl (hends.1 v s' hrun).2⟩
    | error e => exact absurd hfits (Nat.not_le_of_lt (hends.2 e s' hrun))

end

/-- For a connected handle the whole escaped text reaches the script if and only if it has at most
`8192` bytes. So every text of at most half that length is escaped whole, and none that is longer
with its quotes counted twice. -/
theorem escape_whole_iff (b : Build) {esc : Char → CString} (hesc : Escapes esc) {c : Cell}
    {h : HandlerPtr} {s : State} {x : CMySQLHandler} (hh : handlerAt s c = some h)
    (hx : s.heap h = some x) (hconn : x.m_bIsConnected = true) (hptr : x.m_stConnectionPtr.isSome)
    (source : CString) (dest : Cell) :
    (WholeEscaped b esc source dest c s ↔ (source.flatMap esc).length ≤ 8192) ∧
      (source.length ≤ 4096 → WholeEscaped b esc source dest c s) ∧
      (8192 < source.length + source.countP isQuoted → ¬ WholeEscaped b esc source dest c s) := by
  have hiff := wholeEscaped_iff b esc dest hh hx hconn hptr source
  obtain ⟨hle, hge⟩ := hesc.bounds source
  refine ⟨hiff, fun hshort => hiff.mpr ?_, fun hlong hwhole => ?_⟩
  · omega
  · have hfits := hiff.mp hwhole
    omega

/-- A backslash before each quote. -/
def backslashed (c : Char) : CString := if isQuoted c then ['\\', c] else [c]

lemma backslashed_escapes : Escapes backslashed where
  length c := by
    rw [backslashed]
    split_ifs <;> simp
  quoted c hc := by
    rw [backslashed, if_pos hc]
    rfl

/-- A connected handler, named `1`. -/
def connectedState : State where
  SQLHandle := [0]
  heap := Function.update (fun _ => none) 0 (some
    { m_Hostname := [], m_Username := [], m_Password := [], m_Database := [], m_Port := 0
      m_bIsConnected := true, m_stConnectionPtr := some 0 })

/-- Two letters around `4095` quotes, whose escaped form fills the buffer. -/
def fullText : CString := 'a' :: List.replicate 4095 '\'' ++ ['b']

lemma length_backslashed_quotes (n : Nat) :
    ((List.replicate n '\'').flatMap backslashed).length = 2 * n := by
  induction n with
  | zero => rfl
  | succ n ih =>
    rw [List.replicate_succ, List.flatMap_cons, List.length_append, ih, Nat.mul_succ, Nat.add_comm]
    rfl

lemma length_fullText : (fullText.flatMap backslashed).length = 8192 := by
  rw [fullText, List.flatMap_append, List.flatMap_cons, List.length_append, List.length_append,
    length_backslashed_quotes]
  rfl

/-- The text comes back whole. -/
theorem escape_whole_fullText : WholeEscaped .win32 backslashed fullText 5 1 connectedState :=
  (escape_whole_iff .win32 backslashed_escapes (h := 0) (s := connectedState) rfl rfl rfl rfl fullText
    5).1.mpr length_fullText.le

/-- `4097` quotes overflow the buffer. -/
theorem escape_quotes :
    ¬ ∀ (b : Build) (esc : Char → CString), Escapes esc → ∀ (c : Cell) (h : HandlerPtr) (s : State)
      (x : CMySQLHandler), handlerAt s c = some h → s.heap h = some x → x.m_bIsConnected = true →
      x.m_stConnectionPtr.isSome → ∀ source dest, WholeEscaped b esc source dest c s := by
  intro hall
  have hwhole := hall .win32 backslashed backslashed_escapes 1 0 connectedState _ rfl rfl rfl rfl
    (List.replicate 4097 '\'') 5
  have hfits := (wholeEscaped_iff _ _ _ (h := 0) rfl rfl rfl rfl _).mp hwhole
  have hlength := (backslashed_escapes.bounds (List.replicate 4097 '\'')).2
  rw [List.length_replicate, List.countP_replicate, if_pos (by decide)] at hlength
  omega

end MySQLPlugin
