import Mathlib.Logic.Function.Basic
import MySQLPlugin.Model.Data

/-!
# The client library

The connection objects and result sets that libmysql hands out, and what its functions do to
them. What the server and the network decide is a `Reply` of the environment.

A call that talks to the server (`LibCall`) has a beginning and an end; an accessor
(`LibAccess`, `ResCall`) is a single step.
-/

namespace MySQLPlugin

/-- A result set as the server sends it. SQL NULL is `none`. -/
structure ResultSet where
  fields : List CString
  rows : List (List (Option CString))
  deriving DecidableEq

/-- What the environment answers to one statement. Each statement reads only the components that
concern it. -/
structure Reply where
  /-- The call succeeds. -/
  ok : Bool := true
  /-- The error number of a failed call, or the status of a call that returns one. -/
  code : BitVec 32 := 0
  /-- The error message of a failed call, or the text that a call returns. -/
  text : Option CString := none
  /-- The number that a call returns. -/
  number : BitVec 64 := 0
  /-- The rows that a statement produces, or that `mysql_store_result` reads. -/
  rows : Option ResultSet := none
  /-- What an unassigned pointer member holds. -/
  pointer : Option (Nat × Nat) := none
  /-- The natives that a public called by `ProcessTick` runs before it returns. -/
  natives : List NativeCall := []

/-- A connection object. -/
structure Connection where
  /-- `mysql_close` has been called on it. -/
  closed : Bool := false
  /-- The last statement executed on it, as the position of its execution in the trace. -/
  last : Option Nat := none
  /-- The result that is still to be read. -/
  pending : Option ResultSet := none
  errno : BitVec 32 := 0
  error : CString := []

/-- The result of a call that succeeds or fails is kept for `mysql_errno` and `mysql_error`. -/
def Connection.report (x : Connection) (r : Reply) : Connection :=
  if r.ok then { x with errno := 0, error := [] }
  else { x with errno := r.code, error := r.text.getD [] }

/-- A stored result: its rows, the number of rows fetched, and whether it has been freed. -/
structure StoredResult where
  set : ResultSet
  next : Nat := 0
  freed : Bool := false

/-- The objects of the library. -/
structure Libmysql where
  conn : ConnPtr → Connection := fun _ => {}
  nextConn : Nat := 0
  result : ResPtr → Option StoredResult := fun _ => none
  nextRes : Nat := 0

namespace Libmysql

def modifyConn (l : Libmysql) (c : ConnPtr) (f : Connection → Connection) : Libmysql :=
  { l with conn := Function.update l.conn c (f (l.conn c)) }

@[simp] lemma modifyConn_self (l : Libmysql) (c : ConnPtr) (f : Connection → Connection) :
    (l.modifyConn c f).conn c = f (l.conn c) := by simp [modifyConn]

lemma modifyConn_of_ne (l : Libmysql) {c d : ConnPtr} (f : Connection → Connection) (h : d ≠ c) :
    (l.modifyConn c f).conn d = l.conn d := by simp [modifyConn, h]

@[simp] lemma modifyConn_nextConn (l : Libmysql) (c : ConnPtr) (f : Connection → Connection) :
    (l.modifyConn c f).nextConn = l.nextConn := rfl

@[simp] lemma modifyConn_result (l : Libmysql) (c : ConnPtr) (f : Connection → Connection) :
    (l.modifyConn c f).result = l.result := rfl

/-- A fresh connection object. -/
def newConn (l : Libmysql) : Libmysql :=
  { l with conn := Function.update l.conn l.nextConn {}, nextConn := l.nextConn + 1 }

/-- A fresh result set. -/
def newResult (l : Libmysql) (set : ResultSet) : Libmysql :=
  { l with result := Function.update l.result l.nextRes (some { set }), nextRes := l.nextRes + 1 }

def setResult (l : Libmysql) (r : ResPtr) (x : StoredResult) : Libmysql :=
  { l with result := Function.update l.result r (some x) }

/-- The stored result behind a pointer that has not been freed. -/
def live (l : Libmysql) (r : ResPtr) : Option StoredResult :=
  (l.result r).filter (!·.freed)

end Libmysql

/-! ### Calls that talk to the server -/

inductive LibCall where
  | mysql_real_connect (host user passwd db : CString) (port : BitVec 32)
  | mysql_close
  | mysql_ping
  | mysql_real_query (query : CString)
  | mysql_store_result
  | mysql_stat
  | mysql_set_character_set (charset : CString)
  | mysql_reload
  deriving DecidableEq

/-- What the call returns. A status is `true` for success. -/
abbrev LibCall.Ret : LibCall → Type
  | .mysql_real_connect .. => Bool
  | .mysql_close => Unit
  | .mysql_ping => Bool
  | .mysql_real_query _ => Bool
  | .mysql_store_result => Option ResPtr
  | .mysql_stat => Option CString
  | .mysql_set_character_set _ => BitVec 32
  | .mysql_reload => BitVec 32

namespace Libmysql

/-- The call begins. `mysql_close` ends the life of the object. -/
def begin (l : Libmysql) (c : ConnPtr) : LibCall → Libmysql
  | .mysql_close => l.modifyConn c fun x => { x with closed := true }
  | _ => l

/-- The call ends with the reply `r`; `now` is the position of its end in the trace. -/
def answer (l : Libmysql) (c : ConnPtr) (now : Nat) (r : Reply) : (f : LibCall) → f.Ret × Libmysql
  | .mysql_real_connect .. => (r.ok, l.modifyConn c (·.report r))
  | .mysql_close => ((), l)
  | .mysql_ping => (r.ok, l.modifyConn c (·.report r))
  | .mysql_real_query _ =>
    if r.ok then
      (true, l.modifyConn c fun x => { x.report r with last := some now, pending := r.rows })
    else (false, l.modifyConn c (·.report r))
  | .mysql_store_result =>
    match r.rows with
    | none => (none, l.modifyConn c fun x => { x with pending := none })
    | some set => (some l.nextRes, (l.modifyConn c fun x => { x with pending := none }).newResult set)
  | .mysql_stat => (r.text, l)
  | .mysql_set_character_set _ => (r.code, l)
  | .mysql_reload => (r.code, l)

end Libmysql

/-! ### Accessors -/

/-- Functions that read a connection object. -/
inductive LibAccess where
  | mysql_errno
  | mysql_error
  | mysql_insert_id
  | mysql_affected_rows
  | mysql_field_count
  | mysql_warning_count
  | mysql_character_set_name
  | mysql_options
  | mysql_real_escape_string (from_ : CString)
  deriving DecidableEq

abbrev LibAccess.Ret : LibAccess → Type
  | .mysql_errno => BitVec 32
  | .mysql_error => CString
  | .mysql_insert_id => BitVec 64
  | .mysql_affected_rows => BitVec 64
  | .mysql_field_count => BitVec 32
  | .mysql_warning_count => BitVec 32
  | .mysql_character_set_name => CString
  | .mysql_options => Unit
  | .mysql_real_escape_string _ => CString

def Libmysql.access (l : Libmysql) (c : ConnPtr) (r : Reply) : (f : LibAccess) → f.Ret
  | .mysql_errno => (l.conn c).errno
  | .mysql_error => (l.conn c).error
  | .mysql_insert_id => r.number
  | .mysql_affected_rows => r.number
  | .mysql_field_count => r.code
  | .mysql_warning_count => r.code
  | .mysql_character_set_name => r.text.getD []
  | .mysql_options => ()
  | .mysql_real_escape_string _ => r.text.getD []

/-- Functions on a stored result. -/
inductive ResCall where
  | mysql_free_result
  | mysql_num_rows
  | mysql_num_fields
  | mysql_fetch_fields
  | mysql_fetch_field_direct (fieldnr : BitVec 32)
  | mysql_fetch_row
  deriving DecidableEq

abbrev ResCall.Ret : ResCall → Type
  | .mysql_free_result => Unit
  | .mysql_num_rows => BitVec 64
  | .mysql_num_fields => BitVec 32
  | .mysql_fetch_fields => Option FieldPtr
  | .mysql_fetch_field_direct _ => Option FieldPtr
  | .mysql_fetch_row => Option RowPtr

/-- The function on the live result `x` at `p`. -/
def Libmysql.onResult (l : Libmysql) (p : ResPtr) (x : StoredResult) :
    (f : ResCall) → f.Ret × Libmysql
  | .mysql_free_result => ((), l.setResult p { x with freed := true })
  | .mysql_num_rows => (BitVec.ofNat 64 x.set.rows.length, l)
  | .mysql_num_fields => (BitVec.ofNat 32 x.set.fields.length, l)
  | .mysql_fetch_fields => (some ⟨p, 0⟩, l)
  | .mysql_fetch_field_direct n => (some ⟨p, n.toNat⟩, l)
  | .mysql_fetch_row =>
    if x.next < x.set.rows.length then (some ⟨p, x.next⟩, l.setResult p { x with next := x.next + 1 })
    else (none, l)

end MySQLPlugin
