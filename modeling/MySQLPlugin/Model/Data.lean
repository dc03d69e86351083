import Mathlib.Data.BitVec

/-!
# Data of the plugin

The values that the natives, the worker thread and `ProcessTick` exchange, and the data members
of `CMySQLHandler`. A character of a `CString` stands for one byte. Members that the constructor
leaves unassigned are `Slot`s.
-/

namespace MySQLPlugin

/-- The text of a `std::string` or of a C string. -/
abbrev CString := List Char

/-- A cell of the abstract machine: a 32-bit word. -/
abbrev Cell := BitVec 32

/-- A `CMySQLHandler *` other than `NULL`. -/
abbrev HandlerPtr := Nat

/-- A `MYSQL *` other than `NULL`. -/
abbrev ConnPtr := Nat

/-- A `MYSQL_RES *` other than `NULL`. -/
abbrev ResPtr := Nat

/-- A `MYSQL_ROW` other than `NULL`: a row of a stored result. -/
structure RowPtr where
  result : ResPtr
  row : Nat
  deriving DecidableEq

/-- A `MYSQL_FIELD *` other than `NULL`: a position in the field array of a stored result. -/
structure FieldPtr where
  result : ResPtr
  index : Nat
  deriving DecidableEq

/-- The two threads of the plugin: the server's main thread and `ProcessQueryThread`. -/
inductive ThreadId where
  | main
  | worker
  deriving DecidableEq

/-- A data member that holds no value before its first assignment. -/
inductive Slot (α : Type) where
  | unset
  | set (a : α)
  deriving DecidableEq

/-- What goes wrong when a run leaves the defined behaviour of the source. -/
inductive Fault where
  /-- `SQLHandle[i]` with `i` past the end. -/
  | outOfRange
  /-- A `CMySQLHandler *` to a deleted object. -/
  | dangling
  /-- `NULL` passed to libmysql or dereferenced. -/
  | nullPointer
  /-- `front` or `pop` of an empty queue. -/
  | emptyQueue
  /-- A result set that libmysql has not handed out, or has freed already. -/
  | badResult
  /-- A `std::string` built from a null pointer. -/
  | nullString
  /-- `new` finds no memory. -/
  | badAlloc
  /-- A write past the end of a local array. -/
  | bufferOverflow
  /-- `free` of memory that `malloc` has not returned. -/
  | badFree
  /-- A call of `Debug` whose arguments do not fit the format. -/
  | badFormat
  /-- The thread waits for a mutex that it holds itself. -/
  | deadlock
  deriving DecidableEq

/-- What a format of `Debug` asks for, and what an argument is: a number or the address of a text. -/
inductive Conversion where
  | d
  | s
  deriving DecidableEq

/-! ### String streams -/

/-- A `std::stringstream`: what is still to be read, and the flags `eofbit` and `failbit`. -/
structure StringStream where
  unread : CString := []
  eof : Bool := false
  failed : Bool := false
  deriving DecidableEq

namespace StringStream

def good (st : StringStream) : Bool := !st.eof && !st.failed

/-- `isspace` in the C locale. -/
def isSpace (c : Char) : Bool :=
  c == ' ' || c == '\t' || c == '\n' || c == '\x0b' || c == '\x0c' || c == '\r'

/-- `st << s`. -/
def insert (st : StringStream) (s : CString) : StringStream :=
  if st.good then { st with unread := st.unread ++ s } else { st with failed := true }

/-- `getline(st, str)`: the new contents of `str` and the stream afterwards. -/
def getline (st : StringStream) (str : CString) : CString × StringStream :=
  if st.good then
    match st.unread.span (· != '\n') with
    | (line, []) => (line, { unread := [], eof := true, failed := st.unread.isEmpty })
    | (line, _ :: rest) => (line, { st with unread := rest })
  else (str, { st with failed := true })

/-- `st >> str`: the new contents of `str` and the stream afterwards. -/
def extract (st : StringStream) (str : CString) : CString × StringStream :=
  if st.good then
    match (st.unread.dropWhile isSpace).span (!isSpace ·) with
    | ([], _) => (str, { unread := [], eof := true, failed := true })
    | (word, rest) => (word, { unread := rest, eof := rest.isEmpty, failed := false })
  else (str, { st with failed := true })

/-- `st.clear()`. -/
def clear (st : StringStream) : StringStream := { st with eof := false, failed := false }

end StringStream

/-! ### Queries and error reports -/

/-- `CMySQLHandler::mainInfo`: a threaded query with what its callback receives. -/
structure MainInfo where
  m_szQuery : CString
  m_uiResult : Cell
  m_uiExtra : Cell
  m_szCallback : CString
  deriving DecidableEq

/-- `CMySQLHandler::errorInfo`: a failed query as `OnQueryError` reports it. -/
structure ErrorInfo where
  m_szQuery : CString
  m_szError : CString
  m_uiErrorID : Cell
  m_uiResult : Cell
  m_uiExtra : Slot Cell
  m_szCallback : CString
  deriving DecidableEq

/-! ### The handler object -/

/-- The data members of a `CMySQLHandler`. -/
structure CMySQLHandler where
  m_Hostname : CString
  m_Username : CString
  m_Password : CString
  m_Database : CString
  m_Port : BitVec 32
  m_bIsConnected : Bool := false
  m_bNonThreadedQuery : Bool := false
  m_bQueryProcessing : Bool := false
  m_dwError : Slot (BitVec 32) := .unset
  m_dwFields : Slot (BitVec 32) := .unset
  queueData : List MainInfo := []
  callbackData : List MainInfo := []
  errorCallback : List ErrorInfo := []
  Delimiter : CString := []
  m_szResult : CString := []
  m_cSStream : StringStream := {}
  m_stConnectionPtr : Option ConnPtr := none
  m_stResult : Slot (Option ResPtr) := .unset
  m_stRow : Slot (Option RowPtr) := .unset
  m_stField : Slot (Option FieldPtr) := .unset
  deriving DecidableEq

/-- The members that the constructor leaves unassigned. -/
inductive Member where
  | m_stResult
  | m_stRow
  | m_stField
  | m_dwFields
  | m_dwError
  deriving DecidableEq

/-- The type of the member's value. -/
abbrev Member.Val : Member → Type
  | .m_stResult => Option ResPtr
  | .m_stRow => Option RowPtr
  | .m_stField => Option FieldPtr
  | .m_dwFields => BitVec 32
  | .m_dwError => BitVec 32

def Member.get : (m : Member) → CMySQLHandler → Slot m.Val
  | .m_stResult, x => x.m_stResult
  | .m_stRow, x => x.m_stRow
  | .m_stField, x => x.m_stField
  | .m_dwFields, x => x.m_dwFields
  | .m_dwError, x => x.m_dwError

/-- The loop `while(!q.empty()) q.pop()`. -/
def popAll {α : Type} : List α → List α
  | [] => []
  | _ :: q => popAll q

@[simp] lemma popAll_eq_nil {α : Type} (q : List α) : popAll q = [] := by
  induction q with
  | nil => rfl
  | cons x q ih => exact ih

/-- The single statements that change a member of a handler. -/
inductive Assign where
  | m_bIsConnected (b : Bool)
  | m_bNonThreadedQuery (b : Bool)
  | m_bQueryProcessing (b : Bool)
  | m_dwError (e : BitVec 32)
  | m_dwFields (n : BitVec 32)
  | queueData_push (q : MainInfo)
  | queueData_pop
  | queueData_popAll
  | callbackData_push (q : MainInfo)
  | callbackData_pop
  | errorCallback_push (e : ErrorInfo)
  | errorCallback_pop
  | Delimiter (s : CString)
  | m_szResult (s : CString)
  | m_cSStream_insert (s : CString)
  | m_cSStream_getline
  | m_cSStream_extract
  | m_cSStream_clear
  | m_stConnectionPtr (c : Option ConnPtr)
  | m_stResult (r : Option ResPtr)
  | m_stRow (r : Option RowPtr)
  | m_stField (f : Option FieldPtr)
  deriving DecidableEq

namespace Assign

/-- The statement is defined: `pop` needs a non-empty queue. -/
def defined : Assign → CMySQLHandler → Bool
  | .queueData_pop, x => !x.queueData.isEmpty
  | .callbackData_pop, x => !x.callbackData.isEmpty
  | .errorCallback_pop, x => !x.errorCallback.isEmpty
  | _, _ => true

def apply : Assign → CMySQLHandler → CMySQLHandler
  | .m_bIsConnected b, x => { x with m_bIsConnected := b }
  | .m_bNonThreadedQuery b, x => { x with m_bNonThreadedQuery := b }
  | .m_bQueryProcessing b, x => { x with m_bQueryProcessing := b }
  | .m_dwError e, x => { x with m_dwError := .set e }
  | .m_dwFields n, x => { x with m_dwFields := .set n }
  | .queueData_push q, x => { x with queueData := x.queueData ++ [q] }
  | .queueData_pop, x => { x with queueData := x.queueData.tail }
  | .queueData_popAll, x => { x with queueData := popAll x.queueData }
  | .callbackData_push q, x => { x with callbackData := x.callbackData ++ [q] }
  | .callbackData_pop, x => { x with callbackData := x.callbackData.tail }
  | .errorCallback_push e, x => { x with errorCallback := x.errorCallback ++ [e] }
  | .errorCallback_pop, x => { x with errorCallback := x.errorCallback.tail }
  | .Delimiter s, x => { x with Delimiter := s }
  | .m_szResult s, x => { x with m_szResult := s }
  | .m_cSStream_insert s, x => { x with m_cSStream := x.m_cSStream.insert s }
  | .m_cSStream_getline, x =>
    { x with m_szResult := (x.m_cSStream.getline x.m_szResult).1
             m_cSStream := (x.m_cSStream.getline x.m_szResult).2 }
  | .m_cSStream_extract, x =>
    { x with m_szResult := (x.m_cSStream.extract x.m_szResult).1
             m_cSStream := (x.m_cSStream.extract x.m_szResult).2 }
  | .m_cSStream_clear, x => { x with m_cSStream := x.m_cSStream.clear }
  | .m_stConnectionPtr c, x => { x with m_stConnectionPtr := c }
  | .m_stResult r, x => { x with m_stResult := .set r }
  | .m_stRow r, x => { x with m_stRow := .set r }
  | .m_stField f, x => { x with m_stField := .set f }

end Assign

/-! ### Calls between the scripts and the plugin -/

/-- A native called by a script, with its arguments; string arguments are given by their text,
destinations by the address of the cell. -/
inductive NativeCall where
  | mysql_connect (host user database password : CString) (port : Cell)
  | mysql_reconnect (connectionHandle : Cell)
  | mysql_query (query : CString) (resultid extraid connectionHandle : Cell)
  | mysql_query_callback (index : Cell) (query callback : CString) (extraid connectionHandle : Cell)
  | mysql_set_charset (charset : CString) (connectionHandle : Cell)
  | mysql_get_charset (destination connectionHandle : Cell)
  | mysql_insert_id (connectionHandle : Cell)
  | mysql_free_result (connectionHandle : Cell)
  | mysql_store_result (connectionHandle : Cell)
  | mysql_real_escape_string (source : CString) (destination connectionHandle : Cell)
  | mysql_field_count (connectionHandle : Cell)
  | mysql_reload (connectionHandle : Cell)
  | mysql_close (connectionHandle : Cell)
  | mysql_fetch_row_format (string : Cell) (delimiter : CString) (connectionHandle : Cell)
  | mysql_fetch_field_row (string : Cell) (fieldname : CString) (connectionHandle : Cell)
  | mysql_retrieve_row (connectionHandle : Cell)
  | mysql_ping (connectionHandle : Cell)
  | mysql_num_rows (connectionHandle : Cell)
  | mysql_num_fields (connectionHandle : Cell)
  | mysql_affected_rows (connectionHandle : Cell)
  | mysql_stat (destination connectionHandle : Cell)
  | mysql_warning_count (connectionHandle : Cell)
  | mysql_errno (connectionHandle : Cell)
  | mysql_fetch_int (connectionHandle : Cell)
  | mysql_fetch_float (result connectionHandle : Cell)
  | mysql_fetch_field (number dest connectionHandle : Cell)
  | mysql_debug (enable : Cell)
  deriving DecidableEq

/-- A public of a script called by `ProcessTick`, with its arguments. -/
inductive Public where
  | OnQueryError (errorid : Cell) (error : CString) (resultid : Cell) (extraid : Slot Cell)
      (callback query : CString) (connectionHandle : Cell)
  | callback (name query : CString) (index extraid connectionHandle : Cell)
  deriving DecidableEq

/-- A loaded script and the names of its publics. -/
structure Amx where
  id : Nat
  publics : List CString
  deriving DecidableEq

end MySQLPlugin
