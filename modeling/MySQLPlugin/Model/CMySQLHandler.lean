import MySQLPlugin.Model.State

/-!
# `CMySQLHandler.cpp`

The member functions of a connection handler, statement by statement. The calls of `Debug` whose
arguments fit the format only write to the log and are left out; the others and the libmysql functions
called for the log are not.
-/

namespace MySQLPlugin

open Threads

/-! ### Statements as programs -/

def lockMutex : Code Unit := .lift .lockMutex
def unlockMutex : Code Unit := .lift .unlockMutex

/-- The data members of `*h`. -/
def this (h : HandlerPtr) : Code CMySQLHandler := .lift (.this h)

/-- A member of `*h` that the constructor leaves unassigned. -/
def load (h : HandlerPtr) (m : Member) : Code m.Val := .lift (.load h m)

def assign (h : HandlerPtr) (a : Assign) : Code Unit := .lift (.assign h a)

/-- A call of libmysql with `h->m_stConnectionPtr`. -/
def call (h : HandlerPtr) (f : LibCall) : Code f.Ret := do
  let c ← .lift (.enter h f)
  .lift (.leave h c f)

def access (h : HandlerPtr) (f : LibAccess) : Code f.Ret := .lift (.access h f)

/-- A call of `Debug`; nothing happens while debugging is off. -/
def Debug (format args : List Conversion) : Code Unit := .lift (.Debug format args)

def onResult (r : Option ResPtr) (f : ResCall) : Code f.Ret := .lift (.onResult r f)

/-- `q.front()`. -/
def front {α : Type} : List α → Code α
  | [] => .fail .emptyQueue
  | x :: _ => pure x

/-- The text that stands for SQL NULL and for "no row". -/
def NULL : CString := "NULL".toList

namespace CMySQLHandler

/-! ### Connecting -/

def connect (h : HandlerPtr) : Code Bool := do
  if (← this h).m_bIsConnected then
    pure false
  else
    let c ← .lift (.mysql_init h)
    assign h (.m_stConnectionPtr c)
    let x ← this h
    let ok ← call h (.mysql_real_connect x.m_Hostname x.m_Username x.m_Password x.m_Database x.m_Port)
    if !ok then
      assign h (.m_dwError (← access h .mysql_errno))
      assign h (.m_bIsConnected false)
      let _ ← access h .mysql_error
      pure false
    else
      assign h (.m_bIsConnected true)
      access h .mysql_options
      pure true

/-- `if(queueData.size() > 0) while(!queueData.empty()) queueData.pop();` -/
def clearQueue (h : HandlerPtr) : Code Unit := do
  if 0 < (← this h).queueData.length then assign h .queueData_popAll else pure ()

/-- The part of `Disconnect` for a live connection object. -/
def closeConnection (h : HandlerPtr) : Code Unit := do
  if (← this h).m_stConnectionPtr = none then
    pure ()
  else
    lockMutex
    clearQueue h
    unlockMutex
    call h .mysql_close
    assign h (.m_stConnectionPtr none)

def disconnect (h : HandlerPtr) : Code Unit := do
  if !(← this h).m_bIsConnected then
    pure ()
  else
    closeConnection h
    assign h (.m_bIsConnected false)

/-! ### Queries -/

/-- Append a threaded query to `queueData`. -/
def enqueue (h : HandlerPtr) (passData : MainInfo) : Code Unit := do
  lockMutex
  assign h (.queueData_push passData)
  unlockMutex

def query (h : HandlerPtr) (query callback : CString) (indexID extraID : Cell) : Code Cell := do
  if !(← this h).m_bIsConnected then
    pure 0
  else
    enqueue h
      { m_szQuery := query, m_uiResult := indexID, m_uiExtra := extraID, m_szCallback := callback }
    pure indexID

/-- `OnQueryFinish`, the callback of the queries of `mysql_query`. -/
def OnQueryFinish : CString := "OnQueryFinish".toList

/-- The branch of `OldQuery` for `resultID == -1`: the query is executed at once. -/
def nonThreadedQuery (h : HandlerPtr) (query : CString) : Code Cell := do
  assign h (.m_bNonThreadedQuery true)
  let ok ← call h (.mysql_real_query query)
  if !ok then
    assign h (.m_dwError (← access h .mysql_errno))
    let _ ← access h .mysql_error
    assign h (.m_bNonThreadedQuery false)
    let id ← access h .mysql_errno
    let error ← access h .mysql_error
    assign h (.errorCallback_push
      { m_szQuery := query, m_szError := error, m_uiErrorID := id, m_uiResult := -1
        m_uiExtra := .set (-1), m_szCallback := NULL })
    pure 0
  else
    assign h (.m_dwError 0)
    assign h (.m_bNonThreadedQuery false)
    pure 1

def oldQuery (h : HandlerPtr) (query : CString) (resultID extraID : Cell) : Code Cell := do
  if !(← this h).m_bIsConnected then
    pure 0
  else if resultID ≠ -1 then
    enqueue h
      { m_szQuery := query, m_uiResult := resultID, m_uiExtra := extraID
        m_szCallback := OnQueryFinish }
    pure resultID
  else
    nonThreadedQuery h query

/-! ### Results -/

def freeResult (h : HandlerPtr) : Code Bool := do
  if !(← this h).m_bIsConnected then
    pure false
  else
    let r ← load h .m_stResult
    if r = none then
      pure true
    else
      onResult r .mysql_free_result
      assign h (.m_stResult none)
      assign h (.m_stRow none)
      pure true

def storeResult (h : HandlerPtr) : Code Bool := do
  if !(← this h).m_bIsConnected then
    pure false
  else
    let r ← call h .mysql_store_result
    assign h (.m_stResult r)
    pure r.isSome

/-- The destructor, and the end of the object. -/
def destruct (h : HandlerPtr) : Code Unit := do
  let _ ← freeResult h
  disconnect h
  .lift (.delete h)

/-- The constructor: a new object, connected. -/
def construct (host user passw db : CString) (port : BitVec 32) : Code HandlerPtr := do
  let h ← .lift (.new host user passw db port)
  let _ ← connect h
  pure h

/-- `m_dwFields`, `m_stField` and `m_stRow` for the next row of the result. -/
def nextRow (h : HandlerPtr) : Code (Option RowPtr) := do
  assign h (.m_dwFields (← onResult (← load h .m_stResult) .mysql_num_fields))
  assign h (.m_stField (← onResult (← load h .m_stResult) .mysql_fetch_fields))
  let row ← onResult (← load h .m_stResult) .mysql_fetch_row
  assign h (.m_stRow row)
  pure row

/-- `m_cSStream << (m_stRow[i] ? m_stRow[i] : "NULL")`. -/
def insertValue (h : HandlerPtr) (i : Nat) : Code Unit := do
  let v ← .lift (.rowValue (← load h .m_stRow) i)
  assign h (.m_cSStream_insert (v.getD NULL))

/-- The text of the fetched row. -/
def rowText (h : HandlerPtr) : Code CString := do
  let n ← load h .m_dwFields
  .forEach (List.range n.toNat) fun i => do
    insertValue h i
    assign h (.m_cSStream_insert (← this h).Delimiter)
  assign h .m_cSStream_getline
  assign h .m_cSStream_extract
  if (← this h).m_szResult.isEmpty then
    pure NULL
  else
    assign h .m_cSStream_clear
    assign h (.m_szResult (← this h).m_szResult.dropLast)
    pure (← this h).m_szResult

def fetchRow (h : HandlerPtr) : Code CString := do
  if !(← this h).m_bIsConnected then
    pure NULL
  else if (← load h .m_stResult) = none then
    pure NULL
  else if (← nextRow h).isSome then
    rowText h
  else
    let e ← access h .mysql_errno
    assign h (.m_dwError e)
    if 0 < e then
      let _ ← access h .mysql_error
      pure NULL
    else
      pure NULL

def retrieveRow (h : HandlerPtr) : Code Cell := do
  if !(← this h).m_bIsConnected then
    pure 0
  else if (← load h .m_stResult) = none then
    pure 0
  else if (← nextRow h).isSome then
    pure 1
  else
    pure 0

/-- The search of `FetchField`: the value of the first column with that name. -/
def insertField (h : HandlerPtr) (column : CString) : List Nat → Code Unit
  | [] => pure ()
  | i :: is => do
    let name ← .lift (.fieldName (← load h .m_stField) i)
    if column = name then insertValue h i else insertField h column is

def fetchField (h : HandlerPtr) (column : CString) : Code Bool := do
  if !(← this h).m_bIsConnected then
    pure false
  else if (← load h .m_stField) = none then
    pure false
  else if (← load h .m_stRow) = none then
    pure false
  else
    insertField h column (List.range (← load h .m_dwFields).toNat)
    assign h .m_cSStream_getline
    assign h .m_cSStream_extract
    assign h .m_cSStream_clear
    pure true

/-- The block that `malloc` returns is overwritten before it is used, and what is freed belongs to the
result set. -/
def fetchFieldName (h : HandlerPtr) (number : Cell) : Code CString := do
  if !(← this h).m_bIsConnected then
    .fail .nullString
  else if (← load h .m_stResult) = none then
    .fail .nullString
  else
    let f ← onResult (← load h .m_stResult) (.mysql_fetch_field_direct number)
    assign h (.m_stField f)
    let szFieldname ← .lift (.fieldName f 0)
    .lift (.free f)
    pure szFieldname

/-! ### The connection -/

def setCharset (h : HandlerPtr) (charsetname : CString) : Code Cell := do
  if !(← this h).m_bIsConnected then
    pure (-1)
  else
    call h (.mysql_set_character_set charsetname)

def getCharset (h : HandlerPtr) : Code CString := do
  if !(← this h).m_bIsConnected then
    pure NULL
  else
    access h .mysql_character_set_name

def insertId (h : HandlerPtr) : Code (BitVec 64) := do
  if !(← this h).m_bIsConnected then
    pure 0
  else
    access h .mysql_insert_id

def reload (h : HandlerPtr) : Code Cell := do
  if !(← this h).m_bIsConnected then
    pure 0
  else
    call h .mysql_reload

def affectedRows (h : HandlerPtr) : Code (BitVec 64) := do
  if !(← this h).m_bIsConnected then
    pure 0
  else
    access h .mysql_affected_rows

/-- The log of a failed ping names the thread as well, which is not passed. -/
def ping (h : HandlerPtr) : Code Cell := do
  if !(← this h).m_bIsConnected then
    pure 1
  else if !(← call h .mysql_ping) then
    assign h (.m_dwError (← access h .mysql_errno))
    let _ ← access h .mysql_error
    Debug [.d, .s, .d] [.s, .d]
    pure 1
  else
    pure 0

def numRows (h : HandlerPtr) : Code (BitVec 64) := do
  if !(← this h).m_bIsConnected then
    pure (-1)
  else if (← load h .m_stResult) = none then
    pure (-1)
  else
    onResult (← load h .m_stResult) .mysql_num_rows

def numFields (h : HandlerPtr) : Code (BitVec 32) := do
  if !(← this h).m_bIsConnected then
    pure (-1)
  else if (← load h .m_stResult) = none then
    pure (-1)
  else
    onResult (← load h .m_stResult) .mysql_num_fields

def fieldCount (h : HandlerPtr) : Code (BitVec 32) := do
  if !(← this h).m_bIsConnected then
    pure (-1)
  else
    access h .mysql_field_count

def warningCount (h : HandlerPtr) : Code (BitVec 32) := do
  if !(← this h).m_bIsConnected then
    pure (-1)
  else
    access h .mysql_warning_count

def statistics (h : HandlerPtr) : Code CString := do
  if !(← this h).m_bIsConnected then
    .fail .nullString
  else
    match ← call h .mysql_stat with
    | none => .fail .nullString
    | some text => pure text

/-- The length returned by libmysql, and the text written to the buffer `to` of `size` bytes. The log of a
dead connection names the text, which is not passed. -/
def escapeStr (h : HandlerPtr) (source : CString) (size : Nat) : Code (Cell × CString) := do
  if !(← this h).m_bIsConnected then
    Debug [.s] []
    pure (0, [])
  else
    let escaped ← access h (.mysql_real_escape_string source)
    if escaped.length + 1 ≤ size then
      pure (BitVec.ofNat 32 escaped.length, escaped)
    else
      .fail .bufferOverflow

end CMySQLHandler

end MySQLPlugin
