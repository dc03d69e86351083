import MySQLPlugin.Model.CMySQLHandler

/-!
# `CScripting.cpp`

The natives that the plugin gives to the scripts. A connection handle of a script is a position
in `SQLHandle`, counted from one.
-/

namespace MySQLPlugin

open Threads CMySQLHandler

/-- `VALID_CONNECTION_HANDLE` and `CMySQLHandler *cHandle = SQLHandle[cID]`: the native goes on
with the handler at `connectionHandle - 1`, or returns `0`. -/
def withHandle (connectionHandle : Cell) (f : HandlerPtr → Code Cell) : Code Cell := do
  let cID := connectionHandle - 1
  if (← .lift .size) ≤ cID.toNat then
    pure 0
  else
    f (← .lift (.at cID.toNat))

def setString (dest : Cell) (s : CString) : Code Unit := .lift (.setString dest s)

namespace Natives

/-! ### Opening and closing connections -/

/-- The parameters of the handler are the ones given to `mysql_connect`. -/
def sameConnection (host user db pass : CString) (port : Cell) (x : CMySQLHandler) : Bool :=
  x.m_Hostname == host && x.m_Username == user && x.m_Database == db && x.m_Password == pass &&
    x.m_Port == port

/-- The loop of `mysql_connect` over the handlers from position `i` on: the first one with these
parameters is connected again. -/
def reuse (host user db pass : CString) (port : Cell) : List HandlerPtr → Nat → Code (Option Nat)
  | [], _ => pure none
  | h :: hs, i => do
    if sameConnection host user db pass port (← this h) then
      assign h (.m_bIsConnected false)
      let _ ← connect h
      pure (some i)
    else
      reuse host user db pass port hs (i + 1)

/-- A new handler at the end of `SQLHandle`. -/
def append (host user db pass : CString) (port : Cell) : Code Cell := do
  let cHandle ← construct host user pass db port
  .lift (.pushBack cHandle)
  pure (BitVec.ofNat 32 (← .lift .size))

def nMysqlConnect (host user db pass : CString) (port : Cell) : Code Cell := do
  if 0 < (← .lift .size) then
    match ← reuse host user db pass port (← .lift .table) 0 with
    | some i => pure (BitVec.ofNat 32 (i + 1))
    | none => append host user db pass port
  else
    append host user db pass port

def nMysqlReconnect (connectionHandle : Cell) : Code Cell :=
  withHandle connectionHandle fun cHandle => do
    disconnect cHandle
    assign cHandle (.m_bIsConnected false)
    let _ ← connect cHandle
    pure 1

def nMysqlClose (connectionHandle : Cell) : Code Cell := do
  let cID := connectionHandle - 1
  if (← .lift .size) ≤ cID.toNat then
    pure 0
  else
    lockMutex
    clearQueue (← .lift (.at cID.toNat))
    destruct (← .lift (.at cID.toNat))
    .lift (.erase cID.toNat)
    unlockMutex
    pure 1

/-! ### Queries -/

def nMysqlQuery (query : CString) (resultid extraid connectionHandle : Cell) : Code Cell :=
  withHandle connectionHandle fun cHandle => do
    .lift (.mark (.oldQuery cHandle))
    let r ← oldQuery cHandle query resultid extraid
    .lift (.mark (.oldQueryEnd cHandle))
    pure r

def nMysqlQueryCallback (index : Cell) (query callback : CString)
    (extraid connectionHandle : Cell) : Code Cell :=
  withHandle connectionHandle fun cHandle => CMySQLHandler.query cHandle query callback index extraid

/-! ### The connection -/

def nMysqlSetCharset (charset : CString) (connectionHandle : Cell) : Code Cell :=
  withHandle connectionHandle fun cHandle => do
    let _ ← setCharset cHandle charset
    pure 0

def nMysqlGetCharset (destination connectionHandle : Cell) : Code Cell :=
  withHandle connectionHandle fun cHandle => do
    setString destination (← getCharset cHandle)
    pure 0

def nMysqlInsertId (connectionHandle : Cell) : Code Cell :=
  withHandle connectionHandle fun cHandle => do
    pure ((← insertId cHandle).setWidth 32)

/-- The buffer of `n_mysql_real_escape_string` has `8192 + 1` bytes. -/
def nMysqlRealEscapeString (source : CString) (destination connectionHandle : Cell) : Code Cell :=
  withHandle connectionHandle fun cHandle => do
    let (ret_len, tmp_buffer) ← escapeStr cHandle source (8192 + 1)
    setString destination tmp_buffer
    pure ret_len

def nMysqlFieldCount (connectionHandle : Cell) : Code Cell :=
  withHandle connectionHandle fieldCount

def nMysqlReload (connectionHandle : Cell) : Code Cell :=
  withHandle connectionHandle reload

/-- Without `JernejL`: `1` for a connection that answers, `-1` for one that does not. -/
def nMysqlPing (connectionHandle : Cell) : Code Cell :=
  withHandle connectionHandle fun cHandle => do
    lockMutex
    if !(← this cHandle).queueData.isEmpty then
      unlockMutex
      pure 1
    else
      unlockMutex
      pure (if (← ping cHandle) = 0 then 1 else -1)

def nMysqlAffectedRows (connectionHandle : Cell) : Code Cell :=
  withHandle connectionHandle fun cHandle => do
    pure ((← affectedRows cHandle).setWidth 32)

def nMysqlStat (destination connectionHandle : Cell) : Code Cell :=
  withHandle connectionHandle fun cHandle => do
    setString destination (← statistics cHandle)
    pure 1

def nMysqlWarningCount (connectionHandle : Cell) : Code Cell :=
  withHandle connectionHandle warningCount

def nMysqlErrno (connectionHandle : Cell) : Code Cell :=
  withHandle connectionHandle fun cHandle => load cHandle .m_dwError

/-! ### Results -/

def nMysqlFreeResult (connectionHandle : Cell) : Code Cell :=
  withHandle connectionHandle fun cHandle => do
    pure (if ← freeResult cHandle then 1 else 0)

def nMysqlStoreResult (connectionHandle : Cell) : Code Cell :=
  withHandle connectionHandle fun cHandle => do
    pure (if ← storeResult cHandle then 1 else 0)

def nMysqlFetchRowFormat (string : Cell) (delimiter : CString) (connectionHandle : Cell) :
    Code Cell :=
  withHandle connectionHandle fun cHandle => do
    assign cHandle (.Delimiter delimiter)
    let fRow ← fetchRow cHandle
    if fRow ≠ NULL then
      setString string fRow
      assign cHandle (.m_szResult [])
      pure 1
    else
      pure 0

def nMysqlFetchFieldRow (string : Cell) (fieldname : CString) (connectionHandle : Cell) :
    Code Cell :=
  withHandle connectionHandle fun cHandle => do
    let _ ← fetchField cHandle fieldname
    setString string (← this cHandle).m_szResult
    assign cHandle (.m_szResult [])
    pure 1

def nMysqlRetrieveRow (connectionHandle : Cell) : Code Cell :=
  withHandle connectionHandle retrieveRow

def nMysqlNumRows (connectionHandle : Cell) : Code Cell :=
  withHandle connectionHandle fun cHandle => do
    pure ((← numRows cHandle).setWidth 32)

def nMysqlNumFields (connectionHandle : Cell) : Code Cell :=
  withHandle connectionHandle numFields

def isNumeric (numstring : CString) : Bool := numstring.all fun c => '0' ≤ c && c ≤ '9'

/-- `ctot<cell>` of a text of digits: a value past the largest cell becomes that cell. -/
def ctot (cTargetString : CString) : Cell :=
  BitVec.ofNat 32 (min (cTargetString.foldl (fun n c => 10 * n + (c.toNat - '0'.toNat)) 0)
    (2 ^ 31 - 1))

def nMysqlFetchInt (connectionHandle : Cell) : Code Cell :=
  withHandle connectionHandle fun cHandle => do
    assign cHandle (.Delimiter [' '])
    let _ ← fetchRow cHandle
    let x ← this cHandle
    if isNumeric x.m_szResult && !x.m_szResult.isEmpty then
      assign cHandle (.m_szResult [])
      pure (ctot x.m_szResult)
    else
      pure (-1)

def nMysqlFetchFloat (result connectionHandle : Cell) : Code Cell :=
  withHandle connectionHandle fun cHandle => do
    assign cHandle (.Delimiter [' '])
    let _ ← fetchRow cHandle
    let x ← this cHandle
    if !x.m_szResult.isEmpty then
      assign cHandle (.m_szResult [])
      .lift (.setFloat result (some x.m_szResult))
      pure 1
    else
      .lift (.setFloat result none)
      pure 0

def nMysqlFetchField (number dest connectionHandle : Cell) : Code Cell :=
  withHandle connectionHandle fun cHandle => do
    setString dest (← fetchFieldName cHandle number)
    pure 1

def nMysqlDebug (enable : Cell) : Code Cell := do
  .lift (.setDebugging (enable ≠ 0))
  pure 1

/-! ### The table of natives -/

/-- `MySQLNatives`: the function behind the name of a native. -/
def body : NativeCall → Code Cell
  | .mysql_connect host user database password port =>
    nMysqlConnect host user database password port
  | .mysql_reconnect h => nMysqlReconnect h
  | .mysql_query query resultid extraid h => nMysqlQuery query resultid extraid h
  | .mysql_query_callback index query callback extraid h =>
    nMysqlQueryCallback index query callback extraid h
  | .mysql_set_charset charset h => nMysqlSetCharset charset h
  | .mysql_get_charset destination h => nMysqlGetCharset destination h
  | .mysql_insert_id h => nMysqlInsertId h
  | .mysql_free_result h => nMysqlFreeResult h
  | .mysql_store_result h => nMysqlStoreResult h
  | .mysql_real_escape_string source destination h => nMysqlRealEscapeString source destination h
  | .mysql_field_count h => nMysqlFieldCount h
  | .mysql_reload h => nMysqlReload h
  | .mysql_close h => nMysqlClose h
  | .mysql_fetch_row_format string delimiter h => nMysqlFetchRowFormat string delimiter h
  | .mysql_fetch_field_row string fieldname h => nMysqlFetchFieldRow string fieldname h
  | .mysql_retrieve_row h => nMysqlRetrieveRow h
  | .mysql_ping h => nMysqlPing h
  | .mysql_num_rows h => nMysqlNumRows h
  | .mysql_num_fields h => nMysqlNumFields h
  | .mysql_affected_rows h => nMysqlAffectedRows h
  | .mysql_stat destination h => nMysqlStat destination h
  | .mysql_warning_count h => nMysqlWarningCount h
  | .mysql_errno h => nMysqlErrno h
  | .mysql_fetch_int h => nMysqlFetchInt h
  | .mysql_fetch_float result h => nMysqlFetchFloat result h
  | .mysql_fetch_field number dest h => nMysqlFetchField number dest h
  | .mysql_debug enable => nMysqlDebug enable

end Natives

/-- A native called by a script. -/
def native (n : NativeCall) : Code Cell := do
  .lift (.mark (.call n))
  let r ← Natives.body n
  .lift (.mark (.return n r))
  pure r

end MySQLPlugin
