import MySQLPlugin.Threads.Interleaving
import MySQLPlugin.Model.CScripting

/-!
# `main.cpp`

`ProcessTick`, which the server calls on its main thread, and `ProcessQueryThread`, the worker.
Both walk over `SQLHandle`; the loop bodies are programs of their own, and the loops are cycles of
the threads through their control points.
-/

namespace MySQLPlugin

open Threads CMySQLHandler

/-! ### `ProcessTick` -/

/-- Call a public of one script; the script calls natives before the public returns. -/
def execPublic (a : Amx) (p : Public) : Code Unit := do
  let natives ← .lift (.exec a p)
  .forEach natives fun n => do
    let _ ← native n
    pure ()

/-- `amx_FindPublic` and `amx_Exec` on every script: the scripts that have the public run it. -/
def execAll (name : CString) (p : Public) : Code Unit := do
  .forEach (← .lift .scripts) fun a =>
    if name ∈ a.publics then execPublic a p else pure ()

def OnQueryError : CString := "OnQueryError".toList

/-- `(cell)i+1`: the connection handle that the callbacks receive. -/
def connectionHandle (i : Nat) : Cell := BitVec.ofNat 32 i + 1

/-- What follows the calls of `OnQueryError`. -/
def errorDelivered (i : Nat) : Code Unit := do
  assign (← .lift (.at i)) .errorCallback_pop

/-- What follows the calls of the callback of a query. -/
def callbackDelivered (i : Nat) : Code Unit := do
  assign (← .lift (.at i)) .callbackData_pop
  assign (← .lift (.at i)) (.m_bQueryProcessing false)

/-- The half of a visit that reports an error. -/
def tickError (i : Nat) : Code Unit := do
  if !(← this (← .lift (.at i))).errorCallback.isEmpty then
    let tempData ← front (← this (← .lift (.at i))).errorCallback
    execAll OnQueryError
      (.OnQueryError tempData.m_uiErrorID tempData.m_szError tempData.m_uiResult tempData.m_uiExtra
        tempData.m_szCallback tempData.m_szQuery (connectionHandle i))
    errorDelivered i
  else
    pure ()

/-- The half of a visit that delivers a result. -/
def tickCallback (i : Nat) : Code Unit := do
  if !(← this (← .lift (.at i))).callbackData.isEmpty then
    let tempData ← front (← this (← .lift (.at i))).callbackData
    execAll tempData.m_szCallback
      (.callback tempData.m_szCallback tempData.m_szQuery tempData.m_uiResult tempData.m_uiExtra
        (connectionHandle i))
    callbackDelivered i
  else
    pure ()

/-- The loop body of `ProcessTick`. -/
def tickVisit (i : Nat) : Code Unit := do
  tickError i
  tickCallback i

/-! ### `ProcessQueryThread` -/

/-- The failed query `cQueue` is reported; its `m_uiExtra` is not copied. -/
def queryFailed (h : HandlerPtr) (cQueue : MainInfo) : Code Unit := do
  let id ← access h .mysql_errno
  assign h (.m_dwError id)
  let error ← access h .mysql_error
  assign h (.errorCallback_push
    { m_szQuery := cQueue.m_szQuery, m_szError := error, m_uiErrorID := id
      m_uiResult := cQueue.m_uiResult, m_uiExtra := .unset, m_szCallback := cQueue.m_szCallback })
  assign h (.m_bQueryProcessing false)

/-- The query at the front of `queueData` is executed. -/
def executeFront (h : HandlerPtr) : Code Unit := do
  let cQueue ← front (← this h).queueData
  assign h (.m_bQueryProcessing true)
  let ok ← call h (.mysql_real_query cQueue.m_szQuery)
  (if ok then do
    assign h (.callbackData_push cQueue)
    assign h (.m_dwError 0)
  else
    queryFailed h cQueue)
  assign h .queueData_pop

/-- The ping has failed: a pending result is dropped and the handler connects again. -/
def reconnectInBackground (h : HandlerPtr) : Code Unit := do
  assign h (.m_bIsConnected false)
  let r ← call h .mysql_store_result
  assign h (.m_stResult r)
  (if r ≠ none then do
    onResult r .mysql_free_result
    assign h (.m_stResult none)
  else
    pure ())
  let _ ← connect h
  pure ()

/-- The loop body of `ProcessQueryThread`. `SQLHandle[i]` is evaluated once: entries are only
erased under the mutex that the sweep holds. -/
def workerVisit (i : Nat) : Code Unit := do
  let h ← .lift (.at i)
  if ← .lift (.guard h) then
    (if ← call h .mysql_ping then executeFront h else reconnectInBackground h)
    .lift (.mark (.visitEnd h))
  else
    pure ()

/-! ### `Unload` -/

/-- One pass of the loop of `Unload`, or its end. The iterator is a position of `SQLHandle`: the pass
deletes the handler there, erases its entry and moves the iterator on. -/
def unloadLoop (i : Nat) : Code (Nat ⊕ Unit) := do
  if i = (← .lift .size) then
    pure (.inr ())
  else
    destruct (← .lift (.at i))
    .lift (.erase i)
    pure (.inl (i + 1))

/-! ### The two threads -/

/-- The control points: the main thread between two calls of the server, and at the head of the
loop of `ProcessTick`; the worker between two sweeps, and at the head of its loop. -/
inductive Point where
  | idle
  | tick (i : Nat)
  | asleep
  | sweep (i : Nat)
  deriving DecidableEq

/-- What the server and the scripts make the main thread do. -/
inductive MainCall where
  | native (n : NativeCall)
  | amxLoad (a : Amx)
  | amxUnload (a : Amx)
  | processTick
  deriving DecidableEq

/-- `ProcessTick` up to its loop. -/
def processTick : Code Point := do
  .lift (.mark .tick)
  if 0 < (← .lift .size) then
    pure (.tick 0)
  else
    .lift (.mark .tickEnd)
    pure .idle

/-- One pass of the loop of `ProcessTick`, or its end. -/
def tickLoop (i : Nat) : Code Point := do
  if i < (← .lift .size) then
    tickVisit i
    pure (.tick (i + 1))
  else
    .lift (.mark .tickEnd)
    pure .idle

/-- A sweep of the worker up to its loop. -/
def processQueryThread : Code Point := do
  lockMutex
  if 0 < (← .lift .size) then
    pure (.sweep 0)
  else
    unlockMutex
    pure .asleep

/-- One pass of the loop of `ProcessQueryThread`, or its end. -/
def sweepLoop (i : Nat) : Code Point := do
  if i < (← .lift .size) then
    workerVisit i
    pure (.sweep (i + 1))
  else
    unlockMutex
    pure .asleep

def MainCall.code : MainCall → Code Point
  | .native n => do
    let _ ← MySQLPlugin.native n
    pure .idle
  | .amxLoad a => do
    .lift (.amxLoad a)
    pure .idle
  | .amxUnload a => do
    .lift (.amxUnload a)
    pure .idle
  | .processTick => MySQLPlugin.processTick

/-- The programs that the threads start at their control points, when the server and the scripts
make only the calls of `calls`. -/
inductive Starts (calls : Set MainCall) : ThreadId → Point → Code Point → Prop
  | call {m : MainCall} : m ∈ calls → Starts calls .main .idle m.code
  | tick (i : Nat) : Starts calls .main (.tick i) (tickLoop i)
  | wake : Starts calls .worker .asleep processQueryThread
  | sweep (i : Nat) : Starts calls .worker (.sweep i) (sweepLoop i)

/-- The configuration after `Load`: the main thread is idle, the worker asleep. -/
def loaded (p_Amx : List Amx) : Config Stmt Fault State ThreadId Point where
  shared := State.init p_Amx
  place
    | .main => .at .idle
    | .worker => .at .asleep

end MySQLPlugin
