import MySQLPlugin.Threads.Sequential
import MySQLPlugin.Model.Libmysql

/-!
# Statements of the plugin

The memory that the two threads share, the single statements that the plugin's functions are
made of, and what each statement does. Every statement that has an effect is recorded in the
trace, so that a property of a whole run is a property of the trace it leaves.
-/

namespace MySQLPlugin

open Threads

/-- Places in the code of the plugin that the trace records: a native called by a script, a call
of `OldQuery`, the end of a visit of a handle by the worker, and `ProcessTick`. -/
inductive Mark where
  | call (n : NativeCall)
  | return (n : NativeCall) (r : Cell)
  | oldQuery (h : HandlerPtr)
  | oldQueryEnd (h : HandlerPtr)
  | visitEnd (h : HandlerPtr)
  | tick
  | tickEnd
  deriving DecidableEq

/-- What the trace records of one statement. -/
inductive Event where
  | lock (t : ThreadId)
  /-- A call of `_lockMutex` by the thread that holds the mutex. -/
  | relock (t : ThreadId)
  | unlock (t : ThreadId)
  | pushBack (h : HandlerPtr)
  | erase (i : Nat) (h : HandlerPtr)
  | new (h : HandlerPtr) (host user passw db : CString) (port : BitVec 32)
  | delete (h : HandlerPtr)
  | unset (t : ThreadId) (h : HandlerPtr) (m : Member)
  | assign (t : ThreadId) (h : HandlerPtr) (a : Assign)
  | init (t : ThreadId) (h : HandlerPtr) (c : Option ConnPtr)
  | enter (t : ThreadId) (h : HandlerPtr) (f : LibCall) (c : Option ConnPtr)
  | leave (t : ThreadId) (h : HandlerPtr) (f : LibCall) (c : ConnPtr) (ok : Bool)
  | access (t : ThreadId) (h : HandlerPtr) (f : LibAccess) (c : Option ConnPtr)
  | onResult (t : ThreadId) (r : Option ResPtr) (f : ResCall)
  | free (f : Option FieldPtr)
  | setDebugging (b : Bool)
  | amxLoad (a : Amx)
  | amxUnload (a : Amx)
  | exec (a : Amx) (p : Public)
  | setString (dest : Cell) (s : CString)
  /-- A float stored in a cell: the text it is converted from, or zero. -/
  | setFloat (dest : Cell) (x : Option CString)
  /-- The guard of the worker is open: the worker visits the handle. -/
  | visit (h : HandlerPtr)
  | mark (m : Mark)
  deriving DecidableEq

/-- The memory shared by the threads. -/
structure State where
  SQLHandle : List HandlerPtr := []
  heap : HandlerPtr → Option CMySQLHandler := fun _ => none
  nextHandler : HandlerPtr := 0
  p_Amx : List Amx := []
  Debugging : Bool := false
  /-- The thread that holds the mutex, and how often it has locked it. -/
  mutex : Option (ThreadId × Nat) := none
  /-- The connection on which the thread is inside a libmysql call. -/
  inCall : ThreadId → Option ConnPtr := fun _ => none
  lib : Libmysql := {}
  trace : List Event := []

namespace State

/-- The state as the plugin finds it when it is loaded, with the scripts `p_Amx`. -/
def init (p_Amx : List Amx) : State := { p_Amx }

/-- Append an event to the trace. -/
def record (s : State) (e : Event) : State := { s with trace := s.trace ++ [e] }

/-- Replace the object at `h`. -/
def setHandler (s : State) (h : HandlerPtr) (x : CMySQLHandler) : State :=
  { s with heap := Function.update s.heap h (some x) }

def setInCall (s : State) (t : ThreadId) (c : Option ConnPtr) : State :=
  { s with inCall := Function.update s.inCall t c }

section

variable (s : State) (e : Event) (h : HandlerPtr) (x : CMySQLHandler) (t : ThreadId)
  (c : Option ConnPtr)

@[simp] lemma record_SQLHandle : (s.record e).SQLHandle = s.SQLHandle := rfl
@[simp] lemma record_heap : (s.record e).heap = s.heap := rfl
@[simp] lemma record_nextHandler : (s.record e).nextHandler = s.nextHandler := rfl
@[simp] lemma record_p_Amx : (s.record e).p_Amx = s.p_Amx := rfl
@[simp] lemma record_mutex : (s.record e).mutex = s.mutex := rfl
@[simp] lemma record_inCall : (s.record e).inCall = s.inCall := rfl
@[simp] lemma record_lib : (s.record e).lib = s.lib := rfl
@[simp] lemma record_trace : (s.record e).trace = s.trace ++ [e] := rfl

@[simp] lemma setHandler_SQLHandle : (s.setHandler h x).SQLHandle = s.SQLHandle := rfl
@[simp] lemma setHandler_heap_self : (s.setHandler h x).heap h = some x := by simp [setHandler]
@[simp] lemma setHandler_nextHandler : (s.setHandler h x).nextHandler = s.nextHandler := rfl
@[simp] lemma setHandler_p_Amx : (s.setHandler h x).p_Amx = s.p_Amx := rfl
@[simp] lemma setHandler_mutex : (s.setHandler h x).mutex = s.mutex := rfl
@[simp] lemma setHandler_inCall : (s.setHandler h x).inCall = s.inCall := rfl
@[simp] lemma setHandler_lib : (s.setHandler h x).lib = s.lib := rfl
@[simp] lemma setHandler_trace : (s.setHandler h x).trace = s.trace := rfl

@[simp] lemma setInCall_SQLHandle : (s.setInCall t c).SQLHandle = s.SQLHandle := rfl
@[simp] lemma setInCall_heap : (s.setInCall t c).heap = s.heap := rfl
@[simp] lemma setInCall_nextHandler : (s.setInCall t c).nextHandler = s.nextHandler := rfl
@[simp] lemma setInCall_p_Amx : (s.setInCall t c).p_Amx = s.p_Amx := rfl
@[simp] lemma setInCall_mutex : (s.setInCall t c).mutex = s.mutex := rfl
@[simp] lemma setInCall_inCall_self : (s.setInCall t c).inCall t = c := by simp [setInCall]
@[simp] lemma setInCall_lib : (s.setInCall t c).lib = s.lib := rfl
@[simp] lemma setInCall_trace : (s.setInCall t c).trace = s.trace := rfl

end

end State

/-- The single statements of the plugin. -/
inductive Stmt : Type → Type where
  | lockMutex : Stmt Unit
  | unlockMutex : Stmt Unit
  /-- The vector `SQLHandle`: its size, its entries, `SQLHandle[i]`, `push_back`, `erase`. -/
  | size : Stmt Nat
  | table : Stmt (List HandlerPtr)
  | at (i : Nat) : Stmt HandlerPtr
  | pushBack (h : HandlerPtr) : Stmt Unit
  | erase (i : Nat) : Stmt Unit
  /-- Memory and members of handler objects. -/
  | new (host user passw db : CString) (port : BitVec 32) : Stmt HandlerPtr
  | delete (h : HandlerPtr) : Stmt Unit
  | this (h : HandlerPtr) : Stmt CMySQLHandler
  | load (h : HandlerPtr) (m : Member) : Stmt m.Val
  | assign (h : HandlerPtr) (a : Assign) : Stmt Unit
  /-- The guard of the worker. -/
  | guard (h : HandlerPtr) : Stmt Bool
  /-- Calls of libmysql on behalf of the handler `h`, with its `m_stConnectionPtr`. -/
  | mysql_init (h : HandlerPtr) : Stmt (Option ConnPtr)
  | enter (h : HandlerPtr) (f : LibCall) : Stmt ConnPtr
  | leave (h : HandlerPtr) (c : ConnPtr) (f : LibCall) : Stmt f.Ret
  | access (h : HandlerPtr) (f : LibAccess) : Stmt f.Ret
  /-- Stored results, their fields and rows. -/
  | onResult (r : Option ResPtr) (f : ResCall) : Stmt f.Ret
  | fieldName (f : Option FieldPtr) (i : Nat) : Stmt CString
  | rowValue (r : Option RowPtr) (i : Nat) : Stmt (Option CString)
  | free (f : Option FieldPtr) : Stmt Unit
  /-- The log: the flag `Debugging`, and a call of `Debug` with a format and its arguments. -/
  | setDebugging (b : Bool) : Stmt Unit
  | Debug (format args : List Conversion) : Stmt Unit
  /-- Scripts. -/
  | scripts : Stmt (List Amx)
  | exec (a : Amx) (p : Public) : Stmt (List NativeCall)
  | setString (dest : Cell) (s : CString) : Stmt Unit
  | setFloat (dest : Cell) (x : Option CString) : Stmt Unit
  | amxLoad (a : Amx) : Stmt Unit
  | amxUnload (a : Amx) : Stmt Unit
  | mark (m : Mark) : Stmt Unit

/-- The mutex of the Windows build may be locked again by the thread that holds it; the mutex of
the pthread build blocks that thread for ever. -/
inductive Build where
  | win32
  | pthread
  deriving DecidableEq

/-- `_lockMutex` by thread `t`; it waits while another thread holds the mutex. -/
def Build.lock (b : Build) (t : ThreadId) (s : State) : Option (Except Fault Unit × State) :=
  match s.mutex with
  | none => some (.ok (), { s with mutex := some (t, 1) }.record (.lock t))
  | some (u, n) =>
    if u = t then
      match b with
      | .win32 => some (.ok (), { s with mutex := some (t, n + 1) }.record (.relock t))
      | .pthread => some (.error .deadlock, s.record (.relock t))
    else none

/-- `_unlockMutex` by thread `t`; the mutex of another thread stays locked. -/
def unlock (t : ThreadId) (s : State) : State :=
  match s.mutex with
  | some (u, n) =>
    if u = t then
      { s with mutex := if n ≤ 1 then none else some (t, n - 1) }.record (.unlock t)
    else s.record (.unlock t)
  | none => s.record (.unlock t)

/-- What an unassigned member holds is up to the environment. -/
def Member.garbage (r : Reply) : (m : Member) → m.Val
  | .m_stResult => r.pointer.map (·.1)
  | .m_stRow => r.pointer.map fun p => ⟨p.1, p.2⟩
  | .m_stField => r.pointer.map fun p => ⟨p.1, p.2⟩
  | .m_dwFields => r.code
  | .m_dwError => r.code

/-- A 32-bit process has no memory for `2 ^ 31` handlers. -/
def maxHandlers : Nat := 2 ^ 31 - 1

/-- The guard of `ProcessQueryThread`. -/
def CMySQLHandler.ready (x : CMySQLHandler) : Bool :=
  !x.queueData.isEmpty && x.m_bIsConnected && !x.m_bQueryProcessing && !x.m_bNonThreadedQuery

/-- The effect of a statement, executed by thread `t` with the environment's reply `r`. -/
def Stmt.run (b : Build) (t : ThreadId) {β : Type} (a : Stmt β) (r : Reply) (s : State) :
    Option (Except Fault β × State) :=
  match a with
  | .lockMutex => b.lock t s
  | .unlockMutex => some (.ok (), unlock t s)
  | .size => some (.ok s.SQLHandle.length, s)
  | .table => some (.ok s.SQLHandle, s)
  | .at i =>
    match s.SQLHandle[i]? with
    | some h => some (.ok h, s)
    | none => some (.error .outOfRange, s)
  | .pushBack h => some (.ok (), { s with SQLHandle := s.SQLHandle ++ [h] }.record (.pushBack h))
  | .erase i =>
    match s.SQLHandle[i]? with
    | some h => some (.ok (), { s with SQLHandle := s.SQLHandle.eraseIdx i }.record (.erase i h))
    | none => some (.error .outOfRange, s)
  | .new host user passw db port =>
    if s.SQLHandle.length < maxHandlers then
      some (.ok s.nextHandler,
        { s.setHandler s.nextHandler
            { m_Hostname := host, m_Username := user, m_Password := passw, m_Database := db
              m_Port := port } with
          nextHandler := s.nextHandler + 1 }.record (.new s.nextHandler host user passw db port))
    else some (.error .badAlloc, s)
  | .delete h =>
    some (.ok (), { s with heap := Function.update s.heap h none }.record (.delete h))
  | .this h =>
    match s.heap h with
    | some x => some (.ok x, s)
    | none => some (.error .dangling, s)
  | .load h m =>
    match s.heap h with
    | some x =>
      match m.get x with
      | .set v => some (.ok v, s)
      | .unset => some (.ok (m.garbage r), s.record (.unset t h m))
    | none => some (.error .dangling, s)
  | .assign h a =>
    match s.heap h with
    | some x =>
      if a.defined x then some (.ok (), (s.setHandler h (a.apply x)).record (.assign t h a))
      else some (.error .emptyQueue, s)
    | none => some (.error .dangling, s)
  | .guard h =>
    match s.heap h with
    | some x => if x.ready then some (.ok true, s.record (.visit h)) else some (.ok false, s)
    | none => some (.error .dangling, s)
  | .mysql_init h =>
    if r.ok then
      some (.ok (some s.lib.nextConn),
        { s with lib := s.lib.newConn }.record (.init t h (some s.lib.nextConn)))
    else some (.ok none, s.record (.init t h none))
  | .enter h f =>
    match s.heap h with
    | some x =>
      match x.m_stConnectionPtr with
      | some c =>
        some (.ok c,
          ({ s with lib := s.lib.begin c f }.setInCall t (some c)).record (.enter t h f (some c)))
      | none => some (.error .nullPointer, s.record (.enter t h f none))
    | none => some (.error .dangling, s)
  | .leave h c f =>
    some (.ok (s.lib.answer c s.trace.length r f).1,
      ({ s with lib := (s.lib.answer c s.trace.length r f).2 }.setInCall t none).record
        (.leave t h f c r.ok))
  | .access h f =>
    match s.heap h with
    | some x =>
      match x.m_stConnectionPtr with
      | some c => some (.ok (s.lib.access c r f), s.record (.access t h f (some c)))
      | none => some (.error .nullPointer, s.record (.access t h f none))
    | none => some (.error .dangling, s)
  | .onResult p f =>
    match p with
    | none => some (.error .nullPointer, s.record (.onResult t none f))
    | some p =>
      match s.lib.live p with
      | some x =>
        some (.ok (s.lib.onResult p x f).1,
          { s with lib := (s.lib.onResult p x f).2 }.record (.onResult t (some p) f))
      | none => some (.error .badResult, s.record (.onResult t (some p) f))
  | .fieldName p i =>
    match p with
    | none => some (.error .nullPointer, s)
    | some p =>
      match (s.lib.live p.result).bind fun x => x.set.fields[p.index + i]? with
      | some name => some (.ok name, s)
      | none => some (.error .badResult, s)
  | .rowValue p i =>
    match p with
    | none => some (.error .nullPointer, s)
    | some p =>
      match (s.lib.live p.result).bind fun x => x.set.rows[p.row]?.bind (·[i]?) with
      | some v => some (.ok v, s)
      | none => some (.error .badResult, s)
  | .free p =>
    match p with
    | none => some (.ok (), s.record (.free none))
    | some p => some (.error .badFree, s.record (.free (some p)))
  | .setDebugging b => some (.ok (), { s with Debugging := b }.record (.setDebugging b))
  | .Debug format args =>
    if s.Debugging && !format.isPrefixOf args then some (.error .badFormat, s) else some (.ok (), s)
  | .scripts => some (.ok s.p_Amx, s)
  | .exec a p => some (.ok r.natives, s.record (.exec a p))
  | .setString dest str => some (.ok (), s.record (.setString dest str))
  | .setFloat dest str => some (.ok (), s.record (.setFloat dest str))
  | .amxLoad a => some (.ok (), { s with p_Amx := s.p_Amx ++ [a] }.record (.amxLoad a))
  | .amxUnload a => some (.ok (), { s with p_Amx := s.p_Amx.erase a }.record (.amxUnload a))
  | .mark m => some (.ok (), s.record (.mark m))

/-- The plugin as a machine; libmysql, the server and the scripts may reply anything. -/
def plugin (b : Build) : Machine Stmt Fault State ThreadId Reply where
  exec t a r s := a.run b t r s
  admits _ _ _ _ := True

/-- A program of the plugin. -/
abbrev Code (α : Type) : Type 1 := Prog Stmt Fault α

end MySQLPlugin
