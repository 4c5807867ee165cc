/- GID: Libofp/Sys/Connections
   digest: The engine's registry of connections and datapaths, and what constructing, naming
     and destroying a connection does to it. -/

import Libofp.Base.LowerBound
import Mathlib.Algebra.Group.Nat.Defs
import Mathlib.Logic.Function.Basic

/-! Objects live in a heap, and a pointer to an object that is not alive cannot be followed:
such a step has no result. The result is also missing when an assertion fails or when the
engine gives up. Shutting a connection down concerns its socket only; the pointer is followed. -/

set_option autoImplicit false

namespace Libofp.Sys.Connections

open Base.LowerBound

abbrev Ptr := Nat

abbrev DatapathID := BitVec 64

def kManualDelete : BitVec 16 := 0x0002

def kPermitsAuxiliary : BitVec 16 := 0x0080

structure Connection where
  connId : Nat
  datapathId : DatapathID
  auxiliaryId : UInt8
  mainConn : Ptr
  auxList : List Ptr
  flags : BitVec 16
  deriving DecidableEq, Repr

structure Engine where
  heap : Ptr → Option Connection
  connList : List Ptr
  dpidMap : DatapathID → Option Ptr
  lastConnId : Nat

namespace Engine

def empty : Engine := ⟨fun _ => none, [], fun _ => none, 0⟩

def store (s : Engine) (p : Ptr) (c : Connection) : Engine :=
  { s with heap := Function.update s.heap p (some c) }

def free (s : Engine) (p : Ptr) : Engine := { s with heap := Function.update s.heap p none }

end Engine

def assignConnectionId (s : Engine) : Option (Engine × Nat) :=
  let lastConnId := (s.lastConnId + 1) % 2 ^ 64
  if lastConnId = 0 then none else some ({ s with lastConnId := lastConnId }, lastConnId)

def registerConnection (s : Engine) (p : Ptr) : Option (Engine × Nat) :=
  assignConnectionId { s with connList := s.connList ++ [p] }

/-- `Connection::Connection`, with the flags that the subclass sets. -/
def construct (s : Engine) (p : Ptr) (flags : BitVec 16) : Option Engine := do
  let (s, connId) ← registerConnection s p
  return s.store p ⟨connId, 0, 0, p, [], flags⟩

/-- `Engine::findConnIter`: the position in `connList_`, if any. The search may follow each of
the pointers. -/
def findConnIter (s : Engine) (connId : Nat) : Option (Option Nat) := do
  guard (connId ≠ 0)
  let conns ← s.connList.mapM s.heap
  let iter := lowerBound (fun conn => decide (conn.connId < connId)) conns
  match conns[iter]? with
  | some conn => if conn.connId = connId then return some iter else return none
  | none => return none

def findConnId (s : Engine) (connId : Nat) : Option (Option Ptr) := do
  let iter ← findConnIter s connId
  return iter.bind fun i => s.connList[i]?

def releaseConnection (s : Engine) (p : Ptr) : Option Engine := do
  let c ← s.heap p
  match ← findConnIter s c.connId with
  | none => return s
  | some i =>
    guard (s.connList[i]? = some p)
    return { s with connList := s.connList.eraseIdx i }

/-- `Connection::setMainConnection`. The search for another auxiliary connection with the same
number follows the pointers of the list. -/
def setMainConnection (s : Engine) (p channel : Ptr) (auxID : UInt8) : Option Engine := do
  let c ← s.heap p
  guard (c.mainConn = p)
  guard (channel ≠ p)
  guard (auxID ≠ 0)
  let m ← s.heap channel
  let s := s.store p
    { c with mainConn := channel, datapathId := m.datapathId, auxiliaryId := auxID }
  let _ ← m.auxList.mapM s.heap
  return s.store channel { m with auxList := m.auxList ++ [p] }

def registerDatapath (s : Engine) (p : Ptr) : Option (Engine × Bool) := do
  let channel ← s.heap p
  let dpid := channel.datapathId
  let auxID := channel.auxiliaryId
  if auxID = 0 then
    match s.dpidMap dpid with
    | none => return ({ s with dpidMap := Function.update s.dpidMap dpid (some p) }, true)
    | some old =>
      if old ≠ p then
        let s := { s with dpidMap := Function.update s.dpidMap dpid (some p) }
        let _ ← s.heap old
        return (s, true)
      else return (s, true)
  else
    match s.dpidMap dpid with
    | some parent =>
      let m ← s.heap parent
      if m.flags &&& kPermitsAuxiliary ≠ 0 then
        let s ← setMainConnection s p parent auxID
        return (s, true)
      else return (s, false)
    | none => return (s, false)

def postDatapath (s : Engine) (p : Ptr) (datapathId : DatapathID) (auxiliaryId : UInt8) :
    Option (Engine × Bool) := do
  if datapathId = 0 then return (s, false)
  else
    let c ← s.heap p
    registerDatapath (s.store p { c with datapathId := datapathId, auxiliaryId := auxiliaryId }) p

def releaseDatapath (s : Engine) (p : Ptr) : Option Engine := do
  let channel ← s.heap p
  if channel.auxiliaryId = 0 then
    match s.dpidMap channel.datapathId with
    | some q =>
      if q = p then
        return { s with dpidMap := Function.update s.dpidMap channel.datapathId none }
      else return s
    | none => return s
  else return s

/-- One turn of the loop over `auxList_` in the destructor. -/
def dropAux (delete : Engine → Ptr → Option Engine) (s : Engine) (conn : Ptr) : Option Engine :=
  (s.heap conn).bind fun a =>
    let s := s.store conn { a with mainConn := conn }
    if a.flags &&& kManualDelete ≠ 0 then delete s conn else some s

def leaveDatapath (delete : Engine → Ptr → Option Engine) (s : Engine) (p : Ptr) (c : Connection) :
    Option Engine :=
  (releaseDatapath s p).bind fun s =>
    if c.mainConn = p then c.auxList.foldlM (dropAux delete) s
    else
      (s.heap c.mainConn).map fun m =>
        s.store c.mainConn { m with auxList := m.auxList.erase p }

/-- `Connection::~Connection`, at most `depth` destructors deep. -/
def destroyLoop : Nat → Engine → Ptr → Option Engine
  | 0, _, _ => none
  | depth + 1, s, p =>
    (s.heap p).bind fun c =>
      (if c.datapathId ≠ 0 then leaveDatapath (destroyLoop depth) s p c else some s).bind fun s =>
        (releaseConnection s p).map fun s => s.free p

/-- `Connection::~Connection`. No more destructors nest than there are connections. -/
def destroy (s : Engine) (p : Ptr) : Option Engine := destroyLoop (s.connList.length + 1) s p

inductive Event where
  | construct (p : Ptr) (flags : BitVec 16)
  | setFlags (p : Ptr) (flags : BitVec 16)
  | postDatapath (p : Ptr) (datapathId : DatapathID) (auxiliaryId : UInt8)
  | destroy (p : Ptr)
  deriving DecidableEq, Repr

def step (s : Engine) : Event → Option Engine
  | .construct p flags => construct s p flags
  | .setFlags p flags => (s.heap p).map fun c => s.store p { c with flags := flags }
  | .postDatapath p datapathId auxiliaryId => (postDatapath s p datapathId auxiliaryId).map Prod.fst
  | .destroy p => destroy s p

/-- An object is constructed where none is alive, and used while it is alive. It gets its
datapath once, and not the empty one. -/
def allowed (s : Engine) : Event → Bool
  | .construct p _ => (s.heap p).isNone
  | .setFlags p _ => (s.heap p).isSome
  | .postDatapath p datapathId _ =>
    datapathId ≠ 0 && (s.heap p).any fun c => c.datapathId = 0
  | .destroy p => (s.heap p).isSome

def valid : Engine → List Event → Bool
  | _, [] => true
  | s, e :: events => allowed s e && (step s e).all fun s' => valid s' events

def run (events : List Event) : Option Engine := events.foldlM step .empty

def Event.isConstruct : Event → Bool
  | .construct _ _ => true
  | .setFlags _ _ => false
  | .postDatapath _ _ _ => false
  | .destroy _ => false

end Libofp.Sys.Connections
