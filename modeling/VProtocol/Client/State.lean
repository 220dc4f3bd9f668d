import Mathlib.Logic.Function.Basic
import Mathlib.Tactic.Simps.Basic
import VProtocol.Lib.SwapArray
import VProtocol.Client.Conn

/-!
# The state of the client service

Session objects live on a heap under addresses that are never used again; maps,
timers and handle sessions refer to them by address, as the pointers of the
source do. `m_nIndex` of the sessions, which the arrays of the handle sessions
write, is kept apart from the other members. The hash maps are ideal finite maps.
-/

namespace VProtocol.Client

open Function (update)

abbrev HPtr := Nat

/-- `CRegistUserSession` and `CProposeSession`; `channelID` is used by the former only.
`content` is `m_ccGenerateUserInfo`, `m_transContent`. -/
structure EndorseSession where
  kind : Kind
  srcMsgAddr : MsgAddr
  srcSessionID : UInt32
  cltSessionID : UInt32
  waitNotify : Bool
  channelID : UInt32
  succeedRspNum : UInt32
  submitEs : Option HPtr
  esSessionID : UInt32
  content : Blob
  arrHandleSession : List HPtr

/-- The sessions that wait on one connection: `CRegistUserWaitNotitySession`,
`CProposeWaitNotifySession`, `CQueryUserSession`, `CQueryTransactionSession`. -/
inductive SingleKind where
  | waitNotify (k : Kind)
  | queryUser
  | queryTrans
  deriving DecidableEq

structure SingleSession where
  kind : SingleKind
  srcMsgAddr : MsgAddr
  srcSessionID : UInt32
  cltSessionID : UInt32
  handleSession : HPtr

inductive Session where
  | endorse (S : EndorseSession)
  | single (S : SingleSession)

def Session.handleList : Session → List HPtr
  | .endorse S => S.arrHandleSession
  | .single S => [S.handleSession]

structure HandleSession where
  mcpHandler : McpHandler
  arrSession : List Ptr

/-- A step the source leaves undefined or that stops the process. -/
inductive Fault where
  | nullPtr
  | dangling
  | outOfRange
  | assertion
  deriving DecidableEq

abbrev Res := Except Fault

/-! ## Sessions, maps and timers -/

structure Core where
  heap : Ptr → Option Session := fun _ => none
  next : Ptr := 0
  armed : Ptr → Bool := fun _ => false
  mapEndorse : Kind → UInt32 → Option Ptr := fun _ _ => none
  mapSingle : SingleKind → UInt32 → Option Ptr := fun _ _ => none
  sessionID : UInt32 := 0

namespace Core
variable (c : Core)

def live (p : Ptr) : Bool := (c.heap p).isSome

@[simps]
def put (p : Ptr) (x : Session) : Core := { c with heap := update c.heap p (some x) }

@[simps]
def alloc (x : Session) : Core := { c.put c.next x with next := c.next + 1 }

@[simps]
def free (p : Ptr) : Core := { c with heap := update c.heap p none }

@[simps]
def setDscTimer (p : Ptr) : Core := { c with armed := update c.armed p true }

@[simps]
def cancelDscTimer (p : Ptr) : Core := { c with armed := update c.armed p false }

@[simps]
def insertEndorse (k : Kind) (id : UInt32) (p : Ptr) : Core :=
  { c with mapEndorse := update c.mapEndorse k (update (c.mapEndorse k) id (some p)) }

@[simps]
def eraseEndorseKey (k : Kind) (id : UInt32) : Core :=
  { c with mapEndorse := update c.mapEndorse k (update (c.mapEndorse k) id none) }

/-- `Erase` of an object: takes out the entry that holds it, if there is one. -/
@[simps]
def eraseEndorse (p : Ptr) : Core :=
  { c with mapEndorse := fun k id => if c.mapEndorse k id = some p then none else c.mapEndorse k id }

@[simps]
def insertSingle (k : SingleKind) (id : UInt32) (p : Ptr) : Core :=
  { c with mapSingle := update c.mapSingle k (update (c.mapSingle k) id (some p)) }

@[simps]
def eraseSingleKey (k : SingleKind) (id : UInt32) : Core :=
  { c with mapSingle := update c.mapSingle k (update (c.mapSingle k) id none) }

@[simps]
def eraseSingle (p : Ptr) : Core :=
  { c with mapSingle := fun k id => if c.mapSingle k id = some p then none else c.mapSingle k id }

end Core

/-! ## Handle sessions -/

structure Links where
  handles : HPtr → Option HandleSession := fun _ => none
  next : HPtr := 0
  mapHandle : UInt32 → Option HPtr := fun _ => none
  index : Ptr → Nat := fun _ => 0

namespace Links
variable (l : Links)

def handleSession (h : McpHandler) : Links × HPtr :=
  match l.mapHandle h.handleID with
  | some hp => (l, hp)
  | none =>
    ({ l with
        handles := update l.handles l.next (some ⟨h, []⟩)
        mapHandle := update l.mapHandle h.handleID (some l.next)
        next := l.next + 1 }, l.next)

def insert (hp : HPtr) (p : Ptr) : Res Links :=
  match l.handles hp with
  | none => .error .dangling
  | some H =>
    .ok { l with
      handles := update l.handles hp (some { H with arrSession := H.arrSession ++ [p] })
      index := update l.index p H.arrSession.length }

/-- `m_arrSession.Erase`: the stored position of `p` decides which slot is filled
with the last element, whose stored position is written. -/
def erase (live : Ptr → Bool) (hp : HPtr) (p : Ptr) : Res Links :=
  match l.handles hp with
  | none => .error .dangling
  | some H =>
    if H.arrSession = [] then .error .outOfRange
    else
      let handles := update l.handles hp (some { H with arrSession := swapErase H.arrSession (l.index p) })
      match movedBy H.arrSession (l.index p) with
      | none => .ok { l with handles }
      | some q => if live q then .ok { l with handles, index := update l.index q (l.index p) } else .error .dangling

def unlink (live : Ptr → Bool) (p : Ptr) : List HPtr → Links → Res Links
  | [], l => .ok l
  | hp :: hps, l => do
    let l ← l.erase live hp p
    unlink live p hps l

end Links

structure State where
  core : Core := {}
  links : Links := {}
  conn : PeerConnSummary := {}

end VProtocol.Client
