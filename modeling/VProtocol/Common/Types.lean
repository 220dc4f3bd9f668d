import Mathlib.Algebra.Group.Nat.Defs

/-!
# Types and codes the services share

Byte strings (`CDscString`, `CDscBlob`) are lists of bytes, return codes are
integers, session and handle ids keep their 32 bits.
-/

namespace VProtocol

abbrev Blob := List UInt8

/-- `CDscMsg::CDscMsgAddr`, which the services only store and hand back. -/
abbrev MsgAddr := Nat

structure OrderGenerateKey where
  orderID : UInt16
  sequenceNumber : UInt32
  systemID : UInt64
  deriving DecidableEq

structure OrderGenerateTransactionKey where
  orderID : UInt16
  sequenceNumber : UInt32
  transIdx : UInt32
  blockID : UInt64
  deriving DecidableEq

/-! ## Return codes (`VBH::__ERROR_CORE`) -/

def okType : Int := 0
def timeoutErrorType : Int := -3
def networkErrorType : Int := -4
def systemErrorType : Int := -5
def encryptErrorType : Int := -6
def decryptErrorType : Int := -7
def decodeErrorType : Int := -8
def nonceVerifyErrorType : Int := -10
def cannotFoundChannelErrorType : Int := -12
def ccReportErrorType : Int := -19
def registUserIsRefused : Int := -20

/-! ## Versions -/

/-- `VBH::IncreaseVersion`: the version after 2^32 - 1 is 1. -/
def increaseVersion (version : UInt32) : UInt32 :=
  if version = 0xFFFFFFFF then 1 else version + 1

end VProtocol
