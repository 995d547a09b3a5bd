import Webtrans.Proto.Capsule
import Webtrans.Proto.ErrorCode
import Webtrans.Proto.Frame

namespace Webtrans.Session

open Webtrans.Data Webtrans.Proto

/-! What a session sees of its QUIC connection, and what it sends when it
closes (`error.rs` and the close helpers of `session.rs` in both backends). -/

inductive Backend where
  | quinn
  | quion
deriving DecidableEq, Repr

namespace Backend

/-- The application's reason in a received close: Quinn hands over its bytes,
Quion a text. -/
abbrev Reason : Backend → Type
  | quinn => List UInt8
  | quion => String

instance : (backend : Backend) → DecidableEq backend.Reason
  | quinn => inferInstanceAs (DecidableEq (List UInt8))
  | quion => inferInstanceAs (DecidableEq String)

def reasonText : (backend : Backend) → backend.Reason → String
  | quinn, reason => fromUtf8Lossy reason
  | quion, reason => reason

end Backend

/-- Why a QUIC connection is closed.  `other` stands for the causes that no
code of the session looks into. -/
inductive ConnectionError (backend : Backend) where
  | applicationClosed (errorCode : VarInt) (reason : backend.Reason)
  | locallyClosed
  | other (cause : String)
deriving DecidableEq

/-- The reason of a closed connection behind another `conn.close`: Quinn
overwrites it, in Quion the first cause stays. -/
def ConnectionError.closedAgain {backend : Backend} (error : ConnectionError backend) : ConnectionError backend :=
  match backend with
  | .quinn => .locallyClosed
  | .quion => error

inductive WebTransportError where
  | closed (code : UInt32) (reason : String)
  | unknownSession
deriving DecidableEq, Repr

inductive SessionError (backend : Backend) where
  | connectionError (error : ConnectionError backend)
  | webTransportError (error : WebTransportError)
deriving DecidableEq

namespace SessionError

variable {backend : Backend}

def fromConnectionError : ConnectionError backend → SessionError backend
  | .applicationClosed errorCode reason =>
      match errorFromHttp3 errorCode.intoInner with
      | some code => .webTransportError (.closed code (backend.reasonText reason))
      | none => .connectionError (.applicationClosed errorCode reason)
  | error => .connectionError error

/-- The code and reason the peer closed the session with, as far as the error
carries them. -/
def sessionError : SessionError backend → Option (UInt32 × String)
  | .webTransportError (.closed code reason) => some (code, reason)
  | _ => none

theorem sessionError_fromConnectionError (error : ConnectionError backend) (code : UInt32)
    (reason : String) :
    (fromConnectionError error).sessionError = some (code, reason) ↔
      ∃ errorCode text, error = .applicationClosed errorCode text ∧
        errorFromHttp3 errorCode.intoInner = some code ∧ backend.reasonText text = reason := by
  cases error with
  | applicationClosed errorCode text =>
      cases mapped : errorFromHttp3 errorCode.intoInner with
      | none => simp [fromConnectionError, sessionError, mapped]
      | some found => simp [fromConnectionError, sessionError, mapped]
  | locallyClosed => simp [fromConnectionError, sessionError]
  | other cause => simp [fromConnectionError, sessionError]

end SessionError

structure CloseCommand where
  code : UInt32
  reason : List UInt8
deriving DecidableEq, Repr

/-- `while reason.len() > 1024 { reason.pop(); }` on the characters in reverse. -/
def popToLimit : List Char → List Char
  | [] => []
  | last :: front =>
      if (String.ofList (last :: front).reverse).utf8ByteSize > 1024 then popToLimit front
      else last :: front

def capsuleReason (reason : List UInt8) : String :=
  String.ofList (popToLimit (fromUtf8Lossy reason).toList.reverse).reverse

/-- The reason that `close` queues: at most 1,024 bytes of the caller's. -/
def queuedReason (reason : List UInt8) : List UInt8 :=
  asBytes (capsuleReason (reason.take 1024))

theorem popToLimit_size (chars : List Char) :
    (String.ofList (popToLimit chars).reverse).utf8ByteSize ≤ 1024 := by
  induction chars with
  | nil => decide
  | cons last front ih =>
      rw [popToLimit]
      split
      · exact ih
      · omega

theorem capsuleReason_size (reason : List UInt8) : (capsuleReason reason).utf8ByteSize ≤ 1024 :=
  popToLimit_size _

def writeCapsuleFrame (capsule : Capsule) : Except CapsuleError (List UInt8) :=
  match capsule.encode [] with
  | (.error error, _) => .error error
  | (.ok (), payload) =>
      match VarInt.fromU64 payload.length with
      | none => .error .messageTooLong
      | some length => .ok (Frame.data.encode ++ length.encode ++ payload)

def CloseCommand.capsule (close : CloseCommand) : Capsule :=
  .closeWebTransportSession close.code (capsuleReason close.reason)

def closeCode (code : UInt32) : VarInt :=
  (VarInt.fromU64 (errorToHttp3 code)).getD (VarInt.fromU32 1)

theorem closeCode_intoInner (code : UInt32) : (closeCode code).intoInner = errorToHttp3 code := by
  simp only [closeCode, VarInt.fromU64, dif_pos (errorToHttp3_lt code), Option.getD_some]

end Webtrans.Session
