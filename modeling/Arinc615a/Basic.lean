import Arinc615a.Reasoning.Decoder

/-!
# Enumerations and status codes

The enumerations of `Arinc615a.hpp` with the conversions of `StatusCode.cpp`.
-/

open Reasoning

namespace Arinc615a

/-- A `std::string`. -/
abbrev Text := List UInt8

/-- The bytes of an ASCII literal. -/
def text (s : String) : Text := s.toList.map fun c => c.toNat.toUInt8

structure Arinc615aException where
  additionalInfo : String
  deriving DecidableEq, Repr

/-- How a call of a handler is left. -/
inductive Exit where
  | returned
  | arinc615aException
  | otherException
  deriving DecidableEq, Repr

/-- `zero` is the value of `Arinc615aVersion{}`, which no enumerator has. -/
inductive Arinc615aVersion where
  | zero
  | arinc615a1
  | arinc615a2
  | arinc615a34
  deriving DecidableEq, Repr

def Arinc615aVersion.toUnderlying : Arinc615aVersion → UInt16
  | .zero => 0
  | .arinc615a1 => 0x4132
  | .arinc615a2 => 0x4133
  | .arinc615a34 => 0x4134

/-- The versions the library reads.  ARINC 615A-1 is only named. -/
def Arinc615aVersion.Supported (version : Arinc615aVersion) : Prop :=
  version = .arinc615a2 ∨ version = .arinc615a34

instance (version : Arinc615aVersion) : Decidable version.Supported :=
  inferInstanceAs (Decidable (_ ∨ _))

/-- Without `Invalid`, which no operation has. -/
inductive OperationType where
  | information
  | upload
  | mediaDefinedDownload
  | operatorDefinedDownload
  deriving DecidableEq, Repr

inductive StatusCode where
  | operationAccepted
  | operationNotAccepted
  | operationNotSupported
  | operationInProgress
  | operationCompleted
  | operationInProgressAdditionalInfo
  | operationAbortedByTargetHw
  | operationAbortedByDlp
  | operationAbortedByOperator
  | loadPartNumberOrDownloadFileFailed
  | operationDeferred
  | invalid
  deriving DecidableEq, Repr

def StatusCode.toUnderlying : StatusCode → UInt16
  | .operationAccepted => 0x0001
  | .operationNotAccepted => 0x1000
  | .operationNotSupported => 0x1002
  | .operationInProgress => 0x0002
  | .operationCompleted => 0x0003
  | .operationInProgressAdditionalInfo => 0x0004
  | .operationAbortedByTargetHw => 0x1003
  | .operationAbortedByDlp => 0x1004
  | .operationAbortedByOperator => 0x1005
  | .loadPartNumberOrDownloadFileFailed => 0x1007
  | .operationDeferred => 0xFFFE
  | .invalid => 0xFFFF

inductive OperationAcceptanceStatusCode where
  | operationAccepted
  | operationDenied
  | operationNotSupported
  | operationDeferred
  deriving DecidableEq, Repr

def OperationAcceptanceStatusCode.toUnderlying : OperationAcceptanceStatusCode → UInt16
  | .operationAccepted => StatusCode.operationAccepted.toUnderlying
  | .operationDenied => StatusCode.operationNotAccepted.toUnderlying
  | .operationNotSupported => StatusCode.operationNotSupported.toUnderlying
  | .operationDeferred => StatusCode.operationDeferred.toUnderlying

inductive AbortRequest where
  | abortByDlp
  | abortByOperator
  deriving DecidableEq, Repr

inductive FinalStatus where
  | completed
  | abortedByDlp
  | abortedByOperator
  | abortedByTargetHardware
  | loadPartNumberOrDownloadFileFailed
  deriving DecidableEq, Repr

/-- `LoadPartNumberOrDownloadFileFailed` has no case of its own in the source and takes the
default. -/
def FinalStatus.statusCode : FinalStatus → StatusCode
  | .completed => .operationCompleted
  | .abortedByDlp => .operationAbortedByDlp
  | .abortedByOperator => .operationAbortedByOperator
  | .abortedByTargetHardware => .operationAbortedByTargetHw
  | .loadPartNumberOrDownloadFileFailed => .operationAbortedByTargetHw

def StatusCode.finalStatus : StatusCode → FinalStatus
  | .operationCompleted => .completed
  | .operationAbortedByDlp => .abortedByDlp
  | .operationAbortedByOperator => .abortedByOperator
  | .operationAbortedByTargetHw => .abortedByTargetHardware
  | .loadPartNumberOrDownloadFileFailed => .loadPartNumberOrDownloadFileFailed
  | _ => .abortedByTargetHardware

def AbortRequest.finalStatus : AbortRequest → FinalStatus
  | .abortByDlp => .abortedByDlp
  | .abortByOperator => .abortedByOperator

def statusCode (code : UInt16) : Except Arinc615aException StatusCode :=
  match code with
  | 0x0001 => .ok .operationAccepted
  | 0x1000 => .ok .operationNotAccepted
  | 0x1002 => .ok .operationNotSupported
  | 0x0002 => .ok .operationInProgress
  | 0x0003 => .ok .operationCompleted
  | 0x0004 => .ok .operationInProgressAdditionalInfo
  | 0x1003 => .ok .operationAbortedByTargetHw
  | 0x1004 => .ok .operationAbortedByDlp
  | 0x1005 => .ok .operationAbortedByOperator
  | 0x1007 => .ok .loadPartNumberOrDownloadFileFailed
  | _ => .error ⟨"Invalid status code"⟩

def operationAcceptanceStatusCode (code : UInt16) :
    Except Arinc615aException OperationAcceptanceStatusCode :=
  match code with
  | 0x0001 => .ok .operationAccepted
  | 0x1000 => .ok .operationDenied
  | 0x1002 => .ok .operationNotSupported
  | _ => .error ⟨"Invalid status code"⟩

/-- The codes of the protocol; the other two are internal values. -/
def StatusCode.Known (code : StatusCode) : Prop := code ≠ .operationDeferred ∧ code ≠ .invalid

instance (code : StatusCode) : Decidable code.Known := inferInstanceAs (Decidable (_ ∧ _))

theorem statusCode_toUnderlying {code : StatusCode} (h : code.Known) :
    statusCode code.toUnderlying = .ok code := by
  cases code with
  | operationDeferred => exact absurd rfl h.1
  | invalid => exact absurd rfl h.2
  | _ => rfl

theorem operationAcceptanceStatusCode_toUnderlying {code : OperationAcceptanceStatusCode}
    (h : code ≠ .operationDeferred) :
    operationAcceptanceStatusCode code.toUnderlying = .ok code := by
  cases code with
  | operationDeferred => exact absurd rfl h
  | _ => rfl

/-- A final status survives its status code, apart from the one without a code of its own. -/
theorem finalStatus_statusCode {status : FinalStatus}
    (h : status ≠ .loadPartNumberOrDownloadFileFailed) : status.statusCode.finalStatus = status := by
  cases status with
  | loadPartNumberOrDownloadFileFailed => exact absurd rfl h
  | _ => rfl

end Arinc615a
