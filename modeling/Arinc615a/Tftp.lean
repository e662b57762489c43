import Arinc615a.Files.Codec

/-!
# TFTP requests and transfers

What the operations see of the TFTP library: endpoints, requests with the options of the protocol,
and how a transfer ends.  Last comes what they take from other libraries.
-/

open Reasoning

namespace Arinc615a.Tftp

structure Endpoint where
  address : Nat
  port : UInt16
  deriving DecidableEq, Repr

inductive RequestType where
  | read
  | write
  deriving DecidableEq, Repr

inductive TransferStatus where
  | successful
  | communicationError
  | requestError
  | optionNegotiationError
  | transferError
  | aborted
  | operationAbortedByDlp
  | operationAbortedByOperator
  deriving DecidableEq, Repr

inductive ErrorCode where
  | notDefined
  | fileNotFound
  | accessViolation
  | illegalTftpOperation
  deriving DecidableEq, Repr

inductive CheckValueType where
  | notUsed
  | crc8
  | crc16
  | crc32
  | crc64
  | md5
  | sha1
  | sha256
  | sha512
  deriving DecidableEq, Repr

structure CheckValue where
  type : CheckValueType := .notUsed
  value : Bytes := []
  deriving DecidableEq, Repr

structure Arinc615aOptions where
  port : Option UInt16 := none
  partNumber : Text := []
  checksum : CheckValue := {}
  deriving DecidableEq, Repr

end Arinc615a.Tftp

namespace Arinc615a

open Files Tftp

/-- The parts of other libraries that the operations call for a value. -/
structure Library where
  raw : RawDataCodec
  /-- `CheckValueGenerator` -/
  generateCheckValue : CheckValueType → Bytes → CheckValue

end Arinc615a
