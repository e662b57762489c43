import Arinc615a.Target.Operation

/-!
# Refusals

`ErrorOperationImpl.cpp`.  A target that does not take on an operation answers the request for the
initialisation file with a file that says so.
-/

open Reasoning

namespace Arinc615a.Target

open Files Information Tftp

structure ErrorOperationConfiguration where
  /-- Whether there is one. -/
  completionHandler : Bool
  status : OperationAcceptanceStatusCode
  description : Text
  deriving DecidableEq

structure ErrorOperation where
  protocolVersion : Arinc615aVersion
  configuration : ErrorOperationConfiguration
  initialisationFileOperation : Bool := false
  deriving DecidableEq

inductive ErrorOutput where
  | sendInitFile (remote : Endpoint) (data : Bytes) (port : Option UInt16)
  | completed
  /-- An exception leaves the function. -/
  | thrown
  deriving DecidableEq

namespace ErrorOperation

variable (lib : Library) (op : ErrorOperation)

def initialisationFile : InitializationFile where
  protocolVersion := op.protocolVersion
  response := { code := op.configuration.status, description := op.configuration.description }

def start (hostAddress : Endpoint) (port : Option UInt16) (result : Operation.StartResult) :
    ErrorOperation × List ErrorOutput :=
  let op := { op with initialisationFileOperation := true }
  match op.initialisationFile.encode lib.raw with
  | .error _ => (op, [.thrown])
  | .ok file =>
    match result with
    | .started => (op, [.sendInitFile hostAddress file port])
    | .throws => (op, [.thrown])

def initialisationFileCompleted (status : TransferStatus) : ErrorOperation × List ErrorOutput :=
  let op := { op with initialisationFileOperation := false }
  if status ≠ .successful then (op, [])
  else (op, if op.configuration.completionHandler then [.completed] else [])

theorem encode_of_start {lib : Library} {op op' : ErrorOperation} {hostAddress remote : Endpoint}
    {port port' : Option UInt16} {result : Operation.StartResult} {out : List ErrorOutput}
    {data : Bytes} (hstart : op.start lib hostAddress port result = (op', out))
    (hsent : .sendInitFile remote data port' ∈ out) :
    op.initialisationFile.encode lib.raw = .ok data := by
  unfold start at hstart
  dsimp only at hstart
  split at hstart
  · cases hstart
    cases List.mem_singleton.mp hsent
  next file hencode =>
    cases result with
    | started =>
      cases hstart
      cases List.mem_singleton.mp hsent
      exact hencode
    | throws =>
      cases hstart
      cases List.mem_singleton.mp hsent

theorem not_sent_of_completed {remote : Endpoint} {data : Bytes} {port : Option UInt16}
    (op : ErrorOperation) (status : TransferStatus) :
    .sendInitFile remote data port ∉ (op.initialisationFileCompleted status).2 := by
  unfold initialisationFileCompleted
  dsimp only
  split
  · exact List.not_mem_nil
  · cases op.configuration.completionHandler with
    | true => exact fun hmem => nomatch List.mem_singleton.mp hmem
    | false => exact List.not_mem_nil

end ErrorOperation

end Arinc615a.Target
