import Arinc615a.Tftp.ErrorMessage

/-!
# Client operations of the protocol

`tftp/clients/implementation/OperationImpl.cpp`: how a client operation goes on when its TFTP
operation has completed.
-/

namespace Arinc615a.Tftp

/-- The members of the client operation that its completion looks at. -/
structure ClientOperation where
  handleAbort : Bool := false
  dlpRetries : UInt16
  retries : UInt16 := 0
  deriving DecidableEq, Repr

/-- What a client operation does next. -/
inductive ClientAction where
  | completed (status : TransferStatus)
  /-- The wait timer is started, and `operationDeferredHandlerV` is called. -/
  | deferred (waitTime : Nat)
  | request
  deriving DecidableEq, Repr

namespace ClientOperation

/-- The request is repeated unless it has been too often. -/
def retry (op : ClientOperation) : ClientOperation × ClientAction :=
  let op := { op with retries := op.retries + 1 }
  if op.dlpRetries < op.retries then (op, .completed .communicationError) else (op, .request)

/-- `status` and `errorInformation` are those of the TFTP operation. -/
def handleCompletion (op : ClientOperation) (status : TransferStatus)
    (errorInformation : Option ErrorInformation) : ClientOperation × ClientAction :=
  match status with
  | .successful => (op, .completed .successful)
  | .aborted => (op, .completed .aborted)
  | .requestError =>
    match errorMessageType errorInformation, errorInformation with
    | .abort, some (_, errorMessage) =>
      -- only operations that write a status file handle an abort
      if op.handleAbort then
        match decodeAbortMessage errorMessage with
        | .operationAbortedByDlp => (op, .completed .operationAbortedByDlp)
        | .operationAbortedByOperator => (op, .completed .operationAbortedByOperator)
        | _ => op.retry
      else op.retry
    | .wait, some (_, errorMessage) =>
      match decodeWaitMessage errorMessage with
      -- a wait is not counted as a retry
      | some waitTime => (op, .deferred waitTime)
      | none => op.retry
    | _, _ => op.retry
  | _ => op.retry

/-- An abort for one of the two reasons completes an operation that handles aborts. -/
theorem handleCompletion_abort {op : ClientOperation} (h : op.handleAbort = true) :
    op.handleCompletion .requestError
        (some (.notDefined, abortMessage .operationAbortedByDlp)) =
      (op, .completed .operationAbortedByDlp) ∧
    op.handleCompletion .requestError
        (some (.notDefined, abortMessage .operationAbortedByOperator)) =
      (op, .completed .operationAbortedByOperator) := by
  have hdlp : decodeAbortMessage (abortMessage .operationAbortedByDlp) = .operationAbortedByDlp :=
    decodeAbortMessage_of_known (by decide) (by decide)
  have hoperator : decodeAbortMessage (abortMessage .operationAbortedByOperator) =
      .operationAbortedByOperator := decodeAbortMessage_of_known (by decide) (by decide)
  constructor
  · simp only [handleCompletion, errorMessageType_abortMessage, h, if_true, hdlp]
  · simp only [handleCompletion, errorMessageType_abortMessage, h, if_true, hoperator]

end ClientOperation

end Arinc615a.Tftp
