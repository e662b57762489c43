import Arinc615a.Host.Conduct
import Arinc615a.Reasoning.Calls

/-!
# A host operation with calls that last

The callbacks of a host operation, cut at the calls of the handler behind which they go on.  While
such a call lasts the user may call the operation; it is left by a return or by an exception.
`World.step` is the case in which every call of the handler comes back at once.
-/

open Reasoning

namespace Arinc615a.Host

open Files Information Tftp

/-- The `try` block around a call of `finished`, by what its handler does. -/
inductive Guard where
  | unguarded
  | initialisation
  | status
  | list
  deriving DecidableEq, Repr

/-- What is left of a callback behind a call of the handler. -/
inductive Rest where
  | initialisationResponse (initFile : InitializationFile)
  | status (status : Status)
  | targetInformation
  | downloadingList
  | finished (guard : Guard)
  /-- `finished` for a status file operation that is not known: upload and download go on. -/
  | unknownStatus (status : TransferStatus) (rawStatusFile : Bytes)
  deriving DecidableEq

abbrev Part := CallPart Operation Rest Output

/-- A part that is the end of its callback. -/
def Reaction.part (r : Reaction) : Part := { state := r.1, out := r.2 }

def Part.reaction (part : Part) : Reaction := (part.state, part.out)

namespace Operation

/-- Makes a call of the handler, with more to do behind it. -/
def calling (op : Operation) (o : Output) (rest : Rest) : Part :=
  { state := op, out := [o], rest := some rest }

def finishedPart (op : Operation) (guard : Guard) (status : StatusCode) (description : Text) :
    Part :=
  op.calling (.finished status description) (.finished guard)

def doTerminatePart (op : Operation) (reason : AbortReason) : Part :=
  let r := op.abortInitialisation
  { state := r.1
    out := r.2 ++ [.finished (abortStatusCode reason) (text "Terminate Request")]
    rest := some (.finished .unguarded) }

theorem doTerminatePart_reaction (op : Operation) (reason : AbortReason) :
    (op.doTerminatePart reason).reaction = op.abortInitialisation.andThen fun op =>
      op.emit (.finished (abortStatusCode reason) (text "Terminate Request")) := rfl

def timerHandlerPart (op : Operation) (errorCode : WaitResult) : Part :=
  match errorCode with
  | .operationAborted => { state := op, out := [] }
  | .error => op.finishedPart .unguarded .operationAbortedByDlp (text "Internal timer error")
  | .expired => op.finishedPart .unguarded .operationAbortedByDlp (text "DLP Timeout")

/-- Behind `initialisationResponse`. -/
def initialisationAnsweredPart (op : Operation) (initFile : InitializationFile) : Part :=
  match initFile.response.code with
  | .operationAccepted =>
    (triggerDlpTimeout { op with protocolVersion := initFile.protocolVersion }).part
  | .operationDenied =>
    op.finishedPart .initialisation (acceptanceStatusCode initFile.response.code)
      initFile.response.description
  | .operationNotSupported =>
    op.finishedPart .initialisation (acceptanceStatusCode initFile.response.code)
      initFile.response.description
  | .operationDeferred =>
    op.finishedPart .initialisation .operationAbortedByDlp (text "unknown status code")

def initialisationFileCompletedPart (lib : Library) (op : Operation) (status : TransferStatus)
    (rawInitialisationFile : Bytes) : Part :=
  let op := { op with initialisationOperation := false }
  if status ≠ .successful then
    op.finishedPart .unguarded .operationAbortedByDlp
      (text "Initialisation File could not be received")
  else match InitializationFile.decode lib.raw {} rawInitialisationFile with
    | .done _ initFile _ =>
      op.calling (.initialisationResponse initFile.response) (.initialisationResponse initFile)
    | .thrown (.exception _) _ =>
      op.finishedPart .unguarded .operationAbortedByDlp
        (text "Initialisation File could not be received")
    | .thrown .overrun _ => { state := op, out := [] }

/-- What the operation notes of a status with which it goes on. -/
def noteStatus (op : Operation) : Operation :=
  match op.kind with
  | .information => { op with waitForFinalStatus := true }
  | .upload | .mediaDefinedDownload | .operatorDefinedDownload => op

/-- Behind `status`. -/
def statusReceivedPart (op : Operation) (status : Status) : Part :=
  match status.code with
  | .operationNotAccepted | .operationNotSupported | .operationCompleted
  | .operationAbortedByTargetHw | .operationAbortedByDlp | .operationAbortedByOperator =>
    op.finishedPart .status status.code status.description
  | .operationAccepted => op.noteStatus.triggerDlpTimeout.part
  | .operationInProgress | .operationInProgressAdditionalInfo =>
    (op.noteStatus.triggerDlpTimeout status.exceptionTimer.toNat).part
  | .loadPartNumberOrDownloadFileFailed | .operationDeferred | .invalid =>
    op.finishedPart .status .operationAbortedByDlp []

def statusFileReceivedPart (lib : Library) (op : Operation) (status : TransferStatus)
    (rawStatusFile : Bytes) : Part :=
  if status ≠ .successful then
    op.finishedPart .unguarded .operationAbortedByDlp (text "Status file could not be received")
  else match receiveStatus lib op.kind rawStatusFile with
    | some received => op.calling received.call (.status received.status)
    | none => { state := op, out := [] }

/-- The information operation returns when it has finished for an unknown operation. -/
def statusFileCompletedPart (lib : Library) (op : Operation) (operation : Nat)
    (status : TransferStatus) (rawStatusFile : Bytes) : Part :=
  let (op, removed) := op.removeStatusFileOperation operation
  if removed ≠ 1 then
    op.calling
      (.finished .operationAbortedByDlp
        (text "Status file operation completed, which was not initiated"))
      (match op.kind with
        | .information => .finished .unguarded
        | .upload | .mediaDefinedDownload | .operatorDefinedDownload =>
          .unknownStatus status rawStatusFile)
  else op.statusFileReceivedPart lib status rawStatusFile

def listFileFailedPart (op : Operation) : Part :=
  if op.waitForFinalStatus then (op.doAbort .protocol).part
  else op.finishedPart .unguarded .operationAbortedByDlp (text "Invalid Protocol file")

/-- Behind `targetInformation`. -/
def targetInformationPart (op : Operation) : Part :=
  if op.waitForFinalStatus then op.triggerDlpTimeout.part
  else op.finishedPart .list .operationCompleted []

def informationListFileCompletedPart (lib : Library) (op : Operation) (checkValue : CheckValue)
    (status : TransferStatus) (rawListFile : Bytes) : Part :=
  let op := { op with listFileOperation := false }
  if status ≠ .successful then op.listFileFailedPart
  else
    let integrityInformation :=
      lib.generateCheckValue checkValue.type rawListFile = checkValue
    match LoadConfigurationListFile.decode lib.raw {} rawListFile with
    | .done _ listFile _ =>
      op.calling (.targetInformation listFile.targetsHardware integrityInformation)
        .targetInformation
    | .thrown (.exception _) _ => op.listFileFailedPart
    | .thrown .overrun _ => { state := op, out := [] }

def operatorListFileCompletedPart (lib : Library) (op : Operation) (status : TransferStatus)
    (rawListFile : Bytes) : Part :=
  let op := { op with listFileOperation := false }
  if status ≠ .successful then (op.doAbort .protocol).part
  else match DownloadOperationListFile.decode lib.raw {} rawListFile with
    | .done _ listFile _ => op.calling (.downloadingList listFile.files) .downloadingList
    | .thrown (.exception _) _ => (op.doAbort .protocol).part
    | .thrown .overrun _ => { state := op, out := [] }

def listFileCompletedPart (lib : Library) (op : Operation) (checkValue : CheckValue)
    (status : TransferStatus) (rawListFile : Bytes) : Part :=
  match op.kind with
  | .information => op.informationListFileCompletedPart lib checkValue status rawListFile
  | .operatorDefinedDownload => op.operatorListFileCompletedPart lib status rawListFile
  | .upload | .mediaDefinedDownload => { state := op, out := [] }

/-- Behind a call of the handler. -/
def leave (lib : Library) (op : Operation) : Rest → Exit → Part
  | .initialisationResponse initFile, .returned => op.initialisationAnsweredPart initFile
  | .initialisationResponse _, .arinc615aException =>
    op.finishedPart .unguarded .operationAbortedByDlp
      (text "Initialisation File could not be received")
  | .status status, .returned => op.statusReceivedPart status
  | .targetInformation, .returned => op.targetInformationPart
  | .targetInformation, .arinc615aException => op.listFileFailedPart
  | .downloadingList, .arinc615aException => (op.doAbort .protocol).part
  | .finished _, .returned => { state := op, out := [.timerCancel, .serverStop] }
  -- the exception ends up in the `catch` block of the callback, which may finish again
  | .finished .initialisation, .arinc615aException =>
    op.finishedPart .unguarded .operationAbortedByDlp
      (text "Initialisation File could not be received")
  | .finished .list, .arinc615aException => op.listFileFailedPart
  | .unknownStatus status rawStatusFile, .returned =>
    let part := op.statusFileReceivedPart lib status rawStatusFile
    { part with out := [.timerCancel, .serverStop] ++ part.out }
  -- the exception is logged, or leaves the callback; or there is nothing left to do
  | _, _ => { state := op, out := [] }

/-- An exception goes to the caller and leaves the operation as it was. -/
def caught (op : Operation) : Option (Except Arinc615aException Reaction) → Option Reaction
  | none => none
  | some (.error _) => some (op, [])
  | some (.ok reaction) => some reaction

def sendReaction (lib : Library) (op : Operation) (request : Request) : Option Reaction :=
  op.caught (op.send lib request)

end Operation

/-! ## Events and calls -/

/-- The first part of what an event runs. -/
def Event.part (lib : Library) (op : Operation) : Event → Option Part
  | .start result => some (op.start result).part
  | .abort reason => some (op.doAbort reason).part
  | .terminate reason => some (op.doTerminatePart reason)
  | .send request => (op.sendReaction lib request).map Reaction.part
  -- nothing comes behind `fileRequest` and `initialisationDeferred`
  | .tftpRequest remote requestType filename options =>
    some (op.tftpRequest remote requestType filename options).part
  | .deferred waitTime => some (op.initialisationFileDeferred waitTime).part
  | .completed .initialisation status data =>
    some (op.initialisationFileCompletedPart lib status data)
  | .completed (.status operation) status data =>
    some (op.statusFileCompletedPart lib operation status data)
  | .completed (.list checkValue) status data =>
    some (op.listFileCompletedPart lib checkValue status data)
  | .completed .request status _ => some (op.requestCompleted status).part
  | .timerElapses _ => some { state := op, out := [] }
  | .timerHandler result => some (op.timerHandlerPart result)

/-- What is seen of an event before the calls. -/
def Event.opening : Event → List Observation
  | .start _ => [.started]
  | _ => []

/-- The calls of the user come at any time, and so do the end of a wait and the report of a transfer
that a call aborts.  The handlers of the event loop run one after the other. -/
def Event.nested : Event → Bool
  | .start _ | .abort _ | .terminate _ | .send _ | .timerElapses _ => true
  | .completed _ status _ => status = .aborted
  | .tftpRequest .. | .deferred _ | .timerHandler _ => false

namespace World

/-- What the surroundings do at an event, if they let it happen. -/
def arrive (w : World) : Event → Option (EventLoop Transfer)
  | .tftpRequest .. => if w.serverRunning then some w.loop else none
  | .deferred _ => if .initialisation ∈ w.loop.pending then some w.loop else none
  | .completed transfer _ _ => w.loop.complete transfer
  | .timerElapses result => w.loop.elapse result
  | .timerHandler result => w.loop.take result
  | .start _ | .abort _ | .terminate _ | .send _ => some w.loop

/-- Performs the calls of a part. -/
def reactPart (w : World) (part : Part) : CallPart World Rest Observation :=
  let r := w.react fun _ => part.reaction
  { state := r.1, out := r.2, rest := part.rest }

def calls (lib : Library) : Calls World Event Rest Exit Observation where
  enter w event :=
    (w.arrive event).bind fun loop => (event.part lib w.operation).map fun part =>
      let part := { w with loop := loop }.reactPart part
      { part with out := event.opening ++ part.out }
  leave w rest exit := w.reactPart (w.operation.leave lib rest exit)
  nested := Event.nested

end World

/-- A host operation in its event loop, with the calls of the handler that last. -/
def callSystem (lib : Library) :
    Reactive (Suspended World Rest) (CallEvent Event Exit) Observation :=
  (World.calls lib).system

/-! ## Calls that come back at once -/

/-- A part whose calls come back at once amounts to a reaction. -/
def Part.Amounts (lib : Library) (part : Part) (r : Reaction) : Prop :=
  Settles (fun op rest => op.leave lib rest .returned) part r.1 r.2

namespace Part.Amounts

variable {lib : Library} {op : Operation}

theorem part (r : Reaction) : Amounts lib r.part r := .done r.1 r.2

theorem still : Amounts lib { state := op, out := [] } (op, []) := .done op []

/-- A call of the handler, with what is done behind it. -/
theorem calling (o : Output) (rest : Rest) {r : Reaction}
    (h : Amounts lib (op.leave lib rest .returned) r) :
    Amounts lib (op.calling o rest) (r.1, o :: r.2) := .rest h

theorem prepend {part : Part} {r : Reaction} (h : Amounts lib part r) (out : List Output) :
    Amounts lib { part with out := out ++ part.out } (r.1, out ++ r.2) := Settles.prepend h out

theorem finished (guard : Guard) (status : StatusCode) (description : Text) :
    Amounts lib (op.finishedPart guard status description) (op.finished status description) := by
  refine calling _ (.finished guard) (r := (op, [.timerCancel, .serverStop])) ?_
  cases guard with
  | unguarded | initialisation | status | list => exact .done _ _

end Part.Amounts

namespace Operation

open Host.Part (Amounts)

variable {lib : Library} {op : Operation}

theorem amounts_doTerminate (reason : AbortReason) :
    Amounts lib (op.doTerminatePart reason) (op.doTerminate reason) := by
  have hfinished : Amounts lib (op.abortInitialisation.1.finishedPart .unguarded _ _) _ :=
    .finished .unguarded (abortStatusCode reason) (text "Terminate Request")
  exact hfinished.prepend op.abortInitialisation.2

theorem amounts_timerHandler (errorCode : WaitResult) :
    Amounts lib (op.timerHandlerPart errorCode) (op.timerHandler errorCode) := by
  cases errorCode with
  | operationAborted => exact .still
  | error | expired => exact .finished _ _ _

theorem amounts_initialisationAnswered (initFile : InitializationFile) :
    Amounts lib (op.initialisationAnsweredPart initFile) (op.initialisationAnswered initFile) := by
  unfold initialisationAnsweredPart initialisationAnswered
  cases initFile.response.code with
  | operationAccepted => exact .part _
  | operationDenied | operationNotSupported | operationDeferred => exact .finished _ _ _

theorem amounts_initialisationFileCompleted (status : TransferStatus) (data : Bytes) :
    Amounts lib (op.initialisationFileCompletedPart lib status data)
      (op.initialisationFileCompleted lib status data) := by
  unfold initialisationFileCompletedPart initialisationFileCompleted
  split
  · exact .finished _ _ _
  · cases InitializationFile.decode lib.raw {} data with
    | done _ initFile _ =>
      exact .calling _ (.initialisationResponse initFile) (amounts_initialisationAnswered initFile)
    | thrown failure _ =>
      cases failure with
      | exception => exact .finished _ _ _
      | overrun => exact .still

theorem noteStatus_information (hkind : op.kind = .information) :
    { op with waitForFinalStatus := true } = op.noteStatus := by
  unfold noteStatus
  split
  · rfl
  all_goals simp_all

theorem noteStatus_other (hkind : op.kind ≠ .information) : op.noteStatus = op := by
  unfold noteStatus
  split
  · simp_all
  all_goals rfl

theorem amounts_statusReceived {progress : Operation → Operation}
    (hprogress : progress op = op.noteStatus) (status : Status) :
    Amounts lib (op.statusReceivedPart status) (statusReceived progress op status) := by
  unfold statusReceivedPart statusReceived
  rw [hprogress]
  cases status.code with
  | operationAccepted | operationInProgress | operationInProgressAdditionalInfo => exact .part _
  | _ => exact .finished _ _ _

theorem amounts_statusFileReceived {progress : Operation → Operation}
    (hprogress : progress op = op.noteStatus) (status : TransferStatus) (data : Bytes) :
    Amounts lib (op.statusFileReceivedPart lib status data)
      (statusFileReceived (receiveStatus lib op.kind) progress op status data) := by
  unfold statusFileReceivedPart statusFileReceived
  split
  · exact .finished _ _ _
  · cases receiveStatus lib op.kind data with
    | some received =>
      exact .calling _ (.status received.status) (amounts_statusReceived hprogress received.status)
    | none => exact .still

/-- Upload and download go on behind `finished` for an unknown operation. -/
theorem amounts_statusFileCompletedOnward (hkind : op.kind ≠ .information) (operation : Nat)
    (status : TransferStatus) (data : Bytes) :
    Amounts lib (op.statusFileCompletedPart lib operation status data)
      (statusFileCompletedOnward (receiveStatus lib op.kind) op operation status data) := by
  have hremoved : (op.removeStatusFileOperation operation).1.kind ≠ .information := hkind
  have hreceived : Amounts lib _ (statusFileReceived _ id _ status data) :=
    amounts_statusFileReceived (noteStatus_other hremoved).symm status data
  unfold statusFileCompletedPart statusFileCompletedOnward
  dsimp only
  split
  · have hrest : Amounts lib ((op.removeStatusFileOperation operation).1.leave lib
        (.unknownStatus status data) .returned) _ :=
      hreceived.prepend [.timerCancel, .serverStop]
    cases hcase : (op.removeStatusFileOperation operation).1.kind with
    | information => exact absurd hcase hkind
    | upload | mediaDefinedDownload | operatorDefinedDownload =>
      exact .calling _ (.unknownStatus status data) hrest
  · exact hreceived

theorem amounts_statusFileCompleted (operation : Nat) (status : TransferStatus) (data : Bytes) :
    Amounts lib (op.statusFileCompletedPart lib operation status data)
      (op.statusFileCompleted lib operation status data) := by
  unfold Operation.statusFileCompleted
  cases hkind : op.kind with
  | information =>
    have hremoved : (op.removeStatusFileOperation operation).1.kind = .information := hkind
    have hreceived : Amounts lib _ (statusFileReceived _
        (fun op => { op with waitForFinalStatus := true }) _ status data) :=
      amounts_statusFileReceived (noteStatus_information hremoved) status data
    unfold statusFileCompletedPart
    dsimp only [InformationOperation.statusFileCompleted]
    split
    · rw [hremoved]
      exact .calling _ (.finished .unguarded) (r := (_, [.timerCancel, .serverStop])) (.done _ _)
    · rw [hremoved] at hreceived
      exact hreceived
  | upload | mediaDefinedDownload | operatorDefinedDownload =>
    have hother : op.kind ≠ .information := by simp [hkind]
    have honward : Amounts lib _ _ :=
      amounts_statusFileCompletedOnward hother operation status data
    rw [hkind] at honward
    exact honward

theorem amounts_listFileFailed :
    Amounts lib op.listFileFailedPart (InformationOperation.listFileFailed op) := by
  unfold listFileFailedPart InformationOperation.listFileFailed
  split
  · exact .part _
  · exact .finished _ _ _

theorem amounts_listFileCompleted (checkValue : CheckValue) (status : TransferStatus)
    (data : Bytes) :
    Amounts lib (op.listFileCompletedPart lib checkValue status data)
      (op.listFileCompleted lib checkValue status data) := by
  unfold listFileCompletedPart Operation.listFileCompleted
  cases op.kind with
  | information =>
    dsimp only [informationListFileCompletedPart, InformationOperation.listFileCompleted]
    split
    · exact amounts_listFileFailed
    · cases LoadConfigurationListFile.decode lib.raw {} data with
      | done =>
        refine .calling _ .targetInformation ?_
        -- behind the handler the list ends the operation or not
        by_cases hwait : op.waitForFinalStatus = true
        · dsimp only [leave, targetInformationPart, emit]
          rw [if_pos hwait, if_pos hwait]
          exact .part _
        · dsimp only [leave, targetInformationPart, emit]
          rw [if_neg hwait, if_neg hwait]
          exact .finished _ _ _
      | thrown failure _ =>
        cases failure with
        | exception => exact amounts_listFileFailed
        | overrun => exact .still
  | operatorDefinedDownload =>
    dsimp only [operatorListFileCompletedPart, OperatorDefinedDownloadOperation.listFileCompleted]
    split
    · exact .part _
    · cases DownloadOperationListFile.decode lib.raw {} data with
      | done => exact .calling _ .downloadingList .still
      | thrown failure _ =>
        cases failure with
        | exception => exact .part _
        | overrun => exact .still
  | upload | mediaDefinedDownload => exact .still

end Operation

/-- What the operation does at an event. -/
def Event.reaction (lib : Library) (op : Operation) : Event → Option Reaction
  | .start result => some (op.start result)
  | .abort reason => some (op.doAbort reason)
  | .terminate reason => some (op.doTerminate reason)
  | .send request => op.sendReaction lib request
  | .tftpRequest remote requestType filename options =>
    some (op.tftpRequest remote requestType filename options)
  | .deferred waitTime => some (op.initialisationFileDeferred waitTime)
  | .completed transfer status data => some (World.complete lib transfer status data op)
  | .timerElapses _ => some (op, [])
  | .timerHandler result => some (op.timerHandler result)

theorem Event.amounts_reaction {lib : Library} {op : Operation} {event : Event} {r : Reaction}
    (h : event.reaction lib op = some r) :
    ∃ part, event.part lib op = some part ∧ part.Amounts lib r := by
  cases event with
  | start | abort | tftpRequest | deferred =>
    cases h
    exact ⟨_, rfl, .part _⟩
  | terminate reason =>
    cases h
    exact ⟨_, rfl, Operation.amounts_doTerminate reason⟩
  | send request =>
    have hsend : op.sendReaction lib request = some r := h
    exact ⟨r.part, by rw [Event.part, hsend, Option.map_some], .part r⟩
  | completed transfer status data =>
    cases h
    cases transfer with
    | initialisation => exact ⟨_, rfl, Operation.amounts_initialisationFileCompleted status data⟩
    | status operation =>
      exact ⟨_, rfl, Operation.amounts_statusFileCompleted operation status data⟩
    | list checkValue =>
      exact ⟨_, rfl, Operation.amounts_listFileCompleted checkValue status data⟩
    | request => exact ⟨_, rfl, .part _⟩
  | timerElapses =>
    cases h
    exact ⟨_, rfl, .still⟩
  | timerHandler result =>
    cases h
    exact ⟨_, rfl, Operation.amounts_timerHandler result⟩

namespace World

variable {lib : Library} {w w' : World} {event : Event} {out : List Observation}

theorem step_eq (lib : Library) (w : World) (event : Event) :
    w.step lib event =
      (w.arrive event).bind fun loop => (event.reaction lib w.operation).map fun r =>
        (({ w with loop := loop }.react fun _ => r).1, event.opening ++ r.2.map .call) := by
  cases event with
  | start | abort | terminate => rfl
  | send request =>
    simp only [step, arrive, Event.reaction, Operation.sendReaction, Option.bind_some]
    cases w.operation.send lib request with
    | none => rfl
    | some result =>
      cases result with
      | error exception => rfl
      | ok reaction => rfl
  | tftpRequest remote requestType filename options =>
    simp only [step, arrive]
    split
    · rfl
    · rfl
  | deferred waitTime =>
    simp only [step, arrive]
    split
    · rfl
    · rfl
  | completed transfer status data =>
    simp only [step, arrive]
    cases w.loop.complete transfer with
    | none => rfl
    | some loop => rfl
  | timerElapses result =>
    simp only [step, arrive]
    cases w.loop.elapse result with
    | none => rfl
    | some loop => rfl
  | timerHandler result =>
    simp only [step, arrive]
    cases w.loop.take result with
    | none => rfl
    | some loop => rfl

/-- A reaction may be performed in two parts. -/
theorem react_react (w : World) (op op' : Operation) (out out' : List Output) :
    ((w.react fun _ => (op, out)).1.react fun _ => (op', out')).1 =
      (w.react fun _ => (op', out ++ out')).1 := by
  simp only [react, List.map_append, List.foldl_append, EventLoop.performAll]

/-- A step is the callback of its event, if the calls of the handler come back at once. -/
theorem settles_step (h : w.step lib event = some (w', out)) :
    ∃ part, (calls lib).enter w event = some part ∧
      Settles (fun w rest => (calls lib).leave w rest .returned) part w' out := by
  rw [step_eq] at h
  obtain ⟨loop, harrive, h⟩ := Option.bind_eq_some_iff.mp h
  obtain ⟨r, hreaction, h⟩ := Option.map_eq_some_iff.mp h
  cases h
  obtain ⟨part, hpart, hamounts⟩ := event.amounts_reaction hreaction
  have hsettles : Settles (fun w rest => (calls lib).leave w rest .returned)
      ({ w with loop := loop }.reactPart part) _ _ :=
    Settles.map (fun op out w => (react w fun _ => (op, out)).1) (List.map Observation.call)
      (fun _ _ => List.map_append) (fun _ _ _ _ => rfl) (fun _ _ _ _ _ => react_react ..) hamounts
      { w with loop := loop }
  refine ⟨_, ?_, hsettles.prepend event.opening⟩
  simp only [calls, harrive, hpart, Option.bind_some, Option.map_some]

end World

/-- Every run in which the calls of the handler come back at once is a run with calls that last. -/
theorem callSystem_exists_run {lib : Library} {w w' : World} {events : List Event}
    {out : List Observation} (hrun : (system lib).run w events = some (w', out)) :
    ∃ returns : List Nat, returns.length = events.length ∧
      (callSystem lib).run { state := w }
        ((events.zip returns).flatMap fun (event, n) =>
          .event event :: List.replicate n (.leave .returned)) =
      some ({ state := w' }, out) :=
  Calls.exists_run (fun _ _ _ _ => World.settles_step) hrun

end Arinc615a.Host
