import Arinc615a.Reasoning.Calls
import Arinc615a.Target.World

/-!
# A target operation with calls that last

The callbacks of a target operation, cut at the calls of the handler behind which they go on.  While
such a call lasts the handler may call the operation; it is left by a return or by an exception.
`World.step` is the case in which every call of the handler comes back at once.
-/

open Reasoning

namespace Arinc615a.Target

open Files Information Tftp

/-- What is left of a callback behind a call of the handler. -/
inductive Rest where
  | status (sent : AnyStatus)
  | finished
  /-- The `catch` block of `requestFileCompleted` or `answerFileCompleted`. -/
  | requestFile
  deriving DecidableEq

abbrev Part := CallPart Operation Rest Output

/-- A part that is the end of its callback. -/
def Reaction.part (r : Reaction) : Part := { state := r.1, out := r.2 }

def Part.reaction (part : Part) : Reaction := (part.state, part.out)

/-- The calls of the handler in a `try` block. -/
def Output.caught : Output → Bool
  | .loadList _ | .downloadingRequest .. | .downloadingAnswer _ => true
  | _ => false

namespace Operation

/-- Makes a call of the handler, with more to do behind it. -/
def calling (op : Operation) (o : Output) (rest : Rest) : Part :=
  { state := op, out := [o], rest := some rest }

def finalisePart (op : Operation) (finalStatus : FinalStatus := .completed)
    (description : Text := []) : Part :=
  op.calling (.finished finalStatus description) .finished

def sendInitFileCompletePart (op : Operation) (transferStatus : TransferStatus) : Part :=
  if transferStatus ≠ .successful then
    op.finalisePart .abortedByTargetHardware (text "Initialisation file transmission failed")
  -- nothing comes behind `initialised`
  else (op.triggerStatusTransmissionTimer.andThen fun op => op.emit .initialised).part

/-- Behind `status`. -/
def statusSentPart (lib : Library) (op : Operation) (sentStatus : Status) : Part :=
  match sentStatus.code with
  | .operationAccepted =>
    if op.statusV.kind = .information then (op.inProgress lib .codeFirst true).part
    else op.triggerStatusTransmissionTimer.part
  | .operationInProgress | .operationInProgressAdditionalInfo =>
    op.triggerStatusTransmissionTimer.part
  | _ => op.finalisePart sentStatus.code.finalStatus sentStatus.description

def statusFileCompletedPart (op : Operation) (sentStatus : AnyStatus)
    (transferStatus : TransferStatus) : Part :=
  match transferStatus with
  | .successful => op.calling (.status sentStatus) (.status sentStatus)
  | .operationAbortedByDlp => (op.emit (.abortRequest .abortByDlp)).part
  | .operationAbortedByOperator => (op.emit (.abortRequest .abortByOperator)).part
  | _ => op.finalisePart .abortedByTargetHardware (text "Status transmission failed")

def targetInformationCompletedPart (lib : Library) (op : Operation)
    (transferStatus : TransferStatus) : Part :=
  if transferStatus ≠ .successful then
    (op.finished lib .abortedByTargetHardware (text "Target Information transmission failed")).part
  else if op.statusV.status.code = .invalid then op.finalisePart
  else ((op.status .operationCompleted).statusFile lib).part

/-- No other class finalises when its list is sent. -/
def listCompletedPart (lib : Library) (op : Operation) (transferStatus : TransferStatus) : Part :=
  match op.statusV.kind with
  | .information => op.targetInformationCompletedPart lib transferStatus
  | .upload | .mediaDefinedDownload | .operatorDefinedDownload =>
    (op.listCompleted lib transferStatus).part

/-- The handler is called last, inside the `try` block. -/
def requestCompletedPart (lib : Library) (op : Operation) (transferStatus : TransferStatus)
    (rawFile : Bytes) : Part :=
  let part := (op.requestCompleted lib transferStatus rawFile).part
  { part with rest := if part.out.any Output.caught then some .requestFile else none }

/-- The description of the final status if the `catch` block is entered. -/
def formatError : OperationType → String
  | .operatorDefinedDownload => "Answer file format error"
  | .information | .upload | .mediaDefinedDownload => "Request file format error"

/-- Behind a call of the handler. -/
def leave (lib : Library) (op : Operation) : Rest → Exit → Part
  | .status sent, .returned => op.statusSentPart lib sent.status
  | .finished, .returned => { state := op, out := [.timerCancel] }
  | .requestFile, .arinc615aException =>
    (op.finished lib .abortedByTargetHardware (text (formatError op.statusV.kind))).part
  -- the exception leaves the callback, or there is nothing left to do
  | _, _ => { state := op, out := [] }

end Operation

/-! ## Events and calls -/

/-- The first part of what an event runs. -/
def Event.part (lib : Library) (op : Operation) : Event → Option Part
  | .start hostAddress port result => some (op.start lib hostAddress port result).part
  | .call handlerCall => (op.call lib handlerCall).map Reaction.part
  | .tftpRequest remote requestType filename =>
    some (op.tftpRequest remote requestType filename).part
  | .completed .initialisation status _ => some (op.sendInitFileCompletePart status)
  | .completed (.status sent) status _ => some (op.statusFileCompletedPart sent status)
  | .completed .list status _ => some (op.listCompletedPart lib status)
  | .completed .request status data => some (op.requestCompletedPart lib status data)
  | .timerElapses _ => some { state := op, out := [] }
  | .timerHandler result => some (op.statusTransmissionTimerHandler lib result).part

/-- What is seen of an event before the calls. -/
def Event.opening : Event → List Observation
  | .start .. => [.started]
  | _ => []

/-- The calls on the operation come at any time, and so do the end of a wait and the report of a
transfer that a call aborts.  The handlers of the event loop run one after the other. -/
def Event.nested : Event → Bool
  | .start .. | .call _ | .timerElapses _ => true
  | .completed _ status _ => status = .aborted
  | .tftpRequest .. | .timerHandler _ => false

namespace World

/-- What the surroundings do at an event, if they let it happen. -/
def arrive (w : World) : Event → Option (EventLoop Transfer)
  | .completed transfer _ _ => w.loop.complete transfer
  | .timerElapses result => w.loop.elapse result
  | .timerHandler result => w.loop.take result
  | .start .. | .call _ | .tftpRequest .. => some w.loop

/-- Performs the calls of a part. -/
def reactPart (w : World) (part : Part) : CallPart World Rest Observation :=
  let r := w.react fun _ => part.reaction
  { state := r.1, out := r.2, rest := part.rest }

def calls (lib : Library) : Calls World Event Rest Exit Observation where
  enter w event :=
    (w.arrive event).bind fun loop => (event.part lib w.operation).map fun part =>
      let part := { w with loop := loop }.reactPart part
      { part with out := event.opening ++ part.out }
  leave w rest exit := w.reactPart (w.operation.leave lib rest exit)
  nested := Event.nested

/-- An event happens if the surroundings let it, and runs a part. -/
theorem enter_eq_some {lib : Library} {w : World} {event : Event}
    {part : CallPart World Rest Observation} (h : (calls lib).enter w event = some part) :
    ∃ loop p, w.arrive event = some loop ∧ event.part lib w.operation = some p ∧
      part = { ({ w with loop := loop }.reactPart p) with
        out := event.opening ++ ({ w with loop := loop }.reactPart p).out } := by
  obtain ⟨loop, harrive, h⟩ := Option.bind_eq_some_iff.mp h
  obtain ⟨p, hpart, h⟩ := Option.map_eq_some_iff.mp h
  exact ⟨loop, p, harrive, hpart, h.symm⟩

end World

/-- A target operation in its event loop, with the calls of the handler that last. -/
def callSystem (lib : Library) :
    Reactive (Suspended World Rest) (CallEvent Event Exit) Observation :=
  (World.calls lib).system

/-! ## Calls that come back at once -/

/-- A part whose calls come back at once amounts to a reaction. -/
def Part.Amounts (lib : Library) (part : Part) (r : Reaction) : Prop :=
  Settles (fun op rest => op.leave lib rest .returned) part r.1 r.2

namespace Part.Amounts

variable {lib : Library} {op : Operation}

theorem part (r : Reaction) : Amounts lib r.part r := .done r.1 r.2

/-- A call of the handler, with what is done behind it. -/
theorem calling (o : Output) (rest : Rest) {r : Reaction}
    (h : Amounts lib (op.leave lib rest .returned) r) :
    Amounts lib (op.calling o rest) (r.1, o :: r.2) := .rest h

theorem finalise (finalStatus : FinalStatus) (description : Text) :
    Amounts lib (op.finalisePart finalStatus description)
      (op.finalise finalStatus description) :=
  calling _ .finished (r := (op, [.timerCancel])) (.done _ _)

end Part.Amounts

namespace Operation

open Target.Part (Amounts)

variable {lib : Library} {op : Operation}

theorem amounts_sendInitFileComplete (transferStatus : TransferStatus) :
    Amounts lib (op.sendInitFileCompletePart transferStatus)
      (op.sendInitFileComplete transferStatus) := by
  unfold sendInitFileCompletePart sendInitFileComplete
  split
  · exact .finalise _ _
  · exact .part _

theorem amounts_statusSent (sentStatus : Status) :
    Amounts lib (op.statusSentPart lib sentStatus) (op.statusSent lib sentStatus) := by
  unfold statusSentPart statusSent
  cases sentStatus.code with
  | operationAccepted =>
    dsimp only
    split
    · exact .part _
    · exact .part _
  | operationInProgress | operationInProgressAdditionalInfo => exact .part _
  | _ => exact .finalise _ _

theorem amounts_statusFileCompleted (sentStatus : AnyStatus) (transferStatus : TransferStatus) :
    Amounts lib (op.statusFileCompletedPart sentStatus transferStatus)
      (op.statusFileCompleted lib sentStatus transferStatus) := by
  unfold statusFileCompletedPart statusFileCompleted
  cases transferStatus with
  | successful => exact .calling _ (.status sentStatus) (amounts_statusSent sentStatus.status)
  | operationAbortedByDlp | operationAbortedByOperator => exact .part _
  | _ => exact .finalise _ _

theorem amounts_listCompleted (transferStatus : TransferStatus) :
    Amounts lib (op.listCompletedPart lib transferStatus)
      (op.listCompleted lib transferStatus) := by
  unfold listCompletedPart
  cases hkind : op.statusV.kind with
  | information =>
    simp only [listCompleted, hkind]
    dsimp only [targetInformationCompletedPart, InformationOperation.targetInformationCompleted]
    split
    · exact .part _
    · split
      · exact .finalise _ _
      · exact .part _
  | upload | mediaDefinedDownload | operatorDefinedDownload => exact .part _

theorem amounts_requestCompleted (transferStatus : TransferStatus) (rawFile : Bytes) :
    Amounts lib (op.requestCompletedPart lib transferStatus rawFile)
      (op.requestCompleted lib transferStatus rawFile) := by
  unfold requestCompletedPart
  dsimp only
  split
  · -- a handler that returns ends the `try` block, and the callback
    have hend : Amounts lib
        ((op.requestCompleted lib transferStatus rawFile).1.leave lib .requestFile .returned)
        ((op.requestCompleted lib transferStatus rawFile).1, []) := .done _ []
    have happend : (op.requestCompleted lib transferStatus rawFile).2 ++ [] =
        (op.requestCompleted lib transferStatus rawFile).2 := List.append_nil _
    rw [Part.Amounts, ← happend]
    exact .rest hend
  · exact .part _

end Operation

/-- What the operation does at an event. -/
def Event.reaction (lib : Library) (op : Operation) : Event → Option Reaction
  | .start hostAddress port result => some (op.start lib hostAddress port result)
  | .call handlerCall => op.call lib handlerCall
  | .tftpRequest remote requestType filename => some (op.tftpRequest remote requestType filename)
  | .completed transfer status data => some (World.complete lib transfer status data op)
  | .timerElapses _ => some (op, [])
  | .timerHandler result => some (op.statusTransmissionTimerHandler lib result)

theorem Event.amounts_reaction {lib : Library} {op : Operation} {event : Event} {r : Reaction}
    (h : event.reaction lib op = some r) :
    ∃ part, event.part lib op = some part ∧ part.Amounts lib r := by
  cases event with
  | start | tftpRequest | timerHandler =>
    cases h
    exact ⟨_, rfl, .part _⟩
  | call handlerCall =>
    have hcall : op.call lib handlerCall = some r := h
    exact ⟨r.part, by rw [Event.part, hcall, Option.map_some], .part r⟩
  | completed transfer status data =>
    cases h
    cases transfer with
    | initialisation => exact ⟨_, rfl, Operation.amounts_sendInitFileComplete status⟩
    | status sent => exact ⟨_, rfl, Operation.amounts_statusFileCompleted sent status⟩
    | list => exact ⟨_, rfl, Operation.amounts_listCompleted status⟩
    | request => exact ⟨_, rfl, Operation.amounts_requestCompleted status data⟩
  | timerElapses =>
    cases h
    exact ⟨_, rfl, .done op []⟩

namespace World

variable {lib : Library} {w w' : World} {event : Event} {out : List Observation}

theorem step_eq (lib : Library) (w : World) (event : Event) :
    w.step lib event =
      (w.arrive event).bind fun loop => (event.reaction lib w.operation).map fun r =>
        (({ w with loop := loop }.react fun _ => r).1, event.opening ++ r.2.map .call) := by
  cases event with
  | start | tftpRequest => rfl
  | call handlerCall =>
    simp only [step, arrive, Event.reaction, Option.bind_some]
    cases w.operation.call lib handlerCall with
    | none => rfl
    | some reaction => rfl
  | completed transfer status data =>
    simp only [step, arrive]
    cases w.loop.complete transfer with
    | none => rfl
    | some loop => rfl
  | timerElapses result =>
    simp only [step, arrive]
    cases w.loop.elapse result with
    | none => rfl
    | some loop => rfl
  | timerHandler result =>
    simp only [step, arrive]
    cases w.loop.take result with
    | none => rfl
    | some loop => rfl

/-- A reaction may be performed in two parts. -/
theorem react_react (w : World) (op op' : Operation) (out out' : List Output) :
    ((w.react fun _ => (op, out)).1.react fun _ => (op', out')).1 =
      (w.react fun _ => (op', out ++ out')).1 := by
  simp only [react, List.map_append, EventLoop.performAll, List.foldl_append]

/-- A step is the callback of its event, if the calls of the handler come back at once. -/
theorem settles_step (h : w.step lib event = some (w', out)) :
    ∃ part, (calls lib).enter w event = some part ∧
      Settles (fun w rest => (calls lib).leave w rest .returned) part w' out := by
  rw [step_eq] at h
  obtain ⟨loop, harrive, h⟩ := Option.bind_eq_some_iff.mp h
  obtain ⟨r, hreaction, h⟩ := Option.map_eq_some_iff.mp h
  cases h
  obtain ⟨part, hpart, hamounts⟩ := event.amounts_reaction hreaction
  have hsettles : Settles (fun w rest => (calls lib).leave w rest .returned)
      ({ w with loop := loop }.reactPart part) _ _ :=
    Settles.map (fun op out w => (react w fun _ => (op, out)).1) (List.map Observation.call)
      (fun _ _ => List.map_append) (fun _ _ _ _ => rfl) (fun _ _ _ _ _ => react_react ..) hamounts
      { w with loop := loop }
  refine ⟨_, ?_, hsettles.prepend event.opening⟩
  simp only [calls, harrive, hpart, Option.bind_some, Option.map_some]

end World

/-- Every run in which the calls of the handler come back at once is a run with calls that last. -/
theorem callSystem_exists_run {lib : Library} {w w' : World} {events : List Event}
    {out : List Observation} (hrun : (system lib).run w events = some (w', out)) :
    ∃ returns : List Nat, returns.length = events.length ∧
      (callSystem lib).run { state := w }
        ((events.zip returns).flatMap fun (event, n) =>
          .event event :: List.replicate n (.leave .returned)) =
      some ({ state := w' }, out) :=
  Calls.exists_run (fun _ _ _ _ => World.settles_step) hrun

end Arinc615a.Target
