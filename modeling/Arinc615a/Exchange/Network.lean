import Arinc615a.Exchange.World

/-!
# Host and target on an unreliable network

A host operation and a target operation of any classes, driven by arbitrary users, handlers, timers
and requests.  The network loses, delays, duplicates and reorders what is sent, but does not make up
files: a transfer that succeeds carries a file that the other side has sent, under the name that it
was sent with.  Transfers may fail at any time and at one end only.
-/

open Reasoning

namespace Arinc615a.Exchange

open Files Information Tftp

/-- A protocol file that the target sends. -/
structure SentFile where
  filename : Text
  data : Bytes
  checkValue : CheckValue
  deriving DecidableEq

structure Network where
  host : Host.World
  target : Target.World
  initialisations : List Bytes := []
  files : List SentFile := []
  /-- The transfers at the host, with the file whose request has started them. -/
  links : List (Host.Transfer × SentFile) := []
  /-- The request files that the host sends, with their names. -/
  requests : List (Text × Bytes) := []
  /-- The request files that the target has let in. -/
  accepted : List (Text × Bytes) := []
  deriving DecidableEq

inductive NetworkEvent where
  | host (event : Host.Event)
  | target (event : Target.Event)
  | initialisationReceived (data : Bytes)
  | requestArrives (file : SentFile) (remote : Endpoint)
  | fileReceived (transfer : Host.Transfer) (file : SentFile)
  | requestFileArrives (filename : Text) (data : Bytes) (remote : Endpoint)
  | requestFileReceived (filename : Text) (data : Bytes)
  deriving DecidableEq

/-- What is seen of a run: every event, followed by the calls that it leads to. -/
inductive NetworkObservation where
  | event (event : NetworkEvent)
  | host (observation : Host.Observation)
  | target (observation : Target.Observation)
  deriving DecidableEq

/-- The completions at the host that come with a file of the target. -/
def receivesFile : Host.Event → Bool
  | .completed .request _ _ => false
  | .completed _ .successful _ => true
  | _ => false

/-- The completion at the target that comes with a file of the host. -/
def receivesRequest : Target.Event → Bool
  | .completed .request .successful _ => true
  | _ => false

def SentFile.ofOutput : Target.Output → Option SentFile
  | .protocolFile _ _ filename data checkValue _ => some { filename, data, checkValue }
  | _ => none

def sentInitialisation : Target.Output → Option Bytes
  | .sendInitFile _ data _ => some data
  | _ => none

def transmittedFile : Host.Output → Option (Text × Bytes)
  | .transmitFile _ filename data => some (filename, data)
  | _ => none

def startedTransfer : Host.Output → Option Host.Transfer
  | .transferStart transfer => some transfer
  | _ => none

def isReceiveFile : Target.Output → Bool
  | .receiveFile _ => true
  | _ => false

namespace Network

variable (lib : Library) (s : Network)

def afterHost (host : Host.World) (out : List Host.Observation) : Network :=
  { s with
    host := host
    requests := s.requests ++ (hostCalls out).filterMap transmittedFile }

def afterTarget (target : Target.World) (out : List Target.Observation) : Network :=
  { s with
    target := target
    initialisations := s.initialisations ++ (targetCalls out).filterMap sentInitialisation
    files := s.files ++ (targetCalls out).filterMap SentFile.ofOutput }

def hostStep (e : NetworkEvent) (event : Host.Event) :
    Option (Network × List NetworkObservation) :=
  (s.host.step lib event).map fun (host, out) => (s.afterHost host out, .event e :: out.map .host)

def targetStep (e : NetworkEvent) (event : Target.Event) :
    Option (Network × List NetworkObservation) :=
  (s.target.step lib event).map fun (target, out) =>
    (s.afterTarget target out, .event e :: out.map .target)

def step : NetworkEvent → Option (Network × List NetworkObservation)
  | .host event => if receivesFile event then none else s.hostStep lib (.host event) event
  | .target event => if receivesRequest event then none else s.targetStep lib (.target event) event
  | .initialisationReceived data =>
    if data ∈ s.initialisations then
      s.hostStep lib (.initialisationReceived data) (.completed .initialisation .successful data)
    else none
  | .requestArrives file remote =>
    -- nothing is removed, so a request may arrive any number of times
    if file ∈ s.files then
      (s.host.step lib (.tftpRequest remote .write file.filename
          { checksum := file.checkValue })).map fun (host, out) =>
        ({ s.afterHost host out with
            links := s.links ++
              ((hostCalls out).filterMap startedTransfer).map fun transfer => (transfer, file) },
          .event (.requestArrives file remote) :: out.map .host)
    else none
  | .fileReceived transfer file =>
    if (transfer, file) ∈ s.links then
      s.hostStep lib (.fileReceived transfer file) (.completed transfer .successful file.data)
    else none
  | .requestFileArrives filename data remote =>
    if (filename, data) ∈ s.requests then
      (s.target.step lib (.tftpRequest remote .write filename)).map fun (target, out) =>
        ({ s.afterTarget target out with
            accepted := s.accepted ++
              if (targetCalls out).any isReceiveFile then [(filename, data)] else [] },
          .event (.requestFileArrives filename data remote) :: out.map .target)
    else none
  | .requestFileReceived filename data =>
    if (filename, data) ∈ s.accepted then
      s.targetStep lib (.requestFileReceived filename data) (.completed .request .successful data)
    else none

/-- One of the two operations runs a callback, and the other one stays as it is. -/
theorem step_cases {s s' : Network} {e : NetworkEvent} {out : List NetworkObservation}
    (hstep : s.step lib e = some (s', out)) :
    (∃ event seen, s.host.step lib event = some (s'.host, seen) ∧ s'.target = s.target ∧
        s'.files = s.files ∧ out = .event e :: seen.map .host) ∨
      ∃ event seen, s.target.step lib event = some (s'.target, seen) ∧ s'.host = s.host ∧
        s'.files = s.files ++ (targetCalls seen).filterMap SentFile.ofOutput ∧
        out = .event e :: seen.map .target := by
  have hhost : ∀ event, s.hostStep lib e event = some (s', out) →
      ∃ event seen, s.host.step lib event = some (s'.host, seen) ∧ s'.target = s.target ∧
        s'.files = s.files ∧ out = .event e :: seen.map .host := by
    intro event h
    obtain ⟨⟨host, seen⟩, hrun, heq⟩ := Option.map_eq_some_iff.mp h
    cases heq
    exact ⟨event, seen, hrun, rfl, rfl, rfl⟩
  have htarget : ∀ event, s.targetStep lib e event = some (s', out) →
      ∃ event seen, s.target.step lib event = some (s'.target, seen) ∧ s'.host = s.host ∧
        s'.files = s.files ++ (targetCalls seen).filterMap SentFile.ofOutput ∧
        out = .event e :: seen.map .target := by
    intro event h
    obtain ⟨⟨target, seen⟩, hrun, heq⟩ := Option.map_eq_some_iff.mp h
    cases heq
    exact ⟨event, seen, hrun, rfl, rfl, rfl⟩
  cases e with
  | host event => exact .inl (hhost event (Option.ite_none_left_eq_some.mp hstep).2)
  | target event => exact .inr (htarget event (Option.ite_none_left_eq_some.mp hstep).2)
  | initialisationReceived data => exact .inl (hhost _ (Option.ite_none_right_eq_some.mp hstep).2)
  | fileReceived transfer file => exact .inl (hhost _ (Option.ite_none_right_eq_some.mp hstep).2)
  | requestFileReceived filename data =>
    exact .inr (htarget _ (Option.ite_none_right_eq_some.mp hstep).2)
  | requestArrives file remote =>
    obtain ⟨⟨host, seen⟩, hrun, heq⟩ :=
      Option.map_eq_some_iff.mp (Option.ite_none_right_eq_some.mp hstep).2
    cases heq
    exact .inl ⟨_, seen, hrun, rfl, rfl, rfl⟩
  | requestFileArrives filename data remote =>
    obtain ⟨⟨target, seen⟩, hrun, heq⟩ :=
      Option.map_eq_some_iff.mp (Option.ite_none_right_eq_some.mp hstep).2
    cases heq
    exact .inr ⟨_, seen, hrun, rfl, rfl, rfl⟩

end Network

/-- A host operation and a target operation with a network between them. -/
def networkSystem (lib : Library) : Reactive Network NetworkEvent NetworkObservation :=
  ⟨Network.step lib⟩

/-- Two operations that have just been created. -/
def Network.created (kind : OperationType) (targetId : TargetId) (dlpTimeout : Nat)
    (portOption : Bool) (target : Target.World) : Network where
  host := .ofOperation kind targetId dlpTimeout portOption
  target := target

end Arinc615a.Exchange
