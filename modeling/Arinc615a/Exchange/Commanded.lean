import Arinc615a.Commands.Origins
import Arinc615a.Commands.Transmission
import Arinc615a.Exchange.Authenticity

/-!
# Commands on the network

The operation of a command is the host of a network, so that the handler of the host is the one of
the repository.  What the handler of the target is asked to load or to send is then what the
command has been executed with.
-/

open Reasoning

namespace Arinc615a.Exchange

open Files Information Tftp

structure CommandNetwork (μ : Type) where
  command : Commands.Command μ
  /-- Its host is the operation of the command. -/
  network : Network

/-- All but the events of the target happen at a time. -/
inductive CommandNetworkEvent where
  | command (now : Nat) (event : Commands.Command.Event)
  | initialisationReceived (now : Nat) (data : Bytes)
  | requestArrives (now : Nat) (file : SentFile) (remote : Endpoint)
  | fileReceived (now : Nat) (transfer : Host.Transfer) (file : SentFile)
  | target (event : Target.Event)
  | requestFileArrives (filename : Text) (data : Bytes) (remote : Endpoint)
  | requestFileReceived (filename : Text) (data : Bytes)

inductive CommandNetworkObservation where
  /-- An event of the command, in front of what it leads to. -/
  | event (event : Commands.Command.Event)
  | command (observation : Commands.Command.Observation)
  /-- The target, with the events that run it. -/
  | target (observation : NetworkObservation)
  deriving DecidableEq

def commandCall : Commands.Command.Observation → Option Host.Output
  | .call _ o => some o
  | _ => none

/-- The transfers for files of the target. -/
def receivingTransfer : Host.Output → Option Host.Transfer
  | .transferStart .request => none
  | .transferStart transfer => some transfer
  | _ => none

namespace CommandNetwork

variable {μ : Type} (lib : Library) (h : Commands.CommandHandler μ) (s : CommandNetwork μ)

/-- The command runs, for a request for a `file` if there is one. -/
def commandStep (now : Nat) (event : Commands.Command.Event) (file : Option SentFile) :
    Option (CommandNetwork μ × List CommandNetworkObservation) :=
  (s.command.step lib h now event).map fun (command, out) =>
    let calls := out.filterMap commandCall
    ({ command
       network := { s.network with
        host := command.operation
        requests := s.network.requests ++ calls.filterMap transmittedFile
        links := s.network.links ++ file.elim [] fun file =>
          (calls.filterMap receivingTransfer).map fun transfer => (transfer, file) } },
      .event event :: out.map .command)

def targetStep (event : NetworkEvent) :
    Option (CommandNetwork μ × List CommandNetworkObservation) :=
  (s.network.step lib event).map fun (network, out) => ({ s with network }, out.map .target)

def step : CommandNetworkEvent → Option (CommandNetwork μ × List CommandNetworkObservation)
  | .command now event =>
    if receivesFile event.ofOperation then none else s.commandStep lib h now event none
  | .initialisationReceived now data =>
    if s.network.initialisations.contains data then
      s.commandStep lib h now (.operation (.completed .initialisation .successful data)) none
    else none
  | .requestArrives now file remote =>
    if s.network.files.contains file then
      s.commandStep lib h now (.operation (.tftpRequest remote .write file.filename
        { checksum := file.checkValue })) (some file)
    else none
  | .fileReceived now transfer file =>
    if s.network.links.contains (transfer, file) then
      s.commandStep lib h now (.operation (.completed transfer .successful file.data)) none
    else none
  | .target event => s.targetStep lib (.target event)
  | .requestFileArrives filename data remote =>
    s.targetStep lib (.requestFileArrives filename data remote)
  | .requestFileReceived filename data => s.targetStep lib (.requestFileReceived filename data)

/-- A command that has not been executed yet, and a target operation. -/
def created (members : μ) (kind : OperationType) (targetId : TargetId) (dlpTimeout : Nat)
    (portOption : Bool) (target : Target.World) : CommandNetwork μ where
  command := .created members kind targetId dlpTimeout portOption
  network := .created kind targetId dlpTimeout portOption target

end CommandNetwork

def commandNetworkSystem {μ : Type} (lib : Library) (h : Commands.CommandHandler μ) :
    Reactive (CommandNetwork μ) CommandNetworkEvent CommandNetworkObservation :=
  ⟨CommandNetwork.step lib h⟩

/-! ## What is seen of the parts -/

/-- What a network shows whose host does the same. -/
def ofCommand : Commands.Command.Observation → Option NetworkObservation
  | .call _ o => some (.host (.call o))
  | .send request true => some (.event (.host (.send request)))
  | _ => none

def onNetwork : CommandNetworkObservation → Option NetworkObservation
  | .event .terminateSignal => some (.event (.host (.terminate .operator)))
  | .event _ => none
  | .command o => ofCommand o
  | .target o => some o

def ofCommandOnly : CommandNetworkObservation → Option Commands.Command.Observation
  | .command o => some o
  | _ => none

theorem filterMap_onNetwork_command (out : List Commands.Command.Observation) :
    (out.map CommandNetworkObservation.command).filterMap onNetwork = out.filterMap ofCommand := by
  rw [List.filterMap_map]
  rfl

theorem filterMap_onNetwork_target (out : List NetworkObservation) :
    (out.map CommandNetworkObservation.target).filterMap onNetwork = out := by
  rw [List.filterMap_map]
  exact List.filterMap_some

section

variable {μ : Type} {lib : Library} {h : Commands.CommandHandler μ} {kind : OperationType}
  {s s' : CommandNetwork μ} {past : List NetworkObservation} {now : Nat}
  {event : Commands.Command.Event} {command : Commands.Command μ}
  {seen : List Commands.Command.Observation}

/-- The operation of a command is called by the handler functions only, and terminated by a
signal. -/
theorem ofOperation_of_step (hstep : s.command.step lib h now event = some (command, seen)) :
    (∀ request, event.ofOperation ≠ .send request) ∧
      ∀ reason, event.ofOperation = .terminate reason →
        event = .terminateSignal ∧ reason = .operator := by
  cases event with
  | operation event =>
    obtain ⟨⟨w, reaction⟩, hcallback, -⟩ := Option.map_eq_some_iff.mp hstep
    cases event with
    | send | terminate => cases hcallback
    | _ => exact ⟨nofun, nofun⟩
  | terminateSignal =>
    refine ⟨nofun, fun reason heq => ?_⟩
    cases heq
    exact ⟨rfl, rfl⟩
  | _ => exact ⟨nofun, nofun⟩

theorem onNetwork_commandStep (event : Commands.Command.Event)
    (seen : List Commands.Command.Observation) :
    (CommandNetworkObservation.event event :: seen.map .command).filterMap onNetwork =
      (onNetwork (.event event)).toList ++ seen.filterMap ofCommand := by
  rw [← filterMap_onNetwork_command]
  cases event <;> rfl

/-- What the user of an operation sends starts the transfer of a request file only. -/
theorem transferStart_of_send {op : Host.Operation} {request : Host.Operation.Request}
    {transfer : Host.Transfer} (h : Host.Origin lib op (.send request) (.transferStart transfer)) :
    transfer = .request := by
  cases h with
  | bare hbare => cases hbare
  | send => rfl

/-- The calls of the operation are explained, as its events are and what the command sends. -/
theorem authentic_comes {op : Host.Operation} {hostEvent : Host.Event} (hkind : op.kind = kind)
    (hfed : Fed lib past kind hostEvent)
    (hterminate : ∀ reason, hostEvent = .terminate reason →
      .event (.host (.terminate reason)) ∈ past)
    {pre : List Commands.Command.Observation} {o : Commands.Command.Observation}
    {o' : NetworkObservation} (ho : ofCommand o = some o')
    (hcomes : Commands.Command.Comes lib op hostEvent pre o) :
    Authentic lib kind (past ++ pre.filterMap ofCommand) o' := by
  subst hkind
  cases o with
  | call now output =>
    cases ho
    refine lasting_authentic lib op.kind _ _ _ ?_
    rcases hcomes with horigin | ⟨op', request, hkind, -, horigin⟩
    · exact authentic_host hfed hterminate horigin
    · have hsent : Fed lib past op'.kind (.send request) := trivial
      rw [← hkind]
      exact authentic_host hsent nofun horigin
  | send request accepted =>
    cases accepted with
    | true =>
      cases ho
      trivial
    | false => cases ho
  | _ => cases ho

/-- A request file has been sent by the command. -/
theorem requestFrom_comes {op : Host.Operation} {hostEvent : Host.Event}
    (hsend : ∀ request, hostEvent ≠ .send request)
    {pre : List Commands.Command.Observation}
    (hsent : ∀ request, .send request true ∈ pre → UserSent past request)
    {fileType : ProtocolFileType} {filename : Text} {data : Bytes}
    (hcomes : Commands.Command.Comes lib op hostEvent pre
      (.call now (.transmitFile fileType filename data))) : RequestFrom lib past filename data := by
  rcases hcomes with horigin | ⟨op', request, -, hmem, horigin⟩
  · exact requestFrom_host (fun request heq => absurd heq (hsend request)) horigin
  · refine requestFrom_host (fun request' heq => ?_) horigin
    cases heq
    exact hsent _ hmem

theorem linkFits_comes {op : Host.Operation} {file : SentFile} {remote : Endpoint}
    {pre : List Commands.Command.Observation} {o : Host.Output} {transfer : Host.Transfer}
    (hreceiving : receivingTransfer o = some transfer)
    (hcomes : Commands.Command.Comes lib op (.tftpRequest remote .write file.filename
      { checksum := file.checkValue }) pre (.call now o)) : LinkFits op.kind file transfer := by
  have hstarted : o = .transferStart transfer ∧ transfer ≠ .request := by
    cases o with
    | transferStart started =>
      cases started with
      | request => cases hreceiving
      | _ =>
        cases hreceiving
        exact ⟨rfl, nofun⟩
    | _ => cases hreceiving
  obtain ⟨rfl, hne⟩ := hstarted
  rcases hcomes with horigin | ⟨op', request, -, -, horigin⟩
  · exact linkFits_host horigin
  · exact absurd (transferStart_of_send horigin) hne

/-- The command runs, and what its operation calls is explained. -/
theorem NetworkInv.commandStep (hinv : NetworkInv lib kind s.network past)
    (hkind : s.command.operation.operation.kind = kind) {file : Option SentFile}
    {out : List CommandNetworkObservation}
    (hstep : s.commandStep lib h now event file = some (s', out))
    (hfed : Fed lib (past ++ (onNetwork (.event event)).toList) kind event.ofOperation)
    (hfile : ∀ f, file = some f → FileFrom lib past f ∧ ∃ remote,
      event.ofOperation = .tftpRequest remote .write f.filename { checksum := f.checkValue }) :
    (NetworkInv lib kind s'.network (past ++ out.filterMap onNetwork) ∧
        s'.command.operation.operation.kind = kind) ∧
      Preceded (Authentic lib kind) past (out.filterMap onNetwork) := by
  obtain ⟨⟨command, seen⟩, hrun, heq⟩ := Option.map_eq_some_iff.mp hstep
  cases heq
  obtain ⟨hsend, hterminate⟩ := ofOperation_of_step hrun
  have hcommand : (Commands.commandSystem lib h).step s.command (now, event) =
    some (command, seen) := hrun
  obtain ⟨hcomes, hnextKind⟩ :
      Preceded (Commands.Command.Comes lib _ event.ofOperation) [] seen ∧ _ :=
    Commands.Command.preceded_step hcommand
  have hcall : ∀ {o}, o ∈ seen.filterMap commandCall → ∃ now pre, (∀ o' ∈ pre, o' ∈ seen) ∧
      Commands.Command.Comes lib s.command.operation.operation event.ofOperation pre
        (.call now o) := by
    intro o ho
    obtain ⟨observation, hmem, hcalled⟩ := List.mem_filterMap.mp ho
    cases observation with
    | call now output =>
      cases hcalled
      obtain ⟨pre, post, rfl⟩ := List.append_of_mem hmem
      exact ⟨now, pre, fun o' ho' => List.mem_append_left _ ho', hcomes pre _ post rfl⟩
    | _ => cases hcalled
  rw [onNetwork_commandStep]
  refine ⟨⟨?_, hnextKind.trans hkind⟩, ?_⟩
  · refine { hinv.lasting with hostKind := hnextKind.trans hkind, requests := ?_, links := ?_ }
    · refine List.forall_mem_append.mpr ⟨hinv.lasting.links, ?_⟩
      cases file with
      | none => exact List.forall_mem_nil _
      | some file =>
        obtain ⟨hfrom, remote, hevent⟩ := hfile file rfl
        refine List.forall_mem_map.mpr fun transfer htransfer => ⟨hfrom.lasting, ?_⟩
        obtain ⟨o, ho, hreceiving⟩ := List.mem_filterMap.mp htransfer
        obtain ⟨now, pre, -, hexplained⟩ := hcall ho
        rw [hevent] at hexplained
        exact hkind ▸ linkFits_comes hreceiving hexplained
    · refine List.forall_mem_append.mpr ⟨hinv.lasting.requests, fun request hrequest => ?_⟩
      obtain ⟨o, ho, htransmitted⟩ := List.mem_filterMap.mp hrequest
      obtain ⟨now, pre, hpre, hexplained⟩ := hcall ho
      cases o with
      | transmitFile fileType filename data =>
        cases htransmitted
        refine requestFrom_comes hsend (fun request hmem => ?_) hexplained
        exact List.mem_append_right _ (List.mem_append_right _
          (List.mem_filterMap.mpr ⟨_, hpre _ hmem, rfl⟩))
      | _ => cases htransmitted
  · have hevent : ∀ o ∈ (onNetwork (.event event)).toList, Authentic lib kind past o := by
      intro o ho
      cases event with
      | terminateSignal =>
        cases List.mem_singleton.mp ho
        trivial
      | _ => cases ho
    refine (Preceded.of_forall (lasting_authentic lib kind) hevent).append ?_
    refine Preceded.filterMap (fun pre o o' ho hexplained =>
      authentic_comes hkind hfed (fun reason heq => ?_) ho hexplained) hcomes
    obtain ⟨rfl, rfl⟩ := hterminate reason heq
    exact List.mem_append_right _ (List.mem_singleton_self _)

/-- The target runs, as it does on any network. -/
theorem NetworkInv.commandTargetStep (hinv : NetworkInv lib kind s.network past)
    {e : NetworkEvent} {out : List CommandNetworkObservation}
    (hstep : s.targetStep lib e = some (s', out)) :
    (NetworkInv lib kind s'.network (past ++ out.filterMap onNetwork) ∧
        s'.command = s.command) ∧
      Preceded (Authentic lib kind) past (out.filterMap onNetwork) := by
  obtain ⟨⟨network, seen⟩, hnetwork, heq⟩ := Option.map_eq_some_iff.mp hstep
  cases heq
  rw [filterMap_onNetwork_target]
  obtain ⟨hnext, hexplained⟩ := Network.authentic_step hinv hnetwork
  exact ⟨⟨hnext, rfl⟩, hexplained⟩

/-- The network of a command, and its operation. -/
structure CommandNetworkInv (lib : Library) (kind : OperationType) (s : CommandNetwork μ)
    (past : List CommandNetworkObservation) : Prop where
  network : NetworkInv lib kind s.network (past.filterMap onNetwork)
  kind : s.command.operation.operation.kind = kind

/-- A step keeps the invariant, and all that is seen of it is explained. -/
theorem CommandNetwork.authentic_step {past out : List CommandNetworkObservation}
    {e : CommandNetworkEvent} (hinv : CommandNetworkInv lib kind s past)
    (hstep : (commandNetworkSystem lib h).step s e = some (s', out)) :
    CommandNetworkInv lib kind s' (past ++ out) ∧
      Preceded (Authentic lib kind) (past.filterMap onNetwork) (out.filterMap onNetwork) := by
  have hcommand : ∀ {now event file}, s.commandStep lib h now event file = some (s', out) →
      Fed lib (past.filterMap onNetwork ++ (onNetwork (.event event)).toList) kind
        event.ofOperation →
      (∀ f, file = some f → FileFrom lib (past.filterMap onNetwork) f ∧ ∃ remote,
        event.ofOperation =
          .tftpRequest remote .write f.filename { checksum := f.checkValue }) →
      CommandNetworkInv lib kind s' (past ++ out) ∧
        Preceded (Authentic lib kind) (past.filterMap onNetwork) (out.filterMap onNetwork) := by
    intro now event file hstep hfed hfile
    obtain ⟨⟨hnext, hkind⟩, hexplained⟩ :=
      hinv.network.commandStep hinv.kind hstep hfed hfile
    rw [← List.filterMap_append] at hnext
    exact ⟨⟨hnext, hkind⟩, hexplained⟩
  have htarget : ∀ {e}, s.targetStep lib e = some (s', out) →
      CommandNetworkInv lib kind s' (past ++ out) ∧
        Preceded (Authentic lib kind) (past.filterMap onNetwork) (out.filterMap onNetwork) := by
    intro e hstep
    obtain ⟨⟨hnext, hsame⟩, hexplained⟩ := hinv.network.commandTargetStep hstep
    rw [← List.filterMap_append] at hnext
    exact ⟨⟨hnext, hsame ▸ hinv.kind⟩, hexplained⟩
  cases e with
  | command now event =>
    obtain ⟨hreceives, hstep⟩ := Option.ite_none_left_eq_some.mp hstep
    exact hcommand hstep (fed_of_not_receivesFile (eq_false_of_ne_true hreceives) _) nofun
  | initialisationReceived now data =>
    obtain ⟨hsent, hstep⟩ := Option.ite_none_right_eq_some.mp hstep
    have hsent := List.contains_iff_mem.mp hsent
    exact hcommand hstep (hinv.network.lasting.initialisations data hsent) nofun
  | requestArrives now file remote =>
    obtain ⟨hsent, hstep⟩ := Option.ite_none_right_eq_some.mp hstep
    refine hcommand hstep trivial fun f heq => ?_
    cases heq
    exact ⟨hinv.network.files file (List.contains_iff_mem.mp hsent), remote, rfl⟩
  | fileReceived now transfer file =>
    obtain ⟨hlinked, hstep⟩ := Option.ite_none_right_eq_some.mp hstep
    obtain ⟨hfile, hfits⟩ := hinv.network.lasting.links _ (List.contains_iff_mem.mp hlinked)
    refine hcommand hstep ?_ nofun
    cases transfer with
    | initialisation | request => cases hfits
    | status | list => exact ⟨file, hfile, hfits, rfl⟩
  | target event => exact htarget hstep
  | requestFileArrives filename data remote => exact htarget hstep
  | requestFileReceived filename data => exact htarget hstep

/-- The command runs, or the target does. -/
theorem CommandNetwork.step_cases {e : CommandNetworkEvent} {out : List CommandNetworkObservation}
    (hstep : (commandNetworkSystem lib h).step s e = some (s', out)) :
    (∃ e seen, (Commands.commandSystem lib h).step s.command e = some (s'.command, seen) ∧
        out = .event e.2 :: seen.map .command) ∨
      s'.command = s.command ∧
        ∀ o ∈ out, ∃ o', o = .target o' ∧ ∀ event, o' ≠ .event (.host event) := by
  have hcommand : ∀ {now event file}, s.commandStep lib h now event file = some (s', out) →
      ∃ e seen, (Commands.commandSystem lib h).step s.command e = some (s'.command, seen) ∧
        out = .event e.2 :: seen.map .command := by
    intro now event file hstep
    obtain ⟨⟨command, seen⟩, hrun, heq⟩ := Option.map_eq_some_iff.mp hstep
    cases heq
    exact ⟨(now, event), seen, hrun, rfl⟩
  have htarget : ∀ e, (∀ event, e ≠ .host event) → s.targetStep lib e = some (s', out) →
      s'.command = s.command ∧
        ∀ o ∈ out, ∃ o', o = .target o' ∧ ∀ event, o' ≠ .event (.host event) := by
    intro e he hstep
    obtain ⟨⟨network, seen⟩, hnetwork, heq⟩ := Option.map_eq_some_iff.mp hstep
    cases heq
    refine ⟨rfl, List.forall_mem_map.mpr fun o ho => ⟨o, rfl, fun event heq => ?_⟩⟩
    subst heq
    rcases s.network.step_cases lib hnetwork with ⟨_, _, -, -, -, rfl⟩ | ⟨_, _, -, -, -, rfl⟩
    all_goals
      rcases List.mem_cons.mp ho with heq | hmem
      · cases heq
        exact he event rfl
      · obtain ⟨_, -, heq⟩ := List.mem_map.mp hmem
        cases heq
  cases e with
  | command now event => exact .inl (hcommand (Option.ite_none_left_eq_some.mp hstep).2)
  | initialisationReceived now data =>
    exact .inl (hcommand (Option.ite_none_right_eq_some.mp hstep).2)
  | requestArrives now file remote =>
    exact .inl (hcommand (Option.ite_none_right_eq_some.mp hstep).2)
  | fileReceived now transfer file =>
    exact .inl (hcommand (Option.ite_none_right_eq_some.mp hstep).2)
  | target event =>
    exact .inr (htarget (.target event) (fun _ => nofun) hstep)
  | requestFileArrives filename data remote =>
    exact .inr (htarget (.requestFileArrives filename data remote) (fun _ => nofun) hstep)
  | requestFileReceived filename data =>
    exact .inr (htarget (.requestFileReceived filename data) (fun _ => nofun) hstep)

/-! ## Runs -/

theorem filterMap_ofCommandOnly_command (event : Commands.Command.Event)
    (seen : List Commands.Command.Observation) :
    (CommandNetworkObservation.event event :: seen.map .command).filterMap ofCommandOnly =
      seen := by
  rw [List.filterMap_cons_none rfl, List.filterMap_map]
  exact List.filterMap_some

/-- What the command sends is asked for by its operation, and nobody else sends. -/
def SendsAsAsked (asks : Host.Output → Host.Operation.Request → Prop)
    (out : List CommandNetworkObservation) : Prop :=
  Commands.Command.SentBehind asks (out.filterMap ofCommandOnly) ∧
    ∀ event, .target (.event (.host event)) ∉ out

theorem SendsAsAsked.append {asks : Host.Output → Host.Operation.Request → Prop}
    {out out' : List CommandNetworkObservation} (h : SendsAsAsked asks out)
    (h' : SendsAsAsked asks out') : SendsAsAsked asks (out ++ out') := by
  refine ⟨?_, fun event hmem => ?_⟩
  · rw [List.filterMap_append]
    exact h.1.append h'.1
  · rcases List.mem_append.mp hmem with hmem | hmem
    · exact h.2 event hmem
    · exact h'.2 event hmem

variable {Inv : μ → Prop} {asks : Host.Output → Host.Operation.Request → Prop}
  {events : List CommandNetworkEvent} {trace : List CommandNetworkObservation}

theorem CommandNetwork.sendsAsAsked_step (law : Commands.Asking h Inv asks)
    {e : CommandNetworkEvent} {out : List CommandNetworkObservation}
    (hinv : Inv s.command.members)
    (hstep : (commandNetworkSystem lib h).step s e = some (s', out)) :
    Inv s'.command.members ∧ SendsAsAsked asks out := by
  rcases CommandNetwork.step_cases hstep with ⟨e, seen, hcommand, rfl⟩ | ⟨hsame, hout⟩
  · obtain ⟨hnext, hbehind⟩ := law.rule.step hinv hcommand
    refine ⟨hnext, ?_, fun event hmem => ?_⟩
    · rwa [filterMap_ofCommandOnly_command]
    · rcases List.mem_cons.mp hmem with heq | hmem
      · cases heq
      · obtain ⟨o, -, heq⟩ := List.mem_map.mp hmem
        cases heq
  · refine ⟨hsame ▸ hinv, .of_silent fun o ho => ?_, fun event hmem => ?_⟩
    · obtain ⟨observation, hmem, heq⟩ := List.mem_filterMap.mp ho
      obtain ⟨o', rfl, -⟩ := hout _ hmem
      cases heq
    · obtain ⟨o', heq, hother⟩ := hout _ hmem
      cases heq
      exact hother event rfl

theorem CommandNetwork.sendsAsAsked_run (law : Commands.Asking h Inv asks)
    (hinv : Inv s.command.members)
    (hrun : (commandNetworkSystem lib h).run s events = some (s', trace)) :
    SendsAsAsked asks trace := by
  have hstep : ∀ s past e s' out, Inv s.command.members ∧ SendsAsAsked asks past →
      (commandNetworkSystem lib h).step s e = some (s', out) →
      Inv s'.command.members ∧ SendsAsAsked asks (past ++ out) := by
    intro s past e s' out ⟨hinv, hpast⟩ hstep
    obtain ⟨hnext, hsends⟩ := CommandNetwork.sendsAsAsked_step law hinv hstep
    exact ⟨hnext, hpast.append hsends⟩
  have hnone : SendsAsAsked asks [] :=
    ⟨.of_silent (List.forall_mem_nil _), fun _ => List.not_mem_nil⟩
  exact ((commandNetworkSystem lib h).run_history hstep ⟨hinv, hnone⟩ hrun).2

variable {members : μ} {targetKind : OperationType} {targetId targetId' : TargetId}
  {dlpTimeout rate : Nat} {portOption : Bool} {version : Arinc615aVersion} {port : UInt16}

theorem CommandNetwork.authentic_run
    (hrun : (commandNetworkSystem lib h).run (.created members kind targetId dlpTimeout portOption
      (.ofOperation targetKind targetId' version rate port)) events = some (s', trace)) :
    Preceded (fun past o => ∀ o', onNetwork o = some o' →
      Authentic lib kind (past.filterMap onNetwork) o') [] trace := by
  have hstep : ∀ s past e s' out, CommandNetworkInv lib kind s past → True →
      (commandNetworkSystem lib h).step s e = some (s', out) →
      CommandNetworkInv lib kind s' (past ++ out) ∧
        Preceded (fun past o => ∀ o', onNetwork o = some o' →
          Authentic lib kind (past.filterMap onNetwork) o') past out := by
    intro s past e s' out hinv _ hstep
    obtain ⟨hnext, hexplained⟩ := CommandNetwork.authentic_step hinv hstep
    exact ⟨hnext, .of_filterMap hexplained⟩
  exact (commandNetworkSystem lib h).run_preceded hstep
    ⟨networkInv_created lib kind targetKind targetId targetId' dlpTimeout portOption version rate
      port, rfl⟩ ((commandNetworkSystem lib h).throughout_of_forall fun _ _ _ => trivial) hrun

/-- What has been sent was asked for by a call of the operation, which is explained itself. -/
theorem CommandNetwork.asked_of_userSent (law : Commands.Asking h Inv asks) (hinv : Inv members)
    {pre post : List CommandNetworkObservation} {request : Host.Operation.Request}
    (hrun : (commandNetworkSystem lib h).run (.created members kind targetId dlpTimeout portOption
      (.ofOperation targetKind targetId' version rate port)) events = some (s', pre ++ post))
    (hsent : UserSent (pre.filterMap onNetwork) request) :
    ∃ o, asks o request ∧ Authentic lib kind (pre.filterMap onNetwork) (.host (.call o)) := by
  obtain ⟨hbehind, hnobody⟩ := CommandNetwork.sendsAsAsked_run law hinv hrun
  have hsends : .command (.send request true) ∈ pre := by
    obtain ⟨o, hmem, heq⟩ := List.mem_filterMap.mp hsent
    cases o with
    | event event => cases event <;> cases heq
    | command o =>
      cases o with
      | send request accepted =>
        cases accepted with
        | true =>
          cases heq
          exact hmem
        | false => cases heq
      | _ => cases heq
    | target o =>
      cases heq
      exact absurd (List.mem_append_left _ hmem) (hnobody _)
  obtain ⟨front, back, rfl⟩ := List.append_of_mem hsends
  obtain ⟨front', now, o, hfront, hasks⟩ := hbehind (front.filterMap ofCommandOnly) request true
    ((back ++ post).filterMap ofCommandOnly) (by simp [List.filterMap_append, ofCommandOnly])
  have hcall : .command (.call now o) ∈ front := by
    have hmem : .call now o ∈ front.filterMap ofCommandOnly := by simp [hfront]
    obtain ⟨observation, hmem, heq⟩ := List.mem_filterMap.mp hmem
    cases observation with
    | command o =>
      cases heq
      exact hmem
    | _ => cases heq
  obtain ⟨before, behind, rfl⟩ := List.append_of_mem hcall
  refine ⟨o, hasks, ?_⟩
  have hexplained := CommandNetwork.authentic_run hrun before (.command (.call now o))
    (behind ++ .command (.send request true) :: back ++ post) (by simp) _ rfl
  rw [List.append_assoc, List.filterMap_append]
  exact lasting_authentic lib kind _ _ _ hexplained

end

/-! ## What arrives -/

section

variable {lib : Library} {targetKind : OperationType} {targetId targetId' : TargetId}
  {dlpTimeout rate : Nat} {portOption : Bool} {version : Arinc615aVersion} {port : UInt16}
  {events : List CommandNetworkEvent} {pre post : List CommandNetworkObservation}

/-- What the handler of the target is asked to load is what the upload command has been given, and
what it is asked to send is what the command for media defined downloads has been given; and the
target has accepted the operation before. -/
theorem command_requests_arrive :
    (∀ {filePath loads told after},
      (commandNetworkSystem lib (Commands.uploadHandler filePath loads)).run
          (.created false .upload targetId dlpTimeout portOption
            (.ofOperation targetKind targetId' version rate port)) events =
        some (after, pre ++ .target (.target (.call (.loadList told))) :: post) →
      told = loads.map UploadLoad.cutAtNul ∧
        ∃ sent, StatusSent (pre.filterMap onNetwork) (.upload sent) ∧
          sent.code = .operationAccepted) ∧
      ∀ {paths downloadDataPath requestedFiles userDefinedData told data after},
        (commandNetworkSystem lib (Commands.mediaDefinedDownloadHandler paths downloadDataPath
            requestedFiles userDefinedData)).run
            (.created {} .mediaDefinedDownload targetId dlpTimeout portOption
              (.ofOperation targetKind targetId' version rate port)) events =
          some (after, pre ++ .target (.target (.call (.downloadingRequest told data))) :: post) →
        told = requestedFiles.map cutAtNul ∧ data = userDefinedData ∧
          ∃ sent, (StatusSent (pre.filterMap onNetwork) (.mediaDefinedDownload sent) ∨
              StatusSent (pre.filterMap onNetwork) (.operatorDefinedDownload sent)) ∧
            sent.code = .operationAccepted := by
  refine ⟨fun {filePath loads told after} hrun => ?_,
    fun {paths downloadDataPath requestedFiles userDefinedData told data after} hrun => ?_⟩
  · obtain ⟨given, hsent, htold⟩ : ∃ given,
        UserSent (pre.filterMap onNetwork) (.loadList given) ∧
          told = given.map UploadLoad.cutAtNul :=
      CommandNetwork.authentic_run hrun _ _ _ rfl _ rfl
    obtain ⟨o, ⟨haccepts, hgiven⟩, hexplained⟩ := CommandNetwork.asked_of_userSent
      (Commands.transmitting_upload filePath loads).asking trivial hrun hsent
    cases hgiven
    refine ⟨htold, ?_⟩
    cases o with
    | uploadStatus status =>
      obtain ⟨sent, hstatus, rfl⟩ := hexplained
      exact ⟨sent, hstatus, of_decide_eq_true haccepts⟩
    | _ => cases haccepts
  · obtain ⟨given, hsent, htold⟩ : ∃ given,
        UserSent (pre.filterMap onNetwork) (.request given data) ∧ told = given.map cutAtNul :=
      CommandNetwork.authentic_run hrun _ _ _ rfl _ rfl
    obtain ⟨o, ⟨haccepts, hgiven⟩, hexplained⟩ := CommandNetwork.asked_of_userSent
      (Commands.transmitting_mediaDefinedDownload paths downloadDataPath requestedFiles
        userDefinedData).asking trivial hrun hsent
    cases hgiven
    refine ⟨htold, rfl, ?_⟩
    cases o with
    | downloadStatus status =>
      obtain ⟨sent, hstatus, rfl⟩ := hexplained
      exact ⟨sent, hstatus, of_decide_eq_true haccepts⟩
    | _ => cases haccepts

/-- Both commands, with a target that accepts the operation. -/
theorem command_requests_arrive_accepted :
    let lib : Library := { raw := .bigEndian, generateCheckValue := fun _ _ => {} }
    let paths : Commands.PathLibrary :=
      { append := (· ++ ·), lexicallyNormal := id, isRegularFile := fun _ => true
        normaliseFilename := id }
    let media : Commands.MediaLibrary Text Nat :=
      { loadsFile := fun _ filename _ _ => some filename, mediaSet := fun _ => 0
        effectiveMediumNumber := fun _ => 1, relativePath := id }
    let target (kind : OperationType) : Target.World :=
      .ofOperation kind (.ofText (text "ABCD_1")) .arinc615a34 1 59
    let events (status request : Text) (data : Bytes) : List CommandNetworkEvent :=
      let accepted : SentFile :=
        { filename := status
          data := [0, 0, 0, 20, 65, 52, 0, 1, 0, 0, 0, 0, 0, 0, 0, 32, 32, 48, 0, 0]
          checkValue := {} }
      [.command 0 (.execute .started), .target (.start ⟨1, 2⟩ none .started),
        .initialisationReceived 1 [0, 0, 0, 9, 65, 52, 0, 1, 0],
        .target (.completed .initialisation .successful []),
        .target (.timerElapses .expired), .target (.timerHandler .expired),
        .requestArrives 2 accepted ⟨1, 2⟩, .fileReceived 3 (.status 0) accepted,
        .requestFileArrives request data ⟨1, 2⟩, .requestFileReceived request data]
    (∃ after pre post,
      (commandNetworkSystem lib (Commands.UploadLoadsOperationCommand.handler paths media
          [(0, text "/media")] [⟨text "A.LUH", text "PN"⟩])).run
          (.created false .upload (.ofText (text "ABCD_1")) 10 false (target .upload))
          (events (text "ABCD_1.LUS") (text "ABCD_1.LUR")
            [0, 0, 0, 19, 65, 52, 0, 1, 6, 65, 46, 76, 85, 72, 0, 3, 80, 78, 0]) =
        some (after,
          pre ++ .target (.target (.call (.loadList [⟨text "A.LUH", text "PN"⟩]))) :: post) ∧
      ∃ sent, StatusSent (pre.filterMap onNetwork) (.upload sent) ∧
        sent.code = .operationAccepted) ∧
      ∃ after pre post,
        (commandNetworkSystem lib (Commands.mediaDefinedDownloadHandler paths []
            [text "A.DAT"] [7])).run
            (.created {} .mediaDefinedDownload (.ofText (text "ABCD_1")) 10 false
              (target .mediaDefinedDownload))
            (events (text "ABCD_1.LNS") (text "ABCD_1.LNR")
              [0, 0, 0, 17, 65, 52, 0, 1, 6, 65, 46, 68, 65, 84, 0, 1, 7]) =
          some (after,
            pre ++ .target (.target (.call (.downloadingRequest [text "A.DAT"] [7]))) :: post) ∧
        ∃ sent, (StatusSent (pre.filterMap onNetwork) (.mediaDefinedDownload sent) ∨
            StatusSent (pre.filterMap onNetwork) (.operatorDefinedDownload sent)) ∧
          sent.code = .operationAccepted := by
  intro lib paths media target events
  refine ⟨?_, ?_⟩
  · obtain ⟨after, seen, hrun, hmem⟩ : ∃ after seen,
        (commandNetworkSystem lib (Commands.UploadLoadsOperationCommand.handler paths media
            [(0, text "/media")] [⟨text "A.LUH", text "PN"⟩])).run
            (.created false .upload (.ofText (text "ABCD_1")) 10 false (target .upload))
            (events (text "ABCD_1.LUS") (text "ABCD_1.LUR")
              [0, 0, 0, 19, 65, 52, 0, 1, 6, 65, 46, 76, 85, 72, 0, 3, 80, 78, 0]) =
          some (after, seen) ∧
        .target (.target (.call (.loadList [⟨text "A.LUH", text "PN"⟩]))) ∈ seen :=
      Reactive.exists_run_of_any _ (by decide +kernel)
    obtain ⟨pre, post, rfl⟩ := List.append_of_mem hmem
    exact ⟨after, pre, post, hrun, (command_requests_arrive.1 hrun).2⟩
  · obtain ⟨after, seen, hrun, hmem⟩ : ∃ after seen,
        (commandNetworkSystem lib (Commands.mediaDefinedDownloadHandler paths []
            [text "A.DAT"] [7])).run
            (.created {} .mediaDefinedDownload (.ofText (text "ABCD_1")) 10 false
              (target .mediaDefinedDownload))
            (events (text "ABCD_1.LNS") (text "ABCD_1.LNR")
              [0, 0, 0, 17, 65, 52, 0, 1, 6, 65, 46, 68, 65, 84, 0, 1, 7]) =
          some (after, seen) ∧
        .target (.target (.call (.downloadingRequest [text "A.DAT"] [7]))) ∈ seen :=
      Reactive.exists_run_of_any _ (by decide +kernel)
    obtain ⟨pre, post, rfl⟩ := List.append_of_mem hmem
    exact ⟨after, pre, post, hrun, (command_requests_arrive.2 hrun).2.2⟩

end

end Arinc615a.Exchange
