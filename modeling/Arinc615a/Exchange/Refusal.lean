import Arinc615a.Exchange.Authenticity
import Arinc615a.Target.ErrorOperation

/-!
# Refusals on the network

The target may refuse the operation as often as it is asked for it, and take it on at other times.
The host is told what the target has refused with; all else is as it is without refusals.
-/

open Reasoning

namespace Arinc615a.Exchange

open Files Information Tftp

structure RefusingNetwork where
  network : Network
  /-- The version of the protocol that the target refuses with. -/
  protocolVersion : Arinc615aVersion
  errorOperations : List Target.ErrorOperation := []
  /-- The initialisation files that are sent by them. -/
  refusals : List Bytes := []
  deriving DecidableEq

inductive RefusingNetworkEvent where
  | network (event : NetworkEvent)
  | refuse (configuration : Target.ErrorOperationConfiguration) (hostAddress : Endpoint)
      (port : Option UInt16) (result : Target.Operation.StartResult)
  | refusalReceived (data : Bytes)
  | refusalCompleted (index : Nat) (status : TransferStatus)
  deriving DecidableEq

inductive RefusingNetworkObservation where
  | network (observation : NetworkObservation)
  | refusal (configuration : Target.ErrorOperationConfiguration) (output : Target.ErrorOutput)
  deriving DecidableEq

def sentRefusal : Target.ErrorOutput → Option Bytes
  | .sendInitFile _ data _ => some data
  | _ => none

namespace RefusingNetwork

variable (lib : Library) (s : RefusingNetwork)

/-- An error operation whose start throws is gone. -/
def refuse (configuration : Target.ErrorOperationConfiguration) (hostAddress : Endpoint)
    (port : Option UInt16) (result : Target.Operation.StartResult) :
    RefusingNetwork × List RefusingNetworkObservation :=
  let op : Target.ErrorOperation := { protocolVersion := s.protocolVersion, configuration }
  let r := op.start lib hostAddress port result
  let sent := r.2.filterMap sentRefusal
  ({ s with
      errorOperations := s.errorOperations ++ sent.map fun _ => r.1
      refusals := s.refusals ++ sent },
    r.2.map (.refusal configuration))

def step : RefusingNetworkEvent → Option (RefusingNetwork × List RefusingNetworkObservation)
  | .network event =>
    (s.network.step lib event).map fun (network, out) => ({ s with network }, out.map .network)
  | .refuse configuration hostAddress port result =>
    some (s.refuse lib configuration hostAddress port result)
  | .refusalReceived data =>
    if s.refusals.contains data then
      (s.network.host.step lib (.completed .initialisation .successful data)).map
        fun (host, out) =>
          ({ s with network := s.network.afterHost host out }, out.map fun o => .network (.host o))
    else none
  | .refusalCompleted index status =>
    match s.errorOperations[index]? with
    | none => none
    | some op =>
      if op.initialisationFileOperation then
        let r := op.initialisationFileCompleted status
        some ({ s with errorOperations := s.errorOperations.set index r.1 },
          r.2.map (.refusal op.configuration))
      else none

end RefusingNetwork

def refusingNetworkSystem (lib : Library) :
    Reactive RefusingNetwork RefusingNetworkEvent RefusingNetworkObservation :=
  ⟨RefusingNetwork.step lib⟩

/-! ## Explanations -/

def ofNetwork : RefusingNetworkObservation → Option NetworkObservation
  | .network o => some o
  | .refusal .. => none

def RefusalSent (past : List RefusingNetworkObservation)
    (configuration : Target.ErrorOperationConfiguration) : Prop :=
  ∃ remote data port, .refusal configuration (.sendInitFile remote data port) ∈ past

/-- What a refusal makes of the host.  A file cannot say that the operation is deferred. -/
def Refused (past : List RefusingNetworkObservation) : NetworkObservation → Prop
  | .host (.call (.initialisationResponse response)) =>
    ∃ configuration, RefusalSent past configuration ∧ configuration.status ≠ .operationDeferred ∧
      response = { code := configuration.status
                   description := cutAtNul configuration.description }
  | .host (.call (.finished code description)) =>
    ∃ configuration, RefusalSent past configuration ∧ configuration.status ≠ .operationDeferred ∧
      configuration.status ≠ .operationAccepted ∧
      code = Host.Operation.acceptanceStatusCode configuration.status ∧
      description = cutAtNul configuration.description
  | _ => False

/-- What is seen on the network is explained without refusals, or by one. -/
def Explained (lib : Library) (kind : OperationType) (past : List RefusingNetworkObservation)
    (o : RefusingNetworkObservation) : Prop :=
  ∀ o', ofNetwork o = some o' →
    Authentic lib kind (past.filterMap ofNetwork) o' ∨ Refused past o'

def refusalFile (version : Arinc615aVersion)
    (configuration : Target.ErrorOperationConfiguration) : InitializationFile :=
  Target.ErrorOperation.initialisationFile { protocolVersion := version, configuration }

/-- The files that are sent say what is refused. -/
def RefusalsEncoded (lib : Library) (version : Arinc615aVersion)
    (past : List RefusingNetworkObservation) : Prop :=
  ∀ configuration remote data port,
    .refusal configuration (.sendInitFile remote data port) ∈ past →
    (refusalFile version configuration).encode lib.raw = .ok data

structure RefusingNetworkInv (lib : Library) (kind : OperationType) (version : Arinc615aVersion)
    (s : RefusingNetwork) (past : List RefusingNetworkObservation) : Prop where
  network : NetworkInv lib kind s.network (past.filterMap ofNetwork)
  protocolVersion : s.protocolVersion = version
  refusals : ∀ data ∈ s.refusals, ∃ configuration remote port,
    .refusal configuration (.sendInitFile remote data port) ∈ past
  encoded : RefusalsEncoded lib version past

section

variable {lib : Library} {kind : OperationType} {version : Arinc615aVersion}
  {past : List RefusingNetworkObservation}

/-- The calls of the host when it receives a refusal. -/
theorem explained_refusal {op : Host.Operation} {data : Bytes} {o : Host.Output}
    {configuration : Target.ErrorOperationConfiguration}
    (hsent : RefusalSent past configuration)
    (hencode : (refusalFile version configuration).encode lib.raw = .ok data)
    (horigin : Host.Origin lib op (.completed .initialisation .successful data) o) :
    Explained lib kind past (.network (.host (.call o))) := by
  rintro _ ⟨⟩
  cases horigin with
  | bare hbare =>
    left
    cases o <;> first | exact trivial | cases hbare
  | response _ rest file hdecode =>
    obtain ⟨hreadable, rfl, -⟩ :=
      (InitializationFile.decode_encode_done_iff lib.raw hencode).mp hdecode
    exact .inr ⟨configuration, hsent, hreadable.2, rfl⟩
  | failed description => exact .inl (.inl rfl)
  | refused _ rest file hdecode hcode =>
    obtain ⟨hreadable, rfl, -⟩ :=
      (InitializationFile.decode_encode_done_iff lib.raw hencode).mp hdecode
    exact .inr ⟨configuration, hsent, hreadable.2, hcode, rfl, rfl⟩

theorem filterMap_ofNetwork_network (out : List NetworkObservation) :
    (out.map RefusingNetworkObservation.network).filterMap ofNetwork = out := by
  rw [List.filterMap_map]
  exact List.filterMap_some

theorem filterMap_ofNetwork_refusal (configuration : Target.ErrorOperationConfiguration)
    (out : List Target.ErrorOutput) :
    (out.map (RefusingNetworkObservation.refusal configuration)).filterMap ofNetwork = [] := by
  rw [List.filterMap_map]
  exact List.filterMap_none out

variable {s s' : RefusingNetwork} {more out : List RefusingNetworkObservation}

theorem RefusalsEncoded.append (h : RefusalsEncoded lib version past)
    (hmore : RefusalsEncoded lib version more) : RefusalsEncoded lib version (past ++ more) := by
  intro configuration remote data port hmem
  rcases List.mem_append.mp hmem with hmem | hmem
  · exact h configuration remote data port hmem
  · exact hmore configuration remote data port hmem

theorem refusalsEncoded_of_network (h : ∀ o ∈ out, ∃ o', o = .network o') :
    RefusalsEncoded lib version out := by
  intro configuration remote data port hmem
  obtain ⟨o, heq⟩ := h _ hmem
  cases heq

theorem Refused.lasting {o : NetworkObservation} (h : Refused past o) :
    Refused (past ++ more) o := by
  have hsent : ∀ {configuration}, RefusalSent past configuration →
      RefusalSent (past ++ more) configuration := by
    rintro configuration ⟨remote, data, port, hmem⟩
    exact ⟨remote, data, port, List.mem_append_left _ hmem⟩
  unfold Refused at h ⊢
  split at h
  · obtain ⟨configuration, hrefused, hrest⟩ := h
    exact ⟨configuration, hsent hrefused, hrest⟩
  · obtain ⟨configuration, hrefused, hrest⟩ := h
    exact ⟨configuration, hsent hrefused, hrest⟩
  · exact h.elim

theorem lasting_explained (lib : Library) (kind : OperationType) :
    Lasting (Explained lib kind) := by
  intro past more o h o' ho
  rw [List.filterMap_append]
  exact (h o' ho).imp (lasting_authentic lib kind _ _ _) Refused.lasting

theorem explained_refusals (configuration : Target.ErrorOperationConfiguration)
    (out : List Target.ErrorOutput) :
    Preceded (Explained lib kind) past (out.map (.refusal configuration)) :=
  .of_forall (lasting_explained lib kind) (List.forall_mem_map.mpr fun _ _ _ => nofun)

/-- A step keeps the invariant, and all that it leads to is explained. -/
theorem RefusingNetwork.explained_step {e : RefusingNetworkEvent}
    (hinv : RefusingNetworkInv lib kind version s past)
    (hstep : (refusingNetworkSystem lib).step s e = some (s', out)) :
    RefusingNetworkInv lib kind version s' (past ++ out) ∧
      Preceded (Explained lib kind) past out := by
  have hrefusals : ∀ data ∈ s.refusals, ∃ configuration remote port,
      .refusal configuration (.sendInitFile remote data port) ∈ past ++ out := by
    intro data hdata
    obtain ⟨configuration, remote, port, hmem⟩ := hinv.refusals data hdata
    exact ⟨configuration, remote, port, List.mem_append_left _ hmem⟩
  cases e with
  | network event =>
    obtain ⟨⟨network, seen⟩, hnetwork, heq⟩ := Option.map_eq_some_iff.mp hstep
    cases heq
    obtain ⟨hnext, hexplained⟩ := Network.authentic_step hinv.network hnetwork
    refine ⟨⟨?_, hinv.protocolVersion, hrefusals,
      hinv.encoded.append (refusalsEncoded_of_network ?_)⟩, fun pre o post hsplit o' ho => ?_⟩
    · rwa [List.filterMap_append, filterMap_ofNetwork_network]
    · exact List.forall_mem_map.mpr fun o _ => ⟨o, rfl⟩
    · rw [← filterMap_ofNetwork_network seen] at hexplained
      exact .inl (Preceded.of_filterMap hexplained pre o post hsplit o' ho)
  | refuse configuration hostAddress port result =>
    cases hstep
    refine ⟨⟨?_, hinv.protocolVersion,
      List.forall_mem_append.mpr ⟨hrefusals, fun data hdata => ?_⟩, hinv.encoded.append ?_⟩,
      explained_refusals configuration _⟩
    · rw [List.filterMap_append, filterMap_ofNetwork_refusal, List.append_nil]
      exact hinv.network
    · obtain ⟨o, ho, hsent⟩ := List.mem_filterMap.mp hdata
      cases o with
      | sendInitFile remote file port' =>
        cases hsent
        exact ⟨configuration, remote, port', List.mem_append_right _ (List.mem_map_of_mem ho)⟩
      | _ => cases hsent
    · intro configuration' remote data port' hmem
      obtain ⟨o, ho, heq⟩ := List.mem_map.mp hmem
      cases heq
      rw [← hinv.protocolVersion]
      exact Target.ErrorOperation.encode_of_start rfl ho
  | refusalReceived data =>
    obtain ⟨hdata, hstep⟩ := Option.ite_none_right_eq_some.mp hstep
    obtain ⟨⟨host, seen⟩, hhost, heq⟩ := Option.map_eq_some_iff.mp hstep
    cases heq
    obtain ⟨configuration, remote, port, hmem⟩ :=
      hinv.refusals data (List.contains_iff_mem.mp hdata)
    have hcomes := Host.World.comes_step hhost
    refine ⟨⟨?_, hinv.protocolVersion, hrefusals, hinv.encoded.append ?_⟩,
      .of_forall (lasting_explained lib kind) (List.forall_mem_map.mpr fun o ho => ?_)⟩
    · rw [List.filterMap_append]
      exact (hinv.network.afterHost hhost nofun).lasting
    · exact refusalsEncoded_of_network (List.forall_mem_map.mpr fun o _ => ⟨.host o, rfl⟩)
    · cases o with
      | started =>
        rintro _ ⟨⟩
        exact .inl trivial
      | call output =>
        exact explained_refusal ⟨remote, data, port, hmem⟩ (hinv.encoded _ _ _ _ hmem)
          (hcomes output ho)
  | refusalCompleted index status =>
    simp only [refusingNetworkSystem, RefusingNetwork.step] at hstep
    split at hstep
    · cases hstep
    next op _ =>
      obtain ⟨-, heq⟩ := Option.ite_none_right_eq_some.mp hstep
      cases heq
      refine ⟨⟨?_, hinv.protocolVersion, hrefusals, hinv.encoded.append ?_⟩,
        explained_refusals op.configuration _⟩
      · rw [List.filterMap_append, filterMap_ofNetwork_refusal, List.append_nil]
        exact hinv.network
      · intro configuration remote data port hmem
        obtain ⟨o, ho, heq⟩ := List.mem_map.mp hmem
        cases heq
        exact absurd ho (Target.ErrorOperation.not_sent_of_completed op status)

/-! ## Runs -/

/-- A network on which the target may refuse the operation. -/
def RefusingNetwork.created (kind : OperationType) (targetId : TargetId) (dlpTimeout : Nat)
    (portOption : Bool) (targetKind : OperationType) (targetId' : TargetId)
    (version : Arinc615aVersion) (rate : Nat) (port : UInt16) : RefusingNetwork where
  network := .created kind targetId dlpTimeout portOption
    (.ofOperation targetKind targetId' version rate port)
  protocolVersion := version

variable {targetId targetId' : TargetId} {targetKind : OperationType} {dlpTimeout rate : Nat}
  {portOption : Bool} {port : UInt16} {events : List RefusingNetworkEvent}
  {after : RefusingNetwork} {seen : List RefusingNetworkObservation}

theorem refusingNetworkInv_created (lib : Library) (kind targetKind : OperationType)
    (targetId targetId' : TargetId) (dlpTimeout : Nat) (portOption : Bool)
    (version : Arinc615aVersion) (rate : Nat) (port : UInt16) :
    RefusingNetworkInv lib kind version
      (.created kind targetId dlpTimeout portOption targetKind targetId' version rate port) [] where
  network := networkInv_created lib kind targetKind targetId targetId' dlpTimeout portOption version
    rate port
  protocolVersion := rfl
  refusals := List.forall_mem_nil _
  encoded := fun _ _ _ _ hmem => absurd hmem List.not_mem_nil

theorem RefusingNetwork.explained_run
    (hrun : (refusingNetworkSystem lib).run (.created kind targetId dlpTimeout portOption targetKind
      targetId' version rate port) events = some (after, seen)) :
    Preceded (Explained lib kind) [] seen :=
  (refusingNetworkSystem lib).run_preceded
    (fun _ _ _ _ _ hinv _ => RefusingNetwork.explained_step hinv)
    (refusingNetworkInv_created lib kind targetKind targetId targetId' dlpTimeout portOption version
      rate port)
    ((refusingNetworkSystem lib).throughout_of_forall fun _ _ _ => trivial) hrun

/-- Over any run in which the target refuses the operation any number of times, all that is seen is
explained as it is without refusals, or it is what a refusal says. -/
theorem network_refusals_authentic
    (hrun : (refusingNetworkSystem lib).run (.created kind targetId dlpTimeout portOption targetKind
      targetId' version rate port) events = some (after, seen)) :
    ∀ pre o post, seen = pre ++ .network o :: post →
      Authentic lib kind (pre.filterMap ofNetwork) o ∨ Refused pre o :=
  fun pre _ post hseen => RefusingNetwork.explained_run hrun pre _ post hseen _ rfl

/-- An upload that is denied; the host reads the description up to its NUL. -/
theorem network_refusals_authentic_denied :
    ∃ after pre post,
      (refusingNetworkSystem { raw := .bigEndian, generateCheckValue := fun _ _ => {} }).run
          (.created .upload (.ofText (text "ABCD_1")) 10 false .upload (.ofText (text "ABCD_1"))
            .arinc615a34 1 59)
          [.network (.host (.start .started)),
            .refuse ⟨true, .operationDenied, [78, 79, 0, 33]⟩ ⟨1, 2⟩ none .started,
            .refusalReceived [0, 0, 0, 14, 65, 52, 16, 0, 5, 78, 79, 0, 33, 0]] =
        some (after, pre ++ .network (.host (.call (.initialisationResponse
          { code := .operationDenied, description := text "NO" }))) :: post) ∧
      Refused pre (.host (.call (.initialisationResponse
        { code := .operationDenied, description := text "NO" }))) := by
  obtain ⟨after, seen, hrun, hmem⟩ : ∃ after seen,
      (refusingNetworkSystem { raw := .bigEndian, generateCheckValue := fun _ _ => {} }).run
          (.created .upload (.ofText (text "ABCD_1")) 10 false .upload (.ofText (text "ABCD_1"))
            .arinc615a34 1 59)
          [.network (.host (.start .started)),
            .refuse ⟨true, .operationDenied, [78, 79, 0, 33]⟩ ⟨1, 2⟩ none .started,
            .refusalReceived [0, 0, 0, 14, 65, 52, 16, 0, 5, 78, 79, 0, 33, 0]] =
        some (after, seen) ∧
      .network (.host (.call (.initialisationResponse
        { code := .operationDenied, description := text "NO" }))) ∈ seen :=
    Reactive.exists_run_of_any _ (by decide +kernel)
  obtain ⟨pre, post, rfl⟩ := List.append_of_mem hmem
  refine ⟨after, pre, post, hrun, ?_⟩
  rcases network_refusals_authentic hrun pre _ post rfl with ⟨hresponse, -⟩ | hrefused
  · cases hresponse
  · exact hrefused

/-- No status of the target says that the operation has not been taken on. -/
theorem not_earned_of_notAccepted {past : List NetworkObservation} {information : Prop}
    {code : StatusCode} {description : Text}
    (hcode : code = .operationNotAccepted ∨ code = .operationNotSupported) :
    ¬Earned past information code description := by
  rintro (rfl | ⟨reason, -, rfl⟩ | ⟨sent, -, hvouched, rfl, -⟩ | ⟨-, rfl, -⟩)
  · simp at hcode
  · cases reason <;> simp [Host.Operation.abortStatusCode] at hcode
  · rcases hvouched with h | (h | h | h) | h | ⟨finalStatus, -, h⟩ | ⟨-, h, -⟩
    all_goals rw [h] at hcode
    · simp at hcode
    · simp at hcode
    · simp at hcode
    · simp at hcode
    · simp at hcode
    · cases finalStatus <;> simp [FinalStatus.statusCode] at hcode
    · simp at hcode
  · simp at hcode

/-- A host that can read a refusal hands it to its handler, and finishes with it. -/
theorem out_of_refusal {host host' : Host.World} {data : Bytes} {seen : List Host.Observation}
    {configuration : Target.ErrorOperationConfiguration}
    (hstep : host.step lib (.completed .initialisation .successful data) = some (host', seen))
    (hencode : (refusalFile version configuration).encode lib.raw = .ok data)
    (hversion : version.Supported)
    (hstatus : configuration.status = .operationDenied ∨
      configuration.status = .operationNotSupported) :
    seen = [.call (.initialisationResponse { code := configuration.status
                                             description := cutAtNul configuration.description }),
      .call (.finished (Host.Operation.acceptanceStatusCode configuration.status)
        (cutAtNul configuration.description)),
      .call .timerCancel, .call .serverStop] := by
  have hdeferred : configuration.status ≠ .operationDeferred := by
    rcases hstatus with h | h <;> rw [h] <;> decide
  have hdecode := (InitializationFile.decode_encode_done_iff lib.raw hencode).mpr
    ⟨⟨hversion, hdeferred⟩, rfl, rfl⟩
  obtain ⟨loop, -, hreact⟩ := Option.map_eq_some_iff.mp hstep
  obtain ⟨-, rfl⟩ := Host.World.react_eq hreact
  dsimp only [Host.World.complete, Host.Operation.initialisationFileCompleted]
  rw [if_neg (by simp), hdecode]
  simp only [InitializationFile.cutAtNul, InitializationResponse.cutAtNul, refusalFile,
    Target.ErrorOperation.initialisationFile]
  rcases hstatus with h | h
  · rw [h]
    rfl
  · rw [h]
    rfl

end

end Arinc615a.Exchange
