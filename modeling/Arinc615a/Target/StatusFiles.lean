import Arinc615a.Target.FinalCode

/-!
# What the status files carry

A status file carries the status that the operation has when it is sent.  What holds of the status,
and is kept when the common part of it is set, is therefore true of every status file.
-/

open Reasoning

namespace Arinc615a.Target

open Files Information Tftp

/-- The surroundings of an operation that has just been created. -/
def World.ofOperation (kind : OperationType) (targetId : TargetId)
    (protocolVersion : Arinc615aVersion) (statusTransmissionRate : Nat) (hostPort : UInt16) :
    World :=
  { operation := { targetId, protocolVersion, statusTransmissionRate, hostPort,
                   statusV := .ofKind kind } }

/-- A code in progress says whether there is a description. -/
def ProperCode (code : StatusCode) (description : Text) : Prop :=
  (code = .operationInProgress → description = []) ∧
    (code = .operationInProgressAdditionalInfo → description ≠ [])

theorem properCode_codeFirst (description : Text) :
    ProperCode (Operation.inProgressCode .codeFirst description) description := by
  unfold ProperCode Operation.inProgressCode
  cases description <;> simp

theorem properCode_statusCode (finalStatus : FinalStatus) (description : Text) :
    ProperCode finalStatus.statusCode description := by
  constructor <;> cases finalStatus <;> intro h <;> cases h

/-- A property of the status that the operation keeps on its own. -/
structure Stable (P : AnyStatus → Prop) : Prop where
  set : ∀ statusV code description estimatedTime, ProperCode code description → P statusV →
    P (statusV.modify fun status =>
      { status.set code description with estimatedTime := estimatedTime })
  accept : ∀ statusV, P statusV → P (statusV.modify fun status => status.setCode .operationAccepted)
  count : ∀ statusV, P statusV → P (statusV.modify Status.incrementCounter)

/-- The operation and the status files that are sent have the property. -/
def Tells (P : AnyStatus → Prop) (r : Reaction) : Prop :=
  P r.1.statusV ∧ ∀ sent data, (sent, data) ∈ statusFiles r.2 → P sent

namespace Tells

variable {P : AnyStatus → Prop} {op : Operation}

theorem still (h : P op.statusV) {out : List Output} (hout : statusFiles out = []) :
    Tells P (op, out) := by
  refine ⟨h, fun sent data hmem => ?_⟩
  rw [show statusFiles (op, out).2 = [] from hout] at hmem
  cases hmem

theorem none (h : P op.statusV) : Tells P (op, []) := still h rfl

theorem emit (h : P op.statusV) {o : Output} (ho : o.statusFile? = .none) :
    Tells P (op.emit o) :=
  still h (by simp [statusFiles, ho])

theorem andThen {r : Reaction} {f : Operation → Reaction} (h : Tells P r) (h' : Tells P (f r.1)) :
    Tells P (r.andThen f) := by
  refine ⟨h'.1, fun sent data hmem => ?_⟩
  have happend : statusFiles (r.andThen f).2 = statusFiles r.2 ++ statusFiles (f r.1).2 :=
    List.filterMap_append
  rcases List.mem_append.mp (happend ▸ hmem) with hmem | hmem
  · exact h.2 sent data hmem
  · exact h'.2 sent data hmem

end Tells

namespace Operation

variable {lib : Library} {P : AnyStatus → Prop} {op : Operation}

theorem tells_statusFile (hP : Stable P) (h : P op.statusV) : Tells P (op.statusFile lib) := by
  have hforce : P op.forceAccepted.statusV := by
    unfold forceAccepted
    split
    · exact hP.accept _ h
    · exact h
  unfold statusFile
  dsimp only
  cases op.forceAccepted.statusV.encode lib.raw op.forceAccepted.protocolVersion with
  | error exception => exact .emit hforce rfl
  | ok file =>
    refine ⟨hP.count _ hforce, fun sent data hmem => ?_⟩
    -- the status file comes first, and the timer is the only other call
    have hone : (sent, data) = (op.forceAccepted.statusV, file) := List.mem_singleton.mp hmem
    cases hone
    exact hforce

theorem tells_forceStatusTransmission (hP : Stable P) (h : P op.statusV) :
    Tells P (op.forceStatusTransmission lib) := by
  unfold forceStatusTransmission
  split
  · exact tells_statusFile hP h
  · exact .emit h rfl

theorem tells_inProgress (hP : Stable P) {order : ArgumentOrder} {immediateTransmission : Bool}
    {estimatedTime : Int16} {description : Text}
    (h : P (op.status (inProgressCode order description) description estimatedTime).statusV) :
    Tells P (op.inProgress lib order immediateTransmission estimatedTime description) := by
  unfold inProgress
  dsimp only
  split
  · exact tells_forceStatusTransmission hP h
  · exact .none h

theorem tells_finished (hP : Stable P) (h : P op.statusV) (finalStatus : FinalStatus)
    (description : Text) : Tells P (op.finished lib finalStatus description) :=
  tells_forceStatusTransmission hP
    (hP.set _ _ _ _ (properCode_statusCode finalStatus description) h)

theorem tells_statusSent (hP : Stable P) (h : P op.statusV) (sentStatus : Status) :
    Tells P (op.statusSent lib sentStatus) := by
  unfold statusSent
  split
  · split
    · exact tells_inProgress hP (hP.set _ _ _ _ (properCode_codeFirst []) h)
    · exact .emit h rfl
  · exact .emit h rfl
  · exact .emit h rfl
  · exact .still h rfl

theorem tells_complete (hP : Stable P) (h : P op.statusV) (transfer : Transfer)
    (status : TransferStatus) (data : Bytes) :
    Tells P (World.complete lib transfer status data op) := by
  cases transfer with
  | initialisation =>
    dsimp only [World.complete, sendInitFileComplete]
    split
    · exact .still h rfl
    · exact .still h rfl
  | status sent =>
    dsimp only [World.complete, statusFileCompleted]
    split
    · exact Tells.andThen (.emit h rfl) (tells_statusSent hP h _)
    · exact .emit h rfl
    · exact .emit h rfl
    · exact .still h rfl
  | list =>
    exact listCompleted_elim (tells_finished hP h _) (.still h rfl)
      (tells_statusFile hP (hP.set _ _ _ _ ⟨nofun, nofun⟩ h)) (.none h)
  | request =>
    exact requestCompleted_elim (fun _ => tells_finished hP h _) (fun _ => .emit h rfl)
      (fun _ _ => .emit h rfl) (fun _ => .emit h rfl) (.none h)

theorem tells_tftpRequest (h : P op.statusV) (remote : Endpoint) (requestType : RequestType)
    (filename : Text) : Tells P (op.tftpRequest remote requestType filename) :=
  tftpRequest_elim (fun _ _ => .emit h rfl) (.emit h rfl)

theorem tells_start (h : P op.statusV) (hostAddress : Endpoint) (port : Option UInt16)
    (result : StartResult) : Tells P (op.start lib hostAddress port result) :=
  start_elim (fun _ => .none h) fun _ _ => .emit h rfl

end Operation

/-- What a call of the handler has to keep. -/
def CallTells (lib : Library) (P : AnyStatus → Prop) (w : World) : Event → Prop
  | .call call => ∀ r, w.operation.call lib call = some r → Tells P r
  | _ => True

theorem Tells.react {P : AnyStatus → Prop} {v w' : World} {callback : Operation → Reaction}
    {out : List Observation} (h : Tells P (callback v.operation))
    (hreact : v.react callback = (w', out)) :
    P w'.operation.statusV ∧ ∀ sent data, (sent, data) ∈ statusFilesSent out → P sent := by
  cases hreact
  exact ⟨h.1, fun sent data hmem => h.2 sent data (statusFilesSent_map _ ▸ hmem)⟩

/-- A step keeps the property, and sends it, if the call of the handler does. -/
theorem World.tells_step {lib : Library} {P : AnyStatus → Prop} (hP : Stable P) {w w' : World}
    {event : Event} {out : List Observation} (h : P w.operation.statusV)
    (hcall : CallTells lib P w event) (hstep : w.step lib event = some (w', out)) :
    P w'.operation.statusV ∧ ∀ sent data, (sent, data) ∈ statusFilesSent out → P sent := by
  rcases step_cases hstep with ⟨hostAddress, port, result, rfl⟩ | ⟨v, r, hruns, hreact⟩
  · cases hstep
    have htells : Tells P (w.operation.start lib hostAddress port result) :=
      Operation.tells_start h hostAddress port result
    refine ⟨htells.1, fun sent data hmem => htells.2 sent data ?_⟩
    rw [← statusFilesSent_map]
    exact hmem
  refine Tells.react ?_ hreact
  cases hruns with
  | call call reaction hreaction => exact hcall _ hreaction
  | tftpRequest remote requestType filename =>
    exact Operation.tells_tftpRequest h remote requestType filename
  | completed transfer status data => exact Operation.tells_complete hP h transfer status data
  | timerElapses => exact .none h
  | timerHandler result =>
    cases result with
    | operationAborted => exact .none h
    | expired | error => exact Operation.tells_statusFile hP h

end Arinc615a.Target
