import Arinc615a.Exchange.Authenticity
import Arinc615a.Target.Numbering

/-!
# What the counter of a status says to the host

The network may deliver a status file late, twice and out of order.  The counter tells the statuses
apart, as long as it has not wrapped.
-/

open Reasoning

namespace Arinc615a.Exchange

open Files Information Tftp

/-- What is seen of the target. -/
def targetSeen (out : List NetworkObservation) : List Target.Observation :=
  out.filterMap fun
    | .target observation => some observation
    | _ => none

theorem targetSeen_append (out out' : List NetworkObservation) :
    targetSeen (out ++ out') = targetSeen out ++ targetSeen out' :=
  List.filterMap_append

theorem targetSeen_host (e : NetworkEvent) (out : List Host.Observation) :
    targetSeen (.event e :: out.map .host) = [] := by
  simp [targetSeen]

theorem targetSeen_target (e : NetworkEvent) (out : List Target.Observation) :
    targetSeen (.event e :: out.map .target) = out := by
  simp [targetSeen]

/-- The status that a call of the host hands to its handler. -/
def statusTold : Host.Output → Option Status
  | .informationStatus status => some status
  | .uploadStatus status => some status.toStatus
  | .downloadStatus status => some status.toStatus
  | _ => none

section

variable {lib : Library} {s s' : Network} {out : List NetworkObservation}

theorem Network.continues_step {e : NetworkEvent}
    (hstep : (networkSystem lib).step s e = some (s', out)) :
    Counts (· + 1) s.target.operation.counter (Target.countersSent (targetSeen out))
      s'.target.operation.counter := by
  rcases Network.step_cases lib hstep with ⟨_, seen, -, hsame, -, rfl⟩ |
    ⟨_, seen, hrun, -, -, rfl⟩
  · rw [targetSeen_host, hsame]
    exact .nil
  · rw [targetSeen_target]
    exact Target.World.continues_step hrun

theorem Network.numbered_run {events : List NetworkEvent}
    (hrun : (networkSystem lib).run s events = some (s', out)) :
    Counts (· + 1) s.target.operation.counter (Target.countersSent (targetSeen out))
      s'.target.operation.counter := by
  induction events generalizing s out with
  | nil =>
    cases hrun
    exact .nil
  | cons event events ih =>
    obtain ⟨s₁, out₁, out₂, hstep, hrest, rfl⟩ := (networkSystem lib).run_cons hrun
    rw [targetSeen_append, Target.countersSent_append]
    exact (continues_step hstep).append (ih hrest)

theorem mem_statusFilesSent {sent : Target.AnyStatus} (h : StatusSent out sent) :
    ∃ data, (sent, data) ∈ Target.statusFilesSent (targetSeen out) := by
  obtain ⟨remote, fileType, filename, data, checkValue, hmem⟩ := h
  exact ⟨data, List.mem_filterMap.mpr ⟨_, List.mem_filterMap.mpr ⟨_, hmem, rfl⟩, rfl⟩⟩

/-- A status that the handler is told is that of a status file, which gives the whole call. -/
theorem exists_statusSent {kind : OperationType} {o : Host.Output} {status : Status}
    (hauthentic : Authentic lib kind out (.host (.call o))) (htold : statusTold o = some status) :
    ∃ sent, StatusSent out sent ∧ sent.status.counter = status.counter ∧
      o = match sent with
        | .information sent => .informationStatus sent.cutAtNul
        | .upload sent => .uploadStatus sent.cutAtNul
        | .mediaDefinedDownload sent | .operatorDefinedDownload sent =>
          .downloadStatus sent.cutAtNul := by
  cases o with
  | informationStatus told =>
    cases htold
    obtain ⟨sent, hsent, rfl⟩ := hauthentic
    exact ⟨_, hsent, rfl, rfl⟩
  | uploadStatus told =>
    cases htold
    obtain ⟨sent, hsent, rfl⟩ := hauthentic
    exact ⟨_, hsent, rfl, rfl⟩
  | downloadStatus told =>
    cases htold
    obtain ⟨sent, hsent | hsent, rfl⟩ := hauthentic
    · exact ⟨_, hsent, rfl, rfl⟩
    · exact ⟨_, hsent, rfl, rfl⟩
  | _ => cases htold

end

section

variable {lib : Library} {kind targetKind : OperationType} {targetId targetId' : TargetId}
  {dlpTimeout rate : Nat} {portOption : Bool} {version : Arinc615aVersion} {port : UInt16}
  {events : List NetworkEvent} {after : Network} {seen : List NetworkObservation}

/-- Two statuses with the same counter are the same, as long as the target has not sent more status
files than there are counters. -/
theorem network_status_identified
    (hrun : (networkSystem lib).run (.created kind targetId dlpTimeout portOption
      (.ofOperation targetKind targetId' version rate port)) events = some (after, seen))
    (hfew : (Target.countersSent (targetSeen seen)).length ≤ 65536) {o o' : Host.Output}
    {status status' : Status} (ho : .host (.call o) ∈ seen) (ho' : .host (.call o') ∈ seen)
    (htold : statusTold o = some status) (htold' : statusTold o' = some status')
    (hcounter : status.counter = status'.counter) : o = o' := by
  have hauthentic : ∀ {o}, .host (.call o) ∈ seen → Authentic lib kind seen (.host (.call o)) := by
    intro o hmem
    obtain ⟨pre, post, hsplit⟩ := List.append_of_mem hmem
    exact hsplit ▸ lasting_authentic lib kind _ _ _
      (Network.authentic_run hrun pre _ post hsplit)
  have hzero : (Target.AnyStatus.ofKind targetKind).status.counter = 0 := by
    cases targetKind <;> rfl
  have hnodup : (Target.countersSent (targetSeen seen)).Nodup := by
    have hcounts := Network.numbered_run hrun
    rw [Network.created, Target.World.ofOperation, Target.Operation.counter, hzero] at hcounts
    exact hcounts.nodup hfew
  obtain ⟨sent, hsent, hsentCounter, rfl⟩ := exists_statusSent (hauthentic ho) htold
  obtain ⟨sent', hsent', hsentCounter', rfl⟩ := exists_statusSent (hauthentic ho') htold'
  obtain ⟨data, hfile⟩ := mem_statusFilesSent hsent
  obtain ⟨data', hfile'⟩ := mem_statusFilesSent hsent'
  -- no two status files have the same counter
  have hsame := List.inj_on_of_nodup_map hnodup hfile hfile'
    ((hsentCounter.trans hcounter).trans hsentCounter'.symm)
  cases hsame
  rfl

end

/-- A status file that is delivered twice. -/
theorem network_status_twice :
    let status : SentFile :=
      { filename := text "ABCD_1.LUS"
        data := [0, 0, 0, 20, 65, 52, 0, 1, 0, 0, 0, 0, 0, 0, 0, 32, 32, 48, 0, 0]
        checkValue := {} }
    let told : UploadStatus := { code := .operationAccepted }
    ∃ after seen,
      (networkSystem { raw := .bigEndian, generateCheckValue := fun _ _ => {} }).run
          (.created .upload (.ofText (text "ABCD_1")) 10 false
            (.ofOperation .upload (.ofText (text "ABCD_1")) .arinc615a34 1 59))
          [.host (.start .started), .target (.start ⟨1, 2⟩ none .started),
            .initialisationReceived [0, 0, 0, 9, 65, 52, 0, 1, 0],
            .target (.completed .initialisation .successful []),
            .target (.timerElapses .expired), .target (.timerHandler .expired),
            .requestArrives status ⟨1, 2⟩, .fileReceived (.status 0) status,
            .requestArrives status ⟨1, 2⟩, .fileReceived (.status 1) status] =
        some (after, seen) ∧
      ∀ o status, .host (.call o) ∈ seen → statusTold o = some status → status.counter = 0 →
        o = .uploadStatus told := by
  intro status told
  have hseen : ((networkSystem { raw := .bigEndian, generateCheckValue := fun _ _ => {} }).run
      (.created .upload (.ofText (text "ABCD_1")) 10 false
        (.ofOperation .upload (.ofText (text "ABCD_1")) .arinc615a34 1 59))
      [.host (.start .started), .target (.start ⟨1, 2⟩ none .started),
        .initialisationReceived [0, 0, 0, 9, 65, 52, 0, 1, 0],
        .target (.completed .initialisation .successful []),
        .target (.timerElapses .expired), .target (.timerHandler .expired),
        .requestArrives status ⟨1, 2⟩, .fileReceived (.status 0) status,
        .requestArrives status ⟨1, 2⟩, .fileReceived (.status 1) status]).map
      (fun r => decide ((Target.countersSent (targetSeen r.2)).length ≤ 65536 ∧
        .host (.call (.uploadStatus told)) ∈ r.2)) = some true := by
    decide +kernel
  obtain ⟨⟨after, seen⟩, hrun, hmem⟩ := Option.map_eq_some_iff.mp hseen
  obtain ⟨hfew, htold⟩ := of_decide_eq_true hmem
  exact ⟨after, seen, hrun, fun o status ho ho' hzero =>
    network_status_identified hrun hfew ho htold ho' rfl hzero⟩

end Arinc615a.Exchange
