import Arinc615a.Reasoning.OrderedMap
import Arinc615a.Tftp
import Mathlib.Data.List.Lex

/-!
# Download information

`host/DownloadInformation.cpp`: what a host notes of a download, to be stored with the files.
-/

open Reasoning

namespace Arinc615a

open Tftp

/-- What the text of a status speaks of. -/
inductive OperationClass where
  | information
  | upload
  | download
  deriving DecidableEq, Repr

/-- `status` of `StatusCode.cpp` -/
def OperationClass.status (operationClass : OperationClass) (code : StatusCode)
    (description loadPartNumberOrFilename : Text) : Text :=
  let operation := match operationClass with
    | .information => text "Information"
    | .upload => text "Uploading"
    | .download => text "Downloading"
  match code with
  | .operationAccepted | .operationInProgress => []
  | .operationNotAccepted => operation ++ text " Operation Denied. " ++ description
  | .operationNotSupported =>
    operation ++ text " Operation not supported by the target. " ++ description
  | .operationCompleted => operation ++ text " Operation Completed."
  | .operationInProgressAdditionalInfo => description
  | .operationAbortedByTargetHw =>
    operation ++ text " Operation aborted by the Target Hardware. " ++ description
  | .operationAbortedByDlp =>
    operation ++ text " Operation aborted by the Data Loader. " ++ description
  | .operationAbortedByOperator => operation ++ text " Operation cancelled by the operator."
  | .loadPartNumberOrDownloadFileFailed =>
    loadPartNumberOrFilename ++ text " failed. " ++ description
  | .operationDeferred => operation ++ text " Operation deferred. " ++ description
  | .invalid => text "**INVALID**"

namespace Host

/-- A file that is transferred, with the times in seconds. -/
structure FileTransferInformation where
  start : Nat := 0
  /-- `end` -/
  ended : Nat := 0
  filePath : Text := []
  fileStatus : Text := []
  fileSize : Nat := 0
  partNumber : Text := []
  checkValue : CheckValue := {}
  deriving DecidableEq

/-- The order of the `std::string`s. -/
def textRank (filename : Text) : List Nat := filename.map UInt8.toNat

theorem textRank_injective : Function.Injective textRank :=
  List.map_injective_iff.mpr fun _ _ => UInt8.toNat_inj.mp

structure DownloadInformation where
  files : List Text := []
  filesInformation : OrderedMap textRank FileTransferInformation := .empty _ _
  ended : Nat := 0
  overallStatus : Text × Nat := ([], 0)

namespace DownloadInformation

def transferOk : Text := text "Transfer OK"

def transferError : Text := text "Transfer Error"

/-- `insert_or_assign` -/
def fileStart (information : DownloadInformation) (now : Nat) (filename filePath partNumber : Text)
    (checkValue : CheckValue) : DownloadInformation :=
  { information with
    filesInformation := information.filesInformation.alter filename fun _ =>
      { start := now, filePath, partNumber, checkValue } }

/-- `operator[]`, which makes an entry if there is none. -/
def fileFinished (information : DownloadInformation) (now : Nat) (filename status : Text)
    (fileSize : Nat) : DownloadInformation :=
  { information with
    filesInformation := information.filesInformation.alter filename fun fileInformation =>
      { fileInformation.getD {} with ended := now, fileStatus := status, fileSize } }

/-- The sizes are added up as `std::size_t`. -/
def overallSize (information : DownloadInformation) : Nat :=
  (information.filesInformation.entries.map fun fileStatus => fileStatus.2.fileSize).sum % 2 ^ 64

def finished (information : DownloadInformation) (now : Nat) (status : Text) :
    DownloadInformation :=
  { information with ended := now, overallStatus := (status, information.overallSize) }

end DownloadInformation

end Host

end Arinc615a
