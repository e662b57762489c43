import Arinc615a.Commands.Command
import Arinc615a.Host.DownloadInformation

/-!
# The handler functions of the commands

`UploadOperationCommand.cpp`, `UploadLoadsOperationCommand.cpp`, `AdhocUploadOperationCommand.cpp`,
`MediaDefinedDownloadOperationCommand.cpp` and `OperatorDefinedDownloadOperationCommand.cpp`.
-/

open Reasoning

namespace Arinc615a.Commands

open Files Information Tftp Host

/-- What the commands use of `std::filesystem` and of the names of files. -/
structure PathLibrary where
  /-- `operator/` -/
  append : Text → Text → Text
  lexicallyNormal : Text → Text
  isRegularFile : Text → Bool
  /-- `Helper::normaliseFilename` -/
  normaliseFilename : Text → Text

/-! ## Uploads -/

/-- What the upload commands use of a media set; `F` are its files, and `M` names media sets. -/
structure MediaLibrary (F M : Type) where
  /-- `Loads_file`, for the loads of the command with their check values. -/
  loadsFile : List UploadLoad → Text → Text → CheckValue → Option F
  mediaSet : F → M
  effectiveMediumNumber : F → Nat
  /-- `path`, without its root. -/
  relativePath : F → Text

section

variable {F M : Type} [BEq M] (paths : PathLibrary) (media : MediaLibrary F M)

/-- The beginning of `fileRequest`; both ways not to find a file are answered alike. -/
def uploadFilePath (realFilename : F → Option Text) (loads : List UploadLoad)
    (filename loadPartNumber : Text) (checkValue : CheckValue) : Option Text :=
  match media.loadsFile loads filename loadPartNumber checkValue with
  | none => none
  | some file =>
    match realFilename file with
    | none => none
    | some realFilename => if paths.isRegularFile realFilename then some realFilename else none

namespace UploadOperationCommand

/-- `managerPath` is `MediaSetManager::filePath`. -/
def filePath (managerPath : F → Text) : List UploadLoad → Text → Text → CheckValue → Option Text :=
  uploadFilePath paths media fun file => some (managerPath file)

end UploadOperationCommand

namespace UploadLoadsOperationCommand

def filePath (mediaSetPaths : List (M × Text)) :
    List UploadLoad → Text → Text → CheckValue → Option Text :=
  uploadFilePath paths media fun file =>
    (mediaSetPaths.lookup (media.mediaSet file)).map fun mediaSetPath =>
      paths.lexicallyNormal (paths.append mediaSetPath (media.relativePath file))

end UploadLoadsOperationCommand

namespace AdhocUploadOperationCommand

/-- The path of a file on a medium that is not there is empty. -/
def realFilename (mediaPaths : List (Nat × Text)) (file : F) : Text :=
  match mediaPaths.lookup (media.effectiveMediumNumber file) with
  | none => []
  | some mediumPath => paths.lexicallyNormal (paths.append mediumPath (media.relativePath file))

def filePath (mediaPaths : List (Nat × Text)) :
    List UploadLoad → Text → Text → CheckValue → Option Text :=
  uploadFilePath paths media fun file => some (realFilename paths media mediaPaths file)

end AdhocUploadOperationCommand

end

/-- The handler functions that the upload commands share; the member that changes is
`loadListTransmittedV`. -/
def uploadHandler (filePath : List UploadLoad → Text → Text → CheckValue → Option Text)
    (loads : List UploadLoad) : CommandHandler Bool where
  filePath := filePath loads
  called
    | _, loadListTransmitted, .uploadStatus status =>
      (loadListTransmitted,
        if status.code = .operationAccepted ∧ loadListTransmitted = false then
          .send (.loadList loads)
        else .nothing)
    | _, loadListTransmitted, _ => (loadListTransmitted, .nothing)
  sent _ := true
  fileStarted _ loadListTransmitted _ _ _ := loadListTransmitted
  -- a transfer that fails is ignored
  fileCompleted _ loadListTransmitted _ _ := loadListTransmitted

section

variable {F M : Type} [BEq M] (paths : PathLibrary) (media : MediaLibrary F M)

def UploadOperationCommand.handler (managerPath : F → Text) (loads : List UploadLoad) :
    CommandHandler Bool :=
  uploadHandler (UploadOperationCommand.filePath paths media managerPath) loads

def UploadLoadsOperationCommand.handler (mediaSetPaths : List (M × Text))
    (loads : List UploadLoad) : CommandHandler Bool :=
  uploadHandler (UploadLoadsOperationCommand.filePath paths media mediaSetPaths) loads

def AdhocUploadOperationCommand.handler (mediaPaths : List (Nat × Text))
    (loads : List UploadLoad) : CommandHandler Bool :=
  uploadHandler (AdhocUploadOperationCommand.filePath paths media mediaPaths) loads

end

/-! ## Downloads -/

/-- The path in `fileRequest`. -/
def downloadFilePath (paths : PathLibrary) (downloadDataPath filename : Text) : Text :=
  paths.append downloadDataPath (paths.normaliseFilename filename)

/-- What `finished` makes of the information. -/
def downloadFinished (now : Nat) (information : DownloadInformation) (code : StatusCode)
    (description : Text) : DownloadInformation :=
  information.finished now (OperationClass.download.status code description [])

def downloadFileStarted (now : Nat) (information : DownloadInformation) (operation : FileOperation)
    (partNumber : Text) (checkValue : CheckValue) : DownloadInformation :=
  information.fileStart now operation.filename operation.filePath partNumber checkValue

def downloadFileCompleted (now : Nat) (information : DownloadInformation)
    (operation : FileOperation) : FileResult → DownloadInformation
  | .failed =>
    information.fileFinished now operation.filename DownloadInformation.transferError 0
  | .transferred fileSize =>
    information.fileFinished now operation.filename DownloadInformation.transferOk fileSize
  | .sizeThrows => information

structure MediaDefinedDownloadMembers where
  listTransmitted : Bool := false
  downloadInformation : DownloadInformation := {}

def mediaDefinedDownloadHandler (paths : PathLibrary) (downloadDataPath : Text)
    (requestedFiles : List Text) (userDefinedData : Bytes) :
    CommandHandler MediaDefinedDownloadMembers where
  filePath filename _ _ := some (downloadFilePath paths downloadDataPath filename)
  called
    | _, members, .downloadStatus status =>
      if status.code = .operationAccepted ∧ members.listTransmitted = false then
        ({ members with
            downloadInformation := { members.downloadInformation with files := requestedFiles } },
          .send (.request requestedFiles userDefinedData))
      else (members, .nothing)
    | now, members, .finished code description =>
      ({ members with
          downloadInformation :=
            downloadFinished now members.downloadInformation code description },
        .nothing)
    | _, members, _ => (members, .nothing)
  sent members := { members with listTransmitted := true }
  fileStarted now members operation partNumber checkValue := { members with
    downloadInformation :=
      downloadFileStarted now members.downloadInformation operation partNumber checkValue }
  fileCompleted now members operation result := { members with
    downloadInformation :=
      downloadFileCompleted now members.downloadInformation operation result }

structure OperatorDefinedDownloadMembers where
  requestedFiles : List Text
  downloadInformation : DownloadInformation := {}

def operatorDefinedDownloadHandler (paths : PathLibrary) (downloadDataPath : Text)
    (downloadAll : Bool) : CommandHandler OperatorDefinedDownloadMembers where
  filePath filename _ _ := some (downloadFilePath paths downloadDataPath filename)
  called
    | _, members, .downloadingList files =>
      let requestedFiles :=
        if downloadAll then files.map (·.filename) else members.requestedFiles
      if requestedFiles = [] then ({ members with requestedFiles := [] }, .abort)
      else
        -- the names are moved out one by one, and an empty one is left of each
        ({ requestedFiles := requestedFiles.map fun _ => []
           downloadInformation := { members.downloadInformation with files := requestedFiles } },
          .send (.answer requestedFiles))
    | now, members, .finished code description =>
      ({ members with
          downloadInformation :=
            downloadFinished now members.downloadInformation code description },
        .nothing)
    | _, members, _ => (members, .nothing)
  sent members := members
  fileStarted now members operation partNumber checkValue := { members with
    downloadInformation :=
      downloadFileStarted now members.downloadInformation operation partNumber checkValue }
  fileCompleted now members operation result := { members with
    downloadInformation :=
      downloadFileCompleted now members.downloadInformation operation result }

end Arinc615a.Commands
