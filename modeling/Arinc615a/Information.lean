import Arinc615a.Basic

/-!
# Information carried by the protocol files

The classes of `Arinc615a::Information`.  A ratio carries the bound its constructor checks.
-/

namespace Arinc615a.Information

structure Ratio where
  value : Nat
  value_le : value ≤ 100
  deriving DecidableEq, Repr

namespace Ratio

def zero : Ratio := ⟨0, by decide⟩

instance : Inhabited Ratio := ⟨zero⟩

/-- The checking constructor. -/
def ofNat (ratio : Nat) : Except Arinc615aException Ratio :=
  if h : ratio ≤ 100 then .ok ⟨ratio, h⟩ else .error ⟨"Ratio  out of range"⟩

end Ratio

structure InitializationResponse where
  code : OperationAcceptanceStatusCode := .operationAccepted
  description : Text := []
  deriving DecidableEq, Repr

structure Status where
  counter : UInt16 := 0
  exceptionTimer : UInt16 := 0
  estimatedTime : Int16 := 0
  code : StatusCode := .invalid
  description : Text := []
  deriving DecidableEq

namespace Status

def incrementCounter (status : Status) : Status := { status with counter := status.counter + 1 }

/-- Setting the code alone drops the description. -/
def setCode (status : Status) (code : StatusCode) : Status :=
  { status with code := code, description := [] }

def set (status : Status) (code : StatusCode) (description : Text) : Status :=
  { status with code := code, description := description }

@[simp] theorem incrementCounter_code (status : Status) :
    status.incrementCounter.code = status.code := rfl

@[simp] theorem incrementCounter_description (status : Status) :
    status.incrementCounter.description = status.description := rfl

@[simp] theorem setCode_code (status : Status) (code : StatusCode) :
    (status.setCode code).code = code := rfl

@[simp] theorem set_code (status : Status) (code : StatusCode) (description : Text) :
    (status.set code description).code = code := rfl

end Status

abbrev InformationStatus := Status

structure UploadLoad where
  headerFilename : Text
  partNumber : Text
  deriving DecidableEq, Repr

structure UploadLoadStatus where
  headerFilename : Text := []
  partNumber : Text := []
  ratio : Ratio := .zero
  code : StatusCode := .invalid
  description : Text := []
  deriving DecidableEq

def UploadLoadStatus.set (load : UploadLoadStatus) (ratio : Ratio) (code : StatusCode)
    (description : Text) : UploadLoadStatus :=
  { load with ratio := ratio, code := code, description := description }

structure UploadStatus extends Status where
  listRatio : Ratio := .zero
  loads : List UploadLoadStatus := []
  deriving DecidableEq

structure DownloadFileInformation where
  filename : Text
  description : Text
  deriving DecidableEq, Repr

structure DownloadFileStatus where
  filename : Text := []
  code : StatusCode := .invalid
  description : Text := []
  deriving DecidableEq

def DownloadFileStatus.set (file : DownloadFileStatus) (code : StatusCode)
    (description : Text) : DownloadFileStatus :=
  { file with code := code, description := description }

structure DownloadStatus extends Status where
  listRatio : Ratio := .zero
  files : List DownloadFileStatus := []
  deriving DecidableEq

/-- Updates the first element that satisfies `p`; a new element goes to the end. -/
def updateFirst {α : Type} (p : α → Bool) (new : α) (f : α → α) : List α → List α
  | [] => [f new]
  | a :: as => if p a then f a :: as else a :: updateFirst p new f as

/-- `load( headerFilename )` looks up the load, adds it when it is missing, and returns a
reference; `f` is what the caller does with the reference. -/
def UploadStatus.load (status : UploadStatus) (headerFilename : Text)
    (f : UploadLoadStatus → UploadLoadStatus) : UploadStatus :=
  { status with
    loads := updateFirst (fun load => load.headerFilename == headerFilename)
      { headerFilename := headerFilename } f status.loads }

def DownloadStatus.file (status : DownloadStatus) (filename : Text)
    (f : DownloadFileStatus → DownloadFileStatus) : DownloadStatus :=
  { status with
    files := updateFirst (fun file => file.filename == filename)
      { filename := filename } f status.files }

structure PartNumber where
  partNumber : Text
  amendment : Text
  partDesignation : Text
  deriving DecidableEq, Repr

structure TargetHardware where
  literalName : Text
  serialNumber : Text
  partNumbers : List PartNumber
  deriving DecidableEq, Repr

end Arinc615a.Information
