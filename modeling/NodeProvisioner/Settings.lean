import NodeProvisioner.Document
import NodeProvisioner.Fault
import NodeProvisioner.Patience

/-! Settings shared by the provisioner of nodes and the keeper of templates. -/
namespace NodeProvisioner

def minMachineId : UInt32 := 100

structure Settings where
  /-- Written into the tags of machines. -/
  clusterName : String := "kubernetes"
  /-- Machine ids are taken at or above this one. -/
  machineIdFloor : UInt32 := 1000
  /-- How long a fresh machine id is held back from other requests. -/
  recentIdSecs : UInt64 := 30
  /-- The bound on the wait for one task. -/
  taskTimeoutSecs : UInt64 := 300
  /-- The first delay between two looks at a task. -/
  taskPollSecs : UInt64 := 2
  inventorySyncSecs : UInt64 := 60
  tokenLifetimeSecs : UInt64 := 3600
  /-- The storage that receives bootstrap documents. -/
  isoStorage : String := "local"
  deriving DecidableEq, Inhabited

inductive SettingsError where
  | clusterNameEmpty
  | machineIdFloorLow
  | taskTimeoutZero
  | taskPollBeyondTimeout
  deriving DecidableEq

namespace SettingsError

def field : SettingsError → String
  | clusterNameEmpty => "clusterName"
  | machineIdFloorLow => "vmidFloor"
  | taskTimeoutZero => "taskTimeoutSecs"
  | taskPollBeyondTimeout => "taskPollIntervalSecs"

def message : SettingsError → String
  | clusterNameEmpty => "must not be empty"
  | machineIdFloorLow => "must be at least " ++ minMachineId.toNat.repr
  | taskTimeoutZero => "must be positive"
  | taskPollBeyondTimeout => "must not exceed taskTimeoutSecs"

def fault (e : SettingsError) : Fault := .invalidField "config" e.field e.message

end SettingsError

namespace Settings

def error? (s : Settings) : Option SettingsError :=
  if s.clusterName.isEmpty then some .clusterNameEmpty
  else if s.machineIdFloor < minMachineId then some .machineIdFloorLow
  else if s.taskTimeoutSecs = 0 then some .taskTimeoutZero
  else if s.taskTimeoutSecs < s.taskPollSecs then some .taskPollBeyondTimeout
  else none

def validate (s : Settings) : Except Fault Unit :=
  match s.error? with
  | none => .ok ()
  | some e => .error e.fault

def recentIdSpan (s : Settings) : Nat := s.recentIdSecs.toNat * Span.second

/-- How long tasks are waited for. A delay is at least a second, and grows to four times the
first one. -/
def taskPatience (s : Settings) : Patience :=
  let delay := max s.taskPollSecs.toNat 1 * Span.second
  { timeout := s.taskTimeoutSecs.toNat * Span.second, initial := delay, limit := delay * 4 }

def toDocument (s : Settings) : Document :=
  .record [("clusterName", .text s.clusterName), ("vmidFloor", .ofUInt32 s.machineIdFloor),
    ("vmidRecentTtlSecs", .ofUInt64 s.recentIdSecs),
    ("taskTimeoutSecs", .ofUInt64 s.taskTimeoutSecs),
    ("taskPollIntervalSecs", .ofUInt64 s.taskPollSecs),
    ("inventorySyncIntervalSecs", .ofUInt64 s.inventorySyncSecs),
    ("tokenTtlSecs", .ofUInt64 s.tokenLifetimeSecs), ("isoStorage", .text s.isoStorage)]

def ofDocument? (d : Document) : Option Settings := do
  let fs ← d.fields? ["clusterName", "vmidFloor", "vmidRecentTtlSecs", "taskTimeoutSecs",
    "taskPollIntervalSecs", "inventorySyncIntervalSecs", "tokenTtlSecs", "isoStorage"]
  let standard : Settings := {}
  return {
    clusterName := ← fs.withDefault "clusterName" standard.clusterName Document.text?
    machineIdFloor := ← fs.withDefault "vmidFloor" standard.machineIdFloor Document.uint32?
    recentIdSecs := ← fs.withDefault "vmidRecentTtlSecs" standard.recentIdSecs Document.uint64?
    taskTimeoutSecs := ←
      fs.withDefault "taskTimeoutSecs" standard.taskTimeoutSecs Document.uint64?
    taskPollSecs := ← fs.withDefault "taskPollIntervalSecs" standard.taskPollSecs Document.uint64?
    inventorySyncSecs := ←
      fs.withDefault "inventorySyncIntervalSecs" standard.inventorySyncSecs Document.uint64?
    tokenLifetimeSecs := ←
      fs.withDefault "tokenTtlSecs" standard.tokenLifetimeSecs Document.uint64?
    isoStorage := ← fs.withDefault "isoStorage" standard.isoStorage Document.text? }

end Settings
end NodeProvisioner
