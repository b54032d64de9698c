import NodeProvisioner.Machine.Config

/-! Reservations of capacity. What is granted for a machine has to be given back by a descriptor
that is equal to it or compatible with it. -/
namespace NodeProvisioner

structure Reservation where
  machine : MachineId := 0
  cpus : UInt32 := 0
  memoryMib : UInt64 := 0
  /-- The size of the boot disk. -/
  diskGib : UInt64 := 0
  /-- The storage behind the boot disk. -/
  storageId : Option String := none
  /-- Pinning to host processors is wanted. -/
  numa : Bool := false
  /-- The host processors that were granted. -/
  cpuSet : Option CpuSet := none
  deriving DecidableEq, Inhabited

namespace Reservation

def ofCapacity (machine : MachineId) (capacity : Quantities) (diskGib : UInt64) : Reservation where
  machine := machine
  cpus := capacity.vcpus
  memoryMib := capacity.memoryMib
  diskGib := diskGib

def ofMachine (id : MachineId) (m : Machine) : Reservation :=
  let boot := m.bootDisk?.map (·.2)
  { machine := id
    cpus := m.vcpus
    memoryMib := m.memoryMib.getD 0
    diskGib := (boot.bind Disk.sizeGib?).getD 0
    storageId := boot.bind Disk.storageId?
    numa := m.numa || m.affinity.isSome
    cpuSet := m.affinity }

/-- Giving `b` back undoes the grant of `a`. -/
def isCompatible (a b : Reservation) : Bool :=
  a.machine == b.machine && a.cpus == b.cpus && a.memoryMib == b.memoryMib &&
    a.diskGib ≤ b.diskGib

end Reservation
end NodeProvisioner
