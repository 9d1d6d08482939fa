import GameVault.Entity.Fingerprint

namespace GameVault

/-- Audit record of an entity. -/
structure Audit where
  id : Int64
  createTime : Int64 := 0
  updateTime : Int64 := 0
  deleteTime : Int64 := 0
  updateCount : UInt64 := 0
  isDeleted : Bool := false
  /-- Fingerprint of the content last saved or loaded, if any. -/
  baseline : Option Fingerprint := none
  deriving Inhabited

namespace Audit

def idField : String := "id"
def createTimeField : String := "create_time"
def deleteTimeField : String := "delete_time"
def isDeletedField : String := "is_deleted"

/-- Whether two records agree on id, stamps, count and mark; the baseline is not compared. -/
def sameRecord (a b : Audit) : Bool :=
  a.id == b.id && a.createTime == b.createTime && a.updateTime == b.updateTime &&
    a.deleteTime == b.deleteTime && a.updateCount == b.updateCount && a.isDeleted == b.isDeleted

/-- One more, except at the largest 64-bit integer. -/
def successor (t : Int64) : Int64 := if t = Int64.maxValue then t else t + 1

/-- The stamp for a creation: the latest of the clock and every stamp set. -/
def nextStamp (m : Audit) (now : Int64) : Int64 :=
  max (max (max now m.createTime) m.updateTime) m.deleteTime

/-- The stamp for an update: also after the creation and the last update. -/
def nextUpdateStamp (m : Audit) (now : Int64) : Int64 :=
  max (m.nextStamp now) (successor (max m.createTime m.updateTime))

/-- The stamp for a deletion: also after the last deletion. -/
def nextDeleteStamp (m : Audit) (now : Int64) : Int64 :=
  max (m.nextStamp now) (successor m.deleteTime)

def markCreated (m : Audit) (stamp : Int64) : Audit := { m with createTime := stamp }

def markUpdated (m : Audit) (stamp : Int64) : Audit :=
  { m with updateTime := stamp, updateCount := m.updateCount + 1 }

/-- Stamps a deletion and marks the entity deleted. -/
def markDeleted (m : Audit) (stamp : Int64) : Audit := { m with deleteTime := stamp, isDeleted := true }

/-- The fields of the record as stored; the update count must fit a signed 64-bit integer. -/
def fields (m : Audit) : Except CodecError (List (Value × Value)) :=
  if m.updateCount.toNat ≤ 9223372036854775807 then
    .ok [(.text idField, .int m.id), (.text createTimeField, .int m.createTime),
      (.text updateTimeField, .int m.updateTime), (.text deleteTimeField, .int m.deleteTime),
      (.text updateCountField, .int m.updateCount.toInt64), (.text isDeletedField, .bool m.isDeleted)]
  else .error .integerOverflow

end Audit

end GameVault
