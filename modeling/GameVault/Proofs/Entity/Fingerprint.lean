import Mathlib
import GameVault.Proofs.Cbor.Injective
import GameVault.Proofs.Store.Reloads

namespace GameVault

open Value Cbor

namespace Fingerprint

theorem addressable_stablePart {doc : Value} (sized : doc.Addressable) : (stablePart doc).Addressable := by
  cases doc with
  | map entries =>
    obtain ⟨length, each⟩ := addressable_map.mp sized
    rw [stablePart_map]
    exact addressable_map.mpr ⟨lt_of_le_of_lt (List.length_filter_le _ _) length,
      fun p member => each p (List.mem_of_mem_filter member)⟩
  | _ => exact sized

/-- Fingerprints see content only, whatever hash of byte strings they take. Two documents the writer
accepts whose stable parts are equal up to the order of map pairs have one fingerprint; conversely,
where the hash tells their encodings apart, two documents of one fingerprint have stable parts equal
up to that order. -/
theorem fingerprint_sees_content (hash : List UInt8 → Nat) {d d' : Value} (encodable : d.Encodable)
    (encodable' : d'.Encodable) :
    (SameUpToOrder (stablePart d) (stablePart d') → ofHash hash d = ofHash hash d') ∧
      (d.Addressable → d'.Addressable → SeparatesBy hash d d' → ofHash hash d = ofHash hash d' →
        SameUpToOrder (stablePart d) (stablePart d')) := by
  have stable := encodable_stablePart encodable
  have stable' := encodable_stablePart encodable'
  rw [ofHash_eq_ok hash encodable, ofHash_eq_ok hash encodable']
  constructor
  · intro same
    rw [same.write_eq stable stable']
  · intro sized sized' separates fingerprinted
    have hashed : hash (write (stablePart d)).1 = hash (write (stablePart d')).1 :=
      Fingerprint.mk.inj (Except.ok.inj fingerprinted)
    have same := separates _ _ (encode_of_encodable stable) (encode_of_encodable stable') hashed
    exact (write_eq_iff_sameUpToOrder stable stable' (addressable_stablePart sized)
      (addressable_stablePart sized')).mp same

/-- Two role documents, one with its update stamp and the other with its update count, whose other
pairs come in other orders, fingerprinted by the store's hash. -/
theorem fingerprint_sees_content_of_roles :
    let d := Value.map [(.text "name", .text "a"), (.text "update_time", .int 5), (.text "level", .int 1)]
    let d' := Value.map [(.text "level", .int 1), (.text "update_count", .int 2), (.text "name", .text "a")]
    d.Encodable ∧ d'.Encodable ∧
      (SameUpToOrder (stablePart d) (stablePart d') → of d = of d') ∧
      (d.Addressable → d'.Addressable → Separates d d' → of d = of d' →
        SameUpToOrder (stablePart d) (stablePart d')) :=
  ⟨by decide, by decide, fingerprint_sees_content Xxh3.hash128 (by decide) (by decide)⟩

end Fingerprint

namespace Entity

theorem updateCount_fits {e : Entity} {change : ChangeSet} (checked : e.checkChanges = .ok change) :
    e.audit.updateCount.toNat ≤ Store.int64Max := by
  by_contra overflow
  rw [checkChanges_of_overflow (Nat.lt_of_not_le overflow)] at checked
  cases checked

theorem checkChanges_fingerprint {e : Entity} {change : ChangeSet} (checked : e.checkChanges = .ok change) :
    Fingerprint.of change.document = .ok change.fingerprint := by
  unfold checkChanges at checked
  obtain ⟨doc, -, rest⟩ := except_bind_eq_ok.mp checked
  obtain ⟨fingerprint, fingerprinted, rest⟩ := except_bind_eq_ok.mp rest
  cases rest
  exact fingerprinted

theorem checked_document {e : Entity} {change : ChangeSet} (checked : e.checkChanges = .ok change) :
    change.document = Value.ofPairs (e.audit.pairs ++ e.body.fields) := by
  have before := Store.Entity.checkChanges_document checked
  rw [document_eq (updateCount_fits checked)] at before
  injection before with before
  exact before.symm

theorem set_stamps_checked {e : Entity} {change : ChangeSet} (checked : e.checkChanges = .ok change)
    (stamp count : Int64) :
    ((change.document.set updateTimeField (.int stamp)).2.set updateCountField (.int count)).2 =
      .map ((sortEntries (e.audit.pairs ++ e.body.fields)).map (restamp stamp count)) := by
  rw [checked_document checked, Value.ofPairs, Value.set_stamps stamp count e.sorted_keys_nodup
    (mem_sorted_keys (by decide)) (mem_sorted_keys (by decide))]

end Entity

/-- The count an update writes: the stamped entity's update count, saturated at the largest signed
64-bit integer. -/
theorem writtenCount_eq {m : Audit} (stamp : Int64) (below : m.updateCount.toNat < Store.int64Max) :
    (if (m.markUpdated stamp).updateCount.toNat ≤ Store.int64Max then (m.markUpdated stamp).updateCount.toInt64
      else Int64.maxValue) = (m.updateCount + 1).toInt64 := by
  have counted : (m.markUpdated stamp).updateCount.toNat ≤ Store.int64Max := by
    simp only [Audit.markUpdated, UInt64.toNat_add, UInt64.toNat_one, Store.int64Max] at below ⊢
    omega
  rw [if_pos counted]
  rfl

/-- An update stamps in place what the stamped entity's document holds. For an entity whose change
check succeeds, the document an update sends (the checked document with the update stamp and the
saturated update count set in it) has the fingerprint the check took. While the update count is below
the largest signed 64-bit integer, it is the stamped entity's document, whose change check succeeds
with that fingerprint; at that count, the stamped entity's change check fails with an overflow. -/
theorem update_stamps_document_in_place {e : Entity} {change : ChangeSet} (checked : e.checkChanges = .ok change)
    (stamp : Int64) :
    let stamped : Entity := { e with audit := e.audit.markUpdated stamp }
    let written := ((change.document.set updateTimeField (.int stamp)).2.set updateCountField
      (.int (if stamped.audit.updateCount.toNat ≤ Store.int64Max then stamped.audit.updateCount.toInt64
        else Int64.maxValue))).2
    Fingerprint.of written = .ok change.fingerprint ∧
      (e.audit.updateCount.toNat < Store.int64Max →
        stamped.document = .ok written ∧
          stamped.checkChanges = .ok ⟨e.audit.baseline != some change.fingerprint, change.fingerprint, written⟩) ∧
      (e.audit.updateCount.toNat = Store.int64Max → stamped.checkChanges = .error .integerOverflow) := by
  intro stamped written
  have restamped : written = _ := e.set_stamps_checked checked stamp _
  have fingerprinted : Fingerprint.of written = .ok change.fingerprint := by
    rw [restamped, Fingerprint.of_restamped, ← e.checked_document checked]
    exact e.checkChanges_fingerprint checked
  refine ⟨fingerprinted, fun below => ?_, fun atMax => ?_⟩
  · have fits : (e.audit.updateCount + 1).toNat ≤ 9223372036854775807 := by
      rw [UInt64.toNat_add, UInt64.toNat_one]
      simp only [Store.int64Max] at below
      omega
    have documented : stamped.document = .ok written := by
      rw [Entity.document_markUpdated stamp fits, restamped, writtenCount_eq stamp below]
    exact ⟨documented, Entity.checkChanges_eq documented fingerprinted⟩
  · refine Entity.checkChanges_of_overflow ?_
    simp only [stamped, Audit.markUpdated, UInt64.toNat_add, UInt64.toNat_one]
    simp only [Store.int64Max] at atMax
    omega

/-- A role just built, updated at stamp 5. -/
theorem named_role_stamped_in_place :
    ∃ change, (Entity.namedRole 1 "a").checkChanges = .ok change ∧
      let stamped : Entity := { Entity.namedRole 1 "a" with audit := (Entity.namedRole 1 "a").audit.markUpdated 5 }
      let written := ((change.document.set updateTimeField (.int 5)).2.set updateCountField
        (.int (if stamped.audit.updateCount.toNat ≤ Store.int64Max then stamped.audit.updateCount.toInt64
          else Int64.maxValue))).2
      Fingerprint.of written = .ok change.fingerprint ∧
        ((Entity.namedRole 1 "a").audit.updateCount.toNat < Store.int64Max →
          stamped.document = .ok written ∧
            stamped.checkChanges =
              .ok ⟨(Entity.namedRole 1 "a").audit.baseline != some change.fingerprint, change.fingerprint, written⟩) ∧
        ((Entity.namedRole 1 "a").audit.updateCount.toNat = Store.int64Max →
          stamped.checkChanges = .error .integerOverflow) := by
  obtain ⟨change, checked, -, -⟩ := @Entity.checkChanges_ok (Entity.namedRole 1 "a") trivial (by decide)
  exact ⟨change, checked, update_stamps_document_in_place checked 5⟩

/-- A role whose update count is the largest signed 64-bit integer has a document and has changed,
but the role with an update stamped into it has none: its update count passes that integer. -/
theorem stamped_role_at_int64_max_undocumented :
    let e : Entity := { Entity.namedRole 1 "a" with audit := { id := 1, updateCount := 9223372036854775807 } }
    (∃ change, e.checkChanges = .ok change ∧ change.changed = true) ∧
      ({ e with audit := e.audit.markUpdated 5 } : Entity).checkChanges = .error .integerOverflow := by
  intro e
  have fits : e.audit.updateCount.toNat ≤ 9223372036854775807 := by decide
  have fingerprinted := Fingerprint.of_eq_ok (@Entity.document_encodable e trivial)
  refine ⟨⟨_, Entity.checkChanges_eq (Entity.document_eq fits) fingerprinted, rfl⟩, ?_⟩
  refine Entity.checkChanges_of_overflow ?_
  simp only [e, Audit.markUpdated]
  decide

end GameVault
