import Mathlib
import GameVault.Proofs.Store.Tracking

namespace GameVault

open Cbor

namespace Value

/-- Gives the pair keyed by `key` the value `x`. -/
def putKey (key : String) (x : Value) (p : Value × Value) : Value × Value :=
  if isKey key p.1 then (p.1, x) else p

@[simp] theorem putKey_fst (key : String) (x : Value) (p : Value × Value) : (putKey key x p).1 = p.1 := by
  unfold putKey
  split_ifs <;> rfl

end Value

namespace Cbor

/-- Two maps alike but for the integer under one key are written alike only when the integers are
equal: the pairs before the key are written alike, and the integer read after the key is the one
written. -/
theorem int_eq_of_write_putKey_eq {entries : List (Value × Value)} {key : String} {x y : Int64}
    (present : ∃ v, (Value.text key, v) ∈ entries)
    (encodableX : (Value.map (entries.map (Value.putKey key (.int x)))).Encodable)
    (encodableY : (Value.map (entries.map (Value.putKey key (.int y)))).Encodable)
    (same : (write (.map (entries.map (Value.putKey key (.int x))))).1 =
      (write (.map (entries.map (Value.putKey key (.int y))))).1) : x = y := by
  have sorts : ∀ z : Value, sortByEncodedKey (entries.map (Value.putKey key z)) =
      (sortByEncodedKey entries).map (Value.putKey key z) :=
    fun z => sortByEncodedKey_map _ fun p _ => by rw [Value.putKey_fst]
  rw [write_map_of_encodable encodableX, write_map_of_encodable encodableY, sorts, sorts] at same
  simp only [List.length_map] at same
  have tails := List.append_cancel_left same
  obtain ⟨p, first⟩ : ∃ p, (sortByEncodedKey entries).find? (fun p => Value.isKey key p.1) = some p := by
    obtain ⟨v, member⟩ := present
    apply Option.isSome_iff_exists.mp
    rw [List.find?_isSome]
    exact ⟨_, (List.mergeSort_perm _ _).mem_iff.mpr member, by simp [Value.isKey]⟩
  obtain ⟨keyed, before, after, split, others⟩ := List.find?_eq_some_iff_append.mp first
  have kept : ∀ z, before.map (Value.putKey key z) = before := fun z =>
    (List.map_congr_left fun q member => by simp [Value.putKey, (by simpa using others q member : Value.isKey key q.1 = false)]).trans (List.map_id _)
  rw [split, List.map_append, List.map_append, kept, kept, List.flatMap_append, List.flatMap_append] at tails
  have rest := List.append_cancel_left tails
  simp only [List.map_cons, List.flatMap_cons, Value.putKey, keyed, if_true, List.append_assoc] at rest
  have bytes := List.append_cancel_left rest
  have readX := readValue_write_int x ((after.map (Value.putKey key (.int x))).flatMap fun p => (write p.1).1 ++ (write p.2).1)
  have readY := readValue_write_int y ((after.map (Value.putKey key (.int y))).flatMap fun p => (write p.1).1 ++ (write p.2).1)
  rw [bytes] at readX
  have both := readX.1.symm.trans readY.1
  injection both with same
  injection same

end Cbor

theorem Body.role_pairs (m : Audit) (name : String) (level : UInt32) (gold : Int64) :
    m.pairs ++ (Body.role name level gold).fields =
      (m.pairs ++ (Body.role name 0 gold).fields).map (Value.putKey "level" (.int level.toUInt64.toInt64)) := by
  simp [Audit.pairs, Body.fields, Value.putKey, Value.isKey, Audit.idField, Audit.createTimeField,
    Audit.deleteTimeField, Audit.isDeletedField, updateTimeField, updateCountField]

theorem sortEntries_map_values {pairs : List (Value × Value)} (g : Value × Value → Value × Value)
    (sameKey : ∀ p, (g p).1 = p.1) : Value.sortEntries (pairs.map g) = (Value.sortEntries pairs).map g :=
  (List.map_mergeSort fun a _ b _ => by simp [sameKey]).symm

/-- The stable parts of a role's documents at two levels are written alike only at one level. -/
theorem level_eq_of_stable_encode_eq {m : Audit} {name : String} {gold : Int64} {l l' : UInt32}
    (same : encode (Fingerprint.stablePart (Value.ofPairs (m.pairs ++ (Body.role name l gold).fields))) =
      encode (Fingerprint.stablePart (Value.ofPairs (m.pairs ++ (Body.role name l' gold).fields)))) : l = l' := by
  let base := (Value.sortEntries (m.pairs ++ (Body.role name 0 gold).fields)).filter fun p => !Fingerprint.leftOut p.1
  have stable : ∀ level : UInt32, Fingerprint.stablePart (Value.ofPairs (m.pairs ++ (Body.role name level gold).fields)) =
      .map (base.map (Value.putKey "level" (.int level.toUInt64.toInt64))) := by
    intro level
    rw [Body.role_pairs, Value.ofPairs, sortEntries_map_values _ (Value.putKey_fst _ _), Fingerprint.stablePart_map,
      List.filter_map]
    simp only [Function.comp_def, Value.putKey_fst]
    rfl
  have encodable : ∀ level : UInt32,
      (Value.map (base.map (Value.putKey "level" (.int level.toUInt64.toInt64)))).Encodable := by
    intro level
    rw [← stable]
    exact Fingerprint.encodable_stablePart (Entity.document_encodable (e := ⟨m, .role name level gold, {}⟩) trivial)
  have present : ∃ v, (Value.text "level", v) ∈ base := by
    refine ⟨.int 0, List.mem_filter.mpr ⟨(List.mergeSort_perm _ _).mem_iff.mpr ?_, by decide⟩⟩
    simp [Body.fields]
  rw [stable, stable, encode_of_encodable (encodable l), encode_of_encodable (encodable l')] at same
  injection same with same
  have wide := int_eq_of_write_putKey_eq present (encodable l) (encodable l') same
  have bits := congrArg BitVec.toNat (congrArg Int64.toBitVec wide)
  simp only [UInt64.toBitVec_toInt64, UInt32.toBitVec_toUInt64, BitVec.toNat_setWidth, UInt32.toNat_toBitVec,
    Nat.reducePow, UInt32.toNat_mod_uInt64Size] at bits
  exact UInt32.toNat_inj.mp bits

/-- An entity whose role is at another level than the document it was saved as does not match
that document. -/
theorem Entity.not_sameContent_of_level {e : Entity} {name : String} {gold : Int64} {l l' : UInt32}
    (raised : e.body = .role name l' gold) (differ : l ≠ l')
    (fits : e.audit.updateCount.toNat ≤ 9223372036854775807) :
    ¬SameContent e (some (Value.ofPairs (e.audit.pairs ++ (Body.role name l gold).fields))) := by
  rintro ⟨doc, documented, same⟩
  rw [Entity.document_eq fits] at documented
  injection documented with documented
  subst documented
  rw [raised] at same
  exact differ (level_eq_of_stable_encode_eq same).symm

theorem Audit.pairs_restamped (m : Audit) (time : Int64) (count : UInt64) :
    { m with updateTime := time, updateCount := count }.pairs = m.pairs.map (restamp time count.toInt64) := by
  simp [Audit.pairs, restamp, Value.isKey, Audit.idField, Audit.createTimeField, Audit.deleteTimeField,
    Audit.isDeletedField, updateTimeField, updateCountField]

theorem stablePart_restamped (m : Audit) (time : Int64) (count : UInt64) (b : Body) :
    Fingerprint.stablePart (Value.ofPairs ({ m with updateTime := time, updateCount := count }.pairs ++ b.fields)) =
      Fingerprint.stablePart (Value.ofPairs (m.pairs ++ b.fields)) := by
  have restamped : { m with updateTime := time, updateCount := count }.pairs ++ b.fields =
      (m.pairs ++ b.fields).map (restamp time count.toInt64) := by
    rw [Audit.pairs_restamped, List.map_append, Body.fields_restamp]
  rw [restamped, Value.ofPairs, sortEntries_restamp, stablePart_restamp]
  rfl

theorem Fingerprint.separates_congr {x x' y y' : Value} (sameX : stablePart x = stablePart x')
    (sameY : stablePart y = stablePart y') : Separates x y ↔ Separates x' y' := by
  unfold Separates SeparatesBy
  rw [sameX, sameY]

end GameVault
