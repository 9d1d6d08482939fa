import Mathlib
import GameVault.Proofs.Database.Collection
import GameVault.Entity.Mutation
import GameVault.Entity.Change

namespace GameVault

open Value Cbor

namespace Cbor

theorem int_eq_of_write_eq {a b : Int64} (same : (write (.int a)).1 = (write (.int b)).1) : a = b := by
  have first := (readValue_write_int a []).1
  have second := (readValue_write_int b []).1
  rw [same, second] at first
  injection first with first
  injection first with first
  exact first.symm

theorem int32_eq_of_write_eq {a b : Int32} (same : (write (.int a.toInt64)).1 = (write (.int b.toInt64)).1) :
    a = b := by
  have wide := congrArg Int64.toInt (int_eq_of_write_eq same)
  rw [Int32.toInt_toInt64, Int32.toInt_toInt64] at wide
  exact Int32.toInt_inj.mp wide

theorem nodup_write_texts {names : List String} (distinct : names.Nodup)
    (short : ∀ s ∈ names, s.utf8ByteSize < 24) : (names.map fun s => (write (.text s)).1).Nodup := by
  refine distinct.map_on fun s _ t member same => ?_
  have eq := eq_text_of_write_eq (show (Value.text s).Encodable from rfl) (short t member) same
  injection eq

end Cbor

namespace Value

theorem isKey_iff {key : String} {k : Value} : isKey key k = true ↔ k = .text key := by
  cases k <;> simp [isKey]

theorem lookup_of_mem {key : String} {entries : List (Value × Value)} {x : Value}
    (distinct : (entries.map (·.1)).Nodup) (member : (.text key, x) ∈ entries) : lookup key entries = some x :=
  lookup_eq_some_of_unique ⟨_, member, isKey_iff.mpr rfl⟩ fun _ other keyed =>
    congrArg Prod.snd (List.inj_on_of_nodup_map distinct other member (isKey_iff.mp keyed))

end Value

namespace Body

/-- A bag holds each item once; nothing else constrains a body. -/
def WellFormed : Body → Prop
  | .bag items => (items.map (·.1)).Nodup
  | _ => True

theorem fields_keys (b : Body) : b.fields.map (·.1) = b.kind.ownFields.map .text := by
  cases b <;> rfl

end Body

namespace Schema

theorem mem_keys_putCount {k x : Int32} {n : UInt32} {items : List (Int32 × UInt32)}
    (member : x ∈ (putCount k n items).map (·.1)) : x = k ∨ x ∈ items.map (·.1) := by
  induction items with
  | nil => simpa [putCount] using member
  | cons p rest ih =>
    obtain ⟨k', n'⟩ := p
    by_cases same : k' = k
    · simp only [putCount, same, if_true, List.map_cons, List.mem_cons] at member
      rcases member with rfl | member
      · exact .inl rfl
      · exact .inr (by simp [member])
    · simp only [putCount, same, if_false, List.map_cons, List.mem_cons] at member
      rcases member with rfl | member
      · exact .inr (by simp)
      · rcases ih member with rfl | old
        · exact .inl rfl
        · exact .inr (by simp [old])

theorem nodup_keys_putCount (k : Int32) (n : UInt32) {items : List (Int32 × UInt32)}
    (distinct : (items.map (·.1)).Nodup) : ((putCount k n items).map (·.1)).Nodup := by
  induction items with
  | nil => simp [putCount]
  | cons p rest ih =>
    obtain ⟨k', n'⟩ := p
    simp only [List.map_cons, List.nodup_cons] at distinct
    by_cases same : k' = k
    · simpa [putCount, same] using distinct
    · simp only [putCount, same, if_false, List.map_cons, List.nodup_cons]
      refine ⟨fun member => ?_, ih distinct.2⟩
      rcases mem_keys_putCount member with rfl | old
      · exact same rfl
      · exact distinct.1 old

end Schema

namespace Mutation

theorem wellFormed_applyBody {m : Mutation} {b b' : Body} {a : Applied} (wf : b.WellFormed)
    (applied : m.applyBody b = .ok (a, b')) : b'.WellFormed := by
  cases b' with
  | bag items' =>
    cases m <;> cases b <;> simp only [applyBody, reduceCtorEq, Except.ok.injEq, Prod.mk.injEq, Body.bag.injEq,
      and_false] at applied
    case touch.bag items =>
      rw [← applied.2]
      exact wf
    case put.bag item count items =>
      split at applied
      · simp only [Except.ok.injEq, Prod.mk.injEq, Body.bag.injEq] at applied
        rw [← applied.2]
        exact Schema.nodup_keys_putCount _ _ wf
      · cases applied
    case removeItem.bag item items =>
      rw [← applied.2]
      exact List.Nodup.sublist (List.Sublist.map Prod.fst List.filter_sublist) wf
    case clear.bag items =>
      rw [← applied.2]
      exact List.nodup_nil
    case earn.role =>
      split at applied <;> cases applied
  | _ => trivial

/-- A change of an entity keeps its baseline and its update count, and keeps a bag holding each
item once. -/
theorem apply_keeps {m : Mutation} {e e' : Entity} {a : Applied} (applied : m.apply e = .ok (a, e'))
    (wf : e.body.WellFormed) :
    e'.audit.baseline = e.audit.baseline ∧ e'.audit.updateCount = e.audit.updateCount ∧ e'.body.WellFormed := by
  cases m
  case setId id =>
    obtain ⟨-, rfl⟩ := Prod.mk.inj (Except.ok.inj applied)
    exact ⟨rfl, rfl, wf⟩
  all_goals
    obtain ⟨⟨a₀, body⟩, changed, rest⟩ := except_bind_eq_ok.mp applied
    obtain ⟨-, rfl⟩ := Prod.mk.inj (Except.ok.inj rest)
    exact ⟨rfl, rfl, wellFormed_applyBody wf changed⟩

end Mutation

namespace Audit

/-- The pairs a record is stored as. -/
def pairs (m : Audit) : List (Value × Value) :=
  [(.text idField, .int m.id), (.text createTimeField, .int m.createTime),
    (.text updateTimeField, .int m.updateTime), (.text deleteTimeField, .int m.deleteTime),
    (.text updateCountField, .int m.updateCount.toInt64), (.text isDeletedField, .bool m.isDeleted)]

theorem fields_eq (m : Audit) :
    m.fields = if m.updateCount.toNat ≤ 9223372036854775807 then .ok m.pairs else .error .integerOverflow :=
  rfl

theorem pairs_keys (m : Audit) : m.pairs.map (·.1) = Schema.auditFields.map .text := rfl

end Audit

namespace Entity

theorem document_eq {e : Entity} (fits : e.audit.updateCount.toNat ≤ 9223372036854775807) :
    e.document = .ok (Value.ofPairs (e.audit.pairs ++ e.body.fields)) := by
  simp [document, Audit.fields_eq, fits, bind, Except.bind, pure, Except.pure]

theorem document_of_overflow {e : Entity} (overflow : 9223372036854775807 < e.audit.updateCount.toNat) :
    e.document = .error .integerOverflow := by
  simp [document, Audit.fields_eq, Nat.not_le.mpr overflow, bind, Except.bind]

theorem document_attach (e : Entity) (baseline : Option Fingerprint) :
    (e.attach baseline).document = e.document := rfl

theorem document_afterSave (e : Entity) : e.afterSave.document = e.document := by
  unfold afterSave
  split <;> rfl

theorem document_markSaved (e : Entity) (fingerprint : Fingerprint) :
    (e.markSaved fingerprint).document = e.document := by
  rw [markSaved, document_afterSave, document_attach]

end Entity

theorem Kind.documentKeys_nodup (k : Kind) : (Schema.auditFields ++ k.ownFields).Nodup := by
  cases k <;> decide

theorem Kind.documentKeys_short (k : Kind) : ∀ s ∈ Schema.auditFields ++ k.ownFields, s.utf8ByteSize < 24 := by
  cases k <;> decide

namespace Entity

theorem pairs_keys (e : Entity) :
    (e.audit.pairs ++ e.body.fields).map (·.1) = (Schema.auditFields ++ e.kind.ownFields).map .text := by
  rw [List.map_append, Audit.pairs_keys, Body.fields_keys, List.map_append]
  rfl

theorem encodable_ofPairs {pairs : List (Value × Value)}
    (distinct : (pairs.map fun p => (write p.1).1).Nodup) (each : ∀ p ∈ pairs, p.1.Encodable ∧ p.2.Encodable) :
    (Value.ofPairs pairs).Encodable := by
  have perm := List.mergeSort_perm pairs fun a b => canonicalCmp a.1 b.1 != .gt
  refine encodable_map.mpr ⟨(perm.map _).nodup_iff.mpr distinct, fun p member => each p ?_⟩
  exact perm.mem_iff.mp member

theorem encodable_body_fields {b : Body} (wf : b.WellFormed) : ∀ p ∈ b.fields, p.1.Encodable ∧ p.2.Encodable := by
  intro p member
  cases b with
  | bag items =>
    have distinct : (items.map (·.1)).Nodup := wf
    rw [Body.fields, List.mem_singleton] at member
    subst member
    refine ⟨rfl, encodable_ofPairs ?_ ?_⟩
    · have keys : ((items.map (·.1)).map fun k => (write (.int k.toInt64)).1).Nodup :=
        distinct.map_on fun _ _ _ _ same => int32_eq_of_write_eq same
      simpa [List.map_map, Function.comp_def] using keys
    · simp only [List.mem_map]
      rintro p ⟨⟨k, n⟩, -, rfl⟩
      exact ⟨rfl, rfl⟩
  | role name level gold =>
    simp only [Body.fields, List.mem_cons, List.not_mem_nil, or_false] at member
    rcases member with rfl | rfl | rfl <;> exact ⟨rfl, rfl⟩
  | pet owner species level =>
    simp only [Body.fields, List.mem_cons, List.not_mem_nil, or_false] at member
    rcases member with rfl | rfl | rfl <;> exact ⟨rfl, rfl⟩
  | impostor name =>
    simp only [Body.fields, List.mem_singleton] at member
    subst member
    exact ⟨rfl, rfl⟩
  | nameless => simp [Body.fields] at member

/-- The document of a well-formed entity whose update count fits has a canonical encoding. -/
theorem document_encodable {e : Entity} (wf : e.body.WellFormed) :
    (Value.ofPairs (e.audit.pairs ++ e.body.fields)).Encodable := by
  refine encodable_ofPairs ?_ ?_
  · have keys := nodup_write_texts e.kind.documentKeys_nodup e.kind.documentKeys_short
    have renamed := congrArg (List.map fun k => (write k).1) e.pairs_keys
    simp only [List.map_map, Function.comp_def] at renamed
    exact renamed ▸ keys
  · intro p member
    rcases List.mem_append.mp member with audit | own
    · simp only [Audit.pairs, List.mem_cons, List.not_mem_nil, or_false] at audit
      rcases audit with rfl | rfl | rfl | rfl | rfl | rfl <;> exact ⟨rfl, rfl⟩
    · exact encodable_body_fields wf p own

theorem sorted_keys_perm (e : Entity) :
    ((sortEntries (e.audit.pairs ++ e.body.fields)).map (·.1)).Perm
      ((Schema.auditFields ++ e.kind.ownFields).map .text) := by
  rw [← e.pairs_keys]
  exact (List.mergeSort_perm _ _).map _

theorem sorted_keys_nodup (e : Entity) : ((sortEntries (e.audit.pairs ++ e.body.fields)).map (·.1)).Nodup :=
  e.sorted_keys_perm.nodup_iff.mpr (e.kind.documentKeys_nodup.map fun _ _ same => Value.text.inj same)

theorem mem_sorted_keys {e : Entity} {name : String} (audit : name ∈ Schema.auditFields) :
    Value.text name ∈ (sortEntries (e.audit.pairs ++ e.body.fields)).map (·.1) :=
  e.sorted_keys_perm.mem_iff.mpr (List.mem_map_of_mem (List.mem_append_left _ audit))

theorem document_id (e : Entity) :
    (Value.ofPairs (e.audit.pairs ++ e.body.fields)).get? Database.idField = some (.int e.id) :=
  lookup_of_mem e.sorted_keys_nodup ((List.mergeSort_perm _ _).mem_iff.mpr (List.mem_append_left _ (List.mem_cons_self ..)))

end Entity

namespace Fingerprint

/-- Whether the fingerprint leaves a top-level key out. -/
def leftOut (k : Value) : Bool := isKey updateTimeField k || isKey updateCountField k

theorem stablePart_map (entries : List (Value × Value)) :
    stablePart (.map entries) = .map (entries.filter fun p => !leftOut p.1) := rfl

theorem ofHash_eq (hash : List UInt8 → Nat) (doc : Value) :
    ofHash hash doc = (Cbor.encode (stablePart doc)).map fun bytes => ⟨hash bytes⟩ := by
  unfold ofHash
  cases Cbor.encode (stablePart doc) <;> rfl

theorem of_eq (doc : Value) :
    of doc = (Cbor.encode (stablePart doc)).map fun bytes => ⟨Xxh3.hash128 bytes⟩ :=
  ofHash_eq Xxh3.hash128 doc

theorem encodable_stablePart {doc : Value} (encodable : doc.Encodable) : (stablePart doc).Encodable := by
  cases doc with
  | map entries =>
    obtain ⟨distinct, each⟩ := encodable_map.mp encodable
    rw [stablePart_map]
    exact encodable_map.mpr ⟨List.Nodup.sublist (List.Sublist.map _ List.filter_sublist) distinct,
      fun p member => each p (List.mem_of_mem_filter member)⟩
  | _ => exact encodable

theorem ofHash_eq_ok (hash : List UInt8 → Nat) {doc : Value} (encodable : doc.Encodable) :
    ofHash hash doc = .ok ⟨hash (write (stablePart doc)).1⟩ := by
  rw [ofHash_eq, encode_of_encodable (encodable_stablePart encodable)]
  rfl

theorem of_eq_ok {doc : Value} (encodable : doc.Encodable) :
    of doc = .ok ⟨Xxh3.hash128 (write (stablePart doc)).1⟩ :=
  ofHash_eq_ok Xxh3.hash128 encodable

end Fingerprint

/-- Gives the pairs keyed by the update stamp and by the update count new values. -/
def restamp (time count : Int64) (p : Value × Value) : Value × Value :=
  if isKey updateTimeField p.1 then (p.1, .int time)
  else if isKey updateCountField p.1 then (p.1, .int count)
  else p

@[simp] theorem restamp_fst (time count : Int64) (p : Value × Value) : (restamp time count p).1 = p.1 := by
  unfold restamp
  split_ifs <;> rfl

/-- Restamping changes nothing the fingerprint sees. -/
theorem stablePart_restamp (time count : Int64) (entries : List (Value × Value)) :
    Fingerprint.stablePart (.map (entries.map (restamp time count))) = Fingerprint.stablePart (.map entries) := by
  rw [Fingerprint.stablePart_map, Fingerprint.stablePart_map, List.filter_map]
  simp only [Function.comp_def, restamp_fst]
  congr 1
  refine (List.map_congr_left fun p member => ?_).trans (List.map_id _)
  have kept := (List.mem_filter.mp member).2
  simp only [Fingerprint.leftOut, Bool.not_or, Bool.and_eq_true, Bool.not_eq_true'] at kept
  simp [restamp, kept.1, kept.2]

theorem sortEntries_restamp (time count : Int64) (pairs : List (Value × Value)) :
    sortEntries (pairs.map (restamp time count)) = (sortEntries pairs).map (restamp time count) :=
  (List.map_mergeSort fun a _ b _ => by simp).symm

theorem Audit.pairs_markUpdated (m : Audit) (stamp : Int64) :
    (m.markUpdated stamp).pairs = m.pairs.map (restamp stamp (m.updateCount + 1).toInt64) := by
  simp [Audit.pairs, Audit.markUpdated, restamp, isKey, Audit.idField, Audit.createTimeField,
    Audit.deleteTimeField, Audit.isDeletedField, updateTimeField, updateCountField]

theorem Body.fields_restamp (b : Body) (time count : Int64) : b.fields.map (restamp time count) = b.fields := by
  cases b <;> simp [Body.fields, restamp, isKey, updateTimeField, updateCountField]

/-- The document of an entity with an update stamped into it: the document before, restamped. -/
theorem Entity.document_markUpdated {e : Entity} (stamp : Int64)
    (fits : (e.audit.updateCount + 1).toNat ≤ 9223372036854775807) :
    ({ e with audit := e.audit.markUpdated stamp } : Entity).document =
      .ok (.map ((sortEntries (e.audit.pairs ++ e.body.fields)).map
        (restamp stamp (e.audit.updateCount + 1).toInt64))) := by
  rw [Entity.document_eq fits]
  simp only [Audit.pairs_markUpdated, Value.ofPairs]
  rw [← sortEntries_restamp, List.map_append, Body.fields_restamp]

namespace Value

/-- Where a key occurs once, replacing its first pair replaces its only pair. -/
theorem replaceFirst_of_once {key : String} {x : Value} {entries : List (Value × Value)}
    (distinct : (entries.map (·.1)).Nodup) (present : Value.text key ∈ entries.map (·.1)) :
    ∃ old, replaceFirst key x entries = some (old, entries.map fun p => if isKey key p.1 then (p.1, x) else p) := by
  induction entries with
  | nil => simp at present
  | cons p rest ih =>
    obtain ⟨k, v⟩ := p
    rw [List.map_cons, List.nodup_cons] at distinct
    by_cases keyed : isKey key k
    · have unkeyed : ∀ q ∈ rest, isKey key q.1 = false := by
        intro q member
        refine Bool.eq_false_iff.mpr fun qKeyed => distinct.1 ?_
        show k ∈ _
        rw [(isKey_iff.mp keyed).trans (isKey_iff.mp qKeyed).symm]
        exact List.mem_map_of_mem member
      have same : rest.map (fun q => if isKey key q.1 then (q.1, x) else q) = rest := by
        refine (List.map_congr_left fun q member => ?_).trans (List.map_id _)
        simp [unkeyed q member]
      exact ⟨v, by simp [replaceFirst, keyed, same]⟩
    · have later : Value.text key ∈ rest.map (·.1) := by
        rcases List.mem_cons.mp present with here | later
        · exact absurd (isKey_iff.mpr here.symm) keyed
        · exact later
      obtain ⟨old, replaced⟩ := ih distinct.2 later
      exact ⟨old, by simp [replaceFirst, keyed, replaced]⟩

/-- Setting the update stamp and then the update count of a map holding each key once restamps it. -/
theorem set_stamps {entries : List (Value × Value)} (time count : Int64) (distinct : (entries.map (·.1)).Nodup)
    (hasTime : Value.text updateTimeField ∈ entries.map (·.1))
    (hasCount : Value.text updateCountField ∈ entries.map (·.1)) :
    (((Value.map entries).set updateTimeField (.int time)).2.set updateCountField (.int count)).2 =
      .map (entries.map (restamp time count)) := by
  obtain ⟨_, timed⟩ := replaceFirst_of_once (x := .int time) distinct hasTime
  have sameKeys : ((entries.map fun p => if isKey updateTimeField p.1 then (p.1, Value.int time) else p).map (·.1)) =
      entries.map (·.1) := by
    rw [List.map_map]
    exact List.map_congr_left fun p _ => by dsimp only [Function.comp_def]; split <;> rfl
  obtain ⟨_, counted⟩ := replaceFirst_of_once (x := .int count) (sameKeys ▸ distinct) (sameKeys ▸ hasCount)
  simp only [set, timed, counted, List.map_map]
  congr 1
  refine List.map_congr_left fun p _ => ?_
  by_cases atTime : isKey updateTimeField p.1
  · have notCount : isKey updateCountField p.1 = false := by
      rw [isKey_iff.mp atTime]
      decide
    simp [restamp, atTime, notCount]
  · simp [restamp, atTime]

end Value

namespace Schema

theorem nodup_countsFrom {acc items : List (Int32 × UInt32)} {entries : List (Value × Value)}
    (distinct : (acc.map (·.1)).Nodup) (read : countsFrom acc entries = .ok items) :
    (items.map (·.1)).Nodup := by
  induction entries generalizing acc with
  | nil =>
    injection read with read
    exact read ▸ distinct
  | cons p rest ih =>
    obtain ⟨k, v⟩ := p
    obtain ⟨key, -, read⟩ := except_bind_eq_ok.mp read
    obtain ⟨count, -, read⟩ := except_bind_eq_ok.mp read
    exact ih (nodup_keys_putCount key count distinct) read

theorem wellFormed_readBody {k : Kind} {own : List (String × Value)} {b : Body}
    (read : readBody k own = .ok b) : b.WellFormed := by
  cases k <;> simp only [readBody, except_bind_eq_ok, pure, Except.pure, Except.ok.injEq] at read
  case bag =>
    obtain ⟨items, counted, rfl⟩ := read
    unfold counts at counted
    split at counted
    · exact nodup_countsFrom (show (([] : List (Int32 × UInt32)).map (·.1)).Nodup from List.nodup_nil) counted
    · cases counted
  case role => obtain ⟨_, -, _, -, _, -, rfl⟩ := read; trivial
  case pet => obtain ⟨_, -, _, -, _, -, rfl⟩ := read; trivial
  case impostor => obtain ⟨_, -, rfl⟩ := read; trivial
  case nameless => subst read; trivial

theorem asideUnsigned64_le {v : Value} {n : UInt64} (read : asideUnsigned64 v = .ok n) :
    n.toNat ≤ 9223372036854775807 := by
  cases v with
  | int m =>
    by_cases negative : m.toInt < 0
    · simp [asideUnsigned64, negative] at read
    · simp only [asideUnsigned64, negative, if_false, Except.ok.injEq] at read
      subst read
      rw [Int64.toInt, BitVec.toInt_eq_toNat_cond] at negative
      simp only [UInt64.toNat, Int64.toBitVec_toUInt64]
      split at negative <;> omega
  | _ => cases read

theorem updateCount_readAudit {aside : List (String × Value)} {a : Audit} (read : readAudit aside = .ok a) :
    a.updateCount.toNat ≤ 9223372036854775807 ∧ a.baseline = none := by
  obtain ⟨⟨fields, _⟩, -, read⟩ := except_bind_eq_ok.mp read
  dsimp only at read
  split at read
  · cases read
  · simp only [except_bind_eq_ok, pure, Except.pure, Except.ok.injEq] at read
    obtain ⟨_, -, _, -, _, -, _, -, count, counted, _, -, rfl⟩ := read
    exact ⟨asideUnsigned64_le counted, rfl⟩

theorem readEntity_eq_ok {k : Kind} {doc : Value} {e : Entity} (read : readEntity k doc = .ok e) :
    ∃ aside own, readAudit aside = .ok e.audit ∧ readBody k own = .ok e.body := by
  unfold readEntity at read
  cases doc
  case map entries =>
    simp only [pure_bind] at read
    obtain ⟨⟨own, aside⟩, -, read⟩ := except_bind_eq_ok.mp read
    dsimp only at read
    split at read
    · cases read
    · simp only [except_bind_eq_ok, pure, Except.pure, Except.ok.injEq] at read
      obtain ⟨a, audited, b, bodied, rfl⟩ := read
      exact ⟨aside, own, audited, bodied⟩
  all_goals simp [throw, throwThe, MonadExceptOf.throw, bind, Except.bind] at read

end Schema

theorem Entity.ofDocument_read {k : Kind} {doc : Value} {e : Entity} (read : Entity.ofDocument k doc = .ok e) :
    e.audit.baseline = none ∧ e.audit.updateCount.toNat ≤ 9223372036854775807 ∧ e.body.WellFormed := by
  have entity : Schema.readEntity k doc = .ok e := by
    unfold Entity.ofDocument at read
    cases entity : Schema.readEntity k doc <;> simp_all [Except.mapError]
  obtain ⟨aside, own, audited, bodied⟩ := Schema.readEntity_eq_ok entity
  obtain ⟨fits, fresh⟩ := Schema.updateCount_readAudit audited
  exact ⟨fresh, fits, Schema.wellFormed_readBody bodied⟩

theorem Entity.checkChanges_eq {e : Entity} {doc : Value} {fingerprint : Fingerprint}
    (documented : e.document = .ok doc) (fingerprinted : Fingerprint.of doc = .ok fingerprint) :
    e.checkChanges = .ok ⟨e.audit.baseline != some fingerprint, fingerprint, doc⟩ := by
  simp [Entity.checkChanges, documented, fingerprinted, bind, Except.bind, pure, Except.pure]

theorem Entity.checkChanges_ok {e : Entity} (wf : e.body.WellFormed) (fits : e.audit.updateCount.toNat ≤ 9223372036854775807) :
    ∃ change, e.checkChanges = .ok change ∧ change.document = Value.ofPairs (e.audit.pairs ++ e.body.fields) ∧
      Fingerprint.of change.document = .ok change.fingerprint :=
  have fingerprinted := Fingerprint.of_eq_ok (e.document_encodable wf)
  ⟨_, Entity.checkChanges_eq (Entity.document_eq fits) fingerprinted, rfl, fingerprinted⟩

namespace Entity

theorem stored_document {e : Entity} (wf : e.body.WellFormed) :
    Database.Stored e.id (Value.ofPairs (e.audit.pairs ++ e.body.fields)) :=
  ⟨⟨_, rfl⟩, e.document_id, e.document_encodable wf⟩

/-- So can the document with an update stamped into it. -/
theorem stored_restamped {e : Entity} (wf : e.body.WellFormed) (time count : Int64) :
    Database.Stored e.id (.map ((sortEntries (e.audit.pairs ++ e.body.fields)).map (restamp time count))) := by
  have keys : ((sortEntries (e.audit.pairs ++ e.body.fields)).map (restamp time count)).map (·.1) =
      (sortEntries (e.audit.pairs ++ e.body.fields)).map (·.1) := by
    simp [List.map_map, Function.comp_def]
  obtain ⟨distinct, each⟩ := Value.encodable_map.mp (e.document_encodable wf)
  refine ⟨⟨_, rfl⟩, lookup_of_mem (keys ▸ e.sorted_keys_nodup) ?_, Value.encodable_map.mpr ⟨?_, ?_⟩⟩
  · have member := (List.mergeSort_perm (e.audit.pairs ++ e.body.fields) fun a b => canonicalCmp a.1 b.1 != .gt).mem_iff.mpr
      (List.mem_append_left _ (List.mem_cons_self ..))
    have same : restamp time count (.text Audit.idField, .int e.audit.id) = (.text Audit.idField, .int e.audit.id) := by
      simp [restamp, isKey, Audit.idField, updateTimeField, updateCountField]
    exact same ▸ List.mem_map_of_mem member
  · simpa [List.map_map, Function.comp_def] using distinct
  · simp only [List.mem_map]
    rintro _ ⟨p, member, rfl⟩
    unfold restamp
    split_ifs
    · exact ⟨(each p member).1, rfl⟩
    · exact ⟨(each p member).1, rfl⟩
    · exact each p member

end Entity

end GameVault
