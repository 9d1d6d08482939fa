import Mathlib
import GameVault.Proofs.Store.Outcomes
import GameVault.Proofs.Entity.ReadBack
import GameVault.Proofs.Query.Combinators

namespace GameVault

open Database

/-- Splitting on a dot, once the scan is past a prefix `l` of a string with no dot after it, gives
the whole string. -/
theorem String.splitOnAux_dot_plain (rest : List Char) (plain : '.' ∉ rest) (l : List Char) :
    String.splitOnAux (String.ofList (l ++ rest)) "." 0 ⟨String.utf8Len l⟩ 0 [] = [String.ofList (l ++ rest)] := by
  induction rest generalizing l with
  | nil =>
    rw [String.splitOnAux, if_pos (by simp)]
    simp only [List.append_nil, List.reverse_cons, List.reverse_nil, List.nil_append]
    rw [← String.rawEndPos_ofList, String.extract_zero_rawEndPos]
  | cons c rest ih =>
    have notDot : c ≠ '.' := fun same => plain (same ▸ List.mem_cons_self ..)
    have more : ¬(⟨String.utf8Len l⟩ : String.Pos.Raw).atEnd (String.ofList (l ++ c :: rest)) := by
      simp only [String.atEnd_iff, String.rawEndPos_ofList, String.Pos.Raw.le_iff, String.utf8Len_append,
        String.utf8Len_cons]
      have := Char.utf8Size_pos c
      omega
    have first : (⟨String.utf8Len l⟩ : String.Pos.Raw).get (String.ofList (l ++ c :: rest)) = c :=
      String.get_of_valid l (c :: rest)
    have dot : (0 : String.Pos.Raw).get "." = '.' := by decide
    have next : ((⟨String.utf8Len l⟩ : String.Pos.Raw).unoffsetBy 0).next (String.ofList (l ++ c :: rest)) =
        ⟨String.utf8Len (l ++ [c])⟩ := by
      rw [String.Pos.Raw.unoffsetBy_zero, String.next_of_valid, String.utf8Len_append, String.utf8Len_cons,
        String.utf8Len_nil, Nat.zero_add]
    rw [String.splitOnAux, if_neg more, first, dot, if_neg (by simpa using notDot), next]
    simpa using ih (fun inside => plain (List.mem_cons_of_mem c inside)) (l ++ [c])

theorem String.splitOn_dot_plain {s : String} (plain : '.' ∉ s.toList) : s.splitOn "." = [s] := by
  obtain ⟨cs, rfl⟩ := s.exists_eq_ofList
  rw [String.toList_ofList] at plain
  simpa [String.splitOn] using String.splitOnAux_dot_plain cs plain []

theorem Value.getPath?_plain (v : Value) {key : String} (plain : '.' ∉ key.toList) : v.getPath? key = v.get? key := by
  rw [Value.getPath?, String.splitOn_dot_plain plain]
  simp only [List.foldlM_cons, List.foldlM_nil, bind_pure]

namespace Filter

/-- Whether the deletion condition of the default reads admits a document: its mark equals false
as a filter compares, so a missing mark does not. -/
def marksLive (doc : Value) : Bool := fieldEquals (doc.getPath? deletedField) (.bool false)

theorem marksLive_eq (doc : Value) : marksLive doc = fieldEquals (doc.get? Audit.isDeletedField) (.bool false) := by
  rw [marksLive, Value.getPath?_plain doc (by decide)]
  rfl

theorem admits_active (f : Filter) (doc : Value) : f.active.admits doc = (marksLive doc && f.admits doc) := by
  rw [active, admits_and]
  rfl

end Filter

theorem Kind.isDeleted_not_own (k : Kind) : Audit.isDeletedField ∉ k.ownFields := by
  cases k <;> decide

/-- A stored document reads as deleted exactly as its mark says; without a mark it reads as not
deleted. -/
theorem hydrate_isDeleted {k : Kind} {doc : Value} {e : Entity} (hydrated : Store.hydrate k doc = .ok e) :
    (doc.get? Audit.isDeletedField = none ∧ e.audit.isDeleted = false) ∨
      doc.get? Audit.isDeletedField = some (.bool e.audit.isDeleted) := by
  obtain ⟨fingerprint, read, -, decoded, rfl⟩ := Store.hydrate_eq_ok hydrated
  have entity : Schema.readEntity k doc = .ok read := by
    unfold Entity.ofDocument at decoded
    cases entity : Schema.readEntity k doc <;> simp_all [Except.mapError]
  obtain ⟨entries, own, aside, rfl, walked, audited, -, -⟩ := Schema.readEntity_walk entity
  have found : aside.lookup Audit.isDeletedField = (Value.map entries).get? Audit.isDeletedField := by
    rw [(Schema.walk_lookup walked Audit.isDeletedField).2 (Kind.isDeleted_not_own k)]
    rfl
  rw [← found]
  exact Schema.readAudit_isDeleted (m := read.audit) audited

theorem marksLive_iff {k : Kind} {doc : Value} {e : Entity} (hydrated : Store.hydrate k doc = .ok e) :
    Filter.marksLive doc = true ↔ (doc.get? Audit.isDeletedField).isSome ∧ e.audit.isDeleted = false := by
  rw [Filter.marksLive_eq]
  rcases hydrate_isDeleted hydrated with ⟨absent, -⟩ | marked
  · simp [absent, Filter.fieldEquals, Value.isNull]
  · rw [marked]
    cases e.audit.isDeleted <;> decide

/-- A document the store writes for an entity carries the deletion mark. -/
theorem Entity.document_marked (m : Audit) (b : Body) :
    ((Value.ofPairs (m.pairs ++ b.fields)).get? Audit.isDeletedField).isSome = true := by
  rw [Option.isSome_iff_ne_none, Value.ofPairs, Value.get?, Ne, Value.lookup_eq_none_iff]
  intro unkeyed
  have member : (Value.text Audit.isDeletedField, Value.bool m.isDeleted) ∈ Value.sortEntries (m.pairs ++ b.fields) :=
    (List.mergeSort_perm _ _).mem_iff.mpr (by simp [Audit.pairs])
  have marked := unkeyed _ member
  simp [Value.isKey] at marked

namespace Database

namespace Collection

/-- What a find answers once its filter has selected `selected`: sorted by the options' keys if
any, then skipped and limited; `none` when the sort gives up. -/
def arrange (o : FindOptions) (selected : List Value) : Option (List Value) := do
  let sorted ←
    if o.sort.isEmpty then pure selected
    else Sorting.sort (fun a b => compareDocuments o.sort a b == .lt) ⟨false⟩ selected
  let rest := sorted.drop o.skip
  match o.limit with
  | some l => if l = 0 then pure rest else pure (rest.take l)
  | none => pure rest

theorem find_eq (c : Collection) (g : Filter) (o : FindOptions) :
    c.find g o = arrange o (c.values.filter g.admits) := rfl

theorem arrange_plain (selected : List Value) : arrange {} selected = some selected := rfl

theorem arrange_first (selected : List Value) : arrange { limit := some 1 } selected = some (selected.take 1) :=
  rfl

/-- The documents a default read of the collection considers under `f`: those `f` admits that are
marked live, in stored order. -/
def live (c : Collection) (f : Filter) : List Value := c.values.filter f.active.admits

end Collection

theorem run_find {w : World} {h : Handle} (opened : (w.connection h.connection).closed = false) (g : Filter)
    (o : FindOptions) :
    (h.find g o).run.run w =
      (match (w.collection h.slot).find g o with
        | some docs => .ok docs
        | none => .error .inconsistentOrder,
        w.modifyConnection h.connection fun conn => { conn with counters := conn.counters.read }) := by
  rcases found : (w.collection h.slot).find g o with _ | docs
  all_goals
    simp [Handle.find, ensureOpen, opened, Handle.current, Database.count, ExceptT.run_bind, found]
    rfl

theorem run_count {w : World} {h : Handle} (opened : (w.connection h.connection).closed = false) (g : Filter) :
    (h.count g).run.run w =
      (.ok ((w.collection h.slot).count g),
        w.modifyConnection h.connection fun conn => { conn with counters := conn.counters.read }) := by
  simp [Handle.count, ensureOpen, opened, Handle.current, Database.count, ExceptT.run_bind]
  rfl

end Database

namespace Store

/-- What a read answers from what its find answered: the entities read from the documents, or the
first document's decoding error, or the driver's error when the sort gave up. -/
def readFound (k : Kind) : Option (List Value) → Except StoreError (List Entity)
  | some docs => (docs.mapM (hydrate k)).mapError .codec
  | none => .error (.driver .inconsistentOrder)

theorem run_collection_open {σ : Store × World} {k : Kind} (ready : Ready σ k) (testkit : k.logsHooks = true) :
    ∃ h σ₁, (collection k).run.run σ = (.ok h, σ₁) ∧ (σ₁.2.connection h.connection).closed = false ∧
      ∀ slot, σ₁.2.collection slot = σ.2.collection slot := by
  obtain ⟨h, σ₁, ran, sameConnection, ready₁, keeps⟩ := run_collection ready testkit
  refine ⟨h, σ₁, ran, ?_, (inert_collection k σ _ σ₁ ran).collections⟩
  rw [sameConnection, ← keeps.connection]
  exact ready₁.connected

section Handle

variable {k : Kind} {σ σ₁ : Store × World} {h : Handle}
  (handle : (collection k).run.run σ = (.ok h, σ₁)) (opened : (σ₁.2.connection h.connection).closed = false)
include handle opened

theorem findEntities_answer (g : Filter) (o : FindOptions) :
    ((findEntities k g o).run.run σ).1 = readFound k ((σ₁.2.collection h.slot).find g o) := by
  obtain ⟨s₁, w₁⟩ := σ₁
  have ran := run_find opened g o
  rw [findEntities, run_bind_ok handle]
  rcases found : (w₁.collection h.slot).find g o with _ | docs <;> simp only [found] at ran
  · rw [run_bind_error (run_database_error ran)]
    rfl
  · rw [run_bind_ok (run_database_ok ran)]
    rcases hydrated : docs.mapM (hydrate k) with err | entities
    · rw [run_bind_error (run_codec_error rfl _)]
      simp [readFound, hydrated, Except.mapError]
    · rw [run_bind_ok (run_codec_ok rfl _), run_bind_ok (run_tally _ _ _)]
      simp [readFound, hydrated, Except.mapError]
      rfl

theorem count_answer (f : Filter) :
    ((count k f).run.run σ).1 = .ok ((σ₁.2.collection h.slot).live f).length := by
  obtain ⟨s₁, w₁⟩ := σ₁
  rw [count, run_bind_ok handle, run_database_ok (run_count opened f.active)]
  rfl

theorem findIncludingDeleted_answer (f : Filter) :
    ((findIncludingDeleted k f).run.run σ).1 =
      (((σ₁.2.collection h.slot).values.filter f.admits).mapM (hydrate k)).mapError .codec := by
  rw [findIncludingDeleted, findEntities_answer handle opened, Collection.find_eq, Collection.arrange_plain]
  rfl

theorem load_answer (id : Int64) (default : Option Entity) :
    ((load k id default).run.run σ).1 =
      match ((σ₁.2.collection h.slot).values.filter (Filter.byId id).admits).head? with
      | some doc => ((hydrate k doc).map (·.afterLoad false)).mapError .codec
      | none =>
        .ok (({ default.getD (Entity.fresh k id) with
          audit := { (default.getD (Entity.fresh k id)).audit with id, baseline := none } } : Entity).afterLoad true) := by
  obtain ⟨s₁, w₁⟩ := σ₁
  have ran := run_find opened (Filter.byId id) { limit := some 1 }
  rw [Collection.find_eq, Collection.arrange_first] at ran
  rw [load, run_bind_ok handle, run_bind_ok (run_database_ok ran)]
  rcases (w₁.collection h.slot).values.filter (Filter.byId id).admits with _ | ⟨doc, rest⟩
  · rfl
  · simp only [List.take, List.head?]
    rcases hydrated : hydrate k doc with err | read <;> rfl

end Handle

end Store

/-- The world after a first connection to the default database. -/
def connectedWorld : World :=
  { catalogs := [(⟨0, "localhost", "game"⟩, [])],
    connections := #[{ database := ⟨0, "localhost", "game"⟩, acknowledged := true }] }

end GameVault
