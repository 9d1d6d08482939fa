import Mathlib
import GameVault.Proofs.Store.Reloads

namespace GameVault

open Database

namespace Database

namespace Collection

theorem createIndex_eq_ok {c c' : Collection} {m : IndexModel} {name : String}
    (ok : c.createIndex m = .ok (c', name)) :
    c' = { c with indexes := c.indexes ++ [m.info] } ∧ name = m.indexName := by
  unfold createIndex at ok
  dsimp only at ok
  split_ifs at ok
  injection ok with ok
  obtain ⟨rfl, rfl⟩ := Prod.mk.inj ok
  exact ⟨rfl, rfl⟩

theorem createIndex_eq_indexExists {c : Collection} {m : IndexModel} {name : String}
    (refused : c.createIndex m = .error (.indexExists name)) :
    name = m.indexName ∧ ∃ i ∈ c.indexes, i.name = name := by
  unfold createIndex at refused
  dsimp only at refused
  split_ifs at refused with noKeys taken
  · cases refused
  · cases refused
    obtain ⟨i, member, same⟩ := List.any_eq_true.mp taken
    exact ⟨rfl, i, member, of_decide_eq_true same⟩

theorem dropIndex_eq_ok {c c' : Collection} {name : String} (ok : c.dropIndex name = .ok c') :
    c'.indexes = c.indexes.eraseP (·.name = name) := by
  unfold dropIndex at ok
  split_ifs at ok
  injection ok with ok
  subst ok
  rfl

end Collection

theorem World.collection_eq_of_slots {w w' : World} (same : w'.slots = w.slots) (slot : Nat) :
    w'.collection slot = w.collection slot := by
  simp [World.collection, same]

namespace Handle

variable {w w' : World} {h : Handle}

/-- Listing indexes leaves every stored collection alone and answers the indexes of the handle's
collection. -/
theorem listIndexes_run {r : Except DriverError (List IndexInfo)} (ran : h.listIndexes.run.run w = (r, w')) :
    w'.slots = w.slots ∧ ∀ existing, r = .ok existing → existing = (w.collection h.slot).indexes := by
  by_cases closed : (w.connection h.connection).closed
  · simp [Handle.listIndexes, ensureOpen, closed] at ran
    obtain ⟨rfl, rfl⟩ := ran
    simp
  · simp [Handle.listIndexes, ensureOpen, Handle.current, Database.count, closed, ExceptT.run_bind,
      Except.map] at ran
    obtain ⟨rfl, rfl⟩ := ran
    simp

theorem listIndexes_open (opened : (w.connection h.connection).closed = false) :
    ∃ w', h.listIndexes.run.run w = (.ok (w.collection h.slot).indexes, w') ∧ w'.slots = w.slots := by
  refine ⟨w.modifyConnection h.connection fun c => { c with counters := c.counters.index }, ?_, rfl⟩
  simp [Handle.listIndexes, ensureOpen, Handle.current, Database.count, opened, ExceptT.run_bind, Except.map]
  rfl

/-- Creating an index either adds the model's index under its derived name or is refused and leaves
the collection alone; a name already taken is refused with that name. -/
theorem createIndex_run {m : IndexModel} {r : Except DriverError String}
    (ran : (h.createIndex m).run.run w = (r, w')) (inside : h.slot < w.slots.size) :
    w'.slots.size = w.slots.size ∧
      (∀ name, r = .ok name →
        name = m.indexName ∧ (w'.collection h.slot).indexes = (w.collection h.slot).indexes ++ [m.info]) ∧
      (∀ e, r = .error e → w'.collection h.slot = w.collection h.slot) ∧
      (∀ name, r = .error (.indexExists name) →
        name = m.indexName ∧ ∃ i ∈ (w.collection h.slot).indexes, i.name = name) := by
  by_cases closed : (w.connection h.connection).closed
  · simp [Handle.createIndex, ensureOpen, closed] at ran
    obtain ⟨rfl, rfl⟩ := ran
    simp
  rcases created : (w.collection h.slot).createIndex m with e | ⟨c, name⟩
  · simp [Handle.createIndex, ensureOpen, Handle.current, Database.count, closed, created,
      ExceptT.run_bind] at ran
    obtain ⟨rfl, rfl⟩ := ran
    refine ⟨rfl, by simp, fun _ _ => rfl, fun name refused => ?_⟩
    cases refused
    exact Collection.createIndex_eq_indexExists created
  · simp [Handle.createIndex, ensureOpen, Handle.current, Handle.store, Database.count, closed, created,
      ExceptT.run_bind, Except.map] at ran
    obtain ⟨rfl, rfl⟩ := ran
    obtain ⟨rfl, rfl⟩ := Collection.createIndex_eq_ok created
    refine ⟨by simp, fun name named => ?_, (fun _ wrong => by cases wrong), (fun _ wrong => by cases wrong)⟩
    cases named
    refine ⟨rfl, ?_⟩
    rw [World.collection_setCollection_self (by simpa using inside)]

/-- Dropping an index keeps the slots and only removes indexes from the handle's collection. -/
theorem dropIndex_run {name : String} {r : Except DriverError Unit} (ran : (h.dropIndex name).run.run w = (r, w'))
    (inside : h.slot < w.slots.size) :
    w'.slots.size = w.slots.size ∧ List.Sublist (w'.collection h.slot).indexes (w.collection h.slot).indexes := by
  by_cases closed : (w.connection h.connection).closed
  · simp [Handle.dropIndex, ensureOpen, closed] at ran
    obtain ⟨rfl, rfl⟩ := ran
    simp
  rcases dropped : (w.collection h.slot).dropIndex name with e | c
  · simp [Handle.dropIndex, ensureOpen, Handle.current, Database.count, closed, dropped,
      ExceptT.run_bind] at ran
    obtain ⟨rfl, rfl⟩ := ran
    simp
  · simp [Handle.dropIndex, ensureOpen, Handle.current, Handle.store, Database.count, closed, dropped,
      ExceptT.run_bind] at ran
    obtain ⟨rfl, rfl⟩ := ran
    refine ⟨by simp, ?_⟩
    rw [World.collection_setCollection_self (by simpa using inside), Collection.dropIndex_eq_ok dropped]
    exact List.eraseP_sublist

end Handle

end Database

namespace Store

/-- How far a call of the index request has got: it has yet to list the indexes, it listed them and
found none named with its field, or it has answered. -/
inductive IndexStage where
  | pending
  | listed
  | answered (answer : Except DriverError IndexOutcome)

/-- A call of the store's index request for a field in a direction. -/
structure IndexCall where
  field : String
  ascending : Bool
  stage : IndexStage

namespace IndexCall

/-- A call that has taken no step yet. -/
def start (field : String) (ascending : Bool) : IndexCall := ⟨field, ascending, .pending⟩

/-- The index a call creates when no index is named with its field. -/
def model (call : IndexCall) : IndexModel := { keys := [⟨call.field, call.ascending⟩] }

/-- The answer a listing gives a call for `field`: the first index whose name starts with it. -/
def found (field : String) (existing : List IndexInfo) : Option IndexOutcome :=
  (existing.find? fun i => field.isPrefixOf i.name).map fun i => .alreadyExists i.name

/-- Where a call for `field` stands after listing. -/
def afterListing (field : String) : Except DriverError (List IndexInfo) → IndexStage
  | .ok existing => ((found field existing).map fun o => .answered (.ok o)).getD .listed
  | .error e => .answered (.error e)

/-- The answer a call takes from creating its index: an index already under the name is found. -/
def afterCreating : Except DriverError String → Except DriverError IndexOutcome
  | .ok name => .ok (.created name)
  | .error (.indexExists name) => .ok (.alreadyExists name)
  | .error e => .error e

/-- The call's next step on the servers, through the handle on the kind's collection. -/
def step (h : Handle) (call : IndexCall) (w : World) : IndexCall × World :=
  match call.stage with
  | .pending =>
    let (r, w') := h.listIndexes.run.run w
    ({ call with stage := afterListing call.field r }, w')
  | .listed =>
    let (r, w') := (h.createIndex call.model).run.run w
    ({ call with stage := .answered (afterCreating r) }, w')
  | .answered _ => (call, w)

/-- The call's two steps back to back, with nothing in between. -/
def finish (h : Handle) (call : IndexCall) (w : World) : IndexCall × World :=
  (call.step h w).1.step h (call.step h w).2

variable {h : Handle} {call : IndexCall} {w w' : World}

theorem step_pending {r : Except DriverError (List IndexInfo)} (pending : call.stage = .pending)
    (ran : h.listIndexes.run.run w = (r, w')) :
    call.step h w = ({ call with stage := afterListing call.field r }, w') := by
  simp [step, pending, ran]

theorem step_listed {r : Except DriverError String} (listed : call.stage = .listed)
    (ran : (h.createIndex call.model).run.run w = (r, w')) :
    call.step h w = ({ call with stage := .answered (afterCreating r) }, w') := by
  simp [step, listed, ran]

theorem step_answered {a : Except DriverError IndexOutcome} (answered : call.stage = .answered a) :
    call.step h w = (call, w) := by
  simp [step, answered]

@[simp] theorem model_step : (call.step h w).1.model = call.model := by
  unfold step
  split <;> rfl

theorem isPrefixOf_indexName (call : IndexCall) : call.field.isPrefixOf call.model.indexName = true := by
  have named : call.model.indexName = call.field ++ "_" ++ toString (⟨call.field, call.ascending⟩ : SortKey).direction :=
    rfl
  simp [named, String.isPrefixOf]

theorem found_eq_some {field : String} {existing : List IndexInfo} {o : IndexOutcome}
    (answered : found field existing = some o) :
    ∃ i ∈ existing, field.isPrefixOf i.name = true ∧ o = .alreadyExists i.name := by
  obtain ⟨i, first, rfl⟩ := Option.map_eq_some_iff.mp answered
  have prefixed := List.find?_some first
  exact ⟨i, List.mem_of_find?_eq_some first, prefixed, rfl⟩

theorem found_eq_none {field : String} {existing : List IndexInfo} (missing : found field existing = none) :
    ∀ i ∈ existing, field.isPrefixOf i.name = false := by
  intro i member
  simpa using List.find?_eq_none.mp (Option.map_eq_none_iff.mp missing) i member

theorem afterListing_eq_answered_ok {field : String} {r : Except DriverError (List IndexInfo)} {o : IndexOutcome}
    (answered : afterListing field r = .answered (.ok o)) :
    ∃ existing, r = .ok existing ∧ found field existing = some o := by
  rcases r with e | existing
  · cases answered
  · rcases foundIt : found field existing with _ | o'
    · simp [afterListing, foundIt] at answered
    · simp only [afterListing, foundIt, Option.map_some, Option.getD_some, IndexStage.answered.injEq,
        Except.ok.injEq] at answered
      exact ⟨existing, rfl, answered ▸ foundIt⟩

theorem afterCreating_eq_ok {r : Except DriverError String} {o : IndexOutcome} (answered : afterCreating r = .ok o) :
    (∃ name, r = .ok name ∧ o = .created name) ∨ ∃ name, r = .error (.indexExists name) ∧ o = .alreadyExists name := by
  rcases r with e | name
  · cases e <;> simp [afterCreating] at answered
    exact .inr ⟨_, rfl, answered.symm⟩
  · simp only [afterCreating, Except.ok.injEq] at answered
    exact .inl ⟨name, rfl, answered.symm⟩

/-- What an answer `o` to a call promises of the indexes at the moment it is given: an index under
the answered name, a name that starts with the call's field, and, when the call created the index,
the call's own index under its derived name. -/
structure Answers (call : IndexCall) (indexes : List IndexInfo) (o : IndexOutcome) : Prop where
  present : ∃ i ∈ indexes, i.name = o.name
  prefixed : call.field.isPrefixOf o.name = true
  created : ∀ name, o = .created name → call.model.info ∈ indexes ∧ name = call.model.indexName

/-- Every answer a step gives holds of the indexes right after it. -/
theorem step_answers (inside : h.slot < w.slots.size) (waiting : call.stage = .pending ∨ call.stage = .listed)
    {o : IndexOutcome} (answered : (call.step h w).1.stage = .answered (.ok o)) :
    Answers call ((call.step h w).2.collection h.slot).indexes o := by
  rcases waiting with pending | listed
  · rcases ran : h.listIndexes.run.run w with ⟨r, w'⟩
    rw [step_pending pending ran] at answered ⊢
    obtain ⟨existing, rfl, foundIt⟩ := afterListing_eq_answered_ok answered
    obtain ⟨same, listedAll⟩ := Handle.listIndexes_run ran
    obtain ⟨i, member, prefixed, rfl⟩ := found_eq_some foundIt
    rw [World.collection_eq_of_slots same, ← listedAll existing rfl]
    exact ⟨⟨i, member, rfl⟩, prefixed, fun _ wrong => by cases wrong⟩
  · rcases ran : (h.createIndex call.model).run.run w with ⟨r, w'⟩
    rw [step_listed listed ran] at answered ⊢
    obtain ⟨-, created, kept, taken⟩ := Handle.createIndex_run ran inside
    rcases afterCreating_eq_ok (IndexStage.answered.inj answered) with ⟨name, rfl, rfl⟩ | ⟨name, rfl, rfl⟩
    · obtain ⟨rfl, grown⟩ := created _ rfl
      rw [grown]
      exact ⟨⟨call.model.info, by simp, rfl⟩, isPrefixOf_indexName call,
        fun _ same => ⟨by simp, by cases same; rfl⟩⟩
    · obtain ⟨rfl, i, member, named⟩ := taken _ rfl
      rw [kept _ rfl]
      exact ⟨⟨i, member, named⟩, isPrefixOf_indexName call, fun _ wrong => by cases wrong⟩

/-- A step keeps the servers valid and the slots stored, and leaves the indexes the collection had
with at most the call's own index added. -/
theorem step_world (valid : w.Valid) (inside : h.slot < w.slots.size) :
    (call.step h w).2.Valid ∧ (call.step h w).2.slots.size = w.slots.size ∧
      ∀ i ∈ ((call.step h w).2.collection h.slot).indexes, i ∈ (w.collection h.slot).indexes ∨ i = call.model.info := by
  rcases stage : call.stage with _ | _ | a
  · rcases ran : h.listIndexes.run.run w with ⟨r, w'⟩
    have kept := valid.listIndexes h
    rw [after, ran] at kept
    obtain ⟨same, -⟩ := Handle.listIndexes_run ran
    rw [step_pending stage ran, World.collection_eq_of_slots same]
    exact ⟨kept, by rw [same], fun i member => .inl member⟩
  · rcases ran : (h.createIndex call.model).run.run w with ⟨r, w'⟩
    have kept := valid.createIndex h call.model
    rw [after, ran] at kept
    obtain ⟨size, created, unchanged, -⟩ := Handle.createIndex_run ran inside
    rw [step_listed stage ran]
    refine ⟨kept, size, fun i member => ?_⟩
    rcases r with e | name
    · rw [unchanged e rfl] at member
      exact .inl member
    · rw [(created name rfl).2, List.mem_append, List.mem_singleton] at member
      exact member
  · rw [step_answered stage]
    exact ⟨valid, rfl, fun i member => .inl member⟩

end IndexCall

/-- What may happen while calls are under way: a caller takes its next step, or an index is dropped. -/
inductive IndexEvent where
  | advance (caller : Nat)
  | drop (name : String)

/-- The calls and the servers after an event; a step of a caller that does not exist changes
nothing. -/
def IndexEvent.apply (h : Handle) (state : List IndexCall × World) : IndexEvent → List IndexCall × World
  | .advance j =>
    match state.1[j]? with
    | some call => (state.1.set j (call.step h state.2).1, (call.step h state.2).2)
    | none => state
  | .drop name => (state.1, after (h.dropIndex name) state.2)

variable {h : Handle} {state : List IndexCall × World}

theorem IndexEvent.apply_advance {j : Nat} {call : IndexCall} (caller : state.1[j]? = some call) :
    (IndexEvent.advance j).apply h state = (state.1.set j (call.step h state.2).1, (call.step h state.2).2) := by
  simp [IndexEvent.apply, caller]

theorem IndexEvent.apply_absent {j : Nat} (absent : state.1[j]? = none) : (IndexEvent.advance j).apply h state = state := by
  simp [IndexEvent.apply, absent]

/-- The calls and the servers after events in turn. -/
def runIndexEvents (h : Handle) (events : List IndexEvent) (state : List IndexCall × World) :
    List IndexCall × World :=
  events.foldl (IndexEvent.apply h) state

/-- What every interleaving keeps, from the indexes `start` of the collection and the indexes `asked`
the calls ask for: the servers valid, the slot stored, each call asking one of them, and each index
of the collection one it had at the start or one a call asked for. -/
structure IndexRun (h : Handle) (start : List IndexInfo) (asked : List IndexModel)
    (state : List IndexCall × World) : Prop where
  valid : state.2.Valid
  inside : h.slot < state.2.slots.size
  asks : ∀ call ∈ state.1, call.model ∈ asked
  sourced : ∀ i ∈ (state.2.collection h.slot).indexes, i ∈ start ∨ ∃ m ∈ asked, i = m.info

variable {start : List IndexInfo} {asked : List IndexModel}

theorem IndexRun.advance (run : IndexRun h start asked state) {j : Nat} {call : IndexCall}
    (caller : state.1[j]? = some call) :
    IndexRun h start asked (state.1.set j (call.step h state.2).1, (call.step h state.2).2) := by
  have asking := run.asks call (List.mem_of_getElem? caller)
  obtain ⟨valid, size, grown⟩ := call.step_world run.valid run.inside
  refine ⟨valid, size ▸ run.inside, fun c member => ?_, fun i member => ?_⟩
  · rcases List.mem_or_eq_of_mem_set member with old | rfl
    · exact run.asks c old
    · simpa using asking
  · rcases grown i member with old | rfl
    · exact run.sourced i old
    · exact .inr ⟨call.model, asking, rfl⟩

theorem IndexRun.drop (run : IndexRun h start asked state) (name : String) :
    IndexRun h start asked (state.1, after (h.dropIndex name) state.2) := by
  rcases ran : (h.dropIndex name).run.run state.2 with ⟨r, w'⟩
  have valid := run.valid.dropIndex h name
  rw [after, ran] at valid ⊢
  obtain ⟨size, kept⟩ := Handle.dropIndex_run ran run.inside
  exact ⟨valid, size ▸ run.inside, run.asks, fun i member => run.sourced i (kept.subset member)⟩

theorem IndexRun.apply (run : IndexRun h start asked state) (e : IndexEvent) :
    IndexRun h start asked (e.apply h state) := by
  cases e with
  | advance j =>
    rcases caller : state.1[j]? with _ | call
    · rw [IndexEvent.apply_absent caller]
      exact run
    · rw [IndexEvent.apply_advance caller]
      exact run.advance caller
  | drop name => exact run.drop name

theorem IndexRun.events (run : IndexRun h start asked state) (events : List IndexEvent) :
    IndexRun h start asked (runIndexEvents h events state) := by
  induction events generalizing state with
  | nil => exact run
  | cons e rest ih => exact ih (run.apply e)

/-- Indexes that key each leading field at most once, each named starting with its leading field. -/
structure KeyedOnce (indexes : List IndexInfo) : Prop where
  named : ∀ i ∈ indexes, ∀ key ∈ i.keys.head?, key.field.isPrefixOf i.name = true
  apart : indexes.Pairwise fun i j => ∀ a ∈ i.keys.head?, ∀ b ∈ j.keys.head?, a.field ≠ b.field

namespace KeyedOnce

variable {indexes : List IndexInfo}

theorem sublist (keyed : KeyedOnce indexes) {kept : List IndexInfo} (sub : List.Sublist kept indexes) :
    KeyedOnce kept :=
  ⟨fun i member => keyed.named i (sub.subset member), keyed.apart.sublist sub⟩

/-- A call's index may be added when no index is named starting with its field: any index keyed on
that field would be. -/
theorem append_model (keyed : KeyedOnce indexes) {call : IndexCall}
    (fresh : ∀ i ∈ indexes, call.field.isPrefixOf i.name = false) : KeyedOnce (indexes ++ [call.model.info]) := by
  have lead : ∀ key ∈ call.model.info.keys.head?, key = ⟨call.field, call.ascending⟩ := by
    simp [IndexCall.model, IndexModel.info]
  refine ⟨fun i member key first => ?_, List.pairwise_append.mpr ⟨keyed.apart, by simp, ?_⟩⟩
  · rcases List.mem_append.mp member with old | added
    · exact keyed.named i old key first
    · obtain rfl := List.mem_singleton.mp added
      obtain rfl := lead key first
      exact call.isPrefixOf_indexName
  · intro i old j added a first b first' same
    obtain rfl := List.mem_singleton.mp added
    obtain rfl := lead b first'
    have named := keyed.named i old a first
    rw [same, fresh i old] at named
    cases named

end KeyedOnce

namespace IndexCall

variable {h : Handle} {call : IndexCall} {w : World}

/-- A call that runs to its answer with nothing in between keeps the slots stored and the indexes
keyed on each leading field at most once. -/
theorem keyedOnce_finish (inside : h.slot < w.slots.size) (pending : call.stage = .pending)
    (keyed : KeyedOnce (w.collection h.slot).indexes) :
    (call.finish h w).2.slots.size = w.slots.size ∧ KeyedOnce ((call.finish h w).2.collection h.slot).indexes := by
  rcases listing : h.listIndexes.run.run w with ⟨r, w₁⟩
  obtain ⟨same, listedAll⟩ := Handle.listIndexes_run listing
  rw [← World.collection_eq_of_slots same] at keyed
  rw [← same] at inside ⊢
  unfold finish
  rw [step_pending pending listing]
  dsimp only
  rcases r with e | existing
  · rw [step_answered rfl]
    exact ⟨rfl, keyed⟩
  rcases foundIt : found call.field existing with _ | o
  · have listed : afterListing call.field (.ok existing) = .listed := by simp [afterListing, foundIt]
    rcases creating : (h.createIndex call.model).run.run w₁ with ⟨r', w₂⟩
    rw [listed, step_listed (show ({ call with stage := .listed } : IndexCall).stage = .listed from rfl) creating]
    obtain ⟨size, created, unchanged, -⟩ := Handle.createIndex_run creating inside
    refine ⟨size, ?_⟩
    rcases r' with e | name
    · rw [unchanged e rfl]
      exact keyed
    · rw [(created name rfl).2]
      refine keyed.append_model fun i member => found_eq_none foundIt i ?_
      rwa [listedAll existing rfl, ← World.collection_eq_of_slots same]
  · have answered : afterListing call.field (.ok existing) = .answered (.ok o) := by simp [afterListing, foundIt]
    rw [answered, step_answered rfl]
    exact ⟨rfl, keyed⟩

/-- A call on an open connection whose field begins the name of an index is answered by the first
such index, whatever that index is keyed on, and stores nothing. -/
theorem finish_found (opened : (w.connection h.connection).closed = false) (pending : call.stage = .pending)
    {o : IndexOutcome} (foundIt : found call.field (w.collection h.slot).indexes = some o) :
    ∃ w', call.finish h w = ({ call with stage := .answered (.ok o) }, w') ∧ w'.slots = w.slots := by
  obtain ⟨w', listing, same⟩ := Handle.listIndexes_open opened
  have answered : afterListing call.field (.ok (w.collection h.slot).indexes) = .answered (.ok o) := by
    simp [afterListing, foundIt]
  refine ⟨w', ?_, same⟩
  unfold finish
  rw [step_pending pending listing]
  dsimp only
  rw [answered, step_answered rfl]

end IndexCall

section Opened

variable {s : Store} {k : Kind} {h : Handle}

theorem run_tryCatch_ok {α : Type} {x : StoreOp α} {handler : StoreError → StoreOp α} {σ σ' : Store × World}
    {a : α} (first : x.run.run σ = (.ok a, σ')) : (tryCatch x handler).run.run σ = (.ok a, σ') := by
  have ran : StateT.run x σ = _ := first
  change (ExceptT.tryCatch x handler).run.run σ = _
  simp only [ExceptT.tryCatch, ExceptT.run_mk, StateT.run_bind, ran]
  rfl

theorem run_tryCatch_error {α : Type} {x : StoreOp α} {handler : StoreError → StoreOp α} {σ σ' : Store × World}
    {e : StoreError} (first : x.run.run σ = (.error e, σ')) : (tryCatch x handler).run.run σ = (handler e).run.run σ' := by
  have ran : StateT.run x σ = _ := first
  change (ExceptT.tryCatch x handler).run.run σ = _
  simp only [ExceptT.tryCatch, ExceptT.run_mk, StateT.run_bind, ran]
  rfl

/-- A store that has opened the kind's collection makes an index request as the call's two steps
back to back, and answers what the call answers. -/
theorem run_createIndex_opened (opened : Opened s k h) (w : World) (field : String) (ascending : Bool) :
    ∃ r w', (IndexCall.start field ascending).finish h w = (⟨field, ascending, .answered r⟩, w') ∧
      (createIndex k field ascending).run.run (s, w) = (r.mapError .driver, (s, w')) := by
  rw [createIndex, run_bind_ok (run_collection_opened opened w)]
  rcases listing : h.listIndexes.run.run w with ⟨r, w₁⟩
  unfold IndexCall.finish
  rw [IndexCall.step_pending (show (IndexCall.start field ascending).stage = .pending from rfl) listing]
  dsimp only [IndexCall.start]
  rcases r with e | existing
  · exact ⟨.error e, w₁, IndexCall.step_answered rfl, run_bind_error (run_database_error listing)⟩
  rw [run_bind_ok (run_database_ok listing)]
  rcases foundIt : existing.find? (fun i => field.isPrefixOf i.name) with _ | i
  · have listed : IndexCall.afterListing field (.ok existing) = .listed := by
      simp [IndexCall.afterListing, IndexCall.found, foundIt]
    rcases creating : (h.createIndex { keys := [⟨field, ascending⟩] }).run.run w₁ with ⟨r', w₂⟩
    refine ⟨IndexCall.afterCreating r', w₂, ?_, ?_⟩
    · rw [listed]
      exact IndexCall.step_listed (show (⟨field, ascending, .listed⟩ : IndexCall).stage = .listed from rfl) creating
    · simp only [foundIt]
      rcases r' with e | name
      · rw [run_tryCatch_error (run_bind_error (run_database_error creating))]
        cases e <;> rfl
      · rw [run_tryCatch_ok (by rw [run_bind_ok (run_database_ok creating)]; rfl)]
        rfl
  · have answered : IndexCall.afterListing field (.ok existing) = .answered (.ok (.alreadyExists i.name)) := by
      simp [IndexCall.afterListing, IndexCall.found, foundIt]
    refine ⟨.ok (.alreadyExists i.name), w₁, ?_, ?_⟩
    · rw [answered]
      exact IndexCall.step_answered rfl
    · simp only [foundIt]
      rfl

theorem run_dropIndex_opened (opened : Opened s k h) (w : World) (name : String) :
    ((dropIndex k name).run.run (s, w)).2 = (s, after (h.dropIndex name) w) := by
  rw [dropIndex, run_bind_ok (run_collection_opened opened w)]
  rcases ran : (h.dropIndex name).run.run w with ⟨_ | _, w'⟩
  · rw [run_database_error ran, after, ran]
    rfl
  · rw [run_database_ok ran, after, ran]
    rfl

/-- A store's index request made whole: create an index on a field, or drop one by name. -/
inductive IndexRequest where
  | create (field : String) (ascending : Bool)
  | drop (name : String)

/-- What a store and the servers are left as by a request, whatever it answered. -/
def IndexRequest.apply (k : Kind) (σ : Store × World) : IndexRequest → Store × World
  | .create field ascending => ((createIndex k field ascending).run.run σ).2
  | .drop name => ((dropIndex k name).run.run σ).2

/-- Requests made one after another keep the store as it is and the indexes keyed on each leading
field at most once. -/
theorem keyedOnce_requests (opened : Opened s k h) (requests : List IndexRequest) {w : World}
    (inside : h.slot < w.slots.size) (keyed : KeyedOnce (w.collection h.slot).indexes) :
    ∃ w', requests.foldl (IndexRequest.apply k) (s, w) = (s, w') ∧ h.slot < w'.slots.size ∧
      KeyedOnce (w'.collection h.slot).indexes := by
  induction requests generalizing w with
  | nil => exact ⟨w, rfl, inside, keyed⟩
  | cons request rest ih =>
    rw [List.foldl_cons]
    cases request with
    | create field ascending =>
      obtain ⟨r, w', finished, ran⟩ := run_createIndex_opened opened w field ascending
      have kept := IndexCall.keyedOnce_finish inside (show (IndexCall.start field ascending).stage = .pending from rfl)
        keyed
      rw [finished] at kept
      rw [IndexRequest.apply, ran]
      exact ih (kept.1 ▸ inside) kept.2
    | drop name =>
      rcases dropping : (h.dropIndex name).run.run w with ⟨r, w'⟩
      obtain ⟨size, kept⟩ := Handle.dropIndex_run dropping inside
      rw [IndexRequest.apply, run_dropIndex_opened opened, after, dropping]
      exact ih (size ▸ inside) (keyed.sublist kept)

end Opened

/-- What the index request does, for a store that has opened the kind's collection. A request made
on its own is its listing step then its creating step, and a drop is the servers' own. Every step
that answers names an index there at that moment whose name starts with the call's field, and the
call's own index when it created one. Over any interleaving of steps and drops, index names stay
distinct and every index is one the collection had or one a call asks for. Requests made one after
another keep the indexes keyed on each leading field at most once. -/
theorem index_requests_name_their_field {s : Store} {k : Kind} {h : Handle} (opened : Opened s k h) :
    (∀ (w : World) (field : String) (ascending : Bool), ∃ r w',
      (IndexCall.start field ascending).finish h w = (⟨field, ascending, .answered r⟩, w') ∧
      (createIndex k field ascending).run.run (s, w) = (r.mapError .driver, (s, w'))) ∧
    (∀ (w : World) (name : String), ((dropIndex k name).run.run (s, w)).2 = (s, after (h.dropIndex name) w)) ∧
    (∀ (w : World) (call : IndexCall) (o : IndexOutcome), h.slot < w.slots.size →
      (call.stage = .pending ∨ call.stage = .listed) → (call.step h w).1.stage = .answered (.ok o) →
      IndexCall.Answers call ((call.step h w).2.collection h.slot).indexes o) ∧
    (∀ (w : World) (calls : List IndexCall) (events : List IndexEvent), w.Valid → h.slot < w.slots.size →
      (((runIndexEvents h events (calls, w)).2.collection h.slot).indexes.map (·.name)).Nodup ∧
      ∀ i ∈ ((runIndexEvents h events (calls, w)).2.collection h.slot).indexes,
        i ∈ (w.collection h.slot).indexes ∨ ∃ call ∈ calls, i = call.model.info) ∧
    (∀ (w : World) (requests : List IndexRequest), h.slot < w.slots.size →
      KeyedOnce (w.collection h.slot).indexes →
      KeyedOnce (((requests.foldl (IndexRequest.apply k) (s, w)).2.collection h.slot).indexes)) := by
  refine ⟨run_createIndex_opened opened, run_dropIndex_opened opened,
    fun w call o inside waiting answered => IndexCall.step_answers inside waiting answered,
    fun w calls events valid inside => ?_, fun w requests inside keyed => ?_⟩
  · have start : IndexRun h (w.collection h.slot).indexes (calls.map IndexCall.model) (calls, w) :=
      ⟨valid, inside, fun call member => List.mem_map_of_mem member, fun i member => .inl member⟩
    have run := start.events events
    refine ⟨(run.valid.collection h.slot).indexNames, fun i member => ?_⟩
    rcases run.sourced i member with old | ⟨m, asked, rfl⟩
    · exact .inl old
    · obtain ⟨call, called, rfl⟩ := List.mem_map.mp asked
      exact .inr ⟨call, called, rfl⟩
  · obtain ⟨w', ran, -, keyed'⟩ := keyedOnce_requests opened requests inside keyed
    rw [ran]
    exact keyed'

theorem roleOpened_opened : Opened (roleOpened {}).1 .role ⟨0, 0, "RoleState"⟩ :=
  ⟨by simp [roleOpened, Kind.collection], by simp [roleOpened, Kind.collection]⟩

/-- The role store, having opened the role collection, answers a request for an index on `level`
made on its own with the index it created. -/
theorem role_level_index_created :
    Opened (roleOpened {}).1 .role ⟨0, 0, "RoleState"⟩ ∧
      ∃ w', (createIndex .role "level" true).run.run (roleOpened {}) = (.ok (.created "level_1"), ((roleOpened {}).1, w')) := by
  obtain ⟨r, w', finished, ran⟩ := (index_requests_name_their_field roleOpened_opened).1 (roleOpened {}).2 "level" true
  have answered : ((IndexCall.start "level" true).finish ⟨0, 0, "RoleState"⟩ (roleOpened {}).2).1 =
      ⟨"level", true, .answered (.ok (.created "level_1"))⟩ := by
    rfl
  rw [finished] at answered
  cases answered
  exact ⟨roleOpened_opened, w', ran⟩

/-- Two runs where the index answered or left is not keyed on the field alone: a request for `level`
after one for `levelup` is answered with `levelup_1`, keyed on `levelup`; and two calls for `level`
in the two directions, interleaved so that both list before either creates, leave two indexes keyed
on `level`. -/
theorem index_requests_break_field_keys :
    (∃ σ₁ σ₂, (createIndex .role "levelup" true).run.run (roleOpened {}) = (.ok (.created "levelup_1"), σ₁) ∧
      (createIndex .role "level" true).run.run σ₁ = (.ok (.alreadyExists "levelup_1"), σ₂) ∧
      (σ₂.2.collection 0).indexes.map (·.keys) = [[⟨"levelup", true⟩]]) ∧
    ((runIndexEvents ⟨0, 0, "RoleState"⟩ [.advance 0, .advance 1, .advance 0, .advance 1]
        ([.start "level" true, .start "level" false], (roleOpened {}).2)).2.collection 0).indexes.map (·.keys) =
      [[⟨"level", true⟩], [⟨"level", false⟩]] := by
  refine ⟨?_, by decide⟩
  obtain ⟨r₁, w₁, first, ran₁⟩ := run_createIndex_opened roleOpened_opened (roleOpened {}).2 "levelup" true
  have stored : w₁ = ((IndexCall.start "levelup" true).finish ⟨0, 0, "RoleState"⟩ (roleOpened {}).2).2 := by
    rw [first]
  have created : ((IndexCall.start "levelup" true).finish ⟨0, 0, "RoleState"⟩ (roleOpened {}).2).1 =
      ⟨"levelup", true, .answered (.ok (.created "levelup_1"))⟩ := by
    rfl
  rw [first] at created
  cases created
  have listed : (w₁.collection (⟨0, 0, "RoleState"⟩ : Handle).slot).indexes = [⟨"levelup_1", [⟨"levelup", true⟩]⟩] := by
    rw [stored]
    rfl
  have foundIt : IndexCall.found "level" (w₁.collection (⟨0, 0, "RoleState"⟩ : Handle).slot).indexes =
      some (.alreadyExists "levelup_1") := by
    simp [IndexCall.found, listed, String.isPrefixOf]
  have opened : (w₁.connection (⟨0, 0, "RoleState"⟩ : Handle).connection).closed = false := by
    rw [stored]
    decide
  obtain ⟨w₂, found, same⟩ :=
    IndexCall.finish_found opened (show (IndexCall.start "level" true).stage = .pending from rfl) foundIt
  obtain ⟨r₂, w₂', second, ran₂⟩ := run_createIndex_opened roleOpened_opened w₁ "level" true
  rw [found] at second
  cases second
  refine ⟨_, _, ran₁, ran₂, ?_⟩
  rw [World.collection_eq_of_slots same]
  simp [listed]

end Store

end GameVault
