import Mathlib
import GameVault.Cbor.Item
import GameVault.Proofs.Value.MapLaws

namespace GameVault

theorem except_bind_eq_error {ε α β : Type} {x : Except ε α} {f : α → Except ε β} {e : ε} :
    x >>= f = .error e ↔ x = .error e ∨ ∃ a, x = .ok a ∧ f a = .error e := by
  cases x <;> simp [bind, Except.bind]

namespace Item

/-- Induction over items with a hypothesis for every element of an array, for every key and value
of a map and for the item under a tag. Items nest through lists, so the plain `induction` tactic
refuses them. -/
@[induction_eliminator]
theorem nestedInduction {motive : Item → Prop}
    (null : motive .null) (bool : ∀ b, motive (.bool b)) (int : ∀ n, motive (.int n))
    (float : ∀ x, motive (.float x)) (bytes : ∀ bs, motive (.bytes bs)) (text : ∀ s, motive (.text s))
    (array : ∀ items, (∀ x ∈ items, motive x) → motive (.array items))
    (map : ∀ entries, (∀ p ∈ entries, motive p.1 ∧ motive p.2) → motive (.map entries))
    (tag : ∀ n item, motive item → motive (.tag n item)) :
    ∀ c, motive c
  | .null => null
  | .bool b => bool b
  | .int n => int n
  | .float x => float x
  | .bytes bs => bytes bs
  | .text s => text s
  | .array items => array items fun x _ => nestedInduction null bool int float bytes text array map tag x
  | .map entries => map entries fun p _ =>
      ⟨nestedInduction null bool int float bytes text array map tag p.1,
        nestedInduction null bool int float bytes text array map tag p.2⟩
  | .tag n item => tag n item (nestedInduction null bool int float bytes text array map tag item)
termination_by c => sizeOf c
decreasing_by
  all_goals simp_wf
  · have := List.sizeOf_lt_of_mem ‹x ∈ items›
    omega
  all_goals
    have := List.sizeOf_lt_of_mem ‹p ∈ entries›
    cases p
    simp only [Prod.mk.sizeOf_spec] at this ⊢
    omega

mutual
/-- Whether an item and every item inside it, map keys and tagged items included, pass `p`. -/
def every (p : Item → Bool) : Item → Bool
  | .array items => p (.array items) && everyItem p items
  | .map entries => p (.map entries) && everyEntry p entries
  | .tag n item => p (.tag n item) && every p item
  | c => p c

/-- Whether every element passes `every p`. -/
def everyItem (p : Item → Bool) : List Item → Bool
  | [] => true
  | x :: xs => every p x && everyItem p xs

/-- Whether every key and value passes `every p`. -/
def everyEntry (p : Item → Bool) : List (Item × Item) → Bool
  | [] => true
  | (k, v) :: rest => every p k && every p v && everyEntry p rest
end

/-- Whether an integer item fits a signed 64-bit integer; other items have nothing to fit. -/
def fitsHere : Item → Bool
  | .int n => decide (-9223372036854775808 ≤ n ∧ n ≤ 9223372036854775807)
  | _ => true

/-- Whether an item is other than a tag. -/
def untagged : Item → Bool
  | .tag .. => false
  | _ => true

/-- Every integer in the item, at any depth, fits a signed 64-bit integer. -/
def IntsFit (c : Item) : Prop := c.every fitsHere = true

/-- No tag anywhere in the item. -/
def TagFree (c : Item) : Prop := c.every untagged = true

instance : DecidablePred IntsFit := fun c => inferInstanceAs (Decidable (c.every fitsHere = true))

instance : DecidablePred TagFree := fun c => inferInstanceAs (Decidable (c.every untagged = true))

theorem everyItem_iff {p : Item → Bool} {items : List Item} :
    everyItem p items = true ↔ ∀ x ∈ items, every p x = true := by
  induction items with
  | nil => simp [everyItem]
  | cons x xs ih => simp [everyItem, ih]

theorem everyEntry_iff {p : Item → Bool} {entries : List (Item × Item)} :
    everyEntry p entries = true ↔ ∀ e ∈ entries, every p e.1 = true ∧ every p e.2 = true := by
  induction entries with
  | nil => simp [everyEntry]
  | cons e rest ih =>
    obtain ⟨k, v⟩ := e
    simp [everyEntry, ih, and_assoc]

theorem every_array {p : Item → Bool} {items : List Item} :
    every p (.array items) = true ↔ p (.array items) = true ∧ ∀ x ∈ items, every p x = true := by
  simp [every, everyItem_iff]

theorem every_map {p : Item → Bool} {entries : List (Item × Item)} :
    every p (.map entries) = true ↔
      p (.map entries) = true ∧ ∀ e ∈ entries, every p e.1 = true ∧ every p e.2 = true := by
  simp [every, everyEntry_iff]

end Item

namespace Value

mutual
/-- A document with the pairs of every map, at every depth and map keys included, sorted
canonically by key. -/
def sortMaps : Value → Value
  | .array items => .array (sortMapsItems items)
  | .map entries => ofPairs (sortMapsEntries entries)
  | v => v

/-- The elements with their maps sorted. -/
def sortMapsItems : List Value → List Value
  | [] => []
  | v :: rest => sortMaps v :: sortMapsItems rest

/-- The keys and values with their maps sorted. -/
def sortMapsEntries : List (Value × Value) → List (Value × Value)
  | [] => []
  | (k, v) :: rest => (sortMaps k, sortMaps v) :: sortMapsEntries rest
end

instance (entries : List (Value × Value)) : Decidable (KeysSorted entries) :=
  inferInstanceAs (Decidable (entries.Pairwise _))

/-- Whether a value, if a map, has its pairs sorted canonically by key. -/
def keysSortedHere : Value → Bool
  | .map entries => decide (KeysSorted entries)
  | _ => true

/-- Every map in the document, at any depth and map keys included, has its pairs sorted
canonically by key. -/
def MapsSorted (v : Value) : Prop := v.every keysSortedHere = true

instance : DecidablePred MapsSorted := fun v => inferInstanceAs (Decidable (v.every keysSortedHere = true))

theorem itemsToItems_eq_map (items : List Value) : itemsToItems items = items.map toItem := by
  induction items with
  | nil => rfl
  | cons x xs ih => simp [itemsToItems, ih]

theorem entriesToItems_eq_map (entries : List (Value × Value)) :
    entriesToItems entries = entries.map fun p => (p.1.toItem, p.2.toItem) := by
  induction entries with
  | nil => rfl
  | cons p rest ih =>
    obtain ⟨k, v⟩ := p
    simp [entriesToItems, ih]

theorem sortMaps_array (items : List Value) : (Value.array items).sortMaps = .array (items.map sortMaps) := by
  rw [sortMaps]
  congr
  induction items with
  | nil => rfl
  | cons x xs ih => simp [sortMapsItems, ih]

theorem sortMaps_map (entries : List (Value × Value)) :
    (Value.map entries).sortMaps = ofPairs (entries.map fun p => (p.1.sortMaps, p.2.sortMaps)) := by
  rw [sortMaps]
  congr
  induction entries with
  | nil => rfl
  | cons p rest ih =>
    obtain ⟨k, v⟩ := p
    simp [sortMapsEntries, ih]

theorem itemsToValues_toItem {items : List Value} (back : ∀ x ∈ items, x.toItem.toValue = .ok x.sortMaps) :
    Item.itemsToValues (items.map toItem) = .ok (items.map sortMaps) := by
  induction items with
  | nil => rfl
  | cons x xs ih =>
    simp [Item.itemsToValues, back x (by simp), ih fun y member => back y (by simp [member]), bind, Except.bind,
      pure, Except.pure]

theorem entriesToValues_toItem {entries : List (Value × Value)}
    (back : ∀ p ∈ entries, p.1.toItem.toValue = .ok p.1.sortMaps ∧ p.2.toItem.toValue = .ok p.2.sortMaps) :
    Item.entriesToValues (entries.map fun p => (p.1.toItem, p.2.toItem)) =
      .ok (entries.map fun p => (p.1.sortMaps, p.2.sortMaps)) := by
  induction entries with
  | nil => rfl
  | cons p rest ih =>
    obtain ⟨keyBack, valueBack⟩ := back p (by simp)
    simp [Item.entriesToValues, keyBack, valueBack, ih fun q member => back q (by simp [member]), bind,
      Except.bind, pure, Except.pure]

/-- A document comes back from its item with its maps sorted. -/
theorem toItem_toValue (v : Value) : v.toItem.toValue = .ok v.sortMaps := by
  induction v with
  | int n =>
    have low := Int64.le_toInt n
    have high := Int64.toInt_lt n
    simp only [toItem, Item.toValue, sortMaps, Int64.ofInt_toInt]
    rw [if_pos (by omega)]
    rfl
  | array items ih =>
    simp [toItem, Item.toValue, itemsToItems_eq_map, itemsToValues_toItem ih, sortMaps_array]
  | map entries ih =>
    simp [toItem, Item.toValue, entriesToItems_eq_map, entriesToValues_toItem ih, sortMaps_map]
  | _ => rfl

/-- Sorting the maps of a document whose maps are sorted changes nothing. -/
theorem sortMaps_of_mapsSorted {v : Value} (sorted : v.MapsSorted) : v.sortMaps = v := by
  induction v with
  | array items ih =>
    rw [MapsSorted, every_array] at sorted
    rw [sortMaps_array, List.map_congr_left fun x member => ih x member (sorted.2 x member)]
    simp
  | map entries ih =>
    rw [MapsSorted, every_map] at sorted
    have same : entries.map (fun p => (p.1.sortMaps, p.2.sortMaps)) = entries := by
      refine (List.map_congr_left fun p member => ?_).trans (List.map_id entries)
      obtain ⟨keySorted, valueSorted⟩ := sorted.2 p member
      rw [ih p member |>.1 keySorted, ih p member |>.2 valueSorted]
      rfl
    have keysSorted : KeysSorted entries := by simpa [keysSortedHere] using sorted.1
    rw [sortMaps_map, same, ofPairs, sortEntries, List.mergeSort_of_pairwise]
    exact keysSorted.imp fun {p q} le => by simpa using le
  | _ => rfl

/-- Every map of a document with its maps sorted is sorted. -/
theorem mapsSorted_sortMaps (v : Value) : v.sortMaps.MapsSorted := by
  induction v with
  | array items ih =>
    rw [sortMaps_array, MapsSorted, every_array]
    refine ⟨rfl, fun y member => ?_⟩
    obtain ⟨x, inItems, rfl⟩ := List.mem_map.mp member
    exact ih x inItems
  | map entries ih =>
    rw [sortMaps_map, ofPairs, MapsSorted, every_map]
    refine ⟨decide_eq_true ((sortEntries_pairwise _).imp fun {p q} le => by simpa using le), fun e member => ?_⟩
    obtain ⟨p, inEntries, rfl⟩ := List.mem_map.mp ((sortEntries_perm _).mem_iff.mp member)
    exact ih p inEntries
  | _ => rfl

end Value

namespace Item

theorem exists_itemsToItems {items : List Item} (lift : ∀ x ∈ items, ∃ w : Value, x = w.toItem) :
    ∃ ws : List Value, items = ws.map Value.toItem := by
  induction items with
  | nil => exact ⟨[], rfl⟩
  | cons x xs ih =>
    obtain ⟨w, rfl⟩ := lift x (by simp)
    obtain ⟨ws, rfl⟩ := ih fun y member => lift y (by simp [member])
    exact ⟨w :: ws, rfl⟩

theorem exists_entriesToItems {entries : List (Item × Item)}
    (lift : ∀ p ∈ entries, (∃ w : Value, p.1 = w.toItem) ∧ ∃ w : Value, p.2 = w.toItem) :
    ∃ ws : List (Value × Value), entries = ws.map fun p => (p.1.toItem, p.2.toItem) := by
  induction entries with
  | nil => exact ⟨[], rfl⟩
  | cons p rest ih =>
    obtain ⟨⟨k, keyed⟩, ⟨w, valued⟩⟩ := lift p (by simp)
    obtain ⟨ws, rfl⟩ := ih fun q member => lift q (by simp [member])
    exact ⟨(k, w) :: ws, by simp [← keyed, ← valued]⟩

/-- An item with no tag and every integer in 64 bits is the item of a document. -/
theorem exists_toItem {c : Item} (free : c.TagFree) (fit : c.IntsFit) : ∃ w : Value, c = w.toItem := by
  induction c with
  | null => exact ⟨.null, rfl⟩
  | bool b => exact ⟨.bool b, rfl⟩
  | int n =>
    have bounds : -9223372036854775808 ≤ n ∧ n ≤ 9223372036854775807 := by
      simpa [IntsFit, every, fitsHere] using fit
    refine ⟨.int (Int64.ofInt n), ?_⟩
    rw [Value.toItem, Int64.toInt_ofInt_of_le (by omega) (by omega)]
  | float x => exact ⟨.float x, rfl⟩
  | bytes bs => exact ⟨.bytes bs, rfl⟩
  | text s => exact ⟨.text s, rfl⟩
  | array items ih =>
    rw [TagFree, every_array] at free
    rw [IntsFit, every_array] at fit
    obtain ⟨ws, rfl⟩ := exists_itemsToItems fun x member => ih x member (free.2 x member) (fit.2 x member)
    exact ⟨.array ws, by rw [Value.toItem, Value.itemsToItems_eq_map]⟩
  | map entries ih =>
    rw [TagFree, every_map] at free
    rw [IntsFit, every_map] at fit
    obtain ⟨ws, rfl⟩ := exists_entriesToItems fun p member =>
      ⟨(ih p member).1 (free.2 p member).1 (fit.2 p member).1, (ih p member).2 (free.2 p member).2 (fit.2 p member).2⟩
    exact ⟨.map ws, by rw [Value.toItem, Value.entriesToItems_eq_map]⟩
  | tag n item ih => simp [TagFree, every, untagged] at free

theorem itemsToValues_eq_ok {items : List Item} {vs : List Value} (converted : itemsToValues items = .ok vs) :
    ∀ x ∈ items, ∃ v, x.toValue = .ok v := by
  induction items generalizing vs with
  | nil => simp
  | cons x xs ih =>
    simp only [itemsToValues] at converted
    obtain ⟨v, first, rest⟩ := except_bind_eq_ok.mp converted
    obtain ⟨ws, later, -⟩ := except_bind_eq_ok.mp rest
    intro y member
    rcases List.mem_cons.mp member with rfl | member
    · exact ⟨v, first⟩
    · exact ih later y member

theorem entriesToValues_eq_ok {entries : List (Item × Item)} {vs : List (Value × Value)}
    (converted : entriesToValues entries = .ok vs) :
    ∀ p ∈ entries, (∃ v, p.1.toValue = .ok v) ∧ ∃ v, p.2.toValue = .ok v := by
  induction entries generalizing vs with
  | nil => simp
  | cons p rest ih =>
    obtain ⟨k, v⟩ := p
    simp only [entriesToValues] at converted
    obtain ⟨k', key, more⟩ := except_bind_eq_ok.mp converted
    obtain ⟨v', value, more⟩ := except_bind_eq_ok.mp more
    obtain ⟨ws, later, -⟩ := except_bind_eq_ok.mp more
    intro q member
    rcases List.mem_cons.mp member with rfl | member
    · exact ⟨⟨k', key⟩, ⟨v', value⟩⟩
    · exact ih later q member

/-- An item that converts has no tag and every integer in it fits 64 bits. -/
theorem fits_of_toValue_eq_ok {c : Item} {v : Value} (converted : c.toValue = .ok v) : c.TagFree ∧ c.IntsFit := by
  induction c generalizing v with
  | int n =>
    rw [toValue] at converted
    split_ifs at converted with bounds
    · simpa [TagFree, IntsFit, every, untagged, fitsHere] using bounds
  | array items ih =>
    rw [toValue] at converted
    obtain ⟨vs, converted, -⟩ := except_bind_eq_ok.mp converted
    have fits : ∀ x ∈ items, x.TagFree ∧ x.IntsFit := fun x member =>
      let ⟨_, back⟩ := itemsToValues_eq_ok converted x member
      ih x member back
    simp only [TagFree, IntsFit, every_array, untagged, fitsHere, true_and]
    exact ⟨fun x member => (fits x member).1, fun x member => (fits x member).2⟩
  | map entries ih =>
    rw [toValue] at converted
    obtain ⟨vs, converted, -⟩ := except_bind_eq_ok.mp converted
    have fits : ∀ p ∈ entries, (p.1.TagFree ∧ p.1.IntsFit) ∧ p.2.TagFree ∧ p.2.IntsFit := fun p member =>
      let ⟨⟨_, key⟩, ⟨_, value⟩⟩ := entriesToValues_eq_ok converted p member
      ⟨(ih p member).1 key, (ih p member).2 value⟩
    simp only [TagFree, IntsFit, every_map, untagged, fitsHere, true_and]
    exact ⟨fun p member => ⟨(fits p member).1.1, (fits p member).2.1⟩,
      fun p member => ⟨(fits p member).1.2, (fits p member).2.2⟩⟩
  | tag n item ih => simp [toValue] at converted
  | _ => exact ⟨rfl, rfl⟩

theorem toItem_fits (v : Value) : v.toItem.TagFree ∧ v.toItem.IntsFit :=
  fits_of_toValue_eq_ok (Value.toItem_toValue v)

/-- Why an item is refused: an integer overflow where an integer does not fit 64 bits, a refused
tag where there is a tag. -/
def Refusal (c : Item) (e : CodecError) : Prop :=
  (e = .integerOverflow ∧ ¬c.IntsFit) ∨ ∃ n, e = .unsupportedType (.tag n) ∧ ¬c.TagFree

theorem Refusal.lift {x c : Item} {e : CodecError} (inside : ∀ p, c.every p = true → x.every p = true)
    (refused : x.Refusal e) : c.Refusal e := by
  rcases refused with ⟨overflow, notFit⟩ | ⟨n, tagged, notFree⟩
  · exact Or.inl ⟨overflow, fun fit => notFit (inside _ fit)⟩
  · exact Or.inr ⟨n, tagged, fun free => notFree (inside _ free)⟩

theorem itemsToValues_eq_error {items : List Item} {e : CodecError} (refused : itemsToValues items = .error e) :
    ∃ x ∈ items, x.toValue = .error e := by
  induction items with
  | nil => simp [itemsToValues, pure, Except.pure] at refused
  | cons x xs ih =>
    simp only [itemsToValues] at refused
    rcases except_bind_eq_error.mp refused with first | ⟨v, -, rest⟩
    · exact ⟨x, by simp, first⟩
    · rcases except_bind_eq_error.mp rest with later | ⟨_, -, never⟩
      · obtain ⟨y, member, refusedHere⟩ := ih later
        exact ⟨y, by simp [member], refusedHere⟩
      · simp [pure, Except.pure] at never

theorem entriesToValues_eq_error {entries : List (Item × Item)} {e : CodecError}
    (refused : entriesToValues entries = .error e) :
    ∃ p ∈ entries, p.1.toValue = .error e ∨ p.2.toValue = .error e := by
  induction entries with
  | nil => simp [entriesToValues, pure, Except.pure] at refused
  | cons p rest ih =>
    obtain ⟨k, v⟩ := p
    simp only [entriesToValues] at refused
    rcases except_bind_eq_error.mp refused with key | ⟨_, -, more⟩
    · exact ⟨(k, v), by simp, Or.inl key⟩
    rcases except_bind_eq_error.mp more with value | ⟨_, -, more⟩
    · exact ⟨(k, v), by simp, Or.inr value⟩
    rcases except_bind_eq_error.mp more with later | ⟨_, -, never⟩
    · obtain ⟨q, member, refusedHere⟩ := ih later
      exact ⟨q, by simp [member], refusedHere⟩
    · simp [pure, Except.pure] at never

/-- A refused item is refused for the cause the error names. -/
theorem refusal_of_toValue_eq_error {c : Item} {e : CodecError} (refused : c.toValue = .error e) : c.Refusal e := by
  induction c with
  | int n =>
    rw [toValue] at refused
    split_ifs at refused with bounds
    · cases refused
    · cases refused
      exact Or.inl ⟨rfl, by simpa [IntsFit, every, fitsHere] using bounds⟩
  | array items ih =>
    rw [toValue] at refused
    rcases except_bind_eq_error.mp refused with inner | ⟨_, -, never⟩
    · obtain ⟨x, member, here⟩ := itemsToValues_eq_error inner
      exact (ih x member here).lift fun p all => (every_array.mp all).2 x member
    · simp [pure, Except.pure] at never
  | map entries ih =>
    rw [toValue] at refused
    rcases except_bind_eq_error.mp refused with inner | ⟨_, -, never⟩
    · obtain ⟨q, member, here⟩ := entriesToValues_eq_error inner
      rcases here with key | value
      · exact ((ih q member).1 key).lift fun p all => ((every_map.mp all).2 q member).1
      · exact ((ih q member).2 value).lift fun p all => ((every_map.mp all).2 q member).2
    · simp [pure, Except.pure] at never
  | tag n item ih =>
    rw [toValue] at refused
    cases refused
    exact Or.inr ⟨n, rfl, by simp [TagFree, every, untagged]⟩
  | _ => simp [toValue, pure, Except.pure] at refused

end Item

/-- Items and documents convert into each other up to the order of map pairs. An item with no tag
and every integer in 64 bits is the item of a document and converts into that document with its
maps sorted canonically by their converted keys; an item converts exactly when it is such an item,
and a refusal is an integer overflow of an item with an integer outside 64 bits or a refused tag of
an item with a tag. A document comes back from its item with every map sorted, which is the
document itself when its maps were sorted. -/
theorem items_and_documents_convert_back :
    (∀ c : Item, c.TagFree → c.IntsFit → ∃ w : Value, c = w.toItem ∧ c.toValue = .ok w.sortMaps) ∧
      (∀ c : Item, (∃ v, c.toValue = .ok v) ↔ c.TagFree ∧ c.IntsFit) ∧
      (∀ (c : Item) (e : CodecError), c.toValue = .error e →
        (e = .integerOverflow ∧ ¬c.IntsFit) ∨ ∃ n, e = .unsupportedType (.tag n) ∧ ¬c.TagFree) ∧
      (∀ v : Value, v.toItem.toValue = .ok v.sortMaps ∧ v.sortMaps.MapsSorted) ∧
      (∀ v : Value, v.MapsSorted → v.sortMaps = v) := by
  have lift : ∀ c : Item, c.TagFree → c.IntsFit → ∃ w : Value, c = w.toItem ∧ c.toValue = .ok w.sortMaps := by
    intro c free fit
    obtain ⟨w, rfl⟩ := Item.exists_toItem free fit
    exact ⟨w, rfl, Value.toItem_toValue w⟩
  refine ⟨lift, fun c => ⟨fun ⟨_, converted⟩ => Item.fits_of_toValue_eq_ok converted, fun ⟨free, fit⟩ => ?_⟩,
    fun c e refused => Item.refusal_of_toValue_eq_error refused,
    fun v => ⟨Value.toItem_toValue v, Value.mapsSorted_sortMaps v⟩, fun v sorted => Value.sortMaps_of_mapsSorted sorted⟩
  obtain ⟨w, -, converted⟩ := lift c free fit
  exact ⟨_, converted⟩

/-- A record of two fields converts into its document with the fields sorted, the largest unsigned
64-bit integer is refused as an overflow, and a map with its integer keys in order is its own
sorted form. -/
theorem record_converts_and_large_integer_refused :
    (∃ w : Value, Item.map [(.text "speed", .int 3), (.text "id", .int 7)] = w.toItem ∧
        (Item.map [(.text "speed", .int 3), (.text "id", .int 7)]).toValue = .ok w.sortMaps) ∧
      ((CodecError.integerOverflow = .integerOverflow ∧ ¬(Item.int 18446744073709551615).IntsFit) ∨
        ∃ n, CodecError.integerOverflow = .unsupportedType (.tag n) ∧ ¬(Item.int 18446744073709551615).TagFree) ∧
      (Value.map [(.int 1, .int 100), (.int 2, .int 5)]).sortMaps = .map [(.int 1, .int 100), (.int 2, .int 5)] :=
  ⟨items_and_documents_convert_back.1 _ (by decide) (by decide),
    items_and_documents_convert_back.2.2.1 _ _ (by rw [Item.toValue, if_neg (by decide)]),
    items_and_documents_convert_back.2.2.2.2 _ (by decide)⟩

end GameVault
