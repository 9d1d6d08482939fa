import Mathlib
import GameVault.Proofs.Value.CanonicalOrder

namespace GameVault

/-- Splitting on a dot, from a position after `l` in a segment that has read `m`, gives the pieces
already split and then the rest split at its dots. -/
theorem String.splitOnAux_dot (l m r : List Char) (acc : List String) :
    String.splitOnAux (String.ofList (l ++ m ++ r)) "." ⟨String.utf8Len l⟩
        ⟨String.utf8Len l + String.utf8Len m⟩ 0 acc =
      acc.reverse ++ (List.splitOnPPrepend (· == '.') r m.reverse).map String.ofList := by
  unfold String.splitOnAux
  simp only [List.append_assoc, String.atEnd_iff, String.rawEndPos_ofList, String.utf8Len_append,
    String.Pos.Raw.mk_le_mk, Nat.add_le_add_iff_left,
    (by omega : String.utf8Len m + String.utf8Len r ≤ String.utf8Len m ↔ String.utf8Len r = 0),
    String.utf8Len_eq_zero, List.reverse_cons]
  split
  · subst r
    simpa using String.extract_of_valid l m []
  · obtain ⟨c, r, rfl⟩ := r.exists_cons_of_ne_nil ‹_›
    have get := String.get_of_valid (l ++ m) (c :: r)
    have next := String.next_of_valid (l ++ m) c r
    simp only [List.append_assoc, String.utf8Len_append] at get next
    have dot : String.Pos.Raw.get "." 0 = '.' := by decide
    have dotNext : String.Pos.Raw.next "." 0 = ⟨1⟩ := by decide
    have dotEnd : ".".rawEndPos ≤ ⟨1⟩ := by decide
    rw [get, dot, dotNext, if_pos dotEnd, next, String.Pos.Raw.unoffsetBy_zero, next]
    by_cases sep : c = '.'
    · subst sep
      have back : (⟨String.utf8Len l + String.utf8Len m + Char.utf8Size '.'⟩ : String.Pos.Raw).unoffsetBy ⟨1⟩ =
          ⟨String.utf8Len l + String.utf8Len m⟩ := by
        have narrow : Char.utf8Size '.' = 1 := by decide
        simp [String.Pos.Raw.unoffsetBy, narrow]
      have piece := String.extract_of_valid l m ('.' :: r)
      simp only [List.append_assoc] at piece
      rw [if_pos (by simp), back, piece]
      simpa [Nat.add_assoc, List.splitOnPPrepend_cons_pos] using
        String.splitOnAux_dot (l ++ m ++ ['.']) [] r (String.ofList m :: acc)
    · rw [if_neg (by simpa using sep)]
      simpa [Nat.add_assoc, List.splitOnPPrepend_cons_neg, sep] using
        String.splitOnAux_dot l (m ++ [c]) r acc

theorem String.splitOn_dot (s : String) : s.splitOn "." = (s.toList.splitOn '.').map String.ofList := by
  obtain ⟨cs, rfl⟩ := s.exists_eq_ofList
  rw [String.splitOn, if_neg (by decide)]
  simpa [List.splitOn_eq_splitOnP] using String.splitOnAux_dot [] [] cs []

namespace Value

theorem getPath?_split (v : Value) (path : String) :
    v.getPath? path = ((path.toList.splitOn '.').map String.ofList).foldlM (fun cur seg => cur.get? seg) v := by
  rw [getPath?, String.splitOn_dot]

/-- The text keys of pairs, in order. -/
def textKeys (entries : List (Value × Value)) : List String := (entries.map Prod.fst).filterMap asText?

/-- Pairs sorted by the canonical order of their keys. -/
def KeysSorted (entries : List (Value × Value)) : Prop :=
  entries.Pairwise fun p q => canonicalCmp p.1 q.1 ≠ .gt

theorem asText?_eq_some_iff {k : Value} {s : String} : k.asText? = some s ↔ k = .text s := by
  cases k <;> simp [asText?]

theorem mem_textKeys {key : String} {entries : List (Value × Value)} :
    key ∈ textKeys entries ↔ ∃ p ∈ entries, isKey key p.1 = true := by
  simp [textKeys, asText?_eq_some_iff, isKey_iff]

theorem textKeys_append (l r : List (Value × Value)) : textKeys (l ++ r) = textKeys l ++ textKeys r := by
  simp [textKeys]

theorem textKeys_perm {l l' : List (Value × Value)} (perm : l.Perm l') : (textKeys l).Perm (textKeys l') :=
  (perm.map Prod.fst).filterMap asText?

theorem keysSorted_iff {entries : List (Value × Value)} :
    KeysSorted entries ↔ (entries.map Prod.fst).Pairwise fun a b => canonicalCmp a b ≠ .gt := by
  rw [KeysSorted, List.pairwise_map]

/-- Where the text keys are distinct, a pair keyed `key` is the only one. -/
theorem unkeyed_of_keyed {key : String} {pre post : List (Value × Value)} {k v : Value}
    (distinct : (textKeys (pre ++ (k, v) :: post)).Nodup) (keyed : isKey key k = true) :
    ∀ q ∈ pre ++ post, isKey key q.1 = false := by
  intro q member
  refine Bool.eq_false_iff.mpr fun qKeyed => ?_
  have split : textKeys (pre ++ (k, v) :: post) = textKeys pre ++ key :: textKeys post := by
    rw [textKeys_append, isKey_iff.mp keyed]
    simp [textKeys, asText?]
  rw [split, List.nodup_append, List.nodup_cons] at distinct
  rcases List.mem_append.mp member with early | late
  · exact distinct.2.2 key (mem_textKeys.mpr ⟨q, early, qKeyed⟩) key (by simp) rfl
  · exact distinct.2.1.1 (mem_textKeys.mpr ⟨q, late, qKeyed⟩)

theorem isKey_other {key key' : String} {k : Value} (keyed : isKey key k = true) (differ : key' ≠ key) :
    isKey key' k = false := by
  simpa [isKey_iff.mp keyed, isKey] using differ.symm

theorem lookup_append (key : String) (l r : List (Value × Value)) :
    lookup key (l ++ r) = (lookup key l).or (lookup key r) := by
  induction l with
  | nil => simp [lookup]
  | cons p rest ih =>
    obtain ⟨k, v⟩ := p
    by_cases keyed : isKey key k <;> simp [lookup, keyed, ih]

/-- The value a key reads is the one of its first pair. -/
theorem lookup_eq_some_split {key : String} {entries : List (Value × Value)} {v : Value}
    (found : lookup key entries = some v) :
    ∃ pre k post, entries = pre ++ (k, v) :: post ∧ isKey key k = true ∧ ∀ p ∈ pre, isKey key p.1 = false := by
  induction entries with
  | nil => simp [lookup] at found
  | cons p rest ih =>
    obtain ⟨k, w⟩ := p
    by_cases keyed : isKey key k
    · simp only [lookup, keyed, if_true, Option.some.injEq] at found
      exact ⟨[], k, rest, by rw [found]; rfl, keyed, by simp⟩
    · simp only [lookup, keyed, Bool.false_eq_true, if_false] at found
      obtain ⟨pre, k', post, rfl, keyed', before⟩ := ih found
      refine ⟨(k, w) :: pre, k', post, rfl, keyed', ?_⟩
      simpa [keyed] using before

theorem lookup_first {key : String} {pre post : List (Value × Value)} {k v : Value} (keyed : isKey key k = true)
    (before : ∀ p ∈ pre, isKey key p.1 = false) : lookup key (pre ++ (k, v) :: post) = some v := by
  simp [lookup_append, lookup_eq_none_iff.mpr before, lookup, keyed]

/-- Where the text keys are distinct, reordering the pairs reads every key alike. -/
theorem lookup_perm {l l' : List (Value × Value)} (perm : l.Perm l') (distinct : (textKeys l).Nodup)
    (key : String) : lookup key l = lookup key l' := by
  cases found : lookup key l with
  | none =>
    refine (lookup_eq_none_iff.mpr fun p member => ?_).symm
    exact lookup_eq_none_iff.mp found p (perm.mem_iff.mpr member)
  | some v =>
    obtain ⟨pre, k, post, rfl, keyed, -⟩ := lookup_eq_some_split found
    have others := unkeyed_of_keyed distinct keyed
    refine (lookup_eq_some_of_unique ⟨(k, v), perm.mem_iff.mp (by simp), keyed⟩ fun q member qKeyed => ?_).symm
    rcases List.mem_append.mp (perm.mem_iff.mpr member) with early | late
    · simp [others q (by simp [early])] at qKeyed
    · rcases List.mem_cons.mp late with rfl | late
      · rfl
      · simp [others q (by simp [late])] at qKeyed

theorem replaceFirst_eq_some {key : String} {x : Value} {entries entries' : List (Value × Value)} {old : Value}
    (replaced : replaceFirst key x entries = some (old, entries')) :
    ∃ pre k post, entries = pre ++ (k, old) :: post ∧ isKey key k = true ∧ (∀ p ∈ pre, isKey key p.1 = false) ∧
      entries' = pre ++ (k, x) :: post := by
  induction entries generalizing entries' with
  | nil => simp [replaceFirst] at replaced
  | cons p rest ih =>
    obtain ⟨k, w⟩ := p
    by_cases keyed : isKey key k
    · simp only [replaceFirst, keyed, if_true, Option.some.injEq, Prod.mk.injEq] at replaced
      obtain ⟨rfl, rfl⟩ := replaced
      exact ⟨[], k, rest, rfl, keyed, by simp, rfl⟩
    · simp only [replaceFirst, keyed, Bool.false_eq_true, if_false] at replaced
      obtain ⟨⟨old', rest'⟩, later, same⟩ := Option.map_eq_some_iff.mp replaced
      simp only [Prod.mk.injEq] at same
      obtain ⟨rfl, rfl⟩ := same
      obtain ⟨pre, k', post, rfl, keyed', before, rfl⟩ := ih later
      exact ⟨(k, w) :: pre, k', post, rfl, keyed', by simpa [keyed] using before, rfl⟩

theorem removeFirst_eq_some {key : String} {entries rest : List (Value × Value)} {old : Value}
    (removed : removeFirst key entries = some (old, rest)) :
    ∃ pre k post, entries = pre ++ (k, old) :: post ∧ isKey key k = true ∧ (∀ p ∈ pre, isKey key p.1 = false) ∧
      rest = pre ++ post := by
  induction entries generalizing rest with
  | nil => simp [removeFirst] at removed
  | cons p others ih =>
    obtain ⟨k, w⟩ := p
    by_cases keyed : isKey key k
    · simp only [removeFirst, keyed, if_true, Option.some.injEq, Prod.mk.injEq] at removed
      obtain ⟨rfl, rfl⟩ := removed
      exact ⟨[], k, others, rfl, keyed, by simp, rfl⟩
    · simp only [removeFirst, keyed, Bool.false_eq_true, if_false] at removed
      obtain ⟨⟨old', rest'⟩, later, same⟩ := Option.map_eq_some_iff.mp removed
      simp only [Prod.mk.injEq] at same
      obtain ⟨rfl, rfl⟩ := same
      obtain ⟨pre, k', post, rfl, keyed', before, rfl⟩ := ih later
      exact ⟨(k, w) :: pre, k', post, rfl, keyed', by simpa [keyed] using before, rfl⟩

theorem replaceFirst_eq_none_iff {key : String} {x : Value} {entries : List (Value × Value)} :
    replaceFirst key x entries = none ↔ ∀ p ∈ entries, isKey key p.1 = false := by
  induction entries with
  | nil => simp [replaceFirst]
  | cons p rest ih =>
    obtain ⟨k, v⟩ := p
    by_cases keyed : isKey key k <;> simp [replaceFirst, keyed, ih]

theorem removeFirst_eq_none_iff {key : String} {entries : List (Value × Value)} :
    removeFirst key entries = none ↔ ∀ p ∈ entries, isKey key p.1 = false := by
  induction entries with
  | nil => simp [removeFirst]
  | cons p rest ih =>
    obtain ⟨k, v⟩ := p
    by_cases keyed : isKey key k <;> simp [removeFirst, keyed, ih]

/-- What setting a key of a map with distinct text keys does: it answers the value the key read,
after it the key reads the new value and every other key reads as before, a pair is added exactly
when the key was new, the text keys stay distinct and sorted pairs stay sorted. -/
structure SetsKey (entries : List (Value × Value)) (key : String) (x : Value) (result : Option Value × Value) :
    Prop where
  previous : result.1 = (Value.map entries).get? key
  reads_new : result.2.get? key = some x
  reads_others : ∀ key', key' ≠ key → result.2.get? key' = (Value.map entries).get? key'
  size : result.2.size? = some (if ((Value.map entries).get? key).isSome then entries.length else entries.length + 1)
  distinct : ∃ entries', result.2 = .map entries' ∧ (textKeys entries').Nodup
  sorted : KeysSorted entries → ∃ entries', result.2 = .map entries' ∧ KeysSorted entries'

/-- Setting a key the map has replaces the value of its pair in place. -/
theorem set_present {key : String} {x old : Value} {entries entries' : List (Value × Value)}
    (distinct : (textKeys entries).Nodup) (replaced : replaceFirst key x entries = some (old, entries')) :
    SetsKey entries key x ((Value.map entries).set key x) := by
  obtain ⟨pre, k, post, rfl, keyed, before, rfl⟩ := replaceFirst_eq_some replaced
  have sameKeys : (pre ++ (k, x) :: post).map Prod.fst = (pre ++ (k, old) :: post).map Prod.fst := by simp
  have sameTexts : textKeys (pre ++ (k, x) :: post) = textKeys (pre ++ (k, old) :: post) := by
    rw [textKeys, textKeys, sameKeys]
  simp only [set, replaced]
  refine ⟨?_, ?_, fun key' differ => ?_, ?_, ⟨_, rfl, sameTexts ▸ distinct⟩, fun sorted => ⟨_, rfl, ?_⟩⟩
  · simp [get?, lookup_first keyed before]
  · simp [get?, lookup_first keyed before]
  · simp [get?, lookup_append, lookup, isKey_other keyed differ]
  · simp [get?, size?, lookup_first keyed before]
  · rw [keysSorted_iff, sameKeys]
    exact keysSorted_iff.mp sorted

/-- Setting a key the map lacks adds the pair and sorts the pairs again. -/
theorem set_absent {key : String} {x : Value} {entries : List (Value × Value)}
    (distinct : (textKeys entries).Nodup) (absent : lookup key entries = none) :
    SetsKey entries key x ((Value.map entries).set key x) := by
  have unkeyed := lookup_eq_none_iff.mp absent
  have grown : (textKeys (entries ++ [(.text key, x)])).Nodup := by
    rw [textKeys_append, List.nodup_append]
    refine ⟨distinct, by simp [textKeys, asText?], fun a member b added => ?_⟩
    simp only [textKeys, List.map_cons, List.map_nil, List.filterMap_cons, asText?, List.filterMap_nil,
      List.mem_singleton] at added
    obtain ⟨p, mp, keyed⟩ := mem_textKeys.mp member
    rintro rfl
    simp [added, unkeyed p mp] at keyed
  have sortedTexts : (textKeys (sortEntries (entries ++ [(.text key, x)]))).Nodup :=
    (textKeys_perm (sortEntries_perm _)).symm.nodup_iff.mp grown
  have reads : ∀ key', lookup key' (sortEntries (entries ++ [(.text key, x)])) =
      (lookup key' entries).or (lookup key' [(.text key, x)]) := fun key' => by
    rw [← lookup_append, lookup_perm (sortEntries_perm _).symm grown]
  rw [set_of_lookup_eq_none absent]
  refine ⟨absent.symm, ?_, fun key' differ => ?_, ?_, ⟨_, rfl, sortedTexts⟩, fun _ => ⟨_, rfl, ?_⟩⟩
  · simp [get?, reads, absent, lookup, isKey]
  · simp [get?, reads, lookup, isKey, Ne.symm differ]
  · simp [get?, size?, sortEntries, absent]
  · exact (sortEntries_pairwise _).imp fun {p q} le => by simpa using le

theorem set_laws {entries : List (Value × Value)} (distinct : (textKeys entries).Nodup) (key : String)
    (x : Value) : SetsKey entries key x ((Value.map entries).set key x) := by
  cases replaced : replaceFirst key x entries with
  | some result => exact set_present distinct replaced
  | none => exact set_absent distinct (lookup_eq_none_iff.mpr (replaceFirst_eq_none_iff.mp replaced))

/-- Dropping the pairs keyed `key` leaves every other key reading as before. -/
theorem lookup_filter_other {key key' : String} (differ : key' ≠ key) (entries : List (Value × Value)) :
    lookup key' (entries.filter fun p => !isKey key p.1) = lookup key' entries := by
  induction entries with
  | nil => rfl
  | cons p rest ih =>
    obtain ⟨k, v⟩ := p
    by_cases keyed : isKey key k
    · simp [keyed, lookup, isKey_other keyed differ, ih]
    · simp [keyed, lookup, ih]

/-- What removing a key of a map with distinct text keys does: it answers the value the key read,
after it the key reads nothing and every other key reads as before, and the pairs left are the
map's pairs but the key's, in their order. -/
structure RemovesKey (entries : List (Value × Value)) (key : String) (result : Option Value × Value) : Prop where
  previous : result.1 = (Value.map entries).get? key
  gone : result.2.get? key = none
  reads_others : ∀ key', key' ≠ key → result.2.get? key' = (Value.map entries).get? key'
  kept : result.2 = .map (entries.filter fun p => !isKey key p.1)

/-- Where the text keys are distinct, removing the first pair of a key removes all of them. -/
theorem remove_eq_filter {entries : List (Value × Value)} (distinct : (textKeys entries).Nodup) (key : String) :
    (Value.map entries).remove key = (lookup key entries, .map (entries.filter fun p => !isKey key p.1)) := by
  cases removed : removeFirst key entries with
  | some result =>
    obtain ⟨old, rest⟩ := result
    obtain ⟨pre, k, post, rfl, keyed, before, rfl⟩ := removeFirst_eq_some removed
    have others := unkeyed_of_keyed distinct keyed
    have kept : (pre ++ (k, old) :: post).filter (fun p => !isKey key p.1) = pre ++ post := by
      rw [List.filter_append, List.filter_cons, if_neg (by simp [keyed])]
      rw [List.filter_eq_self.mpr fun p member => by simp [others p (by simp [member])],
        List.filter_eq_self.mpr fun p member => by simp [others p (by simp [member])]]
    simp [remove, removed, kept, lookup_first keyed before]
  | none =>
    have absent := removeFirst_eq_none_iff.mp removed
    have kept : entries.filter (fun p => !isKey key p.1) = entries :=
      List.filter_eq_self.mpr fun p member => by simp [absent p member]
    simp [remove, removed, kept, lookup_eq_none_iff.mpr absent]

theorem remove_laws {entries : List (Value × Value)} (distinct : (textKeys entries).Nodup) (key : String) :
    RemovesKey entries key ((Value.map entries).remove key) := by
  rw [remove_eq_filter distinct]
  refine ⟨rfl, lookup_eq_none_iff.mpr fun p member => ?_, fun key' differ => lookup_filter_other differ entries, rfl⟩
  simpa using (List.mem_filter.mp member).2

theorem set_of_not_map {v : Value} (notMap : v.asMap? = none) (key : String) (x : Value) :
    v.set key x = (none, v) := by
  cases v <;> simp_all [set, asMap?]

theorem remove_of_not_map {v : Value} (notMap : v.asMap? = none) (key : String) : v.remove key = (none, v) := by
  cases v <;> simp_all [remove, asMap?]

theorem ofPairs_perm {ps qs : List (Value × Value)} (perm : ps.Perm qs) (free : ∀ p ∈ ps, p.1.NaNFree)
    (distinct : ps.Pairwise fun p q => (p.1 == q.1) = false) : ofPairs ps = ofPairs qs := by
  rw [ofPairs, ofPairs, sortEntries_perm_eq perm free distinct]

end Value

namespace Body

/-- The items of a bag give one document whatever order the bag holds them in. -/
theorem bag_fields_perm {items items' : List (Int32 × UInt32)} (perm : items.Perm items')
    (distinct : (items.map Prod.fst).Nodup) : (Body.bag items).fields = (Body.bag items').fields := by
  have keysDiffer : items.Pairwise fun p q => (Value.int p.1.toInt64 == Value.int q.1.toInt64) = false := by
    refine (List.pairwise_map.mp distinct).imp fun {p q} differ => ?_
    have wide : p.1.toInt64 ≠ q.1.toInt64 := fun same => by
      have narrow := congrArg Int64.toInt same
      simp only [Int32.toInt_toInt64] at narrow
      exact differ (Int32.toInt_inj.mp narrow)
    simpa [BEq.beq, Value.beq] using wide
  simp only [fields]
  rw [Value.ofPairs_perm (perm.map _) ?free (List.pairwise_map.mpr keysDiffer)]
  intro p member
  obtain ⟨⟨k, n⟩, -, rfl⟩ := List.mem_map.mp member
  simp [Value.NaNFree, Value.every, Value.nanFreeHere]

end Body

/-- Map values obey the laws of a finite map where their text keys are distinct: setting a key and
removing one do what `SetsKey` and `RemovesKey` say, a path is read one key per segment between its
dots, a map built from pairs with distinct keys free of NaN, a bag's items among them, is one value
whatever order the pairs come in, and values other than maps are left alone. -/
theorem map_values_obey_map_laws :
    (∀ entries : List (Value × Value), (Value.textKeys entries).Nodup → ∀ key x,
        Value.SetsKey entries key x ((Value.map entries).set key x) ∧
          Value.RemovesKey entries key ((Value.map entries).remove key)) ∧
      (∀ (v : Value) path, v.getPath? path =
        ((path.toList.splitOn '.').map String.ofList).foldlM (fun cur seg => cur.get? seg) v) ∧
      (∀ ps qs : List (Value × Value), ps.Perm qs → (∀ p ∈ ps, p.1.NaNFree) →
        ps.Pairwise (fun p q => (p.1 == q.1) = false) → Value.ofPairs ps = Value.ofPairs qs) ∧
      (∀ items items' : List (Int32 × UInt32), items.Perm items' → (items.map Prod.fst).Nodup →
        (Body.bag items).fields = (Body.bag items').fields) ∧
      (∀ v : Value, v.asMap? = none → ∀ key x, v.set key x = (none, v) ∧ v.remove key = (none, v)) :=
  ⟨fun _ distinct key x => ⟨Value.set_laws distinct key x, Value.remove_laws distinct key⟩,
    Value.getPath?_split, fun _ _ => Value.ofPairs_perm, fun _ _ => Body.bag_fields_perm,
    fun _ notMap key x => ⟨Value.set_of_not_map notMap key x, Value.remove_of_not_map notMap key⟩⟩

/-- A role's fields gain a key at its place in the order and lose it again, a bag's two items give
one document in either order, and an integer has no key to set. -/
theorem role_and_bag_obey_map_laws :
    Value.SetsKey [(.text "gold", .int 5), (.text "name", .text "a")] "level" (.int 1)
        ((Value.map [(.text "gold", .int 5), (.text "name", .text "a")]).set "level" (.int 1)) ∧
      Value.RemovesKey [(.text "gold", .int 5), (.text "name", .text "a")] "gold"
        ((Value.map [(.text "gold", .int 5), (.text "name", .text "a")]).remove "gold") ∧
      (Body.bag [(1, 3), (2, 4)]).fields = (Body.bag [(2, 4), (1, 3)]).fields ∧
      (Value.int 3).set "level" (.int 1) = (none, .int 3) :=
  ⟨(map_values_obey_map_laws.1 _ (by decide) "level" (.int 1)).1,
    (map_values_obey_map_laws.1 _ (by decide) "gold" (.int 1)).2,
    map_values_obey_map_laws.2.2.2.1 _ _ (List.Perm.swap _ _ []) (by decide),
    (map_values_obey_map_laws.2.2.2.2 _ rfl "level" (.int 1)).1⟩

end GameVault
