import Mathlib
import GameVault.Cbor.Decode

namespace GameVault.Cbor

/-- A read that left a suffix of its input: it moved forward and stopped within the input. -/
def Forward {input : List UInt8} {α : Type} (r : Read input α) : Prop := r.rest <:+ input

/-- A read that, when it succeeds, has consumed at least `k` bytes. -/
def Consumes {input : List UInt8} {α : Type} (k : Nat) (r : Read input α) : Prop :=
  ∀ a, r.result = .ok a → r.rest.length + k ≤ input.length

theorem forward_takeBytes (n : Nat) (bs : List UInt8) : Forward (takeBytes n bs) := by
  unfold takeBytes
  split
  · exact List.drop_suffix n bs
  · exact List.suffix_refl bs

theorem Forward.of_eq {input : List UInt8} {α : Type} {r r' : Read input α} (fwd : Forward r) (same : r = r') :
    Forward r' :=
  same ▸ fwd

theorem forward_readArgument (info : Nat) (bs : List UInt8) : Forward (readArgument info bs) := by
  unfold readArgument
  split_ifs
  all_goals try exact List.suffix_refl bs
  all_goals
    dsimp only
    split
    · rename_i taken
      have bytes := (forward_takeBytes _ bs).of_eq taken
      split_ifs <;> exact bytes
    · rename_i taken
      exact (forward_takeBytes _ bs).of_eq taken

theorem forward_readLength (info limit : Nat) (bs : List UInt8) : Forward (readLength info limit bs) := by
  have argument := forward_readArgument info bs
  unfold readLength
  generalize readArgument info bs = r at argument ⊢
  rcases r with ⟨_ | n, rest, bound⟩
  · exact argument
  · dsimp only
    split_ifs <;> exact argument

theorem forward_readString (info : Nat) (bs : List UInt8) : Forward (readString info bs) := by
  have length := forward_readLength info maxStringLength bs
  unfold readString
  generalize readLength info maxStringLength bs = r at length ⊢
  rcases r with ⟨_ | n, rest, bound⟩
  · exact length
  · exact (forward_takeBytes n rest).trans length

theorem forward_readSimple (info : Nat) (bs : List UInt8) : Forward (readSimple info bs) := by
  unfold readSimple
  split_ifs
  all_goals try exact List.suffix_refl bs
  have taken := forward_takeBytes 8 bs
  generalize takeBytes 8 bs = r at taken ⊢
  rcases r with ⟨_ | raw, rest, bound⟩
  · exact taken
  · dsimp only
    split_ifs <;> exact taken

/-- Reads of a value from inputs of at most `bound` bytes move forward and take at least a byte
when they succeed. -/
def ValuesForward (bound : Nat) : Prop :=
  ∀ bs : List UInt8, bs.length ≤ bound → Forward (readValue bs) ∧ Consumes 1 (readValue bs)

theorem readItems_forward {bound : Nat} (values : ValuesForward bound) (n : Nat) :
    ∀ bs : List UInt8, bs.length ≤ bound → Forward (readItems n bs) ∧ Consumes n (readItems n bs) := by
  induction n with
  | zero =>
    intro bs _
    rw [readItems]
    exact ⟨List.suffix_refl bs, fun _ _ => by simp [Read.here]⟩
  | succ n ih =>
    intro bs short
    obtain ⟨first, firstTakes⟩ := values bs short
    rw [readItems]
    generalize readValue bs = r at first firstTakes ⊢
    rcases r with ⟨_ | v, mid, bound'⟩
    · exact ⟨first, fun _ failed => by simp [Read.fail] at failed⟩
    · have took := firstTakes v rfl
      obtain ⟨others, othersTake⟩ := ih mid (first.length_le.trans short)
      dsimp only at took ⊢
      generalize readItems n mid = r' at others othersTake ⊢
      rcases r' with ⟨_ | vs, rest, bound''⟩
      · exact ⟨others.trans first, fun _ failed => by simp [Read.fail] at failed⟩
      · have tookAll := othersTake vs rfl
        refine ⟨others.trans first, fun _ _ => ?_⟩
        simp only [Read.ok] at took tookAll ⊢
        omega

theorem readEntries_forward {bound : Nat} (values : ValuesForward bound) (n : Nat) :
    ∀ (previous : Option (List UInt8)) (bs : List UInt8), bs.length ≤ bound →
      Forward (readEntries n previous bs) ∧ Consumes (2 * n) (readEntries n previous bs) := by
  induction n with
  | zero =>
    intro previous bs _
    rw [readEntries]
    exact ⟨List.suffix_refl bs, fun _ _ => by simp [Read.here]⟩
  | succ n ih =>
    intro previous bs short
    obtain ⟨key, keyTakes⟩ := values bs short
    rw [readEntries]
    generalize readValue bs = r at key keyTakes ⊢
    rcases r with ⟨_ | k, mid, bound'⟩
    · exact ⟨key, fun _ failed => by simp [Read.fail] at failed⟩
    · have tookKey := keyTakes k rfl
      dsimp only at tookKey ⊢
      split_ifs
      · obtain ⟨value, valueTakes⟩ := values mid (key.length_le.trans short)
        generalize readValue mid = r' at value valueTakes ⊢
        rcases r' with ⟨_ | v, mid', bound''⟩
        · exact ⟨value.trans key, fun _ failed => by simp [Read.fail] at failed⟩
        · have tookValue := valueTakes v rfl
          obtain ⟨more, moreTake⟩ := ih (some (bs.take (bs.length - mid.length))) mid'
            ((value.trans key).length_le.trans short)
          dsimp only at tookValue ⊢
          generalize readEntries n _ mid' = r'' at more moreTake ⊢
          rcases r'' with ⟨_ | es, rest, bound'''⟩
          · exact ⟨more.trans (value.trans key), fun _ failed => by simp [Read.fail] at failed⟩
          · have tookAll := moreTake es rfl
            refine ⟨more.trans (value.trans key), fun _ _ => ?_⟩
            simp only [Read.ok] at tookKey tookValue tookAll ⊢
            omega
      · exact ⟨key, fun _ failed => by simp [Read.fail] at failed⟩

/-- A value read from bytes that are not empty consumes the first byte whatever happens: what it
leaves is a suffix of the bytes after it. -/
theorem readValue_cons_suffix {bound : Nat} (values : ValuesForward bound) (b : UInt8) (tl : List UInt8)
    (short : tl.length ≤ bound) : (readValue (b :: tl)).rest <:+ tl := by
  rw [readValue]
  by_cases int : b.toNat / 32 = 0 ∨ b.toNat / 32 = 1
  · rw [if_pos int]
    have argument := forward_readArgument (b.toNat % 32) tl
    generalize readArgument (b.toNat % 32) tl = r at argument ⊢
    rcases r with ⟨_ | n, rest, h⟩
    · exact argument
    · dsimp only
      split_ifs <;> exact argument
  rw [if_neg int]
  by_cases bytes : b.toNat / 32 = 2
  · rw [if_pos bytes]
    have string := forward_readString (b.toNat % 32) tl
    generalize readString (b.toNat % 32) tl = r at string ⊢
    rcases r with ⟨_ | raw, rest, h⟩ <;> exact string
  rw [if_neg bytes]
  by_cases text : b.toNat / 32 = 3
  · rw [if_pos text]
    have string := forward_readString (b.toNat % 32) tl
    generalize readString (b.toNat % 32) tl = r at string ⊢
    rcases r with ⟨_ | raw, rest, h⟩
    · exact string
    · dsimp only
      split <;> exact string
  rw [if_neg text]
  by_cases array : b.toNat / 32 = 4
  · rw [if_pos array]
    have length := forward_readLength (b.toNat % 32) maxEntries tl
    generalize readLength (b.toNat % 32) maxEntries tl = r at length ⊢
    rcases r with ⟨_ | n, rest, h⟩
    · exact length
    · have items := (readItems_forward values n rest (length.length_le.trans short)).1
      dsimp only
      generalize readItems n rest = r' at items ⊢
      rcases r' with ⟨_ | items', rest', h'⟩ <;> exact items.trans length
  rw [if_neg array]
  by_cases map : b.toNat / 32 = 5
  · rw [if_pos map]
    have length := forward_readLength (b.toNat % 32) maxEntries tl
    generalize readLength (b.toNat % 32) maxEntries tl = r at length ⊢
    rcases r with ⟨_ | n, rest, h⟩
    · exact length
    · have entries := (readEntries_forward values n none rest (length.length_le.trans short)).1
      dsimp only
      generalize readEntries n none rest = r' at entries ⊢
      rcases r' with ⟨_ | entries', rest', h'⟩ <;> exact entries.trans length
  rw [if_neg map]
  by_cases tagged : b.toNat / 32 = 6
  · rw [if_pos tagged]
    exact List.suffix_refl tl
  · rw [if_neg tagged]
    exact forward_readSimple (b.toNat % 32) tl

theorem valuesForward (bound : Nat) : ValuesForward bound := by
  induction bound with
  | zero =>
    intro bs short
    rw [List.length_eq_zero_iff.mp (Nat.le_zero.mp short), readValue]
    exact ⟨List.suffix_refl [], fun _ failed => by simp [Read.stop] at failed⟩
  | succ bound ih =>
    intro bs short
    cases bs with
    | nil =>
      rw [readValue]
      exact ⟨List.suffix_refl [], fun _ failed => by simp [Read.stop] at failed⟩
    | cons b tl =>
      have after := readValue_cons_suffix ih b tl (by simpa using short)
      refine ⟨after.trans (List.suffix_cons b tl), fun _ _ => ?_⟩
      have := after.length_le
      simp only [List.length_cons]
      omega

theorem Forward.take_append {input : List UInt8} {α : Type} {r : Read input α} (fwd : Forward r) :
    input.take (input.length - r.rest.length) ++ r.rest = input := by
  obtain ⟨pre, whole⟩ := fwd
  generalize r.rest = rest at whole ⊢
  subst whole
  simp

/-- The reader moves forward through every input, and values, element lists and pair lists take at
least one, `n` and `2 * n` bytes when they are read; the key slice the map reader checks the key
order on is the bytes before what the key left. -/
theorem reader_moves_forward (bs : List UInt8) :
    (Forward (readValue bs) ∧ Consumes 1 (readValue bs)) ∧
      (∀ n, Forward (readItems n bs) ∧ Consumes n (readItems n bs)) ∧
      (∀ n previous, Forward (readEntries n previous bs) ∧ Consumes (2 * n) (readEntries n previous bs)) ∧
      bs.take (bs.length - (readValue bs).rest.length) ++ (readValue bs).rest = bs := by
  have values := valuesForward bs.length
  have value := values bs le_rfl
  exact ⟨value, fun n => readItems_forward values n bs le_rfl,
    fun n previous => readEntries_forward values n previous bs le_rfl, value.1.take_append⟩

/-- An array or a map that claims more entries than there are bytes left is refused. -/
theorem claims_past_end_refused {n : Nat} {bs : List UInt8} (overlong : bs.length < n)
    (previous : Option (List UInt8)) :
    (∃ e, (readItems n bs).result = .error e) ∧ ∃ e, (readEntries n previous bs).result = .error e := by
  have values := valuesForward bs.length
  have items := (readItems_forward values n bs le_rfl).2
  have entries := (readEntries_forward values n previous bs le_rfl).2
  constructor
  · cases read : (readItems n bs).result with
    | error e => exact ⟨e, rfl⟩
    | ok found => exact absurd (items found read) (by omega)
  · cases read : (readEntries n previous bs).result with
    | error e => exact ⟨e, rfl⟩
    | ok found => exact absurd (entries found read) (by omega)

end GameVault.Cbor
