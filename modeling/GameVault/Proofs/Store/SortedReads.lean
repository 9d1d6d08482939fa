import Mathlib
import GameVault.Proofs.Value.QueryOrder
import GameVault.Proofs.Sorting.Quick
import GameVault.Proofs.Store.Reloads

namespace GameVault

open Database

/-- The part of a list a page shows: `size` values after the ones it skips. -/
def Page.of {α : Type} (p : Page) (xs : List α) : List α := (xs.drop p.skip).take p.size

namespace Database.Collection

variable {key : String} {ascending : Bool} {selected : List Value}

end Database.Collection

end GameVault
