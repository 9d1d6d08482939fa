import GameVault.Entity.Basic

namespace GameVault

/-- The result of a change check: whether the content changed, its fingerprint and its document. -/
structure ChangeSet where
  changed : Bool
  fingerprint : Fingerprint
  document : Value

namespace Entity

/-- Checks an entity against its baseline. -/
def checkChanges (e : Entity) : Except CodecError ChangeSet := do
  let doc ← e.document
  let fingerprint ← Fingerprint.of doc
  pure ⟨e.audit.baseline != some fingerprint, fingerprint, doc⟩

/-- Sets the baseline. -/
def attach (e : Entity) (baseline : Option Fingerprint) : Entity :=
  { e with audit := { e.audit with baseline } }

/-- Records a save of content with this fingerprint: the baseline moves to it and the save hook
runs. -/
def markSaved (e : Entity) (fingerprint : Fingerprint) : Entity :=
  (e.attach (some fingerprint)).afterSave

end Entity

end GameVault
