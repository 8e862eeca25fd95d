import TagLedger.Store.Load

/-!
# Slots of a variable

A removed variable loses its slots in every suite.
-/

namespace TagLedger.Suites

/-- The suite without slots for a variable; a suite that had none stays as it is. -/
def withoutSlots (variableId : String) (now : Int) (s : Suite) : Suite :=
  let kept := s.items.filter fun i => !i.isSlotFor variableId
  if kept.length = s.items.length then s else { s with items := kept, updatedAt := now }

def hasSlot (variableId : String) (s : Suite) : Bool := s.items.any (·.isSlotFor variableId)

/-- Removes the slots of a variable from every suite; the number of suites that changed. -/
def removeSlots (variableId : String) : Activity Storage Nat := do
  let suites ← Storage.suites
  let changed := (suites.filter fun s => hasSlot variableId s.2).length
  if changed ≠ 0 then
    let now ← Storage.now
    Storage.saveSuites (suites.map fun s => (s.1, withoutSlots variableId now s.2))
  return changed

end TagLedger.Suites
