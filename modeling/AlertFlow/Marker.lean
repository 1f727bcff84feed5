import AlertFlow.Fingerprint
import AlertFlow.Table

/-!
Marks on alerts: which silence mutes an alert, and whether other alerts inhibit it.
-/
namespace AlertFlow

/-- The marks by fingerprint of the alert. -/
structure Marker where
  silences : Table Fingerprint Nat := .empty
  inhibitions : Table Fingerprint Unit := .empty

namespace Marker

/-- The silence that mutes an alert. -/
def silencedBy? (m : Marker) (fp : Fingerprint) : Option Nat := m.silences.get? fp

def isInhibited (m : Marker) (fp : Fingerprint) : Bool := (m.inhibitions.get? fp).isSome

/-- Mutes an alert by a silence, in place of another. -/
def silence (m : Marker) (fp : Fingerprint) (id : Nat) : Marker :=
  { m with silences := m.silences.insert fp id }

def inhibit (m : Marker) (fp : Fingerprint) : Marker :=
  { m with inhibitions := m.inhibitions.insert fp () }

def uninhibit (m : Marker) (fp : Fingerprint) : Marker :=
  { m with inhibitions := m.inhibitions.erase fp }

/-- Removes every mark of an alert. -/
def unset (m : Marker) (fp : Fingerprint) : Marker :=
  { silences := m.silences.erase fp, inhibitions := m.inhibitions.erase fp }

end Marker

end AlertFlow
