import AlertFlow.Alert
import AlertFlow.Table

/-!
What a group holds: the last version of each of its alerts, with a revision that every insertion
makes anew, and whether anything was delivered yet. A delivery works on a snapshot; when it has
succeeded, the alerts of the snapshot that were resolved at its time and have not been inserted
since are given up.
-/
namespace AlertFlow

/-- An alert in a group, with the revision of its last insertion. -/
structure HeldAlert where
  revision : Nat
  alert : Alert

/-- The alerts taken for one delivery. -/
abbrev Snapshot := List (Fingerprint × HeldAlert)

/-- The alerts of a group and its account of insertions and deliveries. -/
structure Holdings where
  held : Table Fingerprint HeldAlert := .empty
  nextRevision : Nat := 0
  hasSent : Bool := false

namespace Holdings

/-- Inserts an alert, in place of an earlier version. -/
def insert (h : Holdings) (a : Alert) : Holdings :=
  { h with
    held := h.held.insert a.fingerprint ⟨h.nextRevision, a⟩
    nextRevision := h.nextRevision + 1 }

/-- The alerts held now, with their revisions. -/
def snapshot (h : Holdings) : Snapshot := h.held.toList

/-- Gives up an alert of a delivered snapshot if it was resolved and is still the version held. -/
def release (now : Instant) (held : Table Fingerprint HeldAlert) (e : Fingerprint × HeldAlert) :
    Table Fingerprint HeldAlert :=
  match held.get? e.1 with
  | some current =>
    if current.revision = e.2.revision ∧ e.2.alert.isResolvedAt now then held.erase e.1 else held
  | none => held

/-- Settles the delivery of a snapshot that was taken for a time. -/
def settle (h : Holdings) (s : Snapshot) (now : Instant) : Holdings :=
  { h with held := s.foldl (release now) h.held, hasSent := true }

def alerts (h : Holdings) : List Alert := h.held.values.map (·.alert)

end Holdings

end AlertFlow
