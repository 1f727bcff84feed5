import AlertFlow.Group
import AlertFlow.Proofs.Hash.Layout

/-!
What a group key tells apart. A key is a hash of two hashes, that of the grouping labels and that of
the route. None of the byte strings that are hashed leaves anything of its value out, so two groups
of different labels or routes share a key only if the hash itself takes two different byte strings
for the same.
-/
namespace AlertFlow

/-- Whether the hash takes two different byte strings for the same. -/
def Xxh3.Collide (a b : List UInt8) : Prop := a ≠ b ∧ Xxh3.hash a = Xxh3.hash b

namespace Fingerprint

/-- The sixteen bytes that are hashed when two fingerprints are combined. -/
def pairBytes (a b : Fingerprint) : List UInt8 :=
  littleEndian 8 a.bits.toNat ++ littleEndian 8 b.bits.toNat

theorem length_pairBytes (a b : Fingerprint) : (pairBytes a b).length = 16 := by
  rw [pairBytes, List.length_append, length_littleEndian, length_littleEndian]

theorem pairBytes_inj {a b a' b' : Fingerprint} (h : pairBytes a b = pairBytes a' b') :
    a = a' ∧ b = b' := by
  have word : ∀ {x y : Fingerprint}, littleEndian 8 x.bits.toNat = littleEndian 8 y.bits.toNat →
      x = y := by
    intro x y hbytes
    have hbits := littleEndian_inj hbytes x.bits.toNat_lt y.bits.toNat_lt
    exact congrArg Fingerprint.mk (UInt64.toNat_inj.1 hbits)
  obtain ⟨hfirst, hsecond⟩ := List.append_inj h (by simp only [length_littleEndian])
  exact ⟨word hfirst, word hsecond⟩

end Fingerprint

namespace RouteId

/-- The sixteen bytes of an identifier. -/
def bytes (id : RouteId) : List UInt8 := HashLayout.layout id

theorem length_bytes (id : RouteId) : id.bytes.length = 16 := by
  show (bigEndian 16 id.bits.toNat).length = 16
  rw [bigEndian, List.length_reverse, length_littleEndian]

theorem bytes_inj {a b : RouteId} (h : a.bytes = b.bytes) : a = b := by
  have hbits : a.bits.toNat = b.bits.toNat := bigEndian_inj h a.bits.isLt b.bits.isLt
  exact congrArg RouteId.mk (BitVec.eq_of_toNat_eq hbits)

end RouteId

namespace Group

open Xxh3 (Collide)

/-- The sixteen bytes of which the key of a group is the hash. -/
def keyBytes (g : Group) : List UInt8 := g.fingerprint.pairBytes g.route.fingerprint

/-- What is hashed for a group: its labels, the identifier of its route, and the fingerprints that
these two give. -/
theorem hashed_bytes (g : Group) :
    g.fingerprint.bits = Xxh3.hash g.labels.bytes ∧
      g.route.fingerprint.bits = Xxh3.hash g.route.id.bytes ∧
      g.key.bits = Xxh3.hash g.keyBytes := ⟨rfl, rfl, rfl⟩

/-- **Keys are ambiguous only by the hash.** A label set is determined by the bytes under which it
is fingerprinted. So if two groups differ in their labels or in their routes and yet have one key,
then the hash confuses the bytes of the labels, the sixteen of the two identifiers, or the sixteen
of the two pairs of fingerprints. -/
theorem same_key_by_collision :
    (∀ s t : LabelSet, s.bytes = t.bytes ↔ s = t) ∧
    (∀ g : Group, g.fingerprint.bits = Xxh3.hash g.labels.bytes ∧
      g.route.fingerprint.bits = Xxh3.hash g.route.id.bytes ∧ g.route.id.bytes.length = 16 ∧
      g.key.bits = Xxh3.hash g.keyBytes ∧ g.keyBytes.length = 16) ∧
    ∀ g h : Group, (g.labels, g.route.id) ≠ (h.labels, h.route.id) → g.key = h.key →
      Collide g.labels.bytes h.labels.bytes ∨ Collide g.route.id.bytes h.route.id.bytes ∨
        Collide g.keyBytes h.keyBytes := by
  refine ⟨fun s t => LabelSet.bytes_inj, fun g => ?_, ?_⟩
  · obtain ⟨hlabels, hroute, hkey⟩ := g.hashed_bytes
    exact ⟨hlabels, hroute, g.route.id.length_bytes, hkey, Fingerprint.length_pairBytes _ _⟩
  intro g h hne hkey
  obtain ⟨hlabels, hroute, hg⟩ := g.hashed_bytes
  obtain ⟨hlabels', hroute', hh⟩ := h.hashed_bytes
  by_cases hpair : g.keyBytes = h.keyBytes
  · -- the fingerprints are the same, so one of them stands for two values
    obtain ⟨hfirst, hsecond⟩ := Fingerprint.pairBytes_inj hpair
    rw [hfirst, hlabels'] at hlabels
    rw [hsecond, hroute'] at hroute
    by_cases hsame : g.labels = h.labels
    · have hid : g.route.id ≠ h.route.id := fun hid => hne (Prod.ext hsame hid)
      exact .inr (.inl ⟨fun hbytes => hid (RouteId.bytes_inj hbytes), hroute.symm⟩)
    · exact .inl ⟨fun hbytes => hsame (LabelSet.bytes_inj.1 hbytes), hlabels.symm⟩
  · rw [hkey, hh] at hg
    exact .inr (.inr ⟨hpair, hg.symm⟩)

/-- A group of one route, by the value of one label. -/
def zoneGroup (zone : String) : Group where
  labels := .ofList [("a", zone)]
  route :=
    { id := .ofNat 1
      options :=
        { receiver := "ops", groupWait := .ofSecs 30, groupInterval := .ofSecs 300,
          repeatInterval := .ofSecs 14400 }
      matchers := .empty, continues := false, children := [] }
  serial := 0

/-- Two groups of one route that share a key, because the hash confuses their labels. -/
theorem zones_confused_by_hash :
    (zoneGroup "M2aij0tqp5F").key = (zoneGroup "Iuhr70HbklM").key ∧
      Collide (zoneGroup "M2aij0tqp5F").labels.bytes (zoneGroup "Iuhr70HbklM").labels.bytes := by
  have hlabels : (zoneGroup "M2aij0tqp5F").fingerprint = (zoneGroup "Iuhr70HbklM").fingerprint := by
    decide +kernel
  have hkey : (zoneGroup "M2aij0tqp5F").key = (zoneGroup "Iuhr70HbklM").key :=
    congrArg (·.combine (zoneGroup "Iuhr70HbklM").route.fingerprint) hlabels
  refine ⟨hkey, ?_⟩
  rcases same_key_by_collision.2.2 (zoneGroup "M2aij0tqp5F") (zoneGroup "Iuhr70HbklM")
    (by decide +kernel) hkey with hcollide | hroute | hpair
  · exact hcollide
  · exact absurd rfl hroute.1
  · exact absurd (congrArg (·.pairBytes (zoneGroup "Iuhr70HbklM").route.fingerprint) hlabels)
      hpair.1

end Group

end AlertFlow
