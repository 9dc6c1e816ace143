import Mathlib.Data.List.InsertIdx
import Mathlib.Data.List.Nodup
import Mathlib.Logic.Function.Basic
/-!
# Leases of identifiers

A list of leases gives identifiers to owners.  It is proper when no identifier and
no owner occurs twice.  A table `ι → Option ο` kept elsewhere holds the leases when
it has exactly these entries; granting and revoking a lease updates one entry.
-/

namespace Support.Leases

variable {ι ο : Type*} {leases : List (ι × ο)} {holder : ι → Option ο}

structure Proper (leases : List (ι × ο)) : Prop where
  ids : (leases.map Prod.fst).Nodup
  owners : (leases.map Prod.snd).Nodup

def Held (leases : List (ι × ο)) (holder : ι → Option ο) : Prop :=
  ∀ id owner, holder id = some owner ↔ (id, owner) ∈ leases

theorem Proper.nil : Proper ([] : List (ι × ο)) := ⟨.nil, .nil⟩

theorem Proper.grant (h : Proper leases) {id : ι} {owner : ο}
    (hid : id ∉ leases.map Prod.fst) (howner : owner ∉ leases.map Prod.snd) :
    Proper (leases ++ [(id, owner)]) := by
  constructor
  · rw [List.map_append]
    exact h.ids.append (List.nodup_singleton id) (by simpa using hid)
  · rw [List.map_append]
    exact h.owners.append (List.nodup_singleton owner) (by simpa using howner)

theorem Proper.revoke (h : Proper leases) (index : Nat) : Proper (leases.eraseIdx index) := by
  constructor
  · rw [← List.eraseIdx_map]
    exact h.ids.eraseIdx index
  · rw [← List.eraseIdx_map]
    exact h.owners.eraseIdx index

/-- A lease that is left after a revocation is one of another identifier. -/
theorem Proper.mem_revoke (h : Proper leases) {index : Nat} {id : ι} {owner : ο}
    (hlease : leases[index]? = some (id, owner)) (other : ι × ο) :
    other ∈ leases.eraseIdx index ↔ other ∈ leases ∧ other.1 ≠ id := by
  obtain ⟨hindex, hget⟩ := List.getElem?_eq_some_iff.mp hlease
  rw [List.mem_eraseIdx_iff_getElem?]
  constructor
  · rintro ⟨i, hi, hother⟩
    refine ⟨List.mem_of_getElem? hother, fun hid => hi ?_⟩
    obtain ⟨hlt, hgeti⟩ := List.getElem?_eq_some_iff.mp hother
    have hi : i < (leases.map Prod.fst).length := by simpa using hlt
    have hj : index < (leases.map Prod.fst).length := by simpa using hindex
    have hsame : (leases.map Prod.fst)[i] = (leases.map Prod.fst)[index] := by
      rw [List.getElem_map, List.getElem_map, hgeti, hget]
      exact hid
    exact h.ids.getElem_inj_iff.mp hsame
  · rintro ⟨hmem, hid⟩
    obtain ⟨i, hi⟩ := List.mem_iff_getElem?.mp hmem
    refine ⟨i, ?_, hi⟩
    rintro rfl
    rw [hlease] at hi
    cases hi
    exact hid rfl

theorem Held.nil : Held ([] : List (ι × ο)) fun _ => none := by
  simp [Held]

theorem Held.isSome_iff (h : Held leases holder) (id : ι) :
    (holder id).isSome ↔ id ∈ leases.map Prod.fst := by
  simp [Option.isSome_iff_exists, h id]

theorem Held.free (h : Held leases holder) {id : ι} (hid : id ∉ leases.map Prod.fst) :
    holder id = none := by
  rwa [← h.isSome_iff, Option.not_isSome_iff_eq_none] at hid

variable [DecidableEq ι]

theorem Held.grant (h : Held leases holder) {id : ι} (hid : id ∉ leases.map Prod.fst)
    (owner : ο) : Held (leases ++ [(id, owner)]) (Function.update holder id (some owner)) := by
  intro id' owner'
  by_cases hsame : id' = id
  · subst hsame
    have hother : (id', owner') ∉ leases := fun hmem => hid (List.mem_map_of_mem hmem)
    simp [hother, eq_comm]
  · rw [Function.update_of_ne hsame, h]
    simp [hsame]

theorem Held.revoke (h : Held leases holder) (hproper : Proper leases) {index : Nat}
    {id : ι} {owner : ο} (hlease : leases[index]? = some (id, owner)) :
    Held (leases.eraseIdx index) (Function.update holder id none) := by
  intro id' owner'
  rw [hproper.mem_revoke hlease]
  by_cases hsame : id' = id
  · simp [hsame]
  · rw [Function.update_of_ne hsame, h]
    simp [hsame]

end Support.Leases
