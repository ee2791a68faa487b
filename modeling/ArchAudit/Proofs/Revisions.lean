-- SUMMARY: Records that differ in their references only are accepted, arranged and addressed alike.
import ArchAudit.Proofs.Build
import Mathlib.Data.List.Perm.Basic

/-!
# Revised references

Two lists of records may differ in what their records refer to and in nothing else.
Then both are accepted or neither is, both are arranged alike, and references are
looked up in the same addresses. A reference that stands in both lists has the same
meaning in both.
-/

namespace ArchAudit

/-- The records are the same but for their references. -/
def ComponentRecord.SameNode (r r' : ComponentRecord) : Prop :=
  r' = { r with references := r'.references }

open ComponentRecord (SameNode)

namespace ComponentRecord.SameNode

variable {r r' : ComponentRecord}

theorem symm (h : r.SameNode r') : r'.SameNode r := by
  rw [SameNode, h]

theorem componentId_eq (h : r.SameNode r') : r'.componentId = r.componentId := by
  rw [h]

end ComponentRecord.SameNode

variable {records records' : List ComponentRecord}

/-- What corresponding elements have in common, their lists have. -/
theorem map_eq_of_forall₂ {β γ δ : Type} {R : β → γ → Prop} {f : β → δ} {f' : γ → δ}
    (hf : ∀ b c, R b c → f' c = f b) {l : List β} {l' : List γ} (h : List.Forall₂ R l l') :
    l'.map f' = l.map f := by
  induction h with
  | nil => rfl
  | cons hb _ ih => rw [List.map_cons, List.map_cons, ih, hf _ _ hb]

/-- What does not look at references is the same for both lists. -/
theorem map_eq_of_sameNode {β : Type} {f : ComponentRecord → β}
    (hf : ∀ r references, f { r with references } = f r)
    (h : List.Forall₂ SameNode records records') : records'.map f = records.map f := by
  apply map_eq_of_forall₂ _ h
  intro r r' hr
  rw [hr, hf]

theorem Accepted.of_sameNode (h : List.Forall₂ SameNode records records')
    (haccepted : Accepted records) : Accepted records' := by
  constructor
  · intro r' hr' field hfield
    have hfields : r'.requiredFields ∈ records.map (·.requiredFields) := by
      rw [← map_eq_of_sameNode (fun _ _ => rfl) h]
      exact List.mem_map_of_mem hr'
    obtain ⟨r, hr, heq⟩ := List.mem_map.1 hfields
    exact haccepted.complete r hr field (heq ▸ hfield)
  · rw [map_eq_of_sameNode (fun _ _ => rfl) h]
    exact haccepted.distinct

theorem accepted_iff_of_sameNode (h : List.Forall₂ SameNode records records') :
    Accepted records ↔ Accepted records' := by
  have hback : List.Forall₂ SameNode records' records :=
    List.Forall₂.flip (h.imp fun _ _ hr => hr.symm)
  exact ⟨.of_sameNode h, .of_sameNode hback⟩

/-- Arranging both lists keeps every record opposite its revision. -/
theorem forall₂_sortRecords {R : ComponentRecord → ComponentRecord → Prop}
    (hR : ∀ r r', R r r' → r.SameNode r') (haccepted : Accepted records)
    (h : List.Forall₂ R records records') :
    List.Forall₂ R (sortRecords records) (sortRecords records') := by
  obtain ⟨sorted, hsorted, hperm⟩ := List.perm_comp_forall₂ (sortRecords_perm records) h
  have hids := List.pairwise_map.2 (pairwise_sortRecords haccepted.distinct)
  rw [← map_eq_of_sameNode (fun _ _ => rfl) (hsorted.imp hR), List.pairwise_map] at hids
  rwa [← eq_sortRecords hperm hids]

namespace GraphBuild

variable {α : Type} [Scalar α]

theorem components_bareGraph_of_sameNode (h : List.Forall₂ SameNode records records') :
    (bareGraph records' : Graph α).components = (bareGraph records).components :=
  map_eq_of_sameNode (fun _ _ => rfl) h

theorem addresses_of_sameNode (h : List.Forall₂ SameNode records records') :
    (ofSorted records' : GraphBuild α).graph.addresses =
      (ofSorted records : GraphBuild α).graph.addresses := by
  rw [addresses_ofSorted, addresses_ofSorted, map_eq_of_sameNode (fun _ _ => rfl) h]

end GraphBuild

end ArchAudit
