/-
Definitions that are read from texts.

The sets of a definition and the members of its records are read as mappings, so that no name leads
to two of them.

* `Definition.keyed_of_ofText` — **a definition that a text writes is keyed**.
-/

import OData.Definition.Decode
import OData.Proofs.Dataset.Seeds
import OData.Proofs.Yaml.Ensures

set_option relaxedAutoImplicit false
set_option autoImplicit false

namespace OData

open Yaml (Decoder)

/-- A record of a set that is read has no member twice. -/
theorem SetDefinition.ensures_decoder :
    SetDefinition.decoder.Ensures fun set => ∀ record ∈ set.records, Ordered.Distinct record := by
  refine Decoder.ensures_record (fun member hmember => ?_) (by simp) _ _
  simp only [List.mem_cons, List.not_mem_nil, or_false] at hmember
  rcases hmember with rfl | rfl | rfl
  · exact Decoder.keeps_member _ (.trivial _) fun _ _ hset _ => hset
  · exact Decoder.keeps_member _ (.trivial _) fun _ _ hset _ => hset
  · exact Decoder.keeps_member _ (.sequence (.mapping (.trivial _)))
      fun _ _ _ hrecords record hrecord => (hrecords record hrecord).1

namespace Definition

theorem ensures_decoder : Definition.decoder.Ensures Keyed := by
  refine Decoder.ensures_record (fun member hmember => ?_) ⟨List.nodup_nil, by simp⟩ _ _
  simp only [List.mem_cons, List.not_mem_nil, or_false] at hmember
  rcases hmember with rfl | rfl | rfl | rfl | rfl
  · exact Decoder.keeps_member _ (.trivial _) fun _ _ h _ => ⟨h.sets, h.members⟩
  · exact Decoder.keeps_member _ (.trivial _) fun _ _ h _ => ⟨h.sets, h.members⟩
  · exact Decoder.keeps_member _ (.trivial _) fun _ _ h _ => ⟨h.sets, h.members⟩
  · exact Decoder.keeps_member _ (.mapping SetDefinition.ensures_decoder)
      fun _ _ _ hsets => ⟨hsets.1, hsets.2⟩
  · exact Decoder.keeps_member _ (.trivial _) fun _ _ h _ => ⟨h.sets, h.members⟩

theorem keyed_of_decode {document : Yaml.Document} {definition : Definition}
    (h : decode document = .ok definition) : definition.Keyed := by
  obtain ⟨read, hread, rfl⟩ : ∃ read, ((Definition.decoder Yaml.depthLimit []
      (document.root.getD .empty)).run document).run 0 = .ok read ∧ read.1 = definition := by
    rw [decode] at h
    cases hrun : ((Definition.decoder Yaml.depthLimit []
        (document.root.getD .empty)).run document).run 0 with
    | error error =>
        rw [hrun] at h
        cases h
    | ok read =>
        rw [hrun] at h
        exact ⟨read, rfl, Except.ok.inj h⟩
  exact ensures_decoder Yaml.depthLimit [] _ document 0 read.1 read.2 hread

/-- **A definition that a text writes is keyed.** -/
theorem keyed_of_ofText {text : String} {definition : Definition}
    (h : ofText text = .ok definition) : definition.Keyed := by
  rw [ofText] at h
  split at h
  · next document _ =>
      rw [ofDocument] at h
      split at h
      · next read hread =>
          obtain rfl := Except.ok.inj h
          exact keyed_of_decode hread
      · cases h
      · cases h
  · cases h

end Definition

end OData
