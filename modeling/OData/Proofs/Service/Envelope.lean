/-
Both envelopes write a record alike.

A collection holds its records as they are; the envelope of a single record holds the members of the
record itself, behind its own context, and leaves out a field of that name.  The texts are those of
the same members in the same order all the same, and at no depth of either envelope does an object
have two members of one name, or a member for an absent field.

Main definitions:

* `contextText` — the text of the member that holds a context;
* `FieldList.bareTexts` — the texts of the members of a record without its context field.

Main results:

* `CollectionEnvelope.compact_toJson`, `EntityEnvelope.compact_toJson` — the two texts;
* `CollectionEnvelope.sentBy_of_at`, `EntityEnvelope.sentBy_of_at` — the objects in them;
* `envelopes_alike` — **both envelopes write a record alike**.
-/

import OData.Envelope
import OData.Proofs.Field.Sent

set_option relaxedAutoImplicit false
set_option autoImplicit false

namespace OData

/-! ### Texts -/

/-- The text of the member that holds a context. -/
def contextText (context : String) : String :=
  Json.quote contextKey ++ ":" ++ Json.quote context

/-- The texts of the members that are sent for a record without its context field. -/
def FieldList.bareTexts (record : FieldList) : List String :=
  Json.memberTexts (members (record.remove contextKey).fields)

theorem FieldList.compact_toJson_remove (record : FieldList) :
    (record.remove contextKey).toJson.compact
      = "\x7b" ++ String.intercalate "," record.bareTexts ++ "\x7d" := by
  rw [toJson_eq, Json.compact, bareTexts]

/-- A collection is its context and the texts of its records, with commas between them. -/
theorem CollectionEnvelope.compact_toJson (set : String) (records : List FieldList) :
    (ofSet set records).toJson.compact
      = "\x7b" ++ contextText ("$metadata#" ++ set) ++ ",\"value\":[" ++
          String.intercalate "," (records.map fun record => record.toJson.compact) ++ "]\x7d" := by
  have hvalue : Json.quote "value" = "\"value\"" := by decide
  rw [toJson, ofSet, Json.compact, Json.memberTexts, Json.memberTexts, Json.memberTexts,
    Json.compact, Json.compact, Json.itemTexts_eq_map, List.map_map, hvalue, contextText,
    String.intercalate_cons_cons, String.intercalate_singleton]
  have hopen : ",\"value\":[" = "," ++ ("\"value\"" ++ (":" ++ "[")) := by decide
  have hclose : "]\x7d" = "]" ++ "\x7d" := by decide
  rw [hopen, hclose]
  simp only [String.append_assoc]
  rfl

namespace EntityEnvelope

/-- What is sent for a single record is its context and what is sent for the record without its
context field. -/
theorem toJson_ofSet (set : String) {record : FieldList} (h : record.WellFormed) :
    (ofSet set record).toJson
      = .object ((contextKey, .string ("$metadata#" ++ set ++ "/$entity")) ::
          FieldList.members (record.remove contextKey).fields) := by
  have hfields : (record.remove contextKey).fields
      = record.fields.filter fun field => field.1 != contextKey :=
    Ordered.erase_eq_filter (FieldList.wellFormed_iff.1 h).1 contextKey
  rw [hfields]
  rfl

/-- A single record is its context and the texts of its members, with commas between them. -/
theorem compact_toJson (set : String) {record : FieldList} (h : record.WellFormed) :
    (ofSet set record).toJson.compact
      = "\x7b" ++ String.intercalate ","
          (contextText ("$metadata#" ++ set ++ "/$entity") :: record.bareTexts) ++ "\x7d" := by
  rw [toJson_ofSet set h, Json.compact, Json.memberTexts, Json.compact, contextText,
    FieldList.bareTexts]

end EntityEnvelope

/-! ### Objects -/

namespace CollectionEnvelope

/-- The objects in a collection are the envelope itself and those that are sent for records. -/
theorem sentBy_of_at (set : String) {records : List FieldList}
    (h : ∀ record ∈ records, record.WellFormed) {path : List Json.Step}
    {members : List (String × Json)} (hat : (ofSet set records).toJson.At path (.object members)) :
    path = [] ∧ members.map Prod.fst = [contextKey, "value"] ∨
      ∃ place rest record inner, path = .member "value" :: .item place :: rest ∧
        records[place]? = some record ∧ record.At rest inner ∧ inner.SentBy [] members := by
  rw [toJson] at hat
  cases hat with
  | here => exact .inl ⟨rfl, rfl⟩
  | member hmember hat =>
      simp only [List.mem_cons, List.not_mem_nil, or_false, Prod.mk.injEq] at hmember
      rcases hmember with ⟨rfl, rfl⟩ | ⟨rfl, rfl⟩
      · exact (Json.not_at_object rfl _ _ hat).elim
      · cases hat with
        | item hplace hat =>
            rw [List.getElem?_map] at hplace
            obtain ⟨record, hrecord, rfl⟩ := Option.map_eq_some_iff.1 hplace
            obtain ⟨inner, hinner, hsent⟩ :=
              FieldList.sentBy_of_at (h record (List.mem_of_getElem? hrecord)) hat
            exact .inr ⟨_, _, record, inner, rfl, hrecord, hinner, hsent⟩

end CollectionEnvelope

namespace EntityEnvelope

/-- The objects in the envelope of a single record are those that are sent for the record without
its context field; the outermost has the context in front. -/
theorem sentBy_of_at (set : String) {record : FieldList} (h : record.WellFormed)
    {path : List Json.Step} {members : List (String × Json)}
    (hat : (ofSet set record).toJson.At path (.object members)) :
    ∃ inner, (record.remove contextKey).At path inner ∧
      inner.SentBy (if path = [] then [contextKey] else []) members := by
  rw [toJson_ofSet set h] at hat
  have hremove := h.remove contextKey
  have hcontext : (record.remove contextKey).get? contextKey = none := by
    rw [FieldList.get?, FieldList.remove, FieldList.fields_withFields,
      Ordered.get?_erase (FieldList.wellFormed_iff.1 h).1, if_pos rfl]
  cases hat with
  | here =>
      obtain ⟨hnames, hnodup, habsent⟩ := FieldList.sentBy_members hremove
      have hnew : contextKey ∉ (FieldList.members (record.remove contextKey).fields).map Prod.fst := by
        rw [FieldList.map_fst_members]
        exact fun hmem => Ordered.get?_eq_none_iff.1 hcontext
          ((FieldList.sublist_sentKeys _).subset hmem)
      refine ⟨_, .here, ?_, List.nodup_cons.2 ⟨hnew, hnodup⟩, fun name hname => ?_⟩
      · rw [List.map_cons, hnames]
        rfl
      · rw [List.map_cons, List.mem_cons, not_or]
        refine ⟨?_, habsent name hname⟩
        rintro rfl
        rw [hcontext] at hname
        cases hname
  | member hmember hat =>
      rcases List.mem_cons.1 hmember with heq | hmember
      · obtain ⟨rfl, rfl⟩ := Prod.mk.inj heq
        exact (Json.not_at_object rfl _ _ hat).elim
      · refine FieldList.sentBy_of_at hremove ?_
        rw [FieldList.toJson_eq]
        exact .member hmember hat

end EntityEnvelope

/-- **Both envelopes write a record alike.**  Without its context field a record is written in its
collection as an object, and on its own as the same members in the same order behind the context.
In both envelopes, and at every depth, no name occurs twice in an object, and an object has a member
for each field of the record that it is sent for that is not absent, and for no other. -/
theorem envelopes_alike (set : String) {records : List FieldList}
    (h : ∀ record ∈ records, record.WellFormed) :
    (CollectionEnvelope.ofSet set (records.map (·.remove contextKey))).toJson.compact
        = "\x7b" ++ contextText ("$metadata#" ++ set) ++ ",\"value\":[" ++
            String.intercalate "," (records.map fun record =>
              "\x7b" ++ String.intercalate "," record.bareTexts ++ "\x7d") ++ "]\x7d" ∧
      (∀ record ∈ records, (EntityEnvelope.ofSet set record).toJson.compact
        = "\x7b" ++ String.intercalate ","
            (contextText ("$metadata#" ++ set ++ "/$entity") :: record.bareTexts) ++ "\x7d") ∧
      (∀ path members, (CollectionEnvelope.ofSet set records).toJson.At path (.object members) →
        path = [] ∧ members.map Prod.fst = [contextKey, "value"] ∨
          ∃ place rest record inner, path = .member "value" :: .item place :: rest ∧
            records[place]? = some record ∧ record.At rest inner ∧ inner.SentBy [] members) ∧
      ∀ record ∈ records, ∀ path members,
        (EntityEnvelope.ofSet set record).toJson.At path (.object members) →
          ∃ inner, (record.remove contextKey).At path inner ∧
            inner.SentBy (if path = [] then [contextKey] else []) members := by
  refine ⟨?_, fun record hrecord => EntityEnvelope.compact_toJson set (h record hrecord),
    fun path members hat => CollectionEnvelope.sentBy_of_at set h hat,
    fun record hrecord path members hat => EntityEnvelope.sentBy_of_at set (h record hrecord) hat⟩
  rw [CollectionEnvelope.compact_toJson, List.map_map]
  refine congrArg (fun texts => _ ++ String.intercalate "," texts ++ _) ?_
  exact List.map_congr_left fun record _ => record.compact_toJson_remove

/-! ### A satchel -/

/-- A letter without a date. -/
def letter : FieldList :=
  ((FieldList.new "Letters").insert "To" (.scalar (.string "Ada"))).insert "Date" .absent

/-- A satchel of nobody, with a field that is called like the context, and with two letters, one of
which has no fields at all. -/
def satchel : FieldList :=
  (((FieldList.new "Satchels").insert contextKey (.scalar (.string "none"))).insert "Owner"
    .absent).append "Letters" (.nestedList [letter, .new "Letters"])

theorem wellFormed_letter : letter.WellFormed := by
  refine .insert (.insert (.new "Letters") "To" ?_) "Date" ?_ <;> exact trivial

theorem wellFormed_satchel : satchel.WellFormed := by
  have hletters : FieldList.AllWellFormed [letter, .new "Letters"] :=
    ⟨wellFormed_letter, .new "Letters", trivial⟩
  refine .append (.insert (.insert (.new "Satchels") contextKey ?_) "Owner" ?_) "Letters" hletters <;>
    exact trivial

theorem envelopes_alike_satchel :
    (∀ record ∈ [satchel], record.WellFormed) ∧
      (CollectionEnvelope.ofSet "Satchels" ([satchel].map (·.remove contextKey))).toJson.compact
        = "\x7b\"@odata.context\":\"$metadata#Satchels\",\"value\":[\x7b\"Letters\":" ++
            "[\x7b\"To\":\"Ada\"\x7d,\x7b\x7d]\x7d]\x7d" ∧
      (EntityEnvelope.ofSet "Satchels" satchel).toJson.compact
        = "\x7b\"@odata.context\":\"$metadata#Satchels/$entity\",\"Letters\":" ++
            "[\x7b\"To\":\"Ada\"\x7d,\x7b\x7d]\x7d" ∧
      ∃ inner, (satchel.remove contextKey).At [.member "Letters", .item 0] inner ∧
        inner.SentBy [] [("To", .string "Ada")] := by
  have h : ∀ record ∈ [satchel], record.WellFormed := by
    intro record hrecord
    rw [List.mem_singleton.1 hrecord]
    exact wellFormed_satchel
  obtain ⟨hcollection, hentity, -, hobjects⟩ := envelopes_alike "Satchels" h
  refine ⟨h, hcollection.trans (by decide), (hentity satchel List.mem_cons_self).trans (by decide),
    ?_⟩
  have hat : (EntityEnvelope.ofSet "Satchels" satchel).toJson.At [.member "Letters", .item 0]
      (.object [("To", .string "Ada")]) :=
    .member (List.mem_cons_of_mem _ List.mem_cons_self) (.item rfl .here)
  exact hobjects satchel List.mem_cons_self _ _ hat

end OData
