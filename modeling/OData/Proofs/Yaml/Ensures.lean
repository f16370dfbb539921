/-
What decoders guarantee of what they read.

A decoder may fail for many reasons, but what it returns has properties that do not depend on the
document: a mapping has no name twice, and a record is put together from what its members return.

* `Yaml.Ensures`, `Yaml.Decoder.Ensures` — everything that is returned has a property;
* `Ensures.bind`, `Ensures.mapM`, `Ensures.foldlM` — reading one thing after the other;
* `Decoder.Ensures.sequence`, `Decoder.ensures_mapping`, `Decoder.ensures_record` — **the
  decoders of many values and of records**.
-/

import OData.Yaml.Decode

set_option relaxedAutoImplicit false
set_option autoImplicit false

namespace OData.Yaml

variable {α β σ : Type}

/-- Everything that a reading returns has a property. -/
def Ensures (P : α → Prop) (reading : LoadM α) : Prop :=
  ∀ document count a count', (reading.run document).run count = .ok (a, count') → P a

namespace Ensures

variable {P : α → Prop} {Q : β → Prop}

theorem pure {a : α} (h : P a) : Ensures P (Pure.pure a) := by
  intro document count b count' hb
  obtain ⟨rfl, -⟩ := Prod.mk.inj (Except.ok.inj hb)
  exact h

theorem throw (error : LoadError) : Ensures P (throw error : LoadM α) := by
  intro document count b count' hb
  cases hb

theorem trivial (reading : LoadM α) : Ensures (fun _ => True) reading :=
  fun _ _ _ _ _ => True.intro

theorem bind {reading : LoadM β} {next : β → LoadM α} (h : Ensures Q reading)
    (hnext : ∀ b, Q b → Ensures P (next b)) : Ensures P (reading >>= next) := by
  intro document count a count' ha
  change Except.bind ((reading.run document).run count)
    (fun p => ((next p.1).run document).run p.2) = .ok (a, count') at ha
  cases hread : (reading.run document).run count with
  | error error =>
      rw [hread] at ha
      cases ha
  | ok p =>
      rw [hread] at ha
      exact hnext p.1 (h document count p.1 p.2 hread) document p.2 a count' ha

/-- What is read on the way does not matter. -/
theorem bind_of_forall {reading : LoadM β} {next : β → LoadM α}
    (h : ∀ b, Ensures P (next b)) : Ensures P (reading >>= next) :=
  (trivial reading).bind fun b _ => h b

theorem mapM {f : β → LoadM α} {items : List β} (h : ∀ b ∈ items, Ensures P (f b)) :
    Ensures (fun as => ∀ a ∈ as, P a) (items.mapM f) := by
  induction items with
  | nil => exact Ensures.pure (by simp)
  | cons b items ih =>
      rw [List.mapM_cons]
      refine (h b List.mem_cons_self).bind fun a ha => ?_
      refine (ih fun b hb => h b (List.mem_cons_of_mem _ hb)).bind fun as has => ?_
      exact Ensures.pure (List.forall_mem_cons.2 ⟨ha, has⟩)

theorem foldlM {f : α → β → LoadM α} (h : ∀ a b, P a → Ensures P (f a b)) {start : α}
    (hstart : P start) (items : List β) : Ensures P (items.foldlM f start) := by
  induction items generalizing start with
  | nil => exact Ensures.pure hstart
  | cons b items ih =>
      rw [List.foldlM_cons]
      exact (h start b hstart).bind fun a ha => ih ha

end Ensures

namespace Decoder

/-- Everything that a decoder returns has a property. -/
def Ensures (P : α → Prop) (decoder : Decoder α) : Prop :=
  ∀ depth path node, Yaml.Ensures P (decoder depth path node)

variable {P : α → Prop} {decoder : Decoder α}

theorem Ensures.trivial (decoder : Decoder α) : decoder.Ensures fun _ => True :=
  fun _ _ _ => .trivial _

theorem Ensures.sequence (h : decoder.Ensures P) :
    (sequence decoder).Ensures fun as => ∀ a ∈ as, P a := by
  intro depth path node
  refine .bind_of_forall fun node => .bind_of_forall fun nodes => ?_
  split
  · exact .pure (by simp)
  · exact .bind_of_forall fun depth => .mapM fun p _ => h depth _ p.1

/-- A mapping has no name twice. -/
theorem Ensures.mapping (h : decoder.Ensures P) :
    (mapping decoder).Ensures fun es => es.Distinct ∧ ∀ e ∈ es, P e.2 := by
  intro depth path node
  refine .bind_of_forall fun node => .bind_of_forall fun nodes => ?_
  split
  · exact .pure ⟨List.nodup_nil, by simp⟩
  · refine .bind_of_forall fun depth => ?_
    have hpair : ∀ p ∈ nodes, Yaml.Ensures (fun e : String × α => P e.2) (do
        let name ← text depth path p.1
        return (name, ← decoder depth (memberPath path p.1) p.2)) :=
      fun p _ => .bind_of_forall fun name => (h depth _ p.2).bind fun a ha => .pure ha
    exact (Yaml.Ensures.mapM hpair).bind fun pairs hpairs =>
      .pure ⟨Ordered.distinct_ofList pairs, fun e he => hpairs e (Ordered.mem_of_mem_ofList he)⟩

/-! ### Records -/

/-- A member keeps a property of a record. -/
def Keeps (P : σ → Prop) (member : Member σ) : Prop :=
  member.update.Ensures fun update => ∀ record, P record → P (update record)

theorem keeps_member {P : σ → Prop} {Q : α → Prop} (name : String) {decoder : Decoder α}
    {put : σ → α → σ} (h : decoder.Ensures Q) (hput : ∀ record a, P record → Q a → P (put record a)) :
    Keeps P (member name decoder put) := by
  intro depth path node
  exact (h depth path node).bind fun a ha => .pure fun record hrecord => hput record a hrecord ha

theorem ensures_recordOf {P : σ → Prop} {known : List (Member σ)}
    (hknown : ∀ member ∈ known, Keeps P member) {start : σ} (hstart : P start)
    (needed : List String) (depth : Nat) (path : Path) (nodes : List (Node × Node)) :
    Yaml.Ensures P (recordOf known needed start depth path nodes) := by
  refine Yaml.Ensures.bind (Yaml.Ensures.foldlM (P := fun state : σ × List String => P state.1)
    (fun state p hstate => ?_) hstart nodes) fun state hstate => ?_
  · refine .bind_of_forall fun name => ?_
    split
    · exact .pure hstate
    · next member hmember =>
        have hread : Yaml.Ensures (fun state : σ × List String => P state.1) (do
            let update ← member.update depth (memberPath path p.1) p.2
            return (update state.1, name :: state.2)) :=
          (hknown member (List.mem_of_find?_eq_some hmember) depth _ p.2).bind
            fun update hupdate => .pure (hupdate state.1 hstate)
        -- A member that is met again is rejected, and nothing is read then.
        change Yaml.Ensures _ (if state.2.contains name = true then _ else _)
        split
        · exact .bind_of_forall fun _ => hread
        · exact hread
  · obtain ⟨record, seen⟩ := state
    dsimp only
    cases needed.find? fun name => !seen.contains name with
    | some name => exact .throw _
    | none => exact .pure hstate

/-- A record has the properties that it starts with and that all of its members keep. -/
theorem ensures_record {P : σ → Prop} {known : List (Member σ)}
    (hknown : ∀ member ∈ known, Keeps P member) {start : σ} (hstart : P start) (expected : String)
    (needed : List String) : (record expected known needed start).Ensures P := by
  intro depth path node
  refine .bind_of_forall fun node => .bind_of_forall fun nodes => ?_
  split
  · exact ensures_recordOf hknown hstart needed depth path []
  · exact .bind_of_forall fun depth => ensures_recordOf hknown hstart needed depth path nodes

end Decoder

end OData.Yaml
