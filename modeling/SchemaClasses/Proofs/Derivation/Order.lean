import SchemaClasses.Proofs.Derivation.Content

/-! The order of derivation does not matter. Builders of two derivations match if they were made for the
same origin, and what they hold then matches as well. -/

namespace SchemaClasses

/-- Builders of two derivations that were made for the same origin. -/
def Matched (left right : List Origin) (first second : BuilderId) : Prop :=
  ∃ origin, left[first]? = some origin ∧ right[second]? = some origin

namespace Matched
variable {left right : List Origin} {first second other : BuilderId}

theorem symm (same : Matched left right first second) : Matched right left second first := by
  obtain ⟨origin, first, second⟩ := same
  exact ⟨origin, second, first⟩

theorem functional (distinct : right.Nodup) (same : Matched left right first second)
    (again : Matched left right first other) :
    second = other := by
  obtain ⟨origin, found, place⟩ := same
  obtain ⟨_, again, stands⟩ := again
  cases found.symm.trans again
  exact (List.getElem?_inj (List.getElem?_eq_some_iff.mp place).1 distinct).mp (place.trans stands.symm)

end Matched

theorem Role.link_alike {matched : BuilderId → BuilderId → Prop} (role : Role) {first second : Builder}
    {one two : BuilderId} (alike : Builder.Alike matched first second) (same : matched one two) :
    Builder.Alike matched (role.link one first) (role.link two second) := by
  obtain ⟨target, className, fieldTag, base, item, fields⟩ := alike
  cases role with
  | base => exact ⟨target, className, fieldTag, .some same, item, fields⟩
  | item => exact ⟨rfl, className, fieldTag, base, .some same, fields⟩
  | repeated name => exact ⟨rfl, className, rfl, base, .some same, fields⟩
  | field => exact ⟨target, className, fieldTag, base, item, List.rel_append fields (.cons same .nil)⟩

section Likeness
variable {nodes : Nodes} {left right : Numbering} (agree : ∀ id first second, left.memo id = some first →
  right.memo id = some second → Matched left.ledger right.ledger first second)
include agree

private theorem fields_matched {ids : List NodeId} {first second : List BuilderId}
    (found : first.map some = ids.map left.memo) (known : second.map some = ids.map right.memo) :
    List.Forall₂ (Matched left.ledger right.ledger) first second := by
  induction ids generalizing first second with
  | nil =>
    cases List.map_eq_nil_iff.mp found
    cases List.map_eq_nil_iff.mp known
    exact .nil
  | cons id ids ih =>
    obtain ⟨_, _, rfl, head, tail⟩ := List.map_eq_cons_iff.mp found
    obtain ⟨_, _, rfl, same, rest⟩ := List.map_eq_cons_iff.mp known
    exact .cons (agree id _ _ head.symm same.symm) (ih tail rest)

/-- The same entries make like builders out of like builders. -/
theorem Written.alike {id : NodeId} {entries : List Entry} {first second after other : Builder} {rules more : List Rule}
    (written : Written nodes left id entries first after rules)
    (again : Written nodes right id entries second other more)
    (alike : Builder.Alike (Matched left.ledger right.ledger) first second) :
    Builder.Alike (Matched left.ledger right.ledger) after other ∧ more = rules := by
  induction written generalizing second other more with
  | done =>
    cases again
    exact ⟨alike, rfl⟩
  | @mark _ mark _ _ _ _ _ ih =>
    cases again with
    | mark again =>
      refine ih again ?_
      obtain ⟨target, className, fieldTag, base, item, fields⟩ := alike
      cases mark with
      | declared name => exact ⟨target, rfl, rfl, base, item, fields⟩
      | className name => exact ⟨target, rfl, fieldTag, base, item, fields⟩
      | builtin type => exact ⟨rfl, className, fieldTag, base, item, fields⟩
      | tag name => exact ⟨target, className, rfl, base, item, fields⟩
      | list => exact ⟨rfl, className, fieldTag, base, .none, fields⟩
  | rules _ ih =>
    cases again with
    | rules again =>
      obtain ⟨alike, same⟩ := ih again alike
      exact ⟨alike, by rw [same]⟩
  | notice _ ih =>
    cases again with
    | notice again => exact ih again alike
  | plain found _ ih =>
    cases again with
    | plain known again => exact ih again (Role.link_alike _ alike ⟨_, found, known⟩)
  | ask found _ ih =>
    cases again with
    | ask known again => exact ih again (Role.link_alike _ alike (agree _ _ _ found known))
  | append found _ ih =>
    cases again with
    | append known again =>
      obtain ⟨target, className, fieldTag, base, item, fields⟩ := alike
      exact ih again ⟨target, className, fieldTag, base, item,
        List.rel_append fields (fields_matched agree found known)⟩
  | embed _ _ own ih =>
    cases again with
    | embed inner again =>
      obtain ⟨alike, first⟩ := own inner alike
      obtain ⟨alike, rest⟩ := ih again alike
      exact ⟨alike, by rw [first, rest]⟩

theorem Described.alike {origin : Origin} {first second : Builder} {rules more : List Rule}
    (described : Described nodes left origin first rules) (again : Described nodes right origin second more) :
    Builder.Alike (Matched left.ledger right.ledger) first second ∧ more = rules := by
  have empty {one two : Nat} : Builder.Alike (Matched left.ledger right.ledger) { bag := one } { bag := two } :=
    ⟨rfl, rfl, rfl, .none, .none, .nil⟩
  cases described with
  | own plan written =>
    cases again with
    | own same again =>
      cases plan.symm.trans same
      exact written.alike agree again empty
    | wrapped same => cases plan.symm.trans same
  | wrapped plan found =>
    cases again with
    | own same => cases plan.symm.trans same
    | wrapped same known =>
      cases plan.symm.trans same
      exact ⟨Role.link_alike _ empty ⟨_, found, known⟩, rfl⟩
  | item plan written =>
    cases again with
    | item same again =>
      cases plan.symm.trans same
      exact written.alike agree again empty
  | plain =>
    cases again with
    | plain => exact ⟨⟨rfl, rfl, rfl, .none, .none, .nil⟩, rfl⟩

end Likeness

/-- However builders are derived, those of a node look alike, and so does all that they lead to. -/
theorem Derived.isomorphism {nodes : Nodes} (formed : nodes.Formed) (top : nodes.TypesOnTop) {left right : Stage}
    {ledger other : List Origin} (derived : Derived nodes left ledger) (again : Derived nodes right other) {id : NodeId}
    {first second : BuilderId} (found : left.memo id = some first) (known : right.memo id = some second) :
    ∃ rename, Builders.Isomorphism left.builders right.builders first second rename := by
  have stands := derived.stands formed top
  have stood := again.stands formed top
  have agree : ∀ id first second, left.memo id = some first → right.memo id = some second →
      Matched ledger other first second := by
    intro id first second found known
    obtain ⟨origin, home, place⟩ := stands.home id first found
    obtain ⟨same, again, stood⟩ := stood.home id second known
    exact ⟨origin, place, home.unique formed again ▸ stood⟩
  have alike (first second : BuilderId) (same : Matched ledger other first second) :
      Builder.Alike (Matched ledger other) (left.builders.get first) (right.builders.get second) ∧
        right.builders.facets second = left.builders.facets first := by
    obtain ⟨origin, place, placed⟩ := same
    have inside : first < left.size := stands.length ▸ (List.getElem?_eq_some_iff.mp place).1
    have within : second < right.size := stood.length ▸ (List.getElem?_eq_some_iff.mp placed).1
    exact (derived.describes formed top .refl inside origin place).alike agree
      (again.describes formed top .refl within origin placed)
  exact @Builders.isomorphism_of_matched (Matched ledger other) _ _ (fun _ _ _ => Matched.functional stood.distinct)
    (fun _ _ _ same again => Matched.functional stands.distinct same.symm again.symm)
    (fun _ _ same => (alike _ _ same).1) (fun _ _ same => (alike _ _ same).2)
    _ _ (agree id first second found known)

/-- Two sequences of calls that both give a node a builder give it the same builder, up to numbers and
choices, together with all that it leads to. -/
theorem Schema.order_irrelevant {schema : Schema} (loaded : schema.Loaded) (top : schema.nodes.TypesOnTop)
    (acyclic : schema.nodes.Acyclic) {calls others : List Schema.Call} (allowed : ∀ call ∈ calls, call.Allowed schema)
    (permitted : ∀ call ∈ others, call.Allowed schema) :
    ∃ left right, schema.After calls left ∧ schema.After others right ∧
      ∀ id first second, left.builder? id = some first → right.builder? id = some second →
        ∃ rename, Builders.Isomorphism left.builders right.builders first second rename := by
  obtain ⟨left, answered⟩ := Schema.after_total loaded acyclic allowed
  obtain ⟨right, replied⟩ := Schema.after_total loaded acyclic permitted
  obtain ⟨_, derived⟩ := (answered.reached loaded allowed).derived
  obtain ⟨_, again⟩ := (replied.reached loaded permitted).derived
  exact ⟨left, right, answered, replied, fun _ _ _ => derived.isomorphism loaded.formed top again⟩

namespace Schema

set_option maxRecDepth 8000 in
/-- The builder of the element `a` is the first in one order and the third in the other, with fields of other
numbers. -/
theorem order_irrelevant_entwined : entwined.Loaded ∧ entwined.nodes.TypesOnTop ∧ entwined.nodes.Acyclic ∧
    (∀ call ∈ [Call.builder 4, .tags, .classBuilders], call.Allowed entwined) ∧
      (∀ call ∈ [Call.classBuilders], call.Allowed entwined) ∧
        ∃ left right, entwined.After [.builder 4, .tags, .classBuilders] left ∧ entwined.After [.classBuilders] right ∧
          left.builder? 4 = some 0 ∧ (left.builders.get 0).fields = [1, 2] ∧
            right.builder? 4 = some 2 ∧ (right.builders.get 2).fields = [1, 3] ∧
              ∃ rename, Builders.Isomorphism left.builders right.builders 0 2 rename := by
  have permitted : ∀ call ∈ [Call.classBuilders], call.Allowed entwined := List.forall_mem_singleton.mpr trivial
  obtain ⟨left, right, answered, replied, alike⟩ :=
    order_irrelevant entwined_loaded entwined_top entwined_acyclic entwined_allowed permitted
  have first : ((entwined.answerAll [.builder 4, .tags, .classBuilders]).run entwined.derivation).map (fun outcome =>
      (outcome.2.builder? 4, (outcome.2.builders.get 0).fields)) = some (some 0, [1, 2]) := by cbv
  have second : ((entwined.answerAll [.classBuilders]).run entwined.derivation).map (fun outcome =>
      (outcome.2.builder? 4, (outcome.2.builders.get 2).fields)) = some (some 2, [1, 3]) := by cbv
  obtain ⟨⟨_, _⟩, ran, same⟩ := Option.map_eq_some_iff.mp first
  cases Option.some.inj (answered.symm.trans ran)
  obtain ⟨⟨_, _⟩, went, equal⟩ := Option.map_eq_some_iff.mp second
  cases Option.some.inj (replied.symm.trans went)
  obtain ⟨found, fields⟩ := Prod.mk.inj same
  obtain ⟨known, others⟩ := Prod.mk.inj equal
  exact ⟨entwined_loaded, entwined_top, entwined_acyclic, entwined_allowed, permitted, left, right, answered,
    replied, found, fields, known, others, alike 4 0 2 found known⟩

end Schema

end SchemaClasses
