import SchemaClasses.Proofs.Schema.Loading

/-! Element declarations by tag. Each of them is an element, so every declared tag has a class. -/

namespace SchemaClasses

theorem Entries.mem_alter {α : Type} {key other : String} {change : Option α → α} {value : α} {entries : Entries α}
    (member : (other, value) ∈ entries.alter key change) : (other, value) ∈ entries ∨ ∃ old, value = change old ∧
      ∀ before, old = some before → (other, before) ∈ entries := by
  induction entries with
  | nil =>
    obtain ⟨rfl, rfl⟩ := Prod.mk.injEq .. ▸ List.mem_singleton.mp member
    exact Or.inr ⟨none, rfl, fun _ same => by cases same⟩
  | cons entry entries ih =>
    obtain ⟨first, old⟩ := entry
    rw [alter] at member
    split at member
    · rcases List.mem_cons.mp member with same | member
      · obtain ⟨rfl, rfl⟩ := Prod.mk.injEq .. ▸ same
        refine Or.inr ⟨some old, rfl, fun before same => ?_⟩
        cases same
        exact List.mem_cons_self
      · exact Or.inl (List.mem_cons_of_mem _ member)
    · rcases List.mem_cons.mp member with same | member
      · exact Or.inl (same ▸ List.mem_cons_self)
      · rcases ih member with member | ⟨old, same, known⟩
        · exact Or.inl (List.mem_cons_of_mem _ member)
        · exact Or.inr ⟨old, same, fun before found => List.mem_cons_of_mem _ (known before found)⟩

namespace Schema
variable {schema : Schema} {tag : String} {id : NodeId}

theorem mem_declare {nodes : Nodes} {declarations : Entries NodeId} {other : NodeId}
    (member : (tag, id) ∈ declare nodes declarations other) : (tag, id) ∈ declarations ∨ id = other := by
  unfold declare at member
  split at member
  · rcases Entries.mem_alter member with member | ⟨old, same, known⟩
    · exact Or.inl member
    · cases old with
      | none => exact Or.inr same
      | some before => exact Or.inl (same ▸ known before rfl)
  · exact Or.inl member

theorem Loaded.declarations (loaded : schema.Loaded) :
    schema.declarations = declarationsOf schema.nodes schema.root := by
  obtain ⟨limits, source, links, loaded⟩ := loaded
  unfold load at loaded
  rcases outcome : (Reading.document limits source).run { links } with ⟨failed | root, state⟩
  · simp [outcome] at loaded
  · simp only [outcome, Except.ok.injEq] at loaded
    rw [← loaded]
    rfl

theorem Loaded.declared_kind (loaded : schema.Loaded) (declared : schema.declaration? tag = some id) :
    schema.nodes.kindOf id = .element := by
  rw [declaration?, loaded.declarations] at declared
  obtain ⟨before, after, same, _⟩ := List.lookup_eq_some_iff.mp declared
  have member : (Name.localPart tag, id) ∈ declarationsOf schema.nodes schema.root := by
    rw [same]
    exact List.mem_append_right _ List.mem_cons_self
  have only (ids : List NodeId) (elements : ∀ id ∈ ids, schema.nodes.kindOf id = .element)
    (declarations : Entries NodeId)
      (member : (Name.localPart tag, id) ∈ ids.foldl (declare schema.nodes) declarations) :
      (Name.localPart tag, id) ∈ declarations ∨ schema.nodes.kindOf id = .element := by
    induction ids generalizing declarations with
    | nil => exact Or.inl member
    | cons first ids ih =>
      rcases ih (fun id member => elements id (List.mem_cons_of_mem _ member)) _ member with member | kind
      · rcases mem_declare member with member | rfl
        · exact Or.inl member
        · exact Or.inr (elements _ List.mem_cons_self)
      · exact Or.inr kind
  refine (only _ ?_ [] member).resolve_left List.not_mem_nil
  intro other member
  rcases List.mem_append.mp member with member | member
  · exact loaded.formed.child_kind member
  · exact of_decide_eq_true (List.mem_filter.mp member).2

theorem Loaded.className_ok (loaded : schema.Loaded) (declared : (schema.declaration? tag).isSome) :
    ∃ className, schema.className tag = .ok className := by
  obtain ⟨id, found⟩ := Option.isSome_iff_exists.mp declared
  have kind := loaded.declared_kind found
  rw [Nodes.kindOf, Node.kind] at kind
  simp only [className, found, node]
  cases construct : (schema.nodes.get id).construct with
  | element decl =>
    dsimp only
    split <;> exact ⟨_, rfl⟩
  | _ =>
    rw [construct] at kind
    cases kind

end Schema
end SchemaClasses
