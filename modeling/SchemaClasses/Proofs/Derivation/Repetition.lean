import SchemaClasses.Proofs.Derivation.Requests

/-! Requests that are made again have the same replies and change nothing. A node is told its builder when it is
first met, or, if it stands for another node, when that one has its builder; either way it keeps it. -/

namespace SchemaClasses

theorem Derivation.memo_eq {nodes : Nodes} {left right : Derivation} (fits : left.Fits nodes) (also : right.Fits nodes)
    (same : left.builder? = right.builder?) : left.memo = right.memo := by
  refine Array.ext (fits.trans also.symm) fun id inside within => ?_
  have found := congrFun same id
  simpa [builder?, Array.getD, inside, within] using found

namespace Schema

variable {schema : Schema} {before after later : Derivation} (loaded : schema.Loaded)
include loaded

theorem definitions_repeats (acyclic : schema.nodes.Acyclic) {style : Style} {result : List Definition}
    (tenable : before.Tenable schema.nodes) (gives : (schema.definitions style).Gives before result after)
    (held : later.Tenable schema.nodes) (extended : after.stage.Extends schema.nodes later.stage) :
    ∃ again, (schema.definitions style).Gives later result again ∧ again.stage = later.stage := by
  have classes : schema.Steady schema.classBuilders := fields_steady loaded loaded.root_lt
  obtain ⟨roots, middle, asked, same, renderings, written, rfl⟩ := definitions_writes gives
  obtain ⟨again, repeated, unchanged⟩ := classes.repeats acyclic tenable asked held (same ▸ extended)
  have builders : after.builders = middle.builders := congrArg Stage.builders same
  have others : again.builders = later.builders := congrArg Stage.builders unchanged
  have continues : after.builders.Continues again.builders := others ▸ extended.builders
  have range : after.builders.InRange := builders ▸ (classes.grows tenable asked).1.range
  have within : ∀ root ∈ roots, root < after.builders.size := builders ▸ classBuilders_lt loaded tenable.ready asked
  have inside : ∀ id ∈ after.builders.closure roots, id < after.builders.size :=
    Builders.closure_invariant within fun id inside next linked => range id inside next linked
  have rewritten : Rendering.ofBuilders? style again.builders (again.builders.closure roots) = some renderings := by
    rw [continues.closure range within, continues.ofBuilders? range inside style, written]
  obtain ⟨_, final, redefined⟩ := definitions_total repeated (Option.isSome_of_eq_some rewritten)
  obtain ⟨_, _, reasked, still, _, remade, rfl⟩ := definitions_writes redefined
  cases Option.some.inj (repeated.symm.trans reasked)
  rw [show final.builders = again.builders from congrArg Stage.builders still] at remade
  cases Option.some.inj (rewritten.symm.trans remade)
  exact ⟨final, redefined, still.trans unchanged⟩

theorem reply_repeats (acyclic : schema.nodes.Acyclic) {request : Request}
    (inside : request.Inside schema) {answer : Reply} (tenable : before.Tenable schema.nodes)
    (gives : (schema.reply request).Gives before answer after) (held : later.Tenable schema.nodes)
    (extended : after.stage.Extends schema.nodes later.stage) :
    ∃ again, (schema.reply request).Gives later answer again ∧ again.stage = later.stage := by
  cases request with
  | builder id => exact (node_steady loaded inside).map.repeats acyclic tenable gives held extended
  | fields id => exact (fields_steady loaded inside).map.repeats acyclic tenable gives held extended
  | classBuilders => exact (fields_steady loaded loaded.root_lt).map.repeats acyclic tenable gives held extended
  | tags => exact (tags_steady loaded).map.repeats acyclic tenable gives held extended
  | definitions style =>
    obtain ⟨result, defined, rfl⟩ := gives.map
    obtain ⟨again, repeated, same⟩ := definitions_repeats loaded acyclic tenable defined held extended
    exact ⟨again, repeated.mapped, same⟩

/-- Each reply of a sequence is given at some point of it, and what is there then is still there in the end. -/
theorem replies_each {requests : List Request} (inside : ∀ request ∈ requests, request.Inside schema)
    {replies : List Reply} (tenable : before.Tenable schema.nodes)
    (gives : (schema.replies requests).Gives before replies after) {request : Request} {answer : Reply}
    (listed : (request, answer) ∈ requests.zip replies) : request.Inside schema ∧
      ∃ start finish : Derivation, start.Tenable schema.nodes ∧ (schema.reply request).Gives start answer finish ∧
        finish.stage.Extends schema.nodes after.stage := by
  induction requests generalizing before replies with
  | nil => cases listed
  | cons first rest ih =>
    obtain ⟨own, others⟩ := List.forall_mem_cons.mp inside
    unfold Schema.replies at gives
    rw [List.mapM_cons] at gives
    obtain ⟨reply, middle, answered, gives⟩ := gives.bind
    obtain ⟨replies, final, remaining, gives⟩ := gives.bind
    obtain ⟨rfl, rfl⟩ := gives.pure
    obtain ⟨held, _⟩ := (reply_safe loaded own).grows tenable answered
    rcases List.mem_cons.mp listed with same | listed
    · cases same
      exact ⟨own, before, middle, tenable, answered, ((replies_safe loaded others).grows held remaining).2⟩
    · exact ih others held remaining listed

/-- When what a single use stands for gets its builder, the use has no builder yet, or it has got the same on
the way. -/
theorem reference_agrees {id referenced : NodeId} (refers : schema.nodes.Refers id referenced)
    (tenable : before.Tenable schema.nodes) {builder : BuilderId}
    (gives : (schema.builder referenced).Gives before builder after) :
    after.builder? id = none ∨ after.builder? id = some builder := by
  have plan := Nodes.refers_iff.mp refers
  have within := loaded.formed.share_lt plan
  obtain ⟨held, _⟩ := (node_steady loaded within).grows tenable gives
  have answered := builder_found loaded within tenable.fits gives
  cases found : after.builder? id with
  | none => exact Or.inl rfl
  | some other =>
    have shared := ((held.settled.shared id other found).referred plan).found
    cases shared.symm.trans answered
    exact Or.inr rfl

omit loaded in
/-- What stays of requests when they have been answered, and of what was there before some of them. -/
structure Lasting (schema : Schema) (requests : List Request) (replies : List Reply)
    (before after : Derivation) : Prop where
  /-- A node that has a builder keeps it. -/
  keeps : ∀ id builder, before.builder? id = some builder → after.builder? id = some builder
  /-- What a node was asked for is the builder that it has. -/
  answers : ∀ id builder, (Request.builder id, Reply.builder builder) ∈ requests.zip replies →
    after.builder? id = some builder
  /-- Made once more, every request has the same reply and changes nothing. -/
  repeats : ∀ request reply, (request, reply) ∈ requests.zip replies →
    ∃ again, (schema.reply request).Gives after reply again ∧ again.builders = after.builders ∧ again.memo = after.memo
  /-- A single use that is given its builder late has none by then, or the same. -/
  agrees : ∀ id referenced builder middle, schema.nodes.Refers id referenced →
    (schema.builder referenced).Gives after builder middle →
    middle.builder? id = none ∨ middle.builder? id = some builder

/-- Whatever a sequence of requests leaves behind stays, and all that it was answered is answered again. It is answered
if it asks for builders alone, and otherwise if and only if each request ends when its turn comes. -/
theorem requests_repeat (acyclic : schema.nodes.Acyclic) {earlier further : List Request}
    (inside : ∀ request ∈ earlier ++ further, request.Inside schema) :
    ((∀ request ∈ earlier ++ further, request.Derives) → ∃ replies before more after,
      (schema.replies earlier).Gives schema.derivation replies before ∧
      (schema.replies further).Gives before more after) ∧
      ((∃ replies before more after, (schema.replies earlier).Gives schema.derivation replies before ∧
        (schema.replies further).Gives before more after) ↔ schema.AllEnd (earlier ++ further) schema.derivation) ∧
      ∀ replies before more after, (schema.replies earlier).Gives schema.derivation replies before →
        (schema.replies further).Gives before more after →
          schema.Lasting (earlier ++ further) (replies ++ more) before after := by
  obtain ⟨first, rest⟩ := List.forall_mem_append.mp inside
  have joined : schema.replies (earlier ++ further) =
      schema.replies earlier >>= fun replies => schema.replies further >>= fun more => pure (replies ++ more) :=
        List.mapM_append
  have answered : (∃ replies before more after, (schema.replies earlier).Gives schema.derivation replies before ∧
      (schema.replies further).Gives before more after) ↔ schema.AllEnd (earlier ++ further) schema.derivation := by
    rw [← replies_answered_iff loaded acyclic inside tenable_start, joined]
    constructor
    · exact fun ⟨_, _, _, after, gives, goes⟩ => ⟨_, after, gives.then (goes.then rfl)⟩
    · rintro ⟨_, _, all⟩
      obtain ⟨replies, before, gives, all⟩ := all.bind
      obtain ⟨more, after, goes, _⟩ := all.bind
      exact ⟨replies, before, more, after, gives, goes⟩
  refine ⟨fun derives => answered.mpr (.of_derives derives), answered, fun replies before more after gives goes => ?_⟩
  have all : (schema.replies (earlier ++ further)).Gives schema.derivation (replies ++ more) after :=
    joined ▸ gives.then (goes.then rfl)
  obtain ⟨tenable, _⟩ := (replies_safe loaded first).grows tenable_start gives
  obtain ⟨held, extended⟩ := (replies_safe loaded rest).grows tenable goes
  refine ⟨extended.memo, ?_, ?_, ?_⟩
  · intro id builder listed
    obtain ⟨inside, start, finish, began, answered, grown⟩ := replies_each loaded inside tenable_start all listed
    obtain ⟨_, derived, ⟨⟩⟩ := Derive.Gives.map answered
    exact grown.memo id builder (builder_found loaded inside began.fits derived)
  · intro request reply listed
    obtain ⟨inside, start, finish, began, answered, grown⟩ := replies_each loaded inside tenable_start all listed
    obtain ⟨again, repeated, same⟩ := reply_repeats loaded acyclic inside began answered held grown
    have fits := ((reply_safe loaded inside).grows held repeated).1.fits
    exact ⟨again, repeated, congrArg Stage.builders same, Derivation.memo_eq fits held.fits (congrArg Stage.memo same)⟩
  · intro id referenced builder middle refers derived
    exact reference_agrees loaded refers held derived

omit loaded in
set_option maxRecDepth 8000 in
theorem requests_repeat_entwined : entwined.Loaded ∧ entwined.nodes.Acyclic ∧
    (∀ request ∈ [Request.fields 3, .definitions {}] ++ [Request.builder 9, .tags], request.Inside entwined) ∧
      ∃ replies before more after,
        (entwined.replies [.fields 3, .definitions {}]).Gives entwined.derivation replies before ∧
        (entwined.replies [.builder 9, .tags]).Gives before more after ∧
        entwined.Lasting ([.fields 3, .definitions {}] ++ [.builder 9, .tags]) (replies ++ more) before after := by
  have inside : ∀ request ∈ [Request.fields 3, .definitions {}] ++ [Request.builder 9, .tags],
      request.Inside entwined := by
    simp only [List.cons_append, List.nil_append, List.forall_mem_cons]
    exact ⟨(by decide : 3 < entwined.nodes.size), trivial, (by decide : 9 < entwined.nodes.size), trivial,
      List.forall_mem_nil _⟩
  obtain ⟨_, _, lasting⟩ := requests_repeat entwined_loaded entwined_acyclic inside
  have outcome : ((entwined.replies [.fields 3, .definitions {}] >>= fun _ => entwined.replies [.builder 9, .tags]).run
      entwined.derivation).isSome := by cbv
  obtain ⟨⟨more, after⟩, ran⟩ := Option.isSome_iff_exists.mp outcome
  obtain ⟨replies, before, gives, goes⟩ := Derive.Gives.bind ran
  exact ⟨entwined_loaded, entwined_acyclic, inside, replies, before, more, after, gives, goes,
    lasting _ _ _ _ gives goes⟩

end Schema
end SchemaClasses
