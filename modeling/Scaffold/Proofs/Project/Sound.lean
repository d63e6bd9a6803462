import Mathlib.Data.Finset.Card
import Scaffold.Proofs.Project.Check

/-!
# Sound projects

A check finds no error exactly in sound projects (`Project.IsSound`): every name shows something, no
two entities share a label, and under the strict policy all parents are declared. A label that is
given again is reported each time (`Project.countP_repeats_entityIssues`, where the labels of the
entities passed so far are the invariant of the loop). The policy changes no issue but those of
undeclared parents, and only their severity (`Project.map_under_check`).
-/

namespace Scaffold

/-- Whether a name has a character that is not blank. -/
def ShowsName (name : String) : Prop := ∃ c ∈ name.toList, Text.isBlank c = false

theorem isBlankName_eq_true_iff {name : String} : isBlankName name = true ↔ ¬ ShowsName name := by
  simp [isBlankName, Text.isBlankText, ShowsName]

/-- What an entity is labeled with. -/
def EntityLabel.of : EntityLabel → Entity → String
  | name, e => e.name
  | singular, e => e.singular

/-- An entity whose names show something. -/
structure Entity.IsNamed (e : Entity) : Prop where
  name : ShowsName e.name
  singular : ShowsName e.singular
  fields : ∀ f ∈ e.fields, ShowsName f.name

/-- A project as a check under a policy wants it. -/
structure Project.IsSound (p : Project) (policy : RelationPolicy) : Prop where
  named : ShowsName p.name
  populated : p.entities ≠ []
  entities : ∀ e ∈ p.entities, e.IsNamed
  distinct : ∀ label : EntityLabel, (p.entities.map label.of).Nodup
  declared : policy = .strict →
    ∀ e ∈ p.entities, ∀ parent ∈ e.parents, ∃ e' ∈ p.entities, e'.name = parent

/-- Whether an error is about a label that is given again. -/
def ProjectError.repeats (label : EntityLabel) : ProjectError → Bool
  | duplicateEntity other _ => other = label
  | _ => false

/-- The issue with the severity that a policy gives it. -/
def Issue.under (policy : RelationPolicy) (i : Issue) : Issue :=
  match i.cause.relation? with
  | some _ => ⟨policy.severity, i.cause⟩
  | none => i

/-! ### Errors -/

namespace Issue

variable {condition : Prop} [Decidable condition] {cause : ProjectError} {a b : List Issue}

theorem firstError?_append : firstError? (a ++ b) = (firstError? a).or (firstError? b) := by
  simp only [firstError?, causes, List.filter_append, List.map_append, List.head?_append]

theorem firstError?_eq_none_iff : firstError? a = none ↔ ∀ i ∈ a, i.severity ≠ .error := by
  simp [firstError?, causes]

theorem firstError?_errorIf_eq_none_iff :
    firstError? (errorIf condition cause) = none ↔ ¬ condition := by
  simp [firstError?_eq_none_iff, mem_errorIf]

theorem countP_errorIf (counts : Issue → Bool) :
    (errorIf condition cause).countP counts =
      if condition ∧ counts ⟨.error, cause⟩ = true then 1 else 0 := by
  by_cases h : condition <;> simp [errorIf, h]

theorem map_under_eq_self {policy : RelationPolicy} (h : ∀ i ∈ a, i.cause.relation? = none) :
    a.map (under policy) = a := by
  have hself : ∀ i ∈ a, under policy i = i := fun i hi => by rw [under, h i hi]
  rw [List.map_congr_left hself, List.map_id']

end Issue

open Issue

theorem Entity.firstError?_nameIssues_eq_none_iff {e : Entity} :
    firstError? e.nameIssues = none ↔ e.IsNamed := by
  have hfields : firstError? (e.fields.flatMap fun f => errorIf (isBlankName f.name)
      (.invalidProject ("object '" ++ e.name ++ "' has a field with an empty name"))) = none ↔
        ∀ f ∈ e.fields, ShowsName f.name := by
    simp only [firstError?_eq_none_iff, List.forall_mem_flatMap]
    refine forall₂_congr fun f _ => ?_
    rw [← firstError?_eq_none_iff, firstError?_errorIf_eq_none_iff, isBlankName_eq_true_iff, not_not]
  rw [nameIssues, firstError?_append, firstError?_append, Option.or_eq_none_iff,
    Option.or_eq_none_iff, firstError?_errorIf_eq_none_iff, firstError?_errorIf_eq_none_iff, hfields,
    isBlankName_eq_true_iff, isBlankName_eq_true_iff, not_not, not_not]
  constructor
  · rintro ⟨⟨hname, hsingular⟩, hfields⟩
    exact ⟨hname, hsingular, hfields⟩
  · intro h
    exact ⟨⟨h.name, h.singular⟩, h.fields⟩

theorem EntityLabel.forall_iff {good : EntityLabel → Prop} :
    (∀ label, good label) ↔ good .name ∧ good .singular := by
  constructor
  · intro h
    exact ⟨h _, h _⟩
  · rintro ⟨hname, hsingular⟩ label
    cases label <;> assumption

theorem Entity.firstError?_repeatIssues_eq_none_iff {e : Entity} {earlier : List Entity} :
    firstError? (e.repeatIssues earlier) = none ↔
      ∀ label : EntityLabel, label.of e ∉ earlier.map label.of := by
  rw [repeatIssues, firstError?_append, Option.or_eq_none_iff, firstError?_errorIf_eq_none_iff,
    firstError?_errorIf_eq_none_iff, EntityLabel.forall_iff]
  rfl

namespace Project

variable {p : Project} {policy : RelationPolicy}

theorem exists_detail_of_mem_ownIssues {i : Issue}
    (h : i ∈ errorIf (isBlankName p.name) (.invalidProject "project name is empty") ++
      errorIf (p.entities = []) (.invalidProject "project declares no objects")) :
    ∃ detail, i = ⟨.error, .invalidProject detail⟩ := by
  simp only [List.mem_append, mem_errorIf] at h
  rcases h with ⟨-, rfl⟩ | ⟨-, rfl⟩ <;> exact ⟨_, rfl⟩

theorem unresolvedParents_eq_nil_iff {e : Entity} : Relations.unresolvedParents p e = [] ↔
    ∀ parent ∈ e.parents, ∃ e' ∈ p.entities, e'.name = parent := by
  simp [Relations.unresolvedParents, entity?]

theorem firstError?_parentIssues_eq_none_iff {e : Entity} :
    firstError? (p.parentIssues policy e) = none ↔
      (policy = .strict → Relations.unresolvedParents p e = []) := by
  rw [firstError?_eq_none_iff, parentIssues, List.forall_mem_map]
  cases policy <;> simp [RelationPolicy.severity, List.eq_nil_iff_forall_not_mem]

/-- No error is found among entities that are named, are labeled otherwise than those before them
and each other, and have declared parents where the policy asks for them. -/
theorem firstError?_entityIssues_eq_none_iff {earlier rest : List Entity} :
    firstError? (p.entityIssues policy earlier rest) = none ↔
      (∀ e ∈ rest, e.IsNamed) ∧
      (∀ label : EntityLabel, (rest.map label.of).Nodup ∧
        ∀ e ∈ rest, label.of e ∉ earlier.map label.of) ∧
      (policy = .strict → ∀ e ∈ rest, Relations.unresolvedParents p e = []) := by
  induction rest generalizing earlier with
  | nil => simp [entityIssues, firstError?, causes]
  | cons e rest ih =>
    rw [entityIssues, firstError?_append, firstError?_append, firstError?_append,
      Option.or_eq_none_iff, Option.or_eq_none_iff, Option.or_eq_none_iff,
      Entity.firstError?_nameIssues_eq_none_iff, Entity.firstError?_repeatIssues_eq_none_iff,
      firstError?_parentIssues_eq_none_iff, ih]
    simp only [List.forall_mem_cons, List.map_cons, List.nodup_cons]
    simp only [List.mem_cons, not_or]
    constructor
    · rintro ⟨⟨⟨hnamed, hnew⟩, hparents⟩, hrest, hlabels, hdeclared⟩
      refine ⟨⟨hnamed, hrest⟩, fun label => ?_, fun h => ⟨hparents h, hdeclared h⟩⟩
      obtain ⟨hnodup, hapart⟩ := hlabels label
      refine ⟨⟨fun hmem => ?_, hnodup⟩, hnew label, fun e' he' => (hapart e' he').2⟩
      obtain ⟨e', he', heq⟩ := List.mem_map.1 hmem
      exact (hapart e' he').1 heq
    · rintro ⟨⟨hnamed, hrest⟩, hlabels, hdeclared⟩
      refine ⟨⟨⟨hnamed, fun label => (hlabels label).2.1⟩, fun h => (hdeclared h).1⟩, hrest,
        fun label => ?_, fun h => (hdeclared h).2⟩
      obtain ⟨⟨hnot, hnodup⟩, -, hapart⟩ := hlabels label
      refine ⟨hnodup, fun e' he' => ⟨fun heq => hnot ?_, hapart e' he'⟩⟩
      exact List.mem_map.2 ⟨e', he', heq⟩

/-- A check finds no error in sound projects, and only in them. -/
theorem firstError?_check_eq_none_iff :
    firstError? (p.check policy) = none ↔ p.IsSound policy := by
  rw [check, firstError?_append, firstError?_append, Option.or_eq_none_iff, Option.or_eq_none_iff,
    firstError?_errorIf_eq_none_iff, firstError?_errorIf_eq_none_iff, isBlankName_eq_true_iff, not_not,
    firstError?_entityIssues_eq_none_iff]
  simp only [unresolvedParents_eq_nil_iff, List.map_nil, List.not_mem_nil, not_false_eq_true,
    implies_true, and_true]
  constructor
  · rintro ⟨⟨hnamed, hsome⟩, hentities, hdistinct, hdeclared⟩
    exact ⟨hnamed, hsome, hentities, hdistinct, hdeclared⟩
  · intro h
    exact ⟨⟨h.named, h.populated⟩, h.entities, h.distinct, h.declared⟩

/-! ### Labels that are given again -/

section
variable (label : EntityLabel)

theorem countP_repeats_nameIssues (e : Entity) :
    e.nameIssues.countP (fun i => i.cause.repeats label) = 0 := by
  refine List.countP_eq_zero.2 fun i hi => ?_
  obtain ⟨detail, rfl⟩ := Entity.exists_detail_of_mem_nameIssues hi
  exact Bool.false_ne_true

theorem countP_repeats_repeatIssues (e : Entity) (earlier : List Entity) :
    (e.repeatIssues earlier).countP (fun i => i.cause.repeats label) =
      if label.of e ∈ earlier.map label.of then 1 else 0 := by
  rw [Entity.repeatIssues, List.countP_append, countP_errorIf, countP_errorIf]
  cases label <;> simp [ProjectError.repeats, EntityLabel.of]

theorem countP_repeats_parentIssues (e : Entity) :
    (p.parentIssues policy e).countP (fun i => i.cause.repeats label) = 0 := by
  refine List.countP_eq_zero.2 fun i hi => ?_
  obtain ⟨name, -, rfl⟩ := List.mem_map.1 hi
  exact Bool.false_ne_true

/-- With the labels that are new, those given again are as many as the entities. -/
theorem countP_repeats_entityIssues (earlier rest : List Entity) :
    (p.entityIssues policy earlier rest).countP (fun i => i.cause.repeats label) +
        ((earlier ++ rest).map label.of).toFinset.card =
      rest.length + (earlier.map label.of).toFinset.card := by
  induction rest generalizing earlier with
  | nil => simp [entityIssues]
  | cons e rest ih =>
    have hseen : ((earlier ++ e :: rest).map label.of).toFinset =
        ((e :: earlier ++ rest).map label.of).toFinset :=
      List.toFinset_eq_of_perm _ _ (List.perm_middle.map _)
    have hmore : ((e :: earlier).map label.of).toFinset.card =
        (earlier.map label.of).toFinset.card +
          if label.of e ∈ earlier.map label.of then 0 else 1 := by
      rw [List.map_cons, List.toFinset_cons, Finset.card_insert_eq_ite]
      simp only [List.mem_toFinset]
      split <;> rfl
    have hrest := ih (e :: earlier)
    rw [entityIssues, List.countP_append, List.countP_append, List.countP_append,
      countP_repeats_nameIssues, countP_repeats_repeatIssues, countP_repeats_parentIssues, hseen,
      List.length_cons]
    rw [hmore] at hrest
    split at hrest <;> simp only [*, if_true, if_false] <;> omega

end

/-! ### The policy -/

section
variable (other : RelationPolicy)

theorem map_under_ownIssues (e : Entity) (earlier : List Entity) :
    (e.nameIssues ++ e.repeatIssues earlier).map (under other) =
      e.nameIssues ++ e.repeatIssues earlier :=
  map_under_eq_self fun i hi =>
    List.filterMap_eq_nil_iff.1 (e.filterMap_relation?_ownIssues earlier) i hi

theorem map_under_parentIssues (e : Entity) :
    (p.parentIssues policy e).map (under other) = p.parentIssues other e := by
  rw [parentIssues, parentIssues, List.map_map]
  rfl

theorem map_under_entityIssues (earlier rest : List Entity) :
    (p.entityIssues policy earlier rest).map (under other) = p.entityIssues other earlier rest := by
  induction rest generalizing earlier with
  | nil => rfl
  | cons e rest ih =>
    rw [entityIssues, entityIssues, List.map_append, List.map_append, map_under_ownIssues,
      map_under_parentIssues, ih]

/-- A check under another policy gives some issues another severity, and is the same otherwise. -/
theorem map_under_check : (p.check policy).map (under other) = p.check other := by
  rw [check, check, List.map_append, map_under_entityIssues, map_under_eq_self]
  intro i hi
  obtain ⟨detail, rfl⟩ := exists_detail_of_mem_ownIssues hi
  rfl

end

/-- A check finds no error exactly in sound projects. It reports a label as often as it is given
again, and under another policy it reports the same, with another severity for parents that are
not declared. -/
theorem check_exact (p : Project) (policy : RelationPolicy) :
    (firstError? (p.check policy) = none ↔ p.IsSound policy) ∧
    (∀ label : EntityLabel, (p.check policy).countP (fun i => i.cause.repeats label) =
      p.entities.length - (p.entities.map label.of).toFinset.card) ∧
    ∀ other, p.check other = (p.check policy).map (under other) := by
  refine ⟨firstError?_check_eq_none_iff, fun label => ?_, fun other => (map_under_check other).symm⟩
  have hown : (errorIf (isBlankName p.name) (.invalidProject "project name is empty") ++
      errorIf (p.entities = []) (.invalidProject "project declares no objects")).countP
        (fun i => i.cause.repeats label) = 0 := by
    refine List.countP_eq_zero.2 fun i hi => ?_
    obtain ⟨detail, rfl⟩ := exists_detail_of_mem_ownIssues hi
    exact Bool.false_ne_true
  have hloop : (p.entityIssues policy [] p.entities).countP (fun i => i.cause.repeats label) +
      (p.entities.map label.of).toFinset.card = p.entities.length := by
    simpa using countP_repeats_entityIssues label [] p.entities
  rw [check, List.countP_append, hown, Nat.zero_add]
  omega

end Project

end Scaffold
